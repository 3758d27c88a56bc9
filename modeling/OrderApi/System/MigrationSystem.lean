import OrderApi.Prisma.TenantMigration
import OrderApi.System.TenancyPhases

/-
  Runs of the two migration runners: handled messages of the
  database-creation queue, and runs of `migrateAllTenants`,
  interleaved call by call with the creation of users.

  Both runners walk through the migrations in order.  The
  consumer logs a migration and then executes it; the
  service executes it first, and goes on with the next one
  when a statement fails.

  Key definitions include:
    * `MigrationJob`, `migrationSystem`, `MigrationRun`
    * `Reading`, `MigrationPhase`
    * `MigrationPhase.Moves`
    * `migrationScript`

  Key theorems include:
    * `migrationSystem_performs`
-/

------------------------------------------------------------
-- The System
------------------------------------------------------------

namespace OrderApi

/-
  What may be started.  `clientUrl` is the URL of the client
  that `getClient` returns for a tenant code.
-/
inductive MigrationJob where
  | tenancy (job : TenancyJob)
  | migrateAllTenants (clientUrl : String → String)

namespace MigrationJob

/- The route of `migrateAllTenants` has no guards. -/
def ready (store : Registry) : MigrationJob → Bool
  | tenancy job => job.ready store
  | migrateAllTenants _ => true

/- The program of a job, its result forgotten. -/
def handler
    (platform : Platform)
    (env : Environment)
    (files : MigrationFiles) :
    MigrationJob → TenancyHandler Unit
  | tenancy job => job.handler platform env files
  | migrateAllTenants clientUrl =>
      (TenantMigrationService.migrateAllTenants clientUrl
        files).ignore

/- The database that a job provisions. -/
def provisions?
    (platform : Platform)
    (env : Environment) : MigrationJob → Option String
  | tenancy (.handleDatabaseCreation message) =>
      some (message.databaseName platform env)
  | _ => none

end MigrationJob

/- The registry with all jobs started so far. -/
abbrev MigrationWorld :=
  Pool MigrationJob TenancyOp TenancyOp.Res ApiError
    Registry

abbrev MigrationLabel := PoolLabel MigrationJob Choice

abbrev MigrationStep :=
  Transition MigrationWorld MigrationLabel

def migrationSystem
    (platform : Platform)
    (env : Environment)
    (files : MigrationFiles) :
    PoolSystem MigrationJob TenancyOp TenancyOp.Res ApiError
      Choice Registry where
  exec := TenancyOp.exec platform
  program := MigrationJob.handler platform env files
  ready := MigrationJob.ready

/- Runs of the system from a store where nothing runs. -/
abbrev MigrationRun
    (platform : Platform)
    (env : Environment)
    (files : MigrationFiles)
    (store : Registry) :
    List MigrationStep → MigrationWorld → Prop :=
  Run (migrationSystem platform env files).step
    (PoolSystem.idle store)

end OrderApi

------------------------------------------------------------
-- Phases
------------------------------------------------------------

namespace OrderApi

/-
  How far a runner has come in a tenant database.  `sound`
  tells that no statement has failed since it connected, and
  `drops` is the database that it may drop.
-/
structure Reading where
  drops : Option String
  url : String
  sound : Bool
  done : List Migration
  rest : List Migration

/- What a job is about to do. -/
inductive MigrationPhase where
  /- about to create a database -/
  | opening (name : String)
  /- apart from the log of any database -/
  | apart (drops : Option String)
  /- about to look for the next migration in the log -/
  | between (reading : Reading)
  /-
    Amid a migration, with statements left.  A runner that
    has logged it knows the id of its row.
  -/
  | amid
      (reading : Reading)
      (id? : Option String)
      (migration : Migration)
      (left : List String)

/- A migration is behind the reader. -/
def Reading.past
    (reading : Reading)
    (sound : Bool)
    (migration : Migration) : Reading :=
  { reading with
    sound := sound
    done := reading.done ++ [migration] }

/- The calls that leave the databases as they are. -/
def TenancyOp.isApart : TenancyOp → Bool
  | createDatabase _ => false
  | dropDatabase _ => false
  | tenantClient _ .createMigrationsTable => true
  | tenantClient _ (.findMigrations _) => true
  | tenantClient _ (.rollBackMigration _) => true
  | tenantClient _ _ => false
  | _ => true

namespace MigrationPhase

/- The database that a job in the phase may drop. -/
def drops? : MigrationPhase → Option String
  | opening name => some name
  | apart drops => drops
  | between reading => reading.drops
  | amid reading _ _ _ => reading.drops

def reading? : MigrationPhase → Option Reading
  | between reading => some reading
  | amid reading _ _ _ => some reading
  | _ => none

def opens : MigrationPhase → Bool
  | opening _ => true
  | _ => false

/-
  The calls that each phase allows, with the phase after
  each answer.
-/
inductive Moves
    (platform : Platform)
    (files : MigrationFiles) :
    Protocol TenancyOp TenancyOp.Res ApiError MigrationPhase
  | stay
      {phase : MigrationPhase}
      {op : TenancyOp}
      {answer : Except ApiError op.Res}
      (hApart : op.isApart = true) :
      Moves platform files phase op answer phase
  | stop
      {phase : MigrationPhase}
      {op : TenancyOp}
      {error : ApiError} :
      Moves platform files phase op (.error error)
        (apart phase.drops?)
  | create
      {name : String}
      {result : Unit} :
      Moves platform files (opening name)
        (.createDatabase name) (.ok result)
        (apart (some name))
  | drop
      {name : String}
      {answer : Except ApiError Unit} :
      Moves platform files (apart (some name))
        (.dropDatabase name) answer (apart (some name))
  | connect
      {phase : MigrationPhase}
      {url : String}
      {result : Unit} :
      Moves platform files phase (.tenantClient url .connect)
        (.ok result)
        (between
          ⟨phase.drops?, url, true, [], files.inOrder⟩)
  | found
      {drops : Option String}
      {url : String}
      {sound : Bool}
      {done rest : List Migration}
      {migration : Migration}
      {ids : List String}
      (hIds : ids ≠ []) :
      Moves platform files
        (between ⟨drops, url, sound, done, migration :: rest⟩)
        (.tenantClient url (.findMigrations migration.name))
        (.ok ids)
        (between
          ⟨drops, url, sound, done ++ [migration], rest⟩)
  | begin
      {drops : Option String}
      {url : String}
      {sound : Bool}
      {done rest : List Migration}
      {migration : Migration} :
      Moves platform files
        (between ⟨drops, url, sound, done, migration :: rest⟩)
        (.tenantClient url (.findMigrations migration.name))
        (.ok [])
        (amid ⟨drops, url, sound, done, rest⟩ none migration
          (TenantMigrationService.issued migration.sql))
  | log
      {drops : Option String}
      {url checksum id : String}
      {done rest : List Migration}
      {migration : Migration} :
      Moves platform files
        (between ⟨drops, url, true, done, migration :: rest⟩)
        (.tenantClient url
          (.insertMigration migration.name checksum))
        (.ok id)
        (amid ⟨drops, url, true, done, rest⟩ (some id)
          migration (pendingStatements platform migration.sql))
  | execute
      {reading : Reading}
      {id? : Option String}
      {migration : Migration}
      {statement : String}
      {left : List String}
      {result : Unit} :
      Moves platform files
        (amid reading id? migration (statement :: left))
        (.tenantClient reading.url
          (.executeStatement statement))
        (.ok result) (amid reading id? migration left)
  | breakOff
      {reading : Reading}
      {migration : Migration}
      {statement : String}
      {left : List String}
      {error : ApiError} :
      Moves platform files
        (amid reading none migration (statement :: left))
        (.tenantClient reading.url
          (.executeStatement statement))
        (.error error) (between (reading.past false migration))
  | logApplied
      {reading : Reading}
      {migration : Migration}
      {count : Nat}
      {answer : Except ApiError String} :
      Moves platform files (amid reading none migration [])
        (.tenantClient reading.url
          (.insertApplied migration.name count))
        answer
        (between (reading.past reading.sound migration))
  | finish
      {reading : Reading}
      {id : String}
      {migration : Migration}
      {count : Nat}
      {result : Unit} :
      Moves platform files
        (amid reading (some id) migration [])
        (.tenantClient reading.url
          (.finishMigration id count))
        (.ok result)
        (between (reading.past reading.sound migration))

end MigrationPhase

/- The phase in which a job starts. -/
def MigrationJob.phase
    (platform : Platform)
    (env : Environment)
    (job : MigrationJob) : MigrationPhase :=
  match job.provisions? platform env with
  | some name => .opening name
  | none => .apart none

/-
  A job only creates and drops the database that it is to
  provision, and walks through the migrations in order.
-/
structure MigrationJob.Owns
    (platform : Platform)
    (env : Environment)
    (files : MigrationFiles)
    (job : MigrationJob)
    (phase : MigrationPhase) : Prop where
  drops :
    ∀ name ∈ phase.drops?,
      job.provisions? platform env = some name
  between :
    ∀ reading, phase = .between reading →
      reading.done ++ reading.rest = files.inOrder
  amid :
    ∀ reading id? migration left,
      phase = .amid reading id? migration left →
        reading.done ++ migration :: reading.rest =
          files.inOrder

namespace MigrationJob.Owns

variable {platform : Platform} {env : Environment}
variable {files : MigrationFiles} {job : MigrationJob}
variable {reading : Reading}

/- A job that is apart may be about to drop. -/
theorem of_apart
    {drops : Option String}
    (hDrops :
      ∀ name ∈ drops,
        job.provisions? platform env = some name) :
    job.Owns platform env files (.apart drops) where
  drops := hDrops
  between := by rintro _ ⟨⟩
  amid := by rintro _ _ _ _ ⟨⟩

/- A job between migrations has them in order. -/
theorem of_between
    (hDrops :
      ∀ name ∈ reading.drops,
        job.provisions? platform env = some name)
    (hOrder : reading.done ++ reading.rest = files.inOrder) :
    job.Owns platform env files (.between reading) where
  drops := hDrops
  between := by
    rintro _ ⟨⟩
    exact hOrder
  amid := by rintro _ _ _ _ ⟨⟩

/- A job amid a migration has it in its place. -/
theorem of_amid
    {id? : Option String}
    {migration : Migration}
    {left : List String}
    (hDrops :
      ∀ name ∈ reading.drops,
        job.provisions? platform env = some name)
    (hOrder :
      reading.done ++ migration :: reading.rest =
        files.inOrder) :
    job.Owns platform env files
      (.amid reading id? migration left) where
  drops := hDrops
  between := by rintro _ ⟨⟩
  amid := by
    rintro _ _ _ _ ⟨⟩
    exact hOrder

/- A migration that is done is behind the reader. -/
theorem of_past
    {id? : Option String}
    {migration : Migration}
    {left : List String}
    {sound : Bool}
    (hOwns :
      job.Owns platform env files
        (.amid reading id? migration left)) :
    job.Owns platform env files
      (.between (reading.past sound migration)) := by
  have hOrder := hOwns.amid _ _ _ _ rfl
  exact of_between hOwns.drops (by simpa [Reading.past])

end MigrationJob.Owns

/- The protocol of the two runners, with their phases. -/
def migrationScript
    (platform : Platform)
    (env : Environment)
    (files : MigrationFiles) :
    Script MigrationJob TenancyOp TenancyOp.Res ApiError
      MigrationPhase where
  protocol := MigrationPhase.Moves platform files
  first := MigrationJob.phase platform env
  Ends := fun _ _ _ => True
  Owns := MigrationJob.Owns platform env files
  owns_first := by
    intro job
    unfold MigrationJob.phase
    cases hJob : job.provisions? platform env with
    | none => exact MigrationJob.Owns.of_apart (by simp)
    | some name =>
        refine ⟨?_, by rintro _ ⟨⟩, by rintro _ _ _ _ ⟨⟩⟩
        rintro _ ⟨⟩
        exact hJob
  owns_next := by
    intro job phase op answer phase' hOwns hMoves
    have hDrops := hOwns.drops
    cases hMoves with
    | stay hApart => exact hOwns
    | stop => exact .of_apart hDrops
    | create => exact .of_apart hDrops
    | drop => exact .of_apart hDrops
    | connect => exact .of_between hDrops rfl
    | found hIds =>
        have hOrder := hOwns.between _ rfl
        exact .of_between hDrops (by simpa using hOrder)
    | begin => exact .of_amid hDrops (hOwns.between _ rfl)
    | log => exact .of_amid hDrops (hOwns.between _ rfl)
    | execute => exact .of_amid hDrops (hOwns.amid _ _ _ _ rfl)
    | breakOff => exact hOwns.of_past
    | logApplied => exact hOwns.of_past
    | finish => exact hOwns.of_past

end OrderApi

------------------------------------------------------------
-- Conformance of the Service
------------------------------------------------------------

namespace OrderApi

open Program

namespace MigrationPhase

variable {platform : Platform} {files : MigrationFiles}
variable {drops : Option String} {url : String}
variable {before after : List Migration}

/- A program of such calls stays in its phase. -/
theorem conforms_of_calls
    {α : Type}
    {program : TenancyHandler α}
    {phase : MigrationPhase}
    (hCalls : Calls (fun op => op.isApart = true) program) :
    Conforms (Moves platform files)
      (fun _ phase' => phase' = phase) program phase :=
  hCalls.conforms fun _ _ hApart => Moves.stay hApart

/- Behind a migration, whether its statements failed. -/
def Past
    (drops : Option String)
    (url : String)
    (before after : List Migration)
    (phase : MigrationPhase) : Prop :=
  ∃ sound,
    phase = between ⟨drops, url, sound, before, after⟩

/- The statements of a migration, and its log entry. -/
theorem conforms_applyMigration
    {sound : Bool}
    (migration : Migration) :
    Conforms (Moves platform files)
      (fun _ phase =>
        Past drops url (before ++ [migration]) after phase)
      (TenantMigrationService.applyMigration url migration)
      (amid ⟨drops, url, sound, before, after⟩ none migration
        (TenantMigrationService.issued migration.sql)) := by
  unfold TenantMigrationService.applyMigration
  generalize (TenantMigrationService.statements
    migration.sql).length = count
  induction TenantMigrationService.issued migration.sql with
  | nil =>
      intro answer
      refine
        ⟨between
            ⟨drops, url, sound, before ++ [migration],
              after⟩,
          Moves.logApplied, ?_⟩
      cases answer with
      | ok id => exact ⟨sound, rfl⟩
      | error error => exact ⟨sound, rfl⟩
  | cons statement left ih =>
      intro answer
      cases answer with
      | ok result => exact ⟨_, Moves.execute, ih⟩
      | error error =>
          exact ⟨_, Moves.breakOff, false, rfl⟩

/- A result, if there is one, comes behind a migration. -/
def Reported
    (drops : Option String)
    (url : String)
    (before after : List Migration)
    (outcome :
      Except ApiError TenantMigrationService.MigrationResult)
    (phase : MigrationPhase) : Prop :=
  outcome.isOk → Past drops url before after phase

/- Outcomes are put into a result, and errors as well. -/
theorem conforms_report
    (program : TenancyHandler Unit)
    (phase : MigrationPhase)
    (applied : TenantMigrationService.MigrationResult)
    (failed :
      ApiError → TenantMigrationService.MigrationResult)
    (hProgram :
      Conforms (Moves platform files)
        (fun _ q => Past drops url before after q) program
        phase) :
    Conforms (Moves platform files)
      (Reported drops url before after)
      ((program.bind fun _ => done applied).attempt
        fun error => done (failed error))
      phase := by
  apply conforms_attempt
  apply conforms_bind
  apply hProgram.mono
  intro outcome phase' hPast
  cases outcome with
  | ok result => exact fun _ => hPast
  | error error => exact fun _ => hPast

/- One migration, whether it is in the log or not. -/
theorem conforms_runMigration
    {sound : Bool}
    (tenantCode : String)
    (migration : Migration) :
    Conforms (Moves platform files)
      (Reported drops url (before ++ [migration]) after)
      (TenantMigrationService.runMigration tenantCode url
        migration)
      (between
        ⟨drops, url, sound, before, migration :: after⟩) := by
  unfold TenantMigrationService.runMigration
  apply conforms_bind
  apply conforms_perform
  intro answer
  cases answer with
  | error error => exact ⟨apart drops, Moves.stop, nofun⟩
  | ok ids =>
      cases ids with
      | cons id ids =>
          exact
            ⟨_, Moves.found (List.cons_ne_nil id ids),
              fun _ => ⟨sound, rfl⟩⟩
      | nil =>
          refine ⟨_, Moves.begin, ?_⟩
          apply conforms_report
          exact conforms_applyMigration migration

/- The migrations that are left of a tenant. -/
theorem conforms_runMigrations
    {sound : Bool}
    (tenantCode : String)
    (migrations : List Migration) :
    Conforms (Moves platform files) (fun _ _ => True)
      (TenantMigrationService.runMigrations tenantCode url
        migrations)
      (between
        ⟨drops, url, sound, before, migrations⟩) := by
  induction migrations generalizing before sound with
  | nil => trivial
  | cons migration migrations ih =>
      apply conforms_bind
      apply (conforms_runMigration tenantCode migration).mono
      intro outcome phase hOutcome
      cases outcome with
      | error error => trivial
      | ok result =>
          rcases hOutcome rfl with ⟨sound', rfl⟩
          apply conforms_bind
          apply ih.mono
          intro outcome' phase' _
          cases outcome' with
          | ok results => trivial
          | error error => trivial

/- A tenant, from whatever phase. -/
theorem conforms_migrateTenant
    {phase : MigrationPhase}
    (tenantCode : String) :
    Conforms (Moves platform files) (fun _ _ => True)
      (TenantMigrationService.migrateTenant files tenantCode
        url)
      phase := by
  apply conforms_bind
  apply conforms_perform
  intro answer
  cases answer with
  | error error => exact ⟨_, Moves.stop, trivial⟩
  | ok result =>
      refine ⟨_, Moves.connect, ?_⟩
      apply conforms_bind
      apply conforms_perform
      intro answer
      refine ⟨_, Moves.stay rfl, ?_⟩
      cases answer with
      | error error => trivial
      | ok result =>
          apply conforms_bind
          apply (conforms_runMigrations tenantCode _).mono
          intro outcome phase' _
          cases outcome with
          | error error => trivial
          | ok results =>
              intro answer
              refine ⟨_, Moves.stay rfl, ?_⟩
              cases answer with
              | ok result => trivial
              | error error => trivial

theorem conforms_migrateTenants
    {phase : MigrationPhase}
    (clientUrl : String → String)
    (tenantCodes : List String) :
    Conforms (Moves platform files) (fun _ _ => True)
      (TenantMigrationService.migrateTenants clientUrl files
        tenantCodes)
      phase := by
  induction tenantCodes generalizing phase with
  | nil => trivial
  | cons tenantCode tenantCodes ih =>
      apply conforms_bind
      apply (conforms_migrateTenant tenantCode).mono
      intro outcome phase' _
      cases outcome with
      | error error => trivial
      | ok results =>
          apply conforms_bind
          apply ih.mono
          intro outcome' phase'' _
          cases outcome' with
          | ok others => trivial
          | error error => trivial

/- A run of the service conforms to the protocol. -/
theorem conforms_migrateAllTenants
    {phase : MigrationPhase}
    (clientUrl : String → String) :
    Conforms (Moves platform files) (fun _ _ => True)
      (TenantMigrationService.migrateAllTenants clientUrl
        files)
      phase := by
  intro answer
  refine ⟨phase, Moves.stay rfl, ?_⟩
  cases answer with
  | error error => trivial
  | ok tenants => exact conforms_migrateTenants clientUrl _

end MigrationPhase

end OrderApi

------------------------------------------------------------
-- Conformance of the Consumer
------------------------------------------------------------

namespace OrderApi

open Program

namespace MigrationPhase

variable {platform : Platform} {files : MigrationFiles}
variable {drops : Option String} {url : String}
variable {before after : List Migration}
variable {reading : Reading} {phase phase' : MigrationPhase}

/- A part of the migration returns in a phase, or stops. -/
def Reaches
    {α : Type}
    (drops : Option String)
    (phase : MigrationPhase) :
    Except ApiError α → MigrationPhase → Prop
  | .ok _, phase' => phase' = phase
  | .error _, phase' => phase' = apart drops

/- Sequential rule for parts of the migration. -/
theorem conforms_bind_reaches
    {α β : Type}
    {program : TenancyHandler α}
    {next : α → TenancyHandler β}
    {middle : MigrationPhase}
    (hFirst :
      Conforms (Moves platform files) (Reaches drops middle)
        program phase)
    (hNext :
      ∀ value,
        Conforms (Moves platform files)
          (Reaches drops phase') (next value) middle) :
    Conforms (Moves platform files) (Reaches drops phase')
      (program.bind next) phase := by
  apply conforms_bind
  apply hFirst.mono
  intro outcome q hReaches
  cases outcome with
  | ok value =>
      have hMiddle : q = middle := hReaches
      rw [hMiddle]
      exact hNext value
  | error error => exact hReaches

/- A call on the tenant client, apart from its answer. -/
theorem conforms_onTenant
    {op : SchemaOp}
    (hMoves :
      ∀ result,
        Moves platform files phase (.tenantClient url op)
          (.ok result) phase') :
    Conforms (Moves platform files)
      (Reaches phase.drops? phase')
      (DatabaseCreationConsumer.onTenant url op) phase := by
  apply conforms_perform
  intro answer
  cases answer with
  | ok result => exact ⟨phase', hMoves result, rfl⟩
  | error error => exact ⟨_, Moves.stop, rfl⟩

/- The statement loop executes what is not skipped. -/
theorem conforms_executeStatements
    {id : String}
    {migration : Migration}
    (statements : List String) :
    Conforms (Moves platform files)
      (Reaches reading.drops
        (amid reading (some id) migration []))
      (forEach statements
        (DatabaseCreationConsumer.executeStatement platform
          reading.url))
      (amid reading (some id) migration
        (statements.filter fun statement =>
          !shouldSkipStatement platform statement)) := by
  induction statements with
  | nil => rfl
  | cons statement statements ih =>
      cases hSkip :
          shouldSkipStatement platform statement with
      | true =>
          simp only [forEach,
            DatabaseCreationConsumer.executeStatement, hSkip,
            if_true, List.filter_cons, Bool.not_true,
            Bool.false_eq_true, if_false]
          exact ih
      | false =>
          simp only [forEach,
            DatabaseCreationConsumer.executeStatement, hSkip,
            Bool.false_eq_true, if_false, List.filter_cons,
            Bool.not_false, if_true]
          exact
            conforms_bind_reaches
              (conforms_onTenant fun _ => Moves.execute)
              fun _ => ih

/- A migration that is logged is executed, or stops. -/
theorem conforms_fillMigration
    {id : String}
    (reading : Reading)
    (migration : Migration) :
    Conforms (Moves platform files)
      (Reaches reading.drops
        (between (reading.past reading.sound migration)))
      (DatabaseCreationConsumer.applyMigration platform
        reading.url migration.sql id)
      (amid reading (some id) migration
        (pendingStatements platform migration.sql)) := by
  apply conforms_attempt
  have hBody :
      Conforms (Moves platform files)
        (Reaches reading.drops
          (between (reading.past reading.sound migration)))
        ((forEach (statements migration.sql)
          (DatabaseCreationConsumer.executeStatement platform
            reading.url)).bind fun _ =>
          DatabaseCreationConsumer.onTenant reading.url
            (.finishMigration id
              (statementCount migration.sql)))
        (amid reading (some id) migration
          (pendingStatements platform migration.sql)) :=
    conforms_bind_reaches (conforms_executeStatements _)
      fun _ => conforms_onTenant fun _ => Moves.finish
  apply hBody.mono
  intro outcome q hReaches
  cases outcome with
  | ok result => exact hReaches
  | error migrationError =>
      have hApart : q = apart reading.drops := hReaches
      rw [hApart]
      -- marking the row as rolled back changes no phase
      apply conforms_bind
      apply conforms_perform
      intro answer
      refine ⟨_, Moves.stay rfl, ?_⟩
      cases answer with
      | ok result => rfl
      | error error => rfl

/- One migration of the consumer. -/
theorem conforms_provisionMigration
    (migration : Migration) :
    Conforms (Moves platform files)
      (Reaches drops
        (between
          ⟨drops, url, true, before ++ [migration], after⟩))
      (DatabaseCreationConsumer.runMigration platform url
        migration)
      (between
        ⟨drops, url, true, before, migration :: after⟩) := by
  unfold DatabaseCreationConsumer.runMigration
  apply conforms_bind
  apply conforms_perform
  intro answer
  cases answer with
  | error error => exact ⟨apart drops, Moves.stop, rfl⟩
  | ok ids =>
      cases ids with
      | cons id ids =>
          exact
            ⟨_, Moves.found (List.cons_ne_nil id ids), rfl⟩
      | nil =>
          refine ⟨_, Moves.stay rfl, ?_⟩
          apply conforms_bind
          apply conforms_perform
          intro answer
          cases answer with
          | error error =>
              exact ⟨apart drops, Moves.stop, rfl⟩
          | ok id =>
              exact
                ⟨_, Moves.log,
                  conforms_fillMigration
                    ⟨drops, url, true, before, after⟩
                    migration⟩

theorem conforms_provisionMigrations
    (migrations : List Migration) :
    Conforms (Moves platform files)
      (Reaches drops
        (between
          ⟨drops, url, true, before ++ migrations, []⟩))
      (forEach migrations
        (DatabaseCreationConsumer.runMigration platform url))
      (between ⟨drops, url, true, before, migrations⟩) := by
  induction migrations generalizing before with
  | nil =>
      rw [List.append_nil]
      rfl
  | cons migration migrations ih =>
      have hRest := @ih (before ++ [migration])
      rw [List.append_assoc, List.singleton_append] at hRest
      exact
        conforms_bind_reaches
          (conforms_provisionMigration migration)
          fun _ => hRest

/- A program that fails is apart from the log by then. -/
def Stops
    {α : Type}
    (drops : Option String)
    (outcome : Except ApiError α)
    (phase : MigrationPhase) : Prop :=
  outcome.isOk = false → phase = apart drops

theorem conforms_bind_stops
    {α β : Type}
    {program : TenancyHandler α}
    {next : α → TenancyHandler β}
    {middle : MigrationPhase}
    (hFirst :
      Conforms (Moves platform files) (Reaches drops middle)
        program phase)
    (hNext :
      ∀ value,
        Conforms (Moves platform files) (Stops drops)
          (next value) middle) :
    Conforms (Moves platform files) (Stops drops)
      (program.bind next) phase := by
  apply conforms_bind
  apply hFirst.mono
  intro outcome q hReaches
  cases outcome with
  | ok value =>
      have hMiddle : q = middle := hReaches
      rw [hMiddle]
      exact hNext value
  | error error => exact fun _ => hReaches

/- The new database, from its first connection on. -/
theorem conforms_migrate :
    Conforms (Moves platform files) (Stops drops)
      (DatabaseCreationConsumer.migrate platform files url)
      (apart drops) := by
  have hConnect :
      Conforms (Moves platform files)
        (Reaches drops
          (between ⟨drops, url, true, [], files.inOrder⟩))
        (DatabaseCreationConsumer.onTenant url .connect)
        (apart drops) :=
    conforms_onTenant fun _ => Moves.connect
  have hTable :
      Conforms (Moves platform files)
        (Reaches drops
          (between ⟨drops, url, true, [], files.inOrder⟩))
        (DatabaseCreationConsumer.onTenant url
          .createMigrationsTable)
        (between ⟨drops, url, true, [], files.inOrder⟩) :=
    conforms_onTenant fun _ => Moves.stay rfl
  refine conforms_bind_stops hConnect fun _ => ?_
  refine conforms_bind_stops hTable fun _ => ?_
  refine
    conforms_bind_stops
      (conforms_provisionMigrations files.inOrder)
      fun _ => ?_
  apply conforms_perform
  intro answer
  cases answer with
  | ok result => exact ⟨_, Moves.stay rfl, nofun⟩
  | error error => exact ⟨_, Moves.stop, fun _ => rfl⟩

/- A program that makes such calls ends in its phase. -/
theorem conforms_bind_of_calls
    {α β : Type}
    {Post : Except ApiError β → MigrationPhase → Prop}
    {program : TenancyHandler α}
    {next : α → TenancyHandler β}
    (hCalls : Calls (fun op => op.isApart = true) program)
    (hError : ∀ error, Post (.error error) phase)
    (hNext :
      ∀ value,
        Conforms (Moves platform files) Post (next value)
          phase) :
    Conforms (Moves platform files) Post (program.bind next)
      phase := by
  apply conforms_bind
  apply (conforms_of_calls hCalls).mono
  rintro outcome q rfl
  cases outcome with
  | ok value => exact hNext value
  | error error => exact hError error

/- Creating the database, and what is done after it. -/
theorem conforms_createDatabase
    {name : String}
    (own : Bool) :
    Conforms (Moves platform files)
      (fun _ q => q = apart (some name))
      (DatabaseCreationConsumer.createDatabase name own)
      (opening name) := by
  have hCalls :
      Calls (fun op => op.isApart = true)
        (if own then
          perform TenancyOp.disconnectPostgres
        else
          pure () : TenancyHandler Unit) := by
    cases own with
    | true => exact calls_perform rfl
    | false => exact calls_done ()
  apply conforms_andFinally
  apply conforms_perform
  intro answer
  cases answer with
  | ok result =>
      exact
        ⟨_, Moves.create,
          conforms_bind_of_calls hCalls (fun _ => rfl)
            fun _ => rfl⟩
  | error error =>
      exact
        ⟨_, Moves.stop,
          conforms_bind_of_calls hCalls (fun _ => rfl)
            fun _ => rfl⟩

/- A failed migration drops its database. -/
theorem conforms_migrate_or_drop
    {name : String} :
    Conforms (Moves platform files) (fun _ _ => True)
      ((DatabaseCreationConsumer.migrate platform files
        url).attempt fun error =>
          (DatabaseCreationConsumer.dropDatabase name).bind
            fun _ => fail error)
      (apart (some name)) := by
  apply conforms_attempt
  apply conforms_migrate.mono
  intro outcome q hStops
  cases outcome with
  | ok result => trivial
  | error error =>
      rw [hStops rfl]
      intro answer
      refine ⟨_, Moves.drop, ?_⟩
      cases answer with
      | ok result => trivial
      | error dropError => trivial

/- Creating the database and migrating it. -/
theorem conforms_provision
    (postgresUrl url name : String) :
    Conforms (Moves platform files) (fun _ _ => True)
      (do
        let own ←
          DatabaseCreationConsumer.connectOwnClient postgresUrl
        DatabaseCreationConsumer.createDatabase name own
        (DatabaseCreationConsumer.migrate platform files
          url).attempt fun error => do
            DatabaseCreationConsumer.dropDatabase name
            fail error)
      (opening name) := by
  have hConnect :
      Calls (fun op => op.isApart = true)
        (DatabaseCreationConsumer.connectOwnClient
          postgresUrl) :=
    calls_attempt
      (calls_bind (calls_perform rfl) fun _ =>
        calls_done true)
      fun _ => calls_done false
  apply conforms_bind_of_calls hConnect (fun _ => trivial)
  intro own
  apply conforms_bind
  apply (conforms_createDatabase own).mono
  rintro outcome q rfl
  cases outcome with
  | error error => trivial
  | ok result => exact conforms_migrate_or_drop

/- A handling conforms to the protocol. -/
theorem conforms_handleDatabaseCreation
    {env : Environment}
    (message : DatabaseCreationMessage) :
    Conforms (Moves platform files) (fun _ _ => True)
      (DatabaseCreationConsumer.handleDatabaseCreation
        platform env files message)
      (opening (message.databaseName platform env)) := by
  apply conforms_bind
  apply conforms_attempt
  apply
    (conforms_provision
      (DatabaseCreationConsumer.postgresDatabaseUrl platform
        env)
      (message.databaseUrl platform env)
      (message.databaseName platform env)).mono
  intro outcome q _
  have hFinish :
      Conforms (Moves platform files) (fun _ _ => True)
        (perform
          (TenancyOp.userSetDatabaseCreated
            message.userId) : TenancyHandler Unit)
        q := by
    intro answer
    refine ⟨q, Moves.stay rfl, ?_⟩
    cases answer with
    | ok result => trivial
    | error error => trivial
  cases outcome with
  | ok result => exact hFinish
  | error error =>
      simp only
      split
      · exact hFinish
      · trivial

/- The creation of a user leaves databases as they are. -/
theorem calls_createUser
    (hashedPassword : String)
    (body : CreateUserDto) :
    Calls (fun op => op.isApart = true)
      (UserService.create hashedPassword body) := by
  refine
    (UserService.calls_create_body hashedPassword
      body).mono ?_
  intro op hOp
  cases op with
  | userCreate data => rfl
  | userFindByEmailOrUsername email username => rfl
  | userFindByTenantCode tenantCode => rfl
  | publishDatabaseCreation message => rfl
  | _ => exact hOp.elim

end MigrationPhase

open MigrationPhase in
/- All jobs perform the script. -/
theorem migrationSystem_performs
    (platform : Platform)
    (env : Environment)
    (files : MigrationFiles) :
    (migrationSystem platform env files).Performs
      (migrationScript platform env files) := by
  intro job
  cases job with
  | migrateAllTenants clientUrl =>
      apply conforms_bind
      apply (conforms_migrateAllTenants clientUrl).mono
      intro outcome phase _
      cases outcome with
      | ok results => trivial
      | error error => trivial
  | tenancy job =>
      cases job with
      | handleDatabaseCreation message =>
          exact conforms_handleDatabaseCreation message
      | createUser hashedPassword body =>
          exact
            conforms_bind_of_calls
              (calls_createUser hashedPassword body)
              (fun _ => trivial) fun _ => trivial

end OrderApi
