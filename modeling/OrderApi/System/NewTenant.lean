import OrderApi.Core.Rely
import OrderApi.System.MigrationLog
import OrderApi.System.TenancySystem

/-
  A new tenant gets its database.

  The handling of a creation message makes many calls, and
  others make theirs in between.  As long as its own calls
  are answered, with ids that are new to the log, and the
  others leave alone the database and the user, it returns:
  the database then has all statements of all migrations, in
  order, and a finished row for each migration, and the user
  is marked.

  Key definitions include:
    * `NewTenant.Spares`
    * `NewTenant.Draws`
    * `NewTenant.Amid`
    * `NewTenant.Fits`

  Key theorems include:
    * `NewTenant.prevails_runMigration`
    * `NewTenant.prevails_handleDatabaseCreation`
    * `new_tenant_is_provided`
-/

------------------------------------------------------------
-- What Others May Do
------------------------------------------------------------

namespace OrderApi

namespace NewTenant

/-
  What others leave of a tenant: its database as it is, and
  the row of its user, with its mark.
-/
structure Spares
    (name userId : String)
    (before after : Registry) : Prop where
  database : after.databases name = before.databases name
  user :
    ∀ user,
      before.users.find? userId = some user →
      ∃ user',
        after.users.find? userId = some user' ∧
          (user.isDatabaseCreated = true →
            user'.isDatabaseCreated = true)

/- A call is answered, with an id that is new to the log. -/
def Draws
    (name : String)
    (choice : Choice)
    (store : Registry) : Prop :=
  ∃ tick,
    choice = .answer tick ∧
      ∀ schema,
        store.databases name = some schema →
        ∀ row ∈ schema.rows, row.id ≠ tick.freshId

/- The database is so, and the row of the user is there. -/
structure Has
    (name userId : String)
    (P : TenantSchema → Prop)
    (store : Registry) : Prop where
  database :
    ∃ schema, store.databases name = some schema ∧ P schema
  user : store.users.find? userId ≠ none

variable {name userId : String}
variable {store store' s₁ s₂ s₃ : Registry}
variable {P : TenantSchema → Prop}

theorem Spares.refl (store : Registry) :
    Spares name userId store store where
  database := rfl
  user := fun user hUser => ⟨user, hUser, id⟩

theorem Spares.trans
    (hFirst : Spares name userId s₁ s₂)
    (hSecond : Spares name userId s₂ s₃) :
    Spares name userId s₁ s₃ where
  database := hSecond.database.trans hFirst.database
  user := by
    intro user hUser
    rcases hFirst.user user hUser with
      ⟨user', hUser', hMark⟩
    rcases hSecond.user user' hUser' with
      ⟨user'', hUser'', hMark'⟩
    exact ⟨user'', hUser'', fun h => hMark' (hMark h)⟩

theorem Spares.find?_ne_none
    (hSpares : Spares name userId store store')
    (hUser : store.users.find? userId ≠ none) :
    store'.users.find? userId ≠ none := by
  rcases Option.ne_none_iff_exists'.mp hUser with
    ⟨user, hFound⟩
  rcases hSpares.user user hFound with ⟨user', hFound', _⟩
  rw [hFound']
  exact Option.some_ne_none user'

theorem Has.spared
    (hHas : Has name userId P store)
    (hSpares : Spares name userId store store') :
    Has name userId P store' where
  database := by
    rw [hSpares.database]
    exact hHas.database
  user := hSpares.find?_ne_none hHas.user

end NewTenant

end OrderApi

------------------------------------------------------------
-- A Database amid Its Migrations
------------------------------------------------------------

namespace OrderApi

namespace NewTenant

/- The row of a migration that is not finished. -/
structure Begun
    (migration : Migration)
    (row : MigrationRow) : Prop where
  migration_name : row.migration_name = migration.name
  checksum : row.checksum = calculateChecksum migration.sql
  rolled_back_at : row.rolled_back_at = none

/- The row of a migration that is finished. -/
structure Finished
    (migration : Migration)
    (row : MigrationRow) : Prop
    extends Begun migration row where
  finished_at : row.finished_at ≠ none
  applied_steps_count :
    row.applied_steps_count = statementCount migration.sql

/-
  Some statements were executed, some migrations have their
  finished rows, and the row of another one may be open.
-/
structure Amid
    (executed : List String)
    (done : List Migration)
    (current : Option MigrationRow)
    (schema : TenantSchema) : Prop where
  log : schema.migrations ≠ none
  executed_eq : schema.executed = executed
  rows :
    ∃ finished,
      schema.rows = finished ++ current.toList ∧
        List.Forall₂ Finished done finished

variable {platform : Platform} {schema : TenantSchema}
variable {executed : List String}
variable {done : List Migration} {migration : Migration}
variable {current : Option MigrationRow}
variable {row : MigrationRow}

/- The log of a new database is created. -/
theorem exec_createMigrationsTable (tick : Tick) :
    ∃ schema',
      SchemaOp.createMigrationsTable.exec platform tick
          TenantSchema.empty = .ok ((), schema') ∧
        Amid [] [] none schema' := by
  refine ⟨_, rfl, ?_, rfl, [], rfl, .nil⟩
  simp [TenantSchema.empty]

/- The names of finished rows are those of the migrations. -/
theorem names_of_finished
    {finished : List MigrationRow}
    (hFinished : List.Forall₂ Finished done finished) :
    finished.map MigrationRow.migration_name =
      done.map Migration.name := by
  induction hFinished with
  | nil => rfl
  | cons hHere hRest ih =>
      rw [List.map_cons, List.map_cons, ih,
        hHere.migration_name]

/- A migration that is not done is not in the log. -/
theorem Amid.exec_findMigrations
    (hAmid : Amid executed done none schema)
    (hNew : migration.name ∉ done.map Migration.name)
    (tick : Tick) :
    (SchemaOp.findMigrations migration.name).exec platform
        tick schema = .ok ([], schema) := by
  rcases Option.ne_none_iff_exists'.mp hAmid.log with
    ⟨table, hTable⟩
  have hFound :
      ∃ ids,
        (SchemaOp.findMigrations migration.name).exec platform
            tick schema = .ok (ids, schema) := by
    simp only [SchemaOp.exec, hTable]
    exact ⟨_, rfl⟩
  rcases hFound with ⟨ids, hExec⟩
  have hLogged : migration.name ∉ schema.logged := by
    rcases hAmid.rows with ⟨finished, hRows, hFinished⟩
    rw [TenantSchema.logged_eq, hRows, Option.toList_none,
      List.append_nil, names_of_finished hFinished]
    exact hNew
  rw [hExec,
    (SchemaOp.exec_findMigrations hExec).2 hLogged]

/- A migration begins with a row of its own. -/
theorem Amid.exec_insertMigration
    {tick : Tick}
    (hAmid : Amid executed done none schema)
    (hFresh : ∀ row ∈ schema.rows, row.id ≠ tick.freshId)
    (migration : Migration) :
    ∃ id schema',
      (SchemaOp.insertMigration migration.name
          (calculateChecksum migration.sql)).exec platform
            tick schema = .ok (id, schema') ∧
        ∃ row,
          row.id = id ∧ Begun migration row ∧
            Amid executed done (some row) schema' := by
  rcases Option.ne_none_iff_exists'.mp hAmid.log with
    ⟨table, hTable⟩
  have hTableRows : schema.rows = table.rows := by
    simp only [TenantSchema.rows, hTable]
  let row : MigrationRow :=
    { id := tick.freshId
      checksum := calculateChecksum migration.sql
      migration_name := migration.name
      started_at := tick.now
      finished_at := none
      rolled_back_at := none
      applied_steps_count := 0 }
  have hAbsent : table.find? (Keyed.key row) = none := by
    rw [Table.find?_eq_none_iff, ← hTableRows]
    exact hFresh
  rcases table.insert?_cases row with
    ⟨_, table', hInsert⟩ | ⟨hUsed, _⟩
  swap
  · exact (hUsed hAbsent).elim
  refine
    ⟨row.id, { schema with migrations := some table' }, ?_,
      row, rfl, ⟨rfl, rfl, rfl⟩, Option.some_ne_none table',
      hAmid.executed_eq, ?_⟩
  · simp only [SchemaOp.exec, TenantSchema.log?, hTable]
    rw [hInsert]
  · rcases hAmid.rows with ⟨finished, hOld, hFinished⟩
    refine ⟨finished, ?_, hFinished⟩
    rw [Option.toList_none, List.append_nil] at hOld
    change table'.rows = finished ++ [row]
    rw [(table.insert?_eq_some_iff.mp hInsert).2,
      ← hTableRows, hOld]

/- A statement that meets no existing object is executed. -/
theorem Amid.exec_executeStatement
    {statement : String}
    (hAmid : Amid executed done current schema)
    (hFits :
      platform.meetsExisting executed statement = false)
    (tick : Tick) :
    ∃ schema',
      (SchemaOp.executeStatement statement).exec platform
          tick schema = .ok ((), schema') ∧
        Amid (executed ++ [statement]) done current
          schema' := by
  refine
    ⟨{ schema with
        executed := schema.executed ++ [statement] },
      ?_, hAmid.log, ?_, hAmid.rows⟩
  · simp only [SchemaOp.exec, hAmid.executed_eq, hFits,
      Bool.false_eq_true, if_false]
  · rw [← hAmid.executed_eq]

/- The open row is finished, and no other row changes. -/
theorem Amid.exec_finishMigration
    (hAmid : Amid executed done (some row) schema)
    (hBegun : Begun migration row)
    (tick : Tick) :
    ∃ schema',
      (SchemaOp.finishMigration row.id
          (statementCount migration.sql)).exec platform tick
            schema = .ok ((), schema') ∧
        Amid executed (done ++ [migration]) none schema' := by
  rcases Option.ne_none_iff_exists'.mp hAmid.log with
    ⟨table, hTable⟩
  have hRun :
      ∃ schema',
        (SchemaOp.finishMigration row.id
            (statementCount migration.sql)).exec platform
              tick schema = .ok ((), schema') ∧
          schema'.migrations ≠ none := by
    simp only [SchemaOp.exec, TenantSchema.relog, hTable]
    exact ⟨_, rfl, Option.some_ne_none _⟩
  rcases hRun with ⟨schema', hExec, hLog⟩
  rcases TenantSchema.rows_of_relog hExec with
    ⟨hExecuted, hChanged⟩
  rcases hAmid.rows with ⟨finished, hRows, hFinished⟩
  let row' : MigrationRow :=
    { row with
      finished_at := some tick.now
      applied_steps_count := statementCount migration.sql }
  have hNodup : (schema.rows.map MigrationRow.id).Nodup := by
    simp only [TenantSchema.rows, hTable]
    exact table.nodup
  rw [hRows, Option.toList_some, List.map_append,
    List.map_singleton, List.nodup_append] at hNodup
  have hOthers : ∀ other ∈ finished, other.id ≠ row.id := by
    intro other hOther
    exact
      hNodup.2.2 other.id (List.mem_map_of_mem hOther) row.id
        List.mem_cons_self
  refine
    ⟨schema', hExec, hLog,
      hExecuted.trans hAmid.executed_eq, finished ++ [row'],
      ?_, ?_⟩
  · rw [hChanged, hRows, Option.toList_some,
      Option.toList_none, List.append_nil, List.map_append,
      List.map_singleton, if_pos rfl]
    have hSame :
        (finished.map fun other =>
          if other.id = row.id then
            { other with
              finished_at := some tick.now
              applied_steps_count :=
                statementCount migration.sql }
          else other) = finished.map id :=
      List.map_congr_left fun other hOther =>
        if_neg (hOthers other hOther)
    rw [hSame, List.map_id]
  · have hHere : Finished migration row' :=
      { migration_name := hBegun.migration_name
        checksum := hBegun.checksum
        rolled_back_at := hBegun.rolled_back_at
        finished_at := Option.some_ne_none tick.now
        applied_steps_count := rfl }
    exact List.rel_append hFinished (.cons hHere .nil)

end NewTenant

end OrderApi

------------------------------------------------------------
-- Handlers that Prevail
------------------------------------------------------------

namespace OrderApi

namespace NewTenant

open DatabaseCreationConsumer

/- A program prevails among others that spare a tenant. -/
abbrev PrevailsFor
    {α : Type}
    (platform : Platform)
    (name userId : String)
    (Post : α → Registry → Prop)
    (calls :
      List (Called TenancyOp TenancyOp.Res ApiError))
    (program : TenancyHandler α)
    (store : Registry) : Prop :=
  program.Prevails (TenancyOp.exec platform) (Draws name)
    (Spares name userId) (fun _ => Post) calls store

variable {platform : Platform} {files : MigrationFiles}
variable {name userId url : String} {store : Registry}
variable {P : TenantSchema → Prop}
variable {executed : List String} {done : List Migration}
variable {migration : Migration} {row : MigrationRow}
variable
  {calls : List (Called TenancyOp TenancyOp.Res ApiError)}

/- A call that leaves the tenant as it is. -/
theorem prevails_apart
    (op : TenancyOp)
    (hHas : Has name userId P store)
    (result : op.Res)
    (hAnswer :
      ∀ tick s, op.answer platform tick s = .ok (result, s)) :
    PrevailsFor platform name userId
      (fun _ s => Has name userId P s) calls
      (Program.perform op) store := by
  apply Program.prevails_perform op
  rintro _ s ⟨tick, rfl, _⟩ hSpares
  refine ⟨result, s, ?_, hHas.spared hSpares⟩
  simp only [TenancyOp.exec, hAnswer]

/- A call on the client of the tenant. -/
theorem prevails_onTenant
    (hUrl : platform.databaseOf url = some name)
    (hHas : Has name userId P store)
    (op : SchemaOp)
    {Q : op.Res → TenantSchema → Prop}
    (hExec :
      ∀ (tick : Tick) schema,
        (∀ row ∈ schema.rows, row.id ≠ tick.freshId) →
        P schema →
        ∃ result schema',
          op.exec platform tick schema =
              .ok (result, schema') ∧
            Q result schema') :
    PrevailsFor platform name userId
      (fun result s => Has name userId (Q result) s) calls
      (onTenant url op) store := by
  apply Program.prevails_perform (TenancyOp.tenantClient url op)
  rintro _ s ⟨tick, rfl, hFresh⟩ hSpares
  have hSpared := hHas.spared hSpares
  rcases hSpared.database with ⟨schema, hSchema, hP⟩
  rcases hExec tick schema (hFresh schema hSchema) hP with
    ⟨result, schema', hOp, hQ⟩
  refine
    ⟨result, s.put name (some schema'), ?_,
      ⟨schema', Registry.put_databases_same, hQ⟩,
      hSpared.user⟩
  simp only [TenancyOp.exec, TenancyOp.answer,
    Registry.onTenant, hUrl, hSchema, hOp]

/- All statements of the migrations fit behind the earlier. -/
def Fits (platform : Platform) (statements : List String) :
    Prop :=
  ∀ before statement after,
    statements = before ++ statement :: after →
      platform.meetsExisting before statement = false

/- The statements of a migration are executed in order. -/
theorem prevails_executeStatements
    {current : Option MigrationRow}
    (hUrl : platform.databaseOf url = some name)
    (hHas :
      Has name userId (Amid executed done current) store)
    (migrationSQL : String)
    {rest : List String}
    (hFits :
      Fits platform
        (executed ++ pendingStatements platform migrationSQL ++
          rest)) :
    PrevailsFor platform name userId
      (fun _ s =>
        Has name userId
          (Amid
            (executed ++
              pendingStatements platform migrationSQL)
            done current)
          s)
      calls
      (Program.forEach (statements migrationSQL)
        (executeStatement platform url))
      store := by
  let executes : String → Bool :=
    fun statement => !shouldSkipStatement platform statement
  apply
    Program.prevails_forEach
      (fun before _ s =>
        Has name userId
          (Amid (executed ++ before.filter executes) done
            current)
          s)
  · intro before statement after calls' s hStatements hInv
    unfold executeStatement
    by_cases hSkip :
        shouldSkipStatement platform statement = true
    · rw [if_pos hSkip]
      have hFilter :
          (before ++ [statement]).filter executes =
            before.filter executes := by
        simp [executes, hSkip]
      rw [hFilter]
      exact hInv
    · rw [if_neg hSkip]
      have hFilter :
          (before ++ [statement]).filter executes =
            before.filter executes ++ [statement] := by
        simp [executes, hSkip]
      have hHere :
          platform.meetsExisting
              (executed ++ before.filter executes)
              statement = false := by
        refine
          hFits _ statement (after.filter executes ++ rest) ?_
        unfold pendingStatements
        rw [hStatements]
        simp [executes, hSkip]
      rw [hFilter, ← List.append_assoc]
      exact
        prevails_onTenant hUrl hInv
          (.executeStatement statement)
          fun tick schema _ hAmid =>
            ⟨(), hAmid.exec_executeStatement hHere tick⟩
  · rw [List.filter_nil, List.append_nil]
    exact hHas

/- The statements and the row of a migration. -/
theorem prevails_applyMigration
    (hUrl : platform.databaseOf url = some name)
    (hHas :
      Has name userId (Amid executed done (some row)) store)
    (hBegun : Begun migration row)
    {rest : List String}
    (hFits :
      Fits platform
        (executed ++
            pendingStatements platform migration.sql ++
          rest)) :
    PrevailsFor platform name userId
      (fun _ s =>
        Has name userId
          (Amid
            (executed ++
              pendingStatements platform migration.sql)
            (done ++ [migration]) none)
          s)
      calls
      (applyMigration platform url migration.sql row.id)
      store := by
  unfold applyMigration
  apply Program.Prevails.attempt
  simp only [Program.bind_eq]
  apply Program.prevails_bind
  apply
    (prevails_executeStatements hUrl hHas migration.sql
      hFits).mono
  intro calls' _ s hDone
  exact
    prevails_onTenant hUrl hDone
      (.finishMigration row.id
        (statementCount migration.sql))
      fun tick schema _ hAmid =>
        ⟨(), hAmid.exec_finishMigration hBegun tick⟩

/- A migration that is not done is done. -/
theorem prevails_runMigration
    (hUrl : platform.databaseOf url = some name)
    (hHas : Has name userId (Amid executed done none) store)
    (hNew : migration.name ∉ done.map Migration.name)
    {rest : List String}
    (hFits :
      Fits platform
        (executed ++
            pendingStatements platform migration.sql ++
          rest)) :
    PrevailsFor platform name userId
      (fun _ s =>
        Has name userId
          (Amid
            (executed ++
              pendingStatements platform migration.sql)
            (done ++ [migration]) none)
          s)
      calls (runMigration platform url migration) store := by
  unfold runMigration
  simp only [Program.bind_eq]
  apply Program.prevails_bind
  have hFind :
      PrevailsFor platform name userId
        (fun result s =>
          Has name userId
            (fun schema =>
              result = [] ∧ Amid executed done none schema)
            s)
        calls (onTenant url (.findMigrations migration.name))
        store :=
    prevails_onTenant hUrl hHas
      (.findMigrations migration.name)
      fun tick schema _ hAmid =>
        ⟨[], schema, hAmid.exec_findMigrations hNew tick, rfl,
          hAmid⟩
  apply hFind.mono
  intro calls' existing s hFound
  rcases hFound.database with ⟨_, _, rfl, _⟩
  have hStill :
      Has name userId (Amid executed done none) s := by
    rcases hFound with ⟨⟨schema, hSchema, _, hAmid⟩, hUser⟩
    exact ⟨⟨schema, hSchema, hAmid⟩, hUser⟩
  rw [if_pos List.length_nil]
  apply Program.prevails_bind
  have hInsert :
      PrevailsFor platform name userId
        (fun id s =>
          Has name userId
            (fun schema =>
              ∃ row,
                row.id = id ∧ Begun migration row ∧
                  Amid executed done (some row) schema)
            s)
        calls'
        (onTenant url
          (.insertMigration migration.name
            (calculateChecksum migration.sql)))
        s :=
    prevails_onTenant hUrl hStill
      (.insertMigration migration.name
        (calculateChecksum migration.sql))
      fun _ _ hFresh hAmid =>
        hAmid.exec_insertMigration hFresh migration
  apply hInsert.mono
  intro calls'' migrationId s' hInserted
  rcases hInserted with
    ⟨⟨schema, hSchema, row, rfl, hBegun, hAmid⟩, hUser⟩
  exact
    prevails_applyMigration hUrl
      ⟨⟨schema, hSchema, hAmid⟩, hUser⟩ hBegun hFits

/- All migrations are done in a new database. -/
theorem prevails_migrate
    (hUrl : platform.databaseOf url = some name)
    (hHas :
      Has name userId (fun schema => schema = TenantSchema.empty)
        store)
    (hFits :
      Fits platform (allPending platform files.inOrder)) :
    PrevailsFor platform name userId
      (fun _ s =>
        Has name userId
          (Amid (allPending platform files.inOrder)
            files.inOrder none)
          s)
      calls (migrate platform files url) store := by
  unfold migrate
  simp only [Program.bind_eq]
  apply Program.prevails_bind
  have hConnect :
      PrevailsFor platform name userId
        (fun _ s =>
          Has name userId
            (fun schema => schema = TenantSchema.empty) s)
        calls (onTenant url .connect) store :=
    prevails_onTenant hUrl hHas .connect
      fun _ schema _ hEmpty => ⟨(), schema, rfl, hEmpty⟩
  apply hConnect.mono
  intro calls₁ _ s₁ hConnected
  apply Program.prevails_bind
  have hCreate :
      PrevailsFor platform name userId
        (fun _ s => Has name userId (Amid [] [] none) s)
        calls₁ (onTenant url .createMigrationsTable) s₁ := by
    refine
      prevails_onTenant hUrl hConnected
        .createMigrationsTable ?_
    rintro tick schema _ rfl
    exact ⟨(), exec_createMigrationsTable tick⟩
  apply hCreate.mono
  intro calls₂ _ s₂ hCreated
  apply Program.prevails_bind
  have hLoop :
      PrevailsFor platform name userId
        (fun _ s =>
          Has name userId
            (Amid (allPending platform files.inOrder)
              files.inOrder none)
            s)
        calls₂
        (Program.forEach files.inOrder
          (runMigration platform url))
        s₂ := by
    apply
      Program.prevails_forEach
        (fun before _ s =>
          Has name userId
            (Amid (allPending platform before) before none) s)
    · intro before migration after calls' s hOrder hInv
      have hNew :
          migration.name ∉ before.map Migration.name := by
        have hNames := files.nodup_inOrder
        rw [hOrder, List.map_append, List.map_cons,
          List.nodup_append] at hNames
        intro hMem
        exact
          hNames.2.2 _ hMem _ List.mem_cons_self rfl
      have hSplit :
          allPending platform files.inOrder =
            allPending platform before ++
                pendingStatements platform migration.sql ++
              allPending platform after := by
        rw [hOrder]
        simp [allPending]
      have hPending :
          allPending platform (before ++ [migration]) =
            allPending platform before ++
              pendingStatements platform migration.sql := by
        simp [allPending]
      rw [hSplit] at hFits
      rw [hPending]
      exact prevails_runMigration hUrl hInv hNew hFits
    · exact hCreated
  apply hLoop.mono
  intro calls₃ _ s₃ hMigrated
  exact
    prevails_apart .disconnectTenant hMigrated ()
      fun _ _ => rfl

end NewTenant

end OrderApi

------------------------------------------------------------
-- The Whole Handling
------------------------------------------------------------

namespace OrderApi

namespace NewTenant

open DatabaseCreationConsumer

variable {platform : Platform} {env : Environment}
variable {files : MigrationFiles} {store : Registry}
variable {tenantCode userId : String}
variable
  {calls : List (Called TenancyOp TenancyOp.Res ApiError)}

/- There is no database yet, but the row of the user. -/
structure Absent (name userId : String) (store : Registry) :
    Prop where
  database : store.databases name = none
  user : store.users.find? userId ≠ none

theorem Absent.spared
    {name : String}
    {store' : Registry}
    (hAbsent : Absent name userId store)
    (hSpares : Spares name userId store store') :
    Absent name userId store' where
  database := hSpares.database.trans hAbsent.database
  user := hSpares.find?_ne_none hAbsent.user

/- The database is migrated, and the user is marked. -/
structure Provided
    (platform : Platform)
    (files : MigrationFiles)
    (name userId : String)
    (store : Registry) : Prop where
  database :
    ∃ schema,
      store.databases name = some schema ∧
        schema.executed = allPending platform files.inOrder ∧
        List.Forall₂ Finished files.inOrder schema.rows
  user :
    ∃ user,
      store.users.find? userId = some user ∧
        user.isDatabaseCreated = true

theorem Provided.spared
    {name : String}
    {store' : Registry}
    (hProvided : Provided platform files name userId store)
    (hSpares : Spares name userId store store') :
    Provided platform files name userId store' where
  database := by
    rw [hSpares.database]
    exact hProvided.database
  user := by
    rcases hProvided.user with ⟨user, hUser, hMarked⟩
    rcases hSpares.user user hUser with
      ⟨user', hUser', hMark⟩
    exact ⟨user', hUser', hMark hMarked⟩

/- The database is created, by a client of its own. -/
theorem prevails_createDatabase
    {name : String}
    (hAbsent : Absent name userId store) :
    PrevailsFor platform name userId
      (fun _ s =>
        Has name userId
          (fun schema => schema = TenantSchema.empty) s)
      calls (createDatabase name true) store := by
  unfold createDatabase
  apply Program.prevails_andFinally
  apply Program.prevails_perform (TenancyOp.createDatabase name)
  rintro _ s ⟨tick, rfl, _⟩ hSpares
  have hSpared := hAbsent.spared hSpares
  refine
    ⟨(), s.put name (some TenantSchema.empty), ?_, ?_⟩
  · simp only [TenancyOp.exec, TenancyOp.answer,
      hSpared.database]
  · have hEmpty :
        Has name userId
          (fun schema => schema = TenantSchema.empty)
          (s.put name (some TenantSchema.empty)) :=
      ⟨⟨_, Registry.put_databases_same, rfl⟩, hSpared.user⟩
    exact
      prevails_apart .disconnectPostgres hEmpty ()
        fun _ _ => rfl

/- The own client connects. -/
theorem prevails_connectOwnClient
    {name : String}
    (hAbsent : Absent name userId store)
    (postgresDatabaseUrl : String) :
    PrevailsFor platform name userId
      (fun own s => own = true ∧ Absent name userId s)
      calls (connectOwnClient postgresDatabaseUrl) store := by
  unfold connectOwnClient
  apply Program.Prevails.attempt
  simp only [Program.bind_eq]
  apply Program.prevails_bind
  apply
    Program.prevails_perform
      (TenancyOp.connectPostgres postgresDatabaseUrl)
  rintro _ s ⟨tick, rfl, _⟩ hSpares
  exact ⟨(), s, rfl, rfl, hAbsent.spared hSpares⟩

theorem prevails_createAndMigrateTenantDatabase
    (hUrl :
      platform.databaseOf
          (databaseUrl platform env tenantCode) =
        some (databaseName platform env tenantCode))
    (hFits :
      Fits platform (allPending platform files.inOrder))
    (hAbsent :
      Absent (databaseName platform env tenantCode) userId
        store) :
    PrevailsFor platform
      (databaseName platform env tenantCode) userId
      (fun _ s =>
        Has (databaseName platform env tenantCode) userId
          (Amid (allPending platform files.inOrder)
            files.inOrder none)
          s)
      calls
      (createAndMigrateTenantDatabase platform env files
        tenantCode)
      store := by
  unfold createAndMigrateTenantDatabase
  apply Program.Prevails.attempt
  simp only [Program.bind_eq]
  apply Program.prevails_bind
  apply (prevails_connectOwnClient hAbsent _).mono
  rintro calls₁ _ s₁ ⟨rfl, hConnected⟩
  apply Program.prevails_bind
  apply (prevails_createDatabase hConnected).mono
  intro calls₂ _ s₂ hCreated
  exact
    Program.Prevails.attempt
      (prevails_migrate hUrl hCreated hFits) _

/- The message is handled, and the user is marked. -/
theorem prevails_handleDatabaseCreation
    {message : DatabaseCreationMessage}
    (hUrl :
      platform.databaseOf
          (databaseUrl platform env message.tenantCode) =
        some (databaseName platform env message.tenantCode))
    (hFits :
      Fits platform (allPending platform files.inOrder))
    (hAbsent :
      Absent (databaseName platform env message.tenantCode)
        message.userId store) :
    PrevailsFor platform
      (databaseName platform env message.tenantCode)
      message.userId
      (fun _ s =>
        Provided platform files
          (databaseName platform env message.tenantCode)
          message.userId s)
      calls
      (handleDatabaseCreation platform env files message)
      store := by
  unfold handleDatabaseCreation
  simp only [Program.bind_eq]
  apply Program.prevails_bind
  apply
    (prevails_createAndMigrateTenantDatabase hUrl hFits
      hAbsent).mono
  intro calls' _ s hMigrated
  apply
    Program.prevails_perform
      (TenancyOp.userSetDatabaseCreated message.userId)
  rintro _ s' ⟨tick, rfl, _⟩ hSpares
  have hSpared := hMigrated.spared hSpares
  rcases Option.ne_none_iff_exists'.mp hSpared.user with
    ⟨user, hUser⟩
  refine
    ⟨(), s'.setDatabaseCreated message.userId, ?_, ?_, ?_⟩
  · simp only [TenancyOp.exec, TenancyOp.answer, hUser]
  · rcases hSpared.database with ⟨schema, hSchema, hAmid⟩
    rcases hAmid.rows with ⟨finished, hRows, hFinished⟩
    rw [Option.toList_none, List.append_nil] at hRows
    rw [← hRows] at hFinished
    exact ⟨schema, hSchema, hAmid.executed_eq, hFinished⟩
  · refine ⟨{ user with isDatabaseCreated := true }, ?_, rfl⟩
    unfold Registry.setDatabaseCreated
    rw [Table.find?_update, if_pos rfl, hUser]
    rfl

/- Before and behind the handling others may go on. -/
theorem outlasts
    (platform : Platform)
    (files : MigrationFiles)
    (name userId : String) :
    PoolSystem.Outlasts (Spares name userId)
      (Absent name userId)
      (fun
          (_ :
            List (Called TenancyOp TenancyOp.Res ApiError))
          _ =>
        Provided platform files name userId) where
  refl := Spares.refl
  trans := fun _ _ _ => Spares.trans
  pre := fun _ _ => Absent.spared
  post := fun _ _ _ _ => Provided.spared

end NewTenant

open NewTenant in
/-
  In every run, the handling of a creation message for a new
  tenant returns if it ends, whatever comes in between and
  spares the tenant, and the tenant is provided then.
-/
theorem new_tenant_is_provided
    {platform : Platform}
    {env : Environment}
    {files : MigrationFiles}
    {name : String}
    {world world' : TenancyWorld}
    {history : List TenancyStep}
    {index : Nat}
    {outcome : Except ApiError Unit}
    (message : DatabaseCreationMessage)
    (hName :
      DatabaseCreationConsumer.databaseName platform env
        message.tenantCode = name)
    (hUrl :
      platform.databaseOf
          (DatabaseCreationConsumer.databaseUrl platform env
            message.tenantCode) = some name)
    (hFits :
      Fits platform (allPending platform files.inOrder))
    (hAbsent : Absent name message.userId world.store)
    (hRun :
      Run (tenancySystem platform env files).step world
        history world')
    (hAmong :
      PoolSystem.Among (Draws name)
        (Spares name message.userId) index history)
    (hNew : world.threads.length ≤ index)
    (hThread :
      world'.threads[index]? =
        some
          ⟨.handleDatabaseCreation message,
            Program.ofExcept outcome⟩) :
    outcome = .ok () ∧
      Provided platform files name message.userId
        world'.store := by
  subst hName
  exact
    PoolSystem.prevails_of_run (outlasts platform files _ _)
      (fun _ hHere =>
        prevails_handleDatabaseCreation hUrl hFits hHere)
      hRun hAmong hNew hAbsent hThread

end OrderApi

------------------------------------------------------------
-- A Tenant that Sells Bolts
------------------------------------------------------------

namespace OrderApi

namespace Onboarding

/- An administrator is enrolled, and the message queued. -/
def enrolled : Registry where
  users :=
    { rows :=
        [{ id := "b"
           email := "b"
           username := "b"
           password := "hash"
           role := .ADMIN
           tenantCode := some "bolt"
           isDatabaseCreated := false }]
      nodup := List.nodup_singleton _ }
  databases := store.databases
  databaseCreation := [⟨"b", "bolt"⟩]

def drawsForBolt (choice : Choice) (store : Registry) :
    Bool :=
  match choice, store.databases "tenant_bolt" with
  | .failure _, _ => false
  | .answer _, none => true
  | .answer tick, some schema =>
      schema.rows.all fun row => row.id ≠ tick.freshId

theorem draws_of_drawsForBolt
    (choice : Choice)
    (store : Registry)
    (hDraws : drawsForBolt choice store = true) :
    NewTenant.Draws "tenant_bolt" choice store := by
  cases choice with
  | failure message => cases hDraws
  | answer tick =>
      refine ⟨tick, rfl, ?_⟩
      intro schema hSchema row hRow
      simp only [drawsForBolt, hSchema] at hDraws
      exact
        of_decide_eq_true
          (List.all_eq_true.mp hDraws row hRow)

/- The message is handled, with an answer to each call. -/
def provided :
    Option
      (List
          (Turn TenancyJob TenancyOp TenancyOp.Res
            ApiError) ×
        TenancyWorld) :=
  (tenancySystem platform env files).play drawsForBolt
    [(.handleDatabaseCreation ⟨"b", "bolt"⟩,
      (List.range 11).map fun n =>
        .answer ⟨toString n, n⟩)]
    ⟨enrolled, []⟩

/- There is but one statement to execute. -/
theorem fits_files :
    NewTenant.Fits platform
      (allPending platform files.inOrder) := by
  have hPending :
      allPending platform files.inOrder =
        ["CREATE TABLE \"products\" ();"] := by
    decide +kernel
  intro before statement after hSplit
  rw [hPending] at hSplit
  cases before with
  | nil => rfl
  | cons head before =>
      have hLength := congrArg List.length hSplit
      simp at hLength

theorem databaseName_bolt :
    DatabaseCreationConsumer.databaseName platform env
      "bolt" = "tenant_bolt" := by
  decide +kernel

theorem databaseOf_databaseUrl_bolt :
    platform.databaseOf
        (DatabaseCreationConsumer.databaseUrl platform env
          "bolt") = some "tenant_bolt" := by
  decide +kernel

theorem enrolled_absent :
    NewTenant.Absent "tenant_bolt" "b" enrolled where
  database := by simp [enrolled, store]
  user := by simp [enrolled, Table.find?, Keyed.key]

end Onboarding

open Onboarding in
/- The tenant that sells bolts is provided. -/
theorem new_tenant_is_provided_of_bolt :
    ∃ turns world',
      provided = some (turns, world') ∧
        NewTenant.Provided platform files "tenant_bolt" "b"
          world'.store := by
  have hPlayed : provided.isSome = true := by
    decide +kernel
  rcases Option.isSome_iff_exists.mp hPlayed with
    ⟨⟨turns, world'⟩, hPlay⟩
  have hRelayed :
      (tenancySystem platform env files).Relayed
          (NewTenant.Draws "tenant_bolt")
          (NewTenant.Spares "tenant_bolt" "b") turns
          ⟨enrolled, []⟩ world' ∧
        turns.map Turn.job =
          [.handleDatabaseCreation ⟨"b", "bolt"⟩] :=
    PoolSystem.relayed_of_play draws_of_drawsForBolt hPlay
  rcases hRelayed with ⟨hRelayed, hJobs⟩
  refine ⟨turns, world', hPlay, ?_⟩
  cases hRelayed with
  | none => cases hJobs
  | turn hRun hAmong hNew hThread hRest =>
      rw [List.map_cons, List.cons.injEq,
        List.map_eq_nil_iff] at hJobs
      rcases hJobs with ⟨rfl, rfl⟩
      cases hRest
      exact
        (new_tenant_is_provided ⟨"b", "bolt"⟩
          databaseName_bolt databaseOf_databaseUrl_bolt
          fits_files enrolled_absent hRun hAmong hNew
          hThread).2

end OrderApi
