import OrderApi.System.TenancySystem

/-
  The protocol of enrolling and provisioning.

  A phase says how far a job has come.  The phase `excluded`
  is where a job goes when a step of its provisioning fails
  with an error that counts as success, or when the log of
  migrations answers what it cannot hold.

  Key definitions include:
    * `TenancyPhase`
    * `TenancyPhase.Moves`
    * `tenancyDiscipline`

  Key theorems include:
    * `tenancySystem_obeys`
-/

------------------------------------------------------------
-- Phases
------------------------------------------------------------

namespace OrderApi

/- The database that a message asks for. -/
def DatabaseCreationMessage.databaseName
    (platform : Platform)
    (env : Environment)
    (message : DatabaseCreationMessage) : String :=
  DatabaseCreationConsumer.databaseName platform env
    message.tenantCode

/- The URL of the client that migrates it. -/
def DatabaseCreationMessage.databaseUrl
    (platform : Platform)
    (env : Environment)
    (message : DatabaseCreationMessage) : String :=
  DatabaseCreationConsumer.databaseUrl platform env
    message.tenantCode

/- What a job is about to do. -/
inductive TenancyPhase where
  /- about to insert a user -/
  | enrolling
  /- about to ask for the database of a user -/
  | enrolled (message : DatabaseCreationMessage)
  /- about to create a database -/
  | opening (message : DatabaseCreationMessage)
  /-
    Amid the migration of a database that it created, with
    the statements executed and the names logged so far.
  -/
  | owning
      (message : DatabaseCreationMessage)
      (executed logged : List String)
  /- about to drop a database that it created -/
  | failing (message : DatabaseCreationMessage)
  /- about to mark the database as created -/
  | finishing (message : DatabaseCreationMessage)
  /- without any write to come -/
  | quiet
  | excluded

namespace TenancyPhase

open DatabaseCreationConsumer (saysExists)

/- A job in this phase goes on until it has finished. -/
def Final : TenancyPhase → Prop
  | finishing _ => False
  | _ => True

/- The reads of `UserService.create`. -/
def isLookup : TenancyOp → Bool
  | .userFindByEmailOrUsername _ _ => true
  | .userFindByTenantCode _ => true
  | _ => false

/- The steps whose errors may be taken for success. -/
def isProvisioning : TenancyOp → Bool
  | .disconnectPostgres => true
  | .tenantClient _ _ => true
  | .disconnectTenant => true
  | _ => false

/-
  The calls that each phase allows, with the phase after
  each answer.
-/
inductive Moves
    (platform : Platform)
    (env : Environment)
    (files : MigrationFiles) :
    Protocol TenancyOp TenancyOp.Res ApiError TenancyPhase
  | lookup
      {op : TenancyOp}
      {answer : Except ApiError op.Res}
      (hLookup : isLookup op = true) :
      Moves platform env files enrolling op answer enrolling
  | enrolAdmin
      {data : UserData}
      {user : User}
      {tenantCode : String}
      (hCode : data.tenantCode = some tenantCode)
      (hPending : data.isDatabaseCreated = false) :
      Moves platform env files enrolling (.userCreate data)
        (.ok user) (enrolled ⟨user.id, tenantCode⟩)
  | enrolCustomer
      {data : UserData}
      {user : User}
      (hCode : data.tenantCode = none) :
      Moves platform env files enrolling (.userCreate data)
        (.ok user) quiet
  | enrolFailed
      {data : UserData}
      {error : ApiError} :
      Moves platform env files enrolling (.userCreate data)
        (.error error) quiet
  | publish
      {message : DatabaseCreationMessage}
      {answer : Except ApiError Unit} :
      Moves platform env files (enrolled message)
        (.publishDatabaseCreation message) answer quiet
  | connectPostgres
      {message : DatabaseCreationMessage}
      {url : String}
      {answer : Except ApiError Unit} :
      Moves platform env files (opening message)
        (.connectPostgres url) answer (opening message)
  | created
      {message : DatabaseCreationMessage}
      {result : Unit} :
      Moves platform env files (opening message)
        (.createDatabase (message.databaseName platform env))
        (.ok result) (owning message [] [])
  | existed
      {message : DatabaseCreationMessage}
      {error : ApiError}
      (hExists : saysExists error = true) :
      Moves platform env files (opening message)
        (.createDatabase (message.databaseName platform env))
        (.error error) (finishing message)
  | refused
      {message : DatabaseCreationMessage}
      {error : ApiError}
      (hOther : saysExists error = false) :
      Moves platform env files (opening message)
        (.createDatabase (message.databaseName platform env))
        (.error error) quiet
  | disconnected
      {phase : TenancyPhase}
      {result : Unit} :
      Moves platform env files phase .disconnectPostgres
        (.ok result) phase
  | disconnectFailed
      {phase : TenancyPhase}
      {error : ApiError}
      (hOther : saysExists error = false) :
      Moves platform env files phase .disconnectPostgres
        (.error error) quiet
  | prepare
      {message : DatabaseCreationMessage}
      {executed logged : List String}
      {op : SchemaOp}
      {result : op.Res}
      (hKeeps : op.keepsProgress = true) :
      Moves platform env files
        (owning message executed logged)
        (.tenantClient (message.databaseUrl platform env) op)
        (.ok result) (owning message executed logged)
  | find
      {message : DatabaseCreationMessage}
      {executed logged : List String}
      {name : String}
      {ids : List String}
      (hIds : name ∉ logged → ids = []) :
      Moves platform env files
        (owning message executed logged)
        (.tenantClient (message.databaseUrl platform env)
          (.findMigrations name))
        (.ok ids) (owning message executed logged)
  | unexpected
      {message : DatabaseCreationMessage}
      {executed logged : List String}
      {name : String}
      {ids : List String}
      (hFresh : name ∉ logged)
      (hIds : ids ≠ []) :
      Moves platform env files
        (owning message executed logged)
        (.tenantClient (message.databaseUrl platform env)
          (.findMigrations name))
        (.ok ids) excluded
  | insert
      {message : DatabaseCreationMessage}
      {executed logged : List String}
      {name checksum id : String} :
      Moves platform env files
        (owning message executed logged)
        (.tenantClient (message.databaseUrl platform env)
          (.insertMigration name checksum))
        (.ok id) (owning message executed (logged ++ [name]))
  | execute
      {message : DatabaseCreationMessage}
      {executed logged : List String}
      {statement : String}
      {result : Unit} :
      Moves platform env files
        (owning message executed logged)
        (.tenantClient (message.databaseUrl platform env)
          (.executeStatement statement))
        (.ok result)
        (owning message (executed ++ [statement]) logged)
  | migrationFailed
      {message : DatabaseCreationMessage}
      {executed logged : List String}
      {op : SchemaOp}
      {error : ApiError}
      (hOther : saysExists error = false) :
      Moves platform env files
        (owning message executed logged)
        (.tenantClient (message.databaseUrl platform env) op)
        (.error error) (failing message)
  | disconnectTenant
      {message : DatabaseCreationMessage}
      {executed logged : List String}
      {result : Unit}
      (hMigrated : Migrated platform files executed) :
      Moves platform env files
        (owning message executed logged) .disconnectTenant
        (.ok result) (finishing message)
  | disconnectTenantFailed
      {message : DatabaseCreationMessage}
      {executed logged : List String}
      {error : ApiError}
      (hOther : saysExists error = false) :
      Moves platform env files
        (owning message executed logged) .disconnectTenant
        (.error error) (failing message)
  | rollBack
      {message : DatabaseCreationMessage}
      {id : String}
      {answer : Except ApiError Unit}
      (hOther :
        ∀ error, answer = .error error →
          saysExists error = false) :
      Moves platform env files (failing message)
        (.tenantClient (message.databaseUrl platform env)
          (.rollBackMigration id))
        answer (failing message)
  | drop
      {message : DatabaseCreationMessage}
      {answer : Except ApiError Unit} :
      Moves platform env files (failing message)
        (.dropDatabase (message.databaseName platform env))
        answer quiet
  | finish
      {message : DatabaseCreationMessage}
      {answer : Except ApiError Unit} :
      Moves platform env files (finishing message)
        (.userSetDatabaseCreated message.userId) answer quiet
  | mistaken
      {phase : TenancyPhase}
      {op : TenancyOp}
      {error : ApiError}
      (hOp : isProvisioning op = true)
      (hExists : saysExists error = true) :
      Moves platform env files phase op (.error error)
        excluded
  | any
      {op : TenancyOp}
      {answer : Except ApiError op.Res} :
      Moves platform env files excluded op answer excluded

/- The phases of a job. -/
def Owns : TenancyJob → TenancyPhase → Prop
  | .createUser _ _, phase =>
      phase = enrolling ∨ (∃ message, phase = enrolled message) ∨
        phase = quiet ∨ phase = excluded
  | .handleDatabaseCreation message, phase =>
      phase = opening message ∨
        (∃ executed logged,
          phase = owning message executed logged) ∨
        phase = failing message ∨
        phase = finishing message ∨ phase = quiet ∨
        phase = excluded

/- The phase that a job starts in. -/
def first : TenancyJob → TenancyPhase
  | .createUser _ _ => enrolling
  | .handleDatabaseCreation message => opening message

variable {platform : Platform} {env : Environment}
variable {files : MigrationFiles}

/- Jobs stay in their phases. -/
theorem owns_next
    {job : TenancyJob}
    {phase phase' : TenancyPhase}
    {op : TenancyOp}
    {answer : Except ApiError op.Res}
    (hOwns : Owns job phase)
    (hMoves :
      Moves platform env files phase op answer phase') :
    Owns job phase' := by
  cases job with
  | createUser hashedPassword body =>
      cases hMoves <;> simp_all [Owns]
  | handleDatabaseCreation message =>
      cases hMoves <;> simp_all [Owns]

end TenancyPhase

/- The discipline of enrolling and provisioning. -/
def tenancyDiscipline
    (platform : Platform)
    (env : Environment)
    (files : MigrationFiles) :
    Discipline TenancyJob TenancyOp TenancyOp.Res ApiError
      TenancyPhase where
  protocol := TenancyPhase.Moves platform env files
  first := TenancyPhase.first
  Final := TenancyPhase.Final
  Owns := TenancyPhase.Owns
  owns_first := by
    intro job
    cases job with
    | createUser hashedPassword body => exact Or.inl rfl
    | handleDatabaseCreation message => exact Or.inl rfl
  owns_next := TenancyPhase.owns_next

end OrderApi

------------------------------------------------------------
-- Enrolling
------------------------------------------------------------

namespace OrderApi

namespace TenancyPhase

open Program

variable {platform : Platform} {env : Environment}
variable {files : MigrationFiles}

/- An excluded job may do anything. -/
theorem conforms_excluded
    {α : Type}
    {Post : Except ApiError α → TenancyPhase → Prop}
    (hPost : ∀ outcome, Post outcome excluded)
    (program : TenancyHandler α) :
    Conforms (Moves platform env files) Post program
      excluded := by
  induction program with
  | done value => exact hPost _
  | fail error => exact hPost _
  | call op resume ih =>
      intro answer
      exact ⟨excluded, Moves.any, ih answer⟩

/- The outcomes of a job that has stopped. -/
def Stopped {α : Type} :
    Except ApiError α → TenancyPhase → Prop :=
  fun _ phase => phase.Final

/- The reads of an enrolment leave its phase. -/
theorem conforms_lookup
    {α : Type}
    {op : TenancyOp}
    {next : op.Res → TenancyHandler α}
    (hLookup : isLookup op = true)
    (hNext :
      ∀ result,
        Conforms (Moves platform env files) Stopped
          (next result) enrolling) :
    Conforms (Moves platform env files) Stopped
      ((perform op : TenancyHandler op.Res).bind next)
      enrolling := by
  apply conforms_bind
  apply conforms_perform
  intro answer
  refine ⟨enrolling, Moves.lookup hLookup, ?_⟩
  cases answer with
  | ok result => exact hNext result
  | error error => trivial

/- An administrator's database is not created yet. -/
theorem isDatabaseCreated_of_code
    {hashedPassword : String}
    {body : CreateUserDto}
    {tenantCode : String}
    (hAdmin :
      ¬ (body.role ≠ some .ADMIN ∧ body.code? ≠ none))
    (hCode : body.code? = some tenantCode) :
    (UserService.dataOf hashedPassword
      body).isDatabaseCreated = false := by
  by_cases hRole : body.role = some .ADMIN
  · simp [UserService.dataOf, hRole]
  · simp [hRole, hCode] at hAdmin

/- The insertion of the user, and what is published. -/
theorem conforms_enrol
    (hashedPassword : String)
    (body : CreateUserDto)
    (hAdmin :
      ¬ (body.role ≠ some .ADMIN ∧ body.code? ≠ none)) :
    Conforms (Moves platform env files) Stopped
      ((perform
        (TenancyOp.userCreate
          (UserService.dataOf hashedPassword body)) :
          TenancyHandler User).bind fun user =>
        (UserService.publishDatabaseCreation user.id
          body.code?).bind fun _ => done user.response)
      enrolling := by
  apply conforms_bind
  apply conforms_perform
  intro answer
  cases answer with
  | error error => exact ⟨quiet, Moves.enrolFailed, trivial⟩
  | ok user =>
      cases hCode : body.code? with
      | none =>
          exact ⟨quiet, Moves.enrolCustomer hCode, trivial⟩
      | some tenantCode =>
          refine
            ⟨enrolled ⟨user.id, tenantCode⟩,
              Moves.enrolAdmin hCode
                (isDatabaseCreated_of_code hAdmin hCode),
              ?_⟩
          apply conforms_bind
          apply conforms_attempt
          apply conforms_perform
          intro answer
          refine ⟨quiet, Moves.publish, ?_⟩
          cases answer with
          | ok result => trivial
          | error error => trivial

/- The check of the tenant code leaves the phase. -/
theorem conforms_checkTenantCode
    {α : Type}
    (code? : Option String)
    {next : Unit → TenancyHandler α}
    (hNext :
      Conforms (Moves platform env files) Stopped (next ())
        enrolling) :
    Conforms (Moves platform env files) Stopped
      ((UserService.checkTenantCode code?).bind next)
      enrolling := by
  cases code? with
  | none => exact hNext
  | some tenantCode =>
      intro answer
      refine ⟨enrolling, Moves.lookup rfl, ?_⟩
      cases answer with
      | error error => trivial
      | ok existingTenant =>
          cases existingTenant with
          | none => exact hNext
          | some user => trivial

/- A user creation conforms to the protocol. -/
theorem conforms_createUser
    (hashedPassword : String)
    (body : CreateUserDto) :
    Conforms (Moves platform env files) Stopped
      (UserService.create hashedPassword body)
      enrolling := by
  unfold UserService.create
  split
  · trivial
  · split
    · trivial
    · rename_i hAdmin
      apply conforms_lookup rfl
      intro existingUser
      split
      · trivial
      · apply conforms_checkTenantCode
        exact conforms_enrol hashedPassword body hAdmin

/- Forgetting the value of a program keeps conformance. -/
theorem conforms_ignore_stopped
    {α : Type}
    {program : TenancyHandler α}
    {phase : TenancyPhase}
    (hConforms :
      Conforms (Moves platform env files) Stopped program
        phase) :
    Conforms (Moves platform env files) Stopped
      program.ignore phase := by
  apply conforms_bind
  apply hConforms.mono
  intro outcome phase' hFinal
  cases outcome with
  | ok value => exact hFinal
  | error error => exact hFinal

end TenancyPhase

end OrderApi

------------------------------------------------------------
-- Migrating
------------------------------------------------------------

namespace OrderApi

namespace TenancyPhase

open Program
open DatabaseCreationConsumer (saysExists)

variable {platform : Platform} {env : Environment}
variable {files : MigrationFiles}
variable {message : DatabaseCreationMessage}

/-
  The outcomes of a part of the migration.  It returns with
  some progress made, or throws an error that will not be
  taken for success.
-/
def Migrating
    {α : Type}
    (message : DatabaseCreationMessage)
    (executed logged : List String) :
    Except ApiError α → TenancyPhase → Prop
  | .ok _, phase =>
      phase = excluded ∨ phase = owning message executed logged
  | .error error, phase =>
      phase = excluded ∨
        (phase = failing message ∧ saysExists error = false)

theorem migrating_excluded
    {α : Type}
    {executed logged : List String}
    (outcome : Except ApiError α) :
    Migrating message executed logged outcome excluded := by
  cases outcome with
  | ok value => exact Or.inl rfl
  | error error => exact Or.inl rfl

/- Sequential rule behind a part of the migration. -/
theorem conforms_bind_after
    {α β : Type}
    {executed logged : List String}
    {program : TenancyHandler α}
    {next : α → TenancyHandler β}
    {phase : TenancyPhase}
    {Post : Except ApiError β → TenancyPhase → Prop}
    (hFirst :
      Conforms (Moves platform env files)
        (Migrating message executed logged) program phase)
    (hExcluded : ∀ outcome, Post outcome excluded)
    (hFailing :
      ∀ error, saysExists error = false →
        Post (.error error) (failing message))
    (hNext :
      ∀ value,
        Conforms (Moves platform env files) Post (next value)
          (owning message executed logged)) :
    Conforms (Moves platform env files) Post
      (program.bind next) phase := by
  apply conforms_bind
  apply hFirst.mono
  intro outcome phase' hOutcome
  cases outcome with
  | error error =>
      rcases hOutcome with rfl | ⟨rfl, hOther⟩
      · exact hExcluded _
      · exact hFailing error hOther
  | ok value =>
      rcases hOutcome with rfl | rfl
      · exact conforms_excluded hExcluded _
      · exact hNext value

/- Sequential rule for parts of the migration. -/
theorem conforms_bind_migrating
    {α β : Type}
    {executed logged executed' logged' : List String}
    {program : TenancyHandler α}
    {next : α → TenancyHandler β}
    {phase : TenancyPhase}
    (hFirst :
      Conforms (Moves platform env files)
        (Migrating message executed logged) program phase)
    (hNext :
      ∀ value,
        Conforms (Moves platform env files)
          (Migrating message executed' logged') (next value)
          (owning message executed logged)) :
    Conforms (Moves platform env files)
      (Migrating message executed' logged')
      (program.bind next) phase :=
  conforms_bind_after hFirst migrating_excluded
    (fun _ hOther => Or.inr ⟨rfl, hOther⟩) hNext

/-
  An error that counts as success excludes the job, and any
  other one leaves it in the phase `next`.
-/
theorem moves_of_error
    {op : TenancyOp}
    {error : ApiError}
    {phase next : TenancyPhase}
    {Holds : TenancyPhase → Prop}
    (hOp : isProvisioning op = true)
    (hExcluded : Holds excluded)
    (hMoves :
      saysExists error = false →
        Moves platform env files phase op (.error error) next)
    (hNext : saysExists error = false → Holds next) :
    ∃ phase',
      Moves platform env files phase op (.error error)
          phase' ∧
        Holds phase' := by
  cases hExists : saysExists error with
  | true =>
      exact ⟨excluded, Moves.mistaken hOp hExists, hExcluded⟩
  | false => exact ⟨next, hMoves hExists, hNext hExists⟩

/- A call on the tenant client, apart from its answer. -/
theorem conforms_onTenant
    {executed logged executed' logged' : List String}
    {op : SchemaOp}
    (hMoves :
      ∀ result,
        Moves platform env files
          (owning message executed logged)
          (.tenantClient (message.databaseUrl platform env)
            op)
          (.ok result) (owning message executed' logged')) :
    Conforms (Moves platform env files)
      (Migrating message executed' logged')
      (DatabaseCreationConsumer.onTenant
        (message.databaseUrl platform env) op)
      (owning message executed logged) := by
  apply conforms_perform
  intro answer
  cases answer with
  | ok result => exact ⟨_, hMoves result, Or.inr rfl⟩
  | error error =>
      exact
        moves_of_error rfl (Or.inl rfl)
          Moves.migrationFailed fun hOther =>
            Or.inr ⟨rfl, hOther⟩

/- The statement loop executes what is not skipped. -/
theorem conforms_statements
    {logged : List String}
    (statements executed : List String) :
    Conforms (Moves platform env files)
      (Migrating message
        (executed ++
          statements.filter fun statement =>
            !shouldSkipStatement platform statement)
        logged)
      (forEach statements
        (DatabaseCreationConsumer.executeStatement platform
          (message.databaseUrl platform env)))
      (owning message executed logged) := by
  induction statements generalizing executed with
  | nil =>
      rw [List.filter_nil, List.append_nil]
      exact Or.inr rfl
  | cons statement statements ih =>
      cases hSkip :
          shouldSkipStatement platform statement with
      | true =>
          simp only [forEach,
            DatabaseCreationConsumer.executeStatement, hSkip,
            if_true, List.filter_cons, Bool.not_true,
            Bool.false_eq_true, if_false]
          exact ih executed
      | false =>
          have hRest := ih (executed ++ [statement])
          rw [List.append_assoc] at hRest
          simp only [forEach,
            DatabaseCreationConsumer.executeStatement, hSkip,
            Bool.false_eq_true, if_false, List.filter_cons,
            Bool.not_false, if_true]
          refine
            conforms_bind_migrating
              (conforms_onTenant fun _ => Moves.execute) ?_
          intro _
          exact hRest

/- A failed migration is rolled back, and fails. -/
theorem conforms_rollBack
    {executed logged : List String}
    {migrationId : String}
    {migrationError : ApiError}
    (hOther : saysExists migrationError = false) :
    Conforms (Moves platform env files)
      (Migrating message executed logged)
      ((DatabaseCreationConsumer.onTenant
        (message.databaseUrl platform env)
        (.rollBackMigration migrationId)).bind
          fun _ : Unit =>
            (fail migrationError : TenancyHandler Unit))
      (failing message) := by
  apply conforms_bind
  apply conforms_perform
  intro answer
  cases answer with
  | ok result =>
      exact
        ⟨failing message,
          Moves.rollBack (fun _ hError => by cases hError),
          Or.inr ⟨rfl, hOther⟩⟩
  | error error =>
      refine
        moves_of_error rfl (Or.inl rfl)
          (fun hOther => Moves.rollBack ?_) fun hOther =>
            Or.inr ⟨rfl, hOther⟩
      intro error' hError
      cases hError
      exact hOther

/- Applying a migration executes its pending statements. -/
theorem conforms_applyMigration
    {executed logged : List String}
    (migrationSQL migrationId : String) :
    Conforms (Moves platform env files)
      (Migrating message
        (executed ++ pendingStatements platform migrationSQL)
        logged)
      (DatabaseCreationConsumer.applyMigration platform
        (message.databaseUrl platform env) migrationSQL
        migrationId)
      (owning message executed logged) := by
  apply conforms_attempt
  have hBody :
      Conforms (Moves platform env files)
        (Migrating message
          (executed ++
            pendingStatements platform migrationSQL)
          logged)
        ((forEach (statements migrationSQL)
          (DatabaseCreationConsumer.executeStatement platform
            (message.databaseUrl platform env))).bind
            fun _ =>
              DatabaseCreationConsumer.onTenant
                (message.databaseUrl platform env)
                (.finishMigration migrationId
                  (statementCount migrationSQL)))
        (owning message executed logged) :=
    conforms_bind_migrating
      (conforms_statements (statements migrationSQL)
        executed)
      fun _ => conforms_onTenant fun _ => Moves.prepare rfl
  apply hBody.mono
  intro outcome phase hOutcome
  cases outcome with
  | ok result => exact hOutcome
  | error migrationError =>
      rcases hOutcome with rfl | ⟨rfl, hOther⟩
      · exact conforms_excluded migrating_excluded _
      · exact conforms_rollBack hOther

/- A migration that is not in the log is run. -/
theorem conforms_runMigration
    {executed logged : List String}
    {migration : Migration}
    (hFresh : migration.name ∉ logged) :
    Conforms (Moves platform env files)
      (Migrating message
        (executed ++
          pendingStatements platform migration.sql)
        (logged ++ [migration.name]))
      (DatabaseCreationConsumer.runMigration platform
        (message.databaseUrl platform env) migration)
      (owning message executed logged) := by
  intro answer
  cases answer with
  | error error =>
      exact
        moves_of_error rfl (Or.inl rfl)
          Moves.migrationFailed fun hOther =>
            Or.inr ⟨rfl, hOther⟩
  | ok ids =>
      cases ids with
      | cons id ids =>
          exact
            ⟨excluded,
              Moves.unexpected hFresh (List.cons_ne_nil _ _),
              conforms_excluded migrating_excluded _⟩
      | nil =>
          refine
            ⟨owning message executed logged,
              Moves.find (fun _ => rfl), ?_⟩
          change
            Conforms _ _
              ((DatabaseCreationConsumer.onTenant
                (message.databaseUrl platform env)
                (.insertMigration migration.name
                  (calculateChecksum migration.sql))).bind
                  fun migrationId : String =>
                    DatabaseCreationConsumer.applyMigration
                      platform
                      (message.databaseUrl platform env)
                      migration.sql migrationId)
              _
          refine
            conforms_bind_migrating
              (conforms_onTenant fun _ => Moves.insert) ?_
          intro migrationId
          exact
            conforms_applyMigration migration.sql migrationId

/- The migration loop runs all migrations. -/
theorem conforms_migrations
    (migrations : List Migration)
    (hNames : (migrations.map Migration.name).Nodup)
    (executed logged : List String)
    (hFresh :
      ∀ migration ∈ migrations, migration.name ∉ logged) :
    Conforms (Moves platform env files)
      (Migrating message
        (executed ++ allPending platform migrations)
        (logged ++ migrations.map Migration.name))
      (forEach migrations
        (DatabaseCreationConsumer.runMigration platform
          (message.databaseUrl platform env)))
      (owning message executed logged) := by
  induction migrations generalizing executed logged with
  | nil =>
      rw [allPending, List.flatMap_nil, List.append_nil,
        List.map_nil, List.append_nil]
      exact Or.inr rfl
  | cons migration migrations ih =>
      rw [List.map_cons, List.nodup_cons] at hNames
      rcases hNames with ⟨hName, hRest⟩
      refine
        conforms_bind_migrating
          (conforms_runMigration
            (hFresh migration List.mem_cons_self))
          ?_
      intro _
      have hLater :
          ∀ later ∈ migrations,
            later.name ∉ logged ++ [migration.name] := by
        intro later hLater hLogged
        rcases List.mem_append.mp hLogged with hOld | hNew
        · exact
            hFresh later (List.mem_cons_of_mem _ hLater) hOld
        · rw [List.mem_singleton] at hNew
          exact
            hName (hNew ▸ List.mem_map_of_mem hLater)
      have hConforms :=
        ih hRest
          (executed ++
            pendingStatements platform migration.sql)
          (logged ++ [migration.name]) hLater
      rw [List.append_assoc, List.append_assoc] at hConforms
      exact hConforms

end TenancyPhase

end OrderApi

------------------------------------------------------------
-- Creating and Migrating
------------------------------------------------------------

namespace OrderApi

namespace TenancyPhase

open Program
open DatabaseCreationConsumer (saysExists)

variable {platform : Platform} {env : Environment}
variable {files : MigrationFiles}
variable {message : DatabaseCreationMessage}

/-
  The outcomes of provisioning before its last catch block.
  An error that will be taken for success leaves the job
  about to finish.
-/
def Provisioning
    (message : DatabaseCreationMessage) :
    Except ApiError Unit → TenancyPhase → Prop
  | .ok _, phase =>
      phase = excluded ∨ phase = finishing message
  | .error error, phase =>
      phase = excluded ∨
        (phase = finishing message ∧
          saysExists error = true) ∨
        (phase = quiet ∧ saysExists error = false)

theorem provisioning_excluded
    (outcome : Except ApiError Unit) :
    Provisioning message outcome excluded := by
  cases outcome with
  | ok value => exact Or.inl rfl
  | error error => exact Or.inl rfl

/- The outcomes of the migration as a whole. -/
def Migrates
    (message : DatabaseCreationMessage) :
    Except ApiError Unit → TenancyPhase → Prop
  | .ok _, phase =>
      phase = excluded ∨ phase = finishing message
  | .error error, phase =>
      phase = excluded ∨
        (phase = failing message ∧ saysExists error = false)

theorem migrates_excluded
    (outcome : Except ApiError Unit) :
    Migrates message outcome excluded := by
  cases outcome with
  | ok value => exact Or.inl rfl
  | error error => exact Or.inl rfl

/- The last disconnection, once all migrations are run. -/
theorem conforms_disconnectTenant
    {executed logged : List String}
    (hMigrated : Migrated platform files executed) :
    Conforms (Moves platform env files) (Migrates message)
      (perform TenancyOp.disconnectTenant :
        TenancyHandler Unit)
      (owning message executed logged) := by
  apply conforms_perform
  intro answer
  cases answer with
  | ok result =>
      exact
        ⟨finishing message, Moves.disconnectTenant hMigrated,
          Or.inr rfl⟩
  | error error =>
      exact
        moves_of_error rfl (Or.inl rfl)
          Moves.disconnectTenantFailed fun hOther =>
            Or.inr ⟨rfl, hOther⟩

/- A migration that returns has run all migrations. -/
theorem conforms_migrate :
    Conforms (Moves platform env files) (Migrates message)
      (DatabaseCreationConsumer.migrate platform files
        (message.databaseUrl platform env))
      (owning message [] []) := by
  have hFailing :
      ∀ error, saysExists error = false →
        Migrates message (.error error) (failing message) :=
    fun _ hOther => Or.inr ⟨rfl, hOther⟩
  refine
    conforms_bind_after
      (conforms_onTenant fun _ => Moves.prepare rfl)
      migrates_excluded hFailing fun _ => ?_
  refine
    conforms_bind_after
      (conforms_onTenant fun _ => Moves.prepare rfl)
      migrates_excluded hFailing fun _ => ?_
  refine
    conforms_bind_after
      (conforms_migrations files.inOrder files.nodup_inOrder
        [] [] (by simp))
      migrates_excluded hFailing fun _ => ?_
  apply conforms_disconnectTenant
  exact List.Sublist.refl _

/- The disconnection behind `CREATE DATABASE`. -/
theorem conforms_disconnectPostgres
    {outcome : Except ApiError Unit}
    {phase : TenancyPhase}
    {Post : Except ApiError Unit → TenancyPhase → Prop}
    (hPost : Post outcome phase)
    (hQuiet :
      ∀ error, saysExists error = false →
        Post (.error error) quiet)
    (hExcluded : ∀ outcome, Post outcome excluded)
    (own : Bool) :
    Conforms (Moves platform env files) Post
      ((if own then
          perform TenancyOp.disconnectPostgres
        else
          pure () : TenancyHandler Unit).bind fun _ =>
        ofExcept outcome)
      phase := by
  have hSame :
      Conforms (Moves platform env files) Post
        (ofExcept outcome) phase := by
    cases outcome with
    | ok result => exact hPost
    | error error => exact hPost
  cases own with
  | false => exact hSame
  | true =>
      intro answer
      cases answer with
      | ok result => exact ⟨phase, Moves.disconnected, hSame⟩
      | error error =>
          exact
            moves_of_error rfl (hExcluded _)
              Moves.disconnectFailed (hQuiet error)

/- The outcomes of `CREATE DATABASE`. -/
def Creates
    (message : DatabaseCreationMessage) :
    Except ApiError Unit → TenancyPhase → Prop
  | .ok _, phase =>
      phase = excluded ∨ phase = owning message [] []
  | .error error, phase =>
      phase = excluded ∨
        (phase = finishing message ∧
          saysExists error = true) ∨
        (phase = quiet ∧ saysExists error = false)

theorem conforms_createDatabase (own : Bool) :
    Conforms (Moves platform env files) (Creates message)
      (DatabaseCreationConsumer.createDatabase
        (message.databaseName platform env) own)
      (opening message) := by
  have hQuiet :
      ∀ error, saysExists error = false →
        Creates message (.error error) quiet :=
    fun _ hOther => Or.inr (Or.inr ⟨rfl, hOther⟩)
  have hExcluded :
      ∀ outcome, Creates message outcome excluded := by
    intro outcome
    cases outcome with
    | ok result => exact Or.inl rfl
    | error error => exact Or.inl rfl
  apply conforms_andFinally
  apply conforms_perform
  intro answer
  cases answer with
  | ok result =>
      exact
        ⟨owning message [] [], Moves.created,
          conforms_disconnectPostgres (Or.inr rfl) hQuiet
            hExcluded own⟩
  | error error =>
      cases hExists : saysExists error with
      | true =>
          exact
            ⟨finishing message, Moves.existed hExists,
              conforms_disconnectPostgres
                (Or.inr (Or.inl ⟨rfl, hExists⟩)) hQuiet
                hExcluded own⟩
      | false =>
          exact
            ⟨quiet, Moves.refused hExists,
              conforms_disconnectPostgres
                (Or.inr (Or.inr ⟨rfl, hExists⟩)) hQuiet
                hExcluded own⟩

/- A failed migration drops its database. -/
theorem conforms_dropDatabase
    {error : ApiError}
    (hOther : saysExists error = false) :
    Conforms (Moves platform env files)
      (Provisioning message)
      ((DatabaseCreationConsumer.dropDatabase
        (message.databaseName platform env)).bind fun _ =>
          fail error)
      (failing message) := by
  intro answer
  refine ⟨quiet, Moves.drop, ?_⟩
  cases answer with
  | ok result => exact Or.inr (Or.inr ⟨rfl, hOther⟩)
  | error dropError => exact Or.inr (Or.inr ⟨rfl, hOther⟩)

/- The migration, with its database dropped on errors. -/
theorem conforms_migrate_or_drop :
    Conforms (Moves platform env files)
      (Provisioning message)
      ((DatabaseCreationConsumer.migrate platform files
        (message.databaseUrl platform env)).attempt
          fun error =>
            (DatabaseCreationConsumer.dropDatabase
              (message.databaseName platform env)).bind
                fun _ => fail error)
      (owning message [] []) := by
  apply conforms_attempt
  apply conforms_migrate.mono
  intro outcome phase hOutcome
  cases outcome with
  | ok result => exact hOutcome
  | error error =>
      rcases hOutcome with rfl | ⟨rfl, hOther⟩
      · exact conforms_excluded provisioning_excluded _
      · exact conforms_dropDatabase hOther

/- Connecting a client does not leave the phase. -/
theorem conforms_connectOwnClient (url : String) :
    Conforms (Moves platform env files)
      (fun outcome phase =>
        (∃ own, outcome = .ok own) ∧ phase = opening message)
      (DatabaseCreationConsumer.connectOwnClient url)
      (opening message) := by
  intro answer
  refine ⟨opening message, Moves.connectPostgres, ?_⟩
  cases answer with
  | ok result => exact ⟨⟨true, rfl⟩, rfl⟩
  | error error => exact ⟨⟨false, rfl⟩, rfl⟩

/- Everything before the last catch block. -/
theorem conforms_provision :
    Conforms (Moves platform env files)
      (Provisioning message)
      (do
        let own ←
          DatabaseCreationConsumer.connectOwnClient
            (DatabaseCreationConsumer.postgresDatabaseUrl
              platform env)
        DatabaseCreationConsumer.createDatabase
          (message.databaseName platform env) own
        (DatabaseCreationConsumer.migrate platform files
          (message.databaseUrl platform env)).attempt
            fun error => do
              DatabaseCreationConsumer.dropDatabase
                (message.databaseName platform env)
              fail error)
      (opening message) := by
  apply conforms_bind
  apply (conforms_connectOwnClient _).mono
  rintro _ phase ⟨⟨own, rfl⟩, rfl⟩
  apply conforms_bind
  apply (conforms_createDatabase own).mono
  intro outcome phase hOutcome
  cases outcome with
  | error error => exact hOutcome
  | ok result =>
      rcases hOutcome with rfl | rfl
      · exact conforms_excluded provisioning_excluded _
      · exact conforms_migrate_or_drop

/- A handling conforms to the protocol. -/
theorem conforms_handleDatabaseCreation :
    Conforms (Moves platform env files) Stopped
      (DatabaseCreationConsumer.handleDatabaseCreation
        platform env files message)
      (opening message) := by
  have hFinish :
      ∀ phase,
        phase = excluded ∨ phase = finishing message →
        Conforms (Moves platform env files) Stopped
          (perform
            (TenancyOp.userSetDatabaseCreated
              message.userId) : TenancyHandler Unit)
          phase := by
    rintro phase (rfl | rfl)
    · exact conforms_excluded (fun _ => trivial) _
    · apply conforms_perform
      intro answer
      exact ⟨quiet, Moves.finish, trivial⟩
  apply conforms_bind
  apply conforms_attempt
  apply conforms_provision.mono
  intro outcome phase hOutcome
  cases outcome with
  | ok result => exact hFinish phase hOutcome
  | error error =>
      rcases hOutcome with
        rfl | ⟨rfl, hExists⟩ | ⟨rfl, hOther⟩
      · exact
          conforms_excluded
            (fun outcome => by
              cases outcome with
              | ok result =>
                  exact hFinish excluded (Or.inl rfl)
              | error error => trivial)
            _
      · simp only [hExists, if_true]
        exact hFinish _ (Or.inr rfl)
      · simp only [hOther, Bool.false_eq_true, if_false]
        trivial

end TenancyPhase

/- All jobs obey the discipline. -/
theorem tenancySystem_obeys
    (platform : Platform)
    (env : Environment)
    (files : MigrationFiles) :
    (tenancySystem platform env files).Obeys
      (tenancyDiscipline platform env files) := by
  intro job
  cases job with
  | createUser hashedPassword body =>
      exact
        TenancyPhase.conforms_ignore_stopped
          (TenancyPhase.conforms_createUser hashedPassword
            body)
  | handleDatabaseCreation message =>
      exact TenancyPhase.conforms_handleDatabaseCreation

end OrderApi
