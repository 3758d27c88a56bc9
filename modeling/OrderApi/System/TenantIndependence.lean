import OrderApi.Core.Evaluation
import OrderApi.Prisma.TenantMigration
import OrderApi.System.TenancySystem

/-
  The migrations of one tenant among those of others.

  Which calls fail is fixed beforehand, by the tenant and by
  the step of its migrations, so that a run of all tenants
  can be set beside a run of one.

  Key definitions include:
    * `FailurePattern`, `TenantsWorld.exec`
    * `SchemaWorld.exec`
    * `Stops`, `Idle`, `Unchanged`
    * `MigratesAlone`

  Key theorems include:
    * `eval_migrateTenant_of_schema`
    * `eval_runMigrations`
    * `eval_migrateTenants_at`
    * `migratesAlone_iff`
-/

------------------------------------------------------------
-- Patterns of Failures
------------------------------------------------------------

namespace OrderApi

/- The steps of the migrations of a tenant. -/
inductive MigrationCall where
  | connect
  | createTable
  | read (migration : String)
  | statement (migration : String) (position : Nat)
  | log (migration : String)
  | disconnect
deriving DecidableEq, Repr

/-
  How the environment meets each step of each tenant, by the
  URL of its client, and the query for the tenants.
-/
structure FailurePattern where
  tenants : Choice
  step : String → MigrationCall → Choice

/- The tenant, the migration and the statement at hand. -/
structure Cursor where
  url : String
  migration : String
  position : Nat
deriving DecidableEq, Repr

namespace Cursor

/- The step that a call on the client of a tenant is. -/
def step (cursor : Cursor) : SchemaOp → MigrationCall
  | .connect => .connect
  | .createMigrationsTable => .createTable
  | .findMigrations name => .read name
  | .executeStatement _ =>
      .statement cursor.migration cursor.position
  | .insertApplied name _ => .log name
  -- the service makes no other call
  | _ => .log cursor.migration

def next (cursor : Cursor) (url : String) : SchemaOp → Cursor
  | .connect => ⟨url, "", 0⟩
  | .findMigrations name => ⟨url, name, 0⟩
  | .executeStatement _ =>
      { cursor with position := cursor.position + 1 }
  | _ => cursor

end Cursor

def Choice.fails : Choice → Bool
  | .failure _ => true
  | .answer _ => false

/- The registry, and where the migrations have come to. -/
structure TenantsWorld where
  store : Registry
  cursor : Cursor

/- How the environment meets a call. -/
def FailurePattern.choice
    (pattern : FailurePattern)
    (cursor : Cursor) : TenancyOp → Choice
  | .tenantClient url call =>
      pattern.step url (cursor.step call)
  | .disconnectTenant => pattern.step cursor.url .disconnect
  | _ => pattern.tenants

def Cursor.behind (cursor : Cursor) : TenancyOp → Cursor
  | .tenantClient url call => cursor.next url call
  | _ => cursor

namespace TenantsWorld

/- A call, met as the pattern says. -/
def exec
    (platform : Platform)
    (pattern : FailurePattern)
    (op : TenancyOp)
    (world : TenantsWorld) :
    Except ApiError op.Res × TenantsWorld :=
  let answer :=
    op.exec platform (pattern.choice world.cursor op)
      world.store
  (answer.1, ⟨answer.2, world.cursor.behind op⟩)

/- A run of the migrations of all tenants. -/
def migrateAll
    (platform : Platform)
    (pattern : FailurePattern)
    (clientUrl : String → String)
    (files : MigrationFiles)
    (world : TenantsWorld) : TenantsWorld :=
  (Program.eval (exec platform pattern)
    (TenantMigrationService.migrateAllTenants clientUrl files)
    world).2

end TenantsWorld

/- What a database holds that a URL leads to. -/
def Registry.schemaAt
    (platform : Platform)
    (url : String)
    (store : Registry) : Option TenantSchema :=
  (platform.databaseOf url).bind store.databases

end OrderApi

------------------------------------------------------------
-- Conditions
------------------------------------------------------------

namespace OrderApi

open TenantMigrationService

/- The migrations of a tenant throw. -/
def Stops
    (platform : Platform)
    (pattern : FailurePattern)
    (files : MigrationFiles)
    (url : String)
    (store : Registry) : Prop :=
  store.schemaAt platform url = none ∨
    (pattern.step url .connect).fails ∨
    (pattern.step url .createTable).fails ∨
    (∃ migration ∈ files.inOrder,
      (pattern.step url (.read migration.name)).fails) ∨
    (pattern.step url .disconnect).fails

/- The row of a migration without statements is refused. -/
def LogFails (schema : TenantSchema) : Choice → Prop
  | .failure _ => True
  | .answer tick =>
      ∃ rows, schema.migrations = some rows ∧
        rows.find? tick.freshId ≠ none

/- The first call of applying a migration is refused. -/
def Refused
    (platform : Platform)
    (pattern : FailurePattern)
    (url : String)
    (schema : TenantSchema)
    (migration : Migration) : Prop :=
  match (issued migration.sql).head? with
  | none =>
      LogFails schema (pattern.step url (.log migration.name))
  | some statement =>
      (pattern.step url (.statement migration.name 0)).fails ∨
        platform.meetsExisting schema.executed statement

/- A migration is in the log, or refused at once. -/
def Idle
    (platform : Platform)
    (pattern : FailurePattern)
    (url : String)
    (schema : TenantSchema)
    (migration : Migration) : Prop :=
  migration.name ∈ schema.logged ∨
    Refused platform pattern url schema migration

/- The migrations before the first that is not read. -/
def readable
    (pattern : FailurePattern)
    (url : String)
    (migrations : List Migration) : List Migration :=
  migrations.takeWhile fun migration =>
    !(pattern.step url (.read migration.name)).fails

/- The migrations of a tenant leave its database. -/
def Unchanged
    (platform : Platform)
    (pattern : FailurePattern)
    (files : MigrationFiles)
    (url : String)
    (store : Registry) : Prop :=
  ∀ schema, store.schemaAt platform url = some schema →
    (pattern.step url .connect).fails ∨
      (pattern.step url .createTable).fails ∨
      (schema.migrations ≠ none ∧
        ∀ migration ∈ readable pattern url files.inOrder,
          Idle platform pattern url schema migration)

end OrderApi

------------------------------------------------------------
-- One Database
------------------------------------------------------------

namespace OrderApi

open Program TenantMigrationService

/- The schema of one tenant, with the cursor. -/
structure SchemaWorld where
  schema : TenantSchema
  cursor : Cursor

/- The calls that the migrations of a tenant make. -/
def OnTenant (url : String) (op : TenancyOp) : Prop :=
  (∃ call, op = .tenantClient url call) ∨
    op = .disconnectTenant

namespace SchemaWorld

/- A call, seen from the one database that it is about. -/
def exec
    (platform : Platform)
    (pattern : FailurePattern)
    (url : String) :
    (op : TenancyOp) → SchemaWorld →
      Except ApiError op.Res × SchemaWorld
  | .tenantClient _ query, world =>
      let cursor := world.cursor.next url query
      match pattern.step url (world.cursor.step query) with
      | .failure message =>
          (.error (storeError message),
            ⟨world.schema, cursor⟩)
      | .answer tick =>
          match query.exec platform tick world.schema with
          | .error message =>
              (.error (storeError message),
                ⟨world.schema, cursor⟩)
          | .ok (result, schema) =>
              (.ok result, ⟨schema, cursor⟩)
  | .disconnectTenant, world =>
      match pattern.step world.cursor.url .disconnect with
      | .failure message =>
          (.error (storeError message), world)
      | .answer _ => (.ok (), world)
  | _, world => (.error (storeError ""), world)

end SchemaWorld

variable {platform : Platform} {pattern : FailurePattern}
variable {clientUrl : String → String}
variable {files : MigrationFiles}
variable {url name tenantCode : String}

/- A registry with one schema in its place. -/
def Holds
    (base : Registry)
    (name : String)
    (world : TenantsWorld)
    (schemaWorld : SchemaWorld) : Prop :=
  world.store = base.put name (some schemaWorld.schema) ∧
    world.cursor = schemaWorld.cursor

/- Calls on a tenant are those on its one database. -/
theorem exec_holds
    (pattern : FailurePattern)
    {base : Registry}
    (hUrl : platform.databaseOf url = some name)
    (op : TenancyOp)
    {world : TenantsWorld}
    {schemaWorld : SchemaWorld}
    (hOp : OnTenant url op)
    (hHolds : Holds base name world schemaWorld) :
    (world.exec platform pattern op).1 =
        (schemaWorld.exec platform pattern url op).1 ∧
      Holds base name (world.exec platform pattern op).2
        (schemaWorld.exec platform pattern url op).2 := by
  rcases world with ⟨store, cursor⟩
  rcases hHolds with ⟨hStore, hCursor⟩
  dsimp only at hStore hCursor
  subst hStore hCursor
  rcases hOp with ⟨query, rfl⟩ | rfl
  · unfold TenantsWorld.exec SchemaWorld.exec
    simp only [FailurePattern.choice, Cursor.behind]
    cases pattern.step url (schemaWorld.cursor.step query) with
    | failure message => exact ⟨rfl, rfl, rfl⟩
    | answer tick =>
        simp only [TenancyOp.exec, TenancyOp.answer,
          Registry.onTenant, hUrl,
          Registry.put_databases_same]
        cases query.exec platform tick schemaWorld.schema with
        | error message => exact ⟨rfl, rfl, rfl⟩
        | ok answer =>
            exact
              ⟨rfl, Registry.put_put _, rfl⟩
  · unfold TenantsWorld.exec SchemaWorld.exec
    simp only [FailurePattern.choice, Cursor.behind]
    cases pattern.step schemaWorld.cursor.url .disconnect with
    | failure message => exact ⟨rfl, rfl, rfl⟩
    | answer tick => exact ⟨rfl, rfl, rfl⟩

namespace TenantMigrationService

theorem onTenant_tenantPrisma (query : SchemaOp) :
    Calls (OnTenant url) (tenantPrisma url query) :=
  calls_perform (Or.inl ⟨query, rfl⟩)

theorem onTenant_applyMigration (migration : Migration) :
    Calls (OnTenant url) (applyMigration url migration) := by
  apply calls_bind
  · exact
      calls_forEach
        (fun statement => onTenant_tenantPrisma _) _
  · intro _
    apply calls_bind (onTenant_tenantPrisma _)
    intro id
    exact calls_done ()

theorem onTenant_runMigrations
    (tenantCode : String)
    (migrations : List Migration) :
    Calls (OnTenant url)
      (runMigrations tenantCode url migrations) := by
  induction migrations with
  | nil => exact calls_done _
  | cons migration migrations ih =>
      apply calls_bind
      · apply calls_bind (onTenant_tenantPrisma _)
        intro ids
        split
        · apply calls_attempt
          · apply calls_bind (onTenant_applyMigration _)
            intro _
            exact calls_done _
          · intro error
            exact calls_done _
        · exact calls_done _
      · intro result
        apply calls_bind ih
        intro results
        exact calls_done _

theorem onTenant_migrateTenant
    (files : MigrationFiles)
    (tenantCode url : String) :
    Calls (OnTenant url)
      (migrateTenant files tenantCode url) := by
  apply calls_bind (onTenant_tenantPrisma _)
  intro _
  apply calls_bind (onTenant_tenantPrisma _)
  intro _
  apply calls_bind (onTenant_runMigrations _ _)
  intro results
  apply calls_bind
  · exact calls_perform (Or.inr rfl)
  · intro _
    exact calls_done _

end TenantMigrationService

/- The cursor before the calls of a tenant does not matter. -/
def startOf (url : String) : Cursor := ⟨url, "", 0⟩

/- The migrations of a tenant, on a schema. -/
def SchemaWorld.migrate
    (platform : Platform)
    (pattern : FailurePattern)
    (files : MigrationFiles)
    (tenantCode url : String)
    (schema : TenantSchema) :
    Except ApiError (List MigrationResult) × SchemaWorld :=
  eval (SchemaWorld.exec platform pattern url)
    (migrateTenant files tenantCode url)
    ⟨schema, startOf url⟩

/- The migrations of a tenant change its schema alone. -/
theorem eval_migrateTenant_of_schema
    (pattern : FailurePattern)
    (files : MigrationFiles)
    (tenantCode : String)
    {schema : TenantSchema}
    {world : TenantsWorld}
    (hUrl : platform.databaseOf url = some name)
    (hSchema : world.store.databases name = some schema) :
    (eval (TenantsWorld.exec platform pattern)
        (migrateTenant files tenantCode url) world).1 =
      (SchemaWorld.migrate platform pattern files tenantCode
        url schema).1 ∧
    (eval (TenantsWorld.exec platform pattern)
        (migrateTenant files tenantCode url) world).2.store =
      world.store.put name
        (some
          (SchemaWorld.migrate platform pattern files
            tenantCode url schema).2.schema) := by
  have hSelf :
      world.store = world.store.put name (some schema) :=
    (Registry.put_self hSchema).symm
  have hStart :
      eval (SchemaWorld.exec platform pattern url)
          (migrateTenant files tenantCode url)
          ⟨schema, world.cursor⟩ =
        SchemaWorld.migrate platform pattern files tenantCode
          url schema := by
    rfl
  have hHolds :
      Holds world.store name world ⟨schema, world.cursor⟩ :=
    ⟨hSelf, rfl⟩
  have hBoth :=
    (onTenant_migrateTenant files tenantCode url).eval_sim
      (Holds world.store name)
      (fun op _ _ => exec_holds pattern hUrl op) hHolds
  rw [hStart] at hBoth
  exact ⟨hBoth.1, hBoth.2.1⟩

/- A connection to no database fails. -/
theorem exec_connect_of_missing
    (pattern : FailurePattern)
    {world : TenantsWorld}
    (hMissing : world.store.schemaAt platform url = none) :
    ∃ error world',
      world.exec platform pattern (.tenantClient url .connect) =
        (.error error, world') ∧
      world'.store = world.store := by
  unfold TenantsWorld.exec
  simp only [FailurePattern.choice]
  cases pattern.step url (world.cursor.step .connect) with
  | failure message => exact ⟨_, _, rfl, rfl⟩
  | answer tick =>
      unfold Registry.schemaAt at hMissing
      cases hUrl : platform.databaseOf url with
      | none =>
          simp only [TenancyOp.exec, TenancyOp.answer,
            Registry.onTenant, hUrl]
          exact ⟨_, _, rfl, rfl⟩
      | some name =>
          rw [hUrl, Option.bind_some] at hMissing
          simp only [TenancyOp.exec, TenancyOp.answer,
            Registry.onTenant, hUrl, hMissing]
          exact ⟨_, _, rfl, rfl⟩

/- Without a database, the migrations change nothing. -/
theorem eval_migrateTenant_of_missing
    {world : TenantsWorld}
    (hMissing : world.store.schemaAt platform url = none) :
    ∃ error world',
      eval (TenantsWorld.exec platform pattern)
          (migrateTenant files tenantCode url) world =
        (.error error, world') ∧
      world'.store = world.store := by
  rcases exec_connect_of_missing pattern hMissing
    with ⟨error, world', hExec, hStore⟩
  have hConnect := (eval_perform _).trans hExec
  exact
    ⟨error, world', eval_bind_error hConnect _, hStore⟩

end OrderApi

------------------------------------------------------------
-- Migrations of One Schema
------------------------------------------------------------

namespace OrderApi

open Program TenantMigrationService

variable {platform : Platform} {pattern : FailurePattern}
variable {url tenantCode : String}

/- How much was executed and logged. -/
def TenantSchema.size (schema : TenantSchema) : Nat :=
  schema.executed.length + schema.logged.length

/- No call makes a schema smaller. -/
theorem TenantSchema.size_le_of_exec
    {tick : Tick}
    {schema schema' : TenantSchema}
    {query : SchemaOp}
    {result : query.Res}
    (hExec :
      query.exec platform tick schema =
        .ok (result, schema')) :
    schema.size ≤ schema'.size := by
  unfold size
  by_cases hKeeps : query.keepsProgress
  · rw [(SchemaOp.exec_keepsProgress hKeeps hExec).1,
      (SchemaOp.exec_keepsProgress hKeeps hExec).2]
  · cases query with
    | findMigrations name =>
        rw [(SchemaOp.exec_findMigrations hExec).1]
    | insertMigration name checksum =>
        rw [(SchemaOp.exec_insertMigration hExec).1,
          (SchemaOp.exec_insertMigration hExec).2]
        simp
    | executeStatement statement =>
        rw [(SchemaOp.exec_executeStatement hExec).1,
          (SchemaOp.exec_executeStatement hExec).2]
        simp
    | insertApplied name count =>
        rw [(SchemaOp.exec_insertApplied hExec).1,
          (SchemaOp.exec_insertApplied hExec).2]
        simp
    | _ => exact (hKeeps rfl).elim

/- A call that writes to the log leaves it there. -/
theorem TenantSchema.migrations_ne_none_of_log?
    {schema schema' : TenantSchema}
    {row : MigrationRow}
    {id : String}
    (hLog : schema.log? row = .ok (id, schema')) :
    schema'.migrations ≠ none := by
  unfold log? at hLog
  split at hLog
  · cases hLog
  · split at hLog
    · cases hLog
    · cases hLog
      simp

theorem TenantSchema.migrations_ne_none_of_relog
    {schema schema' : TenantSchema}
    {id : String}
    {change : MigrationRow → MigrationRow}
    {hKey : ∀ row, Keyed.key (change row) = Keyed.key row}
    {result : Unit}
    (hRelog :
      schema.relog id change hKey = .ok (result, schema')) :
    schema'.migrations ≠ none := by
  unfold relog at hRelog
  split at hRelog
  · cases hRelog
  · cases hRelog
    simp

/- No call takes the log away. -/
theorem TenantSchema.migrations_ne_none_of_exec
    {tick : Tick}
    {schema schema' : TenantSchema}
    {query : SchemaOp}
    {result : query.Res}
    (hLog : schema.migrations ≠ none)
    (hExec :
      query.exec platform tick schema =
        .ok (result, schema')) :
    schema'.migrations ≠ none := by
  cases query with
  | connect =>
      cases hExec
      exact hLog
  | createMigrationsTable =>
      cases hExec
      simp
  | findMigrations name =>
      rw [(SchemaOp.exec_findMigrations hExec).1]
      exact hLog
  | executeStatement statement =>
      simp only [SchemaOp.exec] at hExec
      split at hExec
      · cases hExec
      · cases hExec
        exact hLog
  | insertMigration name checksum =>
      exact migrations_ne_none_of_log? hExec
  | insertApplied name count =>
      exact migrations_ne_none_of_log? hExec
  | finishMigration id count =>
      exact migrations_ne_none_of_relog hExec
  | rollBackMigration id =>
      exact migrations_ne_none_of_relog hExec

/- A tenant is at hand, its log is there, and nothing lost. -/
structure Underway
    (url : String)
    (size : Nat)
    (world : SchemaWorld) : Prop where
  url_eq : world.cursor.url = url
  logs : world.schema.migrations ≠ none
  size_le : size ≤ world.schema.size

theorem Cursor.next_url
    {cursor : Cursor}
    (hUrl : cursor.url = url)
    (query : SchemaOp) :
    (cursor.next url query).url = url := by
  cases query with
  | connect => rfl
  | findMigrations name => rfl
  | _ => exact hUrl

/- Every call keeps this. -/
theorem Underway.exec
    {size : Nat}
    {world : SchemaWorld}
    (hUnderway : Underway url size world)
    (platform : Platform)
    (pattern : FailurePattern)
    (op : TenancyOp) :
    Underway url size
      (world.exec platform pattern url op).2 := by
  rcases hUnderway with ⟨hUrl, hLogs, hSize⟩
  unfold SchemaWorld.exec
  split
  · rename_i query
    have hNext := Cursor.next_url hUrl query
    dsimp only
    split
    · exact ⟨hNext, hLogs, hSize⟩
    · split
      · exact ⟨hNext, hLogs, hSize⟩
      · rename_i hExec
        exact
          ⟨hNext,
            TenantSchema.migrations_ne_none_of_exec hLogs hExec,
            hSize.trans (TenantSchema.size_le_of_exec hExec)⟩
  · split
    · exact ⟨hUrl, hLogs, hSize⟩
    · exact ⟨hUrl, hLogs, hSize⟩
  · exact ⟨hUrl, hLogs, hSize⟩

/- So does every program. -/
theorem Underway.eval
    {α : Type}
    {size : Nat}
    {world : SchemaWorld}
    (hUnderway : Underway url size world)
    (platform : Platform)
    (pattern : FailurePattern)
    (program : TenancyHandler α) :
    Underway url size
      (eval (SchemaWorld.exec platform pattern url) program
        world).2 :=
  eval_invariant (Underway url size)
    (fun op _ hBefore => hBefore.exec platform pattern op)
    hUnderway

/- A call on a schema fails and leaves it, or is answered. -/
theorem SchemaWorld.exec_cases
    (platform : Platform)
    (pattern : FailurePattern)
    (url : String)
    (query : SchemaOp)
    (world : SchemaWorld) :
    (∃ error,
      world.exec platform pattern url (.tenantClient url query) =
          (.error error,
            ⟨world.schema, world.cursor.next url query⟩) ∧
        ((pattern.step url (world.cursor.step query)).fails ∨
          ∃ tick message,
            pattern.step url (world.cursor.step query) =
                .answer tick ∧
              query.exec platform tick world.schema =
                .error message)) ∨
    (∃ tick result schema',
      world.exec platform pattern url (.tenantClient url query) =
          (.ok result,
            ⟨schema', world.cursor.next url query⟩) ∧
        pattern.step url (world.cursor.step query) =
          .answer tick ∧
        query.exec platform tick world.schema =
          .ok (result, schema')) := by
  unfold SchemaWorld.exec
  dsimp only
  cases pattern.step url (world.cursor.step query) with
  | failure message => exact Or.inl ⟨_, rfl, Or.inl rfl⟩
  | answer tick =>
      dsimp only
      cases hExec : query.exec platform tick world.schema with
      | error message =>
          exact
            Or.inl ⟨_, rfl, Or.inr ⟨tick, message, rfl, hExec⟩⟩
      | ok answer =>
          exact
            Or.inr
              ⟨tick, answer.1, answer.2, rfl, rfl, hExec⟩

/- A row under a used id is refused, and so not logged. -/
theorem exec_insertApplied_cases
    (platform : Platform)
    (tick : Tick)
    {schema : TenantSchema}
    (hLogs : schema.migrations ≠ none)
    (name : String)
    (count : Nat) :
    (LogFails schema (.answer tick) ∧
      ∃ message,
        (SchemaOp.insertApplied name count).exec platform tick
          schema = .error message) ∨
    (¬ LogFails schema (.answer tick) ∧
      ∃ id schema',
        (SchemaOp.insertApplied name count).exec platform tick
          schema = .ok (id, schema')) := by
  rcases Option.ne_none_iff_exists'.mp hLogs with
    ⟨rows, hRows⟩
  simp only [LogFails, hRows, Option.some.injEq,
    exists_eq_left', SchemaOp.exec, TenantSchema.log?]
  have hInsert := rows.insert?_cases
    { id := tick.freshId
      checksum := "-"
      migration_name := name
      started_at := tick.now
      finished_at := some tick.now
      rolled_back_at := none
      applied_steps_count := count }
  rcases hInsert with ⟨hFree, rows', hAdded⟩ | ⟨hUsed, hFull⟩
  · rw [hAdded]
    exact Or.inr ⟨fun hTaken => hTaken hFree, _, _, rfl⟩
  · rw [hFull]
    exact Or.inl ⟨hUsed, _, rfl⟩

/- The first call of applying a migration. -/
def firstCall (migration : Migration) : SchemaOp :=
  match (issued migration.sql).head? with
  | none =>
      .insertApplied migration.name
        (TenantMigrationService.statements
          migration.sql).length
  | some statement => .executeStatement statement

theorem applyMigration_eq_bind
    (url : String)
    (migration : Migration) :
    ∃ rest : (firstCall migration).Res → TenancyHandler Unit,
      applyMigration url migration =
        (tenantPrisma url (firstCall migration)).bind rest := by
  unfold applyMigration firstCall
  cases issued migration.sql with
  | nil => exact ⟨fun _ => done (), rfl⟩
  | cons statement left =>
      exact ⟨_, bind_assoc _ _ _⟩

/- It is refused, or makes the schema larger. -/
theorem exec_firstCall_cases
    (platform : Platform)
    (pattern : FailurePattern)
    (url : String)
    (migration : Migration)
    {schema : TenantSchema}
    (hLogs : schema.migrations ≠ none) :
    (Refused platform pattern url schema migration ∧
      ∃ error world',
        SchemaWorld.exec platform pattern url
            (.tenantClient url (firstCall migration))
            ⟨schema, ⟨url, migration.name, 0⟩⟩ =
          (.error error, world') ∧
        world'.schema = schema) ∨
    (¬ Refused platform pattern url schema migration ∧
      ∃ result world',
        SchemaWorld.exec platform pattern url
            (.tenantClient url (firstCall migration))
            ⟨schema, ⟨url, migration.name, 0⟩⟩ =
          (.ok result, world') ∧
        schema.size < world'.schema.size) := by
  unfold Refused firstCall
  cases (issued migration.sql).head? with
  | none =>
      rcases SchemaWorld.exec_cases platform pattern url
          (.insertApplied migration.name
            (TenantMigrationService.statements
              migration.sql).length)
          ⟨schema, ⟨url, migration.name, 0⟩⟩ with
        ⟨error, hExec, hCause⟩ |
          ⟨tick, id, schema', hExec, hTick, hCall⟩
      · refine Or.inl ⟨?_, error, _, hExec, rfl⟩
        dsimp only [Cursor.step] at hCause ⊢
        cases hStep :
            pattern.step url (.log migration.name) with
        | failure message => trivial
        | answer tick =>
            rcases exec_insertApplied_cases platform tick hLogs
                migration.name
                (TenantMigrationService.statements
                  migration.sql).length with
              ⟨hFails, _⟩ | ⟨_, id, schema', hOk⟩
            · exact hFails
            · simp [hStep, Choice.fails, hOk] at hCause
      · have hLogged := SchemaOp.exec_insertApplied hCall
        refine Or.inr ⟨?_, id, _, hExec, ?_⟩
        · dsimp only [Cursor.step] at hTick ⊢
          rw [hTick]
          rcases exec_insertApplied_cases platform tick hLogs
              migration.name
              (TenantMigrationService.statements
                migration.sql).length with
            ⟨_, message, hError⟩ | ⟨hNot, _⟩
          · rw [hError] at hCall
            cases hCall
          · exact hNot
        · simp only [TenantSchema.size, hLogged.1, hLogged.2,
            List.length_append, List.length_singleton]
          omega
  | some statement =>
      rcases SchemaWorld.exec_cases platform pattern url
          (.executeStatement statement)
          ⟨schema, ⟨url, migration.name, 0⟩⟩ with
        ⟨error, hExec, hCause⟩ |
          ⟨tick, result, schema', hExec, hTick, hCall⟩
      · refine Or.inl ⟨?_, error, _, hExec, rfl⟩
        rcases hCause with hFails | ⟨tick, message, hTick, hCall⟩
        · exact Or.inl hFails
        · simp only [SchemaOp.exec] at hCall
          split at hCall
          · rename_i hMeets
            exact Or.inr hMeets
          · cases hCall
      · have hGrown := SchemaOp.exec_executeStatement hCall
        refine Or.inr ⟨?_, result, _, hExec, ?_⟩
        · dsimp only [Cursor.step] at hTick ⊢
          rw [hTick]
          rintro (hFails | hMeets)
          · cases hFails
          · simp only [SchemaOp.exec, if_pos hMeets] at hCall
            cases hCall
        · simp only [TenantSchema.size, hGrown.1, hGrown.2,
            List.length_append, List.length_singleton]
          omega

/-
  Applying a migration leaves the schema if the first call
  is refused, and makes it larger if not.
-/
theorem eval_applyMigration
    (platform : Platform)
    (pattern : FailurePattern)
    (url : String)
    (migration : Migration)
    {schema : TenantSchema}
    {outcome : Except ApiError Unit}
    {world' : SchemaWorld}
    (hLogs : schema.migrations ≠ none)
    (hApply :
      eval (SchemaWorld.exec platform pattern url)
          (applyMigration url migration)
          ⟨schema, ⟨url, migration.name, 0⟩⟩ =
        (outcome, world')) :
    (Refused platform pattern url schema migration ∧
      world'.schema = schema) ∨
    (¬ Refused platform pattern url schema migration ∧
      schema.size < world'.schema.size) := by
  have hUnderway :
      Underway url schema.size
        ⟨schema, ⟨url, migration.name, 0⟩⟩ :=
    ⟨rfl, hLogs, le_rfl⟩
  rcases applyMigration_eq_bind url migration with
    ⟨rest, hFirst⟩
  rw [hFirst] at hApply
  rcases exec_firstCall_cases platform pattern url migration
      hLogs with
    ⟨hRefused, error, world₁, hExec, hSame⟩ |
      ⟨hAccepted, result, world₁, hExec, hMore⟩
  · have hEval :=
      eval_bind_error ((eval_perform _).trans hExec) rest
    have hBoth := hEval.symm.trans hApply
    cases hBoth
    exact Or.inl ⟨hRefused, hSame⟩
  · have hEval :=
      eval_bind_ok ((eval_perform _).trans hExec) rest
    have hBoth := hEval.symm.trans hApply
    have hNext :=
      hUnderway.exec platform pattern
        (.tenantClient url (firstCall migration))
    rw [hExec] at hNext
    have hNow : Underway url world₁.schema.size world₁ :=
      ⟨hNext.url_eq, hNext.logs, le_rfl⟩
    have hLater :=
      (hNow.eval platform pattern (rest result)).size_le
    rw [hBoth] at hLater
    exact Or.inr ⟨hAccepted, hMore.trans_le hLater⟩

/- The log of a schema is read, unless the call fails. -/
theorem exec_findMigrations_cases
    (platform : Platform)
    (pattern : FailurePattern)
    {world : SchemaWorld}
    (hLogs : world.schema.migrations ≠ none)
    (name : String) :
    ((pattern.step url (.read name)).fails = true ∧
      ∃ error world',
        world.exec platform pattern url
            (.tenantClient url (.findMigrations name)) =
          (.error error, world') ∧
        world'.schema = world.schema) ∨
    ((pattern.step url (.read name)).fails = false ∧
      ∃ ids : List String,
        world.exec platform pattern url
            (.tenantClient url (.findMigrations name)) =
          (.ok ids, ⟨world.schema, ⟨url, name, 0⟩⟩) ∧
        (ids.length = 0 ↔ name ∉ world.schema.logged)) := by
  rcases Option.ne_none_iff_exists'.mp hLogs with
    ⟨rows, hRows⟩
  rcases SchemaWorld.exec_cases platform pattern url
      (.findMigrations name) world with
    ⟨error, hExec, hCause⟩ |
      ⟨tick, ids, schema', hExec, hTick, hCall⟩
  · refine Or.inl ⟨?_, error, _, hExec, rfl⟩
    rcases hCause with hFails | ⟨tick, message, _, hCall⟩
    · exact hFails
    · simp [SchemaOp.exec, hRows] at hCall
  · refine Or.inr ⟨?_, ids, ?_, ?_⟩
    · dsimp only [Cursor.step] at hTick
      rw [hTick]
      rfl
    · rw [hExec, (SchemaOp.exec_findMigrations hCall).1]
      rfl
    · simp only [SchemaOp.exec, hRows, Except.ok.injEq,
        Prod.mk.injEq] at hCall
      rw [← hCall.1]
      simp [TenantSchema.logged, hRows, List.filter_eq_nil_iff]

/-
  A migration that is not read throws.  Any other returns,
  and leaves the schema just if it is idle.
-/
theorem eval_runMigration
    (platform : Platform)
    (pattern : FailurePattern)
    (tenantCode url : String)
    (migration : Migration)
    {world : SchemaWorld}
    (hLogs : world.schema.migrations ≠ none) :
    ((pattern.step url (.read migration.name)).fails = true ∧
      ∃ error world',
        eval (SchemaWorld.exec platform pattern url)
            (runMigration tenantCode url migration) world =
          (.error error, world') ∧
        world'.schema = world.schema) ∨
    ((pattern.step url (.read migration.name)).fails = false ∧
      ∃ result world',
        eval (SchemaWorld.exec platform pattern url)
            (runMigration tenantCode url migration) world =
          (.ok result, world') ∧
        (Idle platform pattern url world.schema migration ∧
            world'.schema = world.schema ∨
          ¬ Idle platform pattern url world.schema migration ∧
            world.schema.size < world'.schema.size)) := by
  unfold runMigration tenantPrisma
  simp only [bind_eq, Program.pure_eq]
  rcases exec_findMigrations_cases platform pattern hLogs
      migration.name with
    ⟨hFails, error, world', hExec, hSame⟩ |
      ⟨hReads, ids, hExec, hIds⟩
  · have hEval := (eval_perform _).trans hExec
    refine Or.inl ⟨hFails, error, world', ?_, hSame⟩
    exact eval_bind_error hEval _
  · have hEval := (eval_perform _).trans hExec
    refine Or.inr ⟨hReads, ?_⟩
    rw [eval_bind_ok hEval]
    by_cases hLogged : migration.name ∈ world.schema.logged
    · rw [if_neg (by simp [hIds, hLogged])]
      exact
        ⟨_, _, rfl, Or.inl ⟨Or.inl hLogged, rfl⟩⟩
    · rw [if_pos (hIds.mpr hLogged), eval_attempt_report]
      cases hApply :
          eval (SchemaWorld.exec platform pattern url)
            (applyMigration url migration)
            ⟨world.schema, ⟨url, migration.name, 0⟩⟩ with
      | mk outcome world' =>
          have hCases :=
            eval_applyMigration platform pattern url migration
              hLogs hApply
          have hIdle :
              Idle platform pattern url world.schema
                  migration ∧
                world'.schema = world.schema ∨
              ¬ Idle platform pattern url world.schema
                  migration ∧
                world.schema.size < world'.schema.size := by
            simpa only [Idle, hLogged, false_or] using hCases
          cases outcome with
          | ok value => exact ⟨_, _, rfl, hIdle⟩
          | error error => exact ⟨_, _, rfl, hIdle⟩

/- An outcome is an error. -/
def Throws {α : Type} (outcome : Except ApiError α) : Prop :=
  ∃ error, outcome = .error error

theorem throws_error {α : Type} (error : ApiError) :
    Throws (.error error : Except ApiError α) :=
  ⟨error, rfl⟩

theorem not_throws_ok {α : Type} (value : α) :
    ¬ Throws (.ok value : Except ApiError α) := by
  rintro ⟨error, hError⟩
  cases hError

theorem throws_map_iff
    {α β : Type}
    (f : α → β)
    (outcome : Except ApiError α) :
    Throws (outcome.map f) ↔ Throws outcome := by
  cases outcome with
  | ok value =>
      exact iff_of_false (not_throws_ok _) (not_throws_ok _)
  | error error =>
      exact iff_of_true (throws_error _) (throws_error _)

/-
  The migrations of a tenant throw if one of them is not
  read, and leave the schema if those before are idle.
-/
theorem eval_runMigrations
    (platform : Platform)
    (pattern : FailurePattern)
    (tenantCode : String)
    (migrations : List Migration)
    {world : SchemaWorld}
    (hUrl : world.cursor.url = url)
    (hLogs : world.schema.migrations ≠ none) :
    (Throws
        (eval (SchemaWorld.exec platform pattern url)
          (runMigrations tenantCode url migrations) world).1 ↔
      ∃ migration ∈ migrations,
        (pattern.step url (.read migration.name)).fails =
          true) ∧
    ((eval (SchemaWorld.exec platform pattern url)
          (runMigrations tenantCode url migrations)
          world).2.schema = world.schema ↔
      ∀ migration ∈ readable pattern url migrations,
        Idle platform pattern url world.schema migration) := by
  induction migrations generalizing world with
  | nil =>
      refine ⟨iff_of_false (not_throws_ok _) (by simp), ?_⟩
      simp [readable, runMigrations, eval]
  | cons migration migrations ih =>
      have hUnderway : Underway url world.schema.size world :=
        ⟨hUrl, hLogs, le_rfl⟩
      have hSplit :
          runMigrations tenantCode url
              (migration :: migrations) =
            (runMigration tenantCode url migration).bind
              fun result =>
                (runMigrations tenantCode url migrations).bind
                  fun results => done (result :: results) :=
        rfl
      rw [hSplit]
      rcases eval_runMigration platform pattern tenantCode
          url migration hLogs with
        ⟨hFails, error, world', hEval, hSame⟩ |
          ⟨hReads, result, world', hEval, hCases⟩
      · have hNone :
            readable pattern url (migration :: migrations) =
              [] := by
          simp [readable, hFails]
        rw [eval_bind_error hEval, hNone]
        refine
          ⟨iff_of_true (throws_error _) ?_, by simp [hSame]⟩
        exact ⟨migration, List.mem_cons_self, hFails⟩
      · have hSome :
            readable pattern url (migration :: migrations) =
              migration :: readable pattern url migrations := by
          simp [readable, hReads]
        have hNext : Underway url world.schema.size world' := by
          have hAfter :=
            hUnderway.eval platform pattern
              (runMigration tenantCode url migration)
          rwa [hEval] at hAfter
        rcases ih hNext.url_eq hNext.logs with
          ⟨hThrows, hLeaves⟩
        rw [eval_bind_ok hEval, eval_bind_done, hSome]
        constructor
        · rw [throws_map_iff, hThrows]
          simp [hReads]
        · dsimp only
          rcases hCases with ⟨hIdle, hSame⟩ | ⟨hBusy, hMore⟩
          · rw [hSame] at hLeaves
            rw [hLeaves]
            simp [hIdle]
          · have hNow :
                Underway url world'.schema.size world' :=
              ⟨hNext.url_eq, hNext.logs, le_rfl⟩
            have hLater :=
              (hNow.eval platform pattern
                (runMigrations tenantCode url
                  migrations)).size_le
            refine iff_of_false ?_ ?_
            · intro hSame
              rw [hSame] at hLater
              omega
            · intro hAll
              exact hBusy (hAll migration List.mem_cons_self)

theorem exec_connect_cases
    (platform : Platform)
    (pattern : FailurePattern)
    (url : String)
    (schema : TenantSchema) :
    ((pattern.step url .connect).fails = true ∧
      ∃ error world',
        SchemaWorld.exec platform pattern url
            (.tenantClient url .connect)
            ⟨schema, startOf url⟩ =
          (.error error, world') ∧
        world'.schema = schema) ∨
    ((pattern.step url .connect).fails = false ∧
      SchemaWorld.exec platform pattern url
          (.tenantClient url .connect)
          ⟨schema, startOf url⟩ =
        (.ok (), ⟨schema, startOf url⟩)) := by
  rcases SchemaWorld.exec_cases platform pattern url .connect
      ⟨schema, startOf url⟩ with
    ⟨error, hExec, hCause⟩ |
      ⟨tick, result, schema', hExec, hTick, hCall⟩
  · refine Or.inl ⟨?_, error, _, hExec, rfl⟩
    rcases hCause with hFails | ⟨_, _, _, hCall⟩
    · exact hFails
    · cases hCall
  · cases hCall
    refine Or.inr ⟨?_, hExec⟩
    dsimp only [Cursor.step] at hTick
    rw [hTick]
    rfl

/- A schema with its log, which may be created for it. -/
def TenantSchema.withLog (schema : TenantSchema) :
    TenantSchema :=
  { schema with
    migrations := some (schema.migrations.getD Table.empty) }

theorem TenantSchema.withLog_eq_self_iff
    (schema : TenantSchema) :
    schema.withLog = schema ↔ schema.migrations ≠ none := by
  rcases schema with ⟨executed, migrations⟩
  cases migrations with
  | none => simp [withLog]
  | some rows => simp [withLog]

theorem exec_createTable_cases
    (platform : Platform)
    (pattern : FailurePattern)
    (url : String)
    (schema : TenantSchema) :
    ((pattern.step url .createTable).fails = true ∧
      ∃ error world',
        SchemaWorld.exec platform pattern url
            (.tenantClient url .createMigrationsTable)
            ⟨schema, startOf url⟩ =
          (.error error, world') ∧
        world'.schema = schema) ∨
    ((pattern.step url .createTable).fails = false ∧
      SchemaWorld.exec platform pattern url
          (.tenantClient url .createMigrationsTable)
          ⟨schema, startOf url⟩ =
        (.ok (), ⟨schema.withLog, startOf url⟩)) := by
  rcases SchemaWorld.exec_cases platform pattern url
      .createMigrationsTable ⟨schema, startOf url⟩ with
    ⟨error, hExec, hCause⟩ |
      ⟨tick, result, schema', hExec, hTick, hCall⟩
  · refine Or.inl ⟨?_, error, _, hExec, rfl⟩
    rcases hCause with hFails | ⟨_, _, _, hCall⟩
    · exact hFails
    · cases hCall
  · cases hCall
    refine Or.inr ⟨?_, hExec⟩
    dsimp only [Cursor.step] at hTick
    rw [hTick]
    rfl

/- A disconnection leaves the schema, and may throw. -/
theorem eval_disconnect
    {α : Type}
    (platform : Platform)
    (pattern : FailurePattern)
    (value : α)
    {world : SchemaWorld}
    (hUrl : world.cursor.url = url) :
    (Throws
        (eval (SchemaWorld.exec platform pattern url)
          ((perform TenancyOp.disconnectTenant).bind fun _ =>
            done value) world).1 ↔
      (pattern.step url .disconnect).fails = true) ∧
    (eval (SchemaWorld.exec platform pattern url)
        ((perform TenancyOp.disconnectTenant).bind fun _ =>
          done value) world).2 = world := by
  rw [eval_bind_done, eval_perform, throws_map_iff]
  simp only [SchemaWorld.exec, hUrl]
  cases pattern.step url .disconnect with
  | failure message =>
      exact ⟨iff_of_true (throws_error _) rfl, rfl⟩
  | answer tick =>
      exact
        ⟨iff_of_false (not_throws_ok _)
            (by simp [Choice.fails]),
          rfl⟩

/- When the migrations leave a schema, and not only its log. -/
theorem schema_eq_iff
    (platform : Platform)
    (pattern : FailurePattern)
    (tenantCode url : String)
    (migrations : List Migration)
    {schema : TenantSchema}
    {outcome : Except ApiError (List MigrationResult)}
    {world' : SchemaWorld}
    (hRuns :
      eval (SchemaWorld.exec platform pattern url)
          (runMigrations tenantCode url migrations)
          ⟨schema.withLog, startOf url⟩ =
        (outcome, world')) :
    world'.schema = schema ↔
      schema.migrations ≠ none ∧
        ∀ migration ∈ readable pattern url migrations,
          Idle platform pattern url schema migration := by
  have hLogs : schema.withLog.migrations ≠ none := by
    simp [TenantSchema.withLog]
  have hStart :
      Underway url schema.withLog.size
        ⟨schema.withLog, startOf url⟩ :=
    ⟨rfl, hLogs, le_rfl⟩
  have hAfter :=
    hStart.eval platform pattern
      (runMigrations tenantCode url migrations)
  have hLeaves :=
    (eval_runMigrations platform pattern tenantCode migrations
      hStart.url_eq hLogs).2
  rw [hRuns] at hAfter hLeaves
  dsimp only at hAfter hLeaves
  by_cases hThere : schema.migrations ≠ none
  · rw [schema.withLog_eq_self_iff.mpr hThere] at hLeaves
    rw [hLeaves, and_iff_right hThere]
  · refine iff_of_false ?_ (fun hBoth => hThere hBoth.1)
    intro hSame
    rw [← hSame] at hThere
    exact hThere hAfter.logs

/- What the migrations of a tenant do behind its log. -/
theorem eval_behind_log
    (platform : Platform)
    (pattern : FailurePattern)
    (files : MigrationFiles)
    (tenantCode url : String)
    (schema : TenantSchema) :
    (Throws
        (eval (SchemaWorld.exec platform pattern url)
          ((runMigrations tenantCode url files.inOrder).bind
            fun results =>
              (perform TenancyOp.disconnectTenant).bind
                fun _ => done results)
          ⟨schema.withLog, startOf url⟩).1 ↔
      (∃ migration ∈ files.inOrder,
        (pattern.step url (.read migration.name)).fails =
          true) ∨
        (pattern.step url .disconnect).fails = true) ∧
    ((eval (SchemaWorld.exec platform pattern url)
        ((runMigrations tenantCode url files.inOrder).bind
          fun results =>
            (perform TenancyOp.disconnectTenant).bind
              fun _ => done results)
        ⟨schema.withLog, startOf url⟩).2.schema = schema ↔
      schema.migrations ≠ none ∧
        ∀ migration ∈ readable pattern url files.inOrder,
          Idle platform pattern url schema migration) := by
  have hStart :
      Underway url schema.withLog.size
        ⟨schema.withLog, startOf url⟩ :=
    ⟨rfl, by simp [TenantSchema.withLog], le_rfl⟩
  have hAfter :=
    hStart.eval platform pattern
      (runMigrations tenantCode url files.inOrder)
  have hThrows :=
    (eval_runMigrations platform pattern tenantCode
      files.inOrder hStart.url_eq hStart.logs).1
  cases hRuns :
      eval (SchemaWorld.exec platform pattern url)
        (runMigrations tenantCode url files.inOrder)
        ⟨schema.withLog, startOf url⟩ with
  | mk outcome world' =>
      have hLeaves :=
        schema_eq_iff platform pattern tenantCode url
          files.inOrder hRuns
      rw [hRuns] at hAfter hThrows
      cases outcome with
      | error error =>
          rw [eval_bind_error hRuns]
          refine ⟨iff_of_true (throws_error _) ?_, hLeaves⟩
          exact Or.inl (hThrows.mp (throws_error _))
      | ok results =>
          have hRead :=
            mt hThrows.mpr (not_throws_ok results)
          have hEnd :=
            eval_disconnect platform pattern results
              hAfter.url_eq
          rw [eval_bind_ok hRuns]
          refine ⟨?_, ?_⟩
          · rw [hEnd.1]
            simp only [hRead, false_or]
          · rw [hEnd.2]
            exact hLeaves

/-
  The migrations of a tenant on its schema: when they throw,
  and when they leave it.
-/
theorem migrate_iff
    (platform : Platform)
    (pattern : FailurePattern)
    (files : MigrationFiles)
    (tenantCode url : String)
    (schema : TenantSchema) :
    (Throws
        (SchemaWorld.migrate platform pattern files tenantCode
          url schema).1 ↔
      (pattern.step url .connect).fails = true ∨
        (pattern.step url .createTable).fails = true ∨
        (∃ migration ∈ files.inOrder,
          (pattern.step url (.read migration.name)).fails =
            true) ∨
        (pattern.step url .disconnect).fails = true) ∧
    ((SchemaWorld.migrate platform pattern files tenantCode
          url schema).2.schema = schema ↔
      (pattern.step url .connect).fails = true ∨
        (pattern.step url .createTable).fails = true ∨
        (schema.migrations ≠ none ∧
          ∀ migration ∈ readable pattern url files.inOrder,
            Idle platform pattern url schema migration)) := by
  unfold SchemaWorld.migrate migrateTenant tenantPrisma
  simp only [bind_eq, Program.pure_eq]
  rcases exec_connect_cases platform pattern url schema with
    ⟨hFails, error, world', hExec, hSame⟩ | ⟨hOpens, hExec⟩
  · rw [eval_bind_error ((eval_perform _).trans hExec)]
    exact
      ⟨iff_of_true (throws_error _) (Or.inl hFails),
        iff_of_true hSame (Or.inl hFails)⟩
  · rw [eval_bind_ok ((eval_perform _).trans hExec)]
    rcases exec_createTable_cases platform pattern url schema
      with
      ⟨hFails, error, world', hExec, hSame⟩ |
        ⟨hCreates, hExec⟩
    · rw [eval_bind_error ((eval_perform _).trans hExec)]
      exact
        ⟨iff_of_true (throws_error _) (Or.inr (Or.inl hFails)),
          iff_of_true hSame (Or.inr (Or.inl hFails))⟩
    · rw [eval_bind_ok ((eval_perform _).trans hExec)]
      have hBehind :=
        eval_behind_log platform pattern files tenantCode url
          schema
      simpa only [hOpens, hCreates, Bool.false_eq_true,
        false_or] using hBehind

end OrderApi

------------------------------------------------------------
-- All Tenants
------------------------------------------------------------

namespace OrderApi

open Program TenantMigrationService

variable {platform : Platform} {pattern : FailurePattern}
variable {files : MigrationFiles}
variable {clientUrl : String → String}
variable {url url' tenantCode : String}

/- Two URLs do not lead to one database. -/
def Apart (platform : Platform) (url url' : String) : Prop :=
  ∀ name, platform.databaseOf url = some name →
    platform.databaseOf url' ≠ some name

theorem Apart.symm
    (hApart : Apart platform url url') :
    Apart platform url' url :=
  fun name hUrl' hUrl => hApart name hUrl hUrl'

theorem Registry.schemaAt_put
    {store : Registry}
    {name : String}
    {schema : TenantSchema}
    (hUrl : platform.databaseOf url = some name) :
    (store.put name (some schema)).schemaAt platform url =
      some schema := by
  rw [schemaAt, hUrl, Option.bind_some, put_databases_same]

theorem Registry.schemaAt_put_of_apart
    {store : Registry}
    {name : String}
    {schema : Option TenantSchema}
    (hUrl : platform.databaseOf url = some name)
    (hApart : Apart platform url url') :
    (store.put name schema).schemaAt platform url' =
      store.schemaAt platform url' := by
  unfold schemaAt
  cases hUrl' : platform.databaseOf url' with
  | none => rfl
  | some name' =>
      have hName : name' ≠ name := by
        intro hSame
        rw [hSame] at hUrl'
        exact hApart name hUrl hUrl'
      simp only [Option.bind_some, put_databases_other hName]

/- What the migrations of a tenant make of its schema. -/
def migrated
    (platform : Platform)
    (pattern : FailurePattern)
    (files : MigrationFiles)
    (tenantCode url : String)
    (schema : TenantSchema) : TenantSchema :=
  (SchemaWorld.migrate platform pattern files tenantCode url
    schema).2.schema

/-
  The migrations of one tenant, among the databases of all:
  when they throw, and what they leave.
-/
theorem eval_migrateTenant
    (platform : Platform)
    (pattern : FailurePattern)
    (files : MigrationFiles)
    (tenantCode url : String)
    {world world' : TenantsWorld}
    {outcome : Except ApiError (List MigrationResult)}
    (hRuns :
      eval (TenantsWorld.exec platform pattern)
          (migrateTenant files tenantCode url) world =
        (outcome, world')) :
    (Throws outcome ↔
      Stops platform pattern files url world.store) ∧
    world'.store.schemaAt platform url =
      (world.store.schemaAt platform url).map
        (migrated platform pattern files tenantCode url) ∧
    ∀ url', Apart platform url url' →
      world'.store.schemaAt platform url' =
        world.store.schemaAt platform url' := by
  cases hThere : world.store.schemaAt platform url with
  | none =>
      rcases eval_migrateTenant_of_missing hThere with
        ⟨error, world₁, hEval, hStore⟩
      have hBoth := hEval.symm.trans hRuns
      cases hBoth
      rw [hStore]
      exact
        ⟨iff_of_true (throws_error _) (Or.inl hThere), hThere,
          fun _ _ => rfl⟩
  | some schema =>
      rcases Option.bind_eq_some_iff.mp hThere with
        ⟨name, hUrl, hSchema⟩
      have hEval :=
        eval_migrateTenant_of_schema pattern files tenantCode
          hUrl hSchema
      rw [hRuns] at hEval
      rcases hEval with ⟨hOutcome, hStore⟩
      dsimp only at hOutcome hStore
      have hThrows :=
        (migrate_iff platform pattern files tenantCode url
          schema).1
      rw [← hOutcome] at hThrows
      refine ⟨?_, ?_, ?_⟩
      · rw [hThrows]
        simp [Stops, hThere]
      · rw [hStore, Registry.schemaAt_put hUrl]
        rfl
      · intro url' hApart
        rw [hStore, Registry.schemaAt_put_of_apart hUrl hApart]

/- The conditions look at the one database alone. -/
theorem stops_congr
    {store store' : Registry}
    (hSame :
      store.schemaAt platform url =
        store'.schemaAt platform url) :
    Stops platform pattern files url store ↔
      Stops platform pattern files url store' := by
  unfold Stops
  rw [hSame]

theorem unchanged_iff
    (platform : Platform)
    (pattern : FailurePattern)
    (files : MigrationFiles)
    (tenantCode url : String)
    (store : Registry) :
    Unchanged platform pattern files url store ↔
      (store.schemaAt platform url).map
          (migrated platform pattern files tenantCode url) =
        store.schemaAt platform url := by
  unfold Unchanged
  cases store.schemaAt platform url with
  | none => simp
  | some schema =>
      have hLeaves :=
        (migrate_iff platform pattern files tenantCode url
          schema).2
      simp only [Option.map_some, Option.some.injEq,
        forall_eq', migrated]
      exact hLeaves.symm

theorem migrateTenants_cons
    (clientUrl : String → String)
    (files : MigrationFiles)
    (tenantCode : String)
    (tenantCodes : List String) :
    migrateTenants clientUrl files
        (tenantCode :: tenantCodes) =
      (migrateTenant files tenantCode
        (clientUrl tenantCode)).bind fun results =>
          (migrateTenants clientUrl files
            tenantCodes).bind fun others =>
              done (results ++ others) :=
  rfl

/- Tenants leave the databases that are apart from theirs. -/
theorem eval_migrateTenants_of_apart
    (platform : Platform)
    (pattern : FailurePattern)
    (files : MigrationFiles)
    (clientUrl : String → String)
    (tenantCodes : List String)
    {world : TenantsWorld}
    (hApart :
      ∀ tenantCode ∈ tenantCodes,
        Apart platform (clientUrl tenantCode) url) :
    (eval (TenantsWorld.exec platform pattern)
        (migrateTenants clientUrl files tenantCodes)
        world).2.store.schemaAt platform url =
      world.store.schemaAt platform url := by
  induction tenantCodes generalizing world with
  | nil => rfl
  | cons tenantCode tenantCodes ih =>
      rw [migrateTenants_cons]
      rcases hRuns :
          eval (TenantsWorld.exec platform pattern)
            (migrateTenant files tenantCode
              (clientUrl tenantCode)) world with
        ⟨outcome, world'⟩
      have hFrame :=
        (eval_migrateTenant platform pattern files tenantCode
          (clientUrl tenantCode) hRuns).2.2 url
          (hApart tenantCode List.mem_cons_self)
      cases outcome with
      | error error =>
          rw [eval_bind_error hRuns]
          exact hFrame
      | ok results =>
          rw [eval_bind_ok hRuns, eval_bind_done]
          refine Eq.trans (ih ?_) hFrame
          intro tenantCode hTenant
          exact
            hApart tenantCode (List.mem_cons_of_mem _ hTenant)

/-
  A tenant among others: if one before it stops the loop,
  its database is left, else it is migrated.
-/
theorem eval_migrateTenants_at
    (platform : Platform)
    (pattern : FailurePattern)
    (files : MigrationFiles)
    (clientUrl : String → String)
    (earlier later : List String)
    (tenantCode : String)
    {world : TenantsWorld}
    (hDistinct :
      (earlier ++ tenantCode :: later).Pairwise fun a b =>
        Apart platform (clientUrl a) (clientUrl b)) :
    (∃ other ∈ earlier,
        Stops platform pattern files (clientUrl other)
          world.store) ∧
      (eval (TenantsWorld.exec platform pattern)
          (migrateTenants clientUrl files
            (earlier ++ tenantCode :: later))
          world).2.store.schemaAt platform
            (clientUrl tenantCode) =
        world.store.schemaAt platform
          (clientUrl tenantCode) ∨
    (∀ other ∈ earlier,
        ¬ Stops platform pattern files (clientUrl other)
          world.store) ∧
      (eval (TenantsWorld.exec platform pattern)
          (migrateTenants clientUrl files
            (earlier ++ tenantCode :: later))
          world).2.store.schemaAt platform
            (clientUrl tenantCode) =
        (world.store.schemaAt platform
          (clientUrl tenantCode)).map
            (migrated platform pattern files tenantCode
              (clientUrl tenantCode)) := by
  induction earlier generalizing world with
  | nil =>
      refine Or.inr ⟨by simp, ?_⟩
      have hApart :
          ∀ other ∈ later,
            Apart platform (clientUrl other)
              (clientUrl tenantCode) :=
        fun other hOther =>
          ((List.pairwise_cons.mp hDistinct).1 other
            hOther).symm
      rw [List.nil_append, migrateTenants_cons]
      rcases hRuns :
          eval (TenantsWorld.exec platform pattern)
            (migrateTenant files tenantCode
              (clientUrl tenantCode)) world with
        ⟨outcome, world'⟩
      have hOwn :=
        (eval_migrateTenant platform pattern files tenantCode
          (clientUrl tenantCode) hRuns).2.1
      cases outcome with
      | error error =>
          rw [eval_bind_error hRuns]
          exact hOwn
      | ok results =>
          rw [eval_bind_ok hRuns, eval_bind_done]
          exact
            (eval_migrateTenants_of_apart platform pattern
              files clientUrl later hApart).trans hOwn
  | cons other earlier ih =>
      rw [List.cons_append, List.pairwise_cons] at hDistinct
      rcases hDistinct with ⟨hOther, hDistinct⟩
      rw [List.cons_append, migrateTenants_cons]
      rcases hRuns :
          eval (TenantsWorld.exec platform pattern)
            (migrateTenant files other (clientUrl other))
            world with
        ⟨outcome, world'⟩
      rcases
        eval_migrateTenant platform pattern files other
          (clientUrl other) hRuns with
        ⟨hThrows, _, hFrame⟩
      have hOwn :
          world'.store.schemaAt platform
              (clientUrl tenantCode) =
            world.store.schemaAt platform
              (clientUrl tenantCode) :=
        hFrame _ (hOther tenantCode (by simp))
      cases outcome with
      | error error =>
          refine Or.inl ⟨⟨other, List.mem_cons_self, ?_⟩, ?_⟩
          · exact hThrows.mp (throws_error _)
          · rw [eval_bind_error hRuns]
            exact hOwn
      | ok results =>
          -- the rest runs on a registry that looks the same
          -- to every tenant still to come
          have hStops :
              ∀ next ∈ earlier,
                (Stops platform pattern files
                    (clientUrl next) world'.store ↔
                  Stops platform pattern files
                    (clientUrl next) world.store) :=
            fun next hNext =>
              stops_congr
                (hFrame _ (hOther next (by simp [hNext])))
          have hGoesOn :
              ¬ Stops platform pattern files (clientUrl other)
                world.store :=
            mt hThrows.mpr (not_throws_ok results)
          rw [eval_bind_ok hRuns, eval_bind_done, ← hOwn]
          rcases @ih world' hDistinct with
            ⟨⟨next, hNext, hStop⟩, hLeaves⟩ |
              ⟨hNone, hMigrates⟩
          · refine Or.inl ⟨⟨next, ?_, ?_⟩, hLeaves⟩
            · exact List.mem_cons_of_mem _ hNext
            · exact (hStops next hNext).mp hStop
          · refine Or.inr ⟨?_, hMigrates⟩
            intro next hNext
            rcases List.mem_cons.mp hNext with rfl | hNext
            · exact hGoesOn
            · exact
                mt (hStops next hNext).mpr (hNone next hNext)

end OrderApi

------------------------------------------------------------
-- A Tenant Alone and among Others
------------------------------------------------------------

namespace OrderApi

open Program TenantMigrationService

/-
  A tenant's database ends up the same in a run of all
  tenants as in a run in which it is the only one.
-/
def MigratesAlone
    (platform : Platform)
    (pattern : FailurePattern)
    (clientUrl : String → String)
    (files : MigrationFiles)
    (tenantCode : String)
    (world alone : TenantsWorld) : Prop :=
  (world.migrateAll platform pattern clientUrl
      files).store.schemaAt platform (clientUrl tenantCode) =
    (alone.migrateAll platform pattern clientUrl
      files).store.schemaAt platform (clientUrl tenantCode)

/- Without an answer on the tenants, nothing is migrated. -/
theorem migrateAll_of_fails
    {platform : Platform}
    {pattern : FailurePattern}
    (clientUrl : String → String)
    (files : MigrationFiles)
    (world : TenantsWorld)
    (hFails : pattern.tenants.fails = true) :
    (world.migrateAll platform pattern clientUrl
      files).store = world.store := by
  unfold TenantsWorld.migrateAll migrateAllTenants
  simp only [bind_eq]
  cases hTenants : pattern.tenants with
  | answer tick =>
      rw [hTenants] at hFails
      cases hFails
  | failure message =>
      have hFind :
          TenantsWorld.exec platform pattern .findProvisioned
              world =
            (.error (storeError message), world) := by
        simp only [TenantsWorld.exec, FailurePattern.choice,
          hTenants]
        rfl
      rw [eval_bind_error ((eval_perform _).trans hFind)]

/- With one, it is the tenants answered that are migrated. -/
theorem migrateAll_of_answers
    {platform : Platform}
    {pattern : FailurePattern}
    (clientUrl : String → String)
    (files : MigrationFiles)
    (world : TenantsWorld)
    (hAnswers : pattern.tenants.fails = false) :
    world.migrateAll platform pattern clientUrl files =
      (eval (TenantsWorld.exec platform pattern)
        (migrateTenants clientUrl files
          world.store.provisioned) world).2 := by
  unfold TenantsWorld.migrateAll migrateAllTenants
  simp only [bind_eq]
  cases hTenants : pattern.tenants with
  | failure message =>
      rw [hTenants] at hAnswers
      cases hAnswers
  | answer tick =>
      have hFind :
          TenantsWorld.exec platform pattern .findProvisioned
              world =
            (.ok world.store.provisioned, world) := by
        simp only [TenantsWorld.exec, FailurePattern.choice,
          hTenants]
        rfl
      rw [eval_bind_ok ((eval_perform _).trans hFind)]

/-
  The tenants before a tenant do not matter to it exactly if
  the query for them fails, or none of them makes the loop
  throw, or its own migrations would change nothing.
-/
theorem migratesAlone_iff
    (platform : Platform)
    (pattern : FailurePattern)
    (clientUrl : String → String)
    (files : MigrationFiles)
    (earlier later : List String)
    (tenantCode : String)
    (world alone : TenantsWorld)
    (hTenants :
      world.store.provisioned = earlier ++ tenantCode :: later)
    (hAlone : alone.store.provisioned = [tenantCode])
    (hSame : alone.store.databases = world.store.databases)
    (hDistinct :
      (earlier ++ tenantCode :: later).Pairwise fun a b =>
        Apart platform (clientUrl a) (clientUrl b)) :
    MigratesAlone platform pattern clientUrl files tenantCode
        world alone ↔
      pattern.tenants.fails = true ∨
        (∀ other ∈ earlier,
          ¬ Stops platform pattern files (clientUrl other)
            world.store) ∨
        Unchanged platform pattern files
          (clientUrl tenantCode) world.store := by
  have hBefore :
      alone.store.schemaAt platform (clientUrl tenantCode) =
        world.store.schemaAt platform
          (clientUrl tenantCode) := by
    unfold Registry.schemaAt
    rw [hSame]
  unfold MigratesAlone
  cases hQuery : pattern.tenants.fails with
  | true =>
      rw [migrateAll_of_fails clientUrl files world hQuery,
        migrateAll_of_fails clientUrl files alone hQuery,
        hBefore]
      simp
  | false =>
      have hOnly :
          (alone.migrateAll platform pattern clientUrl
              files).store.schemaAt platform
                (clientUrl tenantCode) =
            (world.store.schemaAt platform
              (clientUrl tenantCode)).map
                (migrated platform pattern files tenantCode
                  (clientUrl tenantCode)) := by
        have hAt :=
          @eval_migrateTenants_at platform pattern files
            clientUrl [] [] tenantCode alone (by simp)
        rw [migrateAll_of_answers clientUrl files alone
          hQuery, hAlone, ← hBefore]
        simpa using hAt
      have hAt :=
        @eval_migrateTenants_at platform pattern files
          clientUrl earlier later tenantCode world hDistinct
      rw [hOnly,
        migrateAll_of_answers clientUrl files world hQuery,
        hTenants,
        unchanged_iff platform pattern files tenantCode]
      rcases hAt with
        ⟨⟨other, hOther, hStops⟩, hLeft⟩ | ⟨hNone, hMigrated⟩
      · rw [hLeft]
        constructor
        · intro hUnchanged
          exact Or.inr (Or.inr hUnchanged.symm)
        · rintro (hFails | hNone | hUnchanged)
          · cases hFails
          · exact absurd hStops (hNone other hOther)
          · exact hUnchanged.symm
      · exact
          iff_of_true hMigrated (Or.inr (Or.inl hNone))

end OrderApi

------------------------------------------------------------
-- A Tenant behind an Unreachable One
------------------------------------------------------------

namespace OrderApi

namespace Onboarding

/- Two tenants whose databases are there. -/
def neighbours : Registry where
  users :=
    { rows :=
        [{ id := "a"
           email := "a"
           username := "a"
           password := "hash"
           role := .ADMIN
           tenantCode := some "acme"
           isDatabaseCreated := true },
         { id := "b"
           email := "b"
           username := "b"
           password := "hash"
           role := .ADMIN
           tenantCode := some "bolt"
           isDatabaseCreated := true }]
      nodup := by simp [Keyed.key] }
  databases := fun name =>
    if name = "tenant_acme" ∨ name = "tenant_bolt" then
      some ⟨[], some Table.empty⟩
    else
      none
  databaseCreation := []

/- Both of them, or `bolt` with the same databases. -/
def bothTenants : TenantsWorld :=
  ⟨neighbours, ⟨"", "", 0⟩⟩

def boltAlone : TenantsWorld :=
  ⟨{ neighbours with users := deployed.users }, ⟨"", "", 0⟩⟩

/- One call on the client of one tenant fails. -/
def failingFor
    (tenantCode : String)
    (call : MigrationCall) : FailurePattern where
  tenants := .answer ⟨"m", 0⟩
  step := fun url step =>
    if url = clientUrls tenantCode ∧ step = call then
      .failure "Can't reach database server"
    else
      .answer ⟨"m", 0⟩

theorem provisioned_bothTenants :
    bothTenants.store.provisioned = ["acme", "bolt"] := by
  decide

theorem provisioned_boltAlone :
    boltAlone.store.provisioned = ["bolt"] := by
  decide

theorem databaseOf_acme :
    platform.databaseOf (clientUrls "acme") =
      some "tenant_acme" := by
  decide +kernel

theorem apart_neighbours :
    ["acme", "bolt"].Pairwise fun a b =>
      Apart platform (clientUrls a) (clientUrls b) := by
  have hApart :
      Apart platform (clientUrls "acme")
        (clientUrls "bolt") := by
    intro name hName
    rw [databaseOf_acme] at hName
    cases hName
    rw [databaseOf_bolt]
    simp
  simpa using hApart

end Onboarding

open Onboarding in
/-
  A failing statement of the first tenant is caught, and the
  second one is migrated as if it were alone.
-/
theorem migratesAlone_iff_of_statement :
    MigratesAlone platform
      (failingFor "acme" (.statement "1_add_products" 0))
      clientUrls Onboarding.files "bolt" bothTenants
      boltAlone := by
  refine
    (migratesAlone_iff platform _ clientUrls Onboarding.files
      ["acme"] [] "bolt" bothTenants boltAlone
      provisioned_bothTenants provisioned_boltAlone rfl
      apart_neighbours).mpr (Or.inr (Or.inl ?_))
  intro other hOther
  rw [List.mem_singleton.mp hOther]
  have hThere :
      bothTenants.store.schemaAt platform
          (clientUrls "acme") =
        some ⟨[], some Table.empty⟩ := by
    rw [Registry.schemaAt, databaseOf_acme]
    rfl
  unfold Stops
  rw [hThere]
  simp [failingFor, Choice.fails]

open Onboarding in
/-
  The first tenant cannot be reached, which keeps the second
  one from its migration.
-/
theorem not_migratesAlone :
    ¬ ∀ (pattern : FailurePattern) (files : MigrationFiles)
        (earlier later : List String) (tenantCode : String)
        (world alone : TenantsWorld),
      world.store.provisioned =
        earlier ++ tenantCode :: later →
      alone.store.provisioned = [tenantCode] →
      alone.store.databases = world.store.databases →
      ((earlier ++ tenantCode :: later).Pairwise fun a b =>
        Apart platform (clientUrls a) (clientUrls b)) →
      MigratesAlone platform pattern clientUrls files
        tenantCode world alone := by
  intro hClaim
  have hSame :=
    hClaim (failingFor "acme" .connect) Onboarding.files
      ["acme"] [] "bolt" bothTenants boltAlone
      provisioned_bothTenants provisioned_boltAlone rfl
      apart_neighbours
  have hExecuted :=
    congrArg (Option.map TenantSchema.executed) hSame
  revert hExecuted
  decide +kernel

end OrderApi
