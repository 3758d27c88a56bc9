import OrderApi.Core.Completion
import OrderApi.Prisma.TenantMigration
import OrderApi.System.TenancySystem

/-
  What a failed migration of `migrateAllTenants` leaves in
  the database of a tenant.

  The statements of a file are executed one at a time, and
  an error is only reported.  So the database is as it was
  just if the first statement was refused.

  Key definitions include:
    * `MigrationTurn`
    * `MigrationTurn.Reached`
    * `MigrationTurn.Restores`
    * `MigrationTurn.RefusedAtOnce`

  Key theorems include:
    * `exists_turn_of_result`
    * `MigrationTurn.restores_iff`
    * `MigrationTurn.not_applied_later`
    * `failed_restores_iff`
-/

------------------------------------------------------------
-- Turns of a Run
------------------------------------------------------------

namespace OrderApi

namespace TenantMigrationService

/- What a run does before a migration of a tenant. -/
def upTo
    (clientUrl : String → String)
    (files : MigrationFiles)
    (earlier : List String)
    (tenantCode : String)
    (done : List Migration) : TenancyHandler Unit := do
  let _ : List String ←
    Program.perform TenancyOp.findProvisioned
  let _ ← migrateTenants clientUrl files earlier
  let _ : Unit ←
    tenantPrisma (clientUrl tenantCode) .connect
  let _ : Unit ←
    tenantPrisma (clientUrl tenantCode) .createMigrationsTable
  let _ ←
    runMigrations tenantCode (clientUrl tenantCode) done
  pure ()

end TenantMigrationService

/- A migration of a tenant, with what it meets. -/
structure MigrationTurn where
  tenantCode : String
  migration : Migration
  choices : Nat → Choice
  store : Registry

namespace MigrationTurn

variable (platform : Platform) (clientUrl : String → String)

/- A run with these choices comes to the turn. -/
def Reached
    (files : MigrationFiles)
    (choices : Nat → Choice)
    (store : Registry)
    (turn : MigrationTurn) : Prop :=
  ∃ earlier later done rest,
    store.provisioned =
        earlier ++ turn.tenantCode :: later ∧
      files.inOrder = done ++ turn.migration :: rest ∧
      Program.Runs (TenancyOp.exec platform)
        (TenantMigrationService.upTo clientUrl files earlier
          turn.tenantCode done)
        choices store (.ok ()) turn.choices turn.store

/- The migration of the turn, begun from a store. -/
def run
    (turn : MigrationTurn)
    (choices : Nat → Choice)
    (store : Registry) :
    Except ApiError TenantMigrationService.MigrationResult ×
      Registry :=
  (TenantMigrationService.runMigration turn.tenantCode
      (clientUrl turn.tenantCode) turn.migration).complete
    (TenancyOp.exec platform) choices store

/- The result that the turn adds, and the store behind it. -/
def outcome
    (turn : MigrationTurn) :
    Except ApiError TenantMigrationService.MigrationResult ×
      Registry :=
  turn.run platform clientUrl turn.choices turn.store

/- The turn is reported with a status. -/
def Reports
    (turn : MigrationTurn)
    (status : String)
    (outcome :
      Except ApiError TenantMigrationService.MigrationResult ×
        Registry) : Prop :=
  ∃ error,
    outcome.1 =
      .ok
        ⟨turn.tenantCode, turn.migration.name, status, error⟩

/-
  The database is as it was before, and a later run applies
  the migration whenever it would have before.
-/
def Restores (turn : MigrationTurn) : Prop :=
  (∀ name,
    platform.databaseOf (clientUrl turn.tenantCode) =
        some name →
      (turn.outcome platform clientUrl).2.databases name =
        turn.store.databases name) ∧
  ∀ choices,
    turn.Reports "applied"
        (turn.run platform clientUrl choices turn.store) →
      turn.Reports "applied"
        (turn.run platform clientUrl choices
          (turn.outcome platform clientUrl).2)

/-
  The first statement of the file, if it has one, fails or
  creates what exists already.
-/
def RefusedAtOnce (turn : MigrationTurn) : Prop :=
  ∀ statement ∈
      (TenantMigrationService.issued
        turn.migration.sql).head?,
    (∃ message, turn.choices 1 = .failure message) ∨
      ∃ name schema,
        platform.databaseOf (clientUrl turn.tenantCode) =
            some name ∧
          turn.store.databases name = some schema ∧
          platform.meetsExisting schema.executed statement =
            true

end MigrationTurn

end OrderApi

------------------------------------------------------------
-- Every Result Comes from a Turn
------------------------------------------------------------

namespace OrderApi

open Program

namespace TenantMigrationService

variable {platform : Platform} {clientUrl : String → String}
variable {files : MigrationFiles}
variable {tenantCode url : String}
variable {choices rest : Nat → Choice}
variable {store after : Registry}

/- A result of a tenant, with the migrations before it. -/
theorem exists_turn_of_runMigrations
    {migrations : List Migration}
    {results : List MigrationResult}
    (hRuns :
      Runs (TenancyOp.exec platform)
        (runMigrations tenantCode url migrations) choices
        store (.ok results) rest after)
    {result : MigrationResult}
    (hResult : result ∈ results) :
    ∃ done migration others results' choices' rest' store'
        after',
      migrations = done ++ migration :: others ∧
        Runs (TenancyOp.exec platform)
          (runMigrations tenantCode url done) choices store
          (.ok results') choices' store' ∧
        Runs (TenancyOp.exec platform)
          (runMigration tenantCode url migration) choices'
          store' (.ok result) rest' after' := by
  induction migrations generalizing choices store results with
  | nil =>
      cases hRuns
      cases hResult
  | cons migration migrations ih =>
      rcases hRuns.bind_inv with
        ⟨first, middle, store', hFirst, hNext⟩ |
          ⟨error, hError, _⟩
      · rcases hNext.bind_inv with
          ⟨others, middle', store'', hOthers, hPure⟩ |
            ⟨error, hError, _⟩
        · cases hPure
          rcases List.mem_cons.mp hResult with rfl | hLater
          · exact
              ⟨[], migration, migrations, [], choices, middle,
                store, store', rfl, .done [] choices store,
                hFirst⟩
          · rcases ih hOthers hLater with
              ⟨done, migration', others', results', choices',
                rest', store₁, after', hSplit, hBefore, hTurn⟩
            refine
              ⟨migration :: done, migration', others',
                first :: results', choices', rest', store₁,
                after', by rw [hSplit]; rfl, ?_, hTurn⟩
            exact
              hFirst.bind_ok rfl
                (hBefore.bind_ok rfl (.done _ _ _))
        · cases hError
      · cases hError

/- The same of a tenant, from the connection on. -/
theorem exists_turn_of_migrateTenant
    {results : List MigrationResult}
    (hRuns :
      Runs (TenancyOp.exec platform)
        (migrateTenant files tenantCode url) choices store
        (.ok results) rest after)
    {result : MigrationResult}
    (hResult : result ∈ results) :
    ∃ done migration others choices' rest' store' after',
      files.inOrder = done ++ migration :: others ∧
        Runs (TenancyOp.exec platform)
          ((tenantPrisma url .connect).bind fun _ =>
            (tenantPrisma url .createMigrationsTable).bind
              fun _ =>
                (runMigrations tenantCode url done).ignore)
          choices store (.ok ()) choices' store' ∧
        Runs (TenancyOp.exec platform)
          (runMigration tenantCode url migration) choices'
          store' (.ok result) rest' after' := by
  rcases hRuns.bind_inv with
    ⟨_, choices₁, store₁, hConnect, hRest⟩ | ⟨_, hError, _⟩
  · rcases hRest.bind_inv with
      ⟨_, choices₂, store₂, hCreate, hRest⟩ | ⟨_, hError, _⟩
    · rcases hRest.bind_inv with
        ⟨results', choices₃, store₃, hResults, hRest⟩ |
          ⟨_, hError, _⟩
      · rcases hRest.bind_inv with
          ⟨_, choices₄, store₄, _, hPure⟩ | ⟨_, hError, _⟩
        · cases hPure
          rcases exists_turn_of_runMigrations hResults
              hResult with
            ⟨done, migration, others, before, choices',
              rest', store', after', hSplit, hBefore, hTurn⟩
          have hIgnored :
              Runs (TenancyOp.exec platform)
                (runMigrations tenantCode url done).ignore
                choices₂ store₂ (.ok ()) choices' store' :=
            hBefore.bind_ok rfl (.done () _ _)
          exact
            ⟨done, migration, others, choices', rest',
              store', after', hSplit,
              hConnect.bind_ok rfl
                (hCreate.bind_ok rfl hIgnored), hTurn⟩
        · cases hError
      · cases hError
    · cases hError
  · cases hError

/- And of the tenants, with those before it. -/
theorem exists_turn_of_migrateTenants
    {tenantCodes : List String}
    {results : List MigrationResult}
    (hRuns :
      Runs (TenancyOp.exec platform)
        (migrateTenants clientUrl files tenantCodes) choices
        store (.ok results) rest after)
    {result : MigrationResult}
    (hResult : result ∈ results) :
    ∃ earlier tenantCode later done migration others choices'
        rest' store' after',
      tenantCodes = earlier ++ tenantCode :: later ∧
        files.inOrder = done ++ migration :: others ∧
        Runs (TenancyOp.exec platform)
          ((migrateTenants clientUrl files earlier).bind
            fun _ =>
              (tenantPrisma (clientUrl tenantCode)
                .connect).bind fun _ =>
                (tenantPrisma (clientUrl tenantCode)
                  .createMigrationsTable).bind fun _ =>
                  (runMigrations tenantCode
                    (clientUrl tenantCode) done).ignore)
          choices store (.ok ()) choices' store' ∧
        Runs (TenancyOp.exec platform)
          (runMigration tenantCode (clientUrl tenantCode)
            migration)
          choices' store' (.ok result) rest' after' := by
  induction tenantCodes generalizing choices store results
    with
  | nil =>
      cases hRuns
      cases hResult
  | cons tenantCode tenantCodes ih =>
      rcases hRuns.bind_inv with
        ⟨own, middle, store₁, hOwn, hNext⟩ |
          ⟨error, hError, _⟩
      · rcases hNext.bind_inv with
          ⟨others, middle', store₂, hOthers, hPure⟩ |
            ⟨error, hError, _⟩
        · cases hPure
          rcases List.mem_append.mp hResult with
            hHere | hLater
          · rcases exists_turn_of_migrateTenant hOwn hHere
              with
              ⟨done, migration, rest', choices', after₁,
                store', after', hSplit, hBefore, hTurn⟩
            exact
              ⟨[], tenantCode, tenantCodes, done, migration,
                rest', choices', after₁, store', after', rfl,
                hSplit, hBefore, hTurn⟩
          · rcases ih hOthers hLater with
              ⟨earlier, tenantCode', later, done, migration,
                rest', choices', after₁, store', after',
                hTenants, hSplit, hBefore, hTurn⟩
            refine
              ⟨tenantCode :: earlier, tenantCode', later,
                done, migration, rest', choices', after₁,
                store', after', by rw [hTenants]; rfl, hSplit,
                ?_, hTurn⟩
            rcases hBefore.bind_inv with
              ⟨results', choices₃, store₃, hEarlier, hStart⟩ |
                ⟨error, hError, _⟩
            · have hAll :
                  Runs (TenancyOp.exec platform)
                    (migrateTenants clientUrl files
                      (tenantCode :: earlier))
                    choices store (.ok (own ++ results'))
                    choices₃ store₃ :=
                hOwn.bind_ok rfl
                  (hEarlier.bind_ok rfl (.done _ _ _))
              exact hAll.bind_ok rfl hStart
            · cases hError
        · cases hError
      · cases hError

theorem findProvisioned_of_runs
    {tenants : List String}
    (hRuns :
      Runs (TenancyOp.exec platform)
        (perform TenancyOp.findProvisioned) choices store
        (.ok tenants) rest after) :
    tenants = store.provisioned := by
  cases hRuns with
  | @call _ _ _ _ _ store' _ answer _ hExec hResume =>
      cases answer with
      | error error => cases hResume
      | ok found =>
          cases hResume
          rcases TenancyOp.exec_ok hExec with
            ⟨tick, _, hAnswer⟩
          cases hAnswer
          rfl

/- Every result of a run is that of a turn it comes to. -/
theorem exists_turn_of_result
    {results : List MigrationResult}
    (hReturns :
      (migrateAllTenants clientUrl files).complete
        (TenancyOp.exec platform) choices store =
          (.ok results, after))
    {result : MigrationResult}
    (hResult : result ∈ results) :
    ∃ turn : MigrationTurn,
      turn.Reached platform clientUrl files choices store ∧
        (turn.outcome platform clientUrl).1 = .ok result := by
  rcases exists_runs (TenancyOp.exec platform)
      (migrateAllTenants clientUrl files) choices store with
    ⟨rest, hRuns⟩
  rw [hReturns] at hRuns
  rcases hRuns.bind_inv with
    ⟨tenants, middle, store₁, hFind, hNext⟩ |
      ⟨error, hError, _⟩
  · have hTenants := findProvisioned_of_runs hFind
    rcases exists_turn_of_migrateTenants hNext hResult with
      ⟨earlier, tenantCode, later, done, migration, others,
        choices', rest', store', after', hSplit, hOrder,
        hBefore, hTurn⟩
    refine
      ⟨⟨tenantCode, migration, choices', store'⟩,
        ⟨earlier, later, done, others, ?_, hOrder, ?_⟩, ?_⟩
    · rw [← hTenants, hSplit]
    · exact hFind.bind_ok rfl hBefore
    · exact congrArg Prod.fst hTurn.complete_eq
  · cases hError

end TenantMigrationService

end OrderApi

------------------------------------------------------------
-- What a Failed Migration Leaves
------------------------------------------------------------

namespace OrderApi

open Program

namespace TenantMigrationService

variable {platform : Platform}
variable {url name tenantCode : String}
variable {migration : Migration}
variable {choices : Nat → Choice}
variable {store after : Registry}
variable {schema : TenantSchema}

/-
  A migration with a result was in the log, or its outcome
  is that of applying it.
-/
theorem runMigration_cases
    {result : MigrationResult}
    (hRuns :
      (runMigration tenantCode url migration).complete
          (TenancyOp.exec platform) choices store =
        (.ok result, after)) :
    (∃ name schema,
      platform.databaseOf url = some name ∧
        store.databases name = some schema) ∧
      (result.status = "already_applied" ∨
        ∃ outcome,
          (applyMigration url migration).complete
              (TenancyOp.exec platform)
              (fun n => choices (n + 1)) store =
            (outcome, after) ∧
          result.status =
            match outcome with
            | .ok _ => "applied"
            | .error _ => "failed") := by
  cases hExec :
      TenancyOp.exec platform (choices 0)
        (.tenantClient url (.findMigrations migration.name))
        store with
  | mk answer store' =>
      cases answer with
      | error error =>
          have hThrows :=
            (complete_perform_bind_error hExec _).symm.trans
              hRuns
          cases hThrows
      | ok ids =>
          rcases TenancyOp.exec_tenantClient hExec with
            ⟨tick, name, schema, schema', hUrl, hSchema, hFind,
              hStore⟩
          rw [(SchemaOp.exec_findMigrations hFind).1,
            Registry.put_self hSchema] at hStore
          subst hStore
          refine ⟨⟨name, schema, hUrl, hSchema⟩, ?_⟩
          unfold runMigration tenantPrisma at hRuns
          simp only [bind_eq, Program.pure_eq] at hRuns
          rw [complete_perform_bind_ok hExec] at hRuns
          split_ifs at hRuns with hIds
          · rw [complete_attempt_report] at hRuns
            cases hApply :
                (applyMigration url migration).complete
                  (TenancyOp.exec platform)
                  (fun n => choices (n + 1)) store' with
            | mk outcome after' =>
                rw [hApply] at hRuns
                cases outcome with
                | ok value =>
                    cases hRuns
                    exact Or.inr ⟨.ok value, rfl, rfl⟩
                | error error =>
                    cases hRuns
                    exact Or.inr ⟨.error error, rfl, rfl⟩
          · cases hRuns
            exact Or.inl rfl

/- A migration that is reported as failed was applied. -/
theorem applyMigration_of_failed
    {result : MigrationResult}
    (hRuns :
      (runMigration tenantCode url migration).complete
          (TenancyOp.exec platform) choices store =
        (.ok result, after))
    (hFailed : result.status = "failed") :
    ∃ error,
      (applyMigration url migration).complete
          (TenancyOp.exec platform)
          (fun n => choices (n + 1)) store =
        (.error error, after) := by
  rcases (runMigration_cases hRuns).2 with
    hLogged | ⟨outcome, hApply, hStatus⟩
  · simp [hFailed] at hLogged
  · cases outcome with
    | ok value => simp [hFailed] at hStatus
    | error error => exact ⟨error, hApply⟩

/- A statement that is refused leaves the store. -/
theorem exec_of_refused
    {choice : Choice}
    {statement : String}
    (hUrl : platform.databaseOf url = some name)
    (hSchema : store.databases name = some schema) :
    ((∃ message, choice = .failure message) ∨
        platform.meetsExisting schema.executed statement =
          true) ∧
      (∃ error,
        TenancyOp.exec platform choice
            (.tenantClient url (.executeStatement statement))
            store =
          (.error error, store)) ∨
    ¬ ((∃ message, choice = .failure message) ∨
        platform.meetsExisting schema.executed statement =
          true) ∧
      TenancyOp.exec platform choice
          (.tenantClient url (.executeStatement statement))
          store =
        (.ok (),
          store.put name
            (some
              { schema with
                executed :=
                  schema.executed ++ [statement] })) := by
  cases choice with
  | failure message =>
      exact
        Or.inl
          ⟨Or.inl ⟨message, rfl⟩, storeError message, rfl⟩
  | answer tick =>
      by_cases hMeets :
          platform.meetsExisting schema.executed statement =
            true
      · refine
          Or.inl
            ⟨Or.inr hMeets, storeError objectExists, ?_⟩
        simp [TenancyOp.exec, TenancyOp.answer,
          Registry.onTenant, hUrl, hSchema, SchemaOp.exec,
          hMeets]
      · refine Or.inr ⟨by simp [hMeets], ?_⟩
        simp [TenancyOp.exec, TenancyOp.answer,
          Registry.onTenant, hUrl, hSchema, SchemaOp.exec,
          hMeets]

/- The statements of a schema are executed in a database. -/
def Keeps
    (name : String)
    (schema : TenantSchema)
    (store : Registry) : Prop :=
  ∃ schema',
    store.databases name = some schema' ∧
      schema.executed.Sublist schema'.executed

/- Statements that were executed stay so. -/
theorem complete_keeps
    {α : Type}
    {program : TenancyHandler α}
    (hCalls :
      Calls (fun op => ∃ call, op = .tenantClient url call)
        program)
    (hUrl : platform.databaseOf url = some name)
    (hKeeps : Keeps name schema store)
    (choices : Nat → Choice) :
    Keeps name schema
      (program.complete (TenancyOp.exec platform) choices
        store).2 := by
  have hEnsures :
      Ensures (TenancyOp.exec platform)
        (fun _ s => Keeps name schema s) program store := by
    refine hCalls.ensures ?_ hKeeps
    rintro choice op s ⟨call, rfl⟩ ⟨schema₁, hFound, hSub⟩
    cases hExec :
        TenancyOp.exec platform choice (.tenantClient url call)
          s with
    | mk answer s' =>
        cases answer with
        | error error =>
            rw [TenancyOp.exec_error hExec]
            exact ⟨schema₁, hFound, hSub⟩
        | ok value =>
            rcases TenancyOp.exec_tenantClient hExec with
              ⟨tick, name', schema₂, schema', hName, hThere,
                hCall, rfl⟩
            rw [hUrl] at hName
            cases hName
            rw [hFound] at hThere
            cases hThere
            exact
              ⟨schema', Registry.put_databases_same,
                hSub.trans (SchemaOp.exec_executed hCall)⟩
  exact hEnsures.complete choices

theorem calls_tenantPrisma_url
    (url : String)
    (call : SchemaOp) :
    Calls (fun op => ∃ call', op = .tenantClient url call')
      (tenantPrisma url call) :=
  calls_perform ⟨call, rfl⟩

/- A first statement that is refused ends an application. -/
theorem applyMigration_of_refused
    {statement : String}
    (hUrl : platform.databaseOf url = some name)
    (hSchema : store.databases name = some schema)
    (hFirst : statement ∈ (issued migration.sql).head?)
    (choices : Nat → Choice)
    (hRefused :
      (∃ message, choices 0 = .failure message) ∨
        platform.meetsExisting schema.executed statement =
          true) :
    ∃ error,
      (applyMigration url migration).complete
          (TenancyOp.exec platform) choices store =
        (.error error, store) := by
  rcases List.head?_eq_some_iff.mp hFirst with ⟨left, hIssued⟩
  rcases exec_of_refused hUrl hSchema with
    ⟨_, error, hExec⟩ | ⟨hAccepted, _⟩
  · refine ⟨error, ?_⟩
    unfold applyMigration
    simp only [hIssued, tenantPrisma, bind_eq,
      Program.pure_eq, forEach, bind_assoc]
    exact complete_perform_bind_error hExec _
  · exact (hAccepted hRefused).elim

/-
  An application that fails leaves the store if the first
  statement is refused, and has executed more if it is not.
-/
theorem applyMigration_failed_cases
    {error : ApiError}
    (hUrl : platform.databaseOf url = some name)
    (hSchema : store.databases name = some schema)
    (hFailed :
      (applyMigration url migration).complete
          (TenancyOp.exec platform) choices store =
        (.error error, after)) :
    (∀ statement ∈ (issued migration.sql).head?,
        (∃ message, choices 0 = .failure message) ∨
          platform.meetsExisting schema.executed statement =
            true) ∧
      after = store ∨
    ¬ (∀ statement ∈ (issued migration.sql).head?,
        (∃ message, choices 0 = .failure message) ∨
          platform.meetsExisting schema.executed statement =
            true) ∧
      ∃ statement ∈ (issued migration.sql).head?,
        Keeps name
          { schema with
            executed := schema.executed ++ [statement] }
          after := by
  cases hIssued : issued migration.sql with
  | nil =>
      refine Or.inl ⟨by simp, ?_⟩
      unfold applyMigration at hFailed
      rw [hIssued] at hFailed
      cases hExec :
          TenancyOp.exec platform (choices 0)
            (.tenantClient url
              (.insertApplied migration.name
                (statements migration.sql).length)) store with
      | mk answer store' =>
          cases answer with
          | ok id =>
              have hReturns :=
                (complete_perform_bind_ok hExec
                  fun _ => done ()).symm.trans hFailed
              cases hReturns
          | error error =>
              have hThrows :=
                (complete_perform_bind_error hExec
                  fun _ => done ()).symm.trans hFailed
              cases hThrows
              exact TenancyOp.exec_error hExec
  | cons statement left =>
      have hFirst : statement ∈ (issued migration.sql).head? := by
        rw [hIssued]
        rfl
      rcases exec_of_refused hUrl hSchema with
        ⟨hRefused, error', hExec⟩ | ⟨hAccepted, hExec⟩
      · refine Or.inl ⟨by simpa using hRefused, ?_⟩
        rcases applyMigration_of_refused hUrl hSchema hFirst
            choices hRefused with ⟨error'', hThrows⟩
        rw [hThrows] at hFailed
        cases hFailed
        rfl
      · refine Or.inr ⟨by simpa using hAccepted, ?_⟩
        unfold applyMigration at hFailed
        rw [hIssued] at hFailed
        have hRest := hFailed
        simp only [tenantPrisma, bind_eq, Program.pure_eq,
          forEach, bind_assoc] at hRest
        rw [complete_perform_bind_ok hExec] at hRest
        have hKeeps :
            Keeps name
              { schema with
                executed := schema.executed ++ [statement] }
              (store.put name
                (some
                  { schema with
                    executed :=
                      schema.executed ++ [statement] })) :=
          ⟨_, Registry.put_databases_same,
            List.Sublist.refl _⟩
        have hKept :=
          complete_keeps
            (calls_bind
              (calls_forEach
                (fun statement =>
                  calls_tenantPrisma_url url
                    (.executeStatement statement))
                left)
              fun _ =>
                calls_bind
                  (calls_tenantPrisma_url url
                    (.insertApplied migration.name
                      (statements migration.sql).length))
                  fun _ => calls_done ())
            hUrl hKeeps (fun n => choices (n + 1))
        unfold tenantPrisma at hKept
        rw [hRest] at hKept
        exact ⟨statement, rfl, hKept⟩

end TenantMigrationService

end OrderApi

------------------------------------------------------------
-- When the Database Is as It Was
------------------------------------------------------------

namespace OrderApi

open TenantMigrationService

variable {platform : Platform} {clientUrl : String → String}
variable {turn : MigrationTurn}

/- The condition, at the database that the turn is about. -/
theorem MigrationTurn.refusedAtOnce_iff
    {name : String}
    {schema : TenantSchema}
    (hUrl :
      platform.databaseOf (clientUrl turn.tenantCode) =
        some name)
    (hSchema : turn.store.databases name = some schema) :
    turn.RefusedAtOnce platform clientUrl ↔
      ∀ statement ∈ (issued turn.migration.sql).head?,
        (∃ message, turn.choices 1 = .failure message) ∨
          platform.meetsExisting schema.executed statement =
            true := by
  unfold MigrationTurn.RefusedAtOnce
  simp only [hUrl, Option.some.injEq]
  constructor
  · intro hRefused statement hFirst
    rcases hRefused statement hFirst with
      hFailure | ⟨_, schema', rfl, hThere, hMeets⟩
    · exact Or.inl hFailure
    · rw [hSchema] at hThere
      cases hThere
      exact Or.inr hMeets
  · intro hRefused statement hFirst
    rcases hRefused statement hFirst with hFailure | hMeets
    · exact Or.inl hFailure
    · exact Or.inr ⟨name, schema, rfl, hSchema, hMeets⟩

/- A report, with the store behind it. -/
theorem MigrationTurn.runs_of_reports
    {status : String}
    {choices : Nat → Choice}
    {store : Registry}
    (hReports :
      turn.Reports status
        (turn.run platform clientUrl choices store)) :
    ∃ error,
      (runMigration turn.tenantCode
          (clientUrl turn.tenantCode)
          turn.migration).complete
          (TenancyOp.exec platform) choices store =
        (.ok
          ⟨turn.tenantCode, turn.migration.name, status,
            error⟩,
          (turn.run platform clientUrl choices store).2) := by
  rcases hReports with ⟨error, hResult⟩
  exact ⟨error, Prod.ext hResult rfl⟩

/-
  A turn that fails leaves the database as it was exactly if
  its first statement was refused.
-/
theorem MigrationTurn.restores_iff
    (hFailed :
      turn.Reports "failed"
        (turn.outcome platform clientUrl)) :
    turn.Restores platform clientUrl ↔
      turn.RefusedAtOnce platform clientUrl := by
  rcases MigrationTurn.runs_of_reports hFailed with
    ⟨error, hRuns⟩
  rcases (runMigration_cases hRuns).1 with
    ⟨name, schema, hUrl, hSchema⟩
  rcases applyMigration_of_failed hRuns rfl with
    ⟨error', hApply⟩
  rw [turn.refusedAtOnce_iff hUrl hSchema]
  rcases applyMigration_failed_cases hUrl hSchema hApply with
    ⟨hRefused, hSame⟩ |
      ⟨hAccepted, statement, hFirst, schema', hAfter, hMore⟩
  · have hAfter :
        (turn.outcome platform clientUrl).2 = turn.store :=
      hSame
    refine iff_of_true ?_ hRefused
    unfold MigrationTurn.Restores
    rw [hAfter]
    exact ⟨fun _ _ => rfl, fun _ hApplied => hApplied⟩
  · refine iff_of_false ?_ hAccepted
    intro hRestores
    have hSame := (hRestores.1 name hUrl).symm.trans hAfter
    rw [hSchema] at hSame
    cases hSame
    have hLength := hMore.length_le
    rw [List.length_append, List.length_singleton] at hLength
    omega

/-
  If a statement fails when it is executed twice, then after
  a turn that got past its first statement no later run
  applies the migration.
-/
theorem MigrationTurn.not_applied_later
    (hFailed :
      turn.Reports "failed"
        (turn.outcome platform clientUrl))
    (hAccepted : ¬ turn.RefusedAtOnce platform clientUrl)
    (hTwice :
      ∀ statement ∈ (issued turn.migration.sql).head?,
        ∀ executed, statement ∈ executed →
          platform.meetsExisting executed statement = true)
    (choices : Nat → Choice) :
    ¬ turn.Reports "applied"
      (turn.run platform clientUrl choices
        (turn.outcome platform clientUrl).2) := by
  rcases MigrationTurn.runs_of_reports hFailed with
    ⟨error, hRuns⟩
  rcases (runMigration_cases hRuns).1 with
    ⟨name, schema, hUrl, hSchema⟩
  rcases applyMigration_of_failed hRuns rfl with
    ⟨error', hApply⟩
  rw [turn.refusedAtOnce_iff hUrl hSchema] at hAccepted
  rcases applyMigration_failed_cases hUrl hSchema hApply with
    ⟨hRefused, _⟩ |
      ⟨_, statement, hFirst, schema', hAfter, hMore⟩
  · exact (hAccepted hRefused).elim
  · have hThere : statement ∈ schema'.executed :=
      hMore.subset (by simp)
    have hMeets := hTwice statement hFirst _ hThere
    intro hApplied
    rcases MigrationTurn.runs_of_reports hApplied with
      ⟨error', hRuns'⟩
    rcases (runMigration_cases hRuns').2 with
      hLogged | ⟨outcome, hApply', hStatus⟩
    · simp at hLogged
    · cases outcome with
      | error error => simp at hStatus
      | ok value =>
          rcases applyMigration_of_refused hUrl hAfter hFirst
              (fun n => choices (n + 1)) (Or.inr hMeets) with
            ⟨error, hThrows⟩
          have hBoth := hThrows.symm.trans hApply'
          cases hBoth

/-
  In every run of `migrateAllTenants`, a migration that is
  reported as failed leaves the database as it was exactly
  if its first statement was refused.  All that a run
  reports comes from such turns.
-/
theorem failed_restores_iff
    (platform : Platform)
    (clientUrl : String → String)
    (files : MigrationFiles)
    (choices : Nat → Choice)
    (store : Registry) :
    (∀ turn : MigrationTurn,
      turn.Reached platform clientUrl files choices store →
      turn.Reports "failed"
          (turn.outcome platform clientUrl) →
        (turn.Restores platform clientUrl ↔
          turn.RefusedAtOnce platform clientUrl)) ∧
    (∀ results after,
      (migrateAllTenants clientUrl files).complete
          (TenancyOp.exec platform) choices store =
        (.ok results, after) →
      ∀ result ∈ results, ∃ turn : MigrationTurn,
        turn.Reached platform clientUrl files choices
            store ∧
          (turn.outcome platform clientUrl).1 =
            .ok result) := by
  constructor
  · intro turn _ hFailed
    exact turn.restores_iff hFailed
  · intro results after hReturns result hResult
    exact exists_turn_of_result hReturns hResult

end OrderApi

------------------------------------------------------------
-- A Statement that Fails
------------------------------------------------------------

namespace OrderApi

open Program

namespace Onboarding

/- The calls of a run, where the one at a position fails. -/
def failingAt (position : Nat) (n : Nat) : Choice :=
  if n = position then .failure "Connection terminated"
  else .answer ⟨"m", 0⟩

/- The migration of `files`, with its two statements. -/
def productsAndX : Migration :=
  ⟨"1_add_products",
    "CREATE TABLE \"products\" ();\n" ++
      "ALTER TABLE \"users\" ADD \"x\" TEXT;\n"⟩

/- The turn of the tenant in a run with such calls. -/
def boltTurn (position : Nat) : MigrationTurn where
  tenantCode := "bolt"
  migration := productsAndX
  choices := fun n => failingAt position (n + 1 + 1 + 1)
  store := deployed

/- A call that changes no schema leaves the registry. -/
theorem exec_of_unchanged
    {choice : Choice}
    {call : SchemaOp}
    {result : call.Res}
    (hChoice : choice = .answer ⟨"m", 0⟩)
    (hCall :
      call.exec platform ⟨"m", 0⟩ ⟨[], some Table.empty⟩ =
        .ok (result, ⟨[], some Table.empty⟩)) :
    TenancyOp.exec platform choice
        (.tenantClient (clientUrls "bolt") call) deployed =
      (.ok result, deployed) := by
  have hSchema :
      deployed.databases "tenant_bolt" =
        some ⟨[], some Table.empty⟩ := rfl
  rw [hChoice]
  simp only [TenancyOp.exec, TenancyOp.answer,
    Registry.onTenant, databaseOf_bolt, hSchema, hCall,
    Registry.put_self hSchema]

/- A run comes to the migration if nothing fails before. -/
theorem reached_boltTurn
    {position : Nat}
    (hLater : 3 ≤ position) :
    (boltTurn position).Reached platform clientUrls files
      (failingAt position) deployed := by
  have hProvisioned : deployed.provisioned = ["bolt"] := by
    decide
  have hOrder : files.inOrder = [productsAndX] := by
    decide
  have hAnswer :
      ∀ n < 3, failingAt position n = .answer ⟨"m", 0⟩ := by
    intro n hFirst
    exact if_neg (by omega)
  have hFind :
      TenancyOp.exec platform (failingAt position 0)
          .findProvisioned deployed =
        (.ok ["bolt"], deployed) := by
    rw [hAnswer 0 (by omega), ← hProvisioned]
    rfl
  have hConnect :
      TenancyOp.exec platform (failingAt position 1)
          (.tenantClient (clientUrls "bolt") .connect)
          deployed =
        (.ok (), deployed) :=
    exec_of_unchanged (hAnswer 1 (by omega)) rfl
  have hCreate :
      TenancyOp.exec platform (failingAt position 2)
          (.tenantClient (clientUrls "bolt")
            .createMigrationsTable) deployed =
        (.ok (), deployed) :=
    exec_of_unchanged (hAnswer 2 (by omega)) rfl
  refine ⟨[], [], [], [], hProvisioned, hOrder, ?_⟩
  exact
    (runs_perform_ok hFind).bind_ok rfl
      ((Runs.done [] _ _).bind_ok rfl
        ((runs_perform_ok hConnect).bind_ok rfl
          ((runs_perform_ok hCreate).bind_ok rfl
            ((Runs.done [] _ _).bind_ok rfl
              (.done () _ _)))))

/- The first statement fails, and nothing was changed. -/
theorem failed_restores_iff_of_first :
    (boltTurn 4).Restores platform clientUrls := by
  have hFailed :
      (boltTurn 4).Reports "failed"
        ((boltTurn 4).outcome platform clientUrls) :=
    ⟨some "Connection terminated", by decide +kernel⟩
  refine
    ((failed_restores_iff platform clientUrls files
      (failingAt 4) deployed).1 (boltTurn 4)
      (reached_boltTurn (by omega)) hFailed).mpr ?_
  intro statement _
  exact Or.inl ⟨"Connection terminated", rfl⟩

/- The second statement fails, and the first one stays. -/
theorem not_restores :
    (boltTurn 5).Reached platform clientUrls files
        (failingAt 5) deployed ∧
      ((TenantMigrationService.migrateAllTenants clientUrls
          files).complete (TenancyOp.exec platform)
        (failingAt 5) deployed).1 =
          .ok
            [⟨"bolt", "1_add_products", "failed",
              some "Connection terminated"⟩] ∧
      ¬ (boltTurn 5).Restores platform clientUrls := by
  refine ⟨reached_boltTurn (by omega), by decide +kernel, ?_⟩
  intro hRestores
  have hSame :=
    congrArg (Option.map TenantSchema.executed)
      (hRestores.1 "tenant_bolt" databaseOf_bolt)
  revert hSame
  decide +kernel

end Onboarding

end OrderApi
