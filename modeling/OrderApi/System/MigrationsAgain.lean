import OrderApi.System.AdminRole
import OrderApi.System.MigrationLog
import OrderApi.System.TenantIndependence

/-
  Migrating all tenants once more.

  What one run of `migrateAllTenants` reports as applied is
  in the log, and no call but a dropped database takes it
  out again.  So a later run reports it as applied already,
  and a run behind one without failures changes nothing.

  Key definitions include:
    * `Registry.LogsKept`
    * `Registry.HasLogged`, `Registry.HasLog`
    * `Tells`

  Key theorems include:
    * `TenancyOp.exec_logsKept`
    * `tells_migrateTenants`
    * `unchanged_migrateTenants`
    * `migrateAllTenants_again`
-/

------------------------------------------------------------
-- Logs Only Grow
------------------------------------------------------------

namespace OrderApi

namespace Registry

/-
  Every database is still there, with its log, and all that
  was in the log.
-/
def LogsKept (store store' : Registry) : Prop :=
  ∀ name schema,
    store.databases name = some schema →
    ∃ schema',
      store'.databases name = some schema' ∧
        schema.logged ⊆ schema'.logged ∧
        (schema.migrations ≠ none →
          schema'.migrations ≠ none)

/- The database of a URL has a name in its log. -/
def HasLogged
    (platform : Platform)
    (url migration : String)
    (store : Registry) : Prop :=
  ∃ name schema,
    platform.databaseOf url = some name ∧
      store.databases name = some schema ∧
      migration ∈ schema.logged

/- The database of a URL has a log. -/
def HasLog
    (platform : Platform)
    (url : String)
    (store : Registry) : Prop :=
  ∃ name schema,
    platform.databaseOf url = some name ∧
      store.databases name = some schema ∧
      schema.migrations ≠ none

theorem LogsKept.refl (store : Registry) :
    store.LogsKept store := by
  intro name schema hSchema
  exact ⟨schema, hSchema, fun _ hName => hName, id⟩

theorem LogsKept.trans
    {store store' store'' : Registry}
    (hFirst : store.LogsKept store')
    (hSecond : store'.LogsKept store'') :
    store.LogsKept store'' := by
  intro name schema hSchema
  rcases hFirst name schema hSchema with
    ⟨schema', hSchema', hLogged, hLog⟩
  rcases hSecond name schema' hSchema' with
    ⟨schema'', hSchema'', hLogged', hLog'⟩
  exact
    ⟨schema'', hSchema'',
      List.Subset.trans hLogged hLogged',
      fun hSome => hLog' (hLog hSome)⟩

theorem HasLogged.kept
    {platform : Platform}
    {url migration : String}
    {store store' : Registry}
    (hLogged : HasLogged platform url migration store)
    (hKept : store.LogsKept store') :
    HasLogged platform url migration store' := by
  rcases hLogged with ⟨name, schema, hUrl, hSchema, hMem⟩
  rcases hKept name schema hSchema with
    ⟨schema', hSchema', hNames, _⟩
  exact ⟨name, schema', hUrl, hSchema', hNames hMem⟩

theorem HasLog.kept
    {platform : Platform}
    {url : String}
    {store store' : Registry}
    (hLog : HasLog platform url store)
    (hKept : store.LogsKept store') :
    HasLog platform url store' := by
  rcases hLog with ⟨name, schema, hUrl, hSchema, hSome⟩
  rcases hKept name schema hSchema with
    ⟨schema', hSchema', _, hStays⟩
  exact ⟨name, schema', hUrl, hSchema', hStays hSome⟩

end Registry

/- No call on a database takes a name out of its log. -/
theorem SchemaOp.logged_of_exec
    {platform : Platform}
    {tick : Tick}
    {schema schema' : TenantSchema}
    {op : SchemaOp}
    {result : op.Res}
    (hExec :
      op.exec platform tick schema = .ok (result, schema')) :
    schema.logged ⊆ schema'.logged := by
  have hKeeps := SchemaOp.exec_rows hExec
  intro name hName
  rw [TenantSchema.logged_eq, List.mem_map] at hName ⊢
  rcases hName with ⟨row, hRow, hIs⟩
  rcases hKeeps.stay row hRow with
    ⟨row', hRow', _, hSame, _⟩
  exact ⟨row', hRow', hSame.trans hIs⟩

/- Only a dropped database loses its log. -/
theorem TenancyOp.exec_logsKept
    {platform : Platform}
    {choice : Choice}
    {store store' : Registry}
    {op : TenancyOp}
    {answer : Except ApiError op.Res}
    (hExec :
      op.exec platform choice store = (answer, store'))
    (hDrop : ∀ name, op ≠ .dropDatabase name) :
    store.LogsKept store' := by
  intro name schema hSchema
  rcases TenancyOp.exec_database_cases hExec name with
    hSame | ⟨_, _, hNone, _⟩ | ⟨hOp, _, _⟩ |
      ⟨_, _, _, schema₁, schema', _, _, _, _, hFound, hCall,
        hAfter⟩
  · exact
      ⟨schema, hSame.trans hSchema, fun _ hName => hName, id⟩
  · rw [hSchema] at hNone
    cases hNone
  · exact (hDrop name hOp).elim
  · rw [hSchema] at hFound
    cases hFound
    exact
      ⟨schema', hAfter, SchemaOp.logged_of_exec hCall,
        fun hLog =>
          TenantSchema.migrations_ne_none_of_exec hLog
            hCall⟩

end OrderApi

------------------------------------------------------------
-- What a Run Tells
------------------------------------------------------------

namespace OrderApi

open Program Registry

namespace TenantMigrationService

/- The migration of a tenant that a result is about. -/
def MigrationResult.key (result : MigrationResult) :
    String × String :=
  (result.tenantCode, result.migration)

/-
  What results tell of a run from `store` to `store'`: they
  are about these migrations, one after the other, what is
  not reported as failed is in the log, and what was in the
  log is reported as applied already.
-/
structure Tells
    (platform : Platform)
    (clientUrl : String → String)
    (keys : List (String × String))
    (store store' : Registry)
    (results : List MigrationResult) : Prop where
  keys_eq : results.map MigrationResult.key = keys
  logged :
    ∀ result ∈ results,
      result.status ≠ "failed" →
        HasLogged platform (clientUrl result.tenantCode)
          result.migration store'
  already :
    ∀ result ∈ results,
      HasLogged platform (clientUrl result.tenantCode)
          result.migration store →
        result.status = "already_applied"

variable {platform : Platform}
variable {clientUrl : String → String}
variable {store store₁ store₂ store₃ : Registry}
variable {keys keys' : List (String × String)}
variable {results results' : List MigrationResult}

theorem Tells.nil :
    Tells platform clientUrl [] store store [] where
  keys_eq := rfl
  logged := by simp
  already := by simp

theorem Tells.single
    (result : MigrationResult)
    (hLogged :
      result.status ≠ "failed" →
        HasLogged platform (clientUrl result.tenantCode)
          result.migration store₁)
    (hAlready :
      HasLogged platform (clientUrl result.tenantCode)
          result.migration store →
        result.status = "already_applied") :
    Tells platform clientUrl [result.key] store store₁
      [result] where
  keys_eq := rfl
  logged := by
    intro other hMem hStatus
    cases List.mem_singleton.mp hMem
    exact hLogged hStatus
  already := by
    intro other hMem hBefore
    cases List.mem_singleton.mp hMem
    exact hAlready hBefore

/- What two parts of a run tell, they tell together. -/
theorem Tells.append
    (hFirst :
      Tells platform clientUrl keys store store₁ results)
    (hKept : store.LogsKept store₂)
    (hLater : store₁.LogsKept store₃)
    (hSecond :
      Tells platform clientUrl keys' store₂ store₃
        results') :
    Tells platform clientUrl (keys ++ keys') store store₃
      (results ++ results') where
  keys_eq := by
    rw [List.map_append, hFirst.keys_eq, hSecond.keys_eq]
  logged := by
    intro result hMem hStatus
    rcases List.mem_append.mp hMem with hHere | hThere
    · exact (hFirst.logged result hHere hStatus).kept hLater
    · exact hSecond.logged result hThere hStatus
  already := by
    intro result hMem hLogged
    rcases List.mem_append.mp hMem with hHere | hThere
    · exact hFirst.already result hHere hLogged
    · exact hSecond.already result hThere (hLogged.kept hKept)

theorem Tells.mono
    (hTells :
      Tells platform clientUrl keys store₁ store₂ results)
    (hBefore : store.LogsKept store₁)
    (hAfter : store₂.LogsKept store₃) :
    Tells platform clientUrl keys store store₃ results where
  keys_eq := hTells.keys_eq
  logged := fun result hMem hStatus =>
    (hTells.logged result hMem hStatus).kept hAfter
  already := fun result hMem hLogged =>
    hTells.already result hMem (hLogged.kept hBefore)

/- Programs that drop no database keep the logs. -/
theorem ensures_logsKept
    {α : Type}
    {program : TenancyHandler α}
    (hCalls :
      Calls (fun op => ∀ name, op ≠ .dropDatabase name)
        program)
    (hKept : store.LogsKept store₁) :
    Ensures (TenancyOp.exec platform)
      (fun _ s => store.LogsKept s) program store₁ := by
  refine hCalls.ensures ?_ hKept
  intro choice op s hDrop hBefore
  exact hBefore.trans (TenancyOp.exec_logsKept rfl hDrop)

theorem calls_tenantPrisma_keeps
    (url : String)
    (op : SchemaOp) :
    Calls (fun op => ∀ name, op ≠ .dropDatabase name)
      (tenantPrisma url op) :=
  calls_perform fun name hDrop => by cases hDrop

/- The rows that are sought by a name that is in the log. -/
theorem ids_eq_nil_iff
    {tick : Tick}
    {schema schema' : TenantSchema}
    {name : String}
    {ids : List String}
    (hExec :
      (SchemaOp.findMigrations name).exec platform tick
        schema = .ok (ids, schema')) :
    ids = [] ↔ name ∉ schema.logged := by
  constructor
  · intro hNil hName
    cases hLog : schema.migrations with
    | none =>
        simp only [SchemaOp.exec, hLog] at hExec
        cases hExec
    | some rows =>
        simp only [SchemaOp.exec, hLog, Except.ok.injEq,
          Prod.mk.injEq] at hExec
        simp only [TenantSchema.logged, hLog,
          List.mem_map] at hName
        rcases hName with ⟨row, hRow, hIs⟩
        rw [← hExec.1, List.map_eq_nil_iff,
          List.filter_eq_nil_iff] at hNil
        exact hNil row hRow (by simp [hIs])
  · exact (SchemaOp.exec_findMigrations hExec).2

/- A call on a tenant is answered by its database, or fails. -/
theorem ensures_tenantPrisma
    (url : String)
    (op : SchemaOp)
    {Post : Except ApiError op.Res → Registry → Prop}
    (hAnswer :
      ∀ tick name schema result schema',
        platform.databaseOf url = some name →
        store.databases name = some schema →
        op.exec platform tick schema =
            .ok (result, schema') →
        Post (.ok result) (store.put name (some schema')))
    (hError : ∀ error, Post (.error error) store) :
    Ensures (TenancyOp.exec platform) Post
      (tenantPrisma url op) store := by
  refine ensures_perform (TenancyOp.tenantClient url op) ?_
  intro choice
  cases hExec :
      TenancyOp.exec platform choice (.tenantClient url op)
        store with
  | mk answer store' =>
      cases answer with
      | error error =>
          rw [TenancyOp.exec_error hExec]
          exact hError error
      | ok result =>
          rcases TenancyOp.exec_tenantClient hExec with
            ⟨tick, name, schema, schema', hUrl, hSchema, hCall,
              hStore⟩
          rw [hStore]
          exact
            hAnswer tick name schema result schema' hUrl
              hSchema hCall

/- What a call on its database leaves of a log. -/
theorem logsKept_put
    {name : String}
    {schema schema' : TenantSchema}
    {tick : Tick}
    {op : SchemaOp}
    {result : op.Res}
    (hSchema : store.databases name = some schema)
    (hCall :
      op.exec platform tick schema =
        .ok (result, schema')) :
    store.LogsKept (store.put name (some schema')) := by
  intro name' other hOther
  by_cases hSame : name' = name
  · subst hSame
    rw [hSchema] at hOther
    cases hOther
    exact
      ⟨schema', Registry.put_databases_same,
        SchemaOp.logged_of_exec hCall,
        fun hLog =>
          TenantSchema.migrations_ne_none_of_exec hLog
            hCall⟩
  · refine ⟨other, ?_, fun _ hName => hName, id⟩
    rw [Registry.put_databases_other hSame, hOther]

/- A migration that was applied is in the log. -/
theorem tells_applyMigration
    (url : String)
    (migration : Migration)
    (store : Registry) :
    Ensures (TenancyOp.exec platform)
      (fun outcome s =>
        store.LogsKept s ∧
          (outcome = .ok () →
            HasLogged platform url migration.name s))
      (applyMigration url migration) store := by
  have hStatements :
      Ensures (TenancyOp.exec platform)
        (fun _ s => store.LogsKept s)
        (forEach (issued migration.sql) fun stmt =>
          tenantPrisma url (.executeStatement stmt))
        store :=
    ensures_logsKept
      (calls_forEach
        (fun stmt => calls_tenantPrisma_keeps _ _) _)
      (LogsKept.refl store)
  apply ensures_bind
  apply hStatements.mono
  intro outcome s hKept
  cases outcome with
  | error error => exact ⟨hKept, by simp⟩
  | ok value =>
      apply ensures_bind
      refine
        ensures_tenantPrisma url
          (.insertApplied migration.name
            (statements migration.sql).length)
          ?_ ?_
      · intro tick name schema id schema' hUrl hSchema hCall
        refine
          ⟨hKept.trans (logsKept_put hSchema hCall), ?_⟩
        intro _
        refine
          ⟨name, schema', hUrl, Registry.put_databases_same,
            ?_⟩
        rw [(SchemaOp.exec_insertApplied hCall).2]
        exact List.mem_append_right _ List.mem_cons_self
      · intro error
        exact ⟨hKept, by simp⟩

/- What the result of one migration tells. -/
theorem tells_runMigration
    (clientUrl : String → String)
    (tenantCode : String)
    (migration : Migration)
    (store : Registry) :
    Ensures (TenancyOp.exec platform)
      (fun outcome s =>
        store.LogsKept s ∧
          ∀ result,
            outcome = .ok result →
              Tells platform clientUrl
                [(tenantCode, migration.name)] store s
                [result])
      (runMigration tenantCode (clientUrl tenantCode)
        migration)
      store := by
  apply ensures_bind
  refine
    ensures_tenantPrisma (clientUrl tenantCode)
      (.findMigrations migration.name) ?_ ?_
  · intro tick name schema ids schema' hUrl hSchema hCall
    have hSame : store.put name (some schema') = store := by
      rw [(SchemaOp.exec_findMigrations hCall).1]
      exact Registry.put_self hSchema
    rw [hSame]
    dsimp only
    have hThere :
        HasLogged platform (clientUrl tenantCode)
            migration.name store ↔
          ids ≠ [] := by
      rw [Ne, ids_eq_nil_iff hCall, not_not]
      constructor
      · intro hLogged
        rcases hLogged with
          ⟨name', other, hUrl', hOther, hMem⟩
        rw [hUrl] at hUrl'
        cases hUrl'
        rw [hSchema] at hOther
        cases hOther
        exact hMem
      · intro hMem
        exact ⟨name, schema, hUrl, hSchema, hMem⟩
    split
    · rename_i hNone
      have hNil := List.length_eq_zero_iff.mp hNone
      have hNew :
          ¬ HasLogged platform (clientUrl tenantCode)
            migration.name store :=
        fun hBefore => hThere.mp hBefore hNil
      apply ensures_attempt
      apply ensures_bind
      apply
        (tells_applyMigration (clientUrl tenantCode)
          migration store).mono
      intro outcome s hApplied
      rcases hApplied with ⟨hKept, hLogged⟩
      cases outcome with
      | ok value =>
          refine ⟨hKept, ?_⟩
          intro result hResult
          cases hResult
          exact
            Tells.single
              ⟨tenantCode, migration.name, "applied", none⟩
              (fun _ => hLogged rfl)
              (fun hBefore => (hNew hBefore).elim)
      | error error =>
          refine ⟨hKept, ?_⟩
          intro result hResult
          cases hResult
          exact
            Tells.single
              ⟨tenantCode, migration.name, "failed",
                some error.message⟩
              (fun hStatus => (hStatus rfl).elim)
              (fun hBefore => (hNew hBefore).elim)
    · rename_i hSome
      refine ⟨LogsKept.refl store, ?_⟩
      intro result hResult
      cases hResult
      have hLogged :=
        hThere.mpr fun hNil => hSome (by rw [hNil]; rfl)
      exact
        Tells.single
          ⟨tenantCode, migration.name, "already_applied",
            none⟩
          (fun _ => hLogged) (fun _ => rfl)
  · intro error
    exact ⟨LogsKept.refl store, by simp⟩

/-
  What the outcome of a part of a run tells; the results are
  lost if it fails.
-/
def Told
    (platform : Platform)
    (clientUrl : String → String)
    (keys : List (String × String))
    (store : Registry)
    (outcome : Except ApiError (List MigrationResult))
    (store' : Registry) : Prop :=
  store.LogsKept store' ∧
    ∀ results,
      outcome = .ok results →
        Tells platform clientUrl keys store store' results

theorem tells_runMigrations
    (tenantCode : String)
    (migrations : List Migration)
    (store : Registry) :
    Ensures (TenancyOp.exec platform)
      (Told platform clientUrl
        (migrations.map fun migration =>
          (tenantCode, migration.name))
        store)
      (runMigrations tenantCode (clientUrl tenantCode)
        migrations)
      store := by
  induction migrations generalizing store with
  | nil =>
      refine ⟨LogsKept.refl store, ?_⟩
      intro results hResults
      cases hResults
      exact Tells.nil
  | cons migration migrations ih =>
      apply ensures_bind
      apply
        (tells_runMigration clientUrl tenantCode migration
          store).mono
      intro outcome s hFirst
      rcases hFirst with ⟨hKept, hResult⟩
      cases outcome with
      | error error => exact ⟨hKept, by simp⟩
      | ok result =>
          apply ensures_bind
          apply (ih s).mono
          intro outcome s' hRest
          rcases hRest with ⟨hKept', hResults⟩
          cases outcome with
          | error error =>
              exact ⟨hKept.trans hKept', by simp⟩
          | ok results =>
              refine ⟨hKept.trans hKept', ?_⟩
              intro all hAll
              cases hAll
              exact
                (hResult result rfl).append hKept hKept'
                  (hResults results rfl)

/- The tenant's database has a log behind its migrations. -/
theorem tells_migrateTenant
    (clientUrl : String → String)
    (files : MigrationFiles)
    (tenantCode : String)
    (store : Registry) :
    Ensures (TenancyOp.exec platform)
      (fun outcome s =>
        Told platform clientUrl
            (files.inOrder.map fun migration =>
              (tenantCode, migration.name))
            store outcome s ∧
          ∀ results,
            outcome = .ok results →
              HasLog platform (clientUrl tenantCode) s)
      (migrateTenant files tenantCode (clientUrl tenantCode))
      store := by
  apply ensures_bind
  refine
    ensures_tenantPrisma (clientUrl tenantCode) .connect
      ?_ ?_
  · intro tick name schema result schema' hUrl hSchema hCall
    have hSame : store.put name (some schema') = store := by
      cases hCall
      exact Registry.put_self hSchema
    rw [hSame]
    apply ensures_bind
    refine
      ensures_tenantPrisma (clientUrl tenantCode)
        .createMigrationsTable ?_ ?_
    · intro tick name schema result schema' hUrl hSchema
        hCall
      have hKept :
          store.LogsKept (store.put name (some schema')) :=
        logsKept_put hSchema hCall
      have hLog :
          HasLog platform (clientUrl tenantCode)
            (store.put name (some schema')) := by
        refine
          ⟨name, schema', hUrl, Registry.put_databases_same,
            ?_⟩
        cases hCall
        simp
      apply ensures_bind
      apply
        (tells_runMigrations tenantCode files.inOrder
          (store.put name (some schema'))).mono
      intro outcome s hTold
      rcases hTold with ⟨hKept', hResults⟩
      cases outcome with
      | error error =>
          exact ⟨⟨hKept.trans hKept', by simp⟩, by simp⟩
      | ok results =>
          apply ensures_bind
          refine ensures_perform TenancyOp.disconnectTenant ?_
          intro choice
          have hAll := hKept.trans hKept'
          cases choice with
          | failure message =>
              exact ⟨⟨hAll, by simp⟩, by simp⟩
          | answer tick =>
              refine ⟨⟨hAll, ?_⟩, ?_⟩
              · intro all hEq
                cases hEq
                exact (hResults results rfl).mono hKept
                  (LogsKept.refl s)
              · intro all hEq
                exact hLog.kept hKept'
    · intro error
      exact ⟨⟨LogsKept.refl store, by simp⟩, by simp⟩
  · intro error
    exact ⟨⟨LogsKept.refl store, by simp⟩, by simp⟩

/- The migrations of tenants, in the order of the results. -/
def keysOf
    (files : MigrationFiles)
    (tenantCodes : List String) : List (String × String) :=
  tenantCodes.flatMap fun tenantCode =>
    files.inOrder.map fun migration =>
      (tenantCode, migration.name)

theorem tells_migrateTenants
    (files : MigrationFiles)
    (tenantCodes : List String)
    (store : Registry) :
    Ensures (TenancyOp.exec platform)
      (fun outcome s =>
        Told platform clientUrl (keysOf files tenantCodes)
            store outcome s ∧
          ∀ results,
            outcome = .ok results →
              ∀ tenantCode ∈ tenantCodes,
                HasLog platform (clientUrl tenantCode) s)
      (migrateTenants clientUrl files tenantCodes)
      store := by
  induction tenantCodes generalizing store with
  | nil =>
      refine ⟨⟨LogsKept.refl store, ?_⟩, by simp⟩
      intro results hResults
      cases hResults
      exact Tells.nil
  | cons tenantCode tenantCodes ih =>
      apply ensures_bind
      apply
        (tells_migrateTenant clientUrl files tenantCode
          store).mono
      intro outcome s hFirst
      rcases hFirst with ⟨⟨hKept, hResults⟩, hLog⟩
      cases outcome with
      | error error => exact ⟨⟨hKept, by simp⟩, by simp⟩
      | ok results =>
          apply ensures_bind
          apply (ih s).mono
          intro outcome s' hRest
          rcases hRest with ⟨⟨hKept', hOthers⟩, hLogs⟩
          cases outcome with
          | error error =>
              exact ⟨⟨hKept.trans hKept', by simp⟩, by simp⟩
          | ok others =>
              refine ⟨⟨hKept.trans hKept', ?_⟩, ?_⟩
              · intro all hAll
                cases hAll
                exact
                  (hResults results rfl).append hKept hKept'
                    (hOthers others rfl)
              · intro all _ other hMem
                rcases List.mem_cons.mp hMem with hIs | hIn
                · rw [hIs]
                  exact (hLog results rfl).kept hKept'
                · exact hLogs others rfl other hIn

end TenantMigrationService

end OrderApi

------------------------------------------------------------
-- Nothing Left to Do
------------------------------------------------------------

namespace OrderApi

open Program Registry

namespace TenantMigrationService

variable {platform : Platform}
variable {clientUrl : String → String}
variable {store : Registry} {url : String}

/- The result for a migration that is in the log. -/
def alreadyApplied (key : String × String) :
    MigrationResult :=
  ⟨key.1, key.2, "already_applied", none⟩

/- A migration that is in the log is left alone. -/
theorem unchanged_runMigration
    (tenantCode : String)
    {migration : Migration}
    (hLogged : HasLogged platform url migration.name store) :
    Ensures (TenancyOp.exec platform)
      (fun outcome s =>
        s = store ∧
          ∀ result,
            outcome = .ok result →
              result =
                alreadyApplied (tenantCode, migration.name))
      (runMigration tenantCode url migration) store := by
  apply ensures_bind
  refine
    ensures_tenantPrisma url (.findMigrations migration.name)
      ?_ ?_
  · intro tick name schema ids schema' hUrl hSchema hCall
    have hSame : store.put name (some schema') = store := by
      rw [(SchemaOp.exec_findMigrations hCall).1]
      exact Registry.put_self hSchema
    rw [hSame]
    rcases hLogged with ⟨name', other, hUrl', hOther, hMem⟩
    rw [hUrl] at hUrl'
    cases hUrl'
    rw [hSchema] at hOther
    cases hOther
    have hSome : ids.length ≠ 0 := by
      intro hNone
      exact
        (ids_eq_nil_iff hCall).mp
          (List.length_eq_zero_iff.mp hNone) hMem
    dsimp only
    rw [if_neg hSome]
    refine ⟨rfl, ?_⟩
    intro result hResult
    cases hResult
    rfl
  · intro error
    exact ⟨rfl, by simp⟩

theorem unchanged_runMigrations
    (tenantCode : String)
    {migrations : List Migration}
    (hLogged :
      ∀ migration ∈ migrations,
        HasLogged platform url migration.name store) :
    Ensures (TenancyOp.exec platform)
      (fun outcome s =>
        s = store ∧
          ∀ results,
            outcome = .ok results →
              results =
                migrations.map fun migration =>
                  alreadyApplied
                    (tenantCode, migration.name))
      (runMigrations tenantCode url migrations) store := by
  induction migrations with
  | nil =>
      refine ⟨rfl, ?_⟩
      intro results hResults
      cases hResults
      rfl
  | cons migration migrations ih =>
      have hRest :=
        ih fun other hMem => hLogged other (by simp [hMem])
      apply ensures_bind
      apply
        (unchanged_runMigration tenantCode
          (hLogged migration List.mem_cons_self)).mono
      intro outcome s hFirst
      rcases hFirst with ⟨hStore, hResult⟩
      subst hStore
      cases outcome with
      | error error => exact ⟨rfl, by simp⟩
      | ok result =>
          apply ensures_bind
          apply hRest.mono
          intro outcome s' hOthers
          rcases hOthers with ⟨hStore, hResults⟩
          subst hStore
          cases outcome with
          | error error => exact ⟨rfl, by simp⟩
          | ok results =>
              refine ⟨rfl, ?_⟩
              intro all hAll
              cases hAll
              rw [hResult result rfl, hResults results rfl,
                List.map_cons]

/- So is a tenant whose migrations are all in its log. -/
theorem unchanged_migrateTenant
    {files : MigrationFiles}
    (tenantCode : String)
    (hLog : HasLog platform url store)
    (hLogged :
      ∀ migration ∈ files.inOrder,
        HasLogged platform url migration.name store) :
    Ensures (TenancyOp.exec platform)
      (fun outcome s =>
        s = store ∧
          ∀ results,
            outcome = .ok results →
              results =
                files.inOrder.map fun migration =>
                  alreadyApplied
                    (tenantCode, migration.name))
      (migrateTenant files tenantCode url) store := by
  apply ensures_bind
  refine ensures_tenantPrisma url .connect ?_ ?_
  · intro tick name schema result schema' hUrl hSchema hCall
    have hSame : store.put name (some schema') = store := by
      cases hCall
      exact Registry.put_self hSchema
    rw [hSame]
    apply ensures_bind
    refine ensures_tenantPrisma url .createMigrationsTable ?_ ?_
    · intro tick name schema result schema' hUrl hSchema
        hCall
      have hSame' :
          store.put name (some schema') = store := by
        rcases hLog with ⟨name', other, hUrl', hOther, hSome⟩
        rw [hUrl] at hUrl'
        cases hUrl'
        rw [hSchema] at hOther
        cases hOther
        cases hCall
        apply Registry.put_self
        rw [hSchema]
        cases schema with
        | mk executed migrations =>
            cases migrations with
            | none => exact (hSome rfl).elim
            | some rows => rfl
      rw [hSame']
      apply ensures_bind
      apply (unchanged_runMigrations tenantCode hLogged).mono
      intro outcome s hRan
      rcases hRan with ⟨hStore, hResults⟩
      subst hStore
      cases outcome with
      | error error => exact ⟨rfl, by simp⟩
      | ok results =>
          apply ensures_bind
          refine ensures_perform TenancyOp.disconnectTenant ?_
          intro choice
          cases choice with
          | failure message => exact ⟨rfl, by simp⟩
          | answer tick =>
              refine ⟨rfl, ?_⟩
              intro all hAll
              cases hAll
              exact hResults results rfl
    · intro error
      exact ⟨rfl, by simp⟩
  · intro error
    exact ⟨rfl, by simp⟩

theorem unchanged_migrateTenants
    {files : MigrationFiles}
    {tenantCodes : List String}
    (hLog :
      ∀ tenantCode ∈ tenantCodes,
        HasLog platform (clientUrl tenantCode) store)
    (hLogged :
      ∀ key ∈ keysOf files tenantCodes,
        HasLogged platform (clientUrl key.1) key.2 store) :
    Ensures (TenancyOp.exec platform)
      (fun outcome s =>
        s = store ∧
          ∀ results,
            outcome = .ok results →
              results =
                (keysOf files tenantCodes).map
                  alreadyApplied)
      (migrateTenants clientUrl files tenantCodes)
      store := by
  induction tenantCodes with
  | nil =>
      refine ⟨rfl, ?_⟩
      intro results hResults
      cases hResults
      rfl
  | cons tenantCode tenantCodes ih =>
      have hHere :
          ∀ migration ∈ files.inOrder,
            HasLogged platform (clientUrl tenantCode)
              migration.name store := by
        intro migration hMem
        refine hLogged (tenantCode, migration.name) ?_
        unfold keysOf
        rw [List.flatMap_cons]
        exact
          List.mem_append_left _ (List.mem_map_of_mem hMem)
      have hRest :=
        ih
          (fun other hMem => hLog other (by simp [hMem]))
          (fun key hMem => by
            refine hLogged key ?_
            unfold keysOf
            rw [List.flatMap_cons]
            exact List.mem_append_right _ hMem)
      apply ensures_bind
      apply
        (unchanged_migrateTenant tenantCode
          (hLog tenantCode List.mem_cons_self) hHere).mono
      intro outcome s hFirst
      rcases hFirst with ⟨hStore, hResults⟩
      subst hStore
      cases outcome with
      | error error => exact ⟨rfl, by simp⟩
      | ok results =>
          apply ensures_bind
          apply hRest.mono
          intro outcome s' hOthers
          rcases hOthers with ⟨hStore, hAll⟩
          subst hStore
          cases outcome with
          | error error => exact ⟨rfl, by simp⟩
          | ok others =>
              refine ⟨rfl, ?_⟩
              intro all hEq
              cases hEq
              rw [hResults results rfl, hAll others rfl]
              unfold keysOf
              rw [List.flatMap_cons, List.map_append,
                List.map_map]
              rfl

end TenantMigrationService

end OrderApi

------------------------------------------------------------
-- Migrating All Tenants Once More
------------------------------------------------------------

namespace OrderApi

open Program Registry

namespace TenantMigrationService

variable {platform : Platform}
variable {clientUrl : String → String}
variable {files : MigrationFiles} {store : Registry}

/- The tenants are those that are marked in the store. -/
theorem ensures_findProvisioned
    {Post : Except ApiError (List String) → Registry → Prop}
    (hAnswer : Post (.ok store.provisioned) store)
    (hError : ∀ error, Post (.error error) store) :
    Ensures (TenancyOp.exec platform) Post
      (Program.perform TenancyOp.findProvisioned) store := by
  refine ensures_perform TenancyOp.findProvisioned ?_
  intro choice
  cases choice with
  | failure message => exact hError _
  | answer tick => exact hAnswer

theorem tells_migrateAllTenants
    (platform : Platform)
    (clientUrl : String → String)
    (files : MigrationFiles)
    (store : Registry) :
    Ensures (TenancyOp.exec platform)
      (fun outcome s =>
        Told platform clientUrl
            (keysOf files store.provisioned) store outcome
            s ∧
          s.provisioned = store.provisioned ∧
          ∀ results,
            outcome = .ok results →
              ∀ tenantCode ∈ store.provisioned,
                HasLog platform (clientUrl tenantCode) s)
      (migrateAllTenants clientUrl files) store := by
  have hUsers :
      Ensures (TenancyOp.exec platform)
        (fun _ s => s.users = store.users)
        (migrateAllTenants clientUrl files) store := by
    refine
      (calls_migrateAllTenants clientUrl files).ensures ?_ rfl
    intro choice op s hLeaves hSame
    exact (LeavesUsers.users_eq hLeaves rfl).trans hSame
  have hTells :
      Ensures (TenancyOp.exec platform)
        (fun outcome s =>
          Told platform clientUrl
              (keysOf files store.provisioned) store outcome
              s ∧
            ∀ results,
              outcome = .ok results →
                ∀ tenantCode ∈ store.provisioned,
                  HasLog platform (clientUrl tenantCode) s)
        (migrateAllTenants clientUrl files) store := by
    apply ensures_bind
    apply ensures_findProvisioned
    · exact tells_migrateTenants files store.provisioned store
    · intro error
      exact ⟨⟨LogsKept.refl store, by simp⟩, by simp⟩
  apply (Ensures.and hUsers hTells).mono
  intro outcome s hBoth
  rcases hBoth with ⟨hSame, hTold, hLogs⟩
  refine ⟨hTold, ?_, hLogs⟩
  unfold Registry.provisioned
  rw [hSame]

/-
  Migrating all tenants once more.  Whatever the server does
  in between, as long as it keeps the logs, what was not
  reported as failed is reported as applied already.  Right
  behind a run without failures nothing changes, whether the
  calls are answered or not, and a run that returns reports
  every migration of every tenant as applied already.
-/
theorem migrateAllTenants_again
    {choices : Nat → Choice}
    {between : Registry}
    {results : List MigrationResult}
    (hFirst :
      (migrateAllTenants clientUrl files).complete
          (TenancyOp.exec platform) choices store =
        (.ok results, between)) :
    (∀ store' choices' results' after,
      between.LogsKept store' →
      (migrateAllTenants clientUrl files).complete
          (TenancyOp.exec platform) choices' store' =
        (.ok results', after) →
      ∀ result ∈ results,
        result.status ≠ "failed" →
        ∀ result' ∈ results',
          result'.key = result.key →
            result'.status = "already_applied") ∧
    ((∀ result ∈ results, result.status ≠ "failed") →
      ∀ choices',
        ((migrateAllTenants clientUrl files).complete
            (TenancyOp.exec platform) choices'
            between).2 = between ∧
          ∀ results',
            ((migrateAllTenants clientUrl files).complete
                (TenancyOp.exec platform) choices'
                between).1 = .ok results' →
              results' =
                results.map fun result =>
                  alreadyApplied result.key) := by
  have hEnsured :=
    (tells_migrateAllTenants platform clientUrl files
      store).complete choices
  rw [hFirst] at hEnsured
  rcases hEnsured with ⟨⟨_, hTold⟩, hTenants, hLogs⟩
  have hTells := hTold results rfl
  refine ⟨?_, ?_⟩
  · intro store' choices' results' after hKept hSecond
      result hMem hStatus result' hMem' hKey
    have hAgain :=
      (tells_migrateAllTenants platform clientUrl files
        store').complete choices'
    rw [hSecond] at hAgain
    rcases hAgain with ⟨⟨_, hTold'⟩, _, _⟩
    have hLogged :=
      (hTells.logged result hMem hStatus).kept hKept
    apply (hTold' results' rfl).already result' hMem'
    change
      HasLogged platform (clientUrl result'.key.1)
        result'.key.2 store'
    rw [hKey]
    exact hLogged
  · intro hNone choices'
    have hAll :
        ∀ key ∈ keysOf files store.provisioned,
          HasLogged platform (clientUrl key.1) key.2
            between := by
      intro key hKey
      rw [← hTells.keys_eq, List.mem_map] at hKey
      rcases hKey with ⟨result, hMem, hIs⟩
      rw [← hIs]
      exact hTells.logged result hMem (hNone result hMem)
    have hSecond :
        Ensures (TenancyOp.exec platform)
          (fun outcome s =>
            s = between ∧
              ∀ results',
                outcome = .ok results' →
                  results' =
                    (keysOf files store.provisioned).map
                      alreadyApplied)
          (migrateAllTenants clientUrl files) between := by
      apply ensures_bind
      apply ensures_findProvisioned
      · rw [hTenants]
        exact
          unchanged_migrateTenants (hLogs results rfl) hAll
      · intro error
        exact ⟨rfl, by simp⟩
    rcases hSecond.complete choices' with
      ⟨hStore, hResults⟩
    refine ⟨hStore, ?_⟩
    intro results' hEq
    rw [hResults results' hEq, ← hTells.keys_eq,
      List.map_map]
    rfl

end TenantMigrationService

end OrderApi

------------------------------------------------------------
-- A Tenant That Is Migrated Twice
------------------------------------------------------------

namespace OrderApi

open TenantMigrationService

namespace Onboarding

/- Every call is answered, each with another id. -/
def answeringAll (n : Nat) : Choice :=
  .answer ⟨toString n, n⟩

/- The registry behind a first run. -/
def migratedOnce : Registry :=
  ((migrateAllTenants clientUrls files).complete
    (TenancyOp.exec platform) answeringAll deployed).2

theorem applied_once :
    (migrateAllTenants clientUrls files).complete
        (TenancyOp.exec platform) answeringAll deployed =
      (.ok [⟨"bolt", "1_add_products", "applied", none⟩],
        migratedOnce) := by
  have hResults :
      ((migrateAllTenants clientUrls files).complete
        (TenancyOp.exec platform) answeringAll
        deployed).1 =
        .ok
          [⟨"bolt", "1_add_products", "applied", none⟩] := by
    decide +kernel
  unfold migratedOnce
  rw [← hResults]

end Onboarding

/- The second run fails at its first call. -/
theorem migrateAllTenants_again_of_deployed :
    ((migrateAllTenants Onboarding.clientUrls
        Onboarding.files).complete
      (TenancyOp.exec Onboarding.platform)
      (fun _ => .failure "Connection reset")
      Onboarding.migratedOnce).2 =
        Onboarding.migratedOnce :=
  ((migrateAllTenants_again Onboarding.applied_once).2
    (by simp) fun _ => .failure "Connection reset").1

end OrderApi
