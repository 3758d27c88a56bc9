import OrderApi.System.MigrationSystem

/-
  What the log of migrations tells about a tenant database.

  `migrateAllTenants` takes a migration for applied as soon
  as the log has a row for it, finished or not, and goes on
  with the next migration when one has failed.

  Key definitions include:
    * `Migration.Executed`
    * `TruthfulLog`
    * `FinishedUpTo`
    * `KeepsOrder`

  Key theorems include:
    * `SchemaOp.exec_rows`
    * `LogTruth.resume`
    * `log_tells_truth`
-/

------------------------------------------------------------
-- Rows of the Log
------------------------------------------------------------

namespace OrderApi

namespace TenantSchema

variable {schema schema' : TenantSchema}

/- The rows of `_prisma_migrations`. -/
def rows (schema : TenantSchema) : List MigrationRow :=
  match schema.migrations with
  | none => []
  | some rows => rows.rows

theorem logged_eq (schema : TenantSchema) :
    schema.logged =
      schema.rows.map MigrationRow.migration_name := by
  cases hRows : schema.migrations with
  | none => simp [logged, rows, hRows]
  | some table => simp [logged, rows, hRows]

/- Rows with the same id are the same row. -/
theorem eq_of_id_eq
    {row row' : MigrationRow}
    (hRow : row ∈ schema.rows)
    (hRow' : row' ∈ schema.rows)
    (hId : row.id = row'.id) :
    row = row' := by
  cases hRows : schema.migrations with
  | none => simp [rows, hRows] at hRow
  | some table =>
      simp only [rows, hRows] at hRow hRow'
      exact table.eq_of_key_eq hRow hRow' hId

/- A row that is logged comes last. -/
theorem rows_of_log?
    {row : MigrationRow}
    {id : String}
    (hLog : schema.log? row = .ok (id, schema')) :
    id = row.id ∧
      schema'.executed = schema.executed ∧
      schema'.rows = schema.rows ++ [row] := by
  cases hRows : schema.migrations with
  | none => simp [log?, hRows] at hLog
  | some table =>
      simp only [log?, hRows] at hLog
      split at hLog
      · cases hLog
      · rename_i table' hInsert
        simp only [Except.ok.injEq, Prod.mk.injEq] at hLog
        rcases hLog with ⟨rfl, rfl⟩
        have hAdded :=
          (table.insert?_eq_some_iff.mp hInsert).2
        exact ⟨rfl, rfl, by simp [rows, hRows, hAdded]⟩

/- A change of one row leaves the others. -/
theorem rows_of_relog
    {id : String}
    {change : MigrationRow → MigrationRow}
    {hKey : ∀ row, Keyed.key (change row) = Keyed.key row}
    {answer : Unit}
    (hRelog :
      schema.relog id change hKey =
        .ok (answer, schema')) :
    schema'.executed = schema.executed ∧
      schema'.rows =
        schema.rows.map fun row =>
          if row.id = id then change row else row := by
  cases hRows : schema.migrations with
  | none => simp [relog, hRows] at hRelog
  | some table =>
      simp only [relog, hRows, Except.ok.injEq,
        Prod.mk.injEq] at hRelog
      rcases hRelog with ⟨_, rfl⟩
      refine ⟨rfl, ?_⟩
      simp only [rows, hRows, Table.update]
      rfl

end TenantSchema

namespace SchemaOp

variable {platform : Platform} {tick : Tick}
variable {schema schema' : TenantSchema}

/- The name that a call adds to the log. -/
def logs? : SchemaOp → Option String
  | insertMigration name _ => some name
  | insertApplied name _ => some name
  | _ => none

/-
  The rows behind an answered call.  Each row stays under
  its id and its name, unfinished until it is finished by
  its id, and no name comes in but the one that is logged.
-/
structure KeepsRows
    (op : SchemaOp)
    (schema schema' : TenantSchema) : Prop where
  executed : schema.executed.Sublist schema'.executed
  stay :
    ∀ row ∈ schema.rows, ∃ row' ∈ schema'.rows,
      row'.id = row.id ∧
        row'.migration_name = row.migration_name ∧
        (row.finished_at = none →
          row'.finished_at = none ∨
            ∃ count, op = .finishMigration row.id count)
  names :
    ∀ row' ∈ schema'.rows,
      op.logs? = some row'.migration_name ∨
        ∃ row ∈ schema.rows,
          row.migration_name = row'.migration_name

/- Calls that leave the rows. -/
theorem keepsRows_of_same
    {op : SchemaOp}
    (hExecuted :
      schema.executed.Sublist schema'.executed)
    (hRows : schema'.rows = schema.rows) :
    op.KeepsRows schema schema' where
  executed := hExecuted
  stay := by
    intro row hRow
    rw [hRows]
    exact ⟨row, hRow, rfl, rfl, Or.inl⟩
  names := by
    intro row hRow
    rw [hRows] at hRow
    exact Or.inr ⟨row, hRow, rfl⟩

/- Calls that add a row. -/
theorem keepsRows_of_log
    {op : SchemaOp}
    {row : MigrationRow}
    (hExecuted : schema'.executed = schema.executed)
    (hRows : schema'.rows = schema.rows ++ [row])
    (hLogs : op.logs? = some row.migration_name) :
    op.KeepsRows schema schema' where
  executed := by rw [hExecuted]
  stay := by
    intro old hOld
    rw [hRows]
    exact
      ⟨old, List.mem_append_left _ hOld, rfl, rfl, Or.inl⟩
  names := by
    intro new hNew
    rw [hRows] at hNew
    rcases List.mem_append.mp hNew with hOld | hLast
    · exact Or.inr ⟨new, hOld, rfl⟩
    · rw [List.mem_singleton.mp hLast]
      exact Or.inl hLogs

/- Calls that change a row, but neither id nor name. -/
theorem keepsRows_of_relog
    {op : SchemaOp}
    {id : String}
    {change : MigrationRow → MigrationRow}
    (hExecuted : schema'.executed = schema.executed)
    (hRows :
      schema'.rows =
        schema.rows.map fun row =>
          if row.id = id then change row else row)
    (hId : ∀ row, (change row).id = row.id)
    (hName :
      ∀ row,
        (change row).migration_name = row.migration_name)
    (hFinished :
      ∀ row, row.id = id →
        (change row).finished_at = row.finished_at ∨
          ∃ count, op = .finishMigration row.id count) :
    op.KeepsRows schema schema' where
  executed := by rw [hExecuted]
  stay := by
    intro row hRow
    rw [hRows]
    refine ⟨_, List.mem_map_of_mem hRow, ?_⟩
    by_cases hSame : row.id = id
    · rw [if_pos hSame]
      refine ⟨hId row, hName row, ?_⟩
      intro hOpen
      rcases hFinished row hSame with hStays | hFinish
      · exact Or.inl (hStays.trans hOpen)
      · exact Or.inr hFinish
    · rw [if_neg hSame]
      exact ⟨rfl, rfl, Or.inl⟩
  names := by
    intro row' hRow'
    rw [hRows] at hRow'
    rcases List.mem_map.mp hRow' with ⟨row, hRow, rfl⟩
    apply Or.inr
    refine ⟨row, hRow, ?_⟩
    by_cases hSame : row.id = id
    · rw [if_pos hSame, hName]
    · rw [if_neg hSame]

/- Every answered call keeps the rows. -/
theorem exec_rows
    {op : SchemaOp}
    {result : op.Res}
    (hExec :
      op.exec platform tick schema = .ok (result, schema')) :
    op.KeepsRows schema schema' := by
  cases op with
  | connect =>
      cases hExec
      exact keepsRows_of_same (List.Sublist.refl _) rfl
  | createMigrationsTable =>
      simp only [exec, Except.ok.injEq,
        Prod.mk.injEq] at hExec
      rcases hExec with ⟨_, rfl⟩
      refine keepsRows_of_same ?_ ?_
      · exact List.Sublist.refl _
      · cases hRows : schema.migrations with
        | none => simp [TenantSchema.rows, hRows, Table.empty]
        | some table => simp [TenantSchema.rows, hRows]
  | findMigrations name =>
      rw [(exec_findMigrations hExec).1]
      exact keepsRows_of_same (List.Sublist.refl _) rfl
  | insertMigration name checksum =>
      rcases TenantSchema.rows_of_log? hExec with
        ⟨_, hExecuted, hRows⟩
      exact keepsRows_of_log hExecuted hRows rfl
  | insertApplied name count =>
      rcases TenantSchema.rows_of_log? hExec with
        ⟨_, hExecuted, hRows⟩
      exact keepsRows_of_log hExecuted hRows rfl
  | executeStatement statement =>
      have hMore := exec_executed hExec
      simp only [exec] at hExec
      split at hExec
      · cases hExec
      · simp only [Except.ok.injEq, Prod.mk.injEq] at hExec
        rcases hExec with ⟨_, rfl⟩
        exact keepsRows_of_same hMore rfl
  | finishMigration id count =>
      rcases TenantSchema.rows_of_relog hExec with
        ⟨hExecuted, hRows⟩
      apply
        keepsRows_of_relog hExecuted hRows (fun _ => rfl)
          (fun _ => rfl)
      rintro row rfl
      exact Or.inr ⟨count, rfl⟩
  | rollBackMigration id =>
      rcases TenantSchema.rows_of_relog hExec with
        ⟨hExecuted, hRows⟩
      exact
        keepsRows_of_relog hExecuted hRows (fun _ => rfl)
          (fun _ => rfl) fun _ _ => Or.inl rfl

end SchemaOp

end OrderApi

------------------------------------------------------------
-- What a Call Does to a Database
------------------------------------------------------------

namespace OrderApi

namespace TenancyOp

variable {platform : Platform} {choice : Choice}
variable {store store' : Registry}

/-
  All that a call can do to a database: nothing, or create
  it, or drop it, or what its client answers.
-/
theorem exec_database_cases
    {op : TenancyOp}
    {answer : Except ApiError op.Res}
    (hExec :
      op.exec platform choice store = (answer, store'))
    (name : String) :
    store'.databases name = store.databases name ∨
    (op = createDatabase name ∧
      (∀ error, answer ≠ .error error) ∧
      store.databases name = none ∧
      store'.databases name = some TenantSchema.empty) ∨
    (op = dropDatabase name ∧
      (∀ error, answer ≠ .error error) ∧
      store'.databases name = none) ∨
    (∃ url call tick schema schema' result,
      op = tenantClient url call ∧
        (∀ error, answer ≠ .error error) ∧
        platform.databaseOf url = some name ∧
        store.databases name = some schema ∧
        call.exec platform tick schema =
          .ok (result, schema') ∧
        store'.databases name = some schema') := by
  cases answer with
  | error error =>
      apply Or.inl
      rw [exec_error hExec]
  | ok result =>
      cases op with
      | createDatabase created =>
          rcases exec_createDatabase hExec with
            ⟨hNone, rfl⟩
          by_cases hName : name = created
          · subst hName
            exact
              Or.inr (Or.inl
                ⟨rfl, by simp, hNone,
                  Registry.put_databases_same⟩)
          · exact
              Or.inl (Registry.put_databases_other hName)
      | dropDatabase dropped =>
          rcases exec_ok hExec with ⟨tick, _, hAnswer⟩
          cases hAnswer
          by_cases hName : name = dropped
          · subst hName
            exact
              Or.inr (Or.inr (Or.inl
                ⟨rfl, by simp, Registry.put_databases_same⟩))
          · exact
              Or.inl (Registry.put_databases_other hName)
      | tenantClient url call =>
          rcases exec_tenantClient hExec with
            ⟨tick, used, schema, schema', hUsed, hSchema,
              hCall, rfl⟩
          by_cases hName : name = used
          · subst hName
            exact
              Or.inr (Or.inr (Or.inr
                ⟨url, call, tick, schema, schema', result,
                  rfl, by simp, hUsed, hSchema, hCall,
                  Registry.put_databases_same⟩))
          · exact
              Or.inl (Registry.put_databases_other hName)
      | userCreate data =>
          rcases exec_userCreate hExec with
            ⟨_, _, _, _, rfl⟩
          exact Or.inl rfl
      | userSetDatabaseCreated id =>
          rw [exec_userSetDatabaseCreated hExec]
          exact Or.inl rfl
      | userUpdate id data =>
          rcases exec_ok hExec with ⟨tick, _, hAnswer⟩
          simp only [TenancyOp.answer] at hAnswer
          split at hAnswer
          · cases hAnswer
          · cases hAnswer
            exact Or.inl rfl
      | userDelete id =>
          rcases exec_ok hExec with ⟨tick, _, hAnswer⟩
          simp only [TenancyOp.answer] at hAnswer
          split at hAnswer
          · cases hAnswer
          · cases hAnswer
            exact Or.inl rfl
      | _ =>
          rcases exec_ok hExec with ⟨tick, _, hAnswer⟩
          cases hAnswer
          exact Or.inl rfl

/- What an answered call did in the database it uses. -/
theorem exec_tenantClient_at
    {url name : String}
    {call : SchemaOp}
    {result : call.Res}
    {schema' : TenantSchema}
    (hExec :
      (tenantClient url call).exec platform choice store =
        (.ok result, store'))
    (hUrl : platform.databaseOf url = some name)
    (hSchema' : store'.databases name = some schema') :
    ∃ tick schema,
      store.databases name = some schema ∧
        call.exec platform tick schema =
          .ok (result, schema') := by
  rcases exec_tenantClient hExec with
    ⟨tick, used, schema, schema'', hUsed, hSchema, hCall,
      rfl⟩
  rw [hUrl] at hUsed
  cases hUsed
  rw [Registry.put_databases_same] at hSchema'
  cases hSchema'
  exact ⟨tick, schema, hSchema, hCall⟩

end TenancyOp

end OrderApi

------------------------------------------------------------
-- The Truth of the Log
------------------------------------------------------------

namespace OrderApi

/- The migrations that sort before the one with a name. -/
def MigrationFiles.before
    (files : MigrationFiles)
    (name : String) : List Migration :=
  files.inOrder.takeWhile fun migration =>
    migration.name ≠ name

/-
  Every statement that one of the runners issues for the
  migration was executed, in order.
-/
def Migration.Executed
    (platform : Platform)
    (migration : Migration)
    (executed : List String) : Prop :=
  (pendingStatements platform migration.sql).Sublist
      executed ∨
    (TenantMigrationService.issued migration.sql).Sublist
      executed

instance
    (platform : Platform)
    (migration : Migration)
    (executed : List String) :
    Decidable (migration.Executed platform executed) :=
  inferInstanceAs (Decidable (_ ∨ _))

/-
  A migration that the log has a row for was executed, and
  so was every migration that sorts before it.
-/
def TruthfulLog
    (platform : Platform)
    (files : MigrationFiles)
    (schema : TenantSchema) : Prop :=
  ∀ migration ∈ files.inOrder,
    migration.name ∈ schema.logged →
      ∀ earlier ∈ migration :: files.before migration.name,
        earlier.Executed platform schema.executed

instance
    (platform : Platform)
    (files : MigrationFiles)
    (schema : TenantSchema) :
    Decidable (TruthfulLog platform files schema) :=
  inferInstanceAs (Decidable (∀ migration ∈ _, _))

/-
  The log has no unfinished row for the migration, nor for
  one that sorts before it.
-/
def FinishedUpTo
    (files : MigrationFiles)
    (schema : TenantSchema)
    (migration : Migration) : Prop :=
  ∀ row ∈ schema.rows,
    row.migration_name ∈
        (migration :: files.before migration.name).map
          Migration.name →
      row.finished_at ≠ none

instance
    (files : MigrationFiles)
    (schema : TenantSchema)
    (migration : Migration) :
    Decidable (FinishedUpTo files schema migration) :=
  inferInstanceAs (Decidable (∀ row ∈ _, _))

/- Executed, or still to be finished in the log. -/
def Covered
    (platform : Platform)
    (schema : TenantSchema)
    (migration : Migration) : Prop :=
  migration.Executed platform schema.executed ∨
    ∃ row ∈ schema.rows,
      row.migration_name = migration.name ∧
        row.finished_at = none

/- What is logged is covered up to its place. -/
def CoveredLog
    (platform : Platform)
    (files : MigrationFiles)
    (schema : TenantSchema) : Prop :=
  ∀ row ∈ schema.rows, ∀ migration ∈ files.inOrder,
    row.migration_name = migration.name →
      ∀ earlier ∈ migration :: files.before migration.name,
        Covered platform schema earlier

/- A finished part of a covered log is truthful. -/
theorem CoveredLog.executed
    {platform : Platform}
    {files : MigrationFiles}
    {schema : TenantSchema}
    (hCovered : CoveredLog platform files schema)
    {migration : Migration}
    (hMem : migration ∈ files.inOrder)
    (hLogged : migration.name ∈ schema.logged)
    (hFinished : FinishedUpTo files schema migration) :
    ∀ earlier ∈ migration :: files.before migration.name,
      earlier.Executed platform schema.executed := by
  intro earlier hEarlier
  rw [schema.logged_eq] at hLogged
  rcases List.mem_map.mp hLogged with ⟨row, hRow, hName⟩
  rcases hCovered row hRow migration hMem hName earlier
      hEarlier with
    hExecuted | ⟨open', hOpen, hOpenName, hUnfinished⟩
  · exact hExecuted
  · have hNames :
        open'.migration_name ∈
          (migration :: files.before migration.name).map
            Migration.name := by
      rw [hOpenName]
      exact List.mem_map_of_mem hEarlier
    exact (hFinished open' hOpen hNames hUnfinished).elim

end OrderApi

------------------------------------------------------------
-- Coverage behind a Call
------------------------------------------------------------

namespace OrderApi

namespace MigrationFiles

variable {files : MigrationFiles}

/- What sorts before a migration, by its place. -/
theorem before_eq
    {done rest : List Migration}
    {migration : Migration}
    (hOrder : done ++ migration :: rest = files.inOrder) :
    files.before migration.name = done := by
  have hNames := files.nodup_inOrder
  rw [← hOrder, List.map_append, List.map_cons] at hNames
  have hOther :
      ∀ earlier ∈ done,
        decide (earlier.name ≠ migration.name) = true := by
    intro earlier hEarlier
    have hDisjoint := (List.nodup_append.mp hNames).2.2
    exact
      decide_eq_true
        (hDisjoint _ (List.mem_map_of_mem hEarlier) _
          List.mem_cons_self)
  rw [before, ← hOrder, List.takeWhile_append_of_pos hOther]
  simp

/- Migrations are told apart by their names. -/
theorem eq_of_name_eq
    {migration migration' : Migration}
    (hMem : migration ∈ files.inOrder)
    (hMem' : migration' ∈ files.inOrder)
    (hName : migration.name = migration'.name) :
    migration = migration' :=
  List.inj_on_of_nodup_map files.nodup_inOrder hMem hMem'
    hName

theorem mem_of_before
    {migration earlier : Migration}
    (hMem : migration ∈ files.inOrder)
    (hEarlier :
      earlier ∈ migration :: files.before migration.name) :
    earlier ∈ files.inOrder := by
  rcases List.mem_cons.mp hEarlier with rfl | hBefore
  · exact hMem
  · exact (List.takeWhile_sublist _).mem hBefore

end MigrationFiles

variable {platform : Platform} {files : MigrationFiles}
variable {schema schema' : TenantSchema}

/- Executing more statements undoes no migration. -/
theorem Migration.Executed.mono
    {migration : Migration}
    {executed executed' : List String}
    (hExecuted : migration.Executed platform executed)
    (hMore : executed.Sublist executed') :
    migration.Executed platform executed' :=
  hExecuted.imp (fun h => h.trans hMore) fun h =>
    h.trans hMore

/-
  What a call finishes, if it finishes a row, has been
  executed before.
-/
def FinishesExecuted
    (platform : Platform)
    (files : MigrationFiles)
    (call : SchemaOp)
    (schema : TenantSchema) : Prop :=
  ∀ id count, call = .finishMigration id count →
    ∀ migration ∈ files.inOrder, ∀ row ∈ schema.rows,
      row.id = id → row.migration_name = migration.name →
        migration.Executed platform schema.executed

section Call

variable
  {call : SchemaOp}
  (hKeeps : call.KeepsRows schema schema')
  (hFinishes :
    FinishesExecuted platform files call schema)

include hKeeps hFinishes

/- Coverage is kept. -/
theorem Covered.kept
    {migration : Migration}
    (hMem : migration ∈ files.inOrder)
    (hCovered : Covered platform schema migration) :
    Covered platform schema' migration := by
  rcases hCovered with
    hExecuted | ⟨row, hRow, hName, hUnfinished⟩
  · exact Or.inl (hExecuted.mono hKeeps.executed)
  · rcases hKeeps.stay row hRow with
      ⟨row', hRow', _, hName', hStays⟩
    rcases hStays hUnfinished with
      hUnfinished' | ⟨count, hFinish⟩
    · exact
        Or.inr
          ⟨row', hRow', hName'.trans hName, hUnfinished'⟩
    · have hExecuted :=
        hFinishes row.id count hFinish migration hMem row
          hRow rfl hName
      exact Or.inl (hExecuted.mono hKeeps.executed)

/- So is a covered log, if what is added to it is covered. -/
theorem CoveredLog.kept
    (hLog : CoveredLog platform files schema)
    (hNew :
      ∀ migration ∈ files.inOrder,
        call.logs? = some migration.name →
          ∀ earlier ∈
              migration :: files.before migration.name,
            Covered platform schema' earlier) :
    CoveredLog platform files schema' := by
  intro row' hRow' migration hMem hName earlier hEarlier
  rcases hKeeps.names row' hRow' with
    hLogs | ⟨row, hRow, hSame⟩
  · rw [hName] at hLogs
    exact hNew migration hMem hLogs earlier hEarlier
  · have hBefore :=
      hLog row hRow migration (hMem) (hSame.trans hName)
        earlier hEarlier
    exact
      hBefore.kept hKeeps hFinishes
        (files.mem_of_before hMem hEarlier)

end Call

end OrderApi

------------------------------------------------------------
-- What Runners Know
------------------------------------------------------------

namespace OrderApi

variable {platform : Platform} {files : MigrationFiles}
variable {schema schema' : TenantSchema}

/- A runner without a failure has covered what is done. -/
def Reading.Sound
    (platform : Platform)
    (schema : TenantSchema)
    (reading : Reading) : Prop :=
  reading.sound = true →
    ∀ migration ∈ reading.done,
      Covered platform schema migration

/-
  The statements of the migration were executed but for
  those left.  A row of the consumer is still in its place.
-/
def Progress
    (platform : Platform)
    (schema : TenantSchema)
    (id? : Option String)
    (migration : Migration)
    (left : List String) : Prop :=
  match id? with
  | none =>
      ∃ ran : List String,
        ran.Sublist schema.executed ∧
          ran ++ left =
            TenantMigrationService.issued migration.sql
  | some id =>
      (∃ ran : List String,
        ran.Sublist schema.executed ∧
          ran ++ left =
            pendingStatements platform migration.sql) ∧
        ∃ row ∈ schema.rows,
          row.id = id ∧
            row.migration_name = migration.name

/- What a runner in the phase knows about its database. -/
def MigrationPhase.Knows
    (platform : Platform)
    (schema : TenantSchema) : MigrationPhase → Prop
  | between reading => reading.Sound platform schema
  | amid reading id? migration left =>
      reading.Sound platform schema ∧
        Progress platform schema id? migration left
  | _ => True

/- A migration without statements left was executed. -/
theorem Progress.executed
    {id? : Option String}
    {migration : Migration}
    (hProgress :
      Progress platform schema id? migration []) :
    migration.Executed platform schema.executed := by
  cases id? with
  | none =>
      rcases hProgress with ⟨ran, hRan, hAll⟩
      rw [List.append_nil] at hAll
      exact Or.inr (hAll ▸ hRan)
  | some id =>
      rcases hProgress with ⟨⟨ran, hRan, hAll⟩, _⟩
      rw [List.append_nil] at hAll
      exact Or.inl (hAll ▸ hRan)

section Call

variable
  {call : SchemaOp}
  (hKeeps : call.KeepsRows schema schema')

include hKeeps

theorem Progress.kept
    {id? : Option String}
    {migration : Migration}
    {left : List String}
    (hProgress :
      Progress platform schema id? migration left) :
    Progress platform schema' id? migration left := by
  cases id? with
  | none =>
      rcases hProgress with ⟨ran, hRan, hAll⟩
      exact ⟨ran, hRan.trans hKeeps.executed, hAll⟩
  | some id =>
      rcases hProgress with
        ⟨⟨ran, hRan, hAll⟩, row, hRow, hId, hName⟩
      rcases hKeeps.stay row hRow with
        ⟨row', hRow', hId', hName', _⟩
      exact
        ⟨⟨ran, hRan.trans hKeeps.executed, hAll⟩, row',
          hRow', hId'.trans hId, hName'.trans hName⟩

variable
  (hFinishes :
    FinishesExecuted platform files call schema)

include hFinishes

theorem Reading.Sound.kept
    {reading : Reading}
    (hSound : reading.Sound platform schema)
    (hDone :
      ∀ migration ∈ reading.done,
        migration ∈ files.inOrder) :
    reading.Sound platform schema' := by
  intro hNoFailure migration hMem
  exact
    (hSound hNoFailure migration hMem).kept hKeeps hFinishes
      (hDone migration hMem)

/- Knowledge is kept by the calls of others. -/
theorem MigrationPhase.Knows.kept
    {phase : MigrationPhase}
    (hKnows : phase.Knows platform schema)
    (hDone :
      ∀ reading ∈ phase.reading?,
        ∀ migration ∈ reading.done,
          migration ∈ files.inOrder) :
    phase.Knows platform schema' := by
  cases phase with
  | between reading =>
      exact
        Reading.Sound.kept hKeeps hFinishes hKnows
          (hDone reading rfl)
  | amid reading id? migration left =>
      exact
        ⟨Reading.Sound.kept hKeeps hFinishes hKnows.1
            (hDone reading rfl),
          hKnows.2.kept hKeeps⟩
  | _ => trivial

end Call

/- A statement that is executed is no longer left. -/
theorem Progress.execute
    {id? : Option String}
    {migration : Migration}
    {statement : String}
    {left : List String}
    {tick : Tick}
    {answer : Unit}
    (hProgress :
      Progress platform schema id? migration
        (statement :: left))
    (hCall :
      (SchemaOp.executeStatement statement).exec platform
        tick schema = .ok (answer, schema')) :
    Progress platform schema' id? migration left := by
  have hExecuted := (SchemaOp.exec_executeStatement hCall).1
  have hRan :
      ∀ {ran : List String}, ran.Sublist schema.executed →
        (ran ++ [statement]).Sublist schema'.executed := by
    intro ran hSublist
    rw [hExecuted]
    exact hSublist.append (List.Sublist.refl _)
  have hKept := hProgress.kept (SchemaOp.exec_rows hCall)
  cases id? with
  | none =>
      rcases hProgress with ⟨ran, hSublist, hAll⟩
      exact ⟨ran ++ [statement], hRan hSublist, by simpa⟩
  | some id =>
      rcases hProgress with ⟨⟨ran, hSublist, hAll⟩, _⟩
      exact
        ⟨⟨ran ++ [statement], hRan hSublist, by simpa⟩,
          hKept.2⟩

/- A migration that is covered may be put behind. -/
theorem Reading.Sound.past
    {reading : Reading}
    {migration : Migration}
    (hSound : reading.Sound platform schema)
    (hCovered : Covered platform schema migration) :
    (reading.past reading.sound migration).Sound platform
      schema := by
  intro hNoFailure earlier hEarlier
  rcases List.mem_append.mp hEarlier with hDone | hLast
  · exact hSound hNoFailure earlier hDone
  · rw [List.mem_singleton.mp hLast]
    exact hCovered

/- The migrations behind a reader are migrations. -/
theorem MigrationJob.Owns.done_mem
    {env : Environment}
    {job : MigrationJob}
    {phase : MigrationPhase}
    (hOwns : job.Owns platform env files phase) :
    ∀ reading ∈ phase.reading?,
      ∀ migration ∈ reading.done,
        migration ∈ files.inOrder := by
  intro reading hReading migration hMem
  cases phase with
  | between reading =>
      cases hReading
      rw [← hOwns.between _ rfl]
      exact List.mem_append_left _ hMem
  | amid reading id? current left =>
      cases hReading
      rw [← hOwns.amid _ _ _ _ rfl]
      exact List.mem_append_left _ hMem
  | _ => cases hReading

end OrderApi

------------------------------------------------------------
-- Conditions on Runs
------------------------------------------------------------

namespace OrderApi

/- The thread that makes a step. -/
def threadOf? (t : MigrationStep) : Option Nat :=
  match t.label with
  | .start _ => none
  | .resume index _ => some index

/- The call of a thread, and whether it succeeds. -/
def callOf?
    (platform : Platform)
    (index : Nat)
    (t : MigrationStep) : Option (TenancyOp × Bool) :=
  if threadOf? t = some index then
    t.call?.map fun (op, choice) =>
      (op, (op.exec platform choice t.before.store).1.isOk)
  else
    none

/-
  A statement of the thread has failed since the thread last
  connected to a tenant database.
-/
def brokeOff
    (platform : Platform)
    (index : Nat) : List MigrationStep → Bool
| [] => false
| t :: history =>
    match callOf? platform index t with
    | some (.tenantClient _ .connect, _) => false
    | some (.tenantClient _ (.executeStatement _), false) =>
        true
    | _ => brokeOff platform index history

/- The thread logs a migration as applied. -/
def logsApplied
    (platform : Platform)
    (index : Nat)
    (t : MigrationStep) : Bool :=
  match callOf? platform index t with
  | some (.tenantClient _ (.insertApplied _ _), ok) => ok
  | _ => false

/-
  No run of `migrateAllTenants` logs a migration behind one
  of which a statement has failed in it.
-/
def KeepsOrder (platform : Platform) :
    List MigrationStep → Prop
| [] => True
| t :: history =>
    (∀ index ∈ threadOf? t,
      logsApplied platform index t = true →
        brokeOff platform index history = false) ∧
      KeepsOrder platform history

instance decidableKeepsOrder (platform : Platform) :
    (history : List MigrationStep) →
      Decidable (KeepsOrder platform history)
| [] => inferInstanceAs (Decidable True)
| _ :: history =>
    have := decidableKeepsOrder platform history
    inferInstanceAs (Decidable (_ ∧ _))

/- Every database is provisioned by one job at most. -/
def ProvisionedOnce
    (platform : Platform)
    (env : Environment)
    (world : MigrationWorld) : Prop :=
  (world.threads.filterMap fun thread =>
    thread.job.provisions? platform env).Nodup

instance
    (platform : Platform)
    (env : Environment)
    (world : MigrationWorld) :
    Decidable (ProvisionedOnce platform env world) :=
  inferInstanceAs (Decidable (List.Nodup _))

/- Elements that a nodup image keeps apart. -/
theorem index_eq_of_nodup_filterMap
    {α β : Type}
    {f : α → Option β}
    {items : List α}
    (hNodup : (items.filterMap f).Nodup)
    {i j : Nat}
    {a b : α}
    {c : β}
    (hAt : items[i]? = some a)
    (hAt' : items[j]? = some b)
    (hImage : f a = some c)
    (hImage' : f b = some c) :
    i = j := by
  induction items generalizing i j with
  | nil => simp at hAt
  | cons item items ih =>
      have hMem :
          ∀ {k : Nat} {x : α}, items[k]? = some x →
            f x = some c → c ∈ items.filterMap f := by
        intro k x hAtRest hRest
        exact
          List.mem_filterMap.mpr
            ⟨x, List.mem_of_getElem? hAtRest, hRest⟩
      have hTail : (items.filterMap f).Nodup := by
        cases hItem : f item with
        | none => simpa [hItem] using hNodup
        | some d =>
            rw [List.filterMap_cons_some hItem] at hNodup
            exact (List.nodup_cons.mp hNodup).2
      have hHead :
          f item = some c → c ∉ items.filterMap f := by
        intro hItem
        rw [List.filterMap_cons_some hItem] at hNodup
        exact (List.nodup_cons.mp hNodup).1
      cases i with
      | zero =>
          cases hAt
          cases j with
          | zero => rfl
          | succ j =>
              exact (hHead hImage (hMem hAt' hImage')).elim
      | succ i =>
          cases j with
          | zero =>
              cases hAt'
              exact (hHead hImage' (hMem hAt hImage)).elim
          | succ j => rw [ih hTail hAt hAt']

theorem ProvisionedOnce.eq
    {platform : Platform}
    {env : Environment}
    {world : MigrationWorld}
    (hOnce : ProvisionedOnce platform env world)
    {i j : Nat}
    {thread thread' :
      Thread MigrationJob TenancyOp TenancyOp.Res ApiError}
    {name : String}
    (hThread : world.threads[i]? = some thread)
    (hThread' : world.threads[j]? = some thread')
    (hName :
      thread.job.provisions? platform env = some name)
    (hName' :
      thread'.job.provisions? platform env = some name) :
    i = j :=
  index_eq_of_nodup_filterMap hOnce hThread hThread' hName
    hName'

end OrderApi

------------------------------------------------------------
-- The Invariant
------------------------------------------------------------

namespace OrderApi

/-
  A database exists, or it was created for a job that does
  not create it again.
-/
def Claimed
    (platform : Platform)
    (env : Environment)
    (world : MigrationWorld)
    (phases : List MigrationPhase)
    (name : String) : Prop :=
  world.store.databases name ≠ none ∨
    ∃ (i : Nat) (thread : Thread MigrationJob TenancyOp
        TenancyOp.Res ApiError) (phase : MigrationPhase),
      world.threads[i]? = some thread ∧
        phases[i]? = some phase ∧
        thread.job.provisions? platform env = some name ∧
        phase.opens = false

/-
  Logs are covered, runners know what they have done, and
  the databases they work in are not created once more.
-/
structure LogTruth
    (platform : Platform)
    (env : Environment)
    (files : MigrationFiles)
    (history : List MigrationStep)
    (world : MigrationWorld)
    (phases : List MigrationPhase) : Prop where
  logs :
    ∀ name schema,
      world.store.databases name = some schema →
        CoveredLog platform files schema
  knows :
    ∀ phase ∈ phases, ∀ reading ∈ phase.reading?,
      ∀ name schema,
        platform.databaseOf reading.url = some name →
          world.store.databases name = some schema →
          phase.Knows platform schema
  claimed :
    ∀ phase ∈ phases, ∀ reading ∈ phase.reading?,
      ∀ name,
        platform.databaseOf reading.url = some name →
          Claimed platform env world phases name
  sound :
    ∀ (i : Nat) phase, phases[i]? = some phase →
      ∀ reading ∈ phase.reading?,
        reading.sound = !brokeOff platform i history

variable {platform : Platform} {env : Environment}
variable {files : MigrationFiles}
variable {phase phase' : MigrationPhase}
variable {op : TenancyOp}
variable {answer : Except ApiError op.Res}

/- Once a job has opened its database, it stays so. -/
theorem MigrationPhase.Moves.opens_eq
    (hMoves : Moves platform files phase op answer phase')
    (hOpens : phase.opens = false) :
    phase'.opens = false := by
  cases hMoves with
  | stay hApart => exact hOpens
  | _ => rfl

/- A reader stays in its database, or has connected. -/
theorem MigrationPhase.Moves.reading?_cases
    (hMoves : Moves platform files phase op answer phase')
    {reading' : Reading}
    (hReading : phase'.reading? = some reading') :
    (∃ reading ∈ phase.reading?,
      reading.url = reading'.url) ∨
    (op = .tenantClient reading'.url .connect ∧
      ∀ error, answer ≠ .error error) := by
  cases hMoves with
  | stay hApart =>
      exact Or.inl ⟨reading', hReading, rfl⟩
  | stop => cases hReading
  | create => cases hReading
  | drop => cases hReading
  | connect =>
      cases hReading
      exact Or.inr ⟨rfl, by simp⟩
  | found hIds =>
      cases hReading
      exact Or.inl ⟨_, rfl, rfl⟩
  | begin =>
      cases hReading
      exact Or.inl ⟨_, rfl, rfl⟩
  | log =>
      cases hReading
      exact Or.inl ⟨_, rfl, rfl⟩
  | execute =>
      cases hReading
      exact Or.inl ⟨_, rfl, rfl⟩
  | breakOff =>
      cases hReading
      exact Or.inl ⟨_, rfl, rfl⟩
  | logApplied =>
      cases hReading
      exact Or.inl ⟨_, rfl, rfl⟩
  | finish =>
      cases hReading
      exact Or.inl ⟨_, rfl, rfl⟩

/- Only a job that has yet to open creates, and as told. -/
theorem MigrationPhase.Moves.of_create
    {name : String}
    (hMoves : Moves platform files phase op answer phase')
    (hOp : op = .createDatabase name)
    (hOk : ∀ error, answer ≠ .error error) :
    phase = opening name := by
  subst hOp
  cases hMoves with
  | stay hApart => cases hApart
  | stop => exact (hOk _ rfl).elim
  | create => rfl

/- Only a job that has opened its database drops it. -/
theorem MigrationPhase.Moves.of_drop
    {name : String}
    (hMoves : Moves platform files phase op answer phase')
    (hOp : op = .dropDatabase name)
    (hOk : ∀ error, answer ≠ .error error) :
    phase'.opens = false ∧ phase.drops? = some name := by
  subst hOp
  cases hMoves with
  | stay hApart => cases hApart
  | stop => exact (hOk _ rfl).elim
  | drop => exact ⟨rfl, rfl⟩

end OrderApi

------------------------------------------------------------
-- One Step
------------------------------------------------------------

namespace OrderApi

variable {platform : Platform} {env : Environment}
variable {files : MigrationFiles}
variable {history : List MigrationStep} {t : MigrationStep}
variable {phases : List MigrationPhase}
variable {phase phase' : MigrationPhase}
variable {index : Nat} {job : MigrationJob}
variable {op : TenancyOp} {choice : Choice}
variable {answer : Except ApiError op.Res}

section Resume

variable
  {goOn :
    Except ApiError op.Res →
      Program TenancyOp TenancyOp.Res ApiError Unit}
  (hScript :
    PoolSystem.OnScript (migrationScript platform env files)
      t.before.threads phases)
  (hInv :
    LogTruth platform env files history t.before phases)
  (hThread :
    t.before.threads[index]? = some ⟨job, .call op goOn⟩)
  (hPhase : phases[index]? = some phase)
  (hOwns : job.Owns platform env files phase)
  (hMoves : phase.Moves platform files op answer phase')
  (hExec :
    op.exec platform choice t.before.store =
      (answer, t.after.store))

include hInv hPhase in
/- What the thread knows about the database that it uses. -/
theorem LogTruth.knows_own
    {reading : Reading}
    (hReading : phase.reading? = some reading)
    {name : String}
    {schema : TenantSchema}
    (hUrl : platform.databaseOf reading.url = some name)
    (hSchema : t.before.store.databases name = some schema) :
    phase.Knows platform schema :=
  hInv.knows phase (List.mem_of_getElem? hPhase) reading
    hReading name schema hUrl hSchema

include hInv hPhase hOwns hMoves in
/- The thread finishes what it has executed. -/
theorem LogTruth.finishes
    {url name : String}
    {call : SchemaOp}
    {schema : TenantSchema}
    (hOp : op = .tenantClient url call)
    (hOk : ∀ error, answer ≠ .error error)
    (hUrl : platform.databaseOf url = some name)
    (hSchema : t.before.store.databases name = some schema) :
    FinishesExecuted platform files call schema := by
  rintro id count rfl migration hMem row hRow rfl hName
  subst hOp
  cases hMoves with
  | stay hApart => cases hApart
  | stop => exact (hOk _ rfl).elim
  | @finish reading _ current =>
      have hKnows :=
        hInv.knows_own hPhase rfl hUrl hSchema
      have hExecuted := hKnows.2.executed
      rcases hKnows.2 with ⟨_, own, hOwn, hId, hOwnName⟩
      have hRowOwn :=
        schema.eq_of_id_eq hRow hOwn hId.symm
      have hOrder := hOwns.amid _ _ _ _ rfl
      have hCurrent : current ∈ files.inOrder := by
        rw [← hOrder]
        exact
          List.mem_append_right _ List.mem_cons_self
      have hSame : migration = current := by
        apply files.eq_of_name_eq hMem hCurrent
        rw [← hName, hRowOwn, hOwnName]
      rw [hSame]
      exact hExecuted

/- Coverage up to a migration, by its place. -/
theorem covered_of_place
    {schema : TenantSchema}
    {done rest : List Migration}
    {current migration : Migration}
    (hOrder : done ++ current :: rest = files.inOrder)
    (hDone : ∀ earlier ∈ done, Covered platform schema earlier)
    (hCurrent : Covered platform schema current)
    (hMem : migration ∈ files.inOrder)
    (hName : current.name = migration.name) :
    ∀ earlier ∈ migration :: files.before migration.name,
      Covered platform schema earlier := by
  have hHere : current ∈ files.inOrder := by
    rw [← hOrder]
    exact List.mem_append_right _ List.mem_cons_self
  have hSame := files.eq_of_name_eq hHere hMem hName
  subst hSame
  rw [files.before_eq hOrder]
  exact List.forall_mem_cons.mpr ⟨hCurrent, hDone⟩

include hInv hPhase hOwns hMoves in
/- What the thread logs is covered up to its place. -/
theorem LogTruth.logs_new
    {url name : String}
    {call : SchemaOp}
    {tick : Tick}
    {schema schema' : TenantSchema}
    {result : call.Res}
    (hOp : op = .tenantClient url call)
    (hOk : ∀ error, answer ≠ .error error)
    (hUrl : platform.databaseOf url = some name)
    (hSchema : t.before.store.databases name = some schema)
    (hCall :
      call.exec platform tick schema =
        .ok (result, schema'))
    (hOrderly :
      (∃ name count, call = .insertApplied name count) →
        brokeOff platform index history = false) :
    ∀ migration ∈ files.inOrder,
      call.logs? = some migration.name →
        ∀ earlier ∈ migration :: files.before migration.name,
          Covered platform schema' earlier := by
  intro migration hMem hLogs
  have hKeeps := SchemaOp.exec_rows hCall
  have hFinishes :=
    hInv.finishes hPhase hOwns hMoves hOp hOk hUrl hSchema
  subst hOp
  cases hMoves with
  | stay hApart =>
      cases call with
      | insertMigration logged checksum => cases hApart
      | insertApplied logged count => cases hApart
      | _ => cases hLogs
  | stop => exact (hOk _ rfl).elim
  | connect => cases hLogs
  | found hIds => cases hLogs
  | begin => cases hLogs
  | execute => cases hLogs
  | finish => cases hLogs
  | breakOff => exact (hOk _ rfl).elim
  | @log drops _ checksum id done rest current =>
      rcases TenantSchema.rows_of_log? hCall with
        ⟨_, _, hRows⟩
      have hKnows :=
        hInv.knows_own hPhase rfl hUrl hSchema
      have hSound :=
        Reading.Sound.kept hKeeps hFinishes hKnows
          (hOwns.done_mem _ rfl)
      have hCurrent : Covered platform schema' current := by
        apply Or.inr
        rw [hRows]
        exact
          ⟨_, List.mem_append_right _ List.mem_cons_self,
            rfl, rfl⟩
      exact
        covered_of_place (hOwns.between _ rfl) (hSound rfl)
          hCurrent hMem (Option.some.inj hLogs)
  | @logApplied reading current count =>
      have hKnows :=
        hInv.knows_own hPhase rfl hUrl hSchema
      have hSound :=
        Reading.Sound.kept hKeeps hFinishes hKnows.1
          (hOwns.done_mem _ rfl)
      have hNoFailure : reading.sound = true := by
        rw [hInv.sound index _ hPhase reading rfl,
          hOrderly ⟨_, _, rfl⟩]
        rfl
      have hCurrent : Covered platform schema' current :=
        Or.inl (hKnows.2.kept hKeeps).executed
      exact
        covered_of_place (hOwns.amid _ _ _ _ rfl)
          (hSound hNoFailure) hCurrent hMem
          (Option.some.inj hLogs)

variable
  (hOnce : ProvisionedOnce platform env t.before)

include hInv hThread hPhase hOwns hMoves hOnce in
/- A database that is created is one that nobody reads. -/
theorem LogTruth.not_created
    {name : String}
    (hOp : op = .createDatabase name)
    (hOk : ∀ error, answer ≠ .error error)
    (hNone : t.before.store.databases name = none)
    {q : MigrationPhase}
    (hMem : q ∈ phases)
    {reading : Reading}
    (hReading : q.reading? = some reading) :
    platform.databaseOf reading.url ≠ some name := by
  intro hUrl
  have hOpening := hMoves.of_create hOp hOk
  have hProvisions :
      job.provisions? platform env = some name := by
    apply hOwns.drops
    rw [hOpening]
    rfl
  rcases hInv.claimed q hMem reading hReading name hUrl with
    hExists | ⟨i, thread, qi, hThreadAt, hPhaseAt, hName,
      hOpened⟩
  · exact hExists hNone
  · have hSame :=
      hOnce.eq hThreadAt hThread hName hProvisions
    subst hSame
    rw [hPhase] at hPhaseAt
    cases hPhaseAt
    rw [hOpening] at hOpened
    cases hOpened

include hScript hInv hThread hPhase hOwns hMoves hExec hOnce in
/- No call takes from what is known in a phase. -/
theorem LogTruth.knows_kept
    {q : MigrationPhase}
    (hMem : q ∈ phases)
    {reading : Reading}
    (hReading : q.reading? = some reading)
    {name : String}
    {schema' : TenantSchema}
    (hUrl : platform.databaseOf reading.url = some name)
    (hSchema' :
      t.after.store.databases name = some schema') :
    q.Knows platform schema' := by
  rcases TenancyOp.exec_database_cases hExec name with
    hSame | ⟨hOp, hOk, hNone, _⟩ | ⟨_, _, hGone⟩ |
      ⟨url, call, tick, schema, schema'', result, hOp, hOk,
        hUsed, hSchema, hCall, hAfter⟩
  · rw [hSame] at hSchema'
    exact
      hInv.knows q hMem reading hReading name schema' hUrl
        hSchema'
  · exact
      (hInv.not_created hThread hPhase hOwns hMoves hOnce
        hOp hOk hNone hMem hReading hUrl).elim
  · rw [hGone] at hSchema'
    cases hSchema'
  · rw [hAfter] at hSchema'
    cases hSchema'
    have hKnows :=
      hInv.knows q hMem reading hReading name schema hUrl
        hSchema
    rcases List.getElem?_of_mem hMem with ⟨i, hPhaseAt⟩
    rcases hScript.job_of_phase hPhaseAt with
      ⟨_, hOwnsAt⟩
    exact
      hKnows.kept (SchemaOp.exec_rows hCall)
        (hInv.finishes hPhase hOwns hMoves hOp hOk hUsed
          hSchema)
        (MigrationJob.Owns.done_mem hOwnsAt)

include hScript hInv hThread hPhase hOwns hMoves hExec hOnce in
/- What the thread knows in its next phase. -/
theorem LogTruth.knows_next
    {reading : Reading}
    (hReading : phase'.reading? = some reading)
    {name : String}
    {schema' : TenantSchema}
    (hUrl : platform.databaseOf reading.url = some name)
    (hSchema' :
      t.after.store.databases name = some schema') :
    phase'.Knows platform schema' := by
  have hKept :
      ∀ old, phase.reading? = some old →
        platform.databaseOf old.url = some name →
          phase.Knows platform schema' :=
    fun old hOld hUsed =>
      hInv.knows_kept hScript hThread hPhase hOwns hMoves
        hExec hOnce (List.mem_of_getElem? hPhase) hOld hUsed
        hSchema'
  cases hMoves with
  | stay hApart => exact hKept _ hReading hUrl
  | stop => cases hReading
  | create => cases hReading
  | drop => cases hReading
  | connect => exact fun _ _ hMem => nomatch hMem
  | @found drops url sound done rest migration ids hIds =>
      cases hReading
      rcases
          TenancyOp.exec_tenantClient_at hExec hUrl
            hSchema' with
        ⟨tick, schema, hSchema, hCall⟩
      have hFound := SchemaOp.exec_findMigrations hCall
      have hLogged : migration.name ∈ schema.logged := by
        by_contra hFresh
        exact hIds (hFound.2 hFresh)
      rw [schema.logged_eq] at hLogged
      rcases List.mem_map.mp hLogged with
        ⟨row, hRow, hName⟩
      have hMem : migration ∈ files.inOrder := by
        rw [← hOwns.between _ rfl]
        exact
          List.mem_append_right _ List.mem_cons_self
      have hCovered : Covered platform schema' migration := by
        rw [hFound.1]
        exact
          hInv.logs name schema hSchema row hRow migration
            hMem hName migration List.mem_cons_self
      have hSound :
          Reading.Sound platform schema'
            ⟨drops, url, sound, done, migration :: rest⟩ :=
        hKept _ rfl hUrl
      exact hSound.past hCovered
  | begin =>
      cases hReading
      exact ⟨hKept _ rfl hUrl, [], List.nil_sublist _, rfl⟩
  | @log drops url checksum id done rest migration =>
      cases hReading
      rcases
          TenancyOp.exec_tenantClient_at hExec hUrl
            hSchema' with
        ⟨tick, schema, hSchema, hCall⟩
      rcases TenantSchema.rows_of_log? hCall with
        ⟨hId, _, hRows⟩
      refine
        ⟨hKept _ rfl hUrl,
          ⟨[], List.nil_sublist _, rfl⟩, _, ?_, hId.symm,
          rfl⟩
      rw [hRows]
      exact List.mem_append_right _ List.mem_cons_self
  | @execute reading id? migration statement left result =>
      cases hReading
      rcases
          TenancyOp.exec_tenantClient_at hExec hUrl
            hSchema' with
        ⟨tick, schema, hSchema, hCall⟩
      have hBefore :
          Progress platform schema id? migration
            (statement :: left) :=
        (hInv.knows_own hPhase rfl hUrl hSchema).2
      exact
        ⟨(hKept _ rfl hUrl).1,
          hBefore.execute hCall⟩
  | breakOff =>
      cases hReading
      intro hSound
      cases hSound
  | logApplied =>
      cases hReading
      have hKnows := hKept _ rfl hUrl
      exact
        hKnows.1.past (Or.inl hKnows.2.executed)
  | finish =>
      cases hReading
      have hKnows := hKept _ rfl hUrl
      exact
        hKnows.1.past (Or.inl hKnows.2.executed)

variable
  (hThreads :
    t.after.threads =
      t.before.threads.set index ⟨job, goOn answer⟩)

include hThread hPhase hOwns hMoves hExec hThreads in
/- A claimed database stays so. -/
theorem Claimed.next
    {name : String}
    (hClaimed :
      Claimed platform env t.before phases name) :
    Claimed platform env t.after
      (phases.set index phase') name := by
  have hLessThread : index < t.before.threads.length :=
    (List.getElem?_eq_some_iff.mp hThread).1
  have hLessPhase : index < phases.length :=
    (List.getElem?_eq_some_iff.mp hPhase).1
  have hOwn :
      job.provisions? platform env = some name →
        phase'.opens = false →
        Claimed platform env t.after
          (phases.set index phase') name := by
    intro hName hOpened
    refine
      Or.inr
        ⟨index, ⟨job, goOn answer⟩, phase', ?_, ?_, hName,
          hOpened⟩
    · rw [hThreads, List.getElem?_set_self hLessThread]
    · rw [List.getElem?_set_self hLessPhase]
  rcases hClaimed with
    hExists | ⟨i, thread, q, hThreadAt, hPhaseAt, hName,
      hOpened⟩
  · rcases TenancyOp.exec_database_cases hExec name with
      hSame | ⟨_, _, _, hCreated⟩ | ⟨hOp, hOk, _⟩ |
        ⟨_, _, _, _, _, _, _, _, _, _, _, hAfter⟩
    · exact Or.inl (hSame ▸ hExists)
    · exact Or.inl (by simp [hCreated])
    · rcases hMoves.of_drop hOp hOk with ⟨hOpened, hDrops⟩
      exact hOwn (hOwns.drops name hDrops) hOpened
    · exact Or.inl (by simp [hAfter])
  · by_cases hHere : i = index
    · subst hHere
      rw [hThread] at hThreadAt
      rw [hPhase] at hPhaseAt
      cases hThreadAt
      cases hPhaseAt
      exact hOwn hName (hMoves.opens_eq hOpened)
    · refine
        Or.inr ⟨i, thread, q, ?_, ?_, hName, hOpened⟩
      · rw [hThreads, List.getElem?_set_ne (Ne.symm hHere)]
        exact hThreadAt
      · rw [List.getElem?_set_ne (Ne.symm hHere)]
        exact hPhaseAt

include hInv hThread hPhase hOwns hMoves hExec hThreads in
/- What the thread reads in its next phase is claimed. -/
theorem LogTruth.claimed_next
    {reading : Reading}
    (hReading : phase'.reading? = some reading)
    {name : String}
    (hUrl : platform.databaseOf reading.url = some name) :
    Claimed platform env t.after (phases.set index phase')
      name := by
  rcases hMoves.reading?_cases hReading with
    ⟨old, hOld, hSame⟩ | ⟨hOp, hOk⟩
  · have hClaimed :=
      hInv.claimed phase (List.mem_of_getElem? hPhase) old
        hOld name (hSame ▸ hUrl)
    exact
      hClaimed.next hThread hPhase hOwns hMoves hExec
        hThreads
  · subst hOp
    cases answer with
    | error error => exact (hOk error rfl).elim
    | ok result =>
        rcases TenancyOp.exec_tenantClient hExec with
          ⟨_, used, _, schema', hUsed, _, _, hAfter⟩
        rw [hUrl] at hUsed
        cases hUsed
        apply Or.inl
        rw [hAfter, Registry.put_databases_same]
        simp

variable
  (hLabel : t.label = .resume index choice)

include hThread hExec hLabel in
/- The call of the thread that makes the step. -/
theorem callOf?_own :
    callOf? platform index t = some (op, answer.isOk) := by
  have hCall : t.call? = some (op, choice) := by
    rcases t with ⟨pool, label, pool'⟩
    cases hLabel
    exact Transition.call?_resume hThread
  simp [callOf?, threadOf?, hLabel, hCall, hExec]

include hLabel in
/- Other threads make no call. -/
theorem callOf?_other
    {i : Nat}
    (hOther : i ≠ index) :
    callOf? platform i t = none := by
  simp [callOf?, threadOf?, hLabel, Ne.symm hOther]

include hInv hThread hPhase hMoves hExec hLabel in
/- The thread tells whether a statement has failed. -/
theorem LogTruth.sound_next
    {reading : Reading}
    (hReading : phase'.reading? = some reading) :
    reading.sound =
      !brokeOff platform index (t :: history) := by
  have hOwn := callOf?_own hThread hExec hLabel
  have hSound :
      ∀ old, phase.reading? = some old →
        old.sound = !brokeOff platform index history :=
    fun old hOld => hInv.sound index phase hPhase old hOld
  rw [brokeOff, hOwn]
  cases hMoves with
  | stay hApart =>
      have hOld := hSound reading hReading
      cases op with
      | tenantClient url call =>
          cases call with
          | connect => cases hApart
          | executeStatement statement => cases hApart
          | _ => exact hOld
      | _ => exact hOld
  | stop => cases hReading
  | create => cases hReading
  | drop => cases hReading
  | connect =>
      cases hReading
      rfl
  | found hIds =>
      cases hReading
      have hOld := hSound _ rfl
      exact hOld
  | begin =>
      cases hReading
      have hOld := hSound _ rfl
      exact hOld
  | log =>
      cases hReading
      have hOld := hSound _ rfl
      exact hOld
  | execute =>
      cases hReading
      have hOld := hSound _ rfl
      exact hOld
  | breakOff =>
      cases hReading
      rfl
  | logApplied =>
      cases hReading
      have hOld := hSound _ rfl
      exact hOld
  | finish =>
      cases hReading
      have hOld := hSound _ rfl
      exact hOld

include hInv hThread hPhase hOwns hMoves hExec hLabel in
/- Logs stay covered. -/
theorem LogTruth.logs_next
    (hOrder : KeepsOrder platform (t :: history))
    {name : String}
    {schema' : TenantSchema}
    (hSchema' :
      t.after.store.databases name = some schema') :
    CoveredLog platform files schema' := by
  rcases TenancyOp.exec_database_cases hExec name with
    hSame | ⟨_, _, _, hCreated⟩ | ⟨_, _, hGone⟩ |
      ⟨url, call, tick, schema, schema'', result, hOp, hOk,
        hUrl, hSchema, hCall, hAfter⟩
  · rw [hSame] at hSchema'
    exact hInv.logs name schema' hSchema'
  · rw [hCreated] at hSchema'
    cases hSchema'
    intro row hRow
    cases hRow
  · rw [hGone] at hSchema'
    cases hSchema'
  · rw [hAfter] at hSchema'
    cases hSchema'
    have hOrderly :
        (∃ name count, call = .insertApplied name count) →
          brokeOff platform index history = false := by
      rintro ⟨logged, count, rfl⟩
      have hOwn := callOf?_own hThread hExec hLabel
      have hIsOk : answer.isOk = true := by
        cases answer with
        | ok result => rfl
        | error error => exact (hOk error rfl).elim
      subst hOp
      apply hOrder.1 index (by simp [threadOf?, hLabel])
      rw [logsApplied, hOwn, hIsOk]
    exact
      CoveredLog.kept (SchemaOp.exec_rows hCall)
        (hInv.finishes hPhase hOwns hMoves hOp hOk hUrl
          hSchema)
        (hInv.logs name schema hSchema)
        (hInv.logs_new hPhase hOwns hMoves hOp hOk hUrl
          hSchema hCall hOrderly)

include hScript hInv hThread hPhase hOwns hMoves hExec hOnce
include hThreads hLabel in
/- An allowed call preserves the invariant. -/
theorem LogTruth.resume
    (hOrder : KeepsOrder platform (t :: history)) :
    LogTruth platform env files (t :: history) t.after
      (phases.set index phase') := by
  constructor
  · intro name schema' hSchema'
    exact
      hInv.logs_next hThread hPhase hOwns hMoves hExec
        hLabel hOrder hSchema'
  · intro q hMem reading hReading name schema' hUrl hSchema'
    rcases List.mem_or_eq_of_mem_set hMem with hOld | rfl
    · exact
        hInv.knows_kept hScript hThread hPhase hOwns hMoves
          hExec hOnce hOld hReading hUrl hSchema'
    · exact
        hInv.knows_next hScript hThread hPhase hOwns hMoves
          hExec hOnce hReading hUrl hSchema'
  · intro q hMem reading hReading name hUrl
    rcases List.mem_or_eq_of_mem_set hMem with hOld | rfl
    · have hClaimed :=
        hInv.claimed q hOld reading hReading name hUrl
      exact
        hClaimed.next hThread hPhase hOwns hMoves hExec
          hThreads
    · exact
        hInv.claimed_next hThread hPhase hOwns hMoves hExec
          hThreads hReading hUrl
  · intro i q hPhaseAt reading hReading
    rcases getElem?_set_cases hPhaseAt with
      ⟨rfl, rfl⟩ | ⟨hOther, hOld⟩
    · exact
        hInv.sound_next hThread hPhase hMoves hExec hLabel
          hReading
    · rw [brokeOff, callOf?_other hLabel hOther]
      exact hInv.sound i q hOld reading hReading

end Resume

end OrderApi

------------------------------------------------------------
-- All Runs
------------------------------------------------------------

namespace OrderApi

/- No migration is logged in any database yet. -/
def Registry.Unlogged (store : Registry) : Prop :=
  ∀ name schema,
    store.databases name = some schema → schema.logged = []

/- A database without logged migrations has no rows. -/
theorem TenantSchema.rows_eq_nil
    {schema : TenantSchema}
    (hLogged : schema.logged = []) :
    schema.rows = [] := by
  rw [schema.logged_eq, List.map_eq_nil_iff] at hLogged
  exact hLogged

variable {platform : Platform} {env : Environment}
variable {files : MigrationFiles}

/- The invariant holds where nothing runs. -/
theorem LogTruth.idle
    {store : Registry}
    (hUnlogged : store.Unlogged) :
    LogTruth platform env files []
      (PoolSystem.idle store) [] where
  logs := by
    intro name schema hSchema row hRow
    rw [schema.rows_eq_nil (hUnlogged name schema hSchema)]
      at hRow
    cases hRow
  knows := by simp
  claimed := by simp
  sound := by simp

/- A job that has just started has read nothing. -/
theorem MigrationJob.reading?_phase (job : MigrationJob) :
    (job.phase platform env).reading? = none := by
  unfold MigrationJob.phase
  cases job.provisions? platform env with
  | none => rfl
  | some name => rfl

/- A start preserves the invariant. -/
theorem LogTruth.start_job
    {history : List MigrationStep}
    {t : MigrationStep}
    {phases : List MigrationPhase}
    {job : MigrationJob}
    {thread :
      Thread MigrationJob TenancyOp TenancyOp.Res ApiError}
    (hInv :
      LogTruth platform env files history t.before phases)
    (hLabel : t.label = .start job)
    (hStore : t.after.store = t.before.store)
    (hThreads :
      t.after.threads = t.before.threads ++ [thread]) :
    LogTruth platform env files (t :: history) t.after
      (phases ++ [job.phase platform env]) := by
  have hNoCall : ∀ i, callOf? platform i t = none := by
    intro i
    simp [callOf?, threadOf?, hLabel]
  have hOld :
      ∀ {q reading},
        q ∈ phases ++ [job.phase platform env] →
          q.reading? = some reading → q ∈ phases := by
    intro q reading hMem hReading
    rcases List.mem_append.mp hMem with hMem | hNew
    · exact hMem
    · rw [List.mem_singleton.mp hNew,
        job.reading?_phase] at hReading
      cases hReading
  constructor
  · rw [hStore]
    exact hInv.logs
  · intro q hMem reading hReading
    rw [hStore]
    exact
      hInv.knows q (hOld hMem hReading) reading hReading
  · intro q hMem reading hReading name hUrl
    rcases
        hInv.claimed q (hOld hMem hReading) reading hReading
          name hUrl with
      hExists | ⟨i, at', qi, hThreadAt, hPhaseAt, hName,
        hOpened⟩
    · exact Or.inl (hStore ▸ hExists)
    · refine
        Or.inr ⟨i, at', qi, ?_, ?_, hName, hOpened⟩
      · have hLess :=
          (List.getElem?_eq_some_iff.mp hThreadAt).1
        rw [hThreads, List.getElem?_append_left hLess]
        exact hThreadAt
      · have hLess :=
          (List.getElem?_eq_some_iff.mp hPhaseAt).1
        rw [List.getElem?_append_left hLess]
        exact hPhaseAt
  · intro i q hPhaseAt reading hReading
    rw [brokeOff, hNoCall]
    rcases getElem?_append_cases hPhaseAt with
      ⟨_, rfl⟩ | hPhaseOld
    · rw [job.reading?_phase] at hReading
      cases hReading
    · exact hInv.sound i q hPhaseOld reading hReading

/- The jobs of the threads are never forgotten. -/
theorem ProvisionedOnce.of_start
    {world : MigrationWorld}
    {store : Registry}
    {thread :
      Thread MigrationJob TenancyOp TenancyOp.Res ApiError}
    (hOnce :
      ProvisionedOnce platform env
        ⟨store, world.threads ++ [thread]⟩) :
    ProvisionedOnce platform env world := by
  unfold ProvisionedOnce at hOnce ⊢
  rw [List.filterMap_append] at hOnce
  exact hOnce.of_append_left

theorem ProvisionedOnce.of_resume
    {world : MigrationWorld}
    {store : Registry}
    {index : Nat}
    {thread thread' :
      Thread MigrationJob TenancyOp TenancyOp.Res ApiError}
    (hThread : world.threads[index]? = some thread)
    (hOnce :
      ProvisionedOnce platform env
        ⟨store, world.threads.set index thread'⟩)
    (hJob : thread'.job = thread.job) :
    ProvisionedOnce platform env world := by
  have hJobs :
      (world.threads.set index thread').map Thread.job =
        world.threads.map Thread.job := by
    rcases List.getElem?_eq_some_iff.mp hThread with
      ⟨hLess, rfl⟩
    rw [List.map_set, hJob, ← List.getElem_map Thread.job]
    · exact List.set_getElem_self _
    · simpa using hLess
  have hSame :=
    congrArg
      (List.filterMap fun job : MigrationJob =>
        job.provisions? platform env) hJobs
  rw [List.filterMap_map, List.filterMap_map] at hSame
  unfold ProvisionedOnce at hOnce ⊢
  exact hSame ▸ hOnce

end OrderApi

------------------------------------------------------------
-- Releases
------------------------------------------------------------

namespace OrderApi

namespace Onboarding

/- Two migrations of one statement each. -/
def releases : MigrationFiles where
  dirs :=
    [("1_add_products",
      some "CREATE TABLE \"products\" ();\n"),
     ("2_add_orders",
      some "CREATE TABLE \"orders\" ();\n")]
  nodup := by simp

theorem deployed_unlogged : deployed.Unlogged := by
  intro name schema hSchema
  simp only [deployed] at hSchema
  split at hSchema
  · cases hSchema
    rfl
  · cases hSchema

/- A run of the releases that passes a check. -/
theorem exists_migrationRun
    (labels : List MigrationLabel)
    (check : List MigrationStep → MigrationWorld → Bool)
    (hReplay :
      (replay (migrationSystem platform env releases).step
          labels [] (PoolSystem.idle deployed)).any
        (fun run => check run.1 run.2) = true) :
    ∃ history world,
      MigrationRun platform env releases deployed history
          world ∧
        check history world = true :=
  Run.exists_of_replay labels check hReplay

/- The route that migrates all tenants. -/
def migrateAll : MigrationLabel :=
  .start
    (.migrateAllTenants
      (DatabaseManagerService.clientUrl platform env))

/- Answered calls of a thread, with ids drawn for them. -/
def answered (index : Nat) (ids : List String) :
    List MigrationLabel :=
  ids.map fun id => .resume index (.answer ⟨id, 0⟩)

/- A call of a thread that fails. -/
def failed (index : Nat) : MigrationLabel :=
  .resume index (.failure "ERROR: column contains nulls")

/- A tenant is enrolled, and its database provisioned. -/
def provisionAcme : List MigrationLabel :=
  [.start (.tenancy (admin "a" "acme"))] ++
    answered 0 ["", "", "a", ""] ++
    [.start
      (.tenancy (.handleDatabaseCreation ⟨"a", "acme"⟩))] ++
    answered 1
      ["", "", "", "", "", "", "1", "", "", "", "2", "", "",
        "", ""]

/- All tenants are migrated, and no call fails. -/
def migrateBoth (index : Nat) : List MigrationLabel :=
  [migrateAll] ++
    answered index
      ["", "", "", "", "", "1", "", "", "2", "", "", "", "",
        "", ""]

/- The first statement fails, and the second one does not. -/
def migratePastFailure : List MigrationLabel :=
  [migrateAll] ++ answered 0 ["", "", "", ""] ++
    [failed 0] ++ answered 0 ["", "", "2", ""]

end Onboarding

end OrderApi

------------------------------------------------------------
-- Truth in All Runs
------------------------------------------------------------

namespace OrderApi

variable {platform : Platform} {env : Environment}
variable {files : MigrationFiles}

/-
  In every run that provisions each database at most once,
  and in which no run of `migrateAllTenants` logs a
  migration behind a failed one: once the rows up to the
  place of a logged migration are finished, it and all that
  sort before it were executed.
-/
theorem log_tells_truth
    {start : Registry}
    {history : List MigrationStep}
    {world : MigrationWorld}
    {name : String}
    {schema : TenantSchema}
    {migration : Migration}
    (hUnlogged : start.Unlogged)
    (hRun :
      MigrationRun platform env files start history world)
    (hOnce : ProvisionedOnce platform env world)
    (hOrder : KeepsOrder platform history)
    (hSchema : world.store.databases name = some schema)
    (hMem : migration ∈ files.inOrder)
    (hLogged : migration.name ∈ schema.logged)
    (hFinished : FinishedUpTo files schema migration) :
    ∀ earlier ∈ migration :: files.before migration.name,
      earlier.Executed platform schema.executed := by
  have hInvariant :=
    PoolSystem.script_invariant
      (migrationSystem_performs platform env files)
      (fun _ => True)
      (fun history world phases =>
        ProvisionedOnce platform env world →
          KeepsOrder platform history →
          LogTruth platform env files history world phases)
      (fun _ _ => LogTruth.idle hUnlogged) ?_ ?_ hRun
      (fun _ _ => trivial)
  · rcases hInvariant with ⟨_, _, hInv⟩
    exact
      ((hInv hOnce hOrder).logs name schema hSchema).executed
        hMem hLogged hFinished
  · intro history pool phases job hInv hScript hReady pool' _
      hOnceAfter hOrderAfter
    let t : MigrationStep := ⟨pool, .start job, pool'⟩
    have hBefore :=
      hInv (ProvisionedOnce.of_start hOnceAfter) hOrderAfter.2
    exact LogTruth.start_job (t := t) hBefore rfl rfl rfl
  · intro history pool phases index choice job op goOn phase
      phase' hInv hScript hThread hPhase hOwns hMoves answer
      pool' _ hOnceAfter hOrderAfter
    let t : MigrationStep :=
      ⟨pool, .resume index choice, pool'⟩
    have hOnceBefore : ProvisionedOnce platform env pool :=
      ProvisionedOnce.of_resume hThread hOnceAfter rfl
    have hBefore := hInv hOnceBefore hOrderAfter.2
    have hExec :
        op.exec platform choice t.before.store =
          (answer.1, t.after.store) := rfl
    exact
      LogTruth.resume (t := t) hScript hBefore hThread hPhase
        hOwns hMoves hExec hOnceBefore rfl rfl hOrderAfter

end OrderApi

------------------------------------------------------------
-- Failures That Are Passed Over
------------------------------------------------------------

namespace OrderApi

/- Two tenants, both with all migrations in their log. -/
theorem log_tells_truth_of_releases :
    ∃ history world,
      MigrationRun Onboarding.platform Onboarding.env
          Onboarding.releases Onboarding.deployed history
          world ∧
        ∀ name ∈ ["tenant_acme", "tenant_bolt"],
          ∃ schema ∈ world.store.databases name,
            ∃ migration ∈ Onboarding.releases.inOrder,
              migration.name = "2_add_orders" ∧
                ∀ earlier ∈
                    migration ::
                      Onboarding.releases.before
                        migration.name,
                  earlier.Executed Onboarding.platform
                    schema.executed := by
  rcases
      Onboarding.exists_migrationRun
        (Onboarding.provisionAcme ++
          Onboarding.migrateBoth 2)
        (fun history world =>
          decide
              (ProvisionedOnce Onboarding.platform
                  Onboarding.env world ∧
                KeepsOrder Onboarding.platform history) &&
            ["tenant_acme", "tenant_bolt"].all fun name =>
              (world.store.databases name).any
                fun (schema : TenantSchema) => decide
                  (∃ migration ∈ Onboarding.releases.inOrder,
                    migration.name = "2_add_orders" ∧
                      migration.name ∈ schema.logged ∧
                      FinishedUpTo Onboarding.releases schema
                        migration))
        (by decide +kernel) with
    ⟨history, world, hRun, hCheck⟩
  rw [Bool.and_eq_true, List.all_eq_true] at hCheck
  rcases hCheck with ⟨hConditions, hTenants⟩
  rcases of_decide_eq_true hConditions with ⟨hOnce, hOrder⟩
  refine ⟨history, world, hRun, ?_⟩
  intro name hName
  rcases (Option.any_eq_true _ _).mp (hTenants name hName)
    with
    ⟨schema, hSchema, hLog⟩
  rcases of_decide_eq_true hLog with
    ⟨migration, hMem, hLast, hLogged, hFinished⟩
  exact
    ⟨schema, hSchema, migration, hMem, hLast,
      log_tells_truth Onboarding.deployed_unlogged hRun
        hOnce hOrder hSchema hMem hLogged hFinished⟩

/-
  A migration is logged behind one that has failed, so the
  log is not truthful.
-/
theorem not_truthfulLog :
    ¬ ∀ (env : Environment) (files : MigrationFiles)
        (start : Registry) (history : List MigrationStep)
        (world : MigrationWorld) (name : String)
        (schema : TenantSchema),
      start.Unlogged →
      MigrationRun Onboarding.platform env files start
        history world →
      ProvisionedOnce Onboarding.platform env world →
      world.store.databases name = some schema →
      TruthfulLog Onboarding.platform files schema := by
  intro hClaim
  rcases
      Onboarding.exists_migrationRun
        Onboarding.migratePastFailure
        (fun _ world =>
          decide
              (ProvisionedOnce Onboarding.platform
                Onboarding.env world) &&
            (world.store.databases "tenant_bolt").any
              fun schema =>
                decide
                  ¬ TruthfulLog Onboarding.platform
                    Onboarding.releases schema)
        (by decide +kernel) with
    ⟨history, world, hRun, hCheck⟩
  rw [Bool.and_eq_true, Option.any_eq_true] at hCheck
  rcases hCheck with ⟨hOnce, schema, hSchema, hLog⟩
  exact
    of_decide_eq_true hLog
      (hClaim Onboarding.env Onboarding.releases
        Onboarding.deployed history world "tenant_bolt"
        schema Onboarding.deployed_unlogged hRun
        (of_decide_eq_true hOnce) hSchema)

end OrderApi
