import OrderApi.System.MigrationChunks
import OrderApi.System.MigrationLog
import Mathlib.Algebra.GroupWithZero.Nat

/-
  The count of steps that the consumer records.

  The statements are the chunks of the file.  The count is
  taken of the pieces between semicolons, where a piece that
  begins with a comment is left out.  A chunk is counted
  together with the comment lines in front of it.

  Key definitions include:
    * `countedPieces`
    * `Chunk.counted`
    * `StepsBalance`
    * `RecordsSteps`

  Key theorems include:
    * `statementCount_eq_sum`
    * `statementCount_eq_length_iff`
    * `recordsSteps_iff_balance`
-/

------------------------------------------------------------
-- Counting Pieces
------------------------------------------------------------

namespace OrderApi

/- The pieces that do not begin with `--`. -/
def countedPieces (text : List Char) : Nat :=
  ((pieces ';' isJsSpace text).filter fun piece =>
    !"--".toList.isPrefixOf piece).length

section Pieces

variable {text front back : List Char}

/- The recorded count is the number of these pieces. -/
theorem statementCount_eq (migrationSQL : String) :
    statementCount migrationSQL =
      countedPieces migrationSQL.toList := by
  unfold statementCount countedPieces pieces nonempty
  rw [List.filter_filter, List.filter_map, List.length_map]
  congr 1
  apply List.filter_congr
  intro piece _
  rw [Function.comp_apply, ← trim_eq_strip, Bool.decide_and,
    Bool.and_comm, decide_not, Bool.decide_eq_true]

theorem countedPieces_append_sep
    (front back : List Char) :
    countedPieces (front ++ ';' :: back) =
      countedPieces front + countedPieces back := by
  unfold countedPieces
  rw [pieces_append_sep, List.filter_append,
    List.length_append]

theorem countedPieces_append_right
    (hBack : ∀ c ∈ back, isJsSpace c = true) :
    countedPieces (text ++ back) = countedPieces text := by
  unfold countedPieces
  rw [pieces_append_right (by decide) hBack]

theorem countedPieces_append_left
    (hFront : ∀ c ∈ front, isJsSpace c = true) :
    countedPieces (front ++ text) = countedPieces text := by
  unfold countedPieces
  rw [pieces_append_left]
  intro c hc
  exact isGap_of_blank c (hFront c hc)

/-
  A text that ends with a semicolon, blanks apart, is
  counted apart from what follows it.
-/
theorem countedPieces_append_ended
    {start blanks : List Char}
    (hText : text = start ++ ';' :: blanks)
    (hBlanks : ∀ c ∈ blanks, isJsSpace c = true)
    (back : List Char) :
    countedPieces (text ++ back) =
      countedPieces text + countedPieces back := by
  have hNone : countedPieces blanks = 0 := by
    rw [← List.nil_append blanks,
      countedPieces_append_right hBlanks]
    decide
  rw [hText, List.append_assoc, List.cons_append,
    countedPieces_append_sep, countedPieces_append_sep,
    countedPieces_append_left hBlanks, hNone, Nat.add_zero]

/- The last character of a text, blanks apart. -/
theorem exists_of_trim_getLast?
    {c : Char}
    (hLast : (trim text).getLast? = some c) :
    ∃ start blanks,
      text = start ++ c :: blanks ∧
        ∀ d ∈ blanks, isJsSpace d = true := by
  have hParts := parts_append isJsSpace text
  rw [trim_eq_strip] at hLast
  rcases List.getLast?_eq_some_iff.mp hLast with
    ⟨start, hStart⟩
  rw [hStart] at hParts
  refine
    ⟨text.takeWhile isJsSpace ++ start,
      (text.dropWhile isJsSpace).rtakeWhile isJsSpace,
      ?_, forall_mem_rtakeWhile⟩
  simpa using hParts.symm

end Pieces

end OrderApi

------------------------------------------------------------
-- Counting Chunks
------------------------------------------------------------

namespace OrderApi

/- What is counted for a statement and the gaps before it. -/
def Chunk.counted (chunk : Chunk (List Char)) : Nat :=
  countedPieces (linesText chunk.whole)

/- The statements for which nothing is counted. -/
def uncounted (chunks : List (Chunk (List Char))) : Nat :=
  chunks.countP fun chunk => chunk.counted = 0

/- What is counted for statements beyond one for each. -/
def surplus (chunks : List (Chunk (List Char))) : Nat :=
  (chunks.map fun chunk => chunk.counted - 1).sum

/-
  The statements of the file that are not counted are as
  many as the pieces that are counted beyond one for each
  statement, those behind the last statement included.
-/
def StepsBalance (migrationSQL : String) : Prop :=
  ∃ chunks after,
    Partitions IsGapLine EndsStatement
        (migrationSQL.toList.splitOn '\n') chunks after ∧
      uncounted chunks =
        surplus chunks + countedPieces (linesText after)

/- A statement that is complete ends with a semicolon. -/
theorem linesText_whole_ended
    {chunk : Chunk (List Char)}
    (hEnds : EndsStatement chunk.items) :
    ∃ start blanks,
      linesText chunk.whole = start ++ ';' :: blanks ∧
        ∀ c ∈ blanks, isJsSpace c = true := by
  rcases hEnds.1 with ⟨line, hLine, hLast⟩
  rcases List.getLast?_eq_some_iff.mp hLine with
    ⟨front, hItems⟩
  rcases exists_of_trim_getLast? hLast with
    ⟨start, blanks, hText, hBlanks⟩
  refine
    ⟨linesText (chunk.gap ++ front) ++ start,
      blanks ++ ['\n'], ?_, ?_⟩
  · rw [Chunk.whole, hItems, ← List.append_assoc,
      linesText_append, hText]
    simp [linesText]
  · intro c hc
    rcases List.mem_append.mp hc with hOld | hEnd
    · exact hBlanks c hOld
    · rw [List.mem_singleton.mp hEnd]
      decide

/- The pieces of a file are those of its chunks. -/
theorem countedPieces_eq_sum
    {lines after : List (List Char)}
    {chunks : List (Chunk (List Char))}
    (hParts :
      Partitions IsGapLine EndsStatement lines chunks after) :
    countedPieces (linesText lines) =
      (chunks.map Chunk.counted).sum +
        countedPieces (linesText after) := by
  induction chunks generalizing lines with
  | nil =>
      have hWhole := hParts.whole
      simp only [List.flatMap_nil, List.nil_append] at hWhole
      simp [hWhole]
  | cons chunk chunks ih =>
      have hRest := ih hParts.tail
      rw [← hParts.whole, List.flatMap_cons, List.append_assoc,
        linesText_append, List.map_cons, List.sum_cons,
        Nat.add_assoc, ← hRest]
      by_cases hEnds : EndsStatement chunk.items
      · rcases linesText_whole_ended hEnds with
          ⟨start, blanks, hText, hBlanks⟩
        exact countedPieces_append_ended hText hBlanks _
      · rw [hParts.ends_of_incomplete hEnds]
        simp [linesText, Chunk.counted, countedPieces, pieces,
          nonempty]

/- One for each statement that is counted, and the rest. -/
theorem sum_counted (chunks : List (Chunk (List Char))) :
    (chunks.map Chunk.counted).sum + uncounted chunks =
      chunks.length + surplus chunks := by
  induction chunks with
  | nil => rfl
  | cons chunk chunks ih =>
      unfold uncounted surplus at ih ⊢
      rw [List.map_cons, List.sum_cons, List.countP_cons,
        List.length_cons, List.map_cons, List.sum_cons]
      by_cases hNone : chunk.counted = 0
      · simp only [hNone, decide_true, if_true]
        omega
      · simp only [hNone, decide_false]
        simp only [Bool.false_eq_true, if_false]
        omega

/- The count of a file, by its chunks. -/
theorem statementCount_eq_sum
    {migrationSQL : String}
    {after : List (List Char)}
    {chunks : List (Chunk (List Char))}
    (hParts :
      Partitions IsGapLine EndsStatement
        (migrationSQL.toList.splitOn '\n') chunks after) :
    statementCount migrationSQL =
      (chunks.map Chunk.counted).sum +
        countedPieces (linesText after) := by
  have hBlank : ∀ c ∈ ['\n'], isJsSpace c = true := by
    simp [isJsSpace]
  have hLines :
      linesText (migrationSQL.toList.splitOn '\n') =
        migrationSQL.toList ++ ['\n'] := by
    rw [← intercalate_append, List.intercalate_splitOn]
    simp
  rw [← countedPieces_eq_sum hParts, hLines,
    countedPieces_append_right hBlank, statementCount_eq]

/- The count of a file is right if its chunks balance. -/
theorem statementCount_eq_length_iff (migrationSQL : String) :
    statementCount migrationSQL =
        (statements migrationSQL).length ↔
      StepsBalance migrationSQL := by
  rcases exists_statements_partition migrationSQL with
    ⟨chunks, after, hParts, hStatements⟩
  have hCount := statementCount_eq_sum hParts
  have hSum := sum_counted chunks
  have hBalance :
      StepsBalance migrationSQL ↔
        uncounted chunks =
          surplus chunks +
            countedPieces (linesText after) := by
    unfold StepsBalance
    constructor
    · intro hSome
      rcases hSome with ⟨chunks', after', hParts', hSame⟩
      rcases hParts.unique hParts' with ⟨hChunks, hAfter⟩
      rwa [hChunks, hAfter] at hSame
    · intro hSame
      exact ⟨chunks, after, hParts, hSame⟩
  rw [hBalance, hStatements, List.length_map, hCount]
  omega

end OrderApi

------------------------------------------------------------
-- What a Run Records
------------------------------------------------------------

namespace OrderApi

/-
  A migration is applied: its statements are executed, all
  of them, and it has one row, with the count of the file.
-/
structure Applied
    (migration : Migration)
    (before after : TenantSchema)
    (row : MigrationRow) : Prop where
  executed :
    after.executed =
      before.executed ++ statements migration.sql
  rows :
    (after.rows.filter fun row =>
      row.migration_name = migration.name) = [row]
  count :
    row.applied_steps_count = statementCount migration.sql

/-
  The migration has one row, and that row has the number of
  the statements that were executed since `before`.
-/
def RecordsSteps
    (name : String)
    (before after : TenantSchema) : Prop :=
  ((after.rows.filter fun row =>
      row.migration_name = name).map fun row =>
        before.executed.length + row.applied_steps_count) =
    [after.executed.length]

instance
    (name : String)
    (before after : TenantSchema) :
    Decidable (RecordsSteps name before after) :=
  inferInstanceAs (Decidable (_ = _))

/- What is recorded is right if the chunks balance. -/
theorem Applied.recordsSteps_iff
    {migration : Migration}
    {before after : TenantSchema}
    {row : MigrationRow}
    (hApplied : Applied migration before after row) :
    RecordsSteps migration.name before after ↔
      StepsBalance migration.sql := by
  rw [← statementCount_eq_length_iff, RecordsSteps,
    hApplied.rows, hApplied.executed, List.length_append,
    List.map_singleton, List.singleton_inj, hApplied.count,
    Nat.add_left_cancel_iff]

/- A fresh row that is changed is the only one of its name. -/
theorem filter_relogged
    {before logged after : TenantSchema}
    {row : MigrationRow}
    {change : MigrationRow → MigrationRow}
    (hFresh : row.migration_name ∉ before.logged)
    (hLogged : logged.rows = before.rows ++ [row])
    (hAfter :
      after.rows =
        logged.rows.map fun other =>
          if other.id = row.id then change other else other)
    (hName :
      ∀ other,
        (change other).migration_name =
          other.migration_name) :
    (after.rows.filter fun other =>
        other.migration_name = row.migration_name) =
      [change row] := by
  have hOther :
      ∀ other ∈ before.rows,
        other.migration_name ≠ row.migration_name := by
    intro other hMem hSame
    rw [before.logged_eq, ← hSame] at hFresh
    exact hFresh (List.mem_map_of_mem hMem)
  rw [hAfter, hLogged, List.map_append, List.filter_append]
  have hNone :
      ((before.rows.map fun other =>
          if other.id = row.id then change other
          else other).filter fun other =>
            other.migration_name = row.migration_name) =
        [] := by
    rw [List.filter_eq_nil_iff]
    intro changed hChanged
    rcases List.mem_map.mp hChanged with ⟨other, hMem, hSame⟩
    have hKept :
        changed.migration_name = other.migration_name := by
      rw [← hSame]
      split
      · exact hName other
      · rfl
    simpa [hKept] using hOther other hMem
  rw [hNone]
  simp [hName]

namespace DatabaseCreationConsumer

variable {platform : Platform} {url name : String}
variable {migration : Migration}
variable {store : Registry} {before schema : TenantSchema}

/- The statements of a loop that returns are executed. -/
theorem ensures_executeStatements
    (hUrl : platform.databaseOf url = some name)
    (hSchema : store.databases name = some schema)
    {texts : List String}
    (hRuns :
      ∀ text ∈ texts,
        shouldSkipStatement platform text = false) :
    Program.Ensures (TenancyOp.exec platform)
      (fun outcome s =>
        outcome = .ok () →
          ∃ after,
            s.databases name = some after ∧
              after.executed = schema.executed ++ texts ∧
              after.rows = schema.rows)
      (Program.forEach texts
        (executeStatement platform url)) store := by
  let Inv (behind : List String) (s : Registry) : Prop :=
    ∃ after : TenantSchema,
      s.databases name = some after ∧
        after.executed = schema.executed ++ behind ∧
        after.rows = schema.rows
  have hStart : Inv [] store :=
    ⟨schema, hSchema, by simp, rfl⟩
  refine Program.ensures_forEach_returns ?_ hStart
  intro behind text s hText hInv
  rcases hInv with ⟨after, hAfter, hExecuted, hRows⟩
  rw [executeStatement, hRuns text hText]
  apply TenancyOp.ensures_tenantClient hUrl hAfter
    (.executeStatement text)
  · intro tick answer after' hExec _
    simp only [SchemaOp.exec] at hExec
    split at hExec
    · cases hExec
    · simp only [Except.ok.injEq, Prod.mk.injEq] at hExec
      refine
        ⟨after', Registry.put_databases_same, ?_, ?_⟩
      · rw [← hExec.2, hExecuted, List.append_assoc]
      · rw [← hExec.2, ← hRows]
        rfl
  · simp

/- Behind an error, the migration is not applied. -/
theorem ensures_rollBack
    {Post : Registry → Prop}
    (id : String)
    (error : ApiError) :
    Program.Ensures (TenancyOp.exec platform)
      (fun outcome s => outcome = .ok () → Post s)
      ((onTenant url (.rollBackMigration id)).bind
        fun _ => .fail error) store := by
  apply Program.ensures_bind
  refine
    (Program.ensures_any
      (onTenant url (.rollBackMigration id)) store).mono ?_
  intro outcome s _
  cases outcome with
  | ok value => simp [Program.Ensures]
  | error error => simp

/- The statements are executed, and the row is changed. -/
theorem ensures_applyMigration
    {sql id : String}
    (hUrl : platform.databaseOf url = some name)
    (hSchema : store.databases name = some schema)
    (hRuns :
      ∀ text ∈ statements sql,
        shouldSkipStatement platform text = false) :
    Program.Ensures (TenancyOp.exec platform)
      (fun outcome s =>
        outcome = .ok () →
          ∃ after now,
            s.databases name = some after ∧
              after.executed =
                schema.executed ++ statements sql ∧
              after.rows =
                schema.rows.map fun row =>
                  if row.id = id then
                    { row with
                      finished_at := some now
                      applied_steps_count :=
                        statementCount sql }
                  else
                    row)
      (applyMigration platform url sql id) store := by
  apply Program.ensures_attempt
  apply Program.ensures_bind
  have hLoop :=
    ensures_executeStatements hUrl hSchema hRuns
  apply hLoop.mono
  intro outcome s hOutcome
  cases outcome with
  | error error => exact ensures_rollBack id error
  | ok value =>
      rcases hOutcome rfl with
        ⟨executed, hExecuted, hTexts, hRows⟩
      apply TenancyOp.ensures_tenantClient hUrl hExecuted
        (.finishMigration id (statementCount sql))
      · intro tick answer after hFinish _
        rcases TenantSchema.rows_of_relog hFinish with
          ⟨hSame, hChanged⟩
        exact
          ⟨after, tick.now, Registry.put_databases_same,
            hSame.trans hTexts, by rw [hChanged, hRows]⟩
      · intro error
        exact ensures_rollBack id error

/- A migration that was not logged is applied. -/
theorem ensures_runMigration
    (hUrl : platform.databaseOf url = some name)
    (hSchema : store.databases name = some before)
    (hFresh : migration.name ∉ before.logged)
    (hRuns :
      ∀ text ∈ statements migration.sql,
        shouldSkipStatement platform text = false) :
    Program.Ensures (TenancyOp.exec platform)
      (fun outcome s =>
        outcome = .ok () →
          ∃ after row,
            s.databases name = some after ∧
              Applied migration before after row)
      (runMigration platform url migration) store := by
  unfold runMigration
  apply Program.ensures_bind
  apply TenancyOp.ensures_tenantClient hUrl hSchema
    (.findMigrations migration.name)
  · intro tick ids found hExec
    have hFound := SchemaOp.exec_findMigrations hExec
    rw [hFound.1, hFound.2 hFresh]
    apply Program.ensures_bind
    apply TenancyOp.ensures_tenantClient hUrl
      Registry.put_databases_same
      (.insertMigration migration.name
        (calculateChecksum migration.sql))
    · intro tick id logged hInsert
      rcases TenantSchema.rows_of_log? hInsert with
        ⟨rfl, hKept, hLogged⟩
      refine
        (ensures_applyMigration hUrl
          Registry.put_databases_same hRuns).mono ?_
      intro outcome s hOutcome hReturns
      rcases hOutcome hReturns with
        ⟨after, now, hAfter, hTexts, hChanged⟩
      exact
        ⟨after, _, hAfter,
          { executed := by rw [hTexts, hKept]
            rows :=
              filter_relogged hFresh hLogged hChanged
                fun _ => rfl
            count := rfl }⟩
    · simp
  · simp

end DatabaseCreationConsumer

/-
  A migration that the consumer applies without an error,
  and of which it skips no statement: the row of it has the
  number of the statements that were executed if and only
  if the chunks of the file balance.
-/
theorem recordsSteps_iff_balance
    {platform : Platform}
    {url name : String}
    {migration : Migration}
    {choices : Nat → Choice}
    {store : Registry}
    {before : TenantSchema}
    (hUrl : platform.databaseOf url = some name)
    (hSchema : store.databases name = some before)
    (hFresh : migration.name ∉ before.logged)
    (hRuns :
      ∀ text ∈ statements migration.sql,
        shouldSkipStatement platform text = false)
    (hReturns :
      ((DatabaseCreationConsumer.runMigration platform url
          migration).complete (TenancyOp.exec platform)
        choices store).1 = .ok ()) :
    ∃ after,
      ((DatabaseCreationConsumer.runMigration platform url
          migration).complete (TenancyOp.exec platform)
        choices store).2.databases name = some after ∧
      (RecordsSteps migration.name before after ↔
        StepsBalance migration.sql) := by
  have hEnsures :=
    DatabaseCreationConsumer.ensures_runMigration hUrl hSchema
      hFresh hRuns
  rcases hEnsures.complete choices hReturns with
    ⟨after, row, hAfter, hApplied⟩
  exact ⟨after, hAfter, hApplied.recordsSteps_iff⟩

namespace Onboarding

/- The client of the tenant with a database. -/
def boltUrl : String :=
  DatabaseManagerService.clientUrl platform env "bolt"

theorem deployed_bolt :
    deployed.databases "tenant_bolt" =
      some ⟨[], some Table.empty⟩ := by
  simp [deployed]

/- No call fails, and each draws the same id. -/
def answers : Nat → Choice :=
  fun _ => .answer ⟨"m", 0⟩

/- The table of the orders, without a comment. -/
def bareOrders : Migration :=
  ⟨"2_add_orders", "CREATE TABLE \"orders\" ();\n"⟩

end Onboarding

/- A file of one statement, without a comment. -/
theorem recordsSteps_iff_balance_of_bareOrders :
    ∃ after,
      ((DatabaseCreationConsumer.runMigration
          Onboarding.platform Onboarding.boltUrl
          Onboarding.bareOrders).complete
        (TenancyOp.exec Onboarding.platform)
        Onboarding.answers
        Onboarding.deployed).2.databases "tenant_bolt" =
          some after ∧
      (RecordsSteps Onboarding.bareOrders.name
          ⟨[], some Table.empty⟩ after ↔
        StepsBalance Onboarding.bareOrders.sql) :=
  recordsSteps_iff_balance Onboarding.databaseOf_bolt
    Onboarding.deployed_bolt (by decide) (by decide +kernel)
    (by decide +kernel)

/- The comment in front of a table hides its statement. -/
theorem not_recordsSteps :
    ¬ ∀ (platform : Platform) (url name : String)
        (migration : Migration) (choices : Nat → Choice)
        (store : Registry) (before : TenantSchema),
      platform.databaseOf url = some name →
      store.databases name = some before →
      migration.name ∉ before.logged →
      (∀ text ∈ statements migration.sql,
        shouldSkipStatement platform text = false) →
      ((DatabaseCreationConsumer.runMigration platform url
          migration).complete (TenancyOp.exec platform)
        choices store).1 = .ok () →
      ∃ after ∈
        ((DatabaseCreationConsumer.runMigration platform url
            migration).complete (TenancyOp.exec platform)
          choices store).2.databases name,
        RecordsSteps migration.name before after := by
  intro hClaim
  have hRecords :=
    hClaim Onboarding.platform Onboarding.boltUrl
      "tenant_bolt" addProducts Onboarding.answers
      Onboarding.deployed ⟨[], some Table.empty⟩
      Onboarding.databaseOf_bolt Onboarding.deployed_bolt
      (by decide) (by decide +kernel) (by decide +kernel)
  exact absurd hRecords (by decide +kernel)

end OrderApi
