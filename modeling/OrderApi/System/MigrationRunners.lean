import OrderApi.Prisma.TenantMigration
import OrderApi.Rabbitmq.DatabaseCreationConsumer
import OrderApi.Text.SqlText

/-
  The two runners of a migration, side by side.

  `TenantMigrationService` strips the comments of all lines
  and splits at every semicolon.  `DatabaseCreationConsumer`
  cuts the text behind lines, where it takes quotes to be
  closed, and leaves out what is about the users table.

  Key definitions include:
    * `executedBy`
    * `Pending.blocks`
    * `LeavesQuiet`
    * `RunnersAgree`
    * `InStep`

  Key theorems include:
    * `executedBy_service`, `executedBy_consumer`
    * `leavesQuiet_of_lineFeeds`
    * `sqlStatements_issued`
    * `sqlStatements_pendingStatements`
    * `runnersAgree_iff_inStep`
-/

------------------------------------------------------------
-- What the Runners Execute
------------------------------------------------------------

namespace OrderApi

/- The statement that a call executes. -/
def SchemaOp.statement? : SchemaOp → Option String
  | executeStatement statement => some statement
  | _ => none

/- An answer, from a database with an empty log. -/
def SchemaOp.freshAnswer : (op : SchemaOp) → op.Res
  | connect => ()
  | createMigrationsTable => ()
  | findMigrations _ => []
  | insertMigration _ _ => ""
  | executeStatement _ => ()
  | finishMigration _ _ => ()
  | rollBackMigration _ => ()
  | insertApplied _ _ => ""

/-
  A server with one database, whose log is empty.  All calls
  on it are answered, and it keeps the statements.
-/
def record
    (_ : Unit)
    (op : TenancyOp)
    (executed : List String) :
    Except ApiError op.Res × List String :=
  match op with
  | .tenantClient _ op =>
      (.ok op.freshAnswer,
        executed ++ op.statement?.toList)
  | _ => (.error (storeError ""), executed)

/- The statements that a program executes there. -/
def executedBy
    {α : Type}
    (program : TenancyHandler α) : List String :=
  (program.complete record (fun _ => ()) []).2

section Executed

open Program

variable {α : Type} {executed : List String}

/- A call that is answered, and what it adds. -/
theorem ensures_tenantClient
    (url : String)
    (op : SchemaOp)
    {Post : Except ApiError op.Res → List String → Prop}
    (hPost :
      Post (.ok op.freshAnswer)
        (executed ++ op.statement?.toList)) :
    Ensures record Post
      (perform (TenancyOp.tenantClient url op))
      executed := by
  intro choice
  exact hPost

/- A program that keeps to its statements executes these. -/
theorem executedBy_of_ensures
    {program : TenancyHandler α}
    (hEnsures :
      Ensures record (fun _ kept => kept = executed)
        program []) :
    executedBy program = executed :=
  hEnsures.complete fun _ => ()

/- The statements of a loop, each turn with its own. -/
theorem ensures_statements
    (url : String)
    (statements : List String)
    (executes : String → Bool)
    (body : String → TenancyHandler Unit)
    (hBody :
      ∀ statement,
        body statement =
          if executes statement then
            perform
              (TenancyOp.tenantClient url
                (.executeStatement statement))
          else
            pure ()) :
    Ensures record
      (fun outcome kept =>
        outcome = .ok () ∧ kept = statements.filter executes)
      (forEach statements body) [] := by
  let Inv (behind kept : List String) : Prop :=
    kept = behind.filter executes
  have hStart : Inv [] [] := rfl
  refine ensures_forEach ?_ hStart
  · rintro behind statement _ rfl
    rw [hBody]
    cases hExecutes : executes statement with
    | true =>
        rw [if_pos rfl]
        apply ensures_tenantClient url
          (.executeStatement statement)
        simp [Inv, SchemaOp.statement?, hExecutes]
    | false => exact ⟨rfl, by simp [Inv, hExecutes]⟩

/- The migration, as the service executes it. -/
theorem executedBy_service
    (tenantCode url : String)
    (migration : Migration) :
    executedBy
        (TenantMigrationService.runMigration tenantCode url
          migration) =
      TenantMigrationService.issued migration.sql := by
  apply executedBy_of_ensures
  apply ensures_bind
  apply ensures_tenantClient url
    (.findMigrations migration.name)
  apply ensures_attempt
  apply ensures_bind
  apply ensures_bind
  have hLoop :=
    ensures_statements url
      (TenantMigrationService.issued migration.sql)
      (fun _ => true)
      (fun statement =>
        TenantMigrationService.tenantPrisma url
          (.executeStatement statement))
      fun _ => rfl
  apply hLoop.mono
  rintro outcome kept ⟨rfl, rfl⟩
  apply ensures_bind
  apply ensures_tenantClient url
    (.insertApplied migration.name
      (TenantMigrationService.statements
        migration.sql).length)
  simp [SchemaOp.statement?, Ensures]

/- The migration, as the consumer executes it. -/
theorem executedBy_consumer
    (platform : Platform)
    (url : String)
    (migration : Migration) :
    executedBy
        (DatabaseCreationConsumer.runMigration platform url
          migration) =
      pendingStatements platform migration.sql := by
  apply executedBy_of_ensures
  apply ensures_bind
  apply ensures_tenantClient url
    (.findMigrations migration.name)
  apply ensures_bind
  apply ensures_tenantClient url
    (.insertMigration migration.name
      (calculateChecksum migration.sql))
  apply ensures_attempt
  apply ensures_bind
  have hLoop :=
    ensures_statements url (statements migration.sql)
      (fun statement =>
        !shouldSkipStatement platform statement)
      (DatabaseCreationConsumer.executeStatement platform url)
      (by
        intro statement
        rw [DatabaseCreationConsumer.executeStatement]
        cases shouldSkipStatement platform statement <;> rfl)
  apply hLoop.mono
  rintro outcome kept ⟨rfl, rfl⟩
  apply ensures_tenantClient url
    (.finishMigration _ (statementCount migration.sql))
  simp [SchemaOp.statement?, pendingStatements]

end Executed

end OrderApi

------------------------------------------------------------
-- The Text in Blocks
------------------------------------------------------------

namespace OrderApi

/- Lines, each with its line end. -/
def linesText (lines : List (List Char)) : List Char :=
  lines.flatMap fun line => line ++ ['\n']

/- The text of lines, without what follows `--` in them. -/
def linesCode (lines : List (List Char)) : List Char :=
  lines.flatMap fun line =>
    dropComments .plain (some ()) line ++ ['\n']

/-
  The consumer makes a cut behind a line: a comment line
  between statements, or one that ends with a semicolon
  where it takes all quotes to be closed.
-/
def Pending.cuts (pending : Pending) (line : List Char) :
    Bool :=
  decide
    ("--".toList.isPrefixOf (trim line) ∧
        trim pending.currentStatement = [] ∨
      ¬ (pending.scan.line none line).inString ∧
        (trim line).getLast? = some ';')

/- The lines between two cuts, `front` being read before. -/
def Pending.blocks
    (pending : Pending)
    (front : List (List Char)) :
    List (List Char) → List (List (List Char))
  | [] => [front]
  | line :: lines =>
      let pending' := (pending.next line).2
      if pending.cuts line then
        (front ++ [line]) :: pending'.blocks [] lines
      else
        pending'.blocks (front ++ [line]) lines

/- A migration file, as the consumer cuts it. -/
def blocks (migrationSQL : String) :
    List (List (List Char)) :=
  Pending.blocks ⟨[], ⟨false, none⟩⟩ []
    (migrationSQL.toList.splitOn '\n')

/- The statement of a block, unless it is a comment. -/
def blockStatement? (block : List (List Char)) :
    Option String :=
  statement? (linesText block)

/- A block has a statement, and it is not skipped. -/
def blockRuns
    (platform : Platform)
    (block : List (List Char)) : Bool :=
  (blockStatement? block).any fun statement =>
    !shouldSkipStatement platform statement

section Blocks

variable {pending : Pending}
variable {line front : List Char}

theorem linesText_append (lines lines' : List (List Char)) :
    linesText (lines ++ lines') =
      linesText lines ++ linesText lines' :=
  List.flatMap_append ..

theorem linesCode_append (lines lines' : List (List Char)) :
    linesCode (lines ++ lines') =
      linesCode lines ++ linesCode lines' :=
  List.flatMap_append ..

/- All lines are in the blocks. -/
theorem linesCode_blocks
    (pending : Pending)
    (front lines : List (List Char)) :
    (pending.blocks front lines).flatMap linesCode =
      linesCode (front ++ lines) := by
  induction lines generalizing pending front with
  | nil => simp [Pending.blocks]
  | cons line lines ih =>
      rw [Pending.blocks]
      split
      · rw [List.flatMap_cons, ih, List.nil_append,
          ← linesCode_append, ← List.append_cons]
      · rw [ih, ← List.append_cons]

/- Blanks in front of a statement do not matter. -/
theorem statement?_append
    {text : List Char}
    (hFront : ∀ c ∈ front, isJsSpace c = true) :
    statement? (front ++ text) = statement? text := by
  rw [statement?, statement?, trim_eq_strip, trim_eq_strip,
    strip_append_left hFront]

/- What one line does. -/
theorem next_cases (pending : Pending) (line : List Char) :
    (pending.cuts line = true ∧
      trim pending.currentStatement = [] ∧
      "--".toList.isPrefixOf (trim line) = true ∧
      pending.next line = (none, pending)) ∨
    (pending.cuts line = true ∧
      pending.next line =
        (statement?
            (pending.currentStatement ++ line ++ ['\n']),
          ⟨[], pending.scan.line none line⟩)) ∨
    (pending.cuts line = false ∧
      pending.next line =
        (none,
          ⟨pending.currentStatement ++ line ++ ['\n'],
            pending.scan.line none line⟩)) := by
  by_cases hComment :
      "--".toList.isPrefixOf (trim line) ∧
        trim pending.currentStatement = []
  · apply Or.inl
    refine ⟨?_, hComment.2, hComment.1, ?_⟩
    · exact decide_eq_true (Or.inl hComment)
    · rw [Pending.next, if_pos hComment]
  · apply Or.inr
    by_cases hEnds :
        ¬ (pending.scan.line none line).inString ∧
          (trim line).getLast? = some ';'
    · apply Or.inl
      refine ⟨decide_eq_true (Or.inr hEnds), ?_⟩
      rw [Pending.next, if_neg hComment]
      exact if_pos hEnds
    · apply Or.inr
      refine ⟨?_, ?_⟩
      · apply decide_eq_false
        exact not_or.mpr ⟨hComment, hEnds⟩
      · rw [Pending.next, if_neg hComment]
        exact if_neg hEnds

/- A comment line between statements is no statement. -/
theorem blockStatement?_comment
    {lines : List (List Char)}
    (hBlank : ∀ c ∈ linesText lines, isJsSpace c = true)
    (hComment : "--".toList.isPrefixOf (trim line) = true) :
    blockStatement? (lines ++ [line]) = none := by
  have hTrim : trim (line ++ ['\n']) = trim line := by
    rw [trim_eq_strip, trim_eq_strip]
    apply strip_append_right
    intro c hc
    rw [List.mem_singleton.mp hc]
    decide
  rw [blockStatement?, linesText_append,
    statement?_append hBlank, linesText,
    List.flatMap_singleton, statement?, hTrim]
  exact if_pos (Or.inr hComment)

/-
  The statements are the texts of the blocks.  Between two
  lines, the current statement holds the lines behind the
  last cut, and nothing but blanks before these.
-/
theorem flatMap_blockStatement?
    {lines lines' : List (List Char)}
    (hFront : ∀ c ∈ front, isJsSpace c = true)
    (hPending :
      pending.currentStatement = front ++ linesText lines') :
    ((pending.blocks lines' lines).flatMap fun block =>
        (blockStatement? block).toList) =
      pending.statements lines := by
  induction lines generalizing pending front lines' with
  | nil =>
      rw [Pending.blocks, Pending.statements, hPending,
        statement?_append hFront, List.flatMap_singleton,
        blockStatement?]
  | cons line lines ih =>
      have hMore :
          pending.currentStatement ++ line ++ ['\n'] =
            front ++ linesText (lines' ++ [line]) := by
        rw [hPending, linesText_append]
        simp [linesText]
      rw [Pending.blocks, Pending.statements]
      rcases next_cases pending line with
        ⟨hCuts, hEmpty, hComment, hNext⟩ | ⟨hCuts, hNext⟩ |
          ⟨hCuts, hNext⟩
      · have hCurrent :
            ∀ c ∈ pending.currentStatement,
              isJsSpace c = true :=
          strip_eq_nil_iff.mp hEmpty
        have hBlank :
            ∀ c ∈ linesText lines', isJsSpace c = true := by
          intro c hc
          apply hCurrent
          rw [hPending]
          exact List.mem_append_right front hc
        have hEmptied :
            pending.currentStatement =
              pending.currentStatement ++ linesText [] := by
          simp [linesText]
        have hRest := ih hCurrent hEmptied
        rw [hNext, if_pos hCuts, List.flatMap_cons,
          blockStatement?_comment hBlank hComment, hRest]
      · have hNone : ∀ c ∈ ([] : List Char), isJsSpace c := by
          simp
        have hEmptied :
            (Pending.mk [] (pending.scan.line none
              line)).currentStatement = [] ++ linesText [] :=
          rfl
        have hRest := ih hNone hEmptied
        rw [hNext, if_pos hCuts, List.flatMap_cons, hRest,
          blockStatement?, hMore, statement?_append hFront]
      · have hKept :
            (Pending.mk
              (pending.currentStatement ++ line ++ ['\n'])
              (pending.scan.line none
                line)).currentStatement =
              front ++ linesText (lines' ++ [line]) :=
          hMore
        have hRest := ih hFront hKept
        rw [hNext, if_neg (by simp [hCuts]), hRest]
        rfl

/- The statements of a file are those of its blocks. -/
theorem statements_eq_flatMap (migrationSQL : String) :
    statements migrationSQL =
      (blocks migrationSQL).flatMap fun block =>
        (blockStatement? block).toList := by
  have hNone : ∀ c ∈ ([] : List Char), isJsSpace c := by
    simp
  exact (flatMap_blockStatement? hNone rfl).symm

/- What is executed, block by block. -/
theorem map_pendingStatements
    {β : Type}
    {platform : Platform}
    {migrationSQL : String}
    {f : String → β}
    {g : List (List Char) → β}
    (hSame :
      ∀ block ∈ blocks migrationSQL, ∀ statement,
        blockStatement? block = some statement →
        shouldSkipStatement platform statement = false →
          f statement = g block) :
    (pendingStatements platform migrationSQL).map f =
      ((blocks migrationSQL).filter
        (blockRuns platform)).map g := by
  rw [pendingStatements, statements_eq_flatMap]
  generalize blocks migrationSQL = rest at hSame ⊢
  induction rest with
  | nil => rfl
  | cons block rest ih =>
      have hRest := ih fun other hOther =>
        hSame other (List.mem_cons_of_mem block hOther)
      have hFirst := hSame block List.mem_cons_self
      rw [List.flatMap_cons, List.filter_append,
        List.map_append, hRest]
      cases hStatement : blockStatement? block with
      | none =>
          rw [List.filter_cons_of_neg
            (by simp [blockRuns, hStatement])]
          rfl
      | some statement =>
          cases hSkip :
              shouldSkipStatement platform statement with
          | true =>
              rw [List.filter_cons_of_neg
                (by simp [blockRuns, hStatement, hSkip])]
              simp [hSkip]
          | false =>
              rw [List.filter_cons_of_pos
                (by simp [blockRuns, hStatement, hSkip])]
              simp [hSkip, hFirst statement hStatement hSkip]

end Blocks

end OrderApi

------------------------------------------------------------
-- The Statements of the Service
------------------------------------------------------------

namespace OrderApi

open TenantMigrationService

/-
  The comments that the service leaves in the text, because
  the expression does not match in front of a line end, are
  quiet: each begins outside of quotes, and none has a
  semicolon.
-/
def LeavesQuiet (migrationSQL : String) : Prop :=
  Quiet sqlQuoting ';' (some sqlQuoting.start)
    (stripped migrationSQL)

instance (migrationSQL : String) :
    Decidable (LeavesQuiet migrationSQL) :=
  inferInstanceAs (Decidable (Quiet _ _ _ _))

/- The text without all its comments. -/
def codeText (migrationSQL : String) : List Char :=
  linesCode (migrationSQL.toList.splitOn '\n')

/- The expression removes no first of two dashes alone. -/
theorem isDashes_stripComment
    {c : Char}
    {line : List Char}
    (hKept :
      ¬ (c = '-' ∧ line.head? = some '-' ∧
        ¬ line.any isLineEnd)) :
    isDashes c (stripComment line) = isDashes c line := by
  cases line with
  | nil => rfl
  | cons d rest =>
      rw [stripComment]
      split
      · rename_i hCut
        rcases hCut with ⟨rfl, hHead, hEnds⟩
        have hOther : c ≠ '-' := by
          rintro rfl
          apply hKept
          simp_all [isLineEnd]
        simp [isDashes, hOther]
      · simp [isDashes]

/- A comment goes on to the end of its line. -/
theorem plain_comment
    {rest : List Char}
    (hEnds : ¬ rest.any isLineEnd) :
    dropComments .plain none rest = [] := by
  induction rest with
  | nil => rfl
  | cons c rest ih =>
      rw [List.any_cons, Bool.or_eq_true, not_or] at hEnds
      have hGoesOn : endsComment c = false := by
        cases hEnd : endsComment c with
        | false => rfl
        | true =>
            apply absurd _ hEnds.1
            simp only [endsComment, List.mem_cons,
              List.not_mem_nil, or_false,
              Bool.decide_or, Bool.or_eq_true,
              decide_eq_true_eq] at hEnd
            rcases hEnd with rfl | rfl <;> decide
      rw [dropComments, hGoesOn, if_neg (by simp),
        ih hEnds.2]

/- What the expression removes is comment. -/
theorem plain_stripComment
    (mode : Option Unit)
    (line : List Char) :
    dropComments .plain mode (stripComment line) =
      dropComments .plain mode line := by
  induction line generalizing mode with
  | nil => rfl
  | cons c rest ih =>
      rw [stripComment]
      split
      · rename_i hCut
        rcases hCut with ⟨rfl, hHead, hEnds⟩
        cases mode with
        | none =>
            have hAll : dropComments .plain none ('-' :: rest) =
                dropComments .plain none rest := rfl
            rw [hAll, plain_comment hEnds]
            rfl
        | some s =>
            have hDashes : isDashes '-' rest = true := by
              simp [isDashes, hHead]
            rw [dropComments, dropComments, hDashes,
              plain_comment hEnds]
            rfl
      · rename_i hKept
        cases mode with
        | none =>
            rw [dropComments, dropComments, ih, ih]
        | some s =>
            rw [dropComments, dropComments,
              isDashes_stripComment hKept, ih, ih]

/- Lines that are joined, and one more line end. -/
theorem intercalate_append
    {lines : List (List Char)}
    (hNe : lines ≠ []) :
    (['\n'] : List Char).intercalate lines ++ ['\n'] =
      linesText lines := by
  induction lines with
  | nil => exact (hNe rfl).elim
  | cons line lines ih =>
      cases lines with
      | nil => simp [linesText]
      | cons other lines =>
          have hRest := ih (List.cons_ne_nil other lines)
          rw [List.intercalate_cons_cons, List.append_assoc,
            hRest]
          simp [linesText]

/- The service leaves the code of all lines. -/
theorem plain_stripped (migrationSQL : String) :
    dropComments .plain (some ()) (stripped migrationSQL) ++
        ['\n'] =
      codeText migrationSQL := by
  have hNe :
      (migrationSQL.toList.splitOn '\n').map stripComment ≠
        [] := by
    simp
  have hText := intercalate_append hNe
  calc
    dropComments .plain (some ()) (stripped migrationSQL) ++
        ['\n'] =
      dropComments .plain (some ())
        (stripped migrationSQL ++ ['\n']) := by
        rw [plain_append_line]
        rfl
    _ = dropComments .plain (some ())
        (linesText
          ((migrationSQL.toList.splitOn '\n').map
            stripComment)) := by
        rw [stripped, hText]
    _ = codeText migrationSQL := by
        rw [linesText, plain_flatMap_lines, codeText,
          linesCode, List.flatMap_map]
        simp only [plain_stripComment]

/- On a line without line ends, nothing else is removed. -/
theorem stripComment_eq_plain
    {line : List Char}
    (hEnds : ¬ line.any isLineEnd) :
    stripComment line =
      dropComments .plain (some ()) line := by
  induction line with
  | nil => rfl
  | cons c rest ih =>
      rw [List.any_cons, Bool.or_eq_true, not_or] at hEnds
      rw [stripComment, dropComments]
      by_cases hDashes : c = '-' ∧ rest.head? = some '-'
      · have hIs : isDashes c rest = true :=
          decide_eq_true hDashes
        rw [if_pos ⟨hDashes.1, hDashes.2, hEnds.2⟩, hIs,
          plain_comment hEnds.2]
        rfl
      · have hIs : isDashes c rest = false :=
          decide_eq_false hDashes
        rw [if_neg fun hCut => hDashes ⟨hCut.1, hCut.2.1⟩,
          hIs, Bool.and_false, if_neg (by simp),
          ih hEnds.2]

/- No comment is left in the code of all lines. -/
theorem codeText_no_dashes (migrationSQL : String) :
    ¬ ['-', '-'] <:+: codeText migrationSQL := by
  rw [codeText, linesCode, ← plain_flatMap_lines]
  exact plain_no_dashes _ _

/- With line feeds only, no comment is left at all. -/
theorem leavesQuiet_of_lineFeeds
    {migrationSQL : String}
    (hFeeds :
      ∀ c ∈ migrationSQL.toList,
        isLineEnd c = true → c = '\n') :
    LeavesQuiet migrationSQL := by
  have hLines :
      (migrationSQL.toList.splitOn '\n').map stripComment =
        (migrationSQL.toList.splitOn '\n').map
          (dropComments .plain (some ())) := by
    apply List.map_congr_left
    intro line hLine
    have hPart := infix_of_mem_splitOn hLine
    apply stripComment_eq_plain
    intro hAny
    rcases List.any_eq_true.mp hAny with ⟨c, hc, hEnd⟩
    rw [hFeeds c (hPart.1.subset hc) hEnd] at hc
    exact hPart.2 hc
  have hText :
      stripped migrationSQL ++ ['\n'] =
        codeText migrationSQL := by
    rw [stripped, hLines, intercalate_append (by simp),
      linesText, List.flatMap_map, codeText, linesCode]
  apply quiet_of_no_dashes
  intro hDashes
  apply codeText_no_dashes migrationSQL
  rw [← hText]
  exact hDashes.trans (List.prefix_append ..).isInfix

/- The statement of a piece that is issued. -/
theorem sqlStatement_issued (piece : List Char) :
    sqlStatement
        (String.ofList (trim piece) ++ ";").toList =
      sqlStatement piece := by
  have hGap : ∀ c ∈ [';'], isSqlGap c = true := by
    intro c hc
    rw [List.mem_singleton.mp hc]
    decide
  have hText :
      (String.ofList (trim piece) ++ ";").toList =
        trim piece ++ [';'] := by
    simp
  rw [hText]
  exact
    strip_dropComments_trim sqlQuoting_next_space piece hGap

theorem sqlStatement_blank
    {piece : List Char}
    (hBlank : trim piece = []) :
    sqlStatement piece = [] := by
  have hAll := strip_eq_nil_iff.mp hBlank
  apply strip_eq_nil_iff.mpr
  intro c hc
  have hMem :=
    (dropComments_sublist sqlQuoting _ piece).subset hc
  exact isGap_of_blank c (hAll c hMem)

/- The statements that are issued for the pieces of a text. -/
theorem nonempty_issued (parts : List (List Char)) :
    nonempty
        ((nonempty (parts.map trim)).map fun piece =>
          sqlStatement (String.ofList piece ++ ";").toList) =
      nonempty (parts.map sqlStatement) := by
  induction parts with
  | nil => rfl
  | cons part parts ih =>
      have hSplit :
          ∀ (f : List Char → List Char),
            nonempty ((part :: parts).map f) =
              nonempty [f part] ++ nonempty (parts.map f) := by
        intro f
        rw [List.map_cons, ← List.singleton_append,
          nonempty_append]
      rw [hSplit, List.map_append, nonempty_append, ih,
        hSplit]
      congr 1
      by_cases hBlank : trim part = []
      · rw [hBlank, sqlStatement_blank hBlank]
        rfl
      · have hOne : nonempty [trim part] = [trim part] := by
          simp [nonempty, hBlank]
        rw [hOne, List.map_singleton, sqlStatement_issued]

/- The statements of the service are the pieces of the code. -/
theorem sqlStatements_issued
    {migrationSQL : String}
    (hQuiet : LeavesQuiet migrationSQL) :
    sqlStatements (issued migrationSQL) =
      pieces ';' isJsSpace (codeText migrationSQL) := by
  have hParts :
      (dropComments .plain (some ())
          (stripped migrationSQL)).splitOn ';' =
        ((stripped migrationSQL).splitOn ';').map
          (dropComments sqlQuoting
            (some sqlQuoting.start)) := by
    cases hSplit : (stripped migrationSQL).splitOn ';' with
    | nil => exact (List.splitOn_ne_nil _ _ hSplit).elim
    | cons part parts =>
        exact
          splitOn_dropComments (by decide) (by decide) hQuiet
            hSplit
  calc
    sqlStatements (issued migrationSQL) =
      nonempty
        (((stripped migrationSQL).splitOn ';').map
          sqlStatement) := by
        rw [← nonempty_issued, sqlStatements, issued,
          TenantMigrationService.statements, List.map_map,
          List.map_map]
        rfl
    _ = cores ';' isJsSpace
        ((dropComments .plain (some ())
          (stripped migrationSQL)).splitOn ';') := by
        rw [hParts, cores, List.map_map]
        rfl
    _ = pieces ';' isJsSpace (codeText migrationSQL) := by
        have hFeed : ∀ c ∈ ['\n'], isJsSpace c = true := by
          intro c hc
          rw [List.mem_singleton.mp hc]
          decide
        rw [← pieces_eq_cores_splitOn, ← plain_stripped,
          pieces_append_right (by decide) hFeed]

end OrderApi

------------------------------------------------------------
-- Agreement of the Runners
------------------------------------------------------------

namespace OrderApi

/-
  Where the migration is not in the log, both runners
  execute the same sequence of statements for it, up to line
  comments and to what stands around a statement.
-/
def RunnersAgree
    (platform : Platform)
    (tenantCode url : String)
    (migration : Migration) : Prop :=
  sqlStatements
      (executedBy
        (TenantMigrationService.runMigration tenantCode url
          migration)) =
    sqlStatements
      (executedBy
        (DatabaseCreationConsumer.runMigration platform url
          migration))

instance
    (platform : Platform)
    (tenantCode url : String)
    (migration : Migration) :
    Decidable
      (RunnersAgree platform tenantCode url migration) :=
  inferInstanceAs (Decidable (sqlStatements _ = _))

/- The table of the products, with its first column. -/
def addProducts : Migration where
  name := "20251028210547_add_products"
  sql :=
    "-- CreateTable\nCREATE TABLE \"products\" (\n" ++
      "    \"id\" TEXT NOT NULL\n);\n"

/- The foreign key of the orders to the users. -/
def addOrders : Migration where
  name := "20251028210548_add_orders"
  sql :=
    "ALTER TABLE \"orders\" " ++
      "ADD CONSTRAINT \"orders_userId_fkey\" " ++
      "FOREIGN KEY (\"userId\") " ++
      "REFERENCES \"users\"(\"id\");\n"

/-
  The text of a migration, on which the runners are in step.
  The statements that the consumer executes have no dashes
  in quotes or block comments.  The lines that it leaves out
  have no code.  And a semicolon stands between two blocks
  with code, but none within one, comments apart.
-/
structure InStep
    (platform : Platform)
    (migrationSQL : String) : Prop where
  clean :
    ∀ block ∈ blocks migrationSQL,
      blockRuns platform block = true →
        Clean sqlQuoting (some sqlQuoting.start)
          (trim (linesText block))
  skipped :
    ∀ block ∈ blocks migrationSQL,
      blockRuns platform block = false →
        strip isSqlGap (linesCode block) = []
  separated :
    Separated ';' isJsSpace false
      ((blocks migrationSQL).map linesCode)

instance
    (platform : Platform)
    (migrationSQL : String) :
    Decidable (InStep platform migrationSQL) :=
  decidable_of_iff
    ((∀ block ∈ blocks migrationSQL,
        blockRuns platform block = true →
          Clean sqlQuoting (some sqlQuoting.start)
            (trim (linesText block))) ∧
      (∀ block ∈ blocks migrationSQL,
        blockRuns platform block = false →
          strip isSqlGap (linesCode block) = []) ∧
      Separated ';' isJsSpace false
        ((blocks migrationSQL).map linesCode))
    ⟨fun h => ⟨h.1, h.2.1, h.2.2⟩,
      fun h => ⟨h.clean, h.skipped, h.separated⟩⟩

section Agreement

variable {platform : Platform} {migrationSQL : String}

/- The statement of a block is its text. -/
theorem eq_of_blockStatement?
    {block : List (List Char)}
    {statement : String}
    (hStatement : blockStatement? block = some statement) :
    statement.toList = trim (linesText block) := by
  rw [blockStatement?, statement?] at hStatement
  split at hStatement
  · cases hStatement
  · rw [← Option.some.inj hStatement, String.toList_ofList]

/- The blocks that run, where their statements are clean. -/
theorem sqlStatements_pendingStatements
    (hClean :
      ∀ block ∈ blocks migrationSQL,
        blockRuns platform block = true →
          Clean sqlQuoting (some sqlQuoting.start)
            (trim (linesText block))) :
    sqlStatements (pendingStatements platform migrationSQL) =
      cores ';' isJsSpace
        (((blocks migrationSQL).filter
          (blockRuns platform)).map linesCode) := by
  rw [sqlStatements, cores, List.map_map]
  refine congrArg nonempty (map_pendingStatements ?_)
  intro block hBlock statement hStatement hSkip
  have hRuns : blockRuns platform block = true := by
    simp [blockRuns, hStatement, hSkip]
  have hStart :
      ∀ c, isJsSpace c = true →
        Quoting.plain.next Quoting.plain.start c =
          Quoting.plain.start :=
    fun _ _ => rfl
  have hNone : ∀ c ∈ ([] : List Char), isSqlGap c = true := by
    simp
  have hPlain :=
    strip_dropComments_trim hStart (linesText block) hNone
  rw [List.append_nil, linesText, plain_flatMap_lines]
    at hPlain
  rw [sqlStatement, eq_of_blockStatement? hStatement,
    dropComments_of_clean (hClean block hBlock hRuns)]
  exact hPlain

/- Statements that the service executes too are clean. -/
theorem clean_of_agree
    (hAgree :
      pieces ';' isJsSpace (codeText migrationSQL) =
        sqlStatements
          (pendingStatements platform migrationSQL))
    {block : List (List Char)}
    (hBlock : block ∈ blocks migrationSQL)
    (hRuns : blockRuns platform block = true) :
    Clean sqlQuoting (some sqlQuoting.start)
      (trim (linesText block)) := by
  cases hStatement : blockStatement? block with
  | none => simp [blockRuns, hStatement] at hRuns
  | some statement =>
      have hSkip :
          shouldSkipStatement platform statement = false := by
        simpa [blockRuns, hStatement] using hRuns
      have hPending :
          statement ∈
            pendingStatements platform migrationSQL := by
        rw [pendingStatements, statements_eq_flatMap,
          List.mem_filter, List.mem_flatMap]
        exact
          ⟨⟨block, hBlock, by simp [hStatement]⟩,
            by simp [hSkip]⟩
      apply clean_of_no_dashes
      intro hDashes
      rw [← eq_of_blockStatement? hStatement] at hDashes
      have hDash :
          ∀ c ∈ ['-', '-'], isSqlGap c = false := by
        intro c hc
        have hSame : c = '-' := by simpa using hc
        rw [hSame]
        decide
      have hIn :
          ['-', '-'] <:+: sqlStatement statement.toList :=
        infix_strip (by simp) hDash hDashes
      have hNe : sqlStatement statement.toList ≠ [] := by
        intro hNil
        rw [hNil, List.infix_nil] at hIn
        cases hIn
      have hPiece :
          sqlStatement statement.toList ∈
            pieces ';' isJsSpace (codeText migrationSQL) := by
        rw [hAgree, sqlStatements, nonempty, List.mem_filter]
        exact
          ⟨List.mem_map.mpr ⟨statement, hPending, rfl⟩,
            decide_eq_true hNe⟩
      have hCode := (infix_of_mem_pieces hPiece).1
      exact
        codeText_no_dashes migrationSQL (hIn.trans hCode)

/-
  The runners agree on a migration whose left comments are
  quiet, if and only if they are in step on its text.
-/
theorem runnersAgree_iff_inStep
    (platform : Platform)
    (tenantCode url : String)
    (migration : Migration)
    (hQuiet : LeavesQuiet migration.sql) :
    RunnersAgree platform tenantCode url migration ↔
      InStep platform migration.sql := by
  rw [RunnersAgree, executedBy_service, executedBy_consumer,
    sqlStatements_issued hQuiet]
  have hBlocks :
      codeText migration.sql =
        (blocks migration.sql).flatMap linesCode := by
    rw [blocks, linesCode_blocks, List.nil_append, codeText]
  have hPieces :
      pieces ';' isJsSpace (codeText migration.sql) =
          cores ';' isJsSpace
            (((blocks migration.sql).filter
              (blockRuns platform)).map linesCode) ↔ _ :=
    hBlocks ▸
      pieces_eq_cores_filter_iff (by decide)
        (blocks migration.sql)
  constructor
  · intro hAgree
    have hClean :
        ∀ block ∈ blocks migration.sql,
          blockRuns platform block = true →
            Clean sqlQuoting (some sqlQuoting.start)
              (trim (linesText block)) :=
      fun _ hBlock hRuns => clean_of_agree hAgree hBlock hRuns
    rw [sqlStatements_pendingStatements hClean] at hAgree
    have hBoth := hPieces.mp hAgree
    exact ⟨hClean, hBoth.1, hBoth.2⟩
  · intro hInStep
    rw [sqlStatements_pendingStatements hInStep.clean]
    exact hPieces.mpr ⟨hInStep.skipped, hInStep.separated⟩

/- Both runners create the table of the products. -/
theorem runnersAgree_of_addProducts :
    RunnersAgree Onboarding.platform "bolt"
      Onboarding.databaseUrl addProducts :=
  (runnersAgree_iff_inStep _ _ _ _ (by decide +kernel)).mpr
    (by decide +kernel)

/- The foreign key is executed by the service only. -/
theorem not_runnersAgree :
    ¬ RunnersAgree Onboarding.platform "bolt"
      Onboarding.databaseUrl addOrders := by
  decide +kernel

end Agreement

end OrderApi
