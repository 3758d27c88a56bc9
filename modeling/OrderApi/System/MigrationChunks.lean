import OrderApi.Core.Chunks
import OrderApi.System.MigrationRunners

/-
  How `createAndMigrateTenantDatabase` cuts a migration file
  into statements.

  The lines of the file are chunks with blank lines and
  comment lines between them.  A chunk ends at the first line
  that ends with a semicolon outside of quotes, where quotes
  are read from the beginning of the chunk on.

  Key definitions include:
    * `IsGapLine`
    * `openQuote`
    * `EndsStatement`
    * `chunkStatement`

  Key theorems include:
    * `QuoteScan.open?_line`
    * `Pending.partition`
    * `statements_partition`
-/

------------------------------------------------------------
-- Lines, Quotes and Chunks
------------------------------------------------------------

namespace OrderApi

/- A line that is blank, or a comment. -/
def IsGapLine (line : List Char) : Prop :=
  trim line = [] ∨ "--".toList.isPrefixOf (trim line) = true

/-
  The quote that is open behind a character.  A quote behind
  a backslash does not close the one that is open.
-/
def quoteAfter (open? previous : Option Char) (c : Char) :
    Option Char :=
  match open? with
  | none => if c = '"' ∨ c = '\x27' then some c else none
  | some quote =>
      if c = quote ∧ previous ≠ some '\\' then none
      else some quote

/- The same behind the characters of a line. -/
def quoteAfterLine (open? previous : Option Char) :
    List Char → Option Char
  | [] => open?
  | c :: rest =>
      quoteAfterLine (quoteAfter open? previous c) (some c)
        rest

/- The quote that is open behind lines, from none on. -/
def openQuote (lines : List (List Char)) : Option Char :=
  lines.foldl
    (fun open? line => quoteAfterLine open? none line) none

/- The last line ends with a semicolon outside of quotes. -/
def EndsStatement (lines : List (List Char)) : Prop :=
  (∃ line ∈ lines.getLast?, (trim line).getLast? = some ';') ∧
    openQuote lines = none

/- The text of a chunk, without the blanks around it. -/
def chunkStatement (chunk : Chunk (List Char)) : String :=
  String.ofList (trim (linesText chunk.items))

theorem openQuote_append
    (lines : List (List Char))
    (line : List Char) :
    openQuote (lines ++ [line]) =
      quoteAfterLine (openQuote lines) none line := by
  simp [openQuote]

theorem endsStatement_append
    (lines : List (List Char))
    (line : List Char) :
    EndsStatement (lines ++ [line]) ↔
      (trim line).getLast? = some ';' ∧
        openQuote (lines ++ [line]) = none := by
  simp [EndsStatement]

/- No quote opens on a line without quotes. -/
theorem quoteAfterLine_blank
    {line : List Char}
    (previous : Option Char)
    (hBlank : ∀ c ∈ line, isJsSpace c = true) :
    quoteAfterLine none previous line = none := by
  induction line generalizing previous with
  | nil => rfl
  | cons c line ih =>
      have hSpace := hBlank c List.mem_cons_self
      have hQuote : quoteAfter none previous c = none := by
        unfold quoteAfter
        rw [if_neg]
        intro hEither
        rcases hEither with hDouble | hSingle
        · rw [hDouble] at hSpace
          exact absurd hSpace (by decide)
        · rw [hSingle] at hSpace
          exact absurd hSpace (by decide)
      rw [quoteAfterLine, hQuote]
      exact
        ih (some c) fun d hd =>
          hBlank d (List.mem_cons_of_mem c hd)

end OrderApi

------------------------------------------------------------
-- The Two Variables of the Scanner
------------------------------------------------------------

namespace OrderApi

namespace QuoteScan

variable {scan : QuoteScan}

/- The quote that the two variables take to be open. -/
def open? (scan : QuoteScan) : Option Char :=
  if scan.inString then scan.stringChar else none

/- In a string, the quote that opened it is kept. -/
def Known (scan : QuoteScan) : Prop :=
  scan.inString = true → scan.stringChar ≠ none

theorem open?_eq_none (hKnown : scan.Known) :
    scan.open? = none ↔ ¬ scan.inString = true := by
  unfold open?
  by_cases hIn : scan.inString = true
  · simp [hIn, hKnown hIn]
  · simp [hIn]

/- One character, as the two variables read it. -/
theorem open?_next
    (hKnown : scan.Known)
    (previous : Option Char)
    (c : Char) :
    (scan.next previous c).open? =
        quoteAfter scan.open? previous c ∧
      (scan.next previous c).Known := by
  unfold next
  by_cases hIn : scan.inString = true
  · have hSome := hKnown hIn
    cases hChar : scan.stringChar with
    | none => exact (hSome hChar).elim
    | some quote =>
        by_cases hClose :
            c = quote ∧ previous ≠ some '\\'
        · have hSame : quote = c := hClose.1.symm
          simp [hIn, hChar, hSame, hClose.2, open?, Known,
            quoteAfter]
        · have hOther :
              ¬ (quote = c ∧ ¬ previous = some '\\') :=
            fun hBoth => hClose ⟨hBoth.1.symm, hBoth.2⟩
          have hKeeps :
              ¬ (c = quote ∧ ¬ previous = some '\\') :=
            hClose
          simp [hIn, hChar, hOther, hKeeps, open?, Known,
            quoteAfter]
  · by_cases hQuote : c = '"' ∨ c = '\x27'
    · simp [hIn, hQuote, open?, Known, quoteAfter]
    · simp [hIn, hQuote, open?, Known, quoteAfter]

/- The scanner is the character scanner on every line. -/
theorem open?_line
    (hKnown : scan.Known)
    (previous : Option Char)
    (line : List Char) :
    (scan.line previous line).open? =
        quoteAfterLine scan.open? previous line ∧
      (scan.line previous line).Known := by
  induction line generalizing scan previous with
  | nil => exact ⟨rfl, hKnown⟩
  | cons c line ih =>
      have hNext := open?_next hKnown previous c
      have hRest := ih hNext.2 (some c)
      rw [hNext.1] at hRest
      exact hRest

end QuoteScan

end OrderApi

------------------------------------------------------------
-- Chunks Are Not Discarded
------------------------------------------------------------

namespace OrderApi

variable {line : List Char}

/- A text that begins with a line that is no gap. -/
theorem trim_of_not_gap
    (hLine : ¬ IsGapLine line)
    (more : List Char) :
    trim (line ++ '\n' :: more) ≠ [] ∧
      ¬ "--".toList.isPrefixOf
        (trim (line ++ '\n' :: more)) = true := by
  have hDashes :
      ∀ c ∈ "--".toList, isJsSpace c = false := by
    decide
  rcases not_or.mp hLine with ⟨hNe, hComment⟩
  rw [trim_eq_strip] at hNe hComment ⊢
  rw [List.isPrefixOf_iff_prefix,
    prefix_strip_iff hDashes] at hComment ⊢
  have hRest : line.dropWhile isJsSpace ≠ [] := by
    intro hNone
    apply hNe
    rw [strip, hNone, List.rdropWhile_nil]
  have hAppend :
      (line ++ '\n' :: more).dropWhile isJsSpace =
        line.dropWhile isJsSpace ++ '\n' :: more := by
    rw [List.dropWhile_append, if_neg (by simpa using hRest)]
  constructor
  · intro hAll
    apply hNe
    rw [strip_eq_nil_iff] at hAll ⊢
    intro c hc
    exact hAll c (List.mem_append_left _ hc)
  · rw [hAppend]
    intro hPrefix
    exact
      hComment
        (prefix_of_prefix_append (by decide) hPrefix)

/- Such a text is handed on. -/
theorem statement?_of_not_gap
    {front : List Char}
    (hFront : ∀ c ∈ front, isJsSpace c = true)
    (hLine : ¬ IsGapLine line)
    (lines : List (List Char)) :
    statement? (front ++ linesText (line :: lines)) =
      some
        (String.ofList (trim (linesText (line :: lines)))) := by
  have hText :
      linesText (line :: lines) =
        line ++ '\n' :: linesText lines := by
    simp [linesText]
  have hTrim := trim_of_not_gap hLine (linesText lines)
  rw [statement?_append hFront, hText]
  simp only [statement?]
  rw [if_neg (not_or.mpr hTrim)]

end OrderApi

------------------------------------------------------------
-- The Loop over the Lines
------------------------------------------------------------

namespace OrderApi

/-
  Between two lines: the current statement holds the lines
  of a chunk that is not complete, `front`, behind blanks,
  and the scanner is where these lines leave it.
-/
structure Pending.Holds
    (pending : Pending)
    (front : List (List Char)) : Prop where
  text :
    ∃ blanks,
      (∀ c ∈ blanks, isJsSpace c = true) ∧
        pending.currentStatement = blanks ++ linesText front
  quote : pending.scan.open? = openQuote front
  known : pending.scan.Known
  begins : ∀ line ∈ front.head?, ¬ IsGapLine line
  incomplete : NotBefore EndsStatement front

namespace Pending.Holds

variable {pending : Pending} {front : List (List Char)}
variable {line : List Char}

/- The current statement is blank without a chunk only. -/
theorem blank_iff (hHolds : pending.Holds front) :
    trim pending.currentStatement = [] ↔ front = [] := by
  rcases hHolds.text with ⟨blanks, hBlanks, hText⟩
  rw [hText, trim_eq_strip, strip_append_left hBlanks]
  constructor
  · intro hNone
    by_contra hNe
    rcases List.exists_cons_of_ne_nil hNe with
      ⟨first, rest, hFront⟩
    have hFirst : ¬ IsGapLine first :=
      hHolds.begins first (by simp [hFront])
    apply (trim_of_not_gap hFirst (linesText rest)).1
    rw [trim_eq_strip, ← hNone, hFront]
    simp [linesText]
  · intro hFront
    rw [hFront]
    rfl

/- What is left behind the last line is handed on. -/
theorem statement? (hHolds : pending.Holds front) :
    OrderApi.statement? pending.currentStatement =
      if front = [] then none
      else some (String.ofList (trim (linesText front))) := by
  rcases hHolds.text with ⟨blanks, hBlanks, hText⟩
  by_cases hFront : front = []
  · rw [if_pos hFront, OrderApi.statement?]
    exact if_pos (Or.inl (hHolds.blank_iff.mpr hFront))
  · rcases List.exists_cons_of_ne_nil hFront with
      ⟨first, rest, hCons⟩
    have hFirst : ¬ IsGapLine first :=
      hHolds.begins first (by simp [hCons])
    rw [if_neg hFront, hText, hCons]
    exact statement?_of_not_gap hBlanks hFirst rest

/- A blank line in front of a chunk. -/
theorem blank_line
    (hHolds : pending.Holds [])
    (hBlank : trim line = []) :
    Pending.Holds
      ⟨pending.currentStatement ++ line ++ ['\n'],
        pending.scan.line none line⟩ [] := by
  rcases hHolds.text with ⟨blanks, hBlanks, hText⟩
  rw [trim_eq_strip, strip_eq_nil_iff] at hBlank
  have hScan :=
    QuoteScan.open?_line hHolds.known none line
  refine
    { text := ⟨blanks ++ line ++ ['\n'], ?_, ?_⟩
      quote := ?_
      known := hScan.2
      begins := by simp
      incomplete := NotBefore.nil }
  · intro c hc
    simp only [List.mem_append, List.mem_singleton] at hc
    rcases hc with (hFront | hLine) | hEnd
    · exact hBlanks c hFront
    · exact hBlank c hLine
    · rw [hEnd]
      decide
  · rw [hText]
    simp [linesText]
  · rw [hScan.1, hHolds.quote]
    exact quoteAfterLine_blank none hBlank

/- A line of the chunk that does not complete it. -/
theorem more
    (hHolds : pending.Holds front)
    (hLine : front = [] → ¬ IsGapLine line)
    (hOpen : ¬ EndsStatement (front ++ [line])) :
    Pending.Holds
      ⟨pending.currentStatement ++ line ++ ['\n'],
        pending.scan.line none line⟩ (front ++ [line]) := by
  rcases hHolds.text with ⟨blanks, hBlanks, hText⟩
  have hScan :=
    QuoteScan.open?_line hHolds.known none line
  refine
    { text := ⟨blanks, hBlanks, ?_⟩
      quote := ?_
      known := hScan.2
      begins := ?_
      incomplete := hHolds.incomplete.append hOpen }
  · rw [hText, linesText_append]
    simp [linesText]
  · rw [hScan.1, hHolds.quote, openQuote_append]
  · intro first hFirst
    by_cases hFront : front = []
    · simp only [hFront, List.nil_append, List.head?_cons,
        Option.mem_some_iff] at hFirst
      rw [← hFirst]
      exact hLine hFront
    · rw [List.head?_append_of_ne_nil _ hFront] at hFirst
      exact hHolds.begins first hFirst

/- Behind a chunk that is complete. -/
theorem reset
    {scan : QuoteScan}
    (hKnown : scan.Known)
    (hQuote : scan.open? = none) :
    Pending.Holds ⟨[], scan⟩ [] where
  text := ⟨[], by simp, rfl⟩
  quote := hQuote
  known := hKnown
  begins := by simp
  incomplete := NotBefore.nil

/- The first line of a chunk, with one more line in it. -/
theorem exists_first
    (hHolds : pending.Holds front)
    (hLine : front = [] → ¬ IsGapLine line) :
    ∃ first rest,
      front ++ [line] = first :: rest ∧ ¬ IsGapLine first := by
  by_cases hFront : front = []
  · refine ⟨line, [], ?_, hLine hFront⟩
    rw [hFront]
    rfl
  · rcases List.exists_cons_of_ne_nil hFront with
      ⟨first, rest, hCons⟩
    refine ⟨first, rest ++ [line], ?_, ?_⟩
    · rw [hCons]
      rfl
    · exact hHolds.begins first (by simp [hCons])

/- A chunk with one more line is handed on. -/
theorem statement?_more
    (hHolds : pending.Holds front)
    (hLine : front = [] → ¬ IsGapLine line) :
    OrderApi.statement?
        (pending.currentStatement ++ line ++ ['\n']) =
      some
        (String.ofList
          (trim (linesText (front ++ [line])))) := by
  rcases hHolds.text with ⟨blanks, hBlanks, hText⟩
  rcases hHolds.exists_first hLine with
    ⟨first, rest, hCons, hFirst⟩
  have hMore :
      pending.currentStatement ++ line ++ ['\n'] =
        blanks ++ linesText (front ++ [line]) := by
    rw [hText, linesText_append]
    simp [linesText]
  rw [hMore, hCons]
  exact statement?_of_not_gap hBlanks hFirst rest

/- The test for the end of a statement. -/
theorem ends_iff (hHolds : pending.Holds front) :
    (¬ (pending.scan.line none line).inString = true ∧
        (trim line).getLast? = some ';') ↔
      EndsStatement (front ++ [line]) := by
  have hScan :=
    QuoteScan.open?_line hHolds.known none line
  rw [endsStatement_append, openQuote_append,
    ← hHolds.quote, ← hScan.1,
    QuoteScan.open?_eq_none hScan.2, and_comm]

end Pending.Holds

/-
  The lines left to be read, and those of the chunk at hand,
  are partitioned, and the statements are the chunks.
-/
theorem Pending.partition
    {pending : Pending}
    {gap front : List (List Char)}
    (hHolds : pending.Holds front)
    (hGap : ∀ line ∈ gap, IsGapLine line)
    (lines : List (List Char)) :
    ∃ chunks after,
      Partitions IsGapLine EndsStatement
          (gap ++ (front ++ lines)) chunks after ∧
        pending.statements lines =
          chunks.map chunkStatement := by
  induction lines generalizing pending gap front with
  | nil =>
      rw [Pending.statements, hHolds.statement?]
      by_cases hFront : front = []
      · rw [if_pos hFront, hFront]
        refine ⟨[], gap, ?_, rfl⟩
        simpa using Partitions.of_gaps hGap
      · rcases List.exists_cons_of_ne_nil hFront with
          ⟨first, rest, hCons⟩
        have hFirst : ¬ IsGapLine first :=
          hHolds.begins first (by simp [hCons])
        have hBefore := hHolds.incomplete
        rw [hCons] at hBefore
        rw [if_neg hFront, hCons, List.append_nil]
        exact
          ⟨[⟨gap, first :: rest⟩], [],
            Partitions.of_rest hGap hFirst hBefore, rfl⟩
  | cons line lines ih =>
      rw [Pending.statements]
      by_cases hComment :
          "--".toList.isPrefixOf (trim line) = true ∧
            trim pending.currentStatement = []
      · -- a comment line in front of a chunk is skipped
        have hFront := hHolds.blank_iff.mp hComment.2
        have hLine : IsGapLine line := Or.inr hComment.1
        have hNext : pending.next line = (none, pending) := by
          rw [Pending.next, if_pos hComment]
        have hGaps :
            ∀ other ∈ gap ++ [line], IsGapLine other := by
          intro other hOther
          rcases List.mem_append.mp hOther with hOld | hNew
          · exact hGap other hOld
          · rw [List.mem_singleton.mp hNew]
            exact hLine
        have hRest := ih hHolds hGaps
        rw [hNext]
        simpa [hFront] using hRest
      · by_cases hEnds :
            ¬ (pending.scan.line none line).inString = true ∧
              (trim line).getLast? = some ';'
        · -- the line completes the chunk
          have hNotBlank : trim line ≠ [] := by
            intro hBlank
            rw [hBlank] at hEnds
            exact absurd hEnds.2 (by simp)
          have hBegins :
              front = [] → ¬ IsGapLine line := by
            intro hFront hLine
            rcases hLine with hBlank | hDashes
            · exact hNotBlank hBlank
            · exact
                hComment
                  ⟨hDashes, hHolds.blank_iff.mpr hFront⟩
          have hComplete := hHolds.ends_iff.mp hEnds
          have hScan :=
            QuoteScan.open?_line hHolds.known none line
          have hQuote :=
            (QuoteScan.open?_eq_none hScan.2).mpr hEnds.1
          have hNext :
              pending.next line =
                (OrderApi.statement?
                    (pending.currentStatement ++ line ++
                      ['\n']),
                  ⟨[], pending.scan.line none line⟩) := by
            rw [Pending.next, if_neg hComment]
            exact if_pos hEnds
          have hNone :
              ∀ other ∈ ([] : List (List Char)),
                IsGapLine other := by
            simp
          rcases ih (Holds.reset hScan.2 hQuote) hNone with
            ⟨chunks, after, hRest, hStatements⟩
          refine
            ⟨⟨gap, front ++ [line]⟩ :: chunks, after, ?_, ?_⟩
          · have hFirst :=
              hHolds.exists_first hBegins
            simpa using
              hRest.cons hGap hFirst hHolds.incomplete
                hComplete
          · rw [hNext, hHolds.statement?_more hBegins]
            simp [hStatements, chunkStatement]
        · have hNext :
              pending.next line =
                (none,
                  ⟨pending.currentStatement ++ line ++
                      ['\n'],
                    pending.scan.line none line⟩) := by
            rw [Pending.next, if_neg hComment]
            exact if_neg hEnds
          rw [hNext]
          by_cases hBlank : front = [] ∧ trim line = []
          · -- a blank line in front of a chunk
            rw [hBlank.1] at hHolds
            have hGaps :
                ∀ other ∈ gap ++ [line],
                  IsGapLine other := by
              intro other hOther
              rcases List.mem_append.mp hOther with
                hOld | hNew
              · exact hGap other hOld
              · rw [List.mem_singleton.mp hNew]
                exact Or.inl hBlank.2
            have hRest :=
              ih (hHolds.blank_line hBlank.2) hGaps
            simpa [hBlank.1] using hRest
          · -- one more line of the chunk
            have hBegins :
                front = [] → ¬ IsGapLine line := by
              intro hFront hLine
              rcases hLine with hNone | hDashes
              · exact hBlank ⟨hFront, hNone⟩
              · exact
                  hComment
                    ⟨hDashes, hHolds.blank_iff.mpr hFront⟩
            have hOpen :
                ¬ EndsStatement (front ++ [line]) :=
              fun hComplete =>
                hEnds (hHolds.ends_iff.mpr hComplete)
            have hRest := ih (hHolds.more hBegins hOpen) hGap
            simpa using hRest

/- The statements of a migration file are its chunks. -/
theorem exists_statements_partition
    (migrationSQL : String) :
    ∃ chunks after,
      Partitions IsGapLine EndsStatement
          (migrationSQL.toList.splitOn '\n') chunks after ∧
        statements migrationSQL =
          chunks.map chunkStatement := by
  have hKnown : QuoteScan.Known ⟨false, none⟩ := by
    simp [QuoteScan.Known]
  have hHolds :=
    Pending.Holds.reset hKnown (by simp [QuoteScan.open?])
  have hNone :
      ∀ line ∈ ([] : List (List Char)), IsGapLine line := by
    simp
  rcases Pending.partition hHolds hNone
      (migrationSQL.toList.splitOn '\n') with
    ⟨chunks, after, hPartitions, hStatements⟩
  exact
    ⟨chunks, after, by simpa using hPartitions, hStatements⟩

/-
  The statements of a migration file are its chunks: every
  line is in one of them, or it is blank or a comment in
  front of one, and each ends where it has to.  What is
  executed is those of them that are not skipped.
-/
theorem statements_partition
    (platform : Platform)
    (url : String)
    (migration : Migration) :
    ∃ chunks after,
      Partitions IsGapLine EndsStatement
          (migration.sql.toList.splitOn '\n') chunks after ∧
        statements migration.sql =
          chunks.map chunkStatement ∧
        executedBy
            (DatabaseCreationConsumer.runMigration platform
              url migration) =
          (chunks.map chunkStatement).filter fun statement =>
            !shouldSkipStatement platform statement := by
  rcases exists_statements_partition migration.sql with
    ⟨chunks, after, hPartitions, hStatements⟩
  refine
    ⟨chunks, after, hPartitions, hStatements, ?_⟩
  rw [executedBy_consumer, pendingStatements, hStatements]

end OrderApi
