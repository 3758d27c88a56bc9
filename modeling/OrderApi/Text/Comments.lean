import OrderApi.Core.Pieces
import OrderApi.Text.JsString
import Mathlib.Data.List.Infix

/-
  Line comments of a text with quotes: from `--` outside of
  quotes to the end of the line.

  A language says by an automaton where its quotes are.  A
  reader that is blind to quotes takes every `--` for the
  beginning of a comment.

  Key definitions include:
    * `Quoting`, `Quoting.plain`
    * `dropComments`
    * `Clean`, `Quiet`

  Key theorems include:
    * `dropComments_of_clean`
    * `clean_of_no_dashes`
    * `plain_no_dashes`
    * `splitOn_dropComments`
-/

------------------------------------------------------------
-- Quotes and Comments
------------------------------------------------------------

namespace OrderApi

/-
  The states of reading a text outside of comments, and the
  ones that are outside of quotes, where `--` begins a
  comment.  A dash ends no quote.
-/
structure Quoting (σ : Type) where
  start : σ
  next : σ → Char → σ
  isCode : σ → Bool
  isCode_dash :
    ∀ s, isCode s = false → isCode (next s '-') = false

/- A language without quotes. -/
def Quoting.plain : Quoting Unit where
  start := ()
  next _ _ := ()
  isCode _ := true
  isCode_dash _ := nofun

/- The line ends that end a comment. -/
def endsComment (c : Char) : Bool :=
  c ∈ ['\n', '\r']

/- Two dashes are read at `c`. -/
def isDashes (c : Char) (rest : List Char) : Bool :=
  decide (c = '-' ∧ rest.head? = some '-')

section Comments

variable {σ : Type} (quoting : Quoting σ)

/-
  The text without its comments, from a state on; `none` is
  inside of a comment.  The line ends are left.
-/
def dropComments : Option σ → List Char → List Char
| _, [] => []
| none, c :: rest =>
    if endsComment c then
      c :: dropComments (some quoting.start) rest
    else
      dropComments none rest
| some s, c :: rest =>
    if quoting.isCode s && isDashes c rest then
      dropComments none rest
    else
      c :: dropComments (some (quoting.next s c)) rest

/- Outside of comments, `--` is never inside of quotes. -/
def Clean : Option σ → List Char → Prop
| _, [] => True
| none, c :: rest =>
    Clean
      (if endsComment c then some quoting.start else none)
      rest
| some s, c :: rest =>
    if isDashes c rest then
      quoting.isCode s = true ∧ Clean none rest
    else
      Clean (some (quoting.next s c)) rest

/-
  The parts of a text between separators are clean, each
  read from the start, and no separator is in a comment.
-/
def Quiet (sep : Char) : Option σ → List Char → Prop
| _, [] => True
| none, c :: rest =>
    c ≠ sep ∧
      Quiet sep
        (if endsComment c then some quoting.start else none)
        rest
| some s, c :: rest =>
    if c = sep then
      Quiet sep (some quoting.start) rest
    else if isDashes c rest then
      quoting.isCode s = true ∧ Quiet sep none rest
    else
      Quiet sep (some (quoting.next s c)) rest

instance Clean.decidable :
    (mode : Option σ) → (text : List Char) →
      Decidable (Clean quoting mode text)
| none, [] => isTrue trivial
| some _, [] => isTrue trivial
| none, c :: rest =>
    Clean.decidable
      (if endsComment c then some quoting.start else none)
      rest
| some s, c :: rest =>
    have := Clean.decidable none rest
    have := Clean.decidable (some (quoting.next s c)) rest
    inferInstanceAs
      (Decidable
        (if isDashes c rest then
          quoting.isCode s = true ∧ _
        else _))

instance Quiet.decidable (sep : Char) :
    (mode : Option σ) → (text : List Char) →
      Decidable (Quiet quoting sep mode text)
| none, [] => isTrue trivial
| some _, [] => isTrue trivial
| none, c :: rest =>
    have := Quiet.decidable sep
      (if endsComment c then some quoting.start else none)
      rest
    inferInstanceAs (Decidable (c ≠ sep ∧ _))
| some s, c :: rest =>
    have := Quiet.decidable sep (some quoting.start) rest
    have := Quiet.decidable sep none rest
    have :=
      Quiet.decidable sep (some (quoting.next s c)) rest
    inferInstanceAs
      (Decidable
        (if c = sep then _
        else if isDashes c rest then
          quoting.isCode s = true ∧ _
        else _))

end Comments

end OrderApi

------------------------------------------------------------
-- Readers Blind to Quotes
------------------------------------------------------------

namespace OrderApi

section Blind

variable {σ : Type} {quoting : Quoting σ}
variable {mode : Option σ} {text : List Char}

/- The mode of a reader that is blind to quotes. -/
def blind (mode : Option σ) : Option Unit :=
  mode.map fun _ => ()

/- On a clean text, quotes make no difference. -/
theorem dropComments_of_clean
    (hClean : Clean quoting mode text) :
    dropComments quoting mode text =
      dropComments .plain (blind mode) text := by
  induction text generalizing mode with
  | nil => cases mode <;> rfl
  | cons c rest ih =>
      cases mode with
      | none =>
          rw [Clean] at hClean
          have hRest := ih hClean
          rw [dropComments, blind, Option.map_none,
            dropComments]
          split
          · rename_i hEnds
            rw [if_pos hEnds] at hRest
            rw [hRest]
            rfl
          · rename_i hEnds
            rw [if_neg hEnds] at hRest
            rw [hRest]
            rfl
      | some s =>
          rw [Clean] at hClean
          rw [dropComments, blind, Option.map_some,
            dropComments]
          cases hDashes : isDashes c rest with
          | true =>
              rw [if_pos hDashes] at hClean
              rw [hClean.1, ih hClean.2]
              rfl
          | false =>
              rw [hDashes, if_neg (by simp)] at hClean
              simp only [Bool.and_false, Bool.false_eq_true,
                if_false]
              rw [ih hClean]
              rfl

/- The second of two dashes inside of quotes is kept. -/
theorem head?_dropComments_of_quoted
    {s : σ}
    (hQuoted : quoting.isCode s = false)
    (hHead : text.head? = some '-') :
    (dropComments quoting (some s) text).head? =
      some '-' := by
  cases text with
  | nil => simp at hHead
  | cons c rest => simpa [dropComments, hQuoted] using hHead

/- Dashes inside of quotes are left in the text. -/
theorem clean_of_no_dashes
    (hNone :
      ¬ ['-', '-'] <:+: dropComments quoting mode text) :
    Clean quoting mode text := by
  induction text generalizing mode with
  | nil => cases mode <;> trivial
  | cons c rest ih =>
      cases mode with
      | none =>
          rw [Clean]
          apply ih
          rw [dropComments] at hNone
          split at hNone
          · rename_i hEnds
            rw [if_pos hEnds]
            exact fun hIn =>
              hNone (hIn.trans (List.suffix_cons ..).isInfix)
          · rename_i hEnds
            rwa [if_neg hEnds]
      | some s =>
          rw [Clean]
          rw [dropComments] at hNone
          cases hDashes : isDashes c rest with
          | false =>
              rw [if_neg (by simp)]
              rw [hDashes, Bool.and_false,
                if_neg (by simp)] at hNone
              apply ih
              exact fun hIn =>
                hNone (hIn.trans (List.suffix_cons ..).isInfix)
          | true =>
              rw [if_pos rfl]
              cases hCode : quoting.isCode s with
              | true =>
                  rw [hCode, hDashes, Bool.and_self,
                    if_pos rfl] at hNone
                  exact ⟨rfl, ih hNone⟩
              | false =>
                  rcases of_decide_eq_true hDashes with
                    ⟨rfl, hHead⟩
                  rw [hCode, Bool.false_and,
                    if_neg (by simp)] at hNone
                  have hNext :=
                    head?_dropComments_of_quoted
                      (quoting.isCode_dash s hCode) hHead
                  refine (hNone ?_).elim
                  apply List.IsPrefix.isInfix
                  rw [List.cons_prefix_cons]
                  refine ⟨rfl, ?_⟩
                  cases hRest :
                      dropComments quoting
                        (some (quoting.next s '-')) rest with
                  | nil => simp [hRest] at hNext
                  | cons d others =>
                      rw [hRest, List.head?_cons,
                        Option.some.injEq] at hNext
                      rw [hNext]
                      exact ⟨others, rfl⟩

/- Without dashes, there are no comments. -/
theorem quiet_of_no_dashes
    {sep : Char}
    {s : σ}
    (hNone : ¬ ['-', '-'] <:+: text) :
    Quiet quoting sep (some s) text := by
  induction text generalizing s with
  | nil => trivial
  | cons c rest ih =>
      have hRest : ¬ ['-', '-'] <:+: rest := fun hIn =>
        hNone (hIn.trans (List.suffix_cons ..).isInfix)
      have hNot : isDashes c rest = false := by
        cases rest with
        | nil => simp [isDashes]
        | cons d rest =>
            apply decide_eq_false
            rintro ⟨rfl, hHead⟩
            cases hHead
            exact hNone ⟨[], rest, rfl⟩
      rw [Quiet]
      split
      · exact ih hRest
      · rw [if_neg (by simp [hNot])]
        exact ih hRest

/- A reader blind to quotes leaves no dashes. -/
theorem plain_no_dashes
    (mode : Option Unit)
    (text : List Char) :
    ¬ ['-', '-'] <:+: dropComments .plain mode text := by
  induction text generalizing mode with
  | nil => cases mode <;> simp [dropComments]
  | cons c rest ih =>
      cases mode with
      | none =>
          rw [dropComments]
          split
          · rename_i hEnds
            rw [List.infix_cons_iff, not_or]
            refine ⟨?_, ih _⟩
            rintro ⟨others, hSame⟩
            have hDash := (List.cons.inj hSame).1
            subst hDash
            simp [endsComment] at hEnds
          · exact ih none
      | some s =>
          rw [dropComments]
          split
          · exact ih none
          · rename_i hDashes
            rw [List.infix_cons_iff, not_or]
            refine ⟨?_, ih _⟩
            rintro ⟨others, hSame⟩
            rcases List.cons.inj hSame with ⟨rfl, hTail⟩
            cases rest with
            | nil => simp [dropComments] at hTail
            | cons d rest =>
                have hOther : d ≠ '-' := by
                  rintro rfl
                  simp [Quoting.plain, isDashes] at hDashes
                have hKept : isDashes d rest = false := by
                  simp [isDashes, hOther]
                rw [dropComments, hKept, Bool.and_false,
                  if_neg (by simp)] at hTail
                exact hOther (List.cons.inj hTail).1.symm

end Blind

end OrderApi

------------------------------------------------------------
-- Texts in Parts
------------------------------------------------------------

namespace OrderApi

section Parts

variable {σ : Type} (quoting : Quoting σ)

theorem dropComments_sublist
    (mode : Option σ)
    (text : List Char) :
    (dropComments quoting mode text).Sublist text := by
  induction text generalizing mode with
  | nil => cases mode <;> exact List.Sublist.slnil
  | cons c rest ih =>
      cases mode with
      | none =>
          rw [dropComments]
          split
          · exact (ih _).cons_cons c
          · exact (ih _).cons c
      | some s =>
          rw [dropComments]
          split
          · exact (ih _).cons c
          · exact (ih _).cons_cons c

/- What comes behind a text, unless it is a dash. -/
theorem isDashes_append
    {c : Char}
    {text rest : List Char}
    (hRest : rest.head? ≠ some '-') :
    isDashes c (text ++ rest) = isDashes c text := by
  cases text with
  | nil => simp [isDashes, hRest]
  | cons d text => simp [isDashes]

/- A text is read up to its end, and then what follows. -/
theorem exists_dropComments_append
    (mode : Option σ)
    (text : List Char) :
    ∃ mode' : Option σ,
      ∀ rest : List Char, rest.head? ≠ some '-' →
        dropComments quoting mode (text ++ rest) =
          dropComments quoting mode text ++
            dropComments quoting mode' rest := by
  induction text generalizing mode with
  | nil =>
      refine ⟨mode, fun rest _ => ?_⟩
      cases mode <;> rfl
  | cons c text ih =>
      cases mode with
      | none =>
          rcases
              ih
                (if endsComment c then some quoting.start
                else none) with
            ⟨mode', hAppend⟩
          refine ⟨mode', fun rest hRest => ?_⟩
          have hSame := hAppend rest hRest
          rw [List.cons_append, dropComments, dropComments]
          split
          · rename_i hEnds
            rw [if_pos hEnds] at hSame
            rw [hSame, List.cons_append]
          · rename_i hEnds
            rw [if_neg hEnds] at hSame
            exact hSame
      | some s =>
          rcases ih (some (quoting.next s c)) with
            ⟨kept, hKept⟩
          rcases ih none with ⟨dropped, hDropped⟩
          refine
            ⟨if quoting.isCode s && isDashes c text then
                dropped
              else
                kept, fun rest hRest => ?_⟩
          rw [List.cons_append, dropComments, dropComments,
            isDashes_append hRest]
          split
          · exact hDropped rest hRest
          · rw [hKept rest hRest, List.cons_append]

/- Lines are read one by one. -/
theorem plain_append_line
    (mode : Option Unit)
    (line rest : List Char) :
    dropComments .plain mode (line ++ '\n' :: rest) =
      dropComments .plain mode line ++
        '\n' :: dropComments .plain (some ()) rest := by
  rcases
      exists_dropComments_append .plain mode line with
    ⟨mode', hAppend⟩
  rw [hAppend _ (by simp)]
  cases mode' with
  | none => rfl
  | some s => rfl

theorem plain_flatMap_lines (lines : List (List Char)) :
    dropComments .plain (some ())
        (lines.flatMap fun line => line ++ ['\n']) =
      lines.flatMap fun line =>
        dropComments .plain (some ()) line ++ ['\n'] := by
  induction lines with
  | nil => rfl
  | cons line lines ih =>
      rw [List.flatMap_cons, List.append_assoc,
        List.singleton_append, plain_append_line, ih]
      simp

variable {quoting}

/- What is at the start passes through the start. -/
theorem dropComments_append_left
    {blank : Char → Bool}
    (hDash : blank '-' = false)
    (hStart :
      ∀ c, blank c = true →
        quoting.next quoting.start c = quoting.start)
    {front : List Char}
    (hFront : ∀ c ∈ front, blank c = true)
    (text : List Char) :
    dropComments quoting (some quoting.start)
        (front ++ text) =
      front ++
        dropComments quoting (some quoting.start) text := by
  induction front with
  | nil => rfl
  | cons c front ih =>
      have hc := hFront c List.mem_cons_self
      have hNot : isDashes c (front ++ text) = false := by
        have hOther : c ≠ '-' := by
          rintro rfl
          rw [hc] at hDash
          cases hDash
        simp [isDashes, hOther]
      rw [List.cons_append, dropComments, hNot,
        Bool.and_false, if_neg (by simp), hStart c hc,
        ih fun d hd => hFront d (List.mem_cons_of_mem c hd),
        List.cons_append]

/-
  Gaps around a text, and more gaps behind it, are no matter
  to what is left of it between its gaps.
-/
theorem strip_dropComments_strip
    {blank gap : Char → Bool}
    (hGap : ∀ c, blank c = true → gap c = true)
    (hDash : gap '-' = false)
    (hStart :
      ∀ c, blank c = true →
        quoting.next quoting.start c = quoting.start)
    (text : List Char)
    {more : List Char}
    (hMore : ∀ c ∈ more, gap c = true) :
    strip gap
        (dropComments quoting (some quoting.start)
          (strip blank text ++ more)) =
      strip gap
        (dropComments quoting (some quoting.start)
          text) := by
  have hBlankDash : blank '-' = false := by
    cases hBlank : blank '-' with
    | false => rfl
    | true =>
        rw [hGap _ hBlank] at hDash
        cases hDash
  have hHead :
      ∀ back : List Char, (∀ c ∈ back, gap c = true) →
        back.head? ≠ some '-' := by
    intro back hBack hSome
    have hMem := List.mem_of_mem_head? hSome
    rw [hBack _ hMem] at hDash
    cases hDash
  rcases
      exists_dropComments_append quoting
        (some quoting.start) (strip blank text) with
    ⟨mode, hAppend⟩
  have hBehind :
      ∀ back : List Char, (∀ c ∈ back, gap c = true) →
        strip gap
            (dropComments quoting (some quoting.start)
              (strip blank text ++ back)) =
          strip gap
            (dropComments quoting (some quoting.start)
              (strip blank text)) := by
    intro back hBack
    rw [hAppend back (hHead back hBack)]
    apply strip_append_right
    intro c hc
    exact
      hBack c ((dropComments_sublist quoting mode back).subset hc)
  have hFront :
      ∀ c ∈ text.takeWhile blank, blank c = true :=
    forall_mem_takeWhile
  have hBack :
      ∀ c ∈ (text.dropWhile blank).rtakeWhile blank,
        gap c = true := by
    intro c hc
    exact hGap c (forall_mem_rtakeWhile c hc)
  have hText := parts_append blank text
  rw [hBehind more hMore, ← hBehind _ hBack]
  conv_rhs => rw [← hText]
  rw [dropComments_append_left hBlankDash hStart hFront]
  rw [strip_append_left fun c hc => hGap c (hFront c hc)]

end Parts

end OrderApi

------------------------------------------------------------
-- Texts Between Separators
------------------------------------------------------------

namespace OrderApi

section Split

variable {σ : Type} {quoting : Quoting σ}
variable {sep c : Char} {text part : List Char}
variable {parts : List (List Char)}

/- The first part of a text begins as the text does. -/
theorem isDashes_of_splitOn
    (hDash : sep ≠ '-')
    (hSplit : text.splitOn sep = part :: parts) :
    isDashes c part = isDashes c text := by
  cases text with
  | nil =>
      rw [List.splitOn_nil] at hSplit
      rw [(List.cons.inj hSplit).1]
  | cons d rest =>
      rw [List.splitOn_cons_eq_if_modifyHead] at hSplit
      split at hSplit
      · rename_i hSame
        have hPart := (List.cons.inj hSplit).1
        subst hPart
        rw [beq_iff_eq.mp hSame]
        simp [isDashes, hDash]
      · cases hRest : rest.splitOn sep with
        | nil => exact (List.splitOn_ne_nil _ _ hRest).elim
        | cons first others =>
            rw [hRest, List.modifyHead_cons] at hSplit
            have hPart := (List.cons.inj hSplit).1
            subst hPart
            simp [isDashes]

/-
  In a quiet text it makes no difference whether its parts
  are read one by one, with their quotes, or the comments
  are dropped from all of it before.
-/
theorem splitOn_dropComments
    {mode : Option σ}
    (hDash : sep ≠ '-')
    (hEnds : endsComment sep = false)
    (hQuiet : Quiet quoting sep mode text)
    (hSplit : text.splitOn sep = part :: parts) :
    (dropComments .plain (blind mode) text).splitOn sep =
      dropComments quoting mode part ::
        parts.map
          (dropComments quoting (some quoting.start)) := by
  induction text generalizing mode part parts with
  | nil =>
      rw [List.splitOn_nil] at hSplit
      cases hSplit
      cases mode <;> rfl
  | cons c rest ih =>
      cases hRest : rest.splitOn sep with
      | nil => exact (List.splitOn_ne_nil _ _ hRest).elim
      | cons first others =>
          rw [List.splitOn_cons_eq_if_modifyHead, hRest,
            List.modifyHead_cons] at hSplit
          have hFirst :=
            isDashes_of_splitOn (c := c) hDash hRest
          cases mode with
          | none =>
              rcases hQuiet with ⟨hOther, hQuiet⟩
              rw [if_neg (by simpa using hOther)] at hSplit
              cases hSplit
              have hTail := ih hQuiet hRest
              rw [blind, Option.map_none, dropComments,
                dropComments]
              split
              · rename_i hLine
                rw [if_pos hLine] at hTail
                rw [List.splitOn_cons_eq_if_modifyHead,
                  if_neg (by simpa using hOther)]
                exact congrArg (List.modifyHead (c :: ·)) hTail
              · rename_i hLine
                rw [if_neg hLine] at hTail
                exact hTail
          | some s =>
              rw [Quiet] at hQuiet
              rw [blind, Option.map_some, dropComments]
              by_cases hSame : c = sep
              · subst hSame
                rw [if_pos rfl] at hQuiet
                rw [if_pos (beq_self_eq_true c)] at hSplit
                cases hSplit
                have hTail := ih hQuiet hRest
                have hNot : isDashes c rest = false := by
                  simp [isDashes, hDash]
                rw [hNot, Bool.and_false, if_neg (by simp),
                  List.splitOn_cons_eq_if_modifyHead,
                  if_pos (beq_self_eq_true c)]
                exact congrArg ([] :: ·) hTail
              · rw [if_neg hSame] at hQuiet
                rw [if_neg (by simpa using hSame)] at hSplit
                cases hSplit
                rw [dropComments, hFirst]
                cases hIs : isDashes c rest with
                | true =>
                    rw [if_pos hIs] at hQuiet
                    rw [hQuiet.1]
                    exact ih hQuiet.2 hRest
                | false =>
                    rw [hIs, if_neg (by simp)] at hQuiet
                    have hTail := ih hQuiet hRest
                    rw [Bool.and_false, if_neg (by simp),
                      Bool.and_false, if_neg (by simp),
                      List.splitOn_cons_eq_if_modifyHead,
                      if_neg (by simpa using hSame)]
                    exact
                      congrArg (List.modifyHead (c :: ·)) hTail

end Split

end OrderApi
