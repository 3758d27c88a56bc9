import Mathlib.Data.List.DropRight
import Mathlib.Data.List.Flatten

/-
  Texts that are split at a separator, and the same texts
  read in blocks.

  Splitting a text leaves its pieces, less the blanks around
  them.  A reader that takes the text block by block, and
  each block as one piece, sees the same pieces exactly if
  the separators stand where one block ends and another one
  begins.

  Key definitions include:
    * `strip`
    * `pieces`
    * `cores`
    * `Separated`

  Key theorems include:
    * `strip_append_left`, `strip_append_right`
    * `pieces_append_flatten_iff`
    * `pieces_eq_cores_filter_iff`
-/

------------------------------------------------------------
-- Stripping Both Ends
------------------------------------------------------------

namespace OrderApi

variable {α : Type}

/- A text without the elements of `p` around it. -/
def strip (p : α → Bool) (text : List α) : List α :=
  (text.dropWhile p).rdropWhile p

section Strip

variable {p q : α → Bool} {text front back : List α}

@[simp] theorem strip_nil : strip p ([] : List α) = [] :=
  rfl

/- What stands around the stripped text. -/
theorem parts_append
    (p : α → Bool)
    (text : List α) :
    text.takeWhile p ++
        (strip p text ++ (text.dropWhile p).rtakeWhile p) =
      text := by
  rw [strip, List.rdropWhile_append_rtakeWhile,
    List.takeWhile_append_dropWhile]

theorem forall_mem_takeWhile :
    ∀ x ∈ text.takeWhile p, p x = true := by
  intro x hx
  exact List.mem_takeWhile_imp hx

theorem forall_mem_rtakeWhile :
    ∀ x ∈ text.rtakeWhile p, p x = true := by
  intro x hx
  rw [List.rtakeWhile, List.mem_reverse] at hx
  exact List.mem_takeWhile_imp hx

theorem strip_append_left
    (hFront : ∀ x ∈ front, p x = true) :
    strip p (front ++ text) = strip p text := by
  rw [strip, List.dropWhile_append_of_pos hFront, strip]

theorem strip_append_right
    (hBack : ∀ x ∈ back, p x = true) :
    strip p (text ++ back) = strip p text := by
  have hRight :
      ∀ text : List α,
        (text ++ back).rdropWhile p = text.rdropWhile p := by
    intro text
    have hReverse : ∀ x ∈ back.reverse, p x = true := by
      intro x hx
      exact hBack x (List.mem_reverse.mp hx)
    rw [List.rdropWhile, List.reverse_append,
      List.dropWhile_append_of_pos hReverse, List.rdropWhile]
  rw [strip, strip, List.dropWhile_append]
  split
  · rename_i hAll
    have hNone : text.dropWhile p = [] := by
      simpa using hAll
    rw [hNone, List.dropWhile_eq_nil_iff.mpr hBack]
  · exact hRight _

theorem strip_eq_nil_iff :
    strip p text = [] ↔ ∀ x ∈ text, p x = true := by
  constructor
  · intro hNil x hx
    rw [← parts_append p text, hNil, List.nil_append] at hx
    rcases List.mem_append.mp hx with hFront | hBack
    · exact forall_mem_takeWhile x hFront
    · exact forall_mem_rtakeWhile x hBack
  · intro hAll
    rw [strip, List.dropWhile_eq_nil_iff.mpr hAll,
      List.rdropWhile_nil]

theorem strip_infix (p : α → Bool) (text : List α) :
    strip p text <:+: text := by
  refine ⟨text.takeWhile p,
    (text.dropWhile p).rtakeWhile p, ?_⟩
  rw [List.append_assoc, parts_append]

/- A text stripped of more needs no stripping of less. -/
theorem strip_strip
    (hLess : ∀ x, p x = true → q x = true)
    (text : List α) :
    strip p (strip q text) = strip q text := by
  have hFirst :
      (strip q text).dropWhile p = strip q text := by
    rw [List.dropWhile_eq_self_iff]
    intro hNonempty hHead
    have hPrefix := List.rdropWhile_prefix q
      (text.dropWhile q)
    have hDropped : 0 < (text.dropWhile q).length :=
      lt_of_lt_of_le hNonempty hPrefix.length_le
    have hSame :
        (strip q text)[0] = (text.dropWhile q)[0] :=
      hPrefix.getElem hNonempty
    rw [hSame] at hHead
    exact
      List.dropWhile_get_zero_not q text hDropped
        (hLess _ hHead)
  rw [strip, hFirst, List.rdropWhile_eq_self_iff]
  intro hNonempty hLast
  exact
    List.rdropWhile_last_not q (text.dropWhile q) hNonempty
      (hLess _ hLast)

/- A prefix without an element stops in front of it. -/
theorem prefix_of_prefix_append
    {part front more : List α}
    {x : α}
    (hPart : x ∉ part)
    (hPrefix : part <+: front ++ x :: more) :
    part <+: front := by
  induction front generalizing part with
  | nil =>
      cases part with
      | nil => exact List.nil_prefix
      | cons y part =>
          rw [List.nil_append, List.cons_prefix_cons] at hPrefix
          rw [hPrefix.1] at hPart
          exact (hPart List.mem_cons_self).elim
  | cons z front ih =>
      cases part with
      | nil => exact List.nil_prefix
      | cons y part =>
          rw [List.cons_append,
            List.cons_prefix_cons] at hPrefix
          rw [List.mem_cons, not_or] at hPart
          rw [List.cons_prefix_cons]
          exact ⟨hPrefix.1, ih hPart.2 hPrefix.2⟩

/- What a text begins with, behind elements of `p`. -/
theorem prefix_strip_iff
    {part : List α}
    (hPart : ∀ x ∈ part, p x = false) :
    part <+: strip p text ↔ part <+: text.dropWhile p := by
  unfold strip
  constructor
  · intro hPrefix
    exact hPrefix.trans (List.rdropWhile_prefix p _)
  · intro hPrefix
    generalize text.dropWhile p = rest at hPrefix ⊢
    induction rest using List.reverseRecOn with
    | nil => simpa using hPrefix
    | append_singleton rest x ih =>
        by_cases hx : p x = true
        · have hNotMem : x ∉ part := by
            intro hMem
            rw [hPart x hMem] at hx
            cases hx
          rw [List.rdropWhile_concat_pos p rest x hx]
          exact ih (prefix_of_prefix_append hNotMem hPrefix)
        · rw [List.rdropWhile_concat_neg p rest x hx]
          exact hPrefix

/- A part without elements of `p` is left. -/
theorem infix_dropWhile
    {part : List α}
    (hNe : part ≠ [])
    (hPart : ∀ x ∈ part, p x = false)
    (hInfix : part <:+: text) :
    part <:+: text.dropWhile p := by
  induction text with
  | nil => exact hInfix
  | cons x text ih =>
      rw [List.dropWhile_cons]
      split
      · rename_i hx
        rcases List.infix_cons_iff.mp hInfix with
          hPrefix | hRest
        · rcases hPrefix with ⟨others, hSame⟩
          cases part with
          | nil => exact (hNe rfl).elim
          | cons y part =>
              have hFirst := hPart y List.mem_cons_self
              rw [(List.cons.inj hSame).1, hx] at hFirst
              cases hFirst
        · exact ih hRest
      · exact hInfix

theorem infix_strip
    {part : List α}
    (hNe : part ≠ [])
    (hPart : ∀ x ∈ part, p x = false)
    (hInfix : part <:+: text) :
    part <:+: strip p text := by
  rw [strip, List.rdropWhile, ← List.reverse_infix,
    List.reverse_reverse]
  apply infix_dropWhile (by simpa using hNe)
  · intro x hx
    exact hPart x (List.mem_reverse.mp hx)
  · rw [List.reverse_infix]
    exact infix_dropWhile hNe hPart hInfix

/- Elements outside `p` are all kept. -/
theorem countP_strip
    {code : α → Bool}
    (hCode : ∀ x, p x = true → code x = false) :
    (strip p text).countP code = text.countP code := by
  have hFront : (text.takeWhile p).countP code = 0 := by
    rw [List.countP_eq_zero]
    intro x hx
    simp [hCode x (forall_mem_takeWhile x hx)]
  have hBack :
      ((text.dropWhile p).rtakeWhile p).countP code = 0 := by
    rw [List.countP_eq_zero]
    intro x hx
    simp [hCode x (forall_mem_rtakeWhile x hx)]
  calc
    (strip p text).countP code =
        (text.takeWhile p ++
          (strip p text ++
            (text.dropWhile p).rtakeWhile p)).countP
              code := by
      simp [hFront, hBack]
    _ = text.countP code := by rw [parts_append]

end Strip

end OrderApi

------------------------------------------------------------
-- Pieces
------------------------------------------------------------

namespace OrderApi

variable {α : Type}

/- The texts that are not empty. -/
def nonempty (texts : List (List α)) : List (List α) :=
  texts.filter fun text => decide (text ≠ [])

theorem nonempty_append
    (texts texts' : List (List α)) :
    nonempty (texts ++ texts') =
      nonempty texts ++ nonempty texts' :=
  List.filter_append ..

theorem flatten_nonempty (texts : List (List α)) :
    (nonempty texts).flatten = texts.flatten := by
  induction texts with
  | nil => rfl
  | cons text texts ih =>
      cases text with
      | nil => simpa [nonempty] using ih
      | cons x text => simpa [nonempty] using ih

variable [DecidableEq α]

/- The text between separators, less the blanks around it. -/
def pieces
    (sep : α)
    (blank : α → Bool)
    (text : List α) : List (List α) :=
  nonempty ((text.splitOn sep).map (strip blank))

/- What is no part of a piece at its ends. -/
def isGap (sep : α) (blank : α → Bool) (x : α) : Bool :=
  decide (x = sep) || blank x

/- Each text as one piece. -/
def cores
    (sep : α)
    (blank : α → Bool)
    (texts : List (List α)) : List (List α) :=
  nonempty (texts.map (strip (isGap sep blank)))

section Pieces

variable {sep : α} {blank : α → Bool}
variable {text rest front : List α}

theorem isGap_of_blank
    (x : α)
    (hBlank : blank x = true) :
    isGap sep blank x = true := by
  simp [isGap, hBlank]

theorem blank_of_isGap
    {x : α}
    (hGap : isGap sep blank x = true)
    (hNe : x ≠ sep) :
    blank x = true := by
  simpa [isGap, hNe] using hGap

theorem cores_cons
    (text : List α)
    (texts : List (List α)) :
    cores sep blank (text :: texts) =
      nonempty [strip (isGap sep blank) text] ++
        cores sep blank texts := by
  rw [cores, List.map_cons, ← List.singleton_append,
    nonempty_append, cores]

/- Without separators, only blanks are gaps. -/
theorem strip_isGap_of_notMem
    (hSep : sep ∉ text) :
    strip (isGap sep blank) text = strip blank text := by
  have hBlanks :
      ∀ part : List α, part <:+: text →
        (∀ x ∈ part, isGap sep blank x = true) →
          ∀ x ∈ part, blank x = true := by
    intro part hPart hGap x hx
    apply blank_of_isGap (hGap x hx)
    rintro rfl
    exact hSep (hPart.subset hx)
  have hText := parts_append (isGap sep blank) text
  have hFront :
      ∀ x ∈ text.takeWhile (isGap sep blank),
        blank x = true :=
    hBlanks _ (List.takeWhile_prefix _).isInfix
      forall_mem_takeWhile
  have hBack :
      ∀ x ∈ (text.dropWhile (isGap sep blank)).rtakeWhile
        (isGap sep blank), blank x = true := by
    have hSuffix :=
      (List.rtakeWhile_suffix (isGap sep blank)
        (text.dropWhile (isGap sep blank))).trans
          (List.dropWhile_suffix _)
    exact hBlanks _ hSuffix.isInfix forall_mem_rtakeWhile
  conv_rhs => rw [← hText]
  rw [strip_append_left hFront, strip_append_right hBack,
    strip_strip isGap_of_blank]

/- A text without separators is one piece at most. -/
theorem pieces_of_notMem
    (hSep : sep ∉ text) :
    pieces sep blank text = nonempty [strip blank text] := by
  rw [pieces, List.splitOn_eq_singleton hSep,
    List.map_singleton]

/- A separator parts the pieces around it. -/
theorem pieces_append_sep :
    pieces sep blank (text ++ sep :: rest) =
      pieces sep blank text ++ pieces sep blank rest := by
  rw [pieces, List.splitOn_append_cons_self, List.map_append,
    nonempty_append, pieces, pieces]

/- Separators and blanks in front of a text are no piece. -/
theorem pieces_append_left
    (hFront : ∀ x ∈ front, isGap sep blank x = true) :
    pieces sep blank (front ++ text) =
      pieces sep blank text := by
  induction front with
  | nil => rfl
  | cons x front ih =>
      have hRest :=
        ih fun y hy => hFront y (List.mem_cons_of_mem x hy)
      have hx := hFront x List.mem_cons_self
      by_cases hSame : x = sep
      · subst hSame
        have hSplit :
            pieces x blank ([] ++ x :: (front ++ text)) =
              pieces x blank [] ++
                pieces x blank (front ++ text) :=
          pieces_append_sep
        rw [List.nil_append] at hSplit
        rw [List.cons_append, hSplit, hRest]
        simp [pieces, nonempty]
      · have hBlank := blank_of_isGap hx hSame
        rw [← hRest, List.cons_append, pieces, pieces,
          List.splitOn_cons_eq_if_modifyHead,
          if_neg (by simpa using hSame)]
        cases hSplit : (front ++ text).splitOn sep with
        | nil => exact (List.splitOn_ne_nil _ _ hSplit).elim
        | cons piece others =>
            have hStrip :
                strip blank (x :: piece) =
                  strip blank piece := by
              have hOne : ∀ y ∈ [x], blank y = true := by
                intro y hy
                rw [List.mem_singleton.mp hy]
                exact hBlank
              exact strip_append_left hOne
            rw [List.modifyHead_cons, List.map_cons,
              List.map_cons, hStrip]

/- A text ends here, or goes on behind a separator. -/
theorem separator_induction
    (sep : α)
    {motive : List α → Prop}
    (hLast : ∀ text, sep ∉ text → motive text)
    (hNext :
      ∀ text rest, sep ∉ text → motive rest →
        motive (text ++ sep :: rest))
    (text : List α) :
    motive text := by
  have hFront :
      ∀ front, sep ∉ front → motive (front ++ text) := by
    induction text with
    | nil =>
        intro front hNone
        rw [List.append_nil]
        exact hLast front hNone
    | cons x text ih =>
        intro front hNone
        by_cases hSame : x = sep
        · subst hSame
          exact hNext front text hNone (ih [] (by simp))
        · rw [List.append_cons]
          apply ih
          simp [hNone, Ne.symm hSame]
  exact hFront [] (by simp)

/- The texts between separators, each as one piece. -/
theorem pieces_eq_cores_splitOn (text : List α) :
    pieces sep blank text =
      cores sep blank (text.splitOn sep) := by
  induction text using separator_induction sep with
  | hLast text hText =>
      rw [pieces_of_notMem hText,
        List.splitOn_eq_singleton hText, cores,
        List.map_singleton, strip_isGap_of_notMem hText]
  | hNext text next hText ih =>
      rw [pieces_append_sep, ih,
        List.splitOn_append_cons_self,
        List.splitOn_eq_singleton hText,
        List.singleton_append, cores_cons,
        pieces_of_notMem hText, strip_isGap_of_notMem hText]

/- Blanks behind a text are no piece. -/
theorem pieces_append_right
    (hSep : blank sep = false)
    (hRest : ∀ x ∈ rest, blank x = true) :
    pieces sep blank (text ++ rest) =
      pieces sep blank text := by
  have hNone : sep ∉ rest := by
    intro hMem
    rw [hRest sep hMem] at hSep
    cases hSep
  induction text using separator_induction sep with
  | hLast text hText =>
      rw [pieces_of_notMem hText, pieces_of_notMem
        (by simp [hText, hNone]), strip_append_right hRest]
  | hNext text next hText ih =>
      rw [List.append_assoc, List.cons_append,
        pieces_append_sep, pieces_append_sep, ih]

/- What is between separators is a part without any. -/
theorem infix_of_mem_splitOn
    {part : List α}
    (hPart : part ∈ text.splitOn sep) :
    part <:+: text ∧ sep ∉ part := by
  induction text using separator_induction sep with
  | hLast text hText =>
      rw [List.splitOn_eq_singleton hText,
        List.mem_singleton] at hPart
      rw [hPart]
      exact ⟨List.infix_rfl, hText⟩
  | hNext text next hText ih =>
      rw [List.splitOn_append_cons_self_of_not_mem hText]
        at hPart
      rcases List.mem_cons.mp hPart with rfl | hLater
      · exact ⟨(List.prefix_append ..).isInfix, hText⟩
      · have hRest := ih hLater
        have hSuffix : next <:+ text ++ sep :: next :=
          (List.suffix_cons sep next).trans
            (List.suffix_append ..)
        exact ⟨hRest.1.trans hSuffix.isInfix, hRest.2⟩

/- A piece is a part of the text, and has no separator. -/
theorem infix_of_mem_pieces
    {piece : List α}
    (hPiece : piece ∈ pieces sep blank text) :
    piece <:+: text ∧ sep ∉ piece := by
  rcases List.mem_map.mp (List.mem_of_mem_filter hPiece) with
    ⟨part, hPart, rfl⟩
  have hBoth := infix_of_mem_splitOn hPart
  have hStrip := strip_infix blank part
  exact
    ⟨hStrip.trans hBoth.1,
      fun hMem => hBoth.2 (hStrip.subset hMem)⟩

/- What is neither blank nor a separator. -/
def countCode
    (sep : α)
    (blank : α → Bool)
    (text : List α) : Nat :=
  text.countP fun x => !isGap sep blank x

theorem countCode_eq_zero_iff :
    countCode sep blank text = 0 ↔
      strip (isGap sep blank) text = [] := by
  rw [countCode, List.countP_eq_zero, strip_eq_nil_iff]
  simp

theorem countCode_append :
    countCode sep blank (text ++ rest) =
      countCode sep blank text + countCode sep blank rest :=
  List.countP_append

theorem countCode_strip :
    countCode sep blank (strip (isGap sep blank) text) =
      countCode sep blank text :=
  countP_strip fun x hx => by simp [hx]

theorem countCode_strip_blank :
    countCode sep blank (strip blank text) =
      countCode sep blank text :=
  countP_strip fun x hx => by simp [isGap_of_blank x hx]

/- The pieces hold all of the text. -/
theorem countCode_pieces (text : List α) :
    countCode sep blank (pieces sep blank text).flatten =
      countCode sep blank text := by
  induction text using separator_induction sep with
  | hLast text hText =>
      rw [pieces_of_notMem hText, flatten_nonempty,
        List.flatten_singleton, countCode_strip_blank]
  | hNext text next hText ih =>
      have hSep : countCode sep blank (sep :: next) =
          countCode sep blank next := by
        simp [countCode, isGap]
      rw [pieces_append_sep, List.flatten_append,
        countCode_append, ih, pieces_of_notMem hText,
        flatten_nonempty, List.flatten_singleton,
        countCode_strip_blank, countCode_append, hSep]

theorem countCode_cores (texts : List (List α)) :
    countCode sep blank (cores sep blank texts).flatten =
      countCode sep blank texts.flatten := by
  rw [cores, flatten_nonempty]
  induction texts with
  | nil => rfl
  | cons text texts ih =>
      rw [List.map_cons, List.flatten_cons, countCode_append,
        ih, countCode_strip, List.flatten_cons,
        countCode_append]

end Pieces

end OrderApi

------------------------------------------------------------
-- Pieces of a Text in Blocks
------------------------------------------------------------

namespace OrderApi

variable {α : Type} [DecidableEq α]

/-
  The separators of a text in blocks stand between the cores
  of the blocks: none is inside a core, and one follows each
  core before the next one begins.  `opened` says that a
  core was read and no separator behind it yet.
-/
def Separated
    (sep : α)
    (blank : α → Bool) :
    Bool → List (List α) → Prop
| _, [] => True
| opened, text :: texts =>
    if strip (isGap sep blank) text = [] then
      Separated sep blank (opened && decide (sep ∉ text))
        texts
    else
      sep ∉ strip (isGap sep blank) text ∧
        (opened = true →
          sep ∈ text.takeWhile (isGap sep blank)) ∧
        Separated sep blank
          (decide
            (sep ∉
              (text.dropWhile (isGap sep blank)).rtakeWhile
                (isGap sep blank)))
          texts

instance Separated.decidable
    (sep : α)
    (blank : α → Bool) :
    (opened : Bool) → (texts : List (List α)) →
      Decidable (Separated sep blank opened texts)
| _, [] => isTrue trivial
| opened, text :: texts =>
    have := Separated.decidable sep blank
      (opened && decide (sep ∉ text)) texts
    have := Separated.decidable sep blank
      (decide
        (sep ∉
          (text.dropWhile (isGap sep blank)).rtakeWhile
            (isGap sep blank)))
      texts
    inferInstanceAs
      (Decidable
        (if strip (isGap sep blank) text = [] then _
        else _ ∧ (_ → _) ∧ _))

/-
  Behind a pending text, the pieces of a text in blocks are
  the cores of its blocks.
-/
def ReadsCores
    (sep : α)
    (blank : α → Bool)
    (pending : List α)
    (texts : List (List α)) : Prop :=
  pieces sep blank (pending ++ texts.flatten) =
    pieces sep blank pending ++ cores sep blank texts

section Separated

variable {sep : α} {blank : α → Bool}
variable {pending text : List α} {texts : List (List α)}

/- A text with a separator among its gaps is cut there. -/
theorem pieces_append_gap
    (hGap : ∀ x ∈ text, isGap sep blank x = true)
    (hSep : blank sep = false)
    (hMem : sep ∈ text)
    (rest : List α) :
    pieces sep blank (pending ++ (text ++ rest)) =
      pieces sep blank pending ++ pieces sep blank rest := by
  rcases List.eq_append_cons_of_mem hMem with
    ⟨first, last, rfl, hFirst⟩
  have hBlanks : ∀ x ∈ first, blank x = true := by
    intro x hx
    apply blank_of_isGap (hGap x (by simp [hx]))
    rintro rfl
    exact hFirst hx
  have hLast : ∀ x ∈ last, isGap sep blank x = true := by
    intro x hx
    exact hGap x (by simp [hx])
  have hSplit :
      pending ++ (first ++ sep :: last ++ rest) =
        (pending ++ first) ++ sep :: (last ++ rest) := by
    simp
  rw [hSplit, pieces_append_sep,
    pieces_append_right hSep hBlanks,
    pieces_append_left hLast]

/- The first piece begins with what is pending. -/
theorem exists_pieces_eq_cons
    (hPending : sep ∉ pending)
    (hCode : strip blank pending ≠ [])
    (rest : List α) :
    ∃ more tail,
      pieces sep blank (pending ++ rest) =
        strip blank (pending ++ more) :: tail := by
  have hNonempty :
      ∀ more,
        nonempty [strip blank (pending ++ more)] =
          [strip blank (pending ++ more)] := by
    intro more
    have hKept : strip blank (pending ++ more) ≠ [] := by
      rw [Ne, strip_eq_nil_iff] at hCode ⊢
      intro hAll
      exact hCode fun x hx =>
        hAll x (List.mem_append_left more hx)
    simp [nonempty, hKept]
  by_cases hMem : sep ∈ rest
  · rcases List.eq_append_cons_of_mem hMem with
      ⟨more, last, rfl, hMore⟩
    refine ⟨more, pieces sep blank last, ?_⟩
    rw [← List.append_assoc, pieces_append_sep,
      pieces_of_notMem (by simp [hPending, hMore]),
      hNonempty, List.singleton_append]
  · refine ⟨rest, [], ?_⟩
    rw [pieces_of_notMem (by simp [hPending, hMem]),
      hNonempty]

/-
  A block that begins a piece: nothing is pending, or a
  separator comes first.
-/
theorem pieces_append_begins
    (hSep : blank sep = false)
    (hBegins :
      strip blank pending ≠ [] →
        sep ∈ text.takeWhile (isGap sep blank))
    (rest : List α) :
    pieces sep blank (pending ++ (text ++ rest)) =
      pieces sep blank pending ++
        pieces sep blank
          (strip (isGap sep blank) text ++
            ((text.dropWhile (isGap sep blank)).rtakeWhile
              (isGap sep blank) ++ rest)) := by
  have hFront :
      ∀ x ∈ text.takeWhile (isGap sep blank),
        isGap sep blank x = true :=
    forall_mem_takeWhile
  have hParts := parts_append (isGap sep blank) text
  generalize text.takeWhile (isGap sep blank) = front at *
  generalize (text.dropWhile (isGap sep blank)).rtakeWhile
    (isGap sep blank) = back at *
  have hText :
      pending ++ (text ++ rest) =
        pending ++
          (front ++
            (strip (isGap sep blank) text ++
              (back ++ rest))) := by
    rw [← List.append_assoc _ back rest,
      ← List.append_assoc front, hParts]
  rw [hText]
  by_cases hOpened : strip blank pending = []
  · have hBlanks := strip_eq_nil_iff.mp hOpened
    have hNone : sep ∉ pending := by
      intro hMem
      rw [hBlanks sep hMem] at hSep
      cases hSep
    have hGaps :
        ∀ x ∈ pending ++ front, isGap sep blank x = true := by
      intro x hx
      rcases List.mem_append.mp hx with hLeft | hRight
      · exact isGap_of_blank x (hBlanks x hLeft)
      · exact hFront x hRight
    rw [← List.append_assoc, pieces_append_left hGaps,
      pieces_of_notMem hNone, hOpened]
    simp [nonempty]
  · exact pieces_append_gap hFront hSep (hBegins hOpened) _

/- A block that begins a piece inside of a pending one. -/
theorem pieces_append_ne
    (hPending : sep ∉ pending)
    (hOpened : strip blank pending ≠ [])
    (hCode : strip (isGap sep blank) text ≠ [])
    (hFront : sep ∉ text.takeWhile (isGap sep blank))
    (hCore : sep ∉ strip (isGap sep blank) text)
    (rest : List α)
    (others : List (List α)) :
    pieces sep blank (pending ++ (text ++ rest)) ≠
      pieces sep blank pending ++ others := by
  have hParts := parts_append (isGap sep blank) text
  generalize text.takeWhile (isGap sep blank) = front at *
  generalize (text.dropWhile (isGap sep blank)).rtakeWhile
    (isGap sep blank) = back at *
  have hWeight :
      0 < countCode sep blank
        (strip (isGap sep blank) text) := by
    rw [Nat.pos_iff_ne_zero, countCode_strip, Ne,
      countCode_eq_zero_iff]
    exact hCode
  generalize strip (isGap sep blank) text = core at *
  have hText :
      pending ++ (text ++ rest) =
        (pending ++ front ++ core) ++ (back ++ rest) := by
    rw [← hParts]
    simp
  have hLonger :
      strip blank (pending ++ front ++ core) ≠ [] := by
    rw [Ne, strip_eq_nil_iff] at hOpened ⊢
    intro hAll
    exact hOpened fun x hx => hAll x (by simp [hx])
  have hNotMem : sep ∉ pending ++ front ++ core := by
    simp [hPending, hFront, hCore]
  rcases exists_pieces_eq_cons hNotMem hLonger
      (back ++ rest) with
    ⟨more, tail, hPieces⟩
  have hOne :
      nonempty [strip blank pending] =
        [strip blank pending] := by
    simp [nonempty, hOpened]
  intro hSame
  rw [hText, hPieces, pieces_of_notMem hPending, hOne,
    List.singleton_append] at hSame
  have hCount :=
    congrArg (countCode sep blank) (List.cons.inj hSame).1
  rw [countCode_strip_blank, countCode_strip_blank,
    countCode_append, countCode_append, countCode_append]
    at hCount
  omega

/- A block without code, at the front of the others. -/
theorem pieces_append_blanks
    (hSep : blank sep = false)
    (hPending : sep ∉ pending)
    (hNone : strip (isGap sep blank) text = [])
    (ih :
      ∀ pending : List α, sep ∉ pending →
        (ReadsCores sep blank pending texts ↔
          Separated sep blank
            (decide (strip blank pending ≠ [])) texts)) :
    ReadsCores sep blank pending (text :: texts) ↔
      Separated sep blank
        (decide (strip blank pending ≠ []))
        (text :: texts) := by
  have hGaps := strip_eq_nil_iff.mp hNone
  rw [Separated, if_pos hNone, ReadsCores, cores_cons, hNone,
    List.flatten_cons]
  by_cases hMem : sep ∈ text
  · have hEmpty := ih [] (by simp)
    rw [pieces_append_gap hGaps hSep hMem]
    simpa [ReadsCores, nonempty, pieces, hMem] using hEmpty
  · have hBlanks : ∀ x ∈ text, blank x = true := by
      intro x hx
      apply blank_of_isGap (hGaps x hx)
      rintro rfl
      exact hMem hx
    have hMore :=
      ih (pending ++ text) (by simp [hPending, hMem])
    rw [ReadsCores, pieces_append_right hSep hBlanks,
      strip_append_right hBlanks] at hMore
    simpa [nonempty, hMem] using hMore

/- A block with code that begins a piece. -/
theorem pieces_append_core
    (hSep : blank sep = false)
    (hCode : strip (isGap sep blank) text ≠ [])
    (hCore : sep ∉ strip (isGap sep blank) text)
    (hBegins :
      strip blank pending ≠ [] →
        sep ∈ text.takeWhile (isGap sep blank))
    (ih :
      ∀ pending : List α, sep ∉ pending →
        (ReadsCores sep blank pending texts ↔
          Separated sep blank
            (decide (strip blank pending ≠ [])) texts)) :
    ReadsCores sep blank pending (text :: texts) ↔
      Separated sep blank
        (decide
          (sep ∉
            (text.dropWhile (isGap sep blank)).rtakeWhile
              (isGap sep blank)))
        texts := by
  have hBack :
      ∀ x ∈ (text.dropWhile (isGap sep blank)).rtakeWhile
        (isGap sep blank), isGap sep blank x = true :=
    forall_mem_rtakeWhile
  have hStrip :
      strip blank (strip (isGap sep blank) text) =
        strip (isGap sep blank) text :=
    strip_strip isGap_of_blank text
  rw [ReadsCores, cores_cons, List.flatten_cons,
    pieces_append_begins hSep hBegins,
    List.append_cancel_left_eq]
  generalize (text.dropWhile (isGap sep blank)).rtakeWhile
    (isGap sep blank) = back at *
  generalize strip (isGap sep blank) text = core at *
  have hOne : nonempty [core] = [core] := by
    simp [nonempty, hCode]
  by_cases hMem : sep ∈ back
  · have hEmpty := ih [] (by simp)
    rw [pieces_append_gap hBack hSep hMem,
      pieces_of_notMem hCore, hStrip,
      List.append_cancel_left_eq]
    simpa [ReadsCores, nonempty, pieces, hMem] using hEmpty
  · have hBlanks : ∀ x ∈ back, blank x = true := by
      intro x hx
      apply blank_of_isGap (hBack x hx)
      rintro rfl
      exact hMem hx
    have hMore :=
      ih (core ++ back) (by simp [hCore, hMem])
    rw [ReadsCores, pieces_append_right hSep hBlanks,
      strip_append_right hBlanks, hStrip,
      pieces_of_notMem hCore, hStrip] at hMore
    rw [← List.append_assoc]
    simpa [hMem, hCode] using hMore

/-
  The pieces of a text in blocks, behind a pending text, are
  the cores of the blocks if and only if the separators
  stand between these.
-/
theorem pieces_append_flatten_iff
    (hSep : blank sep = false)
    (hPending : sep ∉ pending) :
    ReadsCores sep blank pending texts ↔
      Separated sep blank
        (decide (strip blank pending ≠ [])) texts := by
  induction texts generalizing pending with
  | nil => simp [ReadsCores, cores, nonempty, Separated]
  | cons text texts ih =>
      by_cases hNone : strip (isGap sep blank) text = []
      · exact pieces_append_blanks hSep hPending hNone fun _ => ih
      · rw [Separated, if_neg hNone, decide_eq_true_iff]
        by_cases hCore : sep ∈ strip (isGap sep blank) text
        · -- no piece has a separator, but this core does
          refine
            ⟨fun hSame => ?_,
              fun hAll => (hAll.1 hCore).elim⟩
          have hMem :
              strip (isGap sep blank) text ∈
                pieces sep blank
                  (pending ++ (text :: texts).flatten) := by
            rw [hSame, cores_cons]
            simp [nonempty, hNone]
          exact ((infix_of_mem_pieces hMem).2 hCore).elim
        · by_cases hBegins :
              strip blank pending ≠ [] →
                sep ∈ text.takeWhile (isGap sep blank)
          · rw [pieces_append_core hSep hNone hCore hBegins
              fun _ => ih]
            exact
              ⟨fun hRest => ⟨hCore, hBegins, hRest⟩,
                fun hAll => hAll.2.2⟩
          · rw [Classical.not_imp] at hBegins
            have hNe :=
              pieces_append_ne hPending hBegins.1 hNone
                hBegins.2 hCore texts.flatten
                (cores sep blank (text :: texts))
            rw [ReadsCores, List.flatten_cons]
            exact
              ⟨fun hSame => (hNe hSame).elim,
                fun hAll =>
                  (hBegins.2 (hAll.2.1 hBegins.1)).elim⟩

section Taken

variable {β : Type} {read : β → List α} {takes : β → Bool}

/- Blocks without code have no core. -/
theorem cores_filter
    {blocks : List β}
    (hNone :
      ∀ block ∈ blocks, takes block = false →
        strip (isGap sep blank) (read block) = []) :
    cores sep blank (blocks.map read) =
      cores sep blank ((blocks.filter takes).map read) := by
  induction blocks with
  | nil => rfl
  | cons block blocks ih =>
      have hRest := ih fun other hOther =>
        hNone other (List.mem_cons_of_mem block hOther)
      rw [List.map_cons, cores_cons, hRest]
      cases hTakes : takes block with
      | true =>
          rw [List.filter_cons_of_pos hTakes, List.map_cons,
            cores_cons]
      | false =>
          have hCore := hNone block List.mem_cons_self hTakes
          rw [List.filter_cons_of_neg (by simp [hTakes]),
            hCore]
          rfl

/- A text has all the code of the blocks that are taken. -/
theorem countCode_filter_le (blocks : List β) :
    countCode sep blank ((blocks.filter takes).flatMap read) ≤
      countCode sep blank (blocks.flatMap read) := by
  have hSublist :
      ((blocks.filter takes).flatMap read).Sublist
        (blocks.flatMap read) :=
    List.filter_sublist.flatMap read
  exact hSublist.countP_le

/- Where no code is lost, the other blocks have none. -/
theorem strip_eq_nil_of_countCode
    {blocks : List β}
    (hCount :
      countCode sep blank (blocks.flatMap read) =
        countCode sep blank
          ((blocks.filter takes).flatMap read)) :
    ∀ block ∈ blocks, takes block = false →
      strip (isGap sep blank) (read block) = [] := by
  induction blocks with
  | nil => simp
  | cons block blocks ih =>
      have hLe :
          countCode sep blank
              ((blocks.filter takes).flatMap read) ≤
            countCode sep blank (blocks.flatMap read) :=
        countCode_filter_le blocks
      rw [List.flatMap_cons, countCode_append] at hCount
      cases hTakes : takes block with
      | true =>
          rw [List.filter_cons_of_pos hTakes,
            List.flatMap_cons, countCode_append,
            Nat.add_left_cancel_iff] at hCount
          intro other hOther hNot
          rcases List.mem_cons.mp hOther with rfl | hLater
          · simp [hTakes] at hNot
          · exact ih hCount other hLater hNot
      | false =>
          rw [List.filter_cons_of_neg (by simp [hTakes])]
            at hCount
          intro other hOther hNot
          rcases List.mem_cons.mp hOther with rfl | hLater
          · apply countCode_eq_zero_iff.mp
            omega
          · exact ih (by omega) other hLater hNot

/-
  A reader that takes only some of the blocks loses no piece
  exactly if the others have none, and the separators stand
  between the blocks.
-/
theorem pieces_eq_cores_filter_iff
    (hSep : blank sep = false)
    (blocks : List β) :
    pieces sep blank (blocks.flatMap read) =
        cores sep blank ((blocks.filter takes).map read) ↔
      (∀ block ∈ blocks, takes block = false →
        strip (isGap sep blank) (read block) = []) ∧
        Separated sep blank false (blocks.map read) := by
  have hAll :
      pieces sep blank (blocks.flatMap read) =
          cores sep blank (blocks.map read) ↔
        Separated sep blank false (blocks.map read) := by
    have hIff :
        ReadsCores sep blank [] (blocks.map read) ↔ _ :=
      pieces_append_flatten_iff hSep (by simp)
    simpa [ReadsCores, pieces, nonempty, List.flatMap]
      using hIff
  constructor
  · intro hSame
    have hCount :=
      congrArg
        (fun texts => countCode sep blank texts.flatten) hSame
    simp only [countCode_pieces, countCode_cores,
      ← List.flatMap_def] at hCount
    have hNone := strip_eq_nil_of_countCode hCount
    refine ⟨hNone, hAll.mp ?_⟩
    rw [hSame, cores_filter hNone]
  · intro hBoth
    exact
      (hAll.mpr hBoth.2).trans (cores_filter hBoth.1)

end Taken

end Separated

end OrderApi
