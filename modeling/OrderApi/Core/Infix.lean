import Mathlib.Data.List.Infix

/-
  Parts of a text that is put together.

  A part without the separator occurs on one side of it or
  on the other.  A part with separators in it may also lie
  across one.

  Key theorems include:
    * `infix_append_sep_iff`
    * `infix_append_cons_iff`
    * `parted_infix_iff`
    * `infix_append_of_apart`
    * `infix_append_of_apart_right`
-/

------------------------------------------------------------
-- Parts of Two Texts
------------------------------------------------------------

namespace OrderApi

variable {α : Type} {part front back : List α} {q : α}

/-
  A text without the separator, in front of one: it ends at
  the first separator of the whole text.
-/
theorem split_at_sep
    {text left right : List α}
    (hPart : q ∉ part)
    (hSame : part ++ q :: text = left ++ q :: right) :
    left = part ∧ right = text ∨
      ∃ more,
        left = part ++ q :: more ∧
          text = more ++ q :: right := by
  induction part generalizing left with
  | nil =>
      cases left with
      | nil => exact Or.inl ⟨rfl, (List.cons.inj hSame).2.symm⟩
      | cons x left =>
          rcases List.cons.inj hSame with ⟨hx, hRest⟩
          exact Or.inr ⟨left, by rw [← hx]; rfl, hRest⟩
  | cons y part ih =>
      rw [List.mem_cons, not_or] at hPart
      cases left with
      | nil =>
          exact (hPart.1 (List.cons.inj hSame).1.symm).elim
      | cons x left =>
          rcases List.cons.inj hSame with ⟨hx, hRest⟩
          rw [← hx]
          rcases ih hPart.2 hRest with
            ⟨hLeft, hRight⟩ | ⟨more, hLeft, hText⟩
          · exact Or.inl ⟨by rw [hLeft], hRight⟩
          · exact Or.inr ⟨more, by rw [hLeft]; rfl, hText⟩

/- A part lies on a side of the separator, or across it. -/
theorem infix_append_sep_iff :
    part <:+: front ++ q :: back ↔
      part <:+: front ∨ part <:+: back ∨
        ∃ left right,
          part = left ++ q :: right ∧
            left <:+ front ∧ right <+: back := by
  rw [List.infix_append_iff]
  constructor
  · intro hSome
    rcases hSome with
      hFront | hBack | ⟨left, right, hPart, hLeft, hRight⟩
    · exact Or.inl hFront
    · rcases List.infix_cons_iff.mp hBack with hPrefix | hRest
      · cases part with
        | nil => exact Or.inl List.nil_infix
        | cons x part =>
            rw [List.cons_prefix_cons] at hPrefix
            exact
              Or.inr (Or.inr
                ⟨[], part, by simp [hPrefix.1],
                  List.nil_suffix, hPrefix.2⟩)
      · exact Or.inr (Or.inl hRest)
    · cases right with
      | nil =>
          rw [List.append_nil] at hPart
          rw [hPart]
          exact Or.inl hLeft.isInfix
      | cons x right =>
          rw [List.cons_prefix_cons] at hRight
          refine Or.inr (Or.inr ⟨left, right, ?_, hLeft, ?_⟩)
          · rw [hPart, hRight.1]
          · exact hRight.2
  · intro hSome
    rcases hSome with
      hFront | hBack | ⟨left, right, hPart, hLeft, hRight⟩
    · exact Or.inl hFront
    · exact
        Or.inr (Or.inl (List.infix_cons_iff.mpr (Or.inr hBack)))
    · exact
        Or.inr (Or.inr
          ⟨left, q :: right, hPart, hLeft,
            List.cons_prefix_cons.mpr ⟨rfl, hRight⟩⟩)

/- A part without the separator lies on a side of it. -/
theorem infix_append_cons_iff (hPart : q ∉ part) :
    part <:+: front ++ q :: back ↔
      part <:+: front ∨ part <:+: back := by
  rw [infix_append_sep_iff]
  constructor
  · intro hSome
    rcases hSome with
      hFront | hBack | ⟨left, right, hSplit, _⟩
    · exact Or.inl hFront
    · exact Or.inr hBack
    · exact (hPart (by simp [hSplit])).elim
  · intro hSome
    rcases hSome with hFront | hBack
    · exact Or.inl hFront
    · exact Or.inr (Or.inl hBack)

/- A part with two separators, the second one at its end. -/
theorem parted_infix_iff
    {a b : List α}
    (hA : q ∉ a)
    (hB : q ∉ b) :
    a ++ q :: (b ++ [q]) <:+: front ++ q :: back ↔
      a ++ q :: (b ++ [q]) <:+: front ∨
        a ++ q :: (b ++ [q]) <:+: back ∨
        (a <:+ front ∧ b ++ [q] <+: back) ∨
        a ++ q :: b <:+ front := by
  have hSplits :
      ∀ left right,
        a ++ q :: (b ++ [q]) = left ++ q :: right →
          left = a ∧ right = b ++ [q] ∨
            left = a ++ q :: b ∧ right = [] := by
    intro left right hSame
    rcases split_at_sep hA hSame with
      hFirst | ⟨more, hLeft, hMore⟩
    · exact Or.inl hFirst
    · rcases split_at_sep hB hMore with
        ⟨hEnd, hRight⟩ | ⟨last, _, hLast⟩
      · rw [hLeft, hEnd]
        exact Or.inr ⟨rfl, hRight⟩
      · have hNe : last ++ q :: right ≠ [] := by simp
        exact (hNe hLast.symm).elim
  rw [infix_append_sep_iff]
  constructor
  · intro hSome
    rcases hSome with
      hFront | hBack | ⟨left, right, hPart, hLeft, hRight⟩
    · exact Or.inl hFront
    · exact Or.inr (Or.inl hBack)
    · rcases hSplits left right hPart with
        ⟨hFirst, hSecond⟩ | ⟨hFirst, _⟩
      · rw [hFirst] at hLeft
        rw [hSecond] at hRight
        exact Or.inr (Or.inr (Or.inl ⟨hLeft, hRight⟩))
      · rw [hFirst] at hLeft
        exact Or.inr (Or.inr (Or.inr hLeft))
  · intro hSome
    rcases hSome with hFront | hBack | hFirst | hSecond
    · exact Or.inl hFront
    · exact Or.inr (Or.inl hBack)
    · exact
        Or.inr (Or.inr
          ⟨a, b ++ [q], rfl, hFirst.1, hFirst.2⟩)
    · exact
        Or.inr (Or.inr
          ⟨a ++ q :: b, [], by simp, hSecond,
            List.nil_prefix⟩)

/- Where no part begins in the first text, none crosses. -/
theorem infix_append_of_apart
    (hApart : ∀ left ∈ part.inits, left <:+ front → left = []) :
    part <:+: front ++ back ↔
      part <:+: front ∨ part <:+: back := by
  rw [List.infix_append_iff]
  constructor
  · intro hSome
    rcases hSome with
      hFront | hBack | ⟨left, right, hPart, hLeft, hRight⟩
    · exact Or.inl hFront
    · exact Or.inr hBack
    · have hMem : left ∈ part.inits := by
        rw [List.mem_inits, hPart]
        exact List.prefix_append left right
      rw [hApart left hMem hLeft, List.nil_append] at hPart
      rw [hPart]
      exact Or.inr hRight.isInfix
  · intro hSome
    rcases hSome with hFront | hBack
    · exact Or.inl hFront
    · exact Or.inr (Or.inl hBack)

/- The same for a part that does not end in the second. -/
theorem infix_append_of_apart_right
    (hApart : ∀ right ∈ part.tails, right <+: back → right = []) :
    part <:+: front ++ back ↔
      part <:+: front ∨ part <:+: back := by
  rw [List.infix_append_iff]
  constructor
  · intro hSome
    rcases hSome with
      hFront | hBack | ⟨left, right, hPart, hLeft, hRight⟩
    · exact Or.inl hFront
    · exact Or.inr hBack
    · have hMem : right ∈ part.tails := by
        rw [List.mem_tails, hPart]
        exact List.suffix_append left right
      rw [hApart right hMem hRight, List.append_nil] at hPart
      rw [hPart]
      exact Or.inl hLeft.isInfix
  · intro hSome
    rcases hSome with hFront | hBack
    · exact Or.inl hFront
    · exact Or.inr (Or.inl hBack)

/- A prefix that ends with the separator ends at the first. -/
theorem prefix_append_sep_iff
    {b : List α}
    (hB : q ∉ b) :
    b ++ [q] <+: front ++ q :: back ↔
      b ++ [q] <+: front ++ [q] := by
  constructor
  · intro hPrefix
    rcases hPrefix with ⟨rest, hRest⟩
    rw [List.append_assoc, List.singleton_append] at hRest
    rcases split_at_sep hB hRest with
      ⟨hFront, _⟩ | ⟨more, hFront, _⟩
    · rw [hFront]
    · rw [hFront]
      exact ⟨more ++ [q], by simp⟩
  · intro hPrefix
    have hMore : front ++ [q] <+: front ++ q :: back :=
      ⟨back, by simp⟩
    exact hPrefix.trans hMore

end OrderApi
