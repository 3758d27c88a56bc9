import OrderApi.Core.Completion

/-
  A list that is cut into chunks.

  A chunk begins with the first item that is no gap, and it
  ends as soon as the items in it are complete.  Gaps stand
  between chunks and behind the last one.

  Key definitions include:
    * `Chunk`
    * `Partitions`

  Key theorems include:
    * `Partitions.of_gaps`
    * `Partitions.of_rest`
    * `Partitions.cons`
    * `Partitions.unique`
-/

------------------------------------------------------------
-- Chunks
------------------------------------------------------------

namespace OrderApi

variable {α : Type}

/- The gaps in front of a chunk, and its items. -/
structure Chunk (α : Type) where
  gap : List α
  items : List α

def Chunk.whole (chunk : Chunk α) : List α :=
  chunk.gap ++ chunk.items

/-
  The chunks, each with its gaps, and the gaps behind them
  are the whole list.  Every chunk but the last is complete,
  and none is complete before its last item.
-/
structure Partitions
    (Gap : α → Prop)
    (Ends : List α → Prop)
    (list : List α)
    (chunks : List (Chunk α))
    (after : List α) : Prop where
  whole : chunks.flatMap Chunk.whole ++ after = list
  gaps : ∀ chunk ∈ chunks, ∀ x ∈ chunk.gap, Gap x
  gaps_after : ∀ x ∈ after, Gap x
  begins :
    ∀ chunk ∈ chunks, ∃ x items,
      chunk.items = x :: items ∧ ¬ Gap x
  complete : ∀ chunk ∈ chunks.dropLast, Ends chunk.items
  /- an incomplete chunk goes on to the end of the list -/
  rest :
    ∀ chunk ∈ chunks.getLast?,
      ¬ Ends chunk.items → after = []
  first :
    ∀ chunk ∈ chunks, ∀ items x more,
      chunk.items = items ++ x :: more → more ≠ [] →
        ¬ Ends (items ++ [x])

/- No part of the items that is shorter is complete. -/
def NotBefore
    (Ends : List α → Prop)
    (items : List α) : Prop :=
  ∀ front x more,
    items = front ++ x :: more → ¬ Ends (front ++ [x])

end OrderApi

------------------------------------------------------------
-- Building Partitions
------------------------------------------------------------

namespace OrderApi

namespace Partitions

variable {α : Type} {Gap : α → Prop} {Ends : List α → Prop}
variable {gap items list after : List α}
variable {chunks : List (Chunk α)} {x : α}

/- A list of gaps has no chunks. -/
theorem of_gaps (hGap : ∀ y ∈ gap, Gap y) :
    Partitions Gap Ends gap [] gap where
  whole := by simp
  gaps := by simp
  gaps_after := hGap
  begins := by simp
  complete := by simp
  rest := by simp
  first := by simp

/- A chunk that goes on to the end of the list. -/
theorem of_rest
    (hGap : ∀ y ∈ gap, Gap y)
    (hBegins : ¬ Gap x)
    (hBefore : NotBefore Ends (x :: items)) :
    Partitions Gap Ends (gap ++ x :: items)
      [⟨gap, x :: items⟩] [] where
  whole := by simp [Chunk.whole]
  gaps := by simpa using hGap
  gaps_after := by simp
  begins := by simp [hBegins]
  complete := by simp
  rest := by simp
  first := by
    intro chunk hChunk front y more hItems _
    rw [List.mem_singleton.mp hChunk] at hItems
    exact hBefore front y more hItems

/- A chunk in front of a list that is partitioned. -/
theorem cons
    (hRest : Partitions Gap Ends list chunks after)
    (hGap : ∀ y ∈ gap, Gap y)
    (hBegins : ∃ y more, items ++ [x] = y :: more ∧ ¬ Gap y)
    (hBefore : NotBefore Ends items)
    (hEnds : Ends (items ++ [x])) :
    Partitions Gap Ends (gap ++ (items ++ [x]) ++ list)
      (⟨gap, items ++ [x]⟩ :: chunks) after where
  whole := by
    rw [List.flatMap_cons, List.append_assoc, hRest.whole]
    rfl
  gaps := by
    intro chunk hChunk
    rcases List.mem_cons.mp hChunk with hFirst | hOther
    · rw [hFirst]
      exact hGap
    · exact hRest.gaps chunk hOther
  gaps_after := hRest.gaps_after
  begins := by
    intro chunk hChunk
    rcases List.mem_cons.mp hChunk with hFirst | hOther
    · rw [hFirst]
      exact hBegins
    · exact hRest.begins chunk hOther
  complete := by
    intro chunk hChunk
    by_cases hLast : chunks = []
    · simp [hLast] at hChunk
    · rw [List.dropLast_cons_of_ne_nil hLast,
        List.mem_cons] at hChunk
      rcases hChunk with hFirst | hOther
      · rw [hFirst]
        exact hEnds
      · exact hRest.complete chunk hOther
  rest := by
    intro chunk hChunk hOpen
    by_cases hLast : chunks = []
    · simp only [hLast, List.getLast?_singleton,
        Option.mem_some_iff] at hChunk
      rw [← hChunk] at hOpen
      exact (hOpen hEnds).elim
    · rw [List.getLast?_cons_of_ne_nil hLast] at hChunk
      exact hRest.rest chunk hChunk hOpen
  first := by
    intro chunk hChunk front y more hItems hMore
    rcases List.mem_cons.mp hChunk with hFirst | hOther
    · rw [hFirst] at hItems
      rcases List.eq_nil_or_concat more with
        hNil | ⟨more', z, hConcat⟩
      · exact (hMore hNil).elim
      · rw [hConcat, List.concat_eq_append,
          ← List.cons_append, ← List.append_assoc] at hItems
        have hInit := List.append_inj_left' hItems rfl
        exact hBefore front y more' hInit
    · exact hRest.first chunk hOther front y more hItems hMore

end Partitions

namespace NotBefore

variable {α : Type} {Ends : List α → Prop}
variable {items : List α} {x : α}

theorem nil : NotBefore Ends [] := by
  intro front y more hItems
  simp at hItems

/- One more item, with which it is not complete either. -/
theorem append
    (hBefore : NotBefore Ends items)
    (hOpen : ¬ Ends (items ++ [x])) :
    NotBefore Ends (items ++ [x]) := by
  intro front y more hItems
  rcases List.eq_nil_or_concat more with
    hNil | ⟨more', z, hConcat⟩
  · rw [hNil] at hItems
    rwa [← hItems]
  · rw [hConcat, List.concat_eq_append,
      ← List.cons_append, ← List.append_assoc] at hItems
    have hInit := List.append_inj_left' hItems rfl
    exact hBefore front y more' hInit

end NotBefore

end OrderApi

------------------------------------------------------------
-- There Is One Partition
------------------------------------------------------------

namespace OrderApi

namespace Partitions

variable {α : Type} {Gap : α → Prop} {Ends : List α → Prop}
variable {list after after' : List α}
variable {chunk chunk' : Chunk α}
variable {chunks chunks' : List (Chunk α)}

/- What follows the first chunk is partitioned. -/
theorem tail
    (hParts :
      Partitions Gap Ends list (chunk :: chunks) after) :
    Partitions Gap Ends
      (chunks.flatMap Chunk.whole ++ after) chunks after where
  whole := rfl
  gaps other hOther :=
    hParts.gaps other (List.mem_cons_of_mem chunk hOther)
  gaps_after := hParts.gaps_after
  begins other hOther :=
    hParts.begins other (List.mem_cons_of_mem chunk hOther)
  complete := by
    intro other hOther
    apply hParts.complete
    by_cases hNone : chunks = []
    · simp [hNone] at hOther
    · rw [List.dropLast_cons_of_ne_nil hNone]
      exact List.mem_cons_of_mem chunk hOther
  rest := by
    intro other hOther
    apply hParts.rest
    by_cases hNone : chunks = []
    · simp [hNone] at hOther
    · rwa [List.getLast?_cons_of_ne_nil hNone]
  first other hOther :=
    hParts.first other (List.mem_cons_of_mem chunk hOther)

/- A chunk that is not complete is the end of the list. -/
theorem ends_of_incomplete
    (hParts :
      Partitions Gap Ends list (chunk :: chunks) after)
    (hOpen : ¬ Ends chunk.items) :
    chunks.flatMap Chunk.whole ++ after = [] := by
  have hLast : chunks = [] := by
    by_contra hNone
    apply hOpen
    apply hParts.complete
    rw [List.dropLast_cons_of_ne_nil hNone]
    exact List.mem_cons_self
  have hAfter : after = [] := by
    apply hParts.rest chunk _ hOpen
    simp [hLast]
  simp [hLast, hAfter]

/- A list with a chunk has an item that is no gap. -/
theorem exists_not_gap
    (hParts :
      Partitions Gap Ends list (chunk :: chunks) after) :
    ∃ x ∈ list, ¬ Gap x := by
  rcases hParts.begins chunk List.mem_cons_self with
    ⟨x, items, hItems, hBegins⟩
  refine ⟨x, ?_, hBegins⟩
  rw [← hParts.whole]
  simp [Chunk.whole, hItems]

/- The gaps in front of the first chunk are the same. -/
theorem gap_eq
    (hParts :
      Partitions Gap Ends list (chunk :: chunks) after)
    (hParts' :
      Partitions Gap Ends list (chunk' :: chunks') after') :
    chunk'.gap = chunk.gap := by
  rcases hParts.begins chunk List.mem_cons_self with
    ⟨x, items, hItems, hBegins⟩
  rcases hParts'.begins chunk' List.mem_cons_self with
    ⟨x', items', hItems', hBegins'⟩
  have hGap := hParts.gaps chunk List.mem_cons_self
  have hGap' := hParts'.gaps chunk' List.mem_cons_self
  have hSame := hParts.whole.trans hParts'.whole.symm
  simp only [List.flatMap_cons, Chunk.whole, hItems, hItems',
    List.append_assoc, List.cons_append] at hSame
  rcases split_cases hSame with
    hBoth | ⟨middle, hMore⟩ | ⟨middle, hMore⟩
  · exact hBoth.1
  · exact (hBegins (hGap' x (by simp [hMore]))).elim
  · exact (hBegins' (hGap x' (by simp [hMore]))).elim

/- A chunk that is a part of another one is all of it. -/
theorem items_eq_of_prefix
    {more : List α}
    (hParts :
      Partitions Gap Ends list (chunk :: chunks) after)
    (hParts' :
      Partitions Gap Ends list (chunk' :: chunks') after')
    (hItems : chunk'.items = chunk.items ++ more)
    (hMore :
      chunks.flatMap Chunk.whole ++ after =
        more ++ (chunks'.flatMap Chunk.whole ++ after')) :
    chunk'.items = chunk.items := by
  by_cases hNone : more = []
  · rw [hItems, hNone, List.append_nil]
  · exfalso
    have hOpen : ¬ Ends chunk.items := by
      rcases List.eq_nil_or_concat chunk.items with
        hNil | ⟨front, y, hConcat⟩
      · rcases hParts.begins chunk List.mem_cons_self with
          ⟨x, items, hCons, _⟩
        rw [hNil] at hCons
        cases hCons
      · rw [List.concat_eq_append] at hConcat
        have hSplit : chunk'.items = front ++ y :: more := by
          rw [hItems, hConcat, List.append_assoc,
            List.singleton_append]
        rw [hConcat]
        exact
          hParts'.first chunk' List.mem_cons_self front y more
            hSplit hNone
    rw [hParts.ends_of_incomplete hOpen] at hMore
    exact hNone (List.append_eq_nil_iff.mp hMore.symm).1

/- A list has one partition at most. -/
theorem unique
    (hParts : Partitions Gap Ends list chunks after)
    (hParts' : Partitions Gap Ends list chunks' after') :
    chunks' = chunks ∧ after' = after := by
  induction chunks generalizing list chunks' with
  | nil =>
      cases chunks' with
      | nil =>
          have hSame := hParts'.whole.trans hParts.whole.symm
          exact ⟨rfl, by simpa using hSame⟩
      | cons chunk' chunks' =>
          rcases hParts'.exists_not_gap with ⟨x, hx, hNot⟩
          rw [← hParts.whole] at hx
          exact
            (hNot (hParts.gaps_after x (by simpa using hx))).elim
  | cons chunk chunks ih =>
      cases chunks' with
      | nil =>
          rcases hParts.exists_not_gap with ⟨x, hx, hNot⟩
          rw [← hParts'.whole] at hx
          exact
            (hNot
              (hParts'.gaps_after x (by simpa using hx))).elim
      | cons chunk' chunks' =>
          have hGap := hParts.gap_eq hParts'
          have hSame := hParts.whole.trans hParts'.whole.symm
          simp only [List.flatMap_cons, Chunk.whole, hGap,
            List.append_assoc,
            List.append_cancel_left_eq] at hSame
          have hItems : chunk'.items = chunk.items := by
            rcases List.append_eq_append_iff.mp hSame with
              ⟨more, hLonger, hMore⟩ | ⟨more, hLonger, hMore⟩
            · exact
                hParts.items_eq_of_prefix hParts' hLonger
                  hMore
            · exact
                (hParts'.items_eq_of_prefix hParts hLonger
                  hMore).symm
          have hChunk : chunk' = chunk := by
            rcases chunk with ⟨gap, items⟩
            rcases chunk' with ⟨gap', items'⟩
            simp only at hGap hItems
            rw [hGap, hItems]
          rw [hItems, List.append_cancel_left_eq] at hSame
          have hTail' := hParts'.tail
          rw [← hSame] at hTail'
          rcases ih hParts.tail hTail' with
            ⟨hChunks, hAfter⟩
          exact ⟨by rw [hChunk, hChunks], hAfter⟩

end Partitions

end OrderApi
