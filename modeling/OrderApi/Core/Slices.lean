import Mathlib.Data.List.Basic

/-
  Lists that are read slice by slice.

  Slices are numbered from one.  They have the same size,
  but for the last one, and put one after the other they are
  the list.

  Key definitions include:
    * `slice`
    * `sliceCount`

  Key theorems include:
    * `length_slice`
    * `slice_eq_nil_iff`
    * `flatMap_slice`
    * `length_le_sliceCount_mul`
    * `lt_length_of_lt_sliceCount`
-/

------------------------------------------------------------
-- Slices
------------------------------------------------------------

namespace OrderApi

variable {α : Type}

/- The slice with a number, cut off at the end of the list. -/
def slice (size number : Nat) (rows : List α) : List α :=
  (rows.drop ((number - 1) * size)).take size

/- A slice that ends inside the list is full. -/
theorem length_slice
    {size number : Nat}
    {rows : List α}
    (hNumber : 1 ≤ number)
    (hInside : number * size ≤ rows.length) :
    (slice size number rows).length = size := by
  have hStart : number * size = (number - 1) * size + size := by
    have hSucc : number = number - 1 + 1 := by omega
    have hMul := Nat.succ_mul (number - 1) size
    rw [Nat.succ_eq_add_one, ← hSucc] at hMul
    exact hMul
  rw [slice, List.length_take, List.length_drop]
  omega

/- A slice is empty if the list ends before it begins. -/
theorem slice_eq_nil_iff
    {size number : Nat}
    {rows : List α}
    (hSize : 1 ≤ size) :
    slice size number rows = [] ↔
      rows.length ≤ (number - 1) * size := by
  have hNonzero : size ≠ 0 := by omega
  rw [slice, List.take_eq_nil_iff, List.drop_eq_nil_iff]
  simp [hNonzero]

/- The first slices are what the list begins with. -/
theorem flatMap_slice_eq_take
    (size count : Nat)
    (rows : List α) :
    ((List.range count).flatMap fun n =>
        slice size (n + 1) rows) =
      rows.take (count * size) := by
  induction count with
  | zero => simp
  | succ count ih =>
      rw [List.range_succ, List.flatMap_append, ih,
        List.flatMap_singleton, Nat.succ_mul,
        List.take_add, slice, Nat.add_sub_cancel]

/- Enough slices are the whole list. -/
theorem flatMap_slice
    {size count : Nat}
    {rows : List α}
    (hEnough : rows.length ≤ count * size) :
    ((List.range count).flatMap fun n =>
        slice size (n + 1) rows) =
      rows := by
  rw [flatMap_slice_eq_take]
  exact List.take_of_length_le hEnough

end OrderApi

------------------------------------------------------------
-- Counting Slices
------------------------------------------------------------

namespace OrderApi

/- How many slices a list has; an empty list has one. -/
def sliceCount (length size : Nat) : Nat :=
  max 1 ((length + size - 1) / size)

/- The slices cover the list. -/
theorem length_le_sliceCount_mul
    {length size : Nat}
    (hSize : 1 ≤ size) :
    length ≤ sliceCount length size * size := by
  have hDivide :=
    Nat.lt_mul_of_div_lt
      (Nat.lt_succ_self ((length + size - 1) / size)) hSize
  have hCount :
      (length + size - 1) / size ≤
        sliceCount length size := by
    unfold sliceCount
    omega
  have hMul := Nat.mul_le_mul_right size hCount
  rw [Nat.succ_mul] at hDivide
  omega

/- Every slice before the last one ends inside the list. -/
theorem lt_length_of_lt_sliceCount
    {length size number : Nat}
    (hNumber : 1 ≤ number)
    (hBefore : number < sliceCount length size) :
    number * size < length := by
  have hDivide :=
    Nat.div_mul_le_self (length + size - 1) size
  have hCount : number < (length + size - 1) / size := by
    unfold sliceCount at hBefore
    omega
  have hMul := Nat.mul_le_mul_right size hCount
  rw [Nat.succ_mul] at hMul
  have hSize : 0 < size := by
    rcases Nat.eq_zero_or_pos size with rfl | hPos
    · simp at hCount
    · exact hPos
  omega

end OrderApi
