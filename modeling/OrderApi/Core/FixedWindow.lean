import Mathlib.Data.List.TakeWhile

/-
  Fixed windows over a list of times.

  A window starts with the first time behind the previous
  window, and takes in the times before its start plus a
  given length.  A limiter lets the first `max` times of
  every window pass.

  Key definitions include:
    * `FixedWindow.windows`
    * `FixedWindow.counts`
    * `FixedWindow.passed`

  Key theorems include:
    * `FixedWindow.flatten_windows`
    * `FixedWindow.counts_none`
    * `FixedWindow.countP_passed_le`
    * `FixedWindow.windows_passed`
    * `FixedWindow.counts_append`
    * `FixedWindow.open_count`
-/

------------------------------------------------------------
-- Windows
------------------------------------------------------------

namespace OrderApi

namespace FixedWindow

/- Whether a time falls into the window of a start. -/
def within (length start time : Nat) : Bool :=
  time < start + length

/- The windows that a list of times falls into, in order. -/
def windows (length : Nat) : List Nat → List (List Nat)
  | [] => []
  | start :: times =>
      (start :: times.takeWhile (within length start)) ::
        windows length
          (times.dropWhile (within length start))
termination_by times => times.length
decreasing_by
  have hShorter :=
    (List.dropWhile_sublist (l := times)
      (within length start)).length_le
  simp only [List.length_cons]
  omega

/- The first `max` times of every window. -/
def passed (length max : Nat) (times : List Nat) : List Nat :=
  (windows length times).flatMap fun window =>
    window.take max

@[simp] theorem windows_nil (length : Nat) :
    windows length [] = [] := by
  rw [windows]

theorem windows_cons
    (length start : Nat)
    (times : List Nat) :
    windows length (start :: times) =
      (start :: times.takeWhile (within length start)) ::
        windows length
          (times.dropWhile (within length start)) := by
  rw [windows]

theorem windows_of_all_within
    {length start : Nat}
    {times : List Nat}
    (hWithin :
      ∀ time ∈ times, within length start time = true) :
    windows length (start :: times) = [start :: times] := by
  rw [windows_cons, List.takeWhile_eq_self_iff.mpr hWithin,
    List.dropWhile_eq_nil_iff.mpr hWithin, windows_nil]

@[simp] theorem passed_nil (length max : Nat) :
    passed length max [] = [] := by
  simp [passed]

theorem passed_cons
    (length max start : Nat)
    (times : List Nat) :
    passed length max (start :: times) =
      (start :: times.takeWhile (within length start)).take
          max ++
        passed length max
          (times.dropWhile (within length start)) := by
  rw [passed, windows_cons]
  rfl

/- The windows are the times, cut into pieces. -/
theorem flatten_windows (length : Nat) (times : List Nat) :
    (windows length times).flatten = times := by
  induction times using windows.induct length with
  | case1 => simp
  | case2 start times ih =>
      rw [windows_cons, List.flatten_cons, ih,
        List.cons_append, List.takeWhile_append_dropWhile]

/- Whatever passes is one of the times. -/
theorem mem_of_mem_passed
    {length max : Nat}
    {times : List Nat}
    {time : Nat}
    (hMem : time ∈ passed length max times) :
    time ∈ times := by
  induction times using windows.induct length with
  | case1 => simp at hMem
  | case2 start times ih =>
      rw [passed_cons] at hMem
      rcases List.mem_append.mp hMem with hFirst | hRest
      · have hWindow := List.mem_of_mem_take hFirst
        rcases List.mem_cons.mp hWindow with rfl | hTake
        · exact List.mem_cons_self
        · exact
            List.mem_cons_of_mem _
              ((List.takeWhile_sublist _).subset hTake)
      · exact
          List.mem_cons_of_mem _
            ((List.dropWhile_sublist _).subset (ih hRest))

/- Times behind a window are not before its end. -/
theorem le_of_mem_dropWhile
    {length start : Nat}
    {times : List Nat}
    (hSorted : times.Pairwise (· ≤ ·))
    {time : Nat}
    (hMem : time ∈ times.dropWhile (within length start)) :
    start + length ≤ time := by
  induction times with
  | nil => simp at hMem
  | cons first times ih =>
      rcases List.pairwise_cons.mp hSorted with
        ⟨hFirst, hTimes⟩
      by_cases hWithin : within length start first = true
      · rw [List.dropWhile_cons_of_pos hWithin] at hMem
        exact ih hTimes hMem
      · rw [List.dropWhile_cons_of_neg hWithin] at hMem
        have hBehind : start + length ≤ first := by
          simpa [within] using hWithin
        rcases List.mem_cons.mp hMem with rfl | hLater
        · exact hBehind
        · exact Nat.le_trans hBehind (hFirst _ hLater)

theorem pairwise_dropWhile
    {start : Nat}
    {times : List Nat}
    (hSorted : (start :: times).Pairwise (· ≤ ·))
    (length : Nat) :
    (times.dropWhile (within length start)).Pairwise
      (· ≤ ·) :=
  (List.pairwise_cons.mp hSorted).2.sublist
    (List.dropWhile_sublist _)

end FixedWindow

end OrderApi

------------------------------------------------------------
-- Counters
------------------------------------------------------------

namespace OrderApi

namespace FixedWindow

/- The start of the current window, and the times in it. -/
structure Counter where
  start : Nat
  count : Nat

/- The counter once a time is counted. -/
def count (length : Nat) (counter : Option Counter)
    (time : Nat) : Counter :=
  match counter with
  | none => ⟨time, 1⟩
  | some counter =>
      if within length counter.start time then
        { counter with count := counter.count + 1 }
      else
        ⟨time, 1⟩

/- The counter behind each time, one after the other. -/
def counts (length : Nat) (counter : Option Counter) :
    List Nat → List Counter
  | [] => []
  | time :: times =>
      let counter := count length counter time
      counter :: counts length (some counter) times

/- The counters that the times of one window lead to. -/
def countsOf (window : List Nat) : List Counter :=
  (List.range window.length).map fun n =>
    ⟨window.headD 0, n + 1⟩

/- A counter goes on with its window, and then restarts. -/
theorem counts_some
    (length start : Nat)
    (times : List Nat)
    (n : Nat) :
    counts length (some ⟨start, n⟩) times =
      (List.range
          (times.takeWhile (within length start)).length).map
            (fun i => (⟨start, n + i + 1⟩ : Counter)) ++
        counts length none
          (times.dropWhile (within length start)) := by
  induction times generalizing n with
  | nil => rfl
  | cons time times ih =>
      by_cases hWithin : within length start time = true
      · rw [List.takeWhile_cons_of_pos hWithin,
          List.dropWhile_cons_of_pos hWithin,
          List.length_cons, List.range_succ_eq_map,
          List.map_cons, List.map_map, List.cons_append]
        have hShift :
            (fun i => (⟨start, n + i + 1⟩ : Counter)) ∘
                Nat.succ =
              fun i => ⟨start, n + 1 + i + 1⟩ := by
          funext i
          simp only [Function.comp_apply, Counter.mk.injEq,
            true_and]
          omega
        rw [hShift, ← ih (n + 1)]
        simp [counts, count, hWithin]
      · rw [List.takeWhile_cons_of_neg hWithin,
          List.dropWhile_cons_of_neg hWithin]
        simp [counts, count, hWithin]

/- Counting from nothing numbers the times of each window. -/
theorem counts_none (length : Nat) (times : List Nat) :
    counts length none times =
      (windows length times).flatMap countsOf := by
  induction times using windows.induct length with
  | case1 => simp [counts]
  | case2 start times ih =>
      have hFirst :
          countsOf
              (start :: times.takeWhile
                (within length start)) =
            (⟨start, 1⟩ : Counter) ::
              (List.range (times.takeWhile
                (within length start)).length).map
                  fun i => ⟨start, 1 + i + 1⟩ := by
        rw [countsOf, List.length_cons,
          List.range_succ_eq_map, List.map_cons,
          List.map_map]
        refine congrArg _ (List.map_congr_left ?_)
        intro i _
        simp only [Function.comp_apply, List.headD_cons,
          Counter.mk.injEq, true_and]
        omega
      rw [windows_cons, List.flatMap_cons, ← ih, hFirst,
        List.cons_append, ← counts_some]
      rfl

/- Functions of the counters alone skip the times. -/
theorem zipWith_counts
    {β : Type}
    (length : Nat)
    (counter : Option Counter)
    (times : List Nat)
    (f : Counter → β) :
    times.zipWith (fun _ counter => f counter)
        (counts length counter times) =
      (counts length counter times).map f := by
  induction times generalizing counter with
  | nil => rfl
  | cons time times ih =>
      simp [counts, ih]

/- The times that are counted up to `max`. -/
def kept (length max : Nat) (counter : Option Counter) :
    List Nat → List Nat
  | [] => []
  | time :: times =>
      let counter := count length counter time
      if counter.count ≤ max then
        time :: kept length max (some counter) times
      else
        kept length max (some counter) times

theorem kept_some
    (length max start : Nat)
    (times : List Nat)
    (n : Nat) :
    kept length max (some ⟨start, n⟩) times =
      (times.takeWhile (within length start)).take
          (max - n) ++
        kept length max none
          (times.dropWhile (within length start)) := by
  induction times generalizing n with
  | nil => simp [kept]
  | cons time times ih =>
      by_cases hWithin : within length start time = true
      · rw [List.takeWhile_cons_of_pos hWithin,
          List.dropWhile_cons_of_pos hWithin]
        simp only [kept, count, hWithin, if_true, ih (n + 1)]
        by_cases hMax : n + 1 ≤ max
        · have hLeft : max - n = max - (n + 1) + 1 := by omega
          rw [if_pos hMax, hLeft, List.take_succ_cons,
            List.cons_append]
        · have hLeft : max - n = 0 := by omega
          have hNext : max - (n + 1) = 0 := by omega
          rw [if_neg hMax, hLeft, hNext, List.take_zero,
            List.take_zero]
      · rw [List.takeWhile_cons_of_neg hWithin,
          List.dropWhile_cons_of_neg hWithin]
        simp only [kept, count, hWithin, Bool.false_eq_true,
          if_false, List.take_nil, List.nil_append]
        rfl

/- These are the first `max` times of every window. -/
theorem kept_none (length max : Nat) (times : List Nat) :
    kept length max none times = passed length max times := by
  induction times using windows.induct length with
  | case1 => simp [kept]
  | case2 start times ih =>
      rw [passed_cons, ← ih]
      simp only [kept, count, kept_some]
      cases max with
      | zero => simp
      | succ m =>
          rw [if_pos (by omega), List.take_succ_cons,
            List.cons_append]
          rfl

end FixedWindow

end OrderApi

------------------------------------------------------------
-- Sliding Intervals
------------------------------------------------------------

namespace OrderApi

namespace FixedWindow

/- Whether a time lies in a half-open interval. -/
def inInterval (length first time : Nat) : Bool :=
  first ≤ time && time < first + length

/- Times behind an interval do not count. -/
theorem countP_passed_eq_zero
    {length max first : Nat}
    {times : List Nat}
    (hBehind : ∀ time ∈ times, first + length ≤ time) :
    (passed length max times).countP
      (inInterval length first) = 0 := by
  rw [List.countP_eq_zero]
  intro time hMem
  have hTime := hBehind time (mem_of_mem_passed hMem)
  simp only [inInterval, Bool.and_eq_true,
    decide_eq_true_eq]
  omega

/- Only one window begins inside an interval. -/
theorem countP_passed_le_of_first_le
    {length max first : Nat}
    {times : List Nat}
    (hSorted : times.Pairwise (· ≤ ·))
    (hFirst : ∀ time ∈ times, first ≤ time) :
    (passed length max times).countP
      (inInterval length first) ≤ max := by
  cases times with
  | nil => simp
  | cons start times =>
      have hStart := hFirst start List.mem_cons_self
      have hRest :
          (passed length max (times.dropWhile
              (within length start))).countP
            (inInterval length first) = 0 := by
        apply countP_passed_eq_zero
        intro time hMem
        have hEnd :=
          le_of_mem_dropWhile
            (List.pairwise_cons.mp hSorted).2 hMem
        omega
      rw [passed_cons, List.countP_append, hRest]
      have hWindow :=
        List.countP_le_length (p := inInterval length first)
          (l := (start :: times.takeWhile
            (within length start)).take max)
      have hTake :=
        List.length_take_le max
          (start :: times.takeWhile (within length start))
      omega

/-
  An interval as long as a window meets two windows at most:
  the one that is current at its beginning, and the one that
  begins inside it.
-/
theorem countP_passed_le
    {length : Nat}
    {times : List Nat}
    (hSorted : times.Pairwise (· ≤ ·))
    (max first : Nat) :
    (passed length max times).countP
      (inInterval length first) ≤ 2 * max := by
  induction times using windows.induct length with
  | case1 => simp
  | case2 start times ih =>
      have hTimes := (List.pairwise_cons.mp hSorted).2
      have hLater := pairwise_dropWhile hSorted length
      rw [passed_cons, List.countP_append]
      by_cases hBefore : start + length ≤ first
      · -- the first window ends before the interval begins
        have hWindow :
            ((start :: times.takeWhile
                (within length start)).take max).countP
              (inInterval length first) = 0 := by
          rw [List.countP_eq_zero]
          intro time hMem
          have hTime : time ≤ start ∨ time < start + length := by
            rcases List.mem_cons.mp
              (List.mem_of_mem_take hMem) with rfl | hTake
            · exact Or.inl (Nat.le_refl _)
            · have hWithin := List.mem_takeWhile_imp hTake
              exact Or.inr (by simpa [within] using hWithin)
          simp only [inInterval, Bool.and_eq_true,
            decide_eq_true_eq]
          omega
        have hRest := ih hLater
        omega
      · have hRest :
            (passed length max (times.dropWhile
                (within length start))).countP
              (inInterval length first) ≤ max := by
          apply countP_passed_le_of_first_le hLater
          intro time hMem
          have hEnd := le_of_mem_dropWhile hTimes hMem
          omega
        have hWindow :=
          List.countP_le_length
            (p := inInterval length first)
            (l := (start :: times.takeWhile
              (within length start)).take max)
        have hTake :=
          List.length_take_le max
            (start :: times.takeWhile (within length start))
        omega

end FixedWindow

end OrderApi

------------------------------------------------------------
-- Windows of What Passes
------------------------------------------------------------

namespace OrderApi

namespace FixedWindow

/-
  The times that pass fall into the same windows, each cut
  off, since the first time of every window passes.
-/
theorem windows_passed
    {length max : Nat}
    {times : List Nat}
    (hMax : 0 < max)
    (hSorted : times.Pairwise (· ≤ ·)) :
    windows length (passed length max times) =
      (windows length times).map (List.take max) := by
  induction times using windows.induct length with
  | case1 => simp
  | case2 start times ih =>
      have hTimes := (List.pairwise_cons.mp hSorted).2
      have hLater := pairwise_dropWhile hSorted length
      rcases Nat.exists_eq_add_of_lt hMax with ⟨m, hm⟩
      have hSucc : max = m + 1 := by omega
      subst hSucc
      have hInside :
          ∀ time ∈ (times.takeWhile
              (within length start)).take m,
            within length start time = true := by
        intro time hMem
        exact
          List.mem_takeWhile_imp (List.mem_of_mem_take hMem)
      have hBehind :
          ∀ time ∈ passed length (m + 1) (times.dropWhile
              (within length start)),
            ¬ within length start time = true := by
        intro time hMem
        have hEnd :=
          le_of_mem_dropWhile hTimes (mem_of_mem_passed hMem)
        simp only [within, decide_eq_true_eq]
        omega
      have hTakeNone :
          (passed length (m + 1) (times.dropWhile
              (within length start))).takeWhile
            (within length start) = [] := by
        rw [List.takeWhile_eq_nil_iff]
        intro hNonempty
        exact hBehind _ (List.getElem_mem _)
      have hDropNone :
          (passed length (m + 1) (times.dropWhile
              (within length start))).dropWhile
            (within length start) =
              passed length (m + 1) (times.dropWhile
                (within length start)) := by
        rw [List.dropWhile_eq_self_iff]
        intro hNonempty
        exact hBehind _ (List.getElem_mem _)
      rw [passed_cons, List.take_succ_cons, List.cons_append,
        windows_cons, windows_cons, List.map_cons,
        List.take_succ_cons,
        List.takeWhile_append_of_pos hInside,
        List.dropWhile_append_of_pos hInside, hTakeNone,
        hDropNone, ih hLater, List.append_nil]

/- So no window of what passes is longer than `max`. -/
theorem length_le_of_mem_windows_passed
    {length max : Nat}
    {times : List Nat}
    (hMax : 0 < max)
    (hSorted : times.Pairwise (· ≤ ·))
    {window : List Nat}
    (hMem :
      window ∈ windows length (passed length max times)) :
    window.length ≤ max := by
  rw [windows_passed hMax hSorted] at hMem
  rcases List.mem_map.mp hMem with ⟨whole, _, rfl⟩
  exact List.length_take_le _ _

end FixedWindow

end OrderApi

------------------------------------------------------------
-- Counting On from a Time
------------------------------------------------------------

namespace OrderApi

namespace FixedWindow

/- The counter behind a list of times. -/
def countAll (length : Nat) (counter : Option Counter)
    (times : List Nat) : Option Counter :=
  (counts length counter times).getLast?.or counter

@[simp] theorem counts_length
    (length : Nat)
    (counter : Option Counter)
    (times : List Nat) :
    (counts length counter times).length = times.length := by
  induction times generalizing counter with
  | nil => rfl
  | cons time times ih =>
      simp only [counts, List.length_cons, ih]

theorem countAll_cons
    (length : Nat)
    (counter : Option Counter)
    (time : Nat)
    (times : List Nat) :
    countAll length counter (time :: times) =
      countAll length (some (count length counter time))
        times := by
  unfold countAll
  simp only [counts]
  rw [List.getLast?_cons]
  cases hLast :
      (counts length (some (count length counter time))
        times).getLast? with
  | none => rfl
  | some last => rfl

/- Later times are counted from the counter behind. -/
theorem counts_append
    (length : Nat)
    (counter : Option Counter)
    (times others : List Nat) :
    counts length counter (times ++ others) =
      counts length counter times ++
        counts length (countAll length counter times)
          others := by
  induction times generalizing counter with
  | nil => rfl
  | cons time times ih =>
      rw [countAll_cons, List.cons_append]
      simp only [counts, ih, List.cons_append]

/- A counter that has counted a time in its window. -/
structure Open (length : Nat) (counter : Counter)
    (time : Nat) : Prop where
  started : counter.start ≤ time
  within : time < counter.start + length
  counted : 0 < counter.count

/- A time opens a window, or falls into the open one. -/
theorem open_count
    {length : Nat}
    {counter : Option Counter}
    {time : Nat}
    (hLength : 0 < length)
    (hStarted : ∀ c ∈ counter, c.start ≤ time) :
    Open length (count length counter time) time := by
  cases counter with
  | none =>
      refine ⟨le_refl _, ?_, Nat.one_pos⟩
      simp only [count]
      omega
  | some counter =>
      have hStart := hStarted counter rfl
      by_cases hWithin :
          within length counter.start time = true
      · simp only [count, hWithin, if_true]
        simp only [within, decide_eq_true_eq] at hWithin
        exact ⟨hStart, hWithin, Nat.succ_pos _⟩
      · simp only [count, hWithin, Bool.false_eq_true,
          if_false]
        exact ⟨le_refl _, by simp; omega, Nat.one_pos⟩

/- No window starts later than the last time counted. -/
theorem start_le_of_countAll
    {length bound : Nat}
    {counter : Option Counter}
    {times : List Nat}
    (hStarted : ∀ c ∈ counter, c.start ≤ bound)
    (hTimes : ∀ time ∈ times, time ≤ bound) :
    ∀ c ∈ countAll length counter times,
      c.start ≤ bound := by
  induction times generalizing counter with
  | nil =>
      intro c hCounter
      exact hStarted c hCounter
  | cons time times ih =>
      rw [countAll_cons]
      refine
        ih ?_ (fun other hMem => hTimes other (by simp [hMem]))
      intro c hCounter
      cases Option.some.inj hCounter
      have hTime := hTimes time (by simp)
      cases counter with
      | none => exact hTime
      | some counter =>
          have hStart := hStarted counter rfl
          unfold count
          dsimp only
          split
          · exact hStart
          · exact hTime

end FixedWindow

end OrderApi
