import OrderApi.Common.RateLimitInterceptor

/-
  The headers of the rate limiter, read as announcements.

  A response says how many requests are left, and after how
  many seconds the key starts again.  What is served later
  under the key is just what was said, whatever requests
  with other keys come between.

  Key definitions include:
    * `Announced`
    * `HeadersHold`

  Key theorems include:
    * `announced_of_counter`
    * `headersHold`
-/

------------------------------------------------------------
-- What Is Announced
------------------------------------------------------------

namespace OrderApi

namespace RateLimitInterceptor

/-
  What a response at `now` says of the requests that are
  served later under its key: of those in the `left`
  milliseconds of its window, the first `remaining` go on,
  and the others are served as by a process that has just
  started.
-/
structure Announced
    (options : RequiredRateLimit)
    (key : String)
    (now : Nat)
    (response : RateLimitResponse)
    (left seconds remaining : Nat)
    (soon rest : List (Nat × RateLimitResponse)) :
    Prop where
  limit_eq : response.limit = toString options.max
  reset_eq : response.reset = toString seconds
  remaining_eq : response.remaining = toString remaining
  left_pos : 0 < left
  left_le : left ≤ options.windowMs
  seconds_ge : left ≤ 1000 * seconds
  seconds_lt : 1000 * seconds < left + 1000
  refused : response.admitted = false → remaining = 0
  soon_times : ∀ pair ∈ soon, pair.1 < now + left
  rest_times : ∀ pair ∈ rest, now + left ≤ pair.1
  admitted :
    (soon.map fun pair => pair.2.admitted) =
      (List.range soon.length).map fun n =>
        decide (n < remaining)
  afresh :
    ∀ hits,
      FixedOptions options key hits →
      timesOf key hits = rest.map Prod.fst →
      ownServed key (serve noCounters hits) = rest

/-
  A client that waits for the announced seconds goes on with
  its next request; one that was refused and waits for one
  second less is refused again.
-/
def WaitsExactly
    (options : RequiredRateLimit)
    (now : Nat)
    (response : RateLimitResponse)
    (seconds : Nat)
    (later : List (Nat × RateLimitResponse)) : Prop :=
  ∀ pair ∈ later.head?,
    (0 < options.max → now + 1000 * seconds ≤ pair.1 →
      pair.2.admitted = true) ∧
    (response.admitted = false →
      pair.1 + 1000 ≤ now + 1000 * seconds →
      pair.2.admitted = false)

/- Every response under a key keeps what it announces. -/
def HeadersHold
    (options : RequiredRateLimit)
    (key : String)
    (hits : List Hit) : Prop :=
  ∀ before now response later,
    ownServed key (serve noCounters hits) =
        before ++ (now, response) :: later →
    ∃ left seconds remaining soon rest,
      later = soon ++ rest ∧
        Announced options key now response left seconds
          remaining soon rest ∧
        WaitsExactly options now response seconds later

end RateLimitInterceptor

end OrderApi

------------------------------------------------------------
-- Headers of a Counter
------------------------------------------------------------

namespace OrderApi

namespace RateLimitInterceptor

variable {options : RequiredRateLimit} {key : String}
variable {now : Nat} {counter : FixedWindow.Counter}

/- The times under a counter, with their responses. -/
def servedFrom
    (options : RequiredRateLimit)
    (counter : Option FixedWindow.Counter)
    (times : List Nat) : List (Nat × RateLimitResponse) :=
  times.zipWith
    (fun now counter => (now, respondTo options now counter))
    (FixedWindow.counts options.windowMs counter times)

theorem servedFrom_cons
    (counter : Option FixedWindow.Counter)
    (time : Nat)
    (times : List Nat) :
    servedFrom options counter (time :: times) =
      (time,
        respondTo options time
          (FixedWindow.count options.windowMs counter
            time)) ::
        servedFrom options
          (some
            (FixedWindow.count options.windowMs counter time))
          times := by
  unfold servedFrom
  simp only [FixedWindow.counts, List.zipWith_cons_cons]

theorem servedFrom_length
    (counter : Option FixedWindow.Counter)
    (times : List Nat) :
    (servedFrom options counter times).length =
      times.length := by
  unfold servedFrom
  rw [List.length_zipWith, FixedWindow.counts_length,
    min_self]

theorem map_fst_servedFrom
    (options : RequiredRateLimit)
    (counter : Option FixedWindow.Counter)
    (times : List Nat) :
    (servedFrom options counter times).map Prod.fst =
      times := by
  induction times generalizing counter with
  | nil => rfl
  | cons time times ih =>
      rw [servedFrom_cons, List.map_cons, ih]

theorem time_mem_of_servedFrom
    {counter : Option FixedWindow.Counter}
    {times : List Nat}
    {pair : Nat × RateLimitResponse}
    (hPair : pair ∈ servedFrom options counter times) :
    pair.1 ∈ times := by
  rw [← map_fst_servedFrom options counter times]
  exact List.mem_map_of_mem hPair

theorem servedFrom_append
    (counter : Option FixedWindow.Counter)
    (times others : List Nat) :
    servedFrom options counter (times ++ others) =
      servedFrom options counter times ++
        servedFrom options
          (FixedWindow.countAll options.windowMs counter
            times)
          others := by
  unfold servedFrom
  rw [FixedWindow.counts_append,
    List.zipWith_append
      (FixedWindow.counts_length _ counter times).symm]

/- What a key is served follows from its times alone. -/
theorem ownServed_eq_servedFrom
    {hits : List Hit}
    (hFixed : FixedOptions options key hits) :
    ownServed key (serve noCounters hits) =
      servedFrom options none (timesOf key hits) :=
  ownServed_serve hFixed noCounters

/- Which requests of the open window go on. -/
theorem admitted_servedFrom
    (start n : Nat)
    {times : List Nat}
    (hWithin :
      ∀ time ∈ times,
        FixedWindow.within options.windowMs start time =
          true) :
    ((servedFrom options (some ⟨start, n⟩) times).map
        fun pair => pair.2.admitted) =
      (List.range times.length).map fun i =>
        decide (i < options.max - n) := by
  have hAll :
      times.takeWhile
          (FixedWindow.within options.windowMs start) =
        times :=
    List.takeWhile_eq_self_iff.mpr hWithin
  have hNone :
      times.dropWhile
          (FixedWindow.within options.windowMs start) =
        [] :=
    List.dropWhile_eq_nil_iff.mpr hWithin
  unfold servedFrom
  rw [List.map_zipWith]
  simp only [admitted_respondTo]
  rw [FixedWindow.zipWith_counts options.windowMs _ times
      (fun counter => decide (counter.count ≤ options.max)),
    FixedWindow.counts_some, hAll, hNone]
  simp only [FixedWindow.counts, List.append_nil,
    List.map_map]
  apply List.map_congr_left
  intro i _
  simp only [Function.comp_apply, decide_eq_decide]
  omega

/- Behind its window, a counter is forgotten. -/
theorem servedFrom_split
    (start n : Nat)
    (times : List Nat) :
    servedFrom options (some ⟨start, n⟩) times =
      servedFrom options (some ⟨start, n⟩)
          (times.takeWhile
            (FixedWindow.within options.windowMs start)) ++
        servedFrom options none
          (times.dropWhile
            (FixedWindow.within options.windowMs start)) := by
  induction times generalizing n with
  | nil => rfl
  | cons time times ih =>
      by_cases hWithin :
          FixedWindow.within options.windowMs start time =
            true
      · rw [List.takeWhile_cons_of_pos hWithin,
          List.dropWhile_cons_of_pos hWithin,
          servedFrom_cons, servedFrom_cons, List.cons_append]
        simp only [FixedWindow.count, hWithin, if_true]
        rw [← ih]
      · rw [List.takeWhile_cons_of_neg hWithin,
          List.dropWhile_cons_of_neg hWithin,
          servedFrom_cons, servedFrom_cons]
        simp only [FixedWindow.count, hWithin,
          Bool.false_eq_true, if_false]
        rfl

end RateLimitInterceptor

end OrderApi

------------------------------------------------------------
-- Announcements Are Kept
------------------------------------------------------------

namespace OrderApi

namespace RateLimitInterceptor

variable {options : RequiredRateLimit} {key : String}
variable {now : Nat} {counter : FixedWindow.Counter}
variable {times : List Nat}

/- The milliseconds left of the window of a counter. -/
def leftOf
    (options : RequiredRateLimit)
    (now : Nat)
    (counter : FixedWindow.Counter) : Nat :=
  counter.start + options.windowMs - now

/- The header counts seconds, the last of them begun. -/
theorem reset_respondTo
    (hOpen : FixedWindow.Open options.windowMs counter now) :
    (respondTo options now counter).reset =
      toString ((leftOf options now counter + 999) / 1000) := by
  have hStarted := hOpen.started
  have hWithin := hOpen.within
  have hSeconds :
      ceilSeconds
          (max 0
            ((options.windowMs : Int) -
              (now - counter.start))) =
        (((leftOf options now counter + 999) / 1000 : Nat) :
          Int) := by
    unfold ceilSeconds leftOf
    omega
  simp only [respondTo, respond, hSeconds]
  rfl

/- What the response of an open counter announces. -/
theorem announced_of_counter
    (hOpen : FixedWindow.Open options.windowMs counter now)
    (hSorted : times.Pairwise (· ≤ ·)) :
    Announced options key now (respondTo options now counter)
      (leftOf options now counter)
      ((leftOf options now counter + 999) / 1000)
      (options.max - counter.count)
      (servedFrom options (some counter)
        (times.takeWhile
          (FixedWindow.within options.windowMs
            counter.start)))
      (servedFrom options none
        (times.dropWhile
          (FixedWindow.within options.windowMs
            counter.start))) := by
  have hStarted := hOpen.started
  have hWithin := hOpen.within
  have hEnd :
      now + leftOf options now counter =
        counter.start + options.windowMs := by
    unfold leftOf
    omega
  have hSoon :
      ∀ time ∈
          times.takeWhile
            (FixedWindow.within options.windowMs
              counter.start),
        FixedWindow.within options.windowMs counter.start
          time = true :=
    fun time hTime => List.mem_takeWhile_imp hTime
  exact
    { limit_eq := rfl
      reset_eq := reset_respondTo hOpen
      remaining_eq := remaining_respondTo options now counter
      left_pos := by omega
      left_le := by omega
      seconds_ge := by omega
      seconds_lt := by omega
      refused := by
        intro hRefused
        rw [admitted_respondTo,
          decide_eq_false_iff_not] at hRefused
        omega
      soon_times := by
        intro pair hPair
        have hBefore :=
          hSoon pair.1 (time_mem_of_servedFrom hPair)
        simp only [FixedWindow.within,
          decide_eq_true_eq] at hBefore
        omega
      rest_times := by
        intro pair hPair
        have hBehind :=
          FixedWindow.le_of_mem_dropWhile hSorted
            (time_mem_of_servedFrom hPair)
        omega
      admitted := by
        rw [servedFrom_length]
        exact
          admitted_servedFrom counter.start counter.count
            hSoon
      afresh := by
        intro hits hFixed hTimes
        rw [ownServed_eq_servedFrom hFixed, hTimes,
          map_fst_servedFrom] }

/- The seconds that are announced are enough and needed. -/
theorem waitsExactly_of_counter
    (hOpen : FixedWindow.Open options.windowMs counter now)
    (times : List Nat) :
    WaitsExactly options now (respondTo options now counter)
      ((leftOf options now counter + 999) / 1000)
      (servedFrom options (some counter) times) := by
  have hStarted := hOpen.started
  have hWithin := hOpen.within
  intro pair hPair
  cases times with
  | nil => cases hPair
  | cons time times =>
      rw [servedFrom_cons] at hPair
      cases hPair
      simp only [admitted_respondTo, decide_eq_true_eq,
        decide_eq_false_iff_not]
      refine ⟨?_, ?_⟩
      · intro hMax hWaited
        -- the window is over, and the counter restarts
        have hOver :
            ¬ FixedWindow.within options.windowMs
              counter.start time = true := by
          simp only [FixedWindow.within, decide_eq_true_eq]
          unfold leftOf at hWaited
          omega
        simp only [FixedWindow.count, hOver,
          Bool.false_eq_true, if_false]
        omega
      · intro hRefused hEarly
        have hStill :
            FixedWindow.within options.windowMs
              counter.start time = true := by
          simp only [FixedWindow.within, decide_eq_true_eq]
          unfold leftOf at hEarly
          omega
        simp only [FixedWindow.count, hStill, if_true]
        omega

/- Each response to a key comes from an open counter. -/
theorem exists_counter
    {before later : List (Nat × RateLimitResponse)}
    {response : RateLimitResponse}
    (hWindow : 0 < options.windowMs)
    (hSorted : times.Pairwise (· ≤ ·))
    (hServed :
      servedFrom options none times =
        before ++ (now, response) :: later) :
    ∃ counter : FixedWindow.Counter,
      FixedWindow.Open options.windowMs counter now ∧
        response = respondTo options now counter ∧
        later =
          servedFrom options (some counter)
            (later.map Prod.fst) ∧
        (later.map Prod.fst).Pairwise (· ≤ ·) := by
  have hTimes :
      times =
        before.map Prod.fst ++ now :: later.map Prod.fst := by
    have hFirsts := congrArg (List.map Prod.fst) hServed
    rw [map_fst_servedFrom] at hFirsts
    simpa using hFirsts
  rw [hTimes, List.pairwise_append] at hSorted
  rcases hSorted with ⟨_, hBehind, hBefore⟩
  rw [hTimes, servedFrom_append] at hServed
  have hLengths :
      (servedFrom options none
          (before.map Prod.fst)).length =
        before.length := by
    rw [servedFrom_length, List.length_map]
  have hTail := (List.append_inj hServed hLengths).2
  rw [servedFrom_cons] at hTail
  injection hTail with hHead hLater
  injection hHead with _ hResponse
  refine
    ⟨_, ?_, hResponse.symm, hLater.symm,
      (List.pairwise_cons.mp hBehind).2⟩
  apply FixedWindow.open_count hWindow
  apply FixedWindow.start_le_of_countAll
  · intro c hCounter
    cases hCounter
  · intro time hTime
    exact hBefore time hTime now List.mem_cons_self

/-
  Whatever comes between, the responses to a key keep what
  their headers announce.
-/
theorem headersHold
    {hits : List Hit}
    (hFixed : FixedOptions options key hits)
    (hClock : (hits.map Hit.now).Pairwise (· ≤ ·))
    (hWindow : 0 < options.windowMs) :
    HeadersHold options key hits := by
  intro before now response later hServed
  have hTimes : (timesOf key hits).Pairwise (· ≤ ·) :=
    hClock.sublist (List.filter_sublist.map Hit.now)
  rw [ownServed_eq_servedFrom hFixed] at hServed
  rcases exists_counter hWindow hTimes hServed with
    ⟨counter, hOpen, rfl, hLater, hSorted⟩
  refine
    ⟨_, _, _, _, _, ?_, announced_of_counter hOpen hSorted,
      ?_⟩
  · exact
      hLater.trans
        (servedFrom_split counter.start counter.count _)
  · rw [hLater]
    exact waitsExactly_of_counter hOpen _

/- A second request in a window of one is refused. -/
theorem headersHold_of_retry :
    HeadersHold ⟨1500, 1, true⟩ "a"
      [⟨"a", 0, ⟨1500, 1, true⟩⟩, ⟨"b", 5, ⟨60, 1, true⟩⟩,
        ⟨"a", 400, ⟨1500, 1, true⟩⟩,
        ⟨"a", 2400, ⟨1500, 1, true⟩⟩] :=
  headersHold (by simp [FixedOptions]) (by simp) (by simp)

example :
    ((responsesOf "a" (serve noCounters
        [⟨"a", 0, ⟨1500, 1, true⟩⟩,
          ⟨"a", 400, ⟨1500, 1, true⟩⟩,
          ⟨"a", 2400, ⟨1500, 1, true⟩⟩])).map
      fun response =>
        (response.admitted, response.reset)) =
      [(true, "2"), (false, "2"), (true, "2")] := by
  decide +kernel

end RateLimitInterceptor

end OrderApi
