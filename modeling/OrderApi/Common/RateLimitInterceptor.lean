import OrderApi.Common.Request
import OrderApi.Core.FixedWindow
import Mathlib.Logic.Function.Basic

/-
  `src/common/interceptors/rate-limit.interceptor.ts` and
  `src/common/decorators/rate-limit.decorator.ts`.

  The interceptor runs to its end before another request is
  looked at, so the requests of a process come one after the
  other.

  Key definitions include:
    * `RateLimitOptions`, `RateLimitInterceptor.resolveOptions`
    * `RateLimitInterceptor.buildKey`
    * `RateLimitInterceptor.countRequest`
    * `RateLimitInterceptor.intercept`
    * `RateLimitInterceptor.serve`

  Key theorems include:
    * `RateLimitInterceptor.ownServed_serve`
    * `RateLimitInterceptor.admittedTimes_eq`
    * `RateLimitInterceptor.isFixedWindow`
-/

------------------------------------------------------------
-- Options
------------------------------------------------------------

namespace OrderApi

/- The argument of `@RateLimit`. -/
structure RateLimitOptions where
  windowMs : Option Nat
  max : Option Nat
  keyByUser : Option Bool
deriving DecidableEq, Repr

/- `Required<RateLimitOptions>`. -/
structure RequiredRateLimit where
  windowMs : Nat
  max : Nat
  keyByUser : Bool
deriving DecidableEq, Repr

namespace RateLimitInterceptor

def defaultOptions : RequiredRateLimit where
  windowMs := 60000
  max := 60
  keyByUser := true

/- Options that are given replace those before them. -/
def override
    (options : RequiredRateLimit)
    (given : Option RateLimitOptions) : RequiredRateLimit :=
  match given with
  | none => options
  | some given =>
      { windowMs := given.windowMs.getD options.windowMs
        max := given.max.getD options.max
        keyByUser := given.keyByUser.getD options.keyByUser }

def resolveOptions
    (handlerOpts controllerOpts : Option RateLimitOptions) :
    RequiredRateLimit :=
  override (override defaultOptions controllerOpts)
    handlerOpts

end RateLimitInterceptor

end OrderApi

------------------------------------------------------------
-- Keys
------------------------------------------------------------

namespace OrderApi

/- A request, the time it came at, and where it came from. -/
structure Arrival where
  now : Nat
  request : Request
  ip : Option String
  remoteAddress : Option String

namespace RateLimitInterceptor

/- The tenant in a key; route parameters are texts. -/
def tenant (request : Request) : String :=
  match request.user.tenantCode with
  | some tenantCode => tenantCode
  | none =>
      match request.params.get? "tenantCode" with
      | some (.str tenantCode) => tenantCode
      | _ => "no-tenant"

/- A request behind the guards always has a user id. -/
def principal
    (keyByUser : Bool)
    (arrival : Arrival) : String :=
  if keyByUser then
    "user:" ++ arrival.request.user.id
  else
    "ip:" ++
      (arrival.ip.or arrival.remoteAddress).getD "unknown"

def buildKey
    (arrival : Arrival)
    (controllerName methodName : String)
    (options : RequiredRateLimit) : String :=
  tenant arrival.request ++ ":" ++ controllerName ++ "." ++
    methodName ++ ":" ++ principal options.keyByUser arrival

end RateLimitInterceptor

end OrderApi

------------------------------------------------------------
-- Counting
------------------------------------------------------------

namespace OrderApi

structure CounterState where
  count : Nat
  windowStart : Nat
deriving DecidableEq, Repr

/- The map `counters`. -/
abbrev Counters := String → Option CounterState

structure HttpException where
  message : String
  status : Nat
deriving DecidableEq, Repr

/- The headers that are set, and whether it goes on. -/
structure RateLimitResponse where
  /- `X-RateLimit-Limit` -/
  limit : String
  /- `X-RateLimit-Remaining` -/
  remaining : String
  /- `X-RateLimit-Reset`, in seconds -/
  reset : String
  exception : Option HttpException
deriving DecidableEq, Repr

namespace RateLimitResponse

/- The handler is called, unless an exception is thrown. -/
def admitted (response : RateLimitResponse) : Bool :=
  response.exception.isNone

end RateLimitResponse

namespace RateLimitInterceptor

def tooManyRequests : HttpException where
  message := "Too many requests. Please try again later."
  status := 429

/- The counter that is stored under the key of a request. -/
def nextState
    (options : RequiredRateLimit)
    (now : Nat)
    (existing : Option CounterState) : CounterState :=
  match existing with
  | none => ⟨1, now⟩
  | some existing =>
      if (now : Int) - existing.windowStart ≥
          options.windowMs then
        ⟨1, now⟩
      else
        { existing with count := existing.count + 1 }

/- `Math.ceil(n / 1000)` of a number that is not negative. -/
def ceilSeconds (n : Int) : Int :=
  (n + 999) / 1000

def respond
    (options : RequiredRateLimit)
    (now : Nat)
    (state : CounterState) : RateLimitResponse :=
  let remaining : Int :=
    max 0 ((options.max : Int) - state.count)
  let resetInMs : Int :=
    max 0
      ((options.windowMs : Int) - (now - state.windowStart))
  { limit := toString options.max
    remaining := toString (max 0 remaining)
    reset := toString (ceilSeconds resetInMs)
    exception :=
      if state.count > options.max then some tooManyRequests
      else none }

/- Count a request under its key, and respond to it. -/
def countRequest
    (options : RequiredRateLimit)
    (key : String)
    (now : Nat)
    (counters : Counters) : RateLimitResponse × Counters :=
  let state := nextState options now (counters key)
  (respond options now state,
    Function.update counters key (some state))

def intercept
    (handlerOpts controllerOpts : Option RateLimitOptions)
    (controllerName methodName : String)
    (arrival : Arrival)
    (counters : Counters) : RateLimitResponse × Counters :=
  let options := resolveOptions handlerOpts controllerOpts
  let key :=
    buildKey arrival controllerName methodName options
  countRequest options key arrival.now counters

end RateLimitInterceptor

end OrderApi

------------------------------------------------------------
-- Sequences of Requests
------------------------------------------------------------

namespace OrderApi

/- A request as it is counted: its key, time and options. -/
structure Hit where
  key : String
  now : Nat
  options : RequiredRateLimit
deriving DecidableEq, Repr

namespace RateLimitInterceptor

/- The map of a process that has just started. -/
def noCounters : Counters := fun _ => none

/- The responses to requests, one after the other. -/
def serve :
    Counters → List Hit → List (Hit × RateLimitResponse)
  | _, [] => []
  | counters, hit :: hits =>
      let served := countRequest hit.options hit.key hit.now counters
      (hit, served.1) :: serve served.2 hits

/- All requests with a key come with the same options. -/
def FixedOptions
    (options : RequiredRateLimit)
    (key : String)
    (hits : List Hit) : Prop :=
  ∀ hit ∈ hits, hit.key = key → hit.options = options

/- The times of the requests with a key. -/
def timesOf (key : String) (hits : List Hit) : List Nat :=
  (hits.filter fun hit => hit.key = key).map Hit.now

/- The requests with a key, by their times, and what each got. -/
def ownServed
    (key : String)
    (served : List (Hit × RateLimitResponse)) :
    List (Nat × RateLimitResponse) :=
  (served.filter fun pair => pair.1.key = key).map
    fun pair => (pair.1.now, pair.2)

/- The responses to the requests with a key. -/
def responsesOf
    (key : String)
    (served : List (Hit × RateLimitResponse)) :
    List RateLimitResponse :=
  (ownServed key served).map Prod.snd

/- The times of the requests with a key that go on. -/
def admittedTimes
    (key : String)
    (served : List (Hit × RateLimitResponse)) : List Nat :=
  ((ownServed key served).filter fun pair =>
    pair.2.admitted).map Prod.fst

/- A counter, as the windows are counted. -/
def asCounter (state : CounterState) : FixedWindow.Counter :=
  ⟨state.windowStart, state.count⟩

/- What follows a request is counted from its counter on. -/
theorem asCounter_nextState
    (options : RequiredRateLimit)
    (now : Nat)
    (existing : Option CounterState) :
    asCounter (nextState options now existing) =
      FixedWindow.count options.windowMs
        (existing.map asCounter) now := by
  cases existing with
  | none => rfl
  | some existing =>
      by_cases hWithin :
          FixedWindow.within options.windowMs
            existing.windowStart now = true
      · have hOpen :
            ¬ (now : Int) - existing.windowStart ≥
              options.windowMs := by
          simp only [FixedWindow.within,
            decide_eq_true_eq] at hWithin
          omega
        simp [nextState, FixedWindow.count, asCounter,
          hWithin, hOpen]
      · have hOver :
            (now : Int) - existing.windowStart ≥
              options.windowMs := by
          simp only [FixedWindow.within,
            decide_eq_true_eq] at hWithin
          omega
        simp [nextState, FixedWindow.count, asCounter,
          hWithin, hOver]

/- The response to a request, from the counter behind it. -/
def respondTo
    (options : RequiredRateLimit)
    (now : Nat)
    (counter : FixedWindow.Counter) : RateLimitResponse :=
  respond options now ⟨counter.count, counter.start⟩

theorem respond_eq
    (options : RequiredRateLimit)
    (now : Nat)
    (state : CounterState) :
    respond options now state =
      respondTo options now (asCounter state) :=
  rfl

/-
  The requests with a key are answered by counting their
  times alone, whatever comes between them.
-/
theorem ownServed_serve
    {options : RequiredRateLimit}
    {key : String}
    {hits : List Hit}
    (hFixed : FixedOptions options key hits)
    (counters : Counters) :
    ownServed key (serve counters hits) =
      (timesOf key hits).zipWith
        (fun now counter =>
          (now, respondTo options now counter))
        (FixedWindow.counts options.windowMs
          ((counters key).map asCounter)
          (timesOf key hits)) := by
  induction hits generalizing counters with
  | nil => rfl
  | cons hit hits ih =>
      have hRest :=
        ih (fun other hMem => hFixed other (by simp [hMem]))
          (countRequest hit.options hit.key hit.now counters).2
      by_cases hKey : hit.key = key
      · have hOptions := hFixed hit (by simp) hKey
        subst hKey hOptions
        have hTimes :
            timesOf hit.key (hit :: hits) =
              hit.now :: timesOf hit.key hits := by
          simp [timesOf]
        have hServed :
            ownServed hit.key (serve counters (hit :: hits)) =
              (hit.now,
                respond hit.options hit.now
                  (nextState hit.options hit.now
                    (counters hit.key))) ::
                ownServed hit.key (serve
                  (countRequest hit.options hit.key hit.now
                    counters).2 hits) := by
          simp [serve, ownServed, countRequest]
        have hCounter :=
          asCounter_nextState hit.options hit.now
            (counters hit.key)
        rw [hServed, hRest, hTimes]
        simp only [FixedWindow.counts, List.zipWith_cons_cons,
          countRequest, Function.update_self, Option.map_some,
          respond_eq, hCounter]
      · have hTimes :
            timesOf key (hit :: hits) = timesOf key hits := by
          simp [timesOf, hKey]
        have hServed :
            ownServed key (serve counters (hit :: hits)) =
              ownServed key (serve
                (countRequest hit.options hit.key hit.now
                  counters).2 hits) := by
          simp [serve, ownServed, hKey]
        have hOther : key ≠ hit.key := Ne.symm hKey
        rw [hServed, hRest, hTimes]
        simp only [countRequest, Function.update_of_ne hOther]

/- Whether a request goes on, from the counter behind it. -/
theorem admitted_respondTo
    (options : RequiredRateLimit)
    (now : Nat)
    (counter : FixedWindow.Counter) :
    (respondTo options now counter).admitted =
      decide (counter.count ≤ options.max) := by
  by_cases hOver : counter.count > options.max
  · have hNot : ¬ counter.count ≤ options.max := by omega
    simp [respondTo, respond, RateLimitResponse.admitted,
      hOver, hNot]
  · have hLe : counter.count ≤ options.max := by omega
    simp [respondTo, respond, RateLimitResponse.admitted,
      hOver, hLe]

/- The header counts down to zero. -/
theorem remaining_respondTo
    (options : RequiredRateLimit)
    (now : Nat)
    (counter : FixedWindow.Counter) :
    (respondTo options now counter).remaining =
      toString (options.max - counter.count) := by
  have hFloor :
      max 0 (max 0 ((options.max : Int) - counter.count)) =
        ((options.max - counter.count : Nat) : Int) := by
    omega
  simp only [respondTo, respond, hFloor]
  rfl

/- What a response says, without its time, of each window. -/
theorem responsesOf_map
    {β : Type}
    {options : RequiredRateLimit}
    {key : String}
    {hits : List Hit}
    (hFixed : FixedOptions options key hits)
    (read : RateLimitResponse → β)
    (readCount : Nat → β)
    (hRead :
      ∀ now counter,
        read (respondTo options now counter) =
          readCount counter.count) :
    (responsesOf key (serve noCounters hits)).map read =
      (FixedWindow.windows options.windowMs
        (timesOf key hits)).flatMap fun window =>
          (List.range window.length).map fun n =>
            readCount (n + 1) := by
  have hCounts :=
    FixedWindow.zipWith_counts options.windowMs none
      (timesOf key hits) fun counter =>
        readCount counter.count
  have hWindows :=
    FixedWindow.counts_none options.windowMs
      (timesOf key hits)
  rw [responsesOf, ownServed_serve hFixed, List.map_map,
    List.map_zipWith]
  simp only [Function.comp_apply, hRead]
  change
    (timesOf key hits).zipWith
        (fun _ counter => readCount counter.count)
        (FixedWindow.counts options.windowMs none
          (timesOf key hits)) = _
  rw [hCounts, hWindows, List.map_flatMap]
  simp only [FixedWindow.countsOf, List.map_map]
  rfl

/- Requests go on while their counter is in the limit. -/
theorem filter_zipWith_counts
    (options : RequiredRateLimit)
    (counter : Option FixedWindow.Counter)
    (times : List Nat) :
    ((times.zipWith
          (fun now counter =>
            (now, respondTo options now counter))
          (FixedWindow.counts options.windowMs counter
            times)).filter fun pair =>
        pair.2.admitted).map Prod.fst =
      FixedWindow.kept options.windowMs options.max counter
        times := by
  induction times generalizing counter with
  | nil => rfl
  | cons time times ih =>
      simp only [FixedWindow.counts, FixedWindow.kept,
        List.zipWith_cons_cons, List.filter_cons,
        admitted_respondTo, decide_eq_true_eq]
      split
      · rw [List.map_cons, ih]
      · exact ih _

/- The first `max` requests of every window go on. -/
theorem admittedTimes_eq
    {options : RequiredRateLimit}
    {key : String}
    {hits : List Hit}
    (hFixed : FixedOptions options key hits) :
    admittedTimes key (serve noCounters hits) =
      FixedWindow.passed options.windowMs options.max
        (timesOf key hits) := by
  rw [admittedTimes, ownServed_serve hFixed,
    ← FixedWindow.kept_none]
  exact filter_zipWith_counts options none _

end RateLimitInterceptor

end OrderApi

------------------------------------------------------------
-- A Fixed-Window Limiter
------------------------------------------------------------

namespace OrderApi

namespace RateLimitInterceptor

/-
  What a key sees of the limiter: its requests are cut into
  windows, requests with other keys change none of the
  responses, the first `max` requests of a window go on, the
  header counts these down, and no interval as long as a
  window sees more than `2 * max` of them go on.
-/
def IsFixedWindow
    (options : RequiredRateLimit)
    (key : String)
    (hits : List Hit) : Prop :=
  let served := serve noCounters hits
  let windows :=
    FixedWindow.windows options.windowMs (timesOf key hits)
  windows.flatten = timesOf key hits ∧
  (∀ hits', FixedOptions options key hits' →
    timesOf key hits' = timesOf key hits →
    responsesOf key (serve noCounters hits') =
      responsesOf key served) ∧
  ((responsesOf key served).map RateLimitResponse.admitted =
    windows.flatMap fun window =>
      (List.range window.length).map fun n =>
        decide (n < options.max)) ∧
  ((responsesOf key served).map RateLimitResponse.remaining =
    windows.flatMap fun window =>
      (List.range window.length).map fun n =>
        toString (options.max - (n + 1))) ∧
  (∀ first,
    (admittedTimes key served).countP
        (FixedWindow.inInterval options.windowMs first) ≤
      2 * options.max)

/- The limiter is one of fixed windows, key by key. -/
theorem isFixedWindow
    {options : RequiredRateLimit}
    {key : String}
    {hits : List Hit}
    (hFixed : FixedOptions options key hits)
    (hClock : (hits.map Hit.now).Pairwise (· ≤ ·)) :
    IsFixedWindow options key hits := by
  have hTimes :
      (timesOf key hits).Pairwise (· ≤ ·) :=
    hClock.sublist (List.filter_sublist.map Hit.now)
  refine
    ⟨FixedWindow.flatten_windows _ _, ?_, ?_, ?_, ?_⟩
  · intro hits' hFixed' hSame
    rw [responsesOf, responsesOf, ownServed_serve hFixed',
      ownServed_serve hFixed, hSame]
  · have hAdmitted :=
      responsesOf_map hFixed RateLimitResponse.admitted
        (fun n => decide (n ≤ options.max))
        (fun now counter =>
          admitted_respondTo options now counter)
    simpa only [Nat.add_one_le_iff] using hAdmitted
  · exact
      responsesOf_map hFixed RateLimitResponse.remaining
        (fun n => toString (options.max - n))
        (fun now counter =>
          remaining_respondTo options now counter)
  · intro first
    rw [admittedTimes_eq hFixed]
    exact FixedWindow.countP_passed_le hTimes _ first

/- Two keys in turn, and a third request too many. -/
theorem isFixedWindow_of_two_keys :
    IsFixedWindow ⟨1000, 2, true⟩ "a"
      [⟨"a", 0, ⟨1000, 2, true⟩⟩, ⟨"b", 10, ⟨60, 1, true⟩⟩,
        ⟨"a", 400, ⟨1000, 2, true⟩⟩,
        ⟨"a", 900, ⟨1000, 2, true⟩⟩,
        ⟨"a", 1000, ⟨1000, 2, true⟩⟩] :=
  isFixedWindow
    (by simp [FixedOptions]) (by simp)

example :
    ((responsesOf "a" (serve noCounters
        [⟨"a", 0, ⟨1000, 1, true⟩⟩,
          ⟨"a", 999, ⟨1000, 1, true⟩⟩,
          ⟨"a", 1000, ⟨1000, 1, true⟩⟩])).map
      fun response =>
        (response.admitted, response.reset)) =
      [(true, "1"), (false, "1"), (true, "1")] := by
  decide +kernel

end RateLimitInterceptor

end OrderApi
