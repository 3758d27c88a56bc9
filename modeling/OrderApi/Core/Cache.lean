import OrderApi.Core.Run
import Mathlib.Logic.Function.Basic

/-
  Answers kept in a cache.

  Requests with the same key share what is kept under it.
  Whether that is right depends on which requests share a
  key, and on what happens to their answers meanwhile.

  Key definitions include:
    * `Cache`
    * `Cache.serve`
    * `Cache.Coherent`
    * `CacheAside`
    * `CacheAside.step`

  Key theorems include:
    * `Cache.Coherent.serve`
    * `Cache.Coherent.change`
    * `CacheAside.served_valid`
-/

------------------------------------------------------------
-- Caches
------------------------------------------------------------

namespace OrderApi

/- What is kept under each key. -/
abbrev Cache (κ ν : Type) := κ → Option ν

namespace Cache

variable {κ ν ε : Type}

def empty : Cache κ ν := fun _ => none

/- Without a key nothing is found. -/
def find? (cache : Cache κ ν) (key : Option κ) :
    Option ν :=
  key.bind cache

def drop (cache : Cache κ ν) (keys : κ → Bool) :
    Cache κ ν :=
  fun key => if keys key then none else cache key

theorem drop_false (cache : Cache κ ν) :
    (cache.drop fun _ => false) = cache :=
  rfl

theorem drop_eq_some
    {cache : Cache κ ν}
    {keys : κ → Bool}
    {key : κ}
    {value : ν}
    (hFound : cache.drop keys key = some value) :
    keys key = false ∧ cache key = some value := by
  unfold drop at hFound
  cases hKeys : keys key with
  | true => simp [hKeys] at hFound
  | false =>
      simp only [hKeys, Bool.false_eq_true,
        if_false] at hFound
      exact ⟨rfl, hFound⟩

variable [DecidableEq κ]

/- Without a key nothing is kept. -/
def put
    (cache : Cache κ ν)
    (key : Option κ)
    (value : ν) : Cache κ ν :=
  match key with
  | none => cache
  | some key => Function.update cache key (some value)

/-
  Answer from the cache, or else compute the answer and keep
  it.  Errors are not kept.
-/
def serve
    (cache : Cache κ ν)
    (lookupKey storeKey : Option κ)
    (computed : Except ε ν) : Except ε ν × Cache κ ν :=
  match cache.find? lookupKey, computed with
  | some value, _ => (.ok value, cache)
  | none, .ok value => (.ok value, cache.put storeKey value)
  | none, .error error => (.error error, cache)

theorem put_eq_some
    {cache : Cache κ ν}
    {kept : Option κ}
    {key : κ}
    {value value' : ν}
    (hFound : cache.put kept value key = some value') :
    (kept = some key ∧ value' = value) ∨
      cache key = some value' := by
  cases kept with
  | none => exact Or.inr hFound
  | some kept =>
      simp only [put] at hFound
      by_cases hKey : key = kept
      · subst hKey
        rw [Function.update_self] at hFound
        exact
          Or.inl ⟨rfl, (Option.some.inj hFound).symm⟩
      · simp only [Function.update_of_ne hKey] at hFound
        exact Or.inr hFound

end Cache

end OrderApi

------------------------------------------------------------
-- Coherence
------------------------------------------------------------

namespace OrderApi

namespace Cache

variable {κ ν ε ρ : Type}

/-
  Whatever an allowed request finds in the cache is what it
  would be answered at present.
-/
def Coherent
    (key : ρ → Option κ)
    (Allowed : ρ → Prop)
    (answer : ρ → Except ε ν)
    (cache : Cache κ ν) : Prop :=
  ∀ request value, Allowed request →
    cache.find? (key request) = some value →
    answer request = .ok value

variable {key : ρ → Option κ} {Allowed : ρ → Prop}
variable {answer answer' : ρ → Except ε ν}
variable {cache : Cache κ ν}

theorem coherent_empty :
    Coherent key Allowed answer empty := by
  intro request value _ hFound
  cases hKey : key request with
  | none => simp [find?, hKey] at hFound
  | some k => simp [find?, hKey, empty] at hFound

/- Forgetting is always right. -/
theorem Coherent.drop
    (hCoherent : Coherent key Allowed answer cache)
    (keys : κ → Bool) :
    Coherent key Allowed answer (cache.drop keys) := by
  intro request value hAllowed hFound
  apply hCoherent request value hAllowed
  cases hKey : key request with
  | none => simp [find?, hKey] at hFound
  | some k =>
      rw [hKey] at hFound
      exact (drop_eq_some hFound).2

/-
  After a change of the answers the cache is still coherent
  if no answer changed that is found in it.
-/
theorem Coherent.change
    (hCoherent : Coherent key Allowed answer cache)
    (hSame :
      ∀ request, Allowed request →
        (cache.find? (key request)).isSome →
        answer' request = answer request) :
    Coherent key Allowed answer' cache := by
  intro request value hAllowed hFound
  rw [hSame request hAllowed (by rw [hFound]; rfl)]
  exact hCoherent request value hAllowed hFound

variable [DecidableEq κ]

/- Keeping an answer is right if its sharers have it too. -/
theorem Coherent.put
    (hCoherent : Coherent key Allowed answer cache)
    {request : ρ}
    {value : ν}
    (hAnswer : answer request = .ok value)
    (hShare :
      ∀ other k, Allowed other → key other = some k →
        key request = some k →
        answer other = answer request) :
    Coherent key Allowed answer
      (cache.put (key request) value) := by
  intro other value' hAllowed hFound
  cases hKey : key other with
  | none => simp [find?, hKey] at hFound
  | some k =>
      rw [hKey] at hFound
      rcases put_eq_some hFound with
        ⟨hSame, rfl⟩ | hEarlier
      · rw [hShare other k hAllowed hKey hSame]
        exact hAnswer
      · apply hCoherent other value' hAllowed
        rw [hKey]
        exact hEarlier

/- A request that is served gets its present answer. -/
theorem Coherent.serve
    (hCoherent : Coherent key Allowed answer cache)
    (request : ρ)
    (hAllowed : Allowed request)
    (hShare :
      ∀ other k, Allowed other → key other = some k →
        key request = some k →
        answer other = answer request) :
    (cache.serve (key request) (key request)
        (answer request)).1 = answer request ∧
      Coherent key Allowed answer
        (cache.serve (key request) (key request)
          (answer request)).2 := by
  unfold Cache.serve
  cases hFound : cache.find? (key request) with
  | some value =>
      exact
        ⟨(hCoherent request value hAllowed hFound).symm,
          hCoherent⟩
  | none =>
      cases hAnswer : answer request with
      | ok value => exact ⟨rfl, hCoherent.put hAnswer hShare⟩
      | error error => exact ⟨rfl, hCoherent⟩

end Cache

end OrderApi

------------------------------------------------------------
-- Concurrent Requests
------------------------------------------------------------

namespace OrderApi

/-
  Requests that look into a cache first.  The key that an
  answer is kept under may differ from the key that was
  looked up.
-/
structure CacheAside (ρ κ χ ε ν : Type) where
  lookupKey : ρ → Option κ
  storeKey : ρ → Option κ
  answer : χ → ρ → Except ε ν

namespace CacheAside

variable {ρ κ χ ε ν : Type}

/-
  The cache, the requests whose answers are being computed,
  the answers that are not kept yet, and all responses.
-/
structure State (ρ κ ε ν : Type) where
  cache : Cache κ ν
  missed : List ρ
  unsaved : List (ρ × ν)
  served : List (ρ × Except ε ν)

inductive Label (ρ κ χ : Type) where
  /- a request looks into the cache -/
  | arrive (request : ρ)
  /- a request whose look into the cache fails -/
  | overlook (request : ρ)
  /- the answer of a request is computed and served -/
  | finish (n : Nat) (choice : χ)
  /- a served answer is kept -/
  | save (n : Nat)
  | expire (key : κ)

/- The request that comes in by a step. -/
def Label.request? : Label ρ κ χ → Option ρ
  | .arrive request => some request
  | .overlook request => some request
  | _ => none

def start : State ρ κ ε ν :=
  { cache := Cache.empty
    missed := []
    unsaved := []
    served := [] }

/-
  Everything kept, awaiting its keeping, or served is valid
  for the request that it was computed for.
-/
structure Sound
    (system : CacheAside ρ κ χ ε ν)
    (Allowed : ρ → Prop)
    (Valid : ρ → Except ε ν → Prop)
    (state : State ρ κ ε ν) : Prop where
  cached :
    ∀ key value, state.cache key = some value →
      ∃ request, Allowed request ∧
        system.storeKey request = some key ∧
        Valid request (.ok value)
  missed : ∀ request ∈ state.missed, Allowed request
  unsaved :
    ∀ answer ∈ state.unsaved,
      Allowed answer.1 ∧ Valid answer.1 (.ok answer.2)
  served :
    ∀ response ∈ state.served, Valid response.1 response.2

variable {system : CacheAside ρ κ χ ε ν}
variable {Allowed : ρ → Prop}
variable {Valid : ρ → Except ε ν → Prop}
variable {state : State ρ κ ε ν}

theorem Sound.serve
    (hSound : system.Sound Allowed Valid state)
    {request : ρ}
    {response : Except ε ν}
    (hValid : Valid request response) :
    system.Sound Allowed Valid
      { state with
        served := (request, response) :: state.served } := by
  refine { hSound with served := ?_ }
  intro other hMem
  rcases List.mem_cons.mp hMem with rfl | hMem
  · exact hValid
  · exact hSound.served other hMem

theorem Sound.miss
    (hSound : system.Sound Allowed Valid state)
    {request : ρ}
    (hAllowed : Allowed request) :
    system.Sound Allowed Valid
      { state with missed := request :: state.missed } := by
  refine { hSound with missed := ?_ }
  intro other hMem
  rcases List.mem_cons.mp hMem with rfl | hMem
  · exact hAllowed
  · exact hSound.missed other hMem

/- An answer was computed, and a request was answered. -/
theorem Sound.compute
    (hSound : system.Sound Allowed Valid state)
    (n : Nat)
    {answers : List (ρ × ν)}
    (hAnswers :
      ∀ answer ∈ answers,
        Allowed answer.1 ∧ Valid answer.1 (.ok answer.2)) :
    system.Sound Allowed Valid
      { state with
        missed := state.missed.eraseIdx n
        unsaved := answers ++ state.unsaved } := by
  refine { hSound with missed := ?_, unsaved := ?_ }
  · intro request hMem
    exact
      hSound.missed request (List.mem_of_mem_eraseIdx hMem)
  · intro answer hMem
    rcases List.mem_append.mp hMem with hNew | hOld
    · exact hAnswers answer hNew
    · exact hSound.unsaved answer hOld

theorem Sound.expire
    (hSound : system.Sound Allowed Valid state)
    (keys : κ → Bool) :
    system.Sound Allowed Valid
      { state with cache := state.cache.drop keys } := by
  refine { hSound with cached := ?_ }
  intro key value hFound
  exact
    hSound.cached key value (Cache.drop_eq_some hFound).2

/- Sharing a key carries validity over. -/
def Shares
    (system : CacheAside ρ κ χ ε ν)
    (Allowed : ρ → Prop)
    (Valid : ρ → Except ε ν → Prop) : Prop :=
  ∀ request other key value,
    Allowed request → Allowed other →
    system.lookupKey request = some key →
    system.storeKey other = some key →
    Valid other (.ok value) →
    Valid request (.ok value)

variable [DecidableEq κ]

def step (system : CacheAside ρ κ χ ε ν)
    (state : State ρ κ ε ν) :
    Label ρ κ χ → Option (State ρ κ ε ν)
  | .arrive request =>
      match
          state.cache.find? (system.lookupKey request) with
      | some value =>
          some
            { state with
              served := (request, .ok value) :: state.served }
      | none =>
          some
            { state with missed := request :: state.missed }
  | .overlook request =>
      some { state with missed := request :: state.missed }
  | .finish n choice =>
      match state.missed[n]? with
      | none => none
      | some request =>
          let missed := state.missed.eraseIdx n
          match system.answer choice request with
          | .ok value =>
              some
                { state with
                  missed := missed
                  unsaved := (request, value) :: state.unsaved
                  served :=
                    (request, .ok value) :: state.served }
          | .error error =>
              some
                { state with
                  missed := missed
                  served :=
                    (request, .error error) :: state.served }
  | .save n =>
      match state.unsaved[n]? with
      | none => none
      | some (request, value) =>
          some
            { state with
              cache :=
                state.cache.put (system.storeKey request)
                  value
              unsaved := state.unsaved.eraseIdx n }
  | .expire key =>
      some
        { state with
          cache := state.cache.drop fun k => k = key }

theorem Sound.save
    (hSound : system.Sound Allowed Valid state)
    (n : Nat)
    {request : ρ}
    {value : ν}
    (hMem : (request, value) ∈ state.unsaved) :
    system.Sound Allowed Valid
      { state with
        cache :=
          state.cache.put (system.storeKey request) value
        unsaved := state.unsaved.eraseIdx n } := by
  rcases hSound.unsaved _ hMem with ⟨hAllowed, hValid⟩
  refine { hSound with cached := ?_, unsaved := ?_ }
  · intro key value' hFound
    rcases Cache.put_eq_some hFound with
      ⟨hKey, rfl⟩ | hEarlier
    · exact ⟨request, hAllowed, hKey, hValid⟩
    · exact hSound.cached key value' hEarlier
  · intro answer hAnswer
    exact
      hSound.unsaved answer
        (List.mem_of_mem_eraseIdx hAnswer)

/- Soundness is preserved by every step. -/
theorem Sound.step
    (hAnswer :
      ∀ request choice, Allowed request →
        Valid request (system.answer choice request))
    (hShare : system.Shares Allowed Valid)
    (hSound : system.Sound Allowed Valid state)
    {label : Label ρ κ χ}
    {state' : State ρ κ ε ν}
    (hStep : system.step state label = some state')
    (hLabel :
      ∀ request ∈ label.request?, Allowed request) :
    system.Sound Allowed Valid state' := by
  cases label with
  | arrive request =>
      have hRequest : Allowed request := hLabel request rfl
      cases hFound :
          state.cache.find? (system.lookupKey request) with
      | some value =>
          simp only [CacheAside.step, hFound,
            Option.some.injEq] at hStep
          subst hStep
          apply hSound.serve
          cases hKey : system.lookupKey request with
          | none => simp [Cache.find?, hKey] at hFound
          | some key =>
              rw [hKey] at hFound
              rcases hSound.cached key value hFound with
                ⟨other, hOther, hStored, hValid⟩
              exact
                hShare request other key value hRequest
                  hOther hKey hStored hValid
      | none =>
          simp only [CacheAside.step, hFound,
            Option.some.injEq] at hStep
          subst hStep
          exact hSound.miss hRequest
  | overlook request =>
      simp only [CacheAside.step,
        Option.some.injEq] at hStep
      subst hStep
      exact hSound.miss (hLabel request rfl)
  | finish n choice =>
      cases hRequest : state.missed[n]? with
      | none => simp [CacheAside.step, hRequest] at hStep
      | some request =>
          have hAllowed :=
            hSound.missed request
              (List.mem_of_getElem? hRequest)
          have hValid := hAnswer request choice hAllowed
          cases hComputed :
              system.answer choice request with
          | ok value =>
              rw [hComputed] at hValid
              simp only [CacheAside.step, hRequest,
                hComputed, Option.some.injEq] at hStep
              subst hStep
              have hAnswers :
                  ∀ answer ∈ [(request, value)],
                    Allowed answer.1 ∧
                      Valid answer.1 (.ok answer.2) := by
                intro answer hMem
                rw [List.mem_singleton.mp hMem]
                exact ⟨hAllowed, hValid⟩
              exact (hSound.compute n hAnswers).serve hValid
          | error error =>
              rw [hComputed] at hValid
              simp only [CacheAside.step, hRequest,
                hComputed, Option.some.injEq] at hStep
              subst hStep
              have hAnswers :
                  ∀ answer ∈ ([] : List (ρ × ν)),
                    Allowed answer.1 ∧
                      Valid answer.1 (.ok answer.2) := by
                intro answer hMem
                cases hMem
              exact (hSound.compute n hAnswers).serve hValid
  | save n =>
      cases hUnsaved : state.unsaved[n]? with
      | none => simp [CacheAside.step, hUnsaved] at hStep
      | some answer =>
          simp only [CacheAside.step, hUnsaved,
            Option.some.injEq] at hStep
          subst hStep
          exact
            hSound.save n (List.mem_of_getElem? hUnsaved)
  | expire key =>
      simp only [CacheAside.step,
        Option.some.injEq] at hStep
      subst hStep
      exact hSound.expire _

/-
  Every response is valid, if answers are valid when they
  are computed, and if sharing a key carries validity over.
-/
theorem served_valid
    (Allowed : ρ → Prop)
    (Valid : ρ → Except ε ν → Prop)
    (hAnswer :
      ∀ request choice, Allowed request →
        Valid request (system.answer choice request))
    (hShare : system.Shares Allowed Valid)
    {history :
      List (Transition (State ρ κ ε ν) (Label ρ κ χ))}
    (hRun : Run system.step start history state)
    (hAllowed :
      ∀ t ∈ history, ∀ request ∈ t.label.request?,
        Allowed request) :
    ∀ response ∈ state.served,
      Valid response.1 response.2 := by
  have hSound : system.Sound Allowed Valid state := by
    apply Run.invariant
      (fun t =>
        ∀ request ∈ t.label.request?, Allowed request)
      (fun _ state => system.Sound Allowed Valid state)
      ?_ ?_ hRun hAllowed
    · constructor <;> simp [start, Cache.empty]
    · intro _ _ _ _ hInv hStep hLabel
      exact hInv.step hAnswer hShare hStep hLabel
  exact hSound.served

end CacheAside

end OrderApi
