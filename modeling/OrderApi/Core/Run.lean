import Mathlib.Data.List.Basic

/-
  Runs of labelled machines.

  A machine is a partial step function on states, driven by
  labels.  A run keeps its whole history, newest transition
  first, so that a property may speak about earlier states.

  Key definitions include:
    * `Transition`
    * `Run`
    * `replay`

  Key theorems include:
    * `Run.invariant`
    * `Run.of_mem`
    * `Run.of_replay`
-/

------------------------------------------------------------
-- Runs
------------------------------------------------------------

namespace OrderApi

/- One transition of a machine, with both end states. -/
structure Transition (σ ℓ : Type) where
  before : σ
  label : ℓ
  after : σ

variable {σ ℓ : Type}

/-
  Finite runs from a start state.  The history lists the
  transitions taken, newest first.
-/
inductive Run
    (step : σ → ℓ → Option σ)
    (start : σ) :
    List (Transition σ ℓ) → σ → Prop
  | idle : Run step start [] start
  | next
      {history : List (Transition σ ℓ)}
      {state state' : σ}
      {label : ℓ}
      (run : Run step start history state)
      (hStep : step state label = some state') :
      Run step start
        (⟨state, label, state'⟩ :: history) state'

namespace Run

variable {step : σ → ℓ → Option σ}
variable {start : σ}

/-
  Invariant rule.  An assertion about history and state that
  holds at the start, and that every good step preserves,
  holds after every run made of good steps.
-/
theorem invariant
    (Good : Transition σ ℓ → Prop)
    (Inv : List (Transition σ ℓ) → σ → Prop)
    (hStart : Inv [] start)
    (hStep :
      ∀ history state label state',
        Inv history state →
        step state label = some state' →
        Good ⟨state, label, state'⟩ →
        Inv (⟨state, label, state'⟩ :: history) state')
    {history : List (Transition σ ℓ)}
    {state : σ}
    (hRun : Run step start history state)
    (hGood : ∀ t ∈ history, Good t) :
    Inv history state := by
  induction hRun with
  | idle => exact hStart
  | next run hNext ih =>
      have hEarlier :=
        ih fun t ht =>
          hGood t (List.mem_cons_of_mem _ ht)
      have hNewest := hGood _ List.mem_cons_self
      exact hStep _ _ _ _ hEarlier hNext hNewest

/-
  Every transition of a run is a step of the machine, taken
  from a state that an earlier part of the run reaches.
-/
theorem of_mem
    {history : List (Transition σ ℓ)}
    {state : σ}
    (hRun : Run step start history state)
    {t : Transition σ ℓ}
    (hMem : t ∈ history) :
    step t.before t.label = some t.after ∧
      ∃ earlier,
        Run step start earlier t.before ∧
          (t :: earlier).IsSuffix history := by
  induction hRun with
  | idle => cases hMem
  | @next history state state' label run hNext ih =>
      rcases List.mem_cons.mp hMem with hHere | hEarlier
      · subst hHere
        exact ⟨hNext, history, run, List.suffix_rfl⟩
      · rcases ih hEarlier with
          ⟨hTaken, earlier, hReach, hSuffix⟩
        exact
          ⟨hTaken, earlier, hReach,
            hSuffix.trans (List.suffix_cons _ _)⟩

end Run

end OrderApi

------------------------------------------------------------
-- Replaying Labels
------------------------------------------------------------

namespace OrderApi

variable {σ ℓ : Type}

/-
  Execute a list of labels, oldest first, on top of a
  history.  A label that is not enabled stops the replay.
-/
def replay
    (step : σ → ℓ → Option σ) :
    List ℓ → List (Transition σ ℓ) → σ →
      Option (List (Transition σ ℓ) × σ)
| [], history, state => some (history, state)
| label :: labels, history, state =>
    match step state label with
    | none => none
    | some state' =>
        replay step labels
          (⟨state, label, state'⟩ :: history) state'

/- A replay that succeeds extends a run to a run. -/
theorem Run.of_replay_from
    {step : σ → ℓ → Option σ}
    {start state state' : σ}
    {labels : List ℓ}
    {history history' : List (Transition σ ℓ)}
    (hRun : Run step start history state)
    (hReplay :
      replay step labels history state =
        some (history', state')) :
    Run step start history' state' := by
  induction labels generalizing history state with
  | nil =>
      simp only [replay, Option.some.injEq,
        Prod.mk.injEq] at hReplay
      rcases hReplay with ⟨rfl, rfl⟩
      exact hRun
  | cons label labels ih =>
      cases hStep : step state label with
      | none => simp [replay, hStep] at hReplay
      | some middle =>
          simp only [replay, hStep] at hReplay
          exact ih (hRun.next hStep) hReplay

/- A successful replay from the start is a run. -/
theorem Run.of_replay
    {step : σ → ℓ → Option σ}
    {start state : σ}
    {labels : List ℓ}
    {history : List (Transition σ ℓ)}
    (hReplay :
      replay step labels [] start = some (history, state)) :
    Run step start history state :=
  Run.idle.of_replay_from hReplay

/- A run that passes a check, found by replaying labels. -/
theorem Run.exists_of_replay
    {step : σ → ℓ → Option σ}
    {start : σ}
    (labels : List ℓ)
    (check : List (Transition σ ℓ) → σ → Bool)
    (hReplay :
      (replay step labels [] start).any
        (fun run => check run.1 run.2) = true) :
    ∃ history state,
      Run step start history state ∧
        check history state = true := by
  rcases (Option.any_eq_true _ _).mp hReplay with
    ⟨⟨history, state⟩, hRun, hCheck⟩
  exact ⟨history, state, Run.of_replay hRun, hCheck⟩

end OrderApi
