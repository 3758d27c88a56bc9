import OrderApi.Core.Sides
import OrderApi.Core.Simulation

/-
  What the threads of a pool have called.

  The calls of a thread, with their answers, are a path of
  the program of its job, and the path leads to what is left
  of the program.  What holds of every path of a program
  holds of its threads in every run.

  Key definitions include:
    * `Program.Took`
    * `Transition.callBy?`
    * `PoolSystem.callsOf`

  Key theorems include:
    * `Program.Took.bind_cases`
    * `Program.Conforms.of_took`
    * `lastSet_cases`
    * `Run.value_eq_lastSet`
    * `PoolSystem.took_of_run`
    * `PoolSystem.exists_of_mem_callsOf`
    * `PoolSystem.exec_of_callBy`
    * `Run.holds_since`
-/

------------------------------------------------------------
-- Paths of Programs
------------------------------------------------------------

namespace OrderApi

/- A call with its answer. -/
abbrev Called (Op : Type) (Res : Op → Type) (ε : Type) :=
  (op : Op) × Except ε (Res op)

namespace Program

variable {Op : Type} {Res : Op → Type} {ε α β : Type}

/- A path of a program: its calls, and what is left. -/
inductive Took :
    Program Op Res ε α → List (Called Op Res ε) →
      Program Op Res ε α → Prop
  | start (program : Program Op Res ε α) :
      Took program [] program
  | call
      {op : Op}
      {resume : Except ε (Res op) → Program Op Res ε α}
      {answer : Except ε (Res op)}
      {calls : List (Called Op Res ε)}
      {left : Program Op Res ε α}
      (hRest : Took (resume answer) calls left) :
      Took (.call op resume) (⟨op, answer⟩ :: calls) left

variable {program left : Program Op Res ε α}
variable {calls : List (Called Op Res ε)}

/- A path goes on with an answer to the call it leads to. -/
theorem Took.next
    {op : Op}
    {resume : Except ε (Res op) → Program Op Res ε α}
    (hTook : Took program calls (.call op resume))
    (answer : Except ε (Res op)) :
    Took program (calls ++ [⟨op, answer⟩])
      (resume answer) := by
  generalize hLeft : Program.call op resume = left at hTook
  induction hTook with
  | start program =>
      subst hLeft
      exact .call (.start _)
  | call hRest ih => exact .call (ih hLeft)

/- Without calls nothing is taken off. -/
theorem Took.eq_of_nil
    (hTook : Took program [] left) :
    program = left := by
  cases hTook
  rfl

/-
  A path of two programs in sequence is one of the first, or
  one that runs through the first and goes on in the second.
-/
theorem Took.bind_cases
    {next : α → Program Op Res ε β}
    {left : Program Op Res ε β}
    (hTook : Took (program.bind next) calls left) :
    (∃ middle,
      Took program calls middle ∧
        left = middle.bind next) ∨
    (∃ value before after,
      calls = before ++ after ∧
        Took program before (.done value) ∧
        Took (next value) after left) := by
  induction program generalizing calls with
  | done value =>
      exact .inr ⟨value, [], calls, rfl, .start _, hTook⟩
  | fail error =>
      cases hTook
      exact .inl ⟨.fail error, .start _, rfl⟩
  | call op resume ih =>
      cases hTook with
      | start => exact .inl ⟨.call op resume, .start _, rfl⟩
      | @call _ _ answer calls _ hRest =>
          rcases ih answer hRest with
            ⟨middle, hFirst, hLeft⟩ |
              ⟨value, before, after, hCalls, hFirst,
                hSecond⟩
          · exact .inl ⟨middle, .call hFirst, hLeft⟩
          · subst hCalls
            exact
              .inr
                ⟨value, _ :: before, after, rfl,
                  .call hFirst, hSecond⟩

/- A path to the end of two programs ends both. -/
theorem Took.bind_done
    {next : α → Program Op Res ε β}
    {result : β}
    (hTook :
      Took (program.bind next) calls (.done result)) :
    ∃ value before after,
      calls = before ++ after ∧
        Took program before (.done value) ∧
        Took (next value) after (.done result) := by
  rcases hTook.bind_cases with
    ⟨middle, hFirst, hLeft⟩ | hBoth
  · cases middle with
    | done value =>
        refine ⟨value, calls, [], by simp, hFirst, ?_⟩
        change _ = next value at hLeft
        rw [← hLeft]
        exact .start _
    | fail error => cases hLeft
    | call op resume => cases hLeft
  · exact hBoth

/- A call by itself returns what it was answered. -/
theorem Took.perform_done
    {op : Op}
    {result : Res op}
    {calls : List (Called Op Res ε)}
    (hTook : Took (perform op) calls (.done result)) :
    calls = [⟨op, .ok result⟩] := by
  cases hTook with
  | @call _ _ answer calls _ hRest =>
      cases answer with
      | error error => cases hRest
      | ok value =>
          cases hRest
          rfl

/- A protocol allows each call of a path of a program. -/
theorem Conforms.of_took
    {Φ : Type}
    {protocol : Protocol Op Res ε Φ}
    {Post : Except ε α → Φ → Prop}
    {phase : Φ}
    (hConforms : Conforms protocol Post program phase)
    (hTook : Took program calls left) :
    (∀ call ∈ calls, ∃ before after,
      protocol before call.1 call.2 after) ∧
      ∃ phase', Conforms protocol Post left phase' := by
  induction hTook generalizing phase with
  | start program => exact ⟨by simp, phase, hConforms⟩
  | @call op resume answer calls left hRest ih =>
      rcases hConforms answer with ⟨after, hAllowed, hNext⟩
      rcases ih hNext with ⟨hLater, hLeft⟩
      exact
        ⟨List.forall_mem_cons.mpr
          ⟨⟨phase, after, hAllowed⟩, hLater⟩, hLeft⟩

/- So do the calls of every path, and those still to come. -/
theorem Calls.of_took
    {P : Op → Prop}
    (hCalls : Calls P program)
    (hTook : Took program calls left) :
    (∀ call ∈ calls, P call.1) ∧ Calls P left := by
  rcases Conforms.of_took hCalls hTook with
    ⟨hEach, _, hLeft⟩
  refine ⟨?_, hLeft⟩
  intro call hMem
  rcases hEach call hMem with ⟨_, _, hCall⟩
  exact hCall


/- The path of a program over the calls on one side. -/
theorem Took.of_onLeft
    {Op' : Type}
    {Res' : Op' → Type}
    {program : Program Op Res ε α}
    {calls :
      List (Called (Op ⊕ Op') (Sum.elim Res Res') ε)}
    {left : Program (Op ⊕ Op') (Sum.elim Res Res') ε α}
    (hTook : Took program.onLeft calls left) :
    ∃ ownCalls ownLeft,
      Took program ownCalls ownLeft ∧
        calls =
          ownCalls.map (fun call => ⟨.inl call.1, call.2⟩) ∧
        left = ownLeft.onLeft := by
  induction program generalizing calls with
  | done value =>
      cases hTook
      exact ⟨[], .done value, .start _, rfl, rfl⟩
  | fail error =>
      cases hTook
      exact ⟨[], .fail error, .start _, rfl, rfl⟩
  | call op resume ih =>
      cases hTook with
      | start =>
          exact ⟨[], .call op resume, .start _, rfl, rfl⟩
      | @call _ _ answer calls _ hRest =>
          rcases ih answer hRest with
            ⟨ownCalls, ownLeft, hOwn, hCalls, hLeft⟩
          subst hCalls
          exact
            ⟨⟨op, answer⟩ :: ownCalls, ownLeft, .call hOwn,
              rfl, hLeft⟩

theorem Took.of_onRight
    {Op' : Type}
    {Res' : Op' → Type}
    {program : Program Op' Res' ε α}
    {calls :
      List (Called (Op ⊕ Op') (Sum.elim Res Res') ε)}
    {left : Program (Op ⊕ Op') (Sum.elim Res Res') ε α}
    (hTook : Took program.onRight calls left) :
    ∃ ownCalls ownLeft,
      Took program ownCalls ownLeft ∧
        calls =
          ownCalls.map (fun call => ⟨.inr call.1, call.2⟩) ∧
        left = ownLeft.onRight := by
  induction program generalizing calls with
  | done value =>
      cases hTook
      exact ⟨[], .done value, .start _, rfl, rfl⟩
  | fail error =>
      cases hTook
      exact ⟨[], .fail error, .start _, rfl, rfl⟩
  | call op resume ih =>
      cases hTook with
      | start =>
          exact ⟨[], .call op resume, .start _, rfl, rfl⟩
      | @call _ _ answer calls _ hRest =>
          rcases ih answer hRest with
            ⟨ownCalls, ownLeft, hOwn, hCalls, hLeft⟩
          subst hCalls
          exact
            ⟨⟨op, answer⟩ :: ownCalls, ownLeft, .call hOwn,
              rfl, hLeft⟩

end Program

end OrderApi

------------------------------------------------------------
-- What Holds Since a Transition
------------------------------------------------------------

namespace OrderApi

/-
  What a transition of a run has brought about, and what no
  other undoes, holds at the end.
-/
theorem Run.holds_since
    {σ ℓ : Type}
    {step : σ → ℓ → Option σ}
    {start state : σ}
    {history : List (Transition σ ℓ)}
    {P : σ → Prop}
    {t : Transition σ ℓ}
    (hRun : Run step start history state)
    (hMem : t ∈ history)
    (hAfter : P t.after)
    (hKept : ∀ t' ∈ history, P t'.before → P t'.after) :
    P state := by
  induction hRun with
  | idle => cases hMem
  | @next history state state' label run hNext ih =>
      have hLast := hKept _ List.mem_cons_self
      rcases List.mem_cons.mp hMem with hHere | hEarlier
      · subst hHere
        exact hAfter
      · apply hLast
        apply ih hEarlier
        intro t' hMem'
        exact hKept t' (List.mem_cons_of_mem _ hMem')

/-
  What is left by the transitions of a history, each of
  which sets a value or leaves it.
-/
def lastSet
    {τ V : Type}
    (sets : τ → Option V)
    (start : V) : List τ → V
  | [] => start
  | t :: earlier => (sets t).getD (lastSet sets start earlier)

/- The last transition that sets the value has set it. -/
theorem lastSet_cases
    {τ V : Type}
    (sets : τ → Option V)
    (start : V)
    (history : List τ) :
    (lastSet sets start history = start ∧
      ∀ t ∈ history, sets t = none) ∨
    (∃ later t earlier,
      history = later ++ t :: earlier ∧
        sets t = some (lastSet sets start history) ∧
        ∀ t' ∈ later, sets t' = none) := by
  induction history with
  | nil => exact .inl ⟨rfl, by simp⟩
  | cons t history ih =>
      cases hSets : sets t with
      | some value =>
          refine .inr ⟨[], t, history, rfl, ?_, by simp⟩
          simp only [lastSet, hSets, Option.getD_some]
      | none =>
          have hSame :
              lastSet sets start (t :: history) =
                lastSet sets start history := by
            simp only [lastSet, hSets, Option.getD_none]
          rw [hSame]
          rcases ih with
            ⟨hStart, hNone⟩ |
              ⟨later, t', earlier, hHistory, hHere, hNone⟩
          · refine .inl ⟨hStart, ?_⟩
            intro t' hMem
            rcases List.mem_cons.mp hMem with hIs | hEarlier
            · rw [hIs, hSets]
            · exact hNone t' hEarlier
          · refine
              .inr
                ⟨t :: later, t', earlier, by rw [hHistory]; rfl,
                  hHere, ?_⟩
            intro other hMem
            rcases List.mem_cons.mp hMem with hIs | hLater
            · rw [hIs, hSets]
            · exact hNone other hLater

/- A value that each transition sets or leaves. -/
theorem Run.value_eq_lastSet
    {σ ℓ V : Type}
    {step : σ → ℓ → Option σ}
    {start state : σ}
    {history : List (Transition σ ℓ)}
    {sets : Transition σ ℓ → Option V}
    (value : σ → V)
    (hRun : Run step start history state)
    (hSets :
      ∀ t : Transition σ ℓ,
        step t.before t.label = some t.after →
          value t.after = (sets t).getD (value t.before)) :
    value state = lastSet sets (value start) history := by
  induction hRun with
  | idle => rfl
  | @next history state state' label run hNext ih =>
      rw [hSets ⟨state, label, state'⟩ hNext, ih]
      rfl

end OrderApi

------------------------------------------------------------
-- Calls of a Thread
------------------------------------------------------------

namespace OrderApi

variable {J Op : Type} {Res : Op → Type} {ε χ σ : Type}

/- The call that a transition makes for one thread. -/
def Transition.callBy?
    (system : PoolSystem J Op Res ε χ σ)
    (index : Nat)
    (t :
      Transition (Pool J Op Res ε σ) (PoolLabel J χ)) :
    Option (Called Op Res ε) :=
  match t.label with
  | .start _ => none
  | .resume resumed _ =>
      if resumed = index then
        (t.event? system).bind CallEvent.call
      else
        none

section CallBy

variable {system : PoolSystem J Op Res ε χ σ}
variable {pool pool' : Pool J Op Res ε σ}
variable {index resumed : Nat} {choice : χ}

@[simp] theorem Transition.callBy?_start
    {job : J} :
    (⟨pool, .start job, pool'⟩ :
      Transition (Pool J Op Res ε σ)
        (PoolLabel J χ)).callBy? system index = none :=
  rfl

theorem Transition.callBy?_of_ne
    (hIndex : resumed ≠ index) :
    (⟨pool, .resume resumed choice, pool'⟩ :
      Transition (Pool J Op Res ε σ)
        (PoolLabel J χ)).callBy? system index = none := by
  simp only [Transition.callBy?, if_neg hIndex]

theorem Transition.callBy?_resume
    {job : J}
    {op : Op}
    {resume : Except ε (Res op) → Program Op Res ε Unit}
    (hThread :
      pool.threads[index]? =
        some ⟨job, .call op resume⟩) :
    (⟨pool, .resume index choice, pool'⟩ :
      Transition (Pool J Op Res ε σ)
        (PoolLabel J χ)).callBy? system index =
      some ⟨op, (system.exec choice op pool.store).1⟩ := by
  simp only [Transition.callBy?, if_true,
    Transition.event?_resume hThread, Option.bind_some,
    CallEvent.call]

end CallBy

namespace PoolSystem

/- The calls of one thread, oldest first. -/
def callsOf
    (system : PoolSystem J Op Res ε χ σ)
    (index : Nat) :
    List (Transition (Pool J Op Res ε σ) (PoolLabel J χ)) →
      List (Called Op Res ε)
  | [] => []
  | t :: history =>
      callsOf system index history ++
        (t.callBy? system index).toList

variable {system : PoolSystem J Op Res ε χ σ}
variable {history earlier later :
  List (Transition (Pool J Op Res ε σ) (PoolLabel J χ))}
variable {pool pool' : Pool J Op Res ε σ} {index : Nat}

theorem callsOf_append (index : Nat) :
    system.callsOf index (later ++ earlier) =
      system.callsOf index earlier ++
        system.callsOf index later := by
  induction later with
  | nil => simp [callsOf]
  | cons t later ih => simp [callsOf, ih]

/- Each call of a thread was made by a transition. -/
theorem exists_of_mem_callsOf
    {call : Called Op Res ε}
    (hMem : call ∈ system.callsOf index history) :
    ∃ t ∈ history, t.callBy? system index = some call := by
  induction history with
  | nil => cases hMem
  | cons t history ih =>
      rcases List.mem_append.mp hMem with hEarlier | hHere
      · rcases ih hEarlier with ⟨t', hMem', hCall⟩
        exact ⟨t', List.mem_cons_of_mem _ hMem', hCall⟩
      · exact
          ⟨t, List.mem_cons_self,
            Option.mem_toList.mp hHere⟩

theorem mem_callsOf
    {call : Called Op Res ε}
    {t : Transition (Pool J Op Res ε σ) (PoolLabel J χ)}
    (hMem : t ∈ history)
    (hCall : t.callBy? system index = some call) :
    call ∈ system.callsOf index history := by
  induction history with
  | nil => cases hMem
  | cons t' history ih =>
      rcases List.mem_cons.mp hMem with hHere | hEarlier
      · subst hHere
        exact
          List.mem_append_right _
            (Option.mem_toList.mpr hCall)
      · exact List.mem_append_left _ (ih hEarlier)

/- The calls of a thread are among those of the run. -/
theorem mem_seen_of_callBy
    {call : Called Op Res ε}
    {t : Transition (Pool J Op Res ε σ) (PoolLabel J χ)}
    (hMem : t ∈ history)
    (hCall : t.callBy? system index = some call) :
    call ∈ seen system CallEvent.call history := by
  refine List.mem_filterMap.mpr ⟨t, hMem, ?_⟩
  unfold Transition.callBy? at hCall
  split at hCall
  · cases hCall
  · split at hCall
    · exact hCall
    · cases hCall

/- A thread that goes on makes a call. -/
theorem exists_callBy
    {t : Transition (Pool J Op Res ε σ) (PoolLabel J χ)}
    {choice : χ}
    (hStep : system.step t.before t.label = some t.after)
    (hLabel : t.label = .resume index choice) :
    ∃ call, t.callBy? system index = some call := by
  rcases t with ⟨pool, label, pool'⟩
  subst hLabel
  rcases step_cases hStep with
    ⟨job, hLabel, _, _⟩ |
      ⟨resumed, choice', job, op, resume, hLabel, hThread,
        _⟩
  · cases hLabel
  · cases hLabel
    exact ⟨_, Transition.callBy?_resume hThread⟩

/- The store answers the call that a transition makes. -/
theorem exec_of_callBy
    {t : Transition (Pool J Op Res ε σ) (PoolLabel J χ)}
    {op : Op}
    {answer : Except ε (Res op)}
    (hStep : system.step t.before t.label = some t.after)
    (hCall : t.callBy? system index = some ⟨op, answer⟩) :
    ∃ choice,
      t.label = .resume index choice ∧
        system.exec choice op t.before.store =
          (answer, t.after.store) := by
  rcases t with ⟨pool, label, pool'⟩
  rcases step_cases hStep with
    ⟨job, hLabel, _, _⟩ |
      ⟨resumed, choice, job, op', resume, hLabel, hThread,
        hAfter⟩
  · subst hLabel
    simp at hCall
  · subst hLabel
    by_cases hIndex : resumed = index
    · subst hIndex
      rw [Transition.callBy?_resume hThread,
        Option.some.injEq] at hCall
      cases hCall
      exact ⟨choice, rfl, by rw [hAfter]⟩
    · rw [Transition.callBy?_of_ne hIndex] at hCall
      cases hCall

/- What a thread is after its calls. -/
def Threaded
    (system : PoolSystem J Op Res ε χ σ)
    (history :
      List (Transition (Pool J Op Res ε σ) (PoolLabel J χ)))
    (pool : Pool J Op Res ε σ)
    (index : Nat) : Prop :=
  match pool.threads[index]? with
  | none => system.callsOf index history = []
  | some thread =>
      (system.program thread.job).Took
        (system.callsOf index history) thread.program

theorem threaded_of_run
    {store : σ}
    (hRun :
      Run system.step (PoolSystem.idle store) history pool)
    (index : Nat) :
    Threaded system history pool index := by
  induction hRun with
  | idle => rfl
  | @next history pool pool' label hRun hStep ih =>
      unfold Threaded at ih ⊢
      rcases step_cases hStep with
        ⟨job, hLabel, _, hAfter⟩ |
          ⟨resumed, choice, job, op, resume, hLabel,
            hThread, hAfter⟩
      · subst hLabel
        simp only [callsOf, Transition.callBy?_start,
          Option.toList_none, List.append_nil, hAfter]
        cases hOld : pool.threads[index]? with
        | some thread =>
            have hLess :=
              (List.getElem?_eq_some_iff.mp hOld).1
            rw [List.getElem?_append_left hLess, hOld]
            rw [hOld] at ih
            exact ih
        | none =>
            rw [hOld] at ih
            cases hNew :
                (pool.threads ++
                  [⟨job, system.program job⟩])[index]? with
            | none => exact ih
            | some thread =>
                rcases getElem?_append_cases hNew with
                  ⟨_, hHere⟩ | hThere
                · subst hHere
                  rw [ih]
                  exact .start _
                · rw [hThere] at hOld
                  cases hOld
      · subst hLabel
        by_cases hIndex : resumed = index
        · subst hIndex
          have hLess :=
            (List.getElem?_eq_some_iff.mp hThread).1
          rw [hThread] at ih
          simp only [callsOf,
            Transition.callBy?_resume hThread,
            Option.toList_some, hAfter,
            List.getElem?_set_self hLess]
          exact ih.next _
        · simp only [callsOf,
            Transition.callBy?_of_ne hIndex,
            Option.toList_none, List.append_nil, hAfter,
            List.getElem?_set_ne hIndex]
          exact ih

/- The calls of a thread lead to what is left of it. -/
theorem took_of_run
    {store : σ}
    {thread : Thread J Op Res ε}
    (hRun :
      Run system.step (PoolSystem.idle store) history pool)
    (hThread : pool.threads[index]? = some thread) :
    (system.program thread.job).Took
      (system.callsOf index history) thread.program := by
  have hThreaded := threaded_of_run hRun index
  unfold Threaded at hThreaded
  rw [hThread] at hThreaded
  exact hThreaded

end PoolSystem

end OrderApi
