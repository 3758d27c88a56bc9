import OrderApi.Core.Run
import OrderApi.Core.Program
import Mathlib.Data.List.Forall2

/-
  Pools of programs interleaved call by call on one store.

  A job starts at any time its system is ready for it, and
  every started program may take its next call at any time.
  Programs never have to go on, so a program that stops for
  good (a crashed process) is one that is not resumed.

  When every job's program obeys a discipline, the pool can
  be reasoned about through the phases of its threads alone:
  `PoolSystem.run_invariant` is the invariant rule.

  Key definitions include:
    * `PoolSystem`
    * `PoolSystem.step`
    * `Script`, `Script.prod`
    * `PoolSystem.OnScript`
    * `Discipline`
    * `PoolSystem.InPhases`

  Key theorems include:
    * `PoolSystem.step_cases`
    * `PoolSystem.step_of_call`
    * `PoolSystem.script_invariant`
    * `PoolSystem.run_invariant`
    * `PoolSystem.inPhases_of_run`
    * `PoolSystem.calls_of_run`
-/

------------------------------------------------------------
-- Pools
------------------------------------------------------------

namespace OrderApi

/- A started job with what is left of its program. -/
structure Thread
    (J Op : Type)
    (Res : Op → Type)
    (ε : Type) where
  job : J
  program : Program Op Res ε Unit

/- A store with the threads started on it so far. -/
structure Pool
    (J Op : Type)
    (Res : Op → Type)
    (ε σ : Type) where
  store : σ
  threads : List (Thread J Op Res ε)

/- What happens next: a job starts, or a thread goes on. -/
inductive PoolLabel (J χ : Type) where
  | start (job : J)
  | resume (index : Nat) (choice : χ)

/-
  The parts of a pool: what the store answers to a call,
  the program of each job, and when a job may start.
-/
structure PoolSystem
    (J Op : Type)
    (Res : Op → Type)
    (ε χ σ : Type) where
  exec : χ → (op : Op) → σ → Except ε (Res op) × σ
  program : J → Program Op Res ε Unit
  ready : σ → J → Bool

namespace PoolSystem

variable {J Op : Type} {Res : Op → Type} {ε χ σ : Type}

/- One step of the pool. -/
def step
    (system : PoolSystem J Op Res ε χ σ)
    (pool : Pool J Op Res ε σ) :
    PoolLabel J χ → Option (Pool J Op Res ε σ)
| .start job =>
    if system.ready pool.store job then
      some
        { pool with
          threads :=
            pool.threads ++ [⟨job, system.program job⟩] }
    else
      none
| .resume index choice =>
    match pool.threads[index]? with
    | some ⟨job, .call op resume⟩ =>
        let answer := system.exec choice op pool.store
        some
          { store := answer.2
            threads :=
              pool.threads.set index
                ⟨job, resume answer.1⟩ }
    | _ => none

/- A pool without threads. -/
def idle (store : σ) : Pool J Op Res ε σ :=
  ⟨store, []⟩

variable {system : PoolSystem J Op Res ε χ σ}

/- Everything one step can do. -/
theorem step_cases
    {pool pool' : Pool J Op Res ε σ}
    {label : PoolLabel J χ}
    (hStep : system.step pool label = some pool') :
    (∃ job,
      label = .start job ∧
        system.ready pool.store job = true ∧
        pool' =
          ⟨pool.store,
            pool.threads ++ [⟨job, system.program job⟩]⟩) ∨
    (∃ index choice job op resume,
      label = .resume index choice ∧
        pool.threads[index]? =
          some ⟨job, .call op resume⟩ ∧
        pool' =
          ⟨(system.exec choice op pool.store).2,
            pool.threads.set index
              ⟨job,
                resume
                  (system.exec choice op
                    pool.store).1⟩⟩) := by
  cases label with
  | start job =>
      apply Or.inl
      by_cases hReady : system.ready pool.store job = true
      · simp only [step, hReady, if_true,
          Option.some.injEq] at hStep
        exact ⟨job, rfl, hReady, hStep.symm⟩
      · simp [step, hReady] at hStep
  | resume index choice =>
      apply Or.inr
      cases hThread : pool.threads[index]? with
      | none => simp [step, hThread] at hStep
      | some thread =>
          rcases thread with ⟨job, program⟩
          cases program with
          | done value => simp [step, hThread] at hStep
          | fail error => simp [step, hThread] at hStep
          | call op resume =>
              simp only [step, hThread,
                Option.some.injEq] at hStep
              exact
                ⟨index, choice, job, op, resume, rfl,
                  hThread, hStep.symm⟩

end PoolSystem

/-
  The store call that a transition of a pool makes, with the
  choice of the environment on it.
-/
def Transition.call?
    {J Op : Type}
    {Res : Op → Type}
    {ε χ σ : Type}
    (t :
      Transition (Pool J Op Res ε σ) (PoolLabel J χ)) :
    Option (Op × χ) :=
  match t.label with
  | .start _ => none
  | .resume index choice =>
      (t.before.threads[index]?).bind fun thread =>
        thread.program.nextOp?.map fun op => (op, choice)

@[simp] theorem Transition.call?_start
    {J Op : Type}
    {Res : Op → Type}
    {ε χ σ : Type}
    {pool pool' : Pool J Op Res ε σ}
    {job : J} :
    (⟨pool, .start job, pool'⟩ :
      Transition (Pool J Op Res ε σ)
        (PoolLabel J χ)).call? = none :=
  rfl

theorem Transition.call?_resume
    {J Op : Type}
    {Res : Op → Type}
    {ε χ σ : Type}
    {pool pool' : Pool J Op Res ε σ}
    {index : Nat}
    {choice : χ}
    {job : J}
    {op : Op}
    {resume : Except ε (Res op) → Program Op Res ε Unit}
    (hThread :
      pool.threads[index]? =
        some ⟨job, .call op resume⟩) :
    (⟨pool, .resume index choice, pool'⟩ :
      Transition (Pool J Op Res ε σ)
        (PoolLabel J χ)).call? = some (op, choice) := by
  simp [Transition.call?, hThread, Program.nextOp?]

namespace PoolSystem

variable {J Op : Type} {Res : Op → Type} {ε χ σ : Type}
variable {system : PoolSystem J Op Res ε χ σ}

/- The step of a transition that makes a given call. -/
theorem step_of_call
    {t : Transition (Pool J Op Res ε σ) (PoolLabel J χ)}
    {op : Op}
    {choice : χ}
    (hStep : system.step t.before t.label = some t.after)
    (hCall : t.call? = some (op, choice)) :
    ∃ index job resume,
      t.label = .resume index choice ∧
        t.before.threads[index]? =
          some ⟨job, .call op resume⟩ ∧
        t.after =
          ⟨(system.exec choice op t.before.store).2,
            t.before.threads.set index
              ⟨job,
                resume
                  (system.exec choice op
                    t.before.store).1⟩⟩ := by
  rcases t with ⟨pool, label, pool'⟩
  rcases step_cases hStep with
    ⟨job, hLabel, _, _⟩ |
      ⟨index, choice', job, op', resume, hLabel, hThread,
        hAfter⟩
  · subst hLabel
    simp at hCall
  · subst hLabel
    rw [Transition.call?_resume hThread] at hCall
    simp only [Option.some.injEq, Prod.mk.injEq] at hCall
    rcases hCall with ⟨rfl, rfl⟩
    exact ⟨index, job, resume, rfl, hThread, hAfter⟩

/- A transition changes the store by its call, if any. -/
theorem store_of_step
    {t : Transition (Pool J Op Res ε σ) (PoolLabel J χ)}
    (hStep : system.step t.before t.label = some t.after) :
    (t.call? = none ∧ t.after.store = t.before.store) ∨
      ∃ op choice,
        t.call? = some (op, choice) ∧
          t.after.store =
            (system.exec choice op t.before.store).2 := by
  rcases t with ⟨pool, label, pool'⟩
  rcases step_cases hStep with
    ⟨job, hLabel, _, hAfter⟩ |
      ⟨index, choice, job, op, resume, hLabel, hThread,
        hAfter⟩
  · apply Or.inl
    subst hLabel
    exact ⟨rfl, by rw [hAfter]⟩
  · apply Or.inr
    subst hLabel
    exact
      ⟨op, choice, Transition.call?_resume hThread,
        by rw [hAfter]⟩

end PoolSystem

end OrderApi

------------------------------------------------------------
-- Lists That Change at One Place
------------------------------------------------------------

namespace OrderApi

variable {α : Type} {items : List α} {item found : α}
variable {index i : Nat}

/- An element of a list that was changed at an index. -/
theorem getElem?_set_cases
    (hAt : (items.set index item)[i]? = some found) :
    (i = index ∧ found = item) ∨
      (i ≠ index ∧ items[i]? = some found) := by
  by_cases hIndex : i = index
  · subst hIndex
    have hLess : i < items.length := by
      have hSome := List.getElem?_eq_some_iff.mp hAt
      simpa using hSome.1
    rw [List.getElem?_set_self hLess] at hAt
    cases hAt
    exact Or.inl ⟨rfl, rfl⟩
  · rw [List.getElem?_set_ne (Ne.symm hIndex)] at hAt
    exact Or.inr ⟨hIndex, hAt⟩

/- An element of a list that was extended by one. -/
theorem getElem?_append_cases
    (hAt : (items ++ [item])[i]? = some found) :
    (i = items.length ∧ found = item) ∨
      items[i]? = some found := by
  by_cases hLess : i < items.length
  · rw [List.getElem?_append_left hLess] at hAt
    exact Or.inr hAt
  · rw [List.getElem?_append_right (Nat.not_lt.mp hLess),
      List.getElem?_singleton] at hAt
    split at hAt
    · rename_i hZero
      have hEnd : i = items.length := by omega
      exact Or.inl ⟨hEnd, (Option.some.inj hAt).symm⟩
    · cases hAt

end OrderApi

------------------------------------------------------------
-- Scripts of a Pool
------------------------------------------------------------

namespace OrderApi

/-
  A protocol for the jobs of a pool: the phase a job starts
  in, how it may end, and a relation between jobs and phases
  that every allowed call preserves.
-/
structure Script
    (J Op : Type)
    (Res : Op → Type)
    (ε Φ : Type) where
  protocol : Protocol Op Res ε Φ
  first : J → Φ
  Ends : J → Except ε Unit → Φ → Prop
  Owns : J → Φ → Prop
  owns_first : ∀ job, Owns job (first job)
  owns_next :
    ∀ {job phase op answer phase'},
      Owns job phase → protocol phase op answer phase' →
        Owns job phase'

/-
  Two scripts side by side, with a relation that couples the
  phases of a job.
-/
def Script.prod
    {J Op : Type}
    {Res : Op → Type}
    {ε Φ Ψ : Type}
    (one : Script J Op Res ε Φ)
    (two : Script J Op Res ε Ψ)
    (Couples : Φ × Ψ → Prop)
    (couples_first :
      ∀ job, Couples (one.first job, two.first job))
    (couples_next :
      ∀ {job phase op answer phase'},
        one.Owns job phase.1 → two.Owns job phase.2 →
          Couples phase →
          one.protocol.prod two.protocol phase op answer
            phase' →
          Couples phase') :
    Script J Op Res ε (Φ × Ψ) where
  protocol := one.protocol.prod two.protocol
  first := fun job => (one.first job, two.first job)
  Ends := fun job outcome phase =>
    one.Ends job outcome phase.1 ∧
      two.Ends job outcome phase.2
  Owns := fun job phase =>
    one.Owns job phase.1 ∧ two.Owns job phase.2 ∧
      Couples phase
  owns_first := fun job =>
    ⟨one.owns_first job, two.owns_first job,
      couples_first job⟩
  owns_next := fun ⟨hOne, hTwo, hCouples⟩ hMoves =>
    ⟨one.owns_next hOne hMoves.1,
      two.owns_next hTwo hMoves.2,
      couples_next hOne hTwo hCouples hMoves⟩

namespace PoolSystem

variable {J Op : Type} {Res : Op → Type} {ε χ σ Φ Ψ : Type}

/- The programs of all jobs conform to the script. -/
def Performs
    (system : PoolSystem J Op Res ε χ σ)
    (script : Script J Op Res ε Φ) : Prop :=
  ∀ job,
    (system.program job).Conforms script.protocol
      (script.Ends job) (script.first job)

/- Scripts performed one by one are performed together. -/
theorem Performs.prod
    {system : PoolSystem J Op Res ε χ σ}
    {one : Script J Op Res ε Φ}
    {two : Script J Op Res ε Ψ}
    {Couples : Φ × Ψ → Prop}
    {couples_first :
      ∀ job, Couples (one.first job, two.first job)}
    {couples_next :
      ∀ {job phase op answer phase'},
        one.Owns job phase.1 → two.Owns job phase.2 →
          Couples phase →
          one.protocol.prod two.protocol phase op answer
            phase' →
          Couples phase'}
    (hOne : system.Performs one)
    (hTwo : system.Performs two) :
    system.Performs
      (one.prod two Couples couples_first couples_next) :=
  fun job => (hOne job).prod (hTwo job)

/-
  A phase for every thread: the phase is one of the thread's
  job, and the thread's program conforms to the protocol
  from that phase on, up to an end of the job.
-/
def OnScript
    (script : Script J Op Res ε Φ)
    (threads : List (Thread J Op Res ε))
    (phases : List Φ) : Prop :=
  List.Forall₂
    (fun thread phase =>
      script.Owns thread.job phase ∧
        thread.program.Conforms script.protocol
          (script.Ends thread.job) phase)
    threads phases

variable {script : Script J Op Res ε Φ}
variable {threads : List (Thread J Op Res ε)}
variable {phases : List Φ} {index : Nat} {phase : Φ}

/- The phase of a thread, and what it conforms to. -/
theorem OnScript.phase_of_thread
    {thread : Thread J Op Res ε}
    (hScript : OnScript script threads phases)
    (hThread : threads[index]? = some thread) :
    ∃ phase,
      phases[index]? = some phase ∧
        script.Owns thread.job phase ∧
        thread.program.Conforms script.protocol
          (script.Ends thread.job) phase := by
  induction hScript generalizing index with
  | nil => simp at hThread
  | @cons threadAt phaseAt threads phases hHead hTail ih =>
      cases index with
      | zero =>
          simp only [List.getElem?_cons_zero,
            Option.some.injEq] at hThread
          subst hThread
          exact ⟨phaseAt, rfl, hHead⟩
      | succ index =>
          rw [List.getElem?_cons_succ] at hThread
          exact ih hThread

/- The thread at a phase, and what it conforms to. -/
theorem OnScript.thread_of_phase
    (hScript : OnScript script threads phases)
    (hPhase : phases[index]? = some phase) :
    ∃ thread,
      threads[index]? = some thread ∧
        script.Owns thread.job phase ∧
        thread.program.Conforms script.protocol
          (script.Ends thread.job) phase := by
  induction hScript generalizing index with
  | nil => simp at hPhase
  | @cons thread phaseAt threads phases hHead hTail ih =>
      cases index with
      | zero =>
          simp only [List.getElem?_cons_zero,
            Option.some.injEq] at hPhase
          subst hPhase
          exact ⟨thread, rfl, hHead⟩
      | succ index =>
          rw [List.getElem?_cons_succ] at hPhase
          exact ih hPhase

/- Some job owns each phase. -/
theorem OnScript.job_of_phase
    (hScript : OnScript script threads phases)
    (hPhase : phases[index]? = some phase) :
    ∃ job, script.Owns job phase := by
  rcases hScript.thread_of_phase hPhase with
    ⟨thread, _, hOwns, _⟩
  exact ⟨thread.job, hOwns⟩

/- Replacing a thread and its phase together. -/
theorem OnScript.set
    {thread : Thread J Op Res ε}
    (hScript : OnScript script threads phases)
    (index : Nat)
    (hOwns : script.Owns thread.job phase)
    (hThread :
      thread.program.Conforms script.protocol
        (script.Ends thread.job) phase) :
    OnScript script (threads.set index thread)
      (phases.set index phase) := by
  induction hScript generalizing index with
  | nil => exact List.Forall₂.nil
  | cons hHead hTail ih =>
      cases index with
      | zero =>
          exact List.Forall₂.cons ⟨hOwns, hThread⟩ hTail
      | succ index =>
          exact List.Forall₂.cons hHead (ih index)

/- The phase of a thread that is about to make a call. -/
theorem OnScript.phase_of_call
    {job : J}
    {op : Op}
    {resume : Except ε (Res op) → Program Op Res ε Unit}
    (hScript : OnScript script threads phases)
    (hThread :
      threads[index]? = some ⟨job, .call op resume⟩)
    (answer : Except ε (Res op)) :
    ∃ phase phase',
      phases[index]? = some phase ∧
        script.Owns job phase ∧
        script.protocol phase op answer phase' ∧
        OnScript script
          (threads.set index ⟨job, resume answer⟩)
          (phases.set index phase') := by
  rcases hScript.phase_of_thread hThread with
    ⟨phase, hPhase, hOwns, hConforms⟩
  rcases hConforms answer with ⟨phase', hMoves, hRest⟩
  have hOwns' := script.owns_next hOwns hMoves
  exact
    ⟨phase, phase', hPhase, hOwns, hMoves,
      hScript.set index hOwns' hRest⟩

/- Threads and phases are aligned. -/
theorem OnScript.length_eq
    (hScript : OnScript script threads phases) :
    threads.length = phases.length :=
  List.Forall₂.length_eq hScript

/- Starting a job adds its first phase. -/
theorem OnScript.append
    {thread : Thread J Op Res ε}
    (hScript : OnScript script threads phases)
    (hOwns : script.Owns thread.job phase)
    (hThread :
      thread.program.Conforms script.protocol
        (script.Ends thread.job) phase) :
    OnScript script
      (threads ++ [thread]) (phases ++ [phase]) :=
  List.rel_append hScript
    (List.Forall₂.cons ⟨hOwns, hThread⟩ List.Forall₂.nil)

variable {system : PoolSystem J Op Res ε χ σ}

/-
  Invariant rule for pools that perform a script.  An
  assertion about history, pool and phases is invariant as
  soon as starting a job and one allowed call preserve it.
-/
theorem script_invariant
    {store : σ}
    (hPerforms : system.Performs script)
    (Good :
      Transition (Pool J Op Res ε σ)
        (PoolLabel J χ) → Prop)
    (Inv :
      List
          (Transition (Pool J Op Res ε σ)
            (PoolLabel J χ)) →
        Pool J Op Res ε σ → List Φ → Prop)
    (hIdle : Inv [] (idle store) [])
    (hStart :
      ∀ history pool phases job,
        Inv history pool phases →
        OnScript script pool.threads phases →
        system.ready pool.store job = true →
        let pool' : Pool J Op Res ε σ :=
          ⟨pool.store,
            pool.threads ++ [⟨job, system.program job⟩]⟩
        Good ⟨pool, .start job, pool'⟩ →
        Inv (⟨pool, .start job, pool'⟩ :: history) pool'
          (phases ++ [script.first job]))
    (hResume :
      ∀ history pool phases index choice job op resume
        phase phase',
        Inv history pool phases →
        OnScript script pool.threads phases →
        pool.threads[index]? =
          some ⟨job, .call op resume⟩ →
        phases[index]? = some phase →
        script.Owns job phase →
        script.protocol phase op
          (system.exec choice op pool.store).1 phase' →
        let answer := system.exec choice op pool.store
        let pool' : Pool J Op Res ε σ :=
          ⟨answer.2,
            pool.threads.set index ⟨job, resume answer.1⟩⟩
        Good ⟨pool, .resume index choice, pool'⟩ →
        Inv
          (⟨pool, .resume index choice, pool'⟩ :: history)
          pool' (phases.set index phase'))
    {history :
      List
        (Transition (Pool J Op Res ε σ)
          (PoolLabel J χ))}
    {pool : Pool J Op Res ε σ}
    (hRun : Run system.step (idle store) history pool)
    (hGood : ∀ t ∈ history, Good t) :
    ∃ phases,
      OnScript script pool.threads phases ∧
        Inv history pool phases := by
  refine
    Run.invariant Good
      (fun history pool =>
        ∃ phases,
          OnScript script pool.threads phases ∧
            Inv history pool phases)
      ?_ ?_ hRun hGood
  · exact ⟨[], List.Forall₂.nil, hIdle⟩
  · rintro history pool label pool'
      ⟨phases, hScript, hInv⟩ hStep hNewest
    rcases step_cases hStep with
      ⟨job, rfl, hReady, rfl⟩ |
        ⟨index, choice, job, op, resume, rfl, hThread, rfl⟩
    · exact
        ⟨phases ++ [script.first job],
          hScript.append (script.owns_first job)
            (hPerforms job),
          hStart history pool phases job hInv hScript
            hReady hNewest⟩
    · rcases
          hScript.phase_of_call hThread
            (system.exec choice op pool.store).1 with
        ⟨phase, phase', hPhase, hOwns, hMoves, hScript'⟩
      exact
        ⟨phases.set index phase', hScript',
          hResume history pool phases index choice job op
            resume phase phase' hInv hScript hThread hPhase
            hOwns hMoves hNewest⟩

end PoolSystem

end OrderApi

------------------------------------------------------------
-- Phases of a Pool
------------------------------------------------------------

namespace OrderApi

/-
  A protocol for the jobs of a pool: the phase a job starts
  in, the phases it may end in, and a relation between jobs
  and phases that every allowed call preserves.
-/
structure Discipline
    (J Op : Type)
    (Res : Op → Type)
    (ε Φ : Type) where
  protocol : Protocol Op Res ε Φ
  first : J → Φ
  Final : Φ → Prop
  Owns : J → Φ → Prop
  owns_first : ∀ job, Owns job (first job)
  owns_next :
    ∀ {job phase op answer phase'},
      Owns job phase → protocol phase op answer phase' →
        Owns job phase'

/- A discipline is a script whose jobs end in its phases. -/
def Discipline.script
    {J Op : Type}
    {Res : Op → Type}
    {ε Φ : Type}
    (discipline : Discipline J Op Res ε Φ) :
    Script J Op Res ε Φ where
  protocol := discipline.protocol
  first := discipline.first
  Ends := fun _ _ phase => discipline.Final phase
  Owns := discipline.Owns
  owns_first := discipline.owns_first
  owns_next := discipline.owns_next

namespace PoolSystem

variable {J Op : Type} {Res : Op → Type} {ε χ σ Φ : Type}

/- The programs of all jobs conform to the protocol. -/
def Obeys
    (system : PoolSystem J Op Res ε χ σ)
    (discipline : Discipline J Op Res ε Φ) : Prop :=
  ∀ job,
    (system.program job).Conforms discipline.protocol
      (fun _ phase => discipline.Final phase)
      (discipline.first job)

/-
  A phase for every thread: the phase is one of the thread's
  job, and the thread's program conforms to the protocol
  from that phase on, up to a final phase.
-/
def InPhases
    (discipline : Discipline J Op Res ε Φ)
    (threads : List (Thread J Op Res ε))
    (phases : List Φ) : Prop :=
  List.Forall₂
    (fun thread phase =>
      discipline.Owns thread.job phase ∧
        thread.program.Conforms discipline.protocol
          (fun _ phase' => discipline.Final phase') phase)
    threads phases

variable {discipline : Discipline J Op Res ε Φ}

/- The phase of a thread that is about to make a call. -/
theorem InPhases.phase_of_call
    {threads : List (Thread J Op Res ε)}
    {phases : List Φ}
    {index : Nat}
    {job : J}
    {op : Op}
    {resume : Except ε (Res op) → Program Op Res ε Unit}
    (hPhases : InPhases discipline threads phases)
    (hThread :
      threads[index]? = some ⟨job, .call op resume⟩)
    (answer : Except ε (Res op)) :
    ∃ phase phase',
      phases[index]? = some phase ∧
        discipline.Owns job phase ∧
        discipline.protocol phase op answer phase' ∧
        InPhases discipline
          (threads.set index ⟨job, resume answer⟩)
          (phases.set index phase') := by
  have hScript :
      OnScript discipline.script threads phases := hPhases
  exact hScript.phase_of_call hThread answer

/- The thread at a phase, and what it conforms to. -/
theorem InPhases.thread_of_phase
    {threads : List (Thread J Op Res ε)}
    {phases : List Φ}
    {index : Nat}
    {phase : Φ}
    (hPhases : InPhases discipline threads phases)
    (hPhase : phases[index]? = some phase) :
    ∃ thread,
      threads[index]? = some thread ∧
        discipline.Owns thread.job phase ∧
        thread.program.Conforms discipline.protocol
          (fun _ phase' => discipline.Final phase')
          phase := by
  have hScript :
      OnScript discipline.script threads phases := hPhases
  exact hScript.thread_of_phase hPhase

/- A thread in a phase that is not final is in progress. -/
theorem InPhases.inProgress
    {threads : List (Thread J Op Res ε)}
    {phases : List Φ}
    {index : Nat}
    {phase : Φ}
    (hPhases : InPhases discipline threads phases)
    (hPhase : phases[index]? = some phase)
    (hNotFinal : ¬ discipline.Final phase) :
    ∃ job op resume,
      threads[index]? = some ⟨job, .call op resume⟩ ∧
        discipline.Owns job phase ∧
        ∀ answer, ∃ phase',
          discipline.protocol phase op answer phase' := by
  rcases hPhases.thread_of_phase hPhase with
    ⟨⟨job, program⟩, hThread, hOwns, hConforms⟩
  cases program with
  | done value => exact (hNotFinal hConforms).elim
  | fail error => exact (hNotFinal hConforms).elim
  | call op resume =>
      refine ⟨job, op, resume, hThread, hOwns, ?_⟩
      intro answer
      rcases hConforms answer with ⟨phase', hMoves, _⟩
      exact ⟨phase', hMoves⟩

/- Threads and phases are aligned. -/
theorem InPhases.length_eq
    {threads : List (Thread J Op Res ε)}
    {phases : List Φ}
    (hPhases : InPhases discipline threads phases) :
    threads.length = phases.length :=
  List.Forall₂.length_eq hPhases

variable {system : PoolSystem J Op Res ε χ σ}

/-
  Invariant rule for pools that obey a discipline.  An
  assertion about history, pool and phases is invariant as
  soon as starting a job and one allowed call preserve it.
-/
theorem run_invariant
    {store : σ}
    (hObeys : system.Obeys discipline)
    (Good :
      Transition (Pool J Op Res ε σ)
        (PoolLabel J χ) → Prop)
    (Inv :
      List
          (Transition (Pool J Op Res ε σ)
            (PoolLabel J χ)) →
        Pool J Op Res ε σ → List Φ → Prop)
    (hIdle : Inv [] (idle store) [])
    (hStart :
      ∀ history pool phases job,
        Inv history pool phases →
        InPhases discipline pool.threads phases →
        system.ready pool.store job = true →
        let pool' : Pool J Op Res ε σ :=
          ⟨pool.store,
            pool.threads ++ [⟨job, system.program job⟩]⟩
        Good ⟨pool, .start job, pool'⟩ →
        Inv (⟨pool, .start job, pool'⟩ :: history) pool'
          (phases ++ [discipline.first job]))
    (hResume :
      ∀ history pool phases index choice job op resume
        phase phase',
        Inv history pool phases →
        InPhases discipline pool.threads phases →
        pool.threads[index]? =
          some ⟨job, .call op resume⟩ →
        phases[index]? = some phase →
        discipline.Owns job phase →
        discipline.protocol phase op
          (system.exec choice op pool.store).1 phase' →
        let answer := system.exec choice op pool.store
        let pool' : Pool J Op Res ε σ :=
          ⟨answer.2,
            pool.threads.set index ⟨job, resume answer.1⟩⟩
        Good ⟨pool, .resume index choice, pool'⟩ →
        Inv
          (⟨pool, .resume index choice, pool'⟩ :: history)
          pool' (phases.set index phase'))
    {history :
      List
        (Transition (Pool J Op Res ε σ)
          (PoolLabel J χ))}
    {pool : Pool J Op Res ε σ}
    (hRun : Run system.step (idle store) history pool)
    (hGood : ∀ t ∈ history, Good t) :
    ∃ phases,
      InPhases discipline pool.threads phases ∧
        Inv history pool phases := by
  have hPerforms : system.Performs discipline.script :=
    hObeys
  exact
    script_invariant hPerforms Good Inv hIdle hStart hResume
      hRun hGood

/- Every reachable pool has phases. -/
theorem inPhases_of_run
    {store : σ}
    (hObeys : system.Obeys discipline)
    {history :
      List
        (Transition (Pool J Op Res ε σ)
          (PoolLabel J χ))}
    {pool : Pool J Op Res ε σ}
    (hRun : Run system.step (idle store) history pool) :
    ∃ phases, InPhases discipline pool.threads phases := by
  rcases
      run_invariant hObeys (fun _ => True)
        (fun _ _ _ => True) trivial
        (fun _ _ _ _ _ _ _ _ => trivial)
        (fun _ _ _ _ _ _ _ _ _ _ _ _ _ _ _ _ _ =>
          trivial)
        hRun (fun _ _ => trivial) with
    ⟨phases, hPhases, _⟩
  exact ⟨phases, hPhases⟩

/- The calls of a pool, as a discipline of one phase. -/
def callDiscipline
    (J : Type)
    (Res : Op → Type)
    (ε : Type)
    (P : Op → Prop) :
    Discipline J Op Res ε Unit where
  protocol := fun _ op _ _ => P op
  first := fun _ => ()
  Final := fun _ => True
  Owns := fun _ _ => True
  owns_first := fun _ => trivial
  owns_next := fun _ _ => trivial

/- What all programs call, all transitions call. -/
theorem calls_of_run
    {P : Op → Prop}
    {store : σ}
    (hCalls :
      ∀ job, Program.Calls P (system.program job))
    {history :
      List
        (Transition (Pool J Op Res ε σ)
          (PoolLabel J χ))}
    {pool : Pool J Op Res ε σ}
    (hRun : Run system.step (idle store) history pool)
    {t : Transition (Pool J Op Res ε σ) (PoolLabel J χ)}
    (hMem : t ∈ history)
    {op : Op}
    {choice : χ}
    (hCall : t.call? = some (op, choice)) :
    P op := by
  rcases hRun.of_mem hMem with ⟨hStep, earlier, hEarlier, _⟩
  have hObeys : system.Obeys (callDiscipline J Res ε P) :=
    hCalls
  rcases inPhases_of_run hObeys hEarlier with
    ⟨phases, hPhases⟩
  rcases step_of_call hStep hCall with
    ⟨index, job, resume, _, hThread, _⟩
  rcases
      hPhases.phase_of_call hThread
        (system.exec choice op t.before.store).1 with
    ⟨_, _, _, _, hMoves, _⟩
  exact hMoves

end PoolSystem

end OrderApi
