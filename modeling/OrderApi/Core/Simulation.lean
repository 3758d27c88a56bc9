import OrderApi.Core.Pool
import Mathlib.Data.List.ReduceOption
import Mathlib.Data.List.Perm.Basic

/-
  Simulations between pools.

  A thread of the simulated pool is stood for by a thread of
  the simulating one, or by none.  What a thread does is a
  call of its stand-in, the start of one, or nothing that is
  seen.  Other threads keep their stand-ins, so that a rule
  for one thread is a rule for whole runs.

  Key definitions include:
    * `CallEvent`
    * `Transition.event?`
    * `Correspondence`, `Simulation`
    * `Simulation.Paired`

  Key theorems include:
    * `Simulation.step`
    * `Simulation.exists_run`
-/

------------------------------------------------------------
-- What a Run Shows
------------------------------------------------------------

namespace OrderApi

/- A call that was made for a job, with its answer. -/
structure CallEvent
    (J Op : Type)
    (Res : Op → Type)
    (ε : Type) where
  job : J
  op : Op
  answer : Except ε (Res op)

/- The call and its answer, whatever job it was made for. -/
def CallEvent.call
    {J Op : Type}
    {Res : Op → Type}
    {ε : Type}
    (event : CallEvent J Op Res ε) :
    Option ((op : Op) × Except ε (Res op)) :=
  some ⟨event.op, event.answer⟩

/- The call that a transition makes, with its answer. -/
def Transition.event?
    {J Op : Type}
    {Res : Op → Type}
    {ε χ σ : Type}
    (system : PoolSystem J Op Res ε χ σ)
    (t :
      Transition (Pool J Op Res ε σ) (PoolLabel J χ)) :
    Option (CallEvent J Op Res ε) :=
  match t.label with
  | .start _ => none
  | .resume index choice =>
      match t.before.threads[index]? with
      | some ⟨job, .call op _⟩ =>
          some
            ⟨job, op,
              (system.exec choice op t.before.store).1⟩
      | _ => none

section Event

variable {J Op : Type} {Res : Op → Type} {ε χ σ : Type}
variable {system : PoolSystem J Op Res ε χ σ}
variable {pool pool' : Pool J Op Res ε σ}

@[simp] theorem Transition.event?_start
    {job : J} :
    (⟨pool, .start job, pool'⟩ :
      Transition (Pool J Op Res ε σ)
        (PoolLabel J χ)).event? system = none :=
  rfl

theorem Transition.event?_resume
    {index : Nat}
    {choice : χ}
    {job : J}
    {op : Op}
    {resume : Except ε (Res op) → Program Op Res ε Unit}
    (hThread :
      pool.threads[index]? =
        some ⟨job, .call op resume⟩) :
    (⟨pool, .resume index choice, pool'⟩ :
      Transition (Pool J Op Res ε σ)
        (PoolLabel J χ)).event? system =
      some ⟨job, op, (system.exec choice op pool.store).1⟩ := by
  simp only [Transition.event?, hThread]

end Event

/- The calls of a history that an observer sees. -/
def seen
    {J Op : Type}
    {Res : Op → Type}
    {ε χ σ E : Type}
    (system : PoolSystem J Op Res ε χ σ)
    (observe : CallEvent J Op Res ε → Option E)
    (history :
      List
        (Transition (Pool J Op Res ε σ)
          (PoolLabel J χ))) : List E :=
  history.filterMap fun t =>
    (t.event? system).bind observe

end OrderApi

------------------------------------------------------------
-- Stand-ins
------------------------------------------------------------

namespace OrderApi

variable {α : Type} {stands : List (Option α)}
variable {others : List α} {item item' : α} {index : Nat}

/- A stand-in is found among the stand-ins. -/
theorem exists_of_perm_reduceOption
    (hPerm : stands.reduceOption.Perm others)
    (hAt : stands[index]? = some (some item)) :
    ∃ place : Nat, others[place]? = some item := by
  have hStand : some item ∈ stands :=
    List.mem_of_getElem? hAt
  have hMem : item ∈ others :=
    hPerm.mem_iff.mp (List.reduceOption_mem_iff.mpr hStand)
  exact List.mem_iff_getElem?.mp hMem

/- A list with one item replaced, up to the order. -/
theorem set_perm_cons_eraseIdx
    (hAt : others[index]? = some item) :
    (others.set index item').Perm
      (item' :: others.eraseIdx index) := by
  rcases List.getElem?_eq_some_iff.mp hAt with ⟨hLess, _⟩
  rw [List.set_eq_take_append_cons_drop, if_pos hLess,
    List.eraseIdx_eq_take_drop_succ]
  exact List.perm_middle

theorem perm_cons_eraseIdx
    (hAt : others[index]? = some item) :
    others.Perm (item :: others.eraseIdx index) := by
  have hSet :
      (others.set index item).Perm
        (item :: others.eraseIdx index) :=
    set_perm_cons_eraseIdx hAt
  rcases List.getElem?_eq_some_iff.mp hAt with
    ⟨hLess, hItem⟩
  rwa [← hItem, List.set_getElem_self, hItem] at hSet

/- Stand-ins with one of them taken out. -/
theorem reduceOption_perm_of_some
    (hAt : stands[index]? = some (some item)) :
    stands.reduceOption.Perm
      (item :: (stands.eraseIdx index).reduceOption) := by
  have hAll := (perm_cons_eraseIdx hAt).filterMap id
  simpa [List.reduceOption] using hAll

theorem reduceOption_perm_of_none
    (hAt : stands[index]? = some none) :
    stands.reduceOption.Perm
      (stands.eraseIdx index).reduceOption := by
  have hAll := (perm_cons_eraseIdx hAt).filterMap id
  simpa [List.reduceOption] using hAll

theorem reduceOption_set_some
    {stand : Option α}
    (hAt : stands[index]? = some stand) :
    (stands.set index (some item)).reduceOption.Perm
      (item :: (stands.eraseIdx index).reduceOption) := by
  have hAll :
      ((stands.set index (some item)).filterMap id).Perm
        ((some item :: stands.eraseIdx index).filterMap id) :=
    (set_perm_cons_eraseIdx hAt).filterMap id
  simpa [List.reduceOption] using hAll

/- A stand-in moves on, here and among the others. -/
theorem perm_set_of_some
    {place : Nat}
    (hPerm : stands.reduceOption.Perm others)
    (hAt : stands[index]? = some (some item))
    (hPlace : others[place]? = some item) :
    (stands.set index (some item')).reduceOption.Perm
      (others.set place item') := by
  have hRest :
      (stands.eraseIdx index).reduceOption.Perm
        (others.eraseIdx place) := by
    have hBoth :
        (item :: (stands.eraseIdx index).reduceOption).Perm
          (item :: others.eraseIdx place) :=
      (reduceOption_perm_of_some hAt).symm.trans
        (hPerm.trans (perm_cons_eraseIdx hPlace))
    exact hBoth.cons_inv
  exact
    (reduceOption_set_some hAt).trans
      ((hRest.cons item').trans
        (set_perm_cons_eraseIdx hPlace).symm)

/- A stand-in comes in for a thread that had none. -/
theorem perm_append_of_none
    (hPerm : stands.reduceOption.Perm others)
    (hAt : stands[index]? = some none) :
    (stands.set index (some item)).reduceOption.Perm
      (others ++ [item]) := by
  have hRest :
      (stands.eraseIdx index).reduceOption.Perm others :=
    (reduceOption_perm_of_none hAt).symm.trans hPerm
  exact
    (reduceOption_set_some hAt).trans
      ((hRest.cons item).trans
        (List.perm_append_singleton item others).symm)

end OrderApi

------------------------------------------------------------
-- Lists Related Item by Item
------------------------------------------------------------

namespace OrderApi

variable {α β : Type} {R : α → β → Prop}
variable {items : List α} {others : List β}
variable {item : α} {other : β} {index : Nat}

theorem forall₂_set
    (hAll : List.Forall₂ R items others)
    (hItem : R item other)
    (index : Nat) :
    List.Forall₂ R (items.set index item)
      (others.set index other) := by
  induction hAll generalizing index with
  | nil => exact .nil
  | cons hHead hTail ih =>
      cases index with
      | zero => exact .cons hItem hTail
      | succ index => exact .cons hHead (ih index)

theorem exists_of_forall₂
    (hAll : List.Forall₂ R items others)
    (hAt : items[index]? = some item) :
    ∃ other, others[index]? = some other ∧ R item other := by
  induction hAll generalizing index with
  | nil => simp at hAt
  | cons hHead hTail ih =>
      cases index with
      | zero =>
          simp only [List.getElem?_cons_zero,
            Option.some.injEq] at hAt
          subst hAt
          exact ⟨_, rfl, hHead⟩
      | succ index => exact ih hAt

theorem set_eq_self
    (hAt : others[index]? = some other) :
    others.set index other = others := by
  rcases List.getElem?_eq_some_iff.mp hAt with ⟨_, rfl⟩
  exact List.set_getElem_self _

end OrderApi

------------------------------------------------------------
-- Simulations
------------------------------------------------------------

namespace OrderApi

variable {J Op : Type} {Res : Op → Type} {ε χ σ : Type}
variable {J' Op' : Type} {Res' : Op' → Type}
variable {ε' χ' σ' : Type}

/- A pool with one more job, at its start. -/
def PoolSystem.entered
    (system : PoolSystem J Op Res ε χ σ)
    (pool : Pool J Op Res ε σ)
    (job : J) : Pool J Op Res ε σ :=
  ⟨pool.store, pool.threads ++ [⟨job, system.program job⟩]⟩

/- A pool whose thread at an index has made its call. -/
def PoolSystem.called
    (system : PoolSystem J Op Res ε χ σ)
    (pool : Pool J Op Res ε σ)
    (index : Nat)
    (choice : χ)
    (job : J)
    (op : Op)
    (resume : Except ε (Res op) → Program Op Res ε Unit) :
    Pool J Op Res ε σ :=
  let answer := system.exec choice op pool.store
  ⟨answer.2,
    pool.threads.set index ⟨job, resume answer.1⟩⟩

/-
  How two pools correspond: what observers of them see of a
  call, which stores go with which pool, and which thread
  stands for a thread, if any does.
-/
structure Correspondence
    (system : PoolSystem J Op Res ε χ σ)
    (system' : PoolSystem J' Op' Res' ε' χ' σ')
    (E : Type) where
  observe : CallEvent J Op Res ε → Option E
  observe' : CallEvent J' Op' Res' ε' → Option E
  Stores : σ → Pool J' Op' Res' ε' σ' → Prop
  Stands :
    Thread J Op Res ε → Option (Thread J' Op' Res' ε') → Prop

section Rules

variable {system : PoolSystem J Op Res ε χ σ}
variable {system' : PoolSystem J' Op' Res' ε' χ' σ'}
variable {E : Type}

/-
  A call is followed in one of three ways: nothing is seen
  of it, or a stand-in enters, or the stand-in calls too.
-/
inductive Correspondence.Follows
    (R : Correspondence system system' E)
    (choice : χ)
    (store : σ)
    (pool' : Pool J' Op' Res' ε' σ')
    (job : J)
    (op : Op)
    (resume : Except ε (Res op) → Program Op Res ε Unit) :
    Option (Thread J' Op' Res' ε') → Prop
  | unseen
      {stand : Option (Thread J' Op' Res' ε')}
      (hUnseen :
        R.observe
          ⟨job, op, (system.exec choice op store).1⟩ = none)
      (hStores :
        R.Stores (system.exec choice op store).2 pool')
      (hStands :
        R.Stands
          ⟨job, resume (system.exec choice op store).1⟩
          stand) :
      Follows R choice store pool' job op resume stand
  | enters
      (job' : J')
      (hUnseen :
        R.observe
          ⟨job, op, (system.exec choice op store).1⟩ = none)
      (hReady : system'.ready pool'.store job' = true)
      (hStores :
        R.Stores (system.exec choice op store).2
          (system'.entered pool' job'))
      (hStands :
        R.Stands
          ⟨job, resume (system.exec choice op store).1⟩
          (some ⟨job', system'.program job'⟩)) :
      Follows R choice store pool' job op resume none
  | calls
      (choice' : χ')
      {job' : J'}
      {op' : Op'}
      {resume' :
        Except ε' (Res' op') → Program Op' Res' ε' Unit}
      (hSame :
        R.observe
            ⟨job, op, (system.exec choice op store).1⟩ =
          R.observe'
            ⟨job', op',
              (system'.exec choice' op' pool'.store).1⟩)
      (hStores :
        ∀ place : Nat,
          pool'.threads[place]? =
              some ⟨job', .call op' resume'⟩ →
            R.Stores (system.exec choice op store).2
              (system'.called pool' place choice' job' op'
                resume'))
      (hStands :
        R.Stands
          ⟨job, resume (system.exec choice op store).1⟩
          (some
            ⟨job',
              resume'
                (system'.exec choice' op'
                  pool'.store).1⟩)) :
      Follows R choice store pool' job op resume
        (some ⟨job', .call op' resume'⟩)

end Rules

/-
  One system simulated by another: every start and every
  call is followed.
-/
structure Simulation
    (system : PoolSystem J Op Res ε χ σ)
    (system' : PoolSystem J' Op' Res' ε' χ' σ')
    (E : Type) extends Correspondence system system' E where
  start :
    ∀ {store pool' job},
      Stores store pool' →
        system.ready store job = true →
          Stands ⟨job, system.program job⟩ none ∨
          ∃ job',
            system'.ready pool'.store job' = true ∧
              Stores store (system'.entered pool' job') ∧
              Stands ⟨job, system.program job⟩
                (some ⟨job', system'.program job'⟩)
  call :
    ∀ {store pool' job op resume stand} choice,
      Stores store pool' →
        Stands ⟨job, .call op resume⟩ stand →
          (∀ thread' ∈ stand, thread' ∈ pool'.threads) →
            toCorrespondence.Follows choice store pool' job
              op resume stand

namespace Simulation

variable {system : PoolSystem J Op Res ε χ σ}
variable {system' : PoolSystem J' Op' Res' ε' χ' σ'}
variable {E : Type}

/- The other pool consists of the stand-ins. -/
def Paired
    (S : Simulation system system' E)
    (threads : List (Thread J Op Res ε))
    (threads' : List (Thread J' Op' Res' ε')) : Prop :=
  ∃ stands,
    List.Forall₂ S.Stands threads stands ∧
      stands.reduceOption.Perm threads'

/- Two pools that the simulation relates. -/
def Related
    (S : Simulation system system' E)
    (pool : Pool J Op Res ε σ)
    (pool' : Pool J' Op' Res' ε' σ') : Prop :=
  S.Stores pool.store pool' ∧
    S.Paired pool.threads pool'.threads

variable {S : Simulation system system' E}
variable {threads : List (Thread J Op Res ε)}
variable {threads' : List (Thread J' Op' Res' ε')}
variable {thread next : Thread J Op Res ε}
variable {thread' next' : Thread J' Op' Res' ε'}
variable {index place : Nat}

theorem paired_nil : S.Paired [] [] :=
  ⟨[], .nil, List.Perm.refl _⟩

/- A thread comes in without a stand-in. -/
theorem Paired.append_none
    (hPaired : S.Paired threads threads')
    (hStands : S.Stands thread none) :
    S.Paired (threads ++ [thread]) threads' := by
  rcases hPaired with ⟨stands, hAll, hPerm⟩
  refine
    ⟨stands ++ [none],
      List.rel_append hAll (.cons hStands .nil), ?_⟩
  rwa [List.reduceOption_append,
    List.reduceOption_singleton, Option.toList_none,
    List.append_nil]

/- A thread comes in together with its stand-in. -/
theorem Paired.append_some
    (hPaired : S.Paired threads threads')
    (hStands : S.Stands thread (some thread')) :
    S.Paired (threads ++ [thread])
      (threads' ++ [thread']) := by
  rcases hPaired with ⟨stands, hAll, hPerm⟩
  refine
    ⟨stands ++ [some thread'],
      List.rel_append hAll (.cons hStands .nil), ?_⟩
  rw [List.reduceOption_append,
    List.reduceOption_singleton]
  exact hPerm.append_right _

/- The stand-in of a thread is in the other pool. -/
theorem mem_of_stand
    {stands : List (Option (Thread J' Op' Res' ε'))}
    {stand : Option (Thread J' Op' Res' ε')}
    (hPerm : stands.reduceOption.Perm threads')
    (hStand : stands[index]? = some stand) :
    ∀ thread' ∈ stand, thread' ∈ threads' := by
  intro thread' hMem
  rw [Option.mem_def.mp hMem] at hStand
  rcases exists_of_perm_reduceOption hPerm hStand with
    ⟨place, hPlace⟩
  exact List.mem_of_getElem? hPlace

/- One step is a step of the other pool, or is not seen. -/
theorem step
    {pool next : Pool J Op Res ε σ}
    {pool' : Pool J' Op' Res' ε' σ'}
    {label : PoolLabel J χ}
    (hRelated : S.Related pool pool')
    (hStep : system.step pool label = some next) :
    ((Transition.event? system ⟨pool, label, next⟩).bind
          S.observe = none ∧
        S.Related next pool') ∨
      ∃ label' next',
        system'.step pool' label' = some next' ∧
          (Transition.event? system
              ⟨pool, label, next⟩).bind S.observe =
            (Transition.event? system'
              ⟨pool', label', next'⟩).bind S.observe' ∧
          S.Related next next' := by
  rcases hRelated with ⟨hStores, hPaired⟩
  rcases PoolSystem.step_cases hStep with
    ⟨job, rfl, hReady, rfl⟩ |
      ⟨index, choice, job, op, resume, rfl, hThread, rfl⟩
  · rcases S.start hStores hReady with
      hStands | ⟨job', hReady', hStores', hStands⟩
    · exact
        Or.inl ⟨rfl, hStores, hPaired.append_none hStands⟩
    · refine
        Or.inr
          ⟨.start job', system'.entered pool' job', ?_, rfl,
            hStores', hPaired.append_some hStands⟩
      simp [PoolSystem.step, hReady', PoolSystem.entered]
  · rw [Transition.event?_resume hThread, Option.bind_some]
    rcases hPaired with ⟨stands, hAll, hPerm⟩
    rcases exists_of_forall₂ hAll hThread with
      ⟨stand, hStand, hStands⟩
    have hFollows :=
      S.call choice hStores hStands
        (mem_of_stand hPerm hStand)
    rcases hFollows with
      ⟨hUnseen, hStores', hStands'⟩ |
        ⟨job', hUnseen, hReady', hStores', hStands'⟩ |
        @⟨choice', job', op', resume', hSame, hStores',
          hStands'⟩
    · -- the stand-in stays where it is
      have hStays : stands.set index stand = stands :=
        set_eq_self hStand
      have hAll' := forall₂_set hAll hStands' index
      rw [hStays] at hAll'
      exact Or.inl ⟨hUnseen, hStores', stands, hAll', hPerm⟩
    · refine
        Or.inr
          ⟨.start job', system'.entered pool' job', ?_, ?_,
            hStores', _, forall₂_set hAll hStands' index,
            perm_append_of_none hPerm hStand⟩
      · simp [PoolSystem.step, hReady', PoolSystem.entered]
      · rw [hUnseen]
        rfl
    · rcases exists_of_perm_reduceOption hPerm hStand with
        ⟨place, hPlace⟩
      refine
        Or.inr
          ⟨.resume place choice',
            system'.called pool' place choice' job' op'
              resume', ?_, ?_, hStores' place hPlace, _,
            forall₂_set hAll hStands' index,
            perm_set_of_some hPerm hStand hPlace⟩
      · simp only [PoolSystem.step, hPlace]
        rfl
      · rw [Transition.event?_resume hPlace,
          Option.bind_some]
        exact hSame

/-
  Every run is simulated: there is a run of the other pool
  that shows the same calls, to a related pool.
-/
theorem exists_run
    {store : σ}
    {store' : σ'}
    {history :
      List
        (Transition (Pool J Op Res ε σ) (PoolLabel J χ))}
    {pool : Pool J Op Res ε σ}
    (hStores : S.Stores store (PoolSystem.idle store'))
    (hRun :
      Run system.step (PoolSystem.idle store) history pool) :
    ∃ history' pool',
      Run system'.step (PoolSystem.idle store') history'
          pool' ∧
        seen system S.observe history =
          seen system' S.observe' history' ∧
        S.Related pool pool' := by
  induction hRun with
  | idle =>
      exact
        ⟨[], PoolSystem.idle store', .idle, rfl, hStores,
          paired_nil⟩
  | @next history pool next label hRun hStep ih =>
      rcases ih with
        ⟨history', pool', hRun', hSeen, hRelated⟩
      rcases S.step hRelated hStep with
        ⟨hUnseen, hRelated'⟩ |
          ⟨label', next', hStep', hSame, hRelated'⟩
      · refine ⟨history', pool', hRun', ?_, hRelated'⟩
        rw [← hSeen]
        simp only [seen, List.filterMap_cons, hUnseen]
      · refine
          ⟨_, next', hRun'.next hStep', ?_, hRelated'⟩
        simp only [seen, List.filterMap_cons, hSame]
        rw [← seen, ← seen, hSeen]

end Simulation

end OrderApi
