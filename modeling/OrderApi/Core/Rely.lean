import OrderApi.Core.Traces

/-
  What a program of a pool achieves among others.

  Before each call of a program, and behind the last one,
  others change the store as a relation allows, on which the
  program relies.  A program that prevails among them always
  returns, and what holds then keeps holding.

  A thread of a pool whose program prevails cannot throw, in
  any run in which the others keep to the relation; so jobs
  that are carried out one after the other, with others in
  between, all return if each of them prevails.

  Key definitions include:
    * `Program.Prevails`
    * `PoolSystem.Among`
    * `PoolSystem.Relayed`
    * `PoolSystem.play`

  Key theorems include:
    * `Program.prevails_bind`
    * `Program.prevails_forEach`
    * `PoolSystem.prevails_of_run`
    * `PoolSystem.Relayed.cases`
    * `PoolSystem.relayed_of_play`
-/

------------------------------------------------------------
-- Programs that Prevail
------------------------------------------------------------

namespace OrderApi

namespace Program

variable {Op : Type} {Res : Op → Type} {ε α β : Type}
variable {χ σ : Type}

/-
  A program returns, whatever others do before its calls as
  `Rely` allows, if its own calls meet choices that are
  `Good` for the store.  `Post` is about its calls with
  their answers, its value and the store.
-/
def Prevails
    (exec : χ → (op : Op) → σ → Except ε (Res op) × σ)
    (Good : χ → σ → Prop)
    (Rely : σ → σ → Prop)
    (Post : List (Called Op Res ε) → α → σ → Prop) :
    List (Called Op Res ε) → Program Op Res ε α → σ → Prop
  | calls, done value, store => Post calls value store
  | _, fail _, _ => False
  | calls, call op resume, store =>
      ∀ choice store',
        Good choice store' →
        Rely store store' →
        Prevails exec Good Rely Post
          (calls ++ [⟨op, (exec choice op store').1⟩])
          (resume (exec choice op store').1)
          (exec choice op store').2

variable {exec : χ → (op : Op) → σ → Except ε (Res op) × σ}
variable {Good : χ → σ → Prop} {Rely : σ → σ → Prop}
variable {Post Post' : List (Called Op Res ε) → α → σ → Prop}
variable {program : Program Op Res ε α}
variable {calls : List (Called Op Res ε)} {store : σ}

theorem Prevails.mono
    (hPrevails :
      Prevails exec Good Rely Post calls program store)
    (hPost :
      ∀ calls value s, Post calls value s →
        Post' calls value s) :
    Prevails exec Good Rely Post' calls program store := by
  induction program generalizing calls store with
  | done value => exact hPost calls value store hPrevails
  | fail error => exact hPrevails
  | call op resume ih =>
      intro choice store' hGood hRely
      exact ih _ (hPrevails choice store' hGood hRely)

/- What others do first is what they do before a call. -/
theorem Prevails.relies
    (hTrans : ∀ s₁ s₂ s₃, Rely s₁ s₂ → Rely s₂ s₃ → Rely s₁ s₃)
    (hPost :
      ∀ calls value s s',
        Post calls value s → Rely s s' → Post calls value s')
    {store' : σ}
    (hPrevails :
      Prevails exec Good Rely Post calls program store)
    (hRely : Rely store store') :
    Prevails exec Good Rely Post calls program store' := by
  cases program with
  | done value =>
      exact hPost calls value store store' hPrevails hRely
  | fail error => exact hPrevails
  | call op resume =>
      intro choice store'' hGood hRely'
      exact
        hPrevails choice store'' hGood
          (hTrans store store' store'' hRely hRely')

/- Rule for one call. -/
theorem prevails_perform
    (op : Op)
    {Post : List (Called Op Res ε) → Res op → σ → Prop}
    (hExec :
      ∀ choice store',
        Good choice store' →
        Rely store store' →
        ∃ value store'',
          exec choice op store' = (.ok value, store'') ∧
            Post (calls ++ [⟨op, .ok value⟩]) value store'') :
    Prevails exec Good Rely Post calls (perform op) store := by
  intro choice store' hGood hRely
  rcases hExec choice store' hGood hRely with
    ⟨value, store'', hAnswer, hPost⟩
  rw [hAnswer]
  exact hPost

/- Sequential rule. -/
theorem prevails_bind
    {Post : List (Called Op Res ε) → β → σ → Prop}
    {next : α → Program Op Res ε β}
    (hFirst :
      Prevails exec Good Rely
        (fun calls value s =>
          Prevails exec Good Rely Post calls (next value) s)
        calls program store) :
    Prevails exec Good Rely Post calls (program.bind next)
      store := by
  induction program generalizing calls store with
  | done value => exact hFirst
  | fail error => exact hFirst.elim
  | call op resume ih =>
      intro choice store' hGood hRely
      exact ih _ (hFirst choice store' hGood hRely)

/- A program that prevails has no error to handle. -/
theorem Prevails.attempt
    (hPrevails :
      Prevails exec Good Rely Post calls program store)
    (handler : ε → Program Op Res ε α) :
    Prevails exec Good Rely Post calls
      (program.attempt handler) store := by
  induction program generalizing calls store with
  | done value => exact hPrevails
  | fail error => exact hPrevails.elim
  | call op resume ih =>
      intro choice store' hGood hRely
      exact ih _ (hPrevails choice store' hGood hRely)

/- Rule for a finalizer. -/
theorem prevails_andFinally
    {finalizer : Program Op Res ε Unit}
    (hProgram :
      Prevails exec Good Rely
        (fun calls value s =>
          Prevails exec Good Rely
            (fun calls _ s => Post calls value s) calls
            finalizer s)
        calls program store) :
    Prevails exec Good Rely Post calls
      (program.andFinally finalizer) store := by
  induction program generalizing calls store with
  | done value => exact prevails_bind hProgram
  | fail error => exact hProgram.elim
  | call op resume ih =>
      intro choice store' hGood hRely
      exact ih _ (hProgram choice store' hGood hRely)

theorem prevails_ignore
    {Post : List (Called Op Res ε) → Unit → σ → Prop}
    (hProgram :
      Prevails exec Good Rely
        (fun calls _ s => Post calls () s) calls program
        store) :
    Prevails exec Good Rely Post calls program.ignore
      store :=
  prevails_bind hProgram

/-
  Loop rule.  The invariant relates the items that were
  visited with the calls made and the store.
-/
theorem prevails_forEach
    {body : β → Program Op Res ε Unit}
    (Inv : List β → List (Called Op Res ε) → σ → Prop)
    (items : List β)
    (hTurn :
      ∀ before item after calls s,
        items = before ++ item :: after →
        Inv before calls s →
        Prevails exec Good Rely
          (fun calls _ s => Inv (before ++ [item]) calls s)
          calls (body item) s)
    (hInv : Inv [] calls store) :
    Prevails exec Good Rely
      (fun calls _ s => Inv items calls s) calls
      (forEach items body) store := by
  have hLoop :
      ∀ after before calls s,
        items = before ++ after →
        Inv before calls s →
        Prevails exec Good Rely
          (fun calls _ s => Inv items calls s) calls
          (forEach after body) s := by
    intro after
    induction after with
    | nil =>
        intro before calls s hItems hInv
        rw [List.append_nil] at hItems
        rw [hItems]
        exact hInv
    | cons item after ih =>
        intro before calls s hItems hInv
        have hSplit :
            items = (before ++ [item]) ++ after := by
          rw [hItems, List.append_assoc,
            List.singleton_append]
        apply prevails_bind
        apply
          (hTurn before item after calls s hItems hInv).mono
        intro calls' _ s' hInv'
        exact ih (before ++ [item]) calls' s' hSplit hInv'
  exact hLoop items [] calls store rfl hInv

end Program

end OrderApi

------------------------------------------------------------
-- Threads that Prevail
------------------------------------------------------------

namespace OrderApi

namespace PoolSystem

variable {J Op : Type} {Res : Op → Type} {ε χ σ : Type}

/-
  The calls of one thread meet choices that are `Good` for
  the store, and those of all others change the store as
  `Rely` allows.
-/
def Among
    (Good : χ → σ → Prop)
    (Rely : σ → σ → Prop)
    (index : Nat)
    (history :
      List
        (Transition (Pool J Op Res ε σ)
          (PoolLabel J χ))) : Prop :=
  ∀ t ∈ history, ∀ resumed choice,
    t.label = .resume resumed choice →
      if resumed = index then Good choice t.before.store
      else Rely t.before.store t.after.store

variable {system : PoolSystem J Op Res ε χ σ}
variable {Good : χ → σ → Prop} {Rely : σ → σ → Prop}
variable {Pre : σ → Prop}
variable {Post : List (Called Op Res ε) → Unit → σ → Prop}
variable {history :
  List (Transition (Pool J Op Res ε σ) (PoolLabel J χ))}
variable {pool pool' : Pool J Op Res ε σ}
variable {job : J} {index : Nat}

/-
  A thread that is not there yet may still be started, and
  one that is there prevails, if it is one of the job.
-/
def Prevailing
    (system : PoolSystem J Op Res ε χ σ)
    (Good : χ → σ → Prop)
    (Rely : σ → σ → Prop)
    (Pre : σ → Prop)
    (Post : List (Called Op Res ε) → Unit → σ → Prop)
    (job : J)
    (index : Nat)
    (history :
      List
        (Transition (Pool J Op Res ε σ) (PoolLabel J χ)))
    (pool : Pool J Op Res ε σ) : Prop :=
  match pool.threads[index]? with
  | none =>
      Pre pool.store ∧ system.callsOf index history = []
  | some thread =>
      thread.job = job →
        thread.program.Prevails system.exec Good Rely Post
          (system.callsOf index history) pool.store

/-
  Others may do nothing, or one thing after the other, and
  what holds before and behind a job outlasts it.
-/
structure Outlasts
    (Rely : σ → σ → Prop)
    (Pre : σ → Prop)
    (Post : List (Called Op Res ε) → Unit → σ → Prop) :
    Prop where
  refl : ∀ s, Rely s s
  trans : ∀ s₁ s₂ s₃, Rely s₁ s₂ → Rely s₂ s₃ → Rely s₁ s₃
  pre : ∀ s s', Pre s → Rely s s' → Pre s'
  post :
    ∀ calls value s s',
      Post calls value s → Rely s s' → Post calls value s'

/- A step keeps a thread prevailing. -/
theorem Prevailing.step
    (hOutlasts : Outlasts Rely Pre Post)
    (hProgram :
      ∀ s, Pre s →
        (system.program job).Prevails system.exec Good Rely
          Post [] s)
    {label : PoolLabel J χ}
    (hPrevailing :
      Prevailing system Good Rely Pre Post job index history
        pool)
    (hStep : system.step pool label = some pool')
    (hAmong :
      ∀ resumed choice,
        label = .resume resumed choice →
          if resumed = index then Good choice pool.store
          else Rely pool.store pool'.store) :
    Prevailing system Good Rely Pre Post job index
      (⟨pool, label, pool'⟩ :: history) pool' := by
  unfold Prevailing at hPrevailing ⊢
  rcases step_cases hStep with
    ⟨started, hLabel, _, hAfter⟩ |
      ⟨resumed, choice, resumedJob, op, resume, hLabel,
        hThread, hAfter⟩
  · subst hLabel
    simp only [callsOf, Transition.callBy?_start,
      Option.toList_none, List.append_nil, hAfter]
    cases hOld : pool.threads[index]? with
    | some thread =>
        have hLess := (List.getElem?_eq_some_iff.mp hOld).1
        rw [List.getElem?_append_left hLess, hOld]
        rw [hOld] at hPrevailing
        exact hPrevailing
    | none =>
        rw [hOld] at hPrevailing
        cases hNew :
            (pool.threads ++
              [⟨started, system.program started⟩])[index]? with
        | none => exact hPrevailing
        | some thread =>
            rcases getElem?_append_cases hNew with
              ⟨_, hHere⟩ | hThere
            · subst hHere
              intro hJob
              rw [hPrevailing.2]
              dsimp only at hJob ⊢
              rw [hJob]
              exact hProgram pool.store hPrevailing.1
            · rw [hThere] at hOld
              cases hOld
  · subst hLabel
    have hHere := hAmong resumed choice rfl
    by_cases hIndex : resumed = index
    · subst hIndex
      have hLess := (List.getElem?_eq_some_iff.mp hThread).1
      rw [hThread] at hPrevailing
      rw [if_pos rfl] at hHere
      simp only [callsOf, Transition.callBy?_resume hThread,
        Option.toList_some, hAfter,
        List.getElem?_set_self hLess]
      intro hJob
      exact
        hPrevailing hJob choice pool.store hHere
          (hOutlasts.refl pool.store)
    · rw [if_neg hIndex] at hHere
      simp only [callsOf, Transition.callBy?_of_ne hIndex,
        Option.toList_none, List.append_nil]
      have hThreads :
          pool'.threads[index]? = pool.threads[index]? := by
        rw [hAfter]
        exact List.getElem?_set_ne hIndex
      rw [hThreads]
      cases hOld : pool.threads[index]? with
      | none =>
          rw [hOld] at hPrevailing
          exact
            ⟨hOutlasts.pre _ _ hPrevailing.1 hHere,
              hPrevailing.2⟩
      | some thread =>
          rw [hOld] at hPrevailing
          intro hJob
          exact
            (hPrevailing hJob).relies hOutlasts.trans
              hOutlasts.post hHere

/- In a run a thread that is started meanwhile prevails. -/
theorem prevailing_of_run
    (hOutlasts : Outlasts Rely Pre Post)
    (hProgram :
      ∀ s, Pre s →
        (system.program job).Prevails system.exec Good Rely
          Post [] s)
    (hRun : Run system.step pool history pool')
    (hAmong : Among Good Rely index history)
    (hNew : pool.threads.length ≤ index)
    (hPre : Pre pool.store) :
    Prevailing system Good Rely Pre Post job index history
      pool' := by
  induction hRun with
  | idle =>
      unfold Prevailing
      rw [List.getElem?_eq_none hNew]
      exact ⟨hPre, rfl⟩
  | next hRun hStep ih =>
      have hEarlier :=
        ih fun t hMem =>
          hAmong t (List.mem_cons_of_mem _ hMem)
      exact
        hEarlier.step hOutlasts hProgram hStep
          (hAmong _ List.mem_cons_self)

/- A thread that has ended has returned, and so `Post` holds. -/
theorem prevails_of_run
    {outcome : Except ε Unit}
    (hOutlasts : Outlasts Rely Pre Post)
    (hProgram :
      ∀ s, Pre s →
        (system.program job).Prevails system.exec Good Rely
          Post [] s)
    (hRun : Run system.step pool history pool')
    (hAmong : Among Good Rely index history)
    (hNew : pool.threads.length ≤ index)
    (hPre : Pre pool.store)
    (hThread :
      pool'.threads[index]? =
        some ⟨job, Program.ofExcept outcome⟩) :
    outcome = .ok () ∧
      Post (system.callsOf index history) () pool'.store := by
  have hPrevailing :=
    prevailing_of_run hOutlasts hProgram hRun hAmong hNew
      hPre
  unfold Prevailing at hPrevailing
  rw [hThread] at hPrevailing
  have hEnded := hPrevailing rfl
  cases outcome with
  | ok value => exact ⟨rfl, hEnded⟩
  | error error => exact hEnded.elim

end PoolSystem

end OrderApi

------------------------------------------------------------
-- One Job after the Other
------------------------------------------------------------

namespace OrderApi

/- A job that was carried out: its calls and its outcome. -/
structure Turn
    (J Op : Type)
    (Res : Op → Type)
    (ε : Type) where
  job : J
  calls : List (Called Op Res ε)
  outcome : Except ε Unit

namespace PoolSystem

variable {J Op : Type} {Res : Op → Type} {ε χ σ : Type}

/-
  Jobs are started and end one after the other, in a run in
  which others do as `Rely` allows all the time.
-/
inductive Relayed
    (system : PoolSystem J Op Res ε χ σ)
    (Good : χ → σ → Prop)
    (Rely : σ → σ → Prop) :
    List (Turn J Op Res ε) → Pool J Op Res ε σ →
      Pool J Op Res ε σ → Prop
  | none (pool : Pool J Op Res ε σ) :
      Relayed system Good Rely [] pool pool
  | turn
      {job : J}
      {outcome : Except ε Unit}
      {turns : List (Turn J Op Res ε)}
      {history :
        List
          (Transition (Pool J Op Res ε σ)
            (PoolLabel J χ))}
      {index : Nat}
      {pool pool' pool'' : Pool J Op Res ε σ}
      (hRun : Run system.step pool history pool')
      (hAmong : Among Good Rely index history)
      (hNew : pool.threads.length ≤ index)
      (hThread :
        pool'.threads[index]? =
          some ⟨job, Program.ofExcept outcome⟩)
      (hRest : Relayed system Good Rely turns pool' pool'') :
      Relayed system Good Rely
        (⟨job, system.callsOf index history, outcome⟩ ::
          turns)
        pool pool''

variable {system : PoolSystem J Op Res ε χ σ}
variable {Good : χ → σ → Prop} {Rely : σ → σ → Prop}
variable {Pre : σ → Prop}
variable {Post : List (Called Op Res ε) → Unit → σ → Prop}
variable {turn : Turn J Op Res ε}
variable {turns : List (Turn J Op Res ε)}
variable {pool pool'' : Pool J Op Res ε σ}

/- The first of the jobs returns, if it prevails. -/
theorem Relayed.cases
    (hRelayed :
      Relayed system Good Rely (turn :: turns) pool pool'')
    (hPre : Pre pool.store)
    (hOutlasts : Outlasts Rely Pre Post)
    (hProgram :
      ∀ s, Pre s →
        (system.program turn.job).Prevails system.exec Good
          Rely Post [] s) :
    turn.outcome = .ok () ∧
      ∃ pool',
        Post turn.calls () pool'.store ∧
          Relayed system Good Rely turns pool' pool'' := by
  cases hRelayed with
  | turn hRun hAmong hNew hThread hRest =>
      rcases
          prevails_of_run hOutlasts hProgram hRun hAmong hNew
            hPre hThread with
        ⟨hOutcome, hPost⟩
      exact ⟨hOutcome, _, hPost, hRest⟩

end PoolSystem

end OrderApi

------------------------------------------------------------
-- Jobs that Are Played
------------------------------------------------------------

namespace OrderApi

/- How a program has ended, if it has. -/
def Program.outcome?
    {Op : Type}
    {Res : Op → Type}
    {ε α : Type} :
    Program Op Res ε α → Option (Except ε α)
  | done value => some (.ok value)
  | fail error => some (.error error)
  | call _ _ => none

theorem Program.eq_of_outcome?
    {Op : Type}
    {Res : Op → Type}
    {ε α : Type}
    {program : Program Op Res ε α}
    {outcome : Except ε α}
    (hOutcome : program.outcome? = some outcome) :
    program = ofExcept outcome := by
  cases program with
  | done value =>
      cases hOutcome
      rfl
  | fail error =>
      cases hOutcome
      rfl
  | call op resume => cases hOutcome

namespace PoolSystem

variable {J Op : Type} {Res : Op → Type} {ε χ σ : Type}

/- The calls of a step are of one thread, and are good. -/
def isOwn
    (good : χ → σ → Bool)
    (index : Nat)
    (t :
      Transition (Pool J Op Res ε σ) (PoolLabel J χ)) :
    Bool :=
  match t.label with
  | .start _ => true
  | .resume resumed choice =>
      resumed = index && good choice t.before.store

/-
  Jobs are played to their ends, one after the other: each
  is a new thread that runs alone with some choices.
-/
def play
    (system : PoolSystem J Op Res ε χ σ)
    (good : χ → σ → Bool) :
    List (J × List χ) → Pool J Op Res ε σ →
      Option (List (Turn J Op Res ε) × Pool J Op Res ε σ)
  | [], pool => some ([], pool)
  | (job, choices) :: parts, pool =>
      let index := pool.threads.length
      let labels :=
        .start job :: choices.map (.resume index)
      (replay system.step labels [] pool).bind
        fun (history, pool') =>
      ((pool'.threads[index]?).bind fun thread =>
        thread.program.outcome?).bind fun outcome =>
      if history.all (isOwn good index) then
        (play system good parts pool').map
          fun (turns, pool'') =>
            (⟨job, system.callsOf index history, outcome⟩ ::
                turns,
              pool'')
      else
        none

variable {system : PoolSystem J Op Res ε χ σ}
variable {Good : χ → σ → Prop} {good : χ → σ → Bool}
variable {Rely : σ → σ → Prop}
variable {history history' :
  List (Transition (Pool J Op Res ε σ) (PoolLabel J χ))}
variable {pool pool' : Pool J Op Res ε σ}
variable {job : J} {index : Nat}

/- The others do nothing. -/
theorem among_of_isOwn
    (hGood :
      ∀ choice s, good choice s = true → Good choice s)
    (hOwn : history.all (isOwn good index) = true) :
    Among Good Rely index history := by
  intro t hMem resumed choice hLabel
  have hHere := List.all_eq_true.mp hOwn t hMem
  unfold isOwn at hHere
  rw [hLabel] at hHere
  simp only [Bool.and_eq_true, decide_eq_true_eq] at hHere
  rw [if_pos hHere.1]
  exact hGood choice t.before.store hHere.2

/- A replay leaves the jobs of the threads as they are. -/
theorem job_of_replay
    {labels : List (PoolLabel J χ)}
    (hReplay :
      replay system.step labels history pool =
        some (history', pool'))
    (hThread :
      ∃ program,
        pool.threads[index]? = some ⟨job, program⟩) :
    ∃ program,
      pool'.threads[index]? = some ⟨job, program⟩ := by
  induction labels generalizing history pool with
  | nil =>
      simp only [replay, Option.some.injEq,
        Prod.mk.injEq] at hReplay
      rw [← hReplay.2]
      exact hThread
  | cons label labels ih =>
      unfold replay at hReplay
      cases hStep : system.step pool label with
      | none =>
          rw [hStep] at hReplay
          cases hReplay
      | some middle =>
          rw [hStep] at hReplay
          rcases hThread with ⟨program, hThread⟩
          refine ih hReplay ?_
          have hLess := (List.getElem?_eq_some_iff.mp hThread).1
          rcases step_cases hStep with
            ⟨started, _, _, hAfter⟩ |
              ⟨resumed, choice, resumedJob, op, resume, _,
                hResumed, hAfter⟩
          · refine ⟨program, ?_⟩
            rw [hAfter, List.getElem?_append_left hLess]
            exact hThread
          · rw [hAfter]
            by_cases hIndex : resumed = index
            · subst hIndex
              rw [hResumed, Option.some.injEq] at hThread
              cases hThread
              exact ⟨_, List.getElem?_set_self hLess⟩
            · refine ⟨program, ?_⟩
              rw [List.getElem?_set_ne hIndex]
              exact hThread

/- Jobs that are played are relayed. -/
theorem relayed_of_play
    {parts : List (J × List χ)}
    {turns : List (Turn J Op Res ε)}
    (hGood :
      ∀ choice s, good choice s = true → Good choice s)
    (hPlay :
      system.play good parts pool = some (turns, pool')) :
    Relayed system Good Rely turns pool pool' ∧
      turns.map Turn.job = parts.map Prod.fst := by
  induction parts generalizing turns pool with
  | nil =>
      simp only [play, Option.some.injEq,
        Prod.mk.injEq] at hPlay
      rcases hPlay with ⟨rfl, rfl⟩
      exact ⟨.none pool, rfl⟩
  | cons part parts ih =>
      rcases part with ⟨job, choices⟩
      simp only [play, Option.bind_eq_some_iff,
        Option.ite_none_right_eq_some,
        Option.map_eq_some_iff, Prod.exists,
        Prod.mk.injEq] at hPlay
      rcases hPlay with
        ⟨history, middle, hReplay, outcome,
          ⟨thread, hThread, hOutcome⟩, hOwn, rest, pool'',
          hRest, rfl, rfl⟩
      have hRun := Run.of_replay hReplay
      have hJob :
          ∃ program,
            middle.threads[pool.threads.length]? =
              some ⟨job, program⟩ := by
        unfold replay at hReplay
        cases hStep : system.step pool (.start job) with
        | none =>
            rw [hStep] at hReplay
            cases hReplay
        | some started =>
            rw [hStep] at hReplay
            refine job_of_replay hReplay ?_
            rcases step_cases hStep with
              ⟨other, hLabel, _, hAfter⟩ |
                ⟨_, _, _, _, _, hLabel, _⟩
            · cases hLabel
              refine ⟨system.program job, ?_⟩
              rw [hAfter, List.getElem?_concat_length]
            · cases hLabel
      rcases hJob with ⟨program, hJob⟩
      rw [hThread, Option.some.injEq] at hJob
      subst hJob
      dsimp only at hOutcome
      rw [Program.eq_of_outcome? hOutcome] at hThread
      rcases ih hRest with ⟨hRelayed, hJobs⟩
      refine
        ⟨.turn hRun (among_of_isOwn hGood hOwn)
          (Nat.le_refl _) hThread hRelayed, ?_⟩
      rw [List.map_cons, List.map_cons, hJobs]

end PoolSystem

end OrderApi
