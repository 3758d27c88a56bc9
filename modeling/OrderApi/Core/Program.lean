import Mathlib.Data.List.Basic

/-
  Programs that call an external store.

  A program is a tree of store calls.  Each call answers
  with a value or with an error, and the program resumes on
  that answer.  The same tree is run to its end by `run`,
  and interleaved call by call with other programs by the
  pool of `OrderApi.Core.Pool`.

  Key definitions include:
    * `Program`
    * `Program.perform`
    * `Program.attempt`
    * `Program.andFinally`
    * `Program.forEach`
    * `Program.run`
    * `Program.Conforms`
    * `Program.complete`
    * `Program.Ensures`
    * `Program.Calls`

  Key theorems include:
    * `Program.conforms_bind`
    * `Program.conforms_attempt`
    * `Program.conforms_forEach_ending`
    * `Program.Conforms.mono`
    * `Program.Conforms.prod`
    * `Program.Ensures.complete`
    * `Program.complete_perform_bind_ok`
    * `Program.Calls.complete_congr`
-/

------------------------------------------------------------
-- Programs
------------------------------------------------------------

namespace OrderApi

/-
  A program over operations `Op`, whose call of `op` answers
  in `Res op` or fails with an error of type `ε`.
-/
inductive Program
    (Op : Type)
    (Res : Op → Type)
    (ε α : Type) : Type where
  | done (value : α)
  | fail (error : ε)
  | call
      (op : Op)
      (resume : Except ε (Res op) → Program Op Res ε α)

namespace Program

variable {Op : Type} {Res : Op → Type} {ε α β : Type}

/- Sequential composition; errors skip the continuation. -/
def bind
    (program : Program Op Res ε α)
    (next : α → Program Op Res ε β) :
    Program Op Res ε β :=
  match program with
  | done value => next value
  | fail error => fail error
  | call op resume => call op fun r => (resume r).bind next

instance : Monad (Program Op Res ε) where
  pure := done
  bind := bind

/- Call one operation and return its answer. -/
def perform (op : Op) : Program Op Res ε (Res op) :=
  call op fun
    | .ok answer => done answer
    | .error error => fail error

/- Run a program, and a handler on the error it throws. -/
def attempt
    (program : Program Op Res ε α)
    (handler : ε → Program Op Res ε α) :
    Program Op Res ε α :=
  match program with
  | done value => done value
  | fail error => handler error
  | call op resume =>
      call op fun r => (resume r).attempt handler

/- Run a finalizer after a program, however it ends. -/
def andFinally
    (program : Program Op Res ε α)
    (finalizer : Program Op Res ε Unit) :
    Program Op Res ε α :=
  match program with
  | done value => finalizer.bind fun _ => done value
  | fail error => finalizer.bind fun _ => fail error
  | call op resume =>
      call op fun r => (resume r).andFinally finalizer

/- Run a body on every element of a list, in order. -/
def forEach
    (items : List β)
    (body : β → Program Op Res ε Unit) :
    Program Op Res ε Unit :=
  match items with
  | [] => done ()
  | item :: items =>
      (body item).bind fun _ => forEach items body

/- Forget the value that a program returns. -/
def ignore
    (program : Program Op Res ε α) :
    Program Op Res ε Unit :=
  program.bind fun _ => done ()

/- A computed outcome, without a call. -/
def ofExcept : Except ε α → Program Op Res ε α
| .ok value => done value
| .error error => fail error

/- The operation that a program calls next. -/
def nextOp? : Program Op Res ε α → Option Op
| call op _ => some op
| _ => none

/- A program that has neither returned nor thrown. -/
def inProgress : Program Op Res ε α → Bool
| call _ _ => true
| _ => false

@[simp] theorem pure_eq
    (value : α) :
    (pure value : Program Op Res ε α) = done value :=
  rfl

@[simp] theorem bind_eq
    (program : Program Op Res ε α)
    (next : α → Program Op Res ε β) :
    program >>= next = program.bind next :=
  rfl

@[simp] theorem done_bind
    (value : α)
    (next : α → Program Op Res ε β) :
    (done value : Program Op Res ε α).bind next =
      next value :=
  rfl

@[simp] theorem fail_bind
    (error : ε)
    (next : α → Program Op Res ε β) :
    (fail error : Program Op Res ε α).bind next =
      fail error :=
  rfl

theorem bind_assoc
    {γ : Type}
    (program : Program Op Res ε α)
    (next : α → Program Op Res ε β)
    (last : β → Program Op Res ε γ) :
    (program.bind next).bind last =
      program.bind fun value => (next value).bind last := by
  induction program with
  | done value => rfl
  | fail error => rfl
  | call op resume ih =>
      exact congrArg (call op) (funext fun r => ih r)

end Program

end OrderApi

------------------------------------------------------------
-- Running to the End
------------------------------------------------------------

namespace OrderApi

namespace Program

variable {Op : Type} {Res : Op → Type} {ε α : Type}
variable {χ σ : Type}

/-
  Run a program alone on a store.  Every call consumes one
  choice of the environment.  When the choices run out the
  program stops where it is, and no outcome is returned.
-/
def run
    (exec :
      χ → (op : Op) → σ → Except ε (Res op) × σ) :
    Program Op Res ε α → List χ → σ →
      Option (Except ε α) × σ
| done value, _, store => (some (.ok value), store)
| fail error, _, store => (some (.error error), store)
| call _ _, [], store => (none, store)
| call op resume, choice :: choices, store =>
    let answer := exec choice op store
    run exec (resume answer.1) choices answer.2

/-
  A relation between stores that every call respects is
  respected by the whole run.
-/
theorem run_rel
    {exec :
      χ → (op : Op) → σ → Except ε (Res op) × σ}
    {R : σ → σ → Prop}
    (hRefl : ∀ s, R s s)
    (hTrans : ∀ s t u, R s t → R t u → R s u)
    (hExec :
      ∀ choice op s, R s (exec choice op s).2)
    (program : Program Op Res ε α)
    (choices : List χ)
    (store : σ) :
    R store (program.run exec choices store).2 := by
  induction program generalizing choices store with
  | done value => exact hRefl store
  | fail error => exact hRefl store
  | call op resume ih =>
      cases choices with
      | nil => exact hRefl store
      | cons choice choices =>
          have hFirst := hExec choice op store
          have hRest :=
            ih (exec choice op store).1 choices
              (exec choice op store).2
          exact hTrans _ _ _ hFirst hRest

end Program

end OrderApi

------------------------------------------------------------
-- Conformance to a Protocol
------------------------------------------------------------

namespace OrderApi

/-
  A protocol is an automaton over calls and their answers:
  it says which calls a phase allows, and which phase may
  follow on which answer.
-/
abbrev Protocol
    (Op : Type)
    (Res : Op → Type)
    (ε Φ : Type) :=
  Φ → (op : Op) → Except ε (Res op) → Φ → Prop

/- Two protocols side by side. -/
def Protocol.prod
    {Op : Type}
    {Res : Op → Type}
    {ε Φ Ψ : Type}
    (protocol : Protocol Op Res ε Φ)
    (protocol' : Protocol Op Res ε Ψ) :
    Protocol Op Res ε (Φ × Ψ) :=
  fun phase op answer next =>
    protocol phase.1 op answer next.1 ∧
      protocol' phase.2 op answer next.2

namespace Program

variable {Op : Type} {Res : Op → Type} {ε α β Φ : Type}

/-
  Every path of the program is allowed by the protocol, and
  the postcondition holds of the outcome and the phase at
  its end.
-/
def Conforms
    (protocol : Protocol Op Res ε Φ)
    (Post : Except ε α → Φ → Prop) :
    Program Op Res ε α → Φ → Prop
| done value, phase => Post (.ok value) phase
| fail error, phase => Post (.error error) phase
| call op resume, phase =>
    ∀ answer, ∃ phase',
      protocol phase op answer phase' ∧
        Conforms protocol Post (resume answer) phase'

variable {protocol : Protocol Op Res ε Φ}

@[simp] theorem conforms_done
    {Post : Except ε α → Φ → Prop}
    {value : α}
    {phase : Φ} :
    Conforms protocol Post (done value) phase ↔
      Post (.ok value) phase :=
  Iff.rfl

@[simp] theorem conforms_fail
    {Post : Except ε α → Φ → Prop}
    {error : ε}
    {phase : Φ} :
    Conforms protocol Post (fail error) phase ↔
      Post (.error error) phase :=
  Iff.rfl

/- Conformance is monotone in its postcondition. -/
theorem Conforms.mono
    {Post Post' : Except ε α → Φ → Prop}
    {program : Program Op Res ε α}
    {phase : Φ}
    (hConforms : Conforms protocol Post program phase)
    (hPost : ∀ r q, Post r q → Post' r q) :
    Conforms protocol Post' program phase := by
  induction program generalizing phase with
  | done value => exact hPost _ _ hConforms
  | fail error => exact hPost _ _ hConforms
  | call op resume ih =>
      intro answer
      rcases hConforms answer with
        ⟨phase', hMoves, hRest⟩
      exact ⟨phase', hMoves, ih answer hRest⟩

/- Conformance to two protocols is one to both. -/
theorem Conforms.prod
    {Ψ : Type}
    {protocol' : Protocol Op Res ε Ψ}
    {Post : Except ε α → Φ → Prop}
    {Post' : Except ε α → Ψ → Prop}
    {program : Program Op Res ε α}
    {phase : Φ}
    {phase' : Ψ}
    (hOne : Conforms protocol Post program phase)
    (hTwo : Conforms protocol' Post' program phase') :
    Conforms (protocol.prod protocol')
      (fun outcome q =>
        Post outcome q.1 ∧ Post' outcome q.2)
      program (phase, phase') := by
  induction program generalizing phase phase' with
  | done value => exact ⟨hOne, hTwo⟩
  | fail error => exact ⟨hOne, hTwo⟩
  | call op resume ih =>
      intro answer
      rcases hOne answer with ⟨next, hMoves, hRest⟩
      rcases hTwo answer with ⟨next', hMoves', hRest'⟩
      exact
        ⟨(next, next'), ⟨hMoves, hMoves'⟩,
          ih answer hRest hRest'⟩

/- Sequential rule. -/
theorem conforms_bind
    {Post : Except ε β → Φ → Prop}
    {program : Program Op Res ε α}
    {next : α → Program Op Res ε β}
    {phase : Φ}
    (hConforms :
      Conforms protocol
        (fun outcome phase' =>
          match outcome with
          | .ok value =>
              Conforms protocol Post (next value) phase'
          | .error error => Post (.error error) phase')
        program phase) :
    Conforms protocol Post (program.bind next) phase := by
  induction program generalizing phase with
  | done value => exact hConforms
  | fail error => exact hConforms
  | call op resume ih =>
      intro answer
      rcases hConforms answer with
        ⟨phase', hMoves, hRest⟩
      exact ⟨phase', hMoves, ih answer hRest⟩

/- Rule for a program whose errors are handled. -/
theorem conforms_attempt
    {Post : Except ε α → Φ → Prop}
    {program : Program Op Res ε α}
    {handler : ε → Program Op Res ε α}
    {phase : Φ}
    (hConforms :
      Conforms protocol
        (fun outcome phase' =>
          match outcome with
          | .ok value => Post (.ok value) phase'
          | .error error =>
              Conforms protocol Post (handler error) phase')
        program phase) :
    Conforms protocol Post
      (program.attempt handler) phase := by
  induction program generalizing phase with
  | done value => exact hConforms
  | fail error => exact hConforms
  | call op resume ih =>
      intro answer
      rcases hConforms answer with
        ⟨phase', hMoves, hRest⟩
      exact ⟨phase', hMoves, ih answer hRest⟩

/-
  Rule for a finalizer.  It runs on each outcome, and an
  error of its own takes the place of that outcome.
-/
theorem conforms_andFinally
    {Post : Except ε α → Φ → Prop}
    {program : Program Op Res ε α}
    {finalizer : Program Op Res ε Unit}
    {phase : Φ}
    (hConforms :
      Conforms protocol
        (fun outcome phase' =>
          Conforms protocol Post
            (finalizer.bind fun _ => ofExcept outcome) phase')
        program phase) :
    Conforms protocol Post
      (program.andFinally finalizer) phase := by
  induction program generalizing phase with
  | done value => exact hConforms
  | fail error => exact hConforms
  | call op resume ih =>
      intro answer
      rcases hConforms answer with
        ⟨phase', hMoves, hRest⟩
      exact ⟨phase', hMoves, ih answer hRest⟩

/- Rule for one call. -/
theorem conforms_perform
    {op : Op}
    {Post : Except ε (Res op) → Φ → Prop}
    {phase : Φ}
    (hMoves :
      ∀ answer, ∃ phase',
        protocol phase op answer phase' ∧
          Post answer phase') :
    Conforms protocol Post (perform op) phase := by
  intro answer
  rcases hMoves answer with ⟨phase', hPhase, hPost⟩
  refine ⟨phase', hPhase, ?_⟩
  cases answer with
  | ok value => exact hPost
  | error error => exact hPost

/-
  The postcondition of programs whose errors end the work:
  a value satisfies `Post`, an error comes in a final phase.
-/
def Ending
    (Final : Φ → Prop)
    (Post : α → Φ → Prop) :
    Except ε α → Φ → Prop
| .ok value, phase => Post value phase
| .error _, phase => Final phase

variable {Final : Φ → Prop}

@[simp] theorem ending_ok
    {Post : α → Φ → Prop}
    {value : α}
    {phase : Φ} :
    Ending Final Post (.ok value : Except ε α) phase ↔
      Post value phase :=
  Iff.rfl

/- Sequential rule when errors end the work. -/
theorem conforms_bind_ending
    {Post : β → Φ → Prop}
    {program : Program Op Res ε α}
    {next : α → Program Op Res ε β}
    {phase : Φ}
    (hConforms :
      Conforms protocol
        (Ending Final fun value phase' =>
          Conforms protocol (Ending Final Post) (next value)
            phase')
        program phase) :
    Conforms protocol (Ending Final Post)
      (program.bind next) phase := by
  apply conforms_bind
  apply hConforms.mono
  intro outcome phase' hOutcome
  cases outcome with
  | ok value => exact hOutcome
  | error error => exact hOutcome

/- Forgetting the value of a program keeps conformance. -/
theorem conforms_ignore
    {Post : Unit → Φ → Prop}
    {program : Program Op Res ε α}
    {phase : Φ}
    (hConforms :
      Conforms protocol
        (Ending Final fun _ phase' => Post () phase')
        program phase) :
    Conforms protocol (Ending Final Post) program.ignore
      phase :=
  conforms_bind_ending hConforms

/- Rule for errors that are handled from a final phase. -/
theorem conforms_attempt_ending
    {Post : α → Φ → Prop}
    {program : Program Op Res ε α}
    {handler : ε → Program Op Res ε α}
    {phase : Φ}
    (hConforms :
      Conforms protocol (Ending Final Post) program phase)
    (hHandler :
      ∀ error phase', Final phase' →
        Conforms protocol (Ending Final Post)
          (handler error) phase') :
    Conforms protocol (Ending Final Post)
      (program.attempt handler) phase := by
  apply conforms_attempt
  apply hConforms.mono
  intro outcome phase' hOutcome
  cases outcome with
  | ok value => exact hOutcome
  | error error => exact hHandler error phase' hOutcome

/-
  Loop rule when errors end the work.  The invariant relates
  the elements still to be visited with the phase.
-/
theorem conforms_forEach_ending
    {Post : Unit → Φ → Prop}
    (Inv : List β → Φ → Prop)
    {body : β → Program Op Res ε Unit}
    (hEnd : ∀ phase, Inv [] phase → Post () phase)
    (hBody :
      ∀ item items phase, Inv (item :: items) phase →
        Conforms protocol
          (Ending Final fun _ phase' => Inv items phase')
          (body item) phase)
    {items : List β}
    {phase : Φ}
    (hInv : Inv items phase) :
    Conforms protocol (Ending Final Post)
      (forEach items body) phase := by
  induction items generalizing phase with
  | nil => exact hEnd phase hInv
  | cons item items ih =>
      apply conforms_bind_ending
      apply (hBody item items phase hInv).mono
      intro outcome phase' hOutcome
      cases outcome with
      | ok value => exact ih hOutcome
      | error error => exact hOutcome

end Program

end OrderApi

------------------------------------------------------------
-- Running Alone with Endless Choices
------------------------------------------------------------

namespace OrderApi

namespace Program

variable {Op : Type} {Res : Op → Type} {ε α β : Type}
variable {χ σ : Type}

/-
  Run a program alone to its end.  The choices of the
  environment form an endless sequence.
-/
def complete
    (exec :
      χ → (op : Op) → σ → Except ε (Res op) × σ) :
    Program Op Res ε α → (Nat → χ) → σ → Except ε α × σ
| done value, _, store => (.ok value, store)
| fail error, _, store => (.error error, store)
| call op resume, choices, store =>
    let answer := exec (choices 0) op store
    complete exec (resume answer.1)
      (fun n => choices (n + 1)) answer.2

variable {exec : χ → (op : Op) → σ → Except ε (Res op) × σ}

/-
  However the environment chooses, the postcondition holds
  of the outcome and the store at the end.
-/
def Ensures
    (exec : χ → (op : Op) → σ → Except ε (Res op) × σ)
    (Post : Except ε α → σ → Prop) :
    Program Op Res ε α → σ → Prop
| done value, store => Post (.ok value) store
| fail error, store => Post (.error error) store
| call op resume, store =>
    ∀ choice,
      Ensures exec Post (resume (exec choice op store).1)
        (exec choice op store).2

/- What is ensured holds after a run to the end. -/
theorem Ensures.complete
    {Post : Except ε α → σ → Prop}
    {program : Program Op Res ε α}
    {store : σ}
    (hEnsures : Ensures exec Post program store)
    (choices : Nat → χ) :
    Post (program.complete exec choices store).1
      (program.complete exec choices store).2 := by
  induction program generalizing choices store with
  | done value => exact hEnsures
  | fail error => exact hEnsures
  | call op resume ih =>
      exact ih _ (hEnsures (choices 0)) _

theorem Ensures.mono
    {Post Post' : Except ε α → σ → Prop}
    {program : Program Op Res ε α}
    {store : σ}
    (hEnsures : Ensures exec Post program store)
    (hPost : ∀ outcome s, Post outcome s → Post' outcome s) :
    Ensures exec Post' program store := by
  induction program generalizing store with
  | done value => exact hPost _ _ hEnsures
  | fail error => exact hPost _ _ hEnsures
  | call op resume ih =>
      intro choice
      exact ih _ (hEnsures choice)

/- What is ensured twice is ensured together. -/
theorem Ensures.and
    {Post Post' : Except ε α → σ → Prop}
    {program : Program Op Res ε α}
    {store : σ}
    (hEnsures : Ensures exec Post program store)
    (hEnsures' : Ensures exec Post' program store) :
    Ensures exec
      (fun outcome s => Post outcome s ∧ Post' outcome s)
      program store := by
  induction program generalizing store with
  | done value => exact ⟨hEnsures, hEnsures'⟩
  | fail error => exact ⟨hEnsures, hEnsures'⟩
  | call op resume ih =>
      intro choice
      exact ih _ (hEnsures choice) (hEnsures' choice)

/- Every run to the end has an outcome. -/
theorem ensures_any
    (program : Program Op Res ε α)
    (store : σ) :
    Ensures exec (fun _ _ => True) program store := by
  induction program generalizing store with
  | done value => trivial
  | fail error => trivial
  | call op resume ih =>
      intro choice
      exact ih _ _

/- Sequential rule. -/
theorem ensures_bind
    {Post : Except ε β → σ → Prop}
    {program : Program Op Res ε α}
    {next : α → Program Op Res ε β}
    {store : σ}
    (hEnsures :
      Ensures exec
        (fun outcome s =>
          match outcome with
          | .ok value => Ensures exec Post (next value) s
          | .error error => Post (.error error) s)
        program store) :
    Ensures exec Post (program.bind next) store := by
  induction program generalizing store with
  | done value => exact hEnsures
  | fail error => exact hEnsures
  | call op resume ih =>
      intro choice
      exact ih _ (hEnsures choice)

/- Rule for a program whose errors are handled. -/
theorem ensures_attempt
    {Post : Except ε α → σ → Prop}
    {program : Program Op Res ε α}
    {handler : ε → Program Op Res ε α}
    {store : σ}
    (hEnsures :
      Ensures exec
        (fun outcome s =>
          match outcome with
          | .ok value => Post (.ok value) s
          | .error error =>
              Ensures exec Post (handler error) s)
        program store) :
    Ensures exec Post (program.attempt handler) store := by
  induction program generalizing store with
  | done value => exact hEnsures
  | fail error => exact hEnsures
  | call op resume ih =>
      intro choice
      exact ih _ (hEnsures choice)

/- Rule for a finalizer. -/
theorem ensures_andFinally
    {Post : Except ε α → σ → Prop}
    {program : Program Op Res ε α}
    {finalizer : Program Op Res ε Unit}
    {store : σ}
    (hEnsures :
      Ensures exec
        (fun outcome s =>
          Ensures exec Post
            (finalizer.bind fun _ => ofExcept outcome) s)
        program store) :
    Ensures exec Post (program.andFinally finalizer)
      store := by
  induction program generalizing store with
  | done value => exact hEnsures
  | fail error => exact hEnsures
  | call op resume ih =>
      intro choice
      exact ih _ (hEnsures choice)

/- Rule for one call. -/
theorem ensures_perform
    (op : Op)
    {Post : Except ε (Res op) → σ → Prop}
    {store : σ}
    (hExec :
      ∀ choice,
        Post (exec choice op store).1
          (exec choice op store).2) :
    Ensures exec Post (perform op) store := by
  intro choice
  have hPost := hExec choice
  generalize exec choice op store = answer at hPost ⊢
  rcases answer with ⟨outcome, store'⟩
  cases outcome with
  | ok value => exact hPost
  | error error => exact hPost

/- Rule for a loop none of whose turns fails. -/
theorem ensures_forEach
    {Inv : List β → σ → Prop}
    {body : β → Program Op Res ε Unit}
    {items behind : List β}
    {store : σ}
    (hItem :
      ∀ behind item s, Inv behind s →
        Ensures exec
          (fun outcome s' =>
            outcome = .ok () ∧ Inv (behind ++ [item]) s')
          (body item) s)
    (hStore : Inv behind store) :
    Ensures exec
      (fun outcome s =>
        outcome = .ok () ∧ Inv (behind ++ items) s)
      (forEach items body) store := by
  induction items generalizing behind store with
  | nil => exact ⟨rfl, by simpa using hStore⟩
  | cons item items ih =>
      apply ensures_bind
      apply (hItem behind item store hStore).mono
      rintro outcome s ⟨rfl, hInv⟩
      have hRest := ih hInv
      rwa [List.append_assoc, List.singleton_append] at hRest

/- Rule for a loop that may fail: what holds if it does not. -/
theorem ensures_forEach_returns
    {Inv : List β → σ → Prop}
    {body : β → Program Op Res ε Unit}
    {items behind : List β}
    {store : σ}
    (hItem :
      ∀ behind item s, item ∈ items → Inv behind s →
        Ensures exec
          (fun outcome s' =>
            outcome = .ok () → Inv (behind ++ [item]) s')
          (body item) s)
    (hStore : Inv behind store) :
    Ensures exec
      (fun outcome s =>
        outcome = .ok () → Inv (behind ++ items) s)
      (forEach items body) store := by
  induction items generalizing behind store with
  | nil =>
      intro _
      simpa using hStore
  | cons item items ih =>
      have hFirst :=
        hItem behind item store List.mem_cons_self hStore
      apply ensures_bind
      apply hFirst.mono
      intro outcome s hOutcome
      cases outcome with
      | error error => simp
      | ok value =>
          have hRest :=
            ih
              (fun behind other s hOther =>
                hItem behind other s
                  (List.mem_cons_of_mem item hOther))
              (hOutcome rfl)
          rwa [List.append_assoc,
            List.singleton_append] at hRest

/-
  A program that conforms to a protocol ensures what every
  move of the protocol preserves.
-/
theorem Conforms.ensures
    {Φ : Type}
    {protocol : Protocol Op Res ε Φ}
    {Post : Except ε α → Φ → Prop}
    {program : Program Op Res ε α}
    {phase : Φ}
    (hConforms : Conforms protocol Post program phase)
    (Inv : Φ → σ → Prop)
    (hExec :
      ∀ choice op s phase phase',
        protocol phase op (exec choice op s).1 phase' →
        Inv phase s → Inv phase' (exec choice op s).2)
    {store : σ}
    (hStore : Inv phase store) :
    Ensures exec
      (fun outcome s =>
        ∃ phase', Post outcome phase' ∧ Inv phase' s)
      program store := by
  induction program generalizing store phase with
  | done value => exact ⟨phase, hConforms, hStore⟩
  | fail error => exact ⟨phase, hConforms, hStore⟩
  | call op resume ih =>
      intro choice
      rcases hConforms (exec choice op store).1 with
        ⟨phase', hMoves, hRest⟩
      exact
        ih _ hRest
          (hExec choice op store phase phase' hMoves hStore)

end Program

end OrderApi

------------------------------------------------------------
-- Running Alone Call by Call
------------------------------------------------------------

namespace OrderApi

namespace Program

variable {Op : Type} {Res : Op → Type} {ε α β : Type}
variable {χ σ : Type}
variable {exec : χ → (op : Op) → σ → Except ε (Res op) × σ}
variable {choices : Nat → χ} {store store' : σ} {op : Op}

/- A call that is answered, and what follows it. -/
theorem complete_perform_bind_ok
    {value : Res op}
    (hExec : exec (choices 0) op store = (.ok value, store'))
    (next : Res op → Program Op Res ε β) :
    ((perform op).bind next).complete exec choices store =
      (next value).complete exec (fun n => choices (n + 1))
        store' := by
  simp only [perform, bind, complete, hExec]

/- A call that fails ends the run. -/
theorem complete_perform_bind_error
    {error : ε}
    (hExec :
      exec (choices 0) op store = (.error error, store'))
    (next : Res op → Program Op Res ε β) :
    ((perform op).bind next).complete exec choices store =
      (.error error, store') := by
  simp only [perform, bind, complete, hExec]

/- A run that returns had its first call answered. -/
theorem exec_eq_ok_of_complete_perform_bind
    {next : Res op → Program Op Res ε β}
    {value : β}
    (hReturns :
      (((perform op).bind next).complete exec choices
        store).1 = .ok value) :
    ∃ answer store',
      exec (choices 0) op store = (.ok answer, store') ∧
        ((next answer).complete exec
          (fun n => choices (n + 1)) store').1 =
            .ok value := by
  cases hExec : exec (choices 0) op store with
  | mk outcome store' =>
      cases outcome with
      | ok answer =>
          rw [complete_perform_bind_ok hExec] at hReturns
          exact ⟨answer, store', rfl, hReturns⟩
      | error error =>
          rw [complete_perform_bind_error hExec] at hReturns
          cases hReturns

/- A run that returns did not need its error handled. -/
theorem complete_eq_ok_of_attempt
    {program : Program Op Res ε α}
    {handler : ε → Program Op Res ε α}
    (hHandler : ∀ error, ∃ error', handler error = fail error')
    {value : α}
    (hReturns :
      ((program.attempt handler).complete exec choices
        store).1 = .ok value) :
    (program.complete exec choices store).1 = .ok value := by
  induction program generalizing choices store with
  | done value' => exact hReturns
  | fail error =>
      rcases hHandler error with ⟨error', hFail⟩
      simp only [attempt, hFail, complete] at hReturns
      cases hReturns
  | call op resume ih => exact ih _ hReturns

/- A program whose outcome is reported, error or not. -/
theorem complete_attempt_report
    {program : Program Op Res ε α}
    (reported : α → β)
    (failed : ε → β)
    (choices : Nat → χ)
    (store : σ) :
    ((program.bind fun value => done (reported value)).attempt
        fun error => done (failed error)).complete exec
          choices store =
      (match (program.complete exec choices store).1 with
        | .ok value => .ok (reported value)
        | .error error => .ok (failed error),
        (program.complete exec choices store).2) := by
  induction program generalizing choices store with
  | done value => rfl
  | fail error => rfl
  | call op resume ih =>
      exact
        ih (exec (choices 0) op store).1
          (fun n => choices (n + 1))
          (exec (choices 0) op store).2

end Program

end OrderApi

------------------------------------------------------------
-- The Calls of a Program
------------------------------------------------------------

namespace OrderApi

namespace Program

variable {Op : Type} {Res : Op → Type} {ε α β : Type}
variable {χ σ : Type}
variable {exec : χ → (op : Op) → σ → Except ε (Res op) × σ}
variable {P : Op → Prop}

/- Whatever its calls answer, all of them satisfy `P`. -/
def Calls
    (P : Op → Prop)
    (program : Program Op Res ε α) : Prop :=
  Conforms (fun (_ : Unit) op _ _ => P op)
    (fun _ _ => True) program ()

theorem calls_done (value : α) :
    Calls P (done value : Program Op Res ε α) :=
  trivial

theorem calls_fail (error : ε) :
    Calls P (fail error : Program Op Res ε α) :=
  trivial

theorem calls_ofExcept (outcome : Except ε α) :
    Calls P (ofExcept outcome : Program Op Res ε α) := by
  cases outcome with
  | ok value => exact calls_done value
  | error error => exact calls_fail error

theorem calls_perform
    {op : Op}
    (hOp : P op) :
    Calls P (perform op : Program Op Res ε (Res op)) :=
  conforms_perform fun _ => ⟨(), hOp, trivial⟩

theorem calls_bind
    {program : Program Op Res ε α}
    {next : α → Program Op Res ε β}
    (hFirst : Calls P program)
    (hNext : ∀ value, Calls P (next value)) :
    Calls P (program.bind next) := by
  apply conforms_bind
  apply Conforms.mono hFirst
  intro outcome _ _
  cases outcome with
  | ok value => exact hNext value
  | error error => trivial

theorem calls_attempt
    {program : Program Op Res ε α}
    {handler : ε → Program Op Res ε α}
    (hFirst : Calls P program)
    (hHandler : ∀ error, Calls P (handler error)) :
    Calls P (program.attempt handler) := by
  apply conforms_attempt
  apply Conforms.mono hFirst
  intro outcome _ _
  cases outcome with
  | ok value => trivial
  | error error => exact hHandler error

theorem calls_andFinally
    {program : Program Op Res ε α}
    {finalizer : Program Op Res ε Unit}
    (hFirst : Calls P program)
    (hFinalizer : Calls P finalizer) :
    Calls P (program.andFinally finalizer) := by
  apply conforms_andFinally
  apply Conforms.mono hFirst
  intro outcome _ _
  exact
    calls_bind hFinalizer fun _ => calls_ofExcept outcome

theorem Calls.mono
    {Q : Op → Prop}
    {program : Program Op Res ε α}
    (hCalls : Calls P program)
    (hMono : ∀ op, P op → Q op) :
    Calls Q program := by
  induction program with
  | done value => trivial
  | fail error => trivial
  | call op resume ih =>
      intro answer
      rcases hCalls answer with ⟨_, hOp, hRest⟩
      exact ⟨(), hMono op hOp, ih answer hRest⟩

/- Every program makes calls of some kind. -/
theorem calls_any (program : Program Op Res ε α) :
    Calls (fun _ => True) program := by
  induction program with
  | done value => trivial
  | fail error => trivial
  | call op resume ih =>
      intro answer
      exact ⟨(), trivial, ih answer⟩

/- A program whose calls a phase allows stays in it. -/
theorem Calls.conforms
    {Φ : Type}
    {protocol : Protocol Op Res ε Φ}
    {program : Program Op Res ε α}
    {phase : Φ}
    (hCalls : Calls P program)
    (hMoves :
      ∀ op answer, P op → protocol phase op answer phase) :
    Conforms protocol (fun _ phase' => phase' = phase)
      program phase := by
  induction program with
  | done value => rfl
  | fail error => rfl
  | call op resume ih =>
      intro answer
      rcases hCalls answer with ⟨_, hOp, hRest⟩
      exact ⟨phase, hMoves op answer hOp, ih answer hRest⟩

theorem calls_forEach
    {body : β → Program Op Res ε Unit}
    (hBody : ∀ item, Calls P (body item))
    (items : List β) :
    Calls P (forEach items body) := by
  induction items with
  | nil => exact calls_done ()
  | cons item items ih =>
      exact calls_bind (hBody item) fun _ => ih

/- What every such call preserves, the program preserves. -/
theorem Calls.ensures
    {program : Program Op Res ε α}
    (hCalls : Calls P program)
    {Inv : σ → Prop}
    (hExec :
      ∀ choice op s, P op → Inv s →
        Inv (exec choice op s).2)
    {store : σ}
    (hStore : Inv store) :
    Ensures exec (fun _ s => Inv s) program store := by
  have hEnsures :=
    Conforms.ensures hCalls (fun _ s => Inv s)
      (fun choice op s _ _ hOp => hExec choice op s hOp)
      hStore
  apply hEnsures.mono
  rintro outcome s ⟨_, _, hInv⟩
  exact hInv

/-
  Stores that every call finds alike give a program the same
  outcome.
-/
theorem Calls.complete_congr
    {program : Program Op Res ε α}
    (hCalls : Calls P program)
    (R : σ → σ → Prop)
    (hExec :
      ∀ choice op s t, P op → R s t →
        (exec choice op s).1 = (exec choice op t).1 ∧
          R (exec choice op s).2 (exec choice op t).2)
    {store store' : σ}
    (hAlike : R store store')
    (choices : Nat → χ) :
    (program.complete exec choices store).1 =
      (program.complete exec choices store').1 := by
  induction program generalizing choices store store' with
  | done value => rfl
  | fail error => rfl
  | call op resume ih =>
      rcases hCalls (exec (choices 0) op store).1 with
        ⟨⟨⟩, hOp, hRest⟩
      rcases hExec (choices 0) op store store' hOp hAlike
        with ⟨hAnswer, hAfter⟩
      have hResume :=
        ih _ hRest hAfter (fun n => choices (n + 1))
      simpa only [complete, hAnswer] using hResume

end Program

end OrderApi
