import OrderApi.Core.Program

/-
  Evaluation of programs over a store that answers every
  call in one way.

  When the environment is fixed beforehand, a program has
  one outcome, and evaluation goes through its parts.  Two
  stores that answer alike give the same outcome.

  Key definitions include:
    * `Program.eval`

  Key theorems include:
    * `Program.eval_bind_ok`, `Program.eval_bind_error`
    * `Program.eval_bind_done`
    * `Program.eval_attempt_report`
    * `Program.eval_invariant`
    * `Program.Calls.eval_sim`
-/

------------------------------------------------------------
-- Evaluation
------------------------------------------------------------

namespace OrderApi

namespace Program

variable {Op : Type} {Res : Op → Type} {ε α β : Type}
variable {σ τ : Type}

/- The outcome of a program, and the store at its end. -/
def eval
    (exec : (op : Op) → σ → Except ε (Res op) × σ) :
    Program Op Res ε α → σ → Except ε α × σ
  | done value, store => (.ok value, store)
  | fail error, store => (.error error, store)
  | call op resume, store =>
      let answer := exec op store
      eval exec (resume answer.1) answer.2

variable {exec : (op : Op) → σ → Except ε (Res op) × σ}
variable {exec' : (op : Op) → τ → Except ε (Res op) × τ}
variable {store store' : σ}
variable {program : Program Op Res ε α}

theorem eval_done (value : α) :
    eval exec (done value : Program Op Res ε α) store =
      (.ok value, store) :=
  rfl

theorem eval_perform (op : Op) :
    eval exec (perform op : Program Op Res ε (Res op)) store =
      exec op store := by
  unfold perform eval
  dsimp only
  rcases hExec : exec op store with ⟨answer, store'⟩
  cases answer with
  | ok value => rfl
  | error error => rfl

/- Sequential rules. -/
theorem eval_bind_ok
    {value : α}
    (hFirst : eval exec program store = (.ok value, store'))
    (next : α → Program Op Res ε β) :
    eval exec (program.bind next) store =
      eval exec (next value) store' := by
  induction program generalizing store with
  | done value' =>
      cases hFirst
      rfl
  | fail error => cases hFirst
  | call op resume ih => exact ih _ hFirst

theorem eval_bind_error
    {error : ε}
    (hFirst : eval exec program store = (.error error, store'))
    (next : α → Program Op Res ε β) :
    eval exec (program.bind next) store =
      (.error error, store') := by
  induction program generalizing store with
  | done value => cases hFirst
  | fail error' =>
      cases hFirst
      rfl
  | call op resume ih => exact ih _ hFirst

/- A program whose value is changed behind it. -/
theorem eval_bind_done (f : α → β) :
    eval exec (program.bind fun value => done (f value))
        store =
      ((eval exec program store).1.map f,
        (eval exec program store).2) := by
  induction program generalizing store with
  | done value => rfl
  | fail error => rfl
  | call op resume ih => exact ih _

/- A program whose outcome is reported, error or not. -/
theorem eval_attempt_report
    (reported : α → β)
    (failed : ε → β) :
    eval exec
        ((program.bind fun value =>
          done (reported value)).attempt fun error =>
            done (failed error)) store =
      (match (eval exec program store).1 with
        | .ok value => .ok (reported value)
        | .error error => .ok (failed error),
        (eval exec program store).2) := by
  induction program generalizing store with
  | done value => rfl
  | fail error => rfl
  | call op resume ih => exact ih _

/- What every call preserves, the program preserves. -/
theorem eval_invariant
    (Inv : σ → Prop)
    (hExec : ∀ op s, Inv s → Inv (exec op s).2)
    (hStore : Inv store) :
    Inv (eval exec program store).2 := by
  induction program generalizing store with
  | done value => exact hStore
  | fail error => exact hStore
  | call op resume ih => exact ih _ (hExec op store hStore)

/-
  Two stores whose calls are answered alike, and stay alike,
  give a program the same outcome.
-/
theorem Calls.eval_sim
    {P : Op → Prop}
    (hCalls : Calls P program)
    (R : σ → τ → Prop)
    (hExec :
      ∀ op s t, P op → R s t →
        (exec op s).1 = (exec' op t).1 ∧
          R (exec op s).2 (exec' op t).2)
    {s : σ}
    {t : τ}
    (hAlike : R s t) :
    (eval exec program s).1 = (eval exec' program t).1 ∧
      R (eval exec program s).2 (eval exec' program t).2 := by
  induction program generalizing s t with
  | done value => exact ⟨rfl, hAlike⟩
  | fail error => exact ⟨rfl, hAlike⟩
  | call op resume ih =>
      rcases hCalls (exec op s).1 with ⟨⟨⟩, hOp, hRest⟩
      rcases hExec op s t hOp hAlike with ⟨hAnswer, hAfter⟩
      have hResume := ih _ hRest hAfter
      simpa only [eval, hAnswer] using hResume

end Program

end OrderApi
