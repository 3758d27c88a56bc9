import OrderApi.Core.Program

/-
  Programs over two sorts of calls.

  A program over either sort becomes a program over both.
  It conforms to a protocol for both as it did to the part
  of it for its own calls, and runs as it did.

  Key definitions include:
    * `Program.onLeft`, `Program.onRight`
    * `Program.execLeft`, `Program.execRight`

  Key theorems include:
    * `Program.conforms_onLeft`
    * `Program.conforms_onRight`
    * `Program.complete_onLeft`
    * `Program.complete_onRight`
-/

------------------------------------------------------------
-- Programs over Two Sorts of Calls
------------------------------------------------------------

namespace OrderApi

variable {Op Op' : Type} {Res : Op → Type} {Res' : Op' → Type}
variable {ε α Φ : Type}

namespace Program

/- A program over the calls on the left. -/
def onLeft :
    Program Op Res ε α →
      Program (Op ⊕ Op') (Sum.elim Res Res') ε α
  | done value => done value
  | fail error => fail error
  | call op resume =>
      call (.inl op) fun answer => (resume answer).onLeft

/- A program over the calls on the right. -/
def onRight :
    Program Op' Res' ε α →
      Program (Op ⊕ Op') (Sum.elim Res Res') ε α
  | done value => done value
  | fail error => fail error
  | call op resume =>
      call (.inr op) fun answer => (resume answer).onRight

variable
  {protocol : Protocol (Op ⊕ Op') (Sum.elim Res Res') ε Φ}
variable {Post : Except ε α → Φ → Prop} {phase : Φ}

/- A program conforms as its calls on the left do. -/
theorem conforms_onLeft
    {program : Program Op Res ε α}
    (hConforms :
      Conforms
        (fun before op answer after =>
          protocol before (.inl op) answer after)
        Post program phase) :
    Conforms protocol Post program.onLeft phase := by
  induction program generalizing phase with
  | done value => exact hConforms
  | fail error => exact hConforms
  | call op resume ih =>
      intro answer
      rcases hConforms answer with
        ⟨after, hMoves, hRest⟩
      exact ⟨after, hMoves, ih answer hRest⟩

/- A program conforms as its calls on the right do. -/
theorem conforms_onRight
    {program : Program Op' Res' ε α}
    (hConforms :
      Conforms
        (fun before op answer after =>
          protocol before (.inr op) answer after)
        Post program phase) :
    Conforms protocol Post program.onRight phase := by
  induction program generalizing phase with
  | done value => exact hConforms
  | fail error => exact hConforms
  | call op resume ih =>
      intro answer
      rcases hConforms answer with
        ⟨after, hMoves, hRest⟩
      exact ⟨after, hMoves, ih answer hRest⟩

section Complete

variable {χ σ : Type}

/- How the calls of one side are executed. -/
def execLeft
    (exec :
      χ → (op : Op ⊕ Op') → σ →
        Except ε (Sum.elim Res Res' op) × σ) :
    χ → (op : Op) → σ → Except ε (Res op) × σ :=
  fun choice op store => exec choice (.inl op) store

def execRight
    (exec :
      χ → (op : Op ⊕ Op') → σ →
        Except ε (Sum.elim Res Res' op) × σ) :
    χ → (op : Op') → σ → Except ε (Res' op) × σ :=
  fun choice op store => exec choice (.inr op) store

variable
  (exec :
    χ → (op : Op ⊕ Op') → σ →
      Except ε (Sum.elim Res Res' op) × σ)

/- A program of one side runs as it does alone. -/
theorem complete_onLeft
    (program : Program Op Res ε α)
    (choices : Nat → χ)
    (store : σ) :
    program.onLeft.complete exec choices store =
      program.complete (execLeft exec) choices store := by
  induction program generalizing choices store with
  | done value => rfl
  | fail error => rfl
  | call op resume ih => exact ih _ _ _

theorem complete_onRight
    (program : Program Op' Res' ε α)
    (choices : Nat → χ)
    (store : σ) :
    program.onRight.complete exec choices store =
      program.complete (execRight exec) choices store := by
  induction program generalizing choices store with
  | done value => rfl
  | fail error => rfl
  | call op resume ih => exact ih _ _ _

end Complete

end Program

end OrderApi
