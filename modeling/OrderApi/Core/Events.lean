import OrderApi.Core.Program

/-
  Events in the run of a program: calls with answers of a
  given kind.

  Key definitions include:
    * `Program.Meets`
    * `noting`

  Key theorems include:
    * `Program.Conforms.complete_of_noting`
    * `Program.Calls.not_meets`
    * `Program.meets_call_iff`
-/

------------------------------------------------------------
-- Events
------------------------------------------------------------

namespace OrderApi

/- The protocol that notes if an event was met. -/
def noting
    {Op : Type}
    {Res : Op → Type}
    {ε : Type}
    (Event : (op : Op) → Except ε (Res op) → Prop) :
    Protocol Op Res ε Prop :=
  fun seen op answer seen' => seen' = (seen ∨ Event op answer)

namespace Program

variable {Op : Type} {Res : Op → Type} {ε α : Type}
variable {χ σ : Type}

/- Running alone to its end, a program meets an event. -/
def Meets
    (exec : χ → (op : Op) → σ → Except ε (Res op) × σ)
    (Event : (op : Op) → Except ε (Res op) → Prop) :
    Program Op Res ε α → (Nat → χ) → σ → Prop
  | done _, _, _ => False
  | fail _, _, _ => False
  | call op resume, choices, store =>
      let answer := exec (choices 0) op store
      Event op answer.1 ∨
        Meets exec Event (resume answer.1)
          (fun n => choices (n + 1)) answer.2

variable {exec : χ → (op : Op) → σ → Except ε (Res op) × σ}
variable
  {Event Event' : (op : Op) → Except ε (Res op) → Prop}
variable {program : Program Op Res ε α}

/-
  What holds on every path, of the outcome and of the event,
  holds after a run.
-/
theorem Conforms.complete_of_noting
    {Post : Except ε α → Prop → Prop}
    {seen : Prop}
    (hConforms : Conforms (noting Event) Post program seen)
    (choices : Nat → χ)
    (store : σ) :
    Post (program.complete exec choices store).1
      (seen ∨ Meets exec Event program choices store) := by
  induction program generalizing seen choices store with
  | done value =>
      simp only [Meets, or_false, complete]
      exact hConforms
  | fail error =>
      simp only [Meets, or_false, complete]
      exact hConforms
  | call op resume ih =>
      rcases hConforms (exec (choices 0) op store).1 with
        ⟨seen', hSeen, hRest⟩
      have hLater :=
        ih _ hRest (fun n => choices (n + 1))
          (exec (choices 0) op store).2
      rw [hSeen, or_assoc] at hLater
      exact hLater

/-
  No call of a program meets an event, if every such call
  keeps an invariant that excludes it.
-/
theorem Calls.not_meets
    {P : Op → Prop}
    (hCalls : Calls P program)
    (Inv : σ → Prop)
    {choices : Nat → χ}
    {store : σ}
    (hExec :
      ∀ n op s, P op → Inv s →
        ¬ Event op (exec (choices n) op s).1 ∧
          Inv (exec (choices n) op s).2)
    (hStore : Inv store) :
    ¬ Meets exec Event program choices store := by
  induction program generalizing choices store with
  | done value => exact id
  | fail error => exact id
  | call op resume ih =>
      intro hMeets
      rcases hCalls (exec (choices 0) op store).1 with
        ⟨⟨⟩, hOp, hRest⟩
      rcases hExec 0 op store hOp hStore with
        ⟨hNot, hInv⟩
      rcases hMeets with hNow | hLater
      · exact hNot hNow
      · exact
          ih _ hRest (fun n => hExec (n + 1)) hInv hLater

/- If only the first call can meet an event, it has to. -/
theorem meets_call_iff
    {P : Op → Prop}
    {op : Op}
    {resume : Except ε (Res op) → Program Op Res ε α}
    (hRest : ∀ answer, Calls P (resume answer))
    (hNot : ∀ op answer, P op → ¬ Event op answer)
    (choices : Nat → χ)
    (store : σ) :
    Meets exec Event (call op resume) choices store ↔
      Event op (exec (choices 0) op store).1 := by
  constructor
  · intro hMeets
    rcases hMeets with hNow | hLater
    · exact hNow
    · refine
        ((hRest _).not_meets (fun _ => True) ?_ trivial
          hLater).elim
      intro n op s hOp _
      exact ⟨hNot op _ hOp, trivial⟩
  · exact Or.inl

/- One of two events is met. -/
theorem meets_or_iff
    (choices : Nat → χ)
    (store : σ) :
    Meets exec
        (fun op answer => Event op answer ∨ Event' op answer)
        program choices store ↔
      Meets exec Event program choices store ∨
        Meets exec Event' program choices store := by
  induction program generalizing choices store with
  | done value => simp only [Meets, or_false]
  | fail error => simp only [Meets, or_false]
  | call op resume ih =>
      simp only [Meets, ih]
      exact or_or_or_comm

/- One of many events is met. -/
theorem meets_exists_iff
    {ι : Type}
    {Events :
      ι → (op : Op) → Except ε (Res op) → Prop}
    (choices : Nat → χ)
    (store : σ) :
    Meets exec (fun op answer => ∃ i, Events i op answer)
        program choices store ↔
      ∃ i, Meets exec (Events i) program choices store := by
  induction program generalizing choices store with
  | done value => simp only [Meets, exists_false]
  | fail error => simp only [Meets, exists_false]
  | call op resume ih =>
      simp only [Meets, ih]
      exact exists_or.symm

/- An event under a condition. -/
theorem meets_and_iff
    {Condition : Prop}
    (choices : Nat → χ)
    (store : σ) :
    Meets exec
        (fun op answer => Condition ∧ Event op answer)
        program choices store ↔
      Condition ∧ Meets exec Event program choices store := by
  induction program generalizing choices store with
  | done value => simp only [Meets, and_false]
  | fail error => simp only [Meets, and_false]
  | call op resume ih =>
      simp only [Meets, ih]
      exact and_or_left.symm

end Program

end OrderApi
