import OrderApi.Core.Program

/-
  Runs to the end, with the choices that they leave over.

  `Program.Runs` is the big-step meaning of a program that
  runs alone, and `Program.complete` computes it.  Since a
  run says which choices it leaves over, the runs of the
  parts of a program compose to a run of the whole.

  `Program.SucceedsIff` says exactly when a program returns,
  and what it leaves behind when it throws.  A loop returns
  if each of its items is accepted behind those before it.

  Key definitions include:
    * `Program.Runs`
    * `AcceptsAll`
    * `StopsAt`
    * `Program.SucceedsIff`

  Key theorems include:
    * `Program.Runs.complete_eq`
    * `Program.Runs.bind_ok`
    * `Program.Runs.bind_inv`
    * `Program.SucceedsIff.bind`
    * `Program.succeedsIff_forEach`
-/

------------------------------------------------------------
-- Big Steps
------------------------------------------------------------

namespace OrderApi

namespace Program

variable {Op : Type} {Res : Op → Type} {ε α β : Type}
variable {χ σ : Type}

/-
  A program, run on a store with some choices, ends with an
  outcome and a store, and leaves the rest of the choices.
-/
inductive Runs
    (exec : χ → (op : Op) → σ → Except ε (Res op) × σ) :
    Program Op Res ε α → (Nat → χ) → σ →
      Except ε α → (Nat → χ) → σ → Prop
  | done
      (value : α)
      (choices : Nat → χ)
      (store : σ) :
      Runs exec (done value) choices store (.ok value)
        choices store
  | fail
      (error : ε)
      (choices : Nat → χ)
      (store : σ) :
      Runs exec (fail error) choices store (.error error)
        choices store
  | call
      {op : Op}
      {resume : Except ε (Res op) → Program Op Res ε α}
      {choices rest : Nat → χ}
      {store store' store'' : σ}
      {answer : Except ε (Res op)}
      {outcome : Except ε α}
      (hExec : exec (choices 0) op store = (answer, store'))
      (hResume :
        Runs exec (resume answer) (fun n => choices (n + 1))
          store' outcome rest store'') :
      Runs exec (call op resume) choices store outcome rest
        store''

variable {exec : χ → (op : Op) → σ → Except ε (Res op) × σ}
variable {choices rest rest' : Nat → χ}
variable {store store' store'' : σ}

/- A run is what the program computes. -/
theorem Runs.complete_eq
    {program : Program Op Res ε α}
    {outcome : Except ε α}
    (hRuns :
      Runs exec program choices store outcome rest store') :
    program.complete exec choices store =
      (outcome, store') := by
  induction hRuns with
  | done value choices store => rfl
  | fail error choices store => rfl
  | call hExec _ ih =>
      simp only [complete, hExec]
      exact ih

/- Sequential rule, when the first program returns. -/
theorem Runs.bind_ok
    {program : Program Op Res ε α}
    {next : α → Program Op Res ε β}
    {first : Except ε α}
    {value : α}
    {outcome : Except ε β}
    (hRuns :
      Runs exec program choices store first rest store')
    (hFirst : first = .ok value)
    (hNext :
      Runs exec (next value) rest store' outcome rest'
        store'') :
    Runs exec (program.bind next) choices store outcome rest'
      store'' := by
  induction hRuns with
  | done value' choices store =>
      cases hFirst
      exact hNext
  | fail error choices store => cases hFirst
  | call hExec _ ih => exact .call hExec (ih hFirst hNext)

/- Sequential rule, when the first program throws. -/
theorem Runs.bind_error
    {program : Program Op Res ε α}
    (next : α → Program Op Res ε β)
    {first : Except ε α}
    {error : ε}
    (hRuns :
      Runs exec program choices store first rest store')
    (hFirst : first = .error error) :
    Runs exec (program.bind next) choices store
      (.error error) rest store' := by
  induction hRuns with
  | done value choices store => cases hFirst
  | fail error' choices store =>
      cases hFirst
      exact .fail error choices store
  | call hExec _ ih => exact .call hExec (ih hFirst)

/- A program that returns has no error to handle. -/
theorem Runs.attempt_ok
    {program : Program Op Res ε α}
    (handler : ε → Program Op Res ε α)
    {first : Except ε α}
    {value : α}
    (hRuns :
      Runs exec program choices store first rest store')
    (hFirst : first = .ok value) :
    Runs exec (program.attempt handler) choices store
      (.ok value) rest store' := by
  induction hRuns with
  | done value' choices store =>
      cases hFirst
      exact .done value choices store
  | fail error choices store => cases hFirst
  | call hExec _ ih => exact .call hExec (ih hFirst)

/- Rule for an error that is handled. -/
theorem Runs.attempt_error
    {program : Program Op Res ε α}
    {handler : ε → Program Op Res ε α}
    {first outcome : Except ε α}
    {error : ε}
    (hRuns :
      Runs exec program choices store first rest store')
    (hFirst : first = .error error)
    (hHandler :
      Runs exec (handler error) rest store' outcome rest'
        store'') :
    Runs exec (program.attempt handler) choices store outcome
      rest' store'' := by
  induction hRuns with
  | done value choices store => cases hFirst
  | fail error' choices store =>
      cases hFirst
      exact hHandler
  | call hExec _ ih => exact .call hExec (ih hFirst hHandler)

/- A run of a sequence is one of its first part, and more. -/
theorem Runs.bind_inv
    {program : Program Op Res ε α}
    {next : α → Program Op Res ε β}
    {outcome : Except ε β}
    (hRuns :
      Runs exec (program.bind next) choices store outcome rest
        store'') :
    (∃ value middle store',
      Runs exec program choices store (.ok value) middle
          store' ∧
        Runs exec (next value) middle store' outcome rest
          store'') ∨
    (∃ error,
      outcome = .error error ∧
        Runs exec program choices store (.error error) rest
          store'') := by
  induction program generalizing choices store with
  | done value =>
      exact
        Or.inl
          ⟨value, choices, store, .done value choices store,
            hRuns⟩
  | fail error =>
      cases hRuns
      exact Or.inr ⟨error, rfl, .fail error _ _⟩
  | call op resume ih =>
      cases hRuns with
      | call hExec hResume =>
          rcases ih _ hResume with
            ⟨value, middle, store', hFirst, hNext⟩ |
              ⟨error, hError, hFirst⟩
          · exact
              Or.inl
                ⟨value, middle, store', .call hExec hFirst,
                  hNext⟩
          · exact
              Or.inr ⟨error, hError, .call hExec hFirst⟩

/- What a program computes is a run of it. -/
theorem exists_runs
    (exec : χ → (op : Op) → σ → Except ε (Res op) × σ)
    (program : Program Op Res ε α)
    (choices : Nat → χ)
    (store : σ) :
    ∃ rest,
      Runs exec program choices store
        (program.complete exec choices store).1 rest
        (program.complete exec choices store).2 := by
  induction program generalizing choices store with
  | done value =>
      exact ⟨choices, .done value choices store⟩
  | fail error =>
      exact ⟨choices, .fail error choices store⟩
  | call op resume ih =>
      rcases ih (exec (choices 0) op store).1
          (fun n => choices (n + 1))
          (exec (choices 0) op store).2 with ⟨rest, hRest⟩
      exact ⟨rest, .call rfl hRest⟩

/- Rules for one call. -/
theorem runs_perform_ok
    {op : Op}
    {value : Res op}
    (hExec : exec (choices 0) op store = (.ok value, store')) :
    Runs exec (perform op) choices store (.ok value)
      (fun n => choices (n + 1)) store' :=
  .call hExec (.done value _ _)

theorem runs_perform_error
    {op : Op}
    {error : ε}
    (hExec :
      exec (choices 0) op store = (.error error, store')) :
    Runs exec (perform op) choices store (.error error)
      (fun n => choices (n + 1)) store' :=
  .call hExec (.fail error _ _)

end Program

end OrderApi

------------------------------------------------------------
-- Loops
------------------------------------------------------------

namespace OrderApi

variable {β : Type}

/- Each item is accepted behind the items before it. -/
def AcceptsAll
    (Accepts : List β → β → Prop)
    (items : List β) : Prop :=
  ∀ before item after,
    items = before ++ item :: after → Accepts before item

/- The first item that is not accepted, and those before. -/
structure StopsAt
    (Accepts : List β → β → Prop)
    (items before : List β)
    (item : β) : Prop where
  within : ∃ after, items = before ++ item :: after
  accepted : AcceptsAll Accepts before
  refused : ¬ Accepts before item

variable {Accepts : List β → β → Prop}

theorem acceptsAll_nil : AcceptsAll Accepts [] := by
  intro before item after hItems
  simp at hItems

/- Of two places in one list one is first, or both agree. -/
theorem split_cases
    {before before' after after' : List β}
    {item item' : β}
    (hSame :
      before ++ item :: after = before' ++ item' :: after') :
    (before' = before ∧ item' = item) ∨
    (∃ middle, before' = before ++ item :: middle) ∨
    (∃ middle, before = before' ++ item' :: middle) := by
  rcases List.append_eq_append_iff.mp hSame with
    ⟨middle, hBefore, hMiddle⟩ | ⟨middle, hBefore, hMiddle⟩
  · cases middle with
    | nil =>
        rw [List.append_nil] at hBefore
        rw [List.nil_append, List.cons.injEq] at hMiddle
        exact Or.inl ⟨hBefore, hMiddle.1.symm⟩
    | cons head middle =>
        rw [List.cons_append, List.cons.injEq] at hMiddle
        rw [← hMiddle.1] at hBefore
        exact Or.inr (Or.inl ⟨middle, hBefore⟩)
  · cases middle with
    | nil =>
        rw [List.append_nil] at hBefore
        rw [List.nil_append, List.cons.injEq] at hMiddle
        exact Or.inl ⟨hBefore.symm, hMiddle.1⟩
    | cons head middle =>
        rw [List.cons_append, List.cons.injEq] at hMiddle
        rw [← hMiddle.1] at hBefore
        exact Or.inr (Or.inr ⟨middle, hBefore⟩)

theorem AcceptsAll.append
    {items : List β}
    {item : β}
    (hAll : AcceptsAll Accepts items)
    (hItem : Accepts items item) :
    AcceptsAll Accepts (items ++ [item]) := by
  intro before other after hItems
  rcases split_cases hItems with
    ⟨rfl, rfl⟩ | ⟨middle, rfl⟩ | ⟨middle, hBefore⟩
  · exact hItem
  · -- nothing comes behind the last item
    have hLength := congrArg List.length hItems
    simp only [List.length_append, List.length_cons,
      List.length_nil] at hLength
    omega
  · exact hAll before other middle hBefore

/- No item of an accepted list is the first refused one. -/
theorem AcceptsAll.not_stopsAt
    {items before : List β}
    {item : β}
    (hAll : AcceptsAll Accepts items) :
    ¬ StopsAt Accepts items before item := by
  intro hStops
  rcases hStops.within with ⟨after, hItems⟩
  exact hStops.refused (hAll before item after hItems)

/- The first refused item is the only one. -/
theorem StopsAt.unique
    {items before before' : List β}
    {item item' : β}
    (hStops : StopsAt Accepts items before item)
    (hStops' : StopsAt Accepts items before' item') :
    before' = before ∧ item' = item := by
  rcases hStops.within with ⟨after, hItems⟩
  rcases hStops'.within with ⟨after', hItems'⟩
  rw [hItems] at hItems'
  rcases split_cases hItems' with
    hSame | ⟨middle, hBefore⟩ | ⟨middle, hBefore⟩
  · exact hSame
  · exact
      (hStops.refused
        (hStops'.accepted before item middle hBefore)).elim
  · exact
      (hStops'.refused
        (hStops.accepted before' item' middle hBefore)).elim

end OrderApi

------------------------------------------------------------
-- When a Program Returns
------------------------------------------------------------

namespace OrderApi

namespace Program

variable {Op : Type} {Res : Op → Type} {ε α β : Type}
variable {χ σ : Type}

/-
  A program returns exactly if `Good` holds.  Its value, the
  choices left and the store then satisfy `Post`, and the
  store that it leaves when it throws satisfies `Stop`.
-/
def SucceedsIff
    (exec : χ → (op : Op) → σ → Except ε (Res op) × σ)
    (Good : Prop)
    (Post : α → (Nat → χ) → σ → Prop)
    (Stop : σ → Prop)
    (program : Program Op Res ε α)
    (choices : Nat → χ)
    (store : σ) : Prop :=
  (Good ∧
    ∃ value rest store',
      Runs exec program choices store (.ok value) rest
          store' ∧
        Post value rest store') ∨
  (¬ Good ∧
    ∃ error rest store',
      Runs exec program choices store (.error error) rest
          store' ∧
        Stop store')

variable {exec : χ → (op : Op) → σ → Except ε (Res op) × σ}
variable {Good Good' : Prop} {Stop : σ → Prop}
variable {Post : α → (Nat → χ) → σ → Prop}
variable {program : Program Op Res ε α}
variable {choices : Nat → χ} {store : σ}

theorem succeedsIff_done
    {value : α}
    (hGood : Good)
    (hPost : Post value choices store) :
    SucceedsIff exec Good Post Stop (done value) choices
      store :=
  Or.inl
    ⟨hGood, value, choices, store,
      .done value choices store, hPost⟩

theorem succeedsIff_fail
    {error : ε}
    (hBad : ¬ Good)
    (hStop : Stop store) :
    SucceedsIff exec Good Post Stop (fail error) choices
      store :=
  Or.inr
    ⟨hBad, error, choices, store, .fail error choices store,
      hStop⟩

/- Rule for one call. -/
theorem succeedsIff_perform
    (op : Op)
    {Post : Res op → (Nat → χ) → σ → Prop}
    (hExec :
      (Good ∧
        ∃ value store',
          exec (choices 0) op store = (.ok value, store') ∧
            Post value (fun n => choices (n + 1)) store') ∨
      (¬ Good ∧
        ∃ error store',
          exec (choices 0) op store =
              (.error error, store') ∧
            Stop store')) :
    SucceedsIff exec Good Post Stop (perform op) choices
      store := by
  rcases hExec with
    ⟨hGood, value, store', hOk, hPost⟩ |
      ⟨hBad, error, store', hError, hStop⟩
  · exact
      Or.inl
        ⟨hGood, value, _, store', runs_perform_ok hOk, hPost⟩
  · exact
      Or.inr
        ⟨hBad, error, _, store', runs_perform_error hError,
          hStop⟩

/- Sequential rule. -/
theorem SucceedsIff.bind
    {Post' : β → (Nat → χ) → σ → Prop}
    {next : α → Program Op Res ε β}
    (hFirst :
      SucceedsIff exec Good Post Stop program choices store)
    (hNext :
      ∀ value rest store',
        Good → Post value rest store' →
          SucceedsIff exec Good' Post' Stop (next value) rest
            store') :
    SucceedsIff exec (Good ∧ Good') Post' Stop
      (program.bind next) choices store := by
  rcases hFirst with
    ⟨hGood, value, rest, store', hRuns, hPost⟩ |
      ⟨hBad, error, rest, store', hRuns, hStop⟩
  · rcases hNext value rest store' hGood hPost with
      ⟨hGood', value', rest', store'', hRuns', hPost'⟩ |
        ⟨hBad', error, rest', store'', hRuns', hStop⟩
    · exact
        Or.inl
          ⟨⟨hGood, hGood'⟩, value', rest', store'',
            hRuns.bind_ok rfl hRuns', hPost'⟩
    · exact
        Or.inr
          ⟨fun hBoth => hBad' hBoth.2, error, rest', store'',
            hRuns.bind_ok rfl hRuns', hStop⟩
  · exact
      Or.inr
        ⟨fun hBoth => hBad hBoth.1, error, rest, store',
          hRuns.bind_error next rfl, hStop⟩

/- The same for a first program with a known outcome. -/
theorem SucceedsIff.bind_of_eq
    {Post' : β → (Nat → χ) → σ → Prop}
    {next : α → Program Op Res ε β}
    {known : α}
    {rest : Nat → χ}
    {store' : σ}
    (hFirst :
      SucceedsIff exec Good
        (fun value rest' after =>
          value = known ∧ rest' = rest ∧ after = store')
        Stop program choices store)
    (hNext :
      Good →
        SucceedsIff exec Good' Post' Stop (next known) rest
          store') :
    SucceedsIff exec (Good ∧ Good') Post' Stop
      (program.bind next) choices store := by
  apply hFirst.bind
  rintro value rest' after hGood ⟨rfl, rfl, rfl⟩
  exact hNext hGood

/- Rule for a handler that only throws. -/
theorem SucceedsIff.attempt
    {handler : ε → Program Op Res ε α}
    (hFirst :
      SucceedsIff exec Good Post Stop program choices store)
    (hHandler : ∀ error, ∃ error', handler error = fail error') :
    SucceedsIff exec Good Post Stop (program.attempt handler)
      choices store := by
  rcases hFirst with
    ⟨hGood, value, rest, store', hRuns, hPost⟩ |
      ⟨hBad, error, rest, store', hRuns, hStop⟩
  · exact
      Or.inl
        ⟨hGood, value, rest, store',
          hRuns.attempt_ok handler rfl, hPost⟩
  · rcases hHandler error with ⟨error', hFail⟩
    refine Or.inr ⟨hBad, error', rest, store', ?_, hStop⟩
    apply hRuns.attempt_error rfl
    rw [hFail]
    exact .fail error' rest store'

/- Rule for a check that throws. -/
theorem SucceedsIff.guard
    {Bad : Prop}
    [Decidable Bad]
    {error : ε}
    (hStop : Bad → Stop store)
    (hRest :
      ¬ Bad →
        SucceedsIff exec Good Post Stop program choices
          store) :
    SucceedsIff exec (¬ Bad ∧ Good) Post Stop
      (if Bad then fail error else program) choices store := by
  by_cases hBad : Bad
  · rw [if_pos hBad]
    exact
      Or.inr
        ⟨fun hBoth => hBoth.1 hBad, error, choices, store,
          .fail error choices store, hStop hBad⟩
  · rw [if_neg hBad]
    rcases hRest hBad with
      ⟨hGood, hRuns⟩ | ⟨hNot, hRuns⟩
    · exact Or.inl ⟨⟨hBad, hGood⟩, hRuns⟩
    · exact Or.inr ⟨fun hBoth => hNot hBoth.2, hRuns⟩

theorem SucceedsIff.congr
    (hFirst :
      SucceedsIff exec Good Post Stop program choices store)
    (hIff : Good ↔ Good') :
    SucceedsIff exec Good' Post Stop program choices
      store := by
  rwa [← propext hIff]

/- The value that is returned may be forgotten. -/
theorem SucceedsIff.ignore
    {Post' : Unit → (Nat → χ) → σ → Prop}
    (hFirst :
      SucceedsIff exec Good Post Stop program choices store)
    (hPost :
      ∀ value rest store',
        Post value rest store' → Post' () rest store') :
    SucceedsIff exec Good Post' Stop program.ignore choices
      store := by
  have hBoth :=
    hFirst.bind fun value rest store' _ hValue =>
      succeedsIff_done trivial
        (hPost value rest store' hValue)
  exact hBoth.congr (and_iff_left trivial)

/-
  Loop rule.  The invariant relates the items that were
  visited with the choices and the store that are left.
-/
theorem succeedsIff_forEach
    {Accepts : List β → β → Prop}
    {Inv : List β → (Nat → χ) → σ → Prop}
    {body : β → Program Op Res ε Unit}
    (items : List β)
    (hTurn :
      ∀ before item after choices store,
        items = before ++ item :: after →
        AcceptsAll Accepts before →
        Inv before choices store →
        SucceedsIff exec (Accepts before item)
          (fun _ rest store' =>
            Inv (before ++ [item]) rest store')
          Stop (body item) choices store)
    (hInv : Inv [] choices store) :
    SucceedsIff exec (AcceptsAll Accepts items)
      (fun _ rest store' => Inv items rest store') Stop
      (forEach items body) choices store := by
  have hLoop :
      ∀ after before choices store,
        items = before ++ after →
        AcceptsAll Accepts before →
        Inv before choices store →
        SucceedsIff exec (AcceptsAll Accepts items)
          (fun _ rest store' => Inv items rest store') Stop
          (forEach after body) choices store := by
    intro after
    induction after with
    | nil =>
        intro before choices store hItems hAll hInv
        rw [List.append_nil] at hItems
        subst hItems
        exact
          Or.inl
            ⟨hAll, (), choices, store, .done () choices store,
              hInv⟩
    | cons item after ih =>
        intro before choices store hItems hAll hInv
        have hSplit :
            items = (before ++ [item]) ++ after := by
          rw [hItems, List.append_assoc,
            List.singleton_append]
        have hItem :=
          hTurn before item after choices store hItems hAll
            hInv
        have hBoth :=
          hItem.bind fun _ rest store' hAccepts hInv' =>
            ih (before ++ [item]) rest store' hSplit
              (hAll.append hAccepts) hInv'
        apply hBoth.congr
        constructor
        · exact fun hBoth => hBoth.2
        · intro hItems'
          exact ⟨hItems' before item after hItems, hItems'⟩
  exact hLoop items [] choices store rfl acceptsAll_nil hInv

/- What a program computes that returns only so. -/
theorem SucceedsIff.complete_cases
    (hSucceeds :
      SucceedsIff exec Good Post Stop program choices
        store) :
    (Good ∧
      ∃ value rest store',
        program.complete exec choices store =
            (.ok value, store') ∧
          Post value rest store') ∨
    (¬ Good ∧
      ∃ error store',
        program.complete exec choices store =
            (.error error, store') ∧
          Stop store') := by
  rcases hSucceeds with
    ⟨hGood, value, rest, store', hRuns, hPost⟩ |
      ⟨hBad, error, rest, store', hRuns, hStop⟩
  · exact
      Or.inl
        ⟨hGood, value, rest, store', hRuns.complete_eq, hPost⟩
  · exact
      Or.inr ⟨hBad, error, store', hRuns.complete_eq, hStop⟩

end Program

end OrderApi
