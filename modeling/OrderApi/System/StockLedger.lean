import OrderApi.System.OrderLines
import Mathlib.Algebra.BigOperators.Group.List.Basic
import Mathlib.Algebra.Ring.Int.Defs
import Mathlib.Algebra.BigOperators.Group.List.Lemmas

/-
  The ledger of a product: its stock is what it was at first
  less what paid orders have of it.

  Amid a payment the lines deducted so far count as taken.
  The ledger is kept as long as no two payments of an order
  overlap and no paid order is made to wait again.

  Key definitions include:
    * `quantityOf`, `soldQuantity`, `takenQuantity`
    * `initialStock?`
    * `LedgerInv`
    * `ChargesOnce`

  Key theorems include:
    * `LedgerInv.balance_resume`
    * `LedgerInv.resume`
    * `ledger_of_run`
    * `stock_of_paid_orders`
-/

------------------------------------------------------------
-- Quantities of Orders
------------------------------------------------------------

namespace OrderApi

/- How much of a product some lines are about. -/
def quantityOf (productId : String)
    (items : List OrderItem) : Int :=
  ((items.filter fun item =>
    item.productId = productId).map fun item =>
      item.quantity.val).sum

theorem quantityOf_cons
    (productId : String)
    (item : OrderItem)
    (items : List OrderItem) :
    quantityOf productId (item :: items) =
      (if item.productId = productId then
        item.quantity.val else 0) +
        quantityOf productId items := by
  unfold quantityOf
  by_cases hProduct : item.productId = productId
  · simp [hProduct]
  · simp [hProduct]

theorem quantityOf_eq_zero
    {productId : String}
    {items : List OrderItem}
    (hNone : ∀ item ∈ items, item.productId ≠ productId) :
    quantityOf productId items = 0 := by
  unfold quantityOf
  have hFilter :
      (items.filter fun item =>
        item.productId = productId) = [] := by
    simpa [List.filter_eq_nil_iff] using hNone
  rw [hFilter]
  rfl

/- The ids of the orders of a tenant database. -/
def Backend.orderIds (store : Backend) (name : String) :
    List String :=
  (store.dbs name).elim [] fun db =>
    db.orders.rows.map Order.id

/- How much of a product is in orders that were ever PAID. -/
def soldQuantity
    (name productId : String)
    (history : List WorldStep)
    (store : Backend) : Int :=
  ((store.orderIds name).map fun id =>
    if wasPaid name id history then
      quantityOf productId (store.items name id)
    else 0).sum

/- The first stock that a product has in a run. -/
def initialStock?
    (start : Backend)
    (name productId : String) :
    List WorldStep → Option Int
| [] => start.stock? name productId
| t :: history =>
    match initialStock? start name productId history with
    | some stock => some stock
    | none => t.after.store.stock? name productId

namespace Backend

variable {store : Backend} {name : String}

/- No two orders of a tenant share their id. -/
theorem orderIds_nodup
    (store : Backend)
    (name : String) :
    (store.orderIds name).Nodup := by
  cases hDb : store.dbs name with
  | none => simp [orderIds, hDb]
  | some db =>
      have hNodup : (db.orders.rows.map Order.id).Nodup :=
        db.orders.nodup
      simpa [orderIds, hDb] using hNodup

/- Exactly the orders that exist have a status. -/
theorem mem_orderIds_iff
    {id : String} :
    id ∈ store.orderIds name ↔
      store.status? name id ≠ none := by
  cases hDb : store.dbs name with
  | none => simp [orderIds, status?, order?, hDb]
  | some db =>
      have hFind :
          db.orders.find? id = none ↔
            ∀ row ∈ db.orders.rows, Keyed.key row ≠ id :=
        db.orders.find?_eq_none_iff
      rw [status?_of_dbs hDb]
      simp only [orderIds, hDb, Option.elim_some, ne_eq,
        Option.map_eq_none_iff, hFind, List.mem_map]
      constructor
      · rintro ⟨order, hMem, rfl⟩ hAbsent
        exact hAbsent order hMem rfl
      · intro hPresent
        by_contra hAbsent
        exact
          hPresent fun order hMem hKey =>
            hAbsent ⟨order, hMem, hKey⟩

end Backend

/- A call creates at most one order, and deletes none. -/
theorem StoreOp.exec_orderIds_cases
    {choice : Choice}
    {op : StoreOp}
    {store store' : Backend}
    {answer : Except ApiError op.Res}
    (hExec : op.exec choice store = (answer, store'))
    (name : String) :
    store'.orderIds name = store.orderIds name ∨
      ∃ id,
        store.status? name id = none ∧
          store'.orderIds name =
            store.orderIds name ++ [id] := by
  rcases exec_dbs_cases hExec with
    hSame |
      ⟨name', op, tick, db, db', result, rfl, _, _, hDb,
        hRun, rfl⟩
  · exact
      Or.inl (by rw [Backend.orderIds, hSame, Backend.orderIds])
  by_cases hName : name = name'
  swap
  · apply Or.inl
    rw [Backend.orderIds, Backend.put_dbs_other hName,
      Backend.orderIds]
  subst hName
  have hAfter :
      (store.put name db').orderIds name =
        db'.orders.rows.map Order.id := by
    simp [Backend.orderIds]
  have hBefore :
      store.orderIds name = db.orders.rows.map Order.id := by
    simp [Backend.orderIds, hDb]
  rw [hAfter, hBefore]
  by_cases hWrites : op.writes = .orders
  swap
  · have hOrders := (TenantOp.exec_frame hRun).1 hWrites
    exact Or.inl (by rw [hOrders])
  cases op with
  | orderCreate userId status total =>
      rcases TenantOp.exec_orderCreate hRun with
        ⟨_, _, _, _, hInsert⟩
      rcases db.orders.insert?_eq_some_iff.mp hInsert with
        ⟨hAbsent, hRows⟩
      apply Or.inr
      refine ⟨result.id, ?_, ?_⟩
      · rw [Backend.status?_of_dbs hDb]
        exact congrArg _ hAbsent
      · rw [hRows]
        simp
  | orderUpdate id data =>
      apply Or.inl
      simp only [TenantOp.exec] at hRun
      split at hRun
      · cases hRun
      · split at hRun
        · cases hRun
        · cases hRun
          exact
            db.orders.keys_update id _
              (fun row => row.key_apply data _)
  | _ => cases hWrites

end OrderApi

------------------------------------------------------------
-- Amid a Payment
------------------------------------------------------------

namespace OrderApi

/-
  What a payment in progress took of a product so far: what
  the order's lines have of it, less what is still to take.
-/
def Phase.taken
    (store : Backend)
    (name productId : String) :
    Phase → Int
  | .charging db id rest =>
      if db = name then
        quantityOf productId (store.items name id) -
          quantityOf productId rest
      else 0
  | _ => 0

def takenQuantity
    (name productId : String)
    (store : Backend)
    (phases : List Phase) : Int :=
  (phases.map (Phase.taken store name productId)).sum

/-
  The order that a thread is amid paying: its next call is
  a write, so it passed the guard of `paymentReceived`.
-/
def amidPayment?
    (databaseName : String → String)
    (thread : Thread Job StoreOp StoreOp.Res ApiError) :
    Option (String × String) :=
  match thread.job, thread.program.nextOp? with
  | .paymentReceived _ tenantCode id, some op =>
      if op.isRead then none
      else some (databaseName tenantCode, id)
  | _, _ => none

/-
  The order for which a step lets `paymentReceived` past its
  guard: it reads the order as WAITING_FOR_PAYMENT, and as
  one of its user.
-/
def guardPassed?
    (databaseName : String → String)
    (t : WorldStep) : Option (String × String) :=
  match t.label with
  | .resume index (.answer _) =>
      match t.before.threads[index]? with
      | some ⟨.paymentReceived user tenantCode id,
          .call op _⟩ =>
          if op.isRead ∧
              (t.before.store.order?
                (databaseName tenantCode) id).any
                (fun order =>
                  order.userId = user.id ∧
                    order.status =
                      .WAITING_FOR_PAYMENT) then
            some (databaseName tenantCode, id)
          else none
      | _ => none
  | _ => none

/- No payment passes its guard amid one of the same order. -/
def ChargesAlone
    (databaseName : String → String)
    (t : WorldStep) : Prop :=
  ∀ order ∈ guardPassed? databaseName t,
    ∀ thread ∈ t.before.threads,
      amidPayment? databaseName thread ≠ some order

/- No order that is PAID or COMPLETE is made to wait. -/
def KeepsPaid (t : WorldStep) : Prop :=
  ∀ w ∈ statusWrite? t,
    w.status = .WAITING_FOR_PAYMENT →
      t.before.store.status? w.name w.id ∉
        [some .PAID, some .COMPLETE]

/- The store call of the step fails. -/
def Fails (t : WorldStep) : Prop :=
  ∃ call ∈ t.call?,
    (call.1.exec call.2 t.before.store).1.isOk = false

/- A call that an admin edits or deletes a product with. -/
def StoreOp.edits (name productId : String) :
    StoreOp → Bool
  | .tenant db (.productUpdate id _) =>
      db = name ∧ id = productId
  | .tenant db (.productDelete id) =>
      db = name ∧ id = productId
  | _ => false

/- The step updates or deletes the product. -/
def Edits (name productId : String) (t : WorldStep) : Prop :=
  ∃ call ∈ t.call?, call.1.edits name productId = true

end OrderApi

------------------------------------------------------------
-- The Ledger
------------------------------------------------------------

namespace OrderApi

/-
  The ledger of one product, and what keeps it: an order is
  charged by one job at a time and never again once it was
  PAID, and the lines left to charge are lines it still has.
-/
structure LedgerInv
    (start : Backend)
    (name productId : String)
    (history : List WorldStep)
    (store : Backend)
    (phases : List Phase) : Prop where
  alone :
    ∀ (i j : Nat) (phase₁ phase₂ : Phase)
        (key : String × String),
      phases[i]? = some phase₁ → phases[j]? = some phase₂ →
        phase₁.charges? = some key →
        phase₂.charges? = some key → i = j
  unpaid :
    ∀ phase ∈ phases, ∀ db id,
      phase.charges? = some (db, id) →
        ¬ wasPaid db id history
  settled :
    ∀ db id, wasPaid db id history →
      store.status? db id = some .PAID ∨
        store.status? db id = some .COMPLETE
  left :
    ∀ db id rest, Phase.charging db id rest ∈ phases →
      rest <:+ store.items db id
  unborn :
    initialStock? start name productId history = none →
      store.stock? name productId = none ∧
        ∀ id, ∀ item ∈ store.items name id,
          item.productId ≠ productId
  balance :
    ∀ initial,
      initialStock? start name productId history =
          some initial →
        store.stock? name productId =
          some
            (initial -
              soldQuantity name productId history store -
              takenQuantity name productId store phases)

variable {databaseName : String → String}
variable {start : Backend} {name productId : String}
variable {history : List WorldStep} {t : WorldStep}
variable {phases : List Phase} {phase phase' : Phase}
variable {index : Nat} {job : Job} {op : StoreOp}
variable {choice : Choice}
variable {store store' : Backend}
variable {answer : Except ApiError op.Res}

/- A product that no line is about was not sold. -/
theorem soldQuantity_eq_zero
    (hNone :
      ∀ id, ∀ item ∈ store.items name id,
        item.productId ≠ productId) :
    soldQuantity name productId history store = 0 := by
  unfold soldQuantity
  apply List.sum_eq_zero
  intro quantity hMem
  rcases List.mem_map.mp hMem with ⟨id, _, rfl⟩
  split
  · exact quantityOf_eq_zero (hNone id)
  · rfl

/- A product that no line is about was not taken. -/
theorem takenQuantity_eq_zero
    (hNone :
      ∀ id, ∀ item ∈ store.items name id,
        item.productId ≠ productId)
    (hLeft :
      ∀ db id rest, Phase.charging db id rest ∈ phases →
        rest <:+ store.items db id) :
    takenQuantity name productId store phases = 0 := by
  unfold takenQuantity
  apply List.sum_eq_zero
  intro quantity hMem
  rcases List.mem_map.mp hMem with ⟨phase, hPhase, rfl⟩
  cases phase with
  | charging db id rest =>
      simp only [Phase.taken]
      split
      · rename_i hDb
        subst hDb
        have hRest := hLeft db id rest hPhase
        have hNoRest :
            ∀ item ∈ rest, item.productId ≠ productId :=
          fun item hItem =>
            hNone id item (hRest.subset hItem)
        rw [quantityOf_eq_zero (hNone id),
          quantityOf_eq_zero hNoRest]
        rfl
      · rfl
  | _ => rfl

/- Moving one thread replaces its share of what is taken. -/
theorem takenQuantity_set
    (hPhase : phases[index]? = some phase) :
    takenQuantity name productId store
        (phases.set index phase') =
      takenQuantity name productId store phases +
        (phase'.taken store name productId -
          phase.taken store name productId) := by
  rcases List.getElem?_eq_some_iff.mp hPhase with
    ⟨hLess, hAt⟩
  have hLess' :
      index <
        (phases.map
          (Phase.taken store name productId)).length := by
    simpa using hLess
  unfold takenQuantity
  rw [List.map_set, List.sum_set', dif_pos hLess']
  simp only [List.getElem_map, hAt]
  omega

/- The share of what is taken only depends on the lines. -/
theorem takenQuantity_congr
    (hItems :
      ∀ phase ∈ phases, ∀ db id,
        phase.charges? = some (db, id) →
          store'.items db id = store.items db id) :
    takenQuantity name productId store' phases =
      takenQuantity name productId store phases := by
  unfold takenQuantity
  congr 1
  apply List.map_congr_left
  intro phase hMem
  cases phase with
  | charging db id rest =>
      have hSame := hItems _ hMem db id rfl
      by_cases hDb : db = name
      · subst hDb
        simp only [Phase.taken, if_true, hSame]
      · simp only [Phase.taken, hDb, if_false]
  | _ => rfl

end OrderApi

------------------------------------------------------------
-- Steps of the Ledger
------------------------------------------------------------

namespace OrderApi

namespace StoreOp

variable {choice : Choice} {name : String}
variable {store store' : Backend}

/- A call that does not write products keeps the stocks. -/
theorem exec_stock_frame
    {op : TenantOp}
    {answer : Except ApiError op.Res}
    (hExec :
      (StoreOp.tenant name op).exec choice store =
        (answer, store'))
    (hWrites : op.writes ≠ .products)
    (name' id : String) :
    store'.stock? name' id = store.stock? name' id := by
  rcases exec_stock_cases hExec name' id with
    hSame | ⟨_, _, _, _, hOp, _⟩ | ⟨_, _, hOp, _⟩ |
      ⟨_, _, _, hOp, _⟩ | ⟨hOp, _⟩
  · exact hSame
  all_goals
    cases hOp
    exact (hWrites rfl).elim

/- A decrement that succeeds takes its amount. -/
theorem exec_decrement_stock
    {changed : String}
    {amount : Int}
    {product : Product}
    (hExec :
      (StoreOp.tenant name
        (.productDecrementStock changed amount)).exec choice
          store = (.ok product, store'))
    (name' id : String) :
    store'.stock? name' id =
      if name' = name ∧ id = changed then
        (store.stock? name id).map fun stock =>
          stock - amount
      else store.stock? name' id := by
  rcases exec_tenant_ok hExec with
    ⟨tick, db, db', _, hDb, hRun, rfl⟩
  rcases TenantOp.exec_productDecrementStock hRun with
    ⟨found, stock, hOld, hStock, hFind⟩
  by_cases hName : name' = name
  · subst hName
    by_cases hId : id = changed
    · subst hId
      rw [if_pos ⟨rfl, rfl⟩, Backend.stock?_put_same,
        hFind, if_pos rfl, Backend.stock?_of_dbs hDb, hOld]
      simp only [Option.map_some, hStock]
    · rw [if_neg (fun h => hId h.2),
        Backend.stock?_put_same, hFind, if_neg hId,
        Backend.stock?_of_dbs hDb]
  · rw [if_neg (fun h => hName h.1),
      Backend.stock?_put_other hName]

end StoreOp

/- An update that succeeds writes its status. -/
theorem StoreOp.exec_setStatus
    {choice : Choice}
    {name id : String}
    {data : OrderUpdate}
    {store store' : Backend}
    {view : OrderView}
    {status : OrderStatus}
    (hExec :
      (StoreOp.tenant name (.orderUpdate id data)).exec
        choice store = (.ok view, store'))
    (hStatus : data.status = some status) :
    store'.status? name id = some status := by
  rcases exec_tenant_ok hExec with
    ⟨tick, db, db', _, hDb, hRun, rfl⟩
  rcases TenantOp.exec_orderUpdate hRun with
    ⟨order, total, _, _, hAfter⟩
  rw [Backend.status?_put_same, hAfter, if_pos rfl]
  simp [Order.apply, hStatus]

variable {databaseName : String → String}
variable {start : Backend} {name productId : String}
variable {history : List WorldStep} {t : WorldStep}
variable {phases : List Phase} {phase phase' : Phase}
variable {index : Nat} {op : StoreOp} {choice : Choice}
variable {answer : Except ApiError op.Res}

section Resume

variable
  (hLines :
    LinesInv databaseName history t.before.store phases)
  (hPhase : phases[index]? = some phase)
  (hMoves : phase.Moves op answer phase')
  (hExec :
    op.exec choice t.before.store =
      (answer, t.after.store))

include hLines hPhase hMoves hExec

/- The lines of a sealed order stay as they are. -/
theorem items_of_sealed
    {db id : String}
    (hSealed : Sealed t.before.store phases db id) :
    t.after.store.items db id =
      t.before.store.items db id := by
  have hHere := List.mem_of_getElem? hPhase
  exact
    hLines.items_of_other hPhase hMoves hExec
      (hSealed.2 phase hHere)

/- An order becomes paid by the last write of its payment. -/
theorem wasPaid_resume
    {db id : String}
    (hPaid : wasPaid db id (t :: history)) :
    wasPaid db id history ∨
      (phase = .charging db id [] ∧ phase' = .quiet) := by
  rcases wasPaid_cons.mp hPaid with hNow | hEarlier
  · rcases hMoves.status_cases hExec db id with
      hSame | ⟨_, hNew⟩ | ⟨_, _, _, _, _, _, _, hNew⟩ |
        ⟨_, _, rfl, rfl, _⟩ | ⟨_, _, _, _, _, _, _, hNew⟩
    · rw [hSame] at hNow
      exact Or.inl (hLines.paid_now db id hNow)
    · rw [hNew] at hNow
      cases hNow
    · rw [hNew] at hNow
      cases hNow
    · apply Or.inr
      refine ⟨rfl, ?_⟩
      cases hMoves with
      | read hFinal hRead => cases hRead
      | failed hOp => rfl
      | markPaid => rfl
    · rw [hNew] at hNow
      cases hNow
  · exact Or.inl hEarlier

/- What is sold after the call, over the orders before it. -/
theorem soldQuantity_resume :
    soldQuantity name productId (t :: history)
        t.after.store =
      ((t.before.store.orderIds name).map fun id =>
        if wasPaid name id (t :: history) then
          quantityOf productId (t.before.store.items name id)
        else 0).sum := by
  have hHere := List.mem_of_getElem? hPhase
  have hSealed :
      ∀ id, wasPaid name id (t :: history) →
        Sealed t.before.store phases name id := by
    intro id hPaid
    rcases wasPaid_resume hLines hPhase hMoves hExec hPaid
      with hEarlier | ⟨rfl, _⟩
    · exact hLines.paid name id hEarlier
    · exact hLines.charged _ hHere name id rfl
  have hLine :
      ∀ id,
        (if wasPaid name id (t :: history) then
          quantityOf productId (t.after.store.items name id)
        else 0) =
          if wasPaid name id (t :: history) then
            quantityOf productId
              (t.before.store.items name id)
          else 0 := by
    intro id
    by_cases hPaid : wasPaid name id (t :: history)
    · rw [if_pos hPaid, if_pos hPaid,
        items_of_sealed hLines hPhase hMoves hExec
          (hSealed id hPaid)]
    · rw [if_neg hPaid, if_neg hPaid]
  unfold soldQuantity
  simp only [hLine]
  rcases StoreOp.exec_orderIds_cases hExec name with
    hSame | ⟨id, hNew, hIds⟩
  · rw [hSame]
  · have hUnpaid : ¬ wasPaid name id (t :: history) :=
      fun hPaid => (hSealed id hPaid).1 hNew
    rw [hIds, List.map_append, List.sum_append]
    simp [hUnpaid]

/- What is sold stays when the call makes no order paid. -/
theorem soldQuantity_same
    (hUnpaid :
      ∀ id, phase = .charging name id [] →
        phase' ≠ .quiet) :
    soldQuantity name productId (t :: history)
        t.after.store =
      soldQuantity name productId history
        t.before.store := by
  rw [soldQuantity_resume hLines hPhase hMoves hExec]
  unfold soldQuantity
  have hPaid :
      ∀ id, wasPaid name id (t :: history) ↔
        wasPaid name id history := by
    intro id
    constructor
    · intro hNow
      rcases wasPaid_resume hLines hPhase hMoves hExec hNow
        with hEarlier | ⟨hCharging, hQuiet⟩
      · exact hEarlier
      · exact (hUnpaid id hCharging hQuiet).elim
    · exact fun h => wasPaid_cons.mpr (Or.inr h)
  simp only [hPaid]

/- The quantity of an order is sold once it becomes paid. -/
theorem soldQuantity_paid
    {id : String}
    (hCharging : phase = .charging name id [])
    (hFirst : ¬ wasPaid name id history)
    (hPaid : wasPaid name id (t :: history)) :
    soldQuantity name productId (t :: history)
        t.after.store =
      soldQuantity name productId history t.before.store +
        quantityOf productId
          (t.before.store.items name id) := by
  have hHere := List.mem_of_getElem? hPhase
  have hExists : id ∈ t.before.store.orderIds name := by
    subst hCharging
    exact
      Backend.mem_orderIds_iff.mpr
        (hLines.charged _ hHere name id rfl).1
  have hOnce :
      (t.before.store.orderIds name).count id = 1 :=
    List.count_eq_one_of_mem
      (t.before.store.orderIds_nodup name) hExists
  have hTerm :
      ∀ id',
        (if wasPaid name id' (t :: history) then
          quantityOf productId
            (t.before.store.items name id')
        else 0) =
          if id' = id then
            quantityOf productId
              (t.before.store.items name id')
          else
            if wasPaid name id' history then
              quantityOf productId
                (t.before.store.items name id')
            else 0 := by
    intro id'
    by_cases hId : id' = id
    · subst hId
      rw [if_pos hPaid, if_pos rfl]
    · have hSame :
          wasPaid name id' (t :: history) ↔
            wasPaid name id' history := by
        constructor
        · intro hNow
          rcases
              wasPaid_resume hLines hPhase hMoves hExec
                hNow with
            hEarlier | ⟨hOther, _⟩
          · exact hEarlier
          · rw [hCharging] at hOther
            cases hOther
            exact (hId rfl).elim
        · exact fun h => wasPaid_cons.mpr (Or.inr h)
      rw [if_neg hId]
      simp only [hSame]
  rw [soldQuantity_resume hLines hPhase hMoves hExec]
  simp only [hTerm]
  rw [List.sum_map_ite_eq, hOnce, if_neg hFirst,
    one_nsmul, Int.sub_zero, Int.add_comm]
  rfl

/- The lines that payments still charge stay. -/
theorem takenQuantity_resume :
    takenQuantity name productId t.after.store
        (phases.set index phase') =
      takenQuantity name productId t.before.store phases +
        (phase'.taken t.after.store name productId -
          phase.taken t.after.store name productId) := by
  rw [takenQuantity_set hPhase]
  congr 1
  apply takenQuantity_congr
  intro q hMem db id hCharges
  exact
    items_of_sealed hLines hPhase hMoves hExec
      (hLines.charged q hMem db id hCharges)

end Resume

/- A call outside of payments keeps a stock that is there. -/
theorem stock_of_not_charging
    {stock : Int}
    (hMoves : phase.Moves op answer phase')
    (hExec :
      op.exec choice t.before.store =
        (answer, t.after.store))
    (hOk : ∀ error, answer ≠ .error error)
    (hEdit : op.edits name productId = false)
    (hOther : phase.charges? = none)
    (hStock :
      t.before.store.stock? name productId = some stock) :
    t.after.store.stock? name productId = some stock := by
  rcases StoreOp.exec_stock_cases hExec name productId with
    hSame | ⟨_, _, _, _, _, _, hNone, _⟩ |
      ⟨data, _, rfl, _⟩ | ⟨amount, _, _, rfl, _⟩ | ⟨rfl, _⟩
  · rw [hSame, hStock]
  · rw [hNone] at hStock
    cases hStock
  · simp [StoreOp.edits] at hEdit
  · cases hMoves with
    | read hFinal hRead => cases hRead
    | failed hOp => exact (hOk _ rfl).elim
    | deduct => cases hOther
  · simp [StoreOp.edits] at hEdit

/- A job that charges no order has taken nothing. -/
theorem Phase.taken_eq_zero
    {store : Backend}
    (hOther : phase.charges? = none) :
    phase.taken store name productId = 0 := by
  cases phase with
  | charging db id rest => cases hOther
  | _ => rfl

theorem Phase.charges?_of_final
    (hFinal : phase.Final) :
    phase.charges? = none := by
  cases phase with
  | charging db id rest => exact hFinal.elim
  | _ => rfl

section Resume

variable
  (hLines :
    LinesInv databaseName history t.before.store phases)
  (hLedger :
    LedgerInv start name productId history t.before.store
      phases)
  (hPhase : phases[index]? = some phase)

include hLines hLedger hPhase

/- A call outside of payments keeps the balance. -/
theorem LedgerInv.balance_of_not_charging
    {initial : Int}
    (hMoves : phase.Moves op answer phase')
    (hExec :
      op.exec choice t.before.store =
        (answer, t.after.store))
    (hOk : ∀ error, answer ≠ .error error)
    (hEdit : op.edits name productId = false)
    (hOther : phase.charges? = none)
    (hOther' : phase'.charges? = none)
    (hInitial :
      initialStock? start name productId history =
        some initial) :
    t.after.store.stock? name productId =
      some
        (initial -
          soldQuantity name productId (t :: history)
            t.after.store -
          takenQuantity name productId t.after.store
            (phases.set index phase')) := by
  have hStock :=
    stock_of_not_charging hMoves hExec hOk hEdit hOther
      (hLedger.balance initial hInitial)
  have hSold :
      soldQuantity name productId (t :: history)
          t.after.store =
        soldQuantity name productId history
          t.before.store := by
    apply soldQuantity_same hLines hPhase hMoves hExec
    rintro id rfl
    cases hOther
  rw [hStock, hSold,
    takenQuantity_resume hLines hPhase hMoves hExec,
    Phase.taken_eq_zero hOther, Phase.taken_eq_zero hOther',
    Int.sub_zero, Int.add_zero]

/- Passing the guard takes nothing yet. -/
theorem LedgerInv.balance_of_charge
    {initial : Int}
    {db id userId : String}
    {order : Order}
    {items : List OrderItem}
    (hPaying : phase = .paying db id userId)
    (hMoves :
      phase.Moves
        (.tenant db (.orderFindUniqueWithItems id))
        (.ok (some (order, items)))
        (.charging db id items))
    (hExec :
      (StoreOp.tenant db
        (.orderFindUniqueWithItems id)).exec choice
          t.before.store =
        (.ok (some (order, items)), t.after.store))
    (hInitial :
      initialStock? start name productId history =
        some initial) :
    t.after.store.stock? name productId =
      some
        (initial -
          soldQuantity name productId (t :: history)
            t.after.store -
          takenQuantity name productId t.after.store
            (phases.set index (.charging db id items))) := by
  subst hPaying
  have hStock :=
    StoreOp.exec_stock_frame hExec
      (by simp [TenantOp.writes]) name productId
  have hSold :
      soldQuantity name productId (t :: history)
          t.after.store =
        soldQuantity name productId history
          t.before.store := by
    apply soldQuantity_same hLines hPhase hMoves hExec
    rintro id' h
    cases h
  have hItems : items = t.after.store.items db id := by
    rw [(StoreOp.exec_orderFindUniqueWithItems hExec).2.2]
    have hRead :
        (StoreOp.tenant db
          (.orderFindUniqueWithItems id)).isRead := rfl
    have hSame :=
      (StoreOp.exec_isRead hRead choice
        t.before.store).2.2.2 db
    rw [hExec] at hSame
    rw [Backend.items, ← hSame, Backend.items]
  have hNothing :
      (Phase.charging db id items).taken t.after.store name
        productId = 0 := by
    simp only [Phase.taken]
    split
    · rename_i hDb
      rw [hItems, hDb, Int.sub_self]
    · rfl
  rw [hStock, hLedger.balance initial hInitial, hSold,
    takenQuantity_resume hLines hPhase hMoves hExec,
    hNothing]
  simp only [Phase.taken, Int.sub_zero, Int.add_zero]

/- A deduction moves a line from the stock to what is taken. -/
theorem LedgerInv.balance_of_deduct
    {initial : Int}
    {db id : String}
    {item : OrderItem}
    {rest : List OrderItem}
    {product : Product}
    (hCharging : phase = .charging db id (item :: rest))
    (hMoves :
      phase.Moves
        (.tenant db
          (.productDecrementStock item.productId
            item.quantity.val))
        (.ok product) (.charging db id rest))
    (hExec :
      (StoreOp.tenant db
        (.productDecrementStock item.productId
          item.quantity.val)).exec choice t.before.store =
        (.ok product, t.after.store))
    (hInitial :
      initialStock? start name productId history =
        some initial) :
    t.after.store.stock? name productId =
      some
        (initial -
          soldQuantity name productId (t :: history)
            t.after.store -
          takenQuantity name productId t.after.store
            (phases.set index (.charging db id rest))) := by
  subst hCharging
  have hSold :
      soldQuantity name productId (t :: history)
          t.after.store =
        soldQuantity name productId history
          t.before.store := by
    apply soldQuantity_same hLines hPhase hMoves hExec
    intro id' _ h
    cases h
  rw [StoreOp.exec_decrement_stock hExec name productId,
    hSold, takenQuantity_resume hLines hPhase hMoves hExec]
  simp only [Phase.taken]
  have hBalance := hLedger.balance initial hInitial
  by_cases hDb : db = name
  · subst hDb
    rw [if_pos rfl, if_pos rfl, quantityOf_cons]
    by_cases hProduct : item.productId = productId
    · subst hProduct
      rw [if_pos ⟨rfl, rfl⟩, if_pos rfl, hBalance,
        Option.map_some]
      congr 1
      omega
    · rw [if_neg (fun h => hProduct h.2.symm),
        if_neg hProduct, hBalance]
      congr 1
      omega
  · rw [if_neg (fun h => hDb h.1.symm), if_neg hDb,
      if_neg hDb, hBalance, Int.sub_zero, Int.add_zero]

/- The last write moves the order from taken to sold. -/
theorem LedgerInv.balance_of_markPaid
    {initial : Int}
    {db id : String}
    {view : OrderView}
    (hCharging : phase = .charging db id [])
    (hMoves :
      phase.Moves
        (.tenant db
          (.orderUpdate id (OrderService.setStatus .PAID)))
        (.ok view) .quiet)
    (hExec :
      (StoreOp.tenant db
        (.orderUpdate id
          (OrderService.setStatus .PAID))).exec choice
            t.before.store =
        (.ok view, t.after.store))
    (hInitial :
      initialStock? start name productId history =
        some initial) :
    t.after.store.stock? name productId =
      some
        (initial -
          soldQuantity name productId (t :: history)
            t.after.store -
          takenQuantity name productId t.after.store
            (phases.set index .quiet)) := by
  have hHere := List.mem_of_getElem? hPhase
  have hStock :=
    StoreOp.exec_stock_frame hExec
      (by simp [TenantOp.writes]) name productId
  rw [hStock, hLedger.balance initial hInitial,
    takenQuantity_resume hLines hPhase hMoves hExec]
  by_cases hDb : db = name
  · subst hDb
    have hCharges : phase.charges? = some (db, id) := by
      rw [hCharging]
      rfl
    have hFirst := hLedger.unpaid phase hHere db id hCharges
    have hPaid : wasPaid db id (t :: history) :=
      wasPaid_cons.mpr
        (Or.inl (StoreOp.exec_setStatus hExec rfl))
    have hItems :=
      items_of_sealed hLines hPhase hMoves hExec
        (hLines.charged phase hHere db id hCharges)
    rw [soldQuantity_paid hLines hPhase hMoves hExec
      hCharging hFirst hPaid, hCharging]
    simp only [Phase.taken, if_true, hItems]
    have hNil : quantityOf productId [] = 0 := rfl
    rw [hNil]
    congr 1
    omega
  · have hSold :
        soldQuantity name productId (t :: history)
            t.after.store =
          soldQuantity name productId history
            t.before.store := by
      apply soldQuantity_same hLines hPhase hMoves hExec
      intro id' hOther
      rw [hCharging] at hOther
      cases hOther
      exact (hDb rfl).elim
    rw [hSold, hCharging]
    simp only [Phase.taken, hDb, if_false, Int.sub_zero,
      Int.add_zero]

/- The balance after a call, for a product that was there. -/
theorem LedgerInv.balance_resume
    {initial : Int}
    (hMoves : phase.Moves op answer phase')
    (hExec :
      op.exec choice t.before.store =
        (answer, t.after.store))
    (hOk : ∀ error, answer ≠ .error error)
    (hEdit : op.edits name productId = false)
    (hInitial :
      initialStock? start name productId history =
        some initial) :
    t.after.store.stock? name productId =
      some
        (initial -
          soldQuantity name productId (t :: history)
            t.after.store -
          takenQuantity name productId t.after.store
            (phases.set index phase')) := by
  have hOther :
      phase.charges? = none → phase'.charges? = none →
        t.after.store.stock? name productId =
          some
            (initial -
              soldQuantity name productId (t :: history)
                t.after.store -
              takenQuantity name productId t.after.store
                (phases.set index phase')) :=
    fun hNone hNone' =>
      hLedger.balance_of_not_charging hLines hPhase hMoves
        hExec hOk hEdit hNone hNone' hInitial
  have hMoves' := hMoves
  cases hMoves with
  | read hFinal hRead =>
      have hNone := Phase.charges?_of_final hFinal
      exact hOther hNone hNone
  | failed hOp => exact (hOk _ rfl).elim
  | charge hUser hStatus =>
      exact
        hLedger.balance_of_charge hLines hPhase rfl hMoves'
          hExec hInitial
  | deduct =>
      exact
        hLedger.balance_of_deduct hLines hPhase rfl hMoves'
          hExec hInitial
  | markPaid =>
      exact
        hLedger.balance_of_markPaid hLines hPhase rfl
          hMoves' hExec hInitial
  | _ => exact hOther rfl rfl

end Resume

end OrderApi

------------------------------------------------------------
-- The Ledger over Runs
------------------------------------------------------------

namespace OrderApi

variable {databaseName : String → String}
variable {start : Backend} {name productId : String}
variable {history : List WorldStep} {t : WorldStep}
variable {phases : List Phase} {phase phase' : Phase}
variable {index : Nat} {job : Job} {op : StoreOp}
variable {choice : Choice}
variable {answer : Except ApiError op.Res}

/- The ledger of a fresh store. -/
theorem LedgerInv.idle
    (hFresh : start.Fresh) :
    LedgerInv start name productId [] start [] where
  alone := by simp
  unpaid := by simp
  settled := by simp [wasPaid]
  left := by simp
  unborn := by
    intro hNone
    exact ⟨hNone, by simp [hFresh.no_items]⟩
  balance := by
    intro initial hInitial
    have hSold :
        soldQuantity name productId [] start = 0 :=
      soldQuantity_eq_zero (by simp [hFresh.no_items])
    have hTaken :
        takenQuantity name productId start [] = 0 := rfl
    rw [hSold, hTaken, Int.sub_zero, Int.sub_zero]
    exact hInitial

/- Starting a job keeps the ledger. -/
theorem LedgerInv.start_job
    (hLines :
      LinesInv databaseName history t.before.store phases)
    (hLedger :
      LedgerInv start name productId history t.before.store
        phases)
    (hStore : t.after.store = t.before.store) :
    LedgerInv start name productId (t :: history)
      t.after.store
      (phases ++ [job.phase databaseName]) := by
  have hPaid :
      ∀ db id, wasPaid db id (t :: history) ↔
        wasPaid db id history := by
    intro db id
    constructor
    · intro hNow
      rcases wasPaid_cons.mp hNow with hStatus | hEarlier
      · rw [hStore] at hStatus
        exact hLines.paid_now db id hStatus
      · exact hEarlier
    · exact fun h => wasPaid_cons.mpr (Or.inr h)
  have hNone := job.phase_charges? databaseName
  have hOld :
      ∀ q ∈ phases ++ [job.phase databaseName],
        ∀ key, q.charges? = some key → q ∈ phases := by
    intro q hMem key hKey
    rcases List.mem_append.mp hMem with hOlder | hNew
    · exact hOlder
    · rw [List.mem_singleton.mp hNew, hNone] at hKey
      cases hKey
  have hInitial :
      initialStock? start name productId (t :: history) =
        initialStock? start name productId history := by
    simp only [initialStock?]
    split
    · rename_i stock hStock
      exact hStock.symm
    · rename_i hStock
      rw [hStore, hStock]
      exact (hLedger.unborn hStock).1
  rw [hStore]
  constructor
  · intro i j phase₁ phase₂ key hFirst hSecond hKey hKey'
    have hEarlier :
        ∀ (k : Nat) (q : Phase),
          (phases ++ [job.phase databaseName])[k]? =
              some q →
            q.charges? = some key → phases[k]? = some q := by
      intro k q hAt hCharges
      rcases Nat.lt_or_ge k phases.length with
        hLess | hMore
      · rwa [List.getElem?_append_left hLess] at hAt
      · have hLast : q = job.phase databaseName := by
          rw [List.getElem?_append_right hMore] at hAt
          simpa using List.mem_of_getElem? hAt
        rw [hLast, hNone] at hCharges
        cases hCharges
    exact
      hLedger.alone i j phase₁ phase₂ key
        (hEarlier i phase₁ hFirst hKey)
        (hEarlier j phase₂ hSecond hKey') hKey hKey'
  · intro q hMem db id hKey hNow
    exact
      hLedger.unpaid q (hOld q hMem _ hKey) db id hKey
        ((hPaid db id).mp hNow)
  · intro db id hNow
    exact hLedger.settled db id ((hPaid db id).mp hNow)
  · intro db id rest hMem
    exact hLedger.left db id rest (hOld _ hMem _ rfl)
  · intro hUnborn
    exact hLedger.unborn (by rwa [← hInitial])
  · intro initial hStock
    have hSold :
        soldQuantity name productId (t :: history)
            t.before.store =
          soldQuantity name productId history
            t.before.store := by
      unfold soldQuantity
      simp only [hPaid]
    have hTaken :
        takenQuantity name productId t.before.store
            (phases ++ [job.phase databaseName]) =
          takenQuantity name productId t.before.store
            phases := by
      unfold takenQuantity
      rw [List.map_append, List.sum_append, List.map_singleton,
        List.sum_singleton, Phase.taken_eq_zero hNone,
        Int.add_zero]
    rw [hSold, hTaken]
    exact hLedger.balance initial (by rwa [← hInitial])

/- The phase past the guard shows in its thread. -/
theorem amidPayment?_of_charges?
    {threads :
      List (Thread Job StoreOp StoreOp.Res ApiError)}
    {key : String × String}
    (hPhases :
      PoolSystem.InPhases (orderDiscipline databaseName)
        threads phases)
    (hPhase : phases[index]? = some phase)
    (hCharges : phase.charges? = some key) :
    ∃ thread ∈ threads,
      amidPayment? databaseName thread = some key := by
  cases phase with
  | charging db id rest =>
      cases hCharges
      rcases hPhases.inProgress hPhase (fun h => h) with
        ⟨job, op, resume, hThread, hOwns, hMoves⟩
      rcases hOwns with ⟨user, tenantCode, hDb, rfl⟩
      -- in this phase, even a failing call is a write
      have hWrite : op.isRead = false := by
        rcases hMoves (.error ⟨.store, ""⟩) with
          ⟨phase', hMove⟩
        cases hMove with
        | read hFinal hRead => exact hFinal.elim
        | failed hOp =>
            rcases hOp with hFinal | hWrite
            · exact hFinal.elim
            · exact hWrite
      refine ⟨_, List.mem_of_getElem? hThread, ?_⟩
      simp [amidPayment?, Program.nextOp?, hWrite, hDb]
  | _ => cases hCharges

/- A job that starts charging is alone on its order. -/
theorem charges_alone
    {resume :
      Except ApiError op.Res →
        Program StoreOp StoreOp.Res ApiError Unit}
    {key : String × String}
    (hPhases :
      PoolSystem.InPhases (orderDiscipline databaseName)
        t.before.threads phases)
    (hLabel : t.label = .resume index choice)
    (hThread :
      t.before.threads[index]? =
        some ⟨job, .call op resume⟩)
    (hOwns : Job.Owns databaseName job phase)
    (hMoves : phase.Moves op answer phase')
    (hExec :
      op.exec choice t.before.store =
        (answer, t.after.store))
    (hAlone : ChargesAlone databaseName t)
    (hCharges : phase'.charges? = some key)
    (hNew : phase.charges? ≠ some key)
    {i : Nat}
    {q : Phase}
    (hAt : phases[i]? = some q) :
    q.charges? ≠ some key := by
  intro hKey
  rcases amidPayment?_of_charges? hPhases hAt hKey with
    ⟨thread, hMem, hAmid⟩
  refine hAlone key ?_ thread hMem hAmid
  cases hMoves with
  | read hFinal hRead => exact (hNew hCharges).elim
  | deduct => exact (hNew hCharges).elim
  | charge hUser hStatus =>
      cases hCharges
      rcases hOwns with
        ⟨user, tenantCode, hDb, hUserId, rfl⟩
      rcases StoreOp.exec_orderFindUniqueWithItems hExec with
        ⟨⟨tick, rfl⟩, hOrder, _⟩
      subst hDb
      subst hUserId
      simp [guardPassed?, hLabel, hThread, StoreOp.isRead,
        TenantOp.writes, hOrder, hUser, hStatus]
  | _ => cases hCharges

end OrderApi

------------------------------------------------------------
-- A Call Keeps the Ledger
------------------------------------------------------------

namespace OrderApi

variable {databaseName : String → String}
variable {start : Backend} {name productId : String}
variable {history : List WorldStep} {t : WorldStep}
variable {phases : List Phase} {phase phase' : Phase}
variable {index : Nat} {op : StoreOp} {choice : Choice}
variable {answer : Except ApiError op.Res}

/- A line is only written for a product that exists. -/
theorem no_lines_of_exec
    {store store' : Backend}
    (hExec : op.exec choice store = (answer, store'))
    (hStock : store.stock? name productId = none)
    (hNoLines :
      ∀ id, ∀ item ∈ store.items name id,
        item.productId ≠ productId) :
    ∀ id, ∀ item ∈ store'.items name id,
      item.productId ≠ productId := by
  intro id item hMem
  rcases StoreOp.exec_items_cases hExec name id with
    hSame |
      ⟨_, _, _, added, _, _, rfl, _, _, hExists, hItems⟩ |
      ⟨itemId, _, _, column, _, _, _, _, _, hItems⟩
  · rw [hSame] at hMem
    exact hNoLines id item hMem
  · rw [hItems] at hMem
    rcases List.mem_append.mp hMem with hOld | hNew
    · exact hNoLines id item hOld
    · rw [List.mem_singleton.mp hNew]
      rintro rfl
      exact hExists hStock
  · rw [hItems] at hMem
    rcases List.mem_map.mp hMem with ⟨row, hRow, rfl⟩
    have hOther := hNoLines id row hRow
    split
    · exact hOther
    · exact hOther

section Resume

variable
  (hLines :
    LinesInv databaseName history t.before.store phases)
  (hLedger :
    LedgerInv start name productId history t.before.store
      phases)
  (hPhase : phases[index]? = some phase)
  (hMoves : phase.Moves op answer phase')
  (hExec :
    op.exec choice t.before.store =
      (answer, t.after.store))

include hLedger hPhase in
/- Still, no two jobs charge one order. -/
theorem LedgerInv.alone_resume
    (hAlone :
      ∀ key, phase'.charges? = some key →
        phase.charges? ≠ some key →
        ∀ (i : Nat) (q : Phase), phases[i]? = some q →
          q.charges? ≠ some key) :
    ∀ (i j : Nat) (phase₁ phase₂ : Phase)
        (key : String × String),
      (phases.set index phase')[i]? = some phase₁ →
        (phases.set index phase')[j]? = some phase₂ →
        phase₁.charges? = some key →
        phase₂.charges? = some key → i = j := by
  intro i j phase₁ phase₂ key hFirst hSecond hKey hKey'
  have hOther :
      ∀ (k : Nat) (q : Phase), k ≠ index →
        phases[k]? = some q → q.charges? = some key →
        phase'.charges? ≠ some key := by
    intro k q hIndex hAt hCharges hNew
    by_cases hBefore : phase.charges? = some key
    · exact
        hIndex
          (hLedger.alone k index q phase key hAt hPhase
            hCharges hBefore)
    · exact hAlone key hNew hBefore k q hAt hCharges
  rcases getElem?_set_cases hFirst with
    ⟨rfl, rfl⟩ | ⟨hIndex, hAt⟩
  · rcases getElem?_set_cases hSecond with
      ⟨rfl, _⟩ | ⟨hIndex', hAt'⟩
    · rfl
    · exact (hOther j phase₂ hIndex' hAt' hKey' hKey).elim
  · rcases getElem?_set_cases hSecond with
      ⟨rfl, rfl⟩ | ⟨_, hAt'⟩
    · exact (hOther i phase₁ hIndex hAt hKey hKey').elim
    · exact
        hLedger.alone i j phase₁ phase₂ key hAt hAt' hKey
          hKey'

include hLines hLedger hPhase hMoves hExec

/- Still, no order is charged that was paid. -/
theorem LedgerInv.unpaid_resume :
    ∀ q ∈ phases.set index phase', ∀ db id,
      q.charges? = some (db, id) →
        ¬ wasPaid db id (t :: history) := by
  intro q hMem db id hCharges hPaid
  have hHere := List.mem_of_getElem? hPhase
  rcases List.mem_iff_getElem?.mp hMem with ⟨i, hAt⟩
  rcases wasPaid_resume hLines hPhase hMoves hExec hPaid with
    hEarlier | ⟨rfl, rfl⟩
  · rcases getElem?_set_cases hAt with
      ⟨_, rfl⟩ | ⟨_, hAt'⟩
    · rcases hMoves.charges?_cases hExec hCharges with
        hBefore | hWaiting
      · exact
          hLedger.unpaid phase hHere db id hBefore hEarlier
      · rcases hLedger.settled db id hEarlier with
          hNow | hNow
        · rw [hWaiting] at hNow
          cases hNow
        · rw [hWaiting] at hNow
          cases hNow
    · exact
        hLedger.unpaid q (List.mem_of_getElem? hAt') db id
          hCharges hEarlier
  · rcases getElem?_set_cases hAt with
      ⟨_, rfl⟩ | ⟨hIndex, hAt'⟩
    · cases hCharges
    · exact
        hIndex
          (hLedger.alone i index q _ (db, id) hAt' hPhase
            hCharges rfl)

omit hLines hPhase in
/- Still, what was paid is PAID or COMPLETE. -/
theorem LedgerInv.settled_resume
    (hCall : t.call? = some (op, choice))
    (hKeeps : KeepsPaid t) :
    ∀ db id, wasPaid db id (t :: history) →
      t.after.store.status? db id = some .PAID ∨
        t.after.store.status? db id = some .COMPLETE := by
  intro db id hPaid
  rcases wasPaid_cons.mp hPaid with hNow | hEarlier
  · exact Or.inl hNow
  · have hBefore := hLedger.settled db id hEarlier
    rcases hMoves.status_cases hExec db id with
      hSame | ⟨hNone, _⟩ |
        ⟨paymentId, tick, old, _, rfl, rfl, _, _⟩ |
        ⟨_, _, _, _, _, _, hNew⟩ |
        ⟨_, _, _, _, _, _, _, hNew⟩
    · rwa [hSame]
    · rw [hNone] at hBefore
      simp at hBefore
    · have hWrite :
          statusWrite? t =
            some ⟨db, id, .WAITING_FOR_PAYMENT⟩ := by
        rw [statusWrite?, hCall]
        rfl
      have hUnpaid := hKeeps _ hWrite rfl
      simp only [List.mem_cons, List.not_mem_nil,
        or_false] at hUnpaid
      exact (hUnpaid hBefore).elim
    · exact Or.inl hNew
    · exact Or.inr hNew

/- Still, what is left to charge are lines of the order. -/
theorem LedgerInv.left_resume :
    ∀ db id rest,
      Phase.charging db id rest ∈ phases.set index phase' →
        rest <:+ t.after.store.items db id := by
  intro db id rest hMem
  have hHere := List.mem_of_getElem? hPhase
  have hSame :
      Sealed t.before.store phases db id →
        t.after.store.items db id =
          t.before.store.items db id :=
    fun hSealed =>
      items_of_sealed hLines hPhase hMoves hExec hSealed
  rcases mem_phases_set hMem with hNew | hOld
  · subst hNew
    cases hMoves with
    | read hFinal hRead => exact hFinal.elim
    | charge hUser hStatus =>
        rcases StoreOp.exec_orderFindUniqueWithItems hExec
          with ⟨_, hOrder, hItems⟩
        have hWaiting :
            t.before.store.status? db id =
              some .WAITING_FOR_PAYMENT := by
          rw [Backend.status?, hOrder, Option.map_some,
            hStatus]
        rw [hSame (hLines.waiting db id hWaiting), ← hItems]
    | deduct =>
        have hSuffix := hLedger.left db id _ hHere
        rw [hSame (hLines.charged _ hHere db id rfl)]
        exact (List.suffix_cons _ _).trans hSuffix
  · rw [hSame (hLines.charged _ hOld db id rfl)]
    exact hLedger.left db id rest hOld

/- An allowed call keeps the ledger. -/
theorem LedgerInv.resume
    (hCall : t.call? = some (op, choice))
    (hOk : ∀ error, answer ≠ .error error)
    (hEdit : op.edits name productId = false)
    (hKeeps : KeepsPaid t)
    (hAlone :
      ∀ key, phase'.charges? = some key →
        phase.charges? ≠ some key →
        ∀ (i : Nat) (q : Phase), phases[i]? = some q →
          q.charges? ≠ some key) :
    LedgerInv start name productId (t :: history)
      t.after.store (phases.set index phase') where
  alone := hLedger.alone_resume hPhase hAlone
  unpaid := hLedger.unpaid_resume hLines hPhase hMoves hExec
  settled :=
    hLedger.settled_resume hMoves hExec hCall hKeeps
  left := hLedger.left_resume hLines hPhase hMoves hExec
  unborn := by
    intro hUnborn
    simp only [initialStock?] at hUnborn
    split at hUnborn
    · cases hUnborn
    · rename_i hEarlier
      rcases hLedger.unborn hEarlier with
        ⟨hStock, hNoLines⟩
      exact ⟨hUnborn, no_lines_of_exec hExec hStock hNoLines⟩
  balance := by
    intro initial hInitial
    cases hEarlier :
        initialStock? start name productId history with
    | some stock =>
        simp only [initialStock?, hEarlier,
          Option.some.injEq] at hInitial
        subst hInitial
        exact
          hLedger.balance_resume hLines hPhase hMoves hExec
            hOk hEdit hEarlier
    | none =>
        -- the product comes to be, without any line
        simp only [initialStock?, hEarlier] at hInitial
        rcases hLedger.unborn hEarlier with
          ⟨hStock, hNoLines⟩
        have hItems :=
          no_lines_of_exec hExec hStock hNoLines
        have hSold :
            soldQuantity name productId (t :: history)
              t.after.store = 0 :=
          soldQuantity_eq_zero hItems
        have hTaken :
            takenQuantity name productId t.after.store
              (phases.set index phase') = 0 :=
          takenQuantity_eq_zero hItems
            (hLedger.left_resume hLines hPhase hMoves hExec)
        rw [hInitial, hSold, hTaken, Int.sub_zero,
          Int.sub_zero]

end Resume

end OrderApi

------------------------------------------------------------
-- Stock of Paid Orders
------------------------------------------------------------

namespace OrderApi

variable {databaseName : String → String}
variable {start : Backend} {name productId : String}
variable {history : List WorldStep} {world : World}

/-
  What keeps an order from being charged twice: its payments
  do not overlap past the guard, and once it was PAID it is
  not made to wait again.
-/
structure ChargesOnce
    (databaseName : String → String)
    (t : WorldStep) : Prop where
  alone : ChargesAlone databaseName t
  keeps : KeepsPaid t

instance (t : WorldStep) : Decidable (Fails t) :=
  inferInstanceAs (Decidable (∃ call ∈ t.call?, _))

instance
    (name productId : String)
    (t : WorldStep) :
    Decidable (Edits name productId t) :=
  inferInstanceAs (Decidable (∃ call ∈ t.call?, _))

instance
    (databaseName : String → String)
    (t : WorldStep) :
    Decidable (ChargesAlone databaseName t) :=
  inferInstanceAs
    (Decidable
      (∀ order ∈ guardPassed? databaseName t,
        ∀ thread ∈ t.before.threads, _))

instance (t : WorldStep) : Decidable (KeepsPaid t) :=
  inferInstanceAs (Decidable (∀ w ∈ statusWrite? t, _))

instance
    (databaseName : String → String)
    (t : WorldStep) :
    Decidable (ChargesOnce databaseName t) :=
  decidable_of_iff
    (ChargesAlone databaseName t ∧ KeepsPaid t)
    ⟨fun h => ⟨h.1, h.2⟩, fun h => ⟨h.alone, h.keeps⟩⟩

/- A `paymentReceived` request. -/
def Job.isPayment : Job → Bool
  | .paymentReceived _ _ _ => true
  | _ => false

/- The ledger is kept by every run of such steps. -/
theorem ledger_of_run
    (hFresh : start.Fresh)
    (hRun : OrderRun databaseName start history world)
    (hAnswered : ∀ t ∈ history, ¬ Fails t)
    (hUnedited : ∀ t ∈ history, ¬ Edits name productId t)
    (hOnce : ∀ t ∈ history, ChargesOnce databaseName t) :
    ∃ phases,
      PoolSystem.InPhases (orderDiscipline databaseName)
          world.threads phases ∧
        LinesInv databaseName history world.store phases ∧
        LedgerInv start name productId history world.store
          phases := by
  refine
    PoolSystem.run_invariant
      (orderSystem_obeys databaseName)
      (fun t =>
        ¬ Fails t ∧ ¬ Edits name productId t ∧
          ChargesOnce databaseName t)
      (fun history world phases =>
        LinesInv databaseName history world.store phases ∧
          LedgerInv start name productId history world.store
            phases)
      ?_ ?_ ?_ hRun
      (fun t ht =>
        ⟨hAnswered t ht, hUnedited t ht, hOnce t ht⟩)
  · exact ⟨LinesInv.idle hFresh, LedgerInv.idle hFresh⟩
  · rintro history pool phases job ⟨hLines, hLedger⟩ _
      hReady pool' _
    let t : WorldStep := ⟨pool, .start job, pool'⟩
    exact
      ⟨LinesInv.start_job (t := t) hLines hReady rfl,
        LedgerInv.start_job (t := t) hLines hLedger rfl⟩
  · rintro history pool phases index choice job op resume
      phase phase' ⟨hLines, hLedger⟩ hPhases hThread hPhase
      hOwns hMoves answer pool'
      ⟨hStepOk, hStepUnedited, hStepOnce⟩
    let t : WorldStep := ⟨pool, .resume index choice, pool'⟩
    have hCall : t.call? = some (op, choice) :=
      Transition.call?_resume hThread
    have hExec :
        op.exec choice t.before.store =
          (answer.1, t.after.store) := rfl
    have hOk : ∀ error, answer.1 ≠ .error error := by
      intro error hError
      apply hStepOk
      refine ⟨(op, choice), hCall, ?_⟩
      have hFailed :
          (op.exec choice t.before.store).1 = .error error :=
        hError
      rw [hFailed]
      rfl
    have hEdit : op.edits name productId = false := by
      rw [← Bool.not_eq_true]
      intro hEdits
      exact hStepUnedited ⟨(op, choice), hCall, hEdits⟩
    refine
      ⟨hLines.resume hPhase hOwns hMoves hExec,
        hLedger.resume hLines hPhase hMoves hExec hCall hOk
          hEdit hStepOnce.keeps ?_⟩
    intro key hCharges hNew i q hAt
    exact
      charges_alone hPhases rfl hThread hOwns hMoves hExec
        hStepOnce.alone hCharges hNew hAt

/- The stock is what is left by the orders that were paid. -/
theorem stock_of_paid_orders
    (hFresh : start.Fresh)
    (hRun : OrderRun databaseName start history world)
    (hAnswered : ∀ t ∈ history, ¬ Fails t)
    (hUnedited : ∀ t ∈ history, ¬ Edits name productId t)
    (hOnce : ∀ t ∈ history, ChargesOnce databaseName t)
    (hIdle :
      ∀ thread ∈ world.threads,
        thread.job.isPayment = true →
          thread.program.inProgress = false)
    {initial : Int}
    (hInitial :
      initialStock? start name productId history =
        some initial) :
    world.store.stock? name productId =
      some
        (initial -
          soldQuantity name productId history
            world.store) := by
  rcases
      ledger_of_run hFresh hRun hAnswered hUnedited hOnce
    with
    ⟨phases, hPhases, _, hLedger⟩
  have hNothing :
      takenQuantity name productId world.store phases = 0 := by
    unfold takenQuantity
    apply List.sum_eq_zero
    intro quantity hMem
    rcases List.mem_map.mp hMem with ⟨phase, hPhase, rfl⟩
    apply Phase.taken_eq_zero
    cases phase with
    | charging db id rest =>
        rcases List.mem_iff_getElem?.mp hPhase with
          ⟨index, hAt⟩
        rcases hPhases.inProgress hAt (fun h => h) with
          ⟨job, op, resume, hThread, hOwns, _⟩
        rcases hOwns with ⟨user, tenantCode, _, rfl⟩
        have hDone :=
          hIdle _ (List.mem_of_getElem? hThread) rfl
        cases hDone
    | _ => rfl
  have hBalance := hLedger.balance initial hInitial
  rwa [hNothing, Int.sub_zero] at hBalance

/- A run of the shop with one payment of one order. -/
theorem stock_of_paid_orders_of_shop :
    ∃ history world,
      OrderRun Shop.databaseName Shop.store history world ∧
        soldQuantity "tenant_t1" "mug" history world.store =
          2 ∧
        world.store.stock? "tenant_t1" "mug" =
          some
            (5 -
              soldQuantity "tenant_t1" "mug" history
                world.store) := by
  rcases
      Shop.exists_run
        (Shop.orderMugs 0 "o" "l" 2 (by decide) ++
          Shop.process 1 "o" ++ Shop.pay 2 "o")
        (fun history world =>
          decide
            (initialStock? Shop.store "tenant_t1" "mug"
                history = some 5 ∧
              soldQuantity "tenant_t1" "mug" history
                world.store = 2 ∧
              (∀ t ∈ history,
                ¬ Fails t ∧ ¬ Edits "tenant_t1" "mug" t ∧
                  ChargesOnce Shop.databaseName t) ∧
              ∀ thread ∈ world.threads,
                thread.job.isPayment = true →
                  thread.program.inProgress = false))
        (by decide +kernel) with
    ⟨history, world, hRun, hCheck⟩
  rcases of_decide_eq_true hCheck with
    ⟨hInitial, hSold, hSteps, hIdle⟩
  exact
    ⟨history, world, hRun, hSold,
      stock_of_paid_orders Shop.store_fresh hRun
        (fun t ht => (hSteps t ht).1)
        (fun t ht => (hSteps t ht).2.1)
        (fun t ht => (hSteps t ht).2.2) hIdle hInitial⟩

/- Two payments of one order that overlap charge it twice. -/
theorem not_stock_of_paid_orders :
    ¬ ∀ (databaseName : String → String) (start : Backend)
        (history : List WorldStep) (world : World)
        (name productId : String) (initial : Int),
      start.Fresh →
      OrderRun databaseName start history world →
      (∀ t ∈ history, ¬ Fails t) →
      (∀ t ∈ history, ¬ Edits name productId t) →
      (∀ thread ∈ world.threads,
        thread.job.isPayment = true →
          thread.program.inProgress = false) →
      initialStock? start name productId history =
        some initial →
      world.store.stock? name productId =
        some
          (initial -
            soldQuantity name productId history
              world.store) := by
  intro hClaim
  rcases
      Shop.exists_run
        (Shop.orderMugs 0 "o" "l" 2 (by decide) ++
          Shop.process 1 "o" ++
          [.start (.paymentReceived Shop.alice "t1" "o"),
            .start (.paymentReceived Shop.alice "t1" "o"),
            Shop.go 2 "", Shop.go 3 ""] ++
          Shop.goOn 2 2 ++ Shop.goOn 3 2)
        (fun history world =>
          decide
            (initialStock? Shop.store "tenant_t1" "mug"
                history = some 5 ∧
              soldQuantity "tenant_t1" "mug" history
                world.store = 2 ∧
              world.store.stock? "tenant_t1" "mug" =
                some 1 ∧
              (∀ t ∈ history,
                ¬ Fails t ∧ ¬ Edits "tenant_t1" "mug" t) ∧
              ∀ thread ∈ world.threads,
                thread.job.isPayment = true →
                  thread.program.inProgress = false))
        (by decide +kernel) with
    ⟨history, world, hRun, hCheck⟩
  rcases of_decide_eq_true hCheck with
    ⟨hInitial, hSold, hStock, hSteps, hIdle⟩
  have hBalance :=
    hClaim Shop.databaseName Shop.store history world
      "tenant_t1" "mug" 5 Shop.store_fresh hRun
      (fun t ht => (hSteps t ht).1)
      (fun t ht => (hSteps t ht).2) hIdle hInitial
  rw [hSold, hStock] at hBalance
  exact absurd hBalance (by decide)

end OrderApi
