import OrderApi.Core.Completion
import OrderApi.System.StockLedger

/-
  What a payment that throws leaves behind.

  A payment updates one product for each line of the order,
  and the order last.  When one of these calls fails, the
  updates before it stay: a payment that throws leaves the
  store as it was exactly if those add up to nothing.

  Key definitions include:
    * `Payment.Payable`
    * `Payment.Deductible`
    * `Payment.AllOrNothing`
    * `Payment.FailsBeforeTaking`

  Key theorems include:
    * `Payment.paymentReceived_succeedsIff`
    * `Payment.allOrNothing_iff`
-/

------------------------------------------------------------
-- Calls on a Tenant Database
------------------------------------------------------------

namespace OrderApi

/- The call is answered, by a database that exists. -/
def Answers
    (choice : Choice)
    (store : Backend)
    (name : String) : Prop :=
  (∃ tick, choice = .answer tick) ∧ store.dbs name ≠ none

section Prisma

variable {choices : Nat → Choice} {store : Backend}
variable {name : String} {Good : Prop}
variable {Stop : Backend → Prop}

/- A call that is carried out exactly if `Good` holds. -/
theorem prisma_succeedsIff
    (op : TenantOp)
    {Post : op.Res → (Nat → Choice) → Backend → Prop}
    (hExec :
      (Good ∧
        ∃ value store',
          execAlone (choices 0) (.tenant name op) store =
              (.ok value, store') ∧
            Post value (fun n => choices (n + 1)) store') ∨
      (¬ Good ∧
        ∃ error,
          execAlone (choices 0) (.tenant name op) store =
            (.error error, store)))
    (hStop : ¬ Good → Stop store) :
    Program.SucceedsIff execAlone Good Post Stop
      (prisma name op) choices store := by
  apply Program.succeedsIff_perform (StoreOp.tenant name op)
  rcases hExec with hOk | ⟨hBad, error, hError⟩
  · exact Or.inl hOk
  · exact Or.inr ⟨hBad, error, store, hError, hStop hBad⟩

/- A call that only reads is carried out if it is answered. -/
theorem prisma_read_succeedsIff
    (op : TenantOp)
    {value : op.Res}
    (hRead :
      ∀ tick db,
        store.dbs name = some db →
          op.exec tick db = .ok (value, db))
    (hStop : ¬ Answers (choices 0) store name → Stop store) :
    Program.SucceedsIff execAlone
      (Answers (choices 0) store name)
      (fun value' rest store' =>
        value' = value ∧
          rest = (fun n => choices (n + 1)) ∧
          store' = store)
      Stop (prisma name op) choices store := by
  refine prisma_succeedsIff op ?_ hStop
  rcases
      StoreOp.exec_tenant_cases (choices 0) name op store with
    ⟨error, hError⟩ |
      ⟨tick, db, db', result, hTick, hDb, hRun, hOk⟩
  · refine Or.inr ⟨?_, error, hError⟩
    rintro ⟨⟨tick, hTick⟩, hSome⟩
    rcases Option.ne_none_iff_exists'.mp hSome with
      ⟨db, hDb⟩
    rw [hTick] at hError
    simp [StoreOp.exec, hDb, hRead tick db hDb] at hError
  · have hSame := hRead tick db hDb
    rw [hRun] at hSame
    cases hSame
    have hExists : store.dbs name ≠ none := by
      rw [hDb]
      exact Option.some_ne_none db
    rw [Backend.put_self hDb] at hOk
    exact
      Or.inl
        ⟨⟨⟨tick, hTick⟩, hExists⟩, _, store, hOk, rfl, rfl,
          rfl⟩

end Prisma

end OrderApi

------------------------------------------------------------
-- Calls that Are Accepted
------------------------------------------------------------

namespace OrderApi

namespace Payment

/- An amount can be taken from the stock of a product. -/
def Fits
    (choice : Choice)
    (store : Backend)
    (name productId : String)
    (amount : Int) : Prop :=
  (∃ tick, choice = .answer tick) ∧
    ∃ stock,
      store.stock? name productId = some stock ∧
        -2147483648 ≤ stock - amount ∧
        stock - amount ≤ 2147483647

/- A decrement that fits is made, and no other one. -/
theorem exec_decrement_cases
    (choice : Choice)
    (store : Backend)
    (name productId : String)
    (amount : Int) :
    (Fits choice store name productId amount ∧
      ∃ product store',
        execAlone choice
            (.tenant name
              (.productDecrementStock productId amount))
            store = (.ok product, store')) ∨
    (¬ Fits choice store name productId amount ∧
      ∃ error,
        execAlone choice
            (.tenant name
              (.productDecrementStock productId amount))
            store = (.error error, store)) := by
  rcases
      StoreOp.exec_tenant_cases choice name
        (.productDecrementStock productId amount) store with
    ⟨error, hError⟩ |
      ⟨tick, db, db', product, hChoice, hDb, hRun, hOk⟩
  · refine Or.inr ⟨?_, error, hError⟩
    rintro ⟨⟨tick, rfl⟩, stock, hStock, hLow, hHigh⟩
    cases hDb : store.dbs name with
    | none =>
        simp [Backend.stock?, Backend.product?, hDb] at hStock
    | some db =>
        rw [Backend.stock?_of_dbs hDb,
          Option.map_eq_some_iff] at hStock
        rcases hStock with ⟨product, hFind, rfl⟩
        simp [StoreOp.exec, TenantOp.exec, hDb, hFind,
          Bounded.ofInt?, hLow, hHigh] at hError
  · refine Or.inl ⟨?_, product, _, hOk⟩
    rcases TenantOp.exec_productDecrementStock hRun with
      ⟨old, stock, hFind, hStock, _⟩
    have hOld :
        store.stock? name productId = some old.stock.val := by
      rw [Backend.stock?_of_dbs hDb, hFind]
      rfl
    refine ⟨⟨tick, hChoice⟩, old.stock.val, hOld, ?_, ?_⟩
    · rw [← hStock]
      exact stock.low_le
    · rw [← hStock]
      exact stock.le_high

/- The status of an order that is found can be written. -/
theorem exec_setStatus_answered
    {store : Backend}
    {name id : String}
    {order : Order}
    (hOrder : store.order? name id = some order)
    (status : OrderStatus)
    (tick : Tick) :
    ∃ view store',
      execAlone (.answer tick)
          (.tenant name
            (.orderUpdate id
              (OrderService.setStatus status))) store =
        (.ok view, store') := by
  cases hDb : store.dbs name with
  | none => simp [Backend.order?, hDb] at hOrder
  | some db =>
      rw [Backend.order?_of_dbs hDb] at hOrder
      simp only [execAlone, StoreOp.exec, TenantOp.exec, hDb,
        hOrder, OrderService.setStatus, columnValue]
      exact ⟨_, _, rfl⟩

end Payment

end OrderApi

------------------------------------------------------------
-- Stocks amid a Payment
------------------------------------------------------------

namespace OrderApi

namespace Payment

/- The updates of some lines' products, and nothing else. -/
structure Deducted
    (name : String)
    (lines : List OrderItem)
    (before after : Backend) : Prop where
  stock :
    ∀ name' productId,
      after.stock? name' productId =
        if name' = name then
          (before.stock? name productId).map fun stock =>
            stock - quantityOf productId lines
        else before.stock? name' productId
  order :
    ∀ name' id, after.order? name' id = before.order? name' id

variable {choice : Choice} {name : String}
variable {store store' store'' : Backend}
variable {lines : List OrderItem} {item : OrderItem}

theorem Deducted.none : Deducted name [] store store where
  stock := by
    intro name' productId
    by_cases hName : name' = name
    · subst hName
      simp [quantityOf]
    · rw [if_neg hName]
  order := fun _ _ => rfl

theorem quantityOf_append
    (productId : String)
    (lines : List OrderItem)
    (item : OrderItem) :
    quantityOf productId (lines ++ [item]) =
      quantityOf productId lines +
        if item.productId = productId then
          item.quantity.val else 0 := by
  unfold quantityOf
  by_cases hProduct : item.productId = productId
  · simp [hProduct]
  · simp [hProduct]

/- One more line is deducted. -/
theorem Deducted.next
    {product : Product}
    (hDeducted : Deducted name lines store store')
    (hExec :
      (StoreOp.tenant name
        (.productDecrementStock item.productId
          item.quantity.val)).exec choice store' =
            (.ok product, store'')) :
    Deducted name (lines ++ [item]) store store'' where
  stock := by
    intro name' productId
    rw [StoreOp.exec_decrement_stock hExec name' productId]
    rw [hDeducted.stock name' productId]
    by_cases hName : name' = name
    · subst hName
      rw [if_pos rfl, if_pos rfl, quantityOf_append]
      by_cases hProduct : productId = item.productId
      · subst hProduct
        rw [if_pos ⟨rfl, rfl⟩, if_pos rfl, hDeducted.stock,
          if_pos rfl, Option.map_map]
        congr 1
        funext stock
        simp only [Function.comp]
        omega
      · rw [if_neg (fun hBoth => hProduct hBoth.2),
          if_neg (Ne.symm hProduct), Int.add_zero]
    · rw [if_neg (fun hBoth => hName hBoth.1), if_neg hName,
        if_neg hName]
  order := by
    intro name' id
    rcases StoreOp.exec_tenant_ok hExec with
      ⟨tick, db, db', _, hDb, hRun, rfl⟩
    have hOrders :=
      (TenantOp.exec_frame hRun).1 (by simp [TenantOp.writes])
    rw [Backend.order?_put_frame hDb hOrders,
      hDeducted.order]

/- What fits amid the payment fitted together before it. -/
theorem Deducted.fits_iff
    (hDeducted : Deducted name lines store store') :
    Fits choice store' name item.productId
        item.quantity.val ↔
      Fits choice store name item.productId
        (quantityOf item.productId (lines ++ [item])) := by
  have hSum :
      quantityOf item.productId (lines ++ [item]) =
        quantityOf item.productId lines +
          item.quantity.val := by
    rw [quantityOf_append, if_pos rfl]
  have hStock := hDeducted.stock name item.productId
  rw [if_pos rfl] at hStock
  unfold Fits
  rw [hSum, hStock]
  cases store.stock? name item.productId with
  | none => simp
  | some stock =>
      simp only [Option.map_some, Option.some.injEq,
        exists_eq_left']
      have hLess :
          stock - quantityOf item.productId lines -
              item.quantity.val =
            stock -
              (quantityOf item.productId lines +
                item.quantity.val) := by
        omega
      rw [hLess]

end Payment

end OrderApi

------------------------------------------------------------
-- All the Ways a Payment Ends
------------------------------------------------------------

namespace OrderApi

namespace Payment

/- The order is found, is the caller's, and is waiting. -/
def Payable
    (choices : Nat → Choice)
    (store : Backend)
    (name orderId userId : String) : Prop :=
  (∃ tick, choices 0 = .answer tick) ∧
    ∃ order,
      store.order? name orderId = some order ∧
        order.userId = userId ∧
        order.status = .WAITING_FOR_PAYMENT

/- A line's update is made behind those of other lines. -/
def Deductible
    (choices : Nat → Choice)
    (store : Backend)
    (name : String)
    (before : List OrderItem)
    (item : OrderItem) : Prop :=
  Fits (choices (before.length + 1)) store name
    item.productId
    (quantityOf item.productId (before ++ [item]))

/- The status update behind all lines is answered. -/
def StatusAnswered
    (choices : Nat → Choice)
    (lines : List OrderItem) : Prop :=
  ∃ tick, choices (lines.length + 1) = .answer tick

/- What the environment makes of a payment that runs alone. -/
def outcomeOf
    (choices : Nat → Choice)
    (store : Backend)
    (name orderId userId tenantCode : String) :
    Except ApiError OrderView × Backend :=
  (OrderService.paymentReceived name orderId userId
    tenantCode).complete execAlone choices store

variable {choices : Nat → Choice} {store : Backend}
variable {name orderId userId tenantCode : String}

/- What a payment that throws has done. -/
def Left
    (choices : Nat → Choice)
    (store : Backend)
    (name orderId userId : String)
    (after : Backend) : Prop :=
  (¬ Payable choices store name orderId userId ∧
    after = store) ∨
  (Payable choices store name orderId userId ∧
    ∃ before item,
      StopsAt (Deductible choices store name)
          (store.items name orderId) before item ∧
        Deducted name before store after) ∨
  (Payable choices store name orderId userId ∧
    AcceptsAll (Deductible choices store name)
      (store.items name orderId) ∧
    ¬ StatusAnswered choices (store.items name orderId) ∧
    Deducted name (store.items name orderId) store after)

/- Where the loop over the lines is behind some of them. -/
structure Amid
    (choices : Nat → Choice)
    (store : Backend)
    (name : String)
    (before : List OrderItem)
    (rest : Nat → Choice)
    (after : Backend) : Prop where
  choices :
    rest = fun n => choices (n + (before.length + 1))
  deducted : Deducted name before store after

variable {rest : Nat → Choice} {store' : Backend}

/- One turn of the loop over the lines. -/
theorem Amid.turn
    {before : List OrderItem}
    {item : OrderItem}
    {Stop : Backend → Prop}
    (hAmid : Amid choices store name before rest store')
    (hStop :
      ¬ Deductible choices store name before item →
        Stop store') :
    Program.SucceedsIff execAlone
      (Deductible choices store name before item)
      (fun _ rest' store'' =>
        Amid choices store name (before ++ [item]) rest'
          store'')
      Stop
      (OrderService.deductStock name tenantCode item) rest
      store' := by
  have hFits :
      Fits (rest 0) store' name item.productId
          item.quantity.val ↔
        Deductible choices store name before item := by
    rw [hAmid.deducted.fits_iff, hAmid.choices, Deductible]
    simp only [Nat.zero_add]
  have hCall :
      Program.SucceedsIff execAlone
        (Deductible choices store name before item)
        (fun (_ : Product) rest' store'' =>
          Amid choices store name (before ++ [item]) rest'
            store'')
        Stop
        (prisma name
          (.productDecrementStock item.productId
            item.quantity.val))
        rest store' := by
    refine
      prisma_succeedsIff
        (.productDecrementStock item.productId
          item.quantity.val)
        ?_ hStop
    rw [← hFits]
    rcases
        exec_decrement_cases (rest 0) store' name
          item.productId item.quantity.val with
      ⟨hAccepted, product, store'', hExec⟩ |
        ⟨hRefused, error, hExec⟩
    · refine
        Or.inl
          ⟨hAccepted, product, store'', hExec, ?_,
            hAmid.deducted.next hExec⟩
      funext n
      have hCount :
          n + 1 + (before.length + 1) =
            n + ((before ++ [item]).length + 1) := by
        rw [List.length_append, List.length_singleton]
        omega
      rw [hAmid.choices]
      exact congrArg choices hCount
    · exact Or.inr ⟨hRefused, error, hExec⟩
  exact
    (hCall.attempt
      (mapMissingDatabase_throws tenantCode)).ignore
        fun _ _ _ hPost => hPost

/- The whole loop, from the lookup on. -/
theorem deductions_succeedsIff
    (hPayable : Payable choices store name orderId userId) :
    Program.SucceedsIff execAlone
      (AcceptsAll (Deductible choices store name)
        (store.items name orderId))
      (fun _ rest store' =>
        Amid choices store name (store.items name orderId)
          rest store')
      (Left choices store name orderId userId)
      (Program.forEach (store.items name orderId)
        (OrderService.deductStock name tenantCode))
      (fun n => choices (n + 1)) store := by
  apply Program.succeedsIff_forEach
  · intro before item after rest store' hItems hAll hAmid
    apply Amid.turn hAmid
    intro hRefused
    exact
      Or.inr (Or.inl
        ⟨hPayable, before, item,
          ⟨⟨after, hItems⟩, hAll, hRefused⟩, hAmid.deducted⟩)
  · exact ⟨rfl, Deducted.none⟩

/- The update of the status, behind all lines. -/
theorem markPaid_succeedsIff
    (hPayable : Payable choices store name orderId userId)
    (hAll :
      AcceptsAll (Deductible choices store name)
        (store.items name orderId))
    (hAmid :
      Amid choices store name (store.items name orderId) rest
        store') :
    Program.SucceedsIff execAlone
      (StatusAnswered choices (store.items name orderId))
      (fun _ _ _ => True)
      (Left choices store name orderId userId)
      (OrderService.markPaid name orderId tenantCode) rest
      store' := by
  have hChoice :
      rest 0 =
        choices ((store.items name orderId).length + 1) := by
    rw [hAmid.choices]
    simp only [Nat.zero_add]
  refine
    Program.SucceedsIff.attempt
      (prisma_succeedsIff
        (.orderUpdate orderId (OrderService.setStatus .PAID))
        ?_ ?_)
      (mapMissingDatabase_throws tenantCode)
  · unfold StatusAnswered
    rw [← hChoice]
    cases rest 0 with
    | failure message => exact Or.inr ⟨by simp, _, rfl⟩
    | answer tick =>
        rcases hPayable with ⟨_, order, hOrder, _⟩
        rw [← hAmid.deducted.order] at hOrder
        rcases exec_setStatus_answered hOrder .PAID tick with
          ⟨view, store'', hExec⟩
        exact
          Or.inl ⟨⟨tick, rfl⟩, view, store'', hExec, trivial⟩
  · intro hFails
    exact
      Or.inr (Or.inr
        ⟨hPayable, hAll, hFails, hAmid.deducted⟩)

/- The lookup finds the order and its lines. -/
theorem exec_findWithItems
    {db : TenantDb}
    (hDb : store.dbs name = some db)
    (orderId : String)
    (tick : Tick) :
    (TenantOp.orderFindUniqueWithItems orderId).exec tick db =
      .ok
        ((store.order? name orderId).map fun order =>
          (order, store.items name orderId), db) := by
  rw [Backend.order?_of_dbs hDb, Backend.items_of_dbs hDb]
  simp only [TenantOp.exec]
  cases hFind : db.orders.find? orderId with
  | none => rfl
  | some order =>
      have hId : order.id = orderId :=
        db.orders.key_of_find? hFind
      rw [Option.map_some, Option.map_some, hId]

/- A payment that is due is answered. -/
theorem payable_iff :
    Payable choices store name orderId userId ↔
      Answers (choices 0) store name ∧
        ∃ order,
          store.order? name orderId = some order ∧
            order.userId = userId ∧
            order.status = .WAITING_FOR_PAYMENT := by
  constructor
  · rintro ⟨hTick, order, hOrder, hDue⟩
    refine ⟨⟨hTick, ?_⟩, order, hOrder, hDue⟩
    intro hNone
    simp [Backend.order?, hNone] at hOrder
  · rintro ⟨⟨hTick, _⟩, hDue⟩
    exact ⟨hTick, hDue⟩

/-
  A payment returns exactly if it is due and all of its
  updates are made.
-/
theorem paymentReceived_succeedsIff
    (choices : Nat → Choice)
    (store : Backend)
    (name orderId userId tenantCode : String) :
    Program.SucceedsIff execAlone
      (Payable choices store name orderId userId ∧
        AcceptsAll (Deductible choices store name)
          (store.items name orderId) ∧
        StatusAnswered choices (store.items name orderId))
      (fun _ _ _ => True)
      (Left choices store name orderId userId)
      (OrderService.paymentReceived name orderId userId
        tenantCode)
      choices store := by
  have hNotDue :
      ¬ Payable choices store name orderId userId →
        Left choices store name orderId userId store :=
    fun hNot => Or.inl ⟨hNot, rfl⟩
  have hLookup :=
    prisma_read_succeedsIff
      (.orderFindUniqueWithItems orderId)
      (fun tick db hDb => exec_findWithItems hDb orderId tick)
      fun hNot =>
        hNotDue fun hPayable => hNot (payable_iff.mp hPayable).1
  rw [payable_iff, and_assoc]
  apply hLookup.bind_of_eq
  intro hAnswers
  cases hOrder : store.order? name orderId with
  | none =>
      have hNot :
          ¬ Payable choices store name orderId userId := by
        rintro ⟨_, order, hFound, _⟩
        rw [hOrder] at hFound
        cases hFound
      exact Program.succeedsIff_fail (by simp) (hNotDue hNot)
  | some order =>
      have hLeft :
          order.userId ≠ userId ∨
              order.status ≠ .WAITING_FOR_PAYMENT →
            Left choices store name orderId userId store := by
        intro hOther
        apply hNotDue
        rintro ⟨_, found, hFound, hUser, hStatus⟩
        rw [hOrder, Option.some.injEq] at hFound
        subst hFound
        exact
          hOther.elim (fun hNot => hNot hUser) fun hNot =>
            hNot hStatus
      have hGuards :
          (¬ order.userId ≠ userId ∧
            ¬ order.status ≠ .WAITING_FOR_PAYMENT ∧
            AcceptsAll (Deductible choices store name)
              (store.items name orderId) ∧
            StatusAnswered choices
              (store.items name orderId)) ↔
          ((∃ order',
            some order = some order' ∧
              order'.userId = userId ∧
              order'.status = .WAITING_FOR_PAYMENT) ∧
            AcceptsAll (Deductible choices store name)
              (store.items name orderId) ∧
            StatusAnswered choices
              (store.items name orderId)) := by
        simp [and_assoc]
      refine Program.SucceedsIff.congr ?_ hGuards
      refine
        Program.SucceedsIff.guard
          (fun hUser => hLeft (Or.inl hUser)) fun hUser => ?_
      refine
        Program.SucceedsIff.guard
          (fun hStatus => hLeft (Or.inr hStatus))
          fun hStatus => ?_
      have hPayable :
          Payable choices store name orderId userId :=
        ⟨hAnswers.1, order, hOrder, not_not.mp hUser,
          not_not.mp hStatus⟩
      exact
        (deductions_succeedsIff hPayable).bind
          fun _ rest store' hAll hAmid =>
            markPaid_succeedsIff hPayable hAll hAmid

end Payment

end OrderApi

------------------------------------------------------------
-- Payments that Are All or Nothing
------------------------------------------------------------

namespace OrderApi

namespace Payment

/- If a payment throws, it has changed no stock or order. -/
def AllOrNothing
    (store : Backend)
    (outcome : Except ApiError OrderView × Backend) : Prop :=
  (∃ error, outcome.1 = .error error) →
    (∀ name productId,
      outcome.2.stock? name productId =
        store.stock? name productId) ∧
    ∀ name id,
      outcome.2.order? name id = store.order? name id

/- No line of these is about any product, in sum. -/
def SumsToNothing (lines : List OrderItem) : Prop :=
  ∀ productId, quantityOf productId lines = 0

/-
  If the payment is due, the lines before the first update
  that is refused, of a product or the order's, add up to
  nothing.
-/
def FailsBeforeTaking
    (choices : Nat → Choice)
    (store : Backend)
    (name orderId userId : String) : Prop :=
  Payable choices store name orderId userId →
    (∀ before item,
      StopsAt (Deductible choices store name)
        (store.items name orderId) before item →
      SumsToNothing before) ∧
    (AcceptsAll (Deductible choices store name)
        (store.items name orderId) →
      ¬ StatusAnswered choices (store.items name orderId) →
      SumsToNothing (store.items name orderId))

variable {choices : Nat → Choice} {store store' : Backend}
variable {name orderId userId tenantCode : String}
variable {lines : List OrderItem}

/- Lines whose updates are made are of known products. -/
theorem quantityOf_eq_zero_of_unknown
    {productId : String}
    (hAll : AcceptsAll (Deductible choices store name) lines)
    (hUnknown : store.stock? name productId = none) :
    quantityOf productId lines = 0 := by
  apply quantityOf_eq_zero
  intro item hMem hProduct
  rcases List.append_of_mem hMem with ⟨before, after, hSplit⟩
  rcases hAll before item after hSplit with
    ⟨_, stock, hStock, _⟩
  rw [hProduct, hUnknown] at hStock
  cases hStock

/- Deducting lines changes nothing if they sum to nothing. -/
theorem Deducted.unchanged_iff
    (hAll : AcceptsAll (Deductible choices store name) lines)
    (hDeducted : Deducted name lines store store') :
    ((∀ name productId,
        store'.stock? name productId =
          store.stock? name productId) ∧
      ∀ name id,
        store'.order? name id = store.order? name id) ↔
      SumsToNothing lines := by
  constructor
  · rintro ⟨hStocks, _⟩ productId
    have hSame := hDeducted.stock name productId
    rw [if_pos rfl, hStocks] at hSame
    cases hStock : store.stock? name productId with
    | none => exact quantityOf_eq_zero_of_unknown hAll hStock
    | some stock =>
        rw [hStock, Option.map_some,
          Option.some.injEq] at hSame
        omega
  · intro hSum
    refine ⟨?_, hDeducted.order⟩
    intro name' productId
    rw [hDeducted.stock, hSum productId]
    by_cases hName : name' = name
    · subst hName
      simp
    · rw [if_neg hName]

/-
  A payment is all or nothing exactly if the updates that
  are made before it fails take nothing.
-/
theorem allOrNothing_iff :
    AllOrNothing store
        (outcomeOf choices store name orderId userId
          tenantCode) ↔
      FailsBeforeTaking choices store name orderId userId := by
  have hCases :=
    (paymentReceived_succeedsIff choices store name orderId
      userId tenantCode).complete_cases
  rcases hCases with
    ⟨⟨hPayable, hAll, hAnswered⟩, view, _, store', hReturns,
        _⟩ |
      ⟨_, error, store', hThrows, hLeft⟩
  · constructor
    · intro _ _
      refine ⟨?_, fun _ hFails => (hFails hAnswered).elim⟩
      intro before item hStops
      exact (hAll.not_stopsAt hStops).elim
    · rintro _ ⟨error, hThrows⟩
      rw [outcomeOf, hReturns] at hThrows
      cases hThrows
  rw [outcomeOf, hThrows]
  rcases hLeft with
    ⟨hNot, rfl⟩ |
      ⟨hPayable, before, item, hStops, hDeducted⟩ |
      ⟨hPayable, hAll, hFails, hDeducted⟩
  · constructor
    · intro _ hPayable
      exact (hNot hPayable).elim
    · intro _ _
      exact ⟨fun _ _ => rfl, fun _ _ => rfl⟩
  · have hIff := hDeducted.unchanged_iff hStops.accepted
    constructor
    · intro hNothing _
      refine ⟨?_, fun hAll => (hAll.not_stopsAt hStops).elim⟩
      intro before' item' hStops'
      rw [(hStops.unique hStops').1]
      exact hIff.mp (hNothing ⟨error, rfl⟩)
    · intro hFailsBefore _
      exact
        hIff.mpr ((hFailsBefore hPayable).1 before item hStops)
  · have hIff := hDeducted.unchanged_iff hAll
    constructor
    · intro hNothing _
      refine ⟨?_, fun _ _ => hIff.mp (hNothing ⟨error, rfl⟩)⟩
      intro before item hStops
      exact (hAll.not_stopsAt hStops).elim
    · intro hFailsBefore _
      exact hIff.mpr ((hFailsBefore hPayable).2 hAll hFails)

/- A second product of the shop. -/
def plate : Product :=
  { id := "plate"
    name := "Plate"
    description := none
    price := ⟨820, by decide, by decide⟩
    stock := ⟨9, by decide, by decide⟩
    createdAt := 0 }

/- An order of two mugs and a plate waits for its payment. -/
def waitingOrder : TenantDb where
  products := ⟨[Shop.mug, plate], by decide⟩
  orders :=
    ⟨[{ id := "o"
        userId := "alice"
        status := .WAITING_FOR_PAYMENT
        total := ⟨1820, by decide, by decide⟩
        paymentId := none
        transactionId := none
        createdAt := 0 }], by decide⟩
  orderItems :=
    ⟨[{ id := "l1"
        orderId := "o"
        productId := "mug"
        quantity := ⟨2, by decide, by decide⟩
        price := Shop.mug.price },
      { id := "l2"
        orderId := "o"
        productId := "plate"
        quantity := ⟨1, by decide, by decide⟩
        price := plate.price }], by decide⟩

def waitingStore : Backend :=
  { Shop.store with dbs := fun _ => some waitingOrder }

/- The plate's update fails; all other calls are answered. -/
def plateFails (n : Nat) : Choice :=
  if n = 2 then .failure "Connection reset" else answering n

/- The mugs are gone, and the order still waits. -/
theorem not_allOrNothing :
    ¬ ∀ (choices : Nat → Choice) (store : Backend)
        (name orderId userId tenantCode : String),
      AllOrNothing store
        (outcomeOf choices store name orderId userId
          tenantCode) := by
  intro hClaim
  have hNothing :=
    hClaim plateFails waitingStore "tenant_t1" "o" "alice"
      "t1" ⟨_, rfl⟩
  exact
    absurd (hNothing.1 "tenant_t1" "mug")
      (by decide +kernel)

end Payment

end OrderApi
