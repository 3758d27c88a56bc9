import OrderApi.Core.Rely
import OrderApi.System.OrderCreation
import OrderApi.System.OrderSystem

/-
  An order goes from its creation to its completion.

  Behind the request that created it, an order is handled by
  the consumer of its message, paid and completed by its
  user, and handled by the consumer of the second message.
  Each of these jobs prevails among others that spare the
  order, so none of them throws as long as its own calls are
  answered, and together they take from the stocks what was
  ordered and publish one message.

  Key definitions include:
    * `Fulfilment.Covered`
    * `Fulfilment.Spares`
    * `Fulfilment.Effect`
    * `Fulfilment.jobs`

  Key theorems include:
    * `Fulfilment.prevails_paymentReceived`
    * `Fulfilment.fulfilled_of_relayed`
    * `Fulfilment.holds_of_created`
    * `created_order_completes`
-/

------------------------------------------------------------
-- What Others May Do
------------------------------------------------------------

namespace OrderApi

namespace Fulfilment

/- The quantity of a line can be taken from its product. -/
def Covered
    (store : Backend)
    (name : String)
    (line : OrderItem) : Prop :=
  ∃ stock,
    store.stock? name line.productId = some stock ∧
      -2147483648 ≤ stock - line.quantity.val

/-
  What others leave of an order: its row, its lines, and
  enough of the products for each line that had enough.
-/
structure Spares
    (name id : String)
    (before after : Backend) : Prop where
  order : after.order? name id = before.order? name id
  items : after.items name id = before.items name id
  covered :
    ∀ line ∈ before.items name id,
      Covered before name line → Covered after name line

variable {name id : String} {store store' : Backend}
variable {s₁ s₂ s₃ : Backend}

theorem Spares.refl (store : Backend) :
    Spares name id store store where
  order := rfl
  items := rfl
  covered := fun _ _ hCovered => hCovered

theorem Spares.trans
    (hFirst : Spares name id s₁ s₂)
    (hSecond : Spares name id s₂ s₃) :
    Spares name id s₁ s₃ where
  order := hSecond.order.trans hFirst.order
  items := hSecond.items.trans hFirst.items
  covered := by
    intro line hLine hCovered
    have hThere : line ∈ s₂.items name id := by
      rw [hFirst.items]
      exact hLine
    exact
      hSecond.covered line hThere
        (hFirst.covered line hLine hCovered)

/- The row and the lines of an order. -/
structure Holds
    (name : String)
    (order : Order)
    (lines : List OrderItem)
    (store : Backend) : Prop where
  row_eq : store.order? name order.id = some order
  lines_eq : store.items name order.id = lines

variable {order : Order} {lines : List OrderItem}

theorem Holds.spared
    (hHolds : Holds name order lines store)
    (hSpares : Spares name order.id store store') :
    Holds name order lines store' where
  row_eq := hSpares.order.trans hHolds.row_eq
  lines_eq := hSpares.items.trans hHolds.lines_eq

/- The lines that are left to take are covered. -/
def CoveredBut
    (name : String)
    (lines taken : List OrderItem)
    (store : Backend) : Prop :=
  ∀ line ∈ lines, line ∉ taken → Covered store name line

theorem CoveredBut.spared
    {taken : List OrderItem}
    (hCovered : CoveredBut name lines taken store)
    (hHolds : Holds name order lines store)
    (hSpares : Spares name order.id store store') :
    CoveredBut name lines taken store' := by
  intro line hLine hLeft
  have hThere : line ∈ store.items name order.id := by
    rw [hHolds.lines_eq]
    exact hLine
  exact
    hSpares.covered line hThere (hCovered line hLine hLeft)

end Fulfilment

end OrderApi

------------------------------------------------------------
-- Calls on an Order
------------------------------------------------------------

namespace OrderApi

namespace Fulfilment

variable {name : String} {store : Backend}
variable {order : Order} {lines taken : List OrderItem}

/- A read that is answered. -/
theorem exec_read
    {op : TenantOp}
    {value : op.Res}
    {db : TenantDb}
    {tick : Tick}
    (hDb : store.dbs name = some db)
    (hRead : op.exec tick db = .ok (value, db)) :
    (StoreOp.tenant name op).exec (.answer tick) store =
      (.ok value, store) := by
  have hSelf := Backend.put_self hDb
  simp only [StoreOp.exec, hDb, hRead]
  exact congrArg (Prod.mk (Except.ok value)) hSelf

theorem Holds.dbs
    (hHolds : Holds name order lines store) :
    ∃ db, store.dbs name = some db := by
  have hOrder := hHolds.row_eq
  cases hDb : store.dbs name with
  | none => simp [Backend.order?, hDb] at hOrder
  | some db => exact ⟨db, rfl⟩

/- A write to the columns that have no bounds is made. -/
theorem Holds.exec_orderUpdate
    {data : OrderUpdate}
    (hHolds : Holds name order lines store)
    (hTotal : data.total = none)
    (tick : Tick) :
    ∃ view store',
      (StoreOp.tenant name
          (.orderUpdate order.id data)).exec (.answer tick)
            store = (.ok view, store') ∧
        Holds name (order.apply data order.total) lines
          store' ∧
        ∀ productId,
          store'.stock? name productId =
            store.stock? name productId := by
  rcases hHolds.dbs with ⟨db, hDb⟩
  have hOrder := hHolds.row_eq
  rw [Backend.order?_of_dbs hDb] at hOrder
  have hRun :
      ∃ view db',
        (TenantOp.orderUpdate order.id data).exec tick db =
          .ok (view, db') := by
    simp only [TenantOp.exec, hOrder, hTotal, columnValue]
    exact ⟨_, _, rfl⟩
  rcases hRun with ⟨view, db', hRun⟩
  refine
    ⟨view, store.put name db', ?_, ⟨?_, ?_⟩, ?_⟩
  · simp only [StoreOp.exec, hDb, hRun]
    rfl
  · rcases TenantOp.exec_orderUpdate hRun with
      ⟨old, total, hFind, hSame, hAfter⟩
    have hId : (order.apply data order.total).id = order.id :=
      rfl
    rw [hOrder, Option.some.injEq] at hFind
    subst hFind
    rw [hTotal, Option.getD_none] at hSame
    have hTotals : total = order.total := by
      cases total
      cases hRow : order.total
      simp_all
    rw [Backend.order?_put_same, hId, hAfter, if_pos rfl,
      hTotals]
  · have hItems :=
      (TenantOp.exec_frame hRun).2.1 (by simp [TenantOp.writes])
    exact
      (Backend.items_put_frame hDb hItems name
        order.id).trans hHolds.lines_eq
  · intro productId
    have hProducts :=
      (TenantOp.exec_frame hRun).2.2 (by simp [TenantOp.writes])
    unfold Backend.stock?
    rw [Backend.product?_put_frame hDb hProducts]

/- A line is taken from its product, and no other product. -/
theorem Holds.exec_decrement
    {line : OrderItem}
    (hHolds : Holds name order lines store)
    (hCovered : Covered store name line)
    (hQuantity : 0 ≤ line.quantity.val)
    (tick : Tick) :
    ∃ product store',
      (StoreOp.tenant name
          (.productDecrementStock line.productId
            line.quantity.val)).exec (.answer tick) store =
              (.ok product, store') ∧
        Holds name order lines store' ∧
        ∀ productId,
          productId ≠ line.productId →
            store'.stock? name productId =
              store.stock? name productId := by
  rcases hCovered with ⟨stock, hStock, hLow⟩
  have hFits :
      Payment.Fits (.answer tick) store name line.productId
        line.quantity.val := by
    refine ⟨⟨tick, rfl⟩, stock, hStock, hLow, ?_⟩
    unfold Backend.stock? at hStock
    rw [Option.map_eq_some_iff] at hStock
    rcases hStock with ⟨product, _, rfl⟩
    have hHigh := product.stock.le_high
    omega
  rcases
      Payment.exec_decrement_cases (.answer tick) store name
        line.productId line.quantity.val with
    ⟨_, product, store', hExec⟩ | ⟨hNot, _⟩
  swap
  · exact (hNot hFits).elim
  refine ⟨product, store', hExec, ⟨?_, ?_⟩, ?_⟩
  · rcases StoreOp.exec_tenant_ok hExec with
      ⟨_, db, db', _, hDb, hRun, rfl⟩
    have hOrders :=
      (TenantOp.exec_frame hRun).1 (by simp [TenantOp.writes])
    exact
      (Backend.order?_put_frame hDb hOrders name
        order.id).trans hHolds.row_eq
  · rcases StoreOp.exec_tenant_ok hExec with
      ⟨_, db, db', _, hDb, hRun, rfl⟩
    have hItems :=
      (TenantOp.exec_frame hRun).2.1 (by simp [TenantOp.writes])
    exact
      (Backend.items_put_frame hDb hItems name
        order.id).trans hHolds.lines_eq
  · intro productId hOther
    have hStocks :=
      StoreOp.exec_decrement_stock hExec name productId
    rwa [if_neg fun hBoth => hOther hBoth.2] at hStocks

end Fulfilment

end OrderApi

------------------------------------------------------------
-- Calls that Prevail
------------------------------------------------------------

namespace OrderApi

namespace Fulfilment

/- What an answered call does to a stock or to a queue. -/
inductive Effect where
  | took (name productId : String) (amount : Int)
  | queued (message : OrderProcessingMessage)
  | completed (message : OrderCompletedMessage)

def effect? :
    Called StoreOp StoreOp.Res ApiError → Option Effect
  | ⟨.tenant name (.productDecrementStock productId amount),
      .ok _⟩ =>
      some (.took name productId amount)
  | ⟨.publishOrderProcessing message, .ok _⟩ =>
      some (.queued message)
  | ⟨.publishOrderCompleted message, .ok _⟩ =>
      some (.completed message)
  | _ => none

def effectsOf
    (calls : List (Called StoreOp StoreOp.Res ApiError)) :
    List Effect :=
  calls.filterMap effect?

/- A line is taken from its product. -/
def tookLine (name : String) (line : OrderItem) : Effect :=
  .took name line.productId line.quantity.val

/-
  Where the jobs of an order are: its row, the lines that
  are taken, and what the calls of the present job did.
-/
structure Reached
    (name : String)
    (order : Order)
    (lines taken : List OrderItem)
    (effects : List Effect)
    (calls : List (Called StoreOp StoreOp.Res ApiError))
    (store : Backend) : Prop where
  holds : Holds name order lines store
  covered : CoveredBut name lines taken store
  effects_eq : effectsOf calls = effects

/- A call is answered, whatever the store is. -/
def AnsweredAt (choice : Choice) (_ : Backend) : Prop :=
  Answered choice

/- A program prevails among others that spare an order. -/
abbrev PrevailsFor
    {α : Type}
    (name id : String)
    (Post :
      List (Called StoreOp StoreOp.Res ApiError) →
        α → Backend → Prop)
    (calls : List (Called StoreOp StoreOp.Res ApiError))
    (program : Handler α)
    (store : Backend) : Prop :=
  program.Prevails execAlone AnsweredAt (Spares name id) Post
    calls store

variable {name id : String} {store store' : Backend}
variable {order : Order} {lines taken : List OrderItem}
variable {effects : List Effect}
variable
  {calls : List (Called StoreOp StoreOp.Res ApiError)}

theorem Reached.spared
    (hReached :
      Reached name order lines taken effects calls store)
    (hSpares : Spares name order.id store store') :
    Reached name order lines taken effects calls store' where
  holds := hReached.holds.spared hSpares
  covered := hReached.covered.spared hReached.holds hSpares
  effects_eq := hReached.effects_eq

theorem effectsOf_append
    (call : Called StoreOp StoreOp.Res ApiError) :
    effectsOf (calls ++ [call]) =
      effectsOf calls ++ (effect? call).toList := by
  unfold effectsOf
  rw [List.filterMap_append]
  cases hEffect : effect? call <;> simp [hEffect]

/- A job starts where the one before it ended. -/
theorem Reached.start
    (hReached :
      Reached name order lines taken effects calls store) :
    Reached name order lines taken [] [] store where
  holds := hReached.holds
  covered := hReached.covered
  effects_eq := rfl

theorem prevails_read
    (op : TenantOp)
    {value : op.Res}
    (hReached :
      Reached name order lines taken effects calls store)
    (hEffect : effect? ⟨.tenant name op, .ok value⟩ = none)
    (hRead :
      ∀ tick db s,
        s.dbs name = some db →
        Holds name order lines s →
          op.exec tick db = .ok (value, db)) :
    PrevailsFor name order.id
      (fun calls result s =>
        result = value ∧
          Reached name order lines taken effects calls s)
      calls (prisma name op) store := by
  apply Program.prevails_perform (StoreOp.tenant name op)
  rintro _ s ⟨tick, rfl⟩ hSpares
  have hSpared := hReached.spared hSpares
  rcases hSpared.holds.dbs with ⟨db, hDb⟩
  refine
    ⟨value, s,
      exec_read hDb (hRead tick db s hDb hSpared.holds), rfl,
      hSpared.holds, hSpared.covered, ?_⟩
  rw [effectsOf_append, hEffect, Option.toList_none,
    List.append_nil]
  exact hSpared.effects_eq

theorem prevails_orderUpdate
    (data : OrderUpdate)
    (hReached :
      Reached name order lines taken effects calls store)
    (hTotal : data.total = none) :
    PrevailsFor name order.id
      (fun calls _ s =>
        Reached name (order.apply data order.total) lines
          taken effects calls s)
      calls (prisma name (.orderUpdate order.id data))
      store := by
  apply Program.prevails_perform
    (StoreOp.tenant name (.orderUpdate order.id data))
  rintro _ s ⟨tick, rfl⟩ hSpares
  have hSpared := hReached.spared hSpares
  rcases hSpared.holds.exec_orderUpdate hTotal tick with
    ⟨view, s', hExec, hHolds, hStocks⟩
  refine ⟨view, s', hExec, hHolds, ?_, ?_⟩
  · intro line hLine hLeft
    unfold Covered
    rw [hStocks]
    exact hSpared.covered line hLine hLeft
  · rw [effectsOf_append]
    exact (List.append_nil _).trans hSpared.effects_eq

theorem prevails_decrement
    {line : OrderItem}
    (hReached :
      Reached name order lines taken effects calls store)
    (hLine : line ∈ lines)
    (hLeft : line ∉ taken)
    (hDistinct : (lines.map OrderItem.productId).Nodup)
    (hQuantity : 0 ≤ line.quantity.val) :
    PrevailsFor name order.id
      (fun calls _ s =>
        Reached name order lines (taken ++ [line])
          (effects ++ [tookLine name line]) calls s)
      calls
      (prisma name
        (.productDecrementStock line.productId
          line.quantity.val))
      store := by
  apply Program.prevails_perform
    (StoreOp.tenant name
      (.productDecrementStock line.productId
        line.quantity.val))
  rintro _ s ⟨tick, rfl⟩ hSpares
  have hSpared := hReached.spared hSpares
  rcases
      hSpared.holds.exec_decrement
        (hSpared.covered line hLine hLeft) hQuantity tick with
    ⟨product, s', hExec, hHolds, hStocks⟩
  refine ⟨product, s', hExec, hHolds, ?_, ?_⟩
  · intro other hOther hNot
    rw [List.mem_append, List.mem_singleton, not_or] at hNot
    have hProduct : other.productId ≠ line.productId := by
      intro hSame
      exact
        hNot.2
          (List.inj_on_of_nodup_map hDistinct hOther hLine
            hSame)
    unfold Covered
    rw [hStocks other.productId hProduct]
    exact hSpared.covered other hOther hNot.1
  · rw [effectsOf_append, hSpared.effects_eq]
    rfl

theorem prevails_publishOrderCompleted
    {message : OrderCompletedMessage}
    (hReached :
      Reached name order lines taken effects calls store) :
    PrevailsFor name order.id
      (fun calls _ s =>
        Reached name order lines taken
          (effects ++ [.completed message]) calls s)
      calls
      (Program.perform (StoreOp.publishOrderCompleted message))
      store := by
  apply Program.prevails_perform
    (StoreOp.publishOrderCompleted message)
  rintro _ s ⟨tick, rfl⟩ hSpares
  have hSpared := hReached.spared hSpares
  refine
    ⟨(), _, rfl,
      ⟨hSpared.holds.row_eq, hSpared.holds.lines_eq⟩,
      hSpared.covered, ?_⟩
  rw [effectsOf_append, hSpared.effects_eq]
  rfl

end Fulfilment

end OrderApi

------------------------------------------------------------
-- Jobs that Prevail
------------------------------------------------------------

namespace OrderApi

namespace Fulfilment

/- The row of an order behind each of its jobs. -/
def waiting (order : Order) (paymentId : String) : Order :=
  { order with
    status := .WAITING_FOR_PAYMENT
    paymentId := some paymentId }

def paid (order : Order) : Order :=
  { order with status := .PAID }

def complete (order : Order) (transactionId : String) : Order :=
  { order with
    status := .COMPLETE
    transactionId := some transactionId }

variable {databaseName : String → String}
variable {tenantCode : String} {store : Backend}
variable {order : Order} {lines taken : List OrderItem}

/- The consumer writes the payment id of the order. -/
theorem prevails_handleOrderProcessing
    {name : String}
    (order : Order)
    (message : OrderProcessingMessage)
    (hReached : Reached name order lines taken [] [] store)
    (hName : databaseName message.tenantCode = name)
    (hOrder : message.orderId = order.id)
    (paymentId : String) :
    PrevailsFor name order.id
      (fun calls _ s =>
        Reached name (waiting order paymentId) lines taken []
          calls s)
      []
      (OrderProcessingConsumer.handleOrderProcessing
        databaseName paymentId message)
      store := by
  unfold OrderProcessingConsumer.handleOrderProcessing
  rw [hName, hOrder]
  exact
    Program.prevails_ignore
      (prevails_orderUpdate
        (OrderProcessingConsumer.waitForPayment paymentId)
        hReached rfl)

/- The user pays for the order. -/
theorem prevails_paymentReceived
    {name : String}
    {user : AuthUser}
    (order : Order)
    (hReached : Reached name order lines [] [] [] store)
    (hStatus : order.status = .WAITING_FOR_PAYMENT)
    (hOwner : order.userId = user.id)
    (hDistinct : (lines.map OrderItem.productId).Nodup)
    (hQuantity : ∀ line ∈ lines, 0 ≤ line.quantity.val) :
    PrevailsFor name order.id
      (fun calls _ s =>
        Reached name (paid order) lines lines
          (lines.map (tookLine name)) calls s)
      []
      (OrderController.paymentReceived name order.id user
        tenantCode).ignore
      store := by
  unfold OrderController.paymentReceived
    OrderService.paymentReceived
  simp only [Program.bind_eq]
  apply Program.prevails_ignore
  apply Program.prevails_bind
  have hRead :
      ∀ tick db s,
        s.dbs name = some db →
        Holds name order lines s →
          (TenantOp.orderFindUniqueWithItems order.id).exec
              tick db =
            .ok (some (order, lines), db) := by
    intro tick db s hDb hHolds
    rw [Payment.exec_findWithItems hDb, hHolds.row_eq,
      hHolds.lines_eq]
    rfl
  apply
    (prevails_read (.orderFindUniqueWithItems order.id)
      hReached rfl hRead).mono
  rintro calls _ s ⟨rfl, hThere⟩
  have hUser : ¬ order.userId ≠ user.id := not_not.mpr hOwner
  have hWaits :
      ¬ order.status ≠ .WAITING_FOR_PAYMENT :=
    not_not.mpr hStatus
  simp only [if_neg hUser, if_neg hWaits]
  apply Program.prevails_bind
  have hLoop :
      PrevailsFor name order.id
        (fun calls _ s =>
          Reached name order lines lines
            (lines.map (tookLine name)) calls s)
        calls
        (Program.forEach lines
          (OrderService.deductStock name tenantCode))
        s := by
    apply
      Program.prevails_forEach
        (fun before calls s =>
          Reached name order lines before
            (before.map (tookLine name)) calls s)
        lines
    · intro before line after calls' s' hLines hInv
      have hLine : line ∈ lines := by simp [hLines]
      have hLeft : line ∉ before := by
        have hNodup := List.Nodup.of_map _ hDistinct
        rw [hLines, List.nodup_append] at hNodup
        intro hMem
        exact
          hNodup.2.2 line hMem line List.mem_cons_self rfl
      rw [List.map_append]
      exact
        Program.prevails_ignore
          (Program.Prevails.attempt
            (prevails_decrement hInv hLine hLeft hDistinct
              (hQuantity line hLine))
            _)
    · exact hThere
  apply hLoop.mono
  intro calls' _ s' hTaken
  exact
    Program.Prevails.attempt
      (prevails_orderUpdate (OrderService.setStatus .PAID)
        hTaken rfl)
      _

/- The user completes the order, and a message is queued. -/
theorem prevails_completeOrder
    {name transactionId : String}
    {user : AuthUser}
    (order : Order)
    (hReached : Reached name order lines taken [] [] store)
    (hOwner : order.userId = user.id)
    (hTransaction :
      ¬ transactionId.toList.all isJsSpace = true) :
    PrevailsFor name order.id
      (fun calls _ s =>
        Reached name order lines taken
          [.completed
            ⟨order.id, user.id, tenantCode, transactionId⟩]
          calls s)
      []
      (OrderController.completeOrder name order.id user
        tenantCode transactionId)
      store := by
  unfold OrderController.completeOrder
    OrderService.enqueueOrderCompleted
  rw [if_neg hTransaction]
  simp only [Program.bind_eq]
  apply Program.prevails_bind
  have hRead :
      ∀ tick db s,
        s.dbs name = some db →
        Holds name order lines s →
          (TenantOp.orderFindUnique order.id).exec tick db =
            .ok (some order, db) := by
    intro tick db s hDb hHolds
    have hRow := hHolds.row_eq
    rw [Backend.order?_of_dbs hDb] at hRow
    simp only [TenantOp.exec, hRow]
  apply
    (prevails_read (.orderFindUnique order.id) hReached rfl
      hRead).mono
  rintro calls _ s ⟨rfl, hThere⟩
  have hUser : ¬ order.userId ≠ user.id := not_not.mpr hOwner
  simp only [if_neg hUser]
  exact prevails_publishOrderCompleted hThere

/- The consumer completes the order. -/
theorem prevails_handleOrderCompleted
    {name : String}
    (order : Order)
    (message : OrderCompletedMessage)
    (hReached : Reached name order lines taken [] [] store)
    (hName : databaseName message.tenantCode = name)
    (hOrder : message.orderId = order.id) :
    PrevailsFor name order.id
      (fun calls _ s =>
        Reached name (complete order message.transactionId)
          lines taken [] calls s)
      []
      (OrderCompletedConsumer.handleOrderCompleted
        databaseName message)
      store := by
  unfold OrderCompletedConsumer.handleOrderCompleted
  rw [hName, hOrder]
  exact
    Program.prevails_ignore
      (prevails_orderUpdate
        (OrderCompletedConsumer.complete
          message.transactionId)
        hReached rfl)

end Fulfilment

end OrderApi

------------------------------------------------------------
-- From the Creation to the Completion
------------------------------------------------------------

namespace OrderApi

namespace Fulfilment

/- What is done about an order once it is created. -/
def jobs
    (user : AuthUser)
    (tenantCode id paymentId transactionId : String) :
    List Job :=
  [.handleOrderProcessing paymentId ⟨id, user.id, tenantCode⟩,
    .paymentReceived user tenantCode id,
    .completeOrder user tenantCode id transactionId,
    .handleOrderCompleted
      ⟨id, user.id, tenantCode, transactionId⟩]

/- What a job reaches outlasts others that spare the order. -/
theorem outlasts
    {name : String}
    (order order' : Order)
    {lines taken taken' : List OrderItem}
    {effects : List Effect}
    (hId : order'.id = order.id) :
    PoolSystem.Outlasts (Spares name order.id)
      (Reached name order lines taken [] [])
      (fun calls _ s =>
        Reached name order' lines taken' effects calls s) where
  refl := Spares.refl
  trans := fun _ _ _ => Spares.trans
  pre := fun _ _ => Reached.spared
  post := by
    intro calls _ s s' hReached hSpares
    rw [← hId] at hSpares
    exact hReached.spared hSpares

variable {databaseName : String → String}
variable {user : AuthUser} {world world' : World}
variable {tenantCode paymentId transactionId : String}
variable {order : Order} {lines : List OrderItem}
variable
  {turns : List (Turn Job StoreOp StoreOp.Res ApiError)}

/- Done one after the other, none of the jobs throws. -/
theorem fulfilled_of_relayed
    (hReached :
      Reached (databaseName tenantCode) order lines [] [] []
        world.store)
    (hOwner : order.userId = user.id)
    (hDistinct : (lines.map OrderItem.productId).Nodup)
    (hQuantity : ∀ line ∈ lines, 0 ≤ line.quantity.val)
    (hTransaction :
      ¬ transactionId.toList.all isJsSpace = true)
    (hRelayed :
      PoolSystem.Relayed (orderSystem databaseName) AnsweredAt
        (Spares (databaseName tenantCode) order.id) turns
        world world')
    (hJobs :
      turns.map Turn.job =
        jobs user tenantCode order.id paymentId
          transactionId) :
    (∀ turn ∈ turns, turn.outcome = .ok ()) ∧
      effectsOf (turns.flatMap Turn.calls) =
        lines.map (tookLine (databaseName tenantCode)) ++
          [.completed
            ⟨order.id, user.id, tenantCode,
              transactionId⟩] ∧
      Holds (databaseName tenantCode)
        { order with
          status := .COMPLETE
          paymentId := some paymentId
          transactionId := some transactionId }
        lines world'.store := by
  rcases turns with
    _ | ⟨processing, _ | ⟨payment, _ | ⟨completion,
      _ | ⟨last, _ | ⟨_, _⟩⟩⟩⟩⟩ <;>
    simp only [List.map_cons, List.map_nil, jobs,
      List.cons.injEq, reduceCtorEq, and_false,
      and_true] at hJobs
  rcases hJobs with
    ⟨hProcessing, hPayment, hCompletion, hLast⟩
  let waits := waiting order paymentId
  rcases
      hRelayed.cases hReached (outlasts order waits rfl)
        (fun s hPre => by
          rw [hProcessing]
          exact
            prevails_handleOrderProcessing order _ hPre rfl rfl
              paymentId) with
    ⟨hOk₁, world₁, hReached₁, hRelayed₁⟩
  rcases
      hRelayed₁.cases hReached₁.start
        (outlasts waits (paid waits) rfl)
        (fun s hPre => by
          rw [hPayment]
          exact
            prevails_paymentReceived waits hPre rfl hOwner
              hDistinct hQuantity) with
    ⟨hOk₂, world₂, hReached₂, hRelayed₂⟩
  rcases
      hRelayed₂.cases hReached₂.start
        (outlasts (paid waits) (paid waits) rfl)
        (fun s hPre => by
          rw [hCompletion]
          exact
            prevails_completeOrder (paid waits) hPre hOwner
              hTransaction) with
    ⟨hOk₃, world₃, hReached₃, hRelayed₃⟩
  rcases
      hRelayed₃.cases hReached₃.start
        (outlasts (paid waits)
          (complete (paid waits) transactionId) rfl)
        (fun s hPre => by
          rw [hLast]
          exact
            prevails_handleOrderCompleted (paid waits)
              ⟨order.id, user.id, tenantCode, transactionId⟩
              hPre rfl rfl) with
    ⟨hOk₄, world₄, hReached₄, hRelayed₄⟩
  cases hRelayed₄
  refine ⟨?_, ?_, hReached₄.holds⟩
  · simp [hOk₁, hOk₂, hOk₃, hOk₄]
  · have hAppend :
        effectsOf
            ([processing, payment, completion, last].flatMap
              Turn.calls) =
          effectsOf processing.calls ++
            (effectsOf payment.calls ++
              (effectsOf completion.calls ++
                effectsOf last.calls)) := by
      simp [effectsOf]
    rw [hAppend, hReached₁.effects_eq, hReached₂.effects_eq,
      hReached₃.effects_eq, hReached₄.effects_eq,
      List.nil_append, List.append_nil]
    rfl

/- A product that was asked for had enough for one item. -/
theorem covered_of_filled
    {choices : Nat → Choice}
    {db db' : TenantDb}
    {created : Backend}
    {name orderId userId : String}
    {items : List CreateOrderItemDto}
    {added : List (Entry String Money)}
    {line : OrderItem}
    (hAccepts :
      AcceptsAll (Creation.Accepted choices db) items)
    (hFilled :
      Creation.Filled choices db orderId userId items added
        db')
    (hCreated : created.dbs name = some db')
    (hLine : line ∈ db'.itemsOf orderId) :
    Covered created name line := by
  have hEntry : line.entry ∈ tally added := by
    rw [← hFilled.lines]
    exact List.mem_map_of_mem hLine
  have hWanted :
      line.productId ∈
        items.map CreateOrderItemDto.product_id := by
    rw [← Creation.keys_of_wanted hFilled.wanted,
      ← mem_keys_tally]
    exact List.mem_map_of_mem (f := Entry.key) hEntry
  rcases List.mem_map.mp hWanted with
    ⟨item, hItem, hProduct⟩
  rcases List.append_of_mem hItem with
    ⟨before, after, hSplit⟩
  rcases (hAccepts before item after hSplit).stock with
    ⟨product, hFind, hEnough⟩
  refine ⟨product.stock.val, ?_, ?_⟩
  · rw [Backend.stock?_of_dbs hCreated, hFilled.products,
      ← hProduct, hFind]
    rfl
  · have hMin := item.qty_min
    have hHigh := line.quantity.le_high
    omega

/-
  An order that was created has one line for each product
  that was asked for, and all of them are covered.
-/
theorem exists_of_created
    {choices : Nat → Choice}
    {store created : Backend}
    {name : String}
    {body : CreateOrderDto}
    {view : OrderView}
    (hLines :
      ∀ db, store.dbs name = some db → db.LinesHaveOrders)
    (hReturns :
      Creation.outcomeOf choices store name user tenantCode
        body = (.ok view, created)) :
    ∃ order lines,
      order.id = view.order.id ∧
        order.userId = user.id ∧
        Reached name order lines [] [] [] created ∧
        (lines.map OrderItem.productId).Nodup ∧
        (∀ line ∈ lines, 0 ≤ line.quantity.val) ∧
        ∀ productId,
          quantityOf productId lines =
            Creation.requested productId body.items := by
  cases hDb : store.dbs name with
  | none =>
      rcases Creation.create_of_missing hDb with
        ⟨error, hThrows⟩
      rw [hThrows] at hReturns
      cases hReturns
  | some db =>
      have hCases :=
        (Creation.create_succeedsIff hDb (hLines db hDb)
          choices user tenantCode body).complete_cases
      unfold Creation.outcomeOf at hReturns
      rcases hCases with
        ⟨⟨_, hCompletes, _⟩, view', _, created', hOk,
            hCreated⟩ |
          ⟨_, error, after', hThrows, _⟩
      swap
      · rw [hThrows] at hReturns
        cases hReturns
      rw [hOk] at hReturns
      cases hReturns
      rcases hCreated with ⟨added, db', hAfter, _, hFilled⟩
      rcases hFilled.order with ⟨order, hOrder, hOwner, _⟩
      have hId : order.id = view.order.id :=
        db'.orders.key_of_find? hOrder
      have hItems :
          created.items name order.id =
            db'.itemsOf view.order.id := by
        rw [Backend.items_of_dbs hAfter, hId]
      have hEntries := hFilled.lines
      have hLine :
          ∀ line ∈ db'.itemsOf view.order.id,
            line.entry ∈ tally added := by
        intro line hMem
        rw [← hEntries]
        exact List.mem_map_of_mem hMem
      have hQuantity :
          ∀ line ∈ db'.itemsOf view.order.id,
            0 ≤ line.quantity.val := by
        intro line hMem
        have hAmount := amount_of_mem_tally (hLine line hMem)
        rw [Creation.amounts_of_wanted hFilled.wanted]
          at hAmount
        have hNonneg :=
          Creation.requested_nonneg line.entry.key body.items
        change line.quantity.val = _ at hAmount
        omega
      refine
        ⟨order, db'.itemsOf view.order.id, hId, hOwner,
          ⟨⟨?_, hItems⟩, ?_, rfl⟩, ?_, hQuantity,
          hFilled.quantityOf_eq⟩
      · rw [Backend.order?_of_dbs hAfter, hId, hOrder]
      · intro line hMem _
        exact covered_of_filled hCompletes hFilled hAfter hMem
      · have hKeys :
            (db'.itemsOf view.order.id).map
                OrderItem.productId =
              (tally added).map Entry.key := by
          rw [← hEntries, List.map_map]
          rfl
        rw [hKeys]
        exact nodup_keys_tally

end Fulfilment

open Fulfilment in
/-
  An order that was created goes all the way, whatever comes
  in between and spares it: no job on it throws, its lines
  are taken once, and it is complete with both of its ids.
-/
theorem created_order_completes
    {databaseName : String → String}
    {choices : Nat → Choice}
    {store : Backend}
    {user : AuthUser}
    {tenantCode paymentId transactionId : String}
    {body : CreateOrderDto}
    {view : OrderView}
    {world world' : World}
    {turns : List (Turn Job StoreOp StoreOp.Res ApiError)}
    (hLines :
      ∀ db,
        store.dbs (databaseName tenantCode) = some db →
          db.LinesHaveOrders)
    (hReturns :
      Creation.outcomeOf choices store
          (databaseName tenantCode) user tenantCode body =
        (.ok view, world.store))
    (hTransaction :
      ¬ transactionId.toList.all isJsSpace = true)
    (hRelayed :
      PoolSystem.Relayed (orderSystem databaseName) AnsweredAt
        (Spares (databaseName tenantCode) view.order.id)
        turns world world')
    (hJobs :
      turns.map Turn.job =
        jobs user tenantCode view.order.id paymentId
          transactionId) :
    ∃ order lines,
      world.store.order? (databaseName tenantCode)
          view.order.id = some order ∧
        (∀ productId,
          quantityOf productId lines =
            Creation.requested productId body.items) ∧
        (∀ turn ∈ turns, turn.outcome = .ok ()) ∧
        effectsOf (turns.flatMap Turn.calls) =
          lines.map (tookLine (databaseName tenantCode)) ++
            [.completed
              ⟨view.order.id, user.id, tenantCode,
                transactionId⟩] ∧
        world'.store.order? (databaseName tenantCode)
            view.order.id =
          some
            { order with
              status := .COMPLETE
              paymentId := some paymentId
              transactionId := some transactionId } ∧
        world'.store.items (databaseName tenantCode)
          view.order.id = lines := by
  rcases exists_of_created hLines hReturns with
    ⟨order, lines, hId, hOwner, hReached, hDistinct,
      hQuantity, hRequested⟩
  rw [← hId] at hRelayed hJobs ⊢
  rcases
      fulfilled_of_relayed hReached hOwner hDistinct
        hQuantity hTransaction hRelayed hJobs with
    ⟨hOutcomes, hEffects, hHolds⟩
  exact
    ⟨order, lines, hReached.holds.row_eq, hRequested,
      hOutcomes, hEffects, hHolds.row_eq, hHolds.lines_eq⟩

end OrderApi

------------------------------------------------------------
-- An Order of Mugs
------------------------------------------------------------

namespace OrderApi

namespace Fulfilment

/- All tenants are kept in one database. -/
def oneDatabase (_ : String) : String :=
  "tenant_t1"

theorem orders_two : (1 : Int) ≤ 2 := by decide

theorem orders_one : (1 : Int) ≤ 1 := by decide

/- What becomes of an order of three mugs. -/
def ordered : Except ApiError OrderView × Backend :=
  Creation.outcomeOf Creation.naming Shop.store "tenant_t1"
    Shop.alice "t1"
    (Creation.mugsTwice 2 1 orders_two orders_one)

def isAnswer (choice : Choice) (_ : Backend) : Bool :=
  match choice with
  | .answer _ => true
  | .failure _ => false

theorem answeredAt_of_isAnswer
    (choice : Choice)
    (store : Backend)
    (hAnswer : isAnswer choice store = true) :
    AnsweredAt choice store := by
  cases choice with
  | answer tick => exact ⟨tick, rfl⟩
  | failure message => cases hAnswer

/- The jobs on the order, with an answer to each call. -/
def played :
    Option
      (List (Turn Job StoreOp StoreOp.Res ApiError) ×
        World) :=
  (orderSystem oneDatabase).play isAnswer
    ((jobs Shop.alice "t1" "o" "payment" "transaction").zip
      ([1, 3, 2, 1].map fun calls =>
        List.replicate calls (answering 0)))
    ⟨ordered.2, []⟩

theorem ordered_ok :
    ∃ view,
      view.order.id = "o" ∧ ordered = (.ok view, ordered.2) := by
  have hOk :
      (match ordered.1 with
        | .ok view => decide (view.order.id = "o")
        | .error _ => false) = true := by
    decide +kernel
  cases hOutcome : ordered.1 with
  | error error =>
      rw [hOutcome] at hOk
      cases hOk
  | ok view =>
      rw [hOutcome] at hOk
      exact
        ⟨view, of_decide_eq_true hOk,
          Prod.ext hOutcome rfl⟩

end Fulfilment

open Fulfilment in
/- Alice orders three mugs, pays for them and gets them. -/
theorem created_order_completes_of_mugs :
    ∃ turns world',
      played = some (turns, world') ∧
        (∀ turn ∈ turns, turn.outcome = .ok ()) ∧
        world'.store.status? "tenant_t1" "o" =
          some .COMPLETE := by
  have hPlayed : played.isSome = true := by
    decide +kernel
  rcases Option.isSome_iff_exists.mp hPlayed with
    ⟨⟨turns, world'⟩, hPlay⟩
  rcases ordered_ok with ⟨view, hId, hOrdered⟩
  have hRelay :
      PoolSystem.Relayed (orderSystem oneDatabase) AnsweredAt
          (Spares (oneDatabase "t1") "o") turns
          ⟨ordered.2, []⟩ world' ∧
        turns.map Turn.job =
          jobs Shop.alice "t1" "o" "payment" "transaction" :=
    PoolSystem.relayed_of_play answeredAt_of_isAnswer hPlay
  have hReturns :
      Creation.outcomeOf Creation.naming Shop.store
          (oneDatabase "t1") Shop.alice "t1"
          (Creation.mugsTwice 2 1 orders_two orders_one) =
        (.ok view, (⟨ordered.2, []⟩ : World).store) :=
    hOrdered
  rw [← hId] at hRelay
  rcases
      created_order_completes Creation.linesHaveOrders_of_shop
        hReturns (by decide) hRelay.1 hRelay.2 with
    ⟨order, lines, _, _, hOutcomes, _, hOrder, _⟩
  refine ⟨turns, world', hPlay, hOutcomes, ?_⟩
  rw [hId] at hOrder
  exact congrArg (Option.map Order.status) hOrder

end OrderApi
