import OrderApi.System.OrderFilling

/-
  The lines and the total that a create request leaves.

  A request is the only writer of its order's lines and
  total, so they are the tally of the items that it added,
  whatever else runs in between.

  Key definitions include:
    * `priceReads`, `createdOrder?`
    * `FillsAt`
    * `FillInv`
    * `LinesOf`

  Key theorems include:
    * `FillInv.resume`
    * `lines_of_created_order`
-/

------------------------------------------------------------
-- What a Thread Read and Created
------------------------------------------------------------

namespace OrderApi

/- The thread that a step resumes. -/
def mover? (t : WorldStep) : Option Nat :=
  match t.label with
  | .start _ => none
  | .resume index _ => some index

/- The product that a step reads, and its price then. -/
def priceRead? (t : WorldStep) : Option (String × Money) :=
  match t.call? with
  | some (.tenant name (.productFindUnique id), choice) =>
      match
          ((StoreOp.tenant name (.productFindUnique id)).exec
            choice t.before.store).1 with
      | .ok (some product) => some (id, product.price)
      | _ => none
  | _ => none

/- The order that a step creates. -/
def orderCreated? (t : WorldStep) : Option String :=
  match t.call? with
  | some (.tenant name (.orderCreate userId status total),
      choice) =>
      match
          ((StoreOp.tenant name
            (.orderCreate userId status total)).exec choice
              t.before.store).1 with
      | .ok order => some order.id
      | .error _ => none
  | _ => none

/- The prices that a thread read, oldest first. -/
def priceReads (index : Nat) :
    List WorldStep → List (String × Money)
| [] => []
| t :: history =>
    if mover? t = some index then
      priceReads index history ++ (priceRead? t).toList
    else
      priceReads index history

/- The order that a thread created first. -/
def createdOrder? (index : Nat) :
    List WorldStep → Option String
| [] => none
| t :: history =>
    if mover? t = some index then
      (createdOrder? index history).orElse fun _ =>
        orderCreated? t
    else
      createdOrder? index history

variable {history : List WorldStep} {t : WorldStep}
variable {index : Nat}

/- Threads that never moved read and created nothing. -/
theorem tracks_of_not_moved
    (hMovers : ∀ t ∈ history, mover? t ≠ some index) :
    createdOrder? index history = none ∧
      priceReads index history = [] := by
  induction history with
  | nil => exact ⟨rfl, rfl⟩
  | cons t history ih =>
      rcases List.forall_mem_cons.mp hMovers with
        ⟨hHere, hRest⟩
      rw [createdOrder?, if_neg hHere, priceReads,
        if_neg hHere]
      exact ih hRest

/- The steps of other threads count for nothing. -/
theorem tracks_of_other
    (history : List WorldStep)
    (hOther : mover? t ≠ some index) :
    createdOrder? index (t :: history) =
        createdOrder? index history ∧
      priceReads index (t :: history) =
        priceReads index history := by
  rw [createdOrder?, if_neg hOther, priceReads,
    if_neg hOther]
  exact ⟨rfl, rfl⟩

/- What a call of the thread's own adds. -/
theorem tracks_of_own
    (history : List WorldStep)
    (hOwn : mover? t = some index) :
    createdOrder? index (t :: history) =
        ((createdOrder? index history).orElse fun _ =>
          orderCreated? t) ∧
      priceReads index (t :: history) =
        priceReads index history ++
          (priceRead? t).toList := by
  rw [createdOrder?, if_pos hOwn, priceReads, if_pos hOwn]
  exact ⟨rfl, rfl⟩

end OrderApi

------------------------------------------------------------
-- Lines as a Tally
------------------------------------------------------------

namespace OrderApi

/- A line as an entry of the order's tally. -/
def OrderItem.entry (item : OrderItem) :
    Entry String Money :=
  ⟨item.productId, item.quantity.val, item.price⟩

/- The line that an item is merged into, if any. -/
def lineOf?
    (items : List OrderItem)
    (productId : String) : Option OrderItem :=
  items.find? fun item => item.productId = productId

/- A total is a sum over the lines. -/
theorem orderTotal_eq_sum (items : List OrderItem) :
    OrderService.orderTotal items =
      (items.map fun item =>
        item.price.val * item.quantity.val).sum := by
  have hFold :
      ∀ (items : List OrderItem) (sum : Int),
        items.foldl
            (fun sum item =>
              sum + item.price.val * item.quantity.val)
            sum =
          sum +
            (items.map fun item =>
              item.price.val * item.quantity.val).sum := by
    intro items
    induction items with
    | nil => simp
    | cons item items ih =>
        intro sum
        rw [List.foldl_cons, ih, List.map_cons,
          List.sum_cons]
        omega
  rw [OrderService.orderTotal, hFold, Int.zero_add]

/- A line that is found is one of the order's product. -/
theorem lineOf?_eq_some
    {items : List OrderItem}
    {productId : String}
    {item : OrderItem}
    (hFound : lineOf? items productId = some item) :
    item ∈ items ∧ item.productId = productId := by
  have hMem := List.mem_of_find?_eq_some hFound
  have hProduct := List.find?_some hFound
  exact ⟨hMem, by simpa using hProduct⟩

/- A product without a line gets one at the end. -/
theorem entries_insert
    {items : List OrderItem}
    {item : OrderItem}
    (hNone : lineOf? items item.productId = none) :
    (items ++ [item]).map OrderItem.entry =
      Tally.add (items.map OrderItem.entry) item.entry := by
  have hNew :
      item.entry.key ∉
        (items.map OrderItem.entry).map Entry.key := by
    rw [List.map_map]
    intro hKey
    rcases List.mem_map.mp hKey with ⟨other, hOther, hSame⟩
    have hAbsent := List.find?_eq_none.mp hNone other hOther
    exact hAbsent (decide_eq_true hSame)
  rw [Tally.add, if_neg hNew, List.map_append]
  rfl

/-
  A product with a line has its quantity raised, if lines
  are told apart by their ids as by their products.
-/
theorem entries_merge
    {items : List OrderItem}
    {found : OrderItem}
    {productId : String}
    {qty : Int}
    {price : Money}
    {column : Int4}
    (hFound : lineOf? items productId = some found)
    (hIds :
      ∀ item ∈ items, item.id = found.id → item = found)
    (hProducts :
      ∀ item ∈ items,
        item.productId = found.productId → item = found)
    (hColumn : column.val = found.quantity.val + qty) :
    (items.map fun item =>
        if item.id = found.id then
          { item with quantity := column }
        else item).map OrderItem.entry =
      Tally.add (items.map OrderItem.entry)
        ⟨productId, qty, price⟩ := by
  rcases lineOf?_eq_some hFound with ⟨hMem, hProduct⟩
  have hKnown :
      productId ∈
        (items.map OrderItem.entry).map Entry.key := by
    rw [List.map_map, ← hProduct]
    exact List.mem_map_of_mem hMem
  rw [Tally.add, if_pos hKnown, List.map_map, List.map_map]
  apply List.map_congr_left
  intro item hItem
  by_cases hId : item.id = found.id
  · have hSame := hIds item hItem hId
    subst hSame
    simp [OrderItem.entry, Entry.raise, hProduct, hColumn]
  · have hOther : item.productId ≠ productId := by
      intro hSame
      apply hId
      rw [hProducts item hItem (hSame.trans hProduct.symm)]
    simp [OrderItem.entry, Entry.raise, hId, hOther]

end OrderApi

------------------------------------------------------------
-- What the Calls of a Request Do
------------------------------------------------------------

namespace OrderApi

namespace StoreOp

variable {choice : Choice} {name id : String}
variable {store store' : Backend}

/- The created order was absent, and has its total. -/
theorem exec_orderCreate_ok
    {userId : String}
    {status : OrderStatus}
    {total : Int}
    {order : Order}
    (hExec :
      (StoreOp.tenant name
        (.orderCreate userId status total)).exec choice
          store = (.ok order, store')) :
    store.order? name order.id = none ∧
      store'.total? name order.id = some total := by
  rcases exec_tenant_ok hExec with
    ⟨tick, db, db', _, hDb, hRun, rfl⟩
  rcases TenantOp.exec_orderCreate hRun with
    ⟨_, _, _, hTotal, hInsert⟩
  have hKey : Keyed.key order = order.id := rfl
  have hAbsent :=
    (db.orders.insert?_eq_some_iff.mp hInsert).1
  constructor
  · rw [Backend.order?_of_dbs hDb]
    exact hAbsent
  · rw [Backend.total?, Backend.order?_put_same,
      Table.find?_insert? hInsert order.id, if_pos hKey,
      Option.map_some, hTotal]

/- The total that is written is the total after it. -/
theorem exec_setTotal_ok
    {total : Int}
    {view : OrderView}
    (hExec :
      (StoreOp.tenant name
        (.orderUpdate id (Phase.setTotal total))).exec choice
          store = (.ok view, store')) :
    store'.total? name id = some total := by
  rcases exec_tenant_ok hExec with
    ⟨tick, db, db', _, hDb, hRun, rfl⟩
  rcases TenantOp.exec_orderUpdate hRun with
    ⟨order, column, _, hTotal, hAfter⟩
  have hColumn : column.val = total := hTotal
  rw [Backend.total?, Backend.order?_put_same, hAfter,
    if_pos rfl, Option.map_some]
  exact congrArg some hColumn

/- The line that is created comes last. -/
theorem exec_orderItemCreate_ok
    {productId : String}
    {quantity : Int}
    {price : Money}
    {item : OrderItem}
    (hExec :
      (StoreOp.tenant name
        (.orderItemCreate id productId quantity
          price)).exec choice store = (.ok item, store')) :
    store'.items name id = store.items name id ++ [item] ∧
      item.entry = ⟨productId, quantity, price⟩ := by
  rcases exec_tenant_ok hExec with
    ⟨tick, db, db', _, hDb, hRun, rfl⟩
  rcases TenantOp.exec_orderItemCreate hRun with
    ⟨hOrder, hProduct, hQuantity, hPrice, _, hInsert⟩
  have hItems := TenantDb.itemsOf_insert? hInsert id
  rw [if_pos hOrder] at hItems
  constructor
  · rw [Backend.items_of_dbs hDb, Backend.items_put_same,
      hItems]
  · rw [OrderItem.entry, hProduct, hQuantity, hPrice]

/- The line that is updated stays in its place. -/
theorem exec_orderItemUpdate_ok
    {quantity : Int}
    {found item : OrderItem}
    (hExec :
      (StoreOp.tenant name
        (.orderItemUpdate found.id quantity)).exec choice
          store = (.ok item, store'))
    (hFound : found ∈ store.items name id) :
    ∃ column : Int4,
      column.val = quantity ∧
        store'.items name id =
          (store.items name id).map fun row =>
            if row.id = found.id then
              { row with quantity := column }
            else row := by
  rcases exec_tenant_ok hExec with
    ⟨tick, db, db', _, hDb, hRun, rfl⟩
  rcases TenantOp.exec_orderItemUpdate hRun with
    ⟨old, column, hFind, hColumn, hUpdate⟩
  rw [Backend.items_of_dbs hDb] at hFound
  rcases List.mem_filter.mp hFound with ⟨hMem, hOrder⟩
  have hSame : old = found :=
    db.orderItems.eq_of_key_eq
      (db.orderItems.find?_eq_some_iff.mp hFind).1 hMem
      (db.orderItems.key_of_find? hFind)
  subst hSame
  have hItems := TenantDb.itemsOf_update hFind hUpdate id
  rw [if_pos (of_decide_eq_true hOrder)] at hItems
  refine ⟨column, hColumn, ?_⟩
  rw [Backend.items_of_dbs hDb, Backend.items_put_same,
    hItems]

/- What a publication does. -/
theorem exec_publishOrderProcessing_ok
    {message : OrderProcessingMessage}
    {answer : Unit}
    (hExec :
      (StoreOp.publishOrderProcessing message).exec choice
        store = (.ok answer, store')) :
    store' =
      { store with
        orderProcessing :=
          store.orderProcessing ++ [message] } := by
  cases choice with
  | failure text => simp [exec] at hExec
  | answer tick => exact (congrArg Prod.snd hExec).symm

/- The lookup finds the product's line of the order. -/
theorem exec_orderItemFindFirst_ok
    {productId : String}
    {found : Option OrderItem}
    (hExec :
      (StoreOp.tenant name
        (.orderItemFindFirst id productId)).exec choice
          store = (.ok found, store')) :
    found = lineOf? (store.items name id) productId := by
  rcases exec_tenant_ok hExec with
    ⟨tick, db, db', _, hDb, hRun, _⟩
  simp only [TenantOp.exec, Except.ok.injEq,
    Prod.mk.injEq] at hRun
  rw [← hRun.1, lineOf?, Backend.items_of_dbs hDb,
    TenantDb.itemsOf, List.find?_filter]
  congr 1
  funext item
  simp

theorem exec_orderItemFindMany_ok
    {items : List OrderItem}
    (hExec :
      (StoreOp.tenant name (.orderItemFindMany id)).exec
          choice store = (.ok items, store')) :
    items = store.items name id := by
  rcases exec_tenant_ok hExec with
    ⟨tick, db, db', _, hDb, hRun, _⟩
  simp only [TenantOp.exec, Except.ok.injEq,
    Prod.mk.injEq] at hRun
  rw [← hRun.1, Backend.items_of_dbs hDb]

end StoreOp

/- Lines of an order are told apart by their ids. -/
theorem Backend.items_id_inj
    {store : Backend}
    {name id : String}
    {item found : OrderItem}
    (hItem : item ∈ store.items name id)
    (hFound : found ∈ store.items name id)
    (hId : item.id = found.id) :
    item = found := by
  cases hDb : store.dbs name with
  | none => simp [Backend.items, hDb] at hItem
  | some db =>
      rw [Backend.items_of_dbs hDb] at hItem hFound
      exact
        db.orderItems.eq_of_key_eq
          (List.mem_of_mem_filter hItem)
          (List.mem_of_mem_filter hFound) hId

end OrderApi

------------------------------------------------------------
-- What Has Been Filled So Far
------------------------------------------------------------

namespace OrderApi

/- A job leaves the total of an order that it does not add
   to. -/
theorem Phase.Moves.total?_of_other
    {phase phase' : Phase}
    {op : StoreOp}
    {choice : Choice}
    {store store' : Backend}
    {answer : Except ApiError op.Res}
    {name id : String}
    (hMoves : Moves phase op answer phase')
    (hExec : op.exec choice store = (answer, store'))
    (hExists : store.order? name id ≠ none)
    (hOther : phase.adds? ≠ some (name, id)) :
    store'.total? name id = store.total? name id := by
  rcases StoreOp.exec_order_cases hExec name id with
    hSame | ⟨_, _, _, _, _, _, _, _, _, hNone, _⟩ |
      ⟨data, tick, old, column, rfl, hOk, _, hTotal, hOld,
        hNew⟩
  · exact congrArg _ hSame
  · exact (hExists hNone).elim
  · have hKept : data.total = none := by
      cases hMoves with
      | read hFinal hRead => cases hRead
      | failed hOp => exact (hOk _ rfl).elim
      | total => exact (hOther rfl).elim
      | markPaid => rfl
      | process => rfl
      | complete => rfl
    rw [hKept, Option.getD_none] at hTotal
    rw [Backend.total?, hNew, Backend.total?, hOld]
    exact congrArg some hTotal

/- The prices that were read for the items of a cart. -/
def Cart.reads (cart : Cart) : List (String × Money) :=
  cart.added.map fun entry => (entry.key, entry.tag)

namespace FillPhase

/- The prices that a request has read. -/
def reads : FillPhase → List (String × Money)
  | seeking cart item _ price =>
      cart.reads ++ [(item.product_id, price)]
  | saving cart item _ price _ =>
      cart.reads ++ [(item.product_id, price)]
  | phase => phase.cart?.elim [] Cart.reads

/- A request that has not thrown. -/
def tracked : FillPhase → Bool
  | stopped => false
  | aside => false
  | _ => true

/- The cart of a request whose total is up to date. -/
def totalled? : FillPhase → Option Cart
  | between cart _ => some cart
  | viewing cart => some cart
  | returned cart => some cart
  | _ => none

/- The cart of a request that has published its order. -/
def published? : FillPhase → Option Cart
  | viewing cart => some cart
  | returned cart => some cart
  | _ => none

end FillPhase

/-
  What a request in a phase has read, created and written:
  the lines of its order are the tally of its cart.
-/
structure FillsAt
    (index : Nat)
    (history : List WorldStep)
    (store : Backend)
    (fill : FillPhase) : Prop where
  created :
    fill.tracked = true →
      createdOrder? index history =
        fill.cart?.map Cart.orderId
  reads :
    fill.tracked = true →
      priceReads index history = fill.reads
  lines :
    ∀ cart ∈ fill.cart?,
      (store.items cart.db cart.orderId).map
          OrderItem.entry =
        tally cart.added
  found :
    ∀ cart item rest price found,
      fill = .saving cart item rest price found →
        found =
          lineOf? (store.items cart.db cart.orderId)
            item.product_id
  summed :
    ∀ cart rest total, fill = .totalling cart rest total →
      total =
        OrderService.orderTotal
          (store.items cart.db cart.orderId)
  total :
    ∀ cart ∈ fill.totalled?,
      store.total? cart.db cart.orderId =
        some
          (OrderService.orderTotal
            (store.items cart.db cart.orderId))
  published :
    ∀ cart ∈ fill.published?,
      ⟨cart.orderId, cart.userId, cart.tenantCode⟩ ∈
        store.orderProcessing

variable {history : List WorldStep} {t : WorldStep}
variable {index : Nat} {store store' : Backend}
variable {fill : FillPhase}

/- What has been filled, as long as nobody else writes it. -/
theorem FillsAt.frame
    (hFills : FillsAt index history store fill)
    (hOther : mover? t ≠ some index)
    (hItems :
      ∀ cart ∈ fill.cart?,
        store'.items cart.db cart.orderId =
          store.items cart.db cart.orderId)
    (hTotal :
      ∀ cart ∈ fill.cart?,
        store'.total? cart.db cart.orderId =
          store.total? cart.db cart.orderId)
    (hQueue :
      ∀ message ∈ store.orderProcessing,
        message ∈ store'.orderProcessing) :
    FillsAt index (t :: history) store' fill := by
  rcases tracks_of_other history hOther with
    ⟨hCreated, hReads⟩
  constructor
  · rw [hCreated]
    exact hFills.created
  · rw [hReads]
    exact hFills.reads
  · intro cart hCart
    rw [hItems cart hCart]
    exact hFills.lines cart hCart
  · rintro cart item rest price found rfl
    rw [hItems cart rfl]
    exact hFills.found cart item rest price found rfl
  · rintro cart rest total rfl
    rw [hItems cart rfl]
    exact hFills.summed cart rest total rfl
  · intro cart hCart
    have hHere : cart ∈ fill.cart? := by
      cases fill <;> cases hCart <;> rfl
    rw [hItems cart hHere, hTotal cart hHere]
    exact hFills.total cart hCart
  · intro cart hCart
    exact hQueue _ (hFills.published cart hCart)

/- Nothing is known of requests that have thrown. -/
theorem FillsAt.of_untracked
    (hTracked : fill.tracked = false) :
    FillsAt index history store fill := by
  cases fill with
  | stopped =>
      constructor <;> (intros; rename_i hNone; cases hNone)
  | aside =>
      constructor <;> (intros; rename_i hNone; cases hNone)
  | _ => cases hTracked

end OrderApi

------------------------------------------------------------
-- A Call of the Request's Own
------------------------------------------------------------

namespace OrderApi

variable {history : List WorldStep} {t : WorldStep}
variable {index : Nat} {store' : Backend}
variable {fill fill' : FillPhase} {op : StoreOp}
variable {choice : Choice} {cart cart' : Cart}
variable {answer : Except ApiError op.Res}

/- A call goes on with the order that was created. -/
theorem FillsAt.own
    (hFills : FillsAt index history t.before.store fill)
    (hOwn : mover? t = some index)
    (hTracked : fill.tracked = true)
    (hCart : fill.cart? = some cart)
    (hCart' : fill'.cart? = some cart')
    (hId : cart'.orderId = cart.orderId)
    (hReads :
      fill'.reads = fill.reads ++ (priceRead? t).toList)
    (hLines :
      (store'.items cart'.db cart'.orderId).map
          OrderItem.entry =
        tally cart'.added)
    (hFound :
      ∀ cart item rest price found,
        fill' = .saving cart item rest price found →
          found =
            lineOf? (store'.items cart.db cart.orderId)
              item.product_id)
    (hSummed :
      ∀ cart rest total,
        fill' = .totalling cart rest total →
          total =
            OrderService.orderTotal
              (store'.items cart.db cart.orderId))
    (hTotal :
      ∀ cart ∈ fill'.totalled?,
        store'.total? cart.db cart.orderId =
          some
            (OrderService.orderTotal
              (store'.items cart.db cart.orderId)))
    (hPublished :
      ∀ cart ∈ fill'.published?,
        ⟨cart.orderId, cart.userId, cart.tenantCode⟩ ∈
          store'.orderProcessing) :
    FillsAt index (t :: history) store' fill' := by
  rcases tracks_of_own history hOwn with
    ⟨hCreatedOwn, hReadsOwn⟩
  refine ⟨?_, ?_, ?_, hFound, hSummed, hTotal, hPublished⟩
  · intro _
    rw [hCreatedOwn, hFills.created hTracked, hCart, hCart',
      Option.map_some, Option.map_some, hId]
    rfl
  · intro _
    rw [hReadsOwn, hFills.reads hTracked, hReads]
  · intro cart hMem
    rw [hCart'] at hMem
    cases hMem
    exact hLines

/- A call that is no read of a product reads no price. -/
theorem priceRead?_eq_none
    (hCall : t.call? = some (op, choice))
    (hOther :
      ∀ name id, op ≠ .tenant name (.productFindUnique id)) :
    priceRead? t = none := by
  unfold priceRead?
  rw [hCall]
  split
  · rename_i name id choice' hSame
    cases hSame
    exact (hOther name id rfl).elim
  · rfl

section Own

variable
  (hFills : FillsAt index history t.before.store fill)
  (hOwn : mover? t = some index)
  (hCall : t.call? = some (op, choice))
  (hExec :
    op.exec choice t.before.store =
      (answer, t.after.store))

include hFills hOwn hCall hExec

/- The reads of a request leave what it has filled. -/
theorem FillsAt.own_read
    (hRead : op.isRead = true)
    (hMoves : FillPhase.Moves fill op answer fill') :
    FillsAt index (t :: history) t.after.store fill' := by
  have hSame : t.after.store = t.before.store := by
    have hStore :=
      StoreOp.exec_isRead_store hRead choice t.before.store
    rwa [hExec] at hStore
  rw [hSame]
  cases hMoves with
  | opened => cases hRead
  | insert => cases hRead
  | merge => cases hRead
  | total => cases hRead
  | publish => cases hRead
  | check hStatus =>
      have hNone : priceRead? t = none :=
        priceRead?_eq_none hCall (by simp)
      refine
        hFills.own hOwn rfl rfl rfl rfl ?_
          (hFills.lines _ rfl) (by rintro _ _ _ _ _ ⟨⟩)
          (by rintro _ _ _ ⟨⟩) (by rintro _ ⟨⟩) (by rintro _ ⟨⟩)
      rw [hNone]
      exact (List.append_nil _).symm
  | @price cart item rest product =>
      have hSome :
          priceRead? t =
            some (item.product_id, product.price) := by
        simp only [priceRead?, hCall]
        rw [congrArg Prod.fst hExec]
      refine
        hFills.own hOwn rfl rfl rfl rfl ?_
          (hFills.lines _ rfl) (by rintro _ _ _ _ _ ⟨⟩)
          (by rintro _ _ _ ⟨⟩) (by rintro _ ⟨⟩) (by rintro _ ⟨⟩)
      rw [hSome]
      rfl
  | seek =>
      have hNone : priceRead? t = none :=
        priceRead?_eq_none hCall (by simp)
      refine
        hFills.own hOwn rfl rfl rfl rfl ?_
          (hFills.lines _ rfl) ?_ (by rintro _ _ _ ⟨⟩)
          (by rintro _ ⟨⟩) (by rintro _ ⟨⟩)
      · rw [hNone]
        exact (List.append_nil _).symm
      · intro cart item rest price found hSaving
        cases hSaving
        exact StoreOp.exec_orderItemFindFirst_ok hExec
  | sum =>
      have hNone : priceRead? t = none :=
        priceRead?_eq_none hCall (by simp)
      refine
        hFills.own hOwn rfl rfl rfl rfl ?_
          (hFills.lines _ rfl) (by rintro _ _ _ _ _ ⟨⟩)
          ?_ (by rintro _ ⟨⟩) (by rintro _ ⟨⟩)
      · rw [hNone]
        exact (List.append_nil _).symm
      · intro cart rest total hTotalling
        cases hTotalling
        rw [StoreOp.exec_orderItemFindMany_ok hExec]
  | view =>
      have hNone : priceRead? t = none :=
        priceRead?_eq_none hCall (by simp)
      refine
        hFills.own hOwn rfl rfl rfl rfl ?_
          (hFills.lines _ rfl) (by rintro _ _ _ _ _ ⟨⟩)
          (by rintro _ _ _ ⟨⟩) ?_ ?_
      · rw [hNone]
        exact (List.append_nil _).symm
      · rintro cart ⟨⟩
        exact hFills.total _ rfl
      · rintro cart ⟨⟩
        exact hFills.published _ rfl
  | stop hFilling hStop => exact FillsAt.of_untracked rfl
  | aside => exact FillsAt.of_untracked rfl

end Own

section Writes

variable {db userId tenantCode : String}
variable {items rest : List CreateOrderItemDto}
variable {item : CreateOrderItemDto} {price : Money}

/- A created order has no lines, and the total zero. -/
theorem FillsAt.own_opened
    {order : Order}
    (hFills :
      FillsAt index history t.before.store
        (.opening db userId tenantCode items))
    (hOwn : mover? t = some index)
    (hCall :
      t.call? =
        some
          (.tenant db (.orderCreate userId .PENDING 0),
            choice))
    (hExec :
      (StoreOp.tenant db
        (.orderCreate userId .PENDING 0)).exec choice
          t.before.store = (.ok order, t.after.store))
    (hNoLines :
      t.before.store.order? db order.id = none →
        t.before.store.items db order.id = []) :
    FillsAt index (t :: history) t.after.store
      (.between ⟨db, order.id, userId, tenantCode, []⟩
        items) := by
  rcases StoreOp.exec_orderCreate_ok hExec with
    ⟨hAbsent, hTotal⟩
  have hItems : t.after.store.items db order.id = [] := by
    rcases StoreOp.exec_items_cases hExec db order.id with
      hSame | ⟨_, _, _, _, hOp, _⟩ | ⟨_, _, _, _, hOp, _⟩
    · rw [hSame]
      exact hNoLines hAbsent
    · cases hOp
    · cases hOp
  have hNone : priceRead? t = none :=
    priceRead?_eq_none hCall (by simp)
  have hCreates : orderCreated? t = some order.id := by
    simp only [orderCreated?, hCall]
    rw [congrArg Prod.fst hExec]
  rcases tracks_of_own history hOwn with
    ⟨hCreatedOwn, hReadsOwn⟩
  refine
    ⟨?_, ?_, ?_, by rintro _ _ _ _ _ ⟨⟩,
      by rintro _ _ _ ⟨⟩, ?_, by rintro _ ⟨⟩⟩
  · intro _
    rw [hCreatedOwn, hFills.created rfl, hCreates]
    rfl
  · intro _
    rw [hReadsOwn, hFills.reads rfl, hNone]
    rfl
  · rintro _ ⟨⟩
    rw [hItems]
    rfl
  · rintro _ ⟨⟩
    rw [hItems, hTotal]
    rfl

/- The price of an item that is written has been read. -/
theorem reads_of_save
    (cart : Cart)
    (hNone : priceRead? t = none) :
    (cart.add item price).reads =
      cart.reads ++ [(item.product_id, price)] ++
        (priceRead? t).toList := by
  rw [hNone, Option.toList_none, List.append_nil, Cart.reads,
    Cart.add, List.map_append]
  rfl

/- A line that is created is added to the tally. -/
theorem FillsAt.own_insert
    {line : OrderItem}
    (hFills :
      FillsAt index history t.before.store
        (.saving cart item rest price none))
    (hOwn : mover? t = some index)
    (hCall :
      t.call? =
        some
          (.tenant cart.db
            (.orderItemCreate cart.orderId item.product_id
              item.qty price), choice))
    (hExec :
      (StoreOp.tenant cart.db
        (.orderItemCreate cart.orderId item.product_id
          item.qty price)).exec choice t.before.store =
        (.ok line, t.after.store)) :
    FillsAt index (t :: history) t.after.store
      (.summing (cart.add item price) rest) := by
  have hLine :=
    hFills.found cart item rest price none rfl
  have hNone : priceRead? t = none :=
    priceRead?_eq_none hCall (by simp)
  rcases StoreOp.exec_orderItemCreate_ok hExec with
    ⟨hItems, hEntry⟩
  have hProduct : line.productId = item.product_id :=
    congrArg Entry.key hEntry
  rw [← hProduct] at hLine
  refine
    hFills.own hOwn rfl rfl rfl rfl
      (reads_of_save cart hNone) ?_
      (by rintro _ _ _ _ _ ⟨⟩) (by rintro _ _ _ ⟨⟩)
      (by rintro _ ⟨⟩) (by rintro _ ⟨⟩)
  rw [Cart.db_add, Cart.orderId_add, hItems,
    entries_insert hLine.symm, hFills.lines cart rfl, hEntry,
    Cart.add, tally_append]

/- A line that is updated is merged into the tally. -/
theorem FillsAt.own_merge
    {found line : OrderItem}
    (hFills :
      FillsAt index history t.before.store
        (.saving cart item rest price (some found)))
    (hOwn : mover? t = some index)
    (hCall :
      t.call? =
        some
          (.tenant cart.db
            (.orderItemUpdate found.id
              (found.quantity.val + item.qty)), choice))
    (hExec :
      (StoreOp.tenant cart.db
        (.orderItemUpdate found.id
          (found.quantity.val + item.qty))).exec choice
            t.before.store = (.ok line, t.after.store)) :
    FillsAt index (t :: history) t.after.store
      (.summing (cart.add item price) rest) := by
  have hLine :=
    hFills.found cart item rest price (some found) rfl
  have hLines := hFills.lines cart rfl
  have hNone : priceRead? t = none :=
    priceRead?_eq_none hCall (by simp)
  have hMem := (lineOf?_eq_some hLine.symm).1
  rcases StoreOp.exec_orderItemUpdate_ok hExec hMem with
    ⟨column, hColumn, hItems⟩
  refine
    hFills.own hOwn rfl rfl rfl rfl
      (reads_of_save cart hNone) ?_
      (by rintro _ _ _ _ _ ⟨⟩) (by rintro _ _ _ ⟨⟩)
      (by rintro _ ⟨⟩) (by rintro _ ⟨⟩)
  rw [Cart.db_add, Cart.orderId_add, hItems,
    entries_merge hLine.symm ?_ ?_ hColumn, hLines,
    Cart.add, tally_append]
  · intro row hRow hId
    exact Backend.items_id_inj hRow hMem hId
  · -- the tally has one entry for the product
    intro row hRow hProduct
    have hNodup :
        ((tally cart.added).map Entry.key).Nodup :=
      nodup_keys_tally
    rw [← hLines, List.map_map] at hNodup
    exact
      List.inj_on_of_nodup_map hNodup hRow hMem hProduct

/- A total that is written is that of the lines. -/
theorem FillsAt.own_total
    {total : Int}
    {view : OrderView}
    (hFills :
      FillsAt index history t.before.store
        (.totalling cart rest total))
    (hOwn : mover? t = some index)
    (hCall :
      t.call? =
        some
          (.tenant cart.db
            (.orderUpdate cart.orderId
              (Phase.setTotal total)), choice))
    (hExec :
      (StoreOp.tenant cart.db
        (.orderUpdate cart.orderId
          (Phase.setTotal total))).exec choice
            t.before.store = (.ok view, t.after.store)) :
    FillsAt index (t :: history) t.after.store
      (.between cart rest) := by
  have hItems :
      t.after.store.items cart.db cart.orderId =
        t.before.store.items cart.db cart.orderId := by
    rcases
        StoreOp.exec_items_cases hExec cart.db cart.orderId
      with
      hSame | ⟨_, _, _, _, hOp, _⟩ | ⟨_, _, _, _, hOp, _⟩
    · exact hSame
    · cases hOp
    · cases hOp
  have hNone : priceRead? t = none :=
    priceRead?_eq_none hCall (by simp)
  refine
    hFills.own hOwn rfl rfl rfl rfl ?_ ?_
      (by rintro _ _ _ _ _ ⟨⟩) (by rintro _ _ _ ⟨⟩) ?_
      (by rintro _ ⟨⟩)
  · rw [hNone]
    exact (List.append_nil _).symm
  · rw [hItems]
    exact hFills.lines cart rfl
  · rintro _ ⟨⟩
    rw [StoreOp.exec_setTotal_ok hExec, hItems,
      hFills.summed cart rest total rfl]

/- A published order keeps its lines and its total. -/
theorem FillsAt.own_publish
    {answer : Unit}
    (hFills :
      FillsAt index history t.before.store
        (.between cart []))
    (hOwn : mover? t = some index)
    (hCall :
      t.call? =
        some
          (.publishOrderProcessing
            ⟨cart.orderId, cart.userId, cart.tenantCode⟩,
            choice))
    (hExec :
      (StoreOp.publishOrderProcessing
        ⟨cart.orderId, cart.userId,
          cart.tenantCode⟩).exec choice t.before.store =
        (.ok answer, t.after.store)) :
    FillsAt index (t :: history) t.after.store
      (.viewing cart) := by
  have hStore :=
    StoreOp.exec_publishOrderProcessing_ok hExec
  have hNone : priceRead? t = none :=
    priceRead?_eq_none hCall (by simp)
  refine
    hFills.own hOwn rfl rfl rfl rfl ?_ ?_
      (by rintro _ _ _ _ _ ⟨⟩) (by rintro _ _ _ ⟨⟩) ?_ ?_
  · rw [hNone]
    exact (List.append_nil _).symm
  · rw [hStore]
    exact hFills.lines cart rfl
  · rintro _ ⟨⟩
    rw [hStore]
    exact hFills.total cart rfl
  · rintro _ ⟨⟩
    rw [hStore]
    exact List.mem_append_right _ List.mem_cons_self

end Writes

/- A call of its own keeps what a request has filled. -/
theorem FillsAt.resume_own
    (hFills : FillsAt index history t.before.store fill)
    (hOwn : mover? t = some index)
    (hCall : t.call? = some (op, choice))
    (hExec :
      op.exec choice t.before.store =
        (answer, t.after.store))
    (hMoves : FillPhase.Moves fill op answer fill')
    (hNoLines :
      ∀ name id, t.before.store.order? name id = none →
        t.before.store.items name id = []) :
    FillsAt index (t :: history) t.after.store fill' := by
  cases hMoves with
  | opened =>
      exact
        hFills.own_opened hOwn hCall hExec (hNoLines _ _)
  | check hStatus =>
      exact
        hFills.own_read hOwn hCall hExec rfl
          (FillPhase.Moves.check hStatus)
  | price =>
      exact
        hFills.own_read hOwn hCall hExec rfl
          FillPhase.Moves.price
  | seek =>
      exact
        hFills.own_read hOwn hCall hExec rfl
          FillPhase.Moves.seek
  | insert => exact hFills.own_insert hOwn hCall hExec
  | merge => exact hFills.own_merge hOwn hCall hExec
  | sum =>
      exact
        hFills.own_read hOwn hCall hExec rfl
          FillPhase.Moves.sum
  | total => exact hFills.own_total hOwn hCall hExec
  | publish => exact hFills.own_publish hOwn hCall hExec
  | view =>
      exact
        hFills.own_read hOwn hCall hExec rfl
          FillPhase.Moves.view
  | stop hFilling hStop => exact FillsAt.of_untracked rfl
  | aside => exact FillsAt.of_untracked rfl

end OrderApi

------------------------------------------------------------
-- The Invariant of All Requests
------------------------------------------------------------

namespace OrderApi

/-
  Every request has filled its order as far as its phase
  says, orders that do not exist have no lines, and only
  started threads move.
-/
structure FillInv
    (databaseName : String → String)
    (history : List WorldStep)
    (store : Backend)
    (phases : List (Phase × FillPhase)) : Prop where
  lines :
    LinesInv databaseName history store
      (phases.map Prod.fst)
  no_lines :
    ∀ name id, store.order? name id = none →
      store.items name id = []
  movers :
    ∀ t ∈ history, ∀ index, mover? t = some index →
      index < phases.length
  fills :
    ∀ (index : Nat) (phase : Phase × FillPhase),
      phases[index]? = some phase →
        FillsAt index history store phase.2

variable {databaseName : String → String}
variable {start : Backend} {world : World}
variable {history : List WorldStep} {t : WorldStep}
variable {phases : List (Phase × FillPhase)}
variable {phase phase' : Phase × FillPhase}
variable {index : Nat} {job : Job} {op : StoreOp}
variable {choice : Choice}
variable {answer : Except ApiError op.Res}

/- Nothing is filled in a fresh store. -/
theorem FillInv.idle
    (hFresh : start.Fresh) :
    FillInv databaseName [] start [] where
  lines := LinesInv.idle hFresh
  no_lines := fun name id _ => hFresh.no_items name id
  movers := by simp
  fills := by simp

/- A started job has read and created nothing. -/
theorem FillsAt.of_start
    (hMovers : ∀ t ∈ history, mover? t ≠ some index)
    (store : Backend)
    (job : Job) :
    FillsAt index history store
      (job.fillPhase databaseName) := by
  rcases tracks_of_not_moved hMovers with
    ⟨hCreated, hReads⟩
  cases job with
  | createOrder user tenantCode body =>
      exact
        ⟨fun _ => hCreated, fun _ => hReads,
          by rintro _ ⟨⟩, by rintro _ _ _ _ _ ⟨⟩,
          by rintro _ _ _ ⟨⟩, by rintro _ ⟨⟩,
          by rintro _ ⟨⟩⟩
  | _ => exact FillsAt.of_untracked rfl

/- Starting a job preserves the invariant. -/
theorem FillInv.start_job
    (hInv :
      FillInv databaseName history t.before.store phases)
    (hReady : job.ready t.before.store = true)
    (hStore : t.after.store = t.before.store)
    (hStart : mover? t = none) :
    FillInv databaseName (t :: history) t.after.store
      (phases ++
        [(job.phase databaseName,
          job.fillPhase databaseName)]) := by
  have hMoves : ∀ index, mover? t ≠ some index := by
    intro index
    rw [hStart]
    exact fun h => by cases h
  constructor
  · rw [List.map_append]
    exact hInv.lines.start_job hReady hStore
  · rw [hStore]
    exact hInv.no_lines
  · intro t' hMem index hMover
    rw [List.length_append]
    rcases List.mem_cons.mp hMem with rfl | hOld
    · exact (hMoves index hMover).elim
    · have hLess := hInv.movers t' hOld index hMover
      exact Nat.lt_add_right _ hLess
  · intro index pair hAt
    rw [hStore]
    rcases getElem?_append_cases hAt with
      ⟨hEnd, rfl⟩ | hOld
    · apply FillsAt.of_start
      intro t' hMem hMover
      rcases List.mem_cons.mp hMem with rfl | hOld
      · exact hMoves index hMover
      · have hLess := hInv.movers t' hOld index hMover
        omega
    · exact
        (hInv.fills index pair hOld).frame (hMoves index)
          (fun _ _ => rfl) (fun _ _ => rfl)
          (fun _ hMem => hMem)

section Resume

variable
  (hInv :
    FillInv databaseName history t.before.store phases)
  (hPhases :
    ∀ (i : Nat) (pair : Phase × FillPhase),
      phases[i]? = some pair →
        ∃ job, (orderScript databaseName).Owns job pair)
  (hPhase : phases[index]? = some phase)
  (hMoves : phase.1.Moves op answer phase'.1)
  (hExec :
    op.exec choice t.before.store =
      (answer, t.after.store))

include hInv hPhases hPhase in
/- No thread adds to the order of another request. -/
theorem FillInv.apart
    {i : Nat}
    {pair : Phase × FillPhase}
    (hAt : phases[i]? = some pair)
    (hOther : i ≠ index)
    {cart : Cart}
    (hCart : cart ∈ pair.2.cart?) :
    t.before.store.order? cart.db cart.orderId ≠ none ∧
      phase.1.adds? ≠ some (cart.db, cart.orderId) := by
  have hMap :
      (phases.map Prod.fst)[i]? = some pair.1 := by
    rw [List.getElem?_map, hAt, Option.map_some]
  have hMapHere :
      (phases.map Prod.fst)[index]? = some phase.1 := by
    rw [List.getElem?_map, hPhase, Option.map_some]
  have hExists :
      t.before.store.status? cart.db cart.orderId ≠ none →
        t.before.store.order? cart.db cart.orderId ≠
          none := by
    intro hStatus hNone
    rw [Backend.status?, hNone] at hStatus
    exact hStatus rfl
  rcases hPhases i pair hAt with
    ⟨owner, _, hFills, hCouples⟩
  -- the order is being filled, or it has been published
  have hCases :
      pair.2.fills? = some (cart.db, cart.orderId) ∨
        pair.2.published? = some cart := by
    rcases pair with ⟨_, fill⟩
    cases fill with
    | viewing _ => exact Or.inr hCart
    | returned _ => exact Or.inr hCart
    | opening _ _ _ _ => cases hCart
    | stopped => cases hCart
    | aside => cases hCart
    | _ =>
        cases hCart
        exact Or.inl rfl
  rcases hCases with hKey | hPublished
  · have hAdds := hCouples.1 _ hKey
    have hMem := List.mem_of_getElem? hMap
    refine
      ⟨hExists
          (hInv.lines.adds_exist pair.1 hMem cart.db
            cart.orderId hAdds), ?_⟩
    intro hSame
    exact
      hOther
        (hInv.lines.adds_once i index pair.1 phase.1 _ hMap
          hMapHere hAdds hSame)
  · have hQueued :=
      (hInv.fills i pair hAt).published cart hPublished
    have hSealed := hInv.lines.queued _ hQueued
    have hDb : cart.db = databaseName cart.tenantCode := by
      rcases pair with ⟨_, fill⟩
      cases fill with
      | viewing _ =>
          rcases hFills cart hCart with
            ⟨_, _, _, hDb, _⟩
          exact hDb
      | returned _ =>
          rcases hFills cart hCart with
            ⟨_, _, _, hDb, _⟩
          exact hDb
      | _ => cases hPublished
    simp only at hSealed
    rw [← hDb] at hSealed
    exact
      ⟨hExists hSealed.1,
        hSealed.2 phase.1 (List.mem_of_getElem? hMapHere)⟩

include hInv hPhase hMoves hExec in
/- Orders that do not exist still have no lines. -/
theorem FillInv.no_lines_resume :
    ∀ name id, t.after.store.order? name id = none →
      t.after.store.items name id = [] := by
  intro name id hNone
  have hBefore : t.before.store.order? name id = none := by
    rcases StoreOp.exec_order_cases hExec name id with
      hSame | ⟨_, _, _, _, _, _, _, _, _, _, hNew⟩ |
        ⟨_, _, _, _, _, _, _, _, _, hNew⟩
    · rwa [← hSame]
    · rw [hNew] at hNone
      cases hNone
    · rw [hNew] at hNone
      cases hNone
  have hMapHere :
      (phases.map Prod.fst)[index]? = some phase.1 := by
    rw [List.getElem?_map, hPhase, Option.map_some]
  have hOther : phase.1.adds? ≠ some (name, id) := by
    intro hAdds
    have hExists :=
      hInv.lines.adds_exist phase.1
        (List.mem_of_getElem? hMapHere) name id hAdds
    rw [Backend.status?, hBefore] at hExists
    exact hExists rfl
  rw [hInv.lines.items_of_other hMapHere hMoves hExec hOther]
  exact hInv.no_lines name id hBefore

include hInv hPhases hPhase hMoves hExec in
/- An allowed call preserves the invariant. -/
theorem FillInv.resume
    (hOwns : Job.Owns databaseName job phase.1)
    (hMover : mover? t = some index)
    (hCall : t.call? = some (op, choice))
    (hFillMoves :
      FillPhase.Moves phase.2 op answer phase'.2) :
    FillInv databaseName (t :: history) t.after.store
      (phases.set index phase') := by
  have hMapHere :
      (phases.map Prod.fst)[index]? = some phase.1 := by
    rw [List.getElem?_map, hPhase, Option.map_some]
  constructor
  · rw [List.map_set]
    exact hInv.lines.resume hMapHere hOwns hMoves hExec
  · exact hInv.no_lines_resume hPhase hMoves hExec
  · intro t' hMem i hMover'
    rw [List.length_set]
    rcases List.mem_cons.mp hMem with rfl | hOld
    · rw [hMover] at hMover'
      cases hMover'
      exact (List.getElem?_eq_some_iff.mp hPhase).1
    · exact hInv.movers t' hOld i hMover'
  · intro i pair hAt
    rcases getElem?_set_cases hAt with
      ⟨rfl, rfl⟩ | ⟨hOther, hAt'⟩
    · exact
        (hInv.fills i phase hPhase).resume_own hMover hCall
          hExec hFillMoves hInv.no_lines
    · have hApart :
          ∀ cart ∈ pair.2.cart?,
            t.before.store.order? cart.db cart.orderId ≠
                none ∧
              phase.1.adds? ≠
                some (cart.db, cart.orderId) :=
        fun cart hCart =>
          hInv.apart hPhases hPhase hAt' hOther hCart
      refine
        (hInv.fills i pair hAt').frame ?_ ?_ ?_ ?_
      · rw [hMover]
        intro hSame
        exact hOther (Option.some.inj hSame).symm
      · intro cart hCart
        exact
          hInv.lines.items_of_other hMapHere hMoves hExec
            (hApart cart hCart).2
      · intro cart hCart
        exact
          hMoves.total?_of_other hExec (hApart cart hCart).1
            (hApart cart hCart).2
      · intro message hMem
        rcases hMoves.orderProcessing_cases hExec with
          hSame | ⟨_, _, _, _, _, _, hGrown⟩
        · rwa [hSame]
        · rw [hGrown]
          exact List.mem_append_left _ hMem

end Resume

end OrderApi

------------------------------------------------------------
-- Lines and Total of a Created Order
------------------------------------------------------------

namespace OrderApi

/- The sum of the quantities requested of a product. -/
def CreateOrderDto.quantityOf
    (body : CreateOrderDto)
    (productId : String) : Int :=
  ((body.items.filter fun item =>
    item.product_id = productId).map
      CreateOrderItemDto.qty).sum

/- The price of a product when it was read first. -/
def firstPrice?
    (reads : List (String × Money))
    (productId : String) : Option Money :=
  (reads.find? fun read => read.1 = productId).map Prod.snd

/-
  The lines that a request calls for: one for each product,
  with all of its quantity, at the price that was read when
  the product was first added.
-/
structure LinesOf
    (body : CreateOrderDto)
    (reads : List (String × Money))
    (lines : List OrderItem) : Prop where
  one_line : (lines.map OrderItem.productId).Nodup
  products :
    ∀ productId,
      productId ∈ lines.map OrderItem.productId ↔
        productId ∈
          body.items.map CreateOrderItemDto.product_id
  quantity :
    ∀ line ∈ lines,
      line.quantity.val = body.quantityOf line.productId
  price :
    ∀ line ∈ lines,
      firstPrice? reads line.productId = some line.price

/- A full cart makes the lines that the request calls for. -/
theorem linesOf_cart
    {cart : Cart}
    {body : CreateOrderDto}
    {lines : List OrderItem}
    (hLines :
      lines.map OrderItem.entry = tally cart.added)
    (hWanted :
      cart.added.map Entry.wanted =
        body.items.map CreateOrderItemDto.wanted) :
    LinesOf body cart.reads lines := by
  have hKeys :
      lines.map OrderItem.productId =
        (tally cart.added).map Entry.key := by
    rw [← hLines, List.map_map]
    rfl
  constructor
  · rw [hKeys]
    exact nodup_keys_tally
  · intro productId
    have hProducts :
        cart.added.map Entry.key =
          body.items.map CreateOrderItemDto.product_id := by
      have hFirst := congrArg (List.map Prod.fst) hWanted
      rw [List.map_map, List.map_map] at hFirst
      exact hFirst
    rw [hKeys, mem_keys_tally, hProducts]
  · intro line hLine
    have hEntry : line.entry ∈ tally cart.added := by
      rw [← hLines]
      exact List.mem_map_of_mem hLine
    have hSame :=
      congrArg
        (fun wanted =>
          ((wanted.filter fun pair : String × Int =>
            pair.1 = line.productId).map Prod.snd).sum)
        hWanted
    simp only [List.filter_map, List.map_map] at hSame
    exact (amount_of_mem_tally hEntry).trans hSame
  · intro line hLine
    have hEntry : line.entry ∈ tally cart.added := by
      rw [← hLines]
      exact List.mem_map_of_mem hLine
    have hTag := tag_of_mem_tally hEntry
    rw [firstPrice?, Cart.reads, List.find?_map,
      Option.map_map]
    exact hTag

variable {databaseName : String → String}
variable {start : Backend} {world : World}
variable {history : List WorldStep} {index : Nat}

/- The invariant holds after every run. -/
theorem fillInv_of_run
    (hFresh : start.Fresh)
    (hRun : OrderRun databaseName start history world) :
    ∃ phases,
      PoolSystem.OnScript (orderScript databaseName)
          world.threads phases ∧
        FillInv databaseName history world.store phases := by
  refine
    PoolSystem.script_invariant
      (orderSystem_performs databaseName) (fun _ => True)
      (fun history world phases =>
        FillInv databaseName history world.store phases)
      (FillInv.idle hFresh) ?_ ?_ hRun (fun _ _ => trivial)
  · intro history pool phases job hInv _ hReady pool' _
    exact
      FillInv.start_job (t := ⟨pool, .start job, pool'⟩) hInv
        hReady rfl rfl
  · intro history pool phases index choice job op resume
      phase phase' hInv hScript hThread hPhase hOwns hMoves
      answer pool' _
    let t : WorldStep := ⟨pool, .resume index choice, pool'⟩
    have hCall : t.call? = some (op, choice) :=
      Transition.call?_resume hThread
    have hPhases :
        ∀ (i : Nat) (pair : Phase × FillPhase),
          phases[i]? = some pair →
            ∃ job, (orderScript databaseName).Owns job pair :=
      fun _ _ hAt => hScript.job_of_phase hAt
    exact
      FillInv.resume (t := t) hInv hPhases hPhase hMoves.1
        rfl hOwns.1 rfl hCall hMoves.2

/-
  Once a create request has returned, its order has, then
  and ever after, the lines that the request called for, and
  the total of these lines.
-/
theorem lines_of_created_order
    (hFresh : start.Fresh)
    (hRun : OrderRun databaseName start history world)
    {user : AuthUser}
    {tenantCode : String}
    {body : CreateOrderDto}
    (hReturned :
      world.threads[index]? =
        some ⟨.createOrder user tenantCode body, .done ()⟩) :
    ∃ id order,
      createdOrder? index history = some id ∧
        world.store.order? (databaseName tenantCode) id =
          some order ∧
        LinesOf body (priceReads index history)
          (world.store.items (databaseName tenantCode) id) ∧
        order.total.val =
          ((world.store.items (databaseName tenantCode)
            id).map fun line =>
              line.price.val * line.quantity.val).sum := by
  rcases fillInv_of_run hFresh hRun with
    ⟨phases, hScript, hInv⟩
  rcases hScript.phase_of_thread hReturned with
    ⟨⟨phase, fill⟩, hPhase, hOwns, hEnds⟩
  rcases (hEnds.2 rfl).1 rfl with ⟨cart, hCart⟩
  simp only at hCart
  subst hCart
  have hFills := hInv.fills index _ hPhase
  rcases hOwns.2.1 cart rfl with
    ⟨user', body', hJob, hDb, _, hWanted⟩
  cases hJob
  have hTotal := hFills.total cart rfl
  rw [Backend.total?, Option.map_eq_some_iff] at hTotal
  rcases hTotal with ⟨order, hOrder, hSum⟩
  have hAdded :
      cart.added.map Entry.wanted =
        body.items.map CreateOrderItemDto.wanted := by
    rw [← hWanted]
    exact (List.append_nil _).symm
  have hReads : priceReads index history = cart.reads :=
    hFills.reads rfl
  rw [← hDb]
  refine
    ⟨cart.orderId, order, hFills.created rfl, hOrder, ?_, ?_⟩
  · rw [hReads]
    exact linesOf_cart (hFills.lines cart rfl) hAdded
  · rw [hSum, orderTotal_eq_sum]

/- A thread of a create request that has returned. -/
def returned? (index : Nat) (world : World) : Bool :=
  match world.threads[index]? with
  | some ⟨.createOrder _ _ _, .done _⟩ => true
  | _ => false

theorem thread_of_returned?
    (hReturned : returned? index world = true) :
    ∃ user tenantCode body,
      world.threads[index]? =
        some
          ⟨.createOrder user tenantCode body, .done ()⟩ := by
  unfold returned? at hReturned
  split at hReturned
  · rename_i user tenantCode body _ hThread
    exact ⟨user, tenantCode, body, hThread⟩
  · cases hReturned

/- A request for two items of one product has one line. -/
theorem lines_of_created_order_of_shop :
    ∃ history world user tenantCode body id order,
      OrderRun Shop.databaseName Shop.store history world ∧
        world.threads[0]? =
          some
            ⟨.createOrder user tenantCode body, .done ()⟩ ∧
        createdOrder? 0 history = some id ∧
        world.store.order? (Shop.databaseName tenantCode)
            id = some order ∧
        LinesOf body (priceReads 0 history)
          (world.store.items (Shop.databaseName tenantCode)
            id) ∧
        order.total.val =
          ((world.store.items (Shop.databaseName tenantCode)
            id).map fun line =>
              line.price.val * line.quantity.val).sum := by
  rcases
      Shop.exists_run
        ([.start
            (.createOrder Shop.alice "t1"
              ⟨[⟨"mug", 1, by decide⟩,
                  ⟨"mug", 2, by decide⟩],
                List.cons_ne_nil _ _⟩),
            Shop.go 0 "o"] ++
          Shop.goOn 0 3 ++ [Shop.go 0 "l"] ++
          Shop.goOn 0 10)
        (fun _ world => returned? 0 world)
        (by decide +kernel) with
    ⟨history, world, hRun, hCheck⟩
  rcases thread_of_returned? hCheck with
    ⟨user, tenantCode, body, hReturned⟩
  rcases
      lines_of_created_order Shop.store_fresh hRun hReturned
    with
    ⟨id, order, hCreated, hOrder, hLines, hTotal⟩
  exact
    ⟨history, world, user, tenantCode, body, id, order, hRun,
      hReturned, hCreated, hOrder, hLines, hTotal⟩

end OrderApi
