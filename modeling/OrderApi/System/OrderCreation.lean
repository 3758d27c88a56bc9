import OrderApi.System.PaymentAtomicity
import OrderApi.System.OrderTotals

/-
  What a create request leaves behind when it runs alone.

  The request inserts the order first and then adds the
  items one by one, each with six calls.  It returns exactly
  if the insertion and everything behind it is accepted, and
  an order whose request throws behind the insertion stays.

  Each item is checked against the whole stock, whatever the
  items before it took of the same product.

  Key definitions include:
    * `Creation.Inserts`
    * `Creation.Accepted`
    * `Creation.Completes`
    * `Creation.AllOrNothing`
    * `Creation.WithinStock`

  Key theorems include:
    * `Creation.create_succeedsIff`
    * `Creation.allOrNothing_iff`
    * `Creation.withinStock_iff`
-/

------------------------------------------------------------
-- Requests and What Becomes of Them
------------------------------------------------------------

namespace OrderApi

/- A call that the environment answers. -/
def Answered (choice : Choice) : Prop :=
  ∃ tick, choice = .answer tick

namespace Creation

/- How much of a product some items ask for. -/
def requested
    (productId : String)
    (items : List CreateOrderItemDto) : Int :=
  ((items.filter fun item =>
    item.product_id = productId).map
      CreateOrderItemDto.qty).sum

/- The price of a product, in cents. -/
def priceOf (db : TenantDb) (productId : String) : Int :=
  (db.products.find? productId).elim 0 fun product =>
    product.price.val

/- What items are worth at the present prices. -/
def worth
    (db : TenantDb)
    (items : List CreateOrderItemDto) : Int :=
  (items.map fun item =>
    priceOf db item.product_id * item.qty).sum

/- The number of calls that are made before an item's. -/
def callsBefore (before : List CreateOrderItemDto) : Nat :=
  6 * before.length + 1

/- A product without an earlier item gets a line of this id. -/
def NewLine
    (choices : Nat → Choice)
    (before : List CreateOrderItemDto)
    (item : CreateOrderItemDto)
    (lineId : String) : Prop :=
  item.product_id ∉
      before.map CreateOrderItemDto.product_id ∧
    ∃ tick,
      choices (callsBefore before + 3) = .answer tick ∧
        tick.freshId = lineId

/- The ids of all lines, those of earlier items included. -/
def LineIdTaken
    (choices : Nat → Choice)
    (db : TenantDb)
    (before : List CreateOrderItemDto)
    (lineId : String) : Prop :=
  db.orderItems.find? lineId ≠ none ∨
    ∃ front other back,
      before = front ++ other :: back ∧
        NewLine choices front other lineId

/-
  An item is added behind other items: its calls are
  answered, its product has enough in stock for it, and the
  quantity, the line's id and the total can be stored.
-/
structure Accepted
    (choices : Nat → Choice)
    (db : TenantDb)
    (before : List CreateOrderItemDto)
    (item : CreateOrderItemDto) : Prop where
  answered :
    ∀ k < 6, Answered (choices (callsBefore before + k))
  stock :
    ∃ product,
      db.products.find? item.product_id = some product ∧
        item.qty ≤ product.stock.val
  quantity :
    requested item.product_id (before ++ [item]) ≤ 2147483647
  line :
    ∀ lineId,
      NewLine choices before item lineId →
        ¬ LineIdTaken choices db before lineId
  total :
    -9999999999 ≤ worth db (before ++ [item]) ∧
      worth db (before ++ [item]) ≤ 9999999999

/- The order is inserted, by the first call. -/
def Inserts
    (choices : Nat → Choice)
    (db : TenantDb) : Prop :=
  ∃ tick,
    choices 0 = .answer tick ∧
      db.orders.find? tick.freshId = none

/- Everything behind the insertion is accepted. -/
def Completes
    (choices : Nat → Choice)
    (db : TenantDb)
    (items : List CreateOrderItemDto) : Prop :=
  AcceptsAll (Accepted choices db) items ∧
    Answered (choices (callsBefore items)) ∧
    Answered (choices (callsBefore items + 1))

end Creation

end OrderApi

------------------------------------------------------------
-- Calls amid a Request
------------------------------------------------------------

namespace OrderApi

section Put

variable {store : Backend} {name : String} {db : TenantDb}
variable {Stop : Backend → Prop}

/- A call that is carried out exactly if it can be. -/
theorem prisma_put_succeedsIff
    (choices : Nat → Choice)
    {Good : Prop}
    (op : TenantOp)
    {Post : op.Res → (Nat → Choice) → Backend → Prop}
    (hExec :
      ∀ tick, choices 0 = .answer tick →
        (Good ∧
          ∃ value db',
            op.exec tick db = .ok (value, db') ∧
              Post value (fun n => choices (n + 1))
                (store.put name db')) ∨
        (¬ Good ∧
          ∃ message, op.exec tick db = .error message))
    (hStop :
      ¬ (Answered (choices 0) ∧ Good) →
        Stop (store.put name db)) :
    Program.SucceedsIff execAlone
      (Answered (choices 0) ∧ Good) Post Stop
      (prisma name op) choices (store.put name db) := by
  refine prisma_succeedsIff op ?_ hStop
  cases hChoice : choices 0 with
  | failure message =>
      refine Or.inr ⟨?_, storeError message, rfl⟩
      rintro ⟨⟨tick, hTick⟩, _⟩
      cases hTick
  | answer tick =>
      rcases hExec tick hChoice with
        ⟨hGood, value, db', hRun, hPost⟩ |
          ⟨hBad, message, hRun⟩
      · refine
          Or.inl
            ⟨⟨⟨tick, rfl⟩, hGood⟩, value,
              store.put name db', ?_, hPost⟩
        rw [← Backend.put_put db db']
        simp [execAlone, StoreOp.exec, hRun, Backend.put]
      · refine
          Or.inr
            ⟨fun hBoth => hBad hBoth.2, storeError message,
              ?_⟩
        simp [execAlone, StoreOp.exec, hRun]

/- A read is carried out if it is answered. -/
theorem prisma_put_read_succeedsIff
    (choices : Nat → Choice)
    (op : TenantOp)
    {value : op.Res}
    (hRead : ∀ tick, op.exec tick db = .ok (value, db))
    (hStop : Stop (store.put name db)) :
    Program.SucceedsIff execAlone (Answered (choices 0))
      (fun value' rest store' =>
        value' = value ∧
          rest = (fun n => choices (n + 1)) ∧
          store' = store.put name db)
      Stop (prisma name op) choices (store.put name db) := by
  have hCall :
      Program.SucceedsIff execAlone
        (Answers (choices 0) (store.put name db) name)
        (fun value' rest store' =>
          value' = value ∧
            rest = (fun n => choices (n + 1)) ∧
            store' = store.put name db)
        Stop (prisma name op) choices (store.put name db) := by
    refine prisma_read_succeedsIff op ?_ fun _ => hStop
    intro tick db' hDb
    rw [Backend.put_dbs_same, Option.some.injEq] at hDb
    subst hDb
    exact hRead tick
  apply hCall.congr
  simp [Answers, Answered]

end Put

namespace TenantOp

variable {tick : Tick} {db : TenantDb} {id : String}

/- A line that exists takes any quantity in range. -/
theorem exec_orderItemUpdate_cases
    {item : OrderItem}
    (hFind : db.orderItems.find? id = some item)
    (quantity : Int) :
    ((-2147483648 ≤ quantity ∧ quantity ≤ 2147483647) ∧
      ∃ row db',
        (orderItemUpdate id quantity).exec tick db =
          .ok (row, db')) ∨
    (¬ (-2147483648 ≤ quantity ∧ quantity ≤ 2147483647) ∧
      ∃ message,
        (orderItemUpdate id quantity).exec tick db =
          .error message) := by
  rcases Bounded.ofInt?_cases quantity with
    ⟨column, hColumn, hRange⟩ | ⟨hRange, hNone⟩
  · refine Or.inl ⟨?_, ?_⟩
    · rw [← hColumn]
      exact ⟨column.low_le, column.le_high⟩
    · simp only [exec, hRange, hFind]
      exact ⟨_, _, rfl⟩
  · refine Or.inr ⟨hRange, ?_⟩
    simp only [exec, hNone]
    exact ⟨_, rfl⟩

/- A line of an order is added if its id is not in use. -/
theorem exec_orderItemCreate_cases
    {orderId productId : String}
    {quantity : Int}
    (hQuantity :
      -2147483648 ≤ quantity ∧ quantity ≤ 2147483647)
    (hOrder : db.orders.find? orderId ≠ none)
    (hProduct : db.products.find? productId ≠ none)
    (price : Money) :
    (db.orderItems.find? tick.freshId = none ∧
      ∃ item db',
        (orderItemCreate orderId productId quantity
          price).exec tick db = .ok (item, db')) ∨
    (db.orderItems.find? tick.freshId ≠ none ∧
      ∃ message,
        (orderItemCreate orderId productId quantity
          price).exec tick db = .error message) := by
  rcases Bounded.ofInt?_cases quantity with
    ⟨column, hColumn, hRange⟩ | ⟨hRange, _⟩
  swap
  · exact (hRange hQuantity).elim
  let item : OrderItem :=
    { id := tick.freshId
      orderId := orderId
      productId := productId
      quantity := column
      price := price }
  have hReferences :
      ¬ ((db.orders.find? orderId).isNone = true ∨
        (db.products.find? productId).isNone = true) := by
    simp [hOrder, hProduct]
  rcases db.orderItems.insert?_cases item with
    ⟨hFree, items, hInsert⟩ | ⟨hUsed, hInsert⟩
  · refine
      Or.inl
        ⟨hFree, item, { db with orderItems := items }, ?_⟩
    simp only [exec, hRange, if_neg hReferences]
    rw [hInsert]
  · refine Or.inr ⟨hUsed, uniqueViolated, ?_⟩
    simp only [exec, hRange, if_neg hReferences]
    rw [hInsert]

/- A total is written if it is in the range of its column. -/
theorem exec_setTotal_cases
    {order : Order}
    (hFind : db.orders.find? id = some order)
    (total : Int) :
    ((-9999999999 ≤ total ∧ total ≤ 9999999999) ∧
      ∃ view db',
        (orderUpdate id (Phase.setTotal total)).exec tick db =
          .ok (view, db')) ∨
    (¬ (-9999999999 ≤ total ∧ total ≤ 9999999999) ∧
      ∃ message,
        (orderUpdate id (Phase.setTotal total)).exec tick db =
          .error message) := by
  rcases Bounded.ofInt?_cases total with
    ⟨column, hColumn, hRange⟩ | ⟨hRange, hNone⟩
  · refine Or.inl ⟨?_, ?_⟩
    · rw [← hColumn]
      exact ⟨column.low_le, column.le_high⟩
    · simp only [exec, hFind, Phase.setTotal, columnValue,
        hRange]
      exact ⟨_, _, rfl⟩
  · refine Or.inr ⟨hRange, ?_⟩
    simp only [exec, hFind, Phase.setTotal, columnValue,
      hNone]
    exact ⟨_, rfl⟩

/- An order is inserted if its id is not in use. -/
theorem exec_orderCreate_cases
    (userId : String)
    (status : OrderStatus) :
    (db.orders.find? tick.freshId = none ∧
      ∃ order db',
        (orderCreate userId status 0).exec tick db =
          .ok (order, db')) ∨
    (db.orders.find? tick.freshId ≠ none ∧
      ∃ message,
        (orderCreate userId status 0).exec tick db =
          .error message) := by
  rcases
      (Bounded.ofInt?_cases 0 :
        _ ∨ (¬ _ ∧ (_ : Option Money) = none)) with
    ⟨column, _, hRange⟩ | ⟨hRange, _⟩
  swap
  · exact (hRange (by decide)).elim
  let order : Order :=
    { id := tick.freshId
      userId := userId
      status := status
      total := column
      paymentId := none
      transactionId := none
      createdAt := tick.now }
  rcases db.orders.insert?_cases order with
    ⟨hFree, orders, hInsert⟩ | ⟨hUsed, hInsert⟩
  · refine
      Or.inl ⟨hFree, order, { db with orders := orders }, ?_⟩
    simp only [exec, hRange]
    rw [hInsert]
  · refine Or.inr ⟨hUsed, uniqueViolated, ?_⟩
    simp only [exec, hRange]
    rw [hInsert]

end TenantOp

end OrderApi

------------------------------------------------------------
-- An Order amid Its Request
------------------------------------------------------------

namespace OrderApi

namespace Creation

/-
  The database amid a request that has inserted its order
  and added some items: the order's lines are their tally.
-/
structure Filled
    (choices : Nat → Choice)
    (db : TenantDb)
    (orderId userId : String)
    (before : List CreateOrderItemDto)
    (added : List (Entry String Money))
    (db' : TenantDb) : Prop where
  products : db'.products = db.products
  orderIds :
    db'.orders.rows.map Order.id =
      db.orders.rows.map Order.id ++ [orderId]
  order :
    ∃ order,
      db'.orders.find? orderId = some order ∧
        order.userId = userId ∧
        order.status = .PENDING
  wanted :
    added.map Entry.wanted =
      before.map CreateOrderItemDto.wanted
  priced :
    ∀ entry ∈ added, ∃ product,
      db.products.find? entry.key = some product ∧
        product.price = entry.tag
  lines :
    (db'.itemsOf orderId).map OrderItem.entry = tally added
  lineIds :
    ∀ lineId,
      db'.orderItems.find? lineId ≠ none ↔
        LineIdTaken choices db before lineId

variable {choices : Nat → Choice} {db db' : TenantDb}
variable {orderId userId productId : String}
variable {before : List CreateOrderItemDto}
variable {added : List (Entry String Money)}

/- The entries are under the products that are asked for. -/
theorem keys_of_wanted
    (hWanted :
      added.map Entry.wanted =
        before.map CreateOrderItemDto.wanted) :
    added.map Entry.key =
      before.map CreateOrderItemDto.product_id := by
  have hFirst := congrArg (List.map Prod.fst) hWanted
  rw [List.map_map, List.map_map] at hFirst
  exact hFirst

/- The amounts are what is asked for of a product. -/
theorem amounts_of_wanted
    (hWanted :
      added.map Entry.wanted =
        before.map CreateOrderItemDto.wanted)
    (productId : String) :
    ((added.filter fun entry =>
        entry.key = productId).map Entry.amount).sum =
      requested productId before := by
  have hSums :=
    congrArg
      (fun pairs : List (String × Int) =>
        ((pairs.filter fun pair =>
          pair.1 = productId).map Prod.snd).sum)
      hWanted
  simp only [List.filter_map, List.map_map] at hSums
  exact hSums

/- The entries are worth what the items are. -/
theorem worthOf_of_wanted
    (hWanted :
      added.map Entry.wanted =
        before.map CreateOrderItemDto.wanted)
    (hPriced :
      ∀ entry ∈ added, ∃ product,
        db.products.find? entry.key = some product ∧
          product.price = entry.tag) :
    worthOf (fun _ price => price.val) added =
      worth db before := by
  have hPriceOf :
      ∀ entry ∈ added,
        entry.tag.val * entry.amount =
          priceOf db entry.key * entry.amount := by
    intro entry hEntry
    rcases hPriced entry hEntry with
      ⟨product, hFind, hPrice⟩
    rw [priceOf, hFind, Option.elim_some, hPrice]
  calc
    worthOf (fun _ price => price.val) added
      = (added.map fun entry =>
          priceOf db entry.key * entry.amount).sum := by
        rw [worthOf, List.map_congr_left hPriceOf]
    _ = ((added.map Entry.wanted).map fun pair =>
          priceOf db pair.1 * pair.2).sum := by
        rw [List.map_map]
        rfl
    _ = worth db before := by
        rw [hWanted, List.map_map]
        rfl

namespace Filled

/- A product has a line exactly if an item asked for it. -/
theorem lineOf?_eq_none_iff
    (hFilled :
      Filled choices db orderId userId before added db') :
    lineOf? (db'.itemsOf orderId) productId = none ↔
      productId ∉
        before.map CreateOrderItemDto.product_id := by
  have hKeys :
      (db'.itemsOf orderId).map OrderItem.productId =
        (tally added).map Entry.key := by
    rw [← hFilled.lines, List.map_map]
    rfl
  rw [← keys_of_wanted hFilled.wanted, ← mem_keys_tally,
    ← hKeys, List.mem_map]
  simp only [lineOf?, List.find?_eq_none, decide_eq_true_eq,
    not_exists, not_and]

/- The line of a product has all that was asked for. -/
theorem quantity_of_lineOf?
    {line : OrderItem}
    (hFilled :
      Filled choices db orderId userId before added db')
    (hLine :
      lineOf? (db'.itemsOf orderId) productId = some line) :
    line.quantity.val = requested productId before := by
  rcases lineOf?_eq_some hLine with ⟨hMem, hProduct⟩
  have hEntry : line.entry ∈ tally added := by
    rw [← hFilled.lines]
    exact List.mem_map_of_mem hMem
  have hAmount := amount_of_mem_tally hEntry
  rw [← amounts_of_wanted hFilled.wanted productId,
    ← hProduct]
  exact hAmount

/- Entries of a product have one price. -/
theorem tags
    (hFilled :
      Filled choices db orderId userId before added db') :
    ∀ entry ∈ added, ∀ found ∈ added,
      found.key = entry.key → found.tag = entry.tag := by
  intro entry hEntry found hFound hKey
  rcases hFilled.priced entry hEntry with
    ⟨product, hProduct, hPrice⟩
  rcases hFilled.priced found hFound with
    ⟨product', hProduct', hPrice'⟩
  rw [hKey, hProduct, Option.some.injEq] at hProduct'
  rw [← hPrice, ← hPrice', hProduct']

/- The lines have all that was asked for of a product. -/
theorem quantityOf_eq
    (hFilled :
      Filled choices db orderId userId before added db')
    (productId : String) :
    quantityOf productId (db'.itemsOf orderId) =
      requested productId before := by
  have hLines :
      quantityOf productId (db'.itemsOf orderId) =
        (((tally added).filter fun entry =>
          entry.key = productId).map Entry.amount).sum := by
    rw [← hFilled.lines, List.filter_map, List.map_map]
    rfl
  rw [hLines, ← worthOf_key,
    worthOf_tally _ hFilled.tags, worthOf_key,
    amounts_of_wanted hFilled.wanted]

/- The total of the lines is what the items are worth. -/
theorem orderTotal_eq
    (hFilled :
      Filled choices db orderId userId before added db') :
    OrderService.orderTotal (db'.itemsOf orderId) =
      worth db before := by
  have hLines :
      worthOf (fun _ price => price.val)
          ((db'.itemsOf orderId).map OrderItem.entry) =
        ((db'.itemsOf orderId).map fun item =>
          item.price.val * item.quantity.val).sum := by
    rw [worthOf, List.map_map]
    rfl
  rw [orderTotal_eq_sum, ← hLines, hFilled.lines,
    worthOf_tally (fun _ price => price.val) hFilled.tags,
    worthOf_of_wanted hFilled.wanted hFilled.priced]

end Filled

end Creation

end OrderApi

------------------------------------------------------------
-- Writes amid a Request
------------------------------------------------------------

namespace OrderApi

namespace TenantOp

variable {tick : Tick} {db db' : TenantDb}

/- The line that is created has the fresh id. -/
theorem id_of_orderItemCreate
    {orderId productId : String}
    {quantity : Int}
    {price : Money}
    {item : OrderItem}
    (hExec :
      (orderItemCreate orderId productId quantity
        price).exec tick db = .ok (item, db')) :
    item.id = tick.freshId := by
  simp only [exec] at hExec
  split at hExec
  · cases hExec
  · split at hExec
    · cases hExec
    · split at hExec
      · cases hExec
      · cases hExec
        rfl

/- A line is only created for an order that exists. -/
theorem order_of_orderItemCreate
    {orderId productId : String}
    {quantity : Int}
    {price : Money}
    {item : OrderItem}
    (hExec :
      (orderItemCreate orderId productId quantity
        price).exec tick db = .ok (item, db')) :
    db.orders.find? orderId ≠ none := by
  simp only [exec] at hExec
  split at hExec
  · cases hExec
  · split at hExec
    · cases hExec
    · rename_i hReferences
      intro hNone
      exact hReferences (Or.inl (by simp [hNone]))

/- An update keeps the orders' ids. -/
theorem orderIds_of_orderUpdate
    {id : String}
    {data : OrderUpdate}
    {view : OrderView}
    (hExec :
      (orderUpdate id data).exec tick db = .ok (view, db')) :
    db'.orders.rows.map Order.id =
      db.orders.rows.map Order.id := by
  simp only [exec] at hExec
  split at hExec
  · cases hExec
  · split at hExec
    · cases hExec
    · cases hExec
      exact
        db.orders.keys_update id _
          (fun row => row.key_apply data _)

end TenantOp

namespace Creation

variable {choices : Nat → Choice} {tick : Tick}
variable {db db' db'' : TenantDb}
variable {orderId userId lineId : String}
variable {before : List CreateOrderItemDto}
variable {item : CreateOrderItemDto}
variable {added : List (Entry String Money)}
variable {product : Product}

/- One more item takes the id of its new line, if any. -/
theorem lineIdTaken_append :
    LineIdTaken choices db (before ++ [item]) lineId ↔
      LineIdTaken choices db before lineId ∨
        NewLine choices before item lineId := by
  constructor
  · rintro (hOld | ⟨front, other, back, hSplit, hNew⟩)
    · exact Or.inl (Or.inl hOld)
    · rcases split_cases hSplit with
        ⟨rfl, rfl⟩ | ⟨middle, rfl⟩ | ⟨middle, hBefore⟩
      · exact Or.inr hNew
      · have hLength := congrArg List.length hSplit
        simp only [List.length_append, List.length_cons,
          List.length_nil] at hLength
        omega
      · exact
          Or.inl
            (Or.inr ⟨front, other, middle, hBefore, hNew⟩)
  · rintro ((hOld | ⟨front, other, back, hBefore, hNew⟩) |
      hNew)
    · exact Or.inl hOld
    · refine
        Or.inr ⟨front, other, back ++ [item], ?_, hNew⟩
      rw [hBefore, List.append_assoc, List.cons_append]
    · exact Or.inr ⟨before, item, [], rfl, hNew⟩

theorem wanted_append
    (hWanted :
      added.map Entry.wanted =
        before.map CreateOrderItemDto.wanted)
    (item : CreateOrderItemDto)
    (price : Money) :
    (added ++
          [(⟨item.product_id, item.qty, price⟩ :
            Entry String Money)]).map Entry.wanted =
      (before ++ [item]).map CreateOrderItemDto.wanted := by
  rw [List.map_append, List.map_append, hWanted]
  rfl

theorem priced_append
    (hPriced :
      ∀ entry ∈ added, ∃ product,
        db.products.find? entry.key = some product ∧
          product.price = entry.tag)
    (hProduct :
      db.products.find? item.product_id = some product) :
    ∀ entry ∈
        added ++
          [(⟨item.product_id, item.qty, product.price⟩ :
            Entry String Money)],
      ∃ product,
        db.products.find? entry.key = some product ∧
          product.price = entry.tag := by
  intro entry hMem
  rcases List.mem_append.mp hMem with hOld | hNew
  · exact hPriced entry hOld
  · rw [List.mem_singleton] at hNew
    subst hNew
    exact ⟨product, hProduct, rfl⟩

namespace Filled

/- An item whose product has no line yet is added. -/
theorem insert
    {line : OrderItem}
    (hFilled :
      Filled choices db orderId userId before added db')
    (hProduct :
      db.products.find? item.product_id = some product)
    (hNone :
      lineOf? (db'.itemsOf orderId) item.product_id = none)
    (hTick :
      choices (callsBefore before + 3) = .answer tick)
    (hRun :
      (TenantOp.orderItemCreate orderId item.product_id
        item.qty product.price).exec tick db' =
          .ok (line, db'')) :
    Filled choices db orderId userId (before ++ [item])
      (added ++ [⟨item.product_id, item.qty, product.price⟩])
      db'' := by
  rcases TenantOp.exec_frame hRun with
    ⟨hFrame, _, hFrame'⟩
  have hOrders := hFrame (by simp [TenantOp.writes])
  have hProducts := hFrame' (by simp [TenantOp.writes])
  rcases TenantOp.exec_orderItemCreate hRun with
    ⟨hOrder, hLineProduct, hQuantity, hPrice, _, hInsert⟩
  have hId := TenantOp.id_of_orderItemCreate hRun
  have hItems := TenantDb.itemsOf_insert? hInsert orderId
  rw [if_pos hOrder] at hItems
  have hEntry :
      line.entry =
        ⟨item.product_id, item.qty, product.price⟩ := by
    rw [OrderItem.entry, hLineProduct, hQuantity, hPrice]
  refine
    { products := hProducts.trans hFilled.products
      orderIds := ?_
      order := ?_
      wanted := wanted_append hFilled.wanted item _
      priced := priced_append hFilled.priced hProduct
      lines := ?_
      lineIds := ?_ }
  · rw [hOrders]
    exact hFilled.orderIds
  · rw [hOrders]
    exact hFilled.order
  · rw [← hLineProduct] at hNone
    rw [hItems, entries_insert hNone, hFilled.lines,
      hEntry, tally_append]
  · intro lineId
    have hNew :
        NewLine choices before item lineId ↔
          line.id = lineId := by
      rw [hId]
      constructor
      · rintro ⟨_, tick', hTick', rfl⟩
        rw [hTick, Choice.answer.injEq] at hTick'
        rw [hTick']
      · intro hSame
        exact
          ⟨hFilled.lineOf?_eq_none_iff.mp hNone, tick, hTick,
            hSame⟩
    have hKey : Keyed.key line = line.id := rfl
    rw [Table.find?_insert? hInsert lineId,
      lineIdTaken_append, ← hFilled.lineIds lineId, hNew,
      hKey]
    by_cases hSame : line.id = lineId
    · simp [hSame]
    · simp [hSame]

/- An item whose product has a line raises its quantity. -/
theorem merge
    {line row : OrderItem}
    (hFilled :
      Filled choices db orderId userId before added db')
    (hProduct :
      db.products.find? item.product_id = some product)
    (hLine :
      lineOf? (db'.itemsOf orderId) item.product_id =
        some line)
    (hRun :
      (TenantOp.orderItemUpdate line.id
        (line.quantity.val + item.qty)).exec tick db' =
          .ok (row, db'')) :
    Filled choices db orderId userId (before ++ [item])
      (added ++ [⟨item.product_id, item.qty, product.price⟩])
      db'' := by
  rcases TenantOp.exec_frame hRun with
    ⟨hFrame, _, hFrame'⟩
  have hOrders := hFrame (by simp [TenantOp.writes])
  have hProducts := hFrame' (by simp [TenantOp.writes])
  rcases TenantOp.exec_orderItemUpdate hRun with
    ⟨old, column, hFind, hColumn, hUpdate⟩
  have hMem := (lineOf?_eq_some hLine).1
  rcases List.mem_filter.mp hMem with ⟨hRow, hOrder⟩
  have hSame : old = line :=
    db'.orderItems.eq_of_key_eq
      (db'.orderItems.find?_eq_some_iff.mp hFind).1 hRow
      (db'.orderItems.key_of_find? hFind)
  subst hSame
  have hItems := TenantDb.itemsOf_update hFind hUpdate orderId
  rw [if_pos (of_decide_eq_true hOrder)] at hItems
  have hIds :
      ∀ other ∈ db'.itemsOf orderId,
        other.id = old.id → other = old := by
    intro other hOther hId
    exact
      db'.orderItems.eq_of_key_eq
        (List.mem_of_mem_filter hOther) hRow hId
  have hProductsOnce :
      ∀ other ∈ db'.itemsOf orderId,
        other.productId = old.productId → other = old := by
    intro other hOther hSameProduct
    have hNodup : ((tally added).map Entry.key).Nodup :=
      nodup_keys_tally
    rw [← hFilled.lines, List.map_map] at hNodup
    exact
      List.inj_on_of_nodup_map hNodup hOther hMem
        hSameProduct
  have hKnown :
      ¬ item.product_id ∉
        before.map CreateOrderItemDto.product_id := by
    rw [← hFilled.lineOf?_eq_none_iff, hLine]
    exact Option.some_ne_none old
  refine
    { products := hProducts.trans hFilled.products
      orderIds := ?_
      order := ?_
      wanted := wanted_append hFilled.wanted item _
      priced := priced_append hFilled.priced hProduct
      lines := ?_
      lineIds := ?_ }
  · rw [hOrders]
    exact hFilled.orderIds
  · rw [hOrders]
    exact hFilled.order
  · rw [hItems,
      entries_merge hLine hIds hProductsOnce hColumn,
      hFilled.lines, tally_append]
  · intro lineId
    have hNotNew : ¬ NewLine choices before item lineId :=
      fun hNew => hKnown hNew.1
    rw [lineIdTaken_append, ← hFilled.lineIds lineId, hUpdate,
      Table.find?_update]
    by_cases hId : lineId = old.id
    · subst hId
      simp [hNotNew, hFind]
    · simp [hId, hNotNew]

/- The total is written to the order alone. -/
theorem setTotal
    {total : Int}
    {view : OrderView}
    (hFilled :
      Filled choices db orderId userId before added db')
    (hRun :
      (TenantOp.orderUpdate orderId
        (Phase.setTotal total)).exec tick db' =
          .ok (view, db'')) :
    Filled choices db orderId userId before added db'' := by
  rcases TenantOp.exec_frame hRun with
    ⟨_, hFrame, hFrame'⟩
  have hItems := hFrame (by simp [TenantOp.writes])
  have hProducts := hFrame' (by simp [TenantOp.writes])
  have hIds := TenantOp.orderIds_of_orderUpdate hRun
  rcases TenantOp.exec_orderUpdate hRun with
    ⟨old, column, hFind, _, hAfter⟩
  rcases hFilled.order with ⟨order, hOrder, hUser, hStatus⟩
  rw [hFind, Option.some.injEq] at hOrder
  subst hOrder
  have hSameLines :
      db''.itemsOf orderId = db'.itemsOf orderId := by
    rw [TenantDb.itemsOf, hItems, TenantDb.itemsOf]
  refine
    { products := hProducts.trans hFilled.products
      orderIds := hIds.trans hFilled.orderIds
      order := ?_
      wanted := hFilled.wanted
      priced := hFilled.priced
      lines := ?_
      lineIds := ?_ }
  · refine ⟨_, (hAfter orderId).trans (if_pos rfl), ?_, ?_⟩
    · exact hUser
    · exact hStatus
  · rw [hSameLines]
    exact hFilled.lines
  · rw [hItems]
    exact hFilled.lineIds

end Filled

end Creation

end OrderApi

------------------------------------------------------------
-- Adding an Item
------------------------------------------------------------

namespace OrderApi

namespace Creation

variable {choices rest : Nat → Choice}
variable {store : Backend} {name tenantCode : String}
variable {db db' : TenantDb} {orderId userId : String}
variable {before : List CreateOrderItemDto}
variable {item : CreateOrderItemDto}
variable {added : List (Entry String Money)}
variable {product : Product} {Stop : Backend → Prop}

/- The total that some items are worth can be stored. -/
def Totals
    (db : TenantDb)
    (items : List CreateOrderItemDto) : Prop :=
  -9999999999 ≤ worth db items ∧ worth db items ≤ 9999999999

/- The line of an item can be stored. -/
def Saves
    (choices : Nat → Choice)
    (db : TenantDb)
    (before : List CreateOrderItemDto)
    (item : CreateOrderItemDto) : Prop :=
  requested item.product_id (before ++ [item]) ≤
      2147483647 ∧
    ∀ lineId,
      NewLine choices before item lineId →
        ¬ LineIdTaken choices db before lineId

theorem requested_append
    (productId : String)
    (before : List CreateOrderItemDto)
    (item : CreateOrderItemDto) :
    requested productId (before ++ [item]) =
      requested productId before +
        if item.product_id = productId then item.qty
        else 0 := by
  unfold requested
  by_cases hProduct : item.product_id = productId
  · simp [hProduct]
  · simp [hProduct]

theorem requested_eq_zero
    {productId : String}
    {items : List CreateOrderItemDto}
    (hNone :
      productId ∉ items.map CreateOrderItemDto.product_id) :
    requested productId items = 0 := by
  have hFilter :
      (items.filter fun item =>
        item.product_id = productId) = [] := by
    rw [List.filter_eq_nil_iff]
    intro item hItem hProduct
    apply hNone
    rw [← of_decide_eq_true hProduct]
    exact List.mem_map_of_mem hItem
  rw [requested, hFilter]
  rfl

theorem requested_nonneg
    (productId : String)
    (items : List CreateOrderItemDto) :
    0 ≤ requested productId items := by
  induction items with
  | nil => exact Int.le_refl 0
  | cons item items ih =>
      have hMin := item.qty_min
      unfold requested at ih ⊢
      by_cases hProduct : item.product_id = productId
      · simp only [List.filter_cons, hProduct, decide_true,
          if_true, List.map_cons, List.sum_cons]
        omega
      · simpa [hProduct] using ih

/- Adding up the lines and writing their total. -/
theorem recalculate_succeedsIff
    (rest : Nat → Choice)
    (hFilled :
      Filled choices db orderId userId before added db')
    (hStop :
      Stop (store.put name db')) :
    Program.SucceedsIff execAlone
      (Answered (rest 0) ∧ Answered (rest 1) ∧
        Totals db before)
      (fun _ rest' store' =>
        rest' = (fun n => rest (n + 2)) ∧
          ∃ db'',
            store' = store.put name db'' ∧
              Filled choices db orderId userId before added
                db'')
      Stop
      (OrderService.recalculateOrderTotal name orderId) rest
      (store.put name db') := by
  unfold OrderService.recalculateOrderTotal
  simp only [Program.bind_eq]
  refine
    Program.SucceedsIff.bind_of_eq
      (prisma_put_read_succeedsIff rest
        (.orderItemFindMany orderId) (fun _ => rfl) hStop)
      fun _ => ?_
  rcases hFilled.order with ⟨order, hOrder, _⟩
  have hWrite :
      Program.SucceedsIff execAlone
        (Answered (rest 1) ∧ Totals db before)
        (fun (_ : OrderView) rest' store' =>
          rest' = (fun n => rest (n + 2)) ∧
            ∃ db'',
              store' = store.put name db'' ∧
                Filled choices db orderId userId before added
                  db'')
        Stop
        (prisma name
          (.orderUpdate orderId
            (Phase.setTotal
              (OrderService.orderTotal
                (db'.itemsOf orderId)))))
        (fun n => rest (n + 1)) (store.put name db') := by
    refine
      prisma_put_succeedsIff (fun n => rest (n + 1))
        (.orderUpdate orderId
          (Phase.setTotal
            (OrderService.orderTotal (db'.itemsOf orderId))))
        ?_ fun _ => hStop
    intro tick _
    rw [hFilled.orderTotal_eq]
    rcases
        TenantOp.exec_setTotal_cases hOrder
          (worth db before) with
      ⟨hTotals, view, db'', hRun⟩ | ⟨hNot, message, hRun⟩
    · exact
        Or.inl
          ⟨hTotals, view, db'', hRun, rfl, db'', rfl,
            hFilled.setTotal hRun⟩
    · exact Or.inr ⟨hNot, message, hRun⟩
  exact hWrite.ignore fun _ _ _ hPost => hPost

/- Storing the line of an item. -/
theorem saveItem_succeedsIff
    (rest : Nat → Choice)
    (hFilled :
      Filled choices db orderId userId before added db')
    (hProduct :
      db.products.find? item.product_id = some product)
    (hStock : item.qty ≤ product.stock.val)
    (hRest : rest 0 = choices (callsBefore before + 3))
    (hStop : Stop (store.put name db')) :
    Program.SucceedsIff execAlone
      (Answered (rest 0) ∧ Saves choices db before item)
      (fun _ rest' store' =>
        rest' = (fun n => rest (n + 1)) ∧
          ∃ db'',
            store' = store.put name db'' ∧
              Filled choices db orderId userId
                (before ++ [item])
                (added ++
                  [⟨item.product_id, item.qty,
                    product.price⟩])
                db'')
      Stop
      (OrderService.saveItem name orderId
        ⟨item.product_id, item.qty⟩ tenantCode product
        (lineOf? (db'.itemsOf orderId) item.product_id))
      rest (store.put name db') := by
  have hSum :
      requested item.product_id (before ++ [item]) =
        requested item.product_id before + item.qty := by
    rw [requested_append, if_pos rfl]
  have hMin := item.qty_min
  have hHigh := product.stock.le_high
  cases hLine :
      lineOf? (db'.itemsOf orderId) item.product_id with
  | none =>
      have hNew := hFilled.lineOf?_eq_none_iff.mp hLine
      have hNothing :
          requested item.product_id before = 0 :=
        requested_eq_zero hNew
      refine
        Program.SucceedsIff.attempt
          (prisma_put_succeedsIff rest
            (.orderItemCreate orderId item.product_id item.qty
              product.price)
            ?_ fun _ => hStop)
          (mapMissingDatabase_throws tenantCode)
      intro tick hTick
      rw [hRest] at hTick
      rcases hFilled.order with ⟨order, hOrder, _⟩
      have hOrder' : db'.orders.find? orderId ≠ none := by
        rw [hOrder]
        exact Option.some_ne_none order
      have hProduct' :
          db'.products.find? item.product_id ≠ none := by
        rw [hFilled.products, hProduct]
        exact Option.some_ne_none product
      have hSaves :
          Saves choices db before item ↔
            db'.orderItems.find? tick.freshId = none := by
        constructor
        · intro hSaves
          by_contra hUsed
          exact
            hSaves.2 tick.freshId ⟨hNew, tick, hTick, rfl⟩
              ((hFilled.lineIds tick.freshId).mp hUsed)
        · intro hFree
          refine ⟨by omega, ?_⟩
          rintro lineId ⟨_, tick', hTick', rfl⟩ hTaken
          rw [hTick, Choice.answer.injEq] at hTick'
          subst hTick'
          exact (hFilled.lineIds tick.freshId).mpr hTaken hFree
      have hRange :
          -2147483648 ≤ item.qty ∧ item.qty ≤ 2147483647 := by
        omega
      rw [hSaves]
      rcases
          TenantOp.exec_orderItemCreate_cases hRange hOrder'
            hProduct' product.price with
        ⟨hFree, line, db'', hRun⟩ | ⟨hUsed, message, hRun⟩
      · exact
          Or.inl
            ⟨hFree, line, db'', hRun, rfl, db'', rfl,
              hFilled.insert hProduct hLine hTick hRun⟩
      · exact Or.inr ⟨hUsed, message, hRun⟩
  | some line =>
      have hQuantity := hFilled.quantity_of_lineOf? hLine
      have hNonneg :=
        requested_nonneg item.product_id before
      have hKnown :
          ∀ lineId, ¬ NewLine choices before item lineId := by
        intro lineId hNew
        have hNone :=
          hFilled.lineOf?_eq_none_iff.mpr hNew.1
        rw [hLine] at hNone
        cases hNone
      refine
        Program.SucceedsIff.attempt
          (prisma_put_succeedsIff rest
            (.orderItemUpdate line.id
              (line.quantity.val + item.qty))
            ?_ fun _ => hStop)
          (mapMissingDatabase_throws tenantCode)
      intro tick hTick
      have hSaves :
          Saves choices db before item ↔
            (-2147483648 ≤ line.quantity.val + item.qty ∧
              line.quantity.val + item.qty ≤ 2147483647) := by
        rw [Saves, hSum, hQuantity]
        constructor
        · intro hSaves
          exact ⟨by omega, hSaves.1⟩
        · intro hRange
          exact
            ⟨hRange.2, fun lineId hNew =>
              (hKnown lineId hNew).elim⟩
      rcases List.mem_filter.mp (lineOf?_eq_some hLine).1 with
        ⟨hRow, _⟩
      have hFind : db'.orderItems.find? line.id = some line :=
        db'.orderItems.find?_eq_some_iff.mpr ⟨hRow, rfl⟩
      rw [hSaves]
      rcases
          TenantOp.exec_orderItemUpdate_cases hFind
            (line.quantity.val + item.qty) with
        ⟨hRange, row, db'', hRun⟩ | ⟨hNot, message, hRun⟩
      · exact
          Or.inl
            ⟨hRange, row, db'', hRun, rfl, db'', rfl,
              hFilled.merge hProduct hLine hRun⟩
      · exact Or.inr ⟨hNot, message, hRun⟩

/- The lookup of a line finds the product's line. -/
theorem exec_findFirst
    (db : TenantDb)
    (orderId productId : String)
    (tick : Tick) :
    (TenantOp.orderItemFindFirst orderId productId).exec tick
        db =
      .ok (lineOf? (db.itemsOf orderId) productId, db) := by
  have hSame :
      (db.orderItems.rows.find? fun item =>
          item.orderId = orderId ∧
            item.productId = productId) =
        lineOf? (db.itemsOf orderId) productId := by
    rw [lineOf?, TenantDb.itemsOf, List.find?_filter]
    congr 1
    funext item
    simp
  rw [← hSame]
  rfl

/- The calls of an item, one after the other. -/
theorem addItem_succeedsIff
    (tenantCode : String)
    (item : CreateOrderItemDto)
    (hFilled :
      Filled choices db orderId userId before added db')
    (hRest : rest 3 = choices (callsBefore before + 3))
    (hStop :
      ∀ items added db',
        Filled choices db orderId userId items added db' →
          Stop (store.put name db')) :
    Program.SucceedsIff execAlone
      (Answered (rest 0) ∧ Answered (rest 1) ∧
        (∃ product,
          db.products.find? item.product_id = some product ∧
            item.qty ≤ product.stock.val) ∧
        Answered (rest 2) ∧
        (Answered (rest 3) ∧ Saves choices db before item) ∧
        (Answered (rest 4) ∧ Answered (rest 5) ∧
          Totals db (before ++ [item])) ∧
        True)
      (fun _ rest' store' =>
        rest' = (fun n => rest (n + 6)) ∧
          ∃ added' db'',
            store' = store.put name db'' ∧
              Filled choices db orderId userId
                (before ++ [item]) added' db'')
      Stop
      (OrderService.addItemToOrder name orderId userId
        ⟨item.product_id, item.qty⟩ tenantCode)
      rest (store.put name db') := by
  have hHere := hStop before added db' hFilled
  rcases hFilled.order with ⟨order, hOrder, hUser, hStatus⟩
  unfold OrderService.addItemToOrder
  simp only [Program.bind_eq]
  refine
    Program.SucceedsIff.bind_of_eq
      (prisma_put_read_succeedsIff rest
        (.orderFindUnique orderId) (fun _ => rfl) hHere)
      fun _ => ?_
  simp only [hOrder, hUser, hStatus, ne_eq, not_true_eq_false,
    if_false]
  refine
    Program.SucceedsIff.bind_of_eq
      ((prisma_put_read_succeedsIff (fun n => rest (n + 1))
        (.productFindUnique item.product_id) (fun _ => rfl)
        hHere).attempt (mapMissingDatabase_throws tenantCode))
      fun _ => ?_
  rw [hFilled.products]
  cases hProduct : db.products.find? item.product_id with
  | none => exact Program.succeedsIff_fail (by simp) hHere
  | some product =>
      have hEnough :
          ¬ product.stock.val < item.qty ↔
            ∃ product', some product = some product' ∧
              item.qty ≤ product'.stock.val := by
        simp
      refine
        Program.SucceedsIff.congr ?_ (and_congr_left' hEnough)
      refine
        Program.SucceedsIff.guard (fun _ => hHere)
          fun hStock => ?_
      refine
        Program.SucceedsIff.bind_of_eq
          (prisma_put_read_succeedsIff
            (fun n => rest (n + 2))
            (.orderItemFindFirst orderId item.product_id)
            (exec_findFirst db' orderId item.product_id)
            hHere)
          fun _ => ?_
      refine
        Program.SucceedsIff.bind
          (saveItem_succeedsIff (fun n => rest (n + 3))
            hFilled hProduct (not_lt.mp hStock) hRest hHere)
          ?_
      rintro line rest' store' _ ⟨rfl, db'', rfl, hFilled'⟩
      refine
        Program.SucceedsIff.bind
          (recalculate_succeedsIff (fun n => rest (n + 4))
            hFilled' (hStop _ _ db'' hFilled'))
          ?_
      rintro _ rest' store' _ ⟨rfl, last, rfl, hFilled''⟩
      exact
        Program.succeedsIff_done trivial
          ⟨rfl, _, last, rfl, hFilled''⟩

/- What the calls of an item need is what `Accepted` says. -/
theorem accepted_iff
    (hRest : rest = fun n => choices (n + callsBefore before)) :
    (Answered (rest 0) ∧ Answered (rest 1) ∧
      (∃ product,
        db.products.find? item.product_id = some product ∧
          item.qty ≤ product.stock.val) ∧
      Answered (rest 2) ∧
      (Answered (rest 3) ∧ Saves choices db before item) ∧
      (Answered (rest 4) ∧ Answered (rest 5) ∧
        Totals db (before ++ [item])) ∧
      True) ↔
      Accepted choices db before item := by
  have hCall :
      ∀ k, rest k = choices (callsBefore before + k) := by
    intro k
    rw [hRest, Nat.add_comm]
  simp only [hCall]
  constructor
  · rintro
      ⟨h0, h1, hStock, h2, ⟨h3, hQuantity, hLine⟩,
        ⟨h4, h5, hTotal⟩, _⟩
    refine
      { answered := ?_
        stock := hStock
        quantity := hQuantity
        line := hLine
        total := hTotal }
    intro k hSix
    have hCases :
        k = 0 ∨ k = 1 ∨ k = 2 ∨ k = 3 ∨ k = 4 ∨ k = 5 := by
      omega
    rcases hCases with rfl | rfl | rfl | rfl | rfl | rfl
    · exact h0
    · exact h1
    · exact h2
    · exact h3
    · exact h4
    · exact h5
  · intro hAccepted
    have hCalls := hAccepted.answered
    exact
      ⟨hCalls 0 (by omega), hCalls 1 (by omega),
        hAccepted.stock, hCalls 2 (by omega),
        ⟨hCalls 3 (by omega), hAccepted.quantity,
          hAccepted.line⟩,
        ⟨hCalls 4 (by omega), hCalls 5 (by omega),
          hAccepted.total⟩, trivial⟩

/- Where the loop over the items is behind some of them. -/
def AmidItems
    (choices : Nat → Choice)
    (store : Backend)
    (name : String)
    (db : TenantDb)
    (orderId userId : String)
    (before : List CreateOrderItemDto)
    (rest : Nat → Choice)
    (after : Backend) : Prop :=
  rest = (fun n => choices (n + callsBefore before)) ∧
    ∃ added db',
      after = store.put name db' ∧
        Filled choices db orderId userId before added db'

/- The loop over the items of a request. -/
theorem addItems_succeedsIff
    (hStop :
      ∀ items added db',
        Filled choices db orderId userId items added db' →
          Stop (store.put name db'))
    (hFilled : Filled choices db orderId userId [] [] db')
    (items : List CreateOrderItemDto) :
    Program.SucceedsIff execAlone
      (AcceptsAll (Accepted choices db) items)
      (fun _ rest after =>
        AmidItems choices store name db orderId userId items
          rest after)
      Stop
      (Program.forEach items fun item =>
        (OrderService.addItemToOrder name orderId userId
          ⟨item.product_id, item.qty⟩ tenantCode).ignore)
      (fun n => choices (n + 1)) (store.put name db') := by
  apply Program.succeedsIff_forEach
  · rintro before item behind rest store' _ _
      ⟨hRest, added, db', rfl, hFilled⟩
    have hThree : rest 3 = choices (callsBefore before + 3) := by
      rw [hRest, Nat.add_comm]
    have hItem :=
      addItem_succeedsIff tenantCode item hFilled hThree hStop
    have hAccepted := hItem.congr (accepted_iff hRest)
    apply hAccepted.ignore
    rintro _ rest' store' ⟨rfl, added', db'', rfl, hFilled'⟩
    refine ⟨?_, added', db'', rfl, hFilled'⟩
    funext n
    have hCount :
        n + 6 + callsBefore before =
          n + callsBefore (before ++ [item]) := by
      simp only [callsBefore, List.length_append,
        List.length_singleton]
      omega
    rw [hRest]
    exact congrArg choices hCount
  · exact ⟨rfl, [], db', rfl, hFilled⟩

end Creation

end OrderApi

------------------------------------------------------------
-- When a Create Request Returns
------------------------------------------------------------

namespace OrderApi

/- Order lines of orders that exist, by their foreign key. -/
def TenantDb.LinesHaveOrders (db : TenantDb) : Prop :=
  ∀ orderId,
    db.orders.find? orderId = none → db.itemsOf orderId = []

namespace TenantDb

theorem linesHaveOrders_empty : empty.LinesHaveOrders :=
  fun _ _ => rfl

/- Every call keeps the foreign key. -/
theorem LinesHaveOrders.exec
    {tick : Tick}
    {op : TenantOp}
    {result : op.Res}
    {db db' : TenantDb}
    (hLines : db.LinesHaveOrders)
    (hRun : op.exec tick db = .ok (result, db')) :
    db'.LinesHaveOrders := by
  intro orderId hNone
  rcases TenantOp.exec_frame hRun with
    ⟨hOrders, hItems, _⟩
  by_cases hWrites : op.writes = .orders
  · have hSame := hItems (by simp [hWrites])
    have hBefore : db.orders.find? orderId = none := by
      cases op with
      | orderCreate userId status total =>
          rcases TenantOp.exec_orderCreate hRun with
            ⟨_, _, _, _, hInsert⟩
          rw [Table.find?_insert? hInsert] at hNone
          split at hNone
          · cases hNone
          · exact hNone
      | orderUpdate id data =>
          rcases TenantOp.exec_orderUpdate hRun with
            ⟨_, _, _, _, hAfter⟩
          rw [hAfter] at hNone
          split at hNone
          · cases hNone
          · exact hNone
      | _ => cases hWrites
    rw [itemsOf, hSame]
    exact hLines orderId hBefore
  · rw [hOrders hWrites] at hNone
    have hBefore := hLines orderId hNone
    by_cases hWritesLine : op.writes = .orderItems
    swap
    · rw [itemsOf, hItems hWritesLine]
      exact hBefore
    cases op with
    | orderItemCreate orderId' productId quantity price =>
        have hExists :=
          TenantOp.order_of_orderItemCreate hRun
        rcases TenantOp.exec_orderItemCreate hRun with
          ⟨hOrder, _, _, _, _, hInsert⟩
        have hOther : result.orderId ≠ orderId := by
          rw [hOrder]
          rintro rfl
          exact hExists hNone
        rw [itemsOf_insert? hInsert, if_neg hOther]
        exact hBefore
    | orderItemUpdate id quantity =>
        rcases TenantOp.exec_orderItemUpdate hRun with
          ⟨_, _, hFind, _, hUpdate⟩
        rw [itemsOf_update hFind hUpdate, hBefore]
        simp
    | _ => cases hWritesLine

end TenantDb

namespace Creation

variable {choices rest : Nat → Choice}
variable {store : Backend} {name tenantCode : String}
variable {db db' : TenantDb} {orderId userId : String}
variable {items : List CreateOrderItemDto}
variable {added : List (Entry String Money)}

/- What a create request that throws has done. -/
def Left
    (choices : Nat → Choice)
    (store : Backend)
    (name : String)
    (db : TenantDb)
    (after : Backend) : Prop :=
  (¬ Inserts choices db ∧ after = store) ∨
  (Inserts choices db ∧
    ∃ orderId,
      after.orderIds name =
        db.orders.rows.map Order.id ++ [orderId])

/- What a create request that returns has done. -/
def Created
    (choices : Nat → Choice)
    (store : Backend)
    (name : String)
    (db : TenantDb)
    (userId tenantCode : String)
    (items : List CreateOrderItemDto)
    (orderId : String)
    (after : Backend) : Prop :=
  ∃ added db',
    after.dbs name = some db' ∧
      after.orderProcessing =
        store.orderProcessing ++
          [⟨orderId, userId, tenantCode⟩] ∧
      Filled choices db orderId userId items added db'

theorem orderIds_put :
    (store.put name db).orderIds name =
      db.orders.rows.map Order.id := by
  simp [Backend.orderIds]

/- Amid the request the order stays if the request throws. -/
theorem Left.of_filled
    (hInserts : Inserts choices db)
    (hFilled :
      Filled choices db orderId userId items added db') :
    Left choices store name db (store.put name db') := by
  refine Or.inr ⟨hInserts, orderId, ?_⟩
  rw [orderIds_put]
  exact hFilled.orderIds

/- An order that was just inserted has no lines. -/
theorem Filled.of_create
    {tick : Tick}
    {order : Order}
    (hLines : db.LinesHaveOrders)
    (hRun :
      (TenantOp.orderCreate userId .PENDING 0).exec tick db =
        .ok (order, db')) :
    Filled choices db order.id userId [] [] db' := by
  rcases TenantOp.exec_frame hRun with
    ⟨_, hFrame, hFrame'⟩
  have hItems := hFrame (by simp [TenantOp.writes])
  have hProducts := hFrame' (by simp [TenantOp.writes])
  rcases TenantOp.exec_orderCreate hRun with
    ⟨_, hUser, hStatus, _, hInsert⟩
  rcases db.orders.insert?_eq_some_iff.mp hInsert with
    ⟨hFree, hRows⟩
  have hKey : Keyed.key order = order.id := rfl
  have hNone : db'.itemsOf order.id = [] := by
    rw [TenantDb.itemsOf, hItems]
    exact hLines order.id hFree
  refine
    { products := hProducts
      orderIds := ?_
      order := ⟨order, ?_, hUser, hStatus⟩
      wanted := rfl
      priced := by simp
      lines := ?_
      lineIds := ?_ }
  · rw [hRows, List.map_append]
    rfl
  · rw [Table.find?_insert? hInsert, if_pos hKey]
  · rw [hNone]
    rfl
  · intro lineId
    rw [hItems]
    constructor
    · exact Or.inl
    · rintro (hOld | ⟨front, other, back, hSplit, _⟩)
      · exact hOld
      · simp at hSplit

/- The insertion of the order. -/
theorem createOrder_succeedsIff
    (hDb : store.dbs name = some db)
    (hLines : db.LinesHaveOrders)
    (userId tenantCode : String) :
    Program.SucceedsIff execAlone (Inserts choices db)
      (fun order rest after =>
        rest = (fun n => choices (n + 1)) ∧
          ∃ db',
            after = store.put name db' ∧
              Filled choices db order.id userId [] [] db')
      (Left choices store name db)
      (OrderService.createOrder name userId tenantCode)
      choices store := by
  have hCall :
      Program.SucceedsIff execAlone
        (Answered (choices 0) ∧ Inserts choices db)
        (fun (order : Order) rest after =>
          rest = (fun n => choices (n + 1)) ∧
            ∃ db',
              after = store.put name db' ∧
                Filled choices db order.id userId [] [] db')
        (Left choices store name db)
        (prisma name (.orderCreate userId .PENDING 0))
        choices (store.put name db) := by
    refine
      prisma_put_succeedsIff choices
        (.orderCreate userId .PENDING 0) ?_ ?_
    · intro tick hTick
      have hInserts :
          Inserts choices db ↔
            db.orders.find? tick.freshId = none := by
        constructor
        · rintro ⟨tick', hTick', hFree⟩
          rw [hTick, Choice.answer.injEq] at hTick'
          rwa [hTick']
        · exact fun hFree => ⟨tick, hTick, hFree⟩
      rw [hInserts]
      rcases
          TenantOp.exec_orderCreate_cases userId .PENDING with
        ⟨hFree, order, db', hRun⟩ | ⟨hUsed, message, hRun⟩
      · exact
          Or.inl
            ⟨hFree, order, db', hRun, rfl, db', rfl,
              Filled.of_create hLines hRun⟩
      · exact Or.inr ⟨hUsed, message, hRun⟩
    · intro hNot
      refine Or.inl ⟨?_, Backend.put_self hDb⟩
      rintro ⟨tick, hTick, hFree⟩
      exact hNot ⟨⟨tick, hTick⟩, tick, hTick, hFree⟩
  rw [Backend.put_self hDb] at hCall
  have hInserts :
      Answered (choices 0) ∧ Inserts choices db ↔
        Inserts choices db := by
    refine and_iff_right_of_imp ?_
    rintro ⟨tick, hTick, _⟩
    exact ⟨tick, hTick⟩
  exact
    (hCall.congr hInserts).attempt
      (mapMissingDatabase_throws tenantCode)

/- The publication and the read of the order behind it. -/
theorem publish_succeedsIff
    (hInserts : Inserts choices db)
    (hFilled :
      Filled choices db orderId userId items added db')
    (hRest :
      rest = fun n => choices (n + callsBefore items)) :
    Program.SucceedsIff execAlone
      (Answered (choices (callsBefore items)) ∧
        Answered (choices (callsBefore items + 1)))
      (fun view _ after =>
        Created choices store name db userId tenantCode items
          view.order.id after)
      (Left choices store name db)
      ((OrderService.enqueueOrderProcessing orderId userId
          tenantCode).bind fun _ =>
        OrderService.findOne name orderId userId)
      rest (store.put name db') := by
  let message : OrderProcessingMessage :=
    ⟨orderId, userId, tenantCode⟩
  let published : Backend :=
    { store with
      orderProcessing := store.orderProcessing ++ [message] }
  have hFirst : rest 0 = choices (callsBefore items) := by
    rw [hRest]
    simp only [Nat.zero_add]
  have hSecond : rest 1 = choices (callsBefore items + 1) := by
    rw [hRest, Nat.add_comm]
  have hPublish :
      Program.SucceedsIff execAlone (Answered (rest 0))
        (fun (_ : Unit) rest' after =>
          rest' = (fun n => rest (n + 1)) ∧
            after = published.put name db')
        (Left choices store name db)
        (OrderService.enqueueOrderProcessing orderId userId
          tenantCode)
        rest (store.put name db') := by
    apply Program.succeedsIff_perform
      (StoreOp.publishOrderProcessing message)
    cases rest 0 with
    | failure text =>
        refine
          Or.inr
            ⟨?_, storeError text, store.put name db', rfl,
              Left.of_filled hInserts hFilled⟩
        rintro ⟨tick, hTick⟩
        cases hTick
    | answer tick =>
        exact
          Or.inl
            ⟨⟨tick, rfl⟩, (), published.put name db', rfl,
              rfl, rfl⟩
  rw [← hFirst, ← hSecond]
  apply hPublish.bind
  rintro _ rest' after _ ⟨rfl, rfl⟩
  rcases hFilled.order with ⟨order, hOrder, hUser, _⟩
  have hRead :
      ∀ tick,
        (TenantOp.orderFindFirst orderId userId).exec tick
            db' =
          .ok (some (db'.view order), db') := by
    intro tick
    simp [TenantOp.exec, hOrder, hUser]
  have hStop :
      Left choices store name db (published.put name db') := by
    refine Or.inr ⟨hInserts, orderId, ?_⟩
    rw [orderIds_put]
    exact hFilled.orderIds
  have hView :
      Program.SucceedsIff execAlone (Answered (rest 1) ∧ True)
        (fun view _ after =>
          Created choices store name db userId tenantCode
            items view.order.id after)
        (Left choices store name db)
        (OrderService.findOne name orderId userId)
        (fun n => rest (n + 1)) (published.put name db') := by
    unfold OrderService.findOne
    simp only [Program.bind_eq]
    refine
      Program.SucceedsIff.bind_of_eq
        (prisma_put_read_succeedsIff (fun n => rest (n + 1))
          (.orderFindFirst orderId userId) hRead hStop)
        fun _ => ?_
    have hId : (db'.view order).order.id = orderId :=
      db'.orders.key_of_find? hOrder
    refine Program.succeedsIff_done trivial ?_
    rw [hId]
    exact
      ⟨added, db', Backend.put_dbs_same, rfl, hFilled⟩
  exact hView.congr (and_iff_left trivial)

/-
  A create request returns exactly if its order is inserted
  and everything behind the insertion is accepted.
-/
theorem create_succeedsIff
    (hDb : store.dbs name = some db)
    (hLines : db.LinesHaveOrders)
    (choices : Nat → Choice)
    (user : AuthUser)
    (tenantCode : String)
    (body : CreateOrderDto) :
    Program.SucceedsIff execAlone
      (Inserts choices db ∧ Completes choices db body.items)
      (fun view _ after =>
        Created choices store name db user.id tenantCode
          body.items view.order.id after)
      (Left choices store name db)
      (OrderController.create name user tenantCode body)
      choices store := by
  unfold OrderController.create
  have hSome : ¬ body.items.isEmpty = true := by
    simp [body.items_min]
  rw [if_neg hSome]
  simp only [Program.bind_eq]
  refine
    Program.SucceedsIff.bind
      (createOrder_succeedsIff hDb hLines user.id tenantCode)
      ?_
  rintro order rest after hInserts ⟨rfl, db', rfl, hFilled⟩
  refine
    Program.SucceedsIff.bind
      (addItems_succeedsIff
        (fun _ _ _ hAmid => Left.of_filled hInserts hAmid)
        hFilled body.items)
      ?_
  rintro _ rest after _ ⟨hRest, added, db'', rfl, hFilled'⟩
  exact publish_succeedsIff hInserts hFilled' hRest

end Creation

end OrderApi

------------------------------------------------------------
-- Requests that Are All or Nothing
------------------------------------------------------------

namespace OrderApi

/- The ids of the order lines of a tenant database. -/
def Backend.lineIds (store : Backend) (name : String) :
    List String :=
  (store.dbs name).elim [] fun db =>
    db.orderItems.rows.map OrderItem.id

namespace Creation

/- A create request that runs alone. -/
def outcomeOf
    (choices : Nat → Choice)
    (store : Backend)
    (name : String)
    (user : AuthUser)
    (tenantCode : String)
    (body : CreateOrderDto) :
    Except ApiError OrderView × Backend :=
  (OrderController.create name user tenantCode body).complete
    execAlone choices store

/-
  If a request throws, it has added no order and no line; if
  it returns, it has added one order and published it once.
-/
def AllOrNothing
    (store : Backend)
    (name : String)
    (user : AuthUser)
    (tenantCode : String) :
    Except ApiError OrderView × Backend → Prop
  | (.error _, after) =>
      after.orderIds name = store.orderIds name ∧
        after.lineIds name = store.lineIds name
  | (.ok view, after) =>
      after.orderIds name =
          store.orderIds name ++ [view.order.id] ∧
        after.orderProcessing =
          store.orderProcessing ++
            [⟨view.order.id, user.id, tenantCode⟩]

variable {choices : Nat → Choice} {store : Backend}
variable {name tenantCode : String} {user : AuthUser}
variable {body : CreateOrderDto}

/- Without the database the request throws at once. -/
theorem create_of_missing
    (hMissing : store.dbs name = none) :
    ∃ error,
      outcomeOf choices store name user tenantCode body =
        (.error error, store) := by
  have hCall :
      Program.SucceedsIff execAlone False
        (fun (_ : Order) _ _ => True)
        (fun after => after = store)
        (OrderService.createOrder name user.id tenantCode)
        choices store := by
    refine
      Program.SucceedsIff.attempt
        (prisma_succeedsIff (.orderCreate user.id .PENDING 0)
          ?_ fun _ => rfl)
        (mapMissingDatabase_throws tenantCode)
    rcases
        StoreOp.exec_tenant_cases (choices 0) name
          (.orderCreate user.id .PENDING 0) store with
      ⟨error, hError⟩ | ⟨_, db, _, _, _, hDb, _⟩
    · exact Or.inr ⟨id, error, hError⟩
    · rw [hMissing] at hDb
      cases hDb
  rcases hCall with ⟨hFalse, _⟩ | ⟨_, hCall⟩
  · exact hFalse.elim
  rcases hCall with ⟨error, rest, after, hRuns, rfl⟩
  have hSome : ¬ body.items.isEmpty = true := by
    simp [body.items_min]
  refine ⟨error, ?_⟩
  unfold outcomeOf OrderController.create
  rw [if_neg hSome]
  exact (hRuns.bind_error _ rfl).complete_eq

/-
  A create request is all or nothing exactly if its order is
  not inserted or all that comes behind it is accepted.
-/
theorem create_allOrNothing_iff
    (hLines :
      ∀ db, store.dbs name = some db → db.LinesHaveOrders) :
    AllOrNothing store name user tenantCode
        (outcomeOf choices store name user tenantCode body) ↔
      ∀ db,
        store.dbs name = some db →
        Inserts choices db →
        Completes choices db body.items := by
  cases hDb : store.dbs name with
  | none =>
      rcases create_of_missing hDb with ⟨error, hThrows⟩
      rw [hThrows]
      simp [AllOrNothing]
  | some db =>
      have hBefore :
          store.orderIds name =
            db.orders.rows.map Order.id := by
        simp [Backend.orderIds, hDb]
      have hCases :=
        (create_succeedsIff hDb (hLines db hDb) choices user
          tenantCode body).complete_cases
      simp only [Option.some.injEq, forall_eq']
      rcases hCases with
        ⟨⟨_, hCompletes⟩, view, _, after, hReturns, hCreated⟩ |
          ⟨hNot, error, after, hThrows, hLeft⟩
      · rw [outcomeOf, hReturns]
        rcases hCreated with
          ⟨added, db', hAfter, hQueue, hFilled⟩
        constructor
        · exact fun _ _ => hCompletes
        · intro _
          refine ⟨?_, hQueue⟩
          rw [hBefore, ← hFilled.orderIds, Backend.orderIds,
            hAfter]
          rfl
      · rw [outcomeOf, hThrows]
        rcases hLeft with
          ⟨hRefused, rfl⟩ | ⟨hInserts, orderId, hGrown⟩
        · constructor
          · intro _ hInserts
            exact (hRefused hInserts).elim
          · exact fun _ => ⟨rfl, rfl⟩
        · constructor
          · rintro ⟨hSame, _⟩
            rw [hGrown, hBefore] at hSame
            simp at hSame
          · intro hAll
            exact (hNot ⟨hInserts, hAll hInserts⟩).elim

/- The order is named by the first call, lines by others. -/
def naming (n : Nat) : Choice :=
  .answer ⟨if n = 0 then "o" else "l", 0⟩

/- Two items of mugs, of which five are in stock. -/
def mugsTwice
    (first second : Int)
    (hFirst : 1 ≤ first)
    (hSecond : 1 ≤ second) : CreateOrderDto :=
  ⟨[⟨"mug", first, hFirst⟩, ⟨"mug", second, hSecond⟩],
    List.cons_ne_nil _ _⟩

theorem linesHaveOrders_of_shop :
    ∀ db,
      Shop.store.dbs "tenant_t1" = some db →
        db.LinesHaveOrders := by
  intro db hDb orderId _
  have hNone := Shop.store_fresh.no_items "tenant_t1" orderId
  rwa [Backend.items_of_dbs hDb] at hNone

theorem create_allOrNothing_iff_of_shop :
    AllOrNothing Shop.store "tenant_t1" Shop.alice "t1"
        (outcomeOf naming Shop.store "tenant_t1" Shop.alice
          "t1" (mugsTwice 2 1 (by decide) (by decide))) ↔
      ∀ db,
        Shop.store.dbs "tenant_t1" = some db →
        Inserts naming db →
        Completes naming db
          (mugsTwice 2 1 (by decide) (by decide)).items :=
  create_allOrNothing_iff linesHaveOrders_of_shop

/- The second item is too many; order and line stay. -/
theorem not_create_allOrNothing :
    ¬ ∀ (choices : Nat → Choice) (store : Backend)
        (name : String) (user : AuthUser)
        (tenantCode : String) (body : CreateOrderDto),
      (∀ db, store.dbs name = some db →
        db.LinesHaveOrders) →
      AllOrNothing store name user tenantCode
        (outcomeOf choices store name user tenantCode
          body) := by
  intro hClaim
  have hNothing :=
    hClaim naming Shop.store "tenant_t1" Shop.alice "t1"
      (mugsTwice 2 9 (by decide) (by decide))
      linesHaveOrders_of_shop
  have hThrows :
      ∃ error after,
        outcomeOf naming Shop.store "tenant_t1" Shop.alice "t1"
            (mugsTwice 2 9 (by decide) (by decide)) =
          (.error error, after) ∧
        after.orderIds "tenant_t1" = ["o"] :=
    ⟨_, _, rfl, by decide +kernel⟩
  rcases hThrows with ⟨error, after, hOutcome, hGrown⟩
  rw [hOutcome] at hNothing
  have hSame := hNothing.1
  rw [hGrown] at hSame
  exact absurd hSame (by decide +kernel)

end Creation

end OrderApi

------------------------------------------------------------
-- Requests within the Stock
------------------------------------------------------------

namespace OrderApi

namespace Creation

/- No product has more in an order than is in stock. -/
def WithinStock
    (store : Backend)
    (name orderId : String) : Prop :=
  ∀ productId stock,
    store.stock? name productId = some stock →
      quantityOf productId (store.items name orderId) ≤ stock

variable {choices : Nat → Choice} {store after : Backend}
variable {name tenantCode : String} {user : AuthUser}
variable {body : CreateOrderDto} {view : OrderView}

/-
  An order that is returned is within the stock exactly if
  the items of each product together are.
-/
theorem withinStock_iff
    (hLines :
      ∀ db, store.dbs name = some db → db.LinesHaveOrders)
    (hReturns :
      outcomeOf choices store name user tenantCode body =
        (.ok view, after)) :
    WithinStock after name view.order.id ↔
      ∀ productId stock,
        store.stock? name productId = some stock →
          requested productId body.items ≤ stock := by
  cases hDb : store.dbs name with
  | none =>
      rcases create_of_missing hDb with ⟨error, hThrows⟩
      rw [hThrows] at hReturns
      cases hReturns
  | some db =>
      have hCases :=
        (create_succeedsIff hDb (hLines db hDb) choices user
          tenantCode body).complete_cases
      unfold outcomeOf at hReturns
      rcases hCases with
        ⟨_, view', _, after', hOk, hCreated⟩ |
          ⟨_, error, after', hThrows, _⟩
      swap
      · rw [hThrows] at hReturns
        cases hReturns
      rw [hOk] at hReturns
      cases hReturns
      rcases hCreated with ⟨added, db', hAfter, _, hFilled⟩
      have hStock :
          ∀ productId,
            after.stock? name productId =
              store.stock? name productId := by
        intro productId
        rw [Backend.stock?_of_dbs hAfter,
          Backend.stock?_of_dbs hDb, hFilled.products]
      unfold WithinStock
      simp only [hStock, Backend.items_of_dbs hAfter,
        hFilled.quantityOf_eq]

theorem withinStock_iff_of_shop :
    ∃ view after,
      outcomeOf naming Shop.store "tenant_t1" Shop.alice "t1"
          (mugsTwice 2 3 (by decide) (by decide)) =
        (.ok view, after) ∧
      (WithinStock after "tenant_t1" view.order.id ↔
        ∀ productId stock,
          Shop.store.stock? "tenant_t1" productId =
              some stock →
            requested productId
                (mugsTwice 2 3 (by decide) (by decide)).items ≤
              stock) := by
  have hOk :
      ∃ view after,
        outcomeOf naming Shop.store "tenant_t1" Shop.alice "t1"
            (mugsTwice 2 3 (by decide) (by decide)) =
          (.ok view, after) :=
    ⟨_, _, rfl⟩
  rcases hOk with ⟨view, after, hReturns⟩
  exact
    ⟨view, after, hReturns,
      withinStock_iff linesHaveOrders_of_shop hReturns⟩

/- Twice three mugs are ordered, of which five are there. -/
theorem not_withinStock :
    ¬ ∀ (choices : Nat → Choice) (store : Backend)
        (name : String) (user : AuthUser)
        (tenantCode : String) (body : CreateOrderDto)
        (view : OrderView) (after : Backend),
      (∀ db, store.dbs name = some db →
        db.LinesHaveOrders) →
      outcomeOf choices store name user tenantCode body =
        (.ok view, after) →
      WithinStock after name view.order.id := by
  intro hClaim
  have hReturns :
      ∃ view after,
        outcomeOf naming Shop.store "tenant_t1" Shop.alice "t1"
            (mugsTwice 3 3 (by decide) (by decide)) =
          (.ok view, after) ∧
        after.stock? "tenant_t1" "mug" = some 5 ∧
        quantityOf "mug"
          (after.items "tenant_t1" view.order.id) = 6 :=
    ⟨_, _, rfl, by decide +kernel, by decide +kernel⟩
  rcases hReturns with
    ⟨view, after, hOutcome, hStock, hQuantity⟩
  have hWithin :=
    hClaim naming Shop.store "tenant_t1" Shop.alice "t1"
      (mugsTwice 3 3 (by decide) (by decide)) view after
      linesHaveOrders_of_shop hOutcome "mug" 5 hStock
  rw [hQuantity] at hWithin
  exact absurd hWithin (by decide)

end Creation

end OrderApi
