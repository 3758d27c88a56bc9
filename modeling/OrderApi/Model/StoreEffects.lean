import OrderApi.Model.Store

/-
  What the store shows, and what a call changes of it.

  Each writing call has one lemma that says all it does when
  it succeeds; `TenantOp.exec_frame` says what it leaves
  alone, and `StoreOp.exec_tenant_cases` that it otherwise
  changes nothing.

  Key definitions include:
    * `Backend.order?`, `Backend.status?`, `Backend.total?`
    * `Backend.product?`, `Backend.stock?`
    * `Backend.items`
    * `TenantOp.writes`

  Key theorems include:
    * `StoreOp.exec_tenant_cases`
    * `StoreOp.exec_order_cases`
    * `TenantOp.exec_frame`
    * `TenantOp.exec_orderUpdate`
    * `TenantOp.exec_productDecrementStock`
-/

------------------------------------------------------------
-- Reading the Store
------------------------------------------------------------

namespace OrderApi

namespace Backend

/- The order with an id in a tenant database. -/
def order? (store : Backend) (name id : String) :
    Option Order :=
  (store.dbs name).bind fun db => db.orders.find? id

/- The status of an order in a tenant database. -/
def status? (store : Backend) (name id : String) :
    Option OrderStatus :=
  (store.order? name id).map Order.status

/- The total of an order in a tenant database. -/
def total? (store : Backend) (name id : String) :
    Option Int :=
  (store.order? name id).map fun order => order.total.val

/- The product with an id in a tenant database. -/
def product? (store : Backend) (name id : String) :
    Option Product :=
  (store.dbs name).bind fun db => db.products.find? id

/- The stock of a product in a tenant database. -/
def stock? (store : Backend) (name id : String) :
    Option Int :=
  (store.product? name id).map fun product =>
    product.stock.val

/- The lines of an order in a tenant database. -/
def items (store : Backend) (name orderId : String) :
    List OrderItem :=
  (store.dbs name).elim [] fun db => db.itemsOf orderId

/- The store after one tenant database is replaced. -/
def put (store : Backend) (name : String) (db : TenantDb) :
    Backend :=
  { store with
    dbs := Function.update store.dbs name (some db) }

variable {store : Backend} {name name' : String}
variable {db : TenantDb}

@[simp] theorem put_orderProcessing :
    (store.put name db).orderProcessing =
      store.orderProcessing :=
  rfl

@[simp] theorem put_orderCompleted :
    (store.put name db).orderCompleted =
      store.orderCompleted :=
  rfl

@[simp] theorem put_users :
    (store.put name db).users = store.users :=
  rfl

@[simp] theorem put_dbs_same :
    (store.put name db).dbs name = some db := by
  simp [put]

theorem put_dbs_other (hName : name' ≠ name) :
    (store.put name db).dbs name' = store.dbs name' := by
  simp [put, hName]

theorem put_self (hDb : store.dbs name = some db) :
    store.put name db = store := by
  have hDbs :
      Function.update store.dbs name (some db) =
        store.dbs := by
    rw [← hDb, Function.update_eq_self]
  rw [put, hDbs]

@[simp] theorem put_put (db db' : TenantDb) :
    (store.put name db).put name db' = store.put name db' := by
  simp [put]

@[simp] theorem order?_put_same (id : String) :
    (store.put name db).order? name id =
      db.orders.find? id := by
  simp [order?]

@[simp] theorem product?_put_same (id : String) :
    (store.put name db).product? name id =
      db.products.find? id := by
  simp [product?]

@[simp] theorem items_put_same (orderId : String) :
    (store.put name db).items name orderId =
      db.itemsOf orderId := by
  simp [items]

theorem order?_put_other
    (hName : name' ≠ name)
    (id : String) :
    (store.put name db).order? name' id =
      store.order? name' id := by
  simp [order?, put_dbs_other hName]

theorem product?_put_other
    (hName : name' ≠ name)
    (id : String) :
    (store.put name db).product? name' id =
      store.product? name' id := by
  simp [product?, put_dbs_other hName]

theorem items_put_other
    (hName : name' ≠ name)
    (orderId : String) :
    (store.put name db).items name' orderId =
      store.items name' orderId := by
  simp [items, put_dbs_other hName]

theorem order?_of_dbs
    (hDb : store.dbs name = some db)
    (id : String) :
    store.order? name id = db.orders.find? id := by
  simp [order?, hDb]

theorem product?_of_dbs
    (hDb : store.dbs name = some db)
    (id : String) :
    store.product? name id = db.products.find? id := by
  simp [product?, hDb]

theorem items_of_dbs
    (hDb : store.dbs name = some db)
    (orderId : String) :
    store.items name orderId = db.itemsOf orderId := by
  simp [items, hDb]

/- Replacing a database by one with the same orders. -/
theorem order?_put_frame
    {db' : TenantDb}
    (hDb : store.dbs name = some db)
    (hOrders : db'.orders = db.orders)
    (name' id : String) :
    (store.put name db').order? name' id =
      store.order? name' id := by
  by_cases hName : name' = name
  · subst hName
    rw [order?_put_same, order?_of_dbs hDb, hOrders]
  · exact order?_put_other hName id

/- Replacing a database by one with the same products. -/
theorem product?_put_frame
    {db' : TenantDb}
    (hDb : store.dbs name = some db)
    (hProducts : db'.products = db.products)
    (name' id : String) :
    (store.put name db').product? name' id =
      store.product? name' id := by
  by_cases hName : name' = name
  · subst hName
    rw [product?_put_same, product?_of_dbs hDb, hProducts]
  · exact product?_put_other hName id

/- Replacing a database by one with the same lines. -/
theorem items_put_frame
    {db' : TenantDb}
    (hDb : store.dbs name = some db)
    (hItems : db'.orderItems = db.orderItems)
    (name' orderId : String) :
    (store.put name db').items name' orderId =
      store.items name' orderId := by
  by_cases hName : name' = name
  · subst hName
    rw [items_put_same, items_of_dbs hDb,
      TenantDb.itemsOf, hItems, TenantDb.itemsOf]
  · exact items_put_other hName orderId

end Backend

end OrderApi

------------------------------------------------------------
-- What a Call Changes
------------------------------------------------------------

namespace OrderApi

/- The table that a call writes, if any. -/
inductive Written where
  | nothing
  | orders
  | orderItems
  | products
deriving DecidableEq, Repr

def TenantOp.writes : TenantOp → Written
  | .orderCreate _ _ _ => .orders
  | .orderUpdate _ _ => .orders
  | .orderItemCreate _ _ _ _ => .orderItems
  | .orderItemUpdate _ _ => .orderItems
  | .productCreate _ _ _ _ => .products
  | .productUpdate _ _ => .products
  | .productDecrementStock _ _ => .products
  | .productDelete _ => .products
  | _ => .nothing

/- A call that leaves the whole store as it is. -/
def StoreOp.isRead : StoreOp → Bool
  | .tenant _ op => op.writes = .nothing
  | .findReadyTenants => true
  | .publishOrderProcessing _ => false
  | .publishOrderCompleted _ => false

namespace TenantOp

variable {tick : Tick} {db db' : TenantDb}

/- A call leaves alone every table that it does not write. -/
theorem exec_frame
    {op : TenantOp}
    {result : op.Res}
    (hExec : op.exec tick db = .ok (result, db')) :
    (op.writes ≠ .orders → db'.orders = db.orders) ∧
      (op.writes ≠ .orderItems →
        db'.orderItems = db.orderItems) ∧
      (op.writes ≠ .products →
        db'.products = db.products) := by
  cases op <;> simp only [exec] at hExec <;>
    (repeat' split at hExec) <;>
    simp_all [writes]
  all_goals
    rcases hExec with ⟨_, rfl⟩
    simp

/- What a successful order creation does. -/
theorem exec_orderCreate
    {userId : String}
    {status : OrderStatus}
    {total : Int}
    {order : Order}
    (hExec :
      (orderCreate userId status total).exec tick db =
        .ok (order, db')) :
    order.id = tick.freshId ∧
      order.userId = userId ∧
      order.status = status ∧
      order.total.val = total ∧
      db.orders.insert? order = some db'.orders := by
  simp only [exec] at hExec
  split at hExec
  · cases hExec
  · rename_i hTotal
    split at hExec
    · cases hExec
    · rename_i hInsert
      cases hExec
      exact
        ⟨rfl, rfl, rfl, Bounded.ofInt?_eq_some_iff.mp hTotal,
          hInsert⟩

/- The value that a column takes on. -/
theorem columnValue_eq_ok
    {low high : Int}
    {old column : Bounded low high}
    {new : Option Int}
    (hColumn : columnValue old new = .ok column) :
    column.val = new.getD old.val := by
  cases new with
  | none =>
      simp only [columnValue, Except.ok.injEq] at hColumn
      simp [hColumn]
  | some n =>
      cases hRange : (Bounded.ofInt? n : Option
          (Bounded low high)) with
      | none => simp [columnValue, hRange] at hColumn
      | some column' =>
          simp only [columnValue, hRange,
            Except.ok.injEq] at hColumn
          subst hColumn
          exact Bounded.ofInt?_eq_some_iff.mp hRange

/- What a successful order update does. -/
theorem exec_orderUpdate
    {id : String}
    {data : OrderUpdate}
    {result : OrderView}
    (hExec :
      (orderUpdate id data).exec tick db =
        .ok (result, db')) :
    ∃ order total,
      db.orders.find? id = some order ∧
        total.val = data.total.getD order.total.val ∧
        ∀ id',
          db'.orders.find? id' =
            if id' = id then some (order.apply data total)
            else db.orders.find? id' := by
  simp only [exec] at hExec
  split at hExec
  · cases hExec
  · rename_i order hFind
    split at hExec
    · cases hExec
    · rename_i total hTotal
      cases hExec
      refine
        ⟨order, total, hFind, columnValue_eq_ok hTotal, ?_⟩
      intro id'
      simp only [Table.find?_update, hFind, Option.map_some]

/-
  A successful line creation adds a line of its order, for a
  product that exists.
-/
theorem exec_orderItemCreate
    {orderId productId : String}
    {quantity : Int}
    {price : Money}
    {item : OrderItem}
    (hExec :
      (orderItemCreate orderId productId quantity
        price).exec tick db = .ok (item, db')) :
    item.orderId = orderId ∧
      item.productId = productId ∧
      item.quantity.val = quantity ∧
      item.price = price ∧
      db.products.find? productId ≠ none ∧
      db.orderItems.insert? item = some db'.orderItems := by
  simp only [exec] at hExec
  split at hExec
  · cases hExec
  · rename_i hQuantity
    split at hExec
    · cases hExec
    · rename_i hReferences
      split at hExec
      · cases hExec
      · rename_i hInsert
        cases hExec
        refine
          ⟨rfl, rfl, Bounded.ofInt?_eq_some_iff.mp hQuantity,
            rfl, ?_, hInsert⟩
        intro hNone
        exact hReferences (Or.inr (by simp [hNone]))

/- A successful line update keeps the line's order. -/
theorem exec_orderItemUpdate
    {id : String}
    {quantity : Int}
    {result : OrderItem}
    (hExec :
      (orderItemUpdate id quantity).exec tick db =
        .ok (result, db')) :
    ∃ item column,
      db.orderItems.find? id = some item ∧
        column.val = quantity ∧
        db'.orderItems =
          db.orderItems.update id
            (fun row => { row with quantity := column })
            (fun _ => rfl) := by
  simp only [exec] at hExec
  split at hExec
  · cases hExec
  · rename_i column hQuantity
    split at hExec
    · cases hExec
    · rename_i item hFind
      cases hExec
      exact
        ⟨item, column, hFind,
          Bounded.ofInt?_eq_some_iff.mp hQuantity, rfl⟩

/- What a successful product creation does. -/
theorem exec_productCreate
    {name : String}
    {description : Option String}
    {price stock : Int}
    {product : Product}
    (hExec :
      (productCreate name description price stock).exec
        tick db = .ok (product, db')) :
    product.stock.val = stock ∧
      db.products.insert? product = some db'.products := by
  simp only [exec] at hExec
  split at hExec
  · rename_i price' stock' _ hStock
    split at hExec
    · cases hExec
    · rename_i hInsert
      cases hExec
      exact
        ⟨Bounded.ofInt?_eq_some_iff.mp hStock, hInsert⟩
  · cases hExec

/- What a successful product update does. -/
theorem exec_productUpdate
    {id : String}
    {data : UpdateProductDto}
    {result : Product}
    (hExec :
      (productUpdate id data).exec tick db =
        .ok (result, db')) :
    ∃ product price stock,
      db.products.find? id = some product ∧
        stock.val = data.stock.getD product.stock.val ∧
        ∀ id',
          db'.products.find? id' =
            if id' = id then
              some (product.apply data price stock)
            else db.products.find? id' := by
  simp only [exec] at hExec
  split at hExec
  · cases hExec
  · rename_i product hFind
    split at hExec
    · rename_i price stock _ hStock
      cases hExec
      refine
        ⟨product, price, stock, hFind,
          columnValue_eq_ok hStock, ?_⟩
      intro id'
      simp only [Table.find?_update, hFind, Option.map_some]
    · cases hExec

/- What a successful stock decrement does. -/
theorem exec_productDecrementStock
    {id : String}
    {amount : Int}
    {result : Product}
    (hExec :
      (productDecrementStock id amount).exec tick db =
        .ok (result, db')) :
    ∃ product stock,
      db.products.find? id = some product ∧
        stock.val = product.stock.val - amount ∧
        ∀ id',
          db'.products.find? id' =
            if id' = id then
              some { product with stock := stock }
            else db.products.find? id' := by
  simp only [exec] at hExec
  split at hExec
  · cases hExec
  · rename_i product hFind
    split at hExec
    · cases hExec
    · rename_i stock hStock
      cases hExec
      refine
        ⟨product, stock, hFind,
          Bounded.ofInt?_eq_some_iff.mp hStock, ?_⟩
      intro id'
      simp only [Table.find?_update, hFind, Option.map_some]

/- What a successful product deletion does. -/
theorem exec_productDelete
    {id : String}
    {result : Product}
    (hExec :
      (productDelete id).exec tick db =
        .ok (result, db')) :
    ∀ id',
      db'.products.find? id' =
        if id' = id then none
        else db.products.find? id' := by
  simp only [exec] at hExec
  split at hExec
  · cases hExec
  · split at hExec
    · cases hExec
    · cases hExec
      intro id'
      exact Table.find?_delete db.products id id'

end TenantOp

namespace StoreOp

/-
  A call on a tenant database fails and changes nothing, or
  succeeds and replaces that database alone.
-/
theorem exec_tenant_cases
    (choice : Choice)
    (name : String)
    (op : TenantOp)
    (store : Backend) :
    (∃ error,
      (StoreOp.tenant name op).exec choice store =
        (.error error, store)) ∨
    (∃ tick db db' result,
      choice = .answer tick ∧
        store.dbs name = some db ∧
        op.exec tick db = .ok (result, db') ∧
        (StoreOp.tenant name op).exec choice store =
          (.ok result, store.put name db')) := by
  cases choice with
  | failure message => exact Or.inl ⟨_, rfl⟩
  | answer tick =>
      cases hDb : store.dbs name with
      | none =>
          apply Or.inl
          exact
            ⟨storeError (databaseMissing name),
              by simp [exec, hDb]⟩
      | some db =>
          cases hExec : op.exec tick db with
          | error message =>
              apply Or.inl
              exact
                ⟨storeError message,
                  by simp [exec, hDb, hExec]⟩
          | ok pair =>
              apply Or.inr
              refine
                ⟨tick, db, pair.2, pair.1, rfl, rfl,
                  hExec, ?_⟩
              simp [exec, hDb, hExec, Backend.put]

/- A call on a tenant database that succeeds. -/
theorem exec_tenant_ok
    {choice : Choice}
    {name : String}
    {op : TenantOp}
    {store store' : Backend}
    {result : op.Res}
    (hExec :
      (StoreOp.tenant name op).exec choice store =
        (.ok result, store')) :
    ∃ tick db db',
      choice = .answer tick ∧
        store.dbs name = some db ∧
        op.exec tick db = .ok (result, db') ∧
        store' = store.put name db' := by
  rcases exec_tenant_cases choice name op store with
    ⟨error, hError⟩ |
      ⟨tick, db, db', result', hChoice, hDb, hRun, hOk⟩
  · rw [hError] at hExec
    simp at hExec
  · rw [hOk] at hExec
    simp only [Prod.mk.injEq, Except.ok.injEq] at hExec
    rcases hExec with ⟨rfl, rfl⟩
    exact ⟨tick, db, db', hChoice, hDb, hRun, rfl⟩

/- A call that fails changes nothing. -/
theorem exec_error
    {choice : Choice}
    {op : StoreOp}
    {store store' : Backend}
    {error : ApiError}
    (hExec : op.exec choice store = (.error error, store')) :
    store' = store := by
  cases op with
  | tenant name op =>
      rcases exec_tenant_cases choice name op store with
        ⟨error', hError⟩ |
          ⟨tick, db, db', result, _, _, _, hOk⟩
      · rw [hError] at hExec
        exact (Prod.mk.inj hExec).2.symm
      · rw [hOk] at hExec
        simp at hExec
  | findReadyTenants =>
      cases choice <;> simp [exec] at hExec
      exact hExec.2.symm
  | publishOrderProcessing message =>
      cases choice <;> simp [exec] at hExec
      exact hExec.2.symm
  | publishOrderCompleted message =>
      cases choice <;> simp [exec] at hExec
      exact hExec.2.symm

/-
  A call leaves the tenant databases as they are, or is a
  call on one of them that succeeds.
-/
theorem exec_dbs_cases
    {choice : Choice}
    {op : StoreOp}
    {store store' : Backend}
    {answer : Except ApiError op.Res}
    (hExec : op.exec choice store = (answer, store')) :
    store'.dbs = store.dbs ∨
    ∃ name tenantOp tick db db' result,
      op = .tenant name tenantOp ∧
        (∀ error, answer ≠ .error error) ∧
        choice = .answer tick ∧
        store.dbs name = some db ∧
        tenantOp.exec tick db = .ok (result, db') ∧
        store' = store.put name db' := by
  cases answer with
  | error error => exact Or.inl (by rw [exec_error hExec])
  | ok result =>
      cases op with
      | tenant name op =>
          rcases exec_tenant_ok hExec with
            ⟨tick, db, db', hChoice, hDb, hRun, hStore⟩
          have hOk :
              ∀ error : ApiError,
                (Except.ok result :
                    Except ApiError op.Res) ≠
                  .error error := by
            intro error hError
            cases hError
          exact
            Or.inr
              ⟨name, op, tick, db, db', result, rfl, hOk,
                hChoice, hDb, hRun, hStore⟩
      | findReadyTenants =>
          apply Or.inl
          cases choice <;> simp [exec] at hExec
          rw [hExec.2]
      | publishOrderProcessing message =>
          apply Or.inl
          cases choice <;> simp [exec] at hExec
          rw [← hExec]
      | publishOrderCompleted message =>
          apply Or.inl
          cases choice <;> simp [exec] at hExec
          rw [← hExec]

/-
  All that a call can do to an order: nothing, or create it,
  or update its columns.
-/
theorem exec_order_cases
    {choice : Choice}
    {op : StoreOp}
    {store store' : Backend}
    {answer : Except ApiError op.Res}
    (hExec : op.exec choice store = (answer, store'))
    (name id : String) :
    store'.order? name id = store.order? name id ∨
    (∃ userId status total order,
      op = .tenant name (.orderCreate userId status total) ∧
        (∀ error, answer ≠ .error error) ∧
        order.userId = userId ∧ order.status = status ∧
        order.total.val = total ∧
        store.order? name id = none ∧
        store'.order? name id = some order) ∨
    (∃ data tick old column,
      op = .tenant name (.orderUpdate id data) ∧
        (∀ error, answer ≠ .error error) ∧
        choice = .answer tick ∧
        column.val = data.total.getD old.total.val ∧
        store.order? name id = some old ∧
        store'.order? name id =
          some (old.apply data column)) := by
  rcases exec_dbs_cases hExec with
    hSame |
      ⟨name', op, tick, db, db', result, rfl, hOk, hChoice,
        hDb, hRun, rfl⟩
  · exact
      Or.inl (by rw [Backend.order?, hSame, Backend.order?])
  by_cases hName : name = name'
  swap
  · exact Or.inl (Backend.order?_put_other hName id)
  subst hName
  by_cases hWrites : op.writes = .orders
  swap
  · have hOrders := (TenantOp.exec_frame hRun).1 hWrites
    exact Or.inl (Backend.order?_put_frame hDb hOrders name id)
  rw [Backend.order?_put_same, Backend.order?_of_dbs hDb]
  cases op with
  | orderCreate userId status total =>
      rcases TenantOp.exec_orderCreate hRun with
        ⟨_, hUser, hStatus, hTotal, hInsert⟩
      have hFind := Table.find?_insert? hInsert id
      by_cases hKey : Keyed.key result = id
      · rw [if_pos hKey] at hFind
        have hAbsent :=
          (db.orders.insert?_eq_some_iff.mp hInsert).1
        rw [hKey] at hAbsent
        exact
          Or.inr (Or.inl
            ⟨userId, status, total, result, rfl, hOk, hUser,
              hStatus, hTotal, hAbsent, hFind⟩)
      · rw [if_neg hKey] at hFind
        exact Or.inl hFind
  | orderUpdate updated data =>
      rcases TenantOp.exec_orderUpdate hRun with
        ⟨order, column, hFind, hTotal, hAfter⟩
      by_cases hId : id = updated
      · subst hId
        have hNew := hAfter id
        rw [if_pos rfl] at hNew
        exact
          Or.inr (Or.inr
            ⟨data, tick, order, column, rfl, hOk, hChoice,
              hTotal, hFind, hNew⟩)
      · have hOld := hAfter id
        rw [if_neg hId] at hOld
        exact Or.inl hOld
  | _ => cases hWrites

/-
  All that a call can do to the queues: nothing, or publish
  a message.
-/
theorem exec_queues_cases
    {choice : Choice}
    {op : StoreOp}
    {store store' : Backend}
    {answer : Except ApiError op.Res}
    (hExec : op.exec choice store = (answer, store')) :
    (store'.orderProcessing = store.orderProcessing ∧
      store'.orderCompleted = store.orderCompleted) ∨
    (∃ message,
      op = .publishOrderProcessing message ∧
        (∀ error, answer ≠ .error error) ∧
        store' =
          { store with
            orderProcessing :=
              store.orderProcessing ++ [message] }) ∨
    (∃ message,
      op = .publishOrderCompleted message ∧
        (∀ error, answer ≠ .error error) ∧
        store' =
          { store with
            orderCompleted :=
              store.orderCompleted ++ [message] }) := by
  cases answer with
  | error error =>
      rw [exec_error hExec]
      exact Or.inl ⟨rfl, rfl⟩
  | ok result =>
      cases op with
      | tenant name op =>
          rcases exec_tenant_ok hExec with
            ⟨tick, db, db', _, _, _, rfl⟩
          exact Or.inl ⟨rfl, rfl⟩
      | findReadyTenants =>
          cases choice <;> simp [exec] at hExec
          rw [hExec.2]
          exact Or.inl ⟨rfl, rfl⟩
      | publishOrderProcessing message =>
          cases choice <;> simp [exec] at hExec
          exact
            Or.inr (Or.inl
              ⟨message, rfl, by simp, hExec.symm⟩)
      | publishOrderCompleted message =>
          cases choice <;> simp [exec] at hExec
          exact
            Or.inr (Or.inr
              ⟨message, rfl, by simp, hExec.symm⟩)

/- Reads change nothing. -/
theorem exec_isRead
    {op : StoreOp}
    (hRead : op.isRead = true)
    (choice : Choice)
    (store : Backend) :
    (op.exec choice store).2.orderProcessing =
        store.orderProcessing ∧
      (op.exec choice store).2.orderCompleted =
        store.orderCompleted ∧
      (op.exec choice store).2.users = store.users ∧
      ∀ name,
        (op.exec choice store).2.dbs name =
          store.dbs name := by
  cases op with
  | tenant name op =>
      have hWrites : op.writes = .nothing := by
        simpa [isRead] using hRead
      rcases exec_tenant_cases choice name op store with
        ⟨error, hExec⟩ |
          ⟨tick, db, db', result, _, hDb, hRun, hExec⟩
      · simp [hExec]
      · rcases TenantOp.exec_frame hRun with
          ⟨hOrders, hItems, hProducts⟩
        have hSame : db' = db := by
          rcases db with ⟨products, orders, items⟩
          rcases db' with ⟨products', orders', items'⟩
          simp_all
        simp only [hExec, Backend.put_orderProcessing,
          Backend.put_orderCompleted, Backend.put_users,
          true_and]
        intro name'
        by_cases hName : name' = name
        · subst hName
          simp [hSame, hDb]
        · exact Backend.put_dbs_other hName
  | findReadyTenants =>
      cases choice <;> simp [exec]
  | publishOrderProcessing message => cases hRead
  | publishOrderCompleted message => cases hRead

/- A read leaves the store as it is. -/
theorem exec_isRead_store
    {op : StoreOp}
    (hRead : op.isRead = true)
    (choice : Choice)
    (store : Backend) :
    (op.exec choice store).2 = store := by
  rcases exec_isRead hRead choice store with
    ⟨hProcessing, hCompleted, hUsers, hDbs⟩
  have hFun := funext hDbs
  generalize (op.exec choice store).2 = store' at *
  cases store
  cases store'
  simp_all

end StoreOp

end OrderApi

------------------------------------------------------------
-- Handlers that Run Alone
------------------------------------------------------------

namespace OrderApi

/- Calls of a program that runs alone. -/
def execAlone
    (choice : Choice)
    (op : StoreOp)
    (store : Backend) : Except ApiError op.Res × Backend :=
  op.exec choice store

/- Every call is answered, with the same tick. -/
def answering (_ : Nat) : Choice :=
  .answer ⟨"", 0⟩

/- A handler that only reads changes nothing. -/
theorem complete_store_of_reads
    {α : Type}
    {P : StoreOp → Prop}
    {handler : Handler α}
    (hCalls : Program.Calls P handler)
    (hReads : ∀ op, P op → op.isRead = true)
    (choices : Nat → Choice)
    (store : Backend) :
    (handler.complete execAlone choices store).2 =
      store := by
  have hEnsures :
      Program.Ensures execAlone (fun _ s => s = store)
        handler store := by
    refine hCalls.ensures ?_ rfl
    intro choice op s hOp hSame
    rw [execAlone, StoreOp.exec_isRead_store (hReads op hOp)]
    exact hSame
  exact hEnsures.complete choices

end OrderApi
