import OrderApi.Model.Entities
import OrderApi.Core.Program
import Mathlib.Data.List.Sort
import Mathlib.Logic.Function.Basic

/-
  The store behind the API: the default database, one
  database for each tenant, and the two order queues.

  A Prisma call is one atomic operation.  It either answers,
  with a fresh id and a clock reading at hand for the rows
  it creates, or fails with a message of the environment's
  choosing; a failed call changes nothing.

  Key definitions include:
    * `TenantDb`
    * `TenantOp`
    * `TenantOp.exec`
    * `StoreOp`
    * `StoreOp.exec`
-/

------------------------------------------------------------
-- Tenant Databases
------------------------------------------------------------

namespace OrderApi

/- The tables of one tenant database. -/
structure TenantDb where
  products : Table Product
  orders : Table Order
  orderItems : Table OrderItem

/- `select` of a product inside an order response. -/
structure ProductSummary where
  id : String
  name : String
  description : Option String
  price : Money
deriving DecidableEq, Repr

/- An order with its lines and their products. -/
structure OrderView where
  order : Order
  items : List (OrderItem × Option ProductSummary)
deriving DecidableEq, Repr

/- The `data` of an order update; `none` leaves a column. -/
structure OrderUpdate where
  status : Option OrderStatus
  total : Option Int
  paymentId : Option String
  transactionId : Option String
deriving DecidableEq, Repr

/- Rows by descending creation time; ties keep their order. -/
def newestFirst {α : Type} (createdAt : α → Nat)
    (rows : List α) : List α :=
  rows.insertionSort fun a b => createdAt b ≤ createdAt a

namespace TenantDb

/- A tenant database without rows. -/
def empty : TenantDb :=
  ⟨Table.empty, Table.empty, Table.empty⟩

/- The lines of an order. -/
def itemsOf (db : TenantDb) (orderId : String) :
    List OrderItem :=
  db.orderItems.rows.filter fun item =>
    item.orderId = orderId

/- The product columns that an order response shows. -/
def summary? (db : TenantDb) (productId : String) :
    Option ProductSummary :=
  (db.products.find? productId).map fun product =>
    { id := product.id
      name := product.name
      description := product.description
      price := product.price }

/- `include: { items: { include: { product } } }`. -/
def view (db : TenantDb) (order : Order) : OrderView where
  order := order
  items :=
    (db.itemsOf order.id).map fun item =>
      (item, db.summary? item.productId)

end TenantDb

/- The calls on a tenant's Prisma client. -/
inductive TenantOp where
  | orderCreate
      (userId : String)
      (status : OrderStatus)
      (total : Int)
  | orderFindUnique (id : String)
  | orderFindUniqueWithItems (id : String)
  | orderFindFirst (id userId : String)
  | orderFindMany (userId : String)
  | orderUpdate (id : String) (data : OrderUpdate)
  | orderItemFindFirst (orderId productId : String)
  | orderItemFindMany (orderId : String)
  | orderItemCreate
      (orderId productId : String)
      (quantity : Int)
      (price : Money)
  | orderItemUpdate (id : String) (quantity : Int)
  | productCreate
      (name : String)
      (description : Option String)
      (price stock : Int)
  | productFindUnique (id : String)
  | productCount
  | productFindMany (skip take : Nat)
  | productUpdate (id : String) (data : UpdateProductDto)
  | productDecrementStock (id : String) (amount : Int)
  | productDelete (id : String)

/- What each call answers. -/
abbrev TenantOp.Res : TenantOp → Type
  | .orderCreate _ _ _ => Order
  | .orderFindUnique _ => Option Order
  | .orderFindUniqueWithItems _ =>
      Option (Order × List OrderItem)
  | .orderFindFirst _ _ => Option OrderView
  | .orderFindMany _ => List OrderView
  | .orderUpdate _ _ => OrderView
  | .orderItemFindFirst _ _ => Option OrderItem
  | .orderItemFindMany _ => List OrderItem
  | .orderItemCreate _ _ _ _ => OrderItem
  | .orderItemUpdate _ _ => OrderItem
  | .productCreate _ _ _ _ => Product
  | .productFindUnique _ => Option Product
  | .productCount => Nat
  | .productFindMany _ _ => List Product
  | .productUpdate _ _ => Product
  | .productDecrementStock _ _ => Product
  | .productDelete _ => Product

/- What the environment supplies to a call that answers. -/
structure Tick where
  freshId : String
  now : Nat
deriving DecidableEq, Repr

/- Prisma P2002. -/
def uniqueViolated : String :=
  "Unique constraint failed on the fields: (`id`)"

/- Prisma P2003. -/
def foreignKeyViolated : String :=
  "Foreign key constraint violated"

/- Prisma P2025. -/
def recordNotFound : String :=
  "An operation failed because it depends on one or " ++
    "more records that were required but not found."

/- A value that its column cannot hold. -/
def valueOutOfRange : String :=
  "Value out of range for the type"

/- An order after the columns in `data` are written. -/
def Order.apply
    (order : Order)
    (data : OrderUpdate)
    (total : Money) : Order :=
  { order with
    status := data.status.getD order.status
    total := total
    paymentId := data.paymentId.orElse fun _ =>
      order.paymentId
    transactionId := data.transactionId.orElse fun _ =>
      order.transactionId }

/- A product after the columns in `data` are written. -/
def Product.apply
    (product : Product)
    (data : UpdateProductDto)
    (price : Money)
    (stock : Int4) : Product :=
  { product with
    name := data.name.getD product.name
    description :=
      match data.description with
      | none => product.description
      | some description => description
    price := price
    stock := stock }

theorem Order.key_apply
    (order : Order)
    (data : OrderUpdate)
    (total : Money) :
    Keyed.key (order.apply data total) = Keyed.key order :=
  rfl

theorem Product.key_apply
    (product : Product)
    (data : UpdateProductDto)
    (price : Money)
    (stock : Int4) :
    Keyed.key (product.apply data price stock) =
      Keyed.key product :=
  rfl

/- A column that is either kept or given a new value. -/
def columnValue
    {low high : Int}
    (old : Bounded low high)
    (new : Option Int) : Except String (Bounded low high) :=
  match new with
  | none => .ok old
  | some n =>
      match Bounded.ofInt? n with
      | none => .error valueOutOfRange
      | some column => .ok column

/- Execute a call on the tables of one tenant database. -/
def TenantOp.exec
    (tick : Tick)
    (db : TenantDb) :
    (op : TenantOp) → Except String (op.Res × TenantDb)
  | .orderCreate userId status total =>
      match Bounded.ofInt? total with
      | none => .error valueOutOfRange
      | some total =>
          let order : Order :=
            { id := tick.freshId
              userId := userId
              status := status
              total := total
              paymentId := none
              transactionId := none
              createdAt := tick.now }
          match db.orders.insert? order with
          | none => .error uniqueViolated
          | some orders =>
              .ok (order, { db with orders := orders })
  | .orderFindUnique id => .ok (db.orders.find? id, db)
  | .orderFindUniqueWithItems id =>
      .ok
        ((db.orders.find? id).map fun order =>
          (order, db.itemsOf order.id), db)
  | .orderFindFirst id userId =>
      .ok
        (((db.orders.find? id).filter fun order =>
          order.userId = userId).map db.view, db)
  | .orderFindMany userId =>
      .ok
        ((newestFirst Order.createdAt
          (db.orders.rows.filter fun order =>
            order.userId = userId)).map db.view, db)
  | .orderUpdate id data =>
      match db.orders.find? id with
      | none => .error recordNotFound
      | some order =>
          match columnValue order.total data.total with
          | .error message => .error message
          | .ok total =>
              let db' : TenantDb :=
                { db with
                  orders :=
                    db.orders.update id
                      (fun row => row.apply data total)
                      (fun row => row.key_apply data total) }
              .ok (db'.view (order.apply data total), db')
  | .orderItemFindFirst orderId productId =>
      .ok
        (db.orderItems.rows.find? fun item =>
          item.orderId = orderId ∧
            item.productId = productId, db)
  | .orderItemFindMany orderId =>
      .ok (db.itemsOf orderId, db)
  | .orderItemCreate orderId productId quantity price =>
      match Bounded.ofInt? quantity with
      | none => .error valueOutOfRange
      | some quantity =>
          let item : OrderItem :=
            { id := tick.freshId
              orderId := orderId
              productId := productId
              quantity := quantity
              price := price }
          if (db.orders.find? orderId).isNone ∨
              (db.products.find? productId).isNone then
            .error foreignKeyViolated
          else
            match db.orderItems.insert? item with
            | none => .error uniqueViolated
            | some items =>
                .ok (item, { db with orderItems := items })
  | .orderItemUpdate id quantity =>
      match Bounded.ofInt? quantity with
      | none => .error valueOutOfRange
      | some quantity =>
          match db.orderItems.find? id with
          | none => .error recordNotFound
          | some item =>
              .ok
                ({ item with quantity := quantity },
                  { db with
                    orderItems :=
                      db.orderItems.update id
                        (fun row =>
                          { row with quantity := quantity })
                        (fun _ => rfl) })
  | .productCreate name description price stock =>
      match Bounded.ofInt? price, Bounded.ofInt? stock with
      | some price, some stock =>
          let product : Product :=
            { id := tick.freshId
              name := name
              description := description
              price := price
              stock := stock
              createdAt := tick.now }
          match db.products.insert? product with
          | none => .error uniqueViolated
          | some products =>
              .ok (product, { db with products := products })
      | _, _ => .error valueOutOfRange
  | .productFindUnique id => .ok (db.products.find? id, db)
  | .productCount => .ok (db.products.rows.length, db)
  | .productFindMany skip take =>
      .ok
        (((newestFirst Product.createdAt
          db.products.rows).drop skip).take take, db)
  | .productUpdate id data =>
      match db.products.find? id with
      | none => .error recordNotFound
      | some product =>
          match columnValue product.price data.price,
              columnValue product.stock data.stock with
          | .ok price, .ok stock =>
              .ok
                (product.apply data price stock,
                  { db with
                    products :=
                      db.products.update id
                        (fun row => row.apply data price stock)
                        (fun row =>
                          row.key_apply data price stock) })
          | _, _ => .error valueOutOfRange
  | .productDecrementStock id amount =>
      match db.products.find? id with
      | none => .error recordNotFound
      | some product =>
          match
              Bounded.ofInt? (product.stock.val - amount) with
          | none => .error valueOutOfRange
          | some stock =>
              .ok
                ({ product with stock := stock },
                  { db with
                    products :=
                      db.products.update id
                        (fun row => { row with stock := stock })
                        (fun _ => rfl) })
  | .productDelete id =>
      match db.products.find? id with
      | none => .error recordNotFound
      | some product =>
          -- order_items_productId_fkey is ON DELETE RESTRICT
          if db.orderItems.rows.any
              (fun item => item.productId = id) then
            .error foreignKeyViolated
          else
            .ok
              (product,
                { db with products := db.products.delete id })

end OrderApi

------------------------------------------------------------
-- The Whole Store
------------------------------------------------------------

namespace OrderApi

/- A message of the order-processing queue. -/
structure OrderProcessingMessage where
  orderId : String
  userId : String
  tenantCode : String
deriving DecidableEq, Repr

/- A message of the order-completed queue. -/
structure OrderCompletedMessage where
  orderId : String
  userId : String
  tenantCode : String
  transactionId : String
deriving DecidableEq, Repr

/-
  The default database's users, the tenant databases by
  name, and every message published so far.

  Delivery is at least once: a message stays in its queue,
  and may be handled any number of times.  That an
  acknowledged message is not delivered again needs no step
  of its own, since a run may leave any message unhandled.
-/
structure Backend where
  users : Table User
  dbs : String → Option TenantDb
  orderProcessing : List OrderProcessingMessage
  orderCompleted : List OrderCompletedMessage

/- Everything a handler may call. -/
inductive StoreOp where
  | tenant (name : String) (op : TenantOp)
  | findReadyTenants
  | publishOrderProcessing (message : OrderProcessingMessage)
  | publishOrderCompleted (message : OrderCompletedMessage)

abbrev StoreOp.Res : StoreOp → Type
  | .tenant _ op => op.Res
  | .findReadyTenants => List String
  | .publishOrderProcessing _ => Unit
  | .publishOrderCompleted _ => Unit

/- How the environment meets a call. -/
inductive Choice where
  | answer (tick : Tick)
  | failure (message : String)
deriving DecidableEq, Repr

/- An error that a store call throws. -/
def storeError (message : String) : ApiError :=
  ⟨.store, message⟩

/- Prisma P1003. -/
def databaseMissing (name : String) : String :=
  "Database `" ++ name ++
    "` does not exist on the database server."

/- Tenant codes of users whose database is created. -/
def Backend.readyTenants (store : Backend) : List String :=
  store.users.rows.filterMap fun user =>
    if user.isDatabaseCreated then user.tenantCode else none

/- Execute a call on the whole store. -/
def StoreOp.exec
    (choice : Choice) :
    (op : StoreOp) → Backend →
      Except ApiError op.Res × Backend
  | op, store =>
    match choice with
    | .failure message => (.error (storeError message), store)
    | .answer tick =>
        match op with
        | .tenant name op =>
            match store.dbs name with
            | none =>
                (.error (storeError (databaseMissing name)),
                  store)
            | some db =>
                match op.exec tick db with
                | .error message =>
                    (.error (storeError message), store)
                | .ok (result, db') =>
                    (.ok result,
                      { store with
                        dbs :=
                          Function.update store.dbs name
                            (some db') })
        | .findReadyTenants => (.ok store.readyTenants, store)
        | .publishOrderProcessing message =>
            (.ok (),
              { store with
                orderProcessing :=
                  store.orderProcessing ++ [message] })
        | .publishOrderCompleted message =>
            (.ok (),
              { store with
                orderCompleted :=
                  store.orderCompleted ++ [message] })

/- The programs of the API's handlers. -/
abbrev Handler (α : Type) :=
  Program StoreOp StoreOp.Res ApiError α

end OrderApi
