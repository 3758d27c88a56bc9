import OrderApi.Core.Completion
import OrderApi.Model.Store
import OrderApi.Text.JsString

/-
  `src/order/order.service.ts`.

  The argument `db` is the name of the database that the
  request's Prisma client is bound to; `tenantCode` is what
  the handlers put into messages and errors.

  Key definitions include:
    * `OrderService.createOrder`
    * `OrderService.addItemToOrder`
    * `OrderService.checkoutOrder`
    * `OrderService.paymentReceived`
    * `OrderService.completeOrder`
    * `OrderService.enqueueOrderProcessing`
    * `OrderService.enqueueOrderCompleted`
    * `OrderService.findAll`
    * `OrderService.findOne`
-/

------------------------------------------------------------
-- Calls and Their Errors
------------------------------------------------------------

namespace OrderApi

/- A call on a tenant's Prisma client. -/
def prisma (db : String) (op : TenantOp) : Handler op.Res :=
  Program.perform (StoreOp.tenant db op)

/- Throw an exception. -/
def raise
    {α : Type}
    (kind : ErrorKind)
    (message : String) : Handler α :=
  .fail ⟨kind, message⟩

/-
  The catch block repeated around the store calls: an error
  that mentions `does not exist` is reported as a missing
  tenant database, any other is thrown on.
-/
def mapMissingDatabase
    {α : Type}
    (tenantCode : String)
    (handler : Handler α) : Handler α :=
  handler.attempt fun error =>
    if includes error.message "does not exist" then
      .fail (tenantDatabaseMissing tenantCode)
    else
      .fail error

/- The catch block only throws. -/
theorem mapMissingDatabase_throws
    {α : Type}
    (tenantCode : String)
    (error : ApiError) :
    ∃ error' : ApiError,
      (if includes error.message "does not exist" then
          (.fail (tenantDatabaseMissing tenantCode) :
            Handler α)
        else .fail error) = .fail error' := by
  split
  · exact ⟨_, rfl⟩
  · exact ⟨_, rfl⟩

end OrderApi

------------------------------------------------------------
-- Order Service
------------------------------------------------------------

namespace OrderApi

namespace OrderService

def orderNotFound (id : String) : String :=
  "Order with ID " ++ id ++ " not found"

def productNotFound (id : String) : String :=
  "Product with ID " ++ id ++ " not found"

/- `data` of an update that writes the status alone. -/
def setStatus (status : OrderStatus) : OrderUpdate :=
  { status := some status
    total := none
    paymentId := none
    transactionId := none }

def createOrder
    (db userId tenantCode : String) : Handler Order :=
  mapMissingDatabase tenantCode
    (prisma db (.orderCreate userId .PENDING 0))

def enqueueOrderProcessing
    (orderId userId tenantCode : String) : Handler Unit :=
  Program.perform
    (StoreOp.publishOrderProcessing
      ⟨orderId, userId, tenantCode⟩)

/- The status of the order is not looked at here. -/
def enqueueOrderCompleted
    (db orderId userId tenantCode transactionId : String) :
    Handler Unit := do
  let order : Option Order ←
    prisma db (.orderFindUnique orderId)
  match order with
  | none => raise .notFound (orderNotFound orderId)
  | some order =>
      if order.userId ≠ userId then
        raise .forbidden
          "You do not have permission to complete this order"
      else
        Program.perform
          (StoreOp.publishOrderCompleted
            ⟨orderId, userId, tenantCode, transactionId⟩)

/- The sum of `price * quantity` over lines, in cents. -/
def orderTotal (items : List OrderItem) : Int :=
  items.foldl
    (fun sum item => sum + item.price.val * item.quantity.val)
    0

def recalculateOrderTotal
    (db orderId : String) : Handler Unit := do
  let items : List OrderItem ←
    prisma db (.orderItemFindMany orderId)
  let _ ←
    prisma db
      (.orderUpdate orderId
        { status := none
          total := some (orderTotal items)
          paymentId := none
          transactionId := none })
  pure ()

/- Merge an item into its line, or add a line for it. -/
def saveItem
    (db orderId : String)
    (addItemDto : AddItemDto)
    (tenantCode : String)
    (product : Product)
    (existingItem : Option OrderItem) : Handler OrderItem :=
  match existingItem with
  | some existingItem =>
      mapMissingDatabase tenantCode
        (prisma db
          (.orderItemUpdate existingItem.id
            (existingItem.quantity.val +
              addItemDto.quantity)))
  | none =>
      mapMissingDatabase tenantCode
        (prisma db
          (.orderItemCreate orderId addItemDto.productId
            addItemDto.quantity product.price))

def addItemToOrder
    (db orderId userId : String)
    (addItemDto : AddItemDto)
    (tenantCode : String) : Handler OrderItem := do
  let order : Option Order ←
    prisma db (.orderFindUnique orderId)
  match order with
  | none => raise .notFound (orderNotFound orderId)
  | some order =>
      if order.userId ≠ userId then
        raise .forbidden
          "You do not have permission to modify this order"
      else if order.status ≠ .PENDING then
        raise .badRequest
          "Cannot add items to an order that is not pending"
      else do
        let product : Option Product ←
          mapMissingDatabase tenantCode
            (prisma db
              (.productFindUnique addItemDto.productId))
        match product with
        | none =>
            raise .notFound
              (productNotFound addItemDto.productId)
        | some product =>
            if product.stock.val < addItemDto.quantity then
              raise .badRequest
                ("Insufficient stock. Available: " ++
                  toString product.stock.val)
            else do
              let existingItem : Option OrderItem ←
                prisma db
                  (.orderItemFindFirst orderId
                    addItemDto.productId)
              let orderItem ←
                saveItem db orderId addItemDto tenantCode
                  product existingItem
              recalculateOrderTotal db orderId
              pure orderItem

/- The stock check of one line at checkout. -/
def checkStock
    (db tenantCode : String)
    (item : OrderItem) : Handler Unit := do
  let product : Option Product ←
    mapMissingDatabase tenantCode
      (prisma db (.productFindUnique item.productId))
  match product with
  | none =>
      raise .notFound (productNotFound item.productId)
  | some product =>
      if product.stock.val < item.quantity.val then
        raise .badRequest
          ("Insufficient stock for product " ++
            product.name ++ ". Available: " ++
            toString product.stock.val ++ ", Required: " ++
            toString item.quantity.val)
      else
        pure ()

/- No route reaches this method. -/
def checkoutOrder
    (db orderId userId tenantCode : String) :
    Handler OrderView := do
  let found : Option (Order × List OrderItem) ←
    prisma db (.orderFindUniqueWithItems orderId)
  match found with
  | none => raise .notFound (orderNotFound orderId)
  | some (order, items) =>
      if order.userId ≠ userId then
        raise .forbidden
          "You do not have permission to checkout this order"
      else if order.status ≠ .PENDING then
        raise .badRequest
          "Order is not in pending status"
      else if items = [] then
        raise .badRequest
          "Cannot checkout an order with no items"
      else do
        Program.forEach items (checkStock db tenantCode)
        mapMissingDatabase tenantCode
          (prisma db
            (.orderUpdate orderId
              (setStatus .WAITING_FOR_PAYMENT)))

/- Take the quantity of one line from its product. -/
def deductStock
    (db tenantCode : String)
    (item : OrderItem) : Handler Unit :=
  (mapMissingDatabase tenantCode
    (prisma db
      (.productDecrementStock item.productId
        item.quantity.val))).ignore

/- Write PAID, without a look at the present status. -/
def markPaid
    (db orderId tenantCode : String) : Handler OrderView :=
  mapMissingDatabase tenantCode
    (prisma db (.orderUpdate orderId (setStatus .PAID)))

def paymentReceived
    (db orderId userId tenantCode : String) :
    Handler OrderView := do
  let found : Option (Order × List OrderItem) ←
    prisma db (.orderFindUniqueWithItems orderId)
  match found with
  | none => raise .notFound (orderNotFound orderId)
  | some (order, items) =>
      if order.userId ≠ userId then
        raise .forbidden
          "You do not have permission to update this order"
      else if order.status ≠ .WAITING_FOR_PAYMENT then
        raise .badRequest
          "Order is not waiting for payment"
      else do
        Program.forEach items (deductStock db tenantCode)
        markPaid db orderId tenantCode

/- No route reaches this method. -/
def completeOrder
    (db orderId userId tenantCode : String) :
    Handler OrderView := do
  let order : Option Order ←
    prisma db (.orderFindUnique orderId)
  match order with
  | none => raise .notFound (orderNotFound orderId)
  | some order =>
      if order.userId ≠ userId then
        raise .forbidden
          "You do not have permission to complete this order"
      else if order.status ≠ .PAID then
        raise .badRequest
          "Order must be paid before it can be completed"
      else
        mapMissingDatabase tenantCode
          (prisma db
            (.orderUpdate orderId (setStatus .COMPLETE)))

def findOne (db id userId : String) : Handler OrderView := do
  let order : Option OrderView ←
    prisma db (.orderFindFirst id userId)
  match order with
  | none => raise .notFound (orderNotFound id)
  | some order => pure order

end OrderService

end OrderApi

------------------------------------------------------------
-- Orders of All Tenants
------------------------------------------------------------

namespace OrderApi

/- An order tagged with the tenant it was found at. -/
structure TenantOrder where
  view : OrderView
  tenantCode : String
deriving DecidableEq, Repr

/- A page of a list, as the handlers return it. -/
structure Page (α : Type) where
  page : Nat
  per_page : Nat
  total : Nat
  total_pages : Nat
  data : List α
deriving DecidableEq, Repr

/- `Math.max(1, Math.ceil(total / perPage))`. -/
def totalPages (total perPage : Nat) : Nat :=
  max 1 ((total + perPage - 1) / perPage)

namespace OrderService

/- Fetch tenant by tenant; a failing tenant is skipped. -/
def fetchOrders
    (databaseName : String → String)
    (userId : String) :
    List String → Handler (List TenantOrder)
| [] => pure []
| tenantCode :: tenantCodes => do
    let fetched ←
      Program.attempt
        (do
          let views : List OrderView ←
            prisma (databaseName tenantCode)
              (.orderFindMany userId)
          pure
            (views.map fun view =>
              (⟨view, tenantCode⟩ : TenantOrder)))
        (fun _ => pure [])
    let others ← fetchOrders databaseName userId tenantCodes
    pure (fetched ++ others)

/- Sort the orders and cut out the requested page. -/
def paginate
    (orders : List TenantOrder)
    (page perPage : Nat) : Page TenantOrder :=
  let sorted :=
    newestFirst
      (fun order => order.view.order.createdAt) orders
  let total := sorted.length
  let totalPages := totalPages total perPage
  let currentPage := min page totalPages
  let start := (currentPage - 1) * perPage
  { page := currentPage
    per_page := perPage
    total := total
    total_pages := totalPages
    data := (sorted.drop start).take perPage }

def findAll
    (databaseName : String → String)
    (userId : String)
    (page perPage : Nat) : Handler (Page TenantOrder) := do
  let tenantCodes : List String ←
    Program.perform StoreOp.findReadyTenants
  let orders ← fetchOrders databaseName userId tenantCodes
  pure (paginate orders page perPage)

end OrderService

end OrderApi
