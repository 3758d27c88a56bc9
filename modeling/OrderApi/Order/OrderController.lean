import OrderApi.Order.OrderService

/-
  `src/order/order.controller.ts`.

  Key definitions include:
    * `OrderController.create`
    * `OrderController.findAll`
    * `OrderController.findOne`
    * `OrderController.paymentReceived`
    * `OrderController.completeOrder`
-/

------------------------------------------------------------
-- Page Numbers
------------------------------------------------------------

namespace OrderApi

/- `parseInt(value ?? default, 10) || fallback`. -/
def queryNumber
    (value : Option String)
    (fallback : Int) : Int :=
  match value with
  | none => fallback
  | some text =>
      match parseInt10? text with
      | none => fallback
      | some n => if n = 0 then fallback else n

/- `Math.max(1, ...)` of the requested page. -/
def pageNum (page : Option String) : Nat :=
  (max 1 (queryNumber page 1)).toNat

/- `Math.max(1, Math.min(100, ...))` of the page size. -/
def perPageNum (perPage : Option String) : Nat :=
  (max 1 (min 100 (queryNumber perPage 10))).toNat

end OrderApi

------------------------------------------------------------
-- Order Controller
------------------------------------------------------------

namespace OrderApi

namespace OrderController

def create
    (db : String)
    (user : AuthUser)
    (tenantCode : String)
    (body : CreateOrderDto) : Handler OrderView :=
  if body.items.isEmpty then
    raise .badRequest
      "items is required and must be a non-empty array"
  else do
    let order : Order ←
      OrderService.createOrder db user.id tenantCode
    Program.forEach body.items fun item =>
      (OrderService.addItemToOrder db order.id user.id
        ⟨item.product_id, item.qty⟩ tenantCode).ignore
    OrderService.enqueueOrderProcessing order.id user.id
      tenantCode
    OrderService.findOne db order.id user.id

def findAll
    (databaseName : String → String)
    (user : AuthUser)
    (page perPage : Option String) :
    Handler (Page TenantOrder) :=
  OrderService.findAll databaseName user.id (pageNum page)
    (perPageNum perPage)

def findOne
    (db id : String)
    (user : AuthUser) : Handler OrderView :=
  OrderService.findOne db id user.id

def paymentReceived
    (db id : String)
    (user : AuthUser)
    (tenantCode : String) : Handler OrderView :=
  OrderService.paymentReceived db id user.id tenantCode

def completeOrder
    (db id : String)
    (user : AuthUser)
    (tenantCode transaction_id : String) : Handler Unit :=
  if transaction_id.toList.all isJsSpace then
    raise .badRequest "transaction_id is required"
  else
    OrderService.enqueueOrderCompleted db id user.id
      tenantCode transaction_id

end OrderController

end OrderApi
