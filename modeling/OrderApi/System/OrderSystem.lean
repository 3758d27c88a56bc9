import OrderApi.Core.Pool
import OrderApi.Model.StoreEffects
import OrderApi.Order.OrderController
import OrderApi.Product.ProductService
import OrderApi.Rabbitmq.OrderConsumers

/-
  The running system of order and product requests and of
  the two order consumers: every job is one program in a
  pool, and the pool interleaves their store calls freely.

  `databaseName` says which database a tenant code selects;
  it is the same function for requests and for consumers.

  Key definitions include:
    * `Job`
    * `Job.handler`
    * `orderSystem`
    * `World`
-/

------------------------------------------------------------
-- Jobs
------------------------------------------------------------

namespace OrderApi

/-
  What may be started: a request to a route of the order or
  product controller, or the handling of a queued message.
-/
inductive Job where
  | createOrder
      (user : AuthUser)
      (tenantCode : String)
      (body : CreateOrderDto)
  | findOrders
      (user : AuthUser)
      (page perPage : Option String)
  | findOrder
      (user : AuthUser)
      (tenantCode id : String)
  | paymentReceived
      (user : AuthUser)
      (tenantCode id : String)
  | completeOrder
      (user : AuthUser)
      (tenantCode id transactionId : String)
  | createProduct
      (user : AuthUser)
      (tenantCode : String)
      (body : CreateProductDto)
  | findProducts
      (user : AuthUser)
      (tenantCode : String)
      (page perPage : Option String)
  | findProduct
      (user : AuthUser)
      (tenantCode id : String)
  | updateProduct
      (user : AuthUser)
      (tenantCode id : String)
      (body : UpdateProductDto)
  | removeProduct
      (user : AuthUser)
      (tenantCode id : String)
  | handleOrderProcessing
      (paymentId : String)
      (message : OrderProcessingMessage)
  | handleOrderCompleted (message : OrderCompletedMessage)

namespace Job

/- `RolesGuard`: the user has one of the required roles. -/
def allows (roles : List Role) (user : AuthUser) : Bool :=
  user.role ∈ roles

/-
  A request starts when its guards let it through, and a
  message may be handled once it is in its queue.
-/
def ready (store : Backend) : Job → Bool
  | createOrder user _ _ => allows [.CUSTOMER] user
  | findOrders user _ _ => allows [.CUSTOMER, .ADMIN] user
  | findOrder user _ _ => allows [.CUSTOMER, .ADMIN] user
  | paymentReceived user _ _ => allows [.CUSTOMER] user
  | completeOrder user _ _ _ => allows [.CUSTOMER] user
  | createProduct user _ _ => allows [.ADMIN] user
  | findProducts user _ _ _ =>
      allows [.ADMIN, .CUSTOMER] user
  | findProduct user _ _ => allows [.ADMIN, .CUSTOMER] user
  | updateProduct user _ _ _ => allows [.ADMIN] user
  | removeProduct user _ _ => allows [.ADMIN] user
  | handleOrderProcessing _ message =>
      message ∈ store.orderProcessing
  | handleOrderCompleted message =>
      message ∈ store.orderCompleted

/- The handler of a job, its result forgotten. -/
def handler (databaseName : String → String) :
    Job → Handler Unit
  | createOrder user tenantCode body =>
      (OrderController.create (databaseName tenantCode) user
        tenantCode body).ignore
  | findOrders user page perPage =>
      (OrderController.findAll databaseName user page
        perPage).ignore
  | findOrder user tenantCode id =>
      (OrderController.findOne (databaseName tenantCode) id
        user).ignore
  | paymentReceived user tenantCode id =>
      (OrderController.paymentReceived
        (databaseName tenantCode) id user tenantCode).ignore
  | completeOrder user tenantCode id transactionId =>
      OrderController.completeOrder (databaseName tenantCode)
        id user tenantCode transactionId
  | createProduct _ tenantCode body =>
      (ProductController.create (databaseName tenantCode)
        tenantCode body).ignore
  | findProducts _ tenantCode page perPage =>
      (ProductController.findAll (databaseName tenantCode)
        tenantCode page perPage).ignore
  | findProduct _ tenantCode id =>
      (ProductController.findOne (databaseName tenantCode) id
        tenantCode).ignore
  | updateProduct _ tenantCode id body =>
      (ProductController.update (databaseName tenantCode) id
        body tenantCode).ignore
  | removeProduct _ tenantCode id =>
      (ProductController.remove (databaseName tenantCode) id
        tenantCode).ignore
  | handleOrderProcessing paymentId message =>
      OrderProcessingConsumer.handleOrderProcessing
        databaseName paymentId message
  | handleOrderCompleted message =>
      OrderCompletedConsumer.handleOrderCompleted
        databaseName message

end Job

end OrderApi

------------------------------------------------------------
-- The System
------------------------------------------------------------

namespace OrderApi

/- The store with all jobs started so far. -/
abbrev World :=
  Pool Job StoreOp StoreOp.Res ApiError Backend

abbrev WorldLabel := PoolLabel Job Choice

abbrev WorldStep := Transition World WorldLabel

def orderSystem (databaseName : String → String) :
    PoolSystem Job StoreOp StoreOp.Res ApiError Choice
      Backend where
  exec := fun choice op store => op.exec choice store
  program := Job.handler databaseName
  ready := Job.ready

/- Runs of the system from a store where nothing runs. -/
abbrev OrderRun
    (databaseName : String → String)
    (store : Backend) :
    List WorldStep → World → Prop :=
  Run (orderSystem databaseName).step
    (PoolSystem.idle store)

/- No order was made yet, and nothing is queued. -/
structure Backend.Fresh (store : Backend) : Prop where
  no_orders : ∀ name id, store.order? name id = none
  no_items : ∀ name orderId, store.items name orderId = []
  no_processing : store.orderProcessing = []
  no_completed : store.orderCompleted = []

end OrderApi
