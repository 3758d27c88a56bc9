import OrderApi.Order.OrderService

/-
  `src/rabbitmq/order-processing.consumer.ts` and
  `src/rabbitmq/order-completed.consumer.ts`.

  The stubs that only log are left out.

  Key definitions include:
    * `OrderProcessingConsumer.handleOrderProcessing`
    * `OrderCompletedConsumer.handleOrderCompleted`
-/

------------------------------------------------------------
-- Order Processing
------------------------------------------------------------

namespace OrderApi

namespace OrderProcessingConsumer

/- `paymentId` is what `generatePaymentId` returned. -/
def waitForPayment (paymentId : String) : OrderUpdate :=
  { status := some .WAITING_FOR_PAYMENT
    total := none
    paymentId := some paymentId
    transactionId := none }

/- The update is made whatever the present status is. -/
def handleOrderProcessing
    (databaseName : String → String)
    (paymentId : String)
    (data : OrderProcessingMessage) : Handler Unit :=
  (prisma (databaseName data.tenantCode)
    (.orderUpdate data.orderId
      (waitForPayment paymentId))).ignore

end OrderProcessingConsumer

end OrderApi

------------------------------------------------------------
-- Order Completion
------------------------------------------------------------

namespace OrderApi

namespace OrderCompletedConsumer

def complete (transactionId : String) : OrderUpdate :=
  { status := some .COMPLETE
    total := none
    paymentId := none
    transactionId := some transactionId }

/- The update is made whatever the present status is. -/
def handleOrderCompleted
    (databaseName : String → String)
    (data : OrderCompletedMessage) : Handler Unit :=
  (prisma (databaseName data.tenantCode)
    (.orderUpdate data.orderId
      (complete data.transactionId))).ignore

end OrderCompletedConsumer

end OrderApi
