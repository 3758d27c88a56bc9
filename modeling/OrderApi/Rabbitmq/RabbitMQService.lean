import Mathlib.Data.List.Basic

/-
  The connection of `src/rabbitmq/rabbitmq.service.ts`: how
  it is opened at start-up, and how callers wait for it.

  Of the connection and of the channel only this is kept:
  whether the field is set.  The steps of an attempt succeed
  or fail as the broker decides.

  Key definitions include:
    * `Attempt`
    * `RabbitMQService.onModuleInit`
    * `RabbitMQService.attemptConnection`
    * `RabbitMQService.waitForConnection`
-/

------------------------------------------------------------
-- The Service
------------------------------------------------------------

namespace OrderApi

/- The fields `connection` and `channel`, if they are set. -/
structure RabbitMQService where
  connection : Bool
  channel : Bool
deriving DecidableEq, Repr

/- How the broker answers the steps of an attempt. -/
structure Attempt where
  connect : Except String Unit
  createChannel : Except String Unit
  assertQueue : String → Except String Unit

namespace RabbitMQService

/- Before `onModuleInit`. -/
def unset : RabbitMQService := ⟨false, false⟩

def queueName : String := "database-creation"

def orderProcessingQueue : String := "order-processing"

def orderCompletedQueue : String := "order-completed"

/- The queues that have to exist, in the order of the calls. -/
def queues : List String :=
  [queueName, orderProcessingQueue, orderCompletedQueue]

/- Ensure that the queues exist; the first failure throws. -/
def assertQueues (attempt : Attempt) :
    List String → Except String Unit
  | [] => .ok ()
  | queue :: queues =>
      match attempt.assertQueue queue with
      | .error error => .error error
      | .ok () => assertQueues attempt queues

/-
  Connect, create a channel, ensure the queues.  A field is
  set once its step has succeeded, and stays set.
-/
def attemptConnection
    (attempt : Attempt)
    (service : RabbitMQService) :
    Except String Unit × RabbitMQService :=
  match attempt.connect with
  | .error error => (.error error, service)
  | .ok () =>
      let service := { service with connection := true }
      match attempt.createChannel with
      | .error error => (.error error, service)
      | .ok () =>
          let service := { service with channel := true }
          (assertQueues attempt queues, service)

/- The same steps at start-up; an error is only logged. -/
def onModuleInit
    (attempt : Attempt)
    (service : RabbitMQService) : RabbitMQService :=
  (attemptConnection attempt service).2

def maxRetries : Nat := 10

def retriesExceeded : String :=
  "Failed to establish RabbitMQ connection after maximum " ++
    "retries"

/- One turn of the loop, behind the test for a channel. -/
def retry
    (attempt : Attempt)
    (service : RabbitMQService) : RabbitMQService :=
  if service.connection then service
  else (attemptConnection attempt service).2

/- The turns that are left, with their attempts. -/
def waitTurns
    (attempts : Nat → Attempt)
    (service : RabbitMQService) :
    Nat → Except String Unit × RabbitMQService
  | 0 => (.error retriesExceeded, service)
  | turns + 1 =>
      if service.channel then
        (.ok (), service)
      else
        waitTurns (fun n => attempts (n + 1))
          (retry (attempts 0) service) turns

/- Wait for a channel, with an attempt in each turn. -/
def waitForConnection
    (attempts : Nat → Attempt)
    (service : RabbitMQService) :
    Except String Unit × RabbitMQService :=
  waitTurns attempts service maxRetries

end RabbitMQService

end OrderApi
