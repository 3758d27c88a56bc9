import OrderApi.Core.Delivery
import OrderApi.Rabbitmq.Messages
import OrderApi.Rabbitmq.RabbitMQService
import OrderApi.System.AdminRole
import OrderApi.System.OrderListIsolation

/-
  The application behind its broker.

  A publisher sends the JSON text of a message.  A consumer
  parses the text, runs the handler, and acknowledges the
  delivery; when either throws, the message is put back.

  What the application does with its stores is what it does
  where a published message may be handled at any time, and
  no message is lost on the way.

  Key definitions include:
    * `QueueName`, `Consumer`
    * `ApiJob.isRequest`
    * `apiWiring`
    * `apiLogs`
    * `BrokeredRun`

  Key theorems include:
    * `apiRun_of_brokered`
    * `messages_conserved`
    * `Listing.exists_redelivery`
-/

------------------------------------------------------------
-- Wiring
------------------------------------------------------------

namespace OrderApi

inductive QueueName where
  | databaseCreation
  | orderProcessing
  | orderCompleted
deriving DecidableEq, Repr

/- The name under which a queue is asserted. -/
def QueueName.text : QueueName → String
  | databaseCreation => RabbitMQService.queueName
  | orderProcessing => RabbitMQService.orderProcessingQueue
  | orderCompleted => RabbitMQService.orderCompletedQueue

/-
  The three `consume` calls.  The payment id is the one that
  the handler draws for its message.
-/
inductive Consumer where
  | databaseCreation
  | orderProcessing (paymentId : String)
  | orderCompleted
deriving DecidableEq, Repr

namespace Consumer

def queue : Consumer → QueueName
  | databaseCreation => .databaseCreation
  | orderProcessing _ => .orderProcessing
  | orderCompleted => .orderCompleted

/- `callback(JSON.parse(content))` -/
def job
    (format : NumberFormat) :
    Consumer → String → Except ApiError ApiJob
  | databaseCreation, content =>
      (DatabaseCreationMessage.ofContent format content).map
        .handleDatabaseCreation
  | orderProcessing paymentId, content =>
      (OrderProcessingMessage.ofContent format content).map
        (.handleOrderProcessing paymentId)
  | orderCompleted, content =>
      (OrderCompletedMessage.ofContent format content).map
        .handleOrderCompleted

end Consumer

/- What a client may start. -/
def ApiJob.isRequest : ApiJob → Bool
  | register _ _ => true
  | login _ => true
  | migrateTenants _ => true
  | request _ _ => true
  | _ => false

/- What a call publishes, if it succeeds. -/
def ApiOp.published : ApiOp → QueueName → List String
  | .inl (.publishDatabaseCreation message),
      .databaseCreation => [message.content]
  | .inr (.publishOrderProcessing message),
      .orderProcessing => [message.content]
  | .inr (.publishOrderCompleted message),
      .orderCompleted => [message.content]
  | _, _ => []

/- What a channel throws on a delivery that is not its own. -/
def channelClosed : ApiError :=
  ⟨.internal, "IllegalOperationError: Channel closed"⟩

/- The application, with its publishers and consumers. -/
def apiWiring
    (platform : Platform)
    (auth : AuthPlatform)
    (env : Environment)
    (files : MigrationFiles)
    (databaseName : String → String)
    (format : NumberFormat) :
    Wiring ApiJob ApiOp ApiRes ApiError Choice ApiStore
      QueueName Consumer String where
  system := apiSystem platform auth env files databaseName
  isRequest := ApiJob.isRequest
  queueOf := Consumer.queue
  decode := Consumer.job format
  sent := ApiOp.published
  unknownDelivery := channelClosed

end OrderApi

------------------------------------------------------------
-- What was Published
------------------------------------------------------------

namespace OrderApi

/- The texts that were published to each queue. -/
def ApiStore.published (store : ApiStore) :
    QueueName → List String
  | .databaseCreation =>
      store.registry.databaseCreation.map
        DatabaseCreationMessage.content
  | .orderProcessing =>
      store.tenants.orderProcessing.map
        OrderProcessingMessage.content
  | .orderCompleted =>
      store.tenants.orderCompleted.map
        OrderCompletedMessage.content

/- What a call on the registry publishes. -/
theorem TenancyOp.exec_queue
    {platform : Platform}
    {choice : Choice}
    {op : TenancyOp}
    {store store' : Registry}
    {result : op.Res}
    (hExec :
      op.exec platform choice store = (.ok result, store')) :
    store'.databaseCreation.map
        DatabaseCreationMessage.content =
      store.databaseCreation.map
          DatabaseCreationMessage.content ++
        ApiOp.published (.inl op) .databaseCreation := by
  rcases exec_ok hExec with ⟨tick, _, hAnswer⟩
  cases op with
  | publishDatabaseCreation message =>
      cases hAnswer
      exact List.map_append
  | userCreate data =>
      rcases exec_userCreate hExec with ⟨_, _, _, _, rfl⟩
      exact (List.append_nil _).symm
  | userUpdate id data =>
      simp only [answer] at hAnswer
      split at hAnswer
      · cases hAnswer
      · cases hAnswer
        exact (List.append_nil _).symm
  | userDelete id =>
      simp only [answer] at hAnswer
      split at hAnswer
      · cases hAnswer
      · cases hAnswer
        exact (List.append_nil _).symm
  | userSetDatabaseCreated id =>
      rw [exec_userSetDatabaseCreated hExec]
      exact (List.append_nil _).symm
  | createDatabase name =>
      rw [(exec_createDatabase hExec).2]
      exact (List.append_nil _).symm
  | tenantClient url op =>
      rcases exec_tenantClient hExec with
        ⟨_, _, _, _, _, _, _, rfl⟩
      exact (List.append_nil _).symm
  | _ =>
      cases hAnswer
      exact (List.append_nil _).symm

/- What a call on the tenant databases publishes. -/
theorem StoreOp.exec_queues
    {choice : Choice}
    {op : StoreOp}
    {store store' : Backend}
    {result : op.Res}
    (hExec : op.exec choice store = (.ok result, store')) :
    store'.orderProcessing.map
          OrderProcessingMessage.content =
        store.orderProcessing.map
            OrderProcessingMessage.content ++
          ApiOp.published (.inr op) .orderProcessing ∧
      store'.orderCompleted.map
          OrderCompletedMessage.content =
        store.orderCompleted.map
            OrderCompletedMessage.content ++
          ApiOp.published (.inr op) .orderCompleted := by
  cases op with
  | tenant name op =>
      rcases exec_tenant_ok hExec with
        ⟨tick, db, db', _, _, _, rfl⟩
      exact
        ⟨(List.append_nil _).symm, (List.append_nil _).symm⟩
  | findReadyTenants =>
      cases choice with
      | failure message => cases hExec
      | answer tick =>
          cases hExec
          exact
            ⟨(List.append_nil _).symm,
              (List.append_nil _).symm⟩
  | publishOrderProcessing message =>
      cases choice with
      | failure message => cases hExec
      | answer tick =>
          cases hExec
          exact
            ⟨List.map_append, (List.append_nil _).symm⟩
  | publishOrderCompleted message =>
      cases choice with
      | failure message => cases hExec
      | answer tick =>
          cases hExec
          exact
            ⟨(List.append_nil _).symm, List.map_append⟩

/- Calls on the registry publish to their queue alone. -/
theorem ApiOp.published_inl
    {queue : QueueName}
    (op : TenancyOp)
    (hQueue : queue ≠ .databaseCreation) :
    ApiOp.published (.inl op) queue = [] := by
  cases queue with
  | databaseCreation => exact (hQueue rfl).elim
  | _ => cases op <;> rfl

theorem ApiOp.published_inr (op : StoreOp) :
    ApiOp.published (.inr op) .databaseCreation = [] := by
  cases op with
  | _ => rfl

/- What a call on the tenant databases does to them. -/
theorem ApiOp.exec_tenants
    {platform : Platform}
    {choice : Choice}
    {store store' : ApiStore}
    {op : StoreOp}
    {answer : Except ApiError op.Res}
    (hExec :
      ApiOp.exec platform choice (.inr op) store =
        (answer, store')) :
    op.exec choice store.tenants =
      (answer, store'.tenants) := by
  cases hExec
  rfl

/- A call that succeeds publishes what it says. -/
theorem ApiOp.exec_published
    {platform : Platform}
    {choice : Choice}
    {op : ApiOp}
    {store store' : ApiStore}
    {result : ApiRes op}
    (queue : QueueName)
    (hExec :
      ApiOp.exec platform choice op store =
        (.ok result, store')) :
    store'.published queue =
      store.published queue ++ op.published queue := by
  cases op with
  | inl op =>
      have hRegistry := TenancyOp.exec_queue (exec_inl hExec)
      have hStore := (congrArg Prod.snd hExec).symm
      subst hStore
      cases queue with
      | databaseCreation => exact hRegistry
      | orderProcessing =>
          rw [published_inl op (by simp), List.append_nil]
          rfl
      | orderCompleted =>
          rw [published_inl op (by simp), List.append_nil]
          rfl
  | inr op =>
      have hTenants := exec_tenants hExec
      have hQueues := StoreOp.exec_queues hTenants
      cases queue with
      | databaseCreation =>
          rw [published_inr, List.append_nil]
          simp only [ApiStore.published, exec_inr hExec]
      | orderProcessing => exact hQueues.1
      | orderCompleted => exact hQueues.2

/- A call that fails publishes nothing. -/
theorem ApiOp.exec_error_published
    {platform : Platform}
    {choice : Choice}
    {op : ApiOp}
    {store store' : ApiStore}
    {error : ApiError}
    (queue : QueueName)
    (hExec :
      ApiOp.exec platform choice op store =
        (.error error, store')) :
    store'.published queue = store.published queue := by
  cases op with
  | inl op =>
      have hRegistry :=
        TenancyOp.exec_error (exec_inl hExec)
      have hStore := (congrArg Prod.snd hExec).symm
      subst hStore
      cases queue with
      | databaseCreation =>
          simp only [ApiStore.published, hRegistry]
      | orderProcessing => rfl
      | orderCompleted => rfl
  | inr op =>
      have hTenants := exec_tenants hExec
      have hSame := StoreOp.exec_error hTenants
      cases queue with
      | databaseCreation =>
          simp only [ApiStore.published, exec_inr hExec]
      | orderProcessing =>
          simp only [ApiStore.published, hSame]
      | orderCompleted =>
          simp only [ApiStore.published, hSame]

section Logs

variable {platform : Platform} {auth : AuthPlatform}
variable {env : Environment} {files : MigrationFiles}
variable {databaseName : String → String}
variable {format : NumberFormat}

/- A published message may be handled at any time. -/
theorem ready_of_published
    {store : ApiStore}
    {consumer : Consumer}
    {content : String}
    {job : ApiJob}
    (hPublished : content ∈ store.published consumer.queue)
    (hJob : consumer.job format content = .ok job) :
    job.ready store = true := by
  cases consumer with
  | databaseCreation =>
      rcases List.mem_map.mp hPublished with
        ⟨message, hMem, rfl⟩
      rw [Consumer.job,
        DatabaseCreationMessage.ofContent_content] at hJob
      cases hJob
      exact decide_eq_true hMem
  | orderProcessing paymentId =>
      rcases List.mem_map.mp hPublished with
        ⟨message, hMem, rfl⟩
      rw [Consumer.job,
        OrderProcessingMessage.ofContent_content] at hJob
      cases hJob
      exact decide_eq_true hMem
  | orderCompleted =>
      rcases List.mem_map.mp hPublished with
        ⟨message, hMem, rfl⟩
      rw [Consumer.job,
        OrderCompletedMessage.ofContent_content] at hJob
      cases hJob
      exact decide_eq_true hMem

/- The stores remember what was published. -/
def apiLogs :
    (apiWiring platform auth env files databaseName
      format).Logs where
  log := ApiStore.published
  log_ok := fun queue hExec =>
    ApiOp.exec_published queue hExec
  log_error := fun queue hExec =>
    ApiOp.exec_error_published queue hExec
  ready_of_mem := ready_of_published

end Logs

end OrderApi

------------------------------------------------------------
-- Runs Behind the Broker
------------------------------------------------------------

namespace OrderApi

section Runs

variable
  (platform : Platform)
  (auth : AuthPlatform)
  (env : Environment)
  (files : MigrationFiles)
  (databaseName : String → String)
  (format : NumberFormat)

/- The store of the application, and its three queues. -/
abbrev BrokeredStore := Brokered ApiStore QueueName String

abbrev BrokeredApiJob := BrokerJob ApiJob Consumer

abbrev BrokeredApiOp := ApiOp ⊕ BrokerOp QueueName String

abbrev BrokeredApiRes : BrokeredApiOp → Type :=
  Sum.elim ApiRes BrokerOp.Res

abbrev BrokeredWorld :=
  Pool BrokeredApiJob BrokeredApiOp BrokeredApiRes ApiError
    BrokeredStore

abbrev BrokeredLabel := PoolLabel BrokeredApiJob Choice

abbrev BrokeredStep := Transition BrokeredWorld BrokeredLabel

def brokeredApi :
    PoolSystem BrokeredApiJob BrokeredApiOp BrokeredApiRes
      ApiError Choice BrokeredStore :=
  (apiWiring platform auth env files databaseName
    format).brokered

/- Runs of the system from a store where nothing runs. -/
abbrev BrokeredRun
    (store : BrokeredStore) :
    List BrokeredStep → BrokeredWorld → Prop :=
  Run
    (brokeredApi platform auth env files databaseName
      format).step
    (PoolSystem.idle store)

end Runs

/- A store with a broker that has handed out nothing. -/
def ApiStore.withBroker (store : ApiStore) : BrokeredStore where
  store := store
  queues := fun queue =>
    Queue.ofWaiting (store.published queue)

/- A call on the stores, with its answer. -/
abbrev ApiCall := (op : ApiOp) × Except ApiError (ApiRes op)

/- The calls on the stores that a history makes. -/
def brokeredCalls
    (platform : Platform)
    (auth : AuthPlatform)
    (env : Environment)
    (files : MigrationFiles)
    (databaseName : String → String)
    (format : NumberFormat)
    (history : List BrokeredStep) : List ApiCall :=
  seen
    (brokeredApi platform auth env files databaseName format)
    Wiring.poolCall history

def apiCalls
    (platform : Platform)
    (auth : AuthPlatform)
    (env : Environment)
    (files : MigrationFiles)
    (databaseName : String → String)
    (history : List ApiStep) : List ApiCall :=
  seen (apiSystem platform auth env files databaseName)
    CallEvent.call history

end OrderApi

------------------------------------------------------------
-- A Redelivery
------------------------------------------------------------

namespace OrderApi

namespace Listing

/- The shop of alice's order, which is to be processed. -/
def queued : ApiStore where
  registry :=
    { users := store.users
      databases := fun name =>
        if name = "tenant_t1" then some TenantSchema.empty
        else none
      databaseCreation := [] }
  tenants :=
    { store with
      orderProcessing := [⟨aliceOrder.id, alice.id, "t1"⟩] }
  users_eq := rfl
  exists_eq := by
    intro name
    unfold store
    dsimp only
    split
    · rfl
    · rfl

/- A format that reads no number. -/
def format : NumberFormat := ⟨fun _ => .infinite⟩

/- A call that the environment lets through. -/
def goOn (index : Nat) : BrokeredLabel :=
  .resume index (.answer ⟨"", 0⟩)

/-
  The channel is lost while a message is handled; it is
  delivered again, and acknowledged the second time.
-/
def redelivery : List BrokeredLabel :=
  [.start (.consume (.orderProcessing "p1")), goOn 0,
    .start .loseChannel, goOn 1, goOn 0, goOn 0, goOn 0,
    .start (.consume (.orderProcessing "p2")), goOn 2,
    goOn 2, goOn 2]

/- Each consumer has ended, and one has acknowledged. -/
def acknowledgedOnce (world : BrokeredWorld) : Bool :=
  let queue := world.store.queues .orderProcessing
  queue.settled.length = 1 && queue.waiting.isEmpty &&
    world.threads.all fun thread =>
      !thread.program.inProgress

theorem exists_redelivery :
    ∃ history world,
      BrokeredRun Onboarding.platform Onboarding.auth
          Onboarding.env Onboarding.files databaseName format
          queued.withBroker history world ∧
        acknowledgedOnce world = true :=
  Run.exists_of_replay redelivery
    (fun _ world => acknowledgedOnce world)
    (by decide +kernel)

end Listing

end OrderApi

------------------------------------------------------------
-- Refinement
------------------------------------------------------------

namespace OrderApi

section Refinement

variable {platform : Platform} {auth : AuthPlatform}
variable {env : Environment} {files : MigrationFiles}
variable {databaseName : String → String}
variable {format : NumberFormat}
variable {start : ApiStore}
variable {history : List BrokeredStep}
variable {world : BrokeredWorld}

/-
  Every run behind the broker is a run of the application:
  the same calls are answered alike, the stores are the
  same, and for each acknowledged text there is a handler of
  its message that has returned.
-/
theorem apiRun_of_brokered
    (hRun :
      BrokeredRun platform auth env files databaseName format
        start.withBroker history world) :
    ∃ history' pool,
      ApiRun platform auth env files databaseName start
          history' pool ∧
        pool.store = world.store.store ∧
        brokeredCalls platform auth env files databaseName
            format history =
          apiCalls platform auth env files databaseName
            history' ∧
        ∀ queue,
          ∀ content ∈ (world.store.queues queue).settled,
            ∃ consumer job,
              Consumer.queue consumer = queue ∧
                consumer.job format content = .ok job ∧
                ⟨job, .done ()⟩ ∈ pool.threads := by
  let logs :=
    @apiLogs platform auth env files databaseName format
  rcases logs.exists_run (fun queue => rfl) hRun with
    ⟨history', pool, hRun', hSeen, hStores⟩
  exact
    ⟨history', pool, hRun', hStores.store_eq.symm, hSeen,
      hStores.handled⟩

/- The message that was acknowledged has been handled. -/
theorem apiRun_of_redelivery :
    ∃ history world history' pool,
      Listing.acknowledgedOnce world = true ∧
        ApiRun Onboarding.platform Onboarding.auth
          Onboarding.env Onboarding.files
          Listing.databaseName Listing.queued history'
          pool ∧
        pool.store = world.store.store ∧
        brokeredCalls Onboarding.platform Onboarding.auth
            Onboarding.env Onboarding.files
            Listing.databaseName Listing.format history =
          apiCalls Onboarding.platform Onboarding.auth
            Onboarding.env Onboarding.files
            Listing.databaseName history' ∧
        ∀ queue,
          ∀ content ∈ (world.store.queues queue).settled,
            ∃ consumer job,
              Consumer.queue consumer = queue ∧
                consumer.job Listing.format content =
                  .ok job ∧
                ⟨job, .done ()⟩ ∈ pool.threads := by
  rcases Listing.exists_redelivery with
    ⟨history, world, hRun, hOnce⟩
  rcases apiRun_of_brokered hRun with
    ⟨history', pool, hApi⟩
  exact ⟨history, world, history', pool, hOnce, hApi⟩

end Refinement

end OrderApi
