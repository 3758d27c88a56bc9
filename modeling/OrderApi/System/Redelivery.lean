import OrderApi.System.ApiSystem
import OrderApi.System.OrderListIsolation
import OrderApi.System.TenancyPhases

/-
  What handling a message a second time changes, right after
  it was handled with success.

  Delivery is at least once.  The order consumers write what
  the message says, but for a payment id, which is drawn
  anew.  The creation of a database that exists counts as
  done.

  Key definitions include:
    * `QueueMessage`
    * `QueueMessage.handle`
    * `QueueMessage.Idempotent`
    * `QueueMessage.Settled`

  Key theorems include:
    * `QueueMessage.idempotent_iff`
    * `QueueMessage.not_idempotent`
-/

------------------------------------------------------------
-- Messages and their Handlers
------------------------------------------------------------

namespace OrderApi

/- A message of one of the three queues. -/
inductive QueueMessage where
  | databaseCreation (message : DatabaseCreationMessage)
  | orderProcessing (message : OrderProcessingMessage)
  | orderCompleted (message : OrderCompletedMessage)

namespace QueueMessage

variable (platform : Platform) (env : Environment)
variable (files : MigrationFiles)
variable (databaseName : String → String)

/- The handler of the consumer of a message. -/
def handler (paymentId : String) :
    QueueMessage → ApiHandler Unit
  | databaseCreation message =>
      (DatabaseCreationConsumer.handleDatabaseCreation
        platform env files message).onLeft
  | orderProcessing message =>
      (OrderProcessingConsumer.handleOrderProcessing
        databaseName paymentId message).onRight
  | orderCompleted message =>
      (OrderCompletedConsumer.handleOrderCompleted
        databaseName message).onRight

/-
  Run the handler alone, with what `generatePaymentId` draws
  and with the choices of the environment.
-/
def handle (message : QueueMessage)
    (paymentId : String)
    (choices : Nat → Choice)
    (store : ApiStore) : Except ApiError Unit × ApiStore :=
  (message.handler platform env files databaseName
    paymentId).complete (ApiOp.exec platform) choices store

/-
  However its calls are met, a second handling leaves all
  databases as the first one left them.
-/
def Idempotent (message : QueueMessage)
    (paymentId paymentId' : String)
    (choices : Nat → Choice)
    (store : ApiStore) : Prop :=
  let after :=
    (message.handle platform env files databaseName
      paymentId choices store).2
  ∀ choices',
    (message.handle platform env files databaseName
      paymentId' choices' after).2 = after

/-
  The second payment id is the first one, or the database
  of the message is there.
-/
def Settled
    (paymentId paymentId' : String)
    (after : ApiStore) : QueueMessage → Prop
  | databaseCreation message =>
      (after.registry.databases
        (message.databaseName platform env)).isSome
  | orderProcessing _ => paymentId' = paymentId
  | orderCompleted _ => True

end QueueMessage

end OrderApi

------------------------------------------------------------
-- Updating an Order Twice
------------------------------------------------------------

namespace OrderApi

/- A program that makes one call and forgets the answer. -/
theorem Program.complete_perform_ignore
    {Op : Type}
    {Res : Op → Type}
    {ε χ σ : Type}
    (exec : χ → (op : Op) → σ → Except ε (Res op) × σ)
    (op : Op)
    (choices : Nat → χ)
    (store : σ) :
    (Program.perform op).ignore.complete exec choices
        store =
      ((exec (choices 0) op store).1.map fun _ => (),
        (exec (choices 0) op store).2) := by
  simp only [ignore, perform, bind, complete]
  cases (exec (choices 0) op store).1 with
  | ok answer => rfl
  | error error => rfl

/- An update that leaves the total changes one order. -/
theorem TenantOp.exec_orderUpdate_eq
    {id : String}
    {data : OrderUpdate}
    (hTotal : data.total = none)
    {db : TenantDb}
    {order : Order}
    (hOrder : db.orders.find? id = some order)
    (tick : Tick) :
    ∃ view,
      (orderUpdate id data).exec tick db =
        .ok
          (view,
            { db with
              orders :=
                db.orders.update id
                  (fun row => row.apply data order.total)
                  (fun row =>
                    row.key_apply data order.total) }) := by
  simp only [exec, hOrder, columnValue, hTotal]
  exact ⟨_, rfl⟩

/- What remains of a database if an update is in vain. -/
theorem Backend.put_eq_self_iff
    {store : Backend}
    {name : String}
    {db db' : TenantDb}
    (hDb : store.dbs name = some db) :
    store.put name db' = store ↔ db' = db := by
  constructor
  · intro hSame
    have hDbs : (store.put name db').dbs name = some db := by
      rw [hSame, hDb]
    rw [put_dbs_same] at hDbs
    exact Option.some.inj hDbs
  · rintro rfl
    exact put_self hDb

/-
  An update changes nothing, however it is met, if it leaves
  the row as it is.
-/
theorem StoreOp.exec_orderUpdate_self_iff
    {name id : String}
    {data : OrderUpdate}
    (hTotal : data.total = none)
    {store : Backend}
    {order : Order}
    (hOrder : store.order? name id = some order) :
    (∀ choice,
      ((tenant name (.orderUpdate id data)).exec choice
        store).2 = store) ↔
      order.apply data order.total = order := by
  rcases Option.bind_eq_some_iff.mp hOrder with
    ⟨db, hDb, hFind⟩
  have hAnswered :
      ∀ tick,
        ((tenant name (.orderUpdate id data)).exec
            (.answer tick) store).2 = store ↔
          order.apply data order.total = order := by
    intro tick
    rcases TenantOp.exec_orderUpdate_eq hTotal hFind tick
      with ⟨view, hUpdate⟩
    rw [← Table.update_eq_self_iff hFind
      (fun row => row.key_apply data order.total)]
    simp only [exec, hDb, hUpdate]
    change store.put name _ = store ↔ _
    rw [Backend.put_eq_self_iff hDb]
    cases db
    simp only [TenantDb.mk.injEq, true_and, and_true]
  constructor
  · intro hAlways
    exact (hAnswered ⟨"", 0⟩).mp (hAlways _)
  · intro hRow choice
    cases choice with
    | failure message => rfl
    | answer tick => exact (hAnswered tick).mpr hRow

/- The row that an update leaves behind. -/
theorem StoreOp.exec_orderUpdate_order?
    {name id : String}
    {data : OrderUpdate}
    (hTotal : data.total = none)
    {choice : Choice}
    {view : OrderView}
    {store store' : Backend}
    (hExec :
      (tenant name (.orderUpdate id data)).exec choice
          store =
        (.ok view, store')) :
    ∃ order,
      store.order? name id = some order ∧
        store'.order? name id =
          some (order.apply data order.total) := by
  rcases exec_tenant_ok hExec with
    ⟨tick, db, db', _, hDb, hRun, rfl⟩
  rcases TenantOp.exec_orderUpdate hRun with
    ⟨order, total, hOrder, hColumn, hAfter⟩
  rw [hTotal, Option.getD_none] at hColumn
  have hSame : total = order.total := 
    Bounded.eq_of_val_eq hColumn
  refine ⟨order, ?_, ?_⟩
  · rw [Backend.order?_of_dbs hDb, hOrder]
  · rw [Backend.order?_put_same, hAfter, if_pos rfl, hSame]

/- Both views of the server make a store. -/
theorem ApiStore.eq_of_views
    {store store' : ApiStore}
    (hRegistry : store.registry = store'.registry)
    (hTenants : store.tenants = store'.tenants) :
    store = store' := by
  cases store
  cases store'
  simp only [mk.injEq]
  exact ⟨hRegistry, hTenants⟩

/- One update of an order, its answer forgotten. -/
def updateOrder
    (name id : String)
    (data : OrderUpdate) : ApiHandler Unit :=
  Program.onRight (prisma name (.orderUpdate id data)).ignore

theorem complete_updateOrder
    (platform : Platform)
    (name id : String)
    (data : OrderUpdate)
    (choices : Nat → Choice)
    (store : ApiStore) :
    (updateOrder name id data).complete
        (ApiOp.exec platform) choices store =
      (((StoreOp.tenant name (.orderUpdate id data)).exec
          (choices 0) store.tenants).1.map fun _ => (),
        (ApiOp.exec platform (choices 0)
          (.inr (.tenant name (.orderUpdate id data)))
          store).2) := by
  rw [updateOrder, Program.complete_onRight, prisma,
    Program.complete_perform_ignore]
  rfl

/- It changes nothing if it leaves the row as it is. -/
theorem updateOrder_self_iff
    (platform : Platform)
    {name id : String}
    {data : OrderUpdate}
    (hTotal : data.total = none)
    {store : ApiStore}
    {order : Order}
    (hOrder : store.tenants.order? name id = some order) :
    (∀ choices,
      ((updateOrder name id data).complete
        (ApiOp.exec platform) choices store).2 = store) ↔
      order.apply data order.total = order := by
  rw [← StoreOp.exec_orderUpdate_self_iff hTotal hOrder]
  constructor
  · intro hAlways choice
    have hStore := hAlways fun _ => choice
    rw [complete_updateOrder] at hStore
    exact congrArg ApiStore.tenants hStore
  · intro hTenants choices
    rw [complete_updateOrder]
    exact ApiStore.eq_of_views rfl (hTenants (choices 0))

/- The row that it leaves behind when it returns. -/
theorem order?_of_updateOrder
    {platform : Platform}
    {name id : String}
    {data : OrderUpdate}
    (hTotal : data.total = none)
    {choices : Nat → Choice}
    {store : ApiStore}
    (hReturns :
      ((updateOrder name id data).complete
        (ApiOp.exec platform) choices store).1 =
          .ok ()) :
    ∃ order : Order,
      ((updateOrder name id data).complete
          (ApiOp.exec platform) choices
            store).2.tenants.order? name id =
        some (order.apply data order.total) := by
  rw [complete_updateOrder] at hReturns ⊢
  cases hExec :
      (StoreOp.tenant name (.orderUpdate id data)).exec
        (choices 0) store.tenants with
  | mk answer tenants =>
      rw [hExec] at hReturns
      cases answer with
      | error error => cases hReturns
      | ok view =>
          rcases
              StoreOp.exec_orderUpdate_order? hTotal hExec
            with ⟨order, _, hOrder⟩
          refine ⟨order, ?_⟩
          have hTenants :
              (ApiOp.exec platform (choices 0)
                (.inr (.tenant name (.orderUpdate id data)))
                store).2.tenants = tenants :=
            congrArg Prod.snd hExec
          rw [hTenants, hOrder]

end OrderApi

------------------------------------------------------------
-- The Order Consumers
------------------------------------------------------------

namespace OrderApi

/- Two updates that wait for a payment. -/
theorem waitForPayment_again_iff
    (order : Order)
    (paymentId paymentId' : String) :
    (order.apply
        (OrderProcessingConsumer.waitForPayment paymentId)
        order.total).apply
      (OrderProcessingConsumer.waitForPayment paymentId')
      order.total =
        order.apply
          (OrderProcessingConsumer.waitForPayment paymentId)
          order.total ↔
      paymentId' = paymentId := by
  simp [OrderProcessingConsumer.waitForPayment, Order.apply]

/- Two updates that complete an order. -/
theorem complete_again
    (order : Order)
    (transactionId : String) :
    (order.apply
        (OrderCompletedConsumer.complete transactionId)
        order.total).apply
      (OrderCompletedConsumer.complete transactionId)
      order.total =
        order.apply
          (OrderCompletedConsumer.complete transactionId)
          order.total := by
  simp [OrderCompletedConsumer.complete, Order.apply]

namespace QueueMessage

variable {platform : Platform} {env : Environment}
variable {files : MigrationFiles}
variable {databaseName : String → String}
variable {paymentId paymentId' : String}
variable {choices : Nat → Choice} {store : ApiStore}

theorem idempotent_orderProcessing
    (message : OrderProcessingMessage)
    (hReturns :
      ((orderProcessing message).handle platform env files
        databaseName paymentId choices store).1 = .ok ()) :
    (orderProcessing message).Idempotent platform env files
        databaseName paymentId paymentId' choices store ↔
      paymentId' = paymentId := by
  rcases order?_of_updateOrder rfl hReturns with
    ⟨order, hOrder⟩
  rw [← waitForPayment_again_iff order]
  exact updateOrder_self_iff platform rfl hOrder

theorem idempotent_orderCompleted
    (message : OrderCompletedMessage)
    (hReturns :
      ((orderCompleted message).handle platform env files
        databaseName paymentId choices store).1 = .ok ()) :
    (orderCompleted message).Idempotent platform env files
      databaseName paymentId paymentId' choices store := by
  rcases order?_of_updateOrder rfl hReturns with
    ⟨order, hOrder⟩
  exact
    (updateOrder_self_iff platform rfl hOrder).mpr
      (complete_again order message.transactionId)

end QueueMessage

end OrderApi

------------------------------------------------------------
-- Creating a Database that Exists
------------------------------------------------------------

namespace OrderApi

/- The tenant databases stay if the registry does. -/
theorem ApiStore.follow_self (store : ApiStore) :
    store.tenants.follow store.registry = store.tenants := by
  have hDbs :
      (fun name =>
        (store.registry.databases name).map fun _ =>
          (store.tenants.dbs name).getD TenantDb.empty) =
        store.tenants.dbs := by
    funext name
    have hExists := store.exists_eq name
    cases hDb : store.tenants.dbs name with
    | none =>
        rw [hDb] at hExists
        cases hSchema : store.registry.databases name with
        | none => rfl
        | some schema => simp [hSchema] at hExists
    | some db =>
        rw [hDb] at hExists
        cases hSchema : store.registry.databases name with
        | none => simp [hSchema] at hExists
        | some schema => rfl
  rw [Backend.follow, hDbs, ← store.users_eq]

/- How the calls of tenancy handlers meet the server. -/
def execTenancy (platform : Platform) :
    Choice → (op : TenancyOp) → ApiStore →
      Except ApiError op.Res × ApiStore :=
  Program.execLeft (ApiOp.exec platform)

/- A call that leaves the registry leaves the server. -/
theorem execTenancy_of_same
    {platform : Platform}
    {choice : Choice}
    {op : TenancyOp}
    {store : ApiStore}
    (hSame :
      (op.exec platform choice store.registry).2 =
        store.registry) :
    (execTenancy platform choice op store).2 = store := by
  apply ApiStore.eq_of_views
  · exact hSame
  · change
      store.tenants.follow
        (op.exec platform choice store.registry).2 = _
    rw [hSame, store.follow_self]

open DatabaseCreationConsumer

variable {platform : Platform} {store : ApiStore}

/- A handler that leaves the server as it is. -/
def LeavesServer
    {α : Type}
    (platform : Platform)
    (program : TenancyHandler α)
    (store : ApiStore) : Prop :=
  Program.Ensures (execTenancy platform)
    (fun _ after => after = store) program store

/- Connecting changes nothing, whether or not it works. -/
theorem leavesServer_connectOwnClient (url : String) :
    LeavesServer platform (connectOwnClient url) store := by
  apply Program.ensures_attempt
  apply Program.ensures_bind
  apply Program.ensures_perform
    (TenancyOp.connectPostgres url)
  intro choice
  have hSame :
      (execTenancy platform choice
        (TenancyOp.connectPostgres url) store).2 = store := by
    apply execTenancy_of_same
    cases choice <;> rfl
  rw [hSame]
  cases (execTenancy platform choice
      (TenancyOp.connectPostgres url) store).1 with
  | ok answer => rfl
  | error error => rfl

/- Creating a database that exists fails. -/
theorem TenancyOp.exec_createDatabase_of_exists
    (platform : Platform)
    {name : String}
    {registry : Registry}
    (hExists : (registry.databases name).isSome)
    (choice : Choice) :
    ∃ error,
      (createDatabase name).exec platform choice registry =
        (.error error, registry) := by
  cases choice with
  | failure message => exact ⟨_, rfl⟩
  | answer tick =>
      rcases Option.isSome_iff_exists.mp hExists with
        ⟨schema, hSchema⟩
      refine ⟨storeError (databaseExists name), ?_⟩
      simp only [exec, answer, hSchema]

theorem ensures_createDatabase_of_exists
    {name : String}
    (hExists : (store.registry.databases name).isSome)
    (own : Bool) :
    Program.Ensures (execTenancy platform)
      (fun outcome after =>
        (∃ error, outcome = .error error) ∧ after = store)
      (createDatabase name own) store := by
  apply Program.ensures_andFinally
  apply Program.ensures_perform
    (TenancyOp.createDatabase name)
  intro choice
  rcases
      TenancyOp.exec_createDatabase_of_exists platform
        hExists choice with
    ⟨error, hExec⟩
  have hSame :
      (execTenancy platform choice
        (TenancyOp.createDatabase name) store).2 = store :=
    execTenancy_of_same (congrArg Prod.snd hExec)
  have hError :
      (execTenancy platform choice
          (TenancyOp.createDatabase name) store).1 =
        .error error :=
    congrArg Prod.fst hExec
  rw [hSame, hError]
  apply Program.ensures_bind
  cases own with
  | false => exact ⟨⟨error, rfl⟩, rfl⟩
  | true =>
      apply Program.ensures_perform
        TenancyOp.disconnectPostgres
      intro choice'
      have hStays :
          (execTenancy platform choice'
            TenancyOp.disconnectPostgres store).2 =
              store := by
        apply execTenancy_of_same
        cases choice' <;> rfl
      rw [hStays]
      cases (execTenancy platform choice'
          TenancyOp.disconnectPostgres store).1 with
      | ok answer => exact ⟨⟨error, rfl⟩, rfl⟩
      | error error' => exact ⟨⟨error', rfl⟩, rfl⟩

/- So it is neither created nor migrated again. -/
theorem leavesServer_createAndMigrate
    {env : Environment}
    {files : MigrationFiles}
    {tenantCode : String}
    (hExists :
      (store.registry.databases
        (DatabaseCreationConsumer.databaseName platform env
          tenantCode)).isSome) :
    LeavesServer platform
      (createAndMigrateTenantDatabase platform env files
        tenantCode) store := by
  apply Program.ensures_attempt
  apply Program.ensures_bind
  apply
    (leavesServer_connectOwnClient
      (postgresDatabaseUrl platform env)).mono
  rintro outcome after rfl
  have hHandler :
      ∀ error,
        LeavesServer platform
          (if saysExists error then pure ()
            else .fail (migrationFailed error)) after := by
    intro error
    split
    · rfl
    · rfl
  cases outcome with
  | error error => exact hHandler error
  | ok own =>
      apply Program.ensures_bind
      apply
        (ensures_createDatabase_of_exists hExists own).mono
      rintro created after' ⟨⟨error, rfl⟩, rfl⟩
      exact hHandler error

/- A user that is marked stays as it is. -/
theorem Registry.setDatabaseCreated_again
    {registry : Registry}
    {user : User}
    {id : String}
    (hUser : registry.users.find? id = some user) :
    (registry.setDatabaseCreated id).setDatabaseCreated id =
      registry.setDatabaseCreated id := by
  have hMarked :=
    registry.users.find?_update id id
      (fun row => { row with isDatabaseCreated := true })
      (fun _ => rfl)
  rw [if_pos rfl, hUser, Option.map_some] at hMarked
  have hUsers :
      (registry.setDatabaseCreated id).users.update id
          (fun row => { row with isDatabaseCreated := true })
          (fun _ => rfl) =
        (registry.setDatabaseCreated id).users :=
    (Table.update_eq_self_iff hMarked _).mpr rfl
  rw [setDatabaseCreated, hUsers]

/- Only a stored user is marked. -/
theorem TenancyOp.exec_mark
    {choice : Choice}
    {id : String}
    {registry registry' : Registry}
    (hExec :
      (userSetDatabaseCreated id).exec platform choice
          registry =
        (.ok (), registry')) :
    (∃ user, registry.users.find? id = some user) ∧
      registry' = registry.setDatabaseCreated id := by
  refine ⟨?_, exec_userSetDatabaseCreated hExec⟩
  rcases exec_ok hExec with ⟨tick, _, hAnswer⟩
  simp only [answer] at hAnswer
  split at hAnswer
  · cases hAnswer
  · rename_i user hUser
    exact ⟨user, hUser⟩

/- The user has the mark that its database is created. -/
def MarkedIn (store : ApiStore) (userId : String) : Prop :=
  store.registry.setDatabaseCreated userId = store.registry

theorem leavesServer_mark
    {userId : String}
    (hMarked : MarkedIn store userId) :
    LeavesServer platform
      (Program.perform
        (TenancyOp.userSetDatabaseCreated userId)) store := by
  apply Program.ensures_perform
    (TenancyOp.userSetDatabaseCreated userId)
  intro choice
  apply execTenancy_of_same
  cases hExec :
      (TenancyOp.userSetDatabaseCreated userId).exec platform
        choice store.registry with
  | mk answer registry =>
      cases answer with
      | error error => exact TenancyOp.exec_error hExec
      | ok result =>
          rw [TenancyOp.exec_userSetDatabaseCreated hExec]
          exact hMarked

/- A handling that returns has marked its user. -/
theorem ensures_marked
    (platform : Platform)
    (env : Environment)
    (files : MigrationFiles)
    (message : DatabaseCreationMessage)
    (store : ApiStore) :
    Program.Ensures (execTenancy platform)
      (fun outcome after =>
        outcome = .ok () → MarkedIn after message.userId)
      (handleDatabaseCreation platform env files message)
      store := by
  apply Program.ensures_bind
  apply
    (Program.ensures_any
      (createAndMigrateTenantDatabase platform env files
        message.tenantCode) store).mono
  intro outcome after _
  cases outcome with
  | error error =>
      intro hReturns
      cases hReturns
  | ok value =>
      apply Program.ensures_perform
        (TenancyOp.userSetDatabaseCreated message.userId)
      intro choice hReturns
      have hExec :
          (TenancyOp.userSetDatabaseCreated
              message.userId).exec platform choice
              after.registry =
            (.ok (),
              ((TenancyOp.userSetDatabaseCreated
                message.userId).exec platform choice
                after.registry).2) :=
        Prod.ext hReturns rfl
      rcases TenancyOp.exec_mark hExec with
        ⟨⟨user, hUser⟩, hAfter⟩
      change
        ((TenancyOp.userSetDatabaseCreated
          message.userId).exec platform choice
          after.registry).2.setDatabaseCreated _ =
          ((TenancyOp.userSetDatabaseCreated
            message.userId).exec platform choice
            after.registry).2
      rw [hAfter]
      exact Registry.setDatabaseCreated_again hUser

namespace QueueMessage

variable {env : Environment} {files : MigrationFiles}
variable {databaseName : String → String}
variable {paymentId paymentId' : String}
variable {choices : Nat → Choice}

theorem handle_databaseCreation
    (message : DatabaseCreationMessage) :
    (databaseCreation message).handle platform env files
        databaseName paymentId choices store =
      (handleDatabaseCreation platform env files
        message).complete (execTenancy platform) choices
          store :=
  Program.complete_onLeft _ _ _ _

/- A second handling finds the database, and stops. -/
theorem idempotent_of_exists
    (message : DatabaseCreationMessage)
    {store : ApiStore}
    (hMarked : MarkedIn store message.userId)
    (hExists :
      (store.registry.databases
        (message.databaseName platform env)).isSome)
    (choices : Nat → Choice) :
    ((databaseCreation message).handle platform env files
      databaseName paymentId choices store).2 = store := by
  rw [handle_databaseCreation]
  have hLeaves :
      LeavesServer platform
        (handleDatabaseCreation platform env files message)
        store := by
    apply Program.ensures_bind
    apply (leavesServer_createAndMigrate hExists).mono
    rintro outcome after rfl
    cases outcome with
    | error error => rfl
    | ok value => exact leavesServer_mark hMarked
  exact hLeaves.complete choices

/- The server is cut off behind `CREATE DATABASE`. -/
def cutOff (n : Nat) : Choice :=
  if n = 1 then .answer ⟨"", 0⟩ else .failure ""

/- Nothing changes while every call fails. -/
theorem complete_failing
    {α : Type}
    (program : TenancyHandler α)
    (message : String)
    (store : ApiStore) :
    (program.complete (execTenancy platform)
      (fun _ => .failure message) store).2 = store := by
  induction program with
  | done value => rfl
  | fail error => rfl
  | call op resume ih =>
      have hSame :
          (execTenancy platform (.failure message) op
            store).2 = store :=
        execTenancy_of_same rfl
      rw [Program.complete, hSame]
      exact ih _

/- The first two calls of a handling. -/
theorem handler_eq_call
    (message : DatabaseCreationMessage) :
    ∃ url resume,
      handleDatabaseCreation platform env files message =
          .call (.connectPostgres url) resume ∧
        ∀ error, ∃ resume',
          resume (.error error) =
            .call
              (.createDatabase
                (message.databaseName platform env))
              resume' :=
  ⟨_, _, rfl, fun _ => ⟨_, rfl⟩⟩

/- A second handling may create a missing database. -/
theorem databases_of_cutOff
    (files : MigrationFiles)
    (databaseName : String → String)
    (paymentId : String)
    (message : DatabaseCreationMessage)
    {store : ApiStore}
    (hMissing :
      store.registry.databases
          (message.databaseName platform env) =
        none) :
    ((databaseCreation message).handle platform env files
        databaseName paymentId cutOff
          store).2.registry.databases
        (message.databaseName platform env) =
      some TenantSchema.empty := by
  rcases handler_eq_call message with
    ⟨url, resume, hHandler, hCreates⟩
  rcases hCreates (storeError "") with ⟨resume', hCreate⟩
  have hConnect :
      (execTenancy platform (cutOff 0) (.connectPostgres url)
        store).2 = store :=
    execTenancy_of_same rfl
  have hRest :
      (fun n => cutOff (n + 1 + 1)) =
        fun _ => Choice.failure "" :=
    rfl
  rw [handle_databaseCreation, hHandler, Program.complete,
    hConnect]
  change
    ((resume (.error (storeError ""))).complete _ _
      store).2.registry.databases _ = _
  rw [hCreate, Program.complete, hRest, complete_failing]
  change
    ((TenancyOp.createDatabase _).exec platform
      (.answer ⟨"", 0⟩) store.registry).2.databases _ = _
  simp only [TenancyOp.exec, TenancyOp.answer, hMissing]
  exact Registry.put_databases_same

theorem idempotent_databaseCreation
    (message : DatabaseCreationMessage)
    {store : ApiStore}
    (hReturns :
      ((databaseCreation message).handle platform env files
        databaseName paymentId choices store).1 = .ok ()) :
    (databaseCreation message).Idempotent platform env files
        databaseName paymentId paymentId' choices store ↔
      (((databaseCreation message).handle platform env files
          databaseName paymentId choices
            store).2.registry.databases
        (message.databaseName platform env)).isSome := by
  have hMarked :
      MarkedIn
        ((databaseCreation message).handle platform env files
          databaseName paymentId choices store).2
        message.userId := by
    rw [handle_databaseCreation] at hReturns ⊢
    exact
      (ensures_marked platform env files message
        store).complete choices hReturns
  constructor
  · intro hAgain
    by_contra hMissing
    rw [Option.not_isSome_iff_eq_none] at hMissing
    have hCreated :=
      databases_of_cutOff files databaseName paymentId'
        message hMissing
    rw [hAgain cutOff, hMissing] at hCreated
    cases hCreated
  · intro hExists
    exact idempotent_of_exists message hMarked hExists

end QueueMessage

end OrderApi

------------------------------------------------------------
-- Redelivery
------------------------------------------------------------

namespace OrderApi

namespace QueueMessage

/-
  After a handling that returned, a second one changes
  nothing exactly if the same payment id is drawn, or the
  database of the message is there.
-/
theorem idempotent_iff
    {platform : Platform}
    {env : Environment}
    {files : MigrationFiles}
    {databaseName : String → String}
    {message : QueueMessage}
    {paymentId : String}
    {choices : Nat → Choice}
    {store : ApiStore}
    (hReturns :
      (message.handle platform env files databaseName
        paymentId choices store).1 = .ok ())
    (paymentId' : String) :
    message.Idempotent platform env files databaseName
        paymentId paymentId' choices store ↔
      message.Settled platform env paymentId paymentId'
        (message.handle platform env files databaseName
          paymentId choices store).2 := by
  cases message with
  | databaseCreation message =>
      exact idempotent_databaseCreation message hReturns
  | orderProcessing message =>
      exact idempotent_orderProcessing message hReturns
  | orderCompleted message =>
      exact
        iff_of_true
          (idempotent_orderCompleted message hReturns) trivial

end QueueMessage

namespace Listing

/- The shop of alice's order, with its registry. -/
def server : ApiStore where
  registry :=
    { users := store.users
      databases := fun name =>
        if name = "tenant_t1" then some TenantSchema.empty
        else none
      databaseCreation := [] }
  tenants := store
  users_eq := rfl
  exists_eq := by
    intro name
    unfold store
    dsimp only
    split
    · rfl
    · rfl

/- The message for alice's order. -/
def processing : QueueMessage :=
  .orderProcessing ⟨aliceOrder.id, alice.id, "t1"⟩

end Listing

/- Alice's order is processed twice under one payment id. -/
theorem QueueMessage.idempotent_iff_of_listing :
    Listing.processing.Idempotent Onboarding.platform
      Onboarding.env Onboarding.files Listing.databaseName
      "p1" "p1" answering Listing.server :=
  (QueueMessage.idempotent_iff rfl "p1").mpr rfl

/- With two payment ids the second one is stored. -/
theorem QueueMessage.not_idempotent :
    ¬ ∀ (message : QueueMessage)
        (paymentId paymentId' : String)
        (choices : Nat → Choice) (store : ApiStore),
      (message.handle Onboarding.platform Onboarding.env
          Onboarding.files Listing.databaseName paymentId
          choices store).1 = .ok () →
      message.Idempotent Onboarding.platform Onboarding.env
        Onboarding.files Listing.databaseName paymentId
        paymentId' choices store := by
  intro hAlways
  have hAgain :=
    hAlways Listing.processing "p1" "p2" answering
      Listing.server rfl
  have hSame := (idempotent_orderProcessing _ rfl).mp hAgain
  exact absurd hSame (by decide)

end OrderApi
