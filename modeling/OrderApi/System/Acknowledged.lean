import OrderApi.System.Authority
import OrderApi.System.MigrationLog

/-
  What an acknowledgement is worth.

  A message is acknowledged once its handler has returned,
  and what the handler wrote is never undone: an order that
  was processed does not become PENDING again, and keeps a
  payment id.  So a published message is in its queue, or
  handed out, or its work is done.

  Key definitions include:
    * `ApiStore.HasOrder`, `Lasting`
    * `ApiStore.HasMarked`
    * `WorkDone`

  Key theorems include:
    * `hasOrder_of_exec`
    * `movesOnTenants_handler`
    * `published_awaits_or_done`
-/

------------------------------------------------------------
-- What Lasts
------------------------------------------------------------

namespace OrderApi

/- A property of orders that no later write takes away. -/
def Lasting (P : Order → Prop) : Prop :=
  ∀ order data total,
    data.status ≠ some .PENDING → P order →
      P (order.apply data total)

/- The processing of an order, by what it wrote. -/
def Order.Processed (order : Order) : Prop :=
  order.status ≠ .PENDING ∧ order.paymentId ≠ none

/- The completion of an order, by what it wrote. -/
def Order.Completed (order : Order) : Prop :=
  order.status ≠ .PENDING ∧ order.transactionId ≠ none

theorem Order.apply_status_ne_pending
    {order : Order}
    {data : OrderUpdate}
    (total : Money)
    (hData : data.status ≠ some .PENDING)
    (hOrder : order.status ≠ .PENDING) :
    (order.apply data total).status ≠ .PENDING := by
  unfold Order.apply
  cases hStatus : data.status with
  | none => exact hOrder
  | some status =>
      intro hPending
      rw [hStatus] at hData
      exact hData (congrArg some hPending)

theorem lasting_processed : Lasting Order.Processed := by
  intro order data total hData hOrder
  refine
    ⟨Order.apply_status_ne_pending total hData hOrder.1, ?_⟩
  unfold Order.apply
  cases data.paymentId with
  | none => exact hOrder.2
  | some paymentId => simp

theorem lasting_completed : Lasting Order.Completed := by
  intro order data total hData hOrder
  refine
    ⟨Order.apply_status_ne_pending total hData hOrder.1, ?_⟩
  unfold Order.apply
  cases data.transactionId with
  | none => exact hOrder.2
  | some transactionId => simp

/- A tenant has an order with a property. -/
def ApiStore.HasOrder
    (P : Order → Prop)
    (name id : String)
    (store : ApiStore) : Prop :=
  ∃ order,
    store.tenants.order? name id = some order ∧ P order

/- A user whose database is marked as created. -/
def ApiStore.HasMarked
    (id : String)
    (store : ApiStore) : Prop :=
  ∃ user,
    store.registry.users.find? id = some user ∧
      user.isDatabaseCreated = true

end OrderApi

------------------------------------------------------------
-- What a Call Keeps
------------------------------------------------------------

namespace OrderApi

section Exec

variable {platform : Platform} {choice : Choice}
variable {store store' : ApiStore}

/- Databases are gone only when they are dropped. -/
theorem databases_isSome_of_exec
    {op : TenancyOp}
    {registry registry' : Registry}
    {answer : Except ApiError op.Res}
    {name : String}
    (hExec :
      op.exec platform choice registry =
        (answer, registry'))
    (hKept : op ≠ .dropDatabase name)
    (hSome : (registry.databases name).isSome = true) :
    (registry'.databases name).isSome = true := by
  rcases TenancyOp.exec_database_cases hExec name with
    hSame | ⟨_, _, _, hCreated⟩ | ⟨hDrop, _, _⟩ |
      ⟨_, _, _, _, _, _, _, _, _, _, _, hAnswered⟩
  · rw [hSame]
    exact hSome
  · rw [hCreated]
    rfl
  · exact (hKept hDrop).elim
  · rw [hAnswered]
    rfl

/- A call on the registry leaves the tenants that stay. -/
theorem order?_of_exec_inl
    {op : TenancyOp}
    {answer : Except ApiError op.Res}
    {name id : String}
    {order : Order}
    (hExec :
      ApiOp.exec platform choice (.inl op) store =
        (answer, store'))
    (hKept : op ≠ .dropDatabase name)
    (hOrder : store.tenants.order? name id = some order) :
    store'.tenants.order? name id = some order := by
  have hRegistry := ApiOp.exec_inl hExec
  have hStore := (congrArg Prod.snd hExec).symm
  cases hDb : store.tenants.dbs name with
  | none => simp [Backend.order?, hDb] at hOrder
  | some db =>
      have hExists := store.exists_eq name
      rw [hDb] at hExists
      have hStays :=
        databases_isSome_of_exec hRegistry hKept
          hExists.symm
      rcases Option.isSome_iff_exists.mp hStays with
        ⟨schema, hSchema⟩
      have hFollowed : store'.tenants.dbs name = some db := by
        subst hStore
        change
          (((op.exec platform choice
            store.registry).2.databases name).map fun _ =>
              (store.tenants.dbs name).getD TenantDb.empty) =
            some db
        rw [hRegistry, hSchema, hDb]
        rfl
      rw [Backend.order?_of_dbs hDb] at hOrder
      rw [Backend.order?_of_dbs hFollowed, hOrder]

/- What a call keeps of an order with a lasting property. -/
theorem hasOrder_of_exec
    {P : Order → Prop}
    {op : ApiOp}
    {answer : Except ApiError (ApiRes op)}
    {name id : String}
    (hLasting : Lasting P)
    (hExec :
      ApiOp.exec platform choice op store =
        (answer, store'))
    (hKept : op ≠ .inl (.dropDatabase name))
    (hStatus :
      ∀ data,
        op = .inr (.tenant name (.orderUpdate id data)) →
          (∀ error, answer ≠ .error error) →
            data.status ≠ some .PENDING)
    (hOrder : store.HasOrder P name id) :
    store'.HasOrder P name id := by
  rcases hOrder with ⟨order, hFound, hP⟩
  cases op with
  | inl op =>
      have hDrop : op ≠ .dropDatabase name := by
        intro hOp
        exact hKept (congrArg Sum.inl hOp)
      exact
        ⟨order, order?_of_exec_inl hExec hDrop hFound, hP⟩
  | inr op =>
      have hTenants := ApiOp.exec_tenants hExec
      rcases StoreOp.exec_order_cases hTenants name id with
        hSame |
          ⟨_, _, _, _, _, _, _, _, _, hNone, _⟩ |
          ⟨data, tick, old, column, hOp, hOk, _, _, hOld,
            hNew⟩
      · exact ⟨order, hSame.trans hFound, hP⟩
      · rw [hNone] at hFound
        cases hFound
      · rw [hOld] at hFound
        cases hFound
        have hNotPending :=
          hStatus data (congrArg Sum.inr hOp) hOk
        exact
          ⟨_, hNew, hLasting order data column hNotPending hP⟩

/- What a call keeps of a user that is marked. -/
theorem hasMarked_of_exec
    {op : ApiOp}
    {answer : Except ApiError (ApiRes op)}
    {id : String}
    (hExec :
      ApiOp.exec platform choice op store =
        (answer, store'))
    (hKept : op ≠ .inl (.userDelete id))
    (hMarked : store.HasMarked id) :
    store'.HasMarked id := by
  rcases hMarked with ⟨user, hFound, hUser⟩
  cases op with
  | inr op =>
      refine ⟨user, ?_, hUser⟩
      rw [ApiOp.exec_inr hExec]
      exact hFound
  | inl op =>
      have hRegistry := ApiOp.exec_inl hExec
      rcases TenancyOp.exec_users_cases hRegistry with
        hSame | ⟨data, tick, new, _, _, hInsert⟩ |
          ⟨other, data, new, _, hUpdate⟩ |
          ⟨other, hOp, hDelete⟩ | ⟨other, _, hMark⟩
      · exact ⟨user, by rw [hSame]; exact hFound, hUser⟩
      · have hRows := (insertUser_eq_ok hInsert).2
        rw [Table.find?_eq_some_iff] at hFound
        refine ⟨user, ?_, hUser⟩
        rw [Table.find?_eq_some_iff, hRows]
        exact
          ⟨List.mem_append_left _ hFound.1, hFound.2⟩
      · rcases updateUser_eq_ok hUpdate with
          ⟨old, _, _, hUsers⟩
        rw [ApiStore.HasMarked, hUsers, Table.find?_update]
        by_cases hId : id = other
        · rw [if_pos hId, ← hId, hFound]
          exact ⟨_, rfl, hUser⟩
        · rw [if_neg hId]
          exact ⟨user, hFound, hUser⟩
      · have hOther : id ≠ other := by
          intro hId
          subst hId
          exact hKept (congrArg Sum.inl hOp)
        refine ⟨user, ?_, hUser⟩
        rw [hDelete, Table.find?_delete, if_neg hOther]
        exact hFound
      · rw [ApiStore.HasMarked, hMark,
          Registry.setDatabaseCreated, Table.find?_update]
        by_cases hId : id = other
        · rw [if_pos hId, ← hId, hFound]
          exact ⟨_, rfl, rfl⟩
        · rw [if_neg hId]
          exact ⟨user, hFound, hUser⟩

end Exec

end OrderApi

------------------------------------------------------------
-- What Threads Are Answered
------------------------------------------------------------

namespace OrderApi

open Program

/- Answered calls on tenants are those of the orders. -/
def MovesOnTenants (program : ApiHandler Unit) : Prop :=
  ∀ (calls : List ApiCall) (left : ApiHandler Unit)
    (op : StoreOp) (result : op.Res),
    Took program calls left →
      (⟨.inr op, .ok result⟩ : ApiCall) ∈ calls →
        ∃ phase phase',
          Phase.Moves phase op (.ok result) phase'

theorem movesOnTenants_fail (error : ApiError) :
    MovesOnTenants (.fail error) := by
  intro calls left op result hTook hMem
  cases hTook
  cases hMem

theorem movesOnTenants_onLeft
    (program : TenancyHandler Unit) :
    MovesOnTenants program.onLeft := by
  intro calls left op result hTook hMem
  rcases hTook.of_onLeft with ⟨own, _, _, hCalls, _⟩
  rw [hCalls] at hMem
  rcases List.mem_map.mp hMem with ⟨call, _, hCall⟩
  cases hCall

theorem movesOnTenants_onRight
    (databaseName : String → String)
    (job : Job) :
    MovesOnTenants (job.handler databaseName).onRight := by
  intro calls left op result hTook hMem
  rcases hTook.of_onRight with
    ⟨own, ownLeft, hOwn, hCalls, _⟩
  rw [hCalls] at hMem
  rcases List.mem_map.mp hMem with
    ⟨⟨op', answer⟩, hCall, hSame⟩
  injection hSame with hOp hAnswer
  cases hOp
  have hOk : answer = .ok result := eq_of_heq hAnswer
  rw [hOk] at hCall
  have hAllowed :=
    (orderSystem_obeys databaseName job).of_took hOwn
  exact hAllowed.1 _ hCall

theorem movesOnTenants_handler
    {platform : Platform}
    {auth : AuthPlatform}
    {env : Environment}
    {files : MigrationFiles}
    {databaseName : String → String}
    (job : ApiJob) :
    MovesOnTenants
      (job.handler platform auth env files
        databaseName) := by
  cases job with
  | register hashedPassword body =>
      simp only [ApiJob.handler]
      split
      · exact movesOnTenants_fail _
      · exact movesOnTenants_onLeft _
  | login body =>
      simp only [ApiJob.handler]
      split
      · exact movesOnTenants_fail _
      · exact movesOnTenants_onLeft _
  | migrateTenants clientUrl =>
      exact movesOnTenants_onLeft _
  | handleDatabaseCreation message =>
      exact movesOnTenants_onLeft _
  | handleOrderProcessing paymentId message =>
      exact
        movesOnTenants_onRight databaseName
          (.handleOrderProcessing paymentId message)
  | handleOrderCompleted message =>
      exact
        movesOnTenants_onRight databaseName
          (.handleOrderCompleted message)
  | request payload route =>
      intro calls left op result hTook hMem
      rcases took_guarded_cases hTook with
        ⟨hNone, _⟩ | ⟨answer, rest, hCalls, hBehind⟩
      · rw [hNone] at hMem
        cases hMem
      · rw [hCalls] at hMem
        rcases List.mem_cons.mp hMem with hFirst | hRest
        · cases hFirst
        · rcases hBehind with
            ⟨hNone, _⟩ | ⟨user, _, _, hTook'⟩
          · rw [hNone] at hRest
            cases hRest
          · cases route with
            | getProfile =>
                cases hTook'
                cases hRest
            | users route =>
                exact
                  movesOnTenants_onLeft _ _ _ _ _ hTook'
                    hRest
            | tenant route =>
                exact
                  movesOnTenants_onRight databaseName _ _ _
                    _ _ hTook' hRest

end OrderApi

------------------------------------------------------------
-- What Runs Keep
------------------------------------------------------------

namespace OrderApi

section Runs

variable {platform : Platform} {auth : AuthPlatform}
variable {env : Environment} {files : MigrationFiles}
variable {databaseName : String → String}
variable {start : ApiStore} {history : List ApiStep}
variable {world : ApiWorld} {t : ApiStep}

/-
  What a transition of a run did: it started a job, or made
  a call of a thread.
-/
theorem store_or_call
    (hRun :
      ApiRun platform auth env files databaseName start
        history world)
    (hMem : t ∈ history) :
    t.after.store = t.before.store ∨
    ∃ index choice op answer,
      (⟨op, answer⟩ : ApiCall) ∈
          apiCallsOf platform auth env files databaseName
            index history ∧
        (⟨op, answer⟩ : ApiCall) ∈
          apiCalls platform auth env files databaseName
            history ∧
        ApiOp.exec platform choice op t.before.store =
          (answer, t.after.store) := by
  have hStep := (hRun.of_mem hMem).1
  cases hLabel : t.label with
  | start job =>
      rw [hLabel] at hStep
      rcases PoolSystem.step_cases hStep with
        ⟨_, _, _, hAfter⟩ | ⟨_, _, _, _, _, hResume, _⟩
      · rw [hAfter]
        exact .inl rfl
      · cases hResume
  | resume index choice =>
      rcases PoolSystem.exists_callBy hStep hLabel with
        ⟨⟨op, answer⟩, hCall⟩
      rcases PoolSystem.exec_of_callBy hStep hCall with
        ⟨choice', _, hExec⟩
      exact
        .inr
          ⟨index, choice', op, answer,
            PoolSystem.mem_callsOf hMem hCall,
            PoolSystem.mem_seen_of_callBy hMem hCall,
            hExec⟩

/- Updates of orders never make one PENDING again. -/
theorem status_of_orderUpdate
    {index : Nat}
    {name id : String}
    {data : OrderUpdate}
    {view : OrderView}
    (hRun :
      ApiRun platform auth env files databaseName start
        history world)
    (hMem :
      (⟨.inr (.tenant name (.orderUpdate id data)),
        .ok view⟩ : ApiCall) ∈
        apiCallsOf platform auth env files databaseName index
          history) :
    data.status ≠ some .PENDING := by
  have hThreaded := PoolSystem.threaded_of_run hRun index
  unfold PoolSystem.Threaded at hThreaded
  unfold apiCallsOf at hMem
  split at hThreaded
  · rw [hThreaded] at hMem
    cases hMem
  · rcases
        movesOnTenants_handler _ _ _ _ _ hThreaded hMem with
      ⟨phase, phase', hMoves⟩
    cases hMoves with
    | read hFinal hRead => cases hRead
    | total => simp [Phase.setTotal]
    | markPaid => simp [OrderService.setStatus]
    | process =>
        simp [OrderProcessingConsumer.waitForPayment]
    | complete => simp [OrderCompletedConsumer.complete]

/- No call of a history drops a database. -/
def NeverDropped
    (name : String)
    (calls : List ApiCall) : Prop :=
  ∀ call ∈ calls, call.1 ≠ .inl (.dropDatabase name)

/- No call of a history removes a user. -/
def NeverRemoved
    (id : String)
    (calls : List ApiCall) : Prop :=
  ∀ call ∈ calls, call.1 ≠ .inl (.userDelete id)

/- What an order once had that lasts, it has at the end. -/
theorem hasOrder_of_run
    {P : Order → Prop}
    {name id : String}
    (hLasting : Lasting P)
    (hRun :
      ApiRun platform auth env files databaseName start
        history world)
    (hKept :
      NeverDropped name
        (apiCalls platform auth env files databaseName
          history))
    (hMem : t ∈ history)
    (hAfter : t.after.store.HasOrder P name id) :
    world.store.HasOrder P name id := by
  apply
    hRun.holds_since (P := fun world =>
      world.store.HasOrder P name id) hMem hAfter
  intro t' hMem' hBefore
  rcases store_or_call hRun hMem' with
    hSame | ⟨index, choice, op, answer, hCall, hSeen, hExec⟩
  · rw [hSame]
    exact hBefore
  · apply hasOrder_of_exec hLasting hExec (hKept _ hSeen) _
      hBefore
    intro data hOp hOk
    subst hOp
    cases answer with
    | error error => exact (hOk error rfl).elim
    | ok view => exact status_of_orderUpdate hRun hCall

/- A mark on a user who is not removed stays. -/
theorem hasMarked_of_run
    {id : String}
    (hRun :
      ApiRun platform auth env files databaseName start
        history world)
    (hKept :
      NeverRemoved id
        (apiCalls platform auth env files databaseName
          history))
    (hMem : t ∈ history)
    (hAfter : t.after.store.HasMarked id) :
    world.store.HasMarked id := by
  apply
    hRun.holds_since (P := fun world =>
      world.store.HasMarked id) hMem hAfter
  intro t' hMem' hBefore
  rcases store_or_call hRun hMem' with
    hSame | ⟨index, choice, op, answer, _, hSeen, hExec⟩
  · rw [hSame]
    exact hBefore
  · exact hasMarked_of_exec hExec (hKept _ hSeen) hBefore

end Runs

end OrderApi

------------------------------------------------------------
-- What Handlers That Returned Have Done
------------------------------------------------------------

namespace OrderApi

open Program

section Done

variable {platform : Platform} {auth : AuthPlatform}
variable {env : Environment} {files : MigrationFiles}
variable {databaseName : String → String}
variable {start : ApiStore} {history : List ApiStep}
variable {world : ApiWorld} {index : Nat}

/- A thread that ended has taken its program to the end. -/
theorem took_of_ended
    {job : ApiJob}
    (hRun :
      ApiRun platform auth env files databaseName start
        history world)
    (hThread : ⟨job, .done ()⟩ ∈ world.threads) :
    ∃ index,
      Took
        (job.handler platform auth env files databaseName)
        (apiCallsOf platform auth env files databaseName
          index history)
        (.done ()) := by
  rcases List.mem_iff_getElem?.mp hThread with
    ⟨index, hAt⟩
  exact ⟨index, PoolSystem.took_of_run hRun hAt⟩

/- The transition of a call of a thread. -/
theorem exec_of_mem_callsOf
    {op : ApiOp}
    {answer : Except ApiError (ApiRes op)}
    (hRun :
      ApiRun platform auth env files databaseName start
        history world)
    (hMem :
      (⟨op, answer⟩ : ApiCall) ∈
        apiCallsOf platform auth env files databaseName index
          history) :
    ∃ t ∈ history, ∃ choice,
      ApiOp.exec platform choice op t.before.store =
        (answer, t.after.store) := by
  rcases PoolSystem.exists_of_mem_callsOf hMem with
    ⟨t, hHistory, hCall⟩
  rcases
      PoolSystem.exec_of_callBy (hRun.of_mem hHistory).1
        hCall with
    ⟨choice, _, hExec⟩
  exact ⟨t, hHistory, choice, hExec⟩

/- An update by a consumer that returned lasts. -/
theorem hasOrder_of_updated
    {P : Order → Prop}
    {name id : String}
    {data : OrderUpdate}
    (hLasting : Lasting P)
    (hTotal : data.total = none)
    (hData : ∀ order total, P (Order.apply order data total))
    (hRun :
      ApiRun platform auth env files databaseName start
        history world)
    (hTook :
      Took
        ((prisma name (.orderUpdate id data)).ignore.onRight :
          ApiHandler Unit)
        (apiCallsOf platform auth env files databaseName
          index history)
        (.done ()))
    (hKept :
      NeverDropped name
        (apiCalls platform auth env files databaseName
          history)) :
    world.store.HasOrder P name id := by
  rcases hTook.of_onRight with
    ⟨own, ownLeft, hOwn, hCalls, hLeft⟩
  cases ownLeft with
  | fail error => cases hLeft
  | call op resume => cases hLeft
  | done value =>
      rcases hOwn.bind_done with
        ⟨view, before, after, hParts, hFirst, hSecond⟩
      cases hFirst.perform_done
      cases hSecond
      have hMem :
          (⟨.inr (.tenant name (.orderUpdate id data)),
            .ok view⟩ : ApiCall) ∈
            apiCallsOf platform auth env files databaseName
              index history := by
        rw [hCalls, hParts]
        exact List.mem_cons_self
      rcases exec_of_mem_callsOf hRun hMem with
        ⟨t, hHistory, choice, hExec⟩
      rcases
          StoreOp.exec_orderUpdate_order? hTotal
            (ApiOp.exec_tenants hExec) with
        ⟨order, _, hAfter⟩
      exact
        hasOrder_of_run hLasting hRun hKept hHistory
          ⟨_, hAfter, hData order order.total⟩

/- A processed order stays processed. -/
theorem hasOrder_of_processed
    {paymentId : String}
    {message : OrderProcessingMessage}
    (hRun :
      ApiRun platform auth env files databaseName start
        history world)
    (hThread :
      ⟨.handleOrderProcessing paymentId message, .done ()⟩ ∈
        world.threads)
    (hKept :
      NeverDropped (databaseName message.tenantCode)
        (apiCalls platform auth env files databaseName
          history)) :
    world.store.HasOrder Order.Processed
      (databaseName message.tenantCode) message.orderId := by
  rcases took_of_ended hRun hThread with ⟨index, hTook⟩
  refine
    hasOrder_of_updated lasting_processed rfl ?_ hRun hTook
      hKept
  intro order total
  exact ⟨nofun, nofun⟩

theorem hasOrder_of_completed
    {message : OrderCompletedMessage}
    (hRun :
      ApiRun platform auth env files databaseName start
        history world)
    (hThread :
      ⟨.handleOrderCompleted message, .done ()⟩ ∈
        world.threads)
    (hKept :
      NeverDropped (databaseName message.tenantCode)
        (apiCalls platform auth env files databaseName
          history)) :
    world.store.HasOrder Order.Completed
      (databaseName message.tenantCode) message.orderId := by
  rcases took_of_ended hRun hThread with ⟨index, hTook⟩
  refine
    hasOrder_of_updated lasting_completed rfl ?_ hRun hTook
      hKept
  intro order total
  exact ⟨nofun, nofun⟩

/- A user whose database was created stays marked. -/
theorem hasMarked_of_created
    {message : DatabaseCreationMessage}
    (hRun :
      ApiRun platform auth env files databaseName start
        history world)
    (hThread :
      ⟨.handleDatabaseCreation message, .done ()⟩ ∈
        world.threads)
    (hKept :
      NeverRemoved message.userId
        (apiCalls platform auth env files databaseName
          history)) :
    world.store.HasMarked message.userId := by
  rcases took_of_ended hRun hThread with ⟨index, hTook⟩
  rcases Took.of_onLeft hTook with
    ⟨own, ownLeft, hOwn, hCalls, hLeft⟩
  cases ownLeft with
  | fail error => cases hLeft
  | call op resume => cases hLeft
  | done value =>
      rcases hOwn.bind_done with
        ⟨_, before, after, hParts, _, hSecond⟩
      have hMark := hSecond.perform_done
      have hMem :
          (⟨.inl (.userSetDatabaseCreated message.userId),
            .ok ()⟩ : ApiCall) ∈
            apiCallsOf platform auth env files databaseName
              index history := by
        rw [hCalls, hParts, hMark]
        simp
      rcases exec_of_mem_callsOf hRun hMem with
        ⟨t, hHistory, choice, hExec⟩
      apply hasMarked_of_run hRun hKept hHistory
      rcases TenancyOp.exec_mark (ApiOp.exec_inl hExec) with
        ⟨⟨user, hUser⟩, hAfter⟩
      rw [ApiStore.HasMarked, hAfter,
        Registry.setDatabaseCreated, Table.find?_update,
        if_pos rfl, hUser]
      exact ⟨_, rfl, rfl⟩

end Done

end OrderApi

------------------------------------------------------------
-- Published Messages
------------------------------------------------------------

namespace OrderApi

/-
  The work that a message asks for is done: its order has
  been processed or completed, unless its database has been
  dropped, or its user is marked, unless it was removed.
-/
def WorkDone
    (databaseName : String → String)
    (format : NumberFormat)
    (calls : List ApiCall)
    (store : ApiStore)
    (content : String) : QueueName → Prop
  | .databaseCreation =>
      ∃ message,
        DatabaseCreationMessage.ofContent format content =
          .ok message ∧
        (NeverRemoved message.userId calls →
          store.HasMarked message.userId)
  | .orderProcessing =>
      ∃ message,
        OrderProcessingMessage.ofContent format content =
          .ok message ∧
        (NeverDropped (databaseName message.tenantCode)
            calls →
          store.HasOrder Order.Processed
            (databaseName message.tenantCode)
            message.orderId)
  | .orderCompleted =>
      ∃ message,
        OrderCompletedMessage.ofContent format content =
          .ok message ∧
        (NeverDropped (databaseName message.tenantCode)
            calls →
          store.HasOrder Order.Completed
            (databaseName message.tenantCode)
            message.orderId)

section Published

variable {platform : Platform} {auth : AuthPlatform}
variable {env : Environment} {files : MigrationFiles}
variable {databaseName : String → String}
variable {format : NumberFormat}

/- A consumer whose handler has returned did its work. -/
theorem workDone_of_ended
    {start : ApiStore}
    {history : List ApiStep}
    {world : ApiWorld}
    {consumer : Consumer}
    {content : String}
    {job : ApiJob}
    (hRun :
      ApiRun platform auth env files databaseName start
        history world)
    (hJob : consumer.job format content = .ok job)
    (hThread : ⟨job, .done ()⟩ ∈ world.threads) :
    WorkDone databaseName format
      (apiCalls platform auth env files databaseName history)
      world.store content consumer.queue := by
  cases consumer with
  | databaseCreation =>
      cases hMessage :
          DatabaseCreationMessage.ofContent format content
        with
      | error error =>
          rw [Consumer.job, hMessage] at hJob
          cases hJob
      | ok message =>
          rw [Consumer.job, hMessage] at hJob
          cases hJob
          exact
            ⟨message, hMessage,
              hasMarked_of_created hRun hThread⟩
  | orderProcessing paymentId =>
      cases hMessage :
          OrderProcessingMessage.ofContent format content
        with
      | error error =>
          rw [Consumer.job, hMessage] at hJob
          cases hJob
      | ok message =>
          rw [Consumer.job, hMessage] at hJob
          cases hJob
          exact
            ⟨message, hMessage,
              hasOrder_of_processed hRun hThread⟩
  | orderCompleted =>
      cases hMessage :
          OrderCompletedMessage.ofContent format content
        with
      | error error =>
          rw [Consumer.job, hMessage] at hJob
          cases hJob
      | ok message =>
          rw [Consumer.job, hMessage] at hJob
          cases hJob
          exact
            ⟨message, hMessage,
              hasOrder_of_completed hRun hThread⟩

/-
  In every run, whatever fails and is lost, each published
  message waits in its queue, or is handed out and will be
  put back if it is not handled, or its work is done.
-/
theorem published_awaits_or_done
    {start : ApiStore}
    {history : List BrokeredStep}
    {world : BrokeredWorld}
    {queue : QueueName}
    {content : String}
    (hRun :
      BrokeredRun platform auth env files databaseName format
        start.withBroker history world)
    (hPublished :
      content ∈ world.store.store.published queue) :
    content ∈ (world.store.queues queue).waiting ∨
      content ∈
        (world.store.queues queue).unacked.map
          Delivery.content ∨
      WorkDone databaseName format
        (brokeredCalls platform auth env files databaseName
          format history)
        world.store.store content queue := by
  let logs :=
    @apiLogs platform auth env files databaseName format
  rcases logs.exists_run (fun queue => rfl) hRun with
    ⟨history', pool, hRun', hSeen, hStores⟩
  have hConserved := hStores.conserved queue
  have hMem :
      content ∈ (world.store.queues queue).contents := by
    rw [hConserved.mem_iff, ← hStores.store_eq]
    exact hPublished
  rcases List.mem_append.mp hMem with hWaiting | hBehind
  · exact .inl hWaiting
  rcases List.mem_append.mp hBehind with hUnacked | hSettled
  · exact .inr (.inl hUnacked)
  rcases hStores.handled queue content hSettled with
    ⟨consumer, job, hQueue, hJob, hThread⟩
  have hDone := workDone_of_ended hRun' hJob hThread
  have hCalls :
      brokeredCalls platform auth env files databaseName
          format history =
        apiCalls platform auth env files databaseName
          history' := hSeen
  subst hQueue
  rw [← hStores.store_eq, ← hCalls] at hDone
  exact .inr (.inr hDone)

end Published

end OrderApi

------------------------------------------------------------
-- A Message That Was Delivered Twice
------------------------------------------------------------

namespace OrderApi

namespace Listing

/- A message was published, and none is left. -/
def handledAll (world : BrokeredWorld) : Bool :=
  let queue := world.store.queues .orderProcessing
  let published :=
    world.store.store.published .orderProcessing
  queue.waiting.isEmpty && queue.unacked.isEmpty &&
    !published.isEmpty

theorem exists_handledAll :
    ∃ history world,
      BrokeredRun Onboarding.platform Onboarding.auth
          Onboarding.env Onboarding.files databaseName format
          queued.withBroker history world ∧
        handledAll world = true :=
  Run.exists_of_replay redelivery
    (fun _ world => handledAll world)
    (by decide +kernel)

end Listing

/- The work of the message is done. -/
theorem published_awaits_or_done_of_redelivery :
    ∃ history,
    ∃ world : BrokeredWorld,
    ∃ content,
      content ∈
          world.store.store.published .orderProcessing ∧
        WorkDone Listing.databaseName Listing.format
          (brokeredCalls Onboarding.platform Onboarding.auth
            Onboarding.env Onboarding.files
            Listing.databaseName Listing.format history)
          world.store.store content .orderProcessing := by
  rcases Listing.exists_handledAll with
    ⟨history, world, hRun, hAll⟩
  simp only [Listing.handledAll, Bool.and_eq_true,
    List.isEmpty_iff, Bool.not_eq_true'] at hAll
  rcases hAll with ⟨⟨hWaiting, hUnacked⟩, hSome⟩
  cases hPublished :
      world.store.store.published .orderProcessing with
  | nil =>
      rw [hPublished] at hSome
      cases hSome
  | cons content contents =>
      have hMem :
          content ∈
            world.store.store.published .orderProcessing := by
        rw [hPublished]
        exact List.mem_cons_self
      refine ⟨history, world, content, hMem, ?_⟩
      rcases published_awaits_or_done hRun hMem with
        hHere | hHere | hDone
      · rw [hWaiting] at hHere
        cases hHere
      · rw [hUnacked] at hHere
        cases hHere
      · exact hDone

end OrderApi
