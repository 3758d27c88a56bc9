import OrderApi.System.OrderLines

/-
  Whose steps change an order.

  The consumers look at no user and write at once, so that
  an order is changed on behalf of its owner only rests on
  the messages: each one was published by a request of the
  owner of the order that it names.

  Key definitions include:
    * `Backend.owner?`
    * `Changes`
    * `Job.ActsFor`, `OnBehalfOf`
    * `OwnerInv`
    * `ByOwner`, `QueuedByOwner`

  Key theorems include:
    * `OwnerInv.resume`
    * `OwnerInv.changed`
    * `orders_changed_by_owner`
-/

------------------------------------------------------------
-- Owners and Their Steps
------------------------------------------------------------

namespace OrderApi

/- The owner of an order in a tenant database. -/
def Backend.owner? (store : Backend) (name id : String) :
    Option String :=
  (store.order? name id).map Order.userId

/- The step changes the row or the lines of an order. -/
def Changes (name id : String) (t : WorldStep) : Prop :=
  t.after.store.order? name id ≠
      t.before.store.order? name id ∨
    t.after.store.items name id ≠
      t.before.store.items name id

namespace Job

/- The user of a request. -/
def user? : Job → Option AuthUser
  | createOrder user _ _ => some user
  | findOrders user _ _ => some user
  | findOrder user _ _ => some user
  | paymentReceived user _ _ => some user
  | completeOrder user _ _ _ => some user
  | createProduct user _ _ => some user
  | findProducts user _ _ _ => some user
  | findProduct user _ _ => some user
  | updateProduct user _ _ _ => some user
  | removeProduct user _ _ => some user
  | handleOrderProcessing _ _ => none
  | handleOrderCompleted _ => none

/- The call that published the message being handled. -/
def handled? : Job → Option StoreOp
  | handleOrderProcessing _ message =>
      some (.publishOrderProcessing message)
  | handleOrderCompleted message =>
      some (.publishOrderCompleted message)
  | _ => none

end Job

/- The step is one of a request that the user made. -/
def RequestedBy (userId : String) (t : WorldStep) : Prop :=
  ∃ index choice job program user,
    t.label = .resume index choice ∧
      t.before.threads[index]? = some ⟨job, program⟩ ∧
      job.user? = some user ∧ user.id = userId

/- A request of the user made the call before. -/
def CalledBy
    (userId : String)
    (history : List WorldStep)
    (op : StoreOp) : Prop :=
  ∃ t ∈ history,
    RequestedBy userId t ∧ t.call?.map Prod.fst = some op

/-
  The job is a request of the user, or it handles a message
  that a request of the user published before.
-/
def Job.ActsFor
    (userId : String)
    (history : List WorldStep)
    (job : Job) : Prop :=
  (∃ user, job.user? = some user ∧ user.id = userId) ∨
    ∃ op, job.handled? = some op ∧ CalledBy userId history op

/- The step is one of a job that acts for the user. -/
def OnBehalfOf
    (userId : String)
    (history : List WorldStep)
    (t : WorldStep) : Prop :=
  ∃ index choice job program,
    t.label = .resume index choice ∧
      t.before.threads[index]? = some ⟨job, program⟩ ∧
      job.ActsFor userId history

theorem CalledBy.cons
    {userId : String}
    {history : List WorldStep}
    {op : StoreOp}
    (hCalled : CalledBy userId history op)
    (t : WorldStep) :
    CalledBy userId (t :: history) op := by
  rcases hCalled with ⟨t', hMem, hCall⟩
  exact ⟨t', List.mem_cons_of_mem _ hMem, hCall⟩

theorem Job.ActsFor.cons
    {userId : String}
    {history : List WorldStep}
    {job : Job}
    (hActs : job.ActsFor userId history)
    (t : WorldStep) :
    job.ActsFor userId (t :: history) := by
  rcases hActs with hUser | ⟨op, hHandled, hCalled⟩
  · exact Or.inl hUser
  · exact Or.inr ⟨op, hHandled, hCalled.cons t⟩

/- A request acts for its user alone. -/
theorem Job.ActsFor.eq_of_user?
    {userId : String}
    {history : List WorldStep}
    {job : Job}
    {user : AuthUser}
    (hActs : job.ActsFor userId history)
    (hUser : job.user? = some user) :
    user.id = userId := by
  rcases hActs with ⟨user', hUser', hId⟩ | ⟨op, hOp, _⟩
  · rw [hUser] at hUser'
    cases hUser'
    exact hId
  · cases job with
    | handleOrderProcessing paymentId message => cases hUser
    | handleOrderCompleted message => cases hUser
    | _ => cases hOp

end OrderApi

------------------------------------------------------------
-- Phases with Their Orders
------------------------------------------------------------

namespace OrderApi

/- The order that a job in the phase writes. -/
def Phase.order? : Phase → Option (String × String)
  | .adding db orderId _ _ => some (db, orderId)
  | .merging db orderId _ _ _ => some (db, orderId)
  | .charging db orderId _ => some (db, orderId)
  | .enqueueing db message => some (db, message.orderId)
  | .handlingProcessing db orderId _ => some (db, orderId)
  | .handlingCompleted db orderId _ => some (db, orderId)
  | _ => none

/- Who writes the lines of an order writes the order. -/
theorem Phase.order?_of_adds?
    {phase : Phase}
    {key : String × String}
    (hAdds : phase.adds? = some key) :
    phase.order? = some key := by
  cases phase <;> first | exact hAdds | cases hAdds

/- What a phase tells about a request for completion. -/
def Job.Completes
    (databaseName : String → String)
    (job : Job) :
    Phase → Prop
  | .completing db message
  | .enqueueing db message =>
      db = databaseName message.tenantCode ∧
        ∃ user,
          message.userId = user.id ∧
            job =
              .completeOrder user message.tenantCode
                message.orderId message.transactionId
  | _ => True

/- The phases of the order system, with completions. -/
def ownerScript (databaseName : String → String) :
    Script Job StoreOp StoreOp.Res ApiError Phase where
  protocol := Phase.Moves
  first := Job.phase databaseName
  Ends := fun _ _ phase => phase.Final
  Owns := fun job phase =>
    Job.Owns databaseName job phase ∧
      Job.Completes databaseName job phase
  owns_first := by
    intro job
    refine
      ⟨(orderDiscipline databaseName).owns_first job, ?_⟩
    cases job with
    | completeOrder user tenantCode id transactionId =>
        exact ⟨rfl, user, rfl, rfl⟩
    | _ => trivial
  owns_next := by
    intro job phase op answer phase' hOwns hMoves
    refine
      ⟨(orderDiscipline databaseName).owns_next hOwns.1
        hMoves, ?_⟩
    cases hMoves with
    | read hFinal hRead => exact hOwns.2
    | allowCompletion hUser => exact hOwns.2
    | _ => trivial

theorem orderSystem_performs_ownerScript
    (databaseName : String → String) :
    (orderSystem databaseName).Performs
      (ownerScript databaseName) :=
  orderSystem_obeys databaseName

/-
  Every queued message names an order of its user, and was
  published by a request of that user.  What a job writes is
  an order of the user that the job is for.
-/
structure OwnerInv
    (databaseName : String → String)
    (history : List WorldStep)
    (world : World)
    (phases : List Phase) : Prop where
  lines :
    LinesInv databaseName history world.store phases
  processing :
    ∀ message ∈ world.store.orderProcessing,
      world.store.owner? (databaseName message.tenantCode)
          message.orderId =
        some message.userId ∧
      CalledBy message.userId history
        (.publishOrderProcessing message)
  completed :
    ∀ message ∈ world.store.orderCompleted,
      world.store.owner? (databaseName message.tenantCode)
          message.orderId =
        some message.userId ∧
      CalledBy message.userId history
        (.publishOrderCompleted message)
  acts :
    ∀ (i : Nat) thread phase name id,
      world.threads[i]? = some thread →
        phases[i]? = some phase →
        phase.order? = some (name, id) →
          ∃ userId,
            world.store.owner? name id = some userId ∧
              thread.job.ActsFor userId history

end OrderApi

------------------------------------------------------------
-- What a Call Does to Owners
------------------------------------------------------------

namespace OrderApi

namespace StoreOp

variable {choice : Choice} {name id : String}
variable {store store' : Backend}

/- An order keeps its owner. -/
theorem exec_owner?
    {op : StoreOp}
    {answer : Except ApiError op.Res}
    {userId : String}
    (hExec : op.exec choice store = (answer, store'))
    (hOwner : store.owner? name id = some userId) :
    store'.owner? name id = some userId := by
  rcases exec_order_cases hExec name id with
    hSame | ⟨_, _, _, _, _, _, _, _, _, hNone, _⟩ |
      ⟨data, _, old, column, _, _, _, _, hOld, hNew⟩
  · rwa [Backend.owner?, hSame]
  · rw [Backend.owner?, hNone] at hOwner
    cases hOwner
  · rw [Backend.owner?, hOld] at hOwner
    rw [Backend.owner?, hNew]
    exact hOwner

/- A created order is owned by the user it is created for. -/
theorem exec_orderCreate_owner?
    {userId : String}
    {status : OrderStatus}
    {total : Int}
    {order : Order}
    (hExec :
      (StoreOp.tenant name
        (.orderCreate userId status total)).exec choice
          store = (.ok order, store')) :
    store'.owner? name order.id = some userId := by
  rcases exec_tenant_ok hExec with
    ⟨tick, db, db', _, hDb, hRun, rfl⟩
  rcases TenantOp.exec_orderCreate hRun with
    ⟨_, hUser, _, _, hInsert⟩
  have hKey : Keyed.key order = order.id := rfl
  rw [Backend.owner?, Backend.order?_put_same,
    Table.find?_insert? hInsert order.id, if_pos hKey,
    Option.map_some, hUser]

end StoreOp

variable {databaseName : String → String}
variable {start : Backend} {world : World}
variable {history : List WorldStep} {t : WorldStep}
variable {phases : List Phase} {phase phase' : Phase}
variable {index : Nat} {job : Job} {op : StoreOp}
variable {choice : Choice}
variable {answer : Except ApiError op.Res}

/- Nobody owns anything in a fresh store. -/
theorem OwnerInv.idle
    (hFresh : start.Fresh) :
    OwnerInv databaseName [] (PoolSystem.idle start) [] where
  lines := LinesInv.idle hFresh
  processing := by
    simp [PoolSystem.idle, hFresh.no_processing]
  completed := by
    simp [PoolSystem.idle, hFresh.no_completed]
  acts := by simp

/- Starting a job preserves the invariant. -/
theorem OwnerInv.start_job
    (hInv :
      OwnerInv databaseName history t.before phases)
    (hLength : t.before.threads.length = phases.length)
    (hReady : job.ready t.before.store = true)
    (hStore : t.after.store = t.before.store)
    {program : Handler Unit}
    (hThreads :
      t.after.threads =
        t.before.threads ++ [⟨job, program⟩]) :
    OwnerInv databaseName (t :: history) t.after
      (phases ++ [job.phase databaseName]) := by
  constructor
  · exact hInv.lines.start_job hReady hStore
  · intro message hMem
    rw [hStore] at hMem ⊢
    rcases hInv.processing message hMem with
      ⟨hOwner, hCalled⟩
    exact ⟨hOwner, hCalled.cons t⟩
  · intro message hMem
    rw [hStore] at hMem ⊢
    rcases hInv.completed message hMem with
      ⟨hOwner, hCalled⟩
    exact ⟨hOwner, hCalled.cons t⟩
  · intro i thread phase name id hThread hPhase hOrder
    rw [hThreads] at hThread
    rw [hStore]
    rcases getElem?_append_cases hPhase with
      ⟨hEnd, rfl⟩ | hOld
    · rw [hEnd, ← hLength, List.getElem?_concat_length]
        at hThread
      cases hThread
      cases job with
      | handleOrderProcessing paymentId message =>
          cases hOrder
          have hQueued :
              message ∈ t.before.store.orderProcessing := by
            simpa [Job.ready] using hReady
          rcases hInv.processing message hQueued with
            ⟨hOwner, hCalled⟩
          exact
            ⟨message.userId, hOwner,
              Or.inr ⟨_, rfl, hCalled.cons t⟩⟩
      | handleOrderCompleted message =>
          cases hOrder
          have hQueued :
              message ∈ t.before.store.orderCompleted := by
            simpa [Job.ready] using hReady
          rcases hInv.completed message hQueued with
            ⟨hOwner, hCalled⟩
          exact
            ⟨message.userId, hOwner,
              Or.inr ⟨_, rfl, hCalled.cons t⟩⟩
      | _ => cases hOrder
    · rcases getElem?_append_cases hThread with
        ⟨hEnd, _⟩ | hThread'
      · have hLess :=
          (List.getElem?_eq_some_iff.mp hOld).1
        omega
      · rcases
            hInv.acts i thread phase name id hThread' hOld
              hOrder with
          ⟨userId, hOwner, hActs⟩
        exact ⟨userId, hOwner, hActs.cons t⟩

section Resume

variable
  (hInv :
    OwnerInv databaseName history t.before phases)
  {goOn :
    Except ApiError op.Res → Program StoreOp StoreOp.Res
      ApiError Unit}
  (hThread :
    t.before.threads[index]? =
      some ⟨job, .call op goOn⟩)
  (hPhase : phases[index]? = some phase)
  (hOwns : (ownerScript databaseName).Owns job phase)
  (hMoves : phase.Moves op answer phase')
  (hExec :
    op.exec choice t.before.store =
      (answer, t.after.store))

include hInv hThread hPhase hOwns hMoves hExec

/- What a job comes to write is an order of its user. -/
theorem OwnerInv.acts_own
    {name id : String}
    (hOrder : phase'.order? = some (name, id)) :
    ∃ userId,
      t.after.store.owner? name id = some userId ∧
        job.ActsFor userId (t :: history) := by
  have hStay :
      phase.order? = some (name, id) →
        ∃ userId,
          t.after.store.owner? name id = some userId ∧
            job.ActsFor userId (t :: history) := by
    intro hBefore
    rcases
        hInv.acts index _ phase name id hThread hPhase
          hBefore with
      ⟨userId, hOwner, hActs⟩
    exact
      ⟨userId, StoreOp.exec_owner? hExec hOwner,
        hActs.cons t⟩
  cases hMoves with
  | read hFinal hRead => exact hStay hOrder
  | create =>
      cases hOrder
      rcases hOwns.1 with ⟨_, user, body, rfl, rfl⟩
      exact
        ⟨user.id, StoreOp.exec_orderCreate_owner? hExec,
          Or.inl ⟨user, rfl, rfl⟩⟩
  | addItem => exact hStay hOrder
  | findItem => exact hStay hOrder
  | mergeItem => exact hStay hOrder
  | total => exact hStay hOrder
  | deduct => exact hStay hOrder
  | charge hUser hStatus =>
      cases hOrder
      rcases hOwns.1 with ⟨user, tenantCode, _, rfl, rfl⟩
      have hRead :=
        (StoreOp.exec_orderFindUniqueWithItems hExec).2.1
      have hOwner :
          t.before.store.owner? name id = some user.id := by
        rw [Backend.owner?, hRead, Option.map_some, hUser]
      exact
        ⟨user.id, StoreOp.exec_owner? hExec hOwner,
          Or.inl ⟨user, rfl, rfl⟩⟩
  | @allowCompletion _ message order hUser =>
      cases hOrder
      rcases hOwns.2 with ⟨_, user, hId, rfl⟩
      have hRead :=
        (StoreOp.exec_orderFindUnique_ok hExec).1
      have hOwner :
          t.before.store.owner? name message.orderId =
            some user.id := by
        rw [Backend.owner?, ← hRead, Option.map_some, hUser,
          hId]
      exact
        ⟨user.id, StoreOp.exec_owner? hExec hOwner,
          Or.inl ⟨user, rfl, rfl⟩⟩
  | _ => cases hOrder

/- A published processing message is one of its user. -/
theorem OwnerInv.processing_own
    {message : OrderProcessingMessage}
    (hOp : op = .publishOrderProcessing message)
    (hOk : ∀ error, answer ≠ .error error) :
    t.before.store.owner? (databaseName message.tenantCode)
        message.orderId =
      some message.userId ∧
    ∃ user, job.user? = some user ∧
      user.id = message.userId := by
  subst hOp
  cases hMoves with
  | read hFinal hRead => cases hRead
  | failed hOp => exact (hOk _ rfl).elim
  | @publishProcessing db orderId userId tenantCode =>
      rcases hOwns.1 with ⟨hDb, user, body, hId, hJob⟩
      rcases
          hInv.acts index _ _ db orderId hThread hPhase
            rfl with
        ⟨owner, hOwner, hActs⟩
      have hUser : job.user? = some user := by rw [hJob]; rfl
      have hSame := hActs.eq_of_user? hUser
      simp only at hOwner ⊢
      rw [← hDb, hOwner, ← hSame, ← hId]
      exact ⟨rfl, user, hUser, hId.symm⟩

/- A published completion is one of its user. -/
theorem OwnerInv.completed_own
    {message : OrderCompletedMessage}
    (hOp : op = .publishOrderCompleted message)
    (hOk : ∀ error, answer ≠ .error error) :
    t.before.store.owner? (databaseName message.tenantCode)
        message.orderId =
      some message.userId ∧
    ∃ user, job.user? = some user ∧
      user.id = message.userId := by
  subst hOp
  cases hMoves with
  | read hFinal hRead => cases hRead
  | failed hOp => exact (hOk _ rfl).elim
  | @publishCompleted db message =>
      rcases hOwns.2 with ⟨hDb, user, hId, hJob⟩
      rcases
          hInv.acts index _ _ db message.orderId hThread
            hPhase rfl with
        ⟨owner, hOwner, hActs⟩
      have hUser : job.user? = some user := by rw [hJob]; rfl
      have hSame := hActs.eq_of_user? hUser
      rw [← hDb, hOwner, ← hSame, ← hId]
      exact ⟨rfl, user, hUser, hId.symm⟩

/- Whoever changes an order acts for its owner. -/
theorem OwnerInv.changed
    {name id : String}
    (hChanges : Changes name id t) :
    ∃ userId,
      t.after.store.owner? name id = some userId ∧
        job.ActsFor userId history := by
  have hOwned :
      phase.order? = some (name, id) →
        ∃ userId,
          t.after.store.owner? name id = some userId ∧
            job.ActsFor userId history := by
    intro hOrder
    rcases
        hInv.acts index _ phase name id hThread hPhase
          hOrder with
      ⟨userId, hOwner, hActs⟩
    exact
      ⟨userId, StoreOp.exec_owner? hExec hOwner, hActs⟩
  rcases hChanges with hOrder | hItems
  · rcases StoreOp.exec_order_cases hExec name id with
      hSame |
        ⟨userId, status, total, order, rfl, hOk, hUser, _, _,
          _, hNew⟩ |
        ⟨data, tick, old, column, rfl, hOk, _⟩
    · exact (hOrder hSame).elim
    · cases hMoves with
      | read hFinal hRead => cases hRead
      | failed hOp => exact (hOk _ rfl).elim
      | create =>
          rcases hOwns.1 with ⟨_, user, body, rfl, rfl⟩
          refine ⟨user.id, ?_, Or.inl ⟨user, rfl, rfl⟩⟩
          rw [Backend.owner?, hNew, Option.map_some, hUser]
    · apply hOwned
      cases hMoves with
      | read hFinal hRead => cases hRead
      | failed hOp => exact (hOk _ rfl).elim
      | total => rfl
      | markPaid => rfl
      | process => rfl
      | complete => rfl
  · apply hOwned
    by_cases hAdds : phase.adds? = some (name, id)
    · exact Phase.order?_of_adds? hAdds
    · exact
        (hItems
          (hInv.lines.items_of_other hPhase hMoves hExec
            hAdds)).elim

variable
  (hLabel : t.label = .resume index choice)
  (hCall : t.call? = some (op, choice))

omit hInv hPhase hOwns hMoves hExec in
include hLabel hCall in
/- The step itself is the call of a user's request. -/
theorem CalledBy.of_step
    {userId : String}
    (hUser :
      ∃ user, job.user? = some user ∧ user.id = userId) :
    CalledBy userId (t :: history) op := by
  rcases hUser with ⟨user, hUser, hId⟩
  refine ⟨t, List.mem_cons_self, ?_, by rw [hCall]; rfl⟩
  exact
    ⟨index, choice, job, _, user, hLabel, hThread, hUser,
      hId⟩

include hLabel hCall in
/- An allowed call preserves the invariant. -/
theorem OwnerInv.resume
    (hThreads :
      t.after.threads =
        t.before.threads.set index ⟨job, goOn answer⟩) :
    OwnerInv databaseName (t :: history) t.after
      (phases.set index phase') := by
  have hKeep :
      ∀ {name id userId},
        t.before.store.owner? name id = some userId →
          t.after.store.owner? name id = some userId :=
    StoreOp.exec_owner? hExec
  have hOld :
      ∀ {name id userId published},
        t.before.store.owner? name id = some userId ∧
            CalledBy userId history published →
          t.after.store.owner? name id = some userId ∧
            CalledBy userId (t :: history) published :=
    fun ⟨hOwner, hCalled⟩ => ⟨hKeep hOwner, hCalled.cons t⟩
  have hNew :
      ∀ {name id userId published},
        op = published →
          (t.before.store.owner? name id = some userId ∧
            ∃ user,
              job.user? = some user ∧ user.id = userId) →
          t.after.store.owner? name id = some userId ∧
            CalledBy userId (t :: history) published := by
    rintro name id userId _ rfl ⟨hOwner, hUser⟩
    exact
      ⟨hKeep hOwner,
        CalledBy.of_step hThread hLabel hCall hUser⟩
  have hQueues := StoreOp.exec_queues_cases hExec
  constructor
  · exact hInv.lines.resume hPhase hOwns.1 hMoves hExec
  · intro message hMem
    rcases hQueues with
      ⟨hSame, _⟩ | ⟨new, hOp, hOk, hStore⟩ |
        ⟨new, _, _, hStore⟩
    · rw [hSame] at hMem
      exact hOld (hInv.processing message hMem)
    · rw [hStore] at hMem
      rcases List.mem_append.mp hMem with hMem | hMem
      · exact hOld (hInv.processing message hMem)
      · rw [List.mem_singleton] at hMem
        subst hMem
        exact
          hNew hOp
            (hInv.processing_own hThread hPhase hOwns hMoves
              hExec hOp hOk)
    · rw [hStore] at hMem
      exact hOld (hInv.processing message hMem)
  · intro message hMem
    rcases hQueues with
      ⟨_, hSame⟩ | ⟨new, _, _, hStore⟩ |
        ⟨new, hOp, hOk, hStore⟩
    · rw [hSame] at hMem
      exact hOld (hInv.completed message hMem)
    · rw [hStore] at hMem
      exact hOld (hInv.completed message hMem)
    · rw [hStore] at hMem
      rcases List.mem_append.mp hMem with hMem | hMem
      · exact hOld (hInv.completed message hMem)
      · rw [List.mem_singleton] at hMem
        subst hMem
        exact
          hNew hOp
            (hInv.completed_own hThread hPhase hOwns hMoves
              hExec hOp hOk)
  · intro i thread q name id hThreadAt hPhaseAt hOrder
    rw [hThreads] at hThreadAt
    rcases getElem?_set_cases hPhaseAt with
      ⟨hHere, rfl⟩ | ⟨hOther, hOld⟩
    · rcases getElem?_set_cases hThreadAt with
        ⟨_, rfl⟩ | ⟨hOther, _⟩
      · exact
          hInv.acts_own hThread hPhase hOwns hMoves hExec
            hOrder
      · exact (hOther hHere).elim
    · rcases getElem?_set_cases hThreadAt with
        ⟨hHere, _⟩ | ⟨_, hThreadOld⟩
      · exact (hOther hHere).elim
      · rcases
            hInv.acts i thread q name id hThreadOld hOld
              hOrder with
          ⟨userId, hOwner, hActs⟩
        exact ⟨userId, hKeep hOwner, hActs.cons t⟩

end Resume

end OrderApi

------------------------------------------------------------
-- Orders Change for Their Owners
------------------------------------------------------------

namespace OrderApi

/-
  The orders that a step changes keep their owners, and are
  changed on behalf of them.
-/
def ByOwner
    (history : List WorldStep)
    (t : WorldStep) : Prop :=
  ∀ name id, Changes name id t →
    ∃ userId,
      t.after.store.owner? name id = some userId ∧
        t.before.store.owner? name id ∈
          [none, some userId] ∧
        OnBehalfOf userId history t

/- Every queued message names an order of its user. -/
def QueuedByOwner
    (databaseName : String → String)
    (store : Backend) : Prop :=
  (∀ message ∈ store.orderProcessing,
    store.owner? (databaseName message.tenantCode)
      message.orderId = some message.userId) ∧
  ∀ message ∈ store.orderCompleted,
    store.owner? (databaseName message.tenantCode)
      message.orderId = some message.userId

theorem OwnerInv.queued
    {databaseName : String → String}
    {history : List WorldStep}
    {world : World}
    {phases : List Phase}
    (hInv : OwnerInv databaseName history world phases) :
    QueuedByOwner databaseName world.store :=
  ⟨fun message hMem => (hInv.processing message hMem).1,
    fun message hMem => (hInv.completed message hMem).1⟩

/-
  In every run, an order and its lines change on behalf of
  the order's owner only: in a step of a request of the
  owner, or of the handling of a message that such a request
  published before.  Every queued message names an order of
  its user.
-/
theorem orders_changed_by_owner
    {databaseName : String → String}
    {start : Backend}
    {history : List WorldStep}
    {world : World}
    (hFresh : start.Fresh)
    (hRun : OrderRun databaseName start history world) :
    (∀ t earlier, (t :: earlier).IsSuffix history →
      ByOwner earlier t) ∧
      QueuedByOwner databaseName world.store := by
  have hInvariant :=
    PoolSystem.script_invariant
      (orderSystem_performs_ownerScript databaseName)
      (fun _ => True)
      (fun history world phases =>
        OwnerInv databaseName history world phases ∧
          ∀ t earlier, (t :: earlier).IsSuffix history →
            ByOwner earlier t)
      ⟨OwnerInv.idle hFresh, by simp⟩ ?_ ?_ hRun
      (fun _ _ => trivial)
  · rcases hInvariant with ⟨_, _, hInv, hBy⟩
    exact ⟨hBy, hInv.queued⟩
  · rintro history pool phases job ⟨hInv, hBefore⟩ hScript
      hReady pool' _
    let t : WorldStep := ⟨pool, .start job, pool'⟩
    refine
      ⟨OwnerInv.start_job (t := t) hInv hScript.length_eq
        hReady rfl rfl, ?_⟩
    intro t' earlier hSuffix
    rcases List.suffix_cons_iff.mp hSuffix with hNow | hOld
    · cases hNow
      rintro name id (hOrder | hItems)
      · exact (hOrder rfl).elim
      · exact (hItems rfl).elim
    · exact hBefore t' earlier hOld
  · rintro history pool phases index choice job op goOn
      phase phase' ⟨hInv, hBefore⟩ hScript hThread hPhase
      hOwns hMoves answer pool' _
    let t : WorldStep := ⟨pool, .resume index choice, pool'⟩
    have hCall : t.call? = some (op, choice) :=
      Transition.call?_resume hThread
    have hExec :
        op.exec choice t.before.store =
          (answer.1, t.after.store) := rfl
    refine
      ⟨OwnerInv.resume (t := t) hInv hThread hPhase hOwns
        hMoves hExec rfl hCall rfl, ?_⟩
    intro t' earlier hSuffix
    rcases List.suffix_cons_iff.mp hSuffix with hNow | hOld
    · cases hNow
      intro name id hChanges
      rcases
          OwnerInv.changed (t := t) hInv hThread hPhase hOwns
            hMoves hExec hChanges with
        ⟨userId, hOwner, hActs⟩
      refine
        ⟨userId, hOwner, ?_, index, choice, job, _, rfl,
          hThread, hActs⟩
      cases hPrior : t.before.store.owner? name id with
      | none => exact List.mem_cons_self
      | some prior =>
          have hSame := StoreOp.exec_owner? hExec hPrior
          rw [hOwner] at hSame
          cases hSame
          exact List.mem_cons_of_mem _ List.mem_cons_self
    · exact hBefore t' earlier hOld

/- A run of the shop that handles both kinds of messages. -/
theorem orders_changed_by_owner_of_shop :
    ∃ history world,
      OrderRun Shop.databaseName Shop.store history world ∧
        world.store.status? "tenant_t1" "o" =
          some .COMPLETE ∧
        world.store.orderProcessing ≠ [] ∧
        world.store.orderCompleted ≠ [] ∧
        (∀ t earlier, (t :: earlier).IsSuffix history →
          ByOwner earlier t) ∧
        QueuedByOwner Shop.databaseName world.store := by
  rcases
      Shop.exists_run
        (Shop.orderMugs 0 "o" "l" 2 (by decide) ++
          Shop.process 1 "o" ++ Shop.pay 2 "o" ++
          Shop.complete 3 "o" ++ Shop.handleCompleted 4 "o")
        (fun _ world =>
          decide
            (world.store.status? "tenant_t1" "o" =
                some .COMPLETE ∧
              world.store.orderProcessing ≠ [] ∧
              world.store.orderCompleted ≠ []))
        (by decide +kernel) with
    ⟨history, world, hRun, hCheck⟩
  rcases of_decide_eq_true hCheck with
    ⟨hComplete, hProcessing, hCompleted⟩
  exact
    ⟨history, world, hRun, hComplete, hProcessing,
      hCompleted,
      orders_changed_by_owner Shop.store_fresh hRun⟩

end OrderApi
