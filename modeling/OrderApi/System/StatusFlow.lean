import OrderApi.System.Phases

/-
  How the statuses of orders change over runs.

  An order is made PENDING, and three calls write its status
  later: the processing consumer, the payment, and the
  completion consumer.

  Key definitions include:
    * `Pays`, `wasPaid`
    * `statusWrite?`
    * `CompletesPaid`
    * `OrderStatus.rank`
    * `Forward`, `InOrder`

  Key theorems include:
    * `OrderRun.status_cases`
    * `OrderRun.status_of_write`
    * `complete_after_payment`
    * `forward_iff_inOrder`
-/

------------------------------------------------------------
-- Status Writes
------------------------------------------------------------

namespace OrderApi

namespace TenantOp

/- An update that leaves the total always succeeds. -/
theorem exec_orderUpdate_of_find
    (tick : Tick)
    {db : TenantDb}
    {id : String}
    {data : OrderUpdate}
    {order : Order}
    (hTotal : data.total = none)
    (hFind : db.orders.find? id = some order) :
    ∃ result db',
      (orderUpdate id data).exec tick db =
          .ok (result, db') ∧
        db'.orders.find? id =
          some (order.apply data order.total) := by
  simp only [exec, hFind, hTotal, columnValue]
  refine ⟨_, _, rfl, ?_⟩
  simp only [Table.find?_update, hFind, if_true,
    Option.map_some]

end TenantOp

namespace StoreOp

/- The status after an answered update that leaves totals. -/
theorem exec_orderUpdate_status
    {tick : Tick}
    {name id : String}
    {data : OrderUpdate}
    {store : Backend}
    {old new : OrderStatus}
    (hTotal : data.total = none)
    (hStatus : data.status = some new)
    (hOld : store.status? name id = some old) :
    ((StoreOp.tenant name (.orderUpdate id data)).exec
        (.answer tick) store).2.status? name id =
      some new := by
  cases hDb : store.dbs name with
  | none =>
      simp [Backend.status?, Backend.order?, hDb] at hOld
  | some db =>
      rw [Backend.status?, Backend.order?_of_dbs hDb,
        Option.map_eq_some_iff] at hOld
      rcases hOld with ⟨order, hFind, _⟩
      rcases
          TenantOp.exec_orderUpdate_of_find tick hTotal
            hFind with
        ⟨result, db', hRun, hFind'⟩
      have hExec :
          (StoreOp.tenant name (.orderUpdate id data)).exec
              (.answer tick) store =
            (.ok result, store.put name db') := by
        simp [exec, hDb, hRun, Backend.put]
      rw [hExec, Backend.status?, Backend.order?_put_same,
        hFind']
      simp [Order.apply, hStatus]

end StoreOp

end OrderApi

------------------------------------------------------------
-- What a Call Does to a Status
------------------------------------------------------------

namespace OrderApi

namespace Backend

variable {store : Backend} {name name' : String}
variable {db : TenantDb}

theorem status?_of_dbs
    (hDb : store.dbs name = some db)
    (id : String) :
    store.status? name id =
      (db.orders.find? id).map Order.status := by
  rw [status?, order?_of_dbs hDb]

theorem status?_put_same (id : String) :
    (store.put name db).status? name id =
      (db.orders.find? id).map Order.status := by
  rw [status?, order?_put_same]

end Backend

namespace StoreOp

/-
  All that a call can do to the status of an order: nothing,
  or create the order, or update its status.
-/
theorem exec_status_cases
    {choice : Choice}
    {op : StoreOp}
    {store store' : Backend}
    {answer : Except ApiError op.Res}
    (hExec : op.exec choice store = (answer, store'))
    (name id : String) :
    store'.status? name id = store.status? name id ∨
    (∃ userId status total,
      op = .tenant name (.orderCreate userId status total) ∧
        (∀ error, answer ≠ .error error) ∧
        store.status? name id = none ∧
        store'.status? name id = some status) ∨
    (∃ data tick old new,
      op = .tenant name (.orderUpdate id data) ∧
        (∀ error, answer ≠ .error error) ∧
        choice = .answer tick ∧ data.status = some new ∧
        store.status? name id = some old ∧
        store'.status? name id = some new) := by
  rcases exec_order_cases hExec name id with
    hSame |
      ⟨userId, status, total, order, hOp, hOk, _, hStatus, _,
        hOld, hNew⟩ |
      ⟨data, tick, old, column, hOp, hOk, hChoice, _, hOld,
        hNew⟩
  · exact Or.inl (congrArg _ hSame)
  · refine
      Or.inr (Or.inl
        ⟨userId, status, total, hOp, hOk, ?_, ?_⟩)
    · rw [Backend.status?, hOld, Option.map_none]
    · rw [Backend.status?, hNew, Option.map_some, hStatus]
  · have hBefore :
        store.status? name id = some old.status := by
      rw [Backend.status?, hOld, Option.map_some]
    have hAfter :
        store'.status? name id =
          some (data.status.getD old.status) := by
      rw [Backend.status?, hNew]
      rfl
    cases hStatus : data.status with
    | none =>
        apply Or.inl
        rw [hAfter, hBefore, hStatus]
        rfl
    | some new =>
        rw [hStatus] at hAfter
        exact
          Or.inr (Or.inr
            ⟨data, tick, old.status, new, hOp, hOk, hChoice,
              hStatus, hBefore, hAfter⟩)

end StoreOp

namespace Phase

/-
  All that an allowed call can do to the status of an order:
  nothing, or what one of the four writers of statuses does.
-/
theorem Moves.status_cases
    {phase phase' : Phase}
    {op : StoreOp}
    {choice : Choice}
    {store store' : Backend}
    {answer : Except ApiError op.Res}
    (hMoves : Moves phase op answer phase')
    (hExec : op.exec choice store = (answer, store'))
    (name id : String) :
    store'.status? name id = store.status? name id ∨
    (store.status? name id = none ∧
      store'.status? name id = some .PENDING) ∨
    (∃ paymentId tick old,
      phase = handlingProcessing name id paymentId ∧
        op =
          .tenant name
            (.orderUpdate id
              (OrderProcessingConsumer.waitForPayment
                paymentId)) ∧
        choice = .answer tick ∧
        store.status? name id = some old ∧
        store'.status? name id =
          some .WAITING_FOR_PAYMENT) ∨
    (∃ tick old,
      phase = charging name id [] ∧
        op =
          .tenant name
            (.orderUpdate id
              (OrderService.setStatus .PAID)) ∧
        choice = .answer tick ∧
        store.status? name id = some old ∧
        store'.status? name id = some .PAID) ∨
    (∃ transactionId tick old,
      phase = handlingCompleted name id transactionId ∧
        op =
          .tenant name
            (.orderUpdate id
              (OrderCompletedConsumer.complete
                transactionId)) ∧
        choice = .answer tick ∧
        store.status? name id = some old ∧
        store'.status? name id = some .COMPLETE) := by
  rcases StoreOp.exec_status_cases hExec name id with
    hSame |
      ⟨userId, status, total, rfl, hOk, hOld, hNew⟩ |
      ⟨data, tick, old, new, rfl, hOk, hChoice, hStatus,
        hOld, hNew⟩
  · exact Or.inl hSame
  · cases hMoves with
    | read hFinal hRead => cases hRead
    | failed hOp => exact (hOk _ rfl).elim
    | create => exact Or.inr (Or.inl ⟨hOld, hNew⟩)
  · cases hMoves with
    | read hFinal hRead => cases hRead
    | failed hOp => exact (hOk _ rfl).elim
    | total => cases hStatus
    | markPaid =>
        cases hStatus
        exact
          Or.inr (Or.inr (Or.inr (Or.inl
            ⟨tick, old, rfl, rfl, hChoice, hOld, hNew⟩)))
    | process =>
        cases hStatus
        exact
          Or.inr (Or.inr (Or.inl
            ⟨_, tick, old, rfl, rfl, hChoice, hOld, hNew⟩))
    | complete =>
        cases hStatus
        exact
          Or.inr (Or.inr (Or.inr (Or.inr
            ⟨_, tick, old, rfl, rfl, hChoice, hOld, hNew⟩)))

end Phase

end OrderApi

------------------------------------------------------------
-- What a Step Does to a Status
------------------------------------------------------------

namespace OrderApi

/- The order was PAID after some step of the run. -/
def wasPaid
    (name id : String)
    (history : List WorldStep) : Prop :=
  ∃ t ∈ history, t.after.store.status? name id = some .PAID

instance
    (name id : String)
    (history : List WorldStep) :
    Decidable (wasPaid name id history) :=
  inferInstanceAs (Decidable (∃ t ∈ history, _))

/- The step in which `paymentReceived` makes the order PAID. -/
def Pays
    (databaseName : String → String)
    (name id : String)
    (t : WorldStep) : Prop :=
  ∃ index choice user tenantCode program,
    t.label = .resume index choice ∧
      t.before.threads[index]? =
        some
          ⟨.paymentReceived user tenantCode id, program⟩ ∧
      databaseName tenantCode = name ∧
      t.after.store.status? name id = some .PAID

variable {databaseName : String → String}
variable {start : Backend} {world : World}
variable {history : List WorldStep} {t : WorldStep}

/- A status, and the order that it is written to. -/
structure StatusWrite where
  name : String
  id : String
  status : OrderStatus
deriving DecidableEq

/- The status write that a step makes, and that is answered. -/
def statusWrite? (t : WorldStep) : Option StatusWrite :=
  match t.call? with
  | some (.tenant name (.orderUpdate id data), .answer _) =>
      data.status.map fun status => ⟨name, id, status⟩
  | _ => none

/-
  All that a step of a run can do to the status of an order.
  WAITING_FOR_PAYMENT is written by the processing consumer
  only, PAID by the payment, and COMPLETE by the completion
  consumer.
-/
theorem OrderRun.status_cases
    (hRun : OrderRun databaseName start history world)
    (hMem : t ∈ history)
    (name id : String) :
    t.after.store.status? name id =
        t.before.store.status? name id ∨
    (t.before.store.status? name id = none ∧
      t.after.store.status? name id = some .PENDING) ∨
    (∃ old,
      statusWrite? t =
          some ⟨name, id, .WAITING_FOR_PAYMENT⟩ ∧
        t.before.store.status? name id = some old ∧
        t.after.store.status? name id =
          some .WAITING_FOR_PAYMENT) ∨
    (∃ old,
      statusWrite? t = some ⟨name, id, .PAID⟩ ∧
        Pays databaseName name id t ∧
        t.before.store.status? name id = some old ∧
        t.after.store.status? name id = some .PAID) ∨
    (∃ old,
      statusWrite? t = some ⟨name, id, .COMPLETE⟩ ∧
        t.before.store.status? name id = some old ∧
        t.after.store.status? name id =
          some .COMPLETE) := by
  rcases hRun.of_mem hMem with ⟨hStep, earlier, hEarlier, _⟩
  rcases
      PoolSystem.inPhases_of_run
        (orderSystem_obeys databaseName) hEarlier with
    ⟨phases, hPhases⟩
  rcases PoolSystem.store_of_step hStep with
    ⟨_, hSame⟩ | ⟨op, choice, hCall, _⟩
  · exact Or.inl (by rw [hSame])
  · rcases PoolSystem.step_of_call hStep hCall with
      ⟨index, job, resume, hLabel, hThread, hAfter⟩
    rcases
        hPhases.phase_of_call hThread
          (op.exec choice t.before.store).1 with
      ⟨phase, phase', hPhase, hOwns, hMoves, _⟩
    have hStore :
        t.after.store = (op.exec choice t.before.store).2 :=
      congrArg Pool.store hAfter
    rw [hStore]
    rcases Phase.Moves.status_cases hMoves rfl name id with
      hSame | hCreated |
        ⟨paymentId, tick, old, _, rfl, rfl, hOld, hNew⟩ |
        ⟨tick, old, rfl, rfl, rfl, hOld, hNew⟩ |
        ⟨transactionId, tick, old, _, rfl, rfl, hOld, hNew⟩
    · exact Or.inl hSame
    · exact Or.inr (Or.inl hCreated)
    · have hWrite :
          statusWrite? t =
            some ⟨name, id, .WAITING_FOR_PAYMENT⟩ := by
        rw [statusWrite?, hCall]
        rfl
      exact
        Or.inr (Or.inr (Or.inl ⟨old, hWrite, hOld, hNew⟩))
    · have hWrite :
          statusWrite? t = some ⟨name, id, .PAID⟩ := by
        rw [statusWrite?, hCall]
        rfl
      rcases hOwns with ⟨user, tenantCode, hName, rfl⟩
      have hPays : Pays databaseName name id t :=
        ⟨index, .answer tick, user, tenantCode, _, hLabel,
          hThread, hName.symm, by rw [hStore]; exact hNew⟩
      exact
        Or.inr (Or.inr (Or.inr (Or.inl
          ⟨old, hWrite, hPays, hOld, hNew⟩)))
    · have hWrite :
          statusWrite? t = some ⟨name, id, .COMPLETE⟩ := by
        rw [statusWrite?, hCall]
        rfl
      exact
        Or.inr (Or.inr (Or.inr (Or.inr
          ⟨old, hWrite, hOld, hNew⟩)))

end OrderApi

------------------------------------------------------------
-- Answered Status Writes
------------------------------------------------------------

namespace OrderApi

/- A status is only written on its own or with an id. -/
theorem Phase.Moves.total_of_status
    {phase phase' : Phase}
    {name id : String}
    {data : OrderUpdate}
    {view : OrderView}
    (hMoves :
      Moves phase (.tenant name (.orderUpdate id data))
        (.ok view) phase')
    (hStatus : data.status ≠ none) :
    data.total = none := by
  cases hMoves with
  | read hFinal hRead => cases hRead
  | total => exact (hStatus rfl).elim
  | markPaid => rfl
  | process => rfl
  | complete => rfl

variable {databaseName : String → String}
variable {start : Backend} {world : World}
variable {history : List WorldStep} {t : WorldStep}

/- The call behind a status write. -/
theorem call?_of_statusWrite?
    {name id : String}
    {status : OrderStatus}
    (hWrite : statusWrite? t = some ⟨name, id, status⟩) :
    ∃ data tick,
      t.call? =
          some
            (.tenant name (.orderUpdate id data),
              .answer tick) ∧
        data.status = some status := by
  unfold statusWrite? at hWrite
  split at hWrite
  · rename_i name' id' data tick hCall
    rcases Option.map_eq_some_iff.mp hWrite with
      ⟨status', hStatus, hSame⟩
    cases hSame
    exact ⟨data, tick, hCall, hStatus⟩
  · cases hWrite

/- An answered status write to an order takes effect. -/
theorem OrderRun.status_of_write
    (hRun : OrderRun databaseName start history world)
    (hMem : t ∈ history)
    {name id : String}
    {old new : OrderStatus}
    (hWrite : statusWrite? t = some ⟨name, id, new⟩)
    (hOld : t.before.store.status? name id = some old) :
    t.after.store.status? name id = some new := by
  rcases call?_of_statusWrite? hWrite with
    ⟨data, tick, hCall, hStatus⟩
  rcases hRun.of_mem hMem with ⟨hStep, earlier, hEarlier, _⟩
  rcases PoolSystem.step_of_call hStep hCall with
    ⟨index, job, resume, _, hThread, hAfter⟩
  rcases
      PoolSystem.inPhases_of_run
        (orderSystem_obeys databaseName) hEarlier with
    ⟨phases, hPhases⟩
  rcases Option.map_eq_some_iff.mp hOld with
    ⟨order, _, _⟩
  -- the protocol speaks of every answer that may come
  rcases hPhases.phase_of_call hThread (.ok ⟨order, []⟩) with
    ⟨phase, phase', _, _, hMoves, _⟩
  have hTotal : data.total = none :=
    Phase.Moves.total_of_status hMoves (by simp [hStatus])
  have hStore := congrArg Pool.store hAfter
  rw [hStore]
  exact StoreOp.exec_orderUpdate_status hTotal hStatus hOld

end OrderApi

------------------------------------------------------------
-- A Small Shop
------------------------------------------------------------

namespace OrderApi

namespace Shop

def databaseName (tenantCode : String) : String :=
  "tenant_" ++ tenantCode

/- A product of which five are in stock. -/
def mug : Product :=
  { id := "mug"
    name := "Mug"
    description := none
    price := ⟨500, by decide, by decide⟩
    stock := ⟨5, by decide, by decide⟩
    createdAt := 0 }

/- A tenant `t1` that sells mugs, and no orders yet. -/
def store : Backend :=
  { users := Table.empty
    dbs := fun name =>
      if name = "tenant_t1" then
        some
          { products := ⟨[mug], by decide⟩
            orders := Table.empty
            orderItems := Table.empty }
      else
        none
    orderProcessing := []
    orderCompleted := [] }

theorem store_fresh : store.Fresh where
  no_orders := by
    intro name id
    by_cases hName : name = "tenant_t1"
    · simp [Backend.order?, store, hName]
    · simp [Backend.order?, store, hName]
  no_items := by
    intro name orderId
    by_cases hName : name = "tenant_t1"
    · simp [Backend.items, store, hName, TenantDb.itemsOf,
        Table.empty]
    · simp [Backend.items, store, hName]
  no_processing := rfl
  no_completed := rfl

def alice : AuthUser := ⟨"alice", .CUSTOMER, none⟩

/- An answered call of a thread. -/
def go (index : Nat) (freshId : String) : WorldLabel :=
  .resume index (.answer ⟨freshId, 0⟩)

/- Calls of a thread that create no rows. -/
def goOn (index calls : Nat) : List WorldLabel :=
  List.replicate calls (go index "")

/- Thread `index` orders mugs, as the order `order`. -/
def orderMugs
    (index : Nat)
    (order line : String)
    (qty : Int)
    (hQty : 1 ≤ qty) : List WorldLabel :=
  [.start
    (.createOrder alice "t1"
      ⟨[⟨"mug", qty, hQty⟩], List.cons_ne_nil _ _⟩),
    go index order] ++ goOn index 3 ++ [go index line] ++
      goOn index 4

/- Thread `index` handles the processing message. -/
def process (index : Nat) (order : String) :
    List WorldLabel :=
  .start
    (.handleOrderProcessing "payment"
      ⟨order, "alice", "t1"⟩) :: goOn index 1

/- Thread `index` pays an order of one line. -/
def pay (index : Nat) (order : String) : List WorldLabel :=
  .start (.paymentReceived alice "t1" order) ::
    goOn index 3

/- Thread `index` asks for the completion of an order. -/
def complete (index : Nat) (order : String) :
    List WorldLabel :=
  .start (.completeOrder alice "t1" order "tx") ::
    goOn index 2

/- Thread `index` handles the completion message. -/
def handleCompleted (index : Nat) (order : String) :
    List WorldLabel :=
  .start
    (.handleOrderCompleted ⟨order, "alice", "t1", "tx"⟩) ::
      goOn index 1

/- A run of the shop that passes a check. -/
theorem exists_run
    (labels : List WorldLabel)
    (check : List WorldStep → World → Bool)
    (hReplay :
      (replay (orderSystem databaseName).step labels []
          (PoolSystem.idle store)).any
        (fun run => check run.1 run.2) = true) :
    ∃ history world,
      OrderRun databaseName store history world ∧
        check history world = true :=
  Run.exists_of_replay labels check hReplay

end Shop

end OrderApi

------------------------------------------------------------
-- Completion after Payment
------------------------------------------------------------

namespace OrderApi

/-
  COMPLETE is only written to orders that are PAID, or that
  are COMPLETE already.
-/
def CompletesPaid (t : WorldStep) : Prop :=
  ∀ w ∈ statusWrite? t,
    w.status = .COMPLETE →
      t.before.store.status? w.name w.id ∈
        [none, some .PAID, some .COMPLETE]

instance (t : WorldStep) : Decidable (CompletesPaid t) :=
  inferInstanceAs (Decidable (∀ w ∈ statusWrite? t, _))

variable {databaseName : String → String}
variable {start : Backend} {world : World}
variable {history : List WorldStep}

/- Fresh stores have no statuses. -/
theorem Backend.Fresh.status?_eq_none
    (hFresh : start.Fresh)
    (name id : String) :
    start.status? name id = none := by
  rw [Backend.status?, hFresh.no_orders]
  rfl

/- The invariant of completion: paid or complete is paid. -/
theorem paid_of_paid_or_complete
    (hFresh : start.Fresh)
    (hRun : OrderRun databaseName start history world)
    (hCompletes : ∀ t ∈ history, CompletesPaid t)
    (name id : String)
    (hStatus :
      world.store.status? name id = some .PAID ∨
        world.store.status? name id = some .COMPLETE) :
    ∃ t ∈ history, Pays databaseName name id t := by
  induction hRun with
  | idle =>
      have hNone := hFresh.status?_eq_none name id
      simp [PoolSystem.idle, hNone] at hStatus
  | @next history before after label run hStep ih =>
      have hRun' := Run.next run hStep
      have hEarlier :
          (before.store.status? name id = some .PAID ∨
            before.store.status? name id =
              some .COMPLETE) →
          ∃ t ∈ (⟨before, label, after⟩ : WorldStep) ::
            history, Pays databaseName name id t := by
        intro hBefore
        rcases
            ih
              (fun t ht =>
                hCompletes t (List.mem_cons_of_mem _ ht))
              hBefore with
          ⟨t, ht, hPays⟩
        exact ⟨t, List.mem_cons_of_mem _ ht, hPays⟩
      rcases
          OrderRun.status_cases hRun' List.mem_cons_self name
            id with
        hSame | ⟨_, hNew⟩ | ⟨_, _, _, hNew⟩ |
          ⟨_, _, hPays, _, _⟩ | ⟨old, hWrite, hOld, _⟩
      · exact hEarlier (by rwa [hSame] at hStatus)
      · rw [hNew] at hStatus
        simp at hStatus
      · rw [hNew] at hStatus
        simp at hStatus
      · exact ⟨_, List.mem_cons_self, hPays⟩
      · -- the completion consumer met a paid order
        have hPaid :=
          hCompletes _ List.mem_cons_self _ hWrite rfl
        apply hEarlier
        simpa [hOld] using hPaid

/-
  An order that is COMPLETE was made PAID by an earlier
  `paymentReceived`, as long as completion messages are only
  handled on orders that are PAID or COMPLETE.
-/
theorem complete_after_payment
    (hFresh : start.Fresh)
    (hRun : OrderRun databaseName start history world)
    (hCompletes : ∀ t ∈ history, CompletesPaid t)
    {name id : String}
    (hComplete :
      world.store.status? name id = some .COMPLETE) :
    ∃ t ∈ history, Pays databaseName name id t :=
  paid_of_paid_or_complete hFresh hRun hCompletes name id
    (Or.inr hComplete)

/- An order of the shop that is paid and then completed. -/
theorem complete_after_payment_of_shop :
    ∃ history world,
      OrderRun Shop.databaseName Shop.store history world ∧
        (∀ t ∈ history, CompletesPaid t) ∧
        world.store.status? "tenant_t1" "o" =
          some .COMPLETE ∧
        ∃ t ∈ history,
          Pays Shop.databaseName "tenant_t1" "o" t := by
  rcases
      Shop.exists_run
        (Shop.orderMugs 0 "o" "l" 2 (by decide) ++
          Shop.process 1 "o" ++ Shop.pay 2 "o" ++
          Shop.complete 3 "o" ++ Shop.handleCompleted 4 "o")
        (fun history world =>
          decide
            ((∀ t ∈ history, CompletesPaid t) ∧
              world.store.status? "tenant_t1" "o" =
                some .COMPLETE))
        (by decide +kernel) with
    ⟨history, world, hRun, hCheck⟩
  rcases of_decide_eq_true hCheck with
    ⟨hCompletes, hComplete⟩
  exact
    ⟨history, world, hRun, hCompletes, hComplete,
      complete_after_payment Shop.store_fresh hRun
        hCompletes hComplete⟩

/- Without the condition, an order completes unpaid. -/
theorem not_complete_after_payment :
    ¬ ∀ (databaseName : String → String) (start : Backend)
        (history : List WorldStep) (world : World)
        (name id : String),
      start.Fresh →
      OrderRun databaseName start history world →
      world.store.status? name id = some .COMPLETE →
      wasPaid name id history := by
  intro hClaim
  rcases
      Shop.exists_run
        (Shop.orderMugs 0 "o" "l" 2 (by decide) ++
          Shop.complete 1 "o" ++ Shop.handleCompleted 2 "o")
        (fun history world =>
          decide
            (world.store.status? "tenant_t1" "o" =
                some .COMPLETE ∧
              ¬ wasPaid "tenant_t1" "o" history))
        (by decide +kernel) with
    ⟨history, world, hRun, hCheck⟩
  rcases of_decide_eq_true hCheck with
    ⟨hComplete, hUnpaid⟩
  exact
    hUnpaid
      (hClaim Shop.databaseName Shop.store history world
        "tenant_t1" "o" Shop.store_fresh hRun hComplete)

end OrderApi

------------------------------------------------------------
-- Forward Moves of the Status
------------------------------------------------------------

namespace OrderApi

/-
  The place of a status on the way of an order.  No handler
  writes CANCELLED.
-/
def OrderStatus.rank : OrderStatus → Nat
  | .PENDING => 0
  | .WAITING_FOR_PAYMENT => 1
  | .PAID => 2
  | .COMPLETE => 3
  | .CANCELLED => 4

/- The step replaces no status by an earlier one. -/
def Forward (t : WorldStep) : Prop :=
  ∀ name id old new,
    t.before.store.status? name id = some old →
      t.after.store.status? name id = some new →
      old.rank ≤ new.rank

/-
  The processing consumer only writes to orders that are not
  PAID yet, and the payment to orders not COMPLETE yet.
-/
def InOrder (t : WorldStep) : Prop :=
  ∀ w ∈ statusWrite? t,
    (w.status = .WAITING_FOR_PAYMENT →
      t.before.store.status? w.name w.id ∉
        [some .PAID, some .COMPLETE]) ∧
    (w.status = .PAID →
      t.before.store.status? w.name w.id ≠
        some .COMPLETE)

instance (t : WorldStep) : Decidable (InOrder t) :=
  inferInstanceAs (Decidable (∀ w ∈ statusWrite? t, _))

variable {databaseName : String → String}
variable {start : Backend} {world : World}
variable {history : List WorldStep}

/- No run cancels an order. -/
theorem never_cancelled
    (hStart :
      ∀ name id,
        start.status? name id ≠ some .CANCELLED)
    (hRun : OrderRun databaseName start history world)
    (name id : String) :
    world.store.status? name id ≠ some .CANCELLED := by
  induction hRun with
  | idle => exact hStart name id
  | next run hStep ih =>
      rcases
          OrderRun.status_cases (Run.next run hStep)
            List.mem_cons_self name id with
        hSame | ⟨_, hNew⟩ | ⟨_, _, _, hNew⟩ |
          ⟨_, _, _, _, hNew⟩ | ⟨_, _, _, hNew⟩
      · rw [hSame]
        exact ih
      all_goals
        rw [hNew]
        simp

/- A step in order moves the statuses forward. -/
theorem forward_of_inOrder
    (hStart :
      ∀ name id,
        start.status? name id ≠ some .CANCELLED)
    (hRun : OrderRun databaseName start history world)
    {t : WorldStep}
    (hMem : t ∈ history)
    (hInOrder : InOrder t) :
    Forward t := by
  intro name id old new hOld hNew
  rcases hRun.of_mem hMem with ⟨_, earlier, hEarlier, _⟩
  have hActive := never_cancelled hStart hEarlier name id
  rcases OrderRun.status_cases hRun hMem name id with
    hSame | ⟨hNone, _⟩ | ⟨_, hWrite, _, hAfter⟩ |
      ⟨_, hWrite, _, _, hAfter⟩ | ⟨_, _, _, hAfter⟩
  · rw [hSame, hOld] at hNew
    cases hNew
    exact Nat.le_refl _
  · rw [hNone] at hOld
    cases hOld
  · have hEarly := (hInOrder _ hWrite).1 rfl
    rw [hAfter] at hNew
    cases hNew
    cases old <;> simp_all [OrderStatus.rank]
  · have hEarly := (hInOrder _ hWrite).2 rfl
    rw [hAfter] at hNew
    cases hNew
    cases old <;> simp_all [OrderStatus.rank]
  · rw [hAfter] at hNew
    cases hNew
    cases old <;> simp_all [OrderStatus.rank]

/- A step out of order moves a status backward. -/
theorem inOrder_of_forward
    (hRun : OrderRun databaseName start history world)
    {t : WorldStep}
    (hMem : t ∈ history)
    (hForward : Forward t) :
    InOrder t := by
  rintro ⟨name, id, status⟩ hWrite
  have hRank :
      ∀ old,
        t.before.store.status? name id = some old →
          old.rank ≤ status.rank := by
    intro old hOld
    have hNew := hRun.status_of_write hMem hWrite hOld
    exact hForward name id old status hOld hNew
  constructor
  · rintro rfl hLate
    simp only [List.mem_cons, List.not_mem_nil,
      or_false] at hLate
    rcases hLate with hPaid | hComplete
    · exact absurd (hRank _ hPaid) (by decide)
    · exact absurd (hRank _ hComplete) (by decide)
  · rintro rfl hComplete
    exact absurd (hRank _ hComplete) (by decide)

/-
  All statuses of a run move forward exactly if all of its
  status writes come in order.
-/
theorem forward_iff_inOrder
    (hStart :
      ∀ name id,
        start.status? name id ≠ some .CANCELLED)
    (hRun : OrderRun databaseName start history world) :
    (∀ t ∈ history, Forward t) ↔
      ∀ t ∈ history, InOrder t := by
  constructor
  · intro hForward t hMem
    exact inOrder_of_forward hRun hMem (hForward t hMem)
  · intro hInOrder t hMem
    exact
      forward_of_inOrder hStart hRun hMem (hInOrder t hMem)

/- A run of the shop in order: its statuses move forward. -/
theorem forward_iff_inOrder_of_shop :
    ∃ history world,
      OrderRun Shop.databaseName Shop.store history world ∧
        world.store.status? "tenant_t1" "o" =
          some .COMPLETE ∧
        (∀ t ∈ history, InOrder t) ∧
        ∀ t ∈ history, Forward t := by
  rcases
      Shop.exists_run
        (Shop.orderMugs 0 "o" "l" 2 (by decide) ++
          Shop.process 1 "o" ++ Shop.pay 2 "o" ++
          Shop.complete 3 "o" ++ Shop.handleCompleted 4 "o")
        (fun history world =>
          decide
            (world.store.status? "tenant_t1" "o" =
                some .COMPLETE ∧
              ∀ t ∈ history, InOrder t))
        (by decide +kernel) with
    ⟨history, world, hRun, hCheck⟩
  rcases of_decide_eq_true hCheck with
    ⟨hComplete, hInOrder⟩
  have hStart :
      ∀ name id,
        Shop.store.status? name id ≠ some .CANCELLED := by
    intro name id
    simp [Shop.store_fresh.status?_eq_none]
  exact
    ⟨history, world, hRun, hComplete, hInOrder,
      (forward_iff_inOrder hStart hRun).mpr hInOrder⟩

/-
  A processing message that is delivered again after the
  payment makes the order wait for payment once more.
-/
theorem not_forward :
    ¬ ∀ (databaseName : String → String) (start : Backend)
        (history : List WorldStep) (world : World),
      start.Fresh →
      OrderRun databaseName start history world →
      ∀ t ∈ history, Forward t := by
  intro hClaim
  rcases
      Shop.exists_run
        (Shop.orderMugs 0 "o" "l" 2 (by decide) ++
          Shop.process 1 "o" ++ Shop.pay 2 "o" ++
          Shop.process 3 "o")
        (fun history _ =>
          decide
            (∃ t ∈ history,
              t.before.store.status? "tenant_t1" "o" =
                  some .PAID ∧
                t.after.store.status? "tenant_t1" "o" =
                  some .WAITING_FOR_PAYMENT))
        (by decide +kernel) with
    ⟨history, world, hRun, hCheck⟩
  rcases of_decide_eq_true hCheck with
    ⟨t, hMem, hBefore, hAfter⟩
  have hRank :=
    hClaim Shop.databaseName Shop.store history world
      Shop.store_fresh hRun t hMem "tenant_t1" "o" _ _
      hBefore hAfter
  exact absurd hRank (by decide)

end OrderApi
