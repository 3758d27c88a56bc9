import OrderApi.Core.Simulation
import OrderApi.System.OrderListCoherence

/-
  One tenant's part of a run.

  The jobs on one tenant database do what they would do if
  there were no other tenant: they make the same calls and
  get the same answers in a run of their own, in which no
  other database exists and nothing else was started.

  Listing the orders of all tenants is no tenant's job.

  Key definitions include:
    * `Job.tenantCode?`, `Job.isOn`
    * `StoreOp.OfTenant`, `StoreOp.Elsewhere`
    * `Backend.only`
    * `projection`

  Key theorems include:
    * `Job.calls_of_tenant`
    * `StoreOp.exec_only`
    * `StoreOp.only_of_elsewhere`
    * `run_of_tenant`
-/

------------------------------------------------------------
-- Jobs of a Tenant
------------------------------------------------------------

namespace OrderApi

/- The tenant code that a job comes with. -/
def Job.tenantCode? : Job → Option String
  | createOrder _ tenantCode _ => some tenantCode
  | findOrders _ _ _ => none
  | findOrder _ tenantCode _ => some tenantCode
  | paymentReceived _ tenantCode _ => some tenantCode
  | completeOrder _ tenantCode _ _ => some tenantCode
  | createProduct _ tenantCode _ => some tenantCode
  | findProducts _ tenantCode _ _ => some tenantCode
  | findProduct _ tenantCode _ => some tenantCode
  | updateProduct _ tenantCode _ _ => some tenantCode
  | removeProduct _ tenantCode _ => some tenantCode
  | handleOrderProcessing _ message =>
      some message.tenantCode
  | handleOrderCompleted message => some message.tenantCode

/- The calls of a job with a tenant code. -/
def StoreOp.OfTenant
    (databaseName : String → String)
    (tenantCode : String) : StoreOp → Prop
  | .tenant name _ => name = databaseName tenantCode
  | .findReadyTenants => False
  | .publishOrderProcessing message =>
      message.tenantCode = tenantCode
  | .publishOrderCompleted message =>
      message.tenantCode = tenantCode

section Calls

open Program

variable {databaseName : String → String}
variable {tenantCode : String} {α : Type}

theorem calls_tenant (op : TenantOp) :
    Calls (StoreOp.OfTenant databaseName tenantCode)
      (prisma (databaseName tenantCode) op) :=
  calls_perform rfl

theorem calls_tenant_mapped
    {handler : Handler α}
    (hCalls :
      Calls (StoreOp.OfTenant databaseName tenantCode)
        handler) :
    Calls (StoreOp.OfTenant databaseName tenantCode)
      (mapMissingDatabase tenantCode handler) := by
  refine calls_attempt hCalls fun error => ?_
  rcases mapMissingDatabase_throws (α := α) tenantCode error
    with ⟨error', hThrows⟩
  rw [hThrows]
  exact calls_fail _

namespace OrderService

theorem calls_addItemToOrder
    (orderId userId : String)
    (item : AddItemDto) :
    Calls (StoreOp.OfTenant databaseName tenantCode)
      (addItemToOrder (databaseName tenantCode) orderId
        userId item tenantCode) := by
  refine calls_bind (calls_tenant _) fun order => ?_
  cases order with
  | none => exact calls_fail _
  | some order =>
      simp only
      split
      · exact calls_fail _
      split
      · exact calls_fail _
      refine
        calls_bind (calls_tenant_mapped (calls_tenant _))
          fun product => ?_
      cases product with
      | none => exact calls_fail _
      | some product =>
          simp only
          split
          · exact calls_fail _
          refine
            calls_bind (calls_tenant _)
              fun existingItem => ?_
          refine
            calls_bind ?_ fun orderItem => ?_
          · cases existingItem with
            | none =>
                exact calls_tenant_mapped (calls_tenant _)
            | some existingItem =>
                exact calls_tenant_mapped (calls_tenant _)
          · refine
              calls_bind ?_ fun _ => calls_done _
            exact
              calls_bind (calls_tenant _) fun items =>
                calls_bind (calls_tenant _) fun _ =>
                  calls_done _

theorem calls_findOne (id userId : String) :
    Calls (StoreOp.OfTenant databaseName tenantCode)
      (findOne (databaseName tenantCode) id userId) := by
  refine calls_bind (calls_tenant _) fun order => ?_
  cases order with
  | none => exact calls_fail _
  | some order => exact calls_done _

theorem calls_paymentReceived_of_tenant
    (orderId userId : String) :
    Calls (StoreOp.OfTenant databaseName tenantCode)
      (paymentReceived (databaseName tenantCode) orderId
        userId tenantCode) := by
  refine calls_bind (calls_tenant _) fun found => ?_
  cases found with
  | none => exact calls_fail _
  | some found =>
      simp only
      split
      · exact calls_fail _
      split
      · exact calls_fail _
      refine
        calls_bind (calls_forEach ?_ _) fun _ =>
          calls_tenant_mapped (calls_tenant _)
      intro item
      exact
        calls_bind (calls_tenant_mapped (calls_tenant _))
          fun _ => calls_done ()

theorem calls_enqueueOrderCompleted
    (orderId userId transactionId : String) :
    Calls (StoreOp.OfTenant databaseName tenantCode)
      (enqueueOrderCompleted (databaseName tenantCode)
        orderId userId tenantCode transactionId) := by
  refine calls_bind (calls_tenant _) fun order => ?_
  cases order with
  | none => exact calls_fail _
  | some order =>
      simp only
      split
      · exact calls_fail _
      · exact calls_perform rfl

end OrderService

theorem OrderController.calls_create
    (user : AuthUser)
    (body : CreateOrderDto) :
    Calls (StoreOp.OfTenant databaseName tenantCode)
      (OrderController.create (databaseName tenantCode) user
        tenantCode body) := by
  unfold OrderController.create
  split
  · exact calls_fail _
  refine
    calls_bind (calls_tenant_mapped (calls_tenant _))
      fun order => ?_
  refine calls_bind (calls_forEach ?_ _) fun _ => ?_
  · intro item
    exact
      calls_bind (OrderService.calls_addItemToOrder _ _ _)
        fun _ => calls_done ()
  · exact
      calls_bind (calls_perform rfl) fun _ =>
        OrderService.calls_findOne _ _

theorem ProductService.calls_findOne_of_tenant (id : String) :
    Calls (StoreOp.OfTenant databaseName tenantCode)
      (ProductService.findOne (databaseName tenantCode) id
        tenantCode) := by
  apply calls_tenant_mapped
  refine calls_bind (calls_tenant _) fun product => ?_
  cases product with
  | none => exact calls_fail _
  | some product => exact calls_done _

/- A job with a tenant code calls on that tenant alone. -/
theorem Job.calls_of_tenant
    {job : Job}
    (hCode : job.tenantCode? = some tenantCode) :
    Calls (StoreOp.OfTenant databaseName tenantCode)
      (job.handler databaseName) := by
  cases job with
  | findOrders user page perPage => cases hCode
  | createOrder user code body =>
      cases hCode
      exact
        calls_bind (OrderController.calls_create _ _)
          fun _ => calls_done ()
  | findOrder user code id =>
      cases hCode
      exact
        calls_bind (OrderService.calls_findOne _ _)
          fun _ => calls_done ()
  | paymentReceived user code id =>
      cases hCode
      exact
        calls_bind
          (OrderService.calls_paymentReceived_of_tenant _ _)
          fun _ => calls_done ()
  | completeOrder user code id transactionId =>
      cases hCode
      simp only [Job.handler,
        OrderController.completeOrder]
      split
      · exact calls_fail _
      · exact OrderService.calls_enqueueOrderCompleted _ _ _
  | createProduct user code body =>
      cases hCode
      refine calls_bind ?_ fun _ => calls_done ()
      simp only [ProductController.create,
        ProductService.create]
      split
      · exact calls_fail _
      · exact calls_tenant _
  | findProducts user code page perPage =>
      cases hCode
      refine
        calls_bind (calls_tenant_mapped ?_) fun _ =>
          calls_done ()
      exact
        calls_bind (calls_tenant _) fun total =>
          calls_bind (calls_tenant _) fun data =>
            calls_done _
  | findProduct user code id =>
      cases hCode
      exact
        calls_bind
          (ProductService.calls_findOne_of_tenant _)
          fun _ => calls_done ()
  | updateProduct user code id body =>
      cases hCode
      refine calls_bind ?_ fun _ => calls_done ()
      exact
        calls_bind
          (ProductService.calls_findOne_of_tenant _)
          fun _ => calls_tenant_mapped (calls_tenant _)
  | removeProduct user code id =>
      cases hCode
      refine calls_bind ?_ fun _ => calls_done ()
      exact
        calls_bind
          (ProductService.calls_findOne_of_tenant _)
          fun _ => calls_tenant_mapped (calls_tenant _)
  | handleOrderProcessing paymentId message =>
      cases hCode
      exact
        calls_bind (calls_tenant _) fun _ => calls_done ()
  | handleOrderCompleted message =>
      cases hCode
      exact
        calls_bind (calls_tenant _) fun _ => calls_done ()

end Calls

end OrderApi

------------------------------------------------------------
-- A Store with One Tenant
------------------------------------------------------------

namespace OrderApi

variable {databaseName : String → String} {name : String}

/- The job is one on a tenant database. -/
def Job.isOn
    (databaseName : String → String)
    (name : String)
    (job : Job) : Bool :=
  job.tenantCode?.any fun tenantCode =>
    databaseName tenantCode = name

/-
  A tenant database and the messages for it.  No user is
  left, and no other database.
-/
def Backend.only
    (databaseName : String → String)
    (name : String)
    (store : Backend) : Backend where
  users := Table.empty
  dbs := fun other =>
    if other = name then store.dbs name else none
  orderProcessing :=
    store.orderProcessing.filter fun message =>
      databaseName message.tenantCode = name
  orderCompleted :=
    store.orderCompleted.filter fun message =>
      databaseName message.tenantCode = name

/- A call that leaves a tenant as it is. -/
def StoreOp.Elsewhere
    (databaseName : String → String)
    (name : String) : StoreOp → Prop
  | .tenant other op =>
      other ≠ name ∨ (StoreOp.tenant other op).isRead = true
  | .findReadyTenants => True
  | .publishOrderProcessing message =>
      databaseName message.tenantCode ≠ name
  | .publishOrderCompleted message =>
      databaseName message.tenantCode ≠ name

namespace Backend

variable {store : Backend} {db : TenantDb}

theorem only_dbs_same :
    (store.only databaseName name).dbs name =
      store.dbs name :=
  if_pos rfl

theorem only_put_same :
    (store.only databaseName name).put name db =
      (store.put name db).only databaseName name := by
  have hDbs :
      Function.update (store.only databaseName name).dbs name
          (some db) =
        ((store.put name db).only databaseName name).dbs := by
    funext other
    by_cases hOther : other = name
    · subst hOther
      rw [Function.update_self, only_dbs_same,
        put_dbs_same]
    · rw [Function.update_of_ne hOther]
      simp only [only, if_neg hOther]
  unfold put at hDbs ⊢
  rw [hDbs]
  rfl

theorem only_put_other
    {other : String}
    (hOther : other ≠ name) :
    (store.put other db).only databaseName name =
      store.only databaseName name := by
  unfold only
  rw [put_dbs_other hOther.symm]
  rfl

end Backend

namespace StoreOp

variable {choice : Choice} {op : StoreOp}

/- A call on a tenant is answered by its part of the store. -/
theorem exec_only
    {tenantCode : String}
    (store : Backend)
    (hOp : op.OfTenant databaseName tenantCode)
    (hName : databaseName tenantCode = name) :
    op.exec choice (store.only databaseName name) =
      ((op.exec choice store).1,
        (op.exec choice store).2.only databaseName name) := by
  cases choice with
  | failure message => rfl
  | answer tick =>
      cases op with
      | findReadyTenants => cases hOp
      | tenant used op =>
          have hUsed : used = name := hOp.trans hName
          subst hUsed
          simp only [exec, Backend.only_dbs_same]
          cases store.dbs used with
          | none => rfl
          | some db =>
              cases hRun : op.exec tick db with
              | error message => simp only [hRun]
              | ok result =>
                  simp only [hRun]
                  exact
                    congrArg (Prod.mk (Except.ok result.1))
                      Backend.only_put_same
      | publishOrderProcessing message =>
          have hTenant :
              databaseName message.tenantCode = name := by
            rw [hOp]
            exact hName
          simp [exec, Backend.only, hTenant]
      | publishOrderCompleted message =>
          have hTenant :
              databaseName message.tenantCode = name := by
            rw [hOp]
            exact hName
          simp [exec, Backend.only, hTenant]

/- Other calls leave a tenant's part of the store. -/
theorem only_of_elsewhere
    (store : Backend)
    (hOp : op.Elsewhere databaseName name) :
    (op.exec choice store).2.only databaseName name =
      store.only databaseName name := by
  cases op with
  | findReadyTenants => cases choice <;> rfl
  | tenant other op =>
      rcases hOp with hOther | hRead
      · rcases exec_tenant_cases choice other op store with
          ⟨error, hExec⟩ | ⟨_, _, db', _, _, _, _, hExec⟩
        · rw [hExec]
        · rw [hExec]
          exact Backend.only_put_other hOther
      · rw [exec_isRead_store hRead]
  | publishOrderProcessing message =>
      cases choice with
      | failure error => rfl
      | answer tick =>
          have hTenant :
              databaseName message.tenantCode ≠ name := hOp
          simp [exec, Backend.only, hTenant]
  | publishOrderCompleted message =>
      cases choice with
      | failure error => rfl
      | answer tick =>
          have hTenant :
              databaseName message.tenantCode ≠ name := hOp
          simp [exec, Backend.only, hTenant]

end StoreOp

namespace Job

variable {job : Job}

/- The calls of the jobs on a tenant. -/
theorem calls_of_isOn
    (hOn : job.isOn databaseName name = true) :
    ∃ tenantCode,
      databaseName tenantCode = name ∧
        Program.Calls
          (StoreOp.OfTenant databaseName tenantCode)
          (job.handler databaseName) := by
  rcases (Option.any_eq_true _ _).mp hOn with
    ⟨tenantCode, hCode, hName⟩
  exact
    ⟨tenantCode, of_decide_eq_true hName,
      calls_of_tenant hCode⟩

/- The calls of the jobs elsewhere. -/
theorem calls_of_not_isOn
    (hOff : job.isOn databaseName name = false) :
    Program.Calls (StoreOp.Elsewhere databaseName name)
      (job.handler databaseName) := by
  cases hCode : job.tenantCode? with
  | none =>
      cases job with
      | findOrders user page perPage =>
          have hLists :
              Program.Calls StoreOp.lists
                ((findOrders user page perPage).handler
                  databaseName) := by
            refine
              Program.calls_bind ?_ fun _ =>
                Program.calls_done ()
            refine
              Program.calls_bind
                (Program.calls_perform (Or.inl rfl))
                fun tenantCodes => ?_
            exact
              Program.calls_bind
                (OrderService.calls_fetchOrders _ _ _)
                fun _ => Program.calls_done _
          refine hLists.mono fun op hOp => ?_
          rcases hOp with rfl | ⟨other, userId, rfl⟩
          · trivial
          · exact Or.inr rfl
      | _ => cases hCode
  | some tenantCode =>
      have hName : databaseName tenantCode ≠ name := by
        simpa [isOn, hCode] using hOff
      refine (calls_of_tenant hCode).mono fun op hOp => ?_
      cases op with
      | tenant other op =>
          exact Or.inl fun hSame => hName (hOp ▸ hSame)
      | findReadyTenants => trivial
      | publishOrderProcessing message =>
          exact fun hSame => hName (hOp ▸ hSame)
      | publishOrderCompleted message =>
          exact fun hSame => hName (hOp ▸ hSame)

/- A job on a tenant starts by the tenant's messages. -/
theorem ready_only
    (store : Backend)
    (hOn : job.isOn databaseName name = true) :
    job.ready (store.only databaseName name) =
      job.ready store := by
  cases job with
  | handleOrderProcessing paymentId message =>
      have hName :
          databaseName message.tenantCode = name := by
        simpa [isOn, tenantCode?] using hOn
      simp [ready, Backend.only, hName]
  | handleOrderCompleted message =>
      have hName :
          databaseName message.tenantCode = name := by
        simpa [isOn, tenantCode?] using hOn
      simp [ready, Backend.only, hName]
  | _ => rfl

end Job

end OrderApi

------------------------------------------------------------
-- Projection
------------------------------------------------------------

namespace OrderApi

/- What a program calls, and may call from then on. -/
theorem calls_call
    {P : StoreOp → Prop}
    {op : StoreOp}
    {resume : Except ApiError op.Res → Handler Unit}
    (hCalls : Program.Calls P (.call op resume))
    (answer : Except ApiError op.Res) :
    P op ∧ Program.Calls P (resume answer) := by
  rcases hCalls answer with ⟨phase, hOp, hRest⟩
  exact ⟨hOp, hRest⟩

/- A thread of a tenant stands for itself. -/
inductive OwnThread
    (databaseName : String → String)
    (name : String)
    (thread : Thread Job StoreOp StoreOp.Res ApiError) :
    Option (Thread Job StoreOp StoreOp.Res ApiError) → Prop
  | own
      (tenantCode : String)
      (hOn : thread.job.isOn databaseName name = true)
      (hName : databaseName tenantCode = name)
      (hCalls :
        Program.Calls
          (StoreOp.OfTenant databaseName tenantCode)
          thread.program) :
      OwnThread databaseName name thread (some thread)
  | other
      (hOff : thread.job.isOn databaseName name = false)
      (hCalls :
        Program.Calls (StoreOp.Elsewhere databaseName name)
          thread.program) :
      OwnThread databaseName name thread none

/- A call for a job on a tenant, with its answer. -/
abbrev OrderEvent :=
  CallEvent Job StoreOp StoreOp.Res ApiError

/- The calls that are made for a tenant. -/
def OrderEvent.ofTenant
    (databaseName : String → String)
    (name : String)
    (event : OrderEvent) : Option OrderEvent :=
  if event.job.isOn databaseName name then some event
  else none

def tenantCorrespondence
    (databaseName : String → String)
    (name : String) :
    Correspondence (orderSystem databaseName)
      (orderSystem databaseName) OrderEvent where
  observe := OrderEvent.ofTenant databaseName name
  observe' := some
  Stores := fun store pool =>
    pool.store = store.only databaseName name
  Stands := OwnThread databaseName name

variable {databaseName : String → String} {name : String}
variable {store : Backend} {pool : World}
variable {choice : Choice} {job : Job} {op : StoreOp}
variable
  {resume : Except ApiError op.Res → Handler Unit}

/- A call for the tenant is made in its own run as well. -/
theorem follows_own
    {tenantCode : String}
    (hStore : pool.store = store.only databaseName name)
    (hOn : job.isOn databaseName name = true)
    (hName : databaseName tenantCode = name)
    (hCalls :
      Program.Calls
        (StoreOp.OfTenant databaseName tenantCode)
        (.call op resume)) :
    (tenantCorrespondence databaseName name).Follows choice
      store pool job op resume
      (some ⟨job, .call op resume⟩) := by
  rcases calls_call hCalls (op.exec choice store).1 with
    ⟨hOp, hRest⟩
  have hExec :
      op.exec choice pool.store =
        ((op.exec choice store).1,
          (op.exec choice store).2.only databaseName
            name) := by
    rw [hStore]
    exact StoreOp.exec_only store hOp hName
  have hAnswer :
      (op.exec choice pool.store).1 =
        (op.exec choice store).1 := by
    rw [hExec]
  have hNext :
      (op.exec choice pool.store).2 =
        (op.exec choice store).2.only databaseName name := by
    rw [hExec]
  refine .calls choice ?_ ?_ ?_
  · change
      OrderEvent.ofTenant databaseName name
          ⟨job, op, (op.exec choice store).1⟩ =
        some ⟨job, op, (op.exec choice pool.store).1⟩
    rw [hAnswer]
    exact if_pos hOn
  · exact fun place hPlace => hNext
  · change
      OwnThread databaseName name
        ⟨job, resume (op.exec choice store).1⟩
        (some ⟨job, resume (op.exec choice pool.store).1⟩)
    rw [hAnswer]
    exact .own tenantCode hOn hName hRest

/- A call elsewhere is not seen in it. -/
theorem follows_other
    (hStore : pool.store = store.only databaseName name)
    (hOff : job.isOn databaseName name = false)
    (hCalls :
      Program.Calls (StoreOp.Elsewhere databaseName name)
        (.call op resume)) :
    (tenantCorrespondence databaseName name).Follows choice
      store pool job op resume none := by
  rcases calls_call hCalls (op.exec choice store).1 with
    ⟨hOp, hRest⟩
  refine .unseen ?_ ?_ (.other hOff hRest)
  · exact if_neg (by simp [hOff])
  · exact
      hStore.trans
        (StoreOp.only_of_elsewhere store hOp).symm

/- A run, seen from one tenant. -/
def tenantSimulation
    (databaseName : String → String)
    (name : String) :
    Simulation (orderSystem databaseName)
      (orderSystem databaseName) OrderEvent where
  toCorrespondence := tenantCorrespondence databaseName name
  start := by
    intro store pool job hStore hReady
    cases hOn : job.isOn databaseName name with
    | false =>
        exact
          Or.inl (.other hOn (Job.calls_of_not_isOn hOn))
    | true =>
        apply Or.inr
        rcases Job.calls_of_isOn hOn with
          ⟨tenantCode, hName, hCalls⟩
        refine
          ⟨job, ?_, hStore,
            .own tenantCode hOn hName hCalls⟩
        change job.ready pool.store = true
        rw [hStore, Job.ready_only store hOn]
        exact hReady
  call := by
    intro store pool job op resume stand choice hStore
      hStands hMem
    cases hStands with
    | own tenantCode hOn hName hCalls =>
        exact follows_own hStore hOn hName hCalls
    | other hOff hCalls =>
        exact follows_other hStore hOff hCalls

/- The threads of a tenant are those that stand for it. -/
theorem filter_of_paired
    {threads threads' :
      List (Thread Job StoreOp StoreOp.Res ApiError)}
    (hPaired :
      (tenantSimulation databaseName name).Paired threads
        threads') :
    (threads.filter fun thread =>
        thread.job.isOn databaseName name).Perm threads' := by
  rcases hPaired with ⟨stands, hAll, hPerm⟩
  refine List.Perm.trans ?_ hPerm
  clear hPerm
  induction hAll with
  | nil => exact List.Perm.refl _
  | @cons thread stand threads stands hHead hTail ih =>
      cases hHead with
      | own tenantCode hOn hName hCalls =>
          rw [List.filter_cons, if_pos hOn,
            List.reduceOption_cons_of_some]
          exact ih.cons thread
      | other hOff hCalls =>
          rw [List.filter_cons, if_neg (by simp [hOff]),
            List.reduceOption_cons_of_none]
          exact ih

/-
  What happens to a tenant in a run happens in a run of its
  own, on a store without users and without any other
  database: the same calls with the same answers, up to the
  same rows and messages and the same unfinished jobs.
-/
theorem run_of_tenant
    {start : Backend}
    {history : List WorldStep}
    {world : World}
    (hRun : OrderRun databaseName start history world)
    (name : String) :
    ∃ history' world',
      OrderRun databaseName (start.only databaseName name)
          history' world' ∧
        seen (orderSystem databaseName)
            (OrderEvent.ofTenant databaseName name) history =
          seen (orderSystem databaseName) some history' ∧
        world'.store = world.store.only databaseName name ∧
        (world.threads.filter fun thread =>
          thread.job.isOn databaseName name).Perm
            world'.threads := by
  have hStores :
      (tenantSimulation databaseName name).Stores start
        (PoolSystem.idle (start.only databaseName name)) :=
    rfl
  rcases
      (tenantSimulation databaseName name).exists_run hStores
        hRun with
    ⟨history', world', hRun', hSeen, hStore, hPaired⟩
  exact
    ⟨history', world', hRun', hSeen, hStore,
      filter_of_paired hPaired⟩

end OrderApi

------------------------------------------------------------
-- Two Tenants
------------------------------------------------------------

namespace OrderApi

namespace Listing

/- Another tenant, without rows, beside the one of alice. -/
def twoTenants : Backend :=
  store.put "tenant_t2" TenantDb.empty

theorem noStock_min : ∀ n ∈ (none : Option Int), 0 ≤ n := by
  intro n hStock
  cases hStock

/- A product is created there while alice asks here. -/
def besides : List WorldLabel :=
  [.start
      (.createProduct ⟨admin.id, .ADMIN, some "t1"⟩ "t2"
        { name := "cup"
          description := none
          price := 100
          stock := none
          stock_min := noStock_min }),
    .start (.findOrder alice "t1" aliceOrder.id),
    .resume 0 (.answer ⟨"cup", 1⟩),
    .resume 1 (.answer ⟨"", 2⟩)]

/- Both requests were answered. -/
def bothEnded (world : World) : Bool :=
  world.threads.length = 2 &&
    world.threads.all fun thread =>
      !thread.program.inProgress

theorem exists_besides :
    ∃ history world,
      OrderRun databaseName twoTenants history world ∧
        bothEnded world = true :=
  Run.exists_of_replay besides
    (fun _ world => bothEnded world) (by decide +kernel)

end Listing

/- Alice asks in a run in which nobody creates a cup. -/
theorem run_of_tenant_of_besides :
    ∃ (history history' : List WorldStep)
        (world world' : World),
      Listing.bothEnded world = true ∧
        OrderRun Listing.databaseName
            (Listing.twoTenants.only Listing.databaseName
              "tenant_t1")
            history' world' ∧
          seen (orderSystem Listing.databaseName)
              (OrderEvent.ofTenant Listing.databaseName
                "tenant_t1")
              history =
            seen (orderSystem Listing.databaseName) some
              history' ∧
          world'.store =
            world.store.only Listing.databaseName
              "tenant_t1" ∧
          (world.threads.filter fun thread =>
            thread.job.isOn Listing.databaseName
              "tenant_t1").Perm world'.threads := by
  rcases Listing.exists_besides with
    ⟨history, world, hRun, hEnded⟩
  rcases run_of_tenant hRun "tenant_t1" with
    ⟨history', world', hTenant⟩
  exact
    ⟨history, history', world, world', hEnded, hTenant⟩

end OrderApi
