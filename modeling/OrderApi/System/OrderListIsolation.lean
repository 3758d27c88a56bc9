import OrderApi.Order.OrderList
import OrderApi.System.StatusFlow

/-
  Who sees whose orders: concurrent requests for the order
  list, behind the cache, while the stores change freely.

  The key of a list has the user's id in it, unless the
  query has a parameter `__userId`, which replaces it.

  Key definitions include:
    * `orderLists`
    * `OrderListRequest.OwnUserId`
    * `OrderListRequest.OwnOrders`

  Key theorems include:
    * `own_orders_of_own_userId`
    * `not_own_orders`
-/

------------------------------------------------------------
-- Lists behind the Cache
------------------------------------------------------------

namespace OrderApi

/- Calls that each meet the store of their own moment. -/
def execNow
    (choice : Choice × Backend)
    (op : StoreOp)
    (_ : Unit) : Except ApiError op.Res × Unit :=
  ((op.exec choice.1 choice.2).1, ())

/- Requests for the order list behind their interceptors. -/
def orderLists (databaseName : String → String) :
    CacheAside OrderListRequest String
      (Nat → Choice × Backend) ApiError
      (Page TenantOrder) where
  lookupKey := OrderListRequest.lookupKey
  storeKey := OrderListRequest.storeKey
  answer := fun choices list =>
    ((list.handler databaseName).complete execNow choices
      ()).1

abbrev OrderListState :=
  CacheAside.State OrderListRequest String ApiError
    (Page TenantOrder)

abbrev OrderListLabel :=
  CacheAside.Label OrderListRequest String
    (Nat → Choice × Backend)

/- Runs of list requests, from an empty cache. -/
abbrev OrderListRun (databaseName : String → String) :
    List (Transition OrderListState OrderListLabel) →
      OrderListState → Prop :=
  Run (orderLists databaseName).step CacheAside.start

namespace OrderListRequest

/- A response shows orders of the caller only. -/
def OwnOrders (list : OrderListRequest) :
    Except ApiError (Page TenantOrder) → Prop
  | .ok page =>
      ∀ order ∈ page.data,
        order.view.order.userId = list.user.id
  | .error _ => True

instance
    (list : OrderListRequest)
    (response : Except ApiError (Page TenantOrder)) :
    Decidable (list.OwnOrders response) :=
  match response with
  | .ok page =>
      inferInstanceAs
        (Decidable
          (∀ order ∈ page.data,
            order.view.order.userId = list.user.id))
  | .error _ => inferInstanceAs (Decidable True)

/- The query names no user, or the caller. -/
def OwnUserId (list : OrderListRequest) : Prop :=
  match list.query.get? "__userId" with
  | none => True
  | some (.str id) => id = list.user.id
  | some _ => False

instance (list : OrderListRequest) :
    Decidable list.OwnUserId := by
  unfold OwnUserId
  split <;> infer_instance

/- A request looks a key up, or keeps its list under it. -/
def UsesKey (list : OrderListRequest) (key : String) :
    Prop :=
  list.lookupKey = some key ∨ list.storeKey = some key

end OrderListRequest

end OrderApi

------------------------------------------------------------
-- Lists Hold the Caller's Orders
------------------------------------------------------------

namespace OrderApi

/- All orders are of one user. -/
def OrdersOf (userId : String) (orders : List TenantOrder) :
    Prop :=
  ∀ order ∈ orders, order.view.order.userId = userId

/- The outcome of a list, if there is one, is a user's. -/
def ListsOf
    (userId : String)
    (outcome : Except ApiError (List TenantOrder)) : Prop :=
  ∀ orders, outcome = .ok orders → OrdersOf userId orders

theorem userId_of_orderFindMany
    {choice : Choice}
    {store store' : Backend}
    {name userId : String}
    {views : List OrderView}
    (hExec :
      (StoreOp.tenant name (.orderFindMany userId)).exec
        choice store = (.ok views, store')) :
    ∀ view ∈ views, view.order.userId = userId := by
  rcases StoreOp.exec_tenant_ok hExec with
    ⟨tick, db, db', _, _, hRun, _⟩
  simp only [TenantOp.exec, Except.ok.injEq,
    Prod.mk.injEq] at hRun
  rcases hRun with ⟨rfl, _⟩
  intro view hView
  rcases List.mem_map.mp hView with ⟨order, hOrder, rfl⟩
  have hRows := (List.mem_insertionSort _).mp hOrder
  exact decide_eq_true_eq.mp (List.mem_filter.mp hRows).2

namespace OrderService

/- Every tenant adds orders of the user only. -/
theorem ensures_fetchOrders
    (databaseName : String → String)
    (userId : String)
    (tenantCodes : List String) :
    Program.Ensures execNow
      (fun outcome _ => ListsOf userId outcome)
      (fetchOrders databaseName userId tenantCodes) () := by
  induction tenantCodes with
  | nil =>
      intro orders hOrders order hMem
      cases hOrders
      cases hMem
  | cons tenantCode tenantCodes ih =>
      have hOthers :
          ∀ fetched, OrdersOf userId fetched →
            Program.Ensures execNow
              (fun outcome _ => ListsOf userId outcome)
              ((fetchOrders databaseName userId
                tenantCodes).bind fun others =>
                  .done (fetched ++ others)) () := by
        intro fetched hFetched
        apply Program.ensures_bind
        apply ih.mono
        intro outcome _ hOutcome
        cases outcome with
        | error error =>
            intro orders hOrders
            cases hOrders
        | ok others =>
            intro orders hOrders order hMem
            cases hOrders
            rcases List.mem_append.mp hMem with hNew | hOld
            · exact hFetched order hNew
            · exact hOutcome others rfl order hOld
      apply Program.ensures_bind
      apply Program.ensures_attempt
      apply Program.ensures_bind
      apply Program.ensures_perform
        (StoreOp.tenant (databaseName tenantCode)
          (.orderFindMany userId))
      intro choice
      cases hExec :
          (StoreOp.tenant (databaseName tenantCode)
            (.orderFindMany userId)).exec choice.1
              choice.2 with
      | mk answer store' =>
          simp only [execNow, hExec]
          cases answer with
          | error error =>
              apply hOthers
              intro order hMem
              cases hMem
          | ok views =>
              apply hOthers
              intro order hMem
              rcases List.mem_map.mp hMem with
                ⟨view, hView, rfl⟩
              exact
                userId_of_orderFindMany hExec view hView

/- A page is cut out of the orders. -/
theorem mem_of_mem_paginate
    {orders : List TenantOrder}
    {page perPage : Nat}
    {order : TenantOrder}
    (hMem : order ∈ (paginate orders page perPage).data) :
    order ∈ orders := by
  have hSorted :=
    List.mem_of_mem_drop (List.mem_of_mem_take hMem)
  exact (List.mem_insertionSort _).mp hSorted

end OrderService

namespace OrderListRequest

/- Whatever the stores hold, a list is the caller's. -/
theorem ownOrders_handler
    (databaseName : String → String)
    (list : OrderListRequest)
    (choices : Nat → Choice × Backend) :
    list.OwnOrders
      ((list.handler databaseName).complete execNow choices
        ()).1 := by
  suffices hEnsures :
      Program.Ensures execNow
        (fun outcome _ => list.OwnOrders outcome)
        (list.handler databaseName) () from
    hEnsures.complete choices
  apply Program.ensures_bind
  cases queryText list.query "page" with
  | error error => exact trivial
  | ok page =>
      apply Program.ensures_bind
      cases queryText list.query "per_page" with
      | error error => exact trivial
      | ok perPage =>
          apply Program.ensures_bind
          apply Program.ensures_perform
            StoreOp.findReadyTenants
          intro choice
          cases (execNow choice .findReadyTenants ()).1 with
          | error error => exact trivial
          | ok tenantCodes =>
              apply Program.ensures_bind
              apply
                (OrderService.ensures_fetchOrders
                  databaseName list.user.id
                  tenantCodes).mono
              intro outcome _ hOutcome
              cases outcome with
              | error error => exact trivial
              | ok orders =>
                  intro order hMem
                  exact
                    hOutcome orders rfl order
                      (OrderService.mem_of_mem_paginate
                        hMem)

end OrderListRequest

end OrderApi

------------------------------------------------------------
-- Two Customers
------------------------------------------------------------

namespace OrderApi

namespace Listing

def databaseName (tenantCode : String) : String :=
  "tenant_" ++ tenantCode

def alice : AuthUser :=
  ⟨"a11ce000-0000-4000-8000-000000000000", .CUSTOMER, none⟩

def bob : AuthUser :=
  ⟨"b0b00000-0000-4000-8000-000000000000", .CUSTOMER, none⟩

def admin : User where
  id := "ad000000-0000-4000-8000-000000000000"
  email := "admin@example.com"
  username := "admin"
  password := ""
  role := .ADMIN
  tenantCode := some "t1"
  isDatabaseCreated := true

def aliceOrder : Order where
  id := "order"
  userId := alice.id
  status := .PENDING
  total := ⟨0, by decide, by decide⟩
  paymentId := none
  transactionId := none
  createdAt := 0

def mug : Product := Shop.mug

/- A tenant that sells mugs; alice has an order there. -/
def store : Backend where
  users := ⟨[admin], by decide⟩
  dbs := fun name =>
    if name = "tenant_t1" then
      some
        { products := ⟨[mug], by decide⟩
          orders := ⟨[aliceOrder], by decide⟩
          orderItems := Table.empty }
    else
      none
  orderProcessing := []
  orderCompleted := []

def page1 : JsObject := JsObject.empty.set "page" (.str "1")

def askAlice : OrderListRequest :=
  ⟨alice, by decide, page1⟩

def askBob : OrderListRequest :=
  ⟨bob, by decide, page1⟩

/- `?page=1&__userId=...` with the id of alice. -/
def askAsAlice : OrderListRequest :=
  ⟨bob, by decide, page1.set "__userId" (.str alice.id)⟩

/- Every call of a handler meets the same store. -/
def still (_ : Nat) : Choice × Backend :=
  (.answer ⟨"", 0⟩, store)

/- Alice lists her orders, and then bob asks. -/
def labels (bobs : OrderListRequest) :
    List OrderListLabel :=
  [.arrive askAlice, .finish 0 still, .save 0, .arrive bobs]

/- A run of list requests that passes a check. -/
theorem exists_run
    (labels : List OrderListLabel)
    (check :
      List (Transition OrderListState OrderListLabel) →
        OrderListState → Bool)
    (hReplay :
      (replay (orderLists databaseName).step labels []
          CacheAside.start).any
        (fun run => check run.1 run.2) = true) :
    ∃ history state,
      OrderListRun databaseName history state ∧
        check history state = true :=
  Run.exists_of_replay labels check hReplay

end Listing

end OrderApi

------------------------------------------------------------
-- Isolation
------------------------------------------------------------

namespace OrderApi

namespace OrderListRequest

/- The user id in the key is then the caller's own. -/
theorem OwnUserId.parameter?_eq
    {list : OrderListRequest}
    (hOwn : list.OwnUserId) :
    list.parameter? "__userId" =
      some (.str list.user.id) := by
  unfold OwnUserId at hOwn
  unfold parameter?
  cases hQuery : list.query.get? "__userId" with
  | none => rfl
  | some value =>
      rw [hQuery] at hOwn
      cases value with
      | str id =>
          simp only at hOwn
          rw [hOwn]
          rfl
      | arr items => exact hOwn.elim
      | obj fields => exact hOwn.elim

/- Callers that share a key are the same user. -/
theorem user_eq_of_usesKey
    {list list' : OrderListRequest}
    (hOwn : list.OwnUserId)
    (hOwn' : list'.OwnUserId)
    {key : String}
    (hKey : list.UsesKey key)
    (hKey' : list'.UsesKey key) :
    list.user.id = list'.user.id := by
  have hShared :
      ∀ tenantCode tenantCode' : Option JsVal,
        list.listKey tenantCode = some key →
        list'.listKey tenantCode' = some key →
        list.user.id = list'.user.id := by
    intro tenantCode tenantCode' h h'
    have hSame :=
      parameter?_eq_of_listKey h h' "__userId" (by decide)
    rw [hOwn.parameter?_eq, hOwn'.parameter?_eq] at hSame
    exact JsVal.str.inj (Option.some.inj hSame)
  rcases hKey with hKey | hKey
  · rcases hKey' with hKey' | hKey'
    · exact hShared _ _ hKey hKey'
    · exact hShared _ _ hKey hKey'
  · rcases hKey' with hKey' | hKey'
    · exact hShared _ _ hKey hKey'
    · exact hShared _ _ hKey hKey'

end OrderListRequest

/-
  In runs of requests that name no other user as `__userId`,
  every response shows orders of its caller only; and such
  requests of different users never share a key.
-/
theorem own_orders_of_own_userId
    {databaseName : String → String}
    {history :
      List (Transition OrderListState OrderListLabel)}
    {state : OrderListState}
    (hRun : OrderListRun databaseName history state)
    (hOwn :
      ∀ t ∈ history, ∀ list ∈ t.label.request?,
        list.OwnUserId) :
    (∀ response ∈ state.served,
      response.1.OwnOrders response.2) ∧
    ∀ (list list' : OrderListRequest) (key : String),
      list.OwnUserId → list'.OwnUserId →
      list.UsesKey key → list'.UsesKey key →
      list.user.id = list'.user.id := by
  refine ⟨?_, ?_⟩
  · refine
      CacheAside.served_valid OrderListRequest.OwnUserId
        OrderListRequest.OwnOrders ?_ ?_ hRun hOwn
    · intro list choices _
      exact list.ownOrders_handler databaseName choices
    · intro list other key page hList hOther hLookup hStore
        hPage order hMem
      rw [hPage order hMem]
      exact
        OrderListRequest.user_eq_of_usesKey hOther hList
          (Or.inr hStore) (Or.inl hLookup)
  · intro list list' key hList hList' hKey hKey'
    exact
      OrderListRequest.user_eq_of_usesKey hList hList' hKey
        hKey'

/- Alice and bob ask for the same page, one by one. -/
theorem own_orders_of_own_userId_of_listing :
    ∃ history state,
      OrderListRun Listing.databaseName history state ∧
        state.served.length = 2 ∧
        ∀ response ∈ state.served,
          response.1.OwnOrders response.2 := by
  have hFound :=
    Listing.exists_run
      (Listing.labels Listing.askBob ++
        [.finish 0 Listing.still])
      (fun history state =>
        decide (state.served.length = 2) &&
          history.all fun t =>
            decide
              (∀ list ∈ t.label.request?, list.OwnUserId))
      (by decide +kernel)
  rcases hFound with ⟨history, state, hRun, hCheck⟩
  simp only [Bool.and_eq_true, decide_eq_true_eq,
    List.all_eq_true] at hCheck
  have hIsolated := own_orders_of_own_userId hRun hCheck.2
  exact ⟨history, state, hRun, hCheck.1, hIsolated.1⟩

/- Bob names alice as `__userId` and gets her page. -/
theorem not_own_orders :
    ¬ ∀ history state,
      OrderListRun Listing.databaseName history state →
      ∀ response ∈ state.served,
        response.1.OwnOrders response.2 := by
  intro hAlways
  have hFound :=
    Listing.exists_run
      (Listing.labels Listing.askAsAlice)
      (fun _ state =>
        state.served.any fun response =>
          ¬ response.1.OwnOrders response.2)
      (by decide +kernel)
  rcases hFound with ⟨history, state, hRun, hCheck⟩
  rcases List.any_eq_true.mp hCheck with
    ⟨response, hMem, hLeak⟩
  exact
    decide_eq_true_eq.mp hLeak
      (hAlways history state hRun response hMem)

end OrderApi
