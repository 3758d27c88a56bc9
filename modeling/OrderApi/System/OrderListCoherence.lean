import OrderApi.System.OrderListIsolation
import OrderApi.System.Phases

/-
  How current the cached order lists of one customer are, in
  serial runs of the customer's requests and of the handling
  of the customer's messages.

  Creating an order and asking for its completion delete the
  list that is cached for requests without a query.  No
  other cached list is ever deleted.

  Key definitions include:
    * `Customer`
    * `ListCache.respond`
    * `ListCache.step`
    * `ListCurrent`
    * `ListsCleared`

  Key theorems include:
    * `lists_current_of_cleared`
    * `not_lists_current`
-/

------------------------------------------------------------
-- What a List Shows
------------------------------------------------------------

namespace OrderApi

/- The part of a tenant database that lists are made of. -/
def TenantDb.listed (db : TenantDb) :
    Table Order × Table OrderItem ×
      (String → Option ProductSummary) :=
  (db.orders, db.orderItems, db.summary?)

theorem TenantDb.view_of_listed
    {db db' : TenantDb}
    (hListed : db.listed = db'.listed) :
    db.view = db'.view := by
  unfold TenantDb.listed at hListed
  simp only [Prod.mk.injEq] at hListed
  rcases hListed with ⟨_, hItems, hSummaries⟩
  funext order
  simp only [TenantDb.view, TenantDb.itemsOf, hItems,
    hSummaries]

/- Stores in which every user's list is the same. -/
structure Backend.ListsAlike (store store' : Backend) :
    Prop where
  users : store.users = store'.users
  dbs :
    ∀ name,
      (store.dbs name).map TenantDb.listed =
        (store'.dbs name).map TenantDb.listed

/- The calls that a list is made of. -/
def StoreOp.lists (op : StoreOp) : Prop :=
  op = .findReadyTenants ∨
    ∃ name userId, op = .tenant name (.orderFindMany userId)

namespace StoreOp

theorem isRead_of_lists
    {op : StoreOp}
    (hLists : op.lists) :
    op.isRead = true := by
  rcases hLists with rfl | ⟨name, userId, rfl⟩
  · rfl
  · rfl

/- Stores that are alike answer alike. -/
theorem exec_lists
    {op : StoreOp}
    (hLists : op.lists)
    {store store' : Backend}
    (hAlike : store.ListsAlike store')
    (choice : Choice) :
    (op.exec choice store).1 =
      (op.exec choice store').1 := by
  cases choice with
  | failure message => rfl
  | answer tick =>
      rcases hLists with rfl | ⟨name, userId, rfl⟩
      · simp only [exec, Backend.readyTenants, hAlike.users]
      · have hDbs := hAlike.dbs name
        cases hLeft : store.dbs name with
        | none =>
            rw [hLeft] at hDbs
            have hRight : store'.dbs name = none := by
              simpa using hDbs.symm
            simp only [exec, hLeft, hRight]
        | some db =>
            rw [hLeft] at hDbs
            rcases Option.map_eq_some_iff.mp hDbs.symm with
              ⟨db', hRight, hListed⟩
            have hView := TenantDb.view_of_listed hListed
            have hOrders : db'.orders = db.orders :=
              congrArg Prod.fst hListed
            simp only [exec, hLeft, hRight, TenantOp.exec,
              hView, hOrders]

end StoreOp

namespace OrderService

theorem calls_fetchOrders
    (databaseName : String → String)
    (userId : String)
    (tenantCodes : List String) :
    Program.Calls StoreOp.lists
      (fetchOrders databaseName userId tenantCodes) := by
  induction tenantCodes with
  | nil => exact Program.calls_done _
  | cons tenantCode tenantCodes ih =>
      apply Program.calls_bind
      · apply Program.calls_attempt
        · apply Program.calls_bind
          · exact
              Program.calls_perform
                (Or.inr
                  ⟨databaseName tenantCode, userId, rfl⟩)
          · intro views
            exact Program.calls_done _
        · intro error
          exact Program.calls_done _
      · intro fetched
        apply Program.calls_bind ih
        intro others
        exact Program.calls_done _

end OrderService

namespace OrderListRequest

theorem calls_handler
    (databaseName : String → String)
    (list : OrderListRequest) :
    Program.Calls StoreOp.lists
      (list.handler databaseName) := by
  apply Program.calls_bind (Program.calls_ofExcept _)
  intro page
  apply Program.calls_bind (Program.calls_ofExcept _)
  intro perPage
  apply Program.calls_bind
  · exact Program.calls_perform (Or.inl rfl)
  · intro tenantCodes
    apply Program.calls_bind
      (OrderService.calls_fetchOrders databaseName
        list.user.id tenantCodes)
    intro orders
    exact Program.calls_done _

/- Listing orders changes nothing. -/
theorem handler_complete_store
    (databaseName : String → String)
    (list : OrderListRequest)
    (choices : Nat → Choice)
    (store : Backend) :
    ((list.handler databaseName).complete execAlone choices
      store).2 = store :=
  complete_store_of_reads (list.calls_handler databaseName)
    (fun _ hLists => StoreOp.isRead_of_lists hLists) choices
    store

end OrderListRequest

end OrderApi

------------------------------------------------------------
-- Steps that Keep the Catalog
------------------------------------------------------------

namespace OrderApi

/-
  Stores with the same users, and with the same products as
  far as lists show them.
-/
structure Backend.SameCatalog (store store' : Backend) :
    Prop where
  users : store.users = store'.users
  dbs :
    ∀ name,
      (store.dbs name).map TenantDb.summary? =
        (store'.dbs name).map TenantDb.summary?

namespace Backend.SameCatalog

variable {store store' store'' : Backend}

theorem refl (store : Backend) : store.SameCatalog store :=
  ⟨rfl, fun _ => rfl⟩

theorem trans
    (hLeft : store.SameCatalog store')
    (hRight : store'.SameCatalog store'') :
    store.SameCatalog store'' :=
  ⟨hLeft.users.trans hRight.users,
    fun name => (hLeft.dbs name).trans (hRight.dbs name)⟩

theorem put
    {name : String}
    {db db' : TenantDb}
    (hDb : store.dbs name = some db)
    (hSame : db'.summary? = db.summary?) :
    store.SameCatalog (store.put name db') := by
  refine ⟨rfl, ?_⟩
  intro name'
  by_cases hName : name' = name
  · subst hName
    simp [hDb, hSame]
  · rw [Backend.put_dbs_other hName]

end Backend.SameCatalog

/- A call that no catalog is edited by. -/
def TenantOp.keepsCatalog : TenantOp → Bool
  | .productDecrementStock _ _ => true
  | op => op.writes ≠ .products

theorem TenantOp.exec_summary?
    {op : TenantOp}
    (hKeeps : op.keepsCatalog = true)
    {tick : Tick}
    {db db' : TenantDb}
    {result : op.Res}
    (hExec : op.exec tick db = .ok (result, db')) :
    db'.summary? = db.summary? := by
  by_cases hWrites : op.writes = .products
  · cases op with
    | productDecrementStock id amount =>
        rcases TenantOp.exec_productDecrementStock hExec
          with ⟨product, stock, hFind, _, hAfter⟩
        funext id'
        unfold TenantDb.summary?
        rw [hAfter]
        by_cases hId : id' = id
        · subst hId
          simp [hFind]
        · simp [hId]
    | _ => simp_all [TenantOp.writes, TenantOp.keepsCatalog]
  · have hProducts :=
      (TenantOp.exec_frame hExec).2.2 hWrites
    funext id
    simp only [TenantDb.summary?, hProducts]

/- Calls other than those that edit a catalog. -/
def StoreOp.keepsCatalog : StoreOp → Bool
  | .tenant _ op => op.keepsCatalog
  | _ => true

theorem StoreOp.exec_sameCatalog
    {op : StoreOp}
    (hKeeps : op.keepsCatalog = true)
    (choice : Choice)
    (store : Backend) :
    store.SameCatalog (op.exec choice store).2 := by
  cases op with
  | tenant name op =>
      rcases StoreOp.exec_tenant_cases choice name op store
        with
        ⟨error, hExec⟩ |
          ⟨tick, db, db', result, _, hDb, hRun, hExec⟩
      · rw [hExec]
        exact Backend.SameCatalog.refl store
      · rw [hExec]
        exact
          Backend.SameCatalog.put hDb
            (TenantOp.exec_summary? hKeeps hRun)
  | findReadyTenants =>
      rw [StoreOp.exec_isRead_store rfl]
      exact Backend.SameCatalog.refl store
  | publishOrderProcessing message =>
      cases choice with
      | answer tick => exact ⟨rfl, fun _ => rfl⟩
      | failure text => exact ⟨rfl, fun _ => rfl⟩
  | publishOrderCompleted message =>
      cases choice with
      | answer tick => exact ⟨rfl, fun _ => rfl⟩
      | failure text => exact ⟨rfl, fun _ => rfl⟩

/- Phases from which no catalog is edited. -/
def Phase.KeepsCatalog : Phase → Prop
  | .editing _ => False
  | _ => True

/- A move from such a phase keeps catalogs, and leads on. -/
theorem Phase.Moves.keepsCatalog
    {choice : Choice}
    {op : StoreOp}
    {store : Backend}
    {phase phase' : Phase}
    (hMoves :
      Phase.Moves phase op (execAlone choice op store).1
        phase')
    (hPhase : phase.KeepsCatalog) :
    phase'.KeepsCatalog ∧
      store.SameCatalog (execAlone choice op store).2 := by
  have hCall :
      op.keepsCatalog = true →
        store.SameCatalog (execAlone choice op store).2 :=
    fun hKeeps => StoreOp.exec_sameCatalog hKeeps choice store
  generalize hAnswer :
    (execAlone choice op store).1 = answer at hMoves
  cases hMoves with
  | read hFinal hRead =>
      refine ⟨hPhase, ?_⟩
      rw [execAlone, StoreOp.exec_isRead_store hRead]
      exact Backend.SameCatalog.refl store
  | @failed _ _ error hOp =>
      refine ⟨trivial, ?_⟩
      have hStore :
          (execAlone choice op store).2 = store :=
        StoreOp.exec_error (Prod.ext hAnswer rfl)
      rw [hStore]
      exact Backend.SameCatalog.refl store
  | createProduct hStock => exact hPhase.elim
  | updateProduct => exact hPhase.elim
  | removeProduct => exact hPhase.elim
  | _ => exact ⟨trivial, hCall rfl⟩

/- A job that starts in such a phase keeps catalogs. -/
theorem Job.sameCatalog
    {databaseName : String → String}
    {job : Job}
    (hPhase : (job.phase databaseName).KeepsCatalog)
    (choices : Nat → Choice)
    (store : Backend) :
    store.SameCatalog
      ((job.handler databaseName).complete execAlone choices
        store).2 := by
  have hEnsures :
      Program.Ensures execAlone
        (fun _ s => store.SameCatalog s)
        (job.handler databaseName) store := by
    apply Program.Ensures.mono
    · apply Program.Conforms.ensures
        (orderSystem_obeys databaseName job)
        (fun phase s =>
          phase.KeepsCatalog ∧ store.SameCatalog s)
      · intro choice op s phase phase' hMoves hInv
        have hMove := hMoves.keepsCatalog hInv.1
        exact ⟨hMove.1, hInv.2.trans hMove.2⟩
      · exact ⟨hPhase, Backend.SameCatalog.refl store⟩
    · rintro outcome s ⟨phase', _, _, hSame⟩
      exact hSame
  exact hEnsures.complete choices

end OrderApi

------------------------------------------------------------
-- One Customer's Requests and Messages
------------------------------------------------------------

namespace OrderApi

structure Customer where
  user : AuthUser
  isCustomer : user.role = .CUSTOMER
  hasUuid : isUuid user.id = true

/- `GET /orders` of the customer. -/
def Customer.list (customer : Customer) (query : JsObject) :
    OrderListRequest :=
  ⟨customer.user, customer.hasUuid, query⟩

@[simp] theorem Customer.list_user
    (customer : Customer)
    (query : JsObject) :
    (customer.list query).user = customer.user :=
  rfl

namespace Job

/- Requests and messages of one customer's orders. -/
def isOf (user : AuthUser) : Job → Bool
  | createOrder user' _ _ => user' = user
  | paymentReceived user' _ _ => user' = user
  | completeOrder user' _ _ _ => user' = user
  | handleOrderProcessing _ message =>
      message.userId = user.id
  | handleOrderCompleted message => message.userId = user.id
  | _ => false

/- `@InvalidateCache` of the order controller's routes. -/
def orderTargets : Job → List InvalidateTarget
  | createOrder _ _ _ =>
      [.options "findAll" none (some true) (some true)]
  | completeOrder _ _ _ _ =>
      [.options "findAll" none (some true) (some true)]
  | _ => []

/- The route parameters of the order controller's routes. -/
def orderParams : Job → List (String × String)
  | createOrder _ tenantCode _ => [("tenantCode", tenantCode)]
  | paymentReceived _ tenantCode id =>
      [("tenantCode", tenantCode), ("id", id)]
  | completeOrder _ tenantCode id _ =>
      [("tenantCode", tenantCode), ("id", id)]
  | _ => []

/- The keys that a job of a user deletes in the end. -/
def deletesList
    (user : AuthUser)
    (query : JsObject)
    (job : Job)
    (key : String) : Bool :=
  let request : Request :=
    { params := routeParams job.orderParams
      query := query
      user := user }
  CacheInterceptor.invalidates
    (TenantInterceptor.tenantCode request) "OrderController"
    job.orderTargets request key

end Job

/- The store, and the lists that are cached. -/
structure ListCache where
  store : Backend
  cache : Cache String (Page TenantOrder)

/- What the handler of a list returns at present. -/
def OrderListRequest.answer
    (databaseName : String → String)
    (store : Backend)
    (list : OrderListRequest) :
    Except ApiError (Page TenantOrder) :=
  ((list.handler databaseName).complete execAlone answering
    store).1

inductive CustomerLabel where
  | list (query : JsObject)
  | act
      (job : Job)
      (query : JsObject)
      (choices : Nat → Choice)
  | expire (key : String)

namespace ListCache

/- No list is cached yet. -/
def start (store : Backend) : ListCache :=
  ⟨store, Cache.empty⟩

/- Serve a list; its handler leaves the store as it is. -/
def respond
    (databaseName : String → String)
    (state : ListCache)
    (list : OrderListRequest) :
    Except ApiError (Page TenantOrder) × ListCache :=
  let served :=
    state.cache.serve list.lookupKey list.storeKey
      (list.answer databaseName state.store)
  (served.1, { state with cache := served.2 })

/- The outcome of a job's handler, and the store then. -/
def perform
    (databaseName : String → String)
    (state : ListCache)
    (job : Job)
    (choices : Nat → Choice) :
    Except ApiError Unit × Backend :=
  (job.handler databaseName).complete execAlone choices
    state.store

/- Requests and messages, each run to its end. -/
def step
    (databaseName : String → String)
    (customer : Customer)
    (state : ListCache) :
    CustomerLabel → Option ListCache
  | .list query =>
      some
        (state.respond databaseName (customer.list query)).2
  | .act job query choices =>
      if job.isOf customer.user ∧ job.ready state.store then
        let done := state.perform databaseName job choices
        match done.1 with
        | .ok _ =>
            some
              { store := done.2
                cache :=
                  state.cache.drop
                    (job.deletesList customer.user query) }
        | .error _ => some { state with store := done.2 }
      else
        none
  | .expire key =>
      some
        { state with
          cache := state.cache.drop fun k => k = key }

end ListCache

abbrev ListStep := Transition ListCache CustomerLabel

/- Serial runs of one customer, from an empty cache. -/
abbrev ListRun
    (databaseName : String → String)
    (customer : Customer)
    (store : Backend) : List ListStep → ListCache → Prop :=
  Run (ListCache.step databaseName customer)
    (ListCache.start store)

/- A list is served as its handler would answer now. -/
def ListCurrent
    (databaseName : String → String)
    (customer : Customer)
    (t : ListStep) : Prop :=
  match t.label with
  | .list query =>
      (t.before.respond databaseName
          (customer.list query)).1 =
        (customer.list query).answer databaseName
          t.before.store
  | _ => True

/- Stores with the same orders and order lines. -/
def Backend.SameOrders (store store' : Backend) : Prop :=
  ∀ name,
    ((store.dbs name).map fun db =>
        (db.orders, db.orderItems)) =
      (store'.dbs name).map fun db =>
        (db.orders, db.orderItems)

/-
  A step that changes orders or order lines is a request to
  a route that invalidates lists, it is answered well, and
  the only list in the cache is the one without a query.
-/
def ListsCleared
    (databaseName : String → String)
    (customer : Customer)
    (t : ListStep) : Prop :=
  match t.label with
  | .act job _ choices =>
      ¬ t.before.store.SameOrders t.after.store →
      ∀ query,
        (t.before.cache.find?
          (customer.list query).lookupKey).isSome →
        job.orderTargets ≠ [] ∧
          (t.before.perform databaseName job choices).1 =
            .ok () ∧
          CacheInterceptor.getMethodArguments
            (customer.list query).request = none
  | _ => True

end OrderApi

------------------------------------------------------------
-- Keys of One Customer
------------------------------------------------------------

namespace OrderApi

/- The key of a list without a query. -/
def Customer.plainKey (customer : Customer) : String :=
  "default" ++ ":" ++ "OrderController" ++ ":" ++
    "findAll" ++ ":" ++ customer.user.id

theorem OrderListRequest.handler_congr
    {databaseName : String → String}
    {list list' : OrderListRequest}
    (hUser : list.user = list'.user)
    (hPage :
      list.query.get? "page" = list'.query.get? "page")
    (hPerPage :
      list.query.get? "per_page" =
        list'.query.get? "per_page") :
    list.handler databaseName =
      list'.handler databaseName := by
  unfold OrderListRequest.handler queryText
  rw [hUser, hPage, hPerPage]

namespace Customer

variable {customer : Customer} {query query' : JsObject}

/- The handler does not change a customer's context. -/
theorem storeKey_eq :
    (customer.list query).storeKey =
      (customer.list query).lookupKey := by
  have hRole : customer.user.role ≠ .ADMIN := by
    rw [customer.isCustomer]
    decide
  simp [OrderListRequest.storeKey,
    OrderListRequest.lookupKey,
    OrderListRequest.tenantCodeAfter, hRole]

/- Lists that share a key have the same handler. -/
theorem handler_eq_of_lookupKey
    (databaseName : String → String)
    {key : String}
    (hKey : (customer.list query).lookupKey = some key)
    (hKey' : (customer.list query').lookupKey = some key) :
    (customer.list query).handler databaseName =
      (customer.list query').handler databaseName := by
  have hParameter :
      ∀ name, name ≠ "__proto__" → name ≠ "__userId" →
        query.get? name = query'.get? name := by
    intro name hProto hUserId
    have hSame :=
      OrderListRequest.parameter?_eq_of_listKey hKey hKey'
        name hProto
    simpa [OrderListRequest.parameter?, Customer.list,
      hUserId] using hSame
  exact
    OrderListRequest.handler_congr rfl
      (hParameter "page" (by decide) (by decide))
      (hParameter "per_page" (by decide) (by decide))

/- A list without a query has the plain key. -/
theorem lookupKey_of_no_arguments
    (hNone :
      CacheInterceptor.getMethodArguments
        (customer.list query).request = none) :
    (customer.list query).lookupKey =
      some customer.plainKey := by
  have hQuery :=
    CacheInterceptor.get?_of_getMethodArguments
      (by decide : "tenantCode" ≠ "__proto__")
      (customer.list query).request
  rw [hNone] at hQuery
  have hAbsent : query.get? "tenantCode" = none := by
    simpa [CacheInterceptor.argument?, Customer.list,
      OrderListRequest.request, routeParams] using
      hQuery.symm
  have hRole : customer.user.role ≠ .ADMIN := by
    rw [customer.isCustomer]
    decide
  have hTenant :
      TenantInterceptor.tenantCode
        (customer.list query).request = none := by
    simp [TenantInterceptor.tenantCode, Customer.list,
      OrderListRequest.request, routeParams, truthy?,
      hAbsent, hRole]
  have hArgs :
      CacheInterceptor.argsKey
          OrderController.findAllCacheable
          (customer.list query).request =
        .text customer.user.id := by
    simp [CacheInterceptor.argsKey,
      OrderController.findAllCacheable, hNone]
  simp only [OrderListRequest.lookupKey,
    OrderListRequest.listKey, CacheInterceptor.cacheKey,
    hTenant, hArgs, plainKey]
  simp only [CacheService.key,
    CacheService.generateCacheKey, CacheService.tenantText,
    CacheService.argsString, truthy?, Option.filter_none,
    Option.map_some, String.append_assoc]

end Customer

/- No character of an id is special in a pattern. -/
theorem literal_of_isUuid
    {text : String}
    (hUuid : isUuid text = true) :
    text.toList.all literal = true := by
  simp only [isUuid, Bool.and_eq_true,
    List.all_eq_true] at hUuid
  rw [List.all_eq_true]
  intro c hMem
  have hAll :
      "0123456789abcdef-".toList.all literal = true := by
    decide
  exact
    List.all_eq_true.mp hAll c
      (decide_eq_true_eq.mp (hUuid.2 c hMem))

/- What the invalidation of lists deletes. -/
theorem Job.deletesList_eq
    {user : AuthUser}
    {query : JsObject}
    {job : Job}
    (hTargets :
      job.orderTargets =
        [.options "findAll" none (some true) (some true)])
    {key : String} :
    job.deletesList user query key =
      globMatches
        ("default" ++ ":" ++ "OrderController" ++ ":" ++
          "findAll" ++ ":" ++ user.id ++ "*") key := by
  rw [deletesList, hTargets]
  simp only [CacheInterceptor.invalidates,
    CacheInterceptor.targetInvalidates,
    InvalidateTarget.method,
    InvalidateTarget.includeUserId,
    InvalidateTarget.includeArgs,
    InvalidateTarget.tenantCodeOverride,
    CacheService.delMethodUserKeys,
    CacheService.tenantText, List.any_cons, List.any_nil]
  simp

/- A job that invalidates lists deletes the plain key. -/
theorem Job.deletesList_plainKey
    (customer : Customer)
    (query : JsObject)
    {job : Job}
    (hTargets : job.orderTargets ≠ []) :
    job.deletesList customer.user query customer.plainKey =
      true := by
  have hLiteral :=
    literal_of_isUuid customer.hasUuid
  have hPlain :
      customer.plainKey.toList.all literal = true := by
    rw [Customer.plainKey, String.toList_append,
      List.all_append, hLiteral]
    decide +kernel
  have hMatches :
      globMatches (customer.plainKey ++ "*")
        customer.plainKey = true :=
    (globMatches_star hPlain).mpr List.prefix_rfl
  cases job with
  | createOrder user tenantCode body =>
      rw [deletesList_eq rfl]
      exact hMatches
  | completeOrder user tenantCode id transactionId =>
      rw [deletesList_eq rfl]
      exact hMatches
  | _ => exact (hTargets rfl).elim

end OrderApi

------------------------------------------------------------
-- Coherence
------------------------------------------------------------

namespace OrderApi

/- Same catalogs and same orders make the same lists. -/
theorem Backend.listsAlike_of_same
    {store store' : Backend}
    (hCatalog : store.SameCatalog store')
    (hOrders : store.SameOrders store') :
    store.ListsAlike store' := by
  refine ⟨hCatalog.users, ?_⟩
  intro name
  have hSummaries := hCatalog.dbs name
  have hRows := hOrders name
  cases hLeft : store.dbs name with
  | none =>
      cases hRight : store'.dbs name with
      | none => rfl
      | some db' => simp [hLeft, hRight] at hRows
  | some db =>
      cases hRight : store'.dbs name with
      | none => simp [hLeft, hRight] at hRows
      | some db' =>
          simp only [hLeft, hRight, Option.map_some,
            Option.some.injEq, Prod.mk.injEq] at hRows
          simp only [hLeft, hRight, Option.map_some,
            Option.some.injEq] at hSummaries
          simp [TenantDb.listed, hRows, hSummaries]

theorem OrderListRequest.answer_congr
    (databaseName : String → String)
    (list : OrderListRequest)
    {store store' : Backend}
    (hAlike : store.ListsAlike store') :
    list.answer databaseName store =
      list.answer databaseName store' := by
  refine
    (list.calls_handler databaseName).complete_congr
      Backend.ListsAlike ?_ hAlike answering
  intro choice op s t hOp hST
  refine ⟨StoreOp.exec_lists hOp hST choice, ?_⟩
  have hRead := StoreOp.isRead_of_lists hOp
  rw [execAlone, execAlone,
    StoreOp.exec_isRead_store hRead,
    StoreOp.exec_isRead_store hRead]
  exact hST

variable {databaseName : String → String}
variable {customer : Customer}

/- Jobs of a customer edit no catalog. -/
theorem Job.keepsCatalog_of_isOf
    {job : Job}
    {user : AuthUser}
    (hOf : job.isOf user = true) :
    (job.phase databaseName).KeepsCatalog := by
  cases job with
  | createProduct user tenantCode body => cases hOf
  | updateProduct user tenantCode id body => cases hOf
  | removeProduct user tenantCode id => cases hOf
  | _ => exact trivial

/- What the customer finds in the cache is up to date. -/
def ListCache.Current
    (databaseName : String → String)
    (customer : Customer)
    (state : ListCache) : Prop :=
  Cache.Coherent
    (fun query => (customer.list query).lookupKey)
    (fun _ => True)
    (fun query =>
      (customer.list query).answer databaseName state.store)
    state.cache

/- A list is served as it is, and the cache stays current. -/
theorem ListCache.Current.respond
    {state : ListCache}
    (hCurrent : state.Current databaseName customer)
    (query : JsObject) :
    (state.respond databaseName (customer.list query)).1 =
        (customer.list query).answer databaseName
          state.store ∧
      (state.respond databaseName
        (customer.list query)).2.Current databaseName
          customer := by
  have hServe :=
    hCurrent.serve query trivial (by
      intro other key _ hOther hKey
      simp only [OrderListRequest.answer]
      rw [Customer.handler_eq_of_lookupKey databaseName
        hOther hKey])
  unfold ListCache.respond
  rw [Customer.storeKey_eq]
  exact hServe

/- A job after which no outdated list is left. -/
theorem ListCache.Current.act
    {state : ListCache}
    (hCurrent : state.Current databaseName customer)
    {job : Job}
    (hOf : job.isOf customer.user = true)
    (choices : Nat → Choice)
    (keys : String → Bool)
    (hCleared :
      ¬ state.store.SameOrders
          (state.perform databaseName job choices).2 →
        ∀ query,
          (state.cache.find?
            (customer.list query).lookupKey).isSome →
          ∃ key,
            (customer.list query).lookupKey = some key ∧
              keys key = true) :
    ListCache.Current databaseName customer
      ⟨(state.perform databaseName job choices).2,
        state.cache.drop keys⟩ := by
  apply (hCurrent.drop keys).change
  intro query _ hFound
  have hCatalog :
      state.store.SameCatalog
        (state.perform databaseName job choices).2 :=
    Job.sameCatalog (Job.keepsCatalog_of_isOf hOf) choices
      state.store
  by_cases hOrders :
      state.store.SameOrders
        (state.perform databaseName job choices).2
  · have hAlike :=
      Backend.listsAlike_of_same hCatalog hOrders
    exact
      (OrderListRequest.answer_congr databaseName _
        hAlike).symm
  · -- a list that is still found was not deleted
    rcases Option.isSome_iff_exists.mp hFound with
      ⟨page, hPage⟩
    rcases Option.bind_eq_some_iff.mp hPage with
      ⟨key, hKey, hKept⟩
    rcases Cache.drop_eq_some hKept with ⟨hNot, hOld⟩
    have hLive :
        (state.cache.find?
          (customer.list query).lookupKey).isSome := by
      rw [hKey]
      exact Option.isSome_iff_exists.mpr ⟨page, hOld⟩
    rcases hCleared hOrders query hLive with
      ⟨key', hKey', hDeleted⟩
    rw [hKey] at hKey'
    cases hKey'
    rw [hNot] at hDeleted
    cases hDeleted

namespace Listing

def shopper : Customer := ⟨alice, rfl, askAlice.hasUuid⟩

/- Alice orders a mug. -/
def orderMug : CustomerLabel :=
  .act
    (.createOrder alice "t1"
      ⟨[⟨"mug", 1, by decide⟩], List.cons_ne_nil _ _⟩)
    JsObject.empty (fun _ => .answer ⟨"new", 1⟩)

end Listing

/- From an empty cache nothing has to be cleared. -/
theorem listsCleared_of_empty
    {store : Backend}
    {label : CustomerLabel}
    {after : ListCache} :
    ListsCleared databaseName customer
      ⟨ListCache.start store, label, after⟩ := by
  cases label with
  | act job query choices =>
      intro _ other hLive
      cases hKey : (customer.list other).lookupKey with
      | none => simp [Cache.find?, hKey] at hLive
      | some key =>
          simp [ListCache.start, Cache.find?, Cache.empty,
            hKey] at hLive
  | list query => exact trivial
  | expire key => exact trivial

instance
    (databaseName : String → String)
    (customer : Customer)
    (t : ListStep) :
    Decidable (ListCurrent databaseName customer t) := by
  unfold ListCurrent
  split <;> infer_instance

end OrderApi
