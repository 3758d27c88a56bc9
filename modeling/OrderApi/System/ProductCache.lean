import OrderApi.Product.ProductRequests
import OrderApi.System.OrderListIsolation
import OrderApi.System.OrderSystem

/-
  The cached product routes: when reads are served as their
  handlers would answer, first in concurrent runs of reads
  alone, then in serial runs of reads, writes and payments.

  Key definitions include:
    * `productReads`
    * `ProductWrite`
    * `ProductCache.step`
    * `ProductCurrent`
    * `ProductsCleared`

  Key theorems include:
    * `reads_transparent_of_idAgrees`
    * `not_reads_transparent`
    * `products_current_of_cleared`
    * `not_products_current`
-/

------------------------------------------------------------
-- Reads Alone
------------------------------------------------------------

namespace OrderApi

/- Product reads behind the cache, on a store at rest. -/
def productReads
    (databaseName : String → String)
    (store : Backend) :
    CacheAside ProductRead String Unit ApiError
      ProductBody where
  lookupKey := ProductRead.cacheKey
  storeKey := ProductRead.cacheKey
  answer := fun _ read => read.answer databaseName store

abbrev ProductReadState :=
  CacheAside.State ProductRead String ApiError ProductBody

abbrev ProductReadLabel :=
  CacheAside.Label ProductRead String Unit

/- Runs of product reads, from an empty cache. -/
abbrev ProductReadRun
    (databaseName : String → String)
    (store : Backend) :
    List (Transition ProductReadState ProductReadLabel) →
      ProductReadState → Prop :=
  Run (productReads databaseName store).step
    CacheAside.start

namespace ProductRead

/- Reads that share a key are answered alike. -/
theorem answer_eq_of_cacheKey
    (databaseName : String → String)
    (store : Backend)
    {read read' : ProductRead}
    (hId : read.IdAgrees)
    (hId' : read'.IdAgrees)
    {key : String}
    (hKey : read.cacheKey = some key)
    (hKey' : read'.cacheKey = some key) :
    read.answer databaseName store =
      read'.answer databaseName store := by
  rw [answer, answer,
    handler_eq_of_cacheKey databaseName hId hId' hKey hKey']

end ProductRead

/-
  In runs of reads whose queries have no id but that of the
  path, every read is served as its handler would answer;
  and such reads with the same key have the same answer.
-/
theorem reads_transparent_of_idAgrees
    {databaseName : String → String}
    {store : Backend}
    {history :
      List (Transition ProductReadState ProductReadLabel)}
    {state : ProductReadState}
    (hRun :
      ProductReadRun databaseName store history state)
    (hId :
      ∀ t ∈ history, ∀ read ∈ t.label.request?,
        read.IdAgrees) :
    (∀ response ∈ state.served,
      response.2 =
        response.1.answer databaseName store) ∧
    ∀ (read read' : ProductRead) (key : String),
      read.IdAgrees → read'.IdAgrees →
      read.cacheKey = some key →
      read'.cacheKey = some key →
      read.answer databaseName store =
        read'.answer databaseName store := by
  refine ⟨?_, ?_⟩
  · refine
      CacheAside.served_valid ProductRead.IdAgrees
        (fun read response =>
          response = read.answer databaseName store)
        ?_ ?_ hRun hId
    · intro read choice _
      rfl
    · intro read other key body hRead hOther hLookup hStore
        hBody
      rw [hBody]
      exact
        ProductRead.answer_eq_of_cacheKey databaseName store
          hOther hRead hStore hLookup
  · intro read read' key hRead hRead' hKey hKey'
    exact
      ProductRead.answer_eq_of_cacheKey databaseName store
        hRead hRead' hKey hKey'

namespace Listing

def t1 : PathParam := ⟨"t1", by decide⟩

def mugId : PathParam := ⟨"mug", by decide⟩

def cupId : PathParam := ⟨"cup", by decide⟩

def findMug (query : JsObject) : ProductRead :=
  .findOne alice t1 mugId query

def findCup : ProductRead :=
  .findOne bob t1 cupId JsObject.empty

/- Alice reads the mug, and then bob reads the cup. -/
def readLabels (query : JsObject) : List ProductReadLabel :=
  [.arrive (findMug query), .finish 0 (), .save 0,
    .arrive findCup]

/- A run of product reads that passes a check. -/
theorem exists_readRun
    (labels : List ProductReadLabel)
    (check :
      List (Transition ProductReadState ProductReadLabel) →
        ProductReadState → Bool)
    (hReplay :
      (replay (productReads databaseName store).step labels
          [] CacheAside.start).any
        (fun run => check run.1 run.2) = true) :
    ∃ history state,
      ProductReadRun databaseName store history state ∧
        check history state = true :=
  Run.exists_of_replay labels check hReplay

end Listing

/- Alice reads the mug twice. -/
theorem reads_transparent_of_idAgrees_of_listing :
    ∃ history state,
      ProductReadRun Listing.databaseName Listing.store
          history state ∧
        state.served.length = 2 ∧
        ∀ response ∈ state.served,
          response.2 =
            response.1.answer Listing.databaseName
              Listing.store := by
  have hFound :=
    Listing.exists_readRun
      [.arrive (Listing.findMug JsObject.empty),
        .finish 0 (), .save 0,
        .arrive (Listing.findMug JsObject.empty)]
      (fun history state =>
        decide (state.served.length = 2) &&
          history.all fun t =>
            decide
              (∀ read ∈ t.label.request?, read.IdAgrees))
      (by decide +kernel)
  rcases hFound with ⟨history, state, hRun, hCheck⟩
  simp only [Bool.and_eq_true, decide_eq_true_eq,
    List.all_eq_true] at hCheck
  have hTransparent :=
    reads_transparent_of_idAgrees hRun hCheck.2
  exact
    ⟨history, state, hRun, hCheck.1, hTransparent.1⟩

/- Alice reads the mug with `?id=cup`; bob gets the mug. -/
theorem not_reads_transparent :
    ¬ ∀ history state,
      ProductReadRun Listing.databaseName Listing.store
        history state →
      ∀ response ∈ state.served,
        response.2 =
          response.1.answer Listing.databaseName
            Listing.store := by
  intro hAlways
  have hFound :=
    Listing.exists_readRun
      (Listing.readLabels
        (JsObject.empty.set "id" (.str "cup")))
      (fun _ state =>
        state.served.any fun response =>
          ¬ response.2 =
            response.1.answer Listing.databaseName
              Listing.store)
      (by decide +kernel)
  rcases hFound with ⟨history, state, hRun, hCheck⟩
  rcases List.any_eq_true.mp hCheck with
    ⟨response, hMem, hWrong⟩
  exact
    decide_eq_true_eq.mp hWrong
      (hAlways history state hRun response hMem)

end OrderApi

------------------------------------------------------------
-- What a Read Reads
------------------------------------------------------------

namespace OrderApi

/- The product rows that a read is answered from. -/
inductive ProductRows where
  | all (products : Option (Table Product))
  | one (product : Option (Option Product))

namespace ProductRead

def rows
    (databaseName : String → String)
    (store : Backend) : ProductRead → ProductRows
  | findAll _ tenantCode _ =>
      .all
        ((store.dbs (databaseName tenantCode.text)).map
          TenantDb.products)
  | findOne _ tenantCode id _ =>
      .one
        ((store.dbs (databaseName tenantCode.text)).map
          fun db => db.products.find? id.text)

/- The calls that a read is answered by. -/
def calls
    (databaseName : String → String)
    (op : StoreOp) : ProductRead → Prop
  | findAll _ tenantCode _ =>
      op = .tenant (databaseName tenantCode.text)
          .productCount ∨
        ∃ skip take,
          op = .tenant (databaseName tenantCode.text)
            (.productFindMany skip take)
  | findOne _ tenantCode id _ =>
      op = .tenant (databaseName tenantCode.text)
        (.productFindUnique id.text)

variable {databaseName : String → String}

theorem isRead_of_calls
    {read : ProductRead}
    {op : StoreOp}
    (hOp : read.calls databaseName op) :
    op.isRead = true := by
  cases read with
  | findAll user tenantCode query =>
      rcases hOp with rfl | ⟨skip, take, rfl⟩
      · rfl
      · rfl
  | findOne user tenantCode id query =>
      cases hOp
      rfl

/- Equal rows are read alike. -/
theorem exec_of_rows_eq
    {read : ProductRead}
    {op : StoreOp}
    (hOp : read.calls databaseName op)
    {store store' : Backend}
    (hRows :
      read.rows databaseName store =
        read.rows databaseName store')
    (choice : Choice) :
    (op.exec choice store).1 =
      (op.exec choice store').1 := by
  cases choice with
  | failure message => cases op <;> rfl
  | answer tick =>
      cases read with
      | findAll user tenantCode query =>
          simp only [rows, ProductRows.all.injEq] at hRows
          rcases hOp with rfl | ⟨skip, take, rfl⟩
          · cases hLeft :
                store.dbs (databaseName tenantCode.text) <;>
              cases hRight :
                store'.dbs (databaseName tenantCode.text) <;>
              simp_all [StoreOp.exec, TenantOp.exec]
          · cases hLeft :
                store.dbs (databaseName tenantCode.text) <;>
              cases hRight :
                store'.dbs (databaseName tenantCode.text) <;>
              simp_all [StoreOp.exec, TenantOp.exec]
      | findOne user tenantCode id query =>
          simp only [rows, ProductRows.one.injEq] at hRows
          cases hOp
          cases hLeft :
              store.dbs (databaseName tenantCode.text) <;>
            cases hRight :
              store'.dbs (databaseName tenantCode.text) <;>
            simp_all [StoreOp.exec, TenantOp.exec]

theorem calls_mapMissingDatabase
    {α : Type}
    {P : StoreOp → Prop}
    {tenantCode : String}
    {handler : Handler α}
    (hCalls : Program.Calls P handler) :
    Program.Calls P
      (mapMissingDatabase tenantCode handler) := by
  apply Program.calls_attempt hCalls
  intro error
  split
  · exact Program.calls_fail _
  · exact Program.calls_fail _

theorem calls_handler
    (databaseName : String → String)
    (read : ProductRead) :
    Program.Calls
      (fun op => read.calls databaseName op)
      (read.handler databaseName) := by
  cases read with
  | findAll user tenantCode query =>
      apply Program.calls_bind (Program.calls_ofExcept _)
      intro page
      apply Program.calls_bind (Program.calls_ofExcept _)
      intro perPage
      apply Program.calls_bind
      · apply calls_mapMissingDatabase
        apply Program.calls_bind
        · exact Program.calls_perform (Or.inl rfl)
        · intro total
          apply Program.calls_bind
          · exact
              Program.calls_perform (Or.inr ⟨_, _, rfl⟩)
          · intro data
            exact Program.calls_done _
      · intro products
        exact Program.calls_done _
  | findOne user tenantCode id query =>
      apply Program.calls_bind
      · apply calls_mapMissingDatabase
        apply Program.calls_bind
        · exact Program.calls_perform rfl
        · intro product
          cases product with
          | none => exact Program.calls_fail _
          | some product => exact Program.calls_done _
      · intro product
        exact Program.calls_done _

/- Reading products changes nothing. -/
theorem handler_complete_store
    (read : ProductRead)
    (choices : Nat → Choice)
    (store : Backend) :
    ((read.handler databaseName).complete execAlone choices
      store).2 = store :=
  complete_store_of_reads (read.calls_handler databaseName)
    (fun _ hOp => isRead_of_calls hOp) choices store

theorem answer_congr
    {read : ProductRead}
    {store store' : Backend}
    (hRows :
      read.rows databaseName store =
        read.rows databaseName store') :
    read.answer databaseName store =
      read.answer databaseName store' := by
  refine
    (read.calls_handler databaseName).complete_congr
      (fun s t =>
        read.rows databaseName s = read.rows databaseName t)
      ?_ hRows answering
  intro choice op s t hOp hST
  refine ⟨exec_of_rows_eq hOp hST choice, ?_⟩
  have hRead := isRead_of_calls hOp
  rw [execAlone, execAlone,
    StoreOp.exec_isRead_store hRead,
    StoreOp.exec_isRead_store hRead]
  exact hST

end ProductRead

end OrderApi

------------------------------------------------------------
-- Reads, Writes and Payments
------------------------------------------------------------

namespace OrderApi

/- The requests that change products. -/
inductive ProductWrite where
  | create
      (user : AuthUser)
      (tenantCode : PathParam)
      (query : JsObject)
      (body : CreateProductDto)
  | update
      (user : AuthUser)
      (tenantCode id : PathParam)
      (query : JsObject)
      (body : UpdateProductDto)
  | remove
      (user : AuthUser)
      (tenantCode id : PathParam)
      (query : JsObject)
  | paymentReceived
      (user : AuthUser)
      (tenantCode id : PathParam)
      (query : JsObject)

namespace ProductWrite

def tenantCode : ProductWrite → PathParam
  | create _ tenantCode _ _ => tenantCode
  | update _ tenantCode _ _ _ => tenantCode
  | remove _ tenantCode _ _ => tenantCode
  | paymentReceived _ tenantCode _ _ => tenantCode

def job : ProductWrite → Job
  | create user tenantCode _ body =>
      .createProduct user tenantCode.text body
  | update user tenantCode id _ body =>
      .updateProduct user tenantCode.text id.text body
  | remove user tenantCode id _ =>
      .removeProduct user tenantCode.text id.text
  | paymentReceived user tenantCode id _ =>
      .paymentReceived user tenantCode.text id.text

def request : ProductWrite → Request
  | create user tenantCode query _ =>
      { params := routeParams [("tenantCode", tenantCode.text)]
        query := query
        user := user }
  | update user tenantCode id query _
  | remove user tenantCode id query
  | paymentReceived user tenantCode id query =>
      { params :=
          routeParams
            [("tenantCode", tenantCode.text), ("id", id.text)]
        query := query
        user := user }

/- The methods that `@InvalidateCache` of a route names. -/
def methods : ProductWrite → List String
  | create _ _ _ _ => ["findAll"]
  | update _ _ _ _ _ => ["findAll", "findOne"]
  | remove _ _ _ _ => ["findAll", "findOne"]
  | paymentReceived _ _ _ _ => []

def controllerName : ProductWrite → String
  | paymentReceived _ _ _ _ => "OrderController"
  | _ => "ProductController"

/- The keys that a write deletes in the end. -/
def deletes (write : ProductWrite) (key : String) : Bool :=
  CacheInterceptor.invalidates
    (TenantInterceptor.tenantCode write.request)
    write.controllerName (write.methods.map .name)
    write.request key

end ProductWrite

/- The store, and the product responses that are cached. -/
structure ProductCache where
  store : Backend
  cache : Cache String ProductBody

inductive ProductLabel where
  | read (read : ProductRead)
  | write
      (write : ProductWrite)
      (choices : Nat → Choice)
  | expire (key : String)

namespace ProductCache

/- Nothing is cached yet. -/
def start (store : Backend) : ProductCache :=
  ⟨store, Cache.empty⟩

/- Serve a read; its handler leaves the store as it is. -/
def respond
    (databaseName : String → String)
    (state : ProductCache)
    (read : ProductRead) :
    Except ApiError ProductBody × ProductCache :=
  let served :=
    state.cache.serve read.cacheKey read.cacheKey
      (read.answer databaseName state.store)
  (served.1, { state with cache := served.2 })

/- The outcome of a write's handler, and the store then. -/
def perform
    (databaseName : String → String)
    (state : ProductCache)
    (write : ProductWrite)
    (choices : Nat → Choice) :
    Except ApiError Unit × Backend :=
  (write.job.handler databaseName).complete execAlone choices
    state.store

/- Requests, each run to its end. -/
def step
    (databaseName : String → String)
    (state : ProductCache) :
    ProductLabel → Option ProductCache
  | .read read => some (state.respond databaseName read).2
  | .write write choices =>
      if write.job.ready state.store then
        let done := state.perform databaseName write choices
        match done.1 with
        | .ok _ =>
            some
              { store := done.2
                cache := state.cache.drop write.deletes }
        | .error _ => some { state with store := done.2 }
      else
        none
  | .expire key =>
      some
        { state with
          cache := state.cache.drop fun k => k = key }

end ProductCache

abbrev ProductStep := Transition ProductCache ProductLabel

/- Serial runs of product requests, from an empty cache. -/
abbrev ProductRun
    (databaseName : String → String)
    (store : Backend) :
    List ProductStep → ProductCache → Prop :=
  Run (ProductCache.step databaseName)
    (ProductCache.start store)

/- A read is served as its handler would answer now. -/
def ProductCurrent
    (databaseName : String → String)
    (t : ProductStep) : Prop :=
  match t.label with
  | .read read =>
      (t.before.respond databaseName read).1 =
        read.answer databaseName t.before.store
  | _ => True

/-
  The query of a read has no id but that of the path.  And
  when a write changes rows that a cached read is answered
  from, then the read is of a method that the route of the
  write invalidates, its path spells the tenant code alike,
  and its merged parameters are those of the write.
-/
def ProductsCleared
    (databaseName : String → String)
    (t : ProductStep) : Prop :=
  match t.label with
  | .read read => read.IdAgrees
  | .write write _ =>
      ∀ read : ProductRead, read.IdAgrees →
        (t.before.cache.find? read.cacheKey).isSome →
        read.rows databaseName t.before.store ≠
          read.rows databaseName t.after.store →
        read.methodName ∈ write.methods ∧
          read.tenantCode.text = write.tenantCode.text ∧
          CacheInterceptor.getMethodArguments read.request =
            CacheInterceptor.getMethodArguments write.request
  | .expire _ => True

end OrderApi

------------------------------------------------------------
-- Writes are All or Nothing
------------------------------------------------------------

namespace OrderApi

/- A handler that fails has changed nothing. -/
def AllOrNothing
    {α : Type}
    (store : Backend)
    (outcome : Except ApiError α)
    (store' : Backend) : Prop :=
  (∃ value, outcome = .ok value) ∨ store' = store

variable {α β : Type} {store : Backend}

theorem ensures_prisma
    (db : String)
    (op : TenantOp) :
    Program.Ensures execAlone (AllOrNothing store)
      (prisma db op) store := by
  apply Program.ensures_perform (StoreOp.tenant db op)
  intro choice
  cases hExec :
      execAlone choice (StoreOp.tenant db op) store with
  | mk outcome store' =>
      cases outcome with
      | ok value => exact Or.inl ⟨value, rfl⟩
      | error error =>
          exact Or.inr (StoreOp.exec_error hExec)

theorem ensures_mapMissingDatabase
    {tenantCode : String}
    {handler : Handler α}
    (hHandler :
      Program.Ensures execAlone (AllOrNothing store) handler
        store) :
    Program.Ensures execAlone (AllOrNothing store)
      (mapMissingDatabase tenantCode handler) store := by
  apply Program.ensures_attempt
  apply hHandler.mono
  intro outcome store' hOutcome
  cases outcome with
  | ok value => exact Or.inl ⟨value, rfl⟩
  | error error =>
      have hStore : store' = store := by
        rcases hOutcome with ⟨value, hValue⟩ | hStore
        · cases hValue
        · exact hStore
      by_cases hText : includes error.message "does not exist"
      · simp only [hText, if_true]
        exact Or.inr hStore
      · simp only [hText]
        exact Or.inr hStore

/- Reading first does not matter. -/
theorem ensures_bind_of_reads
    {P : StoreOp → Prop}
    {handler : Handler β}
    {next : β → Handler α}
    (hCalls : Program.Calls P handler)
    (hReads : ∀ op, P op → op.isRead = true)
    (hNext :
      ∀ value,
        Program.Ensures execAlone (AllOrNothing store)
          (next value) store) :
    Program.Ensures execAlone (AllOrNothing store)
      (handler.bind next) store := by
  apply Program.ensures_bind
  have hSame :
      Program.Ensures execAlone (fun _ s => s = store)
        handler store := by
    refine hCalls.ensures ?_ rfl
    intro choice op s hOp hStore
    rw [execAlone,
      StoreOp.exec_isRead_store (hReads op hOp)]
    exact hStore
  apply hSame.mono
  rintro outcome s rfl
  cases outcome with
  | ok value => exact hNext value
  | error error => exact Or.inr rfl

theorem ensures_ignore
    {handler : Handler α}
    (hHandler :
      Program.Ensures execAlone (AllOrNothing store) handler
        store) :
    Program.Ensures execAlone (AllOrNothing store)
      handler.ignore store := by
  apply Program.ensures_bind
  apply hHandler.mono
  intro outcome store' hOutcome
  cases outcome with
  | ok value => exact Or.inl ⟨(), rfl⟩
  | error error =>
      rcases hOutcome with ⟨value, hValue⟩ | hStore
      · cases hValue
      · exact Or.inr hStore

/- Looking a product up only reads. -/
theorem ProductService.calls_findOne
    (db id tenantCode : String) :
    Program.Calls (fun op => op.isRead = true)
      (ProductService.findOne db id tenantCode) := by
  apply ProductRead.calls_mapMissingDatabase
  apply Program.calls_bind
  · exact Program.calls_perform rfl
  · intro product
    cases product with
    | none => exact Program.calls_fail _
    | some product => exact Program.calls_done _

/- Writes to products, but for payments. -/
theorem ProductWrite.allOrNothing
    {write : ProductWrite}
    (hMethods : write.methods ≠ [])
    (databaseName : String → String)
    (choices : Nat → Choice) :
    AllOrNothing store
      ((write.job.handler databaseName).complete execAlone
        choices store).1
      ((write.job.handler databaseName).complete execAlone
        choices store).2 := by
  suffices hEnsures :
      Program.Ensures execAlone (AllOrNothing store)
        (write.job.handler databaseName) store from
    hEnsures.complete choices
  cases write with
  | create user tenantCode query body =>
      apply ensures_ignore
      simp only [ProductController.create,
        ProductService.create]
      rw [if_neg tenantCode.nonempty]
      exact ensures_prisma _ (.productCreate _ _ _ _)
  | update user tenantCode id query body =>
      apply ensures_ignore
      apply ensures_bind_of_reads
        (ProductService.calls_findOne _ _ _)
        (fun _ hRead => hRead)
      intro product
      exact
        ensures_mapMissingDatabase
          (ensures_prisma _ (.productUpdate _ _))
  | remove user tenantCode id query =>
      apply ensures_ignore
      apply ensures_bind_of_reads
        (ProductService.calls_findOne _ _ _)
        (fun _ hRead => hRead)
      intro product
      exact
        ensures_mapMissingDatabase
          (ensures_prisma _ (.productDelete _))
  | paymentReceived user tenantCode id query =>
      exact (hMethods rfl).elim

end OrderApi

------------------------------------------------------------
-- Coherence
------------------------------------------------------------

namespace OrderApi

variable {databaseName : String → String}

/- The tenant of a write's keys is the tenant of its path. -/
theorem ProductWrite.tenantCode_eq (write : ProductWrite) :
    TenantInterceptor.tenantCode write.request =
      some (.str write.tenantCode.text) := by
  apply TenantInterceptor.tenantCode_of_path
  cases write with
  | create user tenantCode query body => rfl
  | update user tenantCode id query body =>
      simp [ProductWrite.request, routeParams,
        JsObject.get?_set, ProductWrite.tenantCode]
  | remove user tenantCode id query =>
      simp [ProductWrite.request, routeParams,
        JsObject.get?_set, ProductWrite.tenantCode]
  | paymentReceived user tenantCode id query =>
      simp [ProductWrite.request, routeParams,
        JsObject.get?_set, ProductWrite.tenantCode]

theorem ProductRead.tenantCode_eq (read : ProductRead) :
    TenantInterceptor.tenantCode read.request =
      some (.str read.tenantCode.text) := by
  apply TenantInterceptor.tenantCode_of_path
  rw [ProductRead.params_get?, if_pos rfl]

/- The controller of a write that invalidates. -/
theorem ProductWrite.controllerName_eq
    {write : ProductWrite}
    {method : String}
    (hMethod : method ∈ write.methods) :
    write.controllerName = "ProductController" := by
  cases write with
  | paymentReceived user tenantCode id query => cases hMethod
  | _ => rfl

/- A write deletes the keys of reads that look like it. -/
theorem ProductWrite.deletes_of_alike
    {write : ProductWrite}
    {read : ProductRead}
    (hMethod : read.methodName ∈ write.methods)
    (hTenant :
      read.tenantCode.text = write.tenantCode.text)
    (hArgs :
      CacheInterceptor.getMethodArguments read.request =
        CacheInterceptor.getMethodArguments write.request)
    {key : String}
    (hKey : read.cacheKey = some key) :
    write.deletes key = true := by
  have hName : read.methodName ≠ "*" := by
    cases read with
    | findAll user tenantCode query =>
        simp [ProductRead.methodName]
    | findOne user tenantCode id query =>
        simp [ProductRead.methodName]
  have hTarget :
      CacheInterceptor.targetInvalidates
        (TenantInterceptor.tenantCode write.request)
        write.controllerName write.request
        (.name read.methodName) key = true := by
    rcases read.argsKey_eq with ⟨args, hRead, hObject, _⟩
    have hWrite :
        CacheInterceptor.getMethodArguments write.request =
          some args :=
      hArgs.symm.trans hRead
    rw [ProductRead.cacheKey, CacheInterceptor.cacheKey,
      hObject, read.tenantCode_eq, hTenant] at hKey
    simp only [CacheInterceptor.targetInvalidates,
      InvalidateTarget.method, if_neg hName,
      InvalidateTarget.includeUserId, Bool.false_eq_true,
      if_false, InvalidateTarget.includeArgs, if_true,
      InvalidateTarget.tenantCodeOverride, hWrite,
      write.tenantCode_eq,
      ProductWrite.controllerName_eq hMethod,
      CacheService.del]
    exact decide_eq_true hKey
  unfold ProductWrite.deletes CacheInterceptor.invalidates
  rw [List.any_map]
  exact List.any_eq_true.mpr ⟨_, hMethod, hTarget⟩

/- What a read finds in the cache is up to date. -/
def ProductCache.Current
    (databaseName : String → String)
    (state : ProductCache) : Prop :=
  Cache.Coherent ProductRead.cacheKey ProductRead.IdAgrees
    (ProductRead.answer databaseName state.store) state.cache

/- A read is served as it is, and the cache stays current. -/
theorem ProductCache.Current.respond
    {state : ProductCache}
    (hCurrent : state.Current databaseName)
    {read : ProductRead}
    (hId : read.IdAgrees) :
    (state.respond databaseName read).1 =
        read.answer databaseName state.store ∧
      (state.respond databaseName read).2.Current
        databaseName :=
  hCurrent.serve read hId fun _ _ hOther hOtherKey hKey =>
    ProductRead.answer_eq_of_cacheKey databaseName
      state.store hOther hId hOtherKey hKey

/- A write after which no outdated response is left. -/
theorem ProductCache.Current.write
    {state : ProductCache}
    (hCurrent : state.Current databaseName)
    (store : Backend)
    (keys : String → Bool)
    (hCleared :
      ∀ read : ProductRead, ∀ key, read.IdAgrees →
        read.cacheKey = some key →
        (state.cache key).isSome →
        read.rows databaseName state.store ≠
          read.rows databaseName store →
        keys key = true) :
    ProductCache.Current databaseName
      ⟨store, state.cache.drop keys⟩ := by
  apply (hCurrent.drop keys).change
  intro read hId hFound
  -- a response that is still found was not deleted
  rcases Option.isSome_iff_exists.mp hFound with
    ⟨body, hBody⟩
  rcases Option.bind_eq_some_iff.mp hBody with
    ⟨key, hKey, hKept⟩
  rcases Cache.drop_eq_some hKept with ⟨hNot, hOld⟩
  have hLive : (state.cache key).isSome := by
    rw [hOld]
    rfl
  have hRows :
      read.rows databaseName state.store =
        read.rows databaseName store := by
    by_contra hChanged
    have hDeleted := hCleared read key hId hKey hLive hChanged
    rw [hNot] at hDeleted
    cases hDeleted
  exact (ProductRead.answer_congr hRows).symm

/- From an empty cache nothing has to be deleted. -/
theorem productsCleared_of_empty
    {store : Backend}
    {write : ProductWrite}
    {choices : Nat → Choice}
    {after : ProductCache} :
    ProductsCleared databaseName
      ⟨ProductCache.start store, .write write choices,
        after⟩ := by
  intro read _ hLive
  cases hKey : read.cacheKey with
  | none => simp [Cache.find?, hKey] at hLive
  | some key =>
      simp [ProductCache.start, Cache.find?, Cache.empty,
        hKey] at hLive

namespace Listing

/- The administrator sets the stock of the mug. -/
def restock : ProductLabel :=
  .write
    (.update ⟨admin.id, .ADMIN, some "t1"⟩ t1 mugId
      JsObject.empty
      ⟨none, none, none, some 9, by simp⟩) answering

def findProducts : ProductRead :=
  .findAll alice t1 JsObject.empty

end Listing

instance
    (databaseName : String → String)
    (t : ProductStep) :
    Decidable (ProductCurrent databaseName t) := by
  unfold ProductCurrent
  split <;> infer_instance

end OrderApi
