import OrderApi.Common.CacheInterceptor
import OrderApi.Product.ProductService
import OrderApi.Model.StoreEffects

/-
  The cached routes of `src/product/product.controller.ts`
  behind their interceptors.

  The key of a request has the route parameters merged with
  the query parameters, while the handler takes the former
  from the path alone.

  Key definitions include:
    * `ProductRead`
    * `ProductRead.cacheKey`
    * `ProductRead.handler`
    * `ProductRead.IdAgrees`

  Key theorems include:
    * `ProductRead.cacheKey_inj`
    * `ProductRead.handler_eq_of_cacheKey`
-/

------------------------------------------------------------
-- Requests for Products
------------------------------------------------------------

namespace OrderApi

/- `@Cacheable` of the product routes. -/
def ProductController.cacheable : CacheOptions where
  includeArgs := none
  includeUserId := none

/- What the cached product routes respond with. -/
inductive ProductBody where
  | page (page : Page Product)
  | product (product : Product)
deriving DecidableEq, Repr

/- `GET /:tenantCode/products` and `.../products/:id`. -/
inductive ProductRead where
  | findAll
      (user : AuthUser)
      (tenantCode : PathParam)
      (query : JsObject)
  | findOne
      (user : AuthUser)
      (tenantCode id : PathParam)
      (query : JsObject)

namespace ProductRead

def tenantCode : ProductRead → PathParam
  | findAll _ tenantCode _ => tenantCode
  | findOne _ tenantCode _ _ => tenantCode

def query : ProductRead → JsObject
  | findAll _ _ query => query
  | findOne _ _ _ query => query

def methodName : ProductRead → String
  | findAll _ _ _ => "findAll"
  | findOne _ _ _ _ => "findOne"

def request : ProductRead → Request
  | findAll user tenantCode query =>
      { params := routeParams [("tenantCode", tenantCode.text)]
        query := query
        user := user }
  | findOne user tenantCode id query =>
      { params :=
          routeParams
            [("tenantCode", tenantCode.text), ("id", id.text)]
        query := query
        user := user }

/- The key that a request looks up and is kept under. -/
def cacheKey (read : ProductRead) : Option String :=
  CacheInterceptor.cacheKey
    (TenantInterceptor.tenantCode read.request)
    "ProductController" read.methodName
    ProductController.cacheable read.request

/- The handler of a route with the parameters it takes. -/
def handler (databaseName : String → String) :
    ProductRead → Handler ProductBody
  | findAll _ tenantCode query => do
      let page ← Program.ofExcept (queryText query "page")
      let perPage ←
        Program.ofExcept (queryText query "per_page")
      let products ←
        ProductController.findAll
          (databaseName tenantCode.text) tenantCode.text page
          perPage
      pure (.page products)
  | findOne _ tenantCode id _ => do
      let product ←
        ProductController.findOne
          (databaseName tenantCode.text) id.text
          tenantCode.text
      pure (.product product)

/- What the handler computes from a store. -/
def answer
    (databaseName : String → String)
    (store : Backend)
    (read : ProductRead) : Except ApiError ProductBody :=
  ((read.handler databaseName).complete execAlone answering
    store).1

/- The query of a request for one product has no other id. -/
def IdAgrees : ProductRead → Prop
  | findAll _ _ _ => True
  | findOne _ _ id query =>
      match query.get? "id" with
      | none => True
      | some (.str text) => text = id.text
      | some _ => False

instance (read : ProductRead) : Decidable read.IdAgrees := by
  unfold IdAgrees
  split
  · infer_instance
  · split <;> infer_instance

end ProductRead

end OrderApi

------------------------------------------------------------
-- What a Key Tells
------------------------------------------------------------

namespace OrderApi

theorem plainStart_tenantCode : PlainStart "tenantCode" :=
  ⟨'t', "enantCode".toList, by decide⟩

namespace ProductRead

theorem endsPlain_methodName (read : ProductRead) :
    CacheService.EndsPlain read.methodName := by
  cases read with
  | findAll user tenantCode query =>
      refine ⟨"findAl".toList, 'l', ?_⟩
      simp only [methodName]
      decide
  | findOne user tenantCode id query =>
      refine ⟨"findOn".toList, 'e', ?_⟩
      simp only [methodName]
      decide

theorem params_get? (read : ProductRead) (name : String) :
    read.request.params.get? name =
      if name = "tenantCode" then
        some (.str read.tenantCode.text)
      else
        match read with
        | findAll _ _ _ => none
        | findOne _ _ id _ =>
            if name = "id" then some (.str id.text) else none := by
  cases read with
  | findAll user tenantCode query =>
      simp [request, routeParams, JsObject.get?_set,
        ProductRead.tenantCode]
  | findOne user tenantCode id query =>
      by_cases hName : name = "tenantCode"
      · subst hName
        simp [request, routeParams, JsObject.get?_set,
          ProductRead.tenantCode]
      · simp [request, routeParams, JsObject.get?_set, hName]

/- The tenant of a key is the tenant of the path. -/
theorem tenantText_eq (read : ProductRead) :
    CacheService.tenantText
        (TenantInterceptor.tenantCode read.request) none =
      some read.tenantCode.text := by
  have hPath :
      read.request.params.get? "tenantCode" =
        some (.str read.tenantCode.text) := by
    rw [params_get?, if_pos rfl]
  rw [TenantInterceptor.tenantCode_of_path hPath]
  simp [CacheService.tenantText, truthy?, Option.filter,
    JsVal.truthy, JsVal.toText?, read.tenantCode.nonempty]

/- The arguments of a key start with the tenant code. -/
theorem leads_tenantCode (read : ProductRead) :
    (JsObject.empty.assign read.request.params).Leads
      "tenantCode" := by
  cases read with
  | findAll user tenantCode query =>
      have hFields :
          (routeParams
            [("tenantCode", tenantCode.text)]).fields =
              [("tenantCode", .str tenantCode.text)] :=
        rfl
      simp only [request, JsObject.assign, hFields]
      exact JsObject.leads_set_empty _ _
  | findOne user tenantCode id query =>
      have hIndex : arrayIndex? "id" = none := by
        decide +kernel
      have hFields :
          (routeParams
            [("tenantCode", tenantCode.text),
              ("id", id.text)]).fields =
                [("tenantCode", .str tenantCode.text),
                  ("id", .str id.text)] := by
        simp [routeParams, JsObject.set, JsObject.empty,
          insertField, comesBefore, hIndex]
      simp only [request, JsObject.assign, hFields,
        List.foldl_cons, List.foldl_nil]
      rw [JsObject.assignField, JsObject.assignField,
        if_neg (by simp), if_neg (by simp)]
      exact (JsObject.leads_set_empty _ _).set _ _

/- The arguments in the key of a request. -/
theorem argsKey_eq (read : ProductRead) :
    ∃ args,
      CacheInterceptor.getMethodArguments read.request =
          some args ∧
        CacheInterceptor.argsKey ProductController.cacheable
            read.request = .object args ∧
        KeyedText (JsVal.obj args.fields).json := by
  rcases
    CacheInterceptor.leads_of_getMethodArguments
      read.leads_tenantCode with ⟨args, hArgs, hLeads⟩
  refine ⟨args, hArgs, ?_, ?_⟩
  · simp [CacheInterceptor.argsKey,
      ProductController.cacheable, hArgs]
  · exact JsObject.keyedText hLeads plainStart_tenantCode

/- Fronts of keys tell tenants and methods apart. -/
theorem front_inj
    {read read' : ProductRead}
    (hFront :
      CacheService.keyFront read.tenantCode.text
          "ProductController" read.methodName =
        CacheService.keyFront read'.tenantCode.text
          "ProductController" read'.methodName) :
    read.tenantCode.text = read'.tenantCode.text ∧
      read.methodName = read'.methodName := by
  have hLength :
      ∀ r : ProductRead, r.methodName.toList.length = 7 := by
    intro r
    cases r with
    | findAll user tenantCode query =>
        simp only [methodName]
        decide
    | findOne user tenantCode id query =>
        simp only [methodName]
        decide
  rcases List.append_inj' hFront (by simp [hLength]) with
    ⟨hTenant, hRest⟩
  simp only [List.cons.injEq, true_and] at hRest
  rcases List.append_inj hRest rfl with ⟨_, hMethod⟩
  simp only [List.cons.injEq, true_and] at hMethod
  exact
    ⟨String.toList_inj.mp hTenant,
      String.toList_inj.mp hMethod⟩

/- A key determines the request, as the cache sees it. -/
theorem cacheKey_inj
    {read read' : ProductRead}
    {k : String}
    (hKey : read.cacheKey = some k)
    (hKey' : read'.cacheKey = some k) :
    read.tenantCode.text = read'.tenantCode.text ∧
      read.methodName = read'.methodName ∧
      ∀ name, name ≠ "__proto__" →
        CacheInterceptor.argument? read.request name =
          CacheInterceptor.argument? read'.request name := by
  rcases read.argsKey_eq with ⟨args, hArgs, hObject, hText⟩
  rcases read'.argsKey_eq with
    ⟨args', hArgs', hObject', hText'⟩
  unfold cacheKey CacheInterceptor.cacheKey at hKey hKey'
  rw [hObject] at hKey
  rw [hObject'] at hKey'
  rcases
    CacheService.key_object_inj read.endsPlain_methodName
      read'.endsPlain_methodName hText hText' hKey hKey'
    with ⟨⟨tenant, tenant', hTenant, hTenant', hFront⟩,
      hFields⟩
  rw [tenantText_eq] at hTenant hTenant'
  cases hTenant
  cases hTenant'
  rcases front_inj hFront with ⟨hSameTenant, hSameMethod⟩
  refine ⟨hSameTenant, hSameMethod, ?_⟩
  intro name hName
  rw [← CacheInterceptor.get?_of_getMethodArguments hName,
    ← CacheInterceptor.get?_of_getMethodArguments hName,
    hArgs, hArgs']
  exact JsObject.get?_congr hFields name

/- Every request for products has a key. -/
theorem cacheKey_isSome (read : ProductRead) :
    ∃ k, read.cacheKey = some k := by
  unfold cacheKey CacheInterceptor.cacheKey CacheService.key
    CacheService.generateCacheKey
  rw [tenantText_eq]
  exact ⟨_, rfl⟩

/-
  Requests with different tenant codes in their paths have
  different keys, whatever their ids and queries are.
-/
theorem cacheKey_ne_of_tenantCode_ne
    (read read' : ProductRead)
    (hTenants :
      read.tenantCode.text ≠ read'.tenantCode.text) :
    ∃ k k',
      read.cacheKey = some k ∧
        read'.cacheKey = some k' ∧
        k ≠ k' := by
  rcases read.cacheKey_isSome with ⟨k, hKey⟩
  rcases read'.cacheKey_isSome with ⟨k', hKey'⟩
  refine ⟨k, k', hKey, hKey', ?_⟩
  rintro rfl
  exact hTenants (cacheKey_inj hKey hKey').1

/-
  A code that ends like a key of its own, and a query that
  has the code of the path once more.
-/
theorem cacheKey_ne_of_colons :
    ∃ k k',
      (findAll ⟨"u1", .CUSTOMER, none⟩ ⟨"a", by decide⟩
          (JsObject.empty.set "tenantCode"
            (.str ":ProductController:findAll:"))).cacheKey =
        some k ∧
      (findOne ⟨"u1", .CUSTOMER, none⟩
          ⟨"a:ProductController:findAll:\x7b\"", by decide⟩
          ⟨"p1", by decide⟩
          (JsObject.empty.set "7" (.arr [.str "x"]))).cacheKey =
        some k' ∧
      k ≠ k' :=
  cacheKey_ne_of_tenantCode_ne _ _ (by decide)

/- The id in the key is then the id of the path. -/
theorem argument?_id
    {user : AuthUser}
    {tenantCode id : PathParam}
    {query : JsObject}
    (hId : (findOne user tenantCode id query).IdAgrees) :
    CacheInterceptor.argument?
        (findOne user tenantCode id query).request "id" =
      some (.str id.text) := by
  have hPath :
      (findOne user tenantCode id
        query).request.params.get? "id" =
          some (.str id.text) := by
    rw [params_get?]
    rfl
  unfold CacheInterceptor.argument?
  rw [hPath]
  simp only [IdAgrees] at hId
  change (query.get? "id").or _ = _
  cases hQuery : query.get? "id" with
  | none => rfl
  | some value =>
      rw [hQuery] at hId
      cases value with
      | str text =>
          simp only at hId
          rw [hId]
          rfl
      | arr items => exact hId.elim
      | obj fields => exact hId.elim

/- Requests that share a key have the same handler. -/
theorem handler_eq_of_cacheKey
    (databaseName : String → String)
    {read read' : ProductRead}
    (hId : read.IdAgrees)
    (hId' : read'.IdAgrees)
    {k : String}
    (hKey : read.cacheKey = some k)
    (hKey' : read'.cacheKey = some k) :
    read.handler databaseName =
      read'.handler databaseName := by
  rcases cacheKey_inj hKey hKey' with
    ⟨hTenant, hMethod, hArguments⟩
  cases read with
  | findAll user tenantCode query =>
      cases read' with
      | findAll user' tenantCode' query' =>
          have hQuery :
              ∀ name, name ≠ "__proto__" →
                name ≠ "tenantCode" →
                query.get? name = query'.get? name := by
            intro name hProto hName
            have hSame := hArguments name hProto
            unfold CacheInterceptor.argument? at hSame
            rw [params_get?, params_get?, if_neg hName,
              if_neg hName] at hSame
            simpa [request] using hSame
          change tenantCode.text = tenantCode'.text at hTenant
          have hPage := hQuery "page" (by decide) (by decide)
          have hPerPage :=
            hQuery "per_page" (by decide) (by decide)
          simp only [handler, queryText, hTenant, hPage,
            hPerPage]
      | findOne user' tenantCode' id' query' =>
          simp [methodName] at hMethod
  | findOne user tenantCode id query =>
      cases read' with
      | findAll user' tenantCode' query' =>
          simp [methodName] at hMethod
      | findOne user' tenantCode' id' query' =>
          have hIds := hArguments "id" (by decide)
          rw [argument?_id hId, argument?_id hId'] at hIds
          change tenantCode.text = tenantCode'.text at hTenant
          have hText : id.text = id'.text :=
            JsVal.str.inj (Option.some.inj hIds)
          simp only [handler, hTenant, hText]

end ProductRead

end OrderApi
