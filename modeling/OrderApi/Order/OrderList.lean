import OrderApi.Common.CacheInterceptor
import OrderApi.Order.OrderController

/-
  `GET /orders` behind its interceptors.

  The list is cached under a key that joins the tenant
  context, the user id and the query.  The handler changes
  the tenant context of an administrator, so the key that a
  list is kept under may differ from the one looked up.

  Key definitions include:
    * `OrderListRequest`
    * `OrderListRequest.lookupKey`
    * `OrderListRequest.storeKey`
    * `OrderListRequest.handler`

  Key theorems include:
    * `OrderListRequest.parameter?_eq_of_listKey`
-/

------------------------------------------------------------
-- Requests for the Order List
------------------------------------------------------------

namespace OrderApi

/- `@Cacheable` of `OrderController.findAll`. -/
def OrderController.findAllCacheable : CacheOptions where
  includeArgs := none
  includeUserId := some true

/- A request of an authenticated user, with any query. -/
structure OrderListRequest where
  user : AuthUser
  hasUuid : isUuid user.id = true
  query : JsObject

namespace OrderListRequest

def request (list : OrderListRequest) : Request where
  params := routeParams []
  query := list.query
  user := list.user

@[simp] theorem request_user (list : OrderListRequest) :
    list.request.user = list.user :=
  rfl

/- The key of a list under a tenant context. -/
def listKey
    (list : OrderListRequest)
    (tenantCode : Option JsVal) : Option String :=
  CacheInterceptor.cacheKey tenantCode "OrderController"
    "findAll" OrderController.findAllCacheable list.request

/- The key before the handler runs. -/
def lookupKey (list : OrderListRequest) : Option String :=
  list.listKey (TenantInterceptor.tenantCode list.request)

/- `setTenantCode` in `OrderController.findAll`. -/
def tenantCodeAfter (list : OrderListRequest) :
    Option JsVal :=
  let adminCode := truthy? (list.user.tenantCode.map .str)
  if list.user.role = .ADMIN ∧ adminCode.isSome then
    adminCode
  else
    TenantInterceptor.tenantCode list.request

/- The key after the handler has run. -/
def storeKey (list : OrderListRequest) : Option String :=
  list.listKey list.tenantCodeAfter

/- `OrderController.findAll` with its parameters. -/
def handler
    (databaseName : String → String)
    (list : OrderListRequest) :
    Handler (Page TenantOrder) := do
  let page ← Program.ofExcept (queryText list.query "page")
  let perPage ←
    Program.ofExcept (queryText list.query "per_page")
  OrderController.findAll databaseName list.user page
    perPage

end OrderListRequest

end OrderApi

------------------------------------------------------------
-- What a Key Tells
------------------------------------------------------------

namespace OrderApi

theorem plainStart_userId : PlainStart "__userId" :=
  ⟨'_', "_userId".toList, by decide⟩

theorem endsPlain_findAll :
    CacheService.EndsPlain "findAll" :=
  ⟨"findAl".toList, 'l', by decide⟩

/- No character of an id is a separator of a key. -/
theorem isUuid_separators
    {text : String}
    (hUuid : isUuid text = true) :
    ':' ∉ text.toList ∧ '}' ∉ text.toList := by
  simp only [isUuid, Bool.and_eq_true,
    List.all_eq_true] at hUuid
  constructor
  · intro hMem
    exact absurd (hUuid.2 ':' hMem) (by decide)
  · intro hMem
    exact absurd (hUuid.2 '}' hMem) (by decide)

namespace OrderListRequest

/-
  The parameters in the key of a list: those of the query,
  and the user's own id unless the query has one.
-/
def parameter? (list : OrderListRequest) (name : String) :
    Option JsVal :=
  (list.query.get? name).or
    (if name = "__userId" then some (.str list.user.id)
      else none)

/- The arguments in the key of a list hold its parameters. -/
theorem argsKey_cases (list : OrderListRequest) :
    (CacheInterceptor.argsKey
          OrderController.findAllCacheable list.request =
        .text list.user.id ∧
      ∀ name, name ≠ "__proto__" →
        list.query.get? name = none) ∨
    ∃ object,
      CacheInterceptor.argsKey
          OrderController.findAllCacheable list.request =
        .object object ∧
      KeyedText (JsVal.obj object.fields).json ∧
      ∀ name, name ≠ "__proto__" →
        object.get? name = list.parameter? name := by
  have hRead :
      ∀ name, name ≠ "__proto__" →
        ((CacheInterceptor.getMethodArguments
          list.request).bind fun args => args.get? name) =
          list.query.get? name := by
    intro name hName
    rw [CacheInterceptor.get?_of_getMethodArguments hName]
    simp [CacheInterceptor.argument?, request, routeParams]
  cases hArgs :
      CacheInterceptor.getMethodArguments list.request with
  | none =>
      apply Or.inl
      refine ⟨?_, ?_⟩
      · simp [CacheInterceptor.argsKey,
          OrderController.findAllCacheable, hArgs]
      · intro name hName
        rw [← hRead name hName, hArgs]
        rfl
  | some args =>
      apply Or.inr
      refine
        ⟨(JsObject.empty.set "__userId"
          (.str list.user.id)).spread args, ?_, ?_, ?_⟩
      · simp [CacheInterceptor.argsKey,
          OrderController.findAllCacheable, hArgs]
      · exact
          JsObject.keyedText
            ((JsObject.leads_set_empty _ _).spread args)
            plainStart_userId
      · intro name hName
        have hQuery := hRead name hName
        rw [hArgs] at hQuery
        rw [JsObject.get?_spread, JsObject.get?_set,
          JsObject.get?_empty, parameter?, ← hQuery]
        rfl

/- Lists that share a key have the same parameters in it. -/
theorem parameter?_eq_of_listKey
    {list list' : OrderListRequest}
    {tenantCode tenantCode' : Option JsVal}
    {k : String}
    (hKey : list.listKey tenantCode = some k)
    (hKey' : list'.listKey tenantCode' = some k)
    (name : String)
    (hName : name ≠ "__proto__") :
    list.parameter? name = list'.parameter? name := by
  have hIds := isUuid_separators list.hasUuid
  have hIds' := isUuid_separators list'.hasUuid
  unfold listKey CacheInterceptor.cacheKey at hKey hKey'
  rcases list.argsKey_cases with
    ⟨hArgs, hNone⟩ | ⟨object, hArgs, hKeyed, hGet⟩
  · rw [hArgs] at hKey
    rcases list'.argsKey_cases with
      ⟨hArgs', hNone'⟩ | ⟨object', hArgs', _, _⟩
    · rw [hArgs'] at hKey'
      have hSame :=
        CacheService.key_text_inj hIds.1 hIds'.1 hKey hKey'
      rw [parameter?, parameter?, hNone name hName,
        hNone' name hName, hSame]
    · rw [hArgs'] at hKey'
      exact
        (CacheService.key_text_ne_object hIds.2 hKey
          hKey').elim
  · rw [hArgs] at hKey
    rcases list'.argsKey_cases with
      ⟨hArgs', _⟩ | ⟨object', hArgs', hKeyed', hGet'⟩
    · rw [hArgs'] at hKey'
      exact
        (CacheService.key_text_ne_object hIds'.2 hKey'
          hKey).elim
    · rw [hArgs'] at hKey'
      have hFields :=
        (CacheService.key_object_inj endsPlain_findAll
          endsPlain_findAll hKeyed hKeyed' hKey hKey').2
      rw [← hGet name hName, ← hGet' name hName]
      exact JsObject.get?_congr hFields name

end OrderListRequest

end OrderApi
