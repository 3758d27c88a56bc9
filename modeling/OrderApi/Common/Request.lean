import OrderApi.Model.Entities
import OrderApi.Text.JsObject
import OrderApi.Text.JsString

/-
  HTTP requests as guards and interceptors see them, and
  `src/auth/interceptors/tenant.interceptor.ts`.

  Key definitions include:
    * `Request`
    * `PathParam`
    * `isUuid`
    * `TenantInterceptor.tenantCode`
    * `queryText`
-/

------------------------------------------------------------
-- Requests
------------------------------------------------------------

namespace OrderApi

/- The route parameters, the parsed query, and the user. -/
structure Request where
  params : JsObject
  query : JsObject
  user : AuthUser

/- A route parameter matches one character at least. -/
structure PathParam where
  text : String
  nonempty : text ≠ ""

/- `@default(uuid())` of the `id` columns. -/
def isUuid (text : String) : Bool :=
  text.length = 36 &&
    text.toList.all fun c =>
      c ∈ "0123456789abcdef-".toList

/- `params` of a route with these parameters. -/
def routeParams (params : List (String × String)) :
    JsObject :=
  params.foldl
    (fun object param => object.set param.1 (.str param.2))
    JsObject.empty

/- The text of a query parameter, converted if need be. -/
def queryText (query : JsObject) (name : String) :
    Except ApiError (Option String) :=
  match query.get? name with
  | none => .ok none
  | some value =>
      match value.toText? with
      | some text => .ok (some text)
      | none =>
          .error
            ⟨.internal,
              "Cannot convert object to primitive value"⟩

end OrderApi

------------------------------------------------------------
-- Tenant Interceptor
------------------------------------------------------------

namespace OrderApi

/- A value, unless it is falsy. -/
def truthy? (value : Option JsVal) : Option JsVal :=
  value.filter JsVal.truthy

/-
  The tenant code that the interceptor puts into the context
  of a request: from the path, from the query, or of an
  administrator.
-/
def TenantInterceptor.tenantCode (request : Request) :
    Option JsVal :=
  match truthy? (request.params.get? "tenantCode") with
  | some tenantCode => some tenantCode
  | none =>
      match truthy? (request.query.get? "tenantCode") with
      | some tenantCode => some tenantCode
      | none =>
          if request.user.role = .ADMIN then
            truthy? (request.user.tenantCode.map .str)
          else
            none

/- The tenant code of a path goes first. -/
theorem TenantInterceptor.tenantCode_of_path
    {request : Request}
    {tenantCode : PathParam}
    (hPath :
      request.params.get? "tenantCode" =
        some (.str tenantCode.text)) :
    TenantInterceptor.tenantCode request =
      some (.str tenantCode.text) := by
  have hTruthy : (JsVal.str tenantCode.text).truthy := by
    simp [JsVal.truthy, tenantCode.nonempty]
  simp [TenantInterceptor.tenantCode, hPath, truthy?,
    Option.filter, hTruthy]

end OrderApi
