import OrderApi.Common.CacheService

/-
  `src/common/interceptors/cache.interceptor.ts` and
  `src/common/decorators/cache.decorator.ts`.

  The interceptor serves a cacheable route by `Cache.serve`
  under the key of a request, and drops the invalidated keys
  once a handler has answered.

  Key definitions include:
    * `CacheOptions`, `InvalidateTarget`
    * `CacheInterceptor.getMethodArguments`
    * `CacheInterceptor.argsKey`
    * `CacheInterceptor.invalidates`

  Key theorems include:
    * `CacheInterceptor.get?_of_getMethodArguments`
    * `CacheInterceptor.argsKey_user`
-/

------------------------------------------------------------
-- Decorators
------------------------------------------------------------

namespace OrderApi

/- The argument of `@Cacheable`, but for its `ttl`. -/
structure CacheOptions where
  includeArgs : Option Bool
  includeUserId : Option Bool

/- A target of `@InvalidateCache`. -/
inductive InvalidateTarget where
  | name (method : String)
  | options
      (method : String)
      (includeArgs : Option Bool)
      (includeUserId : Option Bool)
      (isDefaultTenant : Option Bool)

namespace InvalidateTarget

def method : InvalidateTarget → String
  | .name method => method
  | .options method _ _ _ => method

def includeArgs : InvalidateTarget → Bool
  | .name _ => true
  | .options _ includeArgs _ _ => includeArgs ≠ some false

def includeUserId : InvalidateTarget → Bool
  | .name _ => false
  | .options _ _ includeUserId _ => includeUserId = some true

/- The tenant code that a target forces, if any. -/
def tenantCodeOverride : InvalidateTarget → Option String
  | .name _ => none
  | .options _ _ _ isDefaultTenant =>
      if isDefaultTenant = some true then some "default"
      else none

end InvalidateTarget

end OrderApi

------------------------------------------------------------
-- Cache Interceptor
------------------------------------------------------------

namespace OrderApi

namespace CacheInterceptor

/- Route parameters, overwritten by query parameters. -/
def getMethodArguments (request : Request) :
    Option JsObject :=
  let args := JsObject.empty
  let args :=
    if request.params.nonempty then
      args.assign request.params
    else args
  let args :=
    if request.query.nonempty then
      args.assign request.query
    else args
  if args.nonempty then some args else none

/- The `args` of the key that a request is cached under. -/
def argsKey (options : CacheOptions) (request : Request) :
    CacheArgs :=
  let args :=
    if options.includeArgs ≠ some false then
      getMethodArguments request
    else none
  if options.includeUserId = some true then
    -- a request behind the guards always has a user id
    match args with
    | some args =>
        .object
          ((JsObject.empty.set "__userId"
            (.str request.user.id)).spread args)
    | none => .text request.user.id
  else
    match args with
    | some args => .object args
    | none => .none

/- The key under which `get` and `set` see a request. -/
def cacheKey
    (tenantCode : Option JsVal)
    (controllerName methodName : String)
    (options : CacheOptions)
    (request : Request) : Option String :=
  CacheService.key tenantCode controllerName methodName
    (argsKey options request)

/- Whether the invalidation of one target deletes a key. -/
def targetInvalidates
    (tenantCode : Option JsVal)
    (controllerName : String)
    (request : Request)
    (target : InvalidateTarget)
    (key : String) : Bool :=
  if target.method = "*" then
    CacheService.delPattern tenantCode controllerName
      target.tenantCodeOverride key
  else if target.includeUserId then
    if target.includeArgs then
      CacheService.delMethodUserKeys tenantCode
        controllerName target.method request.user.id
        target.tenantCodeOverride key
    else
      CacheService.del tenantCode controllerName
        target.method (.text request.user.id)
        target.tenantCodeOverride key
  else
    let args :=
      if target.includeArgs then getMethodArguments request
      else none
    CacheService.del tenantCode controllerName target.method
      (match args with
        | some args => .object args
        | none => .none)
      target.tenantCodeOverride key

/- The keys deleted after a handler has answered. -/
def invalidates
    (tenantCode : Option JsVal)
    (controllerName : String)
    (targets : List InvalidateTarget)
    (request : Request)
    (key : String) : Bool :=
  targets.any fun target =>
    targetInvalidates tenantCode controllerName request
      target key

end CacheInterceptor

end OrderApi

------------------------------------------------------------
-- The Arguments of a Request
------------------------------------------------------------

namespace OrderApi

namespace CacheInterceptor

/- Assigning an empty object changes nothing. -/
theorem assign_if_nonempty
    (target source : JsObject) :
    (if source.nonempty then target.assign source
      else target) = target.assign source := by
  by_cases hSource : source.nonempty
  · rw [if_pos hSource]
  · rw [if_neg hSource]
    have hFields : source.fields = [] := by
      simpa [JsObject.nonempty] using hSource
    simp [JsObject.assign, hFields]

theorem getMethodArguments_eq (request : Request) :
    getMethodArguments request =
      (let args :=
        (JsObject.empty.assign request.params).assign
          request.query
      if args.nonempty then some args else none) := by
  unfold getMethodArguments
  simp only [assign_if_nonempty]

/- A parameter as the arguments of a request have it. -/
def argument? (request : Request) (name : String) :
    Option JsVal :=
  (request.query.get? name).or (request.params.get? name)

/- What is read from the arguments of a request. -/
theorem get?_of_getMethodArguments
    {name : String}
    (hName : name ≠ "__proto__")
    (request : Request) :
    ((getMethodArguments request).bind fun args =>
        args.get? name) =
      argument? request name := by
  have hGet :
      ((JsObject.empty.assign request.params).assign
          request.query).get? name =
        argument? request name := by
    rw [JsObject.get?_assign hName,
      JsObject.get?_assign hName]
    simp [argument?]
  rw [getMethodArguments_eq]
  simp only
  split
  · exact hGet
  · rename_i hEmpty
    have hFields :
        ((JsObject.empty.assign request.params).assign
          request.query).fields = [] := by
      simpa [JsObject.nonempty] using hEmpty
    rw [← hGet]
    simp [JsObject.get?, hFields]

/-
  The arguments of a request with route parameters start
  with one of these, or with array indices.
-/
theorem leads_of_getMethodArguments
    {request : Request}
    {name : String}
    (hLeads :
      (JsObject.empty.assign request.params).Leads name) :
    ∃ args,
      getMethodArguments request = some args ∧
        args.Leads name := by
  have hArgs := hLeads.assign request.query
  refine ⟨_, ?_, hArgs⟩
  rw [getMethodArguments_eq]
  simp only
  rw [if_pos]
  unfold JsObject.nonempty
  cases hFields :
      ((JsObject.empty.assign request.params).assign
        request.query).fields with
  | nil =>
      unfold JsObject.Leads at hArgs
      rw [hFields] at hArgs
      cases hArgs
  | cons field fields => rfl

end CacheInterceptor

end OrderApi
