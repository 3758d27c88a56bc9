import OrderApi.Common.RateLimitInterceptor
import OrderApi.Prisma.DatabaseManagerService

/-
  The routes of the product and the order controller behind
  their guards and interceptors, as far as these decide
  whether the handler of a request is called.

  Both controllers declare `@RateLimit`, but only the product
  controller installs the interceptor; and a counter belongs
  to the spelling of a tenant code, where the database does
  not.  A declared limit binds a user on a route whose
  controller installs it, as far as one counter goes with
  one database.

  Key definitions include:
    * `Route`, `Route.interceptors`, `Route.limit`
    * `Call`, `Call.serve`, `serveCalls`
    * `LimitBinds`, `LimitsBind`
    * `CountersFollowDatabases`

  Key theorems include:
    * `Call.eq_of_key_eq`
    * `handledTimes_eq`
    * `limitBinds_of_followsDatabases`
    * `not_limitsBind`
-/

------------------------------------------------------------
-- Routes
------------------------------------------------------------

namespace OrderApi

/- The routes of both controllers. -/
inductive Route where
  | productCreate
  | productFindAll
  | productFindOne
  | productUpdate
  | productRemove
  | orderCreate
  | orderFindAll
  | orderFindOne
  | orderPaymentReceived
  | orderCompleteOrder
deriving DecidableEq, Repr

/- The interceptors of `@UseInterceptors`. -/
inductive Interceptor where
  | tenant
  | cache
  | rateLimit
deriving DecidableEq, Repr

namespace Route

def all : List Route :=
  [productCreate, productFindAll, productFindOne,
    productUpdate, productRemove, orderCreate, orderFindAll,
    orderFindOne, orderPaymentReceived, orderCompleteOrder]

theorem mem_all (route : Route) : route ∈ all := by
  cases route <;> decide

/- The controller of a route is the product controller. -/
def ofProducts : Route → Bool
  | productCreate | productFindAll | productFindOne
  | productUpdate | productRemove => true
  | _ => false

def controllerName (route : Route) : String :=
  if route.ofProducts then "ProductController"
  else "OrderController"

def methodName : Route → String
  | productCreate => "create"
  | productFindAll => "findAll"
  | productFindOne => "findOne"
  | productUpdate => "update"
  | productRemove => "remove"
  | orderCreate => "create"
  | orderFindAll => "findAll"
  | orderFindOne => "findOne"
  | orderPaymentReceived => "paymentReceived"
  | orderCompleteOrder => "completeOrder"

/- `@Roles`. -/
def roles : Route → List Role
  | productCreate => [.ADMIN]
  | productFindAll => [.ADMIN, .CUSTOMER]
  | productFindOne => [.ADMIN, .CUSTOMER]
  | productUpdate => [.ADMIN]
  | productRemove => [.ADMIN]
  | orderCreate => [.CUSTOMER]
  | orderFindAll => [.CUSTOMER, .ADMIN]
  | orderFindOne => [.CUSTOMER, .ADMIN]
  | orderPaymentReceived => [.CUSTOMER]
  | orderCompleteOrder => [.CUSTOMER]

/- Whether a route has `@Cacheable`. -/
def cacheable : Route → Bool
  | productFindAll | productFindOne | orderFindAll => true
  | _ => false

/- `@UseInterceptors`, the outermost one first. -/
def interceptors (route : Route) : List Interceptor :=
  if route.ofProducts then [.tenant, .cache, .rateLimit]
  else [.tenant, .cache]

/- `@RateLimit` of the controller. -/
def controllerOpts (route : Route) :
    Option RateLimitOptions :=
  if route.ofProducts then
    some ⟨some 60000, some 60, none⟩
  else
    some ⟨some 60000, some 30, none⟩

/- `@RateLimit` of the handler. -/
def handlerOpts : Route → Option RateLimitOptions
  | productFindAll => some ⟨some 60000, some 30, none⟩
  | _ => none

/- The limit that is declared for a route. -/
def limit (route : Route) : RequiredRateLimit :=
  RateLimitInterceptor.resolveOptions route.handlerOpts
    route.controllerOpts

/- `${controllerName}.${methodName}`. -/
def name (route : Route) : String :=
  route.controllerName ++ "." ++ route.methodName

/- What holds of every route can be checked one by one. -/
theorem check_of_all
    (check : Route → Bool)
    (hAll : all.all check = true)
    (route : Route) : check route = true :=
  List.all_eq_true.mp hAll route route.mem_all

theorem limit_max_pos (route : Route) :
    0 < route.limit.max := by
  cases route <;> decide

theorem limit_keyByUser (route : Route) :
    route.limit.keyByUser = true := by
  cases route <;> decide

theorem name_plain (route : Route) :
    ':' ∉ route.name.toList := by
  have hCheck :=
    check_of_all (fun r => !(r.name.toList.contains ':'))
      (by decide +kernel) route
  simpa using hCheck

/- The name tells the route. -/
theorem name_inj
    {route route' : Route}
    (hName : route.name = route'.name) :
    route = route' := by
  have hCheck :=
    check_of_all
      (fun r => all.all fun r' =>
        decide (r.name = r'.name → r = r'))
      (by decide +kernel) route
  have hPair :=
    List.all_eq_true.mp hCheck route' route'.mem_all
  exact of_decide_eq_true hPair hName

end Route

end OrderApi

------------------------------------------------------------
-- Calls
------------------------------------------------------------

namespace OrderApi

/-
  A request of an authenticated user on a route, and whether
  the cache has a response for it when it comes.
-/
structure Call where
  route : Route
  arrival : Arrival
  hasUuid : isUuid arrival.request.user.id = true
  cached : Bool

/- How a request ends, or gets to its handler. -/
inductive Outcome where
  | forbidden
  | cached
  | rejected (exception : HttpException)
  | handled
deriving DecidableEq, Repr

namespace Call

def userId (call : Call) : String :=
  call.arrival.request.user.id

def role (call : Call) : Role :=
  call.arrival.request.user.role

/- The tenant that the counter of a call belongs to. -/
def tenant (call : Call) : String :=
  RateLimitInterceptor.tenant call.arrival.request

/- The database that the context of a call selects. -/
def database
    (platform : Platform)
    (env : Environment)
    (call : Call) : Option String :=
  match
      TenantInterceptor.tenantCode call.arrival.request with
  | some (.str tenantCode) =>
      some
        (DatabaseManagerService.databaseName platform env
          tenantCode)
  | _ => none

def key (call : Call) : String :=
  RateLimitInterceptor.buildKey call.arrival
    call.route.controllerName call.route.methodName
    call.route.limit

/- The call as the limiter counts it. -/
def hit (call : Call) : Hit :=
  ⟨call.key, call.arrival.now, call.route.limit⟩

/- `intercept`, one interceptor after the other. -/
def intercepted (call : Call) :
    List Interceptor → Counters → Outcome × Counters
  | [], counters => (.handled, counters)
  | .tenant :: interceptors, counters =>
      call.intercepted interceptors counters
  | .cache :: interceptors, counters =>
      if call.route.cacheable ∧ call.cached then
        (.cached, counters)
      else
        call.intercepted interceptors counters
  | .rateLimit :: interceptors, counters =>
      let (response, counters') :=
        RateLimitInterceptor.intercept call.route.handlerOpts
          call.route.controllerOpts call.route.controllerName
          call.route.methodName call.arrival counters
      match response.exception with
      | some exception => (.rejected exception, counters')
      | none => call.intercepted interceptors counters'

/- The role guard, and the interceptors behind it. -/
def serve (call : Call) (counters : Counters) :
    Outcome × Counters :=
  if call.role ∈ call.route.roles then
    call.intercepted call.route.interceptors counters
  else
    (.forbidden, counters)

end Call

/- Calls one after the other, each with how it ends. -/
def serveCalls :
    Counters → List Call → List (Call × Outcome)
  | _, [] => []
  | counters, call :: calls =>
      let served := call.serve counters
      (call, served.1) :: serveCalls served.2 calls

/- When the handler was called for calls of a kind. -/
def handledTimes
    (kind : Call → Bool)
    (served : List (Call × Outcome)) : List Nat :=
  (served.filter fun pair =>
    kind pair.1 ∧ pair.2 = .handled).map fun pair =>
      pair.1.arrival.now

/- The calls of a user on a route, for a database. -/
def isOf
    (platform : Platform)
    (env : Environment)
    (route : Route)
    (userId : String)
    (database : Option String)
    (call : Call) : Bool :=
  call.route = route ∧ call.userId = userId ∧
    call.database platform env = database

/-
  In no window that the calls fall into is the handler called
  more often than the limit of the route declares.
-/
def LimitBinds
    (platform : Platform)
    (env : Environment)
    (calls : List Call)
    (route : Route)
    (userId : String)
    (database : Option String) : Prop :=
  ∀ window ∈
      FixedWindow.windows route.limit.windowMs
        (handledTimes
          (isOf platform env route userId database)
          (serveCalls RateLimitInterceptor.noCounters calls)),
    window.length ≤ route.limit.max

/-
  The calls of a user on a route share a counter exactly
  when they share a database.
-/
def CountersFollowDatabases
    (platform : Platform)
    (env : Environment)
    (calls : List Call)
    (route : Route)
    (userId : String) : Prop :=
  ∀ a ∈ calls, ∀ b ∈ calls,
    a.route = route → a.userId = userId →
    b.route = route → b.userId = userId →
    (a.tenant = b.tenant ↔
      a.database platform env = b.database platform env)

end OrderApi

------------------------------------------------------------
-- Keys Tell Users and Routes Apart
------------------------------------------------------------

namespace OrderApi

namespace Call

theorem key_toList (call : Call) :
    call.key.toList =
      ((call.tenant.toList ++ ':' :: call.route.name.toList) ++
        [':']) ++
        ("user:".toList ++ call.userId.toList) := by
  simp [key, RateLimitInterceptor.buildKey,
    RateLimitInterceptor.principal, Route.limit_keyByUser,
    Route.name, tenant, userId]

/- A counter belongs to a route, a user and a spelling. -/
theorem eq_of_key_eq
    {call call' : Call}
    (hKey : call.key = call'.key) :
    call.route = call'.route ∧
      call.userId = call'.userId ∧
      call.tenant = call'.tenant := by
  have hLength :
      ∀ c : Call, c.userId.toList.length = 36 := by
    intro c
    have hUuid := c.hasUuid
    simp only [isUuid, Bool.and_eq_true,
      decide_eq_true_eq] at hUuid
    rw [String.length_toList]
    exact hUuid.1
  have hText := congrArg String.toList hKey
  rw [key_toList, key_toList] at hText
  rcases List.append_inj' hText (by simp [hLength]) with
    ⟨hFront, hUser⟩
  have hName := (List.append_inj' hFront rfl).1
  have hRoute :=
    eq_of_append_separator call.route.name_plain
      call'.route.name_plain hName
  have hTenant := hName
  rw [hRoute] at hTenant
  exact
    ⟨Route.name_inj (String.toList_inj.mp hRoute),
      String.toList_inj.mp
        (List.append_cancel_left hUser),
      String.toList_inj.mp
        (List.append_cancel_right hTenant)⟩

end Call

end OrderApi

------------------------------------------------------------
-- What the Limiter Lets Through
------------------------------------------------------------

namespace OrderApi

namespace Route

/- The controller of a route installs the limiter. -/
def Installs (route : Route) : Prop :=
  .rateLimit ∈ route.interceptors

instance (route : Route) : Decidable route.Installs :=
  inferInstanceAs (Decidable (_ ∈ _))

theorem ofProducts_of_installs
    {route : Route}
    (hInstalls : route.Installs) :
    route.ofProducts = true := by
  by_cases hProducts : route.ofProducts = true
  · exact hProducts
  · simp [Installs, interceptors, hProducts] at hInstalls

end Route

namespace Call

/- Whether a call gets to the limiter at all. -/
def reachesLimiter (call : Call) : Bool :=
  call.route.ofProducts ∧ call.role ∈ call.route.roles ∧
    ¬ (call.route.cacheable ∧ call.cached)

/- The limiter decides on the calls that reach it. -/
theorem serve_of_reachesLimiter
    {call : Call}
    (hReaches : call.reachesLimiter = true)
    (counters : Counters) :
    let admitted :=
      RateLimitInterceptor.countRequest call.route.limit call.key
        call.arrival.now counters
    ((call.serve counters).1 = .handled ↔
        admitted.1.admitted = true) ∧
      (call.serve counters).2 = admitted.2 := by
  simp only [reachesLimiter, decide_eq_true_eq] at hReaches
  rcases hReaches with ⟨hProducts, hRole, hCache⟩
  have hServe :
      call.serve counters =
        match
          (RateLimitInterceptor.countRequest call.route.limit
            call.key call.arrival.now
              counters).1.exception with
        | some exception =>
            (.rejected exception,
              (RateLimitInterceptor.countRequest call.route.limit
                call.key call.arrival.now counters).2)
        | none =>
            (.handled,
              (RateLimitInterceptor.countRequest call.route.limit
                call.key call.arrival.now counters).2) := by
    simp only [serve, hRole, if_true, Route.interceptors,
      hProducts, intercepted, hCache, if_false]
    rfl
  simp only [hServe, RateLimitResponse.admitted]
  cases
    (RateLimitInterceptor.countRequest call.route.limit call.key
      call.arrival.now counters).1.exception with
  | some exception => simp
  | none => simp

/- Other calls are not counted. -/
theorem serve_of_not_reachesLimiter
    {call : Call}
    (hReaches : call.reachesLimiter = false)
    (counters : Counters) :
    (call.serve counters).2 = counters ∧
      (call.route.ofProducts = true →
        (call.serve counters).1 ≠ .handled) := by
  by_cases hRole : call.role ∈ call.route.roles
  · by_cases hProducts : call.route.ofProducts = true
    · have hCache :
          call.route.cacheable = true ∧
            call.cached = true := by
        simpa [reachesLimiter, hProducts, hRole] using hReaches
      simp [serve, hRole, Route.interceptors, hProducts,
        intercepted, hCache.1, hCache.2]
    · by_cases hCache :
          call.route.cacheable = true ∧ call.cached = true
      · simp [serve, hRole, Route.interceptors, hProducts,
          intercepted, hCache.1, hCache.2]
      · simp [serve, hRole, Route.interceptors, hProducts,
          intercepted, hCache]
  · simp [serve, hRole]

end Call

/- The calls that are counted, in their order. -/
def limiterHits (calls : List Call) : List Hit :=
  (calls.filter Call.reachesLimiter).map Call.hit

theorem admittedTimes_cons
    (key : String)
    (hit : Hit)
    (response : RateLimitResponse)
    (served : List (Hit × RateLimitResponse)) :
    RateLimitInterceptor.admittedTimes key
        ((hit, response) :: served) =
      if hit.key = key ∧ response.admitted = true then
        hit.now ::
          RateLimitInterceptor.admittedTimes key served
      else
        RateLimitInterceptor.admittedTimes key served := by
  by_cases hKey : hit.key = key
  · by_cases hAdmitted : response.admitted = true
    · simp [RateLimitInterceptor.admittedTimes,
        RateLimitInterceptor.ownServed, hKey, hAdmitted]
    · simp [RateLimitInterceptor.admittedTimes,
        RateLimitInterceptor.ownServed, hKey, hAdmitted]
  · simp [RateLimitInterceptor.admittedTimes,
      RateLimitInterceptor.ownServed, hKey]

/-
  Calls that share a counter which no other call uses: the
  handler is called when the limiter lets one of them pass.
-/
theorem handledTimes_eq
    {kind : Call → Bool}
    {key : String}
    {calls : List Call}
    (hKind :
      ∀ call ∈ calls, kind call = true →
        call.route.ofProducts = true)
    (hKey :
      ∀ call ∈ calls, call.reachesLimiter = true →
        (kind call = true ↔ call.key = key))
    (counters : Counters) :
    handledTimes kind (serveCalls counters calls) =
      RateLimitInterceptor.admittedTimes key
        (RateLimitInterceptor.serve counters
          (limiterHits calls)) := by
  induction calls generalizing counters with
  | nil => rfl
  | cons call calls ih =>
      have hRest :=
        ih (fun other hMem => hKind other (by simp [hMem]))
          (fun other hMem => hKey other (by simp [hMem]))
          (call.serve counters).2
      have hCall :
          handledTimes kind
              (serveCalls counters (call :: calls)) =
            if kind call = true ∧
                (call.serve counters).1 = .handled then
              call.arrival.now ::
                handledTimes kind
                  (serveCalls (call.serve counters).2 calls)
            else
              handledTimes kind
                (serveCalls (call.serve counters).2
                  calls) := by
        simp only [serveCalls, handledTimes, List.filter_cons,
          decide_eq_true_eq]
        split
        · rfl
        · rfl
      rw [hCall, hRest]
      by_cases hReaches : call.reachesLimiter = true
      · have hServe :=
          call.serve_of_reachesLimiter hReaches counters
        have hHits :
            limiterHits (call :: calls) =
              call.hit :: limiterHits calls := by
          simp [limiterHits, hReaches]
        rw [hHits, RateLimitInterceptor.serve,
          admittedTimes_cons, hServe.2]
        simp only [hServe.1,
          hKey call List.mem_cons_self hReaches]
        rfl
      · have hNot : call.reachesLimiter = false := by
          simpa using hReaches
        have hServe :=
          call.serve_of_not_reachesLimiter hNot counters
        have hHits :
            limiterHits (call :: calls) =
              limiterHits calls := by
          simp [limiterHits, hNot]
        rw [hHits, hServe.1, if_neg]
        rintro ⟨hOf, hHandled⟩
        exact
          hServe.2 (hKind call List.mem_cons_self hOf)
            hHandled

end OrderApi

------------------------------------------------------------
-- Declared Limits
------------------------------------------------------------

namespace OrderApi

/- Calls of a kind that never comes pass no limit. -/
theorem handledTimes_eq_nil
    {kind : Call → Bool}
    {calls : List Call}
    (hNone : ∀ call ∈ calls, kind call = false)
    (counters : Counters) :
    handledTimes kind (serveCalls counters calls) = [] := by
  induction calls generalizing counters with
  | nil => rfl
  | cons call calls ih =>
      have hCall := hNone call List.mem_cons_self
      have hRest :=
        ih (fun other hMem => hNone other (by simp [hMem]))
          (call.serve counters).2
      simpa [handledTimes, serveCalls, hCall] using hRest

/- All calls under a key come with the limit of its route. -/
theorem fixedOptions_limiterHits
    (call : Call)
    (calls : List Call) :
    RateLimitInterceptor.FixedOptions call.route.limit
      call.key (limiterHits calls) := by
  intro hit hMem hKey
  rcases List.mem_map.mp hMem with ⟨other, _, rfl⟩
  rcases Call.eq_of_key_eq hKey with ⟨hRoute, _, _⟩
  exact congrArg Route.limit hRoute

/- Where counters follow databases, a counter has one. -/
theorem isOf_iff_key_eq
    {platform : Platform}
    {env : Environment}
    {calls : List Call}
    {first call : Call}
    (hFollows :
      CountersFollowDatabases platform env calls first.route
        first.userId)
    (hFirst : first ∈ calls)
    (hCall : call ∈ calls) :
    isOf platform env first.route first.userId
        (first.database platform env) call = true ↔
      call.key = first.key := by
  simp only [isOf, decide_eq_true_eq]
  constructor
  · intro hIs
    rcases hIs with ⟨hRoute, hUser, hDatabase⟩
    have hTenant :=
      (hFollows call hCall first hFirst hRoute hUser rfl
        rfl).mpr hDatabase
    apply String.toList_inj.mp
    rw [Call.key_toList, Call.key_toList, hRoute, hUser,
      hTenant]
  · intro hKey
    rcases Call.eq_of_key_eq hKey with
      ⟨hRoute, hUser, hTenant⟩
    exact
      ⟨hRoute, hUser,
        (hFollows call hCall first hFirst hRoute hUser rfl
          rfl).mp hTenant⟩

/- The times that are counted do not go back. -/
theorem timesOf_limiterHits_sorted
    {calls : List Call}
    (hClock :
      (calls.map fun call => call.arrival.now).Pairwise
        (· ≤ ·))
    (key : String) :
    (RateLimitInterceptor.timesOf key
      (limiterHits calls)).Pairwise (· ≤ ·) := by
  have hTimes :
      ((limiterHits calls).map Hit.now).Sublist
        (calls.map fun call => call.arrival.now) := by
    rw [limiterHits, List.map_map]
    exact List.filter_sublist.map (Hit.now ∘ Call.hit)
  exact
    (hClock.sublist hTimes).sublist
      (List.filter_sublist.map Hit.now)

/-
  On a route whose controller installs the limiter, the limit
  binds the user wherever counters follow databases.
-/
theorem limitBinds_of_followsDatabases
    {platform : Platform}
    {env : Environment}
    {calls : List Call}
    {route : Route}
    {userId : String}
    (hClock :
      (calls.map fun call => call.arrival.now).Pairwise
        (· ≤ ·))
    (hInstalls : route.Installs)
    (hFollows :
      CountersFollowDatabases platform env calls route userId)
    (database : Option String) :
    LimitBinds platform env calls route userId database := by
  intro window hWindow
  by_cases hNone :
      ∀ call ∈ calls,
        isOf platform env route userId database call = false
  · rw [handledTimes_eq_nil hNone,
      FixedWindow.windows_nil] at hWindow
    cases hWindow
  · push Not at hNone
    rcases hNone with ⟨first, hFirst, hFirstOf⟩
    have hFirstIs :
        first.route = route ∧ first.userId = userId ∧
          first.database platform env = database := by
      simpa [isOf] using hFirstOf
    rcases hFirstIs with ⟨rfl, rfl, rfl⟩
    have hTimes :
        handledTimes
            (isOf platform env first.route first.userId
              (first.database platform env))
            (serveCalls RateLimitInterceptor.noCounters
              calls) =
          RateLimitInterceptor.admittedTimes first.key
            (RateLimitInterceptor.serve
              RateLimitInterceptor.noCounters
              (limiterHits calls)) := by
      apply handledTimes_eq
      · intro call _ hOf
        simp only [isOf, decide_eq_true_eq] at hOf
        rw [hOf.1]
        exact Route.ofProducts_of_installs hInstalls
      · intro call hCall _
        exact isOf_iff_key_eq hFollows hFirst hCall
    rw [hTimes,
      RateLimitInterceptor.admittedTimes_eq
        (fixedOptions_limiterHits first calls)] at hWindow
    exact
      FixedWindow.length_le_of_mem_windows_passed
        first.route.limit_max_pos
        (timesOf_limiterHits_sorted hClock first.key) hWindow

end OrderApi

------------------------------------------------------------
-- Sample Calls
------------------------------------------------------------

namespace OrderApi

namespace Flood

def customer : AuthUser :=
  ⟨"8a6e0804-2bd0-4672-b79d-d97027f9071a", .CUSTOMER, none⟩

theorem customer_hasUuid : isUuid customer.id = true := by
  decide +kernel

/- A request of the customer that no cache answers. -/
def call
    (route : Route)
    (params : List (String × String))
    (now : Nat) : Call where
  route := route
  arrival :=
    { now := now
      request :=
        { params := routeParams params
          query := JsObject.empty
          user := customer }
      ip := none
      remoteAddress := none }
  hasUuid := customer_hasUuid
  cached := false

/- Some times, a second apart. -/
def seconds (n : Nat) : List Nat :=
  (List.range n).map fun second => 1000 * second

/- One payment after the other. -/
def payments : List Call :=
  (seconds 31).map
    (call .orderPaymentReceived
      [("tenantCode", "acme"), ("id", "o1")])

/- The products of a tenant, under two spellings. -/
def lists : List Call :=
  (seconds 31).map fun now =>
    call .productFindAll
      [("tenantCode", if now = 0 then "ACME" else "acme")]
      now

/- Half a minute lies in one window of a minute. -/
theorem windows_seconds :
    FixedWindow.windows 60000 (seconds 31) =
      [seconds 31] := by
  have hInside :
      ((seconds 31).tail.all (FixedWindow.within 60000 0)) =
        true := by
    decide
  exact
    FixedWindow.windows_of_all_within
      (List.all_eq_true.mp hInside)

end Flood

/-
  The claim for every customer: a limit binds on each route,
  however often and in whatever spelling it is called.
-/
def LimitsBind
    (platform : Platform)
    (env : Environment)
    (route : Route) : Prop :=
  ∀ (calls : List Call) (userId : String)
    (database : Option String),
    ((calls.map fun call => call.arrival.now).Pairwise
      (· ≤ ·)) →
    (∀ call ∈ calls,
      call.userId = userId → call.role = .CUSTOMER) →
    LimitBinds platform env calls route userId database

/- Calls of one window that are all handled. -/
theorem Flood.limit_exceeded
    {route : Route}
    (calls : List Call)
    (hWindow : route.limit.windowMs = 60000)
    (hMax : route.limit.max = 30)
    (hClock :
      (calls.map fun call => call.arrival.now).Pairwise
        (· ≤ ·))
    (hRole : ∀ call ∈ calls, call.role = .CUSTOMER)
    (hHandled :
      handledTimes
          (isOf Onboarding.platform Onboarding.env route
            Flood.customer.id (some "tenant_acme"))
          (serveCalls RateLimitInterceptor.noCounters
            calls) =
        Flood.seconds 31) :
    ¬ LimitsBind Onboarding.platform Onboarding.env route := by
  intro hBind
  have hBinds :=
    hBind calls Flood.customer.id (some "tenant_acme") hClock
      (fun call hMem _ => hRole call hMem)
  have hLength :=
    hBinds (Flood.seconds 31) (by
      rw [hHandled, hWindow, Flood.windows_seconds]
      exact List.mem_singleton_self _)
  rw [hMax] at hLength
  exact absurd hLength (by decide)

/-
  Payments are not limited, and the lists of a tenant's
  products are limited for each spelling of its code.
-/
theorem not_limitsBind :
    ¬ LimitsBind Onboarding.platform Onboarding.env
        .orderPaymentReceived ∧
      ¬ LimitsBind Onboarding.platform Onboarding.env
        .productFindAll := by
  constructor
  · exact
      Flood.limit_exceeded Flood.payments rfl rfl
        (by decide +kernel) (by decide +kernel)
        (by decide +kernel)
  · exact
      Flood.limit_exceeded Flood.lists rfl rfl
        (by decide +kernel) (by decide +kernel)
        (by decide +kernel)

/- One spelling only. -/
theorem limitBinds_of_followsDatabases_of_lists :
    LimitBinds Onboarding.platform Onboarding.env
      ((Flood.seconds 3).map
        (Flood.call .productFindAll
          [("tenantCode", "ACME")]))
      .productFindAll Flood.customer.id
      (some "tenant_acme") :=
  limitBinds_of_followsDatabases (by decide +kernel)
    (by decide)
    (by
      unfold CountersFollowDatabases
      decide +kernel)
    (some "tenant_acme")

end OrderApi
