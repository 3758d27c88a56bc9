import OrderApi.Auth.AuthService
import OrderApi.Core.Sides
import OrderApi.Prisma.TenantMigration
import OrderApi.System.OrderSystem
import OrderApi.System.TenancySystem

/-
  The whole application: every route of its controllers with
  its guards, and the three consumers, on one server.

  The registry and the tenant databases are two views of the
  server.  They share the users, and have the same databases
  by name; a database that was just created has its tables.

  A request carries the payload of its token, which is any
  that was once signed.  Its interceptors make no call, and
  a request that they end is one that is not resumed.

  Key definitions include:
    * `ApiStore`, `ApiOp.exec`
    * `UserRoute`, `TenantRoute`, `ApiRoute`
    * `guarded`
    * `ApiJob`, `apiSystem`, `ApiRun`

  Key theorems include:
    * `StoreOp.exec_users`
    * `TenantRoute.ready_job`
-/

------------------------------------------------------------
-- The Store
------------------------------------------------------------

namespace OrderApi

abbrev ApiOp := TenancyOp ⊕ StoreOp

abbrev ApiRes : ApiOp → Type :=
  Sum.elim TenancyOp.Res StoreOp.Res

/- The registry, and the tenant databases. -/
structure ApiStore where
  registry : Registry
  tenants : Backend
  users_eq : tenants.users = registry.users
  exists_eq :
    ∀ name,
      (tenants.dbs name).isSome =
        (registry.databases name).isSome

/- The tenant databases of a registry that has changed. -/
def Backend.follow
    (tenants : Backend)
    (registry : Registry) : Backend :=
  { tenants with
    users := registry.users
    dbs := fun name =>
      (registry.databases name).map fun _ =>
        (tenants.dbs name).getD TenantDb.empty }

namespace StoreOp

variable {choice : Choice} {op : StoreOp}

/- No call on the tenant databases changes a user. -/
theorem exec_users (store : Backend) :
    (op.exec choice store).2.users = store.users := by
  cases op with
  | tenant name op =>
      rcases exec_tenant_cases choice name op store with
        ⟨_, hError⟩ | ⟨_, _, db', _, _, _, _, hOk⟩
      · rw [hError]
      · rw [hOk]
        rfl
  | findReadyTenants => cases choice <;> rfl
  | publishOrderProcessing message => cases choice <;> rfl
  | publishOrderCompleted message => cases choice <;> rfl

/- Nor does one create or drop a database. -/
theorem exec_exists (store : Backend) (name : String) :
    ((op.exec choice store).2.dbs name).isSome =
      (store.dbs name).isSome := by
  have hExec :
      op.exec choice store =
        ((op.exec choice store).1,
          (op.exec choice store).2) := rfl
  rcases exec_dbs_cases hExec with
    hSame | ⟨used, _, _, _, db', _, _, _, _, hDb, _, hStore⟩
  · rw [hSame]
  · rw [hStore]
    by_cases hName : name = used
    · subst hName
      rw [Backend.put_dbs_same, hDb]
      rfl
    · rw [Backend.put_dbs_other hName]

end StoreOp

/- A call changes its view, and the other view follows. -/
def ApiOp.exec
    (platform : Platform)
    (choice : Choice) :
    (op : ApiOp) → ApiStore →
      Except ApiError (ApiRes op) × ApiStore
  | .inl op, store =>
      let answer := op.exec platform choice store.registry
      (answer.1,
        { registry := answer.2
          tenants := store.tenants.follow answer.2
          users_eq := rfl
          exists_eq := fun _ => Option.isSome_map })
  | .inr op, store =>
      let answer := op.exec choice store.tenants
      (answer.1,
        { registry := store.registry
          tenants := answer.2
          users_eq :=
            (StoreOp.exec_users store.tenants).trans
              store.users_eq
          exists_eq := fun name =>
            (StoreOp.exec_exists store.tenants name).trans
              (store.exists_eq name) })

section Exec

variable
  {platform : Platform}
  {choice : Choice}
  {store store' : ApiStore}

/- What a call on the registry does to it. -/
theorem ApiOp.exec_inl
    {op : TenancyOp}
    {answer : Except ApiError op.Res}
    (hExec :
      ApiOp.exec platform choice (.inl op) store =
        (answer, store')) :
    op.exec platform choice store.registry =
      (answer, store'.registry) := by
  cases hExec
  rfl

/- Other calls leave the registry. -/
theorem ApiOp.exec_inr
    {op : StoreOp}
    {answer : Except ApiError op.Res}
    (hExec :
      ApiOp.exec platform choice (.inr op) store =
        (answer, store')) :
    store'.registry = store.registry := by
  cases hExec
  rfl

end Exec

end OrderApi

------------------------------------------------------------
-- Routes
------------------------------------------------------------

namespace OrderApi

abbrev ApiHandler (α : Type) :=
  Program ApiOp ApiRes ApiError α

/- `src/user/user.controller.ts`. -/
inductive UserRoute where
  | create (hashedPassword : String) (body : CreateUserDto)
  | findAll
  | findOne (id : String)
  | update
      (hashedPassword id : String)
      (body : UpdateUserDto)
  | remove (id : String)
  | checkDatabaseStatus (id : String)

/- `@Roles` of all its routes. -/
def UserRoute.roles (_ : UserRoute) : List Role :=
  [.ADMIN]

def UserRoute.handler : UserRoute → TenancyHandler Unit
  | create hashedPassword body =>
      (UserService.create hashedPassword body).ignore
  | findAll => UserService.findAll.ignore
  | findOne id => (UserService.findOne id).ignore
  | update hashedPassword id body =>
      (UserService.update hashedPassword id body).ignore
  | remove id => (UserService.remove id).ignore
  | checkDatabaseStatus id =>
      (UserService.checkDatabaseStatus id).ignore

/- The routes of the order and the product controller. -/
inductive TenantRoute where
  | createOrder (tenantCode : String) (body : CreateOrderDto)
  | findOrders (page perPage : Option String)
  | findOrder (tenantCode id : String)
  | paymentReceived (tenantCode id : String)
  | completeOrder (tenantCode id transactionId : String)
  | createProduct
      (tenantCode : String)
      (body : CreateProductDto)
  | findProducts
      (tenantCode : String)
      (page perPage : Option String)
  | findProduct (tenantCode id : String)
  | updateProduct
      (tenantCode id : String)
      (body : UpdateProductDto)
  | removeProduct (tenantCode id : String)

namespace TenantRoute

/- `@Roles` of each route. -/
def roles : TenantRoute → List Role
  | createOrder _ _ => [.CUSTOMER]
  | findOrders _ _ => [.CUSTOMER, .ADMIN]
  | findOrder _ _ => [.CUSTOMER, .ADMIN]
  | paymentReceived _ _ => [.CUSTOMER]
  | completeOrder _ _ _ => [.CUSTOMER]
  | createProduct _ _ => [.ADMIN]
  | findProducts _ _ _ => [.ADMIN, .CUSTOMER]
  | findProduct _ _ => [.ADMIN, .CUSTOMER]
  | updateProduct _ _ _ => [.ADMIN]
  | removeProduct _ _ => [.ADMIN]

/- The job of a request that is let through for a user. -/
def job (user : AuthUser) : TenantRoute → Job
  | createOrder tenantCode body =>
      .createOrder user tenantCode body
  | findOrders page perPage => .findOrders user page perPage
  | findOrder tenantCode id => .findOrder user tenantCode id
  | paymentReceived tenantCode id =>
      .paymentReceived user tenantCode id
  | completeOrder tenantCode id transactionId =>
      .completeOrder user tenantCode id transactionId
  | createProduct tenantCode body =>
      .createProduct user tenantCode body
  | findProducts tenantCode page perPage =>
      .findProducts user tenantCode page perPage
  | findProduct tenantCode id =>
      .findProduct user tenantCode id
  | updateProduct tenantCode id body =>
      .updateProduct user tenantCode id body
  | removeProduct tenantCode id =>
      .removeProduct user tenantCode id

/- The roles guard starts the job where it may start. -/
theorem ready_job
    (store : Backend)
    (user : ValidatedUser)
    (route : TenantRoute) :
    (route.job user.authUser).ready store =
      RolesGuard.canActivate (some route.roles) user := by
  have hAllows :
      ∀ roles : List Role,
        Job.allows roles user.authUser =
          RolesGuard.canActivate (some roles) user := by
    intro roles
    rw [Bool.eq_iff_iff, Job.allows, decide_eq_true_iff]
    simp [RolesGuard.canActivate, ValidatedUser.authUser]
  cases route with
  | _ => exact hAllows _

end TenantRoute

/- What a signed token is needed for. -/
inductive ApiRoute where
  | getProfile
  | users (route : UserRoute)
  | tenant (route : TenantRoute)

namespace ApiRoute

/- The profile has no `RolesGuard`. -/
def roles : ApiRoute → Option (List Role)
  | getProfile => none
  | users route => some route.roles
  | tenant route => some route.roles

/- The handler of a route, its result forgotten. -/
def handler
    (databaseName : String → String)
    (user : ValidatedUser) : ApiRoute → ApiHandler Unit
  | getProfile => pure ()
  | users route => route.handler.onLeft
  | tenant route =>
      ((route.job user.authUser).handler databaseName).onRight

end ApiRoute

/- `JwtAuthGuard` and `RolesGuard` in front of a handler. -/
def guarded
    (payload : JwtPayload)
    (roles : Option (List Role))
    (handler : ValidatedUser → ApiHandler Unit) :
    ApiHandler Unit :=
  (JwtStrategy.validate payload).onLeft.bind fun user =>
    if RolesGuard.canActivate roles user then
      handler user
    else
      .fail RolesGuard.forbidden

end OrderApi

------------------------------------------------------------
-- The System
------------------------------------------------------------

namespace OrderApi

/-
  What may be started: a request to a public route, one with
  a token, or the handling of a queued message.
-/
inductive ApiJob where
  | register (hashedPassword : String) (body : Body)
  | login (body : Body)
  | migrateTenants (clientUrl : String → String)
  | request (payload : JwtPayload) (route : ApiRoute)
  | handleDatabaseCreation
      (message : DatabaseCreationMessage)
  | handleOrderProcessing
      (paymentId : String)
      (message : OrderProcessingMessage)
  | handleOrderCompleted (message : OrderCompletedMessage)

namespace ApiJob

/- A message may be handled once it is in its queue. -/
def ready (store : ApiStore) : ApiJob → Bool
  | handleDatabaseCreation message =>
      message ∈ store.registry.databaseCreation
  | handleOrderProcessing _ message =>
      message ∈ store.tenants.orderProcessing
  | handleOrderCompleted message =>
      message ∈ store.tenants.orderCompleted
  | _ => true

/- The program of a job, its result forgotten. -/
def handler
    (platform : Platform)
    (auth : AuthPlatform)
    (env : Environment)
    (files : MigrationFiles)
    (databaseName : String → String) :
    ApiJob → ApiHandler Unit
  | register hashedPassword body =>
      match RegisterDto.ofBody auth body with
      | .error error => .fail error
      | .ok registerDto =>
          (AuthService.register auth hashedPassword
            registerDto).ignore.onLeft
  | login body =>
      match LoginDto.ofBody auth body with
      | .error error => .fail error
      | .ok loginDto =>
          (AuthService.login auth loginDto).ignore.onLeft
  | migrateTenants clientUrl =>
      (TenantMigrationService.migrateAllTenants clientUrl
        files).ignore.onLeft
  | request payload route =>
      guarded payload route.roles fun user =>
        route.handler databaseName user
  | handleDatabaseCreation message =>
      (DatabaseCreationConsumer.handleDatabaseCreation
        platform env files message).onLeft
  | handleOrderProcessing paymentId message =>
      (OrderProcessingConsumer.handleOrderProcessing
        databaseName paymentId message).onRight
  | handleOrderCompleted message =>
      (OrderCompletedConsumer.handleOrderCompleted
        databaseName message).onRight

end ApiJob

/- The store with all jobs started so far. -/
abbrev ApiWorld :=
  Pool ApiJob ApiOp ApiRes ApiError ApiStore

abbrev ApiLabel := PoolLabel ApiJob Choice

abbrev ApiStep := Transition ApiWorld ApiLabel

def apiSystem
    (platform : Platform)
    (auth : AuthPlatform)
    (env : Environment)
    (files : MigrationFiles)
    (databaseName : String → String) :
    PoolSystem ApiJob ApiOp ApiRes ApiError Choice
      ApiStore where
  exec := ApiOp.exec platform
  program :=
    ApiJob.handler platform auth env files databaseName
  ready := ApiJob.ready

/- Runs of the system from a store where nothing runs. -/
abbrev ApiRun
    (platform : Platform)
    (auth : AuthPlatform)
    (env : Environment)
    (files : MigrationFiles)
    (databaseName : String → String)
    (store : ApiStore) :
    List ApiStep → ApiWorld → Prop :=
  Run
    (apiSystem platform auth env files databaseName).step
    (PoolSystem.idle store)

/- The job on behalf of which a step is taken. -/
def jobOf? (t : ApiStep) : Option ApiJob :=
  match t.label with
  | .start _ => none
  | .resume index _ =>
      (t.before.threads[index]?).map Thread.job

end OrderApi
