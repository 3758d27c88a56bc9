import OrderApi.Core.Pool
import OrderApi.User.UserService
import OrderApi.Rabbitmq.DatabaseCreationConsumer

/-
  The running system that enrols users and provisions the
  databases of tenants: user creations, and handlings of
  database-creation messages, interleaved call by call.

  A handling that is not resumed is one whose consumer has
  crashed; its message stays in the queue and may be handled
  again, as may one that failed or was never acknowledged.

  Key definitions include:
    * `TenancyJob`
    * `tenancySystem`
    * `TenancyRun`
    * `Onboarding.store`
-/

------------------------------------------------------------
-- The System
------------------------------------------------------------

namespace OrderApi

/- What may be started. -/
inductive TenancyJob where
  | createUser
      (hashedPassword : String)
      (body : CreateUserDto)
  | handleDatabaseCreation
      (message : DatabaseCreationMessage)

namespace TenancyJob

/- A message may be handled once it is in the queue. -/
def ready (store : Registry) : TenancyJob → Bool
  | createUser _ _ => true
  | handleDatabaseCreation message =>
      message ∈ store.databaseCreation

/- The program of a job, its result forgotten. -/
def handler
    (platform : Platform)
    (env : Environment)
    (files : MigrationFiles) :
    TenancyJob → TenancyHandler Unit
  | createUser hashedPassword body =>
      (UserService.create hashedPassword body).ignore
  | handleDatabaseCreation message =>
      DatabaseCreationConsumer.handleDatabaseCreation platform
        env files message

end TenancyJob

/- The registry with all jobs started so far. -/
abbrev TenancyWorld :=
  Pool TenancyJob TenancyOp TenancyOp.Res ApiError Registry

abbrev TenancyLabel := PoolLabel TenancyJob Choice

abbrev TenancyStep := Transition TenancyWorld TenancyLabel

def tenancySystem
    (platform : Platform)
    (env : Environment)
    (files : MigrationFiles) :
    PoolSystem TenancyJob TenancyOp TenancyOp.Res ApiError
      Choice Registry where
  exec := TenancyOp.exec platform
  program := TenancyJob.handler platform env files
  ready := TenancyJob.ready

/- Runs of the system from a store where nothing runs. -/
abbrev TenancyRun
    (platform : Platform)
    (env : Environment)
    (files : MigrationFiles)
    (store : Registry) :
    List TenancyStep → TenancyWorld → Prop :=
  Run (tenancySystem platform env files).step
    (PoolSystem.idle store)

/- Nobody is registered yet, and nothing is queued. -/
structure Registry.Unregistered (store : Registry) :
    Prop where
  no_users : store.users.rows = []
  no_messages : store.databaseCreation = []

end OrderApi

------------------------------------------------------------
-- An Onboarding
------------------------------------------------------------

namespace OrderApi

namespace Onboarding

/- A migration of two statements, one of which is skipped. -/
def files : MigrationFiles where
  dirs :=
    [("1_add_products",
      some
        ("CREATE TABLE \"products\" ();\n" ++
          "ALTER TABLE \"users\" ADD \"x\" TEXT;\n"))]
  nodup := by simp

/- A server with the default database and no users. -/
def store : Registry where
  users := Table.empty
  databases := fun name =>
    if name = "tenant_master" then some TenantSchema.empty
    else none
  databaseCreation := []

theorem store_unregistered : store.Unregistered :=
  ⟨rfl, rfl⟩

/- A tenant whose database is there, without migrations. -/
def deployed : Registry where
  users :=
    { rows :=
        [{ id := "b"
           email := "b"
           username := "b"
           password := "hash"
           role := .ADMIN
           tenantCode := some "bolt"
           isDatabaseCreated := true }]
      nodup := by simp }
  databases := fun name =>
    if name = "tenant_bolt" then
      some ⟨[], some Table.empty⟩
    else
      none
  databaseCreation := []

/- The URLs of the clients of the tenants. -/
def clientUrls : String → String :=
  DatabaseManagerService.clientUrl platform env

theorem databaseOf_bolt :
    platform.databaseOf (clientUrls "bolt") =
      some "tenant_bolt" := by
  decide +kernel

/- The enrolment of an administrator of a tenant. -/
def admin (email tenantCode : String) : TenancyJob :=
  .createUser "hash"
    { email := email
      username := email
      password := "secret"
      role := some .ADMIN
      tenantCode := some tenantCode }

/- An answered call of a thread. -/
def go (index : Nat) (freshId : String) : TenancyLabel :=
  .resume index (.answer ⟨freshId, 0⟩)

/- Calls of a thread that create no users. -/
def goOn (index calls : Nat) : List TenancyLabel :=
  List.replicate calls (go index "")

/- Thread `index` enrols an administrator. -/
def enrol (index : Nat) (id tenantCode : String) :
    List TenancyLabel :=
  [.start (admin id tenantCode)] ++ goOn index 2 ++
    [go index id] ++ goOn index 1

/- The handling of a message starts. -/
def handle (id tenantCode : String) : TenancyLabel :=
  .start (.handleDatabaseCreation ⟨id, tenantCode⟩)

/- A run of the onboarding that passes a check. -/
theorem exists_run
    (labels : List TenancyLabel)
    (check : List TenancyStep → TenancyWorld → Bool)
    (hReplay :
      (replay (tenancySystem platform env files).step labels
          [] (PoolSystem.idle store)).any
        (fun run => check run.1 run.2) = true) :
    ∃ history world,
      TenancyRun platform env files store history world ∧
        check history world = true :=
  Run.exists_of_replay labels check hReplay

end Onboarding

end OrderApi
