import OrderApi.System.TenancySystem

/-
  Runs of user creations, updates and removals, and of
  handled database-creation messages.

  An ADMIN is created with a tenant code and anybody else
  without; an update may write the role alone.

  Key definitions include:
    * `UserJob`, `userSystem`, `UserRun`
    * `RolesConsistent`
    * `KeepsRole`

  Key theorems include:
    * `calls_handleDatabaseCreation`
    * `userSystem_calls`
    * `rolesConsistent_iff_keepsRole`
-/

------------------------------------------------------------
-- The System
------------------------------------------------------------

namespace OrderApi

/- What may be started. -/
inductive UserJob where
  | create (hashedPassword : String) (body : CreateUserDto)
  | update
      (hashedPassword id : String)
      (body : UpdateUserDto)
  | remove (id : String)
  | handleDatabaseCreation
      (message : DatabaseCreationMessage)

namespace UserJob

/- A message may be handled once it is in the queue. -/
def ready (store : Registry) : UserJob → Bool
  | handleDatabaseCreation message =>
      message ∈ store.databaseCreation
  | _ => true

/- The program of a job, its result forgotten. -/
def handler
    (platform : Platform)
    (env : Environment)
    (files : MigrationFiles) :
    UserJob → TenancyHandler Unit
  | create hashedPassword body =>
      (UserService.create hashedPassword body).ignore
  | update hashedPassword id body =>
      (UserService.update hashedPassword id body).ignore
  | remove id => (UserService.remove id).ignore
  | handleDatabaseCreation message =>
      DatabaseCreationConsumer.handleDatabaseCreation platform
        env files message

end UserJob

/- The registry with all jobs started so far. -/
abbrev UserWorld :=
  Pool UserJob TenancyOp TenancyOp.Res ApiError Registry

abbrev UserLabel := PoolLabel UserJob Choice

abbrev UserStep := Transition UserWorld UserLabel

def userSystem
    (platform : Platform)
    (env : Environment)
    (files : MigrationFiles) :
    PoolSystem UserJob TenancyOp TenancyOp.Res ApiError
      Choice Registry where
  exec := TenancyOp.exec platform
  program := UserJob.handler platform env files
  ready := UserJob.ready

/- Runs of the system from a store where nothing runs. -/
abbrev UserRun
    (platform : Platform)
    (env : Environment)
    (files : MigrationFiles)
    (store : Registry) :
    List UserStep → UserWorld → Prop :=
  Run (userSystem platform env files).step
    (PoolSystem.idle store)

end OrderApi

------------------------------------------------------------
-- The Calls of the Consumer
------------------------------------------------------------

namespace OrderApi

open Program

/- The calls that create, change or remove users. -/
def TenancyOp.isUserWrite : TenancyOp → Bool
  | userCreate _ => true
  | userUpdate _ _ => true
  | userDelete _ => true
  | _ => false

/- The calls that leave users as they are, but for a mark. -/
def NoUserWrite (op : TenancyOp) : Prop :=
  op.isUserWrite = false

/- The call that marks a user's database as created. -/
def TenancyOp.isMark : TenancyOp → Bool
  | userSetDatabaseCreated _ => true
  | _ => false

/- The calls that leave users as they are. -/
def LeavesUsers (op : TenancyOp) : Prop :=
  NoUserWrite op ∧ op.isMark = false

namespace DatabaseCreationConsumer

variable {platform : Platform} {env : Environment}
variable {files : MigrationFiles}

theorem calls_onTenant
    (databaseUrl : String)
    (op : SchemaOp) :
    Calls LeavesUsers (onTenant databaseUrl op) :=
  calls_perform ⟨rfl, rfl⟩

theorem calls_applyMigration
    (databaseUrl migrationSQL migrationId : String) :
    Calls LeavesUsers
      (applyMigration platform databaseUrl migrationSQL
        migrationId) := by
  refine calls_attempt (calls_bind ?_ fun _ => ?_) ?_
  · apply calls_forEach
    intro statement
    unfold executeStatement
    split
    · exact calls_done ()
    · exact calls_onTenant _ _
  · exact calls_onTenant _ _
  · intro migrationError
    exact
      calls_bind (calls_onTenant _ _) fun _ =>
        calls_fail migrationError

theorem calls_runMigration
    (databaseUrl : String)
    (migration : Migration) :
    Calls LeavesUsers
      (runMigration platform databaseUrl migration) := by
  refine calls_bind (calls_onTenant _ _) ?_
  intro existingMigration
  split
  · exact
      calls_bind (calls_onTenant _ _) fun migrationId =>
        calls_applyMigration _ _ _
  · exact calls_done ()

theorem calls_migrate (databaseUrl : String) :
    Calls LeavesUsers
      (migrate platform files databaseUrl) := by
  refine calls_bind (calls_onTenant _ _) fun _ => ?_
  refine calls_bind (calls_onTenant _ _) fun _ => ?_
  exact
    calls_bind (calls_forEach (calls_runMigration _) _)
      fun _ => calls_perform ⟨rfl, rfl⟩

theorem calls_createDatabase
    (databaseName : String)
    (own : Bool) :
    Calls LeavesUsers (createDatabase databaseName own) := by
  refine calls_andFinally ?_ ?_
  · exact calls_perform ⟨rfl, rfl⟩
  · cases own with
    | true => exact calls_perform ⟨rfl, rfl⟩
    | false => exact calls_done ()

theorem calls_createAndMigrate (tenantCode : String) :
    Calls LeavesUsers
      (createAndMigrateTenantDatabase platform env files
        tenantCode) := by
  apply calls_attempt
  · refine calls_bind ?_ fun own => ?_
    · exact
        calls_attempt
          (calls_bind (calls_perform ⟨rfl, rfl⟩) fun _ =>
            calls_done true)
          fun _ => calls_done false
    · refine
        calls_bind (calls_createDatabase _ own) fun _ => ?_
      apply calls_attempt (calls_migrate _)
      intro error
      refine calls_bind ?_ fun _ => calls_fail error
      exact
        calls_attempt (calls_perform ⟨rfl, rfl⟩) fun _ =>
          calls_done ()
  · intro error
    split
    · exact calls_done ()
    · exact calls_fail _

/- A handling writes nothing to users but its mark. -/
theorem calls_handleDatabaseCreation
    (message : DatabaseCreationMessage) :
    Calls
      (fun op =>
        LeavesUsers op ∨
          op = .userSetDatabaseCreated message.userId)
      (handleDatabaseCreation platform env files
        message) := by
  refine calls_bind ?_ fun _ => calls_perform (Or.inr rfl)
  exact
    (calls_createAndMigrate message.tenantCode).mono
      fun op hLeaves => Or.inl hLeaves

end DatabaseCreationConsumer

end OrderApi

------------------------------------------------------------
-- The Calls of the User Service
------------------------------------------------------------

namespace OrderApi

namespace UserService

open Program

/- A user is created with a code exactly as an ADMIN. -/
def CreatesConsistent (op : TenancyOp) : Prop :=
  ∀ data, op = .userCreate data →
    (data.role = .ADMIN ↔ data.tenantCode ≠ none)

/- Other calls create nobody. -/
theorem createsConsistent_of_other
    {op : TenancyOp}
    (hOther : ∀ data, op ≠ .userCreate data) :
    CreatesConsistent op := by
  intro data hOp
  exact (hOther data hOp).elim

/- What passes both checks is consistent. -/
theorem dataOf_consistent
    {hashedPassword : String}
    {body : CreateUserDto}
    (hAdmitted : Admitted body) :
    CreatesConsistent
      (.userCreate (dataOf hashedPassword body)) := by
  rintro data hOp
  cases hOp
  have hRole :
      (dataOf hashedPassword body).role = .ADMIN ↔
        body.role = some .ADMIN := by
    cases hBody : body.role with
    | none => simp [dataOf, hBody]
    | some role => simp [dataOf, hBody]
  exact hRole.trans hAdmitted

theorem calls_create
    (hashedPassword : String)
    (body : CreateUserDto) :
    Calls CreatesConsistent (create hashedPassword body) := by
  refine (calls_create_body hashedPassword body).mono ?_
  intro op hOp data hCreate
  subst hCreate
  have hAdmitted : Admitted body := hOp.2
  rw [hOp.1]
  exact dataOf_consistent hAdmitted _ rfl

theorem calls_findOne (id : String) :
    Calls CreatesConsistent (findOne id) := by
  refine
    calls_bind
      (calls_perform
        (createsConsistent_of_other (by simp)))
      ?_
  intro user
  cases user with
  | none => exact calls_fail _
  | some user => exact calls_done _

theorem calls_update
    (hashedPassword id : String)
    (body : UpdateUserDto) :
    Calls CreatesConsistent
      (update hashedPassword id body) := by
  refine calls_bind (calls_findOne id) fun _ => ?_
  cases updateData? hashedPassword body with
  | none => exact calls_fail _
  | some data =>
      exact
        calls_bind
          (calls_perform
            (createsConsistent_of_other (by simp)))
          fun user => calls_done _

theorem calls_remove (id : String) :
    Calls CreatesConsistent (remove id) :=
  calls_bind (calls_findOne id) fun _ =>
    calls_bind
      (calls_perform (createsConsistent_of_other (by simp)))
      fun user => calls_done _

end UserService

/- Nobody is created with a role against the tenant code. -/
theorem userSystem_calls
    (platform : Platform)
    (env : Environment)
    (files : MigrationFiles)
    (job : UserJob) :
    Program.Calls UserService.CreatesConsistent
      (UserJob.handler platform env files job) := by
  cases job with
  | create hashedPassword body =>
      exact
        Program.calls_bind
          (UserService.calls_create hashedPassword body)
          fun _ => Program.calls_done ()
  | update hashedPassword id body =>
      exact
        Program.calls_bind
          (UserService.calls_update hashedPassword id body)
          fun _ => Program.calls_done ()
  | remove id =>
      exact
        Program.calls_bind (UserService.calls_remove id)
          fun _ => Program.calls_done ()
  | handleDatabaseCreation message =>
      refine
        (DatabaseCreationConsumer.calls_handleDatabaseCreation
          message).mono ?_
      intro op hOp data hCreate
      rw [hCreate] at hOp
      rcases hOp with hLeaves | hMark
      · cases hLeaves.1
      · cases hMark

end OrderApi

------------------------------------------------------------
-- Roles and Tenant Codes
------------------------------------------------------------

namespace OrderApi

/- A user is an ADMIN exactly if it has a tenant code. -/
def User.Consistent (user : User) : Prop :=
  user.role = .ADMIN ↔ user.tenantCode ≠ none

instance (user : User) : Decidable user.Consistent :=
  inferInstanceAs (Decidable (_ ↔ _))

def RolesConsistent (store : Registry) : Prop :=
  ∀ user ∈ store.users.rows, user.Consistent

instance (store : Registry) :
    Decidable (RolesConsistent store) :=
  inferInstanceAs
    (Decidable (∀ user ∈ store.users.rows, _))

/- The user that a call gives a role, and the role. -/
def TenancyOp.givesRole?
    (choice : Choice)
    (store : Registry) : TenancyOp → Option (User × Role)
  | .userUpdate id data =>
      match choice with
      | .failure _ => none
      | .answer _ =>
          match updateUser id data store.users with
          | .error _ => none
          | .ok _ =>
              match store.users.find? id, data.role with
              | some user, some role => some (user, role)
              | _, _ => none
  | _ => none

/- The user that a step gives a role, and the role. -/
def givesRole? (t : UserStep) : Option (User × Role) :=
  t.call?.bind fun call =>
    call.1.givesRole? call.2 t.before.store

/-
  An update that sets a role makes an ADMIN of a user with a
  tenant code, and a CUSTOMER of one without.
-/
def KeepsRole (t : UserStep) : Prop :=
  ∀ given ∈ givesRole? t,
    (given.2 = .ADMIN ↔ given.1.tenantCode ≠ none)

instance (t : UserStep) : Decidable (KeepsRole t) :=
  inferInstanceAs (Decidable (∀ given ∈ givesRole? t, _))

end OrderApi

------------------------------------------------------------
-- What a Call Does to Roles
------------------------------------------------------------

namespace OrderApi

namespace TenancyOp

variable {platform : Platform} {choice : Choice}
variable {op : TenancyOp} {store store' : Registry}
variable {answer : Except ApiError op.Res}

/- A user that is given a role has it afterwards. -/
theorem exec_givesRole
    {user : User}
    {role : Role}
    (hExec :
      op.exec platform choice store = (answer, store'))
    (hGives :
      op.givesRole? choice store = some (user, role)) :
    ∃ row ∈ store'.users.rows,
      row.role = role ∧ row.tenantCode = user.tenantCode := by
  cases op with
  | userUpdate id data =>
      cases choice with
      | failure message => simp [givesRole?] at hGives
      | answer tick =>
          cases hUpdate :
              updateUser id data store.users with
          | error message =>
              simp [givesRole?, hUpdate] at hGives
          | ok updated =>
              rcases updated with ⟨after, users⟩
              simp only [givesRole?, hUpdate] at hGives
              split at hGives
              · rename_i found role' hFind hRole
                cases hGives
                rcases updateUser_eq_ok hUpdate with
                  ⟨old, hOld, rfl, rfl⟩
                have hSame : user = old :=
                  Option.some.inj (hFind.symm.trans hOld)
                subst hSame
                rcases
                    store.users.find?_eq_some_iff.mp hOld with
                  ⟨hMem, hKey⟩
                simp only [exec, TenancyOp.answer, hUpdate,
                  Prod.mk.injEq] at hExec
                rcases hExec with ⟨_, rfl⟩
                refine
                  ⟨user.apply data,
                    List.mem_map.mpr ⟨user, hMem, ?_⟩, ?_,
                    rfl⟩
                · rw [if_pos hKey]
                · simp [User.apply, hRole]
              · cases hGives
  | _ => cases hGives

/- A consistent store stays so, if roles are given well. -/
theorem exec_rolesConsistent
    (hExec :
      op.exec platform choice store = (answer, store'))
    (hCreates : UserService.CreatesConsistent op)
    (hKeeps :
      ∀ given ∈ op.givesRole? choice store,
        (given.2 = .ADMIN ↔ given.1.tenantCode ≠ none))
    (hBefore : RolesConsistent store) :
    RolesConsistent store' := by
  rcases exec_users_cases hExec with
    hSame | ⟨data, tick, user, rfl, rfl, hInsert⟩ |
      ⟨id, data, user, rfl, hUpdate⟩ |
      ⟨id, rfl, hDelete⟩ | ⟨id, rfl, hMark⟩
  · rwa [RolesConsistent, hSame]
  · intro row hRow
    rcases insertUser_eq_ok hInsert with ⟨hUser, hRows⟩
    rw [hRows, List.mem_append, List.mem_singleton] at hRow
    rcases hRow with hOld | hNew
    · exact hBefore row hOld
    · rw [hNew, hUser]
      exact hCreates data rfl
  · cases choice with
    | failure message =>
        have hSame : store' = store :=
          (congrArg Prod.snd hExec).symm
        rwa [hSame]
    | answer tick =>
        rcases updateUser_eq_ok hUpdate with
          ⟨old, hOld, _, hUsers⟩
        intro row hRow
        rw [hUsers] at hRow
        rcases List.mem_map.mp hRow with ⟨was, hWas, rfl⟩
        have hWasKept : was.Consistent := hBefore was hWas
        by_cases hKey : Keyed.key was = id
        · have hFind : store.users.find? id = some was :=
            store.users.find?_eq_some_iff.mpr ⟨hWas, hKey⟩
          rw [if_pos hKey]
          cases hRole : data.role with
          | none =>
              simpa [User.Consistent, User.apply, hRole]
                using hWasKept
          | some role =>
              have hGiven :=
                hKeeps (was, role)
                  (by
                    simp [givesRole?, hUpdate, hFind, hRole])
              simpa [User.Consistent, User.apply, hRole]
                using hGiven
        · rw [if_neg hKey]
          exact hWasKept
  · intro row hRow
    rw [hDelete] at hRow
    exact hBefore row (List.mem_of_mem_filter hRow)
  · intro row hRow
    rw [hMark] at hRow
    rcases List.mem_map.mp hRow with ⟨was, hWas, rfl⟩
    have hWasKept : was.Consistent := hBefore was hWas
    by_cases hKey : Keyed.key was = id
    · rw [if_pos hKey]
      exact hWasKept
    · rw [if_neg hKey]
      exact hWasKept

end TenancyOp

end OrderApi

------------------------------------------------------------
-- Role and Tenant Stay Consistent
------------------------------------------------------------

namespace OrderApi

variable {platform : Platform} {env : Environment}
variable {files : MigrationFiles}
variable {start : Registry} {world : UserWorld}
variable {history : List UserStep} {t : UserStep}

/- A step into a consistent state gave roles well. -/
theorem keepsRole_of_rolesConsistent
    (hStep :
      (userSystem platform env files).step t.before
          t.label =
        some t.after)
    (hAfter : RolesConsistent t.after.store) :
    KeepsRole t := by
  rintro ⟨user, role⟩ hGives
  rcases PoolSystem.store_of_step hStep with
    ⟨hCall, _⟩ | ⟨op, choice, hCall, hStore⟩
  · simp [givesRole?, hCall] at hGives
  · have hOp :
        op.givesRole? choice t.before.store =
          some (user, role) := by
      simpa [givesRole?, hCall] using hGives
    rcases TenancyOp.exec_givesRole rfl hOp with
      ⟨row, hRow, hRole, hCode⟩
    rw [hStore] at hAfter
    have hConsistent := hAfter row hRow
    rwa [User.Consistent, hRole, hCode] at hConsistent

/- Giving roles well keeps the users consistent. -/
theorem rolesConsistent_of_keepsRole
    (hStep :
      (userSystem platform env files).step t.before
          t.label =
        some t.after)
    (hCreates :
      ∀ op choice, t.call? = some (op, choice) →
        UserService.CreatesConsistent op)
    (hKeeps : KeepsRole t)
    (hBefore : RolesConsistent t.before.store) :
    RolesConsistent t.after.store := by
  rcases PoolSystem.store_of_step hStep with
    ⟨_, hStore⟩ | ⟨op, choice, hCall, hStore⟩
  · rwa [hStore]
  · rw [hStore]
    refine
      TenancyOp.exec_rolesConsistent rfl
        (hCreates op choice hCall) ?_ hBefore
    intro given hGiven
    apply hKeeps
    simpa [givesRole?, hCall] using hGiven

/-
  From a table without users, exactly the ADMINs of every
  state have tenant codes, if and only if every update gives
  a role that fits the tenant code of its user.
-/
theorem rolesConsistent_iff_keepsRole
    (hStart : start.users.rows = [])
    (hRun :
      UserRun platform env files start history world) :
    (∀ t ∈ history, RolesConsistent t.after.store) ↔
      ∀ t ∈ history, KeepsRole t := by
  constructor
  · intro hConsistent t hMem
    exact
      keepsRole_of_rolesConsistent (hRun.of_mem hMem).1
        (hConsistent t hMem)
  · intro hKeeps
    have hFirst : RolesConsistent start := by
      simp [RolesConsistent, hStart]
    have hGood :
        ∀ t ∈ history,
          KeepsRole t ∧
            ∀ op choice, t.call? = some (op, choice) →
              UserService.CreatesConsistent op := by
      intro t hMem
      exact
        ⟨hKeeps t hMem, fun op choice hCall =>
          PoolSystem.calls_of_run
            (userSystem_calls platform env files) hRun hMem
            hCall⟩
    have hAll :=
      Run.invariant _
        (fun history world =>
          RolesConsistent world.store ∧
            ∀ t ∈ history, RolesConsistent t.after.store)
        ⟨hFirst, by simp⟩
        (by
          rintro history before label after ⟨hBefore, hEarlier⟩
            hStep ⟨hNewest, hCreates⟩
          have hAfter :=
            rolesConsistent_of_keepsRole
              (t := ⟨before, label, after⟩) hStep hCreates
              hNewest hBefore
          exact
            ⟨hAfter, List.forall_mem_cons.mpr
              ⟨hAfter, hEarlier⟩⟩)
        hRun hGood
    exact hAll.2

end OrderApi

------------------------------------------------------------
-- Customers Given a Role
------------------------------------------------------------

namespace OrderApi

namespace Onboarding

/- A run of user jobs that passes a check. -/
theorem exists_userRun
    (labels : List UserLabel)
    (check : List UserStep → UserWorld → Bool)
    (hReplay :
      (replay (userSystem platform env files).step labels
          [] (PoolSystem.idle store)).any
        (fun run => check run.1 run.2) = true) :
    ∃ history world,
      UserRun platform env files store history world ∧
        check history world = true :=
  Run.exists_of_replay labels check hReplay

/- The creation of a user without a role. -/
def customer (email : String) : UserJob :=
  .create "hash"
    { email := email
      username := email
      password := "secret"
      role := none
      tenantCode := none }

/- An update of the role alone. -/
def setRole (id : String) (role : Role) : UserJob :=
  .update "hash" id
    { email := none
      username := none
      password := none
      role := some (some role) }

/- A customer `c` is created; an update sets its role. -/
def setRoleOfCustomer (role : Role) : List UserLabel :=
  [.start (customer "c")] ++
    List.replicate 2 (.resume 0 (.answer ⟨"c", 0⟩)) ++
    [.start (setRole "c" role)] ++
    List.replicate 2 (.resume 1 (.answer ⟨"", 0⟩))

end Onboarding

/- A customer stays one when its role is set anew. -/
theorem rolesConsistent_iff_keepsRole_of_onboarding :
    ∃ history world,
      UserRun Onboarding.platform Onboarding.env
          Onboarding.files Onboarding.store history world ∧
        world.store.users.rows.length = 1 ∧
        (∀ t ∈ history, KeepsRole t) ∧
        ∀ t ∈ history, RolesConsistent t.after.store := by
  rcases
      Onboarding.exists_userRun
        (Onboarding.setRoleOfCustomer .CUSTOMER)
        (fun history world =>
          decide
            (world.store.users.rows.length = 1 ∧
              ∀ t ∈ history, KeepsRole t))
        (by decide +kernel) with
    ⟨history, world, hRun, hCheck⟩
  rcases of_decide_eq_true hCheck with ⟨hUsers, hKeeps⟩
  exact
    ⟨history, world, hRun, hUsers, hKeeps,
      (rolesConsistent_iff_keepsRole rfl hRun).mpr hKeeps⟩

/- A customer becomes an ADMIN without a tenant code. -/
theorem not_rolesConsistent :
    ¬ ∀ (env : Environment) (files : MigrationFiles)
        (start : Registry) (history : List UserStep)
        (world : UserWorld),
      start.users.rows = [] →
      UserRun Onboarding.platform env files start history
        world →
      RolesConsistent world.store := by
  intro hClaim
  rcases
      Onboarding.exists_userRun
        (Onboarding.setRoleOfCustomer .ADMIN)
        (fun _ world =>
          decide ¬ RolesConsistent world.store)
        (by decide +kernel) with
    ⟨history, world, hRun, hCheck⟩
  exact
    of_decide_eq_true hCheck
      (hClaim Onboarding.env Onboarding.files
        Onboarding.store history world rfl hRun)

end OrderApi
