import OrderApi.System.ApiSystem
import OrderApi.System.UserSystem

/-
  Who may change the users, in runs of the whole system.

  A request acts with the role in the users table, not with
  the one in its token, so a run without requests of ADMINs
  adds customers and marks databases, and that is all.

  Key definitions include:
    * `RolePhase`, `RolePhase.Moves`
    * `byAdmin`
    * `OnlyRegisters`

  Key theorems include:
    * `apiSystem_performs`
    * `RoleInv.resume`
    * `admins_unchanged`
-/

------------------------------------------------------------
-- Calls That Leave Users
------------------------------------------------------------

namespace OrderApi

open Program

namespace UserService

/- A creation writes the row of its body alone. -/
theorem calls_create_row
    (hashedPassword : String)
    (body : CreateUserDto) :
    Calls
      (fun op =>
        LeavesUsers op ∨
          op = .userCreate (dataOf hashedPassword body))
      (create hashedPassword body) := by
  refine (calls_create_body hashedPassword body).mono ?_
  intro op hOp
  cases op with
  | userCreate data => exact Or.inr (by rw [hOp.1])
  | userFindByEmailOrUsername email username =>
      exact Or.inl ⟨rfl, rfl⟩
  | userFindByTenantCode tenantCode =>
      exact Or.inl ⟨rfl, rfl⟩
  | publishDatabaseCreation message =>
      exact Or.inl ⟨rfl, rfl⟩
  | _ => exact hOp.elim

end UserService

namespace AuthService

theorem calls_login
    (auth : AuthPlatform)
    (loginDto : LoginDto) :
    Calls LeavesUsers (login auth loginDto) := by
  refine calls_bind ?_ fun user => calls_done _
  refine
    calls_bind (calls_perform ⟨rfl, rfl⟩) fun user => ?_
  cases user with
  | none => exact calls_fail _
  | some user =>
      simp only
      split
      · exact calls_done _
      · exact calls_fail _

end AuthService

namespace TenantMigrationService

theorem calls_tenantPrisma
    (url : String)
    (op : SchemaOp) :
    Calls LeavesUsers (tenantPrisma url op) :=
  calls_perform ⟨rfl, rfl⟩

theorem calls_runMigration
    (tenantCode url : String)
    (migration : Migration) :
    Calls LeavesUsers
      (runMigration tenantCode url migration) := by
  refine calls_bind (calls_tenantPrisma _ _) ?_
  intro existingMigration
  split
  · apply calls_attempt
    · refine calls_bind ?_ fun _ => calls_done _
      refine calls_bind ?_ fun _ => ?_
      · exact
          calls_forEach (fun stmt => calls_tenantPrisma _ _) _
      · exact
          calls_bind (calls_tenantPrisma _ _) fun _ =>
            calls_done ()
    · exact fun error => calls_done _
  · exact calls_done _

theorem calls_runMigrations
    (tenantCode url : String)
    (migrations : List Migration) :
    Calls LeavesUsers
      (runMigrations tenantCode url migrations) := by
  induction migrations with
  | nil => exact calls_done _
  | cons migration migrations ih =>
      exact
        calls_bind (calls_runMigration _ _ _) fun result =>
          calls_bind ih fun results => calls_done _

theorem calls_migrateTenant
    (files : MigrationFiles)
    (tenantCode url : String) :
    Calls LeavesUsers
      (migrateTenant files tenantCode url) := by
  refine calls_bind (calls_tenantPrisma _ _) fun _ => ?_
  refine calls_bind (calls_tenantPrisma _ _) fun _ => ?_
  exact
    calls_bind (calls_runMigrations _ _ _) fun results =>
      calls_bind (calls_perform ⟨rfl, rfl⟩) fun _ =>
        calls_done _

theorem calls_migrateAllTenants
    (clientUrl : String → String)
    (files : MigrationFiles) :
    Calls LeavesUsers
      (migrateAllTenants clientUrl files) := by
  refine
    calls_bind (calls_perform ⟨rfl, rfl⟩) fun tenants => ?_
  induction tenants with
  | nil => exact calls_done _
  | cons tenantCode tenantCodes ih =>
      exact
        calls_bind (calls_migrateTenant _ _ _) fun results =>
          calls_bind ih fun others => calls_done _

end TenantMigrationService

end OrderApi

------------------------------------------------------------
-- Phases
------------------------------------------------------------

namespace OrderApi

/- What a job may still do to users. -/
inductive RolePhase where
  /- nothing -/
  | apart
  /- about to find the user of its token -/
  | guarded (sub : String)
  /- create the customer of a registration -/
  | registering
      (hashedPassword : String)
      (registerDto : RegisterDto)
  /- mark the user of a message -/
  | marking (userId : String)
  /- anything -/
  | admin
deriving DecidableEq

namespace RolePhase

/- The phase of a request whose user has been found. -/
def validated (role : Role) : RolePhase :=
  if role = .ADMIN then admin else apart

/-
  The calls that each phase allows, with the phase after
  each answer.
-/
inductive Moves :
    Protocol ApiOp ApiRes ApiError RolePhase
  | tenant
      {phase : RolePhase}
      {op : StoreOp}
      {answer : Except ApiError op.Res} :
      Moves phase (.inr op) answer phase
  | leave
      {phase : RolePhase}
      {op : TenancyOp}
      {answer : Except ApiError op.Res}
      (hLeaves : LeavesUsers op) :
      Moves phase (.inl op) answer phase
  | validate
      {sub : String}
      {user : User} :
      Moves (guarded sub) (.inl (.userFindUnique sub))
        (.ok (some user)) (validated user.role)
  | register
      {hashedPassword : String}
      {registerDto : RegisterDto}
      {answer : Except ApiError User} :
      Moves (registering hashedPassword registerDto)
        (.inl
          (.userCreate
            (UserService.dataOf hashedPassword
              (AuthService.customerOf registerDto))))
        answer (registering hashedPassword registerDto)
  | mark
      {userId : String}
      {answer : Except ApiError Unit} :
      Moves (marking userId)
        (.inl (.userSetDatabaseCreated userId)) answer
        (marking userId)
  | any
      {op : ApiOp}
      {answer : Except ApiError (ApiRes op)} :
      Moves admin op answer admin

end RolePhase

namespace ApiJob

/- The phase in which a job starts. -/
def rolePhase (auth : AuthPlatform) : ApiJob → RolePhase
  | register hashedPassword body =>
      match RegisterDto.ofBody auth body with
      | .error _ => .apart
      | .ok registerDto =>
          .registering hashedPassword registerDto
  | request payload _ => .guarded payload.sub
  | handleDatabaseCreation message => .marking message.userId
  | _ => .apart

/- A job creates the user that it registers, if any. -/
structure OwnsRole
    (auth : AuthPlatform)
    (job : ApiJob)
    (phase : RolePhase) : Prop where
  registering :
    ∀ hashedPassword registerDto,
      phase = .registering hashedPassword registerDto →
        ∃ body,
          job = register hashedPassword body ∧
            RegisterDto.ofBody auth body = .ok registerDto
  marking :
    ∀ userId, phase = .marking userId →
      ∃ message,
        job = handleDatabaseCreation message ∧
          message.userId = userId

/- Other phases say nothing of their job. -/
theorem OwnsRole.of_other
    {auth : AuthPlatform}
    {job : ApiJob}
    {phase : RolePhase}
    (hRegistering :
      ∀ hashedPassword registerDto,
        phase ≠ .registering hashedPassword registerDto)
    (hMarking : ∀ userId, phase ≠ .marking userId) :
    job.OwnsRole auth phase where
  registering := fun hashedPassword registerDto hPhase =>
    (hRegistering hashedPassword registerDto hPhase).elim
  marking := fun userId hPhase =>
    (hMarking userId hPhase).elim

end ApiJob

/- What jobs do to users, with their phases. -/
def roleScript (auth : AuthPlatform) :
    Script ApiJob ApiOp ApiRes ApiError RolePhase where
  protocol := RolePhase.Moves
  first := ApiJob.rolePhase auth
  Ends := fun _ _ _ => True
  Owns := ApiJob.OwnsRole auth
  owns_first := by
    intro job
    cases job with
    | register hashedPassword body =>
        cases hBody : RegisterDto.ofBody auth body with
        | error error =>
            simp only [ApiJob.rolePhase, hBody]
            exact .of_other (by simp) (by simp)
        | ok registerDto =>
            simp only [ApiJob.rolePhase, hBody]
            refine ⟨?_, by simp⟩
            rintro _ _ ⟨⟩
            exact ⟨body, rfl, hBody⟩
    | handleDatabaseCreation message =>
        refine ⟨by simp [ApiJob.rolePhase], ?_⟩
        rintro _ ⟨⟩
        exact ⟨message, rfl, rfl⟩
    | _ =>
        exact
          .of_other (by simp [ApiJob.rolePhase])
            (by simp [ApiJob.rolePhase])
  owns_next := by
    intro job phase op answer phase' hOwns hMoves
    cases hMoves with
    | @validate sub user =>
        unfold RolePhase.validated
        split
        · exact .of_other (by simp) (by simp)
        · exact .of_other (by simp) (by simp)
    | _ => exact hOwns

end OrderApi

------------------------------------------------------------
-- Conformance
------------------------------------------------------------

namespace OrderApi

open Program

namespace RolePhase

variable {α : Type} {phase : RolePhase}

/- A program conforms where a phase allows its calls. -/
theorem conforms_of_calls
    {P : TenancyOp → Prop}
    {program : TenancyHandler α}
    (hCalls : Calls P program)
    (hMoves :
      ∀ op (answer : Except ApiError op.Res), P op →
        Moves phase (.inl op) answer phase) :
    Conforms Moves (fun _ _ => True)
      (program.onLeft : ApiHandler α) phase := by
  have hStays :
      Conforms Moves (fun _ phase' => phase' = phase)
        (program.onLeft : ApiHandler α) phase :=
    conforms_onLeft (hCalls.conforms hMoves)
  exact hStays.mono fun _ _ _ => trivial

/- A program that leaves users conforms in every phase. -/
theorem conforms_of_leaves
    {program : TenancyHandler α}
    (hCalls : Calls LeavesUsers program) :
    Conforms Moves (fun _ _ => True)
      (program.onLeft : ApiHandler α) phase :=
  conforms_of_calls hCalls fun _ _ hLeaves =>
    Moves.leave hLeaves

/- So does a program over the tenant databases. -/
theorem conforms_of_tenant (program : Handler α) :
    Conforms Moves (fun _ _ => True)
      (program.onRight : ApiHandler α) phase := by
  have hStays :
      Conforms Moves (fun _ phase' => phase' = phase)
        (program.onRight : ApiHandler α) phase :=
    conforms_onRight
      ((calls_any program).conforms fun _ _ _ =>
        Moves.tenant)
  exact hStays.mono fun _ _ _ => trivial

/- An ADMIN may do anything. -/
theorem conforms_of_admin (program : ApiHandler α) :
    Conforms Moves (fun _ _ => True) program admin := by
  have hStays :
      Conforms Moves (fun _ phase' => phase' = admin) program
        admin :=
    (calls_any program).conforms fun _ _ _ => Moves.any
  exact hStays.mono fun _ _ _ => trivial

/- A registration creates its customer alone. -/
theorem conforms_register
    {auth : AuthPlatform}
    (hashedPassword : String)
    (registerDto : RegisterDto) :
    Conforms Moves (fun _ _ => True)
      ((AuthService.register auth hashedPassword
        registerDto).ignore.onLeft : ApiHandler Unit)
      (registering hashedPassword registerDto) := by
  have hCreate :=
    UserService.calls_create_row hashedPassword
      (AuthService.customerOf registerDto)
  refine
    conforms_of_calls
      (calls_bind (calls_bind hCreate fun _ => calls_done _)
        fun _ => calls_done ())
      ?_
  rintro op answer (hLeaves | rfl)
  · exact Moves.leave hLeaves
  · exact Moves.register

/- A handling marks the user of its message alone. -/
theorem conforms_handleDatabaseCreation
    {platform : Platform}
    {env : Environment}
    {files : MigrationFiles}
    (message : DatabaseCreationMessage) :
    Conforms Moves (fun _ _ => True)
      ((DatabaseCreationConsumer.handleDatabaseCreation
        platform env files message).onLeft :
          ApiHandler Unit)
      (marking message.userId) := by
  apply
    conforms_of_calls
      (DatabaseCreationConsumer.calls_handleDatabaseCreation
        message)
  rintro op answer (hLeaves | rfl)
  · exact Moves.leave hLeaves
  · exact Moves.mark

/- Behind its guards, a request of others leaves users. -/
theorem conforms_handler
    {databaseName : String → String}
    {user : ValidatedUser}
    {route : ApiRoute}
    (hRole : user.role ≠ .ADMIN)
    (hPasses :
      RolesGuard.canActivate route.roles user = true) :
    Conforms Moves (fun _ _ => True)
      (route.handler databaseName user) phase := by
  cases route with
  | getProfile => trivial
  | users route =>
      have hAdmin : user.role = .ADMIN := by
        simpa [ApiRoute.roles, UserRoute.roles,
          RolesGuard.canActivate] using hPasses
      exact (hRole hAdmin).elim
  | tenant route => exact conforms_of_tenant _

/- A request acts with the role that its guard has found. -/
theorem conforms_guarded
    {databaseName : String → String}
    (payload : JwtPayload)
    (route : ApiRoute) :
    Conforms Moves (fun _ _ => True)
      (OrderApi.guarded payload route.roles fun user =>
        route.handler databaseName user)
      (guarded payload.sub) := by
  intro answer
  cases answer with
  | error error =>
      exact ⟨_, Moves.leave ⟨rfl, rfl⟩, trivial⟩
  | ok found =>
      cases found with
      | none => exact ⟨_, Moves.leave ⟨rfl, rfl⟩, trivial⟩
      | some user =>
          refine ⟨_, Moves.validate, ?_⟩
          unfold validated
          by_cases hRole : user.role = .ADMIN
          · rw [if_pos hRole]
            exact conforms_of_admin _
          · rw [if_neg hRole]
            change
              Conforms Moves (fun _ _ => True)
                (if RolesGuard.canActivate route.roles
                    user.validated then
                  route.handler databaseName user.validated
                else
                  .fail RolesGuard.forbidden)
                apart
            split
            · rename_i hPasses
              exact conforms_handler hRole hPasses
            · trivial

end RolePhase

open RolePhase in
/- All jobs perform the script. -/
theorem apiSystem_performs
    (platform : Platform)
    (auth : AuthPlatform)
    (env : Environment)
    (files : MigrationFiles)
    (databaseName : String → String) :
    (apiSystem platform auth env files databaseName).Performs
      (roleScript auth) := by
  intro job
  cases job with
  | register hashedPassword body =>
      change
        Conforms Moves (fun _ _ => True)
          (ApiJob.handler platform auth env files databaseName
            (.register hashedPassword body))
          (ApiJob.rolePhase auth
            (.register hashedPassword body))
      simp only [ApiJob.handler, ApiJob.rolePhase]
      cases RegisterDto.ofBody auth body with
      | error error => trivial
      | ok registerDto =>
          exact conforms_register hashedPassword registerDto
  | login body =>
      change
        Conforms Moves (fun _ _ => True)
          (ApiJob.handler platform auth env files databaseName
            (.login body)) apart
      simp only [ApiJob.handler]
      cases LoginDto.ofBody auth body with
      | error error => trivial
      | ok loginDto =>
          exact
            conforms_of_leaves
              (calls_bind (AuthService.calls_login _ _)
                fun _ => calls_done ())
  | migrateTenants clientUrl =>
      exact
        conforms_of_leaves
          (calls_bind
            (TenantMigrationService.calls_migrateAllTenants
              clientUrl files)
            fun _ => calls_done ())
  | request payload route =>
      exact conforms_guarded payload route
  | handleDatabaseCreation message =>
      exact conforms_handleDatabaseCreation message
  | handleOrderProcessing paymentId message =>
      exact conforms_of_tenant _
  | handleOrderCompleted message =>
      exact conforms_of_tenant _

end OrderApi

------------------------------------------------------------
-- Changes of Users
------------------------------------------------------------

namespace OrderApi

/- The users with the role ADMIN. -/
def Registry.admins (store : Registry) : List String :=
  (store.users.rows.filter fun user =>
    user.role = .ADMIN).map User.id

/- A request starts whose user is an ADMIN by then. -/
def byAdmin (t : ApiStep) : Bool :=
  match t.label with
  | .start (.request payload _) =>
      payload.sub ∈ t.before.store.registry.admins
  | _ => false

/-
  A step leaves the users, or adds the customer that a
  registration is for, or marks the user of a message.
-/
def OnlyRegisters
    (auth : AuthPlatform)
    (t : ApiStep) : Prop :=
  t.after.store.registry.users = t.before.store.registry.users ∨
  (∃ hashedPassword body registerDto id,
    jobOf? t = some (.register hashedPassword body) ∧
      RegisterDto.ofBody auth body = .ok registerDto ∧
      t.after.store.registry.users.rows =
        t.before.store.registry.users.rows ++
          [(UserService.dataOf hashedPassword
            (AuthService.customerOf registerDto)).toUser
              id]) ∨
  (∃ message,
    jobOf? t = some (.handleDatabaseCreation message) ∧
      t.after.store.registry.users =
        (t.before.store.registry.setDatabaseCreated
          message.userId).users)

/- A call that leaves users does so. -/
theorem LeavesUsers.users_eq
    {platform : Platform}
    {choice : Choice}
    {op : TenancyOp}
    {store store' : Registry}
    {answer : Except ApiError op.Res}
    (hLeaves : LeavesUsers op)
    (hExec :
      op.exec platform choice store = (answer, store')) :
    store'.users = store.users := by
  rcases TenancyOp.exec_users_cases hExec with
    hSame | ⟨_, _, _, rfl, _⟩ | ⟨_, _, _, rfl, _⟩ |
      ⟨_, rfl, _⟩ | ⟨_, rfl, _⟩
  · exact hSame
  · cases hLeaves.1
  · cases hLeaves.1
  · cases hLeaves.1
  · cases hLeaves.2

/- A mark changes no role. -/
theorem Registry.admins_setDatabaseCreated
    (store : Registry)
    (id : String) :
    (store.setDatabaseCreated id).admins = store.admins := by
  simp only [admins, setDatabaseCreated, Table.update]
  induction store.users.rows with
  | nil => rfl
  | cons user users ih =>
      by_cases hKey : Keyed.key user = id
      · by_cases hRole : user.role = .ADMIN
        · simpa [hKey, hRole] using ih
        · simpa [hKey, hRole] using ih
      · by_cases hRole : user.role = .ADMIN
        · simpa [hKey, hRole] using ih
        · simpa [hKey, hRole] using ih

/- Such a step makes no ADMIN, and removes none. -/
theorem OnlyRegisters.admins_eq
    {auth : AuthPlatform}
    {t : ApiStep}
    (hOnly : OnlyRegisters auth t) :
    t.after.store.registry.admins = t.before.store.registry.admins := by
  rcases hOnly with
    hSame | ⟨_, _, _, _, _, _, hAdded⟩ | ⟨message, _, hMark⟩
  · rw [Registry.admins, hSame]
    rfl
  · rw [Registry.admins, hAdded, List.filter_append]
    simp [Registry.admins, UserData.toUser,
      UserService.dataOf, AuthService.customerOf]
  · rw [Registry.admins, hMark]
    exact
      Registry.admins_setDatabaseCreated _ message.userId

end OrderApi

------------------------------------------------------------
-- The Invariant
------------------------------------------------------------

namespace OrderApi

/-
  The ADMINs are those of the start, and no request is one
  of theirs.
-/
structure RoleInv
    (start : ApiStore)
    (world : ApiWorld)
    (phases : List RolePhase) : Prop where
  admins : world.store.registry.admins = start.registry.admins
  others : .admin ∉ phases
  tokens :
    ∀ sub, .guarded sub ∈ phases → sub ∉ start.registry.admins

variable {platform : Platform} {auth : AuthPlatform}
variable {start : ApiStore} {t : ApiStep}
variable {phases : List RolePhase}

/- A start that is not of an ADMIN preserves the invariant. -/
theorem RoleInv.start_job
    {job : ApiJob}
    (hInv : RoleInv start t.before phases)
    (hLabel : t.label = .start job)
    (hStore : t.after.store = t.before.store)
    (hOther : byAdmin t = false) :
    RoleInv start t.after (phases ++ [job.rolePhase auth]) := by
  have hFirst :
      job.rolePhase auth ≠ .admin ∧
        ∀ sub, job.rolePhase auth = .guarded sub →
          sub ∉ start.registry.admins := by
    cases job with
    | register hashedPassword body =>
        cases hBody : RegisterDto.ofBody auth body with
        | error error => simp [ApiJob.rolePhase, hBody]
        | ok registerDto => simp [ApiJob.rolePhase, hBody]
    | request payload route =>
        refine ⟨by simp [ApiJob.rolePhase], ?_⟩
        rintro _ ⟨⟩
        rw [← hInv.admins]
        simpa [byAdmin, hLabel] using hOther
    | _ => simp [ApiJob.rolePhase]
  constructor
  · rw [hStore]
    exact hInv.admins
  · intro hMem
    rcases List.mem_append.mp hMem with hOld | hNew
    · exact hInv.others hOld
    · exact hFirst.1 (List.mem_singleton.mp hNew).symm
  · intro sub hMem
    rcases List.mem_append.mp hMem with hOld | hNew
    · exact hInv.tokens sub hOld
    · exact
        hFirst.2 sub (List.mem_singleton.mp hNew).symm

section Resume

variable
  {phase phase' : RolePhase}
  {index : Nat}
  {job : ApiJob}
  {op : ApiOp}
  {choice : Choice}
  {answer : Except ApiError (ApiRes op)}
  {goOn :
    Except ApiError (ApiRes op) →
      Program ApiOp ApiRes ApiError Unit}
  (hInv : RoleInv start t.before phases)
  (hLabel : t.label = .resume index choice)
  (hThread :
    t.before.threads[index]? = some ⟨job, .call op goOn⟩)
  (hPhase : phases[index]? = some phase)
  (hOwns : job.OwnsRole auth phase)
  (hMoves : RolePhase.Moves phase op answer phase')
  (hExec :
    ApiOp.exec platform choice op t.before.store =
      (answer, t.after.store))

include hInv hLabel hThread hPhase hOwns hMoves hExec in
/- What an allowed call does to the users. -/
theorem RoleInv.onlyRegisters : OnlyRegisters auth t := by
  have hJob : jobOf? t = some job := by
    simp [jobOf?, hLabel, hThread]
  cases hMoves with
  | tenant =>
      apply Or.inl
      rw [ApiOp.exec_inr hExec]
  | leave hLeaves =>
      exact
        Or.inl (hLeaves.users_eq (ApiOp.exec_inl hExec))
  | @validate sub user =>
      have hLeaves : LeavesUsers (.userFindUnique sub) :=
        ⟨rfl, rfl⟩
      exact
        Or.inl (hLeaves.users_eq (ApiOp.exec_inl hExec))
  | @register hashedPassword registerDto answer =>
      rcases hOwns.registering _ _ rfl with
        ⟨body, rfl, hBody⟩
      have hCall := ApiOp.exec_inl hExec
      cases answer with
      | error error =>
          rw [OnlyRegisters, TenancyOp.exec_error hCall]
          exact Or.inl rfl
      | ok user =>
          rcases TenancyOp.exec_userCreate hCall with
            ⟨tick, users, _, hInsert, hAfter⟩
          rcases insertUser_eq_ok hInsert with ⟨rfl, hRows⟩
          refine
            Or.inr (Or.inl
              ⟨hashedPassword, body, registerDto,
                tick.freshId, hJob, hBody, ?_⟩)
          rw [hAfter]
          exact hRows
  | @mark userId answer =>
      rcases hOwns.marking _ rfl with ⟨message, rfl, rfl⟩
      have hCall := ApiOp.exec_inl hExec
      cases answer with
      | error error =>
          rw [OnlyRegisters, TenancyOp.exec_error hCall]
          exact Or.inl rfl
      | ok result =>
          refine Or.inr (Or.inr ⟨message, hJob, ?_⟩)
          rw [TenancyOp.exec_userSetDatabaseCreated hCall]
  | any =>
      exact (hInv.others (List.mem_of_getElem? hPhase)).elim

include hInv hPhase hMoves hExec in
/- A request that goes on is not one of an ADMIN. -/
theorem RoleInv.phase_next :
    phase' ≠ .admin ∧
      ∀ sub, phase' = .guarded sub → sub ∉ start.registry.admins := by
  have hMem := List.mem_of_getElem? hPhase
  have hOld :
      phase ≠ .admin ∧
        ∀ sub, phase = .guarded sub →
          sub ∉ start.registry.admins := by
    refine ⟨?_, ?_⟩
    · rintro rfl
      exact hInv.others hMem
    · rintro sub rfl
      exact hInv.tokens sub hMem
  cases hMoves with
  | @validate sub user =>
      have hNotAdmin : user.role ≠ .ADMIN := by
        intro hRole
        apply hOld.2 sub rfl
        rw [← hInv.admins]
        have hCall := ApiOp.exec_inl hExec
        rcases TenancyOp.exec_ok hCall with ⟨_, _, hAnswer⟩
        simp only [TenancyOp.answer, Except.ok.injEq,
          Prod.mk.injEq] at hAnswer
        rcases
            t.before.store.registry.users.find?_eq_some_iff.mp
              hAnswer.1 with
          ⟨hRow, hKey⟩
        exact
          List.mem_map.mpr
            ⟨user,
              List.mem_filter.mpr
                ⟨hRow, decide_eq_true hRole⟩,
              hKey⟩
      simp [RolePhase.validated, hNotAdmin]
  | _ => exact hOld

include hInv hLabel hThread hPhase hOwns hMoves hExec in
/- An allowed call preserves the invariant. -/
theorem RoleInv.resume :
    RoleInv start t.after (phases.set index phase') := by
  have hOnly :=
    hInv.onlyRegisters hLabel hThread hPhase hOwns hMoves
      hExec
  have hNext := hInv.phase_next hPhase hMoves hExec
  constructor
  · rw [hOnly.admins_eq]
    exact hInv.admins
  · intro hMem
    rcases List.mem_or_eq_of_mem_set hMem with hOld | hNew
    · exact hInv.others hOld
    · exact hNext.1 hNew.symm
  · intro sub hMem
    rcases List.mem_or_eq_of_mem_set hMem with hOld | hNew
    · exact hInv.tokens sub hOld
    · exact hNext.2 sub hNew.symm

end Resume

end OrderApi

------------------------------------------------------------
-- Runs without an ADMIN
------------------------------------------------------------

namespace OrderApi

/-
  In every run in which no request is one of an ADMIN, the
  ADMINs stay the same, and each step leaves the users but
  for registered customers and marked databases.
-/
theorem admins_unchanged
    {platform : Platform}
    {auth : AuthPlatform}
    {env : Environment}
    {files : MigrationFiles}
    {databaseName : String → String}
    {start : ApiStore}
    {history : List ApiStep}
    {world : ApiWorld}
    (hRun :
      ApiRun platform auth env files databaseName start
        history world)
    (hOthers : ∀ t ∈ history, byAdmin t = false) :
    world.store.registry.admins = start.registry.admins ∧
      ∀ t ∈ history, OnlyRegisters auth t := by
  have hInvariant :=
    PoolSystem.script_invariant
      (apiSystem_performs platform auth env files
        databaseName)
      (fun t => byAdmin t = false)
      (fun history world phases =>
        RoleInv start world phases ∧
          ∀ t ∈ history, OnlyRegisters auth t)
      ⟨⟨rfl, by simp, by simp⟩, by simp⟩ ?_ ?_ hRun hOthers
  · rcases hInvariant with ⟨_, _, hInv, hOnly⟩
    exact ⟨hInv.admins, hOnly⟩
  · rintro history pool phases job ⟨hInv, hOnly⟩ hScript
      hReady pool' hOther
    let t : ApiStep := ⟨pool, .start job, pool'⟩
    exact
      ⟨RoleInv.start_job (t := t) hInv rfl rfl hOther,
        List.forall_mem_cons.mpr ⟨Or.inl rfl, hOnly⟩⟩
  · rintro history pool phases index choice job op goOn
      phase phase' ⟨hInv, hOnly⟩ hScript hThread hPhase
      hOwns hMoves answer pool' _
    let t : ApiStep := ⟨pool, .resume index choice, pool'⟩
    have hExec :
        ApiOp.exec platform choice op t.before.store =
          (answer.1, t.after.store) := rfl
    exact
      ⟨RoleInv.resume (t := t) hInv rfl hThread hPhase hOwns
          hMoves hExec,
        List.forall_mem_cons.mpr
          ⟨RoleInv.onlyRegisters (t := t) hInv rfl hThread
            hPhase hOwns hMoves hExec, hOnly⟩⟩

end OrderApi

------------------------------------------------------------
-- A Customer with an Old Token
------------------------------------------------------------

namespace OrderApi

/- A server whose tenant databases have no rows. -/
def Registry.server (registry : Registry) : ApiStore where
  registry := registry
  tenants :=
    Backend.follow ⟨registry.users, fun _ => none, [], []⟩
      registry
  users_eq := rfl
  exists_eq := fun _ => Option.isSome_map

namespace Onboarding

/- Libraries that accept every email and hash nothing. -/
def auth : AuthPlatform where
  isEmail := fun _ => true
  textLength := String.length
  compare := fun password hash => password = hash
  sign := JwtPayload.sub

/- A run of the application that passes a check. -/
theorem exists_apiRun
    (labels : List ApiLabel)
    (check : List ApiStep → ApiWorld → Bool)
    (hReplay :
      (replay
          (apiSystem platform auth env files id).step labels
          [] (PoolSystem.idle deployed.server)).any
        (fun run => check run.1 run.2) = true) :
    ∃ history world,
      ApiRun platform auth env files id deployed.server
          history world ∧
        check history world = true :=
  Run.exists_of_replay labels check hReplay

/- A customer registers. -/
def registerCarol : List ApiLabel :=
  [.start
      (.register "hash"
        [("email", .text "carol"),
         ("username", .text "carol"),
         ("password", .text "secret")]),
    .resume 0 (.answer ⟨"", 0⟩),
    .resume 0 (.answer ⟨"c", 0⟩)]

/- With a token that calls it an ADMIN, it asks for more. -/
def askForAdmin : List ApiLabel :=
  [.start
      (.request ⟨"carol", "c", .ADMIN, none⟩
        (.users
          (.update "hash" "c"
            { email := none
              username := none
              password := none
              role := some (some .ADMIN) }))),
    .resume 1 (.answer ⟨"", 0⟩)]

end Onboarding

/- The customer is registered, and stays a customer. -/
theorem admins_unchanged_of_onboarding :
    ∃ history world,
      ApiRun Onboarding.platform Onboarding.auth
          Onboarding.env Onboarding.files id
          Onboarding.deployed.server history world ∧
        world.store.registry.users.rows.length = 2 ∧
        (∀ thread ∈ world.threads,
          thread.program.inProgress = false) ∧
        world.store.registry.admins =
          Onboarding.deployed.admins ∧
        ∀ t ∈ history, OnlyRegisters Onboarding.auth t := by
  rcases
      Onboarding.exists_apiRun
        (Onboarding.registerCarol ++ Onboarding.askForAdmin)
        (fun history world =>
          decide
            (world.store.registry.users.rows.length = 2 ∧
              (∀ thread ∈ world.threads,
                thread.program.inProgress = false) ∧
              ∀ t ∈ history, byAdmin t = false))
        (by decide +kernel) with
    ⟨history, world, hRun, hCheck⟩
  rcases of_decide_eq_true hCheck with
    ⟨hUsers, hEnded, hOthers⟩
  have hUnchanged := admins_unchanged hRun hOthers
  exact ⟨history, world, hRun, hUsers, hEnded, hUnchanged⟩

end OrderApi
