import OrderApi.Core.Traces
import OrderApi.System.AdminRole

/-
  Whom a login lets in, in runs of the whole system.

  The password of a user is what was written last under its
  id, and only a registration, a creation or an update of a
  user writes one: the one that its request has hashed.  So
  a login that ends has compared its password with the last
  one that was set, and with no other.

  Key definitions include:
    * `TenancyOp.setsPassword?`
    * `ApiJob.hashedPassword?`
    * `SetLast`

  Key theorems include:
    * `TenancyOp.exec_passwordOf`
    * `calls_hashed`
    * `setLast_of_run`
    * `login_by_last_password`
-/

------------------------------------------------------------
-- Writes of Passwords
------------------------------------------------------------

namespace OrderApi

/- The password in the row of a user. -/
def Registry.passwordOf (store : Registry) (id : String) :
    Option String :=
  (store.users.find? id).map User.password

namespace TenancyOp

/- The password that a call writes, if it is answered. -/
def password? : TenancyOp → Option String
  | userCreate data => some data.password
  | userUpdate _ data => data.password
  | _ => none

/-
  What an answered call does to the password of a user: it
  leaves it, or sets it, or there is none behind it.
-/
def setsPassword? (id : String) :
    (op : TenancyOp) →
      Except ApiError op.Res → Option (Option String)
  | userCreate data, .ok user =>
      if user.id = id then some (some data.password)
      else none
  | userUpdate id' data, .ok _ =>
      if id' = id then data.password.map some else none
  | userDelete id', .ok _ =>
      if id' = id then some none else none
  | _, _ => none

theorem password_of_sets
    {id password : String}
    {op : TenancyOp}
    {answer : Except ApiError op.Res}
    (hSets :
      op.setsPassword? id answer = some (some password)) :
    op.password? = some password := by
  cases answer with
  | error error => cases op <;> cases hSets
  | ok result =>
      cases op with
      | userCreate data =>
          simp only [setsPassword?] at hSets
          split at hSets
          · exact Option.some.inj hSets
          · cases hSets
      | userUpdate id' data =>
          simp only [setsPassword?] at hSets
          split at hSets
          · simpa [password?] using hSets
          · cases hSets
      | userDelete id' =>
          simp only [setsPassword?] at hSets
          split at hSets
          · cases Option.some.inj hSets
          · cases hSets
      | _ => cases hSets

variable {platform : Platform} {choice : Choice}
variable {store store' : Registry}

theorem exec_userUpdate
    {id : String}
    {data : UserUpdate}
    {user : User}
    (hExec :
      (userUpdate id data).exec platform choice store =
        (.ok user, store')) :
    ∃ old,
      store.users.find? id = some old ∧
        user = old.apply data ∧
        store'.users =
          store.users.update id (fun row => row.apply data)
            (fun row => row.key_apply data) := by
  rcases exec_ok hExec with ⟨tick, _, hAnswer⟩
  simp only [answer] at hAnswer
  split at hAnswer
  · cases hAnswer
  · rename_i user' users hUpdate
    simp only [Except.ok.injEq, Prod.mk.injEq] at hAnswer
    rcases hAnswer with ⟨hUser, hStore⟩
    rcases updateUser_eq_ok hUpdate with
      ⟨old, hOld, hRow, hUsers⟩
    subst hUser hStore
    exact ⟨old, hOld, hRow, hUsers⟩

theorem exec_userDelete
    {id : String}
    {user : User}
    (hExec :
      (userDelete id).exec platform choice store =
        (.ok user, store')) :
    store'.users = store.users.delete id := by
  rcases exec_ok hExec with ⟨tick, _, hAnswer⟩
  simp only [answer] at hAnswer
  split at hAnswer
  · cases hAnswer
  · simp only [Except.ok.injEq, Prod.mk.injEq] at hAnswer
    rcases hAnswer with ⟨_, hStore⟩
    subst hStore
    rfl

/- A row that is created is found by its id. -/
theorem find?_userCreate
    {data : UserData}
    {user : User}
    (hExec :
      (userCreate data).exec platform choice store =
        (.ok user, store'))
    (id : String) :
    user.password = data.password ∧
      store'.users.find? id =
        if user.id = id then some user
        else store.users.find? id := by
  rcases exec_userCreate hExec with
    ⟨tick, users, _, hInsert, hStore⟩
  subst hStore
  unfold insertUser at hInsert
  split at hInsert
  · cases hInsert
  · split at hInsert
    · cases hInsert
    · rename_i rows hRows
      simp only [Except.ok.injEq, Prod.mk.injEq] at hInsert
      rcases hInsert with ⟨hUser, hUsers⟩
      subst hUser hUsers
      exact ⟨rfl, Table.find?_insert? hRows id⟩

/- What a call leaves of the password of a user. -/
theorem exec_passwordOf
    {op : TenancyOp}
    {answer : Except ApiError op.Res}
    (hExec :
      op.exec platform choice store = (answer, store'))
    (id : String) :
    store'.passwordOf id =
      (op.setsPassword? id answer).getD
        (store.passwordOf id) := by
  unfold Registry.passwordOf
  cases answer with
  | error error =>
      have hNone :
          op.setsPassword? id (.error error) = none := by
        cases op <;> rfl
      rw [hNone, exec_error hExec, Option.getD_none]
  | ok result =>
      cases op with
      | userCreate data =>
          rcases find?_userCreate hExec id with
            ⟨hPassword, hFind⟩
          rw [hFind]
          simp only [setsPassword?]
          split
          · exact congrArg some hPassword
          · rfl
      | userUpdate id' data =>
          rcases exec_userUpdate hExec with
            ⟨old, hOld, _, hUsers⟩
          rw [hUsers, Table.find?_update]
          simp only [setsPassword?]
          by_cases hId : id' = id
          · subst hId
            rw [if_pos rfl, if_pos rfl, hOld]
            cases hData : data.password with
            | none => simp [User.apply, hData]
            | some password => simp [User.apply, hData]
          · rw [if_neg (Ne.symm hId), if_neg hId]
            rfl
      | userDelete id' =>
          rw [exec_userDelete hExec, Table.find?_delete]
          simp only [setsPassword?]
          by_cases hId : id' = id
          · subst hId
            rw [if_pos rfl, if_pos rfl]
            rfl
          · rw [if_neg (Ne.symm hId), if_neg hId]
            rfl
      | userSetDatabaseCreated id' =>
          rw [exec_userSetDatabaseCreated hExec]
          unfold Registry.setDatabaseCreated
          rw [Table.find?_update]
          simp only [setsPassword?, Option.getD_none]
          by_cases hId : id = id'
          · subst hId
            rw [if_pos rfl, Option.map_map]
            rfl
          · rw [if_neg hId]
      | _ =>
          have hUsers : store'.users = store.users :=
            LeavesUsers.users_eq (by exact ⟨rfl, rfl⟩) hExec
          rw [hUsers]
          rfl

end TenancyOp

end OrderApi

------------------------------------------------------------
-- Who Writes Passwords
------------------------------------------------------------

namespace OrderApi

open Program

/- The hash that a job computed, if it writes a password. -/
def ApiJob.hashedPassword? : ApiJob → Option String
  | .register hashedPassword _ => some hashedPassword
  | .request _ (.users (.create hashedPassword _)) =>
      some hashedPassword
  | .request _ (.users (.update hashedPassword _ _)) =>
      some hashedPassword
  | _ => none

/- Of all passwords, a call may write this one alone. -/
def WritesAtMost (hashedPassword : Option String) :
    ApiOp → Prop
  | .inl op =>
      ∀ password,
        op.password? = some password →
          hashedPassword = some password
  | .inr _ => True

theorem writesAtMost_of_leaves
    {hashedPassword : Option String}
    {op : TenancyOp}
    (hLeaves : LeavesUsers op) :
    WritesAtMost hashedPassword (.inl op) := by
  intro password hPassword
  cases op with
  | userCreate data => cases hLeaves.1
  | userUpdate id data => cases hLeaves.1
  | _ => cases hPassword

section Calls

variable {α : Type} {hashedPassword : Option String}

theorem calls_onLeft_of_leaves
    {program : TenancyHandler α}
    (hCalls : Calls LeavesUsers program) :
    Calls (WritesAtMost hashedPassword)
      (program.onLeft : ApiHandler α) :=
  conforms_onLeft
    (hCalls.mono fun _ hLeaves =>
      writesAtMost_of_leaves hLeaves)

theorem calls_onRight_tenant (program : Handler α) :
    Calls (WritesAtMost hashedPassword)
      (program.onRight : ApiHandler α) :=
  conforms_onRight
    ((calls_any program).mono fun _ _ => trivial)

/- A creation writes the password of its request. -/
theorem calls_create_hashed
    (password : String)
    (body : CreateUserDto) :
    Calls
      (fun op => WritesAtMost (some password) (.inl op))
      (UserService.create password body) := by
  refine
    (UserService.calls_create_row password body).mono ?_
  intro op hOp
  rcases hOp with hLeaves | hRow
  · exact writesAtMost_of_leaves hLeaves
  · subst hRow
    intro written hWritten
    exact hWritten

theorem calls_findOne (id : String) :
    Calls LeavesUsers (UserService.findOne id) := by
  refine calls_bind (calls_perform ⟨rfl, rfl⟩) ?_
  intro user
  cases user with
  | none => exact calls_fail _
  | some user => exact calls_done _

theorem updateData?_password
    {password written : String}
    {body : UpdateUserDto}
    {data : UserUpdate}
    (hData :
      UserService.updateData? password body = some data)
    (hWritten : data.password = some written) :
    some password = some written := by
  simp only [UserService.updateData?, Option.bind_eq_bind,
    Option.bind_eq_some_iff, Option.pure_def,
    Option.some.injEq] at hData
  rcases hData with ⟨_, _, _, _, column, _, _, _, hRow⟩
  subst hRow
  cases column with
  | none => cases hWritten
  | some value => exact hWritten

/- An update writes the password of its request, or none. -/
theorem calls_update_hashed
    (password id : String)
    (body : UpdateUserDto) :
    Calls
      (fun op => WritesAtMost (some password) (.inl op))
      (UserService.update password id body) := by
  unfold UserService.update
  refine
    calls_bind
      ((calls_findOne id).mono fun _ hLeaves =>
        writesAtMost_of_leaves hLeaves)
      fun _ => ?_
  split
  · exact calls_fail _
  · rename_i data hData
    refine calls_bind (calls_perform ?_) fun _ => calls_done _
    intro written hWritten
    exact updateData?_password hData hWritten

theorem calls_remove (id : String) :
    Calls
      (fun op => WritesAtMost hashedPassword (.inl op))
      (UserService.remove id) := by
  refine
    calls_bind
      ((calls_findOne id).mono fun _ hLeaves =>
        writesAtMost_of_leaves hLeaves)
      fun _ => ?_
  refine calls_bind (calls_perform ?_) fun _ => calls_done _
  intro written hWritten
  cases hWritten

/- The routes of users write what their requests hashed. -/
theorem calls_userRoute
    (payload : JwtPayload)
    (route : UserRoute) :
    Calls
      (fun op =>
        WritesAtMost
          (ApiJob.request payload
            (.users route)).hashedPassword?
          (.inl op))
      route.handler := by
  have hIgnored :
      ∀ {α : Type} {P : TenancyOp → Prop}
        {program : TenancyHandler α},
        Calls P program → Calls P program.ignore :=
    fun hCalls => calls_bind hCalls fun _ => calls_done ()
  have hReads :
      ∀ {α : Type} {program : TenancyHandler α},
        Calls LeavesUsers program →
          Calls
            (fun op => WritesAtMost none (.inl op))
            program.ignore :=
    fun hCalls =>
      hIgnored
        (hCalls.mono fun _ hLeaves =>
          writesAtMost_of_leaves hLeaves)
  cases route with
  | create password body =>
      exact hIgnored (calls_create_hashed password body)
  | findAll =>
      exact
        hReads
          (calls_bind (calls_perform ⟨rfl, rfl⟩) fun _ =>
            calls_done _)
  | findOne id => exact hReads (calls_findOne id)
  | update password id body =>
      exact hIgnored (calls_update_hashed password id body)
  | remove id => exact hIgnored (calls_remove id)
  | checkDatabaseStatus id =>
      exact
        hReads
          (calls_bind (calls_findOne id) fun _ =>
            calls_done _)

/- Each job writes the password that it hashed, or none. -/
theorem calls_hashed
    (platform : Platform)
    (auth : AuthPlatform)
    (env : Environment)
    (files : MigrationFiles)
    (databaseName : String → String)
    (job : ApiJob) :
    Calls (WritesAtMost job.hashedPassword?)
      (job.handler platform auth env files
        databaseName) := by
  cases job with
  | register password body =>
      simp only [ApiJob.handler]
      cases RegisterDto.ofBody auth body with
      | error error => exact calls_fail error
      | ok registerDto =>
          apply conforms_onLeft
          exact
            calls_bind
              (calls_bind (calls_create_hashed password _)
                fun _ => calls_done _)
              fun _ => calls_done ()
  | login body =>
      simp only [ApiJob.handler]
      cases LoginDto.ofBody auth body with
      | error error => exact calls_fail error
      | ok loginDto =>
          exact
            calls_onLeft_of_leaves
              (calls_bind (AuthService.calls_login _ _)
                fun _ => calls_done ())
  | migrateTenants clientUrl =>
      exact
        calls_onLeft_of_leaves
          (calls_bind
            (TenantMigrationService.calls_migrateAllTenants
              clientUrl files)
            fun _ => calls_done ())
  | request payload route =>
      refine calls_bind ?_ fun user => ?_
      · apply calls_onLeft_of_leaves
        refine calls_bind (calls_perform ⟨rfl, rfl⟩) ?_
        intro found
        cases found with
        | none => exact calls_fail _
        | some row => exact calls_done _
      · split
        · cases route with
          | getProfile => exact calls_done ()
          | users route =>
              exact
                conforms_onLeft
                  (calls_userRoute payload route)
          | tenant route => exact calls_onRight_tenant _
        · exact calls_fail _
  | handleDatabaseCreation message =>
      apply conforms_onLeft
      refine
        (DatabaseCreationConsumer.calls_handleDatabaseCreation
          message).mono ?_
      intro op hOp
      rcases hOp with hLeaves | hMark
      · exact writesAtMost_of_leaves hLeaves
      · subst hMark
        intro written hWritten
        cases hWritten
  | handleOrderProcessing paymentId message =>
      exact calls_onRight_tenant _
  | handleOrderCompleted message =>
      exact calls_onRight_tenant _

end Calls

end OrderApi

------------------------------------------------------------
-- The Password That Was Set Last
------------------------------------------------------------

namespace OrderApi

open Program

section Passwords

variable {platform : Platform} {auth : AuthPlatform}
variable {env : Environment} {files : MigrationFiles}
variable {databaseName : String → String}
variable {start : ApiStore} {history : List ApiStep}
variable {world : ApiWorld}

/- What a step does to the password of a user. -/
def passwordSet?
    (platform : Platform)
    (auth : AuthPlatform)
    (env : Environment)
    (files : MigrationFiles)
    (databaseName : String → String)
    (id : String)
    (t : ApiStep) : Option (Option String) :=
  (t.event?
    (apiSystem platform auth env files databaseName)).bind
    fun event =>
      match event with
      | ⟨_, .inl op, answer⟩ => op.setsPassword? id answer
      | ⟨_, .inr _, _⟩ => none

/-
  The password of a user was set by the last of the steps
  that touched it, for a job that hashed just this one, or
  it is the one that was there at the start.
-/
def SetLast
    (platform : Platform)
    (auth : AuthPlatform)
    (env : Environment)
    (files : MigrationFiles)
    (databaseName : String → String)
    (start : ApiStore)
    (id password : String)
    (history : List ApiStep) : Prop :=
  (start.registry.passwordOf id = some password ∧
    ∀ t ∈ history,
      passwordSet? platform auth env files databaseName id
        t = none) ∨
  (∃ later t earlier job,
    history = later ++ t :: earlier ∧
      jobOf? t = some job ∧
      job.hashedPassword? = some password ∧
      passwordSet? platform auth env files databaseName id
          t = some (some password) ∧
      ∀ t' ∈ later,
        passwordSet? platform auth env files databaseName
          id t' = none)

theorem passwordOf_step
    (id : String)
    (t : ApiStep)
    (hStep :
      (apiSystem platform auth env files databaseName).step
        t.before t.label = some t.after) :
    t.after.store.registry.passwordOf id =
      (passwordSet? platform auth env files databaseName id
        t).getD (t.before.store.registry.passwordOf id) := by
  rcases t with ⟨pool, label, pool'⟩
  dsimp only at hStep ⊢
  rcases PoolSystem.step_cases hStep with
    ⟨job, hLabel, _, hAfter⟩ |
      ⟨index, choice, job, op, resume, hLabel, hThread,
        hAfter⟩
  · subst hLabel hAfter
    rfl
  · subst hLabel hAfter
    unfold passwordSet?
    rw [Transition.event?_resume hThread]
    rcases op with op | op
    · exact TenancyOp.exec_passwordOf rfl id
    · rfl

/- A password is written for the job that hashed it. -/
theorem job_of_passwordSet
    {id password : String}
    {t : ApiStep}
    (hRun :
      ApiRun platform auth env files databaseName start
        history world)
    (hMem : t ∈ history)
    (hSet :
      passwordSet? platform auth env files databaseName id
        t = some (some password)) :
    ∃ job,
      jobOf? t = some job ∧
        job.hashedPassword? = some password := by
  rcases hRun.of_mem hMem with ⟨hStep, earlier, hEarlier, _⟩
  rcases t with ⟨pool, label, pool'⟩
  rcases PoolSystem.step_cases hStep with
    ⟨job, hLabel, _, hAfter⟩ |
      ⟨index, choice, job, op, resume, hLabel, hThread,
        hAfter⟩
  · subst hLabel
    cases hSet
  · subst hLabel
    refine ⟨job, by simp [jobOf?, hThread], ?_⟩
    have hTook := PoolSystem.took_of_run hEarlier hThread
    have hCalls :=
      calls_hashed platform auth env files databaseName job
    rcases
        (hCalls.of_took hTook).2
          (ApiOp.exec platform choice op pool.store).1 with
      ⟨_, hWrites, _⟩
    unfold passwordSet? at hSet
    rw [Transition.event?_resume hThread] at hSet
    rcases op with op | op
    · exact hWrites password (TenancyOp.password_of_sets hSet)
    · cases hSet

/- The password of a user is the one that was set last. -/
theorem setLast_of_run
    {id password : String}
    (hRun :
      ApiRun platform auth env files databaseName start
        history world)
    (hPassword :
      world.store.registry.passwordOf id = some password) :
    SetLast platform auth env files databaseName start id
      password history := by
  have hLast :
      world.store.registry.passwordOf id =
        lastSet
          (passwordSet? platform auth env files databaseName
            id)
          (start.registry.passwordOf id) history :=
    Run.value_eq_lastSet
      (fun world : ApiWorld =>
        world.store.registry.passwordOf id)
      hRun
      (fun t hStep => passwordOf_step id t hStep)
  rcases
      lastSet_cases
        (passwordSet? platform auth env files databaseName
          id)
        (start.registry.passwordOf id) history with
    ⟨hStart, hNone⟩ |
      ⟨later, t, earlier, hHistory, hHere, hNone⟩
  · refine .inl ⟨?_, hNone⟩
    rw [← hStart, ← hLast, hPassword]
  · rw [← hLast, hPassword] at hHere
    have hMem : t ∈ history := by
      rw [hHistory]
      exact List.mem_append_right _ List.mem_cons_self
    rcases job_of_passwordSet hRun hMem hHere with
      ⟨job, hJob, hHashed⟩
    exact
      .inr
        ⟨later, t, earlier, job, hHistory, hJob, hHashed,
          hHere, hNone⟩

end Passwords

end OrderApi

------------------------------------------------------------
-- Logins
------------------------------------------------------------

namespace OrderApi

open Program

/- The calls of a login that has ended: one, that found. -/
theorem took_login_done
    {auth : AuthPlatform}
    {loginDto : LoginDto}
    {calls : List (Called TenancyOp TenancyOp.Res ApiError)}
    {response : AuthResponse}
    (hTook :
      Took (AuthService.login auth loginDto) calls
        (.done response)) :
    ∃ user : User,
      calls =
          [⟨.userFindByEmail loginDto.email,
            .ok (some user)⟩] ∧
        auth.compare loginDto.password user.password =
          true := by
  rcases Took.bind_done hTook with
    ⟨user, before, after, hCalls, hUser, hResponse⟩
  cases hResponse
  rcases Took.bind_done hUser with
    ⟨found, first, second, hBefore, hFound, hCompared⟩
  have hFirst := Took.perform_done hFound
  cases found with
  | none => cases hCompared
  | some row =>
      simp only at hCompared
      split at hCompared
      · rename_i hPassword
        cases hCompared
        refine ⟨user, ?_, hPassword⟩
        rw [hCalls, hBefore, hFirst]
        rfl
      · cases hCompared

end OrderApi

namespace OrderApi

open Program

section Logins

variable {platform : Platform} {auth : AuthPlatform}
variable {env : Environment} {files : MigrationFiles}
variable {databaseName : String → String}
variable {start : ApiStore} {history : List ApiStep}
variable {world : ApiWorld} {index : Nat} {body : Body}

/- The look-up of a login, in the handler of its job. -/
theorem took_login_job
    {calls : List (Called ApiOp ApiRes ApiError)}
    (hTook :
      Took
        (ApiJob.handler platform auth env files databaseName
          (.login body))
        calls (.done ())) :
    ∃ loginDto, ∃ user : User,
      LoginDto.ofBody auth body = .ok loginDto ∧
        ⟨.inl (.userFindByEmail loginDto.email),
          .ok (some user)⟩ ∈ calls ∧
        auth.compare loginDto.password user.password =
          true := by
  simp only [ApiJob.handler] at hTook
  cases hBody : LoginDto.ofBody auth body with
  | error error =>
      rw [hBody] at hTook
      cases hTook
  | ok loginDto =>
      rw [hBody] at hTook
      rcases Took.of_onLeft hTook with
        ⟨ownCalls, ownLeft, hOwn, hCalls, hLeft⟩
      cases ownLeft with
      | fail error => cases hLeft
      | call op resume => cases hLeft
      | done value =>
          rcases Took.bind_done hOwn with
            ⟨response, before, after, hOwnCalls, hLogin, _⟩
          rcases took_login_done hLogin with
            ⟨user, hBefore, hCompare⟩
          refine ⟨loginDto, user, rfl, ?_, hCompare⟩
          rw [hCalls, hOwnCalls, hBefore]
          exact List.mem_cons_self

/- What the look-up by an email answers. -/
theorem mem_of_userFindByEmail
    {email : String}
    {user : User}
    {choice : Choice}
    {store store' : ApiStore}
    (hExec :
      ApiOp.exec platform choice
          (.inl (.userFindByEmail email)) store =
        (.ok (some user), store')) :
    user ∈ store.registry.users.rows ∧
      user.email = email := by
  have hAnswer := ApiOp.exec_inl hExec
  rcases TenancyOp.exec_ok hAnswer with ⟨tick, _, hFound⟩
  have hRow :
      (store.registry.users.rows.find? fun user =>
        user.email = email) = some user :=
    congrArg Prod.fst (Except.ok.inj hFound)
  exact
    ⟨List.mem_of_find?_eq_some hRow,
      by simpa using List.find?_some hRow⟩

/-
  A login that has ended found the row of its email, in one
  of its steps, and compared its password with the one that
  was set last for the user of that row.
-/
theorem login_by_last_password
    (hRun :
      ApiRun platform auth env files databaseName start
        history world)
    (hThread :
      world.threads[index]? = some ⟨.login body, .done ()⟩) :
    ∃ loginDto later t earlier choice user,
      LoginDto.ofBody auth body = .ok loginDto ∧
        history = later ++ t :: earlier ∧
        t.label = .resume index choice ∧
        user ∈ t.before.store.registry.users.rows ∧
        user.email = loginDto.email ∧
        auth.compare loginDto.password user.password =
          true ∧
        SetLast platform auth env files databaseName start
          user.id user.password earlier := by
  have hTook :
      Took
        (ApiJob.handler platform auth env files databaseName
          (.login body))
        ((apiSystem platform auth env files
          databaseName).callsOf index history)
        (.done ()) :=
    PoolSystem.took_of_run hRun hThread
  rcases took_login_job hTook with
    ⟨loginDto, user, hBody, hCall, hCompare⟩
  rcases PoolSystem.exists_of_mem_callsOf hCall with
    ⟨t, hMem, hCallBy⟩
  rcases hRun.of_mem hMem with
    ⟨hStep, earlier, hEarlier, later, hHistory⟩
  rcases PoolSystem.exec_of_callBy hStep hCallBy with
    ⟨choice, hLabel, hExec⟩
  rcases mem_of_userFindByEmail hExec with ⟨hRow, hEmail⟩
  have hPassword :
      t.before.store.registry.passwordOf user.id =
        some user.password := by
    unfold Registry.passwordOf
    have hFind :
        t.before.store.registry.users.find? user.id =
          some user :=
      (Table.find?_eq_some_iff _).mpr ⟨hRow, rfl⟩
    rw [hFind, Option.map_some]
  exact
    ⟨loginDto, later, t, earlier, choice, user, hBody,
      hHistory.symm, hLabel, hRow, hEmail, hCompare,
      setLast_of_run hEarlier hPassword⟩

end Logins

end OrderApi

------------------------------------------------------------
-- A Customer Who Comes Back
------------------------------------------------------------

namespace OrderApi

namespace Onboarding

def loginCarol : Body :=
  [("email", .text "carol"), ("password", .text "secret")]

/- Carol registers, is given another password, and logs in. -/
def comeBack : List ApiLabel :=
  [.start
      (.register "first"
        [("email", .text "carol"),
         ("username", .text "carol"),
         ("password", .text "first!")]),
    .resume 0 (.answer ⟨"", 0⟩),
    .resume 0 (.answer ⟨"c", 0⟩),
    .start
      (.request ⟨"b", "b", .ADMIN, some "bolt"⟩
        (.users
          (.update "secret" "c"
            { email := none
              username := none
              password := some (some "secret")
              role := none }))),
    .resume 1 (.answer ⟨"", 0⟩),
    .resume 1 (.answer ⟨"", 0⟩),
    .resume 1 (.answer ⟨"", 0⟩),
    .start (.login loginCarol),
    .resume 2 (.answer ⟨"", 0⟩)]

/- The login of the third thread has ended. -/
def backAgain (world : ApiWorld) : Bool :=
  world.threads[2]?.any fun thread =>
    match thread.job, thread.program with
    | .login body, .done () => decide (body = loginCarol)
    | _, _ => false

theorem thread_of_backAgain
    {world : ApiWorld}
    (hBack : backAgain world = true) :
    world.threads[2]? =
      some ⟨.login loginCarol, .done ()⟩ := by
  unfold backAgain at hBack
  cases hThread : world.threads[2]? with
  | none =>
      rw [hThread] at hBack
      cases hBack
  | some thread =>
      rw [hThread] at hBack
      rcases thread with ⟨job, program⟩
      cases job with
      | login body =>
          cases program with
          | done value =>
              have hBody : body = loginCarol :=
                of_decide_eq_true hBack
              rw [hBody]
          | _ => cases hBack
      | _ => cases hBack

end Onboarding

/- Carol was let in by the password that she was given. -/
theorem login_by_last_password_of_comeBack :
    ∃ history later t earlier choice,
    ∃ (world : ApiWorld) (user : User),
      ApiRun Onboarding.platform Onboarding.auth
          Onboarding.env Onboarding.files id
          Onboarding.deployed.server history world ∧
        history = later ++ t :: earlier ∧
        t.label = .resume 2 choice ∧
        user.email = "carol" ∧
        user.password = "secret" ∧
        SetLast Onboarding.platform Onboarding.auth
          Onboarding.env Onboarding.files id
          Onboarding.deployed.server user.id "secret"
          earlier := by
  rcases
      Onboarding.exists_apiRun Onboarding.comeBack
        (fun _ world => Onboarding.backAgain world)
        (by decide +kernel) with
    ⟨history, world, hRun, hBack⟩
  have hThread := Onboarding.thread_of_backAgain hBack
  rcases login_by_last_password hRun hThread with
    ⟨loginDto, later, t, earlier, choice, user, hBody,
      hHistory, hLabel, _, hEmail, hCompare, hLast⟩
  have hDto : loginDto = ⟨"carol", "secret"⟩ := by
    cases hBody
    rfl
  rw [hDto] at hEmail hCompare
  have hPassword : user.password = "secret" :=
    (of_decide_eq_true hCompare).symm
  rw [hPassword] at hLast
  exact
    ⟨history, later, t, earlier, choice, world, user, hRun,
      hHistory, hLabel, hEmail, hPassword, hLast⟩

end OrderApi
