import OrderApi.Core.Traces
import OrderApi.System.AdminRole
import OrderApi.System.Delivery
import OrderApi.System.Redelivery

/-
  On whose authority requests act, in runs of the whole
  system.

  A request with a token reads the row of its user first.
  All that it calls later are the calls of its route for
  that row, and the row has a role that the route asks for.
  What the token says of the role is never looked at, so a
  user who is removed or demoted has no authority left.

  Key definitions include:
    * `LetThrough`
    * `Revoked`

  Key theorems include:
    * `took_guarded_cases`
    * `request_authorized`
    * `revoked_request_inert`
-/

------------------------------------------------------------
-- Paths Behind the Guards
------------------------------------------------------------

namespace OrderApi

open Program

/- The call of `JwtStrategy.validate`. -/
def guardRead (payload : JwtPayload) : ApiOp :=
  .inl (.userFindUnique payload.sub)

/- What the guards leave of a handler behind their call. -/
def behindGuards
    (roles : Option (List Role))
    (handler : ValidatedUser → ApiHandler Unit) :
    Except ApiError (Option User) → ApiHandler Unit
  | .error error => .fail error
  | .ok none => .fail ⟨.unauthorized, "Unauthorized"⟩
  | .ok (some user) =>
      if RolesGuard.canActivate roles user.validated then
        handler user.validated
      else
        .fail RolesGuard.forbidden

theorem guarded_eq
    (payload : JwtPayload)
    (roles : Option (List Role))
    (handler : ValidatedUser → ApiHandler Unit) :
    guarded payload roles handler =
      .call (guardRead payload)
        (behindGuards roles handler) := by
  change Program.call (guardRead payload) _ = _
  congr 1
  funext answer
  cases answer with
  | error error => rfl
  | ok found => cases found <;> rfl

/-
  The calls of a request: none yet, or the guard's, behind
  which it was refused or goes on as its route for the row.
-/
theorem took_guarded_cases
    {payload : JwtPayload}
    {roles : Option (List Role)}
    {handler : ValidatedUser → ApiHandler Unit}
    {calls : List ApiCall}
    {left : ApiHandler Unit}
    (hTook :
      Took (guarded payload roles handler) calls left) :
    (calls = [] ∧ left = guarded payload roles handler) ∨
    ∃ answer : Except ApiError (Option User),
    ∃ rest,
      calls = ⟨guardRead payload, answer⟩ :: rest ∧
      ((rest = [] ∧ ∃ error, left = .fail error) ∨
        ∃ user,
          answer = .ok (some user) ∧
            RolesGuard.canActivate roles user.validated =
              true ∧
            Took (handler user.validated) rest left) := by
  rw [guarded_eq] at hTook ⊢
  cases hTook with
  | start => exact .inl ⟨rfl, rfl⟩
  | @call _ _ answer rest _ hRest =>
      refine .inr ⟨answer, rest, rfl, ?_⟩
      have hRefused :
          ∀ error,
            Took (.fail error : ApiHandler Unit) rest left →
              rest = [] ∧ ∃ error, left = .fail error := by
        intro error hFail
        cases hFail
        exact ⟨rfl, error, rfl⟩
      rcases answer with error | found
      · exact .inl (hRefused _ hRest)
      · cases found with
        | none => exact .inl (hRefused _ hRest)
        | some user =>
            unfold behindGuards at hRest
            simp only at hRest
            split at hRest
            · rename_i hAllowed
              exact .inr ⟨user, rfl, hAllowed, hRest⟩
            · exact .inl (hRefused _ hRest)

end OrderApi

------------------------------------------------------------
-- Authorized Requests
------------------------------------------------------------

namespace OrderApi

section Authority

variable {platform : Platform} {auth : AuthPlatform}
variable {env : Environment} {files : MigrationFiles}
variable {databaseName : String → String}
variable {start : ApiStore} {history : List ApiStep}
variable {world : ApiWorld} {index : Nat}
variable {payload : JwtPayload} {route : ApiRoute}

/- The calls made so far for the thread at an index. -/
def apiCallsOf
    (platform : Platform)
    (auth : AuthPlatform)
    (env : Environment)
    (files : MigrationFiles)
    (databaseName : String → String)
    (index : Nat)
    (history : List ApiStep) : List ApiCall :=
  (apiSystem platform auth env files databaseName).callsOf
    index history

/-
  In this step the guards of a request read a row whose role
  its route admits.
-/
structure LetThrough
    (payload : JwtPayload)
    (route : ApiRoute)
    (index : Nat)
    (user : User)
    (t : ApiStep) : Prop where
  label : ∃ choice, t.label = .resume index choice
  found :
    t.before.store.registry.users.find? payload.sub =
      some user
  admitted :
    RolesGuard.canActivate route.roles user.validated = true

/- The row that a look-up of a user answers. -/
theorem found_of_guardRead
    {platform : Platform}
    {choice : Choice}
    {store store' : ApiStore}
    {found : Option User}
    (hExec :
      ApiOp.exec platform choice (guardRead payload) store =
        (.ok found, store')) :
    store.registry.users.find? payload.sub = found := by
  have hAnswer := ApiOp.exec_inl hExec
  rcases TenancyOp.exec_ok hAnswer with ⟨tick, _, hFound⟩
  exact congrArg Prod.fst (Except.ok.inj hFound)

/-
  Each request first reads the row of its user.  What it
  calls afterwards is called by the handler of its route for
  that row, whose role, as it was then, the route admits.
-/
theorem request_authorized
    {program : ApiHandler Unit}
    {first : ApiCall}
    {rest : List ApiCall}
    (hRun :
      ApiRun platform auth env files databaseName start
        history world)
    (hThread :
      world.threads[index]? =
        some ⟨.request payload route, program⟩)
    (hCalls :
      apiCallsOf platform auth env files databaseName index
        history = first :: rest) :
    first.1 = guardRead payload ∧
      (rest ≠ [] ∨ program = .done () →
        ∃ t ∈ history, ∃ user,
          LetThrough payload route index user t ∧
            Program.Took
              (route.handler databaseName user.validated)
              rest program) := by
  have hTook := PoolSystem.took_of_run hRun hThread
  unfold apiCallsOf at hCalls
  rw [hCalls] at hTook
  rcases took_guarded_cases hTook with
    ⟨hNone, _⟩ | ⟨answer, others, hFirst, hBehind⟩
  · cases hNone
  · cases hFirst
    refine ⟨rfl, ?_⟩
    intro hWent
    rcases hBehind with
      ⟨hOthers, error, hFail⟩ |
        ⟨user, hAnswer, hAdmitted, hRest⟩
    · rcases hWent with hMore | hDone
      · exact (hMore hOthers).elim
      · cases hFail.symm.trans hDone
    · subst hAnswer
      rcases
          PoolSystem.exists_of_mem_callsOf
            (by rw [hCalls]; exact List.mem_cons_self) with
        ⟨t, hMem, hCall⟩
      rcases
          PoolSystem.exec_of_callBy (hRun.of_mem hMem).1
            hCall with
        ⟨choice, hLabel, hExec⟩
      exact
        ⟨t, hMem, user,
          { label := ⟨choice, hLabel⟩
            found := found_of_guardRead hExec
            admitted := hAdmitted },
          hRest⟩

/-
  No row of the user of a request has a role that its route
  admits: the user is removed, or has another role.
-/
def Revoked
    (payload : JwtPayload)
    (route : ApiRoute)
    (store : ApiStore) : Prop :=
  ∀ user ∈ store.registry.users.find? payload.sub,
    RolesGuard.canActivate route.roles user.validated =
      false

instance
    (payload : JwtPayload)
    (route : ApiRoute)
    (store : ApiStore) :
    Decidable (Revoked payload route store) :=
  inferInstanceAs (Decidable (∀ user ∈ _, _ = _))

/- A look-up of a user leaves the store. -/
theorem exec_guardRead
    {platform : Platform}
    {choice : Choice}
    {store store' : ApiStore}
    {answer : Except ApiError (Option User)}
    (hExec :
      ApiOp.exec platform choice (guardRead payload) store =
        (answer, store')) :
    store' = store := by
  have hSame :
      ((TenancyOp.userFindUnique payload.sub).exec platform
        choice store.registry).2 = store.registry := by
    cases choice <;> rfl
  have hLeft :
      (execTenancy platform choice
        (.userFindUnique payload.sub) store).2 = store :=
    execTenancy_of_same hSame
  exact (congrArg Prod.snd hExec).symm.trans hLeft

/-
  As long as its user is removed or demoted, a request whose
  guards have not read the row yet changes nothing, and does
  not succeed, whatever its token says.
-/
theorem revoked_request_inert
    {earlier later : List ApiStep}
    {program : ApiHandler Unit}
    (hRun :
      ApiRun platform auth env files databaseName start
        (later ++ earlier) world)
    (hRevoked :
      ∀ t ∈ later, Revoked payload route t.before.store)
    (hThread :
      world.threads[index]? =
        some ⟨.request payload route, program⟩)
    (hUnread :
      apiCallsOf platform auth env files databaseName index
        earlier = []) :
    program ≠ .done () ∧
      ∀ t ∈ later, ∀ choice,
        t.label = .resume index choice →
          t.after.store = t.before.store := by
  have hTook := PoolSystem.took_of_run hRun hThread
  -- the guards never let the request pass
  have hRefused :
      ¬ ∃ t ∈ later ++ earlier, ∃ user,
        LetThrough payload route index user t := by
    intro hPassed
    rcases hPassed with ⟨t, hMem, user, hThrough⟩
    rcases hThrough.label with ⟨choice, hLabel⟩
    rcases List.mem_append.mp hMem with hLater | hEarlier
    · have hRole := hRevoked t hLater user hThrough.found
      rw [hThrough.admitted] at hRole
      cases hRole
    · rcases
          PoolSystem.exists_callBy (hRun.of_mem hMem).1
            hLabel with
        ⟨call, hCall⟩
      have hFound :=
        PoolSystem.mem_callsOf hEarlier hCall
      unfold apiCallsOf at hUnread
      rw [hUnread] at hFound
      cases hFound
  have hOnlyRead :
      program ≠ .done () ∧
        ∀ call ∈
            apiCallsOf platform auth env files databaseName
              index (later ++ earlier),
          call.1 = guardRead payload := by
    cases hCalls :
        apiCallsOf platform auth env files databaseName
          index (later ++ earlier) with
    | nil =>
        unfold apiCallsOf at hCalls
        rw [hCalls] at hTook
        have hLeft :
            guarded payload route.roles
                (fun user =>
                  route.handler databaseName user) =
              program :=
          hTook.eq_of_nil
        refine ⟨?_, by simp⟩
        intro hDone
        rw [guarded_eq, hDone] at hLeft
        cases hLeft
    | cons first rest =>
        rcases request_authorized hRun hThread hCalls with
          ⟨hFirst, hPassed⟩
        have hAlone : rest = [] ∧ program ≠ .done () := by
          constructor
          · by_contra hMore
            rcases hPassed (.inl hMore) with
              ⟨t, hMem, user, hThrough, _⟩
            exact hRefused ⟨t, hMem, user, hThrough⟩
          · intro hDone
            rcases hPassed (.inr hDone) with
              ⟨t, hMem, user, hThrough, _⟩
            exact hRefused ⟨t, hMem, user, hThrough⟩
        rw [hAlone.1]
        exact ⟨hAlone.2, by simpa using hFirst⟩
  refine ⟨hOnlyRead.1, ?_⟩
  intro t hLater choice hLabel
  have hMem := List.mem_append_left earlier hLater
  have hStep := (hRun.of_mem hMem).1
  rcases PoolSystem.exists_callBy hStep hLabel with
    ⟨⟨op, answer⟩, hCall⟩
  have hRead : op = guardRead payload :=
    hOnlyRead.2 _ (PoolSystem.mem_callsOf hMem hCall)
  subst hRead
  rcases PoolSystem.exec_of_callBy hStep hCall with
    ⟨choice', _, hExec⟩
  exact exec_guardRead hExec

end Authority

end OrderApi

------------------------------------------------------------
-- A Customer Is Removed
------------------------------------------------------------

namespace OrderApi

namespace Onboarding

/- An ADMIN removes the customer, whose token is kept. -/
def removeCarol : List ApiLabel :=
  [.start
      (.request ⟨"b", "b", .ADMIN, some "bolt"⟩
        (.users (.remove "c"))),
    .resume 1 (.answer ⟨"", 0⟩),
    .resume 1 (.answer ⟨"", 0⟩),
    .resume 1 (.answer ⟨"", 0⟩),
    .start
      (.request ⟨"carol", "c", .CUSTOMER, none⟩
        (.tenant (.findOrders none none))),
    .resume 2 (.answer ⟨"", 0⟩)]

/- The calls of a thread in a run of the scenario. -/
def callsOf
    (index : Nat)
    (history : List ApiStep) : List ApiCall :=
  apiCallsOf platform auth env files id index history

/- The removal has been made, by calls of its handler. -/
def removed
    (history : List ApiStep)
    (world : ApiWorld) : Bool :=
  world.threads[1]?.any fun thread =>
    match thread.job, thread.program with
    | .request _ _, .done () =>
        (callsOf 1 history).length = 3
    | _, _ => false

/- The last two steps come too late for their token. -/
def refused
    (history : List ApiStep)
    (world : ApiWorld) : Bool :=
  world.threads[2]?.any fun thread =>
    match thread.job with
    | .request payload route =>
        (callsOf 2 (history.drop 2)).isEmpty &&
          decide
            (∀ t ∈ history.take 2,
              Revoked payload route t.before.store)
    | _ => false

theorem exists_removal :
    ∃ history world,
      ApiRun platform auth env files id deployed.server
          history world ∧
        removed history world = true ∧
        refused history world = true := by
  rcases
      exists_apiRun (registerCarol ++ removeCarol)
        (fun history world =>
          removed history world && refused history world)
        (by decide +kernel) with
    ⟨history, world, hRun, hCheck⟩
  exact
    ⟨history, world, hRun, Bool.and_eq_true_iff.mp hCheck⟩

end Onboarding

/- The removal is made on the authority of a row. -/
theorem request_authorized_of_removal :
    ∃ history world payload route user,
      ∃ t ∈ history,
        ApiRun Onboarding.platform Onboarding.auth
          Onboarding.env Onboarding.files id
          Onboarding.deployed.server history world ∧
        LetThrough payload route 1 user t ∧
        1 < (Onboarding.callsOf 1 history).length := by
  rcases Onboarding.exists_removal with
    ⟨history, world, hRun, hRemoved, _⟩
  unfold Onboarding.removed at hRemoved
  rcases (Option.any_eq_true _ _).mp hRemoved with
    ⟨⟨job, program⟩, hThread, hCheck⟩
  simp only at hCheck
  split at hCheck
  · rename_i payload route
    have hLength := of_decide_eq_true hCheck
    cases hCalls : Onboarding.callsOf 1 history with
    | nil =>
        rw [hCalls] at hLength
        cases hLength
    | cons first rest =>
        rcases
            (request_authorized hRun hThread hCalls).2
              (.inr rfl) with
          ⟨t, hMem, user, hThrough, _⟩
        refine
          ⟨history, world, payload, route, user, t, hMem,
            hRun, hThrough, ?_⟩
        omega
  · cases hCheck

/- The late request is refused. -/
theorem revoked_request_inert_of_removal :
    ∃ history world payload route program,
      ApiRun Onboarding.platform Onboarding.auth
        Onboarding.env Onboarding.files id
        Onboarding.deployed.server history world ∧
      world.threads[2]? =
        some ⟨.request payload route, program⟩ ∧
      program ≠ .done () ∧
      ∀ t ∈ history.take 2, ∀ choice,
        t.label = .resume 2 choice →
          t.after.store = t.before.store := by
  rcases Onboarding.exists_removal with
    ⟨history, world, hRun, _, hRefused⟩
  unfold Onboarding.refused at hRefused
  rcases (Option.any_eq_true _ _).mp hRefused with
    ⟨⟨job, program⟩, hThread, hCheck⟩
  simp only at hCheck
  split at hCheck
  · rename_i payload route
    rcases Bool.and_eq_true_iff.mp hCheck with
      ⟨hUnread, hRevoked⟩
    have hParts := List.take_append_drop 2 history
    have hRun' := hRun
    rw [← hParts] at hRun'
    have hInert :=
      revoked_request_inert hRun'
        (of_decide_eq_true hRevoked) hThread
        (List.isEmpty_iff.mp hUnread)
    exact
      ⟨history, world, payload, route, program, hRun,
        hThread, hInert⟩
  · cases hCheck

end OrderApi
