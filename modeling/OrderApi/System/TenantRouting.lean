import OrderApi.Prisma.PrismaService
import OrderApi.System.ProductCache

/-
  Which databases writes to products end up in.

  The role guard lets every ADMIN write, and the interceptor
  takes the tenant code from the path before all else; the
  query and the ADMIN's own tenant code are not looked at.

  Key definitions include:
    * `ProductWrite.routed`
    * `routingSystem`, `RoutingRun`
    * `RoutePhase`, `RouteInv`

  Key theorems include:
    * `routingSystem_performs`
    * `RouteInv.resume`
    * `products_unchanged_of_not_selected`
    * `not_acts_on_own_tenant`
-/

------------------------------------------------------------
-- The System
------------------------------------------------------------

namespace OrderApi

/- A write behind its guards and the tenant interceptor. -/
def ProductWrite.routed
    (platform : Platform)
    (env : Environment)
    (write : ProductWrite) : RoutedHandler Unit :=
  (PrismaService.database platform env
    (TenantInterceptor.tenantCode write.request)).bind
    fun db => (write.job.handler fun _ => db).onRight

/- The store with all writes started so far. -/
abbrev RoutingWorld :=
  Pool ProductWrite RoutingOp RoutingRes ApiError
    RoutingStore

abbrev RoutingLabel := PoolLabel ProductWrite Choice

abbrev RoutingStep := Transition RoutingWorld RoutingLabel

/- A write is started once the role guard lets it through. -/
def routingSystem
    (platform : Platform)
    (env : Environment) :
    PoolSystem ProductWrite RoutingOp RoutingRes ApiError
      Choice RoutingStore where
  exec := RoutingOp.exec platform env
  program := ProductWrite.routed platform env
  ready := fun store write => write.job.ready store.tenants

/- Runs of the system from a store where nothing runs. -/
abbrev RoutingRun
    (platform : Platform)
    (env : Environment)
    (store : RoutingStore) :
    List RoutingStep → RoutingWorld → Prop :=
  Run (routingSystem platform env).step
    (PoolSystem.idle store)

/- The write that a step starts. -/
def startedWrite? (t : RoutingStep) : Option ProductWrite :=
  match t.label with
  | .start write => some write
  | .resume _ _ => none

end OrderApi

------------------------------------------------------------
-- Phases
------------------------------------------------------------

namespace OrderApi

/- How far the client of a request is resolved. -/
inductive RoutePhase where
  | resolving (tenantCode : PathParam)
  | resolved (db? : Option String)

namespace RoutePhase

/- A request looks up its client, and uses its database. -/
inductive Moves
    (platform : Platform)
    (env : Environment) :
    Protocol RoutingOp RoutingRes ApiError RoutePhase
  | resolve
      {tenantCode : PathParam}
      {client : Client} :
      Moves platform env (resolving tenantCode)
        (.inl (.getClient (some tenantCode.text)))
        (.ok client) (resolved (client.database? platform env))
  | fail
      {tenantCode : PathParam}
      {error : ApiError} :
      Moves platform env (resolving tenantCode)
        (.inl (.getClient (some tenantCode.text)))
        (.error error) (resolved none)
  | use
      {db : String}
      {op : TenantOp}
      {answer : Except ApiError op.Res} :
      Moves platform env (resolved (some db))
        (.inr (.tenant db op)) answer (resolved (some db))

end RoutePhase

/- The client of a request is looked up once. -/
def routeScript
    (platform : Platform)
    (env : Environment) :
    Script ProductWrite RoutingOp RoutingRes ApiError
      RoutePhase where
  protocol := RoutePhase.Moves platform env
  first := fun write => .resolving write.tenantCode
  Ends := fun _ _ _ => True
  Owns := fun _ _ => True
  owns_first := fun _ => trivial
  owns_next := fun _ _ => trivial

end OrderApi

------------------------------------------------------------
-- Conformance
------------------------------------------------------------

namespace OrderApi

open Program

/- A call on one tenant database. -/
def StoreOp.IsOn (db : String) (op : StoreOp) : Prop :=
  ∃ tenantOp, op = .tenant db tenantOp

theorem calls_prisma
    (db : String)
    (op : TenantOp) :
    Calls (StoreOp.IsOn db) (prisma db op) :=
  calls_perform ⟨op, rfl⟩

theorem ProductService.calls_findOne_on
    (db id tenantCode : String) :
    Calls (StoreOp.IsOn db)
      (ProductService.findOne db id tenantCode) := by
  apply ProductRead.calls_mapMissingDatabase
  refine calls_bind (calls_prisma _ _) fun product => ?_
  cases product with
  | none => exact calls_fail _
  | some product => exact calls_done _

theorem calls_prisma_mapped
    (db tenantCode : String)
    (op : TenantOp) :
    Calls (StoreOp.IsOn db)
      (mapMissingDatabase tenantCode (prisma db op)) :=
  ProductRead.calls_mapMissingDatabase (calls_prisma _ _)

theorem OrderService.calls_paymentReceived
    (db orderId userId tenantCode : String) :
    Calls (StoreOp.IsOn db)
      (OrderService.paymentReceived db orderId userId
        tenantCode) := by
  refine calls_bind (calls_prisma _ _) fun found => ?_
  cases found with
  | none => exact calls_fail _
  | some found =>
      simp only
      split
      · exact calls_fail _
      split
      · exact calls_fail _
      refine
        calls_bind (calls_forEach ?_ _) fun _ =>
          calls_prisma_mapped _ _ _
      intro item
      exact
        calls_bind (calls_prisma_mapped _ _ _) fun _ =>
          calls_done ()

/- A write calls on the database that it is handed. -/
theorem ProductWrite.calls_handler
    (write : ProductWrite)
    (db : String) :
    Calls (StoreOp.IsOn db)
      (write.job.handler fun _ => db) := by
  cases write with
  | create user tenantCode query body =>
      refine calls_bind ?_ fun _ => calls_done ()
      simp only [ProductController.create,
        ProductService.create]
      rw [if_neg tenantCode.nonempty]
      exact calls_prisma _ _
  | update user tenantCode id query body =>
      refine calls_bind ?_ fun _ => calls_done ()
      exact
        calls_bind (ProductService.calls_findOne_on _ _ _)
          fun _ => calls_prisma_mapped _ _ _
  | remove user tenantCode id query =>
      refine calls_bind ?_ fun _ => calls_done ()
      exact
        calls_bind (ProductService.calls_findOne_on _ _ _)
          fun _ => calls_prisma_mapped _ _ _
  | paymentReceived user tenantCode id query =>
      exact
        calls_bind
          (OrderService.calls_paymentReceived _ _ _ _)
          fun _ => calls_done ()

/- The path decides which client a write looks up. -/
theorem ProductWrite.conforms_routed
    {platform : Platform}
    {env : Environment}
    (write : ProductWrite) :
    Conforms (RoutePhase.Moves platform env)
      (fun _ _ => True) (write.routed platform env)
      (.resolving write.tenantCode) := by
  unfold ProductWrite.routed
  rw [write.tenantCode_eq]
  intro answer
  cases answer with
  | error error => exact ⟨_, RoutePhase.Moves.fail, trivial⟩
  | ok client =>
      refine ⟨_, RoutePhase.Moves.resolve, ?_⟩
      dsimp only [Program.onLeft, Program.bind]
      cases client.database? platform env with
      | none => trivial
      | some db =>
          have hStays :
              Conforms (RoutePhase.Moves platform env)
                (fun _ phase => phase = .resolved (some db))
                ((write.job.handler fun _ => db).onRight :
                  RoutedHandler Unit)
                (.resolved (some db)) := by
            apply conforms_onRight
            apply (write.calls_handler db).conforms
            rintro _ answer ⟨op, rfl⟩
            exact RoutePhase.Moves.use
          exact hStays.mono fun _ _ _ => trivial

/- All writes perform the script. -/
theorem routingSystem_performs
    (platform : Platform)
    (env : Environment) :
    (routingSystem platform env).Performs
      (routeScript platform env) :=
  fun write => write.conforms_routed

end OrderApi

------------------------------------------------------------
-- The Invariant
------------------------------------------------------------

namespace OrderApi

/- A phase does not lead to a database. -/
def RoutePhase.Avoids
    (platform : Platform)
    (env : Environment)
    (name : String) : RoutePhase → Prop
  | resolving tenantCode =>
      ¬ Selects platform env tenantCode name
  | resolved db? => db? ≠ some name

/-
  The connection map is bound, and a database that no path
  selects is as it was.
-/
structure RouteInv
    (platform : Platform)
    (env : Environment)
    (name : String)
    (start : RoutingStore)
    (world : RoutingWorld)
    (phases : List RoutePhase) : Prop where
  bound :
    ∃ owner,
      BoundBy platform env owner world.store.connections
  same : world.store.tenants.dbs name = start.tenants.dbs name
  avoids :
    ∀ phase ∈ phases, phase.Avoids platform env name

variable {platform : Platform} {env : Environment}
variable {name : String} {start : RoutingStore}
variable {t : RoutingStep} {phases : List RoutePhase}

/- A start elsewhere preserves the invariant. -/
theorem RouteInv.start_write
    {write : ProductWrite}
    (hInv :
      RouteInv platform env name start t.before phases)
    (hStore : t.after.store = t.before.store)
    (hElsewhere :
      ¬ Selects platform env write.tenantCode name) :
    RouteInv platform env name start t.after
      (phases ++ [.resolving write.tenantCode]) := by
  constructor
  · rw [hStore]
    exact hInv.bound
  · rw [hStore]
    exact hInv.same
  · intro phase hMem
    rcases List.mem_append.mp hMem with hOld | hNew
    · exact hInv.avoids phase hOld
    · rw [List.mem_singleton.mp hNew]
      exact hElsewhere

/- An allowed call preserves the invariant. -/
theorem RouteInv.resume
    {phase phase' : RoutePhase}
    {index : Nat}
    {op : RoutingOp}
    {choice : Choice}
    {answer : Except ApiError (RoutingRes op)}
    (hInv :
      RouteInv platform env name start t.before phases)
    (hPhase : phases[index]? = some phase)
    (hMoves :
      RoutePhase.Moves platform env phase op answer phase')
    (hExec :
      RoutingOp.exec platform env choice op t.before.store =
        (answer, t.after.store)) :
    RouteInv platform env name start t.after
      (phases.set index phase') := by
  have hAvoids :=
    hInv.avoids phase (List.mem_of_getElem? hPhase)
  rcases hInv.bound with ⟨owner, hBound⟩
  have hSet :
      phase'.Avoids platform env name →
        ∀ q ∈ phases.set index phase',
          q.Avoids platform env name := by
    intro hNext q hMem
    rcases List.mem_or_eq_of_mem_set hMem with hOld | rfl
    · exact hInv.avoids q hOld
    · exact hNext
  cases hMoves with
  | @resolve tenantCode client =>
      rcases RoutingOp.exec_getClient hExec with
        ⟨hClient, hTenants⟩
      have hSelects := @BoundBy.selects _ _ _ _ tenantCode hBound
      rw [hClient] at hSelects
      refine ⟨hSelects.2, ?_, hSet ?_⟩
      · rw [hTenants]
        exact hInv.same
      · intro hDatabase
        exact hAvoids (hSelects.1 name hDatabase)
  | fail => cases hExec
  | @use db tenantOp answer =>
      rcases RoutingOp.exec_inr hExec with
        ⟨hCall, hConnections⟩
      refine ⟨⟨owner, hConnections ▸ hBound⟩, ?_,
        hSet hAvoids⟩
      rcases StoreOp.exec_dbs_cases hCall with
        hSame |
          ⟨used, _, _, _, db', _, hOp, _, _, _, _, hStore⟩
      · rw [hSame]
        exact hInv.same
      · cases hOp
        have hOther : name ≠ db := by
          rintro rfl
          exact hAvoids rfl
        rw [hStore, Backend.put_dbs_other hOther]
        exact hInv.same

end OrderApi

------------------------------------------------------------
-- Where Writes End Up
------------------------------------------------------------

namespace OrderApi

/-
  In every run of writes to products, by any users and with
  any queries, a database that no path selects is as it was.
-/
theorem products_unchanged_of_not_selected
    {platform : Platform}
    {env : Environment}
    {name : String}
    {start : RoutingStore}
    {history : List RoutingStep}
    {world : RoutingWorld}
    (hReached : start.connections.Reached platform env)
    (hRun : RoutingRun platform env start history world)
    (hElsewhere :
      ∀ t ∈ history, ∀ write ∈ startedWrite? t,
        ¬ Selects platform env write.tenantCode name) :
    world.store.tenants.dbs name =
      start.tenants.dbs name := by
  have hInvariant :=
    PoolSystem.script_invariant
      (routingSystem_performs platform env)
      (fun t =>
        ∀ write ∈ startedWrite? t,
          ¬ Selects platform env write.tenantCode name)
      (fun _ world phases =>
        RouteInv platform env name start world phases)
      ⟨hReached.bound, rfl, by simp⟩ ?_ ?_ hRun hElsewhere
  · rcases hInvariant with ⟨_, _, hInv⟩
    exact hInv.same
  · intro history pool phases write hInv hScript hReady pool'
      hGood
    let t : RoutingStep := ⟨pool, .start write, pool'⟩
    exact
      RouteInv.start_write (t := t) hInv rfl
        (hGood write rfl)
  · intro history pool phases index choice write op goOn
      phase phase' hInv hScript hThread hPhase hOwns hMoves
      answer pool' _
    let t : RoutingStep :=
      ⟨pool, .resume index choice, pool'⟩
    have hExec :
        RoutingOp.exec platform env choice op
            t.before.store =
          (answer.1, t.after.store) := rfl
    exact
      RouteInv.resume (t := t) hInv hPhase hMoves hExec

end OrderApi

------------------------------------------------------------
-- An ADMIN in Two Databases
------------------------------------------------------------

namespace OrderApi

namespace Onboarding

/- The databases of two tenants, without rows. -/
def twoTenants : RoutingStore where
  connections := fun _ => none
  tenants :=
    { users := Table.empty
      dbs := fun name =>
        if name ∈ ["tenant_acme", "tenant_bolt"] then
          some TenantDb.empty
        else
          none
      orderProcessing := []
      orderCompleted := [] }

theorem twoTenants_reached :
    twoTenants.connections.Reached platform env :=
  ⟨[], rfl⟩

def acme : PathParam := ⟨"acme", by decide⟩

def bolt : PathParam := ⟨"bolt", by decide⟩

/- The ADMIN of the tenant `acme` creates a product. -/
def createMug (path : PathParam) : ProductWrite :=
  .create ⟨"a", .ADMIN, some "acme"⟩ path
    (JsObject.empty.set "tenantCode" (.str "acme"))
    { name := "mug"
      description := none
      price := 100
      stock := none
      stock_min := by simp }

/- The creation of a product, to its end. -/
def createMugAt (path : PathParam) : List RoutingLabel :=
  [.start (createMug path), .resume 0 (.answer ⟨"", 0⟩),
    .resume 0 (.answer ⟨"p", 0⟩)]

/- A run of writes that passes a check. -/
theorem exists_routingRun
    (labels : List RoutingLabel)
    (check : List RoutingStep → RoutingWorld → Bool)
    (hReplay :
      (replay (routingSystem platform env).step labels
          [] (PoolSystem.idle twoTenants)).any
        (fun run => check run.1 run.2) = true) :
    ∃ history world,
      RoutingRun platform env twoTenants history world ∧
        check history world = true :=
  Run.exists_of_replay labels check hReplay

end Onboarding

/- The ADMIN of `acme` writes to `acme` alone. -/
theorem products_unchanged_of_not_selected_of_onboarding :
    ∃ history world,
      RoutingRun Onboarding.platform Onboarding.env
          Onboarding.twoTenants history world ∧
        (world.store.tenants.product? "tenant_acme"
          "p").isSome ∧
        world.store.tenants.dbs "tenant_bolt" =
          Onboarding.twoTenants.tenants.dbs
            "tenant_bolt" := by
  rcases
      Onboarding.exists_routingRun
        (Onboarding.createMugAt Onboarding.acme)
        (fun history world =>
          decide
            ((world.store.tenants.product? "tenant_acme"
                "p").isSome ∧
              ∀ t ∈ history, ∀ write ∈ startedWrite? t,
                ¬ Selects Onboarding.platform
                  Onboarding.env write.tenantCode
                  "tenant_bolt"))
        (by decide +kernel) with
    ⟨history, world, hRun, hCheck⟩
  rcases of_decide_eq_true hCheck with
    ⟨hCreated, hElsewhere⟩
  exact
    ⟨history, world, hRun, hCreated,
      products_unchanged_of_not_selected
        Onboarding.twoTenants_reached hRun hElsewhere⟩

/- The ADMIN of `acme` writes to `bolt`. -/
theorem not_acts_on_own_tenant :
    ¬ ∀ (start : RoutingStore) (history : List RoutingStep)
        (world : RoutingWorld) (user : AuthUser)
        (a b : String),
      start.connections.Reached Onboarding.platform
        Onboarding.env →
      RoutingRun Onboarding.platform Onboarding.env start
        history world →
      user.role = .ADMIN → user.tenantCode = some a →
      (∀ t ∈ history, ∀ write ∈ startedWrite? t,
        write.request.user = user) →
      DatabaseManagerService.databaseName
          Onboarding.platform Onboarding.env b ≠
        DatabaseManagerService.databaseName
          Onboarding.platform Onboarding.env a →
      ∀ id,
        world.store.tenants.product?
            (DatabaseManagerService.databaseName
              Onboarding.platform Onboarding.env b) id =
          start.tenants.product?
            (DatabaseManagerService.databaseName
              Onboarding.platform Onboarding.env b) id := by
  intro hClaim
  rcases
      Onboarding.exists_routingRun
        (Onboarding.createMugAt Onboarding.bolt)
        (fun history world =>
          decide
            ((∀ t ∈ history, ∀ write ∈ startedWrite? t,
                write.request.user =
                  ⟨"a", .ADMIN, some "acme"⟩) ∧
              world.store.tenants.product?
                  (DatabaseManagerService.databaseName
                    Onboarding.platform Onboarding.env
                    "bolt") "p" ≠
                Onboarding.twoTenants.tenants.product?
                  (DatabaseManagerService.databaseName
                    Onboarding.platform Onboarding.env
                    "bolt") "p"))
        (by decide +kernel) with
    ⟨history, world, hRun, hCheck⟩
  rcases of_decide_eq_true hCheck with ⟨hUser, hChanged⟩
  exact
    hChanged
      (hClaim Onboarding.twoTenants history world _ "acme"
        "bolt" Onboarding.twoTenants_reached hRun rfl rfl
        hUser (by decide +kernel) "p")

end OrderApi
