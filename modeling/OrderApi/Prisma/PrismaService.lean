import OrderApi.Core.Sides
import OrderApi.Model.Store
import OrderApi.Prisma.Connections

/-
  `src/prisma/prisma.service.ts`: the client of a request is
  looked up when it is first used, under the tenant code of
  the request's context, and is kept.

  Key definitions include:
    * `RoutingStore`, `RoutingOp.exec`
    * `PrismaService.database`
    * `Connections.Reached`
    * `Selects`

  Key theorems include:
    * `Connections.Reached.bound`
    * `BoundBy.selects`
-/

------------------------------------------------------------
-- The Store behind the Service
------------------------------------------------------------

namespace OrderApi

/- The calls on the connection map. -/
inductive ConnectionOp where
  | getClient (tenantCode : Option String)
deriving DecidableEq, Repr

abbrev ConnectionOp.Res : ConnectionOp → Type
  | .getClient _ => Client

/- The connection map, and the databases behind it. -/
structure RoutingStore where
  connections : Connections
  tenants : Backend

abbrev RoutingOp := ConnectionOp ⊕ StoreOp

abbrev RoutingRes : RoutingOp → Type :=
  Sum.elim ConnectionOp.Res StoreOp.Res

abbrev RoutedHandler (α : Type) :=
  Program RoutingOp RoutingRes ApiError α

def RoutingOp.exec
    (platform : Platform)
    (env : Environment)
    (choice : Choice) :
    (op : RoutingOp) → RoutingStore →
      Except ApiError (RoutingRes op) × RoutingStore
  | .inl (.getClient tenantCode), store =>
      let found :=
        DatabaseManagerService.getClient platform env
          tenantCode store.connections
      (.ok found.1, { store with connections := found.2 })
  | .inr op, store =>
      let answer := op.exec choice store.tenants
      (answer.1, { store with tenants := answer.2 })

section Exec

variable
  {platform : Platform}
  {env : Environment}
  {choice : Choice}
  {store store' : RoutingStore}

/- A look-up leaves the databases. -/
theorem RoutingOp.exec_getClient
    {tenantCode : Option String}
    {client : Client}
    (hExec :
      RoutingOp.exec platform env choice
          (.inl (.getClient tenantCode)) store =
        (.ok client, store')) :
    DatabaseManagerService.getClient platform env tenantCode
          store.connections =
        (client, store'.connections) ∧
      store'.tenants = store.tenants := by
  cases hExec
  exact ⟨rfl, rfl⟩

/- A call on a database leaves the map. -/
theorem RoutingOp.exec_inr
    {op : StoreOp}
    {answer : Except ApiError op.Res}
    (hExec :
      RoutingOp.exec platform env choice (.inr op) store =
        (answer, store')) :
    op.exec choice store.tenants = (answer, store'.tenants) ∧
      store'.connections = store.connections := by
  cases hExec
  exact ⟨rfl, rfl⟩

end Exec

end OrderApi

------------------------------------------------------------
-- The Database of a Request
------------------------------------------------------------

namespace OrderApi

/- The database that a client is connected to. -/
def Client.database?
    (platform : Platform)
    (env : Environment)
    (client : Client) : Option String :=
  (client.url? env).bind platform.databaseOf

namespace PrismaService

/- `client`, as the database that its calls go to. -/
def ofCode
    (platform : Platform)
    (env : Environment)
    (tenantCode : Option String) : RoutedHandler String := do
  let client : Client ←
    (Program.perform (ConnectionOp.getClient tenantCode) :
      Program ConnectionOp ConnectionOp.Res ApiError
        Client).onLeft
  match client.database? platform env with
  | none => .fail (storeError "Invalid connection string")
  | some db => pure db

/- A code that is no text cannot be put into lower case. -/
def database
    (platform : Platform)
    (env : Environment)
    (tenantCode : Option JsVal) : RoutedHandler String :=
  match tenantCode with
  | none => ofCode platform env none
  | some (.str code) => ofCode platform env (some code)
  | some _ =>
      .fail
        ⟨.internal, "tenantCode.toLowerCase is not a function"⟩

end PrismaService

/-
  The databases that a tenant code may lead to: that of its
  URL, and the default one for the key that it shares.
-/
def Selects
    (platform : Platform)
    (env : Environment)
    (tenantCode : PathParam)
    (name : String) : Prop :=
  platform.databaseOf
      (DatabaseManagerService.clientUrl platform env
        tenantCode.text) =
    some name ∨
  (tenantCode.text = DatabaseManagerService.defaultKey ∧
    defaultDatabase? platform env = some name)

instance
    (platform : Platform)
    (env : Environment)
    (tenantCode : PathParam)
    (name : String) :
    Decidable (Selects platform env tenantCode name) :=
  inferInstanceAs (Decidable (_ ∨ _))

end OrderApi

------------------------------------------------------------
-- Reachable Maps
------------------------------------------------------------

namespace OrderApi

variable {platform : Platform} {env : Environment}
variable {connections : Connections}

/- The map behind a sequence of calls. -/
def ConnectionCall.mapAfter
    (platform : Platform)
    (env : Environment) :
    List ConnectionCall → Connections → Connections
  | [], connections => connections
  | call :: calls, connections =>
      mapAfter platform env calls
        (call.perform platform env connections).2

/- A map that the service may have come to. -/
def Connections.Reached
    (platform : Platform)
    (env : Environment)
    (connections : Connections) : Prop :=
  ∃ calls,
    connections =
      ConnectionCall.mapAfter platform env calls
        (fun _ => none)

/- Calls keep the map bound, to one owner or another. -/
theorem ConnectionCall.bound_mapAfter
    {owner : Option KeyOwner}
    (hBound : BoundBy platform env owner connections)
    (calls : List ConnectionCall) :
    ∃ owner',
      BoundBy platform env owner'
        (mapAfter platform env calls connections) := by
  induction calls generalizing owner connections with
  | nil => exact ⟨owner, hBound⟩
  | cons call calls ih =>
      cases hAsked : call.owner? with
      | none => exact ih (perform_of_no_owner hBound hAsked).2
      | some asked =>
          exact ih (perform_of_owner hBound hAsked).2

theorem Connections.Reached.bound
    (hReached : connections.Reached platform env) :
    ∃ owner, BoundBy platform env owner connections := by
  rcases hReached with ⟨calls, rfl⟩
  have hFresh : BoundBy platform env none (fun _ => none) := by
    refine ⟨?_, rfl⟩
    intro code _ client hClient
    cases hClient
  exact ConnectionCall.bound_mapAfter hFresh calls

/- A client is connected to a database of its code. -/
theorem BoundBy.selects
    {owner : Option KeyOwner}
    {tenantCode : PathParam}
    (hBound : BoundBy platform env owner connections) :
    let answer :=
      DatabaseManagerService.getClient platform env
        (some tenantCode.text) connections
    (∀ name, answer.1.database? platform env = some name →
      Selects platform env tenantCode name) ∧
      ∃ owner', BoundBy platform env owner' answer.2 := by
  by_cases hCode :
      tenantCode.text = DatabaseManagerService.defaultKey
  · rcases hBound.getClient_key hCode with
      ⟨hClient, hAfter⟩
    refine ⟨?_, _, hAfter⟩
    intro name hName
    rw [hClient] at hName
    cases hOwner : owner.getD .tenant with
    | tenant =>
        rw [hOwner] at hName
        apply Or.inl
        rw [hCode]
        exact hName
    | default =>
        rw [hOwner] at hName
        exact Or.inr ⟨hCode, hName⟩
  · rcases hBound.getClient_code hCode with
      ⟨hClient, hAfter⟩
    refine ⟨?_, _, hAfter⟩
    intro name hName
    rw [hClient] at hName
    exact Or.inl hName

end OrderApi
