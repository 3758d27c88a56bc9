import OrderApi.Common.Request
import OrderApi.Prisma.DatabaseManagerService
import Mathlib.Logic.Function.Basic

/-
  The connection map of
  `src/prisma/database-manager.service.ts`.

  The default client is kept in the same map as the clients
  of tenants, under a key that is a possible tenant code.

  Key definitions include:
    * `Client`
    * `DatabaseManagerService.getClient`
    * `ConnectionCall`, `clientsOf`
    * `KeptApart`

  Key theorems include:
    * `clientsOf_right_iff`
-/

------------------------------------------------------------
-- Clients and Their Map
------------------------------------------------------------

namespace OrderApi

/- A `PrismaClient`, by where it takes its URL from. -/
inductive Client where
  | ofUrl (url : String)
  | ofEnvironment
deriving DecidableEq, Repr

/- The URL that a client connects to. -/
def Client.url? (env : Environment) : Client → Option String
  | ofUrl url => some url
  | ofEnvironment => env.DATABASE_URL

/- `connections`. -/
abbrev Connections := String → Option Client

namespace DatabaseManagerService

def defaultKey : String := "_default_"

def getDefaultClient (connections : Connections) :
    Client × Connections :=
  match connections defaultKey with
  | some client => (client, connections)
  | none =>
      (.ofEnvironment,
        Function.update connections defaultKey
          (some .ofEnvironment))

def getClient
    (platform : Platform)
    (env : Environment)
    (tenantCode : Option String)
    (connections : Connections) : Client × Connections :=
  match code? tenantCode with
  | none => getDefaultClient connections
  | some code =>
      match connections code with
      | some client => (client, connections)
      | none =>
          let client := .ofUrl (clientUrl platform env code)
          (client,
            Function.update connections code (some client))

/-
  `answered` tells whether `$disconnect` succeeds; otherwise
  the client stays in the map.
-/
def disconnectTenant
    (tenantCode : String)
    (answered : Bool)
    (connections : Connections) : Connections :=
  match connections tenantCode with
  | none => connections
  | some _ =>
      if answered then
        Function.update connections tenantCode none
      else
        connections

end DatabaseManagerService

end OrderApi

------------------------------------------------------------
-- Sequences of Calls
------------------------------------------------------------

namespace OrderApi

/- The calls on the service, with codes that are not empty. -/
inductive ConnectionCall where
  | getClient (tenantCode : Option PathParam)
  | getDefaultClient
  | disconnectTenant (tenantCode : PathParam) (answered : Bool)

namespace ConnectionCall

/- The client that a call returns, and the map behind it. -/
def perform
    (platform : Platform)
    (env : Environment)
    (connections : Connections) :
    ConnectionCall → Option Client × Connections
  | getClient tenantCode =>
      let (client, connections') :=
        DatabaseManagerService.getClient platform env
          (tenantCode.map PathParam.text) connections
      (some client, connections')
  | getDefaultClient =>
      let (client, connections') :=
        DatabaseManagerService.getDefaultClient connections
      (some client, connections')
  | disconnectTenant tenantCode answered =>
      (none,
        DatabaseManagerService.disconnectTenant
          tenantCode.text answered connections)

/- The URL that the client of a call should have. -/
def expectedUrl?
    (platform : Platform)
    (env : Environment) : ConnectionCall → Option String
  | getClient (some tenantCode) =>
      some
        (DatabaseManagerService.getDatabaseUrl platform env
          (some tenantCode.text))
  | getClient none => env.DATABASE_URL
  | getDefaultClient => env.DATABASE_URL
  | disconnectTenant _ _ => none

/- The clients that a sequence of calls returns. -/
def clientsOf
    (platform : Platform)
    (env : Environment) :
    List ConnectionCall → Connections →
      List (ConnectionCall × Client)
  | [], _ => []
  | call :: calls, connections =>
      let (client?, connections') :=
        call.perform platform env connections
      (client?.toList.map fun client => (call, client)) ++
        clientsOf platform env calls connections'

/- A client is one of the URL that it was asked for. -/
def Right
    (platform : Platform)
    (env : Environment)
    (answer : ConnectionCall × Client) : Prop :=
  answer.2.url? env = answer.1.expectedUrl? platform env

instance
    (platform : Platform)
    (env : Environment)
    (answer : ConnectionCall × Client) :
    Decidable (Right platform env answer) :=
  inferInstanceAs (Decidable (_ = _))

end ConnectionCall

end OrderApi

------------------------------------------------------------
-- The Shared Key
------------------------------------------------------------

namespace OrderApi

/- Who a client under the key `_default_` was made for. -/
inductive KeyOwner where
  | tenant
  | default
deriving DecidableEq, Repr

namespace ConnectionCall

/- Who a call takes the client under `_default_` for. -/
def owner? : ConnectionCall → Option KeyOwner
  | getClient (some tenantCode) =>
      if tenantCode.text =
          DatabaseManagerService.defaultKey then
        some .tenant
      else
        none
  | getClient none => some .default
  | getDefaultClient => some .default
  | disconnectTenant _ _ => none

/- The owner of the key behind a call that asks for none. -/
def releases (owner : Option KeyOwner) :
    ConnectionCall → Option KeyOwner
  | disconnectTenant tenantCode answered =>
      if tenantCode.text =
          DatabaseManagerService.defaultKey ∧ answered then
        none
      else
        owner
  | _ => owner

/-
  Between two calls that ask for `_default_` on behalf of a
  tenant and of the default database, the key is released.
-/
def KeptApart :
    Option KeyOwner → List ConnectionCall → Prop
  | _, [] => True
  | owner, call :: calls =>
      match call.owner? with
      | some asked =>
          (∀ current ∈ owner, current = asked) ∧
            KeptApart (some asked) calls
      | none => KeptApart (call.releases owner) calls

end ConnectionCall

end OrderApi

------------------------------------------------------------
-- What a Call Does
------------------------------------------------------------

namespace OrderApi

open DatabaseManagerService (defaultKey clientUrl)

variable {platform : Platform} {env : Environment}
variable {owner : Option KeyOwner} {asked : KeyOwner}
variable {connections : Connections}
variable {call : ConnectionCall}

/- The client that an owner of the key makes. -/
def KeyOwner.client
    (platform : Platform)
    (env : Environment) : KeyOwner → Client
  | .tenant => .ofUrl (clientUrl platform env defaultKey)
  | .default => .ofEnvironment

/-
  Every code is bound to its own client, and `_default_` to
  the client that its owner made.
-/
structure BoundBy
    (platform : Platform)
    (env : Environment)
    (owner : Option KeyOwner)
    (connections : Connections) : Prop where
  codes :
    ∀ code, code ≠ defaultKey →
      ∀ client ∈ connections code,
        client = .ofUrl (clientUrl platform env code)
  key :
    connections defaultKey =
      owner.map (KeyOwner.client platform env)

/- Binding a code to its client keeps the map bound. -/
theorem BoundBy.bind_code
    {code : String}
    (hBound : BoundBy platform env owner connections)
    (hCode : code ≠ defaultKey) :
    BoundBy platform env owner
      (Function.update connections code
        (some (.ofUrl (clientUrl platform env code)))) where
  codes := by
    intro other hOther client hClient
    by_cases hSame : other = code
    · subst hSame
      rw [Function.update_self] at hClient
      exact (Option.some.inj hClient).symm
    · rw [Function.update_of_ne hSame] at hClient
      exact hBound.codes other hOther client hClient
  key := by
    rw [Function.update_of_ne hCode.symm]
    exact hBound.key

/- Binding the key to the client of its new owner. -/
theorem BoundBy.bind_key
    (hBound : BoundBy platform env owner connections)
    (owner' : Option KeyOwner) :
    BoundBy platform env owner'
      (Function.update connections defaultKey
        (owner'.map (KeyOwner.client platform env))) where
  codes := by
    intro other hOther client hClient
    rw [Function.update_of_ne hOther] at hClient
    exact hBound.codes other hOther client hClient
  key := Function.update_self _ _ _

/- Releasing a code keeps the map bound. -/
theorem BoundBy.release
    {code : String}
    (hBound : BoundBy platform env owner connections)
    (hCode : code ≠ defaultKey) :
    BoundBy platform env owner
      (Function.update connections code none) where
  codes := by
    intro other hOther client hClient
    by_cases hSame : other = code
    · subst hSame
      rw [Function.update_self] at hClient
      cases hClient
    · rw [Function.update_of_ne hSame] at hClient
      exact hBound.codes other hOther client hClient
  key := by
    rw [Function.update_of_ne hCode.symm]
    exact hBound.key

/- A code of a path is not falsy. -/
theorem code?_of_pathParam (tenantCode : PathParam) :
    DatabaseManagerService.code? (some tenantCode.text) =
      some tenantCode.text := by
  simp [DatabaseManagerService.code?, Option.filter,
    tenantCode.nonempty]

/- The default client is the one of the key's owner. -/
theorem BoundBy.getDefaultClient
    (hBound : BoundBy platform env owner connections) :
    let answer :=
      DatabaseManagerService.getDefaultClient connections
    answer.1 =
        (owner.getD .default).client platform env ∧
      BoundBy platform env (some (owner.getD .default))
        answer.2 := by
  cases owner with
  | some current =>
      have hKey := hBound.key
      rw [Option.map_some] at hKey
      simp only [DatabaseManagerService.getDefaultClient,
        hKey]
      exact ⟨rfl, hBound⟩
  | none =>
      have hKey := hBound.key
      rw [Option.map_none] at hKey
      simp only [DatabaseManagerService.getDefaultClient,
        hKey]
      exact ⟨rfl, hBound.bind_key (some .default)⟩

/- The client of the tenant code `_default_`. -/
theorem BoundBy.getClient_key
    {tenantCode : PathParam}
    (hBound : BoundBy platform env owner connections)
    (hCode : tenantCode.text = defaultKey) :
    let answer :=
      DatabaseManagerService.getClient platform env
        (some tenantCode.text) connections
    answer.1 = (owner.getD .tenant).client platform env ∧
      BoundBy platform env (some (owner.getD .tenant))
        answer.2 := by
  have hText := code?_of_pathParam tenantCode
  rw [hCode] at hText
  cases owner with
  | some current =>
      have hKey := hBound.key
      rw [Option.map_some] at hKey
      simp only [DatabaseManagerService.getClient, hCode,
        hText, hKey]
      exact ⟨rfl, hBound⟩
  | none =>
      have hKey := hBound.key
      rw [Option.map_none] at hKey
      simp only [DatabaseManagerService.getClient, hCode,
        hText, hKey]
      exact ⟨rfl, hBound.bind_key (some .tenant)⟩

/- The client of any other code is its own. -/
theorem BoundBy.getClient_code
    {tenantCode : PathParam}
    (hBound : BoundBy platform env owner connections)
    (hCode : tenantCode.text ≠ defaultKey) :
    let answer :=
      DatabaseManagerService.getClient platform env
        (some tenantCode.text) connections
    answer.1 = .ofUrl (clientUrl platform env tenantCode.text) ∧
      BoundBy platform env owner answer.2 := by
  cases hFound : connections tenantCode.text with
  | some client =>
      simp only [DatabaseManagerService.getClient,
        code?_of_pathParam, hFound]
      exact ⟨hBound.codes _ hCode client hFound, hBound⟩
  | none =>
      simp only [DatabaseManagerService.getClient,
        code?_of_pathParam, hFound]
      exact ⟨trivial, hBound.bind_code hCode⟩

namespace ConnectionCall

/- A call that asks for the key gets its owner's client. -/
theorem perform_of_owner
    (hBound : BoundBy platform env owner connections)
    (hAsked : call.owner? = some asked) :
    let answer := call.perform platform env connections
    answer.1 =
        some ((owner.getD asked).client platform env) ∧
      BoundBy platform env (some (owner.getD asked))
        answer.2 := by
  cases call with
  | getClient tenantCode =>
      cases tenantCode with
      | none =>
          cases hAsked
          have hClient := hBound.getDefaultClient
          exact ⟨congrArg some hClient.1, hClient.2⟩
      | some tenantCode =>
          by_cases hCode : tenantCode.text = defaultKey
          · simp only [owner?, hCode, if_true,
              Option.some.injEq] at hAsked
            subst hAsked
            have hClient := hBound.getClient_key hCode
            exact ⟨congrArg some hClient.1, hClient.2⟩
          · simp [owner?, hCode] at hAsked
  | getDefaultClient =>
      cases hAsked
      have hClient := hBound.getDefaultClient
      exact ⟨congrArg some hClient.1, hClient.2⟩
  | disconnectTenant tenantCode answered => cases hAsked

/- Any other call returns the right client, if any. -/
theorem perform_of_no_owner
    (hBound : BoundBy platform env owner connections)
    (hAsked : call.owner? = none) :
    let answer := call.perform platform env connections
    (∀ client ∈ answer.1,
      Right platform env (call, client)) ∧
      BoundBy platform env (call.releases owner)
        answer.2 := by
  cases call with
  | getClient tenantCode =>
      cases tenantCode with
      | none => cases hAsked
      | some tenantCode =>
          have hCode : tenantCode.text ≠ defaultKey := by
            intro hSame
            simp [owner?, hSame] at hAsked
          have hClient := hBound.getClient_code hCode
          refine ⟨?_, hClient.2⟩
          rintro client hSome
          have hMade := hClient.1.symm.trans
            (Option.some.inj hSome)
          rw [← hMade]
          simp only [Right, expectedUrl?,
            DatabaseManagerService.getDatabaseUrl,
            code?_of_pathParam, Client.url?]
  | getDefaultClient => cases hAsked
  | disconnectTenant tenantCode answered =>
      refine ⟨by simp [perform], ?_⟩
      simp only [perform,
        DatabaseManagerService.disconnectTenant, releases]
      by_cases hCode : tenantCode.text = defaultKey
      · cases answered with
        | true =>
            simp only [hCode, true_and, if_true]
            cases hFound : connections defaultKey with
            | some client => exact hBound.bind_key none
            | none => exact ⟨hBound.codes, hFound⟩
        | false =>
            simp only [hCode, Bool.false_eq_true, and_false,
              if_false]
            split <;> exact hBound
      · simp only [hCode, false_and, if_false]
        split
        · exact hBound
        · split
          · exact hBound.release hCode
          · exact hBound

end ConnectionCall

end OrderApi

------------------------------------------------------------
-- Right Clients
------------------------------------------------------------

namespace OrderApi

namespace ConnectionCall

open DatabaseManagerService (defaultKey clientUrl)

variable {platform : Platform} {env : Environment}
variable {owner : Option KeyOwner} {asked : KeyOwner}
variable {connections : Connections}
variable {call : ConnectionCall}

/- The two owners of the key make clients of one URL. -/
def SameUrl (platform : Platform) (env : Environment) :
    Prop :=
  env.DATABASE_URL =
    some (clientUrl platform env defaultKey)

/- What a call that asks for the key should get. -/
theorem expectedUrl?_of_owner
    (hAsked : call.owner? = some asked) :
    call.expectedUrl? platform env =
      (asked.client platform env).url? env := by
  cases call with
  | getClient tenantCode =>
      cases tenantCode with
      | none =>
          cases hAsked
          rfl
      | some tenantCode =>
          by_cases hCode : tenantCode.text = defaultKey
          · simp only [owner?, hCode, if_true,
              Option.some.injEq] at hAsked
            subst hAsked
            simp only [expectedUrl?,
              DatabaseManagerService.getDatabaseUrl,
              code?_of_pathParam]
            rw [hCode]
            rfl
          · simp [owner?, hCode] at hAsked
  | getDefaultClient =>
      cases hAsked
      rfl
  | disconnectTenant tenantCode answered => cases hAsked

/- The clients of two owners agree as far as URLs do. -/
theorem url?_client_eq_iff
    (current : KeyOwner) :
    (current.client platform env).url? env =
        (asked.client platform env).url? env ↔
      SameUrl platform env ∨ current = asked := by
  cases current <;> cases asked <;>
    simp [KeyOwner.client, Client.url?, SameUrl, eq_comm]

/-
  All clients are right, from a bound map on, exactly if the
  key is kept apart, or the URLs are the same anyway.
-/
theorem clientsOf_right_of_bound
    (calls : List ConnectionCall)
    (owner : Option KeyOwner)
    (connections : Connections)
    (hBound : BoundBy platform env owner connections) :
    (∀ answer ∈ clientsOf platform env calls connections,
      Right platform env answer) ↔
      SameUrl platform env ∨ KeptApart owner calls := by
  induction calls generalizing owner connections with
  | nil => simp [clientsOf, KeptApart]
  | cons call calls ih =>
      simp only [clientsOf, List.mem_append, or_imp,
        forall_and, KeptApart]
      cases hAsked : call.owner? with
      | none =>
          rcases perform_of_no_owner hBound hAsked with
            ⟨hRight, hAfter⟩
          rw [ih _ _ hAfter]
          refine and_iff_right ?_
          intro answer hAnswer
          rcases List.mem_map.mp hAnswer with
            ⟨client, hClient, rfl⟩
          exact hRight client (Option.mem_toList.mp hClient)
      | some asked =>
          rcases perform_of_owner hBound hAsked with
            ⟨hClient, hAfter⟩
          rw [ih _ _ hAfter, hClient]
          simp only [Option.toList_some, List.map_cons,
            List.map_nil, List.mem_singleton, forall_eq,
            Right, expectedUrl?_of_owner hAsked,
            url?_client_eq_iff]
          cases owner with
          | none => simp
          | some current =>
              by_cases hSame : current = asked
              · subst hSame
                simp
              · -- the key is the other owner's
                constructor
                · rintro ⟨hUrl | hOwner, _⟩
                  · exact Or.inl hUrl
                  · exact (hSame hOwner).elim
                · rintro (hUrl | ⟨hKept, _⟩)
                  · exact ⟨Or.inl hUrl, Or.inl hUrl⟩
                  · exact (hSame (hKept current rfl)).elim

/-
  Every sequence of calls on a fresh service returns clients
  of the right URLs exactly if `_default_` is never asked
  for on behalf of a tenant and of the default database
  without being released in between, unless both have one
  URL.
-/
theorem clientsOf_right_iff
    (platform : Platform)
    (env : Environment)
    (calls : List ConnectionCall) :
    (∀ answer ∈
        clientsOf platform env calls (fun _ => none),
      Right platform env answer) ↔
      SameUrl platform env ∨ KeptApart none calls := by
  apply clientsOf_right_of_bound
  refine ⟨?_, rfl⟩
  intro code _ client hClient
  cases hClient

/- The path of a request may name the key of the map. -/
theorem not_clientsOf_right :
    ¬ ∀ (env : Environment) (calls : List ConnectionCall),
      ∀ answer ∈
          clientsOf Onboarding.platform env calls
            (fun _ => none),
        Right Onboarding.platform env answer := by
  intro hClaim
  have hSecond :=
    hClaim Onboarding.env
      [.getDefaultClient,
        .getClient (some ⟨defaultKey, by decide⟩)]
      (.getClient (some ⟨defaultKey, by decide⟩),
        .ofEnvironment)
      (List.mem_cons_of_mem _ List.mem_cons_self)
  revert hSecond
  decide +kernel

end ConnectionCall

end OrderApi
