import OrderApi.Core.Run
import OrderApi.Rabbitmq.RabbitMQService

/-
  Waiting for a connection to RabbitMQ, in every state that
  start-up and earlier attempts can leave.

  Key definitions include:
    * `ServiceCall`, `serviceStep`
    * `WaitsRight`
    * `Stuck`, `OpensTooLate`

  Key theorems include:
    * `Stuck.forever`
    * `waitsRight_iff`
    * `waitsRight_of_run`
-/

------------------------------------------------------------
-- The Life of the Service
------------------------------------------------------------

namespace OrderApi

open RabbitMQService

/- What is called on the service, with all its attempts. -/
inductive ServiceCall where
  | onModuleInit (attempt : Attempt)
  | waitForConnection (attempts : Nat → Attempt)

def serviceStep (service : RabbitMQService) :
    ServiceCall → Option RabbitMQService
  | .onModuleInit attempt =>
      some (service.onModuleInit attempt)
  | .waitForConnection attempts =>
      some (service.waitForConnection attempts).2

namespace Attempt

/- All steps of an attempt succeed. -/
def Succeeds (attempt : Attempt) : Prop :=
  attempt.connect = .ok () ∧ attempt.createChannel = .ok () ∧
    ∀ queue ∈ queues, attempt.assertQueue queue = .ok ()

/- An attempt connects, and creates a channel. -/
def Opens (attempt : Attempt) : Prop :=
  attempt.connect = .ok () ∧ attempt.createChannel = .ok ()

end Attempt

/-
  Waiting throws only without a channel.  And if there is no
  channel yet, but every step succeeds from now on, then
  waiting returns.
-/
def WaitsRight
    (service : RabbitMQService)
    (attempts : Nat → Attempt) : Prop :=
  ((service.waitForConnection attempts).1 ≠ .ok () →
    (service.waitForConnection attempts).2.channel = false) ∧
  (service.channel = false →
    (∀ n, (attempts n).Succeeds) →
      (service.waitForConnection attempts).1 = .ok ())

/- A connection is set, and no channel. -/
def Stuck (service : RabbitMQService) : Prop :=
  service.connection = true ∧ service.channel = false

/-
  The attempt of the last turn opens a channel, and it is
  the first that connects.
-/
def OpensTooLate (attempts : Nat → Attempt) : Prop :=
  (∀ n < maxRetries - 1, (attempts n).connect ≠ .ok ()) ∧
    (attempts (maxRetries - 1)).Opens

end OrderApi

------------------------------------------------------------
-- The Turns of the Loop
------------------------------------------------------------

namespace OrderApi

namespace RabbitMQService

variable {service : RabbitMQService} {attempt : Attempt}
variable {attempts : Nat → Attempt}

/- What an attempt sets. -/
theorem attemptConnection_state
    (attempt : Attempt)
    (service : RabbitMQService) :
    (attemptConnection attempt service).2 =
      if attempt.connect = .ok () then
        if attempt.createChannel = .ok () then ⟨true, true⟩
        else ⟨true, service.channel⟩
      else
        service := by
  unfold attemptConnection
  cases attempt.connect with
  | error error => rfl
  | ok value =>
      cases attempt.createChannel with
      | error error => rfl
      | ok value => rfl

/- With a channel, no turn is needed. -/
theorem waitTurns_of_channel
    (hChannel : service.channel = true)
    (turns : Nat) :
    waitTurns attempts service (turns + 1) =
      (.ok (), service) := by
  rw [waitTurns, if_pos hChannel]

/- Stuck, no turn changes anything. -/
theorem waitTurns_of_stuck
    (hStuck : Stuck service)
    (turns : Nat) :
    waitTurns attempts service turns =
      (.error retriesExceeded, service) := by
  induction turns generalizing attempts with
  | zero => rfl
  | succ turns ih =>
      have hNoChannel : ¬ service.channel = true := by
        simp [hStuck.2]
      have hRetry : retry (attempts 0) service = service :=
        if_pos hStuck.1
      rw [waitTurns, if_neg hNoChannel, hRetry, ih]

/- Without a connection, a turn makes its attempt. -/
theorem waitTurns_of_unset
    (turns : Nat) :
    waitTurns attempts unset (turns + 1) =
      waitTurns (fun n => attempts (n + 1))
        (attemptConnection (attempts 0) unset).2 turns := by
  rfl

/-
  If only the attempt of the last turn connects, its channel
  is not looked at any more.
-/
theorem waitTurns_of_late
    (turns : Nat)
    (hRefused : ∀ n < turns, (attempts n).connect ≠ .ok ())
    (hOpens : (attempts turns).Opens) :
    waitTurns attempts unset (turns + 1) =
      (.error retriesExceeded, ⟨true, true⟩) := by
  induction turns generalizing attempts with
  | zero =>
      rw [waitTurns_of_unset, attemptConnection_state,
        if_pos hOpens.1, if_pos hOpens.2, waitTurns]
  | succ turns ih =>
      have hFirst : (attempts 0).connect ≠ .ok () :=
        hRefused 0 (by omega)
      have hOthers :
          ∀ n < turns,
            (attempts (n + 1)).connect ≠ .ok () := by
        intro n hTurn
        exact hRefused (n + 1) (by omega)
      rw [waitTurns_of_unset, attemptConnection_state,
        if_neg hFirst]
      exact ih hOthers hOpens

/-
  Otherwise the first attempt that connects decides: waiting
  returns if it creates a channel, and is stuck if not.
-/
theorem waitTurns_cases
    (turns : Nat)
    (hInTime :
      ¬ ((∀ n < turns, (attempts n).connect ≠ .ok ()) ∧
        (attempts turns).Opens)) :
    (waitTurns attempts unset (turns + 1)).1 = .ok () ∨
      (waitTurns attempts unset (turns + 1)).2.channel =
        false := by
  induction turns generalizing attempts with
  | zero =>
      right
      rw [waitTurns_of_unset, attemptConnection_state,
        waitTurns]
      split_ifs with hConnect hChannel
      · exact absurd ⟨by simp, hConnect, hChannel⟩ hInTime
      · rfl
      · rfl
  | succ turns ih =>
      rw [waitTurns_of_unset, attemptConnection_state]
      split_ifs with hConnect hChannel
      · left
        rw [waitTurns_of_channel rfl]
      · right
        rw [waitTurns_of_stuck ⟨rfl, rfl⟩]
        rfl
      · refine ih fun ⟨hRefused, hOpens⟩ => hInTime ?_
        refine ⟨fun n hTurn => ?_, hOpens⟩
        cases n with
        | zero => exact hConnect
        | succ n => exact hRefused n (by omega)

end RabbitMQService

end OrderApi

------------------------------------------------------------
-- Where the Loop Goes Wrong
------------------------------------------------------------

namespace OrderApi

open RabbitMQService

variable {service : RabbitMQService}
variable {attempts : Nat → Attempt}

/- Every state is unset, stuck, or has a channel. -/
theorem RabbitMQService.cases_state
    (service : RabbitMQService) :
    service = unset ∨ Stuck service ∨
      service.channel = true := by
  rcases service with ⟨connection, channel⟩
  cases channel with
  | true => exact Or.inr (Or.inr rfl)
  | false =>
      cases connection with
      | true => exact Or.inr (Or.inl ⟨rfl, rfl⟩)
      | false => exact Or.inl rfl

/- With a channel, waiting returns. -/
theorem WaitsRight.of_channel
    (hChannel : service.channel = true) :
    WaitsRight service attempts := by
  have hWait :
      service.waitForConnection attempts =
        (.ok (), service) :=
    waitTurns_of_channel hChannel _
  unfold WaitsRight
  rw [hWait]
  exact ⟨fun hThrows => absurd rfl hThrows, fun _ _ => rfl⟩

/- Being stuck is for good: no later wait leaves it. -/
theorem Stuck.forever
    (hStuck : Stuck service)
    (attempts : Nat → Attempt) :
    service.waitForConnection attempts =
      (.error retriesExceeded, service) :=
  waitTurns_of_stuck hStuck _

/- So it is wrong to wait if the broker would accept. -/
theorem Stuck.waitsRight_iff
    (hStuck : Stuck service) :
    WaitsRight service attempts ↔
      ¬ ∀ n, (attempts n).Succeeds := by
  unfold WaitsRight
  rw [hStuck.forever attempts]
  constructor
  · intro hRight hSucceed
    have hReturns := hRight.2 hStuck.2 hSucceed
    cases hReturns
  · intro hFails
    exact
      ⟨fun _ => hStuck.2,
        fun _ hSucceed => absurd hSucceed hFails⟩

/-
  Unset, waiting is wrong only on a channel in the last
  turn.
-/
theorem waitsRight_unset_iff :
    WaitsRight unset attempts ↔
      ¬ OpensTooLate attempts := by
  constructor
  · intro hRight hLate
    have hWait :
        unset.waitForConnection attempts =
          (.error retriesExceeded, ⟨true, true⟩) :=
      waitTurns_of_late (maxRetries - 1) hLate.1 hLate.2
    have hClosed := hRight.1
    rw [hWait] at hClosed
    have hFalse : true = false :=
      hClosed (by simp)
    cases hFalse
  · intro hInTime
    have hCases :=
      waitTurns_cases (maxRetries - 1) hInTime
    refine ⟨fun hThrows => ?_, fun _ hSucceed => ?_⟩
    · exact hCases.resolve_left hThrows
    · have hOpened :
          (attemptConnection (attempts 0) unset).2 =
            ⟨true, true⟩ := by
        rw [attemptConnection_state,
          if_pos (hSucceed 0).1, if_pos (hSucceed 0).2.1]
      unfold waitForConnection maxRetries
      rw [waitTurns_of_unset, hOpened,
        waitTurns_of_channel rfl]

/-
  In any state, waiting goes wrong in two ways: a connection
  without a channel is never tried again, and a channel that
  the last turn opens comes too late.
-/
theorem waitsRight_iff
    (service : RabbitMQService)
    (attempts : Nat → Attempt) :
    WaitsRight service attempts ↔
      ¬ (Stuck service ∧ ∀ n, (attempts n).Succeeds) ∧
        ¬ (service = unset ∧ OpensTooLate attempts) := by
  rcases service.cases_state with
    hUnset | hStuck | hChannel
  · have hFree : ¬ Stuck service := by
      simp [hUnset, Stuck, unset]
    subst hUnset
    simp [waitsRight_unset_iff, hFree]
  · have hSet : service ≠ unset := by
      intro hUnset
      simp [hUnset, Stuck, unset] at hStuck
    simp [hStuck.waitsRight_iff, hStuck, hSet]
  · have hFree : ¬ Stuck service := by
      simp [Stuck, hChannel]
    have hSet : service ≠ unset := by
      intro hUnset
      simp [hUnset, unset] at hChannel
    simp [WaitsRight.of_channel hChannel, hFree, hSet]

end OrderApi

------------------------------------------------------------
-- Runs of the Service
------------------------------------------------------------

namespace OrderApi

open RabbitMQService

variable {service service' : RabbitMQService}
variable
  {history : List (Transition RabbitMQService ServiceCall)}

/- An attempt that connects also creates a channel. -/
def Attempt.Completes (attempt : Attempt) : Prop :=
  attempt.connect = .ok () → attempt.createChannel = .ok ()

/- So do all attempts of a call. -/
def ServiceCall.Completes : ServiceCall → Prop
  | .onModuleInit attempt => attempt.Completes
  | .waitForConnection attempts =>
      ∀ n, (attempts n).Completes

/- A complete attempt does not get the service stuck. -/
theorem attemptConnection_not_stuck
    {attempt : Attempt}
    (hCompletes : attempt.Completes)
    (hFree : ¬ Stuck service) :
    ¬ Stuck (attemptConnection attempt service).2 := by
  rw [attemptConnection_state]
  split_ifs with hConnect hChannel
  · simp [Stuck]
  · exact absurd (hCompletes hConnect) hChannel
  · exact hFree

/- Nor does a loop of them. -/
theorem waitTurns_not_stuck
    {attempts : Nat → Attempt}
    (turns : Nat)
    (hCompletes : ∀ n, (attempts n).Completes)
    (hFree : ¬ Stuck service) :
    ¬ Stuck (waitTurns attempts service turns).2 := by
  induction turns generalizing attempts service with
  | zero => exact hFree
  | succ turns ih =>
      unfold waitTurns
      split_ifs with hChannel
      · exact hFree
      · refine ih (fun n => hCompletes (n + 1)) ?_
        unfold retry
        split_ifs with hConnection
        · exact hFree
        · exact attemptConnection_not_stuck (hCompletes 0) hFree

/- One call whose attempts complete does not stick. -/
theorem serviceStep_not_stuck
    {call : ServiceCall}
    (hStep : serviceStep service call = some service')
    (hCompletes : call.Completes)
    (hFree : ¬ Stuck service) :
    ¬ Stuck service' := by
  cases call with
  | onModuleInit attempt =>
      rcases Option.some.inj hStep with rfl
      exact attemptConnection_not_stuck hCompletes hFree
  | waitForConnection attempts =>
      rcases Option.some.inj hStep with rfl
      exact waitTurns_not_stuck _ hCompletes hFree

/- After a run of such calls, the service is not stuck. -/
theorem not_stuck_of_run
    (hRun : Run serviceStep unset history service)
    (hCompletes : ∀ t ∈ history, t.label.Completes) :
    ¬ Stuck service := by
  refine
    Run.invariant (fun t => t.label.Completes)
      (fun _ service => ¬ Stuck service)
      ?_ ?_ hRun hCompletes
  · simp [Stuck, unset]
  · intro _ service call service' hFree hStep hGood
    exact serviceStep_not_stuck hStep hGood hFree

/-
  In every state that a run reaches, waiting goes wrong just
  in the two ways; and without an attempt that connects but
  creates no channel, only a channel that comes too late is
  left.
-/
theorem waitsRight_of_run
    (hRun : Run serviceStep unset history service)
    (attempts : Nat → Attempt) :
    (WaitsRight service attempts ↔
      ¬ (Stuck service ∧ ∀ n, (attempts n).Succeeds) ∧
        ¬ (service = unset ∧ OpensTooLate attempts)) ∧
    ((∀ t ∈ history, t.label.Completes) →
      (WaitsRight service attempts ↔
        ¬ (service = unset ∧ OpensTooLate attempts))) := by
  have hIff := waitsRight_iff service attempts
  refine ⟨hIff, fun hCompletes => ?_⟩
  have hFree := not_stuck_of_run hRun hCompletes
  rw [hIff]
  simp [hFree]

/- Brokers that accept it all, or refuse the channel. -/
def Attempt.accepted : Attempt :=
  ⟨.ok (), .ok (), fun _ => .ok ()⟩

def Attempt.withoutChannel : Attempt :=
  ⟨.ok (), .error "Channel closed", fun _ => .ok ()⟩

/- A run of one call. -/
theorem run_onModuleInit
    (attempt : Attempt) :
    Run serviceStep unset
      [⟨unset, .onModuleInit attempt,
        unset.onModuleInit attempt⟩]
      (unset.onModuleInit attempt) :=
  Run.idle.next rfl

/- After a good start, waiting is right. -/
theorem waitsRight_of_run_of_accepted :
    WaitsRight (unset.onModuleInit Attempt.accepted)
      (fun _ => Attempt.accepted) := by
  have hRun := run_onModuleInit Attempt.accepted
  refine ((waitsRight_of_run hRun _).2 ?_).mpr ?_
  · intro t ht
    rcases List.mem_singleton.mp ht with rfl
    intro _
    rfl
  · intro hUnset
    cases hUnset.1

/-
  After a start that connects and creates no channel, waiting
  throws, also when the broker accepts everything.
-/
theorem not_waitsRight :
    ¬ ∀ history service attempts,
      Run serviceStep unset history service →
        WaitsRight service attempts := by
  intro hClaim
  have hRight :=
    hClaim _ _ (fun _ => Attempt.accepted)
      (run_onModuleInit Attempt.withoutChannel)
  have hReturns :=
    hRight.2 rfl fun _ => ⟨rfl, rfl, fun _ _ => rfl⟩
  cases hReturns

end OrderApi
