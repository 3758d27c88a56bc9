import OrderApi.Core.Sides
import OrderApi.Core.Simulation

/-
  Queues with acknowledged delivery, in front of a pool.

  A queue hands out the oldest message that waits, and keeps
  it until the delivery is settled: an acknowledgement takes
  it away, a rejection puts it back, and so does the loss of
  the channel.  A consumer acknowledges a message once its
  handler has returned, and rejects it otherwise.

  A pool in which any message ever sent may be handled at
  any time is all that the requests and the handlers see.

  Key definitions include:
    * `Queue`
    * `BrokerOp`
    * `Wiring`, `Wiring.consumer`
    * `Wiring.brokered`
    * `Wiring.Logs`

  Key theorems include:
    * `Queue.ack?_perm`, `Queue.requeue?_perm`
    * `Wiring.Logs.exists_run`
-/

------------------------------------------------------------
-- Queues
------------------------------------------------------------

namespace OrderApi

/- A message that was handed out, under its tag. -/
structure Delivery (C : Type) where
  tag : Nat
  content : C
deriving DecidableEq

/-
  The messages that wait, oldest first, the deliveries that
  are not settled, and the messages that were acknowledged,
  which the broker itself forgets.
-/
structure Queue (C : Type) where
  waiting : List C
  unacked : List (Delivery C)
  settled : List C
  nextTag : Nat

namespace Queue

variable {C : Type}

/- A queue of messages that nobody was handed yet. -/
def ofWaiting (waiting : List C) : Queue C :=
  ⟨waiting, [], [], 0⟩

/- Every message that was sent to the queue. -/
def contents (queue : Queue C) : List C :=
  queue.waiting ++
    (queue.unacked.map Delivery.content ++ queue.settled)

def post (queue : Queue C) (sent : List C) : Queue C :=
  { queue with waiting := queue.waiting ++ sent }

/- Hand out the oldest message, under a fresh tag. -/
def deliver (queue : Queue C) :
    Option (Delivery C) × Queue C :=
  match queue.waiting with
  | [] => (none, queue)
  | content :: waiting =>
      let delivery : Delivery C := ⟨queue.nextTag, content⟩
      (some delivery,
        { queue with
          waiting := waiting
          unacked := queue.unacked ++ [delivery]
          nextTag := queue.nextTag + 1 })

/- The loss of the channel puts every delivery back. -/
def recover (queue : Queue C) : Queue C :=
  { queue with
    waiting :=
      queue.unacked.map Delivery.content ++ queue.waiting
    unacked := [] }

variable {queue queue' : Queue C} {delivery : Delivery C}

theorem post_perm (sent : List C) :
    (queue.post sent).contents.Perm
      (queue.contents ++ sent) := by
  unfold contents post
  rw [List.append_assoc, List.append_assoc]
  exact (List.perm_append_comm).append_left _

theorem recover_perm :
    queue.recover.contents.Perm queue.contents := by
  unfold contents recover
  simp only [List.map_nil, List.nil_append]
  rw [← List.append_assoc]
  exact List.perm_append_comm.append_right _

/- A delivery moves a message, and tells which. -/
theorem deliver_perm :
    queue.deliver.2.contents.Perm queue.contents := by
  rcases queue with ⟨waiting, unacked, settled, nextTag⟩
  cases waiting with
  | nil => exact List.Perm.refl _
  | cons content waiting =>
      simp only [deliver, contents, List.map_append,
        List.map_cons, List.map_nil, List.append_assoc,
        List.cons_append, List.nil_append]
      rw [← List.append_assoc, ← List.append_assoc]
      exact List.perm_middle

theorem mem_of_deliver
    (hDelivery : queue.deliver.1 = some delivery) :
    delivery.content ∈ queue.contents := by
  rcases queue with ⟨waiting, unacked, settled, nextTag⟩
  cases waiting with
  | nil => cases hDelivery
  | cons content waiting =>
      cases hDelivery
      exact List.mem_cons_self

theorem deliver_settled :
    queue.deliver.2.settled = queue.settled := by
  rcases queue with ⟨waiting, unacked, settled, nextTag⟩
  cases waiting with
  | nil => rfl
  | cons content waiting => rfl

variable [DecidableEq C]

/- Settle a delivery that is still outstanding. -/
def ack? (queue : Queue C) (delivery : Delivery C) :
    Option (Queue C) :=
  if delivery ∈ queue.unacked then
    some
      { queue with
        unacked := queue.unacked.erase delivery
        settled := queue.settled ++ [delivery.content] }
  else
    none

/- Put a delivery back that is still outstanding. -/
def requeue? (queue : Queue C) (delivery : Delivery C) :
    Option (Queue C) :=
  if delivery ∈ queue.unacked then
    some
      { queue with
        waiting := delivery.content :: queue.waiting
        unacked := queue.unacked.erase delivery }
  else
    none

/- The outstanding messages but for one delivery. -/
theorem map_content_perm
    (hMem : delivery ∈ queue.unacked) :
    (queue.unacked.map Delivery.content).Perm
      (delivery.content ::
        (queue.unacked.erase delivery).map
          Delivery.content) :=
  (List.perm_cons_erase hMem).map _

/- An acknowledgement settles the message of a delivery. -/
theorem ack?_perm
    (hAck : queue.ack? delivery = some queue') :
    queue'.contents.Perm queue.contents ∧
      queue'.settled =
        queue.settled ++ [delivery.content] := by
  unfold ack? at hAck
  split at hAck
  · rename_i hMem
    cases hAck
    refine ⟨?_, rfl⟩
    unfold contents
    apply List.Perm.append_left
    rw [← List.append_assoc]
    refine
      (List.perm_append_singleton _ _).trans
        (List.Perm.append_right _
          (map_content_perm hMem)).symm
  · cases hAck

/- A rejection puts the message of a delivery back. -/
theorem requeue?_perm
    (hRequeue : queue.requeue? delivery = some queue') :
    queue'.contents.Perm queue.contents ∧
      queue'.settled = queue.settled := by
  unfold requeue? at hRequeue
  split at hRequeue
  · rename_i hMem
    cases hRequeue
    refine ⟨?_, rfl⟩
    unfold contents
    refine List.perm_middle.symm.trans ?_
    apply List.Perm.append_left
    exact
      (List.Perm.append_right _
        (map_content_perm hMem)).symm
  · cases hRequeue

end Queue

end OrderApi

------------------------------------------------------------
-- Consumers
------------------------------------------------------------

namespace OrderApi

/- The calls of a consumer, and the loss of the channel. -/
inductive BrokerOp (Q C : Type) where
  | receive (queue : Q)
  | ack (queue : Q) (delivery : Delivery C)
  | nack (queue : Q) (delivery : Delivery C)
  | recover

abbrev BrokerOp.Res {Q C : Type} : BrokerOp Q C → Type
  | .receive _ => Option (Delivery C)
  | _ => Unit

/- A store with the queues of its broker. -/
structure Brokered (σ Q C : Type) where
  store : σ
  queues : Q → Queue C

/- What is started: a request, a consumer, or a loss. -/
inductive BrokerJob (J K : Type) where
  | request (job : J)
  | consume (key : K)
  | loseChannel

/-
  How a pool is wired to queues: which call sends what, and
  which job handles a message.  A job of the pool that is no
  request starts on a delivery only.
-/
structure Wiring
    (J Op : Type)
    (Res : Op → Type)
    (ε χ σ Q K C : Type) where
  system : PoolSystem J Op Res ε χ σ
  isRequest : J → Bool
  queueOf : K → Q
  decode : K → C → Except ε J
  sent : Op → Q → List C
  /- what a channel throws on a delivery it does not know -/
  unknownDelivery : ε

namespace Wiring

variable {J Op : Type} {Res : Op → Type}
variable {ε χ σ Q K C : Type}

abbrev Ops (_ : Wiring J Op Res ε χ σ Q K C) : Type :=
  Op ⊕ BrokerOp Q C

abbrev Answers (w : Wiring J Op Res ε χ σ Q K C) :
    w.Ops → Type :=
  Sum.elim Res BrokerOp.Res

abbrev Script (w : Wiring J Op Res ε χ σ Q K C) : Type :=
  Program w.Ops w.Answers ε Unit

variable (w : Wiring J Op Res ε χ σ Q K C)

def acknowledge (key : K) (delivery : Delivery C) :
    w.Script :=
  Program.perform
    (Sum.inr (BrokerOp.ack (w.queueOf key) delivery))

def reject (key : K) (delivery : Delivery C) : w.Script :=
  Program.perform
    (Sum.inr (BrokerOp.nack (w.queueOf key) delivery))

/- Handle, then acknowledge; on an error, reject. -/
def handling
    (key : K)
    (delivery : Delivery C)
    (handler : w.Script) : w.Script :=
  Program.attempt
    (handler.bind fun _ => w.acknowledge key delivery)
    fun _ => w.reject key delivery

/- What is done with a delivery: decode it, and handle it. -/
def callback (key : K) (delivery : Delivery C) : w.Script :=
  w.handling key delivery
    ((Program.ofExcept
      (w.decode key delivery.content)).bind fun job =>
        (w.system.program job).onLeft)

/- A consumer takes one message, if there is one. -/
def consumer (key : K) : w.Script :=
  (Program.perform
    (Sum.inr (BrokerOp.receive (w.queueOf key)))).bind
    fun received : Option (Delivery C) =>
      match received with
      | none => .done ()
      | some delivery => w.callback key delivery

section Callback

variable {key : K} {delivery : Delivery C}

theorem callback_error
    {error : ε}
    (hDecode : w.decode key delivery.content = .error error) :
    w.callback key delivery = w.reject key delivery := by
  unfold callback
  rw [hDecode]
  rfl

theorem callback_ok
    {job : J}
    (hDecode : w.decode key delivery.content = .ok job) :
    w.callback key delivery =
      w.handling key delivery
        (w.system.program job).onLeft := by
  unfold callback
  rw [hDecode]
  rfl

end Callback

def program : BrokerJob J K → w.Script
  | .request job => (w.system.program job).onLeft
  | .consume key => w.consumer key
  | .loseChannel => Program.perform (Sum.inr BrokerOp.recover)

section Exec

variable [DecidableEq Q] [DecidableEq C]

/- A queue after a delivery was settled one way or other. -/
def settle
    (store : Brokered σ Q C)
    (queue : Q)
    (settled : Option (Queue C)) :
    Except ε Unit × Brokered σ Q C :=
  match settled with
  | none => (.error w.unknownDelivery, store)
  | some settled =>
      (.ok (),
        { store with
          queues :=
            Function.update store.queues queue settled })

/- A call that succeeds has sent what it sends. -/
def exec (choice : χ) :
    (op : w.Ops) → Brokered σ Q C →
      Except ε (w.Answers op) × Brokered σ Q C
  | .inl op, store =>
      match w.system.exec choice op store.store with
      | (.ok answer, next) =>
          (.ok answer,
            { store := next
              queues := fun queue =>
                (store.queues queue).post (w.sent op queue) })
      | (.error error, next) =>
          (.error error, { store with store := next })
  | .inr (.receive queue), store =>
      let answer := (store.queues queue).deliver
      (.ok answer.1,
        { store with
          queues :=
            Function.update store.queues queue answer.2 })
  | .inr (.ack queue delivery), store =>
      w.settle store queue
        ((store.queues queue).ack? delivery)
  | .inr (.nack queue delivery), store =>
      w.settle store queue
        ((store.queues queue).requeue? delivery)
  | .inr .recover, store =>
      (.ok (),
        { store with
          queues := fun queue =>
            (store.queues queue).recover })

/- The pool behind its broker. -/
def brokered :
    PoolSystem (BrokerJob J K) w.Ops w.Answers ε χ
      (Brokered σ Q C) where
  exec := w.exec
  program := w.program
  ready := fun store job =>
    match job with
    | .request job =>
        w.isRequest job && w.system.ready store.store job
    | _ => true

end Exec

end Wiring

end OrderApi

------------------------------------------------------------
-- What the Pool Behind a Broker Sees
------------------------------------------------------------

namespace OrderApi

namespace Wiring

variable {J Op : Type} {Res : Op → Type}
variable {ε χ σ Q K C : Type}

/-
  The store remembers what was sent to each queue, and the
  job for any message ever sent may start at any time.
-/
structure Logs (w : Wiring J Op Res ε χ σ Q K C) where
  log : σ → Q → List C
  log_ok :
    ∀ {choice op store answer next} queue,
      w.system.exec choice op store = (.ok answer, next) →
        log next queue = log store queue ++ w.sent op queue
  log_error :
    ∀ {choice op store error next} queue,
      w.system.exec choice op store = (.error error, next) →
        log next queue = log store queue
  ready_of_mem :
    ∀ {store key content job},
      content ∈ log store (w.queueOf key) →
        w.decode key content = .ok job →
          w.system.ready store job = true

variable {w : Wiring J Op Res ε χ σ Q K C}

/- Nothing was handed out, and everything sent waits. -/
def Logs.Undelivered
    (logs : w.Logs)
    (store : Brokered σ Q C) : Prop :=
  ∀ queue,
    store.queues queue =
      Queue.ofWaiting (logs.log store.store queue)

/- A job for a message was handled to its end. -/
def Handled
    (w : Wiring J Op Res ε χ σ Q K C)
    (queue : Q)
    (content : C)
    (threads : List (Thread J Op Res ε)) : Prop :=
  ∃ key job,
    w.queueOf key = queue ∧
      w.decode key content = .ok job ∧
      ⟨job, .done ()⟩ ∈ threads

/-
  The pool has the store.  What was sent is in the queues,
  no less and no more, and what was settled was handled.
-/
structure Logs.Stores
    (logs : w.Logs)
    (store : Brokered σ Q C)
    (pool : Pool J Op Res ε σ) : Prop where
  store_eq : store.store = pool.store
  conserved :
    ∀ queue,
      (store.queues queue).contents.Perm
        (logs.log pool.store queue)
  handled :
    ∀ queue, ∀ content ∈ (store.queues queue).settled,
      w.Handled queue content pool.threads

/- The thread that stands for one of the pool. -/
inductive Stands (w : Wiring J Op Res ε χ σ Q K C)
    (thread :
      Thread (BrokerJob J K) w.Ops w.Answers ε) :
    Option (Thread J Op Res ε) → Prop
  | request
      (job : J)
      (program : Program Op Res ε Unit)
      (hProgram : thread.program = program.onLeft) :
      Stands w thread (some ⟨job, program⟩)
  | waiting
      (key : K)
      (hProgram : thread.program = w.consumer key) :
      Stands w thread none
  | handling
      (key : K)
      (delivery : Delivery C)
      (job : J)
      (program : Program Op Res ε Unit)
      (hDecode : w.decode key delivery.content = .ok job)
      (hProgram :
        thread.program =
          w.handling key delivery program.onLeft) :
      Stands w thread (some ⟨job, program⟩)
  | rejecting
      (stand : Option (Thread J Op Res ε))
      (key : K)
      (delivery : Delivery C)
      (hProgram : thread.program = w.reject key delivery) :
      Stands w thread stand
  | losing
      (hProgram :
        thread.program =
          Program.perform (Sum.inr BrokerOp.recover)) :
      Stands w thread none
  | ended
      (stand : Option (Thread J Op Res ε))
      (hProgram : thread.program.inProgress = false) :
      Stands w thread stand

/- A handler that has returned stays in the pool. -/
theorem Handled.entered
    {queue : Q}
    {content : C}
    {pool : Pool J Op Res ε σ}
    {job : J}
    (hHandled : w.Handled queue content pool.threads) :
    w.Handled queue content
      (w.system.entered pool job).threads := by
  rcases hHandled with ⟨key, handled, hQueue, hJob, hMem⟩
  exact
    ⟨key, handled, hQueue, hJob,
      List.mem_append_left _ hMem⟩

theorem Handled.called
    {queue : Q}
    {content : C}
    {pool : Pool J Op Res ε σ}
    {place : Nat}
    {choice : χ}
    {job : J}
    {op : Op}
    {resume : Except ε (Res op) → Program Op Res ε Unit}
    (hPlace :
      pool.threads[place]? = some ⟨job, .call op resume⟩)
    (hHandled : w.Handled queue content pool.threads) :
    w.Handled queue content
      (w.system.called pool place choice job op
        resume).threads := by
  rcases hHandled with ⟨key, handled, hQueue, hJob, hMem⟩
  rcases List.mem_iff_getElem?.mp hMem with ⟨i, hAt⟩
  have hOther : place ≠ i := by
    rintro rfl
    rw [hPlace] at hAt
    cases hAt
  refine
    ⟨key, handled, hQueue, hJob,
      List.mem_iff_getElem?.mpr ⟨i, ?_⟩⟩
  exact (List.getElem?_set_ne hOther).trans hAt

variable {logs : w.Logs}
variable {store : Brokered σ Q C} {pool : Pool J Op Res ε σ}

/- A job may enter the pool at any time. -/
theorem Logs.Stores.entered
    {job : J}
    (hStores : logs.Stores store pool) :
    logs.Stores store (w.system.entered pool job) where
  store_eq := hStores.store_eq
  conserved := hStores.conserved
  handled := fun queue content hMem =>
    (hStores.handled queue content hMem).entered

section Stores

variable [DecidableEq Q]

/- A queue is replaced by one with the same messages. -/
theorem Logs.Stores.update
    {queue : Q}
    {replaced : Queue C}
    (hStores : logs.Stores store pool)
    (hPerm :
      replaced.contents.Perm (store.queues queue).contents)
    (hSettled :
      ∀ content ∈ replaced.settled,
        content ∈ (store.queues queue).settled ∨
          w.Handled queue content pool.threads) :
    logs.Stores
      { store with
        queues :=
          Function.update store.queues queue replaced }
      pool := by
  rcases hStores with ⟨hStore, hConserved, hHandled⟩
  refine ⟨hStore, ?_, ?_⟩
  · intro other
    by_cases hOther : other = queue
    · subst hOther
      simp only [Function.update_self]
      exact hPerm.trans (hConserved other)
    · simp only [Function.update_of_ne hOther]
      exact hConserved other
  · intro other content hMem
    by_cases hOther : other = queue
    · subst hOther
      simp only [Function.update_self] at hMem
      rcases hSettled content hMem with hOld | hNew
      · exact hHandled other content hOld
      · exact hNew
    · simp only [Function.update_of_ne hOther] at hMem
      exact hHandled other content hMem

variable [DecidableEq C]

/- A call of the pool sends what it sends. -/
theorem Logs.Stores.called
    {place : Nat}
    {choice : χ}
    {job : J}
    {op : Op}
    {resume : Except ε (Res op) → Program Op Res ε Unit}
    (hStores : logs.Stores store pool)
    (hPlace :
      pool.threads[place]? = some ⟨job, .call op resume⟩) :
    logs.Stores (w.exec choice (.inl op) store).2
      (w.system.called pool place choice job op resume) := by
  rcases hStores with ⟨hStore, hConserved, hHandled⟩
  have hCall :
      (w.system.called pool place choice job op resume).store =
        (w.system.exec choice op store.store).2 := by
    rw [hStore]
    rfl
  cases hExec : w.system.exec choice op store.store with
  | mk answer next =>
    rw [hExec] at hCall
    cases answer with
    | ok answer =>
        simp only [exec, hExec]
        refine ⟨hCall.symm, ?_, ?_⟩
        · intro queue
          have hLog := logs.log_ok queue hExec
          rw [hCall]
          simp only [hLog]
          refine (Queue.post_perm _).trans ?_
          rw [hStore]
          exact (hConserved queue).append_right _
        · intro queue content hMem
          exact (hHandled queue content hMem).called hPlace
    | error error =>
        simp only [exec, hExec]
        refine ⟨hCall.symm, ?_, ?_⟩
        · intro queue
          have hLog := logs.log_error queue hExec
          rw [hCall, hLog, hStore]
          exact hConserved queue
        · intro queue content hMem
          exact (hHandled queue content hMem).called hPlace

/- The answer of a call is what the pool answers. -/
theorem exec_inl_answer
    {choice : χ}
    {op : Op} :
    (w.exec choice (.inl op) store).1 =
      (w.system.exec choice op store.store).1 := by
  cases hExec : w.system.exec choice op store.store with
  | mk answer next =>
    cases answer with
    | ok answer => simp [exec, hExec]
    | error error => simp [exec, hExec]

theorem Logs.Stores.receive
    (choice : χ)
    {queue : Q}
    (hStores : logs.Stores store pool) :
    logs.Stores
      (w.exec choice (.inr (.receive queue)) store).2
      pool := by
  refine hStores.update Queue.deliver_perm ?_
  intro content hMem
  rw [Queue.deliver_settled] at hMem
  exact Or.inl hMem

/- What is acknowledged must have been handled. -/
theorem Logs.Stores.ack
    (choice : χ)
    {queue : Q}
    {delivery : Delivery C}
    (hStores : logs.Stores store pool)
    (hHandled :
      w.Handled queue delivery.content pool.threads) :
    logs.Stores
      (w.exec choice (.inr (.ack queue delivery)) store).2
      pool := by
  cases hAck : (store.queues queue).ack? delivery with
  | none => simpa [exec, settle, hAck] using hStores
  | some settled =>
      rcases Queue.ack?_perm hAck with ⟨hPerm, hSettled⟩
      simp only [exec, settle, hAck]
      refine hStores.update hPerm ?_
      intro content hMem
      rw [hSettled, List.mem_append,
        List.mem_singleton] at hMem
      rcases hMem with hOld | rfl
      · exact Or.inl hOld
      · exact Or.inr hHandled

theorem Logs.Stores.nack
    (choice : χ)
    {queue : Q}
    {delivery : Delivery C}
    (hStores : logs.Stores store pool) :
    logs.Stores
      (w.exec choice (.inr (.nack queue delivery)) store).2
      pool := by
  cases hNack : (store.queues queue).requeue? delivery with
  | none => simpa [exec, settle, hNack] using hStores
  | some settled =>
      rcases Queue.requeue?_perm hNack with
        ⟨hPerm, hSettled⟩
      simp only [exec, settle, hNack]
      refine hStores.update hPerm ?_
      intro content hMem
      rw [hSettled] at hMem
      exact Or.inl hMem

theorem Logs.Stores.recover
    (choice : χ)
    (hStores : logs.Stores store pool) :
    logs.Stores (w.exec choice (.inr .recover) store).2
      pool := by
  rcases hStores with ⟨hStore, hConserved, hHandled⟩
  exact
    ⟨hStore,
      fun queue =>
        Queue.recover_perm.trans (hConserved queue),
      hHandled⟩

end Stores

end Wiring

end OrderApi

------------------------------------------------------------
-- Refinement
------------------------------------------------------------

namespace OrderApi

namespace Wiring

variable {J Op : Type} {Res : Op → Type}
variable {ε χ σ Q K C : Type}
variable [DecidableEq Q] [DecidableEq C]
variable {w : Wiring J Op Res ε χ σ Q K C}

/- The call of the pool behind a broker, with its answer. -/
def poolCall
    (event :
      CallEvent (BrokerJob J K) (Op ⊕ BrokerOp Q C)
        (Sum.elim Res BrokerOp.Res) ε) :
    Option ((op : Op) × Except ε (Res op)) :=
  match event with
  | ⟨_, .inl op, answer⟩ => some ⟨op, answer⟩
  | ⟨_, .inr _, _⟩ => none

/- What is seen are the calls of the pool. -/
def Logs.correspondence (logs : w.Logs) :
    Correspondence w.brokered w.system
      ((op : Op) × Except ε (Res op)) where
  observe := poolCall
  observe' := CallEvent.call
  Stores := logs.Stores
  Stands := w.Stands

end Wiring

namespace Program

variable {Op : Type} {Res : Op → Type} {ε α : Type}

theorem perform_eq (op : Op) :
    (perform op : Program Op Res ε (Res op)) =
      call op ofExcept := by
  unfold perform
  congr
  funext answer
  cases answer with
  | ok answer => rfl
  | error error => rfl

theorem inProgress_ofExcept (outcome : Except ε α) :
    (ofExcept outcome : Program Op Res ε α).inProgress =
      false := by
  cases outcome with
  | ok value => rfl
  | error error => rfl

end Program

namespace Wiring

variable {J Op : Type} {Res : Op → Type}
variable {ε χ σ Q K C : Type}
variable [DecidableEq Q] [DecidableEq C]
variable {w : Wiring J Op Res ε χ σ Q K C}
variable {logs : w.Logs}
variable {store : Brokered σ Q C} {pool : Pool J Op Res ε σ}
variable {choice : χ} {job : BrokerJob J K}
variable {op : w.Ops}
variable {resume : Except ε (w.Answers op) → w.Script}

/- A message that is put back, or was taken already. -/
theorem follows_reject
    {key : K}
    {delivery : Delivery C}
    {stand : Option (Thread J Op Res ε)}
    (hStores : logs.Stores store pool)
    (hProgram :
      Program.call op resume = w.reject key delivery) :
    logs.correspondence.Follows choice store pool job op
      resume stand := by
  rw [reject, Program.perform_eq] at hProgram
  injection hProgram with hOp hResume
  subst hOp
  cases hResume
  exact
    .unseen rfl (hStores.nack choice)
      (.ended stand (Program.inProgress_ofExcept _))

/- A call of a request, or of a handler. -/
theorem follows_call
    {op : Op}
    {job' : J}
    {resume :
      Except ε (w.Answers (.inl op)) → w.Script}
    {resume' : Except ε (Res op) → Program Op Res ε Unit}
    (hStores : logs.Stores store pool)
    (hStands :
      ∀ answer,
        w.Stands ⟨job, resume answer⟩
          (some ⟨job', resume' answer⟩)) :
    logs.correspondence.Follows choice store pool job
      (.inl op) resume (some ⟨job', .call op resume'⟩) := by
  have hAnswer :
      (w.exec choice (.inl op) store).1 =
        (w.system.exec choice op pool.store).1 := by
    rw [exec_inl_answer, hStores.store_eq]
  refine .calls choice ?_ ?_ ?_
  · change
      some (⟨op, _⟩ : (op : Op) × Except ε (Res op)) =
        some ⟨op, _⟩
    rw [← hAnswer]
    rfl
  · exact fun place hPlace => hStores.called hPlace
  · rw [← hAnswer]
    exact hStands _

theorem follows_request
    {job' : J}
    {program : Program Op Res ε Unit}
    (hStores : logs.Stores store pool)
    (hProgram : Program.call op resume = program.onLeft) :
    logs.correspondence.Follows choice store pool job op
      resume (some ⟨job', program⟩) := by
  cases program with
  | done value => cases hProgram
  | fail error => cases hProgram
  | call op' resume' =>
      unfold Program.onLeft at hProgram
      injection hProgram with hOp hResume
      subst hOp
      cases hResume
      exact
        follows_call hStores fun answer =>
          .request job' (resume' answer) rfl

/- A handler goes on, and is settled when it ends. -/
theorem follows_handling
    {key : K}
    {delivery : Delivery C}
    {job' : J}
    {program : Program Op Res ε Unit}
    (hStores : logs.Stores store pool)
    (hDecode : w.decode key delivery.content = .ok job')
    (hMem : ⟨job', program⟩ ∈ pool.threads)
    (hProgram :
      Program.call op resume =
        w.handling key delivery program.onLeft) :
    logs.correspondence.Follows choice store pool job op
      resume (some ⟨job', program⟩) := by
  cases program with
  | done value =>
      have hHandled :
          w.Handled (w.queueOf key) delivery.content
            pool.threads :=
        ⟨key, job', rfl, hDecode, hMem⟩
      rw [handling, acknowledge, Program.perform_eq]
        at hProgram
      injection hProgram with hOp hResume
      subst hOp
      cases hResume
      have hEnds :
          ∀ answer : Except ε Unit,
            w.Stands
              ⟨job,
                (Program.ofExcept answer : w.Script).attempt
                  fun _ => w.reject key delivery⟩
              (some ⟨job', .done value⟩) := by
        intro answer
        cases answer with
        | ok answer => exact .ended _ rfl
        | error error => exact .rejecting _ key delivery rfl
      exact
        .unseen rfl (hStores.ack choice hHandled) (hEnds _)
  | fail error => exact follows_reject hStores hProgram
  | call op' resume' =>
      unfold handling Program.onLeft at hProgram
      injection hProgram with hOp hResume
      subst hOp
      cases hResume
      exact
        follows_call hStores fun answer =>
          .handling key delivery job' (resume' answer)
            hDecode rfl

/- A consumer takes a message, and its handler enters. -/
theorem follows_consumer
    {key : K}
    (hStores : logs.Stores store pool)
    (hProgram :
      Program.call op resume = w.consumer key) :
    logs.correspondence.Follows choice store pool job op
      resume none := by
  rw [consumer, Program.perform_eq] at hProgram
  injection hProgram with hOp hResume
  subst hOp
  cases hResume
  have hAnswer :
      (w.brokered.exec choice
        (.inr (.receive (w.queueOf key))) store).1 =
        .ok (store.queues (w.queueOf key)).deliver.1 := rfl
  cases hDelivery :
      (store.queues (w.queueOf key)).deliver.1 with
  | none =>
      refine .unseen rfl (hStores.receive choice) (.ended _ ?_)
      rw [hAnswer, hDelivery]
      rfl
  | some delivery =>
      have hMem :
          delivery.content ∈
            logs.log pool.store (w.queueOf key) :=
        (hStores.conserved (w.queueOf key)).mem_iff.mp
          (Queue.mem_of_deliver hDelivery)
      cases hDecode : w.decode key delivery.content with
      | error error =>
          refine
            .unseen rfl (hStores.receive choice)
              (.rejecting _ key delivery ?_)
          rw [hAnswer, hDelivery]
          exact w.callback_error hDecode
      | ok job' =>
          refine
            .enters job' rfl (logs.ready_of_mem hMem hDecode)
              (hStores.receive choice).entered
              (.handling key delivery job' _ hDecode ?_)
          rw [hAnswer, hDelivery]
          exact w.callback_ok hDecode

/- The requests and the handlers run as the pool does. -/
def Logs.simulation (logs : w.Logs) :
    Simulation w.brokered w.system
      ((op : Op) × Except ε (Res op)) where
  toCorrespondence := logs.correspondence
  start := by
    intro store pool job hStores hReady
    cases job with
    | request job =>
        apply Or.inr
        have hBoth :
            w.isRequest job = true ∧
              w.system.ready store.store job = true :=
          Bool.and_eq_true_iff.mp hReady
        refine ⟨job, ?_, hStores.entered, .request job _ rfl⟩
        rw [← hStores.store_eq]
        exact hBoth.2
    | consume key => exact Or.inl (.waiting key rfl)
    | loseChannel => exact Or.inl (.losing rfl)
  call := by
    intro store pool job op resume stand choice hStores
      hStands hMem
    cases hStands with
    | request job' program hProgram =>
        exact follows_request hStores hProgram
    | waiting key hProgram =>
        exact follows_consumer hStores hProgram
    | handling key delivery job' program hDecode hProgram =>
        exact
          follows_handling hStores hDecode (hMem _ rfl)
            hProgram
    | rejecting _ key delivery hProgram =>
        exact follows_reject hStores hProgram
    | losing hProgram =>
        rw [Program.perform_eq] at hProgram
        injection hProgram with hOp hResume
        subst hOp
        cases hResume
        exact
          .unseen rfl (hStores.recover choice)
            (.ended none rfl)
    | ended _ hProgram => cases hProgram

/-
  A run behind the broker is a run of the pool: the requests
  and the handlers make the same calls with the same
  answers, and every message is in its queue, or out, or was
  handled to the end.
-/
theorem Logs.exists_run
    (logs : w.Logs)
    {start : Brokered σ Q C}
    {history :
      List
        (Transition
          (Pool (BrokerJob J K) w.Ops w.Answers ε
            (Brokered σ Q C))
          (PoolLabel (BrokerJob J K) χ))}
    {world :
      Pool (BrokerJob J K) w.Ops w.Answers ε
        (Brokered σ Q C)}
    (hStart : logs.Undelivered start)
    (hRun :
      Run w.brokered.step (PoolSystem.idle start) history
        world) :
    ∃ history' pool,
      Run w.system.step (PoolSystem.idle start.store)
          history' pool ∧
        seen w.brokered logs.correspondence.observe history =
          seen w.system logs.correspondence.observe'
            history' ∧
        logs.Stores world.store pool := by
  have hStores :
      logs.Stores start (PoolSystem.idle start.store) := by
    refine ⟨rfl, ?_, ?_⟩
    · intro queue
      rw [hStart queue]
      simp [Queue.contents, Queue.ofWaiting,
        PoolSystem.idle]
    · intro queue content hMem
      rw [hStart queue] at hMem
      cases hMem
  rcases logs.simulation.exists_run hStores hRun with
    ⟨history', pool, hRun', hSeen, hRelated⟩
  exact ⟨history', pool, hRun', hSeen, hRelated.1⟩

end Wiring

end OrderApi
