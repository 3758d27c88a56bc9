import OrderApi.System.OrderTotals

/-
  When the lines and the total of an order are written.

  `addItemToOrder` looks at the status once and then makes
  up to five more calls.  A completion that is handled amid
  these calls does not stop them.

  Key definitions include:
    * `writesOrder?`
    * `Frozen`
    * `amidItems`
    * `CompletesApart`

  Key theorems include:
    * `PendingAmid.resume`
    * `frozen_of_completesApart`
-/

------------------------------------------------------------
-- Writes to Lines and Totals
------------------------------------------------------------

namespace OrderApi

/- The order whose lines or total a call writes. -/
def StoreOp.filled?
    (store : Backend) : StoreOp → Option (String × String)
  | .tenant name (.orderItemCreate orderId _ _ _) =>
      some (name, orderId)
  | .tenant name (.orderItemUpdate itemId _) =>
      (store.item? name itemId).map fun item =>
        (name, item.orderId)
  | .tenant name (.orderUpdate id data) =>
      data.total.map fun _ => (name, id)
  | _ => none

/- The order whose lines or total a step writes. -/
def writesOrder? (t : WorldStep) :
    Option (String × String) :=
  match t.call? with
  | none => none
  | some (op, choice) =>
      if (op.exec choice t.before.store).1.isOk then
        op.filled? t.before.store
      else
        none

/- Lines and totals are written while an order is PENDING. -/
def Frozen (t : WorldStep) : Prop :=
  ∀ key ∈ writesOrder? t,
    t.before.store.status? key.1 key.2 = some .PENDING

instance (t : WorldStep) : Decidable (Frozen t) :=
  inferInstanceAs (Decidable (∀ key ∈ writesOrder? t, _))

/- The calls of `addItemToOrder` behind its status check. -/
def StoreOp.isBehindCheck : StoreOp → Bool
  | .tenant _ (.productFindUnique _) => true
  | .tenant _ (.orderItemFindFirst _ _) => true
  | .tenant _ (.orderItemCreate _ _ _ _) => true
  | .tenant _ (.orderItemUpdate _ _) => true
  | .tenant _ (.orderItemFindMany _) => true
  | .tenant _ (.orderUpdate _ _) => true
  | _ => false

/-
  The order to which a thread is amid adding an item: it is
  past the status check, and not yet past its last write.
-/
def amidItem?
    (databaseName : String → String)
    (history : List WorldStep)
    (index : Nat)
    (thread : Thread Job StoreOp StoreOp.Res ApiError) :
    Option (String × String) :=
  match thread.job, thread.program.nextOp? with
  | .createOrder _ tenantCode _, some op =>
      if op.isBehindCheck then
        (createdOrder? index history).map fun id =>
          (databaseName tenantCode, id)
      else
        none
  | _, _ => none

/- The orders to which threads are amid adding items. -/
def amidItems
    (databaseName : String → String)
    (history : List WorldStep)
    (world : World) : List (String × String) :=
  world.threads.zipIdx.filterMap fun thread =>
    amidItem? databaseName history thread.2 thread.1

/-
  No completion is written, in any step of a history, amid
  the addition of an item to the same order.
-/
def CompletesApart (databaseName : String → String) :
    List WorldStep → Prop
| [] => True
| t :: history =>
    (∀ w ∈ statusWrite? t, w.status = .COMPLETE →
      (w.name, w.id) ∉
        amidItems databaseName history t.before) ∧
      CompletesApart databaseName history

instance decidableCompletesApart
    (databaseName : String → String) :
    (history : List WorldStep) →
      Decidable (CompletesApart databaseName history)
| [] => inferInstanceAs (Decidable True)
| _ :: history =>
    have := decidableCompletesApart databaseName history
    inferInstanceAs (Decidable (_ ∧ _))

end OrderApi

------------------------------------------------------------
-- Requests Amid an Item
------------------------------------------------------------

namespace OrderApi

namespace FillPhase

variable {phase phase' : FillPhase} {op : StoreOp}
variable {cart : Cart}
variable {answer : Except ApiError op.Res}

/- Amid an item, the order is being filled. -/
theorem fills?_of_amid?
    (hAmid : phase.amid? = some cart) :
    phase.cart? = some cart ∧
      phase.fills? = some (cart.db, cart.orderId) := by
  cases phase <;> cases hAmid <;> exact ⟨rfl, rfl⟩

/- Amid an item, the next call is one behind the check. -/
theorem isBehindCheck_of_amid?
    (hAmid : phase.amid? = some cart)
    (hCall : phase.call? = some op) :
    op.isBehindCheck = true := by
  cases phase with
  | saving cart item rest price found =>
      cases found <;> cases hCall <;> rfl
  | pricing _ _ _ => cases hCall; rfl
  | seeking _ _ _ _ => cases hCall; rfl
  | summing _ _ => cases hCall; rfl
  | totalling _ _ _ => cases hCall; rfl
  | _ => cases hAmid

end FillPhase

namespace StoreOp

variable {choice : Choice} {name id : String}
variable {store store' : Backend}

/- Statuses are kept by calls other than those on orders. -/
theorem exec_status_same
    {op : StoreOp}
    {answer : Except ApiError op.Res}
    (hExec : op.exec choice store = (answer, store'))
    (hCreate :
      ∀ userId status total,
        op ≠
          .tenant name (.orderCreate userId status total))
    (hUpdate :
      ∀ data, op ≠ .tenant name (.orderUpdate id data)) :
    store'.status? name id = store.status? name id := by
  rcases exec_status_cases hExec name id with
    hSame | ⟨_, _, _, hOp, _⟩ | ⟨_, _, _, _, hOp, _⟩
  · exact hSame
  · exact (hCreate _ _ _ hOp).elim
  · exact (hUpdate _ hOp).elim

end StoreOp

/-
  A request gets amid an item by reading PENDING, and stays
  there by calls that write no status.
-/
theorem FillPhase.Moves.pending
    {phase phase' : FillPhase}
    {op : StoreOp}
    {choice : Choice}
    {store store' : Backend}
    {answer : Except ApiError op.Res}
    {cart : Cart}
    (hMoves : Moves phase op answer phase')
    (hExec : op.exec choice store = (answer, store'))
    (hBefore :
      ∀ cart, phase.amid? = some cart →
        store.status? cart.db cart.orderId = some .PENDING)
    (hAmid : phase'.amid? = some cart) :
    store'.status? cart.db cart.orderId =
      some .PENDING := by
  cases hMoves with
  | check hStatus =>
      cases hAmid
      rcases StoreOp.exec_orderFindUnique_ok hExec with
        ⟨hOrder, hSame⟩
      rw [hSame, Backend.status?, ← hOrder, Option.map_some,
        hStatus]
  | price =>
      cases hAmid
      rw [StoreOp.exec_status_same hExec (by simp) (by simp)]
      exact hBefore _ rfl
  | seek =>
      cases hAmid
      rw [StoreOp.exec_status_same hExec (by simp) (by simp)]
      exact hBefore _ rfl
  | @insert cart =>
      cases hAmid
      rw [Cart.db_add, Cart.orderId_add,
        StoreOp.exec_status_same hExec (by simp) (by simp)]
      exact hBefore cart rfl
  | @merge cart =>
      cases hAmid
      rw [Cart.db_add, Cart.orderId_add,
        StoreOp.exec_status_same hExec (by simp) (by simp)]
      exact hBefore cart rfl
  | sum =>
      cases hAmid
      rw [StoreOp.exec_status_same hExec (by simp) (by simp)]
      exact hBefore _ rfl
  | _ => cases hAmid

/- A call that fills an order writes. -/
theorem StoreOp.filled?_of_isRead
    {op : StoreOp}
    (hRead : op.isRead = true)
    (store : Backend) :
    op.filled? store = none := by
  cases op with
  | tenant name op =>
      cases op <;> first | rfl | cases hRead
  | _ => rfl

/- A job fills the order that its phase adds to. -/
theorem Phase.Moves.adds?_of_filled?
    {phase phase' : Phase}
    {op : StoreOp}
    {value : op.Res}
    {store : Backend}
    {key : String × String}
    (hMoves : Moves phase op (.ok value) phase')
    (hFilled : op.filled? store = some key)
    (hMerges :
      ∀ name id userId tenantCode itemId,
        phase = .merging name id userId tenantCode itemId →
          ∃ item,
            store.item? name itemId = some item ∧
              item.orderId = id) :
    phase.adds? = some key := by
  cases hMoves with
  | read hFinal hRead =>
      rw [StoreOp.filled?_of_isRead hRead] at hFilled
      cases hFilled
  | addItem => exact hFilled
  | mergeItem =>
      rcases hMerges _ _ _ _ _ rfl with
        ⟨item, hItem, hOrder⟩
      simp only [StoreOp.filled?, hItem, Option.map_some,
        hOrder] at hFilled
      exact hFilled
  | total => exact hFilled
  | _ => cases hFilled

/- A request fills its order amid an item only. -/
theorem FillPhase.Moves.amid?_of_filled?
    {phase phase' : FillPhase}
    {op : StoreOp}
    {value : op.Res}
    {store : Backend}
    {key : String × String}
    (hMoves : Moves phase op (.ok value) phase')
    (hFilled : op.filled? store = some key)
    (hFills : phase.fills? = some key) :
    ∃ cart,
      phase.amid? = some cart ∧
        (cart.db, cart.orderId) = key := by
  have hNoRead : op.isRead = true → False := by
    intro hRead
    rw [StoreOp.filled?_of_isRead hRead] at hFilled
    cases hFilled
  cases hMoves with
  | insert => exact ⟨_, rfl, Option.some.inj hFills⟩
  | merge => exact ⟨_, rfl, Option.some.inj hFills⟩
  | total => exact ⟨_, rfl, Option.some.inj hFills⟩
  | stop hCall hStop =>
      rcases hStop with hRead | ⟨error, hError⟩
      · exact (hNoRead hRead).elim
      · cases hError
  | aside => cases hFills
  | opened => cases hFills
  | publish => cases hFilled
  | _ => exact (hNoRead rfl).elim

end OrderApi

------------------------------------------------------------
-- Orders Amid an Item Are Pending
------------------------------------------------------------

namespace OrderApi

/- Nothing but PENDING is met amid an item. -/
def PendingAmid
    (store : Backend)
    (phases : List (Phase × FillPhase)) : Prop :=
  ∀ pair ∈ phases, ∀ cart, pair.2.amid? = some cart →
    store.status? cart.db cart.orderId = some .PENDING

variable {databaseName : String → String}
variable {start : Backend} {world : World}
variable {history : List WorldStep} {t : WorldStep}
variable {phases : List (Phase × FillPhase)}
variable {phase phase' : Phase × FillPhase}
variable {index : Nat} {op : StoreOp} {choice : Choice}
variable {answer : Except ApiError op.Res}

/- The thread of a request amid an item shows as such. -/
theorem mem_amidItems
    (hScript :
      PoolSystem.OnScript (orderScript databaseName)
        world.threads phases)
    (hInv :
      FillInv databaseName history world.store phases)
    (hAt : phases[index]? = some phase)
    {cart : Cart}
    (hAmid : phase.2.amid? = some cart) :
    (cart.db, cart.orderId) ∈
      amidItems databaseName history world := by
  rcases hScript.thread_of_phase hAt with
    ⟨⟨job, program⟩, hThread, hOwns, hConforms⟩
  rcases FillPhase.fills?_of_amid? hAmid with ⟨hCart, _⟩
  have hJob :
      ∃ user body,
        job = .createOrder user cart.tenantCode body ∧
          cart.db = databaseName cart.tenantCode := by
    have hFills := hOwns.2.1
    rcases phase with ⟨_, fill⟩
    have hAll :
        ∀ cart ∈ fill.cart?, ∃ user body,
          job = .createOrder user cart.tenantCode body ∧
            cart.db = databaseName cart.tenantCode ∧
            cart.userId = user.id ∧
            cart.added.map Entry.wanted ++
                fill.rest.map CreateOrderItemDto.wanted =
              body.items.map CreateOrderItemDto.wanted := by
      cases fill <;> first | exact hFills | cases hAmid
    rcases hAll cart hCart with ⟨user, body, hJob, hDb, _⟩
    exact ⟨user, body, hJob, hDb⟩
  rcases hJob with ⟨user, body, rfl, hDb⟩
  have hTracked : phase.2.tracked = true := by
    rcases phase with ⟨_, fill⟩
    cases fill <;> first | rfl | cases hAmid
  have hCreated :=
    (hInv.fills index phase hAt).created hTracked
  rw [hCart, Option.map_some] at hCreated
  -- a request that has ended is not amid an item
  have hEnded : ∀ outcome,
      (orderScript databaseName).Ends
          (.createOrder user cart.tenantCode body) outcome
          phase → False := by
    intro outcome hEnds
    have hNone := (hEnds.2 rfl).2
    rw [hAmid] at hNone
    cases hNone
  cases program with
  | done value => exact (hEnded _ hConforms).elim
  | fail error => exact (hEnded _ hConforms).elim
  | call op resume =>
      rcases hConforms (.error (storeError "")) with
        ⟨_, hMoves, _⟩
      have hNotAside : phase.2 ≠ .aside := by
        intro hAside
        rw [hAside] at hAmid
        cases hAmid
      have hBehind :=
        FillPhase.isBehindCheck_of_amid? hAmid
          (hMoves.2.call?_eq hNotAside)
      apply List.mem_filterMap.mpr
      refine
        ⟨(_, index), List.mem_zipIdx_iff_getElem?.mpr hThread,
          ?_⟩
      simp [amidItem?, Program.nextOp?, hBehind, hCreated,
        hDb]

section Resume

variable
  (hScript :
    PoolSystem.OnScript (orderScript databaseName)
      t.before.threads phases)
  (hInv :
    FillInv databaseName history t.before.store phases)
  (hPending : PendingAmid t.before.store phases)
  (hPhase : phases[index]? = some phase)
  (hExec :
    op.exec choice t.before.store =
      (answer, t.after.store))
  (hCall : t.call? = some (op, choice))

include hScript hInv hPending hPhase hExec hCall in
/- Statuses change amid an item by completions only. -/
theorem pending_of_other
    (hMoves : phase.1.Moves op answer phase'.1)
    (hApart :
      ∀ w ∈ statusWrite? t, w.status = .COMPLETE →
        (w.name, w.id) ∉
          amidItems databaseName history t.before)
    {i : Nat}
    {pair : Phase × FillPhase}
    (hAt : phases[i]? = some pair)
    {cart : Cart}
    (hAmid : pair.2.amid? = some cart) :
    t.after.store.status? cart.db cart.orderId =
      some .PENDING := by
  have hBefore :=
    hPending pair (List.mem_of_getElem? hAt) cart hAmid
  have hMap : pair.1 ∈ phases.map Prod.fst :=
    List.mem_map_of_mem (List.mem_of_getElem? hAt)
  have hHere : phase.1 ∈ phases.map Prod.fst :=
    List.mem_map_of_mem (List.mem_of_getElem? hPhase)
  have hAdds :
      pair.1.adds? = some (cart.db, cart.orderId) := by
    rcases hScript.job_of_phase hAt with ⟨_, hOwns⟩
    exact
      hOwns.2.2.1 _ (FillPhase.fills?_of_amid? hAmid).2
  -- a sealed order has no request amid an item of it
  have hUnsealed :
      ¬ Sealed t.before.store (phases.map Prod.fst) cart.db
          cart.orderId :=
    fun hSealed => hSealed.2 pair.1 hMap hAdds
  rcases hMoves.status_cases hExec cart.db cart.orderId with
    hSame | ⟨hNone, _⟩ | ⟨_, _, _, hHandles, _⟩ |
      ⟨_, _, hCharges, _⟩ |
      ⟨transactionId, tick, _, _, hOp, hChoice, _⟩
  · rwa [hSame]
  · rw [hBefore] at hNone
    cases hNone
  · exact
      (hUnsealed
        (hInv.lines.handled phase.1 hHere _ _
          (by rw [hHandles]; rfl))).elim
  · exact
      (hUnsealed
        (hInv.lines.charged phase.1 hHere _ _
          (by rw [hCharges]; rfl))).elim
  · have hWrite :
        statusWrite? t =
          some ⟨cart.db, cart.orderId, .COMPLETE⟩ := by
      rw [statusWrite?, hCall, hOp, hChoice]
      rfl
    exact
      (hApart _ hWrite rfl
        (mem_amidItems hScript hInv hAt hAmid)).elim

include hScript hInv hPending hPhase hExec hCall in
/- An allowed call keeps orders amid an item pending. -/
theorem PendingAmid.resume
    (hMoves : phase.1.Moves op answer phase'.1)
    (hFillMoves :
      FillPhase.Moves phase.2 op answer phase'.2)
    (hApart :
      ∀ w ∈ statusWrite? t, w.status = .COMPLETE →
        (w.name, w.id) ∉
          amidItems databaseName history t.before) :
    PendingAmid t.after.store (phases.set index phase') := by
  intro pair hMem cart hAmid
  rcases List.mem_iff_getElem?.mp hMem with ⟨i, hAt⟩
  rcases getElem?_set_cases hAt with
    ⟨_, rfl⟩ | ⟨_, hAt'⟩
  · apply hFillMoves.pending hExec _ hAmid
    exact hPending phase (List.mem_of_getElem? hPhase)
  · exact
      pending_of_other hScript hInv hPending hPhase hExec
        hCall hMoves hApart hAt' hAmid

include hInv hPending hPhase hExec hCall in
/- An allowed call fills a pending order only. -/
theorem PendingAmid.frozen
    (hCouples : Couples phase)
    (hMoves : phase.1.Moves op answer phase'.1)
    (hFillMoves :
      FillPhase.Moves phase.2 op answer phase'.2) :
    Frozen t := by
  intro key hKey
  simp only [writesOrder?, hCall, hExec] at hKey
  cases answer with
  | error error => cases hKey
  | ok value =>
      have hFilled :
          op.filled? t.before.store = some key := hKey
      have hHere : phase.1 ∈ phases.map Prod.fst :=
        List.mem_map_of_mem (List.mem_of_getElem? hPhase)
      have hAdds : phase.1.adds? = some key := by
        apply hMoves.adds?_of_filled? hFilled
        intro name id userId tenantCode itemId hMerging
        rw [hMerging] at hHere
        exact hInv.lines.merges _ _ _ _ _ hHere
      rcases hCouples.2 key hAdds with hFills | hStopped
      · rcases
            hFillMoves.amid?_of_filled? hFilled hFills with
          ⟨cart, hAmid, rfl⟩
        exact
          hPending phase (List.mem_of_getElem? hPhase) cart
            hAmid
      · have hCallHere :=
          hFillMoves.call?_eq (by rw [hStopped]; simp)
        rw [hStopped] at hCallHere
        cases hCallHere

end Resume

/- A started job is not amid an item. -/
theorem PendingAmid.start_job
    {store : Backend}
    (hPending : PendingAmid store phases)
    (job : Job) :
    PendingAmid store
      (phases ++
        [(job.phase databaseName,
          job.fillPhase databaseName)]) := by
  intro pair hMem cart hAmid
  rcases List.mem_append.mp hMem with hOld | hNew
  · exact hPending pair hOld cart hAmid
  · rw [List.mem_singleton.mp hNew] at hAmid
    cases job <;> cases hAmid

/-
  Lines and totals are written while their order is PENDING,
  in every run whose completions are not handled amid the
  addition of an item to the order.
-/
theorem frozen_of_completesApart
    (hFresh : start.Fresh)
    (hRun : OrderRun databaseName start history world)
    (hApart : CompletesApart databaseName history) :
    ∀ t ∈ history, Frozen t := by
  have hInvariant :=
    PoolSystem.script_invariant
      (orderSystem_performs databaseName) (fun _ => True)
      (fun history world phases =>
        FillInv databaseName history world.store phases ∧
          (CompletesApart databaseName history →
            PendingAmid world.store phases ∧
              ∀ t ∈ history, Frozen t))
      ⟨FillInv.idle hFresh, by simp [PendingAmid]⟩ ?_ ?_ hRun
      (fun _ _ => trivial)
  · rcases hInvariant with ⟨_, _, _, hFrozen⟩
    exact (hFrozen hApart).2
  · rintro history pool phases job ⟨hInv, hEarlier⟩ _ hReady
      pool' _
    let t : WorldStep := ⟨pool, .start job, pool'⟩
    refine
      ⟨FillInv.start_job (t := t) hInv hReady rfl rfl, ?_⟩
    rintro ⟨_, hBefore⟩
    rcases hEarlier hBefore with ⟨hPending, hFrozen⟩
    have hNow : Frozen t := by
      intro key hKey
      cases hKey
    exact
      ⟨hPending.start_job job,
        List.forall_mem_cons.mpr ⟨hNow, hFrozen⟩⟩
  · rintro history pool phases index choice job op resume
      phase phase' ⟨hInv, hEarlier⟩ hScript hThread hPhase
      hOwns hMoves answer pool' _
    let t : WorldStep := ⟨pool, .resume index choice, pool'⟩
    have hCall : t.call? = some (op, choice) :=
      Transition.call?_resume hThread
    have hExec :
        op.exec choice t.before.store =
          (answer.1, t.after.store) := rfl
    have hPhases :
        ∀ (i : Nat) (pair : Phase × FillPhase),
          phases[i]? = some pair →
            ∃ job, (orderScript databaseName).Owns job pair :=
      fun _ _ hAt => hScript.job_of_phase hAt
    refine
      ⟨FillInv.resume (t := t) hInv hPhases hPhase hMoves.1
        hExec hOwns.1 rfl hCall hMoves.2, ?_⟩
    rintro ⟨hNow, hBefore⟩
    rcases hEarlier hBefore with ⟨hPending, hFrozen⟩
    have hFrozenNow : Frozen t :=
      PendingAmid.frozen hInv hPending hPhase hExec hCall
        hOwns.2.2 hMoves.1 hMoves.2
    exact
      ⟨PendingAmid.resume hScript hInv hPending hPhase hExec
          hCall hMoves.1 hMoves.2 hNow,
        List.forall_mem_cons.mpr ⟨hFrozenNow, hFrozen⟩⟩

/- A run of the shop whose completion comes after. -/
theorem frozen_of_completesApart_of_shop :
    ∃ history world,
      OrderRun Shop.databaseName Shop.store history world ∧
        CompletesApart Shop.databaseName history ∧
        world.store.status? "tenant_t1" "o" =
          some .COMPLETE ∧
        ∀ t ∈ history, Frozen t := by
  rcases
      Shop.exists_run
        (Shop.orderMugs 0 "o" "l" 2 (by decide) ++
          Shop.complete 1 "o" ++ Shop.handleCompleted 2 "o")
        (fun history world =>
          decide
            (CompletesApart Shop.databaseName history ∧
              world.store.status? "tenant_t1" "o" =
                some .COMPLETE))
        (by decide +kernel) with
    ⟨history, world, hRun, hCheck⟩
  rcases of_decide_eq_true hCheck with
    ⟨hApart, hComplete⟩
  exact
    ⟨history, world, hRun, hApart, hComplete,
      frozen_of_completesApart Shop.store_fresh hRun hApart⟩

/- A line is written to an order completed meanwhile. -/
theorem not_frozen :
    ¬ ∀ (databaseName : String → String) (start : Backend)
        (history : List WorldStep) (world : World),
      start.Fresh →
      OrderRun databaseName start history world →
      ∀ t ∈ history, Frozen t := by
  intro hClaim
  rcases
      Shop.exists_run
        ([.start
            (.createOrder Shop.alice "t1"
              ⟨[⟨"mug", 2, by decide⟩],
                List.cons_ne_nil _ _⟩),
            Shop.go 0 "o"] ++
          Shop.goOn 0 1 ++ Shop.complete 1 "o" ++
          Shop.handleCompleted 2 "o" ++ Shop.goOn 0 2 ++
          [Shop.go 0 "l"])
        (fun history _ =>
          decide ¬ ∀ t ∈ history, Frozen t)
        (by decide +kernel) with
    ⟨history, world, hRun, hCheck⟩
  exact
    of_decide_eq_true hCheck
      (hClaim Shop.databaseName Shop.store history world
        Shop.store_fresh hRun)

end OrderApi
