import OrderApi.System.StockFlow

/-
  Who may write the lines of an order, and when.

  Only the request that creates an order writes its lines,
  and only until it publishes the order.  An order that may
  be processed or paid is sealed: no job can write its lines
  any more.

  Key definitions include:
    * `Phase.adds?`, `Phase.handles?`, `Phase.charges?`
    * `Sealed`
    * `LinesInv`

  Key theorems include:
    * `StoreOp.exec_items_cases`
    * `LinesInv.start_job`
    * `LinesInv.resume`
-/

------------------------------------------------------------
-- What a Call Does to the Lines of an Order
------------------------------------------------------------

namespace OrderApi

/- The line with an id in a tenant database. -/
def Backend.item? (store : Backend) (name id : String) :
    Option OrderItem :=
  (store.dbs name).bind fun db => db.orderItems.find? id

namespace TenantDb

/- Adding a line shows in the lines of its order only. -/
theorem itemsOf_insert?
    {db db' : TenantDb}
    {item : OrderItem}
    (hInsert :
      db.orderItems.insert? item = some db'.orderItems)
    (orderId : String) :
    db'.itemsOf orderId =
      if item.orderId = orderId then
        db.itemsOf orderId ++ [item]
      else db.itemsOf orderId := by
  have hRows :=
    (db.orderItems.insert?_eq_some_iff.mp hInsert).2
  unfold itemsOf
  rw [hRows, List.filter_append]
  by_cases hOrder : item.orderId = orderId
  · simp [hOrder]
  · simp [hOrder]

/- Updating a line shows in the lines of its order only. -/
theorem itemsOf_update
    {db db' : TenantDb}
    {id : String}
    {item : OrderItem}
    {quantity : Int4}
    (hFind : db.orderItems.find? id = some item)
    (hUpdate :
      db'.orderItems =
        db.orderItems.update id
          (fun row => { row with quantity := quantity })
          (fun _ => rfl))
    (orderId : String) :
    db'.itemsOf orderId =
      if item.orderId = orderId then
        (db.itemsOf orderId).map fun row =>
          if row.id = id then
            { row with quantity := quantity }
          else row
      else db.itemsOf orderId := by
  have hItem := db.orderItems.find?_eq_some_iff.mp hFind
  have hFilter :
      db'.itemsOf orderId =
        (db.itemsOf orderId).map fun row =>
          if row.id = id then
            { row with quantity := quantity }
          else row := by
    unfold itemsOf
    rw [hUpdate]
    simp only [Table.update, List.filter_map]
    congr 1
    apply List.filter_congr
    intro row _
    by_cases hRow : Keyed.key row = id
    · simp [hRow]
    · simp [hRow]
  rw [hFilter]
  by_cases hOrder : item.orderId = orderId
  · rw [if_pos hOrder]
  · rw [if_neg hOrder]
    -- no line of another order has the id of the item
    have hSame :
        ∀ row ∈ db.itemsOf orderId,
          (if row.id = id then
            { row with quantity := quantity }
          else row) = row := by
      intro row hRow
      rcases List.mem_filter.mp hRow with ⟨hMem, hRowOrder⟩
      have hOther : row.id ≠ id := by
        intro hId
        have hRowItem : row = item :=
          db.orderItems.eq_of_key_eq hMem hItem.1
            (hId.trans hItem.2.symm)
        subst hRowItem
        exact hOrder (by simpa using hRowOrder)
      rw [if_neg hOther]
    rw [List.map_congr_left hSame, List.map_id']

end TenantDb

namespace StoreOp

variable {choice : Choice} {store store' : Backend}

/-
  All that a call can do to the lines of an order: nothing,
  add a line for an existing product, or change the quantity
  of one of its lines.
-/
theorem exec_items_cases
    {op : StoreOp}
    {answer : Except ApiError op.Res}
    (hExec : op.exec choice store = (answer, store'))
    (name id : String) :
    store'.items name id = store.items name id ∨
    (∃ productId quantity price item,
      op =
          .tenant name
            (.orderItemCreate id productId quantity
              price) ∧
        (∀ error, answer ≠ .error error) ∧
        item.productId = productId ∧
        item.quantity.val = quantity ∧
        item.price = price ∧
        store.stock? name productId ≠ none ∧
        store'.items name id =
          store.items name id ++ [item]) ∨
    (∃ itemId quantity item column,
      op =
          .tenant name (.orderItemUpdate itemId quantity) ∧
        (∀ error, answer ≠ .error error) ∧
        store.item? name itemId = some item ∧
        item.orderId = id ∧
        column.val = quantity ∧
        store'.items name id =
          (store.items name id).map fun row =>
            if row.id = itemId then
              { row with quantity := column }
            else row) := by
  rcases exec_dbs_cases hExec with
    hSame |
      ⟨name', op, tick, db, db', result, rfl, hOk, hChoice,
        hDb, hRun, rfl⟩
  · exact Or.inl (by rw [Backend.items, hSame, Backend.items])
  by_cases hName : name = name'
  swap
  · exact Or.inl (Backend.items_put_other hName id)
  subst hName
  by_cases hWrites : op.writes = .orderItems
  swap
  · have hItems := (TenantOp.exec_frame hRun).2.1 hWrites
    exact Or.inl (Backend.items_put_frame hDb hItems name id)
  have hItemsBefore := Backend.items_of_dbs hDb id
  have hItemsAfter :=
    @Backend.items_put_same store name db' id
  rw [hItemsBefore, hItemsAfter]
  cases op with
  | orderItemCreate orderId productId quantity price =>
      rcases TenantOp.exec_orderItemCreate hRun with
        ⟨hOrder, hProduct, hQuantity, hPrice, hFound,
          hInsert⟩
      have hItems := TenantDb.itemsOf_insert? hInsert id
      rw [hOrder] at hItems
      by_cases hId : orderId = id
      · subst hId
        rw [if_pos rfl] at hItems
        refine
          Or.inr (Or.inl
            ⟨productId, quantity, price, result, rfl, hOk,
              hProduct, hQuantity, hPrice, ?_, hItems⟩)
        rw [Backend.stock?_of_dbs hDb]
        simpa using hFound
      · rw [if_neg hId] at hItems
        exact Or.inl hItems
  | orderItemUpdate itemId quantity =>
      rcases TenantOp.exec_orderItemUpdate hRun with
        ⟨item, column, hFind, hColumn, hUpdate⟩
      have hItems := TenantDb.itemsOf_update hFind hUpdate id
      by_cases hId : item.orderId = id
      · rw [if_pos hId] at hItems
        refine
          Or.inr (Or.inr
            ⟨itemId, quantity, item, column, rfl, hOk, ?_,
              hId, hColumn, hItems⟩)
        simpa [Backend.item?, hDb] using hFind
      · rw [if_neg hId] at hItems
        exact Or.inl hItems
  | _ => cases hWrites

/- Lines stay, and stay with their order. -/
theorem exec_item?
    {op : StoreOp}
    {answer : Except ApiError op.Res}
    (hExec : op.exec choice store = (answer, store'))
    {name id : String}
    {item : OrderItem}
    (hItem : store.item? name id = some item) :
    ∃ item',
      store'.item? name id = some item' ∧
        item'.orderId = item.orderId := by
  rcases exec_dbs_cases hExec with
    hSame |
      ⟨name', op, tick, db, db', result, rfl, hOk, hChoice,
        hDb, hRun, rfl⟩
  · exact ⟨item, by rwa [Backend.item?, hSame], rfl⟩
  by_cases hName : name = name'
  swap
  · refine ⟨item, ?_, rfl⟩
    rwa [Backend.item?, Backend.put_dbs_other hName]
  subst hName
  have hFind : db.orderItems.find? id = some item := by
    simpa [Backend.item?, hDb] using hItem
  have hItem' :
      (store.put name db').item? name id =
        db'.orderItems.find? id := by
    simp [Backend.item?]
  rw [hItem']
  by_cases hWrites : op.writes = .orderItems
  swap
  · have hItems := (TenantOp.exec_frame hRun).2.1 hWrites
    exact ⟨item, by rwa [hItems], rfl⟩
  cases op with
  | orderItemCreate orderId productId quantity price =>
      rcases TenantOp.exec_orderItemCreate hRun with
        ⟨_, _, _, _, _, hInsert⟩
      have hFresh :=
        (db.orderItems.insert?_eq_some_iff.mp hInsert).1
      have hOther : Keyed.key result ≠ id := by
        intro hId
        rw [hId, hFind] at hFresh
        cases hFresh
      rw [Table.find?_insert? hInsert id, if_neg hOther]
      exact ⟨item, hFind, rfl⟩
  | orderItemUpdate itemId quantity =>
      rcases TenantOp.exec_orderItemUpdate hRun with
        ⟨updated, column, _, _, hUpdate⟩
      rw [hUpdate, Table.find?_update]
      by_cases hId : id = itemId
      · subst hId
        rw [if_pos rfl, hFind]
        exact ⟨_, rfl, rfl⟩
      · rw [if_neg hId]
        exact ⟨item, hFind, rfl⟩
  | _ => cases hWrites

end StoreOp

end OrderApi

------------------------------------------------------------
-- What a Phase May Still Do to an Order
------------------------------------------------------------

namespace OrderApi

namespace StoreOp

variable {choice : Choice} {name id : String}
variable {store store' : Backend}

/- What the payment reads of an order. -/
theorem exec_orderFindUniqueWithItems
    {order : Order}
    {items : List OrderItem}
    (hExec :
      (StoreOp.tenant name
        (.orderFindUniqueWithItems id)).exec choice store =
          (.ok (some (order, items)), store')) :
    (∃ tick, choice = .answer tick) ∧
      store.order? name id = some order ∧
      items = store.items name id := by
  rcases exec_tenant_ok hExec with
    ⟨tick, db, db', hChoice, hDb, hRun, _⟩
  simp only [TenantOp.exec, Except.ok.injEq,
    Prod.mk.injEq, Option.map_eq_some_iff] at hRun
  rcases hRun with ⟨⟨found, hFind, hPair, hItems⟩, _⟩
  subst hPair
  have hId : found.id = id := db.orders.key_of_find? hFind
  refine ⟨⟨tick, hChoice⟩, ?_, ?_⟩
  · rw [Backend.order?_of_dbs hDb, hFind]
  · rw [← hItems, hId, Backend.items_of_dbs hDb]

/- What a status check reads. -/
theorem exec_orderFindUnique_ok
    {found : Option Order}
    (hExec :
      (StoreOp.tenant name (.orderFindUnique id)).exec choice
        store = (.ok found, store')) :
    found = store.order? name id ∧ store' = store := by
  have hRead :
      (StoreOp.tenant name (.orderFindUnique id)).isRead =
        true := rfl
  have hSame := exec_isRead_store hRead choice store
  rcases exec_tenant_ok hExec with
    ⟨tick, db, db', _, hDb, hRun, _⟩
  simp only [TenantOp.exec, Except.ok.injEq,
    Prod.mk.injEq] at hRun
  constructor
  · rw [← hRun.1, Backend.order?_of_dbs hDb]
  · rwa [hExec] at hSame

/- The line that an item is merged into. -/
theorem exec_orderItemFindFirst
    {orderId productId : String}
    {item : OrderItem}
    (hExec :
      (StoreOp.tenant name
        (.orderItemFindFirst orderId productId)).exec choice
          store = (.ok (some item), store')) :
    store.item? name item.id = some item ∧
      item.orderId = orderId := by
  rcases exec_tenant_ok hExec with
    ⟨tick, db, db', _, hDb, hRun, _⟩
  simp only [TenantOp.exec, Except.ok.injEq,
    Prod.mk.injEq] at hRun
  have hMem := List.mem_of_find?_eq_some hRun.1
  have hLine := List.find?_some hRun.1
  simp only [decide_eq_true_eq] at hLine
  refine ⟨?_, hLine.1⟩
  simp only [Backend.item?, hDb, Option.bind_some]
  exact db.orderItems.find?_eq_some_iff.mpr ⟨hMem, rfl⟩

/- Orders stay. -/
theorem exec_status?_ne_none
    {op : StoreOp}
    {answer : Except ApiError op.Res}
    (hExec : op.exec choice store = (answer, store'))
    (hStatus : store.status? name id ≠ none) :
    store'.status? name id ≠ none := by
  rcases exec_status_cases hExec name id with
    hSame | ⟨_, _, _, _, _, _, hNew⟩ |
      ⟨_, _, _, _, _, _, _, _, _, hNew⟩
  · rwa [hSame]
  · simp [hNew]
  · simp [hNew]

end StoreOp

namespace Phase

/- The order whose lines a job in the phase may write. -/
def adds? : Phase → Option (String × String)
  | adding db orderId _ _ => some (db, orderId)
  | merging db orderId _ _ _ => some (db, orderId)
  | _ => none

/- The order that a job may make wait for payment. -/
def handles? : Phase → Option (String × String)
  | handlingProcessing db orderId _ => some (db, orderId)
  | _ => none

/- The order that a job is amid charging. -/
def charges? : Phase → Option (String × String)
  | charging db orderId _ => some (db, orderId)
  | _ => none

variable {phase phase' : Phase} {op : StoreOp}
variable {choice : Choice} {store store' : Backend}
variable {answer : Except ApiError op.Res}

/- A job writes the lines of the order it was on, or of one
   that it just created. -/
theorem Moves.adds?_cases
    (hMoves : Moves phase op answer phase')
    (hExec : op.exec choice store = (answer, store'))
    {name id : String}
    (hAdds : phase'.adds? = some (name, id)) :
    phase.adds? = some (name, id) ∨
      (store.status? name id = none ∧
        store'.status? name id ≠ none) := by
  cases hMoves with
  | read hFinal hRead => exact Or.inl hAdds
  | @create name userId tenantCode order =>
      cases hAdds
      rcases StoreOp.exec_tenant_ok hExec with
        ⟨tick, db, db', _, hDb, hRun, rfl⟩
      rcases TenantOp.exec_orderCreate hRun with
        ⟨_, _, _, _, hInsert⟩
      have hKey : Keyed.key order = order.id := rfl
      have hAbsent :=
        (db.orders.insert?_eq_some_iff.mp hInsert).1
      apply Or.inr
      constructor
      · rw [Backend.status?_of_dbs hDb]
        exact congrArg _ hAbsent
      · rw [Backend.status?_put_same,
          Table.find?_insert? hInsert order.id,
          if_pos hKey]
        simp
  | addItem => exact Or.inl hAdds
  | findItem => exact Or.inl hAdds
  | mergeItem => exact Or.inl hAdds
  | total => exact Or.inl hAdds
  | _ => cases hAdds

/- A job handles the message that it started with. -/
theorem Moves.handles?_eq
    (hMoves : Moves phase op answer phase')
    {key : String × String}
    (hHandles : phase'.handles? = some key) :
    phase.handles? = some key := by
  cases hMoves with
  | read hFinal hRead => exact hHandles
  | _ => cases hHandles

/- A job charges the order it was on, or one that waits. -/
theorem Moves.charges?_cases
    (hMoves : Moves phase op answer phase')
    (hExec : op.exec choice store = (answer, store'))
    {name id : String}
    (hCharges : phase'.charges? = some (name, id)) :
    phase.charges? = some (name, id) ∨
      store.status? name id =
        some .WAITING_FOR_PAYMENT := by
  cases hMoves with
  | read hFinal hRead => exact Or.inl hCharges
  | charge hUser hStatus =>
      cases hCharges
      have hOrder :=
        (StoreOp.exec_orderFindUniqueWithItems hExec).2.1
      apply Or.inr
      rw [Backend.status?, hOrder, Option.map_some, hStatus]
  | deduct => exact Or.inl hCharges
  | _ => cases hCharges

/- The queue grows by the order that a job was adding to. -/
theorem Moves.orderProcessing_cases
    (hMoves : Moves phase op answer phase')
    (hExec : op.exec choice store = (answer, store')) :
    store'.orderProcessing = store.orderProcessing ∨
      ∃ name id userId tenantCode,
        phase = adding name id userId tenantCode ∧
          phase' = quiet ∧
          store'.orderProcessing =
            store.orderProcessing ++
              [⟨id, userId, tenantCode⟩] := by
  rcases StoreOp.exec_queues_cases hExec with
    ⟨hSame, _⟩ | ⟨message, rfl, hOk, rfl⟩ |
      ⟨message, _, _, rfl⟩
  · exact Or.inl hSame
  · cases hMoves with
    | read hFinal hRead => cases hRead
    | failed hOp => exact (hOk _ rfl).elim
    | publishProcessing =>
        exact Or.inr ⟨_, _, _, _, rfl, rfl, rfl⟩
  · exact Or.inl rfl

end Phase

end OrderApi

------------------------------------------------------------
-- Sealed Orders
------------------------------------------------------------

namespace OrderApi

/- The order exists, and no job may write its lines. -/
def Sealed
    (store : Backend)
    (phases : List Phase)
    (name id : String) : Prop :=
  store.status? name id ≠ none ∧
    ∀ phase ∈ phases, phase.adds? ≠ some (name, id)

/-
  Lines are written by one job an order, and only before the
  order is published.  Whatever was published, may be
  handled, waits for payment, is charged or was paid, is
  sealed.
-/
structure LinesInv
    (databaseName : String → String)
    (history : List WorldStep)
    (store : Backend)
    (phases : List Phase) : Prop where
  adds_exist :
    ∀ phase ∈ phases, ∀ name id,
      phase.adds? = some (name, id) →
        store.status? name id ≠ none
  adds_once :
    ∀ (i j : Nat) (phase₁ phase₂ : Phase)
        (key : String × String),
      phases[i]? = some phase₁ → phases[j]? = some phase₂ →
        phase₁.adds? = some key →
        phase₂.adds? = some key → i = j
  merges :
    ∀ name id userId tenantCode itemId,
      Phase.merging name id userId tenantCode itemId ∈
          phases →
        ∃ item,
          store.item? name itemId = some item ∧
            item.orderId = id
  queued :
    ∀ message ∈ store.orderProcessing,
      Sealed store phases (databaseName message.tenantCode)
        message.orderId
  handled :
    ∀ phase ∈ phases, ∀ name id,
      phase.handles? = some (name, id) →
        Sealed store phases name id
  waiting :
    ∀ name id,
      store.status? name id = some .WAITING_FOR_PAYMENT →
        Sealed store phases name id
  charged :
    ∀ phase ∈ phases, ∀ name id,
      phase.charges? = some (name, id) →
        Sealed store phases name id
  paid :
    ∀ name id, wasPaid name id history →
      Sealed store phases name id
  paid_now :
    ∀ name id, store.status? name id = some .PAID →
      wasPaid name id history

variable {databaseName : String → String}
variable {history : List WorldStep} {t : WorldStep}
variable {phases : List Phase} {phase phase' : Phase}
variable {index : Nat} {job : Job} {op : StoreOp}
variable {choice : Choice}
variable {store store' : Backend}
variable {answer : Except ApiError op.Res}

theorem wasPaid_cons
    {name id : String} :
    wasPaid name id (t :: history) ↔
      t.after.store.status? name id = some .PAID ∨
        wasPaid name id history := by
  simp [wasPaid]

/- A phase of the threads after one of them moved. -/
theorem mem_phases_set
    {q : Phase}
    (hMem : q ∈ phases.set index phase') :
    q = phase' ∨ q ∈ phases :=
  (List.mem_or_eq_of_mem_set hMem).symm

/- A started job adds to no order, and charges none. -/
theorem Job.phase_adds?
    (databaseName : String → String)
    (job : Job) :
    (job.phase databaseName).adds? = none := by
  cases job <;> rfl

theorem Job.phase_charges?
    (databaseName : String → String)
    (job : Job) :
    (job.phase databaseName).charges? = none := by
  cases job <;> rfl

/- Starting a job keeps orders sealed. -/
theorem Sealed.start
    {name id : String}
    (hSealed : Sealed store phases name id)
    (job : Job) :
    Sealed store (phases ++ [job.phase databaseName])
      name id := by
  rcases hSealed with ⟨hExists, hAdds⟩
  refine ⟨hExists, ?_⟩
  intro q hMem
  rcases List.mem_append.mp hMem with hOld | hNew
  · exact hAdds q hOld
  · rw [List.mem_singleton.mp hNew,
      job.phase_adds? databaseName]
    exact fun h => by cases h

/- An allowed call keeps orders sealed. -/
theorem Sealed.resume
    {name id : String}
    (hSealed : Sealed store phases name id)
    (hPhase : phases[index]? = some phase)
    (hMoves : phase.Moves op answer phase')
    (hExec : op.exec choice store = (answer, store')) :
    Sealed store' (phases.set index phase') name id := by
  rcases hSealed with ⟨hExists, hAdds⟩
  refine ⟨StoreOp.exec_status?_ne_none hExec hExists, ?_⟩
  intro q hMem hKey
  rcases mem_phases_set hMem with rfl | hOld
  · rcases hMoves.adds?_cases hExec hKey with
      hBefore | ⟨hNew, _⟩
    · exact
        hAdds phase (List.mem_of_getElem? hPhase) hBefore
    · exact hExists hNew
  · exact hAdds q hOld hKey

/- Nothing is written in a fresh store. -/
theorem LinesInv.idle
    (hFresh : store.Fresh) :
    LinesInv databaseName [] store [] where
  adds_exist := by simp
  adds_once := by simp
  merges := by simp
  queued := by simp [hFresh.no_processing]
  handled := by simp
  waiting := by simp [hFresh.status?_eq_none]
  charged := by simp
  paid := by simp [wasPaid]
  paid_now := by simp [hFresh.status?_eq_none]

/- Starting a job preserves the invariant. -/
theorem LinesInv.start_job
    (hInv :
      LinesInv databaseName history t.before.store phases)
    (hReady : job.ready t.before.store = true)
    (hStore : t.after.store = t.before.store) :
    LinesInv databaseName (t :: history) t.after.store
      (phases ++ [job.phase databaseName]) := by
  have hPaid :
      ∀ name id, wasPaid name id (t :: history) →
        wasPaid name id history := by
    intro name id hNow
    rcases wasPaid_cons.mp hNow with hStatus | hEarlier
    · rw [hStore] at hStatus
      exact hInv.paid_now name id hStatus
    · exact hEarlier
  rw [hStore]
  have hOld :
      ∀ q ∈ phases ++ [job.phase databaseName],
        q ∈ phases ∨ q = job.phase databaseName := by
    simp
  constructor
  · intro q hMem name id hAdds
    rcases hOld q hMem with hOlder | rfl
    · exact hInv.adds_exist q hOlder name id hAdds
    · rw [job.phase_adds? databaseName] at hAdds
      cases hAdds
  · intro i j phase₁ phase₂ key hFirst hSecond hKey hKey'
    have hEarlier :
        ∀ (k : Nat) (q : Phase),
          (phases ++ [job.phase databaseName])[k]? =
              some q →
            q.adds? = some key → phases[k]? = some q := by
      intro k q hAt hAdds
      rcases Nat.lt_or_ge k phases.length with
        hLess | hMore
      · rwa [List.getElem?_append_left hLess] at hAt
      · have hLast : q = job.phase databaseName := by
          rw [List.getElem?_append_right hMore] at hAt
          simpa using List.mem_of_getElem? hAt
        rw [hLast, job.phase_adds? databaseName] at hAdds
        cases hAdds
    exact
      hInv.adds_once i j phase₁ phase₂ key
        (hEarlier i phase₁ hFirst hKey)
        (hEarlier j phase₂ hSecond hKey') hKey hKey'
  · intro name id userId tenantCode itemId hMem
    rcases hOld _ hMem with hOlder | hNew
    · exact
        hInv.merges name id userId tenantCode itemId hOlder
    · have hAdds := job.phase_adds? databaseName
      rw [← hNew] at hAdds
      cases hAdds
  · intro message hMem
    exact (hInv.queued message hMem).start job
  · intro q hMem name id hHandles
    rcases hOld q hMem with hOlder | rfl
    · exact (hInv.handled q hOlder name id hHandles).start job
    · cases job with
      | handleOrderProcessing paymentId message =>
          cases hHandles
          have hQueued :
              message ∈ t.before.store.orderProcessing := by
            simpa [Job.ready] using hReady
          exact
            (hInv.queued message hQueued).start
              (.handleOrderProcessing paymentId message)
      | _ => cases hHandles
  · intro name id hWaiting
    exact (hInv.waiting name id hWaiting).start job
  · intro q hMem name id hCharges
    rcases hOld q hMem with hOlder | rfl
    · exact
        (hInv.charged q hOlder name id hCharges).start job
    · rw [job.phase_charges? databaseName] at hCharges
      cases hCharges
  · intro name id hNow
    exact (hInv.paid name id (hPaid name id hNow)).start job
  · intro name id hStatus
    exact
      wasPaid_cons.mpr
        (Or.inr (hInv.paid_now name id hStatus))

section Resume

variable
  (hInv :
    LinesInv databaseName history t.before.store phases)
  (hPhase : phases[index]? = some phase)
  (hOwns : Job.Owns databaseName job phase)
  (hMoves : phase.Moves op answer phase')
  (hExec :
    op.exec choice t.before.store =
      (answer, t.after.store))

include hInv hPhase hMoves hExec

/- Jobs that add to other orders leave its lines. -/
theorem LinesInv.items_of_other
    {name id : String}
    (hOther : phase.adds? ≠ some (name, id)) :
    t.after.store.items name id =
      t.before.store.items name id := by
  rcases StoreOp.exec_items_cases hExec name id with
    hSame |
      ⟨lineProduct, quantity, price, item, rfl, hOk, _⟩ |
      ⟨itemId, quantity, item, column, rfl, hOk, hItem,
        hOrder, _⟩
  · exact hSame
  · cases hMoves with
    | read hFinal hRead => cases hRead
    | failed hOp => exact (hOk _ rfl).elim
    | addItem => exact (hOther rfl).elim
  · cases hMoves with
    | read hFinal hRead => cases hRead
    | failed hOp => exact (hOk _ rfl).elim
    | @mergeItem db orderId userId tenantCode =>
        have hHere := List.mem_of_getElem? hPhase
        rcases
            hInv.merges name orderId userId tenantCode
              itemId hHere with
          ⟨item', hItem', hOrder'⟩
        rw [hItem] at hItem'
        cases hItem'
        rw [hOrder] at hOrder'
        subst hOrder'
        exact (hOther rfl).elim

/- Jobs only write the lines of orders that exist. -/
theorem LinesInv.adds_exist_resume :
    ∀ q ∈ phases.set index phase', ∀ name id,
      q.adds? = some (name, id) →
        t.after.store.status? name id ≠ none := by
  intro q hMem name id hAdds
  have hStay :
      ∀ {p : Phase}, p ∈ phases →
        p.adds? = some (name, id) →
          t.after.store.status? name id ≠ none := by
    intro p hOld hKey
    exact
      StoreOp.exec_status?_ne_none hExec
        (hInv.adds_exist p hOld name id hKey)
  rcases mem_phases_set hMem with rfl | hOld
  · rcases hMoves.adds?_cases hExec hAdds with
      hBefore | ⟨_, hNew⟩
    · exact hStay (List.mem_of_getElem? hPhase) hBefore
    · exact hNew
  · exact hStay hOld hAdds

/- The thread that moved adds to an order of its own. -/
theorem LinesInv.adds_other_resume
    {i : Nat}
    {q : Phase}
    {key : String × String}
    (hOther : i ≠ index)
    (hAt : phases[i]? = some q)
    (hKey : q.adds? = some key) :
    phase'.adds? ≠ some key := by
  rcases key with ⟨name, id⟩
  intro hKey'
  rcases hMoves.adds?_cases hExec hKey' with
    hBefore | ⟨hNew, _⟩
  · exact
      hOther
        (hInv.adds_once i index q phase (name, id) hAt
          hPhase hKey hBefore)
  · exact
      hInv.adds_exist q (List.mem_of_getElem? hAt) name id
        hKey hNew

/- Still, one job at most writes the lines of an order. -/
theorem LinesInv.adds_once_resume :
    ∀ (i j : Nat) (phase₁ phase₂ : Phase)
        (key : String × String),
      (phases.set index phase')[i]? = some phase₁ →
        (phases.set index phase')[j]? = some phase₂ →
        phase₁.adds? = some key →
        phase₂.adds? = some key → i = j := by
  intro i j phase₁ phase₂ key hFirst hSecond hKey hKey'
  rcases getElem?_set_cases hFirst with
    ⟨rfl, rfl⟩ | ⟨hOther, hAt⟩
  · rcases getElem?_set_cases hSecond with
      ⟨rfl, _⟩ | ⟨hOther', hAt'⟩
    · rfl
    · exact
        (hInv.adds_other_resume hPhase hMoves hExec hOther'
          hAt' hKey' hKey).elim
  · rcases getElem?_set_cases hSecond with
      ⟨rfl, rfl⟩ | ⟨_, hAt'⟩
    · exact
        (hInv.adds_other_resume hPhase hMoves hExec hOther
          hAt hKey hKey').elim
    · exact
        hInv.adds_once i j phase₁ phase₂ key hAt hAt' hKey
          hKey'

/- Jobs merge into lines of the order that they are on. -/
theorem LinesInv.merges_resume :
    ∀ name id userId tenantCode itemId,
      Phase.merging name id userId tenantCode itemId ∈
          phases.set index phase' →
        ∃ item,
          t.after.store.item? name itemId = some item ∧
            item.orderId = id := by
  intro name id userId tenantCode itemId hMem
  have hStay :
      Phase.merging name id userId tenantCode itemId ∈
          phases →
        ∃ item,
          t.after.store.item? name itemId = some item ∧
            item.orderId = id := by
    intro hOld
    rcases
        hInv.merges name id userId tenantCode itemId hOld with
      ⟨item, hItem, hOrder⟩
    rcases StoreOp.exec_item? hExec hItem with
      ⟨item', hItem', hSame⟩
    exact ⟨item', hItem', hSame.trans hOrder⟩
  rcases mem_phases_set hMem with hNew | hOld
  · subst hNew
    have hHere := List.mem_of_getElem? hPhase
    cases hMoves with
    | read hFinal hRead => exact hStay hHere
    | findItem =>
        rcases StoreOp.exec_orderItemFindFirst hExec with
          ⟨hItem, hOrder⟩
        rcases StoreOp.exec_item? hExec hItem with
          ⟨item', hItem', hSame⟩
        exact ⟨item', hItem', hSame.trans hOrder⟩
  · exact hStay hOld

include hOwns in
/- Published orders are sealed. -/
theorem LinesInv.queued_resume :
    ∀ message ∈ t.after.store.orderProcessing,
      Sealed t.after.store (phases.set index phase')
        (databaseName message.tenantCode)
        message.orderId := by
  intro message hMem
  rcases hMoves.orderProcessing_cases hExec with
    hSame | ⟨name, id, userId, tenantCode, rfl, rfl, hQueue⟩
  · rw [hSame] at hMem
    exact
      (hInv.queued message hMem).resume hPhase hMoves hExec
  · rw [hQueue] at hMem
    rcases List.mem_append.mp hMem with hOld | hNew
    · exact
        (hInv.queued message hOld).resume hPhase hMoves hExec
    · -- the only job that could write its lines is done
      rw [List.mem_singleton] at hNew
      subst hNew
      have hName : name = databaseName tenantCode := hOwns.1
      simp only
      rw [← hName]
      have hHere := List.mem_of_getElem? hPhase
      have hExists :=
        hInv.adds_exist _ hHere name id rfl
      refine
        ⟨StoreOp.exec_status?_ne_none hExec hExists, ?_⟩
      intro q hMem' hKey
      rcases List.mem_iff_getElem?.mp hMem' with ⟨i, hAt⟩
      rcases getElem?_set_cases hAt with
        ⟨_, rfl⟩ | ⟨hOther, hAt'⟩
      · cases hKey
      · exact
          hOther
            (hInv.adds_once i index q _ (name, id) hAt'
              hPhase hKey rfl)

include hOwns in
/- An allowed call preserves the invariant. -/
theorem LinesInv.resume :
    LinesInv databaseName (t :: history) t.after.store
      (phases.set index phase') := by
  have hHere := List.mem_of_getElem? hPhase
  have hStay :
      ∀ name id, Sealed t.before.store phases name id →
        Sealed t.after.store (phases.set index phase') name
          id :=
    fun name id hSealed =>
      hSealed.resume hPhase hMoves hExec
  constructor
  · exact hInv.adds_exist_resume hPhase hMoves hExec
  · exact hInv.adds_once_resume hPhase hMoves hExec
  · exact hInv.merges_resume hPhase hMoves hExec
  · exact hInv.queued_resume hPhase hOwns hMoves hExec
  · intro q hMem name id hHandles
    rcases mem_phases_set hMem with rfl | hOld
    · exact
        hStay name id
          (hInv.handled phase hHere name id
            (hMoves.handles?_eq hHandles))
    · exact
        hStay name id (hInv.handled q hOld name id hHandles)
  · intro name id hWaiting
    apply hStay
    rcases hMoves.status_cases hExec name id with
      hSame | ⟨_, hNew⟩ | ⟨_, _, _, rfl, _⟩ |
        ⟨_, _, _, _, _, _, hNew⟩ |
        ⟨_, _, _, _, _, _, _, hNew⟩
    · exact hInv.waiting name id (by rwa [← hSame])
    · rw [hNew] at hWaiting
      cases hWaiting
    · exact hInv.handled _ hHere name id rfl
    · rw [hNew] at hWaiting
      cases hWaiting
    · rw [hNew] at hWaiting
      cases hWaiting
  · intro q hMem name id hCharges
    rcases mem_phases_set hMem with rfl | hOld
    · rcases hMoves.charges?_cases hExec hCharges with
        hBefore | hWaiting
      · exact
          hStay name id
            (hInv.charged phase hHere name id hBefore)
      · exact hStay name id (hInv.waiting name id hWaiting)
    · exact
        hStay name id (hInv.charged q hOld name id hCharges)
  · intro name id hPaid
    rcases wasPaid_cons.mp hPaid with hNow | hEarlier
    · rcases hMoves.status_cases hExec name id with
        hSame | ⟨_, hNew⟩ | ⟨_, _, _, _, _, _, _, hNew⟩ |
          ⟨_, _, rfl, _⟩ | ⟨_, _, _, _, _, _, _, hNew⟩
      · rw [hSame] at hNow
        exact
          hStay name id
            (hInv.paid name id (hInv.paid_now name id hNow))
      · rw [hNew] at hNow
        cases hNow
      · rw [hNew] at hNow
        cases hNow
      · exact hStay name id (hInv.charged _ hHere name id rfl)
      · rw [hNew] at hNow
        cases hNow
    · exact hStay name id (hInv.paid name id hEarlier)
  · intro name id hNow
    exact wasPaid_cons.mpr (Or.inl hNow)

end Resume

end OrderApi
