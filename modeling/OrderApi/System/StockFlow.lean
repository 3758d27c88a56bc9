import OrderApi.System.StatusFlow

/-
  How the stocks of products change over runs.

  A stock is set when its product is created or updated, and
  taken from by the payments of orders; only the payment
  does not look at the stock that is left.

  Key definitions include:
    * `stockTaken?`
    * `NonnegStocks`
    * `InStock`

  Key theorems include:
    * `OrderRun.stock_cases`
    * `nonnegStocks_iff_inStock`
-/

------------------------------------------------------------
-- What a Call Does to a Stock
------------------------------------------------------------

namespace OrderApi

namespace Backend

variable {store : Backend} {name name' : String}
variable {db : TenantDb}

theorem stock?_of_dbs
    (hDb : store.dbs name = some db)
    (id : String) :
    store.stock? name id =
      (db.products.find? id).map fun product =>
        product.stock.val := by
  rw [stock?, product?_of_dbs hDb]

theorem stock?_put_same (id : String) :
    (store.put name db).stock? name id =
      (db.products.find? id).map fun product =>
        product.stock.val := by
  rw [stock?, product?_put_same]

theorem stock?_put_other
    (hName : name' ≠ name)
    (id : String) :
    (store.put name db).stock? name' id =
      store.stock? name' id := by
  rw [stock?, product?_put_other hName, stock?]

end Backend

namespace StoreOp

variable {choice : Choice} {name : String}
variable {store store' : Backend}

/-
  What a write to the product `changed` does to the stocks,
  when `after` is its row afterwards.
-/
theorem stock?_of_product_write
    {db db' : TenantDb}
    {changed : String}
    {after : Option Product}
    (hDb : store.dbs name = some db)
    (hFind :
      ∀ id,
        db'.products.find? id =
          if id = changed then after
          else db.products.find? id)
    (name' id : String) :
    (store.put name db').stock? name' id =
        store.stock? name' id ∨
      (name' = name ∧ id = changed ∧
        (store.put name db').stock? name id =
          after.map fun product => product.stock.val) := by
  by_cases hName : name' = name
  · subst hName
    by_cases hId : id = changed
    · refine Or.inr ⟨rfl, hId, ?_⟩
      rw [Backend.stock?_put_same, hFind, if_pos hId]
    · apply Or.inl
      rw [Backend.stock?_put_same, hFind, if_neg hId,
        Backend.stock?_of_dbs hDb]
  · exact Or.inl (Backend.stock?_put_other hName id)

/-
  All that a call can do to the stock of a product: nothing,
  create or delete the product, set the stock, or take from
  it.
-/
theorem exec_stock_cases
    {op : StoreOp}
    {answer : Except ApiError op.Res}
    (hExec : op.exec choice store = (answer, store'))
    (name id : String) :
    store'.stock? name id = store.stock? name id ∨
    (∃ productName description price stock,
      op =
          .tenant name
            (.productCreate productName description price
              stock) ∧
        (∀ error, answer ≠ .error error) ∧
        store.stock? name id = none ∧
        store'.stock? name id = some stock) ∨
    (∃ data old,
      op = .tenant name (.productUpdate id data) ∧
        store.stock? name id = some old ∧
        store'.stock? name id =
          some (data.stock.getD old)) ∨
    (∃ amount tick old,
      op = .tenant name (.productDecrementStock id amount) ∧
        (∀ error, answer ≠ .error error) ∧
        choice = .answer tick ∧
        store.stock? name id = some old ∧
        store'.stock? name id = some (old - amount)) ∨
    (op = .tenant name (.productDelete id) ∧
      store'.stock? name id = none) := by
  rcases exec_dbs_cases hExec with
    hSame |
      ⟨name', op, tick, db, db', result, rfl, hOk, hChoice,
        hDb, hRun, rfl⟩
  · apply Or.inl
    rw [Backend.stock?, Backend.product?, hSame,
      Backend.stock?, Backend.product?]
  · by_cases hWrites : op.writes = .products
    · cases op with
      | productCreate productName description price stock =>
          rcases TenantOp.exec_productCreate hRun with
            ⟨hStock, hInsert⟩
          have hAbsent :=
            (db.products.insert?_eq_some_iff.mp hInsert).1
          have hFind :
              ∀ key,
                db'.products.find? key =
                  if key = Keyed.key result then some result
                  else db.products.find? key := by
            intro key
            rw [Table.find?_insert? hInsert key]
            simp only [eq_comm]
          rcases stock?_of_product_write hDb hFind name id with
            hSame | ⟨rfl, rfl, hNew⟩
          · exact Or.inl hSame
          · refine
              Or.inr (Or.inl
                ⟨productName, description, price, stock,
                  rfl, hOk, ?_, ?_⟩)
            · rw [Backend.stock?_of_dbs hDb, hAbsent]
              rfl
            · rw [hNew, Option.map_some, hStock]
      | productUpdate changed data =>
          rcases TenantOp.exec_productUpdate hRun with
            ⟨product, price, stock, hOld, hStock, hFind⟩
          rcases stock?_of_product_write hDb hFind name id with
            hSame | ⟨rfl, rfl, hNew⟩
          · exact Or.inl hSame
          · refine
              Or.inr (Or.inr (Or.inl
                ⟨data, product.stock.val, rfl, ?_, ?_⟩))
            · rw [Backend.stock?_of_dbs hDb, hOld]
              rfl
            · rw [hNew, Option.map_some, ← hStock]
              rfl
      | productDecrementStock changed amount =>
          rcases TenantOp.exec_productDecrementStock hRun with
            ⟨product, stock, hOld, hStock, hFind⟩
          rcases stock?_of_product_write hDb hFind name id with
            hSame | ⟨rfl, rfl, hNew⟩
          · exact Or.inl hSame
          · refine
              Or.inr (Or.inr (Or.inr (Or.inl
                ⟨amount, tick, product.stock.val, rfl, hOk,
                  hChoice, ?_, ?_⟩)))
            · rw [Backend.stock?_of_dbs hDb, hOld]
              rfl
            · rw [hNew, Option.map_some, ← hStock]
      | productDelete changed =>
          have hFind := TenantOp.exec_productDelete hRun
          rcases stock?_of_product_write hDb hFind name id with
            hSame | ⟨rfl, rfl, hNew⟩
          · exact Or.inl hSame
          · exact
              Or.inr (Or.inr (Or.inr (Or.inr ⟨rfl, hNew⟩)))
      | _ => cases hWrites
    · apply Or.inl
      have hProducts :=
        (TenantOp.exec_frame hRun).2.2 hWrites
      rw [Backend.stock?,
        Backend.product?_put_frame hDb hProducts,
        Backend.stock?]

/- An answered decrement within the column's range. -/
theorem exec_productDecrementStock_stock
    {tick : Tick}
    {id : String}
    {amount stock : Int}
    (hStock : store.stock? name id = some stock)
    (hLow : -2147483648 ≤ stock - amount)
    (hHigh : stock - amount ≤ 2147483647) :
    ((StoreOp.tenant name
        (.productDecrementStock id amount)).exec
          (.answer tick) store).2.stock? name id =
      some (stock - amount) := by
  cases hDb : store.dbs name with
  | none =>
      simp [Backend.stock?, Backend.product?, hDb] at hStock
  | some db =>
      rw [Backend.stock?_of_dbs hDb,
        Option.map_eq_some_iff] at hStock
      rcases hStock with ⟨product, hFind, rfl⟩
      have hRun :
          ∃ result db',
            (TenantOp.productDecrementStock id amount).exec
                tick db = .ok (result, db') ∧
              db'.products.find? id =
                some
                  { product with
                    stock :=
                      ⟨product.stock.val - amount, hLow,
                        hHigh⟩ } := by
        simp only [TenantOp.exec, hFind, Bounded.ofInt?,
          hLow, hHigh, dite_true]
        refine ⟨_, _, rfl, ?_⟩
        simp only [Table.find?_update, hFind, if_true,
          Option.map_some]
      rcases hRun with ⟨result, db', hRun, hFind'⟩
      have hExec :
          (StoreOp.tenant name
              (.productDecrementStock id amount)).exec
              (.answer tick) store =
            (.ok result, store.put name db') := by
        simp [exec, hDb, hRun, Backend.put]
      rw [hExec, Backend.stock?_put_same, hFind']
      rfl

end StoreOp

end OrderApi

------------------------------------------------------------
-- What a Step Does to a Stock
------------------------------------------------------------

namespace OrderApi

/- An amount, and the product that it is taken from. -/
structure StockTaken where
  name : String
  id : String
  amount : Int
deriving DecidableEq

/- The decrement that a step makes, and that is answered. -/
def stockTaken? (t : WorldStep) : Option StockTaken :=
  match t.call? with
  | some
      (.tenant name (.productDecrementStock id amount),
        .answer _) => some ⟨name, id, amount⟩
  | _ => none

variable {databaseName : String → String}
variable {start : Backend} {world : World}
variable {history : List WorldStep} {t : WorldStep}

/- The call behind a decrement. -/
theorem call?_of_stockTaken?
    {name id : String}
    {amount : Int}
    (hTaken : stockTaken? t = some ⟨name, id, amount⟩) :
    ∃ tick,
      t.call? =
        some
          (.tenant name (.productDecrementStock id amount),
            .answer tick) := by
  unfold stockTaken? at hTaken
  split at hTaken
  · rename_i name' id' amount' tick hCall
    cases hTaken
    exact ⟨tick, hCall⟩
  · cases hTaken

/- Products are created with a stock of 0 or more. -/
theorem Phase.Moves.stock_of_create
    {phase phase' : Phase}
    {name productName : String}
    {description : Option String}
    {price stock : Int}
    {answer : Except ApiError Product}
    (hMoves :
      Moves phase
        (.tenant name
          (.productCreate productName description price
            stock))
        answer phase')
    (hOk : ∀ error, answer ≠ .error error) :
    0 ≤ stock := by
  cases hMoves with
  | read hFinal hRead => cases hRead
  | failed hOp => exact (hOk _ rfl).elim
  | createProduct hStock => exact hStock

/- All that a step of a run can do to a stock. -/
theorem OrderRun.stock_cases
    (hRun : OrderRun databaseName start history world)
    (hMem : t ∈ history)
    (name id : String) :
    t.after.store.stock? name id =
        t.before.store.stock? name id ∨
    (∃ stock,
      0 ≤ stock ∧
        t.before.store.stock? name id = none ∧
        t.after.store.stock? name id = some stock) ∨
    (∃ (data : UpdateProductDto) (old : Int),
      t.before.store.stock? name id = some old ∧
        t.after.store.stock? name id =
          some (data.stock.getD old)) ∨
    (∃ amount old,
      stockTaken? t = some ⟨name, id, amount⟩ ∧
        t.before.store.stock? name id = some old ∧
        t.after.store.stock? name id =
          some (old - amount)) ∨
    t.after.store.stock? name id = none := by
  rcases hRun.of_mem hMem with ⟨hStep, earlier, hEarlier, _⟩
  rcases
      PoolSystem.inPhases_of_run
        (orderSystem_obeys databaseName) hEarlier with
    ⟨phases, hPhases⟩
  rcases PoolSystem.store_of_step hStep with
    ⟨_, hSame⟩ | ⟨op, choice, hCall, _⟩
  · exact Or.inl (by rw [hSame])
  · rcases PoolSystem.step_of_call hStep hCall with
      ⟨index, job, resume, hLabel, hThread, hAfter⟩
    rcases
        hPhases.phase_of_call hThread
          (op.exec choice t.before.store).1 with
      ⟨phase, phase', _, _, hMoves, _⟩
    have hStore :
        t.after.store = (op.exec choice t.before.store).2 :=
      congrArg Pool.store hAfter
    rw [hStore]
    rcases
        StoreOp.exec_stock_cases
          (rfl :
            op.exec choice t.before.store =
              ((op.exec choice t.before.store).1,
                (op.exec choice t.before.store).2))
          name id with
      hSame |
        ⟨productName, description, price, stock, rfl, hOk,
          hOld, hNew⟩ |
        ⟨data, old, _, hOld, hNew⟩ |
        ⟨amount, tick, old, rfl, _, rfl, hOld, hNew⟩ |
        ⟨_, hNew⟩
    · exact Or.inl hSame
    · have hStock := Phase.Moves.stock_of_create hMoves hOk
      exact Or.inr (Or.inl ⟨stock, hStock, hOld, hNew⟩)
    · exact Or.inr (Or.inr (Or.inl ⟨data, old, hOld, hNew⟩))
    · have hTaken :
          stockTaken? t = some ⟨name, id, amount⟩ := by
        rw [stockTaken?, hCall]
      exact
        Or.inr (Or.inr (Or.inr (Or.inl
          ⟨amount, old, hTaken, hOld, hNew⟩)))
    · exact Or.inr (Or.inr (Or.inr (Or.inr hNew)))

end OrderApi

------------------------------------------------------------
-- Stocks that Never Become Negative
------------------------------------------------------------

namespace OrderApi

/- Every product of every tenant has a stock of 0 or more. -/
def NonnegStocks (store : Backend) : Prop :=
  ∀ name id stock,
    store.stock? name id = some stock → 0 ≤ stock

/-
  A payment takes no more than is in stock, unless the
  result is below the column's range and the write fails.
-/
def InStock (t : WorldStep) : Prop :=
  ∀ taken ∈ stockTaken? t,
    ∀ stock ∈ t.before.store.stock? taken.name taken.id,
      -2147483648 ≤ stock - taken.amount →
        taken.amount ≤ stock

instance (t : WorldStep) : Decidable (InStock t) :=
  inferInstanceAs
    (Decidable
      (∀ taken ∈ stockTaken? t,
        ∀ stock ∈
            t.before.store.stock? taken.name taken.id, _))

variable {databaseName : String → String}
variable {start : Backend} {world : World}
variable {history : List WorldStep} {t : WorldStep}

/- The stocks that a database can hold. -/
theorem Backend.stock?_range
    {store : Backend}
    {name id : String}
    {stock : Int}
    (hStock : store.stock? name id = some stock) :
    -2147483648 ≤ stock ∧ stock ≤ 2147483647 := by
  rcases Option.map_eq_some_iff.mp hStock with
    ⟨product, _, rfl⟩
  exact ⟨product.stock.low_le, product.stock.le_high⟩

/- A step in stock keeps the stocks non-negative. -/
theorem nonnegStocks_of_inStock
    (hRun : OrderRun databaseName start history world)
    (hMem : t ∈ history)
    (hBefore : NonnegStocks t.before.store)
    (hInStock : InStock t) :
    NonnegStocks t.after.store := by
  intro name id stock hStock
  rcases OrderRun.stock_cases hRun hMem name id with
    hSame | ⟨created, hCreated, _, hNew⟩ |
      ⟨data, old, hOld, hNew⟩ |
      ⟨amount, old, hTaken, hOld, hNew⟩ | hNew
  · rw [hSame] at hStock
    exact hBefore name id stock hStock
  · rw [hNew] at hStock
    cases hStock
    exact hCreated
  · rw [hNew] at hStock
    cases hStock
    cases hData : data.stock with
    | none => exact hBefore name id old hOld
    | some stock => exact data.stock_min stock (by simp [hData])
  · rw [hNew] at hStock
    cases hStock
    have hRange := Backend.stock?_range hNew
    have hEnough := hInStock _ hTaken old hOld hRange.1
    simp only at hEnough
    omega
  · rw [hNew] at hStock
    cases hStock

/- A step that keeps the stocks non-negative is in stock. -/
theorem inStock_of_nonnegStocks
    (hRun : OrderRun databaseName start history world)
    (hMem : t ∈ history)
    (hAfter : NonnegStocks t.after.store) :
    InStock t := by
  rintro ⟨name, id, amount⟩ hTaken stock hStock hLow
  rcases call?_of_stockTaken? hTaken with ⟨tick, hCall⟩
  rcases hRun.of_mem hMem with ⟨hStep, _⟩
  rcases PoolSystem.step_of_call hStep hCall with
    ⟨index, job, resume, _, _, hStore⟩
  by_contra hShort
  have hHigh : stock - amount ≤ 2147483647 := by
    simp only at hShort
    omega
  have hNew :
      t.after.store.stock? name id =
        some (stock - amount) := by
    rw [hStore]
    exact
      StoreOp.exec_productDecrementStock_stock hStock hLow
        hHigh
  have hNonneg := hAfter name id _ hNew
  simp only at hShort
  omega

/-
  The stocks of a run stay non-negative exactly if every
  payment takes from a product what it still has.
-/
theorem nonnegStocks_iff_inStock
    (hStart : NonnegStocks start)
    (hRun : OrderRun databaseName start history world) :
    (∀ t ∈ history, NonnegStocks t.after.store) ↔
      ∀ t ∈ history, InStock t := by
  constructor
  · intro hStocks t hMem
    exact inStock_of_nonnegStocks hRun hMem (hStocks t hMem)
  · intro hInStock
    -- along the run, with the state that it reached
    suffices hBoth :
        (∀ t ∈ history, NonnegStocks t.after.store) ∧
          NonnegStocks world.store from hBoth.1
    induction hRun with
    | idle => exact ⟨by simp, hStart⟩
    | @next history before after label run hStep ih =>
        rcases
            ih
              (fun t ht =>
                hInStock t (List.mem_cons_of_mem _ ht)) with
          ⟨hEarlier, hBefore⟩
        have hNewest : NonnegStocks after.store :=
          nonnegStocks_of_inStock (Run.next run hStep)
            List.mem_cons_self hBefore
            (hInStock _ List.mem_cons_self)
        refine ⟨?_, hNewest⟩
        intro t hMem
        rcases List.mem_cons.mp hMem with rfl | hOlder
        · exact hNewest
        · exact hEarlier t hOlder

theorem Shop.store_nonnegStocks :
    NonnegStocks Shop.store := by
  intro name id stock hStock
  by_cases hName : name = "tenant_t1"
  · subst hName
    by_cases hId : id = "mug"
    · subst hId
      have hFive :
          Shop.store.stock? "tenant_t1" "mug" = some 5 := by
        decide +kernel
      rw [hFive] at hStock
      cases hStock
      decide
    · have hNone :
          Shop.store.stock? "tenant_t1" id = none := by
        simp [Backend.stock?, Backend.product?, Shop.store,
          Table.find?, Keyed.key, Shop.mug, Ne.symm hId]
      rw [hNone] at hStock
      cases hStock
  · have hNone : Shop.store.stock? name id = none := by
      simp [Backend.stock?, Backend.product?, Shop.store,
        hName]
    rw [hNone] at hStock
    cases hStock

/- A run of the shop whose payment finds enough in stock. -/
theorem nonnegStocks_iff_inStock_of_shop :
    ∃ history world,
      OrderRun Shop.databaseName Shop.store history world ∧
        world.store.stock? "tenant_t1" "mug" = some 3 ∧
        ∀ t ∈ history, NonnegStocks t.after.store := by
  rcases
      Shop.exists_run
        (Shop.orderMugs 0 "o" "l" 2 (by decide) ++
          Shop.process 1 "o" ++ Shop.pay 2 "o")
        (fun history world =>
          decide
            (world.store.stock? "tenant_t1" "mug" =
                some 3 ∧
              ∀ t ∈ history, InStock t))
        (by decide +kernel) with
    ⟨history, world, hRun, hCheck⟩
  rcases of_decide_eq_true hCheck with ⟨hLeft, hInStock⟩
  exact
    ⟨history, world, hRun, hLeft,
      (nonnegStocks_iff_inStock Shop.store_nonnegStocks
        hRun).mpr hInStock⟩

/- Two orders that only together exceed the stock. -/
theorem not_nonnegStocks :
    ¬ ∀ (databaseName : String → String) (start : Backend)
        (history : List WorldStep) (world : World),
      start.Fresh → NonnegStocks start →
      OrderRun databaseName start history world →
      NonnegStocks world.store := by
  intro hClaim
  rcases
      Shop.exists_run
        (Shop.orderMugs 0 "o" "l" 3 (by decide) ++
          Shop.orderMugs 1 "p" "m" 3 (by decide) ++
          Shop.process 2 "o" ++ Shop.process 3 "p" ++
          Shop.pay 4 "o" ++ Shop.pay 5 "p")
        (fun _ world =>
          decide
            (world.store.stock? "tenant_t1" "mug" =
              some (-1)))
        (by decide +kernel) with
    ⟨history, world, hRun, hCheck⟩
  have hLeft := of_decide_eq_true hCheck
  have hNonneg :=
    hClaim Shop.databaseName Shop.store history world
      Shop.store_fresh Shop.store_nonnegStocks hRun
      "tenant_t1" "mug" (-1) hLeft
  exact absurd hNonneg (by decide)

end OrderApi
