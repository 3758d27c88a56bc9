import OrderApi.Core.Slices
import OrderApi.Model.StoreEffects
import OrderApi.Product.ProductService

/-
  The pages of `GET /orders` and of the product list.

  The pages of a user's orders are the slices of one sorted
  list, and a page behind the last one is the last one.  The
  product list cuts out the page that was requested, and
  reports the page that it was clamped to.

  Key definitions include:
    * `OrderPages.fetched`
    * `OrderPages.pageOf`
    * `OrderPages.Partitions`
    * `ProductService.reportedRows`

  Key theorems include:
    * `OrderPages.findAll_partitions`
    * `ProductService.data_eq_reportedRows_iff`
-/

------------------------------------------------------------
-- Pages of Orders
------------------------------------------------------------

namespace OrderApi

namespace OrderPages

/- What the environment answers to a call, if it is made. -/
abbrev Answer :=
  (op : StoreOp) → Except ApiError op.Res

/- Calls that are answered as given. -/
def asAnswered
    (answer : Answer)
    (op : StoreOp)
    (store : Unit) : Except ApiError op.Res × Unit :=
  (answer op, store)

/- The orders of the tenants whose fetch succeeds, tagged. -/
def fetched
    (databaseName : String → String)
    (userId : String) :
    (Nat → Answer) → List String → List TenantOrder
  | _, [] => []
  | answers, tenantCode :: tenantCodes =>
      (match
          answers 0
            (.tenant (databaseName tenantCode)
              (.orderFindMany userId)) with
        | .ok views =>
            views.map fun view => ⟨view, tenantCode⟩
        | .error _ => []) ++
        fetched databaseName userId
          (fun n => answers (n + 1)) tenantCodes

/- What `OrderService.findAll` returns, run to its end. -/
def pageOf
    (databaseName : String → String)
    (userId : String)
    (answers : Nat → Answer)
    (page perPage : Nat) :
    Except ApiError (Page TenantOrder) :=
  ((OrderService.findAll databaseName userId page
    perPage).complete asAnswered answers ()).1

/- The tenants are fetched from, whether one fails or not. -/
theorem complete_fetchOrders
    {β : Type}
    (databaseName : String → String)
    (userId : String)
    (tenantCodes : List String)
    (answers : Nat → Answer)
    (use : List TenantOrder → β) :
    (((OrderService.fetchOrders databaseName userId
          tenantCodes).bind fun orders =>
        .done (use orders)).complete asAnswered answers
          ()).1 =
      .ok
        (use
          (fetched databaseName userId answers
            tenantCodes)) := by
  induction tenantCodes generalizing answers use with
  | nil => rfl
  | cons tenantCode tenantCodes ih =>
      have hRest :
          ∀ orders : List TenantOrder,
            ((((OrderService.fetchOrders databaseName userId
                  tenantCodes).bind fun others =>
                .done (orders ++ others)).bind fun all =>
                .done (use all)).complete asAnswered
                  (fun n => answers (n + 1)) ()).1 =
              .ok
                (use
                  (orders ++ fetched databaseName userId
                    (fun n => answers (n + 1))
                    tenantCodes)) := by
        intro orders
        rw [Program.bind_assoc]
        exact
          ih (fun n => answers (n + 1))
            (fun others => use (orders ++ others))
      cases hAnswer :
          answers 0
            (.tenant (databaseName tenantCode)
              (.orderFindMany userId)) with
      | ok views =>
          have hViews :=
            hRest (views.map fun view => ⟨view, tenantCode⟩)
          rw [fetched, hAnswer]
          simp only [OrderService.fetchOrders, prisma,
            Program.perform, Program.bind_eq, Program.bind,
            Program.attempt, Program.complete, asAnswered,
            hAnswer]
          exact hViews
      | error error =>
          have hNone := hRest []
          rw [fetched, hAnswer]
          simp only [OrderService.fetchOrders, prisma,
            Program.perform, Program.bind_eq, Program.bind,
            Program.attempt, Program.complete, asAnswered,
            hAnswer]
          exact hNone

/- Every page is cut out of the orders that are fetched. -/
theorem pageOf_eq
    {databaseName : String → String}
    {userId : String}
    {answers : Nat → Answer}
    {tenantCodes : List String}
    (hReady :
      answers 0 .findReadyTenants = .ok tenantCodes)
    (page perPage : Nat) :
    pageOf databaseName userId answers page perPage =
      .ok
        (OrderService.paginate
          (fetched databaseName userId
            (fun n => answers (n + 1)) tenantCodes)
          page perPage) := by
  have hFetched :=
    complete_fetchOrders databaseName userId tenantCodes
      (fun n => answers (n + 1)) fun orders =>
        OrderService.paginate orders page perPage
  simp only [pageOf, OrderService.findAll, Program.perform,
    Program.bind_eq, Program.bind, Program.complete,
    asAnswered, hReady]
  exact hFetched

/- The orders of all tenants, as the pages show them. -/
def sorted (orders : List TenantOrder) : List TenantOrder :=
  newestFirst (fun order => order.view.order.createdAt)
    orders

theorem sorted_perm (orders : List TenantOrder) :
    (sorted orders).Perm orders :=
  List.perm_insertionSort _ orders

theorem sorted_pairwise (orders : List TenantOrder) :
    (sorted orders).Pairwise fun a b =>
      b.view.order.createdAt ≤ a.view.order.createdAt := by
  have hTotal :
      Std.Total fun a b : TenantOrder =>
        b.view.order.createdAt ≤ a.view.order.createdAt :=
    ⟨fun a b => Nat.le_total _ _⟩
  have hTrans :
      IsTrans TenantOrder fun a b =>
        b.view.order.createdAt ≤ a.view.order.createdAt :=
    ⟨fun a b c hAB hBC => Nat.le_trans hBC hAB⟩
  exact List.pairwise_insertionSort _ orders

/- A page is a slice, and the pages are counted as slices. -/
theorem paginate_eq
    (orders : List TenantOrder)
    (page perPage : Nat) :
    OrderService.paginate orders page perPage =
      let count := sliceCount orders.length perPage
      { page := min page count
        per_page := perPage
        total := orders.length
        total_pages := count
        data :=
          slice perPage (min page count) (sorted orders) } := by
  have hLength := (sorted_perm orders).length_eq
  unfold sorted at hLength
  simp only [OrderService.paginate, hLength]
  rfl

/-
  Page by page, orders are shown once each, the newest ones
  first; all pages but the last are full, and a page behind
  the last one is the last one.
-/
def Partitions
    (orders : List TenantOrder)
    (perPage : Nat)
    (pages : Nat → Page TenantOrder) : Prop :=
  let count := (pages 1).total_pages
  let shown :=
    (List.range count).flatMap fun n => (pages (n + 1)).data
  shown.Perm orders ∧
  (shown.Pairwise fun a b =>
    b.view.order.createdAt ≤ a.view.order.createdAt) ∧
  (∀ page, 1 ≤ page → page < count →
    (pages page).data.length = perPage) ∧
  (∀ page, 1 ≤ page →
    (pages page).total = orders.length ∧
      (pages page).total_pages = count ∧
      1 ≤ (pages page).page ∧
      (pages page).page ≤ count) ∧
  (∀ page, count ≤ page → pages page = pages count)

theorem paginate_partitions
    {perPage : Nat}
    (hPerPage : 1 ≤ perPage)
    (orders : List TenantOrder) :
    Partitions orders perPage fun page =>
      OrderService.paginate orders page perPage := by
  let count := sliceCount orders.length perPage
  have hCount : 1 ≤ count := by
    simp only [count, sliceCount]
    omega
  have hLength : (sorted orders).length = orders.length :=
    (sorted_perm orders).length_eq
  have hShown :
      ((List.range count).flatMap fun n =>
          (OrderService.paginate orders (n + 1)
            perPage).data) =
        sorted orders := by
    have hData :
        ∀ n ∈ List.range count,
          (OrderService.paginate orders (n + 1)
              perPage).data =
            slice perPage (n + 1) (sorted orders) := by
      intro n hMem
      have hBefore := List.mem_range.mp hMem
      have hMin : min (n + 1) count = n + 1 := by omega
      rw [paginate_eq]
      simp only
      rw [hMin]
    rw [List.flatMap_congr hData]
    apply flatMap_slice
    rw [hLength]
    exact length_le_sliceCount_mul hPerPage
  have hPages :
      (OrderService.paginate orders 1 perPage).total_pages =
        count := by
    rw [paginate_eq]
  unfold Partitions
  simp only [hPages, hShown]
  refine
    ⟨sorted_perm orders, sorted_pairwise orders, ?_, ?_, ?_⟩
  · intro page hPage hBefore
    have hMin : min page count = page := by omega
    have hInside :=
      lt_length_of_lt_sliceCount hPage hBefore
    rw [paginate_eq]
    simp only
    rw [hMin]
    exact length_slice hPage (by omega)
  · intro page hPage
    rw [paginate_eq]
    refine ⟨rfl, rfl, ?_, ?_⟩
    · simp only
      omega
    · exact Nat.min_le_right _ _
  · intro page hBehind
    have hMin : min page count = min count count := by omega
    rw [paginate_eq, paginate_eq]
    simp only
    rw [hMin]

/- An order of a user, created at some time. -/
def orderAt (id : String) (createdAt : Nat) : OrderView where
  order :=
    { id := id
      userId := "u1"
      status := .PENDING
      total := ⟨750, by decide, by decide⟩
      paymentId := none
      transactionId := none
      createdAt := createdAt }
  items := []

/- Three tenants, the second of which fails. -/
def threeTenants (_ : Nat) : Answer
  | .findReadyTenants => .ok ["acme", "bolt", "cog"]
  | .tenant "acme" (.orderFindMany _) =>
      .ok [orderAt "o3" 30, orderAt "o1" 10]
  | .tenant "cog" (.orderFindMany _) => .ok [orderAt "o2" 20]
  | _ => .error ⟨.store, "Connection refused"⟩

example :
    ((pageOf id "u1" threeTenants 7 2).map fun page =>
      (page.page, page.data.map fun order =>
        order.view.order.id)).toOption =
      some (2, ["o1"]) := by
  decide +kernel

end OrderPages

end OrderApi

------------------------------------------------------------
-- Pages of Products
------------------------------------------------------------

namespace OrderApi

namespace ProductService

/- The rows of the product list, as its query orders them. -/
def listed (db : TenantDb) : List Product :=
  newestFirst Product.createdAt db.products.rows

/- The rows that belong to the page a response reports. -/
def reportedRows
    (db : TenantDb)
    (response : Page Product) : List Product :=
  slice response.per_page response.page (listed db)

/- The answer to both queries on the rows of a database. -/
def answerOf
    (db : TenantDb)
    (page perPage : Nat) : Page Product :=
  let count := sliceCount (listed db).length perPage
  { page := min page count
    per_page := perPage
    total := (listed db).length
    total_pages := count
    data := slice perPage page (listed db) }

theorem length_listed (db : TenantDb) :
    (listed db).length = db.products.rows.length :=
  (List.perm_insertionSort _ db.products.rows).length_eq

/- A response answers both queries on the same rows. -/
theorem findAll_eq_answerOf
    {store : Backend}
    {name tenantCode : String}
    {page perPage : Nat}
    {choices : Nat → Choice}
    {db : TenantDb}
    {response : Page Product}
    (hDb : store.dbs name = some db)
    (hResponse :
      ((findAll name tenantCode page perPage).complete
        execAlone choices store).1 = .ok response) :
    response = answerOf db page perPage := by
  have hInside :=
    Program.complete_eq_ok_of_attempt
      (mapMissingDatabase_throws tenantCode) hResponse
  rcases
    Program.exec_eq_ok_of_complete_perform_bind hInside with
    ⟨total, store', hTotal, hRest⟩
  rcases
    Program.exec_eq_ok_of_complete_perform_bind hRest with
    ⟨data, store'', hData, hDone⟩
  rcases StoreOp.exec_tenant_ok hTotal with
    ⟨tick, db', db'', _, hDb', hCount, hStore⟩
  rw [hDb] at hDb'
  cases hDb'
  cases hCount
  subst hStore
  rcases StoreOp.exec_tenant_ok hData with
    ⟨tick', db', db'', _, hDb', hRows, _⟩
  rw [Backend.put_dbs_same] at hDb'
  cases hDb'
  cases hRows
  cases hDone
  have hLength := length_listed db
  simp only [answerOf, hLength]
  rfl

/-
  The response shows the rows of the page that it reports
  exactly if that page was requested, or there are no rows.
-/
theorem data_eq_reportedRows_iff
    {store : Backend}
    {name tenantCode : String}
    {page perPage : Nat}
    {choices : Nat → Choice}
    {db : TenantDb}
    {response : Page Product}
    (hDb : store.dbs name = some db)
    (hPage : 1 ≤ page)
    (hPerPage : 1 ≤ perPage)
    (hResponse :
      ((findAll name tenantCode page perPage).complete
        execAlone choices store).1 = .ok response) :
    response.data = reportedRows db response ↔
      page ≤ totalPages db.products.rows.length perPage ∨
        db.products.rows = [] := by
  have hLength := length_listed db
  let count := totalPages db.products.rows.length perPage
  have hCount : 1 ≤ count := by
    simp only [count, totalPages]
    omega
  have hCountEq :
      sliceCount (listed db).length perPage = count := by
    rw [hLength]
    rfl
  rw [findAll_eq_answerOf hDb hResponse]
  simp only [answerOf, reportedRows, hCountEq]
  change _ ↔ page ≤ count ∨ _
  constructor
  · intro hSame
    by_cases hInside : page ≤ count
    · exact Or.inl hInside
    · apply Or.inr
      have hMin : min page count = count := by omega
      -- the requested page lies behind all rows
      have hEmpty : slice perPage page (listed db) = [] := by
        rw [slice_eq_nil_iff hPerPage, hLength]
        have hCover :
            db.products.rows.length ≤ count * perPage :=
          length_le_sliceCount_mul hPerPage
        have hMul :
            count * perPage ≤ (page - 1) * perPage :=
          Nat.mul_le_mul_right perPage (by omega)
        exact Nat.le_trans hCover hMul
      rw [hMin, hEmpty] at hSame
      have hLast := (slice_eq_nil_iff hPerPage).mp hSame.symm
      rw [hLength] at hLast
      by_cases hOne : count = 1
      · rw [hOne] at hLast
        exact List.length_eq_zero_iff.mp (by omega)
      · -- the last of several pages is not empty
        have hBefore :
            (count - 1) * perPage < db.products.rows.length :=
          lt_length_of_lt_sliceCount (by omega)
            (show count - 1 < count by omega)
        omega
  · intro hCondition
    rcases hCondition with hInside | hNone
    · have hMin : min page count = page := by omega
      rw [hMin]
    · have hRows : listed db = [] := by
        rw [← List.length_eq_zero_iff, hLength, hNone]
        rfl
      simp [slice, hRows]

/- A database with one product. -/
def oneMug : Backend where
  users := Table.empty
  dbs := fun _ =>
    some
      { TenantDb.empty with
        products :=
          ⟨[{ id := "p1"
              name := "Mug"
              description := none
              price := ⟨650, by decide, by decide⟩
              stock := ⟨4, by decide, by decide⟩
              createdAt := 7 }], by decide⟩ }
  orderProcessing := []
  orderCompleted := []

/- The claim for every page that may be asked for. -/
def ShowsReportedRows : Prop :=
  ∀ (store : Backend) (name tenantCode : String)
    (page perPage : Nat) (choices : Nat → Choice)
    (db : TenantDb) (response : Page Product),
    store.dbs name = some db → 1 ≤ page → 1 ≤ perPage →
    perPage ≤ 100 →
    ((findAll name tenantCode page perPage).complete
      execAlone choices store).1 = .ok response →
    response.data = reportedRows db response

/- The second page of one product, reported as the first. -/
theorem not_showsReportedRows : ¬ ShowsReportedRows := by
  intro hClaim
  have hShown :=
    hClaim oneMug "tenant_acme" "acme" 2 10 answering _ _ rfl
      (by decide) (by decide) (by decide) rfl
  exact absurd hShown (by decide +kernel)

theorem data_eq_reportedRows_iff_of_oneMug :
    ∃ db response,
      oneMug.dbs "tenant_acme" = some db ∧
      ((findAll "tenant_acme" "acme" 1 10).complete execAlone
        answering oneMug).1 = .ok response ∧
      (response.data = reportedRows db response ↔
        1 ≤ totalPages db.products.rows.length 10 ∨
          db.products.rows = []) :=
  ⟨_, _, rfl, rfl,
    data_eq_reportedRows_iff rfl (by decide) (by decide)
      (rfl :
        ((findAll "tenant_acme" "acme" 1 10).complete
          execAlone answering oneMug).1 = .ok _)⟩

end ProductService

end OrderApi
