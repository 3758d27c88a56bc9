import OrderApi.Core.Events
import OrderApi.Core.Infix
import OrderApi.Model.StoreEffects
import OrderApi.Product.ProductService

/-
  How a missing tenant database is reported.

  The catch blocks tell by the text of an error whether the
  database is missing.  Some lookups stand in front of the
  blocks, and some errors of the handlers' own inside.

  Key definitions include:
    * `TenantRequest`, `TenantRequest.handler`
    * `Classifies`
    * `ReportsRight`
    * `TenantRequest.Fits`

  Key theorems include:
    * `onlyAfter_handler`
    * `told_handler`
    * `reportsRight_iff`
-/

------------------------------------------------------------
-- Requests on a Tenant Database
------------------------------------------------------------

namespace OrderApi

/- The operations of the two services with a tenant code. -/
inductive TenantRequest where
  | findProducts (page perPage : Nat)
  | findProduct (id : String)
  | updateProduct
      (id : String)
      (updateProductDto : UpdateProductDto)
  | removeProduct (id : String)
  | createOrder (userId : String)
  | addItemToOrder
      (orderId userId : String)
      (addItemDto : AddItemDto)
  | checkoutOrder (orderId userId : String)
  | paymentReceived (orderId userId : String)
  | completeOrder (orderId userId : String)

namespace TenantRequest

/- What serves a request; only its error is of interest. -/
def handler (db tenantCode : String) :
    TenantRequest → Handler Unit
  | .findProducts page perPage =>
      (ProductService.findAll db tenantCode page
        perPage).ignore
  | .findProduct id =>
      (ProductService.findOne db id tenantCode).ignore
  | .updateProduct id updateProductDto =>
      (ProductService.update db id updateProductDto
        tenantCode).ignore
  | .removeProduct id =>
      (ProductService.remove db id tenantCode).ignore
  | .createOrder userId =>
      (OrderService.createOrder db userId tenantCode).ignore
  | .addItemToOrder orderId userId addItemDto =>
      (OrderService.addItemToOrder db orderId userId
        addItemDto tenantCode).ignore
  | .checkoutOrder orderId userId =>
      (OrderService.checkoutOrder db orderId userId
        tenantCode).ignore
  | .paymentReceived orderId userId =>
      (OrderService.paymentReceived db orderId userId
        tenantCode).ignore
  | .completeOrder orderId userId =>
      (OrderService.completeOrder db orderId userId
        tenantCode).ignore

/- The first call stands inside a `try`. -/
def guarded : TenantRequest → Bool
  | .findProducts _ _ => true
  | .findProduct _ => true
  | .updateProduct _ _ => true
  | .removeProduct _ => true
  | .createOrder _ => true
  | .addItemToOrder _ _ _ => false
  | .checkoutOrder _ _ => false
  | .paymentReceived _ _ => false
  | .completeOrder _ _ => false

/- The product that `ProductService.findOne` looks up. -/
def lookup? : TenantRequest → Option String
  | .findProduct id => some id
  | .updateProduct id _ => some id
  | .removeProduct id => some id
  | _ => none

end TenantRequest

/- The outcome of a request that runs to its end. -/
def TenantRequest.outcome
    (request : TenantRequest)
    (db tenantCode : String)
    (choices : Nat → Choice)
    (store : Backend) : Except ApiError Unit :=
  ((request.handler db tenantCode).complete execAlone choices
    store).1

/-
  The store fails with a message that says `does not exist`
  exactly when the database is missing.
-/
def Classifies
    (db : String)
    (choices : Nat → Choice)
    (store : Backend) : Prop :=
  ∀ n message, choices n = .failure message →
    (includes message "does not exist" = true ↔
      store.dbs db = none)

/- A lookup in a database answers that the id is unknown. -/
def FindsNone (db id : String) :
    (op : StoreOp) → Except ApiError op.Res → Prop
  | .tenant name (.productFindUnique id'), answer =>
      name = db ∧ id' = id ∧ answer = .ok none
  | _, _ => False

/-
  A missing database is reported, and nothing else is; and
  an unknown product is reported as such.
-/
def ReportsRight
    (request : TenantRequest)
    (db tenantCode : String)
    (choices : Nat → Choice)
    (store : Backend) : Prop :=
  (request.outcome db tenantCode choices store =
      .error (tenantDatabaseMissing tenantCode) ↔
    store.dbs db = none) ∧
  ∀ id,
    Program.Meets execAlone (FindsNone db id)
        (request.handler db tenantCode) choices store →
      request.outcome db tenantCode choices store =
        .error
          ⟨.notFound, OrderService.productNotFound id⟩

/- The first call looks up a product, and finds none. -/
def LookupFails
    (db id : String)
    (choices : Nat → Choice)
    (store : Backend) : Prop :=
  (∃ tick, choices 0 = .answer tick) ∧
    ∃ tenantDb,
      store.dbs db = some tenantDb ∧
        tenantDb.products.find? id = none

/-
  Without a `try` around the first call, the database has to
  be there.  Else no unknown id may read like an error about
  a missing database.
-/
def TenantRequest.Fits
    (request : TenantRequest)
    (db : String)
    (choices : Nat → Choice)
    (store : Backend) : Prop :=
  (request.guarded = false → store.dbs db ≠ none) ∧
    ∀ id, request.lookup? = some id →
      includes id "does not exist" = true →
        ¬ LookupFails db id choices store

end OrderApi

------------------------------------------------------------
-- Texts of Errors
------------------------------------------------------------

namespace OrderApi

/- The report itself says that the database is missing. -/
theorem includes_tenantDatabaseMissing
    (tenantCode : String) :
    includes (tenantDatabaseMissing tenantCode).message
      "does not exist" = true := by
  have hText :
      "does not exist".toList <:+:
        "' does not exist. Please ensure the tenant is ".toList
        := by
    decide
  unfold includes tenantDatabaseMissing
  rw [decide_eq_true_iff]
  simp only [String.toList_append]
  apply List.infix_append_of_infix_left
  exact List.infix_append_of_infix_right hText

/- So does the error of a call on a missing database. -/
theorem includes_databaseMissing
    (name : String) :
    includes (databaseMissing name) "does not exist" =
      true := by
  have hText :
      "does not exist".toList <:+:
        "\x60 does not exist on the database server.".toList
        := by
    decide
  unfold includes databaseMissing
  rw [decide_eq_true_iff]
  simp only [String.toList_append]
  exact List.infix_append_of_infix_right hText

/- An unknown product reads so only if its id does. -/
theorem includes_productNotFound
    (id : String) :
    includes (OrderService.productNotFound id)
      "does not exist" = includes id "does not exist" := by
  have hFront :
      ∀ left ∈ "does not exist".toList.inits,
        left <:+ "Product with ID ".toList → left = [] := by
    decide
  have hBack :
      ∀ right ∈ "does not exist".toList.tails,
        right <+: " not found".toList → right = [] := by
    decide
  have hNotFront :
      ¬ "does not exist".toList <:+:
        "Product with ID ".toList := by
    decide
  have hNotBack :
      ¬ "does not exist".toList <:+: " not found".toList := by
    decide
  unfold includes OrderService.productNotFound
  rw [decide_eq_decide, String.toList_append,
    String.toList_append, infix_append_of_apart_right hBack,
    infix_append_of_apart hFront]
  simp only [hNotFront, hNotBack, false_or, or_false]

/- The messages of calls that a database refuses. -/
def refusals : List String :=
  [uniqueViolated, foreignKeyViolated, recordNotFound,
    valueOutOfRange]

/- An outcome is no error, or one of these. -/
def Refuses
    {α : Type}
    (outcome : Except String α) : Prop :=
  ∀ message, outcome = .error message → message ∈ refusals

theorem refuses_ok
    {α : Type}
    (value : α) :
    Refuses (.ok value : Except String α) := by
  intro message hSame
  cases hSame

theorem refuses_error
    {α : Type}
    {message : String}
    (hMessage : message ∈ refusals) :
    Refuses (.error message : Except String α) := by
  intro message' hSame
  cases hSame
  exact hMessage

theorem refuses_columnValue
    {low high : Int}
    (old : Bounded low high)
    (new : Option Int) :
    Refuses (columnValue old new) := by
  unfold columnValue
  split
  · exact refuses_ok _
  · split
    · exact refuses_error (by simp [refusals])
    · exact refuses_ok _

/- So is every outcome of a call on a database. -/
theorem TenantOp.refuses_exec
    (tick : Tick)
    (tenantDb : TenantDb)
    (op : TenantOp) :
    Refuses (op.exec tick tenantDb) := by
  unfold TenantOp.exec
  split
  all_goals try dsimp only
  all_goals repeat' split
  all_goals first
    | exact refuses_ok _
    | (apply refuses_error
       apply refuses_columnValue
       assumption)
    | exact refuses_error (by simp [refusals])

/- None of them says that the database is missing. -/
theorem not_includes_of_refusal :
    ∀ message ∈ refusals,
      includes message "does not exist" = false := by
  decide +kernel

end OrderApi

------------------------------------------------------------
-- Calls on a Database
------------------------------------------------------------

namespace OrderApi

variable {db tenantCode id : String}
variable {choices : Nat → Choice} {store : Backend}

/- A call fails with a text on a missing database. -/
def FailsAsMissing
    (db : String)
    (op : StoreOp)
    (answer : Except ApiError op.Res) : Prop :=
  (∃ tenantOp, op = .tenant db tenantOp) ∧
    ∃ error,
      answer = .error error ∧
        includes error.message "does not exist" = true

/- On a missing database, every call fails so. -/
theorem execAlone_of_missing
    (hClassifies : Classifies db choices store)
    (hMissing : store.dbs db = none)
    (op : TenantOp) :
    ∃ message,
      execAlone (choices 0) (.tenant db op) store =
          (.error (storeError message), store) ∧
        includes message "does not exist" = true := by
  unfold execAlone
  cases hChoice : choices 0 with
  | failure message =>
      exact
        ⟨message, rfl,
          (hClassifies 0 message hChoice).mpr hMissing⟩
  | answer tick =>
      refine
        ⟨databaseMissing db, ?_, includes_databaseMissing db⟩
      simp only [StoreOp.exec, hMissing]

/- On a database that exists, no call does. -/
theorem not_failsAsMissing_of_exists
    (hClassifies : Classifies db choices store)
    (hExists : store.dbs db ≠ none)
    (n : Nat)
    (op : StoreOp)
    {store' : Backend}
    (hStill : store'.dbs db ≠ none) :
    ¬ FailsAsMissing db op
      (execAlone (choices n) op store').1 := by
  rintro ⟨⟨tenantOp, rfl⟩, error, hError, hText⟩
  rcases Option.ne_none_iff_exists'.mp hStill with
    ⟨tenantDb, hDb⟩
  unfold execAlone at hError
  cases hChoice : choices n with
  | failure message =>
      rw [hChoice] at hError
      cases hError
      exact
        hExists ((hClassifies n message hChoice).mp hText)
  | answer tick =>
      rw [hChoice] at hError
      cases hExec : tenantOp.exec tick tenantDb with
      | error message =>
          simp only [StoreOp.exec, hDb, hExec] at hError
          cases hError
          have hNot :=
            not_includes_of_refusal message
              (TenantOp.refuses_exec tick tenantDb tenantOp
                message hExec)
          simp only [storeError, hNot] at hText
          cases hText
      | ok result =>
          simp only [StoreOp.exec, hDb, hExec] at hError
          cases hError

/- And a database that exists stays. -/
theorem dbs_ne_none_of_execAlone
    (choice : Choice)
    (op : StoreOp)
    (hExists : store.dbs db ≠ none) :
    (execAlone choice op store).2.dbs db ≠ none := by
  unfold execAlone
  rcases StoreOp.exec_dbs_cases
      (Prod.eta (op.exec choice store)).symm with
    hSame | ⟨name, _, _, _, db', _, _, _, _, _, _, hStore⟩
  · rwa [hSame]
  · rw [hStore]
    by_cases hName : db = name
    · subst hName
      simp [Backend.put]
    · rwa [Backend.put_dbs_other hName]

/- When the first lookup of a product finds none. -/
theorem findsNone_execAlone_iff
    {id' : String} :
    FindsNone db id' (.tenant db (.productFindUnique id))
        (execAlone (choices 0)
          (.tenant db (.productFindUnique id)) store).1 ↔
      id = id' ∧ LookupFails db id choices store := by
  unfold execAlone FindsNone LookupFails
  cases hChoice : choices 0 with
  | failure message => simp [StoreOp.exec]
  | answer tick =>
      cases hDb : store.dbs db with
      | none => simp [StoreOp.exec, hDb]
      | some tenantDb =>
          simp [StoreOp.exec, hDb, TenantOp.exec]

end OrderApi

------------------------------------------------------------
-- After What the Report Comes
------------------------------------------------------------

namespace OrderApi

open Program

variable {db tenantCode : String}
variable {α β : Type}
variable
  {Event : (op : StoreOp) → Except ApiError op.Res → Prop}

/- A handler reports only after an event. -/
def OnlyAfter
    (Event : (op : StoreOp) → Except ApiError op.Res → Prop)
    (tenantCode : String)
    (program : Handler α) : Prop :=
  ∀ seen,
    Conforms (noting Event)
      (fun outcome seen' =>
        outcome = .error (tenantDatabaseMissing tenantCode) →
          seen')
      program seen

/- It throws a text on a missing database only so. -/
def TextOnlyAfter
    (Event : (op : StoreOp) → Except ApiError op.Res → Prop)
    (program : Handler α) : Prop :=
  ∀ seen,
    Conforms (noting Event)
      (fun outcome seen' =>
        ∀ error, outcome = .error error →
          includes error.message "does not exist" = true →
            seen')
      program seen

theorem TextOnlyAfter.onlyAfter
    {program : Handler α}
    (hText : TextOnlyAfter Event program) :
    OnlyAfter Event tenantCode program := by
  intro seen
  apply (hText seen).mono
  intro outcome seen' hOutcome hReport
  exact
    hOutcome _ hReport
      (includes_tenantDatabaseMissing tenantCode)

theorem onlyAfter_done (value : α) :
    OnlyAfter Event tenantCode (.done value) := by
  intro seen hReport
  cases hReport

theorem onlyAfter_bind
    {program : Handler α}
    {next : α → Handler β}
    (hFirst : OnlyAfter Event tenantCode program)
    (hNext : ∀ value, OnlyAfter Event tenantCode (next value)) :
    OnlyAfter Event tenantCode (program.bind next) := by
  intro seen
  apply conforms_bind
  apply (hFirst seen).mono
  intro outcome seen' hOutcome
  cases outcome with
  | ok value => exact hNext value seen'
  | error error =>
      intro hReport
      cases hReport
      exact hOutcome rfl

theorem onlyAfter_ignore
    {program : Handler α}
    (hFirst : OnlyAfter Event tenantCode program) :
    OnlyAfter Event tenantCode program.ignore :=
  onlyAfter_bind hFirst fun _ => onlyAfter_done ()

theorem onlyAfter_forEach
    {body : β → Handler Unit}
    (hBody : ∀ item, OnlyAfter Event tenantCode (body item))
    (items : List β) :
    OnlyAfter Event tenantCode (forEach items body) := by
  induction items with
  | nil => exact onlyAfter_done ()
  | cons item items ih =>
      exact onlyAfter_bind (hBody item) fun _ => ih

/- The report is the only bad request that begins so. -/
theorem onlyAfter_raise
    {kind : ErrorKind}
    {message : String}
    (hOther :
      kind = .badRequest → message.toList.head? ≠ some 'T') :
    OnlyAfter Event tenantCode
      (raise kind message : Handler α) := by
  intro seen hReport
  unfold tenantDatabaseMissing at hReport
  cases hReport
  exact (hOther rfl (by simp)).elim

/- A catch block reports what its body throws with the text. -/
theorem onlyAfter_mapMissingDatabase
    {program : Handler α}
    (hText : TextOnlyAfter Event program) :
    OnlyAfter Event tenantCode
      (mapMissingDatabase tenantCode program) := by
  intro seen
  apply conforms_attempt
  apply (hText seen).mono
  intro outcome seen' hOutcome
  cases outcome with
  | ok value =>
      intro hReport
      cases hReport
  | error error =>
      dsimp only
      by_cases hMentions :
          includes error.message "does not exist" = true
      · rw [if_pos hMentions]
        exact fun _ => hOutcome error rfl hMentions
      · rw [if_neg hMentions]
        intro hReport
        cases hReport
        exact
          (hMentions
            (includes_tenantDatabaseMissing tenantCode)).elim

theorem textOnlyAfter_done (value : α) :
    TextOnlyAfter Event (.done value : Handler α) := by
  intro seen error hError
  cases hError

theorem textOnlyAfter_bind
    {program : Handler α}
    {next : α → Handler β}
    (hFirst : TextOnlyAfter Event program)
    (hNext : ∀ value, TextOnlyAfter Event (next value)) :
    TextOnlyAfter Event (program.bind next) := by
  intro seen
  apply conforms_bind
  apply (hFirst seen).mono
  intro outcome seen' hOutcome
  cases outcome with
  | ok value => exact hNext value seen'
  | error error =>
      intro error' hError
      cases hError
      exact hOutcome error rfl

theorem textOnlyAfter_prisma
    (hFails :
      ∀ op answer, FailsAsMissing db op answer → Event op answer)
    (op : TenantOp) :
    TextOnlyAfter Event (prisma db op) := by
  intro seen
  apply conforms_perform
  intro answer
  refine ⟨_, rfl, ?_⟩
  intro error hError hMentions
  exact
    Or.inr
      (hFails _ _ ⟨⟨op, rfl⟩, error, hError, hMentions⟩)

theorem onlyAfter_prisma
    (hFails :
      ∀ op answer, FailsAsMissing db op answer → Event op answer)
    (op : TenantOp) :
    OnlyAfter Event tenantCode (prisma db op) :=
  (textOnlyAfter_prisma hFails op).onlyAfter

theorem onlyAfter_guarded
    (hFails :
      ∀ op answer, FailsAsMissing db op answer → Event op answer)
    (op : TenantOp) :
    OnlyAfter Event tenantCode
      (mapMissingDatabase tenantCode (prisma db op)) :=
  onlyAfter_mapMissingDatabase
    (textOnlyAfter_prisma hFails op)

/-
  The lookup of a product has its own error inside the catch
  block, and that may have the text by way of the id.
-/
theorem onlyAfter_findOne
    (hFails :
      ∀ op answer, FailsAsMissing db op answer → Event op answer)
    {id : String}
    (hNone :
      includes id "does not exist" = true →
        ∀ op answer, FindsNone db id op answer →
          Event op answer) :
    OnlyAfter Event tenantCode
      (ProductService.findOne db id tenantCode) := by
  apply onlyAfter_mapMissingDatabase
  intro seen
  apply conforms_bind
  apply conforms_perform
  intro answer
  refine ⟨_, rfl, ?_⟩
  cases answer with
  | error error =>
      intro error' hError hMentions
      cases hError
      exact
        Or.inr
          (hFails _ _ ⟨⟨_, rfl⟩, error, rfl, hMentions⟩)
  | ok found =>
      cases found with
      | some product =>
          intro error hError
          cases hError
      | none =>
          intro error hError hMentions
          cases hError
          rw [includes_productNotFound] at hMentions
          exact Or.inr (hNone hMentions _ _ ⟨rfl, rfl, rfl⟩)

/- An item is saved behind a catch block, in either way. -/
theorem onlyAfter_saveItem
    (hFails :
      ∀ op answer, FailsAsMissing db op answer → Event op answer)
    (orderId : String)
    (addItemDto : AddItemDto)
    (product : Product)
    (existingItem : Option OrderItem) :
    OnlyAfter Event tenantCode
      (OrderService.saveItem db orderId addItemDto tenantCode
        product existingItem) := by
  unfold OrderService.saveItem
  split
  · exact onlyAfter_guarded hFails _
  · exact onlyAfter_guarded hFails _

theorem onlyAfter_recalculateOrderTotal
    (hFails :
      ∀ op answer, FailsAsMissing db op answer → Event op answer)
    (orderId : String) :
    OnlyAfter Event tenantCode
      (OrderService.recalculateOrderTotal db orderId) := by
  apply onlyAfter_bind (onlyAfter_prisma hFails _)
  intro items
  apply onlyAfter_bind (onlyAfter_prisma hFails _)
  intro order
  exact onlyAfter_done ()

theorem onlyAfter_checkStock
    (hFails :
      ∀ op answer, FailsAsMissing db op answer → Event op answer)
    (item : OrderItem) :
    OnlyAfter Event tenantCode
      (OrderService.checkStock db tenantCode item) := by
  apply onlyAfter_bind (onlyAfter_guarded hFails _)
  intro found
  cases found with
  | none => exact onlyAfter_raise (by simp)
  | some product =>
      dsimp only
      split_ifs
      · exact onlyAfter_raise (by simp)
      · exact onlyAfter_done ()

/- The event after which a request may report. -/
def TenantRequest.Misleads
    (request : TenantRequest)
    (db : String)
    (op : StoreOp)
    (answer : Except ApiError op.Res) : Prop :=
  FailsAsMissing db op answer ∨
    ∃ id, (request.lookup? = some id ∧
      includes id "does not exist" = true) ∧
        FindsNone db id op answer

/- Only after it, a request reports a missing database. -/
theorem onlyAfter_handler
    (request : TenantRequest)
    (db tenantCode : String) :
    OnlyAfter (request.Misleads db) tenantCode
      (request.handler db tenantCode) := by
  have hFails :
      ∀ op answer, FailsAsMissing db op answer →
        request.Misleads db op answer :=
    fun _ _ hAnswer => Or.inl hAnswer
  have hNone :
      ∀ id, request.lookup? = some id →
        includes id "does not exist" = true →
          ∀ op answer, FindsNone db id op answer →
            request.Misleads db op answer :=
    fun id hLookup hMentions _ _ hAnswer =>
      Or.inr ⟨id, ⟨hLookup, hMentions⟩, hAnswer⟩
  cases request with
  | findProducts page perPage =>
      apply onlyAfter_ignore
      apply onlyAfter_mapMissingDatabase
      apply textOnlyAfter_bind (textOnlyAfter_prisma hFails _)
      intro total
      apply textOnlyAfter_bind (textOnlyAfter_prisma hFails _)
      intro data
      exact textOnlyAfter_done _
  | findProduct id =>
      apply onlyAfter_ignore
      exact onlyAfter_findOne hFails (hNone id rfl)
  | updateProduct id updateProductDto =>
      apply onlyAfter_ignore
      apply onlyAfter_bind
      · exact onlyAfter_findOne hFails (hNone id rfl)
      · intro product
        exact onlyAfter_guarded hFails _
  | removeProduct id =>
      apply onlyAfter_ignore
      apply onlyAfter_bind
      · exact onlyAfter_findOne hFails (hNone id rfl)
      · intro product
        exact onlyAfter_guarded hFails _
  | createOrder userId =>
      apply onlyAfter_ignore
      exact onlyAfter_guarded hFails _
  | addItemToOrder orderId userId addItemDto =>
      apply onlyAfter_ignore
      apply onlyAfter_bind (onlyAfter_prisma hFails _)
      intro found
      cases found with
      | none => exact onlyAfter_raise (by simp)
      | some order =>
          dsimp only
          split_ifs
          · exact onlyAfter_raise (by simp)
          · exact onlyAfter_raise (by decide)
          · apply onlyAfter_bind (onlyAfter_guarded hFails _)
            intro found
            cases found with
            | none => exact onlyAfter_raise (by simp)
            | some product =>
                dsimp only
                split_ifs
                · exact onlyAfter_raise (by simp)
                · apply onlyAfter_bind
                    (onlyAfter_prisma hFails _)
                  intro existingItem
                  apply onlyAfter_bind
                    (onlyAfter_saveItem hFails _ _ _ _)
                  intro orderItem
                  apply onlyAfter_bind
                    (onlyAfter_recalculateOrderTotal hFails _)
                  intro _
                  exact onlyAfter_done _
  | checkoutOrder orderId userId =>
      apply onlyAfter_ignore
      apply onlyAfter_bind (onlyAfter_prisma hFails _)
      intro found
      rcases found with _ | ⟨order, items⟩
      · exact onlyAfter_raise (by simp)
      · dsimp only
        split_ifs
        · exact onlyAfter_raise (by simp)
        · exact onlyAfter_raise (by decide)
        · exact onlyAfter_raise (by decide)
        · apply onlyAfter_bind
            (onlyAfter_forEach
              (onlyAfter_checkStock hFails) items)
          intro _
          exact onlyAfter_guarded hFails _
  | paymentReceived orderId userId =>
      apply onlyAfter_ignore
      apply onlyAfter_bind (onlyAfter_prisma hFails _)
      intro found
      rcases found with _ | ⟨order, items⟩
      · exact onlyAfter_raise (by simp)
      · dsimp only
        split_ifs
        · exact onlyAfter_raise (by simp)
        · exact onlyAfter_raise (by decide)
        · apply onlyAfter_bind
          · apply onlyAfter_forEach
            intro item
            exact
              onlyAfter_ignore (onlyAfter_guarded hFails _)
          · intro _
            exact onlyAfter_guarded hFails _
  | completeOrder orderId userId =>
      apply onlyAfter_ignore
      apply onlyAfter_bind (onlyAfter_prisma hFails _)
      intro found
      cases found with
      | none => exact onlyAfter_raise (by simp)
      | some order =>
          dsimp only
          split_ifs
          · exact onlyAfter_raise (by simp)
          · exact onlyAfter_raise (by decide)
          · exact onlyAfter_guarded hFails _

end OrderApi

------------------------------------------------------------
-- What an Unknown Product Leads to
------------------------------------------------------------

namespace OrderApi

open Program

variable {db tenantCode id : String} {α β : Type}

/- Finding no product ends a handler with just this error. -/
def Told
    (db id : String)
    (program : Handler α) : Prop :=
  Conforms (noting (FindsNone db id))
    (fun outcome seen =>
      seen →
        outcome =
          .error
            ⟨.notFound, OrderService.productNotFound id⟩)
    program False

/- Calls that look up no product. -/
def NoLookup : StoreOp → Prop
  | .tenant _ (.productFindUnique _) => False
  | _ => True

theorem not_findsNone_of_noLookup
    (op : StoreOp)
    (answer : Except ApiError op.Res)
    (hOp : NoLookup op) :
    ¬ FindsNone db id op answer := by
  unfold FindsNone
  split
  · exact hOp.elim
  · exact fun hNone => hNone

theorem told_of_calls
    {program : Handler α}
    (hCalls : Calls NoLookup program) :
    Told db id program := by
  have hConforms :
      Conforms (noting (FindsNone db id))
        (fun _ seen => seen = False) program False := by
    apply hCalls.conforms
    intro op answer hOp
    have hNot :=
      @not_findsNone_of_noLookup db id op answer hOp
    simp only [noting, hNot, or_false]
  apply Conforms.mono hConforms
  intro outcome seen hSeen hHolds
  rw [hSeen] at hHolds
  exact hHolds.elim

theorem told_bind
    {program : Handler α}
    {next : α → Handler β}
    (hFirst : Told db id program)
    (hNext : ∀ value, Told db id (next value)) :
    Told db id (program.bind next) := by
  apply conforms_bind
  apply Conforms.mono hFirst
  intro outcome seen hOutcome
  cases outcome with
  | ok value =>
      have hUnseen : seen = False := by
        refine eq_false fun hSeen => ?_
        cases hOutcome hSeen
      rw [hUnseen]
      exact hNext value
  | error error =>
      intro hSeen
      cases hOutcome hSeen
      rfl

theorem told_ignore
    {program : Handler α}
    (hFirst : Told db id program) :
    Told db id program.ignore :=
  told_bind hFirst fun _ => told_of_calls (calls_done ())

theorem told_forEach
    {body : β → Handler Unit}
    (hBody : ∀ item, Told db id (body item))
    (items : List β) :
    Told db id (forEach items body) := by
  induction items with
  | nil => exact told_of_calls (calls_done ())
  | cons item items ih =>
      exact told_bind (hBody item) fun _ => ih

theorem seen_lookup_iff
    {id' : String}
    {answer : Except ApiError (Option Product)} :
    (False ∨
      FindsNone db id (.tenant db (.productFindUnique id'))
        answer) ↔
      id' = id ∧ answer = .ok none := by
  simp only [FindsNone, true_and, false_or]

/- A lookup in a catch block: the event comes with `none`. -/
theorem conforms_guarded_lookup
    (db tenantCode id id' : String) :
    Conforms (noting (FindsNone db id))
      (fun outcome seen =>
        seen → id' = id ∧ outcome = .ok none)
      (mapMissingDatabase tenantCode
        (prisma db (.productFindUnique id')))
      False := by
  apply conforms_attempt
  apply conforms_perform
  intro answer
  refine ⟨_, rfl, ?_⟩
  cases answer with
  | ok found => exact seen_lookup_iff.mp
  | error error =>
      dsimp only
      split
      · intro hSeen
        cases (seen_lookup_iff.mp hSeen).2
      · intro hSeen
        cases (seen_lookup_iff.mp hSeen).2

/- The same with the error for an unknown product behind it. -/
theorem told_guarded_lookup
    {id' : String}
    {next : Option Product → Handler α}
    (hNone :
      next none =
        raise .notFound (OrderService.productNotFound id'))
    (hSome : ∀ product, Told db id (next (some product))) :
    Told db id
      ((mapMissingDatabase tenantCode
        (prisma db (.productFindUnique id'))).bind next) := by
  apply conforms_bind
  apply (conforms_guarded_lookup db tenantCode id id').mono
  intro outcome seen hOutcome
  rcases outcome with error | found
  · intro hSeen
    cases (hOutcome hSeen).2
  · cases found with
    | none =>
        dsimp only
        rw [hNone]
        intro hSeen
        rw [(hOutcome hSeen).1]
    | some product =>
        have hUnseen : seen = False := by
          refine eq_false fun hSeen => ?_
          cases (hOutcome hSeen).2
        rw [hUnseen]
        exact hSome product

/- Inside the block, the id must not have the text. -/
theorem told_findOne
    {id' : String}
    (hReads : id' = id → includes id "does not exist" = false) :
    Told db id
      (ProductService.findOne db id' tenantCode) := by
  apply conforms_attempt
  apply conforms_bind
  apply conforms_perform
  intro answer
  refine ⟨_, rfl, ?_⟩
  rcases answer with error | _ | product
  · dsimp only
    split
    · intro hSeen
      cases (seen_lookup_iff.mp hSeen).2
    · intro hSeen
      cases (seen_lookup_iff.mp hSeen).2
  · simp only [raise, conforms_fail]
    split
    · rename_i hText
      intro hSeen
      have hId := (seen_lookup_iff.mp hSeen).1
      rw [includes_productNotFound, hId, hReads hId] at hText
      cases hText
    · intro hSeen
      rw [(seen_lookup_iff.mp hSeen).1]
  · intro hSeen
    cases (seen_lookup_iff.mp hSeen).2

/- Handlers look up no product with their other calls. -/
theorem calls_guarded
    {op : TenantOp}
    (hOp : NoLookup (.tenant db op)) :
    Calls NoLookup
      (mapMissingDatabase tenantCode (prisma db op)) := by
  apply calls_attempt (calls_perform hOp)
  intro error
  split
  · exact calls_fail _
  · exact calls_fail _

theorem told_guarded
    {op : TenantOp}
    (hOp : NoLookup (.tenant db op)) :
    Told db id
      (mapMissingDatabase tenantCode (prisma db op)) :=
  told_of_calls (calls_guarded hOp)

theorem told_prisma
    {op : TenantOp}
    (hOp : NoLookup (.tenant db op)) :
    Told db id (prisma db op) :=
  told_of_calls (calls_perform hOp)

theorem told_prisma_bind
    {op : TenantOp}
    {next : op.Res → Handler α}
    (hNext : ∀ value, Told db id (next value))
    (hOp : NoLookup (.tenant db op)) :
    Told db id ((prisma db op).bind next) :=
  told_bind (told_prisma hOp) hNext

theorem told_raise
    {kind : ErrorKind}
    {message : String} :
    Told db id (raise kind message : Handler α) :=
  told_of_calls (calls_fail _)

theorem told_done (value : α) :
    Told db id (.done value : Handler α) :=
  told_of_calls (calls_done value)

theorem told_checkStock (item : OrderItem) :
    Told db id
      (OrderService.checkStock db tenantCode item) := by
  apply told_guarded_lookup rfl
  intro product
  dsimp only
  split_ifs
  · exact told_raise
  · exact told_done ()

theorem told_saveItem
    (orderId : String)
    (addItemDto : AddItemDto)
    (product : Product)
    (existingItem : Option OrderItem) :
    Told db id
      (OrderService.saveItem db orderId addItemDto tenantCode
        product existingItem) := by
  unfold OrderService.saveItem
  split
  · exact told_guarded trivial
  · exact told_guarded trivial

theorem told_recalculateOrderTotal (orderId : String) :
    Told db id
      (OrderService.recalculateOrderTotal db orderId) := by
  refine told_prisma_bind (fun items => ?_) trivial
  refine told_prisma_bind (fun order => ?_) trivial
  exact told_done ()

/-
  A request that finds no product says so, unless it is the
  lookup of an id with the text.
-/
theorem told_handler
    (request : TenantRequest)
    (db tenantCode : String)
    {id : String}
    (hReads :
      request.lookup? = some id →
        includes id "does not exist" = false) :
    Told db id (request.handler db tenantCode) := by
  have hFound :
      ∀ id', request.lookup? = some id' →
        Told db id
          (ProductService.findOne db id' tenantCode) := by
    intro id' hLookup
    apply told_findOne
    intro hId
    rw [hId] at hLookup
    exact hReads hLookup
  cases request with
  | findProducts page perPage =>
      apply told_ignore
      apply told_of_calls
      apply calls_attempt
      · apply calls_bind (calls_perform trivial)
        intro total
        apply calls_bind (calls_perform trivial)
        intro data
        exact calls_done _
      · intro error
        split
        · exact calls_fail _
        · exact calls_fail _
  | findProduct id' => exact told_ignore (hFound id' rfl)
  | updateProduct id' updateProductDto =>
      apply told_ignore
      apply told_bind (hFound id' rfl)
      intro product
      exact told_guarded trivial
  | removeProduct id' =>
      apply told_ignore
      apply told_bind (hFound id' rfl)
      intro product
      exact told_guarded trivial
  | createOrder userId =>
      exact told_ignore (told_guarded trivial)
  | addItemToOrder orderId userId addItemDto =>
      apply told_ignore
      refine told_prisma_bind (fun found => ?_) trivial
      cases found with
      | none => exact told_raise
      | some order =>
          dsimp only
          split_ifs
          · exact told_raise
          · exact told_raise
          · apply told_guarded_lookup rfl
            intro product
            dsimp only
            split_ifs
            · exact told_raise
            · refine told_prisma_bind (fun existingItem => ?_) trivial
              apply told_bind (told_saveItem _ _ _ _)
              intro orderItem
              apply told_bind (told_recalculateOrderTotal _)
              intro _
              exact told_done _
  | checkoutOrder orderId userId =>
      apply told_ignore
      refine told_prisma_bind (fun found => ?_) trivial
      rcases found with _ | ⟨order, items⟩
      · exact told_raise
      · dsimp only
        split_ifs
        · exact told_raise
        · exact told_raise
        · exact told_raise
        · apply told_bind (told_forEach told_checkStock items)
          intro _
          exact told_guarded trivial
  | paymentReceived orderId userId =>
      apply told_ignore
      refine told_prisma_bind (fun found => ?_) trivial
      rcases found with _ | ⟨order, items⟩
      · exact told_raise
      · dsimp only
        split_ifs
        · exact told_raise
        · exact told_raise
        · apply told_bind
          · apply told_forEach
            intro item
            exact told_ignore (told_guarded trivial)
          · intro _
            exact told_guarded trivial
  | completeOrder orderId userId =>
      apply told_ignore
      refine told_prisma_bind (fun found => ?_) trivial
      cases found with
      | none => exact told_raise
      | some order =>
          dsimp only
          split_ifs
          · exact told_raise
          · exact told_raise
          · exact told_guarded trivial

end OrderApi

------------------------------------------------------------
-- First Calls
------------------------------------------------------------

namespace OrderApi

open Program

variable {db tenantCode id : String}
variable {choices : Nat → Choice} {store : Backend}

/- The call of a lookup, and what the catch block reports. -/
theorem findOne_eq_call
    (db id tenantCode : String) :
    ∃ resume,
      ProductService.findOne db id tenantCode =
          .call (.tenant db (.productFindUnique id)) resume ∧
        (∀ answer, Calls NoLookup (resume answer)) ∧
        (∀ error : ApiError,
          includes error.message "does not exist" = true →
            resume (.error error) =
              .fail (tenantDatabaseMissing tenantCode)) ∧
        (includes id "does not exist" = true →
          resume (.ok none) =
            .fail (tenantDatabaseMissing tenantCode)) := by
  refine ⟨_, rfl, ?_, fun error hText => if_pos hText, ?_⟩
  · intro answer
    apply calls_attempt
    · rcases answer with error | _ | product
      · exact calls_fail _
      · exact calls_fail _
      · exact calls_done _
    · intro error
      split
      · exact calls_fail _
      · exact calls_fail _
  · intro hText
    rw [← includes_productNotFound] at hText
    exact if_pos hText

/- The requests that look up a product begin with that. -/
theorem handler_eq_findOne
    {request : TenantRequest}
    (db tenantCode : String)
    (hLookup : request.lookup? = some id) :
    ∃ next,
      request.handler db tenantCode =
          (ProductService.findOne db id tenantCode).bind
            next ∧
        ∀ product, Calls NoLookup (next product) := by
  cases request with
  | findProduct id' =>
      cases hLookup
      exact ⟨_, rfl, fun _ => calls_done ()⟩
  | updateProduct id' updateProductDto =>
      cases hLookup
      refine ⟨_, bind_assoc _ _ _, fun product => ?_⟩
      exact
        calls_bind (calls_guarded trivial) fun _ =>
          calls_done ()
  | removeProduct id' =>
      cases hLookup
      refine ⟨_, bind_assoc _ _ _, fun product => ?_⟩
      exact
        calls_bind (calls_guarded trivial) fun _ =>
          calls_done ()
  | findProducts page perPage => cases hLookup
  | createOrder userId => cases hLookup
  | addItemToOrder orderId userId addItemDto => cases hLookup
  | checkoutOrder orderId userId => cases hLookup
  | paymentReceived orderId userId => cases hLookup
  | completeOrder orderId userId => cases hLookup

/- So they begin with its call. -/
theorem handler_eq_lookup
    {request : TenantRequest}
    (db tenantCode : String)
    (hLookup : request.lookup? = some id) :
    ∃ resume,
      request.handler db tenantCode =
          .call (.tenant db (.productFindUnique id)) resume ∧
        (∀ answer, Calls NoLookup (resume answer)) ∧
        (∀ error : ApiError,
          includes error.message "does not exist" = true →
            resume (.error error) =
              .fail (tenantDatabaseMissing tenantCode)) ∧
        (includes id "does not exist" = true →
          resume (.ok none) =
            .fail (tenantDatabaseMissing tenantCode)) := by
  rcases findOne_eq_call db id tenantCode with
    ⟨resume, hFindOne, hCalls, hError, hNone⟩
  rcases handler_eq_findOne db tenantCode hLookup with
    ⟨next, hHandler, hNext⟩
  refine
    ⟨fun answer => (resume answer).bind next, ?_, ?_, ?_, ?_⟩
  · rw [hHandler, hFindOne]
    rfl
  · exact fun answer => calls_bind (hCalls answer) hNext
  · intro error hText
    simp only [hError error hText, fail_bind]
  · intro hText
    simp only [hNone hText, fail_bind]

/- What a request does with an error of its first call. -/
theorem handler_eq_call
    (request : TenantRequest)
    (db tenantCode : String) :
    ∃ op resume,
      request.handler db tenantCode =
          .call (.tenant db op) resume ∧
        ∀ error : ApiError,
          includes error.message "does not exist" = true →
            resume (.error error) =
              .fail
                (if request.guarded then
                  tenantDatabaseMissing tenantCode
                else error) := by
  have hOwn :
      ∀ id, request.lookup? = some id →
        request.guarded = true →
          ∃ op resume,
            request.handler db tenantCode =
                .call (.tenant db op) resume ∧
              ∀ error : ApiError,
                includes error.message "does not exist" =
                    true →
                  resume (.error error) =
                    .fail
                      (if request.guarded then
                        tenantDatabaseMissing tenantCode
                      else error) := by
    intro id hLookup hGuarded
    rcases handler_eq_lookup db tenantCode hLookup with
      ⟨resume, hHandler, _, hError, _⟩
    refine ⟨_, resume, hHandler, fun error hText => ?_⟩
    rw [hError error hText, if_pos hGuarded]
  cases request with
  | findProduct id => exact hOwn id rfl rfl
  | updateProduct id updateProductDto => exact hOwn id rfl rfl
  | removeProduct id => exact hOwn id rfl rfl
  | findProducts page perPage =>
      exact
        ⟨_, _, rfl, fun error hText =>
          congrArg Program.ignore (if_pos hText)⟩
  | createOrder userId =>
      exact
        ⟨_, _, rfl, fun error hText =>
          congrArg Program.ignore (if_pos hText)⟩
  | addItemToOrder orderId userId addItemDto =>
      exact ⟨_, _, rfl, fun error _ => rfl⟩
  | checkoutOrder orderId userId =>
      exact ⟨_, _, rfl, fun error _ => rfl⟩
  | paymentReceived orderId userId =>
      exact ⟨_, _, rfl, fun error _ => rfl⟩
  | completeOrder orderId userId =>
      exact ⟨_, _, rfl, fun error _ => rfl⟩

end OrderApi

------------------------------------------------------------
-- When the Reports Are Right
------------------------------------------------------------

namespace OrderApi

open Program

variable {db tenantCode id : String}
variable {request : TenantRequest}
variable {choices : Nat → Choice} {store : Backend}

/- On a missing database, the first call decides. -/
theorem outcome_of_missing
    (request : TenantRequest)
    (tenantCode : String)
    (hClassifies : Classifies db choices store)
    (hMissing : store.dbs db = none) :
    ∃ message,
      request.outcome db tenantCode choices store =
        .error
          (if request.guarded then
            tenantDatabaseMissing tenantCode
          else storeError message) := by
  rcases handler_eq_call request db tenantCode with
    ⟨op, resume, hHandler, hResume⟩
  rcases execAlone_of_missing hClassifies hMissing op with
    ⟨message, hExec, hText⟩
  refine ⟨message, ?_⟩
  unfold TenantRequest.outcome
  simp only [hHandler, complete, hExec,
    hResume (storeError message) hText]

/- An id with the text, unknown, reads like that. -/
theorem outcome_of_lookupFails
    (hLookup : request.lookup? = some id)
    (hText : includes id "does not exist" = true)
    (hFails : LookupFails db id choices store) :
    request.outcome db tenantCode choices store =
      .error (tenantDatabaseMissing tenantCode) := by
  rcases handler_eq_lookup db tenantCode hLookup with
    ⟨resume, hHandler, _, _, hNone⟩
  have hFinds :=
    findsNone_execAlone_iff.mpr ⟨rfl, hFails⟩
  have hAnswer := hFinds.2.2
  unfold TenantRequest.outcome
  simp only [hHandler, complete, hAnswer, hNone hText]

/- A request for a product meets its id only so. -/
theorem lookupFails_of_meets
    (hLookup : request.lookup? = some id)
    (hMeets :
      Meets execAlone (FindsNone db id)
        (request.handler db tenantCode) choices store) :
    LookupFails db id choices store := by
  rcases handler_eq_lookup db tenantCode hLookup with
    ⟨resume, hHandler, hCalls, _, _⟩
  rw [hHandler] at hMeets
  have hFirst :=
    (meets_call_iff hCalls not_findsNone_of_noLookup choices
      store).mp hMeets
  exact (findsNone_execAlone_iff.mp hFirst).2

/- On a database that exists, no call fails as missing. -/
theorem not_meets_failsAsMissing
    (hClassifies : Classifies db choices store)
    (hExists : store.dbs db ≠ none)
    {α : Type}
    (handler : Handler α) :
    ¬ Meets execAlone (FailsAsMissing db) handler choices
      store := by
  apply
    (calls_any handler).not_meets
      (fun store' => store'.dbs db ≠ none)
  · intro n op store' _ hStill
    exact
      ⟨not_failsAsMissing_of_exists hClassifies hExists n op
          hStill,
        dbs_ne_none_of_execAlone _ op hStill⟩
  · exact hExists

/- If a request fits, it reports no database that exists. -/
theorem TenantRequest.Fits.missing_of_outcome
    (hFits : request.Fits db choices store)
    (hClassifies : Classifies db choices store)
    (hOutcome :
      request.outcome db tenantCode choices store =
        .error (tenantDatabaseMissing tenantCode)) :
    store.dbs db = none := by
  by_contra hExists
  have hMeets :=
    (onlyAfter_handler request db tenantCode
      False).complete_of_noting choices store hOutcome
  have hEvent := hMeets.resolve_left fun hNever => hNever
  unfold TenantRequest.Misleads at hEvent
  simp only [meets_or_iff, meets_exists_iff,
    meets_and_iff] at hEvent
  rcases hEvent with
    hFails | ⟨id, ⟨hLookup, hText⟩, hFinds⟩
  · exact
      not_meets_failsAsMissing hClassifies hExists _ hFails
  · exact
      hFits.2 id hLookup hText
        (lookupFails_of_meets hLookup hFinds)

/- And it says so if it finds no product. -/
theorem TenantRequest.Fits.notFound_of_meets
    (hFits : request.Fits db choices store)
    (hMeets :
      Meets execAlone (FindsNone db id)
        (request.handler db tenantCode) choices store) :
    request.outcome db tenantCode choices store =
      .error
        ⟨.notFound, OrderService.productNotFound id⟩ := by
  have hReads :
      request.lookup? = some id →
        includes id "does not exist" = false := by
    intro hLookup
    rw [Bool.eq_false_iff]
    intro hText
    exact
      hFits.2 id hLookup hText
        (lookupFails_of_meets hLookup hMeets)
  exact
    Conforms.complete_of_noting
      (told_handler request db tenantCode hReads) choices
      store (Or.inr hMeets)

/-
  A request reports right exactly if it fits: the database
  exists or the first call stands in a `try`, and no unknown
  id is looked up that has the text of such an error.
-/
theorem reportsRight_iff
    (request : TenantRequest)
    (db tenantCode : String)
    (choices : Nat → Choice)
    (store : Backend)
    (hClassifies : Classifies db choices store) :
    ReportsRight request db tenantCode choices store ↔
      request.Fits db choices store := by
  constructor
  · intro hRight
    constructor
    · intro hBare hMissing
      have hReported := hRight.1.mpr hMissing
      rcases outcome_of_missing request tenantCode hClassifies
          hMissing with ⟨message, hOutcome⟩
      rw [hOutcome, hBare] at hReported
      cases hReported
    · intro id hLookup hText hFails
      have hMissing :=
        hRight.1.mp (outcome_of_lookupFails hLookup hText hFails)
      rcases hFails.2 with ⟨tenantDb, hDb, _⟩
      rw [hDb] at hMissing
      cases hMissing
  · intro hFits
    refine ⟨⟨?_, ?_⟩, ?_⟩
    · exact hFits.missing_of_outcome hClassifies
    · intro hMissing
      have hGuarded : request.guarded = true := by
        rw [← Bool.not_eq_false]
        exact fun hBare => hFits.1 hBare hMissing
      rcases outcome_of_missing request tenantCode hClassifies
          hMissing with ⟨message, hOutcome⟩
      rw [hOutcome, if_pos hGuarded]
    · exact fun id => hFits.notFound_of_meets

/- One tenant database, without rows. -/
def acmeOnly : Backend where
  users := Table.empty
  dbs := fun name =>
    if name = "tenantacme" then some TenantDb.empty else none
  orderProcessing := []
  orderCompleted := []

/- A server that is out of reach. -/
def unreachable (_ : Nat) : Choice :=
  .failure "Can not reach database server"

/- Then a lookup reports nothing but that. -/
theorem reportsRight_iff_of_acme :
    ReportsRight (.findProduct "p1") "tenantacme" "acme"
      unreachable acmeOnly := by
  refine
    (reportsRight_iff (.findProduct "p1") "tenantacme" "acme"
      unreachable acmeOnly ?_).mpr ⟨?_, ?_⟩
  · intro n message hFailure
    cases hFailure
    have hText :
        includes "Can not reach database server"
          "does not exist" = false := by
      decide
    rw [hText]
    simp [acmeOnly]
  · intro hBare
    cases hBare
  · intro id hLookup _ hFails
    rcases hFails.1 with ⟨tick, hAnswer⟩
    cases hAnswer

/- Calls that are answered are classified. -/
theorem classifies_answering
    (db : String)
    (store : Backend) :
    Classifies db answering store := by
  intro n message hFailure
  cases hFailure

/-
  A product id with the text is reported as a missing
  database; and a missing database is not reported when an
  item is added.
-/
theorem not_reportsRight :
    ¬ ReportsRight (.findProduct "does not exist")
        "tenantacme" "acme" answering acmeOnly ∧
      ¬ ReportsRight (.addItemToOrder "o1" "u1" ⟨"p1", 1⟩)
        "tenantgone" "gone" answering acmeOnly := by
  constructor
  · intro hRight
    have hFails :
        LookupFails "tenantacme" "does not exist" answering
          acmeOnly :=
      ⟨⟨_, rfl⟩, TenantDb.empty, rfl, rfl⟩
    have hMissing :=
      hRight.1.mp
        (outcome_of_lookupFails rfl (by decide) hFails)
    cases hMissing
  · intro hRight
    have hReported := hRight.1.mpr rfl
    rcases outcome_of_missing
        (.addItemToOrder "o1" "u1" ⟨"p1", 1⟩) "gone"
        (classifies_answering "tenantgone" acmeOnly) rfl with
      ⟨message, hOutcome⟩
    rw [hOutcome] at hReported
    cases hReported

end OrderApi
