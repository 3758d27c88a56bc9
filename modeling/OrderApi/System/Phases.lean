import OrderApi.System.OrderSystem

/-
  The protocol of the order system.

  A phase says what a job may still do to the store: which
  rows it may write, and what it already read or wrote.  The
  handlers conform to the protocol, so what holds of all
  interleavings of phases holds of all runs of the system.

  Key definitions include:
    * `Phase`
    * `Phase.Moves`
    * `Phase.Final`
    * `orderDiscipline`

  Key theorems include:
    * `orderSystem_obeys`
-/

------------------------------------------------------------
-- Phases
------------------------------------------------------------

namespace OrderApi

/- What a job is about to do. -/
inductive Phase where
  /- about to insert an order -/
  | creating (db userId tenantCode : String)
  /- about to add lines, or to publish the order -/
  | adding (db orderId userId tenantCode : String)
  /- about to change a line that it found in its order -/
  | merging (db orderId userId tenantCode itemId : String)
  /- about to read an order that is to be paid -/
  | paying (db orderId userId : String)
  /- past the payment guard, with lines left to deduct -/
  | charging (db orderId : String) (rest : List OrderItem)
  /- about to read an order that is to be completed -/
  | completing (db : String) (message : OrderCompletedMessage)
  /- about to publish an order that is to be completed -/
  | enqueueing (db : String) (message : OrderCompletedMessage)
  | handlingProcessing (db orderId paymentId : String)
  | handlingCompleted (db orderId transactionId : String)
  /- about to write products -/
  | editing (db : String)
  /- without any write to come -/
  | quiet

namespace Phase

/- `data` of `recalculateOrderTotal`'s update. -/
def setTotal (total : Int) : OrderUpdate :=
  { status := none
    total := some total
    paymentId := none
    transactionId := none }

/- A job never stops of itself amid a payment. -/
def Final : Phase → Prop
  | charging _ _ _ => False
  | _ => True

/-
  The calls that each phase allows, with the phase after
  each answer.  Reads are allowed except amid a payment,
  and a call that fails ends the writing.
-/
inductive Moves : Protocol StoreOp StoreOp.Res ApiError Phase
  | read
      {phase : Phase}
      {op : StoreOp}
      {answer : Except ApiError op.Res}
      (hFinal : phase.Final)
      (hRead : op.isRead = true) :
      Moves phase op answer phase
  | failed
      {phase : Phase}
      {op : StoreOp}
      {error : ApiError}
      (hOp : phase.Final ∨ op.isRead = false) :
      Moves phase op (.error error) quiet
  | create
      {db userId tenantCode : String}
      {order : Order} :
      Moves (creating db userId tenantCode)
        (.tenant db (.orderCreate userId .PENDING 0))
        (.ok order)
        (adding db order.id userId tenantCode)
  | addItem
      {db orderId userId tenantCode productId : String}
      {quantity : Int}
      {price : Money}
      {item : OrderItem} :
      Moves (adding db orderId userId tenantCode)
        (.tenant db
          (.orderItemCreate orderId productId quantity price))
        (.ok item) (adding db orderId userId tenantCode)
  | findItem
      {db orderId userId tenantCode productId : String}
      {item : OrderItem} :
      Moves (adding db orderId userId tenantCode)
        (.tenant db (.orderItemFindFirst orderId productId))
        (.ok (some item))
        (merging db orderId userId tenantCode item.id)
  | mergeItem
      {db orderId userId tenantCode itemId : String}
      {quantity : Int}
      {item : OrderItem} :
      Moves (merging db orderId userId tenantCode itemId)
        (.tenant db (.orderItemUpdate itemId quantity))
        (.ok item) (adding db orderId userId tenantCode)
  | total
      {db orderId userId tenantCode : String}
      {total : Int}
      {view : OrderView} :
      Moves (adding db orderId userId tenantCode)
        (.tenant db (.orderUpdate orderId (setTotal total)))
        (.ok view) (adding db orderId userId tenantCode)
  | publishProcessing
      {db orderId userId tenantCode : String} :
      Moves (adding db orderId userId tenantCode)
        (.publishOrderProcessing
          ⟨orderId, userId, tenantCode⟩)
        (.ok ()) quiet
  | charge
      {db orderId userId : String}
      {order : Order}
      {items : List OrderItem}
      (hUser : order.userId = userId)
      (hStatus : order.status = .WAITING_FOR_PAYMENT) :
      Moves (paying db orderId userId)
        (.tenant db (.orderFindUniqueWithItems orderId))
        (.ok (some (order, items)))
        (charging db orderId items)
  | deduct
      {db orderId : String}
      {item : OrderItem}
      {rest : List OrderItem}
      {product : Product} :
      Moves (charging db orderId (item :: rest))
        (.tenant db
          (.productDecrementStock item.productId
            item.quantity.val))
        (.ok product) (charging db orderId rest)
  | markPaid
      {db orderId : String}
      {view : OrderView} :
      Moves (charging db orderId [])
        (.tenant db
          (.orderUpdate orderId
            (OrderService.setStatus .PAID)))
        (.ok view) quiet
  | allowCompletion
      {db : String}
      {message : OrderCompletedMessage}
      {order : Order}
      (hUser : order.userId = message.userId) :
      Moves (completing db message)
        (.tenant db (.orderFindUnique message.orderId))
        (.ok (some order)) (enqueueing db message)
  | publishCompleted
      {db : String}
      {message : OrderCompletedMessage} :
      Moves (enqueueing db message)
        (.publishOrderCompleted message) (.ok ()) quiet
  | process
      {db orderId paymentId : String}
      {view : OrderView} :
      Moves (handlingProcessing db orderId paymentId)
        (.tenant db
          (.orderUpdate orderId
            (OrderProcessingConsumer.waitForPayment
              paymentId)))
        (.ok view) quiet
  | complete
      {db orderId transactionId : String}
      {view : OrderView} :
      Moves (handlingCompleted db orderId transactionId)
        (.tenant db
          (.orderUpdate orderId
            (OrderCompletedConsumer.complete transactionId)))
        (.ok view) quiet
  | createProduct
      {db name : String}
      {description : Option String}
      {price stock : Int}
      {product : Product}
      (hStock : 0 ≤ stock) :
      Moves (editing db)
        (.tenant db
          (.productCreate name description price stock))
        (.ok product) quiet
  | updateProduct
      {db id : String}
      {data : UpdateProductDto}
      {product : Product} :
      Moves (editing db)
        (.tenant db (.productUpdate id data))
        (.ok product) quiet
  | removeProduct
      {db id : String}
      {product : Product} :
      Moves (editing db) (.tenant db (.productDelete id))
        (.ok product) quiet

end Phase

/- The phase in which a job starts. -/
def Job.phase (databaseName : String → String) :
    Job → Phase
  | .createOrder user tenantCode _ =>
      .creating (databaseName tenantCode) user.id tenantCode
  | .paymentReceived user tenantCode id =>
      .paying (databaseName tenantCode) id user.id
  | .completeOrder user tenantCode id transactionId =>
      .completing (databaseName tenantCode)
        ⟨id, user.id, tenantCode, transactionId⟩
  | .createProduct _ tenantCode _ =>
      .editing (databaseName tenantCode)
  | .updateProduct _ tenantCode _ _ =>
      .editing (databaseName tenantCode)
  | .removeProduct _ tenantCode _ =>
      .editing (databaseName tenantCode)
  | .handleOrderProcessing paymentId message =>
      .handlingProcessing (databaseName message.tenantCode)
        message.orderId paymentId
  | .handleOrderCompleted message =>
      .handlingCompleted (databaseName message.tenantCode)
        message.orderId message.transactionId
  | _ => .quiet

/- What a phase tells about the job that is in it. -/
def Job.Owns
    (databaseName : String → String)
    (job : Job) :
    Phase → Prop
  | .creating db userId tenantCode
  | .adding db _ userId tenantCode
  | .merging db _ userId tenantCode _ =>
      db = databaseName tenantCode ∧
        ∃ user body,
          userId = user.id ∧
            job = .createOrder user tenantCode body
  | .paying db orderId userId =>
      ∃ user tenantCode,
        db = databaseName tenantCode ∧ userId = user.id ∧
          job = .paymentReceived user tenantCode orderId
  | .charging db orderId _ =>
      ∃ user tenantCode,
        db = databaseName tenantCode ∧
          job = .paymentReceived user tenantCode orderId
  | .handlingProcessing db orderId paymentId =>
      ∃ message,
        db = databaseName message.tenantCode ∧
          orderId = message.orderId ∧
          job = .handleOrderProcessing paymentId message
  | .handlingCompleted db orderId transactionId =>
      ∃ message,
        db = databaseName message.tenantCode ∧
          orderId = message.orderId ∧
          transactionId = message.transactionId ∧
          job = .handleOrderCompleted message
  | _ => True

/- The protocol of the order system, with its phases. -/
def orderDiscipline (databaseName : String → String) :
    Discipline Job StoreOp StoreOp.Res ApiError Phase where
  protocol := Phase.Moves
  first := Job.phase databaseName
  Final := Phase.Final
  Owns := Job.Owns databaseName
  owns_first := by
    intro job
    cases job with
    | createOrder user tenantCode body =>
        exact ⟨rfl, user, body, rfl, rfl⟩
    | paymentReceived user tenantCode id =>
        exact ⟨user, tenantCode, rfl, rfl, rfl⟩
    | handleOrderProcessing paymentId message =>
        exact ⟨message, rfl, rfl, rfl⟩
    | handleOrderCompleted message =>
        exact ⟨message, rfl, rfl, rfl, rfl⟩
    | _ => trivial
  owns_next := by
    intro job phase op answer phase' hOwns hMoves
    cases hMoves with
    | read hFinal hRead => exact hOwns
    | create => exact hOwns
    | addItem => exact hOwns
    | findItem => exact hOwns
    | mergeItem => exact hOwns
    | total => exact hOwns
    | deduct => exact hOwns
    | charge hUser hStatus =>
        rcases hOwns with ⟨user, tenantCode, hDb, _, hJob⟩
        exact ⟨user, tenantCode, hDb, hJob⟩
    | _ => trivial

end OrderApi

------------------------------------------------------------
-- Conformance of Calls
------------------------------------------------------------

namespace OrderApi

/- Conformance to the protocol of the order system. -/
abbrev Follows
    {α : Type}
    (Post : α → Phase → Prop)
    (handler : Handler α)
    (phase : Phase) : Prop :=
  handler.Conforms Phase.Moves
    (Program.Ending Phase.Final Post) phase

variable {α β : Type}

theorem Follows.mono
    {Post Post' : α → Phase → Prop}
    {handler : Handler α}
    {phase : Phase}
    (hFollows : Follows Post handler phase)
    (hPost : ∀ value q, Post value q → Post' value q) :
    Follows Post' handler phase := by
  apply Program.Conforms.mono hFollows
  intro outcome q hOutcome
  cases outcome with
  | ok value => exact hPost value q hOutcome
  | error error => exact hOutcome

/- A call that allows a phase for its value. -/
theorem follows_perform
    {op : StoreOp}
    {Post : op.Res → Phase → Prop}
    {phase : Phase}
    (hOp : phase.Final ∨ op.isRead = false)
    (hValue :
      ∀ value, ∃ phase',
        Phase.Moves phase op (.ok value) phase' ∧
          Post value phase') :
    Follows Post (Program.perform op) phase := by
  apply Program.conforms_perform
  intro answer
  cases answer with
  | ok value => exact hValue value
  | error error =>
      exact ⟨.quiet, Phase.Moves.failed hOp, trivial⟩

/- A read stays in its phase. -/
theorem follows_read
    {op : StoreOp}
    {Post : op.Res → Phase → Prop}
    {phase : Phase}
    (hFinal : phase.Final)
    (hRead : op.isRead = true)
    (hValue : ∀ value, Post value phase) :
    Follows Post (Program.perform op) phase :=
  follows_perform (Or.inl hFinal) fun value =>
    ⟨phase, Phase.Moves.read hFinal hRead, hValue value⟩

/- Reporting a missing database keeps conformance. -/
theorem follows_mapMissingDatabase
    {tenantCode : String}
    {Post : α → Phase → Prop}
    {handler : Handler α}
    {phase : Phase}
    (hFollows : Follows Post handler phase) :
    Follows Post (mapMissingDatabase tenantCode handler)
      phase := by
  apply Program.conforms_attempt_ending hFollows
  intro error phase' hFinal
  split
  · exact hFinal
  · exact hFinal

/- Lookups end in the phase they started in. -/
theorem follows_findOne
    {db id userId : String}
    {phase : Phase}
    (hFinal : phase.Final) :
    Follows (fun _ q => q = phase)
      (OrderService.findOne db id userId) phase := by
  apply Program.conforms_bind_ending
  refine follows_read hFinal rfl ?_
  intro found
  cases found with
  | none => exact hFinal
  | some view => rfl

end OrderApi

------------------------------------------------------------
-- Conformance of the Handlers
------------------------------------------------------------

namespace OrderApi

namespace OrderService

variable {db orderId userId tenantCode : String}

/- Recalculation writes the total of the order, no more. -/
theorem follows_recalculateOrderTotal :
    Follows
      (fun _ q => q = .adding db orderId userId tenantCode)
      (recalculateOrderTotal db orderId)
      (.adding db orderId userId tenantCode) := by
  apply Program.conforms_bind_ending
  refine follows_read trivial rfl ?_
  intro items
  apply Program.conforms_bind_ending
  refine follows_perform (Or.inl trivial) ?_
  intro view
  exact
    ⟨.adding db orderId userId tenantCode,
      Phase.Moves.total, rfl⟩

/- An item is merged into a line that was found, or added. -/
theorem follows_saveItem_none
    (addItemDto : AddItemDto)
    (product : Product) :
    Follows
      (fun _ q => q = .adding db orderId userId tenantCode)
      (saveItem db orderId addItemDto tenantCode product none)
      (.adding db orderId userId tenantCode) := by
  apply follows_mapMissingDatabase
  refine follows_perform (Or.inl trivial) ?_
  intro item
  exact
    ⟨.adding db orderId userId tenantCode,
      Phase.Moves.addItem, rfl⟩

theorem follows_saveItem_some
    (addItemDto : AddItemDto)
    (product : Product)
    (existingItem : OrderItem) :
    Follows
      (fun _ q => q = .adding db orderId userId tenantCode)
      (saveItem db orderId addItemDto tenantCode product
        (some existingItem))
      (.merging db orderId userId tenantCode
        existingItem.id) := by
  apply follows_mapMissingDatabase
  refine follows_perform (Or.inl trivial) ?_
  intro item
  exact
    ⟨.adding db orderId userId tenantCode,
      Phase.Moves.mergeItem, rfl⟩

theorem follows_addItemToOrder
    (addItemDto : AddItemDto) :
    Follows
      (fun _ q => q = .adding db orderId userId tenantCode)
      (addItemToOrder db orderId userId addItemDto tenantCode)
      (.adding db orderId userId tenantCode) := by
  apply Program.conforms_bind_ending
  refine follows_read trivial rfl ?_
  intro found
  cases found with
  | none => exact trivial
  | some order =>
      simp only [Program.bind_eq]
      split
      · exact trivial
      · split
        · exact trivial
        · apply Program.conforms_bind_ending
          apply follows_mapMissingDatabase
          refine follows_read trivial rfl ?_
          intro product?
          cases product? with
          | none => exact trivial
          | some product =>
              simp only
              split
              · exact trivial
              · apply Program.conforms_bind_ending
                -- the lookup decides between both ways to save
                refine follows_perform (Or.inl trivial) ?_
                intro existing?
                have hRest :
                    ∀ orderItem : OrderItem, ∀ q,
                      q = .adding db orderId userId
                          tenantCode →
                        Follows
                          (fun _ q' =>
                            q' = .adding db orderId userId
                              tenantCode)
                          ((recalculateOrderTotal db
                              orderId).bind
                            fun _ => .done orderItem) q := by
                  rintro orderItem q rfl
                  apply Program.conforms_bind_ending
                  exact follows_recalculateOrderTotal
                cases existing? with
                | none =>
                    refine
                      ⟨.adding db orderId userId tenantCode,
                        Phase.Moves.read trivial rfl, ?_⟩
                    apply Program.conforms_bind_ending
                    exact
                      (follows_saveItem_none addItemDto
                        product).mono hRest
                | some existing =>
                    refine
                      ⟨.merging db orderId userId tenantCode
                          existing.id,
                        Phase.Moves.findItem, ?_⟩
                    apply Program.conforms_bind_ending
                    exact
                      (follows_saveItem_some addItemDto
                        product existing).mono hRest

/- The deduction loop walks through the lines in order. -/
theorem follows_deductStock
    (items : List OrderItem) :
    Follows (fun _ q => q = .charging db orderId [])
      (Program.forEach items (deductStock db tenantCode))
      (.charging db orderId items) := by
  apply Program.conforms_forEach_ending
    (fun rest q => q = .charging db orderId rest)
  · intro q hPhase
    exact hPhase
  · rintro item rest q rfl
    apply Program.conforms_ignore
    apply follows_mapMissingDatabase
    refine follows_perform (Or.inr rfl) ?_
    intro product
    exact
      ⟨.charging db orderId rest, Phase.Moves.deduct, rfl⟩
  · rfl

theorem follows_markPaid :
    Follows (fun _ q => q = .quiet)
      (markPaid db orderId tenantCode)
      (.charging db orderId []) := by
  apply follows_mapMissingDatabase
  refine follows_perform (Or.inr rfl) ?_
  intro view
  exact ⟨.quiet, Phase.Moves.markPaid, rfl⟩

theorem follows_paymentReceived :
    Follows (fun _ q => q = .quiet)
      (paymentReceived db orderId userId tenantCode)
      (.paying db orderId userId) := by
  apply Program.conforms_bind_ending
  refine follows_perform (Or.inl trivial) ?_
  intro found
  cases found with
  | none =>
      exact ⟨_, Phase.Moves.read trivial rfl, trivial⟩
  | some pair =>
      rcases pair with ⟨order, items⟩
      by_cases hUser : order.userId = userId
      · by_cases hStatus :
            order.status = .WAITING_FOR_PAYMENT
        · refine
            ⟨.charging db orderId items,
              Phase.Moves.charge hUser hStatus, ?_⟩
          simp only [hUser, hStatus, ne_eq,
            not_true_eq_false, if_false, Program.bind_eq]
          apply Program.conforms_bind_ending
          apply (follows_deductStock items).mono
          rintro _ q rfl
          exact follows_markPaid
        · refine ⟨_, Phase.Moves.read trivial rfl, ?_⟩
          simp only [hUser, ne_eq, not_true_eq_false,
            if_false, hStatus, not_false_eq_true, if_true]
          exact trivial
      · refine ⟨_, Phase.Moves.read trivial rfl, ?_⟩
        simp only [ne_eq, hUser, not_false_eq_true, if_true]
        exact trivial

theorem follows_enqueueOrderCompleted
    (transactionId : String) :
    Follows (fun _ q => q = .quiet)
      (enqueueOrderCompleted db orderId userId tenantCode
        transactionId)
      (.completing db
        ⟨orderId, userId, tenantCode, transactionId⟩) := by
  apply Program.conforms_bind_ending
  refine follows_perform (Or.inl trivial) ?_
  intro found
  cases found with
  | none =>
      exact ⟨_, Phase.Moves.read trivial rfl, trivial⟩
  | some order =>
      by_cases hUser : order.userId = userId
      · refine
          ⟨_, Phase.Moves.allowCompletion hUser, ?_⟩
        simp only [hUser, ne_eq, not_true_eq_false, if_false]
        refine follows_perform (Or.inl trivial) ?_
        intro _
        exact ⟨.quiet, Phase.Moves.publishCompleted, rfl⟩
      · refine ⟨_, Phase.Moves.read trivial rfl, ?_⟩
        simp only [ne_eq, hUser, not_false_eq_true, if_true]
        exact trivial

/- Listing the orders of all tenants only reads. -/
theorem follows_fetchOrders
    (databaseName : String → String)
    (tenantCodes : List String) :
    Follows (fun _ q => q = .quiet)
      (fetchOrders databaseName userId tenantCodes)
      .quiet := by
  induction tenantCodes with
  | nil => rfl
  | cons tenantCode tenantCodes ih =>
      apply Program.conforms_bind_ending
      apply Program.conforms_attempt
      apply Program.conforms_bind
      apply Program.conforms_perform
      intro answer
      refine ⟨.quiet, Phase.Moves.read trivial rfl, ?_⟩
      have hOthers :
          ∀ fetched : List TenantOrder,
            Follows (fun _ q => q = .quiet)
              ((fetchOrders databaseName userId
                tenantCodes).bind fun others =>
                  .done (fetched ++ others)) .quiet := by
        intro fetched
        apply Program.conforms_bind_ending
        exact ih
      cases answer with
      | ok views => exact hOthers _
      | error error => exact hOthers []

theorem follows_findAll
    (databaseName : String → String)
    (page perPage : Nat) :
    Follows (fun _ q => q = .quiet)
      (findAll databaseName userId page perPage) .quiet := by
  apply Program.conforms_bind_ending
  refine follows_read trivial rfl ?_
  intro tenantCodes
  apply Program.conforms_bind_ending
  exact follows_fetchOrders databaseName tenantCodes

end OrderService

namespace OrderController

theorem follows_create
    {db : String}
    (user : AuthUser)
    (tenantCode : String)
    (body : CreateOrderDto) :
    Follows (fun _ q => q = .quiet)
      (create db user tenantCode body)
      (.creating db user.id tenantCode) := by
  simp only [create]
  split
  · exact trivial
  · apply Program.conforms_bind_ending
    apply follows_mapMissingDatabase
    refine follows_perform (Or.inl trivial) ?_
    intro order
    refine
      ⟨.adding db order.id user.id tenantCode,
        Phase.Moves.create, ?_⟩
    apply Program.conforms_bind_ending
    apply Program.conforms_forEach_ending
      (fun _ q => q = .adding db order.id user.id tenantCode)
    · rintro q rfl
      apply Program.conforms_bind_ending
      refine follows_perform (Or.inl trivial) ?_
      intro _
      exact
        ⟨.quiet, Phase.Moves.publishProcessing,
          follows_findOne trivial⟩
    · rintro item _ q rfl
      apply Program.conforms_ignore
      exact OrderService.follows_addItemToOrder _
    · rfl

theorem follows_completeOrder
    {db id tenantCode : String}
    (user : AuthUser)
    (transactionId : String) :
    Follows (fun _ q => q = .quiet ∨ q.Final)
      (completeOrder db id user tenantCode transactionId)
      (.completing db
        ⟨id, user.id, tenantCode, transactionId⟩) := by
  simp only [completeOrder]
  split
  · exact trivial
  · exact
      (OrderService.follows_enqueueOrderCompleted
        transactionId).mono fun _ _ h => Or.inl h

end OrderController

namespace ProductService

variable {db id tenantCode : String}

theorem follows_findOne
    {phase : Phase}
    (hFinal : phase.Final) :
    Follows (fun _ q => q = phase)
      (findOne db id tenantCode) phase := by
  apply follows_mapMissingDatabase
  apply Program.conforms_bind_ending
  refine follows_read hFinal rfl ?_
  intro found
  cases found with
  | none => exact hFinal
  | some product => rfl

theorem follows_create
    (createProductDto : CreateProductDto) :
    Follows (fun _ q => q.Final)
      (create db tenantCode createProductDto)
      (.editing db) := by
  by_cases hCode : tenantCode = ""
  · rw [create, if_pos hCode]
    exact trivial
  · rw [create, if_neg hCode]
    refine follows_perform (Or.inl trivial) ?_
    intro product
    refine
      ⟨.quiet, Phase.Moves.createProduct ?_,
        trivial⟩
    cases hStock : createProductDto.stock with
    | none => exact Int.le_refl 0
    | some stock =>
        exact createProductDto.stock_min stock
          (by simp [hStock])

theorem follows_update
    (updateProductDto : UpdateProductDto) :
    Follows (fun _ q => q.Final)
      (update db id updateProductDto tenantCode)
      (.editing db) := by
  apply Program.conforms_bind_ending
  have hFinal : (Phase.editing db).Final := trivial
  apply (follows_findOne hFinal).mono
  rintro _ q rfl
  apply follows_mapMissingDatabase
  refine follows_perform (Or.inl trivial) ?_
  intro product
  exact
    ⟨.quiet, Phase.Moves.updateProduct,
      trivial⟩

theorem follows_remove :
    Follows (fun _ q => q.Final)
      (remove db id tenantCode) (.editing db) := by
  apply Program.conforms_bind_ending
  have hFinal : (Phase.editing db).Final := trivial
  apply (follows_findOne hFinal).mono
  rintro _ q rfl
  apply follows_mapMissingDatabase
  refine follows_perform (Or.inl trivial) ?_
  intro product
  exact
    ⟨.quiet, Phase.Moves.removeProduct,
      trivial⟩

theorem follows_findAll
    (page perPage : Nat) :
    Follows (fun _ q => q = .quiet)
      (findAll db tenantCode page perPage) .quiet := by
  apply follows_mapMissingDatabase
  apply Program.conforms_bind_ending
  refine follows_read trivial rfl ?_
  intro total
  apply Program.conforms_bind_ending
  refine follows_read trivial rfl ?_
  intro data
  rfl

end ProductService

/- The handler of every job conforms from its first phase. -/
theorem orderSystem_obeys
    (databaseName : String → String) :
    (orderSystem databaseName).Obeys
      (orderDiscipline databaseName) := by
  intro job
  have hEnds :
      ∀ {Post : Unit → Phase → Prop}
        {handler : Handler Unit} {phase : Phase},
        Follows Post handler phase →
        (∀ value q, Post value q → q.Final) →
        handler.Conforms Phase.Moves
          (fun _ phase => phase.Final) phase := by
    intro Post handler phase hFollows hPost
    apply Program.Conforms.mono hFollows
    intro outcome q hOutcome
    cases outcome with
    | ok value => exact hPost value q hOutcome
    | error error => exact hOutcome
  have hIgnored :
      ∀ {α : Type} {Post : α → Phase → Prop}
        {handler : Handler α} {phase : Phase},
        Follows Post handler phase →
        (∀ value q, Post value q → q.Final) →
        handler.ignore.Conforms Phase.Moves
          (fun _ phase => phase.Final) phase := by
    intro α Post handler phase hFollows hPost
    exact
      hEnds
        (Program.conforms_ignore
          (Follows.mono hFollows hPost))
        (fun _ _ h => h)
  cases job with
  | createOrder user tenantCode body =>
      exact
        hIgnored
          (OrderController.follows_create user tenantCode
            body) (by rintro _ q rfl; exact trivial)
  | findOrders user page perPage =>
      exact
        hIgnored
          (OrderService.follows_findAll databaseName _ _)
          (by rintro _ q rfl; exact trivial)
  | findOrder user tenantCode id =>
      exact
        hIgnored (OrderApi.follows_findOne trivial)
          (by rintro _ q rfl; exact trivial)
  | paymentReceived user tenantCode id =>
      exact
        hIgnored OrderService.follows_paymentReceived
          (by rintro _ q rfl; exact trivial)
  | completeOrder user tenantCode id transactionId =>
      refine
        hEnds
          (OrderController.follows_completeOrder user
            transactionId) ?_
      rintro _ q (rfl | hFinal)
      · exact trivial
      · exact hFinal
  | createProduct user tenantCode body =>
      exact
        hIgnored (ProductService.follows_create body)
          (fun _ _ h => h)
  | findProducts user tenantCode page perPage =>
      exact
        hIgnored (ProductService.follows_findAll _ _)
          (by rintro _ q rfl; exact trivial)
  | findProduct user tenantCode id =>
      exact
        hIgnored (ProductService.follows_findOne trivial)
          (by rintro _ q rfl; exact trivial)
  | updateProduct user tenantCode id body =>
      exact
        hIgnored (ProductService.follows_update body)
          (fun _ _ h => h)
  | removeProduct user tenantCode id =>
      exact
        hIgnored ProductService.follows_remove
          (fun _ _ h => h)
  | handleOrderProcessing paymentId message =>
      apply hIgnored _ (fun _ _ h => h)
      refine follows_perform (Or.inl trivial) ?_
      intro view
      exact ⟨.quiet, Phase.Moves.process, trivial⟩
  | handleOrderCompleted message =>
      apply hIgnored _ (fun _ _ h => h)
      refine follows_perform (Or.inl trivial) ?_
      intro view
      exact ⟨.quiet, Phase.Moves.complete, trivial⟩

end OrderApi
