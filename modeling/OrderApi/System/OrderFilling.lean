import OrderApi.Core.Tally
import OrderApi.System.OrderLines

/-
  How a create request fills its order, call by call.

  The phases of `OrderApi.System.Phases` say what a job may
  still write.  Those of this module follow one create
  request more closely: which items it has added, at which
  prices, and which call of `addItemToOrder` comes next.

  Key definitions include:
    * `Cart`
    * `FillPhase`
    * `FillPhase.Moves`
    * `Job.Fills`
    * `fillScript`, `orderScript`

  Key theorems include:
    * `OrderController.fills_create`
    * `orderSystem_performs`
-/

------------------------------------------------------------
-- Phases of a Create Request
------------------------------------------------------------

namespace OrderApi

/- What an item asks for. -/
def CreateOrderItemDto.wanted (item : CreateOrderItemDto) :
    String × Int :=
  (item.product_id, item.qty)

/- What an added item asked for. -/
def Entry.wanted {τ : Type} (entry : Entry String τ) :
    String × Int :=
  (entry.key, entry.amount)

/-
  The order that a create request fills, and the items that
  it has added, with the prices that it read for them.
-/
structure Cart where
  db : String
  orderId : String
  userId : String
  tenantCode : String
  added : List (Entry String Money)

/- The cart with one more item. -/
def Cart.add
    (cart : Cart)
    (item : CreateOrderItemDto)
    (price : Money) : Cart :=
  { cart with
    added :=
      cart.added ++ [⟨item.product_id, item.qty, price⟩] }

@[simp] theorem Cart.db_add
    (cart : Cart)
    (item : CreateOrderItemDto)
    (price : Money) :
    (cart.add item price).db = cart.db :=
  rfl

@[simp] theorem Cart.orderId_add
    (cart : Cart)
    (item : CreateOrderItemDto)
    (price : Money) :
    (cart.add item price).orderId = cart.orderId :=
  rfl

/- The call that a create request makes next. -/
inductive FillPhase where
  /- the creation of the order -/
  | opening
      (db userId tenantCode : String)
      (items : List CreateOrderItemDto)
  /- the status check of an item, or the publication -/
  | between (cart : Cart) (rest : List CreateOrderItemDto)
  /- past the status check: the read of the product -/
  | pricing
      (cart : Cart)
      (item : CreateOrderItemDto)
      (rest : List CreateOrderItemDto)
  /- the lookup of the product's line -/
  | seeking
      (cart : Cart)
      (item : CreateOrderItemDto)
      (rest : List CreateOrderItemDto)
      (price : Money)
  /- the write of the line -/
  | saving
      (cart : Cart)
      (item : CreateOrderItemDto)
      (rest : List CreateOrderItemDto)
      (price : Money)
      (found : Option OrderItem)
  /- the read of all lines -/
  | summing (cart : Cart) (rest : List CreateOrderItemDto)
  /- the write of the total -/
  | totalling
      (cart : Cart)
      (rest : List CreateOrderItemDto)
      (total : Int)
  /- the read of the order that is returned -/
  | viewing (cart : Cart)
  | returned (cart : Cart)
  /- no call: the request has thrown -/
  | stopped
  /- any call: the job is no create request -/
  | aside

namespace FillPhase

/- The cart of a request that has created its order. -/
def cart? : FillPhase → Option Cart
  | between cart _ => some cart
  | pricing cart _ _ => some cart
  | seeking cart _ _ _ => some cart
  | saving cart _ _ _ _ => some cart
  | summing cart _ => some cart
  | totalling cart _ _ => some cart
  | viewing cart => some cart
  | returned cart => some cart
  | _ => none

/- The items that are not added yet. -/
def rest : FillPhase → List CreateOrderItemDto
  | opening _ _ _ items => items
  | between _ rest => rest
  | pricing _ item rest => item :: rest
  | seeking _ item rest _ => item :: rest
  | saving _ item rest _ _ => item :: rest
  | summing _ rest => rest
  | totalling _ rest _ => rest
  | _ => []

/- The order that is being filled. -/
def fills? : FillPhase → Option (String × String)
  | viewing _ => none
  | returned _ => none
  | phase =>
      phase.cart?.map fun cart => (cart.db, cart.orderId)

/- The order that an item is being added to, past the check
   of its status. -/
def amid? : FillPhase → Option Cart
  | pricing cart _ _ => some cart
  | seeking cart _ _ _ => some cart
  | saving cart _ _ _ _ => some cart
  | summing cart _ => some cart
  | totalling cart _ _ => some cart
  | _ => none

/- The call that the request makes next. -/
def call? : FillPhase → Option StoreOp
  | opening db userId _ _ =>
      some (.tenant db (.orderCreate userId .PENDING 0))
  | between cart (_ :: _) =>
      some
        (.tenant cart.db (.orderFindUnique cart.orderId))
  | between cart [] =>
      some
        (.publishOrderProcessing
          ⟨cart.orderId, cart.userId, cart.tenantCode⟩)
  | pricing cart item _ =>
      some
        (.tenant cart.db
          (.productFindUnique item.product_id))
  | seeking cart item _ _ =>
      some
        (.tenant cart.db
          (.orderItemFindFirst cart.orderId
            item.product_id))
  | saving cart item _ price none =>
      some
        (.tenant cart.db
          (.orderItemCreate cart.orderId item.product_id
            item.qty price))
  | saving cart item _ _ (some found) =>
      some
        (.tenant cart.db
          (.orderItemUpdate found.id
            (found.quantity.val + item.qty)))
  | summing cart _ =>
      some
        (.tenant cart.db (.orderItemFindMany cart.orderId))
  | totalling cart _ total =>
      some
        (.tenant cart.db
          (.orderUpdate cart.orderId (Phase.setTotal total)))
  | viewing cart =>
      some
        (.tenant cart.db
          (.orderFindFirst cart.orderId cart.userId))
  | _ => none

/-
  The calls of a create request.  It stops on an answer that
  it throws on: an error, or a read that fails a check.
-/
inductive Moves :
    Protocol StoreOp StoreOp.Res ApiError FillPhase
  | opened
      {db userId tenantCode : String}
      {items : List CreateOrderItemDto}
      {order : Order} :
      Moves (opening db userId tenantCode items)
        (.tenant db (.orderCreate userId .PENDING 0))
        (.ok order)
        (between ⟨db, order.id, userId, tenantCode, []⟩
          items)
  | check
      {cart : Cart}
      {item : CreateOrderItemDto}
      {rest : List CreateOrderItemDto}
      {order : Order}
      (hStatus : order.status = .PENDING) :
      Moves (between cart (item :: rest))
        (.tenant cart.db (.orderFindUnique cart.orderId))
        (.ok (some order)) (pricing cart item rest)
  | price
      {cart : Cart}
      {item : CreateOrderItemDto}
      {rest : List CreateOrderItemDto}
      {product : Product} :
      Moves (pricing cart item rest)
        (.tenant cart.db
          (.productFindUnique item.product_id))
        (.ok (some product))
        (seeking cart item rest product.price)
  | seek
      {cart : Cart}
      {item : CreateOrderItemDto}
      {rest : List CreateOrderItemDto}
      {price : Money}
      {found : Option OrderItem} :
      Moves (seeking cart item rest price)
        (.tenant cart.db
          (.orderItemFindFirst cart.orderId
            item.product_id))
        (.ok found) (saving cart item rest price found)
  | insert
      {cart : Cart}
      {item : CreateOrderItemDto}
      {rest : List CreateOrderItemDto}
      {price : Money}
      {line : OrderItem} :
      Moves (saving cart item rest price none)
        (.tenant cart.db
          (.orderItemCreate cart.orderId item.product_id
            item.qty price))
        (.ok line) (summing (cart.add item price) rest)
  | merge
      {cart : Cart}
      {item : CreateOrderItemDto}
      {rest : List CreateOrderItemDto}
      {price : Money}
      {found line : OrderItem} :
      Moves (saving cart item rest price (some found))
        (.tenant cart.db
          (.orderItemUpdate found.id
            (found.quantity.val + item.qty)))
        (.ok line) (summing (cart.add item price) rest)
  | sum
      {cart : Cart}
      {rest : List CreateOrderItemDto}
      {items : List OrderItem} :
      Moves (summing cart rest)
        (.tenant cart.db (.orderItemFindMany cart.orderId))
        (.ok items)
        (totalling cart rest
          (OrderService.orderTotal items))
  | total
      {cart : Cart}
      {rest : List CreateOrderItemDto}
      {total : Int}
      {view : OrderView} :
      Moves (totalling cart rest total)
        (.tenant cart.db
          (.orderUpdate cart.orderId (Phase.setTotal total)))
        (.ok view) (between cart rest)
  | publish
      {cart : Cart} :
      Moves (between cart [])
        (.publishOrderProcessing
          ⟨cart.orderId, cart.userId, cart.tenantCode⟩)
        (.ok ()) (viewing cart)
  | view
      {cart : Cart}
      {view : OrderView} :
      Moves (viewing cart)
        (.tenant cart.db
          (.orderFindFirst cart.orderId cart.userId))
        (.ok (some view)) (returned cart)
  | stop
      {phase : FillPhase}
      {op : StoreOp}
      {answer : Except ApiError op.Res}
      (hCall : phase.call? = some op)
      (hStop :
        op.isRead = true ∨ ∃ error, answer = .error error) :
      Moves phase op answer stopped
  | aside
      {op : StoreOp}
      {answer : Except ApiError op.Res} :
      Moves aside op answer aside

/- Each move is made by the call of its phase. -/
theorem Moves.call?_eq
    {phase phase' : FillPhase}
    {op : StoreOp}
    {answer : Except ApiError op.Res}
    (hMoves : Moves phase op answer phase')
    (hFills : phase ≠ .aside) :
    phase.call? = some op := by
  cases hMoves with
  | stop hCall hStop => exact hCall
  | aside => exact (hFills rfl).elim
  | _ => rfl

end FillPhase

/- The phase in which a job starts. -/
def Job.fillPhase (databaseName : String → String) :
    Job → FillPhase
  | .createOrder user tenantCode body =>
      .opening (databaseName tenantCode) user.id tenantCode
        body.items
  | _ => .aside

/- A create request. -/
def Job.isCreate : Job → Bool
  | .createOrder _ _ _ => true
  | _ => false

/- What a phase tells about the job that is in it. -/
def Job.Fills
    (databaseName : String → String)
    (job : Job) :
    FillPhase → Prop
  | .aside => job.isCreate = false
  | .stopped => job.isCreate = true
  | .opening db userId tenantCode items =>
      ∃ user body,
        job = .createOrder user tenantCode body ∧
          db = databaseName tenantCode ∧
          userId = user.id ∧ items = body.items
  | phase =>
      ∀ cart ∈ phase.cart?,
        ∃ user body,
          job = .createOrder user cart.tenantCode body ∧
            cart.db = databaseName cart.tenantCode ∧
            cart.userId = user.id ∧
            cart.added.map Entry.wanted ++
                phase.rest.map CreateOrderItemDto.wanted =
              body.items.map CreateOrderItemDto.wanted

end OrderApi

------------------------------------------------------------
-- Conformance of the Create Request
------------------------------------------------------------

namespace OrderApi

/- A request does not throw of itself amid an item. -/
def FillPhase.Thrown (phase : FillPhase) : Prop :=
  phase.amid? = none

/- Conformance to the calls of a create request. -/
abbrev FollowsFill
    {α : Type}
    (Post : α → FillPhase → Prop)
    (handler : Handler α)
    (phase : FillPhase) : Prop :=
  handler.Conforms FillPhase.Moves
    (Program.Ending FillPhase.Thrown Post) phase

variable {α : Type}

/- A call whose values are allowed; errors stop. -/
theorem followsFill_perform
    {op : StoreOp}
    {Post : op.Res → FillPhase → Prop}
    {phase : FillPhase}
    (hCall : phase.call? = some op)
    (hValue :
      ∀ value, ∃ phase',
        FillPhase.Moves phase op (.ok value) phase' ∧
          Post value phase') :
    FollowsFill Post (Program.perform op) phase := by
  apply Program.conforms_perform
  intro answer
  cases answer with
  | ok value => exact hValue value
  | error error =>
      have hStop :
          op.isRead = true ∨
            ∃ error' : ApiError,
              (Except.error error :
                  Except ApiError op.Res) =
                .error error' :=
        Or.inr ⟨error, rfl⟩
      exact
        ⟨.stopped, FillPhase.Moves.stop hCall hStop, rfl⟩

/- Reporting a missing database keeps conformance. -/
theorem followsFill_mapMissingDatabase
    {tenantCode : String}
    {Post : α → FillPhase → Prop}
    {handler : Handler α}
    {phase : FillPhase}
    (hFollows : FollowsFill Post handler phase) :
    FollowsFill Post (mapMissingDatabase tenantCode handler)
      phase := by
  apply Program.conforms_attempt_ending hFollows
  intro error phase' hThrown
  split
  · exact hThrown
  · exact hThrown

/- A read may stop the request. -/
theorem FillPhase.Moves.stop_read
    {phase : FillPhase}
    {op : StoreOp}
    {answer : Except ApiError op.Res}
    (hCall : phase.call? = some op)
    (hRead : op.isRead = true) :
    Moves phase op answer .stopped :=
  FillPhase.Moves.stop hCall (Or.inl hRead)

namespace OrderService

variable {cart : Cart} {item : CreateOrderItemDto}
variable {rest : List CreateOrderItemDto}

theorem followsFill_recalculateOrderTotal :
    FollowsFill (fun _ q => q = .between cart rest)
      (recalculateOrderTotal cart.db cart.orderId)
      (.summing cart rest) := by
  apply Program.conforms_bind_ending
  refine followsFill_perform rfl ?_
  intro items
  refine ⟨_, FillPhase.Moves.sum, ?_⟩
  apply Program.conforms_bind_ending
  refine followsFill_perform rfl ?_
  intro view
  exact ⟨_, FillPhase.Moves.total, rfl⟩

theorem followsFill_saveItem
    {product : Product}
    {found : Option OrderItem} :
    FollowsFill
      (fun _ q =>
        q = .summing (cart.add item product.price) rest)
      (saveItem cart.db cart.orderId
        ⟨item.product_id, item.qty⟩ cart.tenantCode product
        found)
      (.saving cart item rest product.price found) := by
  cases found with
  | none =>
      apply followsFill_mapMissingDatabase
      refine followsFill_perform rfl ?_
      intro line
      exact ⟨_, FillPhase.Moves.insert, rfl⟩
  | some found =>
      apply followsFill_mapMissingDatabase
      refine followsFill_perform rfl ?_
      intro line
      exact ⟨_, FillPhase.Moves.merge, rfl⟩

/- Between two items, the first of them is added. -/
theorem followsFill_addItemToOrder :
    FollowsFill
      (fun _ q =>
        ∃ price, q = .between (cart.add item price) rest)
      (addItemToOrder cart.db cart.orderId cart.userId
        ⟨item.product_id, item.qty⟩ cart.tenantCode)
      (.between cart (item :: rest)) := by
  apply Program.conforms_bind_ending
  refine followsFill_perform rfl ?_
  intro found
  cases found with
  | none =>
      exact
        ⟨_, FillPhase.Moves.stop_read rfl rfl, rfl⟩
  | some order =>
      by_cases hUser : order.userId = cart.userId
      swap
      · refine
          ⟨_, FillPhase.Moves.stop_read rfl rfl, ?_⟩
        simp only [ne_eq, hUser, not_false_eq_true, if_true]
        exact rfl
      by_cases hStatus : order.status = .PENDING
      swap
      · refine
          ⟨_, FillPhase.Moves.stop_read rfl rfl, ?_⟩
        simp only [ne_eq, hUser, not_true_eq_false,
          if_false, hStatus, not_false_eq_true, if_true]
        exact rfl
      refine ⟨_, FillPhase.Moves.check hStatus, ?_⟩
      simp only [ne_eq, hUser, hStatus, not_true_eq_false,
        if_false, Program.bind_eq]
      apply Program.conforms_bind_ending
      apply followsFill_mapMissingDatabase
      refine followsFill_perform rfl ?_
      intro product?
      cases product? with
      | none =>
          exact
            ⟨_, FillPhase.Moves.stop_read rfl rfl,
              rfl⟩
      | some product =>
          simp only
          split
          · exact
              ⟨_, FillPhase.Moves.stop_read rfl rfl,
                rfl⟩
          · refine ⟨_, FillPhase.Moves.price, ?_⟩
            apply Program.conforms_bind_ending
            refine followsFill_perform rfl ?_
            intro existing?
            refine ⟨_, FillPhase.Moves.seek, ?_⟩
            apply Program.conforms_bind_ending
            apply followsFill_saveItem.mono
            intro outcome q hOutcome
            cases outcome with
            | error error => exact hOutcome
            | ok orderItem =>
                rw [Program.ending_ok] at hOutcome
                subst hOutcome
                apply Program.conforms_bind_ending
                have hTotal :=
                  @followsFill_recalculateOrderTotal
                    (cart.add item product.price) rest
                apply hTotal.mono
                intro outcome q hOutcome
                cases outcome with
                | error error => exact hOutcome
                | ok _ => exact ⟨product.price, hOutcome⟩

end OrderService

/- The loop adds one item after the other. -/
theorem OrderController.followsFill_create
    {db : String}
    (user : AuthUser)
    (tenantCode : String)
    (body : CreateOrderDto) :
    FollowsFill (fun _ q => ∃ cart, q = .returned cart)
      (create db user tenantCode body)
      (.opening db user.id tenantCode body.items) := by
  simp only [create]
  split
  · exact rfl
  · apply Program.conforms_bind_ending
    apply followsFill_mapMissingDatabase
    refine followsFill_perform rfl ?_
    intro order
    refine ⟨_, FillPhase.Moves.opened, ?_⟩
    apply Program.conforms_bind_ending
    apply Program.conforms_forEach_ending
      (fun rest q =>
        ∃ added,
          q =
            .between
              ⟨db, order.id, user.id, tenantCode, added⟩
              rest)
    · rintro q ⟨added, rfl⟩
      apply Program.conforms_bind_ending
      refine followsFill_perform rfl ?_
      intro _
      refine ⟨_, FillPhase.Moves.publish, ?_⟩
      apply Program.conforms_bind_ending
      refine followsFill_perform rfl ?_
      intro found
      cases found with
      | none =>
          exact
            ⟨_, FillPhase.Moves.stop_read rfl rfl,
              rfl⟩
      | some view =>
          exact ⟨_, FillPhase.Moves.view, _, rfl⟩
    · rintro item rest q ⟨added, rfl⟩
      apply Program.conforms_ignore
      have hAdd :=
        @OrderService.followsFill_addItemToOrder
          ⟨db, order.id, user.id, tenantCode, added⟩ item
          rest
      apply hAdd.mono
      intro outcome q hOutcome
      cases outcome with
      | error error => exact hOutcome
      | ok _ =>
          rcases hOutcome with ⟨price, rfl⟩
          exact ⟨_, rfl⟩
    · exact ⟨[], rfl⟩

/- Any program conforms from aside. -/
theorem conforms_aside
    {Post : Except ApiError Unit → FillPhase → Prop}
    (hPost : ∀ outcome, Post outcome .aside)
    (handler : Handler Unit) :
    handler.Conforms FillPhase.Moves Post .aside := by
  induction handler with
  | done value => exact hPost _
  | fail error => exact hPost _
  | call op resume ih =>
      intro answer
      exact ⟨.aside, FillPhase.Moves.aside, ih answer⟩

end OrderApi

------------------------------------------------------------
-- The Script of the Order System
------------------------------------------------------------

namespace OrderApi

/- What the job's phase is once the job has returned. -/
def Job.FillEnds
    (job : Job)
    (outcome : Except ApiError Unit)
    (phase : FillPhase) : Prop :=
  job.isCreate = true →
    (outcome = .ok () → ∃ cart, phase = .returned cart) ∧
      phase.amid? = none

/- The script of create requests. -/
def fillScript (databaseName : String → String) :
    Script Job StoreOp StoreOp.Res ApiError FillPhase where
  protocol := FillPhase.Moves
  first := Job.fillPhase databaseName
  Ends := Job.FillEnds
  Owns := Job.Fills databaseName
  owns_first := by
    intro job
    cases job with
    | createOrder user tenantCode body =>
        exact ⟨user, body, rfl, rfl, rfl, rfl⟩
    | _ => rfl
  owns_next := by
    intro job phase op answer phase' hOwns hMoves
    cases hMoves with
    | opened =>
        rcases hOwns with ⟨user, body, rfl, rfl, rfl, rfl⟩
        rintro cart ⟨⟩
        exact ⟨user, body, rfl, rfl, rfl, rfl⟩
    | check hStatus => exact hOwns
    | price => exact hOwns
    | seek => exact hOwns
    | @insert cart item rest price line =>
        rintro _ ⟨⟩
        rcases hOwns cart rfl with
          ⟨user, body, hJob, hDb, hUser, hWanted⟩
        refine ⟨user, body, hJob, hDb, hUser, ?_⟩
        rw [← hWanted]
        simp [Cart.add, FillPhase.rest, Entry.wanted,
          CreateOrderItemDto.wanted]
    | @merge cart item rest price found line =>
        rintro _ ⟨⟩
        rcases hOwns cart rfl with
          ⟨user, body, hJob, hDb, hUser, hWanted⟩
        refine ⟨user, body, hJob, hDb, hUser, ?_⟩
        rw [← hWanted]
        simp [Cart.add, FillPhase.rest, Entry.wanted,
          CreateOrderItemDto.wanted]
    | sum => exact hOwns
    | total => exact hOwns
    | publish => exact hOwns
    | view => exact hOwns
    | stop hCall hStop =>
        cases phase with
        | aside => cases hCall
        | stopped => exact hOwns
        | opening db userId tenantCode items =>
            rcases hOwns with ⟨user, body, rfl, _⟩
            rfl
        | _ =>
            rcases hOwns _ rfl with ⟨user, body, rfl, _⟩
            rfl
    | aside => exact hOwns

/- Create requests end where they return their order. -/
theorem orderSystem_performs_fillScript
    (databaseName : String → String) :
    (orderSystem databaseName).Performs
      (fillScript databaseName) := by
  intro job
  cases job with
  | createOrder user tenantCode body =>
      have hIgnored :
          FollowsFill (fun _ q => ∃ cart, q = .returned cart)
            (OrderController.create
              (databaseName tenantCode) user tenantCode
              body).ignore
            (.opening (databaseName tenantCode) user.id
              tenantCode body.items) :=
        Program.conforms_ignore
          (OrderController.followsFill_create user tenantCode
            body)
      apply hIgnored.mono
      intro outcome q hOutcome _
      cases outcome with
      | ok value =>
          rcases hOutcome with ⟨cart, rfl⟩
          exact ⟨fun _ => ⟨cart, rfl⟩, rfl⟩
      | error error => exact ⟨nofun, hOutcome⟩
  | _ =>
      apply conforms_aside
      intro outcome hCreate
      cases hCreate

/-
  What a job fills, its phase may write, and what its phase
  may write, it fills or has stopped to fill.
-/
def Couples (phase : Phase × FillPhase) : Prop :=
  (∀ key, phase.2.fills? = some key →
    phase.1.adds? = some key) ∧
  ∀ key, phase.1.adds? = some key →
    phase.2.fills? = some key ∨ phase.2 = .stopped

theorem couples_first
    (databaseName : String → String)
    (job : Job) :
    Couples
      (job.phase databaseName,
        job.fillPhase databaseName) := by
  constructor
  · intro key hFills
    cases job <;> cases hFills
  · intro key hAdds
    rw [job.phase_adds? databaseName] at hAdds
    cases hAdds

/- A job goes on writing an order until it publishes it. -/
theorem Phase.Moves.adds?_ok
    {phase phase' : Phase}
    {op : StoreOp}
    {value : op.Res}
    {key : String × String}
    (hMoves : Moves phase op (.ok value) phase')
    (hAdds : phase.adds? = some key) :
    phase'.adds? = some key ∨
      ∃ message, op = .publishOrderProcessing message := by
  cases hMoves with
  | read hFinal hRead => exact Or.inl hAdds
  | addItem => exact Or.inl hAdds
  | findItem => exact Or.inl hAdds
  | mergeItem => exact Or.inl hAdds
  | total => exact Or.inl hAdds
  | publishProcessing => exact Or.inr ⟨_, rfl⟩
  | _ => cases hAdds

/- A job comes to write an order by creating it. -/
theorem Phase.Moves.adds?_none
    {phase phase' : Phase}
    {op : StoreOp}
    {answer : Except ApiError op.Res}
    (hMoves : Moves phase op answer phase')
    (hAdds : phase.adds? = none) :
    phase'.adds? = none ∨
      ∃ db userId tenantCode,
        phase = .creating db userId tenantCode := by
  cases hMoves with
  | read hFinal hRead => exact Or.inl hAdds
  | create => exact Or.inr ⟨_, _, _, rfl⟩
  | addItem => cases hAdds
  | findItem => cases hAdds
  | mergeItem => cases hAdds
  | total => cases hAdds
  | _ => exact Or.inl rfl

/- Phases on the same order, or both on none, couple. -/
theorem couples_of_eq
    {phase : Phase}
    {fill : FillPhase}
    (hSame : phase.adds? = fill.fills?) :
    Couples (phase, fill) :=
  ⟨fun _ hFills => hSame.trans hFills,
    fun _ hAdds => Or.inl (hSame.symm.trans hAdds)⟩

theorem couples_next
    {databaseName : String → String}
    {job : Job}
    {phase phase' : Phase × FillPhase}
    {op : StoreOp}
    {answer : Except ApiError op.Res}
    (hOwns : Job.Owns databaseName job phase.1)
    (hFills : Job.Fills databaseName job phase.2)
    (hCouples : Couples phase)
    (hMoves :
      Protocol.prod Phase.Moves FillPhase.Moves phase op
        answer phase') :
    Couples phase' := by
  rcases phase with ⟨phase, fill⟩
  rcases phase' with ⟨phase', fill'⟩
  rcases hMoves with ⟨hPhase, hFill⟩
  -- a call other than the publication stays on the order
  have hStay :
      ∀ {key : String × String} {value : op.Res},
        fill.fills? = some key → answer = .ok value →
          fill'.fills? = some key →
          (∀ message, op ≠ .publishOrderProcessing message) →
          Couples (phase', fill') := by
    intro key value hKey hValue hKey' hOther
    rw [hValue] at hPhase
    rcases hPhase.adds?_ok (hCouples.1 key hKey) with
      hAdds | ⟨message, hPublish⟩
    · exact couples_of_eq (hAdds.trans hKey'.symm)
    · exact (hOther message hPublish).elim
  cases hFill with
  | opened =>
      cases hPhase with
      | read hFinal hRead => cases hRead
      | create => exact couples_of_eq rfl
  | check hStatus => exact hStay rfl rfl rfl (by simp)
  | price => exact hStay rfl rfl rfl (by simp)
  | seek => exact hStay rfl rfl rfl (by simp)
  | insert => exact hStay rfl rfl rfl (by simp)
  | merge => exact hStay rfl rfl rfl (by simp)
  | sum => exact hStay rfl rfl rfl (by simp)
  | total => exact hStay rfl rfl rfl (by simp)
  | publish =>
      cases hPhase with
      | read hFinal hRead => cases hRead
      | publishProcessing => exact couples_of_eq rfl
  | view =>
      have hNone : phase.adds? = none := by
        cases hAdds : phase.adds? with
        | none => rfl
        | some key =>
            rcases hCouples.2 key hAdds with hKey | hStop
            · cases hKey
            · cases hStop
      cases hPhase with
      | read hFinal hRead => exact couples_of_eq hNone
  | stop hFilling hStop =>
      refine ⟨?_, fun _ _ => Or.inr rfl⟩
      intro key hKey
      cases hKey
  | aside =>
      have hNone : phase.adds? = none := by
        cases hAdds : phase.adds? with
        | none => rfl
        | some key =>
            rcases hCouples.2 key hAdds with hKey | hStop
            · cases hKey
            · cases hStop
      rcases hPhase.adds?_none hNone with
        hStill | ⟨db, userId, tenantCode, rfl⟩
      · exact couples_of_eq hStill
      · rcases hOwns with ⟨_, user, body, _, rfl⟩
        cases hFills

/- The phases of a job together with those of its filling. -/
def orderScript (databaseName : String → String) :
    Script Job StoreOp StoreOp.Res ApiError
      (Phase × FillPhase) :=
  (orderDiscipline databaseName).script.prod
    (fillScript databaseName) Couples
    (couples_first databaseName)
    (fun hOwns hFills hCouples hMoves =>
      couples_next hOwns hFills hCouples hMoves)

/- The handlers of all jobs perform the script. -/
theorem orderSystem_performs
    (databaseName : String → String) :
    (orderSystem databaseName).Performs
      (orderScript databaseName) := by
  have hPhases :
      (orderSystem databaseName).Performs
        (orderDiscipline databaseName).script :=
    orderSystem_obeys databaseName
  exact
    hPhases.prod
      (orderSystem_performs_fillScript databaseName)

end OrderApi
