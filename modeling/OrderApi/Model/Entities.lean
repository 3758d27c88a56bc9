import OrderApi.Core.Table

/-
  The rows of the Prisma schema, with the ranges of their
  PostgreSQL columns, the DTOs that the validation pipe lets
  through, and the errors that handlers throw.

  A money amount is counted in cents.  Columns that no
  modelled function reads (`updatedAt`, and `createdAt` of
  order lines) are left out.

  Key definitions include:
    * `Int4`, `Money`
    * `Role`, `OrderStatus`
    * `User`, `Product`, `Order`, `OrderItem`
    * `CreateOrderDto`
    * `CreateProductDto`, `UpdateProductDto`
    * `ApiError`
-/

------------------------------------------------------------
-- Columns
------------------------------------------------------------

namespace OrderApi

/- An integer column that rejects values out of range. -/
structure Bounded (low high : Int) where
  val : Int
  low_le : low ≤ val
  le_high : val ≤ high
deriving DecidableEq, Repr

namespace Bounded

variable {low high : Int}

/- The column value for an integer, if it is in range. -/
def ofInt? (n : Int) : Option (Bounded low high) :=
  if hLow : low ≤ n then
    if hHigh : n ≤ high then
      some ⟨n, hLow, hHigh⟩
    else
      none
  else
    none

theorem ofInt?_eq_some_iff
    {n : Int}
    {column : Bounded low high} :
    ofInt? n = some column ↔ column.val = n := by
  rcases column with ⟨val, hLow, hHigh⟩
  unfold ofInt?
  constructor
  · intro h
    split at h
    · split at h
      · simp only [Option.some.injEq, mk.injEq] at h
        exact h.symm
      · cases h
    · cases h
  · rintro rfl
    simp [hLow, hHigh]

theorem eq_of_val_eq
    {column column' : Bounded low high}
    (hVal : column.val = column'.val) :
    column = column' := by
  cases column
  cases column'
  simpa only [mk.injEq] using hVal

/- A number is in the range of the column, or is refused. -/
theorem ofInt?_cases (n : Int) :
    (∃ column : Bounded low high,
      column.val = n ∧
        (ofInt? n : Option (Bounded low high)) =
          some column) ∨
    (¬ (low ≤ n ∧ n ≤ high) ∧
      (ofInt? n : Option (Bounded low high)) = none) := by
  unfold ofInt?
  by_cases hLow : low ≤ n
  · by_cases hHigh : n ≤ high
    · rw [dif_pos hLow, dif_pos hHigh]
      exact Or.inl ⟨⟨n, hLow, hHigh⟩, rfl, rfl⟩
    · rw [dif_pos hLow, dif_neg hHigh]
      exact Or.inr ⟨fun hRange => hHigh hRange.2, rfl⟩
  · rw [dif_neg hLow]
    exact Or.inr ⟨fun hRange => hLow hRange.1, rfl⟩

end Bounded

/- PostgreSQL `INTEGER`. -/
abbrev Int4 := Bounded (-2147483648) 2147483647

/- PostgreSQL `DECIMAL(10, 2)`, in cents. -/
abbrev Money := Bounded (-9999999999) 9999999999

end OrderApi

------------------------------------------------------------
-- Rows
------------------------------------------------------------

namespace OrderApi

inductive Role where
  | ADMIN
  | CUSTOMER
deriving DecidableEq, Repr

inductive OrderStatus where
  | PENDING
  | WAITING_FOR_PAYMENT
  | PAID
  | COMPLETE
  | CANCELLED
deriving DecidableEq, Repr

/- A row of `users`, in the default database. -/
structure User where
  id : String
  email : String
  username : String
  password : String
  role : Role
  tenantCode : Option String
  isDatabaseCreated : Bool
deriving DecidableEq, Repr

/- A row of `products`. -/
structure Product where
  id : String
  name : String
  description : Option String
  price : Money
  stock : Int4
  createdAt : Nat
deriving DecidableEq, Repr

/- A row of `orders`. -/
structure Order where
  id : String
  userId : String
  status : OrderStatus
  total : Money
  paymentId : Option String
  transactionId : Option String
  createdAt : Nat
deriving DecidableEq, Repr

/- A row of `order_items`. -/
structure OrderItem where
  id : String
  orderId : String
  productId : String
  quantity : Int4
  price : Money
deriving DecidableEq, Repr

instance : Keyed User String := ⟨User.id⟩

instance : Keyed Product String := ⟨Product.id⟩

instance : Keyed Order String := ⟨Order.id⟩

instance : Keyed OrderItem String := ⟨OrderItem.id⟩

/-
  The user that `JwtStrategy.validate` puts on the request,
  as far as the order and product handlers read it.
-/
structure AuthUser where
  id : String
  role : Role
  tenantCode : Option String
deriving DecidableEq, Repr

end OrderApi

------------------------------------------------------------
-- Request Bodies
------------------------------------------------------------

namespace OrderApi

/- An item of a create request: `@IsInt() @Min(1) qty`. -/
structure CreateOrderItemDto where
  product_id : String
  qty : Int
  qty_min : 1 ≤ qty

/- The body of a create request: `@ArrayMinSize(1) items`. -/
structure CreateOrderDto where
  items : List CreateOrderItemDto
  items_min : items ≠ []

/- What the controller hands to `addItemToOrder`. -/
structure AddItemDto where
  productId : String
  quantity : Int

/- Body of a product creation: `@Min(0) stock?`. -/
structure CreateProductDto where
  name : String
  description : Option String
  price : Int
  stock : Option Int
  stock_min : ∀ n ∈ stock, 0 ≤ n

/-
  Body of a product update.  Every field is optional, and
  the description may also be set to null.
-/
structure UpdateProductDto where
  name : Option String
  description : Option (Option String)
  price : Option Int
  stock : Option Int
  stock_min : ∀ n ∈ stock, 0 ≤ n

end OrderApi

------------------------------------------------------------
-- Errors
------------------------------------------------------------

namespace OrderApi

/- The exception classes of the handlers, and store errors. -/
inductive ErrorKind where
  | badRequest
  | unauthorized
  | notFound
  | forbidden
  | conflict
  /- an error that no handler turns into a response -/
  | internal
  | store
deriving DecidableEq, Repr

/- A thrown error with its message. -/
structure ApiError where
  kind : ErrorKind
  message : String
deriving DecidableEq, Repr

/- `BadRequestException` of every missing tenant database. -/
def tenantDatabaseMissing (tenantCode : String) : ApiError :=
  ⟨.badRequest,
    "Tenant database for '" ++ tenantCode ++
      "' does not exist. Please ensure the tenant is " ++
      "properly set up."⟩

end OrderApi
