import OrderApi.Model.Registry

/-
  `src/user/user.service.ts`.

  Key definitions include:
    * `CreateUserDto`, `UpdateUserDto`
    * `UserService.create`
    * `UserService.findOne`
    * `UserService.update`
    * `UserService.remove`
    * `UserService.CallOfCreate`

  Key theorems include:
    * `UserService.calls_create_body`
-/

------------------------------------------------------------
-- User Service
------------------------------------------------------------

namespace OrderApi

/-
  The body of a user creation.  The validation pipe looks at
  the tenant code of an ADMIN only.
-/
structure CreateUserDto where
  email : String
  username : String
  password : String
  role : Option Role
  tenantCode : Option String
deriving DecidableEq, Repr

/-
  The body of a user update.  A field may be left out, and
  `@IsOptional` lets null pass as well.
-/
structure UpdateUserDto where
  email : Option (Option String)
  username : Option (Option String)
  password : Option (Option String)
  role : Option (Option Role)
deriving DecidableEq, Repr

/- The tenant code, unless it is falsy. -/
def CreateUserDto.code? (createUserDto : CreateUserDto) :
    Option String :=
  createUserDto.tenantCode.filter fun code => code ≠ ""

/- The columns that the responses `select`. -/
structure UserResponse where
  id : String
  email : String
  username : String
  role : Role
  tenantCode : Option String
  isDatabaseCreated : Bool
deriving DecidableEq, Repr

def User.response (user : User) : UserResponse :=
  { id := user.id
    email := user.email
    username := user.username
    role := user.role
    tenantCode := user.tenantCode
    isDatabaseCreated := user.isDatabaseCreated }

namespace UserService

/- `data` of the user that is created. -/
def dataOf
    (hashedPassword : String)
    (createUserDto : CreateUserDto) : UserData :=
  { email := createUserDto.email
    username := createUserDto.username
    password := hashedPassword
    role := createUserDto.role.getD .CUSTOMER
    tenantCode := createUserDto.code?
    isDatabaseCreated :=
      decide (createUserDto.role ≠ some .ADMIN) }

/- The check that nobody uses the tenant code yet. -/
def checkTenantCode : Option String → TenancyHandler Unit
  | none => pure ()
  | some tenantCode => do
      let existingTenant : Option User ←
        Program.perform
          (TenancyOp.userFindByTenantCode tenantCode)
      if existingTenant.isSome then
        .fail ⟨.conflict, "Tenant code is already in use"⟩
      else
        pure ()

/- Ask for the database; a failure is only logged. -/
def publishDatabaseCreation
    (userId : String) : Option String → TenancyHandler Unit
  | none => pure ()
  | some tenantCode =>
      Program.attempt
        (Program.perform
          (TenancyOp.publishDatabaseCreation
            ⟨userId, tenantCode⟩))
        fun _ => pure ()

/-
  `hashedPassword` is what `bcrypt.hash` made of the
  password.  A tenant code is present behind the two checks
  exactly for an ADMIN.
-/
def create
    (hashedPassword : String)
    (createUserDto : CreateUserDto) :
    TenancyHandler UserResponse :=
  if createUserDto.role = some .ADMIN ∧
      createUserDto.code? = none then
    .fail
      ⟨.badRequest, "tenantCode is required for ADMIN role"⟩
  else if createUserDto.role ≠ some .ADMIN ∧
      createUserDto.code? ≠ none then
    .fail
      ⟨.badRequest,
        "tenantCode can only be set for ADMIN role"⟩
  else do
    let existingUser : Option User ←
      Program.perform
        (TenancyOp.userFindByEmailOrUsername
          createUserDto.email createUserDto.username)
    if existingUser.isSome then
      .fail
        ⟨.conflict,
          "User with this email or username already exists"⟩
    else do
      checkTenantCode createUserDto.code?
      let user : User ←
        Program.perform
          (TenancyOp.userCreate
            (dataOf hashedPassword createUserDto))
      publishDatabaseCreation user.id createUserDto.code?
      pure user.response

def findAll : TenancyHandler (List UserResponse) := do
  let users : List User ←
    Program.perform TenancyOp.userFindMany
  pure (users.map User.response)

def findOne (id : String) : TenancyHandler UserResponse := do
  let user : Option User ←
    Program.perform (TenancyOp.userFindUnique id)
  match user with
  | none =>
      .fail
        ⟨.notFound, "User with ID " ++ id ++ " not found"⟩
  | some user => pure user.response

def findByEmail (email : String) :
    TenancyHandler (Option User) :=
  Program.perform (TenancyOp.userFindByEmail email)

/- A column of an update, if it is not set to null. -/
def column? {α : Type} :
    Option (Option α) → Option (Option α)
  | none => some none
  | some none => none
  | some (some value) => some (some value)

/-
  `data` of the update, with the password hashed.  No column
  may be null, which Prisma checks before its call.
-/
def updateData?
    (hashedPassword : String)
    (updateUserDto : UpdateUserDto) : Option UserUpdate := do
  let email ← column? updateUserDto.email
  let username ← column? updateUserDto.username
  let password ← column? updateUserDto.password
  let role ← column? updateUserDto.role
  pure
    { email := email
      username := username
      password := password.map fun _ => hashedPassword
      role := role }

/- The tenant code is not looked at here. -/
def update
    (hashedPassword id : String)
    (updateUserDto : UpdateUserDto) :
    TenancyHandler UserResponse := do
  let _ ← findOne id
  match updateData? hashedPassword updateUserDto with
  | none =>
      .fail (storeError "Argument must not be null.")
  | some data =>
      let user : User ←
        Program.perform (TenancyOp.userUpdate id data)
      pure user.response

def remove (id : String) : TenancyHandler UserResponse := do
  let _ ← findOne id
  let user : User ←
    Program.perform (TenancyOp.userDelete id)
  pure user.response

/- The response of `checkDatabaseStatus`. -/
structure DatabaseStatus where
  userId : String
  isDatabaseCreated : Bool
  message : String
deriving DecidableEq, Repr

def checkDatabaseStatus (userId : String) :
    TenancyHandler DatabaseStatus := do
  let user ← findOne userId
  pure
    { userId := user.id
      isDatabaseCreated := user.isDatabaseCreated
      message :=
        if user.isDatabaseCreated then
          "Database is ready for use"
        else
          "Database creation is in progress or failed" }

end UserService

end OrderApi

------------------------------------------------------------
-- The Calls of a Creation
------------------------------------------------------------

namespace OrderApi

namespace UserService

open Program

/- What passes both checks of the tenant code. -/
def Admitted (body : CreateUserDto) : Prop :=
  body.role = some .ADMIN ↔ body.code? ≠ none

/- What the creation from a body may call. -/
def CallOfCreate
    (hashedPassword : String)
    (body : CreateUserDto) : TenancyOp → Prop
  | .userFindByEmailOrUsername _ _ => True
  | .userFindByTenantCode _ => True
  | .publishDatabaseCreation _ => True
  | .userCreate data =>
      data = dataOf hashedPassword body ∧ Admitted body
  | _ => False

theorem admitted_of_checks
    {body : CreateUserDto}
    (hAdmin :
      ¬ (body.role = some .ADMIN ∧ body.code? = none))
    (hOther :
      ¬ (body.role ≠ some .ADMIN ∧ body.code? ≠ none)) :
    Admitted body := by
  constructor
  · intro hRole hNone
    exact hAdmin ⟨hRole, hNone⟩
  · intro hSome
    by_contra hRole
    exact hOther ⟨hRole, hSome⟩

theorem calls_checkTenantCode
    {hashedPassword : String}
    {body : CreateUserDto}
    (code : Option String) :
    Calls (CallOfCreate hashedPassword body)
      (checkTenantCode code) := by
  cases code with
  | none => exact calls_done ()
  | some tenantCode =>
      refine
        calls_bind (calls_perform trivial)
          fun existingTenant => ?_
      split
      · exact calls_fail _
      · exact calls_done ()

theorem calls_publishDatabaseCreation
    {hashedPassword : String}
    {body : CreateUserDto}
    (userId : String)
    (code : Option String) :
    Calls (CallOfCreate hashedPassword body)
      (publishDatabaseCreation userId code) := by
  cases code with
  | none => exact calls_done ()
  | some tenantCode =>
      exact
        calls_attempt (calls_perform trivial) fun _ =>
          calls_done ()

/- A creation writes the row of its body, once admitted. -/
theorem calls_create_body
    (hashedPassword : String)
    (body : CreateUserDto) :
    Calls (CallOfCreate hashedPassword body)
      (create hashedPassword body) := by
  unfold create
  split
  · exact calls_fail _
  rename_i hAdmin
  split
  · exact calls_fail _
  rename_i hOther
  have hRow :
      CallOfCreate hashedPassword body
        (.userCreate (dataOf hashedPassword body)) :=
    ⟨rfl, admitted_of_checks hAdmin hOther⟩
  refine
    calls_bind (calls_perform trivial) fun existingUser => ?_
  split
  · exact calls_fail _
  · exact
      calls_bind (calls_checkTenantCode _) fun _ =>
        calls_bind (calls_perform hRow) fun user =>
          calls_bind
            (calls_publishDatabaseCreation user.id _)
            fun _ => calls_done _

end UserService

end OrderApi
