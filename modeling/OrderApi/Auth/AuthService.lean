import OrderApi.Common.ValidationPipe
import OrderApi.User.UserService

/-
  `src/auth`: the auth service, the JWT strategy and the
  roles guard.

  Key definitions include:
    * `RegisterDto`, `LoginDto`
    * `AuthPlatform`
    * `AuthService.login`
    * `AuthService.register`
    * `JwtStrategy.validate`
    * `RolesGuard.canActivate`
-/

------------------------------------------------------------
-- Bodies
------------------------------------------------------------

namespace OrderApi

/- The payload of a token. -/
structure JwtPayload where
  email : String
  sub : String
  role : Role
  tenantCode : Option String
deriving DecidableEq, Repr

/-
  What the libraries of the auth service compute: the email
  check and the length of `class-validator`, the comparison
  of `bcrypt`, and the signature of a token.
-/
structure AuthPlatform where
  isEmail : String → Bool
  textLength : String → Nat
  compare : String → String → Bool
  sign : JwtPayload → String

structure RegisterDto where
  email : String
  username : String
  password : String
deriving DecidableEq, Repr

namespace RegisterDto

def bodyClass (auth : AuthPlatform) : BodyClass :=
  [("email", fun text => auth.isEmail text && text ≠ ""),
   ("username", fun text =>
      text ≠ "" && 3 ≤ auth.textLength text),
   ("password", fun text =>
      text ≠ "" && 6 ≤ auth.textLength text)]

def ofBody
    (auth : AuthPlatform)
    (body : Body) : Except ApiError RegisterDto := do
  let body ← ValidationPipe.transform (bodyClass auth) body
  pure
    { email := body.text "email"
      username := body.text "username"
      password := body.text "password" }

end RegisterDto

structure LoginDto where
  email : String
  password : String
deriving DecidableEq, Repr

namespace LoginDto

def bodyClass (auth : AuthPlatform) : BodyClass :=
  [("email", fun text => auth.isEmail text && text ≠ ""),
   ("password", fun text => text ≠ "")]

def ofBody
    (auth : AuthPlatform)
    (body : Body) : Except ApiError LoginDto := do
  let body ← ValidationPipe.transform (bodyClass auth) body
  pure
    { email := body.text "email"
      password := body.text "password" }

end LoginDto

end OrderApi

------------------------------------------------------------
-- Auth Service
------------------------------------------------------------

namespace OrderApi

/- The user in the response of a login or a registration. -/
structure SessionUser where
  id : String
  email : String
  username : String
  role : Role
  tenantCode : Option String
deriving DecidableEq, Repr

structure AuthResponse where
  access_token : String
  user : SessionUser
deriving DecidableEq, Repr

namespace AuthService

/- A truthy tenant code, or else `undefined`. -/
def code? (tenantCode : Option String) : Option String :=
  tenantCode.filter fun code => code ≠ ""

def invalidCredentials : ApiError :=
  ⟨.unauthorized, "Invalid credentials"⟩

def validateUser
    (auth : AuthPlatform)
    (email password : String) : TenancyHandler User := do
  let user ← UserService.findByEmail email
  match user with
  | none => .fail invalidCredentials
  | some user =>
      if auth.compare password user.password then
        pure user
      else
        .fail invalidCredentials

def login
    (auth : AuthPlatform)
    (loginDto : LoginDto) : TenancyHandler AuthResponse := do
  let user ←
    validateUser auth loginDto.email loginDto.password
  pure
    { access_token :=
        auth.sign
          { email := user.email
            sub := user.id
            role := user.role
            tenantCode := code? user.tenantCode }
      user :=
        { id := user.id
          email := user.email
          username := user.username
          role := user.role
          tenantCode := code? user.tenantCode } }

/- `{ ...registerDto, role: 'CUSTOMER' }`. -/
def customerOf (registerDto : RegisterDto) : CreateUserDto :=
  { email := registerDto.email
    username := registerDto.username
    password := registerDto.password
    role := some .CUSTOMER
    tenantCode := none }

/- Both branches of its `catch` throw the error again. -/
def register
    (auth : AuthPlatform)
    (hashedPassword : String)
    (registerDto : RegisterDto) :
    TenancyHandler AuthResponse := do
  let user ←
    UserService.create hashedPassword (customerOf registerDto)
  pure
    { access_token :=
        auth.sign
          { email := user.email
            sub := user.id
            role := user.role
            tenantCode := none }
      user :=
        { id := user.id
          email := user.email
          username := user.username
          role := user.role
          tenantCode := none } }

end AuthService

end OrderApi

------------------------------------------------------------
-- Strategy and Guard
------------------------------------------------------------

namespace OrderApi

/- The columns that `validate` selects. -/
structure ValidatedUser where
  id : String
  email : String
  username : String
  role : Role
  tenantCode : Option String
deriving DecidableEq, Repr

def User.validated (user : User) : ValidatedUser :=
  { id := user.id
    email := user.email
    username := user.username
    role := user.role
    tenantCode := user.tenantCode }

/- What the order and product handlers read of it. -/
def ValidatedUser.authUser (user : ValidatedUser) : AuthUser :=
  { id := user.id
    role := user.role
    tenantCode := user.tenantCode }

/- The user is read from its row, whatever the token says. -/
def JwtStrategy.validate (payload : JwtPayload) :
    TenancyHandler ValidatedUser := do
  let user : Option User ←
    Program.perform (TenancyOp.userFindUnique payload.sub)
  match user with
  | none => .fail ⟨.unauthorized, "Unauthorized"⟩
  | some user => pure user.validated

namespace RolesGuard

/- `none` stands for a handler without `@Roles`. -/
def canActivate
    (requiredRoles : Option (List Role))
    (user : ValidatedUser) : Bool :=
  match requiredRoles with
  | none => true
  | some roles => roles.any fun role => user.role = role

/- The exception of a guard that does not let pass. -/
def forbidden : ApiError :=
  ⟨.forbidden, "Forbidden resource"⟩

end RolesGuard

end OrderApi
