import OrderApi.Model.Entities

/-
  The global `ValidationPipe` of `src/main.ts`, with
  `whitelist` and `forbidNonWhitelisted`.

  A body class is the list of its properties, with what
  their decorators ask of a text.  None of the decorators
  used with it lets a value pass that is not a text.

  Key definitions include:
    * `Body`
    * `BodyClass`
    * `ValidationPipe.transform`

  Key theorems include:
    * `ValidationPipe.names_of_transform`
-/

------------------------------------------------------------
-- Bodies
------------------------------------------------------------

namespace OrderApi

/- The value of a property of a parsed body. -/
inductive BodyValue where
  | text (text : String)
  /- null, a boolean, a number, an array or an object -/
  | other
deriving DecidableEq, Repr

/- The properties of a parsed body. -/
abbrev Body := List (String × BodyValue)

namespace Body

def value? (body : Body) (name : String) :
    Option BodyValue :=
  (body.find? fun property => property.1 = name).map Prod.snd

/- The text of a property that was validated. -/
def text (body : Body) (name : String) : String :=
  match body.value? name with
  | some (.text text) => text
  | _ => ""

end Body

/- The decorated properties of a class. -/
abbrev BodyClass := List (String × (String → Bool))

namespace ValidationPipe

/- Whether the decorators of a property let its value pass. -/
def accepts
    (body : Body)
    (property : String × (String → Bool)) : Bool :=
  match body.value? property.1 with
  | some (.text text) => property.2 text
  | _ => false

/- The exception has its messages in its response only. -/
def refused : ApiError :=
  ⟨.badRequest, "Bad Request Exception"⟩

/-
  A body passes if it has no property but those of the
  class, and each of them passes.
-/
def transform
    (bodyClass : BodyClass)
    (body : Body) : Except ApiError Body :=
  if (body.all fun property =>
        property.1 ∈ bodyClass.map Prod.fst) ∧
      bodyClass.all (accepts body) then
    .ok body
  else
    .error refused

/- What passes names properties of the class alone. -/
theorem names_of_transform
    {bodyClass : BodyClass}
    {body body' : Body}
    (hPasses : transform bodyClass body = .ok body') :
    body' = body ∧
      ∀ property ∈ body,
        property.1 ∈ bodyClass.map Prod.fst := by
  unfold transform at hPasses
  split at hPasses
  · rename_i hAccepted
    cases hPasses
    refine ⟨rfl, ?_⟩
    intro property hMem
    have hNames := List.all_eq_true.mp hAccepted.1
    exact of_decide_eq_true (hNames property hMem)
  · cases hPasses

end ValidationPipe

end OrderApi
