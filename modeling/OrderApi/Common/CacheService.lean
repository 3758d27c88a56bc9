import OrderApi.Common.Request
import OrderApi.Core.Cache

/-
  `src/common/services/cache.service.ts`.

  Redis is a cache under string keys.  What it keeps may
  expire at any moment, whatever its time to live.

  Key definitions include:
    * `globMatches`
    * `CacheArgs`
    * `CacheService.generateCacheKey`
    * `CacheService.del`
    * `CacheService.delMethodUserKeys`

  Key theorems include:
    * `globMatches_star`
    * `CacheService.key_object_inj`
    * `CacheService.key_text_ne_object`
    * `CacheService.key_text_inj`
-/

------------------------------------------------------------
-- Glob Patterns
------------------------------------------------------------

namespace OrderApi

/- The items of a pattern of the Redis command `KEYS`. -/
inductive GlobItem where
  | star
  | one (accepts : Char → Bool)

/- The characters between two ends, in either order. -/
def inRange (low high c : Char) : Bool :=
  (low ≤ c && c ≤ high) || (high ≤ c && c ≤ low)

mutual

def globItems : List Char → List GlobItem
  | [] => []
  | '*' :: cs => .star :: globItems cs
  | '?' :: cs => .one (fun _ => true) :: globItems cs
  | '\\' :: c :: cs => .one (fun d => d = c) :: globItems cs
  | '[' :: '^' :: cs => globClass true (fun _ => false) cs
  | '[' :: cs => globClass false (fun _ => false) cs
  | c :: cs => .one (fun d => d = c) :: globItems cs

/- The rest of a class of characters. -/
def globClass (negated : Bool) (accepts : Char → Bool) :
    List Char → List GlobItem
  | [] => [.one fun c => accepts c ≠ negated]
  | ']' :: cs =>
      .one (fun c => accepts c ≠ negated) :: globItems cs
  | '\\' :: d :: cs =>
      globClass negated (fun c => accepts c || c = d) cs
  | low :: '-' :: high :: cs =>
      globClass negated
        (fun c => accepts c || inRange low high c) cs
  | d :: cs =>
      globClass negated (fun c => accepts c || c = d) cs

end

def itemsMatch : List GlobItem → List Char → Bool
  | [], text => text.isEmpty
  | .star :: items, text => text.tails.any (itemsMatch items)
  | .one _ :: _, [] => false
  | .one accepts :: items, c :: cs =>
      accepts c && itemsMatch items cs

/- Whether `KEYS pattern` returns a key. -/
def globMatches (pattern key : String) : Bool :=
  itemsMatch (globItems pattern.toList) key.toList

example : globMatches "a?[x-z]*" "abyss" = true := by
  decide

/- A character that stands for itself in a pattern. -/
def literal (c : Char) : Bool :=
  c ∉ ['*', '?', '\\', '[']

theorem globItems_literal
    {c : Char}
    (hLiteral : literal c = true)
    (cs : List Char) :
    globItems (c :: cs) =
      .one (fun d => d = c) :: globItems cs := by
  simp only [literal, List.mem_cons, List.not_mem_nil,
    or_false, not_or, decide_eq_true_eq] at hLiteral
  rcases hLiteral with ⟨hStar, hAny, hEscape, hClass⟩
  rw [globItems.eq_def]
  split <;> simp_all

/- A pattern `text*` returns the keys that start so. -/
theorem globMatches_star
    {text key : String}
    (hLiteral : text.toList.all literal = true) :
    globMatches (text ++ "*") key = true ↔
      text.toList <+: key.toList := by
  unfold globMatches
  rw [String.toList_append]
  generalize key.toList = cs
  generalize text.toList = part at hLiteral
  induction part generalizing cs with
  | nil =>
      have hItems : globItems ['*'] = [.star] := by
        simp [globItems]
      simp only [List.nil_append]
      change itemsMatch (globItems ['*']) cs = true ↔ _
      rw [hItems]
      simp only [itemsMatch, List.any_eq_true,
        List.nil_prefix, iff_true]
      exact ⟨[], by simp, rfl⟩
  | cons c part ih =>
      simp only [List.all_cons, Bool.and_eq_true] at hLiteral
      rw [List.cons_append, globItems_literal hLiteral.1]
      cases cs with
      | nil => simp [itemsMatch]
      | cons d cs =>
          simp only [itemsMatch, Bool.and_eq_true,
            decide_eq_true_eq, ih cs hLiteral.2,
            List.cons_prefix_cons]
          constructor
          · rintro ⟨rfl, hRest⟩
            exact ⟨rfl, hRest⟩
          · rintro ⟨rfl, hRest⟩
            exact ⟨rfl, hRest⟩

end OrderApi

------------------------------------------------------------
-- Cache Service
------------------------------------------------------------

namespace OrderApi

/- The `args` of a key: undefined, a string, an object. -/
inductive CacheArgs where
  | none
  | text (value : String)
  | object (value : JsObject)

namespace CacheService

def argsString : CacheArgs → String
  | .none => ""
  | .text value => ":" ++ value
  | .object value => ":" ++ value.stringify

/-
  `override ?? (getTenantCode() || 'default')` as a text.  A
  code that came as a query parameter may have none.
-/
def tenantText
    (tenantCode : Option JsVal)
    (tenantCodeOverride : Option String) : Option String :=
  match tenantCodeOverride with
  | some tenantCode => some tenantCode
  | none =>
      match truthy? tenantCode with
      | none => some "default"
      | some tenantCode => tenantCode.toText?

/- Building a key fails where a template string does. -/
def generateCacheKey
    (tenantCode : Option JsVal)
    (controllerName methodName : String)
    (args : CacheArgs)
    (tenantCodeOverride : Option String) : Option String :=
  (tenantText tenantCode tenantCodeOverride).map fun tenant =>
    tenant ++ ":" ++ controllerName ++ ":" ++ methodName ++
      argsString args

/- The key that `get` looks up and `set` writes. -/
def key
    (tenantCode : Option JsVal)
    (controllerName methodName : String)
    (args : CacheArgs) : Option String :=
  generateCacheKey tenantCode controllerName methodName args
    none

/- The keys that a call deletes. -/
def del
    (tenantCode : Option JsVal)
    (controllerName methodName : String)
    (args : CacheArgs)
    (tenantCodeOverride : Option String)
    (key : String) : Bool :=
  generateCacheKey tenantCode controllerName methodName args
    tenantCodeOverride = some key

def delMethodUserKeys
    (tenantCode : Option JsVal)
    (controllerName methodName userId : String)
    (tenantCodeOverride : Option String)
    (key : String) : Bool :=
  (tenantText tenantCode tenantCodeOverride).any fun tenant =>
    globMatches
      (tenant ++ ":" ++ controllerName ++ ":" ++ methodName ++
        ":" ++ userId ++ "*") key

def delPattern
    (tenantCode : Option JsVal)
    (controllerName : String)
    (tenantCodeOverride : Option String)
    (key : String) : Bool :=
  (tenantText tenantCode tenantCodeOverride).any fun tenant =>
    globMatches (tenant ++ ":" ++ controllerName ++ ":*") key

end CacheService

end OrderApi

------------------------------------------------------------
-- Which Requests Share a Key
------------------------------------------------------------

namespace OrderApi

namespace CacheService

/- A name that may stand before a colon and an object. -/
def EndsPlain (name : String) : Prop :=
  ∃ init last, name.toList = init ++ [last] ∧ last ≠ '"'

/- What stands before the arguments in a key. -/
def keyFront (tenant controllerName methodName : String) :
    List Char :=
  tenant.toList ++ ':' ::
    (controllerName.toList ++ ':' :: methodName.toList)

theorem key_text
    {tenantCode : Option JsVal}
    {controllerName methodName value k : String}
    (hKey :
      key tenantCode controllerName methodName
        (.text value) = some k) :
    ∃ tenant, tenantText tenantCode none = some tenant ∧
      k.toList =
        keyFront tenant controllerName methodName ++
          ':' :: value.toList := by
  rcases Option.map_eq_some_iff.mp hKey with
    ⟨tenant, hTenant, rfl⟩
  refine ⟨tenant, hTenant, ?_⟩
  simp [keyFront, argsString]

theorem key_object
    {tenantCode : Option JsVal}
    {controllerName methodName k : String}
    {value : JsObject}
    (hKey :
      key tenantCode controllerName methodName
        (.object value) = some k) :
    ∃ tenant, tenantText tenantCode none = some tenant ∧
      k.toList =
        keyFront tenant controllerName methodName ++
          ':' :: (JsVal.obj value.fields).json := by
  rcases Option.map_eq_some_iff.mp hKey with
    ⟨tenant, hTenant, rfl⟩
  refine ⟨tenant, hTenant, ?_⟩
  simp [keyFront, argsString, JsObject.stringify]

/- Keys with objects determine what they are built from. -/
theorem key_object_inj
    {tenantCode tenantCode' : Option JsVal}
    {controllerName controllerName' : String}
    {methodName methodName' k : String}
    {value value' : JsObject}
    (hName : EndsPlain methodName)
    (hName' : EndsPlain methodName')
    (hValue : KeyedText (JsVal.obj value.fields).json)
    (hValue' : KeyedText (JsVal.obj value'.fields).json)
    (hKey :
      key tenantCode controllerName methodName
        (.object value) = some k)
    (hKey' :
      key tenantCode' controllerName' methodName'
        (.object value') = some k) :
    (∃ tenant tenant',
      tenantText tenantCode none = some tenant ∧
        tenantText tenantCode' none = some tenant' ∧
        keyFront tenant controllerName methodName =
          keyFront tenant' controllerName' methodName') ∧
      value.fields = value'.fields := by
  rcases key_object hKey with ⟨tenant, hTenant, hText⟩
  rcases key_object hKey' with ⟨tenant', hTenant', hText'⟩
  rcases hName with ⟨init, last, hInit, hLast⟩
  rcases hName' with ⟨init', last', hInit', hLast'⟩
  have hSame := hText.symm.trans hText'
  have hFront :
      keyFront tenant controllerName methodName =
        (tenant.toList ++ ':' ::
          (controllerName.toList ++ ':' :: init)) ++
            [last] := by
    simp [keyFront, hInit]
  have hFront' :
      keyFront tenant' controllerName' methodName' =
        (tenant'.toList ++ ':' ::
          (controllerName'.toList ++ ':' :: init')) ++
            [last'] := by
    simp [keyFront, hInit']
  rw [hFront, hFront', ← List.append_cons,
    ← List.append_cons] at hSame
  rcases
    keyedText_of_append hLast hLast' hValue hValue' hSame
      with ⟨hFronts, hJson⟩
  refine
    ⟨⟨tenant, tenant', hTenant, hTenant', ?_⟩, ?_⟩
  · rw [hFront, hFront']
    exact hFronts
  · have hObjects :=
      JsVal.json_append_inj (.obj value.fields)
        (.obj value'.fields)
        (congrArg (fun text => text ++ []) hJson)
    exact JsVal.obj.inj hObjects.1

/- A key with a text is no key with an object. -/
theorem key_text_ne_object
    {tenantCode tenantCode' : Option JsVal}
    {controllerName controllerName' : String}
    {methodName methodName' text k : String}
    {value : JsObject}
    (hBrace : '}' ∉ text.toList)
    (hKey :
      key tenantCode controllerName methodName
        (.text text) = some k)
    (hKey' :
      key tenantCode' controllerName' methodName'
        (.object value) = some k) :
    False := by
  rcases key_text hKey with ⟨tenant, _, hText⟩
  rcases key_object hKey' with ⟨tenant', _, hText'⟩
  rcases json_obj_ends value.fields with ⟨init, hInit⟩
  have hSame :
      keyFront tenant controllerName methodName ++
          ':' :: text.toList =
        (keyFront tenant' controllerName' methodName' ++
          ':' :: init) ++ ['}'] := by
    rw [← hText, hText', hInit, List.append_assoc,
      List.cons_append]
  have hLast : (':' :: text.toList).getLast? = some '}' := by
    have hBoth := congrArg List.getLast? hSame
    rw [List.getLast?_append_of_ne_nil _
      (List.cons_ne_nil _ _), List.getLast?_concat] at hBoth
    exact hBoth
  have hMem := List.mem_of_getLast? hLast
  rcases List.mem_cons.mp hMem with hColon | hChars
  · exact absurd hColon (by decide)
  · exact hBrace hChars

/- Keys with texts free of colons determine these. -/
theorem key_text_inj
    {tenantCode tenantCode' : Option JsVal}
    {controllerName controllerName' : String}
    {methodName methodName' text text' k : String}
    (hText : ':' ∉ text.toList)
    (hText' : ':' ∉ text'.toList)
    (hKey :
      key tenantCode controllerName methodName
        (.text text) = some k)
    (hKey' :
      key tenantCode' controllerName' methodName'
        (.text text') = some k) :
    text = text' := by
  rcases key_text hKey with ⟨tenant, _, hChars⟩
  rcases key_text hKey' with ⟨tenant', _, hChars'⟩
  exact
    String.toList_inj.mp
      (eq_of_append_separator hText hText'
        (hChars.symm.trans hChars'))

end CacheService

end OrderApi
