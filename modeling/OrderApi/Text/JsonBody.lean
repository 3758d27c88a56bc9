import OrderApi.Text.JsObject
import OrderApi.Text.JsString

/-
  JSON bodies of requests, and their texts.

  The text of a value ends by itself, so that texts of
  arrays and objects are equal only part by part.

  Key definitions include:
    * `JsonVal`, `JsonVal.json`
    * `JsonObject`, `JsonBody`
    * `JsonVal.AgreesBut`

  Key theorems include:
    * `JsonVal.json_append_cancel`
    * `JsonVal.json_arr_eq_iff`
    * `JsonVal.json_obj_eq_iff`
    * `JsonVal.json_eq_iff_agreesBut`
-/

------------------------------------------------------------
-- Values and Their Texts
------------------------------------------------------------

namespace OrderApi

/- A character that ends no number and no literal. -/
def isPlain (c : Char) : Bool :=
  c ∉ ['"', '[', ']', '{', '}', ',', ':']

/- A finite number, as `JSON.stringify` writes it. -/
structure JsNumber where
  text : String
  nonempty : text ≠ ""
  numeral :
    ∀ c ∈ text.toList,
      c.isDigit = true ∨ c ∈ ['-', '+', '.', 'e']
deriving DecidableEq

inductive JsLiteral where
  | null
  | bool (value : Bool)
  | number (value : JsNumber)
  /- a number too large for a double, such as `1e999` -/
  | infinite
deriving DecidableEq

namespace JsLiteral

def text : JsLiteral → String
  | null => "null"
  | bool true => "true"
  | bool false => "false"
  | number value => value.text
  | infinite => "null"

def truthy : JsLiteral → Bool
  | null => false
  | bool value => value
  | number value => value.text ≠ "0"
  | infinite => true

end JsLiteral

/- A value that a JSON body parses to. -/
inductive JsonVal where
  | literal (value : JsLiteral)
  | str (text : String)
  | arr (items : List JsonVal)
  | obj (fields : List (String × JsonVal))

abbrev JsonField := String × JsonVal

mutual

/- `JSON.stringify` of a value. -/
def JsonVal.json : JsonVal → List Char
  | .literal value => value.text.toList
  | .str text => quote text
  | .arr [] => ['[', ']']
  | .arr (item :: items) =>
      '[' :: (item.json ++ moreValues items)
  | .obj [] => ['{', '}']
  | .obj ((key, value) :: fields) =>
      '{' :: (quote key ++
        ':' :: (value.json ++ moreJsonFields fields))

/- The items after the first, with the closing bracket. -/
def moreValues : List JsonVal → List Char
  | [] => [']']
  | item :: items => ',' :: (item.json ++ moreValues items)

/- The fields after the first, with the closing brace. -/
def moreJsonFields : List JsonField → List Char
  | [] => ['}']
  | (key, value) :: fields =>
      ',' :: (quote key ++
        ':' :: (value.json ++ moreJsonFields fields))

end

/- What `if (value)` tests. -/
def JsonVal.truthy : JsonVal → Bool
  | .literal value => value.truthy
  | .str text => text ≠ ""
  | _ => true

end OrderApi

------------------------------------------------------------
-- Bodies
------------------------------------------------------------

namespace OrderApi

/- The fields of an object have different keys. -/
structure JsonObject where
  fields : List JsonField
  nodup : (fields.map Prod.fst).Nodup

namespace JsonObject

def get? (object : JsonObject) (key : String) :
    Option JsonVal :=
  (object.fields.find? fun field => field.1 = key).map
    Prod.snd

/- `object[key] = value`, for a key that is there. -/
def overwrite
    (object : JsonObject)
    (key : String)
    (value : JsonVal) : JsonObject where
  fields :=
    object.fields.map fun field =>
      (field.1, if field.1 = key then value else field.2)
  nodup := by
    rw [List.map_map]
    exact object.nodup

/- `Object.keys(object).length > 0` -/
def nonempty (object : JsonObject) : Bool :=
  !object.fields.isEmpty

/- `JSON.stringify(object)` -/
def stringify (object : JsonObject) : String :=
  String.ofList (JsonVal.obj object.fields).json

end JsonObject

/- The parser of JSON bodies accepts objects and arrays. -/
inductive JsonBody where
  | object (content : JsonObject)
  | array (items : List JsonVal)

/- The items of an array, by their indices. -/
def indexed (n : Nat) : List JsonVal → List JsonField
  | [] => []
  | item :: items => (toString n, item) :: indexed (n + 1) items

theorem toString_nat_inj
    {m n : Nat}
    (hText : toString m = toString n) :
    m = n := by
  have hDigits := congrArg String.toList hText
  simp only [Nat.toString_eq_repr, Nat.toList_repr] at hDigits
  rw [← @Nat.ofDigitChars_ten_toDigits m, hDigits,
    Nat.ofDigitChars_ten_toDigits]

/- The keys of the items start with the first index. -/
theorem le_of_mem_indexed
    {n : Nat}
    {items : List JsonVal}
    {key : String}
    (hKey : key ∈ (indexed n items).map Prod.fst) :
    ∃ m, n ≤ m ∧ key = toString m := by
  induction items generalizing n with
  | nil => simp [indexed] at hKey
  | cons item items ih =>
      rw [indexed, List.map_cons, List.mem_cons] at hKey
      rcases hKey with rfl | hLater
      · exact ⟨n, Nat.le_refl n, rfl⟩
      · rcases ih hLater with ⟨m, hLe, rfl⟩
        exact ⟨m, by omega, rfl⟩

theorem nodup_indexed
    (n : Nat)
    (items : List JsonVal) :
    ((indexed n items).map Prod.fst).Nodup := by
  induction items generalizing n with
  | nil => exact List.nodup_nil
  | cons item items ih =>
      rw [indexed, List.map_cons, List.nodup_cons]
      refine ⟨?_, ih (n + 1)⟩
      intro hMem
      rcases le_of_mem_indexed hMem with ⟨m, hLe, hText⟩
      have hSame := toString_nat_inj hText
      omega

namespace JsonBody

/- The body, as a value. -/
def value : JsonBody → JsonVal
  | object content => .obj content.fields
  | array items => .arr items

/- `{ ...body }` -/
def spread : JsonBody → JsonObject
  | object content => content
  | array items => ⟨indexed 0 items, nodup_indexed 0 items⟩

end JsonBody

end OrderApi

------------------------------------------------------------
-- Texts End by Themselves
------------------------------------------------------------

namespace OrderApi

/- No number and no literal goes on in the text. -/
def Closes (text : List Char) : Prop :=
  ∀ c ∈ text.head?, isPlain c = false

theorem closes_cons
    {c : Char}
    {text : List Char}
    (hDelimiter : isPlain c = false) :
    Closes (c :: text) := by
  intro d hHead
  cases hHead
  exact hDelimiter

theorem closes_moreValues
    (items : List JsonVal)
    (rest : List Char) :
    Closes (moreValues items ++ rest) := by
  cases items with
  | nil => exact closes_cons rfl
  | cons item items => exact closes_cons rfl

theorem closes_moreJsonFields
    (fields : List JsonField)
    (rest : List Char) :
    Closes (moreJsonFields fields ++ rest) := by
  cases fields with
  | nil => exact closes_cons rfl
  | cons field fields => exact closes_cons rfl

/- The characters of a numeral are plain. -/
theorem JsNumber.isPlain_of_mem
    (number : JsNumber)
    {c : Char}
    (hMem : c ∈ number.text.toList) :
    isPlain c = true := by
  unfold isPlain
  rw [decide_eq_true_eq]
  intro hDelimiter
  have hNumeral := number.numeral c hMem
  simp only [List.mem_cons, List.not_mem_nil, or_false]
    at hDelimiter hNumeral
  rcases hDelimiter with
    rfl | rfl | rfl | rfl | rfl | rfl | rfl <;>
    revert hNumeral <;> decide

namespace JsLiteral

theorem isPlain_of_mem
    (value : JsLiteral) :
    ∀ c ∈ value.text.toList, isPlain c = true := by
  cases value with
  | null => decide
  | bool value => cases value <;> decide
  | number value =>
      exact fun c hMem => value.isPlain_of_mem hMem
  | infinite => decide

theorem text_ne_nil (value : JsLiteral) :
    value.text.toList ≠ [] := by
  cases value with
  | null => decide
  | bool value => cases value <;> decide
  | number value => simpa [text] using value.nonempty
  | infinite => decide

end JsLiteral

/- Plain texts end where a delimiter comes. -/
theorem append_cancel_of_plain
    {text text' rest rest' : List Char}
    (hPlain : ∀ c ∈ text, isPlain c = true)
    (hPlain' : ∀ c ∈ text', isPlain c = true)
    (hRest : Closes rest)
    (hRest' : Closes rest')
    (hText : text ++ rest = text' ++ rest') :
    text = text' ∧ rest = rest' := by
  induction text generalizing text' with
  | nil =>
      cases text' with
      | nil => exact ⟨rfl, hText⟩
      | cons c text' =>
          have hHead : isPlain c = false :=
            hRest c (by
              rw [List.nil_append] at hText
              rw [hText]
              rfl)
          rw [hPlain' c List.mem_cons_self] at hHead
          cases hHead
  | cons c text ih =>
      cases text' with
      | nil =>
          have hHead : isPlain c = false :=
            hRest' c (by
              rw [List.nil_append] at hText
              rw [← hText]
              rfl)
          rw [hPlain c List.mem_cons_self] at hHead
          cases hHead
      | cons d text' =>
          simp only [List.cons_append, List.cons.injEq]
            at hText
          rcases hText with ⟨rfl, hText⟩
          have hTails :=
            ih (fun e hMem =>
                hPlain e (List.mem_cons_of_mem _ hMem))
              (fun e hMem =>
                hPlain' e (List.mem_cons_of_mem _ hMem))
              hText
          exact ⟨by rw [hTails.1], hTails.2⟩

end OrderApi

------------------------------------------------------------
-- Parts of Texts
------------------------------------------------------------

namespace OrderApi

namespace JsonVal

/- The delimiter that a text starts with, but for literals. -/
def opening : JsonVal → Option Char
  | literal _ => none
  | str _ => some '"'
  | arr _ => some '['
  | obj _ => some '{'

/- The opening of a value shows in its first character. -/
theorem json_eq_cons (v : JsonVal) :
    ∃ c rest, v.json = c :: rest ∧ c ≠ ']' ∧
      v.opening = if isPlain c then none else some c := by
  cases v with
  | literal value =>
      cases hText : value.text.toList with
      | nil => exact (value.text_ne_nil hText).elim
      | cons c rest =>
          have hPlain : isPlain c = true :=
            value.isPlain_of_mem c (by simp [hText])
          refine ⟨c, rest, ?_, ?_, ?_⟩
          · rw [json, hText]
          · rintro rfl
            cases hPlain
          · rw [if_pos hPlain, opening]
  | str text => exact ⟨'"', _, rfl, by decide, rfl⟩
  | arr items =>
      cases items with
      | nil => exact ⟨'[', _, rfl, by decide, rfl⟩
      | cons item items => exact ⟨'[', _, rfl, by decide, rfl⟩
  | obj fields =>
      cases fields with
      | nil => exact ⟨'{', _, rfl, by decide, rfl⟩
      | cons field fields =>
          exact ⟨'{', _, rfl, by decide, rfl⟩

theorem opening_of_append
    {v w : JsonVal}
    {rest rest' : List Char}
    (hText : v.json ++ rest = w.json ++ rest') :
    v.opening = w.opening := by
  rcases v.json_eq_cons with ⟨c, tail, hLeft, _, hOpening⟩
  rcases w.json_eq_cons with ⟨d, tail', hRight, _, hOpening'⟩
  rw [hLeft, hRight] at hText
  simp only [List.cons_append, List.cons.injEq] at hText
  rw [hOpening, hOpening', hText.1]

/- No value starts with a closing bracket. -/
theorem json_append_ne_bracket
    {v : JsonVal}
    {rest rest' : List Char} :
    v.json ++ rest ≠ ']' :: rest' := by
  rcases v.json_eq_cons with ⟨c, tail, hText, hBracket, _⟩
  rw [hText]
  intro hSame
  exact hBracket (List.cons.inj hSame).1

end JsonVal

mutual

/- The text of a value is told from what follows. -/
theorem JsonVal.json_append_cancel
    (v w : JsonVal)
    {rest rest' : List Char}
    (hRest : Closes rest)
    (hRest' : Closes rest')
    (hText : v.json ++ rest = w.json ++ rest') :
    v.json = w.json ∧ rest = rest' := by
  have hOpening := JsonVal.opening_of_append hText
  match v, w with
  | .literal value, .literal value' =>
      exact
        append_cancel_of_plain value.isPlain_of_mem
          value'.isPlain_of_mem hRest hRest' hText
  | .str text, .str text' =>
      rcases quote_append_inj hText with ⟨rfl, hRests⟩
      exact ⟨rfl, hRests⟩
  | .arr [], .arr [] =>
      exact ⟨rfl, List.append_cancel_left hText⟩
  | .arr [], .arr (item :: items) =>
      simp only [JsonVal.json, List.cons_append,
        List.nil_append, List.append_assoc, List.cons.injEq,
        true_and] at hText
      exact (JsonVal.json_append_ne_bracket hText.symm).elim
  | .arr (item :: items), .arr [] =>
      simp only [JsonVal.json, List.cons_append,
        List.nil_append, List.append_assoc, List.cons.injEq,
        true_and] at hText
      exact (JsonVal.json_append_ne_bracket hText).elim
  | .arr (item :: items), .arr (item' :: items') =>
      simp only [JsonVal.json, List.cons_append,
        List.append_assoc, List.cons.injEq,
        true_and] at hText
      rcases
        JsonVal.json_append_cancel item item'
          (closes_moreValues _ _) (closes_moreValues _ _)
          hText with
        ⟨hItem, hItems⟩
      rcases moreValues_append_cancel items items' hItems with
        ⟨hItems, hRests⟩
      exact ⟨by simp only [JsonVal.json, hItem, hItems], hRests⟩
  | .obj [], .obj [] =>
      exact ⟨rfl, List.append_cancel_left hText⟩
  | .obj [], .obj ((key, value) :: fields) =>
      simp [JsonVal.json, quote] at hText
  | .obj ((key, value) :: fields), .obj [] =>
      simp [JsonVal.json, quote] at hText
  | .obj ((key, value) :: fields),
      .obj ((key', value') :: fields') =>
      simp only [JsonVal.json, List.cons_append,
        List.append_assoc, List.cons.injEq,
        true_and] at hText
      rcases quote_append_inj hText with ⟨rfl, hValue⟩
      simp only [List.cons.injEq, true_and] at hValue
      rcases
        JsonVal.json_append_cancel value value'
          (closes_moreJsonFields _ _)
          (closes_moreJsonFields _ _) hValue with
        ⟨hValue, hFields⟩
      rcases
        moreJsonFields_append_cancel fields fields' hFields with
        ⟨hFields, hRests⟩
      exact
        ⟨by simp only [JsonVal.json, hValue, hFields], hRests⟩
  | .literal _, .str _ => cases hOpening
  | .literal _, .arr _ => cases hOpening
  | .literal _, .obj _ => cases hOpening
  | .str _, .literal _ => cases hOpening
  | .str _, .arr _ => simp [JsonVal.opening] at hOpening
  | .str _, .obj _ => simp [JsonVal.opening] at hOpening
  | .arr _, .literal _ => cases hOpening
  | .arr _, .str _ => simp [JsonVal.opening] at hOpening
  | .arr _, .obj _ => simp [JsonVal.opening] at hOpening
  | .obj _, .literal _ => cases hOpening
  | .obj _, .str _ => simp [JsonVal.opening] at hOpening
  | .obj _, .arr _ => simp [JsonVal.opening] at hOpening

theorem moreValues_append_cancel
    (items items' : List JsonVal)
    {rest rest' : List Char}
    (hText :
      moreValues items ++ rest = moreValues items' ++ rest') :
    moreValues items = moreValues items' ∧ rest = rest' := by
  match items, items' with
  | [], [] => exact ⟨rfl, List.append_cancel_left hText⟩
  | [], item :: items' => simp [moreValues] at hText
  | item :: items, [] => simp [moreValues] at hText
  | item :: items, item' :: items' =>
      simp only [moreValues, List.cons_append,
        List.append_assoc, List.cons.injEq,
        true_and] at hText
      rcases
        JsonVal.json_append_cancel item item'
          (closes_moreValues _ _) (closes_moreValues _ _)
          hText with
        ⟨hItem, hItems⟩
      rcases moreValues_append_cancel items items' hItems with
        ⟨hItems, hRests⟩
      exact ⟨by simp only [moreValues, hItem, hItems], hRests⟩

theorem moreJsonFields_append_cancel
    (fields fields' : List JsonField)
    {rest rest' : List Char}
    (hText :
      moreJsonFields fields ++ rest =
        moreJsonFields fields' ++ rest') :
    moreJsonFields fields = moreJsonFields fields' ∧
      rest = rest' := by
  match fields, fields' with
  | [], [] => exact ⟨rfl, List.append_cancel_left hText⟩
  | [], (key, value) :: fields' =>
      simp [moreJsonFields] at hText
  | (key, value) :: fields, [] =>
      simp [moreJsonFields] at hText
  | (key, value) :: fields, (key', value') :: fields' =>
      simp only [moreJsonFields, List.cons_append,
        List.append_assoc, List.cons.injEq,
        true_and] at hText
      rcases quote_append_inj hText with ⟨rfl, hValue⟩
      simp only [List.cons.injEq, true_and] at hValue
      rcases
        JsonVal.json_append_cancel value value'
          (closes_moreJsonFields _ _)
          (closes_moreJsonFields _ _) hValue with
        ⟨hValue, hFields⟩
      rcases
        moreJsonFields_append_cancel fields fields' hFields with
        ⟨hFields, hRests⟩
      exact
        ⟨by simp only [moreJsonFields, hValue, hFields],
          hRests⟩

end

end OrderApi

------------------------------------------------------------
-- Equal Texts
------------------------------------------------------------

namespace OrderApi

/- Two fields with one key, and with texts that are equal. -/
def SameText (field field' : JsonField) : Prop :=
  field.1 = field'.1 ∧ field.2.json = field'.2.json

theorem moreValues_eq_iff
    (items items' : List JsonVal) :
    moreValues items = moreValues items' ↔
      List.Forall₂ (fun v w => v.json = w.json) items
        items' := by
  induction items generalizing items' with
  | nil =>
      cases items' with
      | nil => exact iff_of_true rfl .nil
      | cons item items' =>
          refine iff_of_false ?_ nofun
          simp [moreValues]
  | cons item items ih =>
      cases items' with
      | nil =>
          refine iff_of_false ?_ nofun
          simp [moreValues]
      | cons item' items' =>
          rw [List.forall₂_cons, ← ih items']
          simp only [moreValues, List.cons.injEq, true_and]
          constructor
          · intro hText
            exact
              item.json_append_cancel item'
                (by simpa using closes_moreValues items [])
                (by simpa using closes_moreValues items' [])
                hText
          · rintro ⟨hItem, hItems⟩
            rw [hItem, hItems]

theorem moreJsonFields_eq_iff
    (fields fields' : List JsonField) :
    moreJsonFields fields = moreJsonFields fields' ↔
      List.Forall₂ SameText fields fields' := by
  induction fields generalizing fields' with
  | nil =>
      cases fields' with
      | nil => exact iff_of_true rfl .nil
      | cons field fields' =>
          refine iff_of_false ?_ nofun
          simp [moreJsonFields]
  | cons field fields ih =>
      cases fields' with
      | nil =>
          refine iff_of_false ?_ nofun
          simp [moreJsonFields]
      | cons field' fields' =>
          rcases field with ⟨key, value⟩
          rcases field' with ⟨key', value'⟩
          rw [List.forall₂_cons, ← ih fields', SameText]
          simp only [moreJsonFields, List.cons.injEq, true_and]
          constructor
          · intro hText
            rcases quote_append_inj hText with ⟨rfl, hValue⟩
            have hCancel :=
              value.json_append_cancel value'
                (by simpa using closes_moreJsonFields fields [])
                (by simpa using closes_moreJsonFields fields' [])
                (List.cons.inj hValue).2
            exact ⟨⟨rfl, hCancel.1⟩, hCancel.2⟩
          · rintro ⟨⟨rfl, hValue⟩, hFields⟩
            rw [hValue, hFields]

namespace JsonVal

/- Arrays have one text if their items do. -/
theorem json_arr_eq_iff
    (items items' : List JsonVal) :
    (arr items).json = (arr items').json ↔
      List.Forall₂ (fun v w => v.json = w.json) items
        items' := by
  cases items with
  | nil =>
      cases items' with
      | nil => exact iff_of_true rfl .nil
      | cons item items' =>
          refine iff_of_false ?_ nofun
          intro hText
          simp only [json, List.cons.injEq, true_and] at hText
          exact json_append_ne_bracket hText.symm
  | cons item items =>
      cases items' with
      | nil =>
          refine iff_of_false ?_ nofun
          intro hText
          simp only [json, List.cons.injEq, true_and] at hText
          exact json_append_ne_bracket hText
      | cons item' items' =>
          rw [← moreValues_eq_iff]
          simp only [json, moreValues, List.cons.injEq,
            true_and]

/- Objects have one text if their fields do. -/
theorem json_obj_eq_iff
    (fields fields' : List JsonField) :
    (obj fields).json = (obj fields').json ↔
      List.Forall₂ SameText fields fields' := by
  cases fields with
  | nil =>
      cases fields' with
      | nil => exact iff_of_true rfl .nil
      | cons field fields' =>
          refine iff_of_false ?_ nofun
          simp [json, quote]
  | cons field fields =>
      cases fields' with
      | nil =>
          refine iff_of_false ?_ nofun
          simp [json, quote]
      | cons field' fields' =>
          rw [← moreJsonFields_eq_iff]
          simp only [json, moreJsonFields, List.cons.injEq,
            true_and]

end JsonVal

end OrderApi

------------------------------------------------------------
-- Values that Agree but for Some Fields
------------------------------------------------------------

namespace OrderApi

section Agreement

variable (allowed : String → JsonVal → JsonVal → Prop)

mutual

/- Equal but for fields, at any depth, with allowed values. -/
def JsonVal.AgreesBut : JsonVal → JsonVal → Prop
  | .literal value, .literal value' => value = value'
  | .str text, .str text' => text = text'
  | .arr items, .arr items' => itemsAgreeBut items items'
  | .obj fields, .obj fields' => fieldsAgreeBut fields fields'
  | _, _ => False

def itemsAgreeBut : List JsonVal → List JsonVal → Prop
  | [], [] => True
  | item :: items, item' :: items' =>
      item.AgreesBut item' ∧ itemsAgreeBut items items'
  | _, _ => False

def fieldsAgreeBut : List JsonField → List JsonField → Prop
  | [], [] => True
  | (key, value) :: fields, (key', value') :: fields' =>
      key = key' ∧
        (allowed key value value' ∨ value.AgreesBut value') ∧
          fieldsAgreeBut fields fields'
  | _, _ => False

end

variable {allowed}

mutual

/- Agreeing values have one text if the allowed ones do. -/
theorem JsonVal.AgreesBut.json_eq
    (hAllowed :
      ∀ key v w, allowed key v w → v.json = w.json)
    {v w : JsonVal}
    (hAgrees : v.AgreesBut allowed w) :
    v.json = w.json := by
  match v, w with
  | .literal value, .literal value' =>
      exact congrArg (fun v => (JsonVal.literal v).json) hAgrees
  | .str text, .str text' =>
      exact congrArg (fun t => (JsonVal.str t).json) hAgrees
  | .arr items, .arr items' =>
      rw [JsonVal.json_arr_eq_iff]
      exact itemsAgreeBut_json_eq hAllowed hAgrees
  | .obj fields, .obj fields' =>
      rw [JsonVal.json_obj_eq_iff]
      exact fieldsAgreeBut_json_eq hAllowed hAgrees

theorem itemsAgreeBut_json_eq
    (hAllowed :
      ∀ key v w, allowed key v w → v.json = w.json)
    {items items' : List JsonVal}
    (hAgree : itemsAgreeBut allowed items items') :
    List.Forall₂ (fun v w => v.json = w.json) items
      items' := by
  match items, items' with
  | [], [] => exact .nil
  | item :: items, item' :: items' =>
      exact
        .cons (hAgree.1.json_eq hAllowed)
          (itemsAgreeBut_json_eq hAllowed hAgree.2)

theorem fieldsAgreeBut_json_eq
    (hAllowed :
      ∀ key v w, allowed key v w → v.json = w.json)
    {fields fields' : List JsonField}
    (hAgree : fieldsAgreeBut allowed fields fields') :
    List.Forall₂ SameText fields fields' := by
  match fields, fields' with
  | [], [] => exact .nil
  | (key, value) :: fields, (key', value') :: fields' =>
      rcases hAgree with ⟨hKey, hValue, hFields⟩
      refine
        .cons ⟨hKey, ?_⟩
          (fieldsAgreeBut_json_eq hAllowed hFields)
      rcases hValue with hValue | hValue
      · exact hAllowed key value value' hValue
      · exact hValue.json_eq hAllowed

end

variable (allowed) in
/- Values that are allowed in a field, and have one text. -/
def WithSameText
    (key : String)
    (v w : JsonVal) : Prop :=
  allowed key v w ∧ v.json = w.json

mutual

/- Texts show how values agree. -/
theorem JsonVal.AgreesBut.of_json_eq
    {v w : JsonVal}
    (hAgrees : v.AgreesBut allowed w)
    (hText : v.json = w.json) :
    v.AgreesBut (WithSameText allowed) w := by
  match v, w with
  | .literal value, .literal value' => exact hAgrees
  | .str text, .str text' => exact hAgrees
  | .arr items, .arr items' =>
      exact
        itemsAgreeBut_of_json_eq hAgrees
          ((JsonVal.json_arr_eq_iff _ _).mp hText)
  | .obj fields, .obj fields' =>
      exact
        fieldsAgreeBut_of_json_eq hAgrees
          ((JsonVal.json_obj_eq_iff _ _).mp hText)

theorem itemsAgreeBut_of_json_eq
    {items items' : List JsonVal}
    (hAgree : itemsAgreeBut allowed items items')
    (hText :
      List.Forall₂ (fun v w => v.json = w.json) items
        items') :
    itemsAgreeBut (WithSameText allowed) items items' := by
  match items, items' with
  | [], [] => exact trivial
  | item :: items, item' :: items' =>
      rw [List.forall₂_cons] at hText
      exact
        ⟨hAgree.1.of_json_eq hText.1,
          itemsAgreeBut_of_json_eq hAgree.2 hText.2⟩

theorem fieldsAgreeBut_of_json_eq
    {fields fields' : List JsonField}
    (hAgree : fieldsAgreeBut allowed fields fields')
    (hText : List.Forall₂ SameText fields fields') :
    fieldsAgreeBut (WithSameText allowed) fields
      fields' := by
  match fields, fields' with
  | [], [] => exact trivial
  | (key, value) :: fields, (key', value') :: fields' =>
      rw [List.forall₂_cons] at hText
      rcases hAgree with ⟨hKey, hValue, hFields⟩
      refine
        ⟨hKey, ?_, fieldsAgreeBut_of_json_eq hFields hText.2⟩
      rcases hValue with hValue | hValue
      · exact Or.inl ⟨hValue, hText.1.2⟩
      · exact Or.inr (hValue.of_json_eq hText.1.2)

end

/- Agreeing values have one text if all allowed ones do. -/
theorem JsonVal.json_eq_iff_agreesBut
    {v w : JsonVal}
    (hAgrees : v.AgreesBut allowed w) :
    v.json = w.json ↔
      v.AgreesBut (WithSameText allowed) w := by
  constructor
  · exact hAgrees.of_json_eq
  · intro hSame
    exact hSame.json_eq fun _ _ _ hAllowed => hAllowed.2

/- Agreeing values are truthy alike. -/
theorem JsonVal.AgreesBut.truthy_eq
    {v w : JsonVal}
    (hAgrees : v.AgreesBut allowed w) :
    v.truthy = w.truthy := by
  match v, w with
  | .literal value, .literal value' =>
      exact congrArg JsLiteral.truthy hAgrees
  | .str text, .str text' =>
      exact congrArg (fun t => (JsonVal.str t).truthy) hAgrees
  | .arr items, .arr items' => rfl
  | .obj fields, .obj fields' => rfl

variable (allowed) in
/- Two fields of objects that agree. -/
def FieldAgrees (field field' : JsonField) : Prop :=
  field.1 = field'.1 ∧
    (allowed field.1 field.2 field'.2 ∨
      field.2.AgreesBut allowed field'.2)

theorem forall₂_of_fieldsAgreeBut
    {fields fields' : List JsonField}
    (hAgree : fieldsAgreeBut allowed fields fields') :
    List.Forall₂ (FieldAgrees allowed) fields fields' := by
  induction fields generalizing fields' with
  | nil =>
      cases fields' with
      | nil => exact .nil
      | cons field' fields' => cases hAgree
  | cons field fields ih =>
      cases fields' with
      | nil => cases hAgree
      | cons field' fields' =>
          rcases hAgree with ⟨hKey, hValue, hFields⟩
          exact .cons ⟨hKey, hValue⟩ (ih hFields)

theorem forall₂_of_itemsAgreeBut
    {items items' : List JsonVal}
    (hAgree : itemsAgreeBut allowed items items')
    (n : Nat) :
    List.Forall₂ (FieldAgrees allowed) (indexed n items)
      (indexed n items') := by
  induction items generalizing items' n with
  | nil =>
      cases items' with
      | nil => exact .nil
      | cons item' items' => cases hAgree
  | cons item items ih =>
      cases items' with
      | nil => cases hAgree
      | cons item' items' =>
          rcases hAgree with ⟨hItem, hItems⟩
          exact .cons ⟨rfl, Or.inr hItem⟩ (ih hItems (n + 1))

/- Bodies that agree are spread into fields that do. -/
theorem JsonBody.forall₂_spread
    {body body' : JsonBody}
    (hAgrees : body.value.AgreesBut allowed body'.value) :
    List.Forall₂ (FieldAgrees allowed) body.spread.fields
      body'.spread.fields := by
  match body, body' with
  | .object content, .object content' =>
      exact forall₂_of_fieldsAgreeBut hAgrees
  | .array items, .array items' =>
      exact forall₂_of_itemsAgreeBut hAgrees 0

end Agreement

end OrderApi

------------------------------------------------------------
-- Reading a Body
------------------------------------------------------------

namespace OrderApi

namespace JsonObject

/- A field is read by its key. -/
theorem get?_of_mem
    {object : JsonObject}
    {field : JsonField}
    (hMem : field ∈ object.fields) :
    object.get? field.1 = some field.2 := by
  unfold get?
  cases hFind :
      object.fields.find? fun other => other.1 = field.1 with
  | none =>
      have hAbsent := List.find?_eq_none.mp hFind field hMem
      simp at hAbsent
  | some found =>
      have hKey : found.1 = field.1 := by
        simpa using List.find?_some hFind
      have hSame : found = field :=
        List.inj_on_of_nodup_map object.nodup
          (List.mem_of_find?_eq_some hFind) hMem hKey
      rw [hSame, Option.map_some]

end JsonObject

namespace JsLiteral

/- The text of a number is no word. -/
theorem number_text_ne_false (number : JsNumber) :
    number.text ≠ "false" := by
  intro hText
  have hNumeral := number.numeral 'f' (by simp [hText])
  revert hNumeral
  decide

/- But for `null`, the text tells what is truthy. -/
theorem truthy_eq_of_ne_null
    {value : JsLiteral}
    (hThere : value ≠ null) :
    value.truthy =
      decide (value.text ≠ "false" ∧ value.text ≠ "0") := by
  cases value with
  | null => exact (hThere rfl).elim
  | bool value => cases value <;> rfl
  | number number =>
      simp [truthy, text, number_text_ne_false number]
  | infinite => rfl

end JsLiteral

namespace JsonVal

/- Neither `null` nor the empty text. -/
def filled : JsonVal → Bool
  | literal value => value ≠ .null
  | str text => text ≠ ""
  | _ => true

/- The text of a value tells whether it is truthy. -/
theorem truthy_eq_of_json_eq
    {v w : JsonVal}
    (hFilled : v.filled = true)
    (hFilled' : w.filled = true)
    (hText : v.json = w.json) :
    v.truthy = w.truthy := by
  have hOpening : v.opening = w.opening := by
    apply @opening_of_append v w [] []
    rw [hText]
  match v, w with
  | .literal value, .literal value' =>
      have hSame : value.text = value'.text :=
        String.toList_inj.mp hText
      rw [truthy, truthy,
        JsLiteral.truthy_eq_of_ne_null
          (of_decide_eq_true hFilled),
        JsLiteral.truthy_eq_of_ne_null
          (of_decide_eq_true hFilled'),
        hSame]
  | .str text, .str text' =>
      have hSame : text = text' := by
        have hQuote :=
          @quote_append_inj text text' [] [] (by
            simpa [json] using hText)
        exact hQuote.1
      rw [hSame]
  | .arr items, .arr items' => rfl
  | .obj fields, .obj fields' => rfl
  | .literal _, .str _ => cases hOpening
  | .literal _, .arr _ => cases hOpening
  | .literal _, .obj _ => cases hOpening
  | .str _, .literal _ => cases hOpening
  | .str _, .arr _ => simp [opening] at hOpening
  | .str _, .obj _ => simp [opening] at hOpening
  | .arr _, .literal _ => cases hOpening
  | .arr _, .str _ => simp [opening] at hOpening
  | .arr _, .obj _ => rfl
  | .obj _, .literal _ => cases hOpening
  | .obj _, .str _ => simp [opening] at hOpening
  | .obj _, .arr _ => rfl

end JsonVal

end OrderApi
