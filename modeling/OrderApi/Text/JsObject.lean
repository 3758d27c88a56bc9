import OrderApi.Text.Json
import Mathlib.Data.List.Nodup

/-
  Plain JavaScript objects: own enumerable properties in
  their order of enumeration.

  Array indices come first, by value; other keys stand in
  the order in which they were added.

  Key definitions include:
    * `JsObject`
    * `JsObject.set`
    * `JsObject.assign`
    * `JsObject.spread`
    * `JsVal.toText?`

  Key theorems include:
    * `JsObject.get?_set`
    * `JsObject.get?_assign`
    * `JsObject.get?_spread`
    * `JsObject.keyedText`
-/

------------------------------------------------------------
-- Objects
------------------------------------------------------------

namespace OrderApi

/- The value of an array index: `0`, or no leading zero. -/
def arrayIndex? (key : String) : Option Nat :=
  let digits := key.toList
  if digits.all Char.isDigit ∧ digits ≠ [] ∧
      (digits.head? ≠ some '0' ∨ digits.length = 1) then
    let n :=
      digits.foldl (fun n c => 10 * n + (c.toNat - 48)) 0
    if n < 4294967295 then some n else none
  else none

abbrev Field := String × JsVal

/- Whether the key of a new field comes before a field. -/
def comesBefore (key : String) (field : Field) : Bool :=
  match arrayIndex? key, arrayIndex? field.1 with
  | some n, some m => n < m
  | some _, none => true
  | none, _ => false

/- Put a field with a new key at its place. -/
def insertField (key : String) (value : JsVal) :
    List Field → List Field
  | [] => [(key, value)]
  | field :: fields =>
      if comesBefore key field then
        (key, value) :: field :: fields
      else
        field :: insertField key value fields

/- The fields of an object have different keys. -/
structure JsObject where
  fields : List Field
  nodup : (fields.map Prod.fst).Nodup

theorem map_fst_insertField
    (key : String)
    (value : JsVal)
    (fields : List Field) :
    ((insertField key value fields).map Prod.fst).Perm
      (key :: fields.map Prod.fst) := by
  induction fields with
  | nil => exact List.Perm.refl _
  | cons field fields ih =>
      unfold insertField
      split
      · exact List.Perm.refl _
      · exact
          (List.Perm.cons field.1 ih).trans
            (List.Perm.swap key field.1 _)

namespace JsObject

/- `{}` -/
def empty : JsObject := ⟨[], List.nodup_nil⟩

def get? (object : JsObject) (key : String) :
    Option JsVal :=
  (object.fields.find? fun field => field.1 = key).map
    Prod.snd

/- `object[key] = value` -/
def set (object : JsObject) (key : String) (value : JsVal) :
    JsObject :=
  if hUsed : key ∈ object.fields.map Prod.fst then
    { fields :=
        object.fields.map fun field =>
          if field.1 = key then (key, value) else field
      nodup := by
        have hKeys :
            (object.fields.map fun field =>
                if field.1 = key then (key, value)
                else field).map Prod.fst =
              object.fields.map Prod.fst := by
          rw [List.map_map]
          apply List.map_congr_left
          intro field _
          by_cases hField : field.1 = key
          · simp [hField]
          · simp [hField]
        rw [hKeys]
        exact object.nodup }
  else
    { fields := insertField key value object.fields
      nodup :=
        (map_fst_insertField key value
          object.fields).nodup_iff.mpr
            (List.nodup_cons.mpr ⟨hUsed, object.nodup⟩) }

/- Assigning to `__proto__` makes no field of its own. -/
def assignField (object : JsObject) (field : Field) :
    JsObject :=
  if field.1 = "__proto__" then object
  else object.set field.1 field.2

/- `Object.assign(target, source)` -/
def assign (target source : JsObject) : JsObject :=
  source.fields.foldl assignField target

/- `{ ...target, ...source }` -/
def spread (target source : JsObject) : JsObject :=
  source.fields.foldl
    (fun object field => object.set field.1 field.2) target

/- `Object.keys(object).length > 0` -/
def nonempty (object : JsObject) : Bool :=
  !object.fields.isEmpty

/- `JSON.stringify(object)` -/
def stringify (object : JsObject) : String :=
  String.ofList (JsVal.obj object.fields).json

end JsObject

example :
    (((JsObject.empty.set "b" (.str "x")).set "10"
      (.str "y")).set "9" (.str "z")).stringify =
        "\x7b\"9\":\"z\",\"10\":\"y\",\"b\":\"x\"\x7d" := by
  decide +kernel

end OrderApi

------------------------------------------------------------
-- Values as Texts
------------------------------------------------------------

namespace OrderApi

mutual

/-
  `String(value)`.  An object with an own `toString` cannot
  be converted, since that is no function.
-/
def JsVal.toText? : JsVal → Option String
  | .str text => some text
  | .arr items => joinTexts? items
  | .obj fields =>
      if fields.any fun field => field.1 = "toString" then
        none
      else
        some "[object Object]"

/- The texts of the items of an array, joined by commas. -/
def joinTexts? : List JsVal → Option String
  | [] => some ""
  | item :: items =>
      match item.toText?, joinTexts? items with
      | some text, some texts =>
          some
            (if items.isEmpty then text
            else text ++ "," ++ texts)
      | _, _ => none

end

/- Only the empty string is falsy among query values. -/
def JsVal.truthy : JsVal → Bool
  | .str text => text ≠ ""
  | _ => true

end OrderApi

------------------------------------------------------------
-- Reading Objects
------------------------------------------------------------

namespace OrderApi

namespace JsObject

/- Reading a field that is put at its place. -/
theorem find?_insertField
    {key : String}
    {fields : List Field}
    (hNew : key ∉ fields.map Prod.fst)
    (value : JsVal)
    (key' : String) :
    (insertField key value fields).find?
        (fun field => field.1 = key') =
      if key' = key then some (key, value)
      else fields.find? fun field => field.1 = key' := by
  induction fields with
  | nil =>
      by_cases hKey : key' = key
      · subst hKey
        simp [insertField]
      · simp [insertField, hKey, Ne.symm hKey]
  | cons field fields ih =>
      simp only [List.map_cons, List.mem_cons,
        not_or] at hNew
      unfold insertField
      by_cases hBefore : comesBefore key field
      · rw [if_pos hBefore]
        by_cases hKey : key' = key
        · subst hKey
          simp
        · rw [if_neg hKey]
          simp [Ne.symm hKey]
      · rw [if_neg hBefore, List.find?_cons,
          List.find?_cons, ih hNew.2]
        by_cases hField : field.1 = key'
        · have hKey : key' ≠ key :=
            fun h => hNew.1 (h.symm.trans hField.symm)
          simp [hField, hKey]
        · simp [hField]

/- Reading an object after one field is set. -/
theorem get?_set
    (object : JsObject)
    (key key' : String)
    (value : JsVal) :
    (object.set key value).get? key' =
      if key' = key then some value
      else object.get? key' := by
  unfold get? set
  split
  · rename_i hUsed
    simp only [List.find?_map]
    by_cases hKey : key' = key
    · subst hKey
      rw [if_pos rfl]
      rcases List.mem_map.mp hUsed with
        ⟨field, hMem, hField⟩
      have hPredicate :
          ((fun field : Field => decide (field.1 = key')) ∘
              fun field =>
                if field.1 = key' then (key', value)
                else field) =
            fun field => decide (field.1 = key') := by
        funext other
        by_cases hOther : other.1 = key'
        · simp [hOther]
        · simp [hOther]
      rw [hPredicate]
      cases hFind :
          object.fields.find? fun field =>
            decide (field.1 = key') with
      | none =>
          have hAbsent :=
            List.find?_eq_none.mp hFind field hMem
          simp [hField] at hAbsent
      | some found =>
          have hFound : found.1 = key' := by
            simpa using List.find?_some hFind
          simp [hFound]
    · rw [if_neg hKey]
      have hPredicate :
          ((fun field : Field => decide (field.1 = key')) ∘
              fun field =>
                if field.1 = key then (key, value)
                else field) =
            fun field => decide (field.1 = key') := by
        funext other
        by_cases hOther : other.1 = key
        · simp [hOther, Ne.symm hKey]
        · simp [hOther]
      rw [hPredicate]
      cases hFind :
          object.fields.find? fun field =>
            decide (field.1 = key') with
      | none => rfl
      | some found =>
          have hFound : found.1 = key' := by
            simpa using List.find?_some hFind
          simp [hFound, hKey]
  · rename_i hNew
    simp only [find?_insertField hNew]
    by_cases hKey : key' = key
    · rw [if_pos hKey, if_pos hKey]
      rfl
    · rw [if_neg hKey, if_neg hKey]

/- Setting fields one after the other. -/
theorem get?_foldl_set
    {fields : List Field}
    (hNodup : (fields.map Prod.fst).Nodup)
    (object : JsObject)
    (key : String) :
    (fields.foldl
        (fun object field => object.set field.1 field.2)
        object).get? key =
      ((fields.find? fun field => field.1 = key).map
        Prod.snd).or (object.get? key) := by
  induction fields generalizing object with
  | nil => rfl
  | cons field fields ih =>
      rcases List.nodup_cons.mp hNodup with
        ⟨hField, hFields⟩
      rw [List.foldl_cons, ih hFields, get?_set,
        List.find?_cons]
      by_cases hKey : key = field.1
      · subst hKey
        have hAbsent :
            (fields.find? fun other =>
              other.1 = field.1) = none := by
          rw [List.find?_eq_none]
          intro other hMem hOther
          apply hField
          rw [← decide_eq_true_eq.mp hOther]
          exact List.mem_map_of_mem hMem
        simp [hAbsent]
      · simp [hKey, Ne.symm hKey]

/- Fields of the source win over those of the target. -/
theorem get?_spread
    (target source : JsObject)
    (key : String) :
    (target.spread source).get? key =
      (source.get? key).or (target.get? key) :=
  get?_foldl_set source.nodup target key

/- Assigning spreads the fields other than `__proto__`. -/
theorem assign_eq
    (target source : JsObject) :
    target.assign source =
      (source.fields.filter fun field =>
          field.1 ≠ "__proto__").foldl
        (fun object field => object.set field.1 field.2)
        target := by
  unfold assign
  generalize source.fields = fields
  induction fields generalizing target with
  | nil => rfl
  | cons field fields ih =>
      rw [List.foldl_cons, ih]
      by_cases hProto : field.1 = "__proto__"
      · simp [assignField, hProto]
      · simp [assignField, hProto]

theorem get?_assign
    {key : String}
    (hKey : key ≠ "__proto__")
    (target source : JsObject) :
    (target.assign source).get? key =
      (source.get? key).or (target.get? key) := by
  have hNodup :
      ((source.fields.filter fun field =>
        field.1 ≠ "__proto__").map Prod.fst).Nodup :=
    source.nodup.sublist
      (List.filter_sublist.map Prod.fst)
  rw [assign_eq, get?_foldl_set hNodup]
  unfold get?
  rw [List.find?_filter]
  congr 3
  funext field
  by_cases hField : field.1 = key
  · simp [hField, hKey]
  · simp [hField]

@[simp] theorem get?_empty (key : String) :
    empty.get? key = none :=
  rfl

/- Objects with the same fields are read alike. -/
theorem get?_congr
    {object object' : JsObject}
    (hFields : object.fields = object'.fields)
    (key : String) :
    object.get? key = object'.get? key := by
  rw [get?, get?, hFields]

end JsObject

end OrderApi

------------------------------------------------------------
-- The First Key
------------------------------------------------------------

namespace OrderApi

/- Only array indices stand before the key. -/
def leads (key : String) : List String → Bool
  | [] => false
  | first :: keys =>
      first = key ||
        ((arrayIndex? first).isSome && leads key keys)

/- A key that is no array index stands behind those only. -/
def JsObject.Leads (object : JsObject) (key : String) :
    Prop :=
  leads key (object.fields.map Prod.fst) = true

/- A new field does not move before a key in the lead. -/
theorem leads_insertField
    {key : String}
    {fields : List Field}
    (hLeads : leads key (fields.map Prod.fst) = true)
    (key' : String)
    (value : JsVal) :
    leads key
      ((insertField key' value fields).map Prod.fst) =
        true := by
  induction fields with
  | nil => cases hLeads
  | cons field fields ih =>
      simp only [List.map_cons, leads, Bool.or_eq_true,
        decide_eq_true_eq, Bool.and_eq_true] at hLeads
      unfold insertField
      by_cases hBefore : comesBefore key' field
      · have hIndex : (arrayIndex? key').isSome := by
          unfold comesBefore at hBefore
          split at hBefore
          · rename_i hSome _
            simp [hSome]
          · rename_i hSome _
            simp [hSome]
          · cases hBefore
        rw [if_pos hBefore]
        simp only [List.map_cons, leads, Bool.or_eq_true,
          decide_eq_true_eq, Bool.and_eq_true]
        exact Or.inr ⟨hIndex, hLeads⟩
      · rw [if_neg hBefore]
        simp only [List.map_cons, leads, Bool.or_eq_true,
          decide_eq_true_eq, Bool.and_eq_true]
        rcases hLeads with hFirst | ⟨hFirst, hRest⟩
        · exact Or.inl hFirst
        · exact Or.inr ⟨hFirst, ih hRest⟩

namespace JsObject

theorem Leads.set
    {object : JsObject}
    {key : String}
    (hLeads : object.Leads key)
    (key' : String)
    (value : JsVal) :
    (object.set key' value).Leads key := by
  unfold Leads JsObject.set
  split
  · have hKeys :
        (object.fields.map fun field =>
            if field.1 = key' then (key', value)
            else field).map Prod.fst =
          object.fields.map Prod.fst := by
      rw [List.map_map]
      apply List.map_congr_left
      intro field _
      by_cases hField : field.1 = key'
      · simp [hField]
      · simp [hField]
    simp only [hKeys]
    exact hLeads
  · exact leads_insertField hLeads key' value

/- Setting more fields keeps the first key. -/
theorem Leads.foldl_set
    {object : JsObject}
    {key : String}
    (hLeads : object.Leads key)
    (fields : List Field) :
    (fields.foldl
      (fun object field => object.set field.1 field.2)
      object).Leads key := by
  induction fields generalizing object with
  | nil => exact hLeads
  | cons field fields ih =>
      exact ih (hLeads.set field.1 field.2)

theorem Leads.spread
    {target : JsObject}
    {key : String}
    (hLeads : target.Leads key)
    (source : JsObject) :
    (target.spread source).Leads key :=
  hLeads.foldl_set source.fields

theorem Leads.assign
    {target : JsObject}
    {key : String}
    (hLeads : target.Leads key)
    (source : JsObject) :
    (target.assign source).Leads key := by
  rw [assign_eq]
  exact hLeads.foldl_set _

/- The first field that is set is in the lead. -/
theorem leads_set_empty (key : String) (value : JsVal) :
    (empty.set key value).Leads key := by
  simp [Leads, JsObject.set, empty, insertField, leads]

end JsObject

end OrderApi

------------------------------------------------------------
-- Texts with a Key in Front
------------------------------------------------------------

namespace OrderApi

/- A name that starts with a character of its own. -/
def PlainStart (key : String) : Prop :=
  ∃ c cs,
    key.toList = c :: cs ∧ escapeChar c = [c] ∧
      startsKey c = true

theorem plain_digit_all :
    ∀ n < 10,
      escapeChar (Char.ofNat (48 + n)) =
          [Char.ofNat (48 + n)] ∧
        startsKey (Char.ofNat (48 + n)) = true := by
  decide

/- Array indices start with a digit. -/
theorem plainStart_of_arrayIndex?
    {key : String}
    (hIndex : (arrayIndex? key).isSome) :
    PlainStart key := by
  unfold arrayIndex? at hIndex
  simp only at hIndex
  split at hIndex
  · rename_i hDigits
    rcases hDigits with ⟨hAll, hNonempty, _⟩
    cases hList : key.toList with
    | nil => exact (hNonempty hList).elim
    | cons c cs =>
        rw [hList] at hAll
        simp only [List.all_cons, Bool.and_eq_true] at hAll
        have hDigit : 48 ≤ c.toNat ∧ c.toNat ≤ 57 :=
          Char.isDigit_iff_toNat.mp hAll.1
        have hPlain :=
          plain_digit_all (c.toNat - 48) (by omega)
        have hChar : 48 + (c.toNat - 48) = c.toNat := by
          omega
        rw [hChar, Char.ofNat_toNat] at hPlain
        exact ⟨c, cs, hList, hPlain⟩
  · cases hIndex

/- The text of an object with a plain key in the lead. -/
theorem JsObject.keyedText
    {object : JsObject}
    {key : String}
    (hLeads : object.Leads key)
    (hPlain : PlainStart key) :
    KeyedText (JsVal.obj object.fields).json := by
  refine ⟨⟨object.fields, rfl⟩, ?_⟩
  unfold JsObject.Leads at hLeads
  cases hFields : object.fields with
  | nil => simp [hFields, leads] at hLeads
  | cons field fields =>
      rcases field with ⟨first, value⟩
      have hFirst : PlainStart first := by
        simp only [hFields, List.map_cons, leads,
          Bool.or_eq_true, decide_eq_true_eq,
          Bool.and_eq_true] at hLeads
        rcases hLeads with hKey | ⟨hIndex, _⟩
        · exact hKey ▸ hPlain
        · exact plainStart_of_arrayIndex? hIndex
      rcases hFirst with ⟨c, cs, hList, hEscape, hStarts⟩
      refine
        ⟨c,
          quoteRest cs ++
            ':' :: (value.json ++ moreFields fields),
          hStarts, ?_⟩
      simp only [JsVal.json, quote, hList, quoteRest,
        hEscape, List.cons_append, List.nil_append]

end OrderApi
