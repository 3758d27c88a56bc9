import OrderApi.Text.JsonBody
import OrderApi.Text.Url

/-
  `JSON.parse`, and what it makes of a JSON text.

  Strings are read unit by unit, as the escapes are written.
  How the text of a number is rounded is left open; a number
  is read back if its own text is.

  Key definitions include:
    * `decodeUtf16`
    * `readString`
    * `NumberFormat`
    * `parseValue`, `JsonVal.parse?`
    * `JsonVal.reread`

  Key theorems include:
    * `decodeUtf16_units`
    * `readUnits_quoteRest`
    * `JsonVal.readsBack`
    * `JsonVal.parse?_json`
    * `JsonVal.json_reread`
-/

------------------------------------------------------------
-- Code Units
------------------------------------------------------------

namespace OrderApi

/- The code units of a character. -/
def charUnits (c : Char) : List Nat :=
  if c.toNat < 0x10000 then [c.toNat]
  else
    [0xD800 + (c.toNat - 0x10000) / 0x400,
      0xDC00 + (c.toNat - 0x10000) % 0x400]

def isHighSurrogate (unit : Nat) : Bool :=
  0xD800 ≤ unit && unit < 0xDC00

def isLowSurrogate (unit : Nat) : Bool :=
  0xDC00 ≤ unit && unit < 0xE000

/- A surrogate on its own is read as U+FFFD. -/
def unitChar (unit : Nat) : Char :=
  if isHighSurrogate unit || isLowSurrogate unit then
    '\ufffd'
  else
    Char.ofNat unit

/- The characters of a sequence of code units. -/
def decodeUtf16 : List Nat → List Char
  | [] => []
  | unit :: units =>
      match units with
      | [] => [unitChar unit]
      | low :: rest =>
          if isHighSurrogate unit && isLowSurrogate low then
            Char.ofNat
                (0x10000 + (unit - 0xD800) * 0x400 +
                  (low - 0xDC00)) ::
              decodeUtf16 rest
          else
            unitChar unit :: decodeUtf16 (low :: rest)

/- A character is no surrogate, and not too large. -/
theorem char_bounds (c : Char) :
    c.toNat < 0xD800 ∨
      (0xDFFF < c.toNat ∧ c.toNat < 0x110000) := by
  exact c.valid

/- A character is read back from its code units. -/
theorem decodeUtf16_charUnits
    (c : Char)
    (units : List Nat) :
    decodeUtf16 (charUnits c ++ units) =
      c :: decodeUtf16 units := by
  have hBounds := char_bounds c
  unfold charUnits
  split
  · rename_i hSmall
    have hHigh : isHighSurrogate c.toNat = false := by
      simp only [isHighSurrogate, Bool.and_eq_false_iff,
        decide_eq_false_iff_not]
      omega
    have hLow : isLowSurrogate c.toNat = false := by
      simp only [isLowSurrogate, Bool.and_eq_false_iff,
        decide_eq_false_iff_not]
      omega
    have hUnit : unitChar c.toNat = c := by
      simp [unitChar, hHigh, hLow]
    cases units with
    | nil => simp [decodeUtf16, hUnit]
    | cons low rest => simp [decodeUtf16, hHigh, hUnit]
  · rename_i hLarge
    have hHigh :
        isHighSurrogate
            (0xD800 + (c.toNat - 0x10000) / 0x400) =
          true := by
      simp only [isHighSurrogate, Bool.and_eq_true,
        decide_eq_true_eq]
      omega
    have hLow :
        isLowSurrogate
            (0xDC00 + (c.toNat - 0x10000) % 0x400) =
          true := by
      simp only [isLowSurrogate, Bool.and_eq_true,
        decide_eq_true_eq]
      omega
    have hCode :
        0x10000 +
            (0xD800 + (c.toNat - 0x10000) / 0x400 -
              0xD800) * 0x400 +
          (0xDC00 + (c.toNat - 0x10000) % 0x400 - 0xDC00) =
          c.toNat := by
      omega
    simp only [List.cons_append, List.nil_append,
      decodeUtf16, hHigh, hLow, Bool.and_self, if_true,
      hCode, Char.ofNat_toNat]

/- A text is read back from its code units. -/
theorem decodeUtf16_units (text : List Char) :
    decodeUtf16 (text.flatMap charUnits) = text := by
  induction text with
  | nil => rfl
  | cons c text ih =>
      rw [List.flatMap_cons, decodeUtf16_charUnits, ih]

end OrderApi

------------------------------------------------------------
-- Strings
------------------------------------------------------------

namespace OrderApi

/- The code unit of a two-character escape. -/
def unescape? (letter : Char) : Option Nat :=
  if letter = '"' then some 0x22
  else if letter = '\\' then some 0x5C
  else if letter = '/' then some 0x2F
  else if letter = 'b' then some 8
  else if letter = 'f' then some 12
  else if letter = 'n' then some 10
  else if letter = 'r' then some 13
  else if letter = 't' then some 9
  else none

/- The code unit of four hexadecimal digits. -/
def hexUnit? (a b c d : Char) : Option Nat := do
  let a ← hexValue? a
  let b ← hexValue? b
  let c ← hexValue? c
  let d ← hexValue? d
  pure (((a * 16 + b) * 16 + c) * 16 + d)

/- What was read, behind more units. -/
def prependUnits
    (units : List Nat)
    (read : Option (List Nat × List Char)) :
    Option (List Nat × List Char) :=
  read.map fun read => (units ++ read.1, read.2)

/- The code units up to the closing quote. -/
def readUnits : List Char → Option (List Nat × List Char)
  | [] => none
  | c :: cs =>
      if c = '"' then
        some ([], cs)
      else if c = '\\' then
        match cs with
        | [] => none
        | 'u' :: a :: b :: c :: d :: cs =>
            (hexUnit? a b c d).bind fun unit =>
              prependUnits [unit] (readUnits cs)
        | letter :: cs =>
            (unescape? letter).bind fun unit =>
              prependUnits [unit] (readUnits cs)
      else if c.toNat < 32 then
        none
      else
        prependUnits (charUnits c) (readUnits cs)

/- A string, behind its opening quote. -/
def readString (cs : List Char) :
    Option (String × List Char) :=
  (readUnits cs).map fun read =>
    (String.ofList (decodeUtf16 read.1), read.2)

/- A short escape is read as the character it stands for. -/
theorem unescape?_shortEscape
    {c letter : Char}
    (hShort : shortEscape c = some letter) :
    unescape? letter = some c.toNat ∧ c.toNat < 0x10000 := by
  unfold shortEscape at hShort
  repeat' split at hShort
  all_goals
    first
      | cases hShort; done
      | (rename_i hChar
         cases hShort
         subst hChar
         exact ⟨rfl, by decide⟩)

theorem hexValue?_hexDigit_all :
    ∀ n < 32,
      hexUnit? '0' '0' (hexDigit (n / 16))
        (hexDigit (n % 16)) = some n := by
  decide

theorem readUnits_short
    {letter : Char}
    {unit : Nat}
    (cs : List Char)
    (hUnit : unescape? letter = some unit) :
    readUnits ('\\' :: letter :: cs) =
      prependUnits [unit] (readUnits cs) := by
  have hLetter : letter ≠ 'u' := by
    rintro rfl
    cases hUnit
  rw [readUnits.eq_def]
  simp only [Char.reduceEq, if_false, if_true]
  split
  · rename_i hNil
    cases hNil
  · rename_i hCons
    exact absurd (List.cons.inj hCons).1 hLetter
  · rename_i hCons
    rcases List.cons.inj hCons with ⟨rfl, rfl⟩
    rw [hUnit]
    rfl

theorem readUnits_hex
    {a b c d : Char}
    {unit : Nat}
    (cs : List Char)
    (hUnit : hexUnit? a b c d = some unit) :
    readUnits ('\\' :: 'u' :: a :: b :: c :: d :: cs) =
      prependUnits [unit] (readUnits cs) := by
  rw [readUnits.eq_def]
  simp only [Char.reduceEq, if_false, if_true]
  rw [hUnit]
  rfl

theorem readUnits_plain
    {c : Char}
    (cs : List Char)
    (hNone : shortEscape c = none)
    (hLarge : ¬ c.toNat < 32) :
    readUnits (c :: cs) =
      prependUnits (charUnits c) (readUnits cs) := by
  rcases ne_of_shortEscape_none hNone with
    ⟨hQuote, hSlash⟩
  rw [readUnits.eq_def]
  simp only [hQuote, hSlash, hLarge, if_false]

/- A written character is read as its code units. -/
theorem readUnits_escapeChar
    (c : Char)
    (cs : List Char) :
    readUnits (escapeChar c ++ cs) =
      prependUnits (charUnits c) (readUnits cs) := by
  unfold escapeChar
  split
  · rename_i letter hShort
    rcases unescape?_shortEscape hShort with
      ⟨hUnit, hSmall⟩
    have hUnits : charUnits c = [c.toNat] := by
      simp [charUnits, hSmall]
    rw [hUnits]
    exact readUnits_short cs hUnit
  · rename_i hNone
    split
    · rename_i hControl
      have hUnits : charUnits c = [c.toNat] := by
        unfold charUnits
        rw [if_pos (by omega)]
      rw [hUnits]
      exact
        readUnits_hex cs
          (hexValue?_hexDigit_all c.toNat hControl)
    · rename_i hLarge
      exact readUnits_plain cs hNone hLarge

theorem readUnits_quoteRest (text rest : List Char) :
    readUnits (quoteRest text ++ rest) =
      some (text.flatMap charUnits, rest) := by
  induction text with
  | nil =>
      rw [quoteRest, List.singleton_append,
        readUnits.eq_def]
      rfl
  | cons c text ih =>
      rw [quoteRest, List.append_assoc,
        readUnits_escapeChar, ih, List.flatMap_cons]
      rfl

/- A written string is read back. -/
theorem readString_quoteRest
    (text : String)
    (rest : List Char) :
    readString (quoteRest text.toList ++ rest) =
      some (text, rest) := by
  unfold readString
  rw [readUnits_quoteRest, Option.map_some,
    decodeUtf16_units, String.ofList_toList]

end OrderApi

------------------------------------------------------------
-- Fields in the Order of an Object
------------------------------------------------------------

namespace OrderApi

/- Array indices come first, by their value. -/
def keyBefore (key other : String) : Bool :=
  match arrayIndex? key, arrayIndex? other with
  | some n, some m => n < m
  | some _, none => true
  | none, _ => false

/- Put a field with a new key at its place. -/
def insertJsonField (field : JsonField) :
    List JsonField → List JsonField
  | [] => [field]
  | other :: fields =>
      if keyBefore field.1 other.1 then
        field :: other :: fields
      else
        other :: insertJsonField field fields

/- `object[key] = value` -/
def setJsonField
    (fields : List JsonField)
    (field : JsonField) : List JsonField :=
  if field.1 ∈ fields.map Prod.fst then
    fields.map fun other =>
      if other.1 = field.1 then field else other
  else
    insertJsonField field fields

/- The fields of an object that is built one by one. -/
def ownFields (fields : List JsonField) : List JsonField :=
  fields.foldl setJsonField []

end OrderApi

------------------------------------------------------------
-- Values
------------------------------------------------------------

namespace OrderApi

/- The literal that the text of a number stands for. -/
structure NumberFormat where
  read : List Char → JsLiteral

/- One digit at least. -/
def isDigits (text : List Char) : Bool :=
  !text.isEmpty && text.all Char.isDigit

/- A part of a number behind the digits before it. -/
def isExponent : List Char → Bool
  | '+' :: text => isDigits text
  | '-' :: text => isDigits text
  | text => isDigits text

/- What may follow the integer part of a number. -/
def isNumberEnd (text : List Char) : Bool :=
  match text with
  | [] => true
  | '.' :: text =>
      let fraction := text.takeWhile Char.isDigit
      let text := text.dropWhile Char.isDigit
      !fraction.isEmpty &&
        match text with
        | [] => true
        | c :: text => (c = 'e' || c = 'E') && isExponent text
  | c :: text => (c = 'e' || c = 'E') && isExponent text

/- A number without its sign. -/
def isUnsigned (text : List Char) : Bool :=
  match text with
  | '0' :: text => isNumberEnd text
  | c :: text =>
      c.isDigit && isNumberEnd (text.dropWhile Char.isDigit)
  | [] => false

/- A number, as the grammar of JSON has it. -/
def isNumber (text : List Char) : Bool :=
  match text with
  | '-' :: text => isUnsigned text
  | text => isUnsigned text

example :
    isNumber "-10.50e+3".toList = true ∧
      isNumber "01".toList = false := by
  decide

/- A character of a literal name or of a number. -/
def isTokenChar (c : Char) : Bool :=
  c.isAlphanum || c = '-' || c = '+' || c = '.'

def readToken
    (format : NumberFormat)
    (token : List Char) : Option JsLiteral :=
  if token = "null".toList then some .null
  else if token = "true".toList then some (.bool true)
  else if token = "false".toList then some (.bool false)
  else if isNumber token then some (format.read token)
  else none

/- A literal, and what follows it. -/
def readLiteral
    (format : NumberFormat)
    (cs : List Char) : Option (JsonVal × List Char) :=
  (readToken format (cs.takeWhile isTokenChar)).map
    fun value =>
      (.literal value, cs.dropWhile isTokenChar)

def isJsonSpace (c : Char) : Bool :=
  c ∈ [' ', '\t', '\n', '\r']

def skipSpaces (cs : List Char) : List Char :=
  cs.dropWhile isJsonSpace

mutual

/- A value, and what follows it. -/
def parseValue (format : NumberFormat) :
    Nat → List Char → Option (JsonVal × List Char)
  | 0, _ => none
  | fuel + 1, cs =>
      match skipSpaces cs with
      | '"' :: cs =>
          (readString cs).map fun read =>
            (.str read.1, read.2)
      | '[' :: cs =>
          match skipSpaces cs with
          | ']' :: cs => some (.arr [], cs)
          | _ =>
              (parseItems format fuel cs).map fun read =>
                (.arr read.1, read.2)
      | '{' :: cs =>
          match skipSpaces cs with
          | '}' :: cs => some (.obj [], cs)
          | _ =>
              (parseFields format fuel cs).map fun read =>
                (.obj (ownFields read.1), read.2)
      | cs => readLiteral format cs

/- The items up to the closing bracket. -/
def parseItems (format : NumberFormat) :
    Nat → List Char → Option (List JsonVal × List Char)
  | 0, _ => none
  | fuel + 1, cs =>
      match parseValue format fuel cs with
      | none => none
      | some (item, cs) =>
          match skipSpaces cs with
          | ',' :: cs =>
              (parseItems format fuel cs).map fun read =>
                (item :: read.1, read.2)
          | ']' :: cs => some ([item], cs)
          | _ => none

/- The fields up to the closing brace. -/
def parseFields (format : NumberFormat) :
    Nat → List Char → Option (List JsonField × List Char)
  | 0, _ => none
  | fuel + 1, cs =>
      match skipSpaces cs with
      | '"' :: cs =>
          match readString cs with
          | none => none
          | some (key, cs) =>
              match skipSpaces cs with
              | ':' :: cs =>
                  match parseValue format fuel cs with
                  | none => none
                  | some (value, cs) =>
                      match skipSpaces cs with
                      | ',' :: cs =>
                          (parseFields format fuel cs).map
                            fun read =>
                              ((key, value) :: read.1,
                                read.2)
                      | '}' :: cs =>
                          some ([(key, value)], cs)
                      | _ => none
              | _ => none
      | _ => none

end

/- `JSON.parse(text)`, with `none` for a syntax error. -/
def JsonVal.parse?
    (format : NumberFormat)
    (text : String) : Option JsonVal :=
  match parseValue format (text.length + 1) text.toList with
  | none => none
  | some (value, rest) =>
      if skipSpaces rest = [] then some value else none

end OrderApi

------------------------------------------------------------
-- What is Read Back
------------------------------------------------------------

namespace OrderApi

/- The literal that is read where one was written. -/
def JsLiteral.reread : JsLiteral → JsLiteral
  | .infinite => .null
  | value => value

mutual

/- The value that is read where one was written. -/
def JsonVal.reread : JsonVal → JsonVal
  | .literal value => .literal value.reread
  | .str text => .str text
  | .arr items => .arr (rereadItems items)
  | .obj fields => .obj (ownFields (rereadFields fields))

def rereadItems : List JsonVal → List JsonVal
  | [] => []
  | item :: items => item.reread :: rereadItems items

def rereadFields : List JsonField → List JsonField
  | [] => []
  | (key, value) :: fields =>
      (key, value.reread) :: rereadFields fields

end

/- The text of a number reads as the number. -/
def JsLiteral.Readable
    (format : NumberFormat) : JsLiteral → Prop
  | .number value =>
      isNumber value.text.toList = true ∧
        format.read value.text.toList = .number value
  | _ => True

mutual

/- Every number in a value is read back. -/
def JsonVal.Readable
    (format : NumberFormat) : JsonVal → Prop
  | .literal value => value.Readable format
  | .str _ => True
  | .arr items => itemsReadable format items
  | .obj fields => fieldsReadable format fields

def itemsReadable
    (format : NumberFormat) : List JsonVal → Prop
  | [] => True
  | item :: items =>
      item.Readable format ∧ itemsReadable format items

def fieldsReadable
    (format : NumberFormat) : List JsonField → Prop
  | [] => True
  | (_, value) :: fields =>
      value.Readable format ∧ fieldsReadable format fields

end

/- A number consists of token characters. -/
theorem isTokenChar_of_numeral
    {c : Char}
    (hNumeral :
      c.isDigit = true ∨ c ∈ ['-', '+', '.', 'e']) :
    isTokenChar c = true := by
  unfold isTokenChar
  rcases hNumeral with hDigit | hMark
  · simp [Char.isAlphanum, hDigit]
  · simp only [List.mem_cons, List.not_mem_nil,
      or_false] at hMark
    rcases hMark with rfl | rfl | rfl | rfl <;> decide

theorem JsLiteral.isTokenChar_of_mem
    (value : JsLiteral) :
    ∀ c ∈ value.text.toList, isTokenChar c = true := by
  cases value with
  | null => decide
  | bool value => cases value <;> decide
  | number value =>
      exact fun c hMem =>
        isTokenChar_of_numeral (value.numeral c hMem)
  | infinite => decide

/- A delimiter ends a token. -/
theorem isTokenChar_of_not_plain
    {c : Char}
    (hDelimiter : isPlain c = false) :
    isTokenChar c = false := by
  unfold isPlain at hDelimiter
  simp only [List.mem_cons, List.not_mem_nil, or_false,
    decide_eq_false_iff_not, not_not] at hDelimiter
  rcases hDelimiter with
    rfl | rfl | rfl | rfl | rfl | rfl | rfl <;> decide

/- A token is split off in front of a delimiter. -/
theorem span_token
    {token rest : List Char}
    (hToken : ∀ c ∈ token, isTokenChar c = true)
    (hRest : Closes rest) :
    (token ++ rest).takeWhile isTokenChar = token ∧
      (token ++ rest).dropWhile isTokenChar = rest := by
  have hEnd :
      rest.takeWhile isTokenChar = [] ∧
        rest.dropWhile isTokenChar = rest := by
    cases rest with
    | nil => exact ⟨rfl, rfl⟩
    | cons c rest =>
        have hDelimiter :=
          isTokenChar_of_not_plain (hRest c rfl)
        simp [hDelimiter]
  rw [List.takeWhile_append_of_pos hToken,
    List.dropWhile_append_of_pos hToken, hEnd.1, hEnd.2,
    List.append_nil]
  exact ⟨rfl, rfl⟩

theorem readToken_text
    {format : NumberFormat}
    {value : JsLiteral}
    (hReadable : value.Readable format) :
    readToken format value.text.toList =
      some value.reread := by
  cases value with
  | null => rfl
  | bool value => cases value <;> rfl
  | infinite => rfl
  | number value =>
      rcases hReadable with ⟨hNumber, hRead⟩
      have hName :
          ∀ name : List Char, isNumber name = false →
            value.text.toList ≠ name := by
        rintro name hNot rfl
        rw [hNumber] at hNot
        cases hNot
      have hNull := hName "null".toList (by decide)
      have hTrue := hName "true".toList (by decide)
      have hFalse := hName "false".toList (by decide)
      simp only [readToken, JsLiteral.text, hNull, hTrue,
        hFalse, hNumber, if_false, if_true, hRead]
      rfl

/- A literal is read back in front of a delimiter. -/
theorem readLiteral_text
    {format : NumberFormat}
    {value : JsLiteral}
    {rest : List Char}
    (hReadable : value.Readable format)
    (hRest : Closes rest) :
    readLiteral format (value.text.toList ++ rest) =
      some (.literal value.reread, rest) := by
  rcases span_token value.isTokenChar_of_mem hRest with
    ⟨hTake, hDrop⟩
  rw [readLiteral, hTake, hDrop, readToken_text hReadable]
  rfl

end OrderApi

------------------------------------------------------------
-- Round Trip
------------------------------------------------------------

namespace OrderApi

theorem skipSpaces_cons
    {c : Char}
    (cs : List Char)
    (hSpace : isJsonSpace c = false) :
    skipSpaces (c :: cs) = c :: cs := by
  simp [skipSpaces, hSpace]

/- No value starts with a space or a closing bracket. -/
theorem JsonVal.json_starts (v : JsonVal) :
    ∃ c cs,
      v.json = c :: cs ∧ isJsonSpace c = false ∧ c ≠ ']' := by
  rcases v.json_eq_cons with
    ⟨c, cs, hText, hBracket, hOpening⟩
  refine ⟨c, cs, hText, ?_, hBracket⟩
  cases v with
  | literal value =>
      have hMem : c ∈ value.text.toList := by
        rw [JsonVal.json] at hText
        rw [hText]
        exact List.mem_cons_self
      have hToken := value.isTokenChar_of_mem c hMem
      unfold isJsonSpace
      rw [decide_eq_false_iff_not]
      intro hSpace
      simp only [List.mem_cons, List.not_mem_nil,
        or_false] at hSpace
      rcases hSpace with rfl | rfl | rfl | rfl <;>
        revert hToken <;> decide
  | str text =>
      cases hText
      decide
  | arr items =>
      cases items with
      | nil =>
          cases hText
          decide
      | cons item items =>
          cases hText
          decide
  | obj fields =>
      cases fields with
      | nil =>
          cases hText
          decide
      | cons field fields =>
          cases hText
          decide

theorem JsonVal.skipSpaces_json
    (v : JsonVal)
    (rest : List Char) :
    skipSpaces (v.json ++ rest) = v.json ++ rest := by
  rcases v.json_starts with ⟨c, cs, hText, hSpace, _⟩
  rw [hText, List.cons_append, skipSpaces_cons _ hSpace]

theorem JsonVal.one_le_length (v : JsonVal) :
    1 ≤ v.json.length := by
  rcases v.json_starts with ⟨c, cs, hText, _, _⟩
  simp [hText]

theorem one_le_length_moreValues (items : List JsonVal) :
    1 ≤ (moreValues items).length := by
  cases items with
  | nil => exact Nat.le_refl _
  | cons item items => simp [moreValues]

theorem one_le_length_moreJsonFields
    (fields : List JsonField) :
    1 ≤ (moreJsonFields fields).length := by
  cases fields with
  | nil => exact Nat.le_refl _
  | cons field fields => simp [moreJsonFields]

variable {format : NumberFormat}

/- A text that is read back with any delimiter behind it. -/
def ParsesBack
    (format : NumberFormat)
    (v : JsonVal) : Prop :=
  ∀ fuel rest,
    v.json.length ≤ fuel → Closes rest →
      parseValue format fuel (v.json ++ rest) =
        some (v.reread, rest)

theorem readsBack_literal
    {value : JsLiteral}
    (hReadable : value.Readable format) :
    ParsesBack format (.literal value) := by
  intro fuel rest hFuel hRest
  have hOne := (JsonVal.literal value).one_le_length
  rcases fuel with - | fuel
  · omega
  have hSpaces :=
    (JsonVal.literal value).skipSpaces_json rest
  have hRead := readLiteral_text hReadable hRest
  rcases hText : value.text.toList with - | ⟨c, cs⟩
  · exact (value.text_ne_nil hText).elim
  have hPlain : isPlain c = true :=
    value.isPlain_of_mem c (by simp [hText])
  rw [parseValue, hSpaces]
  simp only [JsonVal.json, hText, List.cons_append]
    at hRead ⊢
  split
  · rename_i hCons
    cases (List.cons.inj hCons).1
    cases hPlain
  · rename_i hCons
    cases (List.cons.inj hCons).1
    cases hPlain
  · rename_i hCons
    cases (List.cons.inj hCons).1
    cases hPlain
  · exact hRead

theorem readsBack_str (text : String) :
    ParsesBack format (.str text) := by
  intro fuel rest hFuel hRest
  have hOne := (JsonVal.str text).one_le_length
  rcases fuel with - | fuel
  · omega
  have hSpaces := (JsonVal.str text).skipSpaces_json rest
  rw [parseValue, hSpaces]
  simp only [JsonVal.json, quote, List.cons_append]
  rw [readString_quoteRest]
  rfl

theorem readsBack_arr_nil : ParsesBack format (.arr []) := by
  intro fuel rest hFuel hRest
  rcases fuel with - | fuel
  · simp [JsonVal.json] at hFuel
  rw [parseValue]
  rfl

theorem readsBack_obj_nil : ParsesBack format (.obj []) := by
  intro fuel rest hFuel hRest
  rcases fuel with - | fuel
  · simp [JsonVal.json] at hFuel
  rw [parseValue]
  rfl

/- The items of an array are read back from one on. -/
def ItemsReadBack
    (format : NumberFormat)
    (item : JsonVal)
    (items : List JsonVal) : Prop :=
  ∀ fuel rest,
    item.json.length + (moreValues items).length ≤ fuel →
      parseItems format fuel
          (item.json ++ (moreValues items ++ rest)) =
        some (item.reread :: rereadItems items, rest)

/- The fields of an object are read back from one on. -/
def FieldsReadBack
    (format : NumberFormat)
    (key : String)
    (value : JsonVal)
    (fields : List JsonField) : Prop :=
  ∀ fuel rest,
    value.json.length + (moreJsonFields fields).length ≤
        fuel →
      parseFields format fuel
          (quote key ++
            ':' ::
              (value.json ++
                (moreJsonFields fields ++ rest))) =
        some ((key, value.reread) :: rereadFields fields, rest)

theorem readsBack_arr
    {item : JsonVal}
    {items : List JsonVal}
    (hItems : ItemsReadBack format item items) :
    ParsesBack format (.arr (item :: items)) := by
  intro fuel rest hFuel hRest
  rcases fuel with - | fuel
  · simp [JsonVal.json] at hFuel
  simp only [JsonVal.json, List.length_cons,
    List.length_append] at hFuel
  have hRead := hItems fuel rest (by omega)
  rcases item.json_starts with
    ⟨c, cs, hText, hSpace, hBracket⟩
  have hSpaces :
      skipSpaces
          (item.json ++ (moreValues items ++ rest)) =
        c :: (cs ++ (moreValues items ++ rest)) := by
    rw [hText, List.cons_append, skipSpaces_cons _ hSpace]
  rw [parseValue, JsonVal.json, List.cons_append,
    List.append_assoc, skipSpaces_cons _ rfl]
  simp only [hSpaces]
  split
  · rename_i hCons
    exact (hBracket (List.cons.inj hCons).1).elim
  · rw [hRead]
    rfl

theorem readsBack_obj
    {key : String}
    {value : JsonVal}
    {fields : List JsonField}
    (hFields : FieldsReadBack format key value fields) :
    ParsesBack format (.obj ((key, value) :: fields)) := by
  intro fuel rest hFuel hRest
  rcases fuel with - | fuel
  · simp [JsonVal.json] at hFuel
  simp only [JsonVal.json, List.length_cons,
    List.length_append] at hFuel
  have hRead := hFields fuel rest (by omega)
  rw [parseValue, JsonVal.json, List.cons_append,
    skipSpaces_cons _ rfl]
  simp only [quote, List.cons_append, List.append_assoc]
    at hRead ⊢
  simp only [skipSpaces_cons _ (c := '"') rfl, hRead]
  rfl

theorem itemsReadBack_last
    {item : JsonVal}
    (hItem : ParsesBack format item) :
    ItemsReadBack format item [] := by
  intro fuel rest hFuel
  have hOne := item.one_le_length
  rcases fuel with - | fuel
  · omega
  simp only [moreValues, List.length_singleton] at hFuel
  have hRead :=
    hItem fuel (']' :: rest) (by omega) (closes_cons rfl)
  rw [parseItems]
  simp only [moreValues, List.cons_append, List.nil_append,
    hRead]
  rw [skipSpaces_cons _ rfl]
  rfl

theorem itemsReadBack_cons
    {item next : JsonVal}
    {items : List JsonVal}
    (hItem : ParsesBack format item)
    (hItems : ItemsReadBack format next items) :
    ItemsReadBack format item (next :: items) := by
  intro fuel rest hFuel
  have hOne := item.one_le_length
  rcases fuel with - | fuel
  · omega
  simp only [moreValues, List.length_cons,
    List.length_append] at hFuel
  have hRead :=
    hItem fuel (moreValues (next :: items) ++ rest)
      (by omega) (closes_moreValues _ _)
  have hRest := hItems fuel rest (by omega)
  rw [parseItems]
  simp only [hRead]
  simp only [moreValues, List.cons_append,
    List.append_assoc]
  rw [skipSpaces_cons _ rfl]
  simp only [hRest]
  rfl

theorem fieldsReadBack_last
    {key : String}
    {value : JsonVal}
    (hValue : ParsesBack format value) :
    FieldsReadBack format key value [] := by
  intro fuel rest hFuel
  have hOne := value.one_le_length
  rcases fuel with - | fuel
  · omega
  simp only [moreJsonFields, List.length_singleton] at hFuel
  have hRead :=
    hValue fuel ('}' :: rest) (by omega) (closes_cons rfl)
  rw [parseFields, quote, List.cons_append,
    skipSpaces_cons _ rfl]
  simp only [readString_quoteRest]
  rw [skipSpaces_cons _ rfl]
  simp only [moreJsonFields, List.cons_append,
    List.nil_append, hRead]
  rw [skipSpaces_cons _ rfl]
  rfl

theorem fieldsReadBack_cons
    {key nextKey : String}
    {value next : JsonVal}
    {fields : List JsonField}
    (hValue : ParsesBack format value)
    (hFields : FieldsReadBack format nextKey next fields) :
    FieldsReadBack format key value
      ((nextKey, next) :: fields) := by
  intro fuel rest hFuel
  have hOne := value.one_le_length
  rcases fuel with - | fuel
  · omega
  simp only [moreJsonFields, List.length_cons,
    List.length_append] at hFuel
  have hRead :=
    hValue fuel
      (moreJsonFields ((nextKey, next) :: fields) ++ rest)
      (by omega) (closes_moreJsonFields _ _)
  have hRest := hFields fuel rest (by omega)
  rw [parseFields, quote, List.cons_append,
    skipSpaces_cons _ rfl]
  simp only [readString_quoteRest]
  rw [skipSpaces_cons _ rfl]
  simp only [hRead]
  simp only [moreJsonFields, List.cons_append,
    List.append_assoc]
  rw [skipSpaces_cons _ rfl]
  simp only [hRest]
  rfl

mutual

/- The text of a value reads as the value. -/
theorem JsonVal.readsBack
    (v : JsonVal)
    (hReadable : v.Readable format) :
    ParsesBack format v := by
  cases v with
  | literal value => exact readsBack_literal hReadable
  | str text => exact readsBack_str text
  | arr items =>
      cases items with
      | nil => exact readsBack_arr_nil
      | cons item items =>
          exact
            readsBack_arr
              (itemsReadBack items
                (item.readsBack hReadable.1) hReadable.2)
  | obj fields =>
      cases fields with
      | nil => exact readsBack_obj_nil
      | cons field fields =>
          rcases field with ⟨key, value⟩
          exact
            readsBack_obj
              (fieldsReadBack fields
                (value.readsBack hReadable.1) hReadable.2)

theorem itemsReadBack
    (items : List JsonVal)
    {item : JsonVal}
    (hItem : ParsesBack format item)
    (hReadable : itemsReadable format items) :
    ItemsReadBack format item items := by
  cases items with
  | nil => exact itemsReadBack_last hItem
  | cons next items =>
      exact
        itemsReadBack_cons hItem
          (itemsReadBack items
            (next.readsBack hReadable.1) hReadable.2)

theorem fieldsReadBack
    (fields : List JsonField)
    {key : String}
    {value : JsonVal}
    (hValue : ParsesBack format value)
    (hReadable : fieldsReadable format fields) :
    FieldsReadBack format key value fields := by
  cases fields with
  | nil => exact fieldsReadBack_last hValue
  | cons field fields =>
      rcases field with ⟨nextKey, next⟩
      exact
        fieldsReadBack_cons hValue
          (fieldsReadBack fields
            (next.readsBack hReadable.1) hReadable.2)

end

/- `JSON.parse(JSON.stringify(value))` -/
theorem JsonVal.parse?_json
    {v : JsonVal}
    (hReadable : v.Readable format) :
    JsonVal.parse? format (String.ofList v.json) =
      some v.reread := by
  have hRead :=
    v.readsBack hReadable (v.json.length + 1) []
      (by omega) (by simp [Closes])
  rw [List.append_nil] at hRead
  unfold JsonVal.parse?
  rw [String.length_ofList, String.toList_ofList, hRead]
  rfl

end OrderApi

------------------------------------------------------------
-- Fields that are in Order Already
------------------------------------------------------------

namespace OrderApi

/- A key that is no array index comes last. -/
theorem insertJsonField_plain
    {field : JsonField}
    (hPlain : arrayIndex? field.1 = none)
    (fields : List JsonField) :
    insertJsonField field fields = fields ++ [field] := by
  induction fields with
  | nil => rfl
  | cons other fields ih =>
      have hBefore : keyBefore field.1 other.1 = false := by
        simp [keyBefore, hPlain]
      rw [insertJsonField, hBefore, ih]
      rfl

theorem foldl_setJsonField_plain
    {front fields : List JsonField}
    (hPlain :
      ∀ field ∈ fields, arrayIndex? field.1 = none)
    (hKeys : ((front ++ fields).map Prod.fst).Nodup) :
    fields.foldl setJsonField front = front ++ fields := by
  induction fields generalizing front with
  | nil => rw [List.foldl_nil, List.append_nil]
  | cons field fields ih =>
      have hNew : field.1 ∉ front.map Prod.fst := by
        rw [List.map_append, List.map_cons,
          List.nodup_append'] at hKeys
        intro hUsed
        exact hKeys.2.2 hUsed List.mem_cons_self
      have hSet :
          setJsonField front field = front ++ [field] := by
        rw [setJsonField, if_neg hNew]
        exact
          insertJsonField_plain
            (hPlain field List.mem_cons_self) front
      rw [List.foldl_cons, hSet, ih]
      · rw [List.append_assoc]
        rfl
      · exact fun other hMem =>
          hPlain other (List.mem_cons_of_mem _ hMem)
      · rw [List.append_assoc]
        exact hKeys

/- Different names keep the order they are set in. -/
theorem ownFields_plain
    {fields : List JsonField}
    (hPlain :
      ∀ field ∈ fields, arrayIndex? field.1 = none)
    (hKeys : (fields.map Prod.fst).Nodup) :
    ownFields fields = fields :=
  foldl_setJsonField_plain hPlain hKeys

/- The order of fields does not depend on their values. -/
def mapFields
    (change : JsonVal → JsonVal)
    (fields : List JsonField) : List JsonField :=
  fields.map fun field => (field.1, change field.2)

variable {change : JsonVal → JsonVal}

theorem insertJsonField_map
    (field : JsonField)
    (fields : List JsonField) :
    insertJsonField (field.1, change field.2)
        (mapFields change fields) =
      mapFields change (insertJsonField field fields) := by
  induction fields with
  | nil => rfl
  | cons other fields ih =>
      simp only [mapFields, List.map_cons,
        insertJsonField] at ih ⊢
      split
      · rfl
      · rw [ih]
        rfl

theorem setJsonField_map
    (field : JsonField)
    (fields : List JsonField) :
    setJsonField (mapFields change fields)
        (field.1, change field.2) =
      mapFields change (setJsonField fields field) := by
  have hKeys :
      (mapFields change fields).map Prod.fst =
        fields.map Prod.fst := by
    simp [mapFields]
  unfold setJsonField
  rw [hKeys]
  split
  · simp only [mapFields, List.map_map]
    apply List.map_congr_left
    intro other _
    by_cases hOther : other.1 = field.1
    · simp [hOther]
    · simp [hOther]
  · exact insertJsonField_map field fields

theorem ownFields_map (fields : List JsonField) :
    ownFields (mapFields change fields) =
      mapFields change (ownFields fields) := by
  have hFold :
      ∀ front,
        (mapFields change fields).foldl setJsonField
            (mapFields change front) =
          mapFields change
            (fields.foldl setJsonField front) := by
    induction fields with
    | nil => exact fun _ => rfl
    | cons field fields ih =>
        intro front
        have hSet :
            setJsonField (mapFields change front)
                (field.1, change field.2) =
              mapFields change (setJsonField front field) :=
          setJsonField_map field front
        simp only [mapFields, List.map_cons,
          List.foldl_cons] at ih hSet ⊢
        rw [hSet]
        exact ih _
  exact hFold []

theorem rereadFields_eq (fields : List JsonField) :
    rereadFields fields =
      mapFields JsonVal.reread fields := by
  induction fields with
  | nil => rfl
  | cons field fields ih =>
      rw [rereadFields, ih]
      rfl

mutual

/- A value whose objects have their fields in order. -/
def JsonVal.Own : JsonVal → Prop
  | .literal _ => True
  | .str _ => True
  | .arr items => itemsOwn items
  | .obj fields =>
      ownFields fields = fields ∧ fieldsOwn fields

def itemsOwn : List JsonVal → Prop
  | [] => True
  | item :: items => item.Own ∧ itemsOwn items

def fieldsOwn : List JsonField → Prop
  | [] => True
  | (_, value) :: fields => value.Own ∧ fieldsOwn fields

end

theorem JsLiteral.text_reread (value : JsLiteral) :
    value.reread.text = value.text := by
  cases value with
  | _ => rfl

mutual

/- What is read back has the text that was read. -/
theorem JsonVal.json_reread
    (v : JsonVal)
    (hOwn : v.Own) :
    v.reread.json = v.json := by
  cases v with
  | literal value =>
      simp only [JsonVal.reread, JsonVal.json,
        JsLiteral.text_reread]
  | str text => rfl
  | arr items =>
      cases items with
      | nil => rfl
      | cons item items =>
          simp only [JsonVal.reread, rereadItems,
            JsonVal.json, item.json_reread hOwn.1,
            moreValues_reread items hOwn.2]
  | obj fields =>
      have hFields :
          ownFields (rereadFields fields) =
            rereadFields fields := by
        rw [rereadFields_eq, ownFields_map, hOwn.1]
      rw [JsonVal.reread, hFields]
      cases fields with
      | nil => rfl
      | cons field fields =>
          rcases field with ⟨key, value⟩
          simp only [rereadFields, JsonVal.json,
            value.json_reread hOwn.2.1,
            moreJsonFields_reread fields hOwn.2.2]

theorem moreValues_reread
    (items : List JsonVal)
    (hOwn : itemsOwn items) :
    moreValues (rereadItems items) = moreValues items := by
  cases items with
  | nil => rfl
  | cons item items =>
      simp only [rereadItems, moreValues,
        item.json_reread hOwn.1,
        moreValues_reread items hOwn.2]

theorem moreJsonFields_reread
    (fields : List JsonField)
    (hOwn : fieldsOwn fields) :
    moreJsonFields (rereadFields fields) =
      moreJsonFields fields := by
  cases fields with
  | nil => rfl
  | cons field fields =>
      rcases field with ⟨key, value⟩
      simp only [rereadFields, moreJsonFields,
        value.json_reread hOwn.1,
        moreJsonFields_reread fields hOwn.2]

end

end OrderApi
