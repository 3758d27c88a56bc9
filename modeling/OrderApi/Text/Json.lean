import Mathlib.Data.List.Basic

/-
  JSON texts of the values that a query string parses to.

  The text of a value determines the value, and no object
  text that starts with a proper key occurs inside another
  text behind a bare name and a colon.

  Key definitions include:
    * `JsVal`
    * `JsVal.json`
    * `lex`

  Key theorems include:
    * `JsVal.json_append_inj`
    * `JsVal.lex_json`
    * `lex_inner_object`
-/

------------------------------------------------------------
-- Values and Their Texts
------------------------------------------------------------

namespace OrderApi

/- A parsed query value: a string, or nested values. -/
inductive JsVal where
  | str (text : String)
  | arr (items : List JsVal)
  | obj (fields : List (String × JsVal))

/- The letter of a two-character escape. -/
def shortEscape (c : Char) : Option Char :=
  if c = '"' then some '"'
  else if c = '\\' then some '\\'
  else if c = '\x08' then some 'b'
  else if c = '\x0c' then some 'f'
  else if c = '\n' then some 'n'
  else if c = '\r' then some 'r'
  else if c = '\t' then some 't'
  else none

/- A lowercase hexadecimal digit. -/
def hexDigit (n : Nat) : Char :=
  if n < 10 then Char.ofNat (48 + n) else Char.ofNat (87 + n)

/- A character of a JSON string. -/
def escapeChar (c : Char) : List Char :=
  match shortEscape c with
  | some letter => ['\\', letter]
  | none =>
      if c.toNat < 32 then
        ['\\', 'u', '0', '0', hexDigit (c.toNat / 16),
          hexDigit (c.toNat % 16)]
      else [c]

/- The characters of a JSON string, with the closing quote. -/
def quoteRest : List Char → List Char
  | [] => ['"']
  | c :: cs => escapeChar c ++ quoteRest cs

/- A JSON string. -/
def quote (text : String) : List Char :=
  '"' :: quoteRest text.toList

mutual

/- `JSON.stringify` of a value. -/
def JsVal.json : JsVal → List Char
  | .str text => quote text
  | .arr [] => ['[', ']']
  | .arr (item :: items) =>
      '[' :: (item.json ++ moreItems items)
  | .obj [] => ['{', '}']
  | .obj ((key, value) :: fields) =>
      '{' :: (quote key ++
        ':' :: (value.json ++ moreFields fields))

/- The items after the first, with the closing bracket. -/
def moreItems : List JsVal → List Char
  | [] => [']']
  | item :: items => ',' :: (item.json ++ moreItems items)

/- The fields after the first, with the closing brace. -/
def moreFields : List (String × JsVal) → List Char
  | [] => ['}']
  | (key, value) :: fields =>
      ',' :: (quote key ++
        ':' :: (value.json ++ moreFields fields))

end

example :
    (JsVal.obj
        [("a", .arr [.str "x\"y", .str "\n"]),
          ("", .obj [])]).json =
      ("\x7b\"a\":[\"x\\\"y\",\"\\n\"]," ++
        "\"\":\x7b\x7d\x7d").toList := by
  decide +kernel

end OrderApi

------------------------------------------------------------
-- Strings are Read Back
------------------------------------------------------------

namespace OrderApi

/- Different characters have different escape letters. -/
theorem shortEscape_inj
    {c d e : Char}
    (hLeft : shortEscape c = some e)
    (hRight : shortEscape d = some e) :
    c = d := by
  unfold shortEscape at hLeft hRight
  repeat' split at hLeft
  all_goals
    cases hLeft
  all_goals
    repeat' split at hRight
  all_goals
    cases hRight
  all_goals
    simp_all

/- No short escape looks like a numeric one. -/
theorem shortEscape_ne_u (c : Char) :
    shortEscape c ≠ some 'u' := by
  unfold shortEscape
  repeat' split
  all_goals
    simp

/- A character that is not escaped opens no escape. -/
theorem ne_of_shortEscape_none
    {c : Char}
    (hNone : shortEscape c = none) :
    c ≠ '"' ∧ c ≠ '\\' := by
  constructor
  · rintro rfl
    simp [shortEscape] at hNone
  · rintro rfl
    simp [shortEscape] at hNone

theorem hexDigit_inj_all :
    ∀ m < 16, ∀ n < 16,
      hexDigit m = hexDigit n → m = n := by
  decide

/- Escapes are read back, whatever follows them. -/
theorem escapeChar_append_inj
    {c d : Char}
    {rest rest' : List Char}
    (hText :
      escapeChar c ++ rest = escapeChar d ++ rest') :
    c = d ∧ rest = rest' := by
  unfold escapeChar at hText
  cases hLeft : shortEscape c with
  | some e =>
      cases hRight : shortEscape d with
      | some f =>
          simp only [hLeft, hRight, List.cons_append,
            List.nil_append, List.cons.injEq,
            true_and] at hText
          rcases hText with ⟨rfl, hRest⟩
          exact ⟨shortEscape_inj hLeft hRight, hRest⟩
      | none =>
          by_cases hControl : d.toNat < 32
          · simp only [hLeft, hRight, if_pos hControl,
              List.cons_append, List.cons.injEq,
              true_and] at hText
            rw [hText.1] at hLeft
            exact (shortEscape_ne_u c hLeft).elim
          · simp only [hLeft, hRight, if_neg hControl,
              List.cons_append, List.cons.injEq] at hText
            exact
              ((ne_of_shortEscape_none hRight).2
                hText.1.symm).elim
  | none =>
      cases hRight : shortEscape d with
      | some f =>
          by_cases hControl : c.toNat < 32
          · simp only [hLeft, hRight, if_pos hControl,
              List.cons_append, List.cons.injEq,
              true_and] at hText
            rw [← hText.1] at hRight
            exact (shortEscape_ne_u d hRight).elim
          · simp only [hLeft, hRight, if_neg hControl,
              List.cons_append, List.cons.injEq] at hText
            exact
              ((ne_of_shortEscape_none hLeft).2
                hText.1).elim
      | none =>
          by_cases hControl : c.toNat < 32
          · by_cases hControl' : d.toNat < 32
            · simp only [hLeft, hRight, if_pos hControl,
                if_pos hControl', List.cons_append,
                List.nil_append, List.cons.injEq,
                true_and] at hText
              rcases hText with ⟨hHigh, hLow, hRest⟩
              have hHigh' :=
                hexDigit_inj_all _ (by omega) _ (by omega)
                  hHigh
              have hLow' :=
                hexDigit_inj_all _ (by omega) _ (by omega)
                  hLow
              have hSame : c.toNat = d.toNat := by omega
              refine ⟨?_, hRest⟩
              rw [← Char.ofNat_toNat c, hSame,
                Char.ofNat_toNat]
            · simp only [hLeft, hRight, if_pos hControl,
                if_neg hControl', List.cons_append,
                List.cons.injEq] at hText
              exact
                ((ne_of_shortEscape_none hRight).2
                  hText.1.symm).elim
          · by_cases hControl' : d.toNat < 32
            · simp only [hLeft, hRight, if_neg hControl,
                if_pos hControl', List.cons_append,
                List.cons.injEq] at hText
              exact
                ((ne_of_shortEscape_none hLeft).2
                  hText.1).elim
            · simp only [hLeft, hRight, if_neg hControl,
                if_neg hControl', List.cons_append,
                List.nil_append, List.cons.injEq] at hText
              exact hText

/- An escape does not start with a quote. -/
theorem escapeChar_ne_quote
    {c : Char}
    {rest rest' : List Char} :
    escapeChar c ++ rest ≠ '"' :: rest' := by
  intro hText
  unfold escapeChar at hText
  cases hShort : shortEscape c with
  | some e => simp [hShort] at hText
  | none =>
      by_cases hControl : c.toNat < 32
      · simp [hShort, hControl] at hText
      · simp only [hShort, if_neg hControl,
          List.cons_append, List.cons.injEq] at hText
        exact (ne_of_shortEscape_none hShort).1 hText.1

theorem quoteRest_append_inj
    {cs ds rest rest' : List Char}
    (hText :
      quoteRest cs ++ rest = quoteRest ds ++ rest') :
    cs = ds ∧ rest = rest' := by
  induction cs generalizing ds with
  | nil =>
      cases ds with
      | nil =>
          simp only [quoteRest, List.cons_append,
            List.nil_append, List.cons.injEq,
            true_and] at hText
          exact ⟨rfl, hText⟩
      | cons d ds =>
          simp only [quoteRest, List.cons_append,
            List.append_assoc] at hText
          exact (escapeChar_ne_quote hText.symm).elim
  | cons c cs ih =>
      cases ds with
      | nil =>
          simp only [quoteRest, List.cons_append,
            List.append_assoc] at hText
          exact (escapeChar_ne_quote hText).elim
      | cons d ds =>
          simp only [quoteRest, List.append_assoc] at hText
          rcases escapeChar_append_inj hText with
            ⟨rfl, hRest⟩
          rcases ih hRest with ⟨rfl, hRest'⟩
          exact ⟨rfl, hRest'⟩

/- JSON strings are read back. -/
theorem quote_append_inj
    {text text' : String}
    {rest rest' : List Char}
    (hText : quote text ++ rest = quote text' ++ rest') :
    text = text' ∧ rest = rest' := by
  simp only [quote, List.cons_append, List.cons.injEq,
    true_and] at hText
  rcases quoteRest_append_inj hText with ⟨hChars, hRest⟩
  exact ⟨String.toList_inj.mp hChars, hRest⟩

end OrderApi

------------------------------------------------------------
-- Values are Read Back
------------------------------------------------------------

namespace OrderApi

/- The character that a value's text starts with. -/
def JsVal.opening : JsVal → Char
  | .str _ => '"'
  | .arr _ => '['
  | .obj _ => '{'

theorem JsVal.json_eq_cons (v : JsVal) :
    ∃ rest, v.json = v.opening :: rest := by
  cases v with
  | str text => exact ⟨_, rfl⟩
  | arr items => cases items <;> exact ⟨_, rfl⟩
  | obj fields => cases fields <;> exact ⟨_, rfl⟩

theorem JsVal.opening_of_append
    {v w : JsVal}
    {rest rest' : List Char}
    (hText : v.json ++ rest = w.json ++ rest') :
    v.opening = w.opening := by
  rcases v.json_eq_cons with ⟨tail, hLeft⟩
  rcases w.json_eq_cons with ⟨tail', hRight⟩
  rw [hLeft, hRight] at hText
  simp only [List.cons_append, List.cons.injEq] at hText
  exact hText.1

mutual

/- A value is read back from its text. -/
theorem JsVal.json_append_inj
    (v w : JsVal)
    {rest rest' : List Char}
    (hText : v.json ++ rest = w.json ++ rest') :
    v = w ∧ rest = rest' := by
  have hOpening := JsVal.opening_of_append hText
  match v, w with
  | .str text, .str text' =>
      rcases quote_append_inj hText with ⟨rfl, hRest⟩
      exact ⟨rfl, hRest⟩
  | .arr [], .arr [] =>
      simp only [JsVal.json, List.cons_append,
        List.nil_append, List.cons.injEq,
        true_and] at hText
      exact ⟨rfl, hText⟩
  | .arr [], .arr (item :: items) =>
      rcases item.json_eq_cons with ⟨tail, hTail⟩
      simp only [JsVal.json, hTail, List.cons_append,
        List.cons.injEq, true_and] at hText
      cases item <;> simp [JsVal.opening] at hText
  | .arr (item :: items), .arr [] =>
      rcases item.json_eq_cons with ⟨tail, hTail⟩
      simp only [JsVal.json, hTail, List.cons_append,
        List.cons.injEq, true_and] at hText
      cases item <;> simp [JsVal.opening] at hText
  | .arr (item :: items), .arr (item' :: items') =>
      simp only [JsVal.json, List.cons_append,
        List.append_assoc, List.cons.injEq,
        true_and] at hText
      rcases JsVal.json_append_inj item item' hText with
        ⟨rfl, hItems⟩
      rcases moreItems_append_inj items items' hItems with
        ⟨rfl, hRest⟩
      exact ⟨rfl, hRest⟩
  | .obj [], .obj [] =>
      simp only [JsVal.json, List.cons_append,
        List.nil_append, List.cons.injEq,
        true_and] at hText
      exact ⟨rfl, hText⟩
  | .obj [], .obj ((key, value) :: fields) =>
      simp [JsVal.json, quote] at hText
  | .obj ((key, value) :: fields), .obj [] =>
      simp [JsVal.json, quote] at hText
  | .obj ((key, value) :: fields),
      .obj ((key', value') :: fields') =>
      simp only [JsVal.json, List.cons_append,
        List.append_assoc, List.cons.injEq,
        true_and] at hText
      rcases quote_append_inj hText with ⟨rfl, hValue⟩
      simp only [List.cons.injEq, true_and] at hValue
      rcases JsVal.json_append_inj value value' hValue with
        ⟨rfl, hFields⟩
      rcases moreFields_append_inj fields fields' hFields
        with ⟨rfl, hRest⟩
      exact ⟨rfl, hRest⟩
  | .str _, .arr _ => simp [JsVal.opening] at hOpening
  | .str _, .obj _ => simp [JsVal.opening] at hOpening
  | .arr _, .str _ => simp [JsVal.opening] at hOpening
  | .arr _, .obj _ => simp [JsVal.opening] at hOpening
  | .obj _, .str _ => simp [JsVal.opening] at hOpening
  | .obj _, .arr _ => simp [JsVal.opening] at hOpening

theorem moreItems_append_inj
    (items items' : List JsVal)
    {rest rest' : List Char}
    (hText :
      moreItems items ++ rest = moreItems items' ++ rest') :
    items = items' ∧ rest = rest' := by
  match items, items' with
  | [], [] =>
      simp only [moreItems, List.cons_append,
        List.nil_append, List.cons.injEq,
        true_and] at hText
      exact ⟨rfl, hText⟩
  | [], item :: items' => simp [moreItems] at hText
  | item :: items, [] => simp [moreItems] at hText
  | item :: items, item' :: items' =>
      simp only [moreItems, List.cons_append,
        List.append_assoc, List.cons.injEq,
        true_and] at hText
      rcases JsVal.json_append_inj item item' hText with
        ⟨rfl, hItems⟩
      rcases moreItems_append_inj items items' hItems with
        ⟨rfl, hRest⟩
      exact ⟨rfl, hRest⟩

theorem moreFields_append_inj
    (fields fields' : List (String × JsVal))
    {rest rest' : List Char}
    (hText :
      moreFields fields ++ rest =
        moreFields fields' ++ rest') :
    fields = fields' ∧ rest = rest' := by
  match fields, fields' with
  | [], [] =>
      simp only [moreFields, List.cons_append,
        List.nil_append, List.cons.injEq,
        true_and] at hText
      exact ⟨rfl, hText⟩
  | [], (key, value) :: fields' =>
      simp [moreFields] at hText
  | (key, value) :: fields, [] =>
      simp [moreFields] at hText
  | (key, value) :: fields, (key', value') :: fields' =>
      simp only [moreFields, List.cons_append,
        List.append_assoc, List.cons.injEq,
        true_and] at hText
      rcases quote_append_inj hText with ⟨rfl, hValue⟩
      simp only [List.cons.injEq, true_and] at hValue
      rcases JsVal.json_append_inj value value' hValue with
        ⟨rfl, hFields⟩
      rcases moreFields_append_inj fields fields' hFields
        with ⟨rfl, hRest⟩
      exact ⟨rfl, hRest⟩

end

end OrderApi

------------------------------------------------------------
-- Ends of Texts
------------------------------------------------------------

namespace OrderApi

/- The text of an object ends with a brace. -/
theorem moreFields_ends (fields : List (String × JsVal)) :
    ∃ init, moreFields fields = init ++ ['}'] := by
  induction fields with
  | nil => exact ⟨[], rfl⟩
  | cons field fields ih =>
      rcases field with ⟨key, value⟩
      rcases ih with ⟨init, hInit⟩
      refine
        ⟨',' :: (quote key ++ ':' :: (value.json ++ init)),
          ?_⟩
      simp [moreFields, hInit]

theorem json_obj_ends (fields : List (String × JsVal)) :
    ∃ init, (JsVal.obj fields).json = init ++ ['}'] := by
  cases fields with
  | nil => exact ⟨['{'], rfl⟩
  | cons field fields =>
      rcases field with ⟨key, value⟩
      rcases moreFields_ends fields with ⟨init, hInit⟩
      refine
        ⟨'{' :: (quote key ++ ':' :: (value.json ++ init)),
          ?_⟩
      simp [JsVal.json, hInit]

end OrderApi

------------------------------------------------------------
-- A Lexer for Texts of Values
------------------------------------------------------------

namespace OrderApi

/- Where in a JSON text the next character stands. -/
inductive LexState where
  /- where a value or a key may start -/
  | value
  | string
  | escape
  /- behind the closing quote of a string -/
  | closed
  /- behind a closing bracket or brace -/
  | ended
deriving DecidableEq

namespace LexState

/-
  The state after a character; brackets are not matched.  A
  colon is only accepted right behind a string.
-/
def next : LexState → Char → Option LexState
  | value, c =>
      if c = '"' then some string
      else if c = '{' ∨ c = '[' then some value
      else if c = '}' ∨ c = ']' then some ended
      else none
  | string, c =>
      if c = '"' then some closed
      else if c = '\\' then some escape
      else some string
  | escape, _ => some string
  | closed, c =>
      if c = ':' ∨ c = ',' then some value
      else if c = '}' ∨ c = ']' then some ended
      else none
  | ended, c =>
      if c = ',' then some value
      else if c = '}' ∨ c = ']' then some ended
      else none

end LexState

/- The state after some text. -/
def lex (state : LexState) : List Char → Option LexState
  | [] => some state
  | c :: cs => (state.next c).bind fun state => lex state cs

theorem lex_append
    (state : LexState)
    (cs ds : List Char) :
    lex state (cs ++ ds) =
      (lex state cs).bind fun state => lex state ds := by
  induction cs generalizing state with
  | nil => rfl
  | cons c cs ih =>
      simp only [List.cons_append, lex]
      cases state.next c with
      | none => rfl
      | some state' => exact ih state'

/- A digit needs no escape, and does not end a string. -/
theorem lex_hexDigit_all :
    ∀ n < 16, LexState.string.next (hexDigit n) =
      some .string := by
  decide

/- An escaped character does not end a string. -/
theorem lex_escapeChar (c : Char) :
    lex .string (escapeChar c) = some .string := by
  unfold escapeChar
  cases hShort : shortEscape c with
  | some e => simp [lex, LexState.next]
  | none =>
      rcases ne_of_shortEscape_none hShort with
        ⟨hQuote, hSlash⟩
      by_cases hControl : c.toNat < 32
      · have hHigh :=
          lex_hexDigit_all (c.toNat / 16) (by omega)
        have hLow :=
          lex_hexDigit_all (c.toNat % 16) (by omega)
        have hZero :
            LexState.string.next '0' = some .string := by
          decide
        simp only [if_pos hControl, lex]
        simp [LexState.next] at hHigh hLow ⊢
        simp [hHigh, hLow]
      · simp [hControl, lex, LexState.next, hQuote, hSlash]

theorem lex_quoteRest (cs : List Char) :
    lex .string (quoteRest cs) = some .closed := by
  induction cs with
  | nil => rfl
  | cons c cs ih =>
      rw [quoteRest, lex_append, lex_escapeChar]
      exact ih

/- The text of a string is accepted. -/
theorem lex_quote (text : String) :
    lex .value (quote text) = some .closed := by
  simp only [quote, lex]
  exact lex_quoteRest text.toList

mutual

/- The text of a value is accepted. -/
theorem JsVal.lex_json (v : JsVal) :
    lex .value v.json = some .closed ∨
      lex .value v.json = some .ended := by
  match v with
  | .str text => exact Or.inl (lex_quote text)
  | .arr [] => exact Or.inr rfl
  | .arr (item :: items) =>
      apply Or.inr
      have hOpen :
          LexState.value.next '[' = some .value := rfl
      simp only [JsVal.json, lex, hOpen, Option.bind_some]
      rw [lex_append]
      rcases item.lex_json with hItem | hItem
      · rw [hItem]
        exact (lex_moreItems items).1
      · rw [hItem]
        exact (lex_moreItems items).2
  | .obj [] => exact Or.inr rfl
  | .obj ((key, value) :: fields) =>
      apply Or.inr
      have hOpen :
          LexState.value.next '{' = some .value := rfl
      have hColon :
          LexState.closed.next ':' = some .value := rfl
      simp only [JsVal.json, lex, hOpen, Option.bind_some]
      rw [lex_append, lex_quote]
      simp only [Option.bind_some, lex, hColon]
      rw [lex_append]
      rcases value.lex_json with hValue | hValue
      · rw [hValue]
        exact (lex_moreFields fields).1
      · rw [hValue]
        exact (lex_moreFields fields).2

theorem lex_moreItems (items : List JsVal) :
    lex .closed (moreItems items) = some .ended ∧
      lex .ended (moreItems items) = some .ended := by
  match items with
  | [] => exact ⟨rfl, rfl⟩
  | item :: items =>
      have hRest :
          lex .value (item.json ++ moreItems items) =
            some .ended := by
        rw [lex_append]
        rcases item.lex_json with hItem | hItem
        · rw [hItem]
          exact (lex_moreItems items).1
        · rw [hItem]
          exact (lex_moreItems items).2
      exact ⟨hRest, hRest⟩

theorem lex_moreFields (fields : List (String × JsVal)) :
    lex .closed (moreFields fields) = some .ended ∧
      lex .ended (moreFields fields) = some .ended := by
  match fields with
  | [] => exact ⟨rfl, rfl⟩
  | (key, value) :: fields =>
      have hColon :
          LexState.closed.next ':' = some .value := rfl
      have hRest :
          lex .value
              (quote key ++
                ':' :: (value.json ++ moreFields fields)) =
            some .ended := by
        rw [lex_append, lex_quote]
        simp only [Option.bind_some, lex, hColon]
        rw [lex_append]
        rcases value.lex_json with hValue | hValue
        · rw [hValue]
          exact (lex_moreFields fields).1
        · rw [hValue]
          exact (lex_moreFields fields).2
      exact ⟨hRest, hRest⟩

end

end OrderApi

------------------------------------------------------------
-- Objects behind a Name
------------------------------------------------------------

namespace OrderApi

/- A character that may not follow a closing quote. -/
def startsKey (c : Char) : Bool :=
  c ≠ ',' ∧ c ≠ '}' ∧ c ≠ ']' ∧ c ≠ ':'

/- The text of an object whose first key starts properly. -/
def KeyedText (cs : List Char) : Prop :=
  (∃ fields, cs = (JsVal.obj fields).json) ∧
    ∃ d rest, startsKey d = true ∧
      cs = '{' :: '"' :: d :: rest

/- Only a closing quote leads behind a string. -/
theorem LexState.closed_of_next
    {state : LexState}
    {c : Char}
    (hNext : state.next c = some .closed) :
    c = '"' := by
  cases state with
  | string =>
      by_cases hQuote : c = '"'
      · exact hQuote
      · simp only [LexState.next, if_neg hQuote] at hNext
        split at hNext <;> cases hNext
  | value =>
      simp only [LexState.next] at hNext
      repeat' split at hNext
      all_goals cases hNext
  | escape => cases hNext
  | closed =>
      simp only [LexState.next] at hNext
      repeat' split at hNext
      all_goals cases hNext
  | ended =>
      simp only [LexState.next] at hNext
      repeat' split at hNext
      all_goals cases hNext

/-
  Inside a text, an object with a proper key cannot follow a
  colon that does not itself follow a quote.
-/
theorem lex_inner_object
    (state : LexState)
    (cs rest : List Char)
    {c d : Char}
    (hName : c ≠ '"')
    (hKey : startsKey d = true) :
    lex state
      (cs ++ c :: ':' :: '{' :: '"' :: d :: rest) =
        none := by
  rw [lex_append]
  cases hBefore : lex state cs with
  | none => rfl
  | some before =>
      simp only [Option.bind_some, lex]
      cases hNext : before.next c with
      | none => rfl
      | some here =>
          simp only [startsKey, decide_eq_true_eq] at hKey
          rcases hKey with
            ⟨hComma, hBrace, hBracket, hColon⟩
          simp only [Option.bind_some]
          cases here with
          | value => rfl
          | ended => rfl
          | closed =>
              exact
                (hName (LexState.closed_of_next hNext)).elim
          | string =>
              simp [LexState.next, hComma, hBrace, hBracket,
                hColon]
          | escape =>
              simp [LexState.next, hComma, hBrace, hBracket,
                hColon]

/- Texts behind names and colons are told apart. -/
theorem keyedText_of_append
    {cs cs' text text' : List Char}
    {c c' : Char}
    (hName : c ≠ '"')
    (hName' : c' ≠ '"')
    (hText : KeyedText text)
    (hText' : KeyedText text')
    (hSame :
      cs ++ c :: ':' :: text = cs' ++ c' :: ':' :: text') :
    cs ++ [c] = cs' ++ [c'] ∧ text = text' := by
  have hShift :
      ∀ (ds : List Char) (e : Char) (more : List Char),
        ds ++ e :: ':' :: more =
          ((ds ++ [e]) ++ [':']) ++ more := by
    intro ds e more
    simp
  -- a longer text would hold the shorter one behind a name
  have hNotInside :
      ∀ {ds : List Char} {e : Char} {inner outer : List Char}
        (more : List Char),
        e ≠ '"' → KeyedText inner → KeyedText outer →
          outer = more ++ inner → more ≠ [] →
          (∃ front, front ++ more = (ds ++ [e]) ++ [':']) →
          False := by
    rintro ds e inner outer more hE
      ⟨_, d, rest, hKey, rfl⟩ ⟨⟨fields, hOuter⟩, d', rest',
        _, hOuter'⟩ hMore hNonempty ⟨front, hFront⟩
    rcases List.eq_nil_or_concat more with
      hNil | ⟨init, last, rfl⟩
    · exact hNonempty hNil
    rw [List.concat_eq_append] at *
    rw [← List.append_assoc] at hFront
    rcases List.append_inj' hFront rfl with
      ⟨hInit, hLast⟩
    simp only [List.cons.injEq, and_true] at hLast
    subst hLast
    rcases List.eq_nil_or_concat init with
      hNil | ⟨init', last', rfl⟩
    · subst hNil
      rw [hMore] at hOuter'
      simp at hOuter'
    · rw [List.concat_eq_append] at *
      rw [← List.append_assoc] at hInit
      rcases List.append_inj' hInit rfl with
        ⟨_, hLast'⟩
      simp only [List.cons.injEq, and_true] at hLast'
      subst hLast'
      have hReject :=
        lex_inner_object .value init' rest hE hKey
      have hAccept := JsVal.lex_json (.obj fields)
      rw [← hOuter, hMore] at hAccept
      simp only [List.append_assoc, List.cons_append,
        List.nil_append] at hAccept
      rw [hReject] at hAccept
      simp at hAccept
  rw [hShift, hShift] at hSame
  rcases List.append_eq_append_iff.mp hSame with
    ⟨more, hFront, hInner⟩ | ⟨more, hFront, hInner⟩
  · by_cases hMore : more = []
    · subst hMore
      simp only [List.append_nil, List.nil_append] at *
      have hNames := List.append_inj' hFront rfl
      exact ⟨hNames.1.symm, hInner⟩
    · exact
        (hNotInside more hName' hText' hText hInner hMore
          ⟨_, hFront.symm⟩).elim
  · by_cases hMore : more = []
    · subst hMore
      simp only [List.append_nil, List.nil_append] at *
      have hNames := List.append_inj' hFront rfl
      exact ⟨hNames.1, hInner.symm⟩
    · exact
        (hNotInside more hName hText hText' hInner hMore
          ⟨_, hFront.symm⟩).elim

end OrderApi
