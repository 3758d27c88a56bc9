import OrderApi.Text.Comments
import OrderApi.Text.JsString

/-
  SQL texts, up to what stands around a statement and up to
  line comments.

  Text in single quotes and in double quotes is kept as it
  is, and so is a block comment.  A block comment contains
  other ones.

  Key definitions include:
    * `SqlState`, `sqlQuoting`
    * `sqlStatement`
    * `sqlStatements`

  Key theorems include:
    * `strip_dropComments_trim`
-/

------------------------------------------------------------
-- Quotes in SQL
------------------------------------------------------------

namespace OrderApi

/-
  Outside of quotes, behind a slash or not; in a string; in
  a quoted identifier; in a block comment, with the number
  of comments around it and the character before.
-/
inductive SqlState where
  | code (slash : Bool)
  | string
  | identifier
  | comment (depth : Nat) (last : Option Char)
deriving DecidableEq, Repr

namespace SqlState

/- Read one character. -/
def next : SqlState → Char → SqlState
  | code slash, c =>
      if c = '\x27' then
        string
      else if c = '"' then
        identifier
      else if slash ∧ c = '*' then
        comment 0 none
      else
        code (c = '/')
  | string, c => if c = '\x27' then code false else string
  | identifier, c => if c = '"' then code false else identifier
  | comment depth last, c =>
      if last = some '/' ∧ c = '*' then
        comment (depth + 1) none
      else if last = some '*' ∧ c = '/' then
        match depth with
        | 0 => code false
        | depth + 1 => comment depth none
      else
        comment depth (some c)

def isCode : SqlState → Bool
  | code _ => true
  | _ => false

theorem isCode_next_dash
    (s : SqlState)
    (hQuoted : s.isCode = false) :
    (s.next '-').isCode = false := by
  cases s with
  | code slash => simp [isCode] at hQuoted
  | string => simp [next, isCode]
  | identifier => simp [next, isCode]
  | comment depth last => simp [next, isCode]

end SqlState

/- How SQL reads quotes and block comments. -/
def sqlQuoting : Quoting SqlState where
  start := .code false
  next := SqlState.next
  isCode := SqlState.isCode
  isCode_dash := SqlState.isCode_next_dash

theorem sqlQuoting_next_space
    (c : Char)
    (hSpace : isJsSpace c = true) :
    sqlQuoting.next sqlQuoting.start c =
      sqlQuoting.start := by
  have hQuote : c ≠ '\x27' := by
    rintro rfl
    revert hSpace
    decide
  have hDouble : c ≠ '"' := by
    rintro rfl
    revert hSpace
    decide
  have hSlash : c ≠ '/' := by
    rintro rfl
    revert hSpace
    decide
  simp [sqlQuoting, SqlState.next, hQuote, hDouble, hSlash]

/- What stands around a statement. -/
abbrev isSqlGap : Char → Bool :=
  isGap ';' isJsSpace

/- The statement of a text, without its line comments. -/
def sqlStatement (text : List Char) : List Char :=
  strip isSqlGap
    (dropComments sqlQuoting (some sqlQuoting.start) text)

/- The statements of texts that are executed in turn. -/
def sqlStatements (texts : List String) : List (List Char) :=
  nonempty (texts.map fun text => sqlStatement text.toList)

example :
    sqlStatements
        ["-- T\nSELECT '--' -- all\nFROM t;", "; -- U"] =
      ["SELECT '--' \nFROM t".toList] := by
  decide

theorem trim_eq_strip (text : List Char) :
    trim text = strip isJsSpace text :=
  rfl

/- A text is its statement with more or fewer gaps. -/
theorem strip_dropComments_trim
    {σ : Type}
    {quoting : Quoting σ}
    (hStart :
      ∀ c, isJsSpace c = true →
        quoting.next quoting.start c = quoting.start)
    (text : List Char)
    {more : List Char}
    (hMore : ∀ c ∈ more, isSqlGap c = true) :
    strip isSqlGap
        (dropComments quoting (some quoting.start)
          (trim text ++ more)) =
      strip isSqlGap
        (dropComments quoting (some quoting.start) text) := by
  rw [trim_eq_strip]
  exact
    strip_dropComments_strip isGap_of_blank (by decide) hStart
      text hMore

end OrderApi
