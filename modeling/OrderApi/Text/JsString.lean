import Mathlib.Data.List.Infix

/-
  JavaScript string functions that the source calls.

  Key definitions include:
    * `includes`
    * `isJsSpace`, `trim`
    * `utf16Units`
    * `parseInt10?`
-/

------------------------------------------------------------
-- Searching, Trimming and Splitting
------------------------------------------------------------

namespace OrderApi

/- To decide on a text, its own characters are tried. -/
instance decidableForallMem
    (text : List Char)
    (p : Char → Prop)
    [DecidablePred p] :
    Decidable (∀ c ∈ text, p c) :=
  List.decidableBAll p text

/- `text.includes(part)`. -/
def includes (text part : String) : Bool :=
  decide (part.toList <:+: text.toList)

/- White space and line ends, as `trim` removes them. -/
def isJsSpace (c : Char) : Bool :=
  c ∈
    ['\t', '\n', '\x0b', '\x0c', '\r', ' ', '\u00a0',
      '\u1680', '\u2000', '\u2001', '\u2002', '\u2003',
      '\u2004', '\u2005', '\u2006', '\u2007', '\u2008',
      '\u2009', '\u200a', '\u2028', '\u2029', '\u202f',
      '\u205f', '\u3000', '\ufeff']

/- `text.trim()`, on the characters of a text. -/
def trim (text : List Char) : List Char :=
  ((text.dropWhile isJsSpace).reverse.dropWhile
    isJsSpace).reverse

/- The code units that `charCodeAt` reads. -/
def utf16Units (text : String) : List Nat :=
  text.toList.flatMap fun c =>
    if c.toNat < 0x10000 then
      [c.toNat]
    else
      [0xD800 + (c.toNat - 0x10000) / 0x400,
        0xDC00 + (c.toNat - 0x10000) % 0x400]

/- Texts behind the last separator are told apart. -/
theorem eq_of_append_separator
    {c : Char}
    {front front' text text' : List Char}
    (hText : c ∉ text)
    (hText' : c ∉ text')
    (hSame : front ++ c :: text = front' ++ c :: text') :
    text = text' := by
  induction front generalizing front' with
  | nil =>
      cases front' with
      | nil => exact (List.cons.inj hSame).2
      | cons d front' =>
          have hTail := (List.cons.inj hSame).2
          exact (hText (hTail ▸ by simp)).elim
  | cons d front ih =>
      cases front' with
      | nil =>
          have hTail := (List.cons.inj hSame).2
          exact (hText' (hTail ▸ by simp)).elim
      | cons d' front' => exact ih (List.cons.inj hSame).2

end OrderApi

------------------------------------------------------------
-- Numbers
------------------------------------------------------------

namespace OrderApi

/- The value of the digits that a text starts with. -/
def leadingDigits : List Char → Option Nat
| text =>
    match text.takeWhile Char.isDigit with
    | [] => none
    | digits =>
        some
          (digits.foldl
            (fun value c => 10 * value + (c.toNat - 48)) 0)

/- `parseInt(text, 10)`, with `none` for `NaN`. -/
def parseInt10? (text : String) : Option Int :=
  match text.toList.dropWhile isJsSpace with
  | '-' :: digits =>
      (leadingDigits digits).map fun n => -(n : Int)
  | '+' :: digits =>
      (leadingDigits digits).map fun n => (n : Int)
  | digits => (leadingDigits digits).map fun n => (n : Int)

example : parseInt10? " 12px" = some 12 := by decide

end OrderApi
