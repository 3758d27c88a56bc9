import OrderApi.Text.JsString
import Mathlib.Data.List.Basic

/-
  The tokens of an SQL text: words, symbols, and texts in
  quotes.

  A quote inside of a text in quotes is written twice, and a
  quote that no other one follows ends the text.  The
  character NUL is in no SQL text.

  Key definitions include:
    * `doubled`
    * `TokenState`, `TokenState.next`
    * `readTokens`

  Key theorems include:
    * `readTokens_append`
    * `readTokens_quoted`
    * `readTokens_around`
    * `readTokens_number`
-/

------------------------------------------------------------
-- Tokens
------------------------------------------------------------

namespace OrderApi

/- What stands in quotes: an identifier or a string. -/
inductive QuoteKind where
  | identifier
  | literal
deriving DecidableEq, Repr

def QuoteKind.char : QuoteKind → Char
  | identifier => '"'
  | literal => '\x27'

inductive SqlToken where
  | word (text : List Char)
  | quoted (kind : QuoteKind) (text : List Char)
  | symbol (c : Char)
deriving DecidableEq, Repr

/- A text with each of its quotes written twice. -/
def doubled (quote : Char) (text : List Char) : List Char :=
  text.flatMap fun c => if c = quote then [c, c] else [c]

/- A text in quotes. -/
def QuoteKind.wrap (kind : QuoteKind) (text : List Char) :
    List Char :=
  kind.char :: doubled kind.char text ++ [kind.char]

/- Letters, digits and the other characters of words. -/
def isWordChar (c : Char) : Bool :=
  c.isAlphanum || c = '_' || c = '$' || 128 ≤ c.toNat

/- White space between tokens. -/
def isTokenSpace (c : Char) : Bool :=
  c ∈ [' ', '\t', '\n', '\x0b', '\x0c', '\r']

end OrderApi

------------------------------------------------------------
-- Reading Tokens
------------------------------------------------------------

namespace OrderApi

/-
  Between tokens; in a word; in a text in quotes; behind a
  quote in it, which ends it unless another one follows.
-/
inductive TokenState where
  | between
  | word (text : List Char)
  | inside (kind : QuoteKind) (text : List Char)
  | quote (kind : QuoteKind) (text : List Char)
deriving DecidableEq, Repr

namespace TokenState

/- The tokens that a character ends, and what it begins. -/
abbrev Step := Option (List SqlToken × TokenState)

/- A character that is in no token so far. -/
def start (c : Char) : Step :=
  if c = '\x00' then none
  else if isTokenSpace c then some ([], between)
  else if c = '"' then some ([], inside .identifier [])
  else if c = '\x27' then some ([], inside .literal [])
  else if isWordChar c then some ([], word [c])
  else some ([.symbol c], between)

/- The same behind a token that has ended. -/
def startBehind (token : SqlToken) (c : Char) : Step :=
  (start c).map fun step => (token :: step.1, step.2)

/-
  Read one character.  A word that a quote follows directly
  is a prefix, as in `E'..'`, and is not read.
-/
def next : TokenState → Char → Step
  | between, c => start c
  | word text, c =>
      if isWordChar c then some ([], word (text ++ [c]))
      else if c = '"' ∨ c = '\x27' then none
      else startBehind (.word text) c
  | inside kind text, c =>
      if c = '\x00' then none
      else if c = kind.char then some ([], quote kind text)
      else some ([], inside kind (text ++ [c]))
  | quote kind text, c =>
      if c = kind.char then
        some ([], inside kind (text ++ [c]))
      else startBehind (.quoted kind text) c

/- The token that the end of the text ends. -/
def finish : TokenState → Option (List SqlToken)
  | between => some []
  | word text => some [.word text]
  | inside _ _ => none
  | quote kind text => some [.quoted kind text]

/- The tokens that a text ends, and where it leaves off. -/
def scan (s : TokenState) : List Char → Step
  | [] => some ([], s)
  | c :: text =>
      (s.next c).bind fun step =>
        (step.2.scan text).map fun rest =>
          (step.1 ++ rest.1, rest.2)

end TokenState

/- All tokens of a text, read on from a state. -/
def readTokensFrom (s : TokenState) (text : List Char) :
    Option (List SqlToken) :=
  (s.scan text).bind fun step =>
    step.2.finish.map fun tokens => step.1 ++ tokens

def readTokens (text : String) : Option (List SqlToken) :=
  readTokensFrom .between text.toList

example :
    readTokens "DROP \"a\"\"b\";" =
      some
        [.word "DROP".toList,
          .quoted .identifier "a\"b".toList, .symbol ';'] := by
  decide

end OrderApi

------------------------------------------------------------
-- Reading in Parts
------------------------------------------------------------

namespace OrderApi

open TokenState

variable {s s' : TokenState} {front text : List Char}
variable {tokens : List SqlToken}

/- What is read first, and how the rest is read on. -/
theorem scan_append
    (s : TokenState)
    (front text : List Char) :
    s.scan (front ++ text) =
      (s.scan front).bind fun step =>
        (step.2.scan text).map fun rest =>
          (step.1 ++ rest.1, rest.2) := by
  induction front generalizing s with
  | nil => simp [scan]
  | cons c front ih =>
      rw [List.cons_append, scan, scan]
      cases s.next c with
      | none => simp
      | some step =>
          simp only [Option.bind_some, ih]
          cases step.2.scan front with
          | none => simp
          | some mid => simp [Function.comp_def]

/- The tokens of a text behind one that is scanned. -/
theorem readTokens_append
    (hFront : s.scan front = some (tokens, s'))
    (text : List Char) :
    readTokensFrom s (front ++ text) =
      (readTokensFrom s' text).map fun more =>
        tokens ++ more := by
  unfold readTokensFrom
  rw [scan_append, hFront, Option.bind_some]
  cases s'.scan text with
  | none => simp
  | some step => simp [Function.comp_def]

/- A text behind a token that has ended. -/
theorem readTokensFrom_ended
    {s : TokenState}
    {token : SqlToken}
    (hFinish : s.finish = some [token])
    (hNext :
      ∀ c ∈ text.head?, s.next c = startBehind token c) :
    readTokensFrom s text =
      (readTokensFrom .between text).map fun more =>
        token :: more := by
  unfold readTokensFrom
  cases text with
  | nil =>
      simp only [scan, Option.bind_some, hFinish]
      simp [finish]
  | cons c text =>
      rw [scan, scan, hNext c rfl, startBehind, next]
      cases start c with
      | none => simp
      | some step =>
          simp only [Option.map_some, Option.bind_some]
          cases step.2.scan text with
          | none => simp
          | some rest => simp [Function.comp_def]

end OrderApi

------------------------------------------------------------
-- Texts in Quotes
------------------------------------------------------------

namespace OrderApi

open TokenState

variable {text back : List Char}

theorem doubled_cons (quote c : Char) (text : List Char) :
    doubled quote (c :: text) =
      (if c = quote then [c, c] else [c]) ++
        doubled quote text :=
  List.flatMap_cons

/- Inside of quotes, a doubled text is read as it is. -/
theorem scan_doubled
    (kind : QuoteKind)
    (before : List Char)
    (hNul : '\x00' ∉ text) :
    (inside kind before).scan (doubled kind.char text) =
      some ([], inside kind (before ++ text)) := by
  induction text generalizing before with
  | nil => simp [doubled, scan]
  | cons c text ih =>
      rw [List.mem_cons, not_or] at hNul
      have hRest := ih (before ++ [c]) hNul.2
      rw [doubled_cons, scan_append]
      by_cases hQuote : c = kind.char
      · -- the second quote takes the first one back
        have hPair :
            (inside kind before).scan [c, c] =
              some ([], inside kind (before ++ [c])) := by
          have hFirst :
              (inside kind before).next c =
                some ([], .quote kind before) := by
            rw [next, if_neg (Ne.symm hNul.1), if_pos hQuote]
          have hSecond :
              (TokenState.quote kind before).next c =
                some ([], inside kind (before ++ [c])) := by
            rw [next, if_pos hQuote]
          simp [scan, hFirst, hSecond]
        rw [if_pos hQuote, hPair, Option.bind_some, hRest]
        simp
      · have hOne :
            (inside kind before).scan [c] =
              some ([], inside kind (before ++ [c])) := by
          simp [scan, next, hQuote, Ne.symm hNul.1]
        rw [if_neg hQuote, hOne, Option.bind_some, hRest]
        simp

/-
  A text in quotes is one token, and what follows it is read
  from its first character on.
-/
theorem readTokens_quoted
    (kind : QuoteKind)
    (hNul : '\x00' ∉ text)
    (hBack : back.head? ≠ some kind.char) :
    readTokensFrom .between (kind.wrap text ++ back) =
      (readTokensFrom .between back).map fun more =>
        .quoted kind text :: more := by
  have hOpen :
      TokenState.between.scan [kind.char] =
        some ([], inside kind []) := by
    cases kind with
    | identifier => rfl
    | literal => rfl
  have hText := scan_doubled kind [] hNul
  have hClose :
      (inside kind text).scan [kind.char] =
        some ([], .quote kind text) := by
    cases kind with
    | identifier => rfl
    | literal => rfl
  have hAll :
      TokenState.between.scan (kind.wrap text) =
        some ([], .quote kind text) := by
    have hParts :
        kind.wrap text =
          [kind.char] ++ (doubled kind.char text ++
            [kind.char]) := by
      simp [QuoteKind.wrap]
    rw [hParts, scan_append, hOpen, Option.bind_some,
      scan_append, hText, Option.bind_some]
    simp [hClose]
  rw [readTokens_append hAll]
  have hEnded :
      readTokensFrom (.quote kind text) back =
        (readTokensFrom .between back).map fun more =>
          .quoted kind text :: more := by
    apply readTokensFrom_ended
    · rfl
    · intro c hc
      have hOther : c ≠ kind.char := by
        intro hSame
        apply hBack
        rw [← hSame]
        exact hc
      rw [next, if_neg hOther]
  rw [hEnded]
  simp [Function.comp_def]

/- A text in quotes amid other tokens. -/
theorem readTokens_around
    (kind : QuoteKind)
    {front : List Char}
    {tokens more : List SqlToken}
    (hFront : TokenState.between.scan front = some (tokens, .between))
    (hNul : '\x00' ∉ text)
    (hHead : back.head? ≠ some kind.char)
    (hBack : readTokensFrom .between back = some more) :
    readTokensFrom .between (front ++ (kind.wrap text ++ back)) =
      some (tokens ++ .quoted kind text :: more) := by
  rw [readTokens_append hFront,
    readTokens_quoted kind hNul hHead, hBack]
  simp

/- A text without quotes has none to be written twice. -/
theorem doubled_of_notMem
    {quote : Char}
    (hQuote : quote ∉ text) :
    doubled quote text = text := by
  induction text with
  | nil => simp [doubled]
  | cons c text ih =>
      rw [List.mem_cons, not_or] at hQuote
      rw [doubled_cons, if_neg (Ne.symm hQuote.1),
        ih hQuote.2]
      simp

end OrderApi

------------------------------------------------------------
-- Numbers
------------------------------------------------------------

namespace OrderApi

open TokenState

/- Further characters of a word. -/
theorem scan_word
    {text : List Char}
    (before : List Char)
    (hWord : ∀ c ∈ text, isWordChar c = true) :
    (word before).scan text =
      some ([], word (before ++ text)) := by
  induction text generalizing before with
  | nil => simp [scan]
  | cons c text ih =>
      have hRest :=
        ih (before ++ [c]) fun d hd =>
          hWord d (List.mem_cons_of_mem c hd)
      rw [scan, next, if_pos (hWord c List.mem_cons_self),
        Option.bind_some, hRest]
      simp

theorem start_of_isDigit
    {c : Char}
    (hDigit : c.isDigit = true) :
    start c = some ([], word [c]) := by
  have hOther : ∀ d : Char, d.isDigit = false → c ≠ d := by
    intro d hd hSame
    rw [hSame, hd] at hDigit
    cases hDigit
  have hSpace : isTokenSpace c = false := by
    simp [isTokenSpace, hOther]
  have hWord : isWordChar c = true := by
    simp [isWordChar, Char.isAlphanum, hDigit]
  simp [start, hSpace, hWord, hOther]

/- The digits of a number are one word. -/
theorem readTokens_number
    (n : Nat)
    {back : List Char}
    (hBack :
      ∀ c ∈ back.head?,
        isWordChar c = false ∧ c ≠ '"' ∧ c ≠ '\x27') :
    readTokensFrom .between (Nat.toDigits 10 n ++ back) =
      (readTokensFrom .between back).map fun more =>
        .word (Nat.toDigits 10 n) :: more := by
  have hDigit :
      ∀ c ∈ Nat.toDigits 10 n, c.isDigit = true := by
    intro c hc
    exact
      Nat.isDigit_of_mem_toDigits (by omega) (by omega) hc
  generalize hText : Nat.toDigits 10 n = text at hDigit ⊢
  cases text with
  | nil => exact (Nat.toDigits_ne_nil hText).elim
  | cons d text =>
      have hWord : ∀ c ∈ text, isWordChar c = true := by
        intro c hc
        have hIs := hDigit c (List.mem_cons_of_mem d hc)
        simp [isWordChar, Char.isAlphanum, hIs]
      have hStart := start_of_isDigit (hDigit d List.mem_cons_self)
      have hRest := scan_word [d] hWord
      have hAll :
          TokenState.between.scan (d :: text) =
            some ([], word (d :: text)) := by
        rw [scan, next, hStart, Option.bind_some, hRest]
        simp
      have hEnded :
          readTokensFrom (word (d :: text)) back =
            (readTokensFrom .between back).map fun more =>
              .word (d :: text) :: more := by
        apply readTokensFrom_ended
        · rfl
        · intro c hc
          rcases hBack c hc with ⟨hWord, hDouble, hSingle⟩
          simp [next, hWord, hDouble, hSingle]
      rw [readTokens_append hAll, hEnded]
      simp [Function.comp_def]

end OrderApi
