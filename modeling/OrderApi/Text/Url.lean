import OrderApi.Text.JsString
import Mathlib.Data.List.DropRight

/-
  How a URL is read, and how credentials are written in it.

  The scheme ends at the first colon, the authority at the
  next slash, the path at the first `?` or `#`, and the query
  at the first `#`.  Credentials stand in front of the last
  `@`; they are percent-decoded.

  Key definitions include:
    * `percentDecode`, `percentEncode`
    * `UrlReading`, `readUrl`
    * `urlText`

  Key theorems include:
    * `percentDecode_percentEncode`
    * `readUrl_urlText`
-/

------------------------------------------------------------
-- Percent-Encoding
------------------------------------------------------------

namespace OrderApi

/- The digits of percent-encodings, in both cases. -/
def hexValue? (c : Char) : Option Nat :=
  if c.isDigit then
    some (c.toNat - '0'.toNat)
  else if 'A' ≤ c ∧ c ≤ 'F' then
    some (c.toNat - 'A'.toNat + 10)
  else if 'a' ≤ c ∧ c ≤ 'f' then
    some (c.toNat - 'a'.toNat + 10)
  else
    none

/- The digit of a number below 16, in upper case. -/
def upperHexDigit (n : Nat) : Char :=
  if n < 10 then Char.ofNat (48 + n) else Char.ofNat (55 + n)

/- A byte, as it is percent-encoded. -/
def percentByte (byte : UInt8) : List Char :=
  ['%', upperHexDigit (byte.toNat / 16),
    upperHexDigit (byte.toNat % 16)]

/- The byte of a percent-encoding at the front of a text. -/
def percentByte? : List Char → Option Nat
  | '%' :: first :: second :: _ => do
      let high ← hexValue? first
      let low ← hexValue? second
      pure (16 * high + low)
  | _ => none

/- The bytes of a text, with percent-encodings decoded. -/
def percentDecode : List Char → List Nat
  | [] => []
  | c :: rest =>
      match percentByte? (c :: rest) with
      | some byte => byte :: percentDecode (rest.drop 2)
      | none =>
          (String.utf8EncodeChar c).map UInt8.toNat ++
            percentDecode rest
termination_by text => text.length

/-
  Encode the characters of a set.  A percent sign is in no
  such set, so what is encoded before is left.
-/
def percentEncode (inSet : Char → Bool) (text : List Char) :
    List Char :=
  text.flatMap fun c =>
    if inSet c then
      (String.utf8EncodeChar c).flatMap percentByte
    else
      [c]

theorem hexValue?_upperHexDigit :
    ∀ n < 16, hexValue? (upperHexDigit n) = some n := by
  decide

section Encoding

variable {inSet : Char → Bool} {c : Char} {text : List Char}

/- What is encoded begins with a percent sign. -/
theorem exists_encoded (c : Char) :
    ∃ more,
      (String.utf8EncodeChar c).flatMap percentByte =
        '%' :: more := by
  have hNe : String.utf8EncodeChar c ≠ [] := by
    intro hNil
    have hLength := String.length_utf8EncodeChar c
    rw [hNil] at hLength
    exact absurd hLength.symm c.utf8Size_pos.ne'
  rcases List.exists_cons_of_ne_nil hNe with
    ⟨byte, bytes, hBytes⟩
  rw [hBytes, List.flatMap_cons]
  exact ⟨_, rfl⟩

/- No character of the set is left in an encoded text. -/
theorem not_inSet_of_mem_percentEncode
    (hPercent : inSet '%' = false)
    (hDigits : ∀ n < 16, inSet (upperHexDigit n) = false)
    (hMem : c ∈ percentEncode inSet text) :
    inSet c = false := by
  rcases List.mem_flatMap.mp hMem with ⟨d, _, hChar⟩
  split at hChar
  · rcases List.mem_flatMap.mp hChar with ⟨byte, _, hByte⟩
    have hLess := byte.toNat_lt
    simp only [percentByte, List.mem_cons, List.not_mem_nil,
      or_false] at hByte
    rcases hByte with hFirst | hSecond | hThird
    · rw [hFirst]
      exact hPercent
    · rw [hSecond]
      exact hDigits _ (by omega)
    · rw [hThird]
      exact hDigits _ (by omega)
  · rename_i hNot
    rw [List.mem_singleton.mp hChar]
    simpa using hNot

/- Encoded bytes are read back. -/
theorem percentDecode_bytes
    (bytes : List UInt8)
    (text : List Char) :
    percentDecode (bytes.flatMap percentByte ++ text) =
      bytes.map UInt8.toNat ++ percentDecode text := by
  induction bytes with
  | nil => rfl
  | cons byte bytes ih =>
      have hByte :
          percentByte?
              (percentByte byte ++
                (bytes.flatMap percentByte ++ text)) =
            some byte.toNat := by
        have hLess := byte.toNat_lt
        have hHigh :=
          hexValue?_upperHexDigit (byte.toNat / 16) (by omega)
        have hLow :=
          hexValue?_upperHexDigit (byte.toNat % 16) (by omega)
        simp only [percentByte, percentByte?, List.cons_append,
          hHigh, hLow]
        simp
        omega
      rw [List.flatMap_cons, List.append_assoc]
      rw [percentByte] at hByte ⊢
      simp only [List.cons_append, List.nil_append] at hByte ⊢
      rw [percentDecode, hByte]
      simpa using ih

theorem percentEncode_cons (c : Char) (text : List Char) :
    percentEncode inSet (c :: text) =
      (if inSet c then
        (String.utf8EncodeChar c).flatMap percentByte
      else
        [c]) ++ percentEncode inSet text :=
  List.flatMap_cons

/- Only a percent sign begins an encoding. -/
theorem percentByte?_of_ne
    (hPercent : c ≠ '%')
    (text : List Char) :
    percentByte? (c :: text) = none := by
  unfold percentByte?
  split
  · rename_i hSame
    exact (hPercent (List.cons.inj hSame).1).elim
  · rfl

/- An encoding has two digits. -/
theorem percentByte?_of_first
    (hFirst : hexValue? c = none)
    (text : List Char) :
    percentByte? ('%' :: c :: text) = none := by
  cases text with
  | nil => rfl
  | cons second text => simp [percentByte?, hFirst]

theorem percentByte?_of_second
    (hSecond : hexValue? c = none)
    (first : Char)
    (text : List Char) :
    percentByte? ('%' :: first :: c :: text) = none := by
  simp [percentByte?, hSecond]

/- Encoding does not make or break an encoding. -/
theorem percentByte?_percentEncode
    (hSet :
      ∀ c, inSet c = true → c ≠ '%' ∧ hexValue? c = none)
    (c : Char)
    (text : List Char) :
    percentByte? (c :: percentEncode inSet text) =
      percentByte? (c :: text) := by
  have hNoDigit : hexValue? '%' = none := by decide
  by_cases hPercent : c = '%'
  · rw [hPercent]
    cases text with
    | nil => rfl
    | cons first text =>
        rw [percentEncode_cons]
        by_cases hFirst : inSet first = true
        · rcases exists_encoded first with ⟨more, hMore⟩
          rw [if_pos hFirst, hMore, List.cons_append,
            percentByte?_of_first hNoDigit,
            percentByte?_of_first (hSet first hFirst).2]
        · rw [if_neg hFirst, List.singleton_append]
          cases text with
          | nil => rfl
          | cons second text =>
              rw [percentEncode_cons]
              by_cases hSecond : inSet second = true
              · rcases exists_encoded second with
                  ⟨more, hMore⟩
                rw [if_pos hSecond, hMore, List.cons_append,
                  percentByte?_of_second hNoDigit,
                  percentByte?_of_second
                    (hSet second hSecond).2]
              · rw [if_neg hSecond, List.singleton_append]
                rfl
  · rw [percentByte?_of_ne hPercent,
      percentByte?_of_ne hPercent]

/- An encoding at the front of a text. -/
theorem eq_of_percentByte?
    {byte : Nat}
    (hByte : percentByte? (c :: text) = some byte) :
    ∃ first second rest,
      c = '%' ∧ text = first :: second :: rest ∧
        hexValue? first ≠ none ∧ hexValue? second ≠ none := by
  unfold percentByte? at hByte
  split at hByte
  · rename_i first second rest hText
    rcases List.cons.inj hText with ⟨hPercent, hRest⟩
    refine ⟨first, second, rest, hPercent, hRest, ?_, ?_⟩
    · intro hNone
      simp [hNone] at hByte
    · intro hNone
      simp [hNone] at hByte
  · cases hByte

/- An encoded text is decoded as it was before. -/
theorem percentDecode_percentEncode
    (hSet :
      ∀ c, inSet c = true → c ≠ '%' ∧ hexValue? c = none)
    (text : List Char) :
    percentDecode (percentEncode inSet text) =
      percentDecode text := by
  have hKept :
      ∀ c, c = '%' ∨ hexValue? c ≠ none →
        ¬ inSet c = true := by
    intro c hEither hIn
    rcases hEither with hPercent | hDigit
    · exact (hSet c hIn).1 hPercent
    · exact hDigit (hSet c hIn).2
  induction text using percentDecode.induct with
  | case1 => rfl
  | case2 c rest byte hByte ih =>
      rcases eq_of_percentByte? hByte with
        ⟨first, second, more, hPercent, hRest, hFirst,
          hSecond⟩
      have hFront :
          percentEncode inSet (c :: rest) =
            c :: percentEncode inSet rest := by
        rw [percentEncode_cons,
          if_neg (hKept c (Or.inl hPercent)),
          List.singleton_append]
      have hDrop :
          (percentEncode inSet rest).drop 2 =
            percentEncode inSet (rest.drop 2) := by
        rw [hRest, percentEncode_cons, percentEncode_cons,
          if_neg (hKept first (Or.inr hFirst)),
          if_neg (hKept second (Or.inr hSecond))]
        rfl
      have hBoth :=
        (percentByte?_percentEncode hSet c rest).trans hByte
      rw [hFront, percentDecode, hBoth, percentDecode, hByte]
      simp only [hDrop, ih]
  | case3 c rest hNone ih =>
      rw [percentEncode_cons, percentDecode, hNone]
      by_cases hIn : inSet c = true
      · rw [if_pos hIn, percentDecode_bytes, ih]
      · rw [if_neg hIn, List.singleton_append, percentDecode,
          percentByte?_percentEncode hSet, hNone]
        simp only [ih]

end Encoding

end OrderApi

------------------------------------------------------------
-- Reading a URL
------------------------------------------------------------

namespace OrderApi

/-
  The parts of a URL.  Credentials are bytes; the port is a
  number; the host is read by a function of its own.
-/
structure UrlReading where
  scheme : List Char
  username : List Nat
  password : List Nat
  host : Option (List Char)
  port : Nat
  path : List Char
  query : Option (List Char)
deriving DecidableEq, Repr

def endsAuthority (c : Char) : Bool :=
  c = '/' || c = '?' || c = '#'

def endsPath (c : Char) : Bool := c = '?' || c = '#'

/- What follows a path: a query, up to a fragment. -/
def readQuery : List Char → Option (List Char)
  | '?' :: rest => some (rest.takeWhile fun c => c ≠ '#')
  | _ => none

/- User and password, host and port, path and query. -/
def readUrl
    (readHost : List Char → Option (List Char))
    (text : List Char) : UrlReading :=
  let scheme := text.takeWhile fun c => c ≠ ':'
  let rest := (text.dropWhile fun c => c ≠ ':').drop 3
  let authority := rest.takeWhile fun c => !endsAuthority c
  let tail := rest.dropWhile fun c => !endsAuthority c
  let hostPort := authority.rtakeWhile fun c => c ≠ '@'
  let credentials :=
    (authority.rdropWhile fun c => c ≠ '@').dropLast
  { scheme := scheme.map Char.toLower
    username :=
      percentDecode
        (credentials.takeWhile fun c => c ≠ ':')
    password :=
      percentDecode
        ((credentials.dropWhile fun c => c ≠ ':').drop 1)
    host :=
      readHost
        (hostPort.rdropWhile fun c => c ≠ ':').dropLast
    port :=
      Nat.ofDigitChars 10
        (hostPort.rtakeWhile fun c => c ≠ ':') 0
    path := tail.takeWhile fun c => !endsPath c
    query := readQuery (tail.dropWhile fun c => !endsPath c) }

/- A URL put together from the texts of its parts. -/
def urlText
    (scheme credentials host port tail : List Char) :
    List Char :=
  scheme ++ ':' :: '/' :: '/' ::
    (credentials ++ '@' :: (host ++ ':' :: port) ++ tail)

section Reading

variable {scheme credentials host port tail : List Char}
variable {readHost : List Char → Option (List Char)}

/- A text in front of the first character that stops it. -/
theorem takeWhile_stop
    (goesOn : Char → Bool)
    {front : List Char}
    (back : List Char)
    (hFront : ∀ c ∈ front, goesOn c = true)
    (hBack : ∀ c ∈ back.head?, goesOn c = false) :
    (front ++ back).takeWhile goesOn = front ∧
      (front ++ back).dropWhile goesOn = back := by
  rw [List.takeWhile_append_of_pos hFront,
    List.dropWhile_append_of_pos hFront]
  cases back with
  | nil => simp
  | cons c back =>
      have hStop : ¬ goesOn c = true := by
        simp [hBack c rfl]
      rw [List.takeWhile_cons_of_neg hStop,
        List.dropWhile_cons_of_neg hStop, List.append_nil]
      exact ⟨rfl, rfl⟩

/- The texts around the last separator. -/
theorem rtakeWhile_stop
    {c : Char}
    {back : List Char}
    (front : List Char)
    (hBack : c ∉ back) :
    (front ++ c :: back).rtakeWhile (fun d => d ≠ c) = back ∧
      ((front ++ c :: back).rdropWhile
        fun d => d ≠ c).dropLast = front := by
  have hReverse :
      (front ++ c :: back).reverse =
        back.reverse ++ c :: front.reverse := by
    simp
  have hGoesOn :
      ∀ d ∈ back.reverse, decide (d ≠ c) = true := by
    intro d hd
    rw [decide_eq_true_iff]
    intro hSame
    rw [hSame] at hd
    exact hBack (List.mem_reverse.mp hd)
  have hStop :=
    takeWhile_stop _ (c :: front.reverse) hGoesOn (by simp)
  unfold List.rtakeWhile List.rdropWhile
  rw [hReverse, hStop.1, hStop.2]
  simp

/- The parts of a URL that is put together are read back. -/
theorem readUrl_urlText
    (hScheme : ':' ∉ scheme)
    (hAuthority :
      ∀ c ∈ credentials ++ '@' :: (host ++ ':' :: port),
        endsAuthority c = false)
    (hHost : '@' ∉ host ++ ':' :: port)
    (hPort : ':' ∉ port)
    (hTail : ∀ c ∈ tail.head?, endsAuthority c = true) :
    readUrl readHost
        (urlText scheme credentials host port tail) =
      { scheme := scheme.map Char.toLower
        username :=
          percentDecode
            (credentials.takeWhile fun c => c ≠ ':')
        password :=
          percentDecode
            ((credentials.dropWhile
              fun c => c ≠ ':').drop 1)
        host := readHost host
        port := Nat.ofDigitChars 10 port 0
        path := tail.takeWhile fun c => !endsPath c
        query :=
          readQuery
            (tail.dropWhile fun c => !endsPath c) } := by
  have hColons : ∀ c ∈ scheme, decide (c ≠ ':') = true := by
    intro c hc
    rw [decide_eq_true_iff]
    intro hSame
    exact hScheme (hSame ▸ hc)
  have hSchemeStop :=
    takeWhile_stop _
      (':' :: '/' :: '/' ::
        (credentials ++ '@' :: (host ++ ':' :: port) ++ tail))
      hColons (by simp)
  have hTailStop :
      ∀ c ∈ tail.head?, (!endsAuthority c) = false := by
    simpa using hTail
  have hGoesOn :
      ∀ c ∈ credentials ++ '@' :: (host ++ ':' :: port),
        (!endsAuthority c) = true := by
    intro c hc
    rw [hAuthority c hc]
    rfl
  have hAuthorityStop :=
    takeWhile_stop _ tail hGoesOn hTailStop
  have hAt := rtakeWhile_stop credentials hHost
  have hColon := rtakeWhile_stop host hPort
  unfold readUrl urlText
  simp only [hSchemeStop.1, hSchemeStop.2,
    List.drop_succ_cons, List.drop_zero, hAuthorityStop.1,
    hAuthorityStop.2, hAt.1, hAt.2, hColon.1, hColon.2]

end Reading

end OrderApi
