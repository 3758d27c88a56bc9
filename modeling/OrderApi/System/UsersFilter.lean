import OrderApi.Core.Infix
import OrderApi.Rabbitmq.MigrationSql
import OrderApi.Text.SqlTokens

/-
  Which statements the consumer takes to be about users.

  It looks for phrases in the whole text of a statement, in
  upper case.  In the statements that Prisma generates, a
  phrase can occur in a name, in another part of the text
  that the statement's author has chosen, or at the name of
  the table.

  Key definitions include:
    * `PrismaStatement`
    * `Phrase`, `Phrase.Occurs`
    * `PrismaStatement.ConcernsUsers`
    * `PrismaStatement.FilteredRight`

  Key theorems include:
    * `shouldSkipStatement_iff`
    * `occurs_identifier`
    * `filter_right_iff`
-/

------------------------------------------------------------
-- The Statements That Prisma Generates
------------------------------------------------------------

namespace OrderApi

/-
  The shapes of the statements, with their names and with
  the text behind the last name or bracket.
-/
inductive PrismaStatement where
  | createTable (table columns : String)
  | addColumn (table column : String)
  | createIndex (index table columns : String)
  | createUniqueIndex (index table columns : String)
  | addForeignKey
      (table constraint : String)
      (columns : List String)
      (references columns' : String)
deriving DecidableEq, Repr

/- A text, a name in quotes, and what follows it. -/
def around
    (front name : String)
    (back : List Char) : List Char :=
  front.toList ++
    (QuoteKind.identifier.wrap name.toList ++ back)

/- Names in quotes, with commas between them. -/
def identifiers (names : List String) (back : List Char) :
    List Char :=
  match names with
  | [] => back
  | [name] => around "" name back
  | name :: next :: names =>
      around "" name
        (", ".toList ++ identifiers (next :: names) back)

namespace PrismaStatement

def chars : PrismaStatement → List Char
  | createTable table columns =>
      around "CREATE TABLE " table
        (" (".toList ++ columns.toList)
  | addColumn table column =>
      around "ALTER TABLE " table
        (" ADD COLUMN".toList ++ column.toList)
  | createIndex index table columns =>
      around "CREATE INDEX " index
        (around " ON " table
          ("(".toList ++ columns.toList))
  | createUniqueIndex index table columns =>
      around "CREATE UNIQUE INDEX " index
        (around " ON " table
          ("(".toList ++ columns.toList))
  | addForeignKey table constraint columns references
      columns' =>
      around "ALTER TABLE " table
        (around " ADD CONSTRAINT " constraint
          (" FOREIGN KEY (".toList ++
            identifiers columns
              (around ") REFERENCES " references
                ("(".toList ++ columns'.toList))))

def text (statement : PrismaStatement) : String :=
  String.ofList statement.chars

/- The table is `users`, or a foreign key refers to it. -/
def ConcernsUsers : PrismaStatement → Prop
  | createTable table _ => table = "users"
  | addColumn table _ => table = "users"
  | createIndex _ table _ => table = "users"
  | createUniqueIndex _ table _ => table = "users"
  | addForeignKey table _ _ references _ =>
      table = "users" ∨ references = "users"

end PrismaStatement

end OrderApi

------------------------------------------------------------
-- Phrases
------------------------------------------------------------

namespace OrderApi

/- What the filter looks for. -/
inductive Phrase where
  | createTable
  | alterTable
  | createUniqueIndex
  | references
  | addConstraint
  | users
deriving DecidableEq, Repr

namespace Phrase

/- What stands in front of the users table in quotes. -/
def keyword? : Phrase → Option String
  | createTable => some "CREATE TABLE "
  | alterTable => some "ALTER TABLE "
  | references => some "REFERENCES "
  | _ => none

/- The texts without double quotes. -/
def plain : Phrase → List String
  | createTable =>
      ["CREATE TABLE 'USERS'", "CREATE TABLE USERS"]
  | alterTable =>
      ["ALTER TABLE 'USERS'", "ALTER TABLE USERS"]
  | createUniqueIndex => ["CREATE UNIQUE INDEX"]
  | references =>
      ["REFERENCES 'USERS'", "REFERENCES USERS"]
  | addConstraint => ["ADD CONSTRAINT"]
  | users => ["USERS"]

/- The users table in double quotes, behind a keyword. -/
def quotedUsers (keyword : String) : List Char :=
  keyword.toList ++ '"' :: ("USERS".toList ++ ['"'])

/- The texts that are looked for, in one phrase. -/
def parts (phrase : Phrase) : List (List Char) :=
  phrase.plain.map String.toList ++
    (phrase.keyword?.map quotedUsers).toList

/- A text in upper case has the phrase in it. -/
def Occurs (phrase : Phrase) (text : List Char) : Prop :=
  ∃ part ∈ phrase.parts, part <:+: text

/- One of several texts has the phrase in it. -/
def OccursIn
    (phrase : Phrase)
    (texts : List (List Char)) : Prop :=
  ∃ text ∈ texts, phrase.Occurs text

end Phrase

instance (phrase : Phrase) (text : List Char) :
    Decidable (phrase.Occurs text) :=
  inferInstanceAs (Decidable (∃ part ∈ phrase.parts, _))

theorem Phrase.occurs_iff (phrase : Phrase) (text : List Char) :
    phrase.Occurs text ↔
      (∃ part ∈ phrase.plain, part.toList <:+: text) ∨
        ∃ keyword ∈ phrase.keyword?,
          quotedUsers keyword <:+: text := by
  unfold Occurs parts
  simp only [List.mem_append, List.mem_map, or_and_right,
    exists_or, Option.mem_toList, Option.map_eq_some_iff,
    Option.mem_def]
  simp

/- The phrases for which a statement is skipped. -/
def Filtered (texts : List (List Char)) : Prop :=
  Phrase.createTable.OccursIn texts ∨
    Phrase.alterTable.OccursIn texts ∨
    (Phrase.createUniqueIndex.OccursIn texts ∧
      Phrase.users.OccursIn texts) ∨
    Phrase.references.OccursIn texts ∨
    (Phrase.addConstraint.OccursIn texts ∧
      Phrase.users.OccursIn texts)

/- The users table behind a keyword, in all three ways. -/
theorem namesUsers_iff
    {phrase : Phrase}
    {before : String}
    (hKeyword : phrase.keyword? = some before)
    (hPlain :
      phrase.plain =
        [before ++ "'USERS'", before ++ "USERS"])
    (text : String) :
    namesUsers text before = true ↔
      phrase.OccursIn [text.toList] := by
  unfold namesUsers includes Phrase.OccursIn
  simp only [Phrase.occurs_iff, hKeyword, hPlain,
    Phrase.quotedUsers]
  simp
  grind

/- A name in quotes is a name. -/
theorem namesUsers_empty (text : String) :
    namesUsers text "" = true ↔
      Phrase.users.OccursIn [text.toList] := by
  have hQuotes :
      ∀ part : String,
        "USERS".toList <:+: part.toList →
          includes text part = true →
            "USERS".toList <:+: text.toList := by
    intro part hPart hText
    exact hPart.trans (of_decide_eq_true hText)
  have hDouble := hQuotes "\"USERS\"" (by decide)
  have hSingle := hQuotes "'USERS'" (by decide)
  have hPlain :
      includes text "USERS" = true ↔
        "USERS".toList <:+: text.toList :=
    decide_eq_true_iff
  unfold namesUsers Phrase.OccursIn
  simp only [Phrase.occurs_iff, String.empty_append,
    Bool.or_eq_true, hPlain, Phrase.plain, Phrase.keyword?]
  simp
  grind

/- The statement is skipped if its text has such phrases. -/
theorem shouldSkipStatement_iff
    (platform : Platform)
    (statement : String) :
    shouldSkipStatement platform statement = true ↔
      Filtered [(platform.toUpperCase statement).toList] := by
  have hOne :
      ∀ (phrase : Phrase) (part text : String),
        phrase.keyword? = none → phrase.plain = [part] →
          (includes text part = true ↔
            phrase.OccursIn [text.toList]) := by
    intro phrase part text hKeyword hPlain
    unfold includes Phrase.OccursIn
    simp [Phrase.occurs_iff, hKeyword, hPlain]
  unfold shouldSkipStatement Filtered
  simp only [Bool.or_eq_true, Bool.and_eq_true,
    namesUsers_empty, or_assoc,
    namesUsers_iff (rfl : Phrase.createTable.keyword? = _) rfl,
    namesUsers_iff (rfl : Phrase.alterTable.keyword? = _) rfl,
    namesUsers_iff (rfl : Phrase.references.keyword? = _) rfl,
    hOne .createUniqueIndex "CREATE UNIQUE INDEX" _ rfl rfl,
    hOne .addConstraint "ADD CONSTRAINT" _ rfl rfl]

end OrderApi

------------------------------------------------------------
-- Phrases at Quotes and Brackets
------------------------------------------------------------

namespace OrderApi

/- A quote in a doubled text stands next to another one. -/
theorem not_infix_doubled
    {a b : Char}
    (hA : a ≠ '"')
    (hB : b ≠ '"')
    (text : List Char) :
    ¬ [a, '"', b] <:+: doubled '"' text := by
  induction text with
  | nil => simp [doubled]
  | cons c text ih =>
      have hFirst : ¬ ['"', b] <+: doubled '"' text := by
        cases text with
        | nil => simp [doubled]
        | cons d text =>
            rw [doubled_cons]
            by_cases hd : d = '"'
            · simp [hd, hB]
            · simp [hd, Ne.symm hd]
      rw [doubled_cons]
      by_cases hc : c = '"'
      · simp [hc, List.infix_cons_iff, ih, hA, hFirst]
      · simp [hc, List.infix_cons_iff, ih, hFirst]

namespace Phrase

variable {phrase : Phrase} {front back : List Char}
variable {name : List Char}

/- A text in two halves that no part lies across. -/
theorem occurs_append
    {text : List Char}
    (hParts :
      ∀ part ∈ phrase.parts,
        (part <:+: text ↔
          part <:+: front ∨ part <:+: back)) :
    phrase.Occurs text ↔
      phrase.Occurs front ∨ phrase.Occurs back := by
  unfold Occurs
  rw [← exists_or]
  apply exists_congr
  intro part
  rw [← and_or_left]
  exact and_congr_right fun hPart => hParts part hPart

/- A text without a phrase, in which no phrase begins. -/
def Apart (phrase : Phrase) (text : List Char) : Prop :=
  ¬ phrase.Occurs text ∧
    ∀ part ∈ phrase.parts, ∀ left ∈ part.inits,
      left <:+ text → left = []

instance (phrase : Phrase) (text : List Char) :
    Decidable (phrase.Apart text) :=
  inferInstanceAs (Decidable (_ ∧ _))

theorem occurs_append_of_apart
    (hApart : phrase.Apart front) :
    phrase.Occurs (front ++ back) ↔ phrase.Occurs back := by
  have hBoth :
      phrase.Occurs (front ++ back) ↔
        phrase.Occurs front ∨ phrase.Occurs back :=
    occurs_append fun part hPart =>
      infix_append_of_apart (hApart.2 part hPart)
  rw [hBoth, or_iff_right hApart.1]

/- No phrase has a double quote, but for the quoted ones. -/
theorem quote_notMem
    {part : String}
    (hPart : part ∈ phrase.plain) :
    '"' ∉ part.toList := by
  revert part
  cases phrase <;> decide

theorem quote_notMem_keyword
    {keyword : String}
    (hKeyword : keyword ∈ phrase.keyword?) :
    '"' ∉ keyword.toList := by
  revert keyword
  cases phrase <;> decide

/- A quoted phrase has a quote that stands alone. -/
theorem not_quotedUsers_infix_doubled
    {keyword : String}
    (hKeyword : keyword ∈ phrase.keyword?) :
    ¬ keyword.toList ++ '"' :: "USERS".toList <:+:
      doubled '"' name := by
  have hQuote :
      ∀ keyword ∈ phrase.keyword?,
        [' ', '"', 'U'] <:+:
          keyword.toList ++ '"' :: "USERS".toList := by
    cases phrase <;> decide
  intro hInfix
  have hAlone := (hQuote keyword hKeyword).trans hInfix
  exact not_infix_doubled (by decide) (by decide) _ hAlone

/-
  A quoted phrase at an identifier: in one of the texts
  around it, or it is the identifier, or a name that begins
  with it and a quote.
-/
theorem quotedUsers_identifier_iff
    {keyword : String}
    (hKeyword : keyword ∈ phrase.keyword?)
    (hFront : '"' ∉ front)
    (hBack : back.head? ≠ some 'U') :
    quotedUsers keyword <:+:
        front ++ '"' :: (doubled '"' name ++ '"' :: back) ↔
      quotedUsers keyword <:+: front ∨
        quotedUsers keyword <:+: doubled '"' name ∨
        quotedUsers keyword <:+: back ∨
        (keyword.toList <:+ front ∧
          "USERS\"".toList <+: doubled '"' name ++ ['"']) := by
  have hA := quote_notMem_keyword hKeyword
  have hB : '"' ∉ "USERS".toList := by decide
  have hNoFront :
      ¬ keyword.toList ++ '"' :: "USERS".toList <:+ front := by
    intro hSuffix
    exact hFront (hSuffix.subset (by simp))
  have hNoName :
      ¬ keyword.toList ++ '"' :: "USERS".toList <:+
        doubled '"' name := by
    intro hSuffix
    exact
      not_quotedUsers_infix_doubled hKeyword hSuffix.isInfix
  have hNoBack : ¬ "USERS".toList ++ ['"'] <+: back := by
    intro hPrefix
    rcases hPrefix with ⟨more, hMore⟩
    rw [← hMore] at hBack
    exact hBack (by simp)
  unfold quotedUsers
  rw [parted_infix_iff hA hB, parted_infix_iff hA hB,
    prefix_append_sep_iff hB]
  simp only [hNoFront, hNoName, hNoBack, and_false, or_false,
    or_assoc]
  rfl

/- A phrase at an identifier. -/
theorem occurs_identifier
    (hFront : '"' ∉ front)
    (hBack : back.head? ≠ some 'U') :
    phrase.Occurs
        (front ++ '"' :: (doubled '"' name ++ '"' :: back)) ↔
      phrase.Occurs front ∨
        phrase.Occurs (doubled '"' name) ∨
        phrase.Occurs back ∨
        ∃ keyword ∈ phrase.keyword?,
          keyword.toList <:+ front ∧
            "USERS\"".toList <+:
              doubled '"' name ++ ['"'] := by
  simp only [occurs_iff]
  have hPlain :
      ∀ part ∈ phrase.plain,
        (part.toList <:+:
            front ++ '"' ::
              (doubled '"' name ++ '"' :: back) ↔
          part.toList <:+: front ∨
            part.toList <:+: doubled '"' name ∨
            part.toList <:+: back) := by
    intro part hPart
    have hQuote := quote_notMem hPart
    rw [infix_append_cons_iff hQuote,
      infix_append_cons_iff hQuote]
  have hQuoted :=
    fun keyword (hKeyword : keyword ∈ phrase.keyword?) =>
      @quotedUsers_identifier_iff phrase front back name
        keyword hKeyword hFront hBack
  grind

end Phrase

end OrderApi

------------------------------------------------------------
-- Upper Case
------------------------------------------------------------

namespace OrderApi

/-
  `toUpperCase` goes character by character.  It is the one
  of ASCII on ASCII characters, and it makes no double quote
  of another character.
-/
structure UppercasesBy
    (platform : Platform)
    (upper : Char → List Char) : Prop where
  text :
    ∀ text,
      (platform.toUpperCase text).toList =
        text.toList.flatMap upper
  ascii : ∀ c, c.toNat < 128 → upper c = [c.toUpper]
  quote : ∀ c, '"' ∈ upper c → c = '"'

namespace UppercasesBy

variable {platform : Platform} {upper : Char → List Char}

/- A text of ASCII characters. -/
theorem flatMap_ascii
    (hUpper : UppercasesBy platform upper)
    {text : List Char}
    (hAscii : ∀ c ∈ text, c.toNat < 128) :
    text.flatMap upper = text.map Char.toUpper := by
  induction text with
  | nil => rfl
  | cons c text ih =>
      have hRest :=
        ih fun d hd => hAscii d (List.mem_cons_of_mem c hd)
      rw [List.flatMap_cons,
        hUpper.ascii c (hAscii c List.mem_cons_self), hRest]
      rfl

theorem quote_eq (hUpper : UppercasesBy platform upper) :
    upper '"' = ['"'] :=
  hUpper.ascii '"' (by decide)

theorem doubled_append
    (text more : List Char) :
    doubled '"' (text ++ more) =
      doubled '"' text ++ doubled '"' more :=
  List.flatMap_append

/- The quotes of a doubled text stay, and no others come. -/
theorem flatMap_doubled
    (hUpper : UppercasesBy platform upper)
    (text : List Char) :
    (doubled '"' text).flatMap upper =
      doubled '"' (text.flatMap upper) := by
  induction text with
  | nil => rfl
  | cons c text ih =>
      rw [doubled_cons, List.flatMap_append, ih,
        List.flatMap_cons, doubled_append]
      by_cases hc : c = '"'
      · simp [hc, hUpper.quote_eq, doubled]
      · have hNone : '"' ∉ upper c :=
          fun hMem => hc (hUpper.quote c hMem)
        rw [if_neg hc, doubled_of_notMem hNone]
        simp

/- A text that is in upper case. -/
theorem flatMap_same
    (hUpper : UppercasesBy platform upper)
    (text : String)
    (hSame :
      ∀ c ∈ text.toList, c.toNat < 128 ∧ c.toUpper = c) :
    text.toList.flatMap upper = text.toList := by
  rw [hUpper.flatMap_ascii fun c hc => (hSame c hc).1]
  have hChars := List.map_congr_left fun c hc => (hSame c hc).2
  rw [hChars, List.map_id']

end UppercasesBy

end OrderApi

------------------------------------------------------------
-- What the Filter Finds
------------------------------------------------------------

namespace OrderApi

/- A name in upper case, as it is written in quotes. -/
def writtenName (platform : Platform) (name : String) :
    List Char :=
  doubled '"' (platform.toUpperCase name).toList

/-
  In upper case the name is `USERS`, or it begins with this
  and a quote.
-/
def BeginsUsers (platform : Platform) (name : String) :
    Prop :=
  "USERS\"".toList <+: writtenName platform name ++ ['"']

namespace PrismaStatement

/- The names and texts of a statement, in upper case. -/
def chosen (platform : Platform) :
    PrismaStatement → List (List Char)
  | createTable table columns =>
      [writtenName platform table,
        (platform.toUpperCase columns).toList]
  | addColumn table column =>
      [writtenName platform table,
        (platform.toUpperCase column).toList]
  | createIndex index table columns =>
      [writtenName platform index,
        writtenName platform table,
        (platform.toUpperCase columns).toList]
  | createUniqueIndex index table columns =>
      [writtenName platform index,
        writtenName platform table,
        (platform.toUpperCase columns).toList]
  | addForeignKey table constraint columns references
      columns' =>
      [writtenName platform table,
          writtenName platform constraint] ++
        (columns.map (writtenName platform) ++
          [writtenName platform references,
            (platform.toUpperCase columns').toList])

/-
  Where the filter is right.  A table or a column of another
  table is created, and no phrase is in a name or a text.  An
  index of another table, or a foreign key between other
  tables, has no `USERS` in a name or a text.  And an index
  that is not unique is one of the users table if and only if
  there is a phrase.
-/
def FilteredRight (platform : Platform) :
    PrismaStatement → Prop
  | createTable table columns =>
      table = "users" ∨
        ¬ BeginsUsers platform table ∧
          ¬ Filtered
            ((createTable table columns).chosen platform)
  | addColumn table column =>
      table = "users" ∨
        ¬ BeginsUsers platform table ∧
          ¬ Filtered
            ((addColumn table column).chosen platform)
  | createIndex index table columns =>
      table = "users" ↔
        Filtered
          ((createIndex index table columns).chosen platform)
  | createUniqueIndex index table columns =>
      table = "users" ∨
        ¬ Phrase.users.OccursIn
          ((createUniqueIndex index table columns).chosen
            platform)
  | addForeignKey table constraint columns references
      columns' =>
      (table = "users" ∨ references = "users") ∨
        ¬ Phrase.users.OccursIn
          ((addForeignKey table constraint columns references
            columns').chosen platform)

end PrismaStatement

/- Text that is the same in upper case. -/
def IsUpper (text : String) : Prop :=
  ∀ c ∈ text.toList, c.toNat < 128 ∧ c.toUpper = c

instance (text : String) : Decidable (IsUpper text) :=
  inferInstanceAs (Decidable (∀ c ∈ text.toList, _))

/- Text that is not empty, and does not begin with a `U`. -/
def OpensApart (text : String) : Prop :=
  text.toList ≠ [] ∧ text.toList.head? ≠ some 'U'

instance (text : String) : Decidable (OpensApart text) :=
  inferInstanceAs (Decidable (_ ∧ _))

theorem OpensApart.head?_append
    {text : String}
    (hOpens : OpensApart text)
    (back : List Char) :
    (text.toList ++ back).head? ≠ some 'U' := by
  rw [List.head?_append_of_ne_nil _ hOpens.1]
  exact hOpens.2

namespace UppercasesBy

variable {platform : Platform} {upper : Char → List Char}
variable {phrase : Phrase} {front name : String}
variable {back : List Char}

theorem flatMap_append_text
    (hUpper : UppercasesBy platform upper)
    (hFront : IsUpper front)
    (text : String) :
    (front.toList ++ text.toList).flatMap upper =
      front.toList ++ (platform.toUpperCase text).toList := by
  rw [List.flatMap_append, hUpper.flatMap_same front hFront,
    hUpper.text]

/- A name in quotes in upper case. -/
theorem flatMap_around
    (hUpper : UppercasesBy platform upper)
    (hFront : IsUpper front)
    (name : String)
    (back : List Char) :
    (around front name back).flatMap upper =
      front.toList ++
        '"' ::
          (writtenName platform name ++
            '"' :: back.flatMap upper) := by
  rw [around, List.flatMap_append,
    hUpper.flatMap_same front hFront, writtenName,
    hUpper.text, ← hUpper.flatMap_doubled]
  simp [QuoteKind.wrap, QuoteKind.char, hUpper.quote_eq]

/- A phrase around a name, behind a text that has none. -/
theorem occurs_around
    (hUpper : UppercasesBy platform upper)
    (hFront : IsUpper front)
    (hNone : ¬ phrase.Occurs front.toList)
    (hQuote : '"' ∉ front.toList)
    (hBack : (back.flatMap upper).head? ≠ some 'U') :
    phrase.Occurs ((around front name back).flatMap upper) ↔
      phrase.Occurs (writtenName platform name) ∨
        phrase.Occurs (back.flatMap upper) ∨
        ∃ keyword ∈ phrase.keyword?,
          keyword.toList <:+ front.toList ∧
            BeginsUsers platform name := by
  rw [hUpper.flatMap_around hFront, writtenName,
    Phrase.occurs_identifier hQuote hBack,
    or_iff_right hNone]
  rfl

/- What is chosen behind a name begins with no letter. -/
theorem head?_append_text
    (hUpper : UppercasesBy platform upper)
    (hFront : IsUpper front)
    (hHead : OpensApart front)
    (text : String) :
    ((front.toList ++ text.toList).flatMap upper).head? ≠
      some 'U' := by
  rw [hUpper.flatMap_append_text hFront]
  exact hHead.head?_append _

/-
  A phrase in a statement on one table: it is in the name or
  in the text, or the statement is on the users table.
-/
theorem occurs_onTable
    (hUpper : UppercasesBy platform upper)
    {own : Phrase}
    {next : String}
    (hFront :
      IsUpper front ∧ ¬ phrase.Occurs front.toList ∧
        '"' ∉ front.toList)
    (hOwn :
      ∀ keyword ∈ phrase.keyword?,
        (keyword.toList <:+ front.toList ↔ phrase = own))
    (hKeyword : own.keyword? ≠ none)
    (hNext :
      IsUpper next ∧ phrase.Apart next.toList ∧
        OpensApart next)
    (table text : String) :
    phrase.OccursIn
        [(around front table
          (next.toList ++ text.toList)).flatMap upper] ↔
      phrase.OccursIn
          [writtenName platform table,
            (platform.toUpperCase text).toList] ∨
        (phrase = own ∧ BeginsUsers platform table) := by
  have hHead := hUpper.head?_append_text hNext.1 hNext.2.2 text
  have hKeywords :
      (∃ keyword ∈ phrase.keyword?,
          keyword.toList <:+ front.toList ∧
            BeginsUsers platform table) ↔
        phrase = own ∧ BeginsUsers platform table := by
    constructor
    · intro hSome
      rcases hSome with ⟨keyword, hMem, hSuffix, hBegins⟩
      exact ⟨(hOwn keyword hMem).mp hSuffix, hBegins⟩
    · intro hBoth
      rcases Option.ne_none_iff_exists'.mp hKeyword with
        ⟨keyword, hSome⟩
      rw [← hBoth.1] at hSome
      exact
        ⟨keyword, hSome, (hOwn keyword hSome).mpr hBoth.1,
          hBoth.2⟩
  unfold Phrase.OccursIn
  simp only [List.mem_cons, List.not_mem_nil, or_false,
    exists_eq_left, exists_eq_or_imp]
  rw [hUpper.occurs_around hFront.1 hFront.2.1 hFront.2.2
      hHead, hUpper.flatMap_append_text hNext.1,
    Phrase.occurs_append_of_apart hNext.2.1, hKeywords,
    or_assoc]

/- One more way to find a phrase that is looked for alone. -/
theorem filtered_iff_of_own
    {own : Phrase}
    {found : Prop}
    {texts texts' : List (List Char)}
    (hOwns : own = .createTable ∨ own = .alterTable)
    (hPhrase :
      ∀ phrase : Phrase,
        phrase.OccursIn texts ↔
          phrase.OccursIn texts' ∨ (phrase = own ∧ found)) :
    Filtered texts ↔ found ∨ Filtered texts' := by
  unfold Filtered
  rw [hPhrase, hPhrase, hPhrase, hPhrase, hPhrase, hPhrase]
  rcases hOwns with rfl | rfl
  · simp only [reduceCtorEq, false_and, or_false, true_and]
    rw [or_assoc, or_left_comm]
  · simp only [reduceCtorEq, false_and, or_false, true_and]
    rw [or_assoc,
      @or_left_comm (Phrase.alterTable.OccursIn _) found,
      or_left_comm]

/- The filter in a statement on one table. -/
theorem filtered_onTable
    (hUpper : UppercasesBy platform upper)
    {own : Phrase}
    {next : String}
    (hOwns : own = .createTable ∨ own = .alterTable)
    (hFront :
      ∀ phrase : Phrase,
        IsUpper front ∧ ¬ phrase.Occurs front.toList ∧
          '"' ∉ front.toList)
    (hOwn :
      ∀ phrase : Phrase, ∀ keyword ∈ phrase.keyword?,
        (keyword.toList <:+ front.toList ↔ phrase = own))
    (hNext :
      ∀ phrase : Phrase,
        IsUpper next ∧ phrase.Apart next.toList ∧
          OpensApart next)
    (table text : String) :
    Filtered
        [(around front table
          (next.toList ++ text.toList)).flatMap upper] ↔
      BeginsUsers platform table ∨
        Filtered
          [writtenName platform table,
            (platform.toUpperCase text).toList] := by
  have hKeyword : own.keyword? ≠ none := by
    rcases hOwns with rfl | rfl <;> decide
  apply filtered_iff_of_own hOwns
  intro phrase
  exact
    hUpper.occurs_onTable (hFront phrase) (hOwn phrase)
      hKeyword (hNext phrase) table text

end UppercasesBy

/- A text that no phrase is in, or can be behind. -/
def Phrase.Clear (phrase : Phrase) (front : String) : Prop :=
  IsUpper front ∧ ¬ phrase.Occurs front.toList ∧
    '"' ∉ front.toList ∧
    ∀ keyword ∈ phrase.keyword?,
      ¬ keyword.toList <:+ front.toList

instance (phrase : Phrase) (front : String) :
    Decidable (phrase.Clear front) :=
  inferInstanceAs (Decidable (_ ∧ _ ∧ _ ∧ _))

namespace UppercasesBy

variable {platform : Platform} {upper : Char → List Char}
variable {phrase : Phrase} {front name : String}
variable {back : List Char}

/- A name behind a text that is not about a table. -/
theorem occurs_around_clear
    (hUpper : UppercasesBy platform upper)
    (hFront : phrase.Clear front)
    (hBack : (back.flatMap upper).head? ≠ some 'U') :
    phrase.Occurs ((around front name back).flatMap upper) ↔
      phrase.Occurs (writtenName platform name) ∨
        phrase.Occurs (back.flatMap upper) := by
  rw [hUpper.occurs_around hFront.1 hFront.2.1 hFront.2.2.1
    hBack]
  have hNone :
      ¬ ∃ keyword ∈ phrase.keyword?,
        keyword.toList <:+ front.toList ∧
          BeginsUsers platform name := by
    intro hSome
    rcases hSome with ⟨keyword, hMem, hSuffix, _⟩
    exact hFront.2.2.2 keyword hMem hSuffix
  rw [or_iff_left hNone]

/- The first character of a text in front of a name. -/
theorem head?_around
    (hUpper : UppercasesBy platform upper)
    (hFront : IsUpper front)
    (hHead : OpensApart front)
    (name : String)
    (back : List Char) :
    ((around front name back).flatMap upper).head? ≠
      some 'U' := by
  rw [hUpper.flatMap_around hFront]
  exact hHead.head?_append _

/- A phrase in a statement on an index. -/
theorem occurs_onIndex
    (hUpper : UppercasesBy platform upper)
    (hFront : phrase.Clear front)
    (hOn : phrase.Clear " ON ")
    (hNext : phrase.Apart "(".toList)
    (index table columns : String) :
    phrase.OccursIn
        [(around front index
          (around " ON " table
            ("(".toList ++ columns.toList))).flatMap upper] ↔
      phrase.OccursIn
        [writtenName platform index,
          writtenName platform table,
          (platform.toUpperCase columns).toList] := by
  have hBracket : IsUpper "(" := by decide
  have hHead :=
    hUpper.head?_append_text hBracket
      (by decide) columns
  unfold Phrase.OccursIn
  simp only [List.mem_cons, List.not_mem_nil, or_false,
    exists_eq_left, exists_eq_or_imp]
  rw [hUpper.occurs_around_clear hFront
      (hUpper.head?_around hOn.1
        (by decide) _ _),
    hUpper.occurs_around_clear hOn hHead,
    hUpper.flatMap_append_text hBracket,
    Phrase.occurs_append_of_apart hNext]

/- A phrase in a list of names. -/
theorem occurs_identifiers
    (hUpper : UppercasesBy platform upper)
    (hNothing : phrase.Clear "")
    (hComma : phrase.Apart ", ".toList)
    (hBack : (back.flatMap upper).head? ≠ some 'U')
    (names : List String) :
    phrase.Occurs ((identifiers names back).flatMap upper) ↔
      phrase.OccursIn (names.map (writtenName platform)) ∨
        phrase.Occurs (back.flatMap upper) := by
  induction names with
  | nil => simp [identifiers, Phrase.OccursIn]
  | cons name names ih =>
      cases names with
      | nil =>
          rw [identifiers,
            hUpper.occurs_around_clear hNothing hBack]
          simp [Phrase.OccursIn]
      | cons other names =>
          have hUpperComma : IsUpper ", " := by
            decide
          have hMore :
              (", ".toList ++
                  identifiers (other :: names) back).flatMap
                  upper =
                ", ".toList ++
                  (identifiers (other :: names) back).flatMap
                    upper := by
            rw [List.flatMap_append,
              hUpper.flatMap_same ", " hUpperComma]
          have hHead :
              ((", ".toList ++
                  identifiers (other :: names) back).flatMap
                  upper).head? ≠ some 'U' := by
            rw [hMore]
            simp
          rw [identifiers,
            hUpper.occurs_around_clear hNothing hHead, hMore,
            Phrase.occurs_append_of_apart hComma, ih,
            ← or_assoc]
          simp [Phrase.OccursIn]

/- A phrase in a foreign key. -/
theorem occurs_onForeignKey
    (hUpper : UppercasesBy platform upper)
    (hClear :
      ∀ front ∈ ["", "ALTER TABLE ", " ADD CONSTRAINT ",
        ") REFERENCES "], phrase.Clear front)
    (hApart :
      ∀ front ∈ [", ", "(", " FOREIGN KEY ("],
        phrase.Apart front.toList)
    (table constraint : String)
    (columns : List String)
    (references columns' : String) :
    phrase.OccursIn
        [(PrismaStatement.addForeignKey table constraint
          columns references columns').chars.flatMap upper] ↔
      phrase.OccursIn
        ((PrismaStatement.addForeignKey table constraint
          columns references columns').chosen platform) := by
  have hBracket : IsUpper "(" := by decide
  have hKey : IsUpper " FOREIGN KEY (" := by decide
  have hTable := hClear "ALTER TABLE " (by decide)
  have hConstraint := hClear " ADD CONSTRAINT " (by decide)
  have hReferences := hClear ") REFERENCES " (by decide)
  have hColumns' :=
    hUpper.head?_append_text hBracket
      (by decide) columns'
  have hColumns :=
    hUpper.head?_around hReferences.1
      (by decide) references
      ("(".toList ++ columns'.toList)
  have hForeignKey :
      (" FOREIGN KEY (".toList ++
          identifiers columns
            (around ") REFERENCES " references
              ("(".toList ++ columns'.toList))).flatMap
          upper =
        " FOREIGN KEY (".toList ++
          (identifiers columns
            (around ") REFERENCES " references
              ("(".toList ++ columns'.toList))).flatMap
            upper := by
    rw [List.flatMap_append,
      hUpper.flatMap_same " FOREIGN KEY (" hKey]
  have hKeyHead :
      ((" FOREIGN KEY (".toList ++
          identifiers columns
            (around ") REFERENCES " references
              ("(".toList ++ columns'.toList))).flatMap
          upper).head? ≠ some 'U' := by
    rw [hForeignKey]
    simp
  have hConstraintHead :=
    hUpper.head?_around hConstraint.1
      (by decide) constraint
      (" FOREIGN KEY (".toList ++
        identifiers columns
          (around ") REFERENCES " references
            ("(".toList ++ columns'.toList)))
  have hOne :
      ∀ text : List Char,
        phrase.OccursIn [text] ↔ phrase.Occurs text := by
    simp [Phrase.OccursIn]
  rw [hOne, PrismaStatement.chars,
    hUpper.occurs_around_clear hTable hConstraintHead,
    hUpper.occurs_around_clear hConstraint hKeyHead,
    hForeignKey,
    Phrase.occurs_append_of_apart
      (hApart " FOREIGN KEY (" (by decide)),
    hUpper.occurs_identifiers (hClear "" (by decide))
      (hApart ", " (by decide)) hColumns,
    hUpper.occurs_around_clear hReferences hColumns',
    hUpper.flatMap_append_text hBracket,
    Phrase.occurs_append_of_apart (hApart "(" (by decide))]
  unfold Phrase.OccursIn PrismaStatement.chosen
  simp only [List.mem_append, List.mem_cons,
    List.not_mem_nil, or_false, or_and_right, exists_or,
    exists_eq_left, or_assoc]

end UppercasesBy

end OrderApi

------------------------------------------------------------
-- Where the Filter Is Right
------------------------------------------------------------

namespace OrderApi

/- Every phrase with a keyword has `USERS` in it. -/
theorem Phrase.users_of_keyword
    {phrase : Phrase}
    {texts : List (List Char)}
    (hKeyword : phrase.keyword? ≠ none)
    (hOccurs : phrase.OccursIn texts) :
    Phrase.users.OccursIn texts := by
  have hUsers :
      ∀ part ∈ phrase.parts, "USERS".toList <:+: part := by
    cases phrase with
    | createTable => decide
    | alterTable => decide
    | references => decide
    | _ => exact (hKeyword rfl).elim
  rcases hOccurs with ⟨text, hText, part, hPart, hInfix⟩
  exact
    ⟨text, hText, "USERS".toList, by decide,
      (hUsers part hPart).trans hInfix⟩

/- With one of two phrases, any `USERS` is enough. -/
theorem filtered_iff_users
    {own : Phrase}
    {texts : List (List Char)}
    (hOwns : own = .createUniqueIndex ∨ own = .addConstraint)
    (hOwn : own.OccursIn texts) :
    Filtered texts ↔ Phrase.users.OccursIn texts := by
  unfold Filtered
  constructor
  · intro hSome
    rcases hSome with
      hCreate | hAlter | hUnique | hReferences | hConstraint
    · exact Phrase.users_of_keyword (by decide) hCreate
    · exact Phrase.users_of_keyword (by decide) hAlter
    · exact hUnique.2
    · exact Phrase.users_of_keyword (by decide) hReferences
    · exact hConstraint.2
  · intro hUsers
    rcases hOwns with rfl | rfl
    · exact Or.inr (Or.inr (Or.inl ⟨hOwn, hUsers⟩))
    · exact
        Or.inr (Or.inr (Or.inr (Or.inr ⟨hOwn, hUsers⟩)))

variable {platform : Platform} {upper : Char → List Char}

/- The name `users`, as it is written in upper case. -/
theorem writtenName_users
    (hUpper : UppercasesBy platform upper) :
    writtenName platform "users" = "USERS".toList := by
  have hAscii : ∀ c ∈ "users".toList, c.toNat < 128 := by
    decide
  rw [writtenName, hUpper.text, hUpper.flatMap_ascii hAscii]
  decide

theorem beginsUsers_users
    (hUpper : UppercasesBy platform upper) :
    BeginsUsers platform "users" := by
  rw [BeginsUsers, writtenName_users hUpper]
  decide

/- The name `users` among the names of a statement. -/
theorem users_occursIn
    (hUpper : UppercasesBy platform upper)
    {texts : List (List Char)}
    (hMem : writtenName platform "users" ∈ texts) :
    Phrase.users.OccursIn texts := by
  refine ⟨_, hMem, ?_⟩
  rw [writtenName_users hUpper]
  decide

/- What is skipped is found in the text in upper case. -/
theorem shouldSkip_text_iff
    (hUpper : UppercasesBy platform upper)
    (statement : PrismaStatement) :
    shouldSkipStatement platform statement.text = true ↔
      Filtered [statement.chars.flatMap upper] := by
  rw [shouldSkipStatement_iff, hUpper.text,
    PrismaStatement.text, String.toList_ofList]

/- A text that begins with a phrase. -/
theorem occursIn_around
    (hUpper : UppercasesBy platform upper)
    {phrase : Phrase}
    {front : String}
    (hFront : IsUpper front)
    (hOccurs : phrase.Occurs front.toList)
    (name : String)
    (back : List Char) :
    phrase.OccursIn
      [(around front name back).flatMap upper] := by
  rcases hOccurs with ⟨part, hPart, hInfix⟩
  rw [hUpper.flatMap_around hFront]
  exact
    ⟨_, List.mem_singleton_self _, part, hPart,
      List.infix_append_of_infix_left hInfix⟩

/- A statement that creates a table. -/
theorem filtered_createTable
    (hUpper : UppercasesBy platform upper)
    (table columns : String) :
    Filtered
        [(PrismaStatement.createTable table
          columns).chars.flatMap upper] ↔
      BeginsUsers platform table ∨
        Filtered
          ((PrismaStatement.createTable table columns).chosen
            platform) := by
  apply hUpper.filtered_onTable (Or.inl rfl)
  · intro phrase
    cases phrase <;> decide
  · intro phrase
    cases phrase <;> decide
  · intro phrase
    cases phrase <;> decide

/- A statement that adds a column to a table. -/
theorem filtered_addColumn
    (hUpper : UppercasesBy platform upper)
    (table column : String) :
    Filtered
        [(PrismaStatement.addColumn table
          column).chars.flatMap upper] ↔
      BeginsUsers platform table ∨
        Filtered
          ((PrismaStatement.addColumn table column).chosen
            platform) := by
  apply hUpper.filtered_onTable (Or.inr rfl)
  · intro phrase
    cases phrase <;> decide
  · intro phrase
    cases phrase <;> decide
  · intro phrase
    cases phrase <;> decide

/- A statement that creates an index that is not unique. -/
theorem filtered_createIndex
    (hUpper : UppercasesBy platform upper)
    (index table columns : String) :
    Filtered
        [(PrismaStatement.createIndex index table
          columns).chars.flatMap upper] ↔
      Filtered
        ((PrismaStatement.createIndex index table
          columns).chosen platform) := by
  have hPhrase :
      ∀ phrase : Phrase,
        phrase.OccursIn
            [(PrismaStatement.createIndex index table
              columns).chars.flatMap upper] ↔
          phrase.OccursIn
            ((PrismaStatement.createIndex index table
              columns).chosen platform) := by
    intro phrase
    apply hUpper.occurs_onIndex
    · cases phrase <;> decide
    · cases phrase <;> decide
    · cases phrase <;> decide
  unfold Filtered
  rw [hPhrase, hPhrase, hPhrase, hPhrase, hPhrase, hPhrase]

/- A statement that creates a unique index. -/
theorem filtered_createUniqueIndex
    (hUpper : UppercasesBy platform upper)
    (index table columns : String) :
    Filtered
        [(PrismaStatement.createUniqueIndex index table
          columns).chars.flatMap upper] ↔
      Phrase.users.OccursIn
        ((PrismaStatement.createUniqueIndex index table
          columns).chosen platform) := by
  have hOwn :
      Phrase.createUniqueIndex.OccursIn
        [(PrismaStatement.createUniqueIndex index table
          columns).chars.flatMap upper] :=
    occursIn_around hUpper (by decide)
      (by decide) _ _
  rw [filtered_iff_users (Or.inl rfl) hOwn]
  exact
    hUpper.occurs_onIndex (by decide)
      (by decide) (by decide) index table
      columns

/- A statement that adds a foreign key. -/
theorem filtered_addForeignKey
    (hUpper : UppercasesBy platform upper)
    (table constraint : String)
    (columns : List String)
    (references columns' : String) :
    Filtered
        [(PrismaStatement.addForeignKey table constraint
          columns references columns').chars.flatMap upper] ↔
      Phrase.users.OccursIn
        ((PrismaStatement.addForeignKey table constraint
          columns references columns').chosen platform) := by
  have hOwn :
      Phrase.addConstraint.OccursIn
        [(PrismaStatement.addForeignKey table constraint
          columns references columns').chars.flatMap
            upper] := by
    have hInner :
        Phrase.addConstraint.OccursIn
          [(around " ADD CONSTRAINT " constraint
            (" FOREIGN KEY (".toList ++
              identifiers columns
                (around ") REFERENCES " references
                  ("(".toList ++
                    columns'.toList)))).flatMap upper] :=
      occursIn_around hUpper (by decide)
        (by decide) _ _
    rcases hInner with ⟨text, hText, part, hPart, hInfix⟩
    rw [List.mem_singleton.mp hText] at hInfix
    refine ⟨_, List.mem_singleton_self _, part, hPart, ?_⟩
    rw [PrismaStatement.chars,
      hUpper.flatMap_around (by decide)]
    refine hInfix.trans ?_
    exact
      ⟨"ALTER TABLE ".toList ++
        '"' :: (writtenName platform table ++ ['"']), [],
        by simp⟩
  rw [filtered_iff_users (Or.inr rfl) hOwn]
  exact
    hUpper.occurs_onForeignKey (by decide)
      (by decide) table constraint columns references
      columns'

/-
  The filter is right about a statement of these shapes if
  and only if no name and no text of it misleads it.
-/
theorem filter_right_iff
    (hUpper : UppercasesBy platform upper)
    (statement : PrismaStatement) :
    (shouldSkipStatement platform statement.text = true ↔
        statement.ConcernsUsers) ↔
      statement.FilteredRight platform := by
  have hName := beginsUsers_users hUpper
  rw [shouldSkip_text_iff hUpper]
  unfold PrismaStatement.ConcernsUsers
    PrismaStatement.FilteredRight
  cases statement with
  | createTable table columns =>
      rw [filtered_createTable hUpper]
      by_cases hTable : table = "users"
      · simp [hTable, hName]
      · simp [hTable]
  | addColumn table column =>
      rw [filtered_addColumn hUpper]
      by_cases hTable : table = "users"
      · simp [hTable, hName]
      · simp [hTable]
  | createIndex index table columns =>
      rw [filtered_createIndex hUpper]
      exact iff_comm
  | createUniqueIndex index table columns =>
      rw [filtered_createUniqueIndex hUpper]
      by_cases hTable : table = "users"
      · have hUsers :
            Phrase.users.OccursIn
              ((PrismaStatement.createUniqueIndex index
                "users" columns).chosen platform) :=
          users_occursIn hUpper
            (by simp [PrismaStatement.chosen])
        simp [hTable, hUsers]
      · simp [hTable]
  | addForeignKey table constraint columns references
      columns' =>
      rw [filtered_addForeignKey hUpper]
      by_cases hNames : table = "users" ∨ references = "users"
      · have hUsers :
            Phrase.users.OccursIn
              ((PrismaStatement.addForeignKey table constraint
                columns references columns').chosen
                  platform) := by
          apply users_occursIn hUpper
          rcases hNames with hTable | hReferences
          · simp [PrismaStatement.chosen, hTable]
          · simp [PrismaStatement.chosen, hReferences]
        simp [hNames, hUsers]
      · simp [hNames]

end OrderApi

------------------------------------------------------------
-- An Index That Is Not Skipped
------------------------------------------------------------

namespace OrderApi

namespace Onboarding

/- No other character is a quote in upper case. -/
theorem eq_quote_of_toUpper
    {c : Char}
    (hQuote : '"' = c.toUpper) :
    c = '"' := by
  unfold Char.toUpper at hQuote
  split at hQuote
  · rename_i hLetter
    have hValue :=
      congrArg UInt32.toNat (congrArg Char.val hQuote)
    simp [UInt32.le_iff_toNat_le] at hLetter hValue
    omega
  · exact hQuote.symm

theorem uppercasesBy :
    UppercasesBy platform fun c => [c.toUpper] where
  text := by
    intro text
    simp [platform, List.map_eq_flatMap]
  ascii := by simp
  quote := by
    intro c hQuote
    exact eq_quote_of_toUpper (List.mem_singleton.mp hQuote)

/- The foreign key of the orders to the users. -/
def ordersKey : PrismaStatement :=
  .addForeignKey "orders" "orders_userId_fkey" ["userId"]
    "users" "\"id\");"

/- An index of the users that is not unique. -/
def usersIndex : PrismaStatement :=
  .createIndex "users_role_idx" "users" "\"role\");"

end Onboarding

/- The foreign key of the orders is skipped. -/
theorem filter_right_iff_of_ordersKey :
    (shouldSkipStatement Onboarding.platform
          Onboarding.ordersKey.text = true ↔
        Onboarding.ordersKey.ConcernsUsers) ↔
      Onboarding.ordersKey.FilteredRight
        Onboarding.platform :=
  filter_right_iff Onboarding.uppercasesBy
    Onboarding.ordersKey

/- The index of the users is executed. -/
theorem not_filter_right :
    ¬ ∀ (platform : Platform) (upper : Char → List Char)
        (statement : PrismaStatement),
      UppercasesBy platform upper →
      (shouldSkipStatement platform statement.text = true ↔
        statement.ConcernsUsers) := by
  intro hClaim
  have hIndex :=
    hClaim Onboarding.platform (fun c => [c.toUpper])
      Onboarding.usersIndex Onboarding.uppercasesBy
  have hSkipped := hIndex.mpr rfl
  exact absurd hSkipped (by decide)

end OrderApi
