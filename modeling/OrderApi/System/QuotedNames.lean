import OrderApi.Common.Request
import OrderApi.Rabbitmq.DatabaseCreationConsumer
import OrderApi.Prisma.TenantMigration
import OrderApi.Text.SqlTokens

/-
  The names that are put into the texts of SQL statements:
  names of databases as identifiers, and names of migrations
  as strings.  Both services write the quotes in them twice.

  Key definitions include:
    * `DatabaseCreationConsumer.escapeIdentifier`
    * `SchemaOp.nameSql?`
    * `DatabaseCreationConsumer.databaseSql?`
    * `NamesReadBack`

  Key theorems include:
    * `readTokens_around`
    * `names_read_back`
-/

------------------------------------------------------------
-- The Texts of the Statements
------------------------------------------------------------

namespace OrderApi

/- `text.replace(/"/g, '""')`, and so for the other quote. -/
def replaceQuotes (kind : QuoteKind) (text : String) :
    String :=
  String.ofList (doubled kind.char text.toList)

namespace DatabaseCreationConsumer

def escapeIdentifier (identifier : String) : String :=
  "\"" ++ replaceQuotes .identifier identifier ++ "\""

/- The statements on databases, with the names in them. -/
def databaseSql? : TenancyOp → Option String
  | .createDatabase databaseName =>
      some ("CREATE DATABASE " ++ escapeIdentifier databaseName)
  | .dropDatabase databaseName =>
      some
        ("DROP DATABASE IF EXISTS " ++
          escapeIdentifier databaseName)
  | _ => none

end DatabaseCreationConsumer

/- The name of a directory, as the text of a string. -/
def nameLiteral (migrationDir : String) : String :=
  "'" ++ replaceQuotes .literal migrationDir ++ "'"

/-
  The statements on the log of migrations with the name of a
  migration in them.  `migrationId` is the id that the
  consumer draws for a row; the service leaves it to the
  database.
-/
def SchemaOp.nameSql? (migrationId : String) :
    SchemaOp → Option String
  | findMigrations migrationDir =>
      some
        ("SELECT id FROM \"_prisma_migrations\" WHERE " ++
          "migration_name = " ++ nameLiteral migrationDir)
  | insertMigration migrationDir checksum =>
      some
        ("\n                INSERT INTO " ++
          "\"_prisma_migrations\" \n                " ++
          "(id, checksum, migration_name, started_at, " ++
          "applied_steps_count)\n                " ++
          "VALUES ('" ++ migrationId ++ "', '" ++ checksum ++
          "', " ++ nameLiteral migrationDir ++
          ", CURRENT_TIMESTAMP, 0)\n              ")
  | insertApplied migrationDir appliedStepsCount =>
      some
        ("INSERT INTO \"_prisma_migrations\" (id, " ++
          "checksum, migration_name, started_at, " ++
          "applied_steps_count, finished_at)\n" ++
          "                 VALUES (gen_random_uuid(), " ++
          "'-', " ++ nameLiteral migrationDir ++
          ", CURRENT_TIMESTAMP, " ++
          toString appliedStepsCount ++
          ", CURRENT_TIMESTAMP)")
  | _ => none

end OrderApi

------------------------------------------------------------
-- The Names Read Back
------------------------------------------------------------

namespace OrderApi

open DatabaseCreationConsumer

/- Words and symbols, by their texts. -/
def sqlWords (texts : List String) : List SqlToken :=
  texts.map fun text =>
    match text.toList with
    | [c] => if isWordChar c then .word [c] else .symbol c
    | cs => .word cs

/- `_prisma_migrations` -/
def migrationsTable : SqlToken :=
  .quoted .identifier "_prisma_migrations".toList

/- A text that SQL can hold. -/
def NulFree (text : String) : Prop := '\x00' ∉ text.toList

instance (text : String) : Decidable (NulFree text) :=
  inferInstanceAs (Decidable (_ ∉ _))

/-
  Every name is one token of the statement that it is put
  into, and this token is the name.
-/
structure NamesReadBack
    (platform : Platform)
    (env : Environment)
    (identifier tenantCode : String)
    (migration : Migration) : Prop where
  identifier :
    readTokens (escapeIdentifier identifier) =
      some [.quoted .identifier identifier.toList]
  created :
    (databaseSql?
        (.createDatabase
          (databaseName platform env tenantCode))).bind
        readTokens =
      some
        (sqlWords ["CREATE", "DATABASE"] ++
          [.quoted .identifier
            (databaseName platform env tenantCode).toList])
  dropped :
    (databaseSql?
        (.dropDatabase
          (databaseName platform env tenantCode))).bind
        readTokens =
      some
        (sqlWords ["DROP", "DATABASE", "IF", "EXISTS"] ++
          [.quoted .identifier
            (databaseName platform env tenantCode).toList])
  literal :
    readTokens (nameLiteral migration.name) =
      some [.quoted .literal migration.name.toList]
  found :
    ∀ migrationId,
      ((SchemaOp.findMigrations migration.name).nameSql?
          migrationId).bind readTokens =
        some
          (sqlWords ["SELECT", "id", "FROM"] ++
            migrationsTable ::
              sqlWords ["WHERE", "migration_name", "="] ++
            [.quoted .literal migration.name.toList])
  started :
    ∀ migrationId, isUuid migrationId = true →
      ((SchemaOp.insertMigration migration.name
          (calculateChecksum migration.sql)).nameSql?
            migrationId).bind readTokens =
        some
          (sqlWords ["INSERT", "INTO"] ++
            migrationsTable ::
              sqlWords
                ["(", "id", ",", "checksum", ",",
                  "migration_name", ",", "started_at", ",",
                  "applied_steps_count", ")", "VALUES",
                  "("] ++
            .quoted .literal migrationId.toList ::
              sqlWords [","] ++
            .quoted .literal
              (calculateChecksum migration.sql).toList ::
              sqlWords [","] ++
            .quoted .literal migration.name.toList ::
              sqlWords
                [",", "CURRENT_TIMESTAMP", ",", "0", ")"])
  applied :
    ∀ migrationId appliedStepsCount,
      ((SchemaOp.insertApplied migration.name
          appliedStepsCount).nameSql? migrationId).bind
          readTokens =
        some
          (sqlWords ["INSERT", "INTO"] ++
            migrationsTable ::
              sqlWords
                ["(", "id", ",", "checksum", ",",
                  "migration_name", ",", "started_at", ",",
                  "applied_steps_count", ",", "finished_at",
                  ")", "VALUES", "(", "gen_random_uuid",
                  "(", ")", ","] ++
            .quoted .literal ['-'] :: sqlWords [","] ++
            .quoted .literal migration.name.toList ::
              sqlWords [",", "CURRENT_TIMESTAMP", ","] ++
            .word (toString appliedStepsCount).toList ::
              sqlWords [",", "CURRENT_TIMESTAMP", ")"])

end OrderApi

------------------------------------------------------------
-- Names in Their Statements
------------------------------------------------------------

namespace OrderApi

open DatabaseCreationConsumer

theorem escapeIdentifier_toList (identifier : String) :
    (escapeIdentifier identifier).toList =
      QuoteKind.identifier.wrap identifier.toList := by
  simp [escapeIdentifier, replaceQuotes, QuoteKind.wrap,
    QuoteKind.char]

theorem nameLiteral_toList (migrationDir : String) :
    (nameLiteral migrationDir).toList =
      QuoteKind.literal.wrap migrationDir.toList := by
  simp [nameLiteral, replaceQuotes, QuoteKind.wrap,
    QuoteKind.char]

theorem readTokensFrom_nil :
    readTokensFrom .between [] = some [] :=
  rfl

/- An identifier behind the words of its statement. -/
theorem readTokens_identifier
    {front : String}
    {tokens : List SqlToken}
    {identifier : String}
    (hFront :
      TokenState.between.scan front.toList =
        some (tokens, .between))
    (hNul : NulFree identifier) :
    readTokens (front ++ escapeIdentifier identifier) =
      some
        (tokens ++
          [.quoted .identifier identifier.toList]) := by
  have hAround :=
    readTokens_around .identifier hFront hNul (by simp)
      readTokensFrom_nil
  rw [List.append_nil] at hAround
  rw [readTokens, String.toList_append,
    escapeIdentifier_toList, hAround]

/- The name of a migration amid its statement. -/
theorem readTokens_literal
    {front back : String}
    {tokens more : List SqlToken}
    {text : String}
    (hFront :
      TokenState.between.scan front.toList =
        some (tokens, .between))
    (hNul : NulFree text)
    (hHead : back.toList.head? ≠ some '\x27')
    (hBack : readTokens back = some more) :
    readTokens (front ++ nameLiteral text ++ back) =
      some (tokens ++ .quoted .literal text.toList :: more) := by
  rw [readTokens, String.toList_append, String.toList_append,
    nameLiteral_toList, List.append_assoc]
  exact
    readTokens_around .literal hFront hNul hHead hBack

/- A text without quotes is a literal as it stands. -/
theorem nameLiteral_of_quiet
    {text : String}
    (hQuiet : '\x27' ∉ text.toList) :
    nameLiteral text = "'" ++ text ++ "'" := by
  rw [nameLiteral, replaceQuotes, QuoteKind.char,
    doubled_of_notMem hQuiet, String.ofList_toList]

theorem isUuid_quiet
    {text : String}
    (hUuid : isUuid text = true) :
    NulFree text ∧ '\x27' ∉ text.toList := by
  simp only [isUuid, Bool.and_eq_true,
    List.all_eq_true] at hUuid
  constructor
  · intro hMem
    exact absurd (hUuid.2 '\x00' hMem) (by decide)
  · intro hMem
    exact absurd (hUuid.2 '\x27' hMem) (by decide)

/- Hexadecimal digits are letters and digits. -/
theorem isAlphanum_of_mem_toDigits
    {n : Nat}
    {c : Char}
    (hc : c ∈ Nat.toDigits 16 n) :
    c.isAlphanum = true := by
  induction n using Nat.strong_induction_on with
  | h n ih =>
      have hDigit :
          ∀ d < 16, (Nat.digitChar d).isAlphanum = true := by
        decide
      by_cases hSmall : n < 16
      · rw [Nat.toDigits_of_lt_base hSmall,
          List.mem_singleton] at hc
        rw [hc]
        exact hDigit n hSmall
      · rw [Nat.toDigits_of_base_le (by omega) (by omega),
          List.mem_append, List.mem_singleton] at hc
        rcases hc with hFront | hLast
        · exact ih (n / 16) (by omega) hFront
        · rw [hLast]
          exact hDigit (n % 16) (by omega)

theorem calculateChecksum_quiet (content : String) :
    NulFree (calculateChecksum content) ∧
      '\x27' ∉ (calculateChecksum content).toList := by
  have hAll :
      ∀ c ∈ (calculateChecksum content).toList,
        c.isAlphanum = true := by
    intro c hc
    simp only [calculateChecksum, String.toList_ofList,
      List.leftpad, List.mem_append, List.mem_replicate] at hc
    rcases hc with ⟨_, hZero⟩ | hDigit
    · rw [hZero]
      decide
    · exact isAlphanum_of_mem_toDigits hDigit
  constructor
  · intro hMem
    exact absurd (hAll _ hMem) (by decide)
  · intro hMem
    exact absurd (hAll _ hMem) (by decide)

end OrderApi

------------------------------------------------------------
-- All Statements
------------------------------------------------------------

namespace OrderApi

open DatabaseCreationConsumer

/- The end of the service's insertion, with its count. -/
theorem readTokens_count (n : Nat) :
    readTokens
        (", CURRENT_TIMESTAMP, " ++ toString n ++
          ", CURRENT_TIMESTAMP)") =
      some
        (sqlWords [",", "CURRENT_TIMESTAMP", ","] ++
          .word (toString n).toList ::
            sqlWords [",", "CURRENT_TIMESTAMP", ")"]) := by
  have hFront :
      TokenState.between.scan
          ", CURRENT_TIMESTAMP, ".toList =
        some
          (sqlWords [",", "CURRENT_TIMESTAMP", ","],
            .between) := by
    decide
  have hBack :
      readTokensFrom .between
          ", CURRENT_TIMESTAMP)".toList =
        some (sqlWords [",", "CURRENT_TIMESTAMP", ")"]) := by
    decide
  have hNumber :
      readTokensFrom .between
          (Nat.toDigits 10 n ++
            ", CURRENT_TIMESTAMP)".toList) =
        (readTokensFrom .between
            ", CURRENT_TIMESTAMP)".toList).map fun more =>
          .word (Nat.toDigits 10 n) :: more := by
    apply readTokens_number
    simp [isWordChar]
  rw [readTokens, String.toList_append, String.toList_append,
    List.append_assoc, readTokens_append hFront]
  simp only [Nat.toString_eq_repr, Nat.toList_repr]
  rw [hNumber, hBack]
  simp

/- The consumer's insertion, with the id and the checksum. -/
theorem readTokens_started
    {migrationId checksum migrationDir : String}
    (hId : NulFree migrationId ∧ '\x27' ∉ migrationId.toList)
    (hChecksum : NulFree checksum ∧ '\x27' ∉ checksum.toList)
    (hDir : NulFree migrationDir) :
    ((SchemaOp.insertMigration migrationDir checksum).nameSql?
        migrationId).bind readTokens =
      some
        (sqlWords ["INSERT", "INTO"] ++
          migrationsTable ::
            sqlWords
              ["(", "id", ",", "checksum", ",",
                "migration_name", ",", "started_at", ",",
                "applied_steps_count", ")", "VALUES",
                "("] ++
          .quoted .literal migrationId.toList ::
            sqlWords [","] ++
          .quoted .literal checksum.toList ::
            sqlWords [","] ++
          .quoted .literal migrationDir.toList ::
            sqlWords
              [",", "CURRENT_TIMESTAMP", ",", "0", ")"]) := by
  have hComma :
      TokenState.between.scan ", ".toList =
        some (sqlWords [","], .between) := by
    decide
  have hEnd :
      readTokens ", CURRENT_TIMESTAMP, 0)\n              " =
        some
          (sqlWords
            [",", "CURRENT_TIMESTAMP", ",", "0", ")"]) := by
    decide
  have hName :=
    readTokens_literal hComma hDir (by simp) hEnd
  have hSecond :=
    readTokens_literal hComma hChecksum.1 (by simp) hName
  have hFirst :
      TokenState.between.scan
          ("\n                INSERT INTO " ++
            "\"_prisma_migrations\" \n                " ++
            "(id, checksum, migration_name, started_at, " ++
            "applied_steps_count)\n                " ++
            "VALUES (").toList =
        some
          (sqlWords ["INSERT", "INTO"] ++
            migrationsTable ::
              sqlWords
                ["(", "id", ",", "checksum", ",",
                  "migration_name", ",", "started_at", ",",
                  "applied_steps_count", ")", "VALUES",
                  "("], .between) := by
    decide +kernel
  have hAll :=
    readTokens_literal hFirst hId.1 (by simp) hSecond
  rw [nameLiteral_of_quiet hId.2,
    nameLiteral_of_quiet hChecksum.2] at hAll
  have hOpen : "VALUES ('" = "VALUES (" ++ "'" := by
    decide
  have hBetween : "', '" = "'" ++ ", " ++ "'" := by
    decide
  have hClose : "', " = "'" ++ ", " := by
    decide
  rw [SchemaOp.nameSql?, Option.bind_some, hOpen, hBetween,
    hClose]
  simpa only [String.append_assoc, List.append_assoc,
    List.cons_append] using hAll

/- The service's insertion, with the count. -/
theorem readTokens_applied
    {migrationDir : String}
    (hDir : NulFree migrationDir)
    (migrationId : String)
    (appliedStepsCount : Nat) :
    ((SchemaOp.insertApplied migrationDir
        appliedStepsCount).nameSql? migrationId).bind
        readTokens =
      some
        (sqlWords ["INSERT", "INTO"] ++
          migrationsTable ::
            sqlWords
              ["(", "id", ",", "checksum", ",",
                "migration_name", ",", "started_at", ",",
                "applied_steps_count", ",", "finished_at",
                ")", "VALUES", "(", "gen_random_uuid",
                "(", ")", ","] ++
          .quoted .literal ['-'] :: sqlWords [","] ++
          .quoted .literal migrationDir.toList ::
            sqlWords [",", "CURRENT_TIMESTAMP", ","] ++
          .word (toString appliedStepsCount).toList ::
            sqlWords [",", "CURRENT_TIMESTAMP", ")"]) := by
  have hFront :
      TokenState.between.scan
          ("INSERT INTO \"_prisma_migrations\" (id, " ++
            "checksum, migration_name, started_at, " ++
            "applied_steps_count, finished_at)\n" ++
            "                 VALUES (gen_random_uuid(), " ++
            "'-', ").toList =
        some
          (sqlWords ["INSERT", "INTO"] ++
            migrationsTable ::
              sqlWords
                ["(", "id", ",", "checksum", ",",
                  "migration_name", ",", "started_at", ",",
                  "applied_steps_count", ",", "finished_at",
                  ")", "VALUES", "(", "gen_random_uuid",
                  "(", ")", ","] ++
            .quoted .literal ['-'] :: sqlWords [","],
            .between) := by
    decide +kernel
  have hHead :
      (", CURRENT_TIMESTAMP, " ++ toString appliedStepsCount ++
        ", CURRENT_TIMESTAMP)").toList.head? ≠
          some '\x27' := by
    simp
  have hAll :=
    readTokens_literal hFront hDir hHead
      (readTokens_count appliedStepsCount)
  rw [SchemaOp.nameSql?, Option.bind_some]
  simpa only [String.append_assoc, List.append_assoc,
    List.cons_append] using hAll

/-
  Reading a statement gives back every name in it: the name
  of a database as one identifier, and that of a migration
  as one string.
-/
theorem names_read_back
    (platform : Platform)
    (env : Environment)
    {identifier tenantCode : String}
    {migration : Migration}
    (hIdentifier : NulFree identifier)
    (hName : NulFree (databaseName platform env tenantCode))
    (hDir : NulFree migration.name) :
    NamesReadBack platform env identifier tenantCode
      migration := by
  have hNone :
      TokenState.between.scan "".toList =
        some ([], .between) := by
    decide
  have hEmpty : readTokens "" = some [] := by
    decide
  have hCreate :
      TokenState.between.scan "CREATE DATABASE ".toList =
        some (sqlWords ["CREATE", "DATABASE"], .between) := by
    decide
  have hDrop :
      TokenState.between.scan
          "DROP DATABASE IF EXISTS ".toList =
        some
          (sqlWords ["DROP", "DATABASE", "IF", "EXISTS"],
            .between) := by
    decide
  have hFind :
      TokenState.between.scan
          ("SELECT id FROM \"_prisma_migrations\" WHERE " ++
            "migration_name = ").toList =
        some
          (sqlWords ["SELECT", "id", "FROM"] ++
            migrationsTable ::
              sqlWords ["WHERE", "migration_name", "="],
            .between) := by
    decide
  refine
    { identifier := ?_
      created := ?_
      dropped := ?_
      literal := ?_
      found := ?_
      started := ?_
      applied := readTokens_applied hDir }
  · have hAll := readTokens_identifier hNone hIdentifier
    rwa [String.empty_append, List.nil_append] at hAll
  · rw [databaseSql?, Option.bind_some]
    exact readTokens_identifier hCreate hName
  · rw [databaseSql?, Option.bind_some]
    exact readTokens_identifier hDrop hName
  · have hAll :=
      readTokens_literal hNone hDir (by simp) hEmpty
    rwa [String.empty_append, String.append_empty,
      List.nil_append] at hAll
  · intro migrationId
    have hAll :=
      readTokens_literal hFind hDir (by simp) hEmpty
    rw [String.append_empty] at hAll
    rw [SchemaOp.nameSql?, Option.bind_some]
    exact hAll
  · intro migrationId hUuid
    exact
      readTokens_started (isUuid_quiet hUuid)
        (calculateChecksum_quiet migration.sql) hDir

/- Names that are nothing but quotes, and quotes in names. -/
theorem names_read_back_of_quotes :
    NamesReadBack Onboarding.platform Onboarding.env "\"\""
      "a\"; DROP TABLE users; --" ⟨"it's", ""⟩ :=
  names_read_back Onboarding.platform Onboarding.env
    (by decide) (by decide) (by decide)

end OrderApi
