import OrderApi.Prisma.DatabaseManagerService
import Mathlib.Algebra.Group.Nat.Defs
import Mathlib.Algebra.Ring.Int.Defs
import Mathlib.Data.List.Lex
import Mathlib.Data.List.Sort
import Mathlib.Data.List.Nodup

/-
  The migration files of `prisma/tenant_migrations`, and how
  `src/rabbitmq/database-creation.consumer.ts` reads them:
  the split into statements, the statements it skips, and
  the numbers it records.

  Key definitions include:
    * `MigrationFiles`
    * `statements`
    * `shouldSkipStatement`
    * `pendingStatements`
    * `Migrated`

  Key theorems include:
    * `MigrationFiles.nodup_inOrder`
    * `Migrated.mono`
-/

------------------------------------------------------------
-- Migration Files
------------------------------------------------------------

namespace OrderApi

/- A migration: a directory with its `migration.sql`. -/
structure Migration where
  name : String
  sql : String
deriving DecidableEq, Repr

/-
  The directories below `prisma/tenant_migrations`, with the
  text of `migration.sql` where that file exists.  The names
  of directories are unique.
-/
structure MigrationFiles where
  dirs : List (String × Option String)
  nodup : (dirs.map Prod.fst).Nodup

namespace MigrationFiles

/- `.sort()`: by code units. -/
def sorted (files : MigrationFiles) :
    List (String × Option String) :=
  files.dirs.insertionSort fun a b =>
    utf16Units a.1 ≤ utf16Units b.1

/- The migrations in the order they are executed in. -/
def inOrder (files : MigrationFiles) : List Migration :=
  files.sorted.filterMap fun dir =>
    dir.2.map fun sql => ⟨dir.1, sql⟩

/- No two migrations share their name. -/
theorem nodup_inOrder (files : MigrationFiles) :
    (files.inOrder.map Migration.name).Nodup := by
  have hSorted : (files.sorted.map Prod.fst).Nodup := by
    have hPerm :=
      (List.perm_insertionSort
        (fun a b : String × Option String =>
          utf16Units a.1 ≤ utf16Units b.1)
        files.dirs).map Prod.fst
    exact hPerm.nodup_iff.mpr files.nodup
  have hNames :
      (files.inOrder.map Migration.name).Sublist
        (files.sorted.map Prod.fst) := by
    rw [inOrder]
    induction files.sorted with
    | nil => exact List.Sublist.slnil
    | cons dir dirs ih =>
        rcases dir with ⟨name, sql⟩
        cases sql with
        | none => exact ih.cons name
        | some sql => exact ih.cons_cons name
  exact hNames.nodup hSorted

end MigrationFiles

end OrderApi

------------------------------------------------------------
-- Splitting into Statements
------------------------------------------------------------

namespace OrderApi

/- The variables `inString` and `stringChar`. -/
structure QuoteScan where
  inString : Bool
  stringChar : Option Char

namespace QuoteScan

/- One character, with the one before it on its line. -/
def next
    (scan : QuoteScan)
    (previous : Option Char)
    (char : Char) : QuoteScan :=
  if ¬ scan.inString ∧ char ∈ ['"', '\x27'] then
    ⟨true, some char⟩
  else if scan.inString ∧ scan.stringChar = some char ∧
      previous ≠ some '\\' then
    { scan with inString := false }
  else
    scan

/- The characters of a line, after `previous`. -/
def line
    (scan : QuoteScan)
    (previous : Option Char) :
    List Char → QuoteScan
  | [] => scan
  | char :: chars =>
      (scan.next previous char).line (some char) chars

end QuoteScan

/- The state of the statement loop between two lines. -/
structure Pending where
  currentStatement : List Char
  scan : QuoteScan

/- A text that is handed on, unless it is a comment. -/
def statement? (currentStatement : List Char) :
    Option String :=
  let statement := trim currentStatement
  if statement = [] ∨ "--".toList.isPrefixOf statement then
    none
  else
    some (String.ofList statement)

/- One line: the statement it ends, and what is pending. -/
def Pending.next (pending : Pending) (line : List Char) :
    Option String × Pending :=
  if "--".toList.isPrefixOf (trim line) ∧
      trim pending.currentStatement = [] then
    (none, pending)
  else
    let scan := pending.scan.line none line
    let currentStatement :=
      pending.currentStatement ++ line ++ ['\n']
    if ¬ scan.inString ∧
        (trim line).getLast? = some ';' then
      (statement? currentStatement, ⟨[], scan⟩)
    else
      (none, ⟨currentStatement, scan⟩)

/- All lines, and what is left behind the last one. -/
def Pending.statements (pending : Pending) :
    List (List Char) → List String
  | [] => (statement? pending.currentStatement).toList
  | line :: lines =>
      let (statement, pending') := pending.next line
      statement.toList ++ pending'.statements lines

/- The statements that are executed or skipped, in order. -/
def statements (migrationSQL : String) : List String :=
  Pending.statements ⟨[], ⟨false, none⟩⟩
    (migrationSQL.toList.splitOn '\n')

example :
    statements "-- T\nCREATE TABLE t (\n  a TEXT\n);\nX" =
      ["CREATE TABLE t (\n  a TEXT\n);", "X"] := by
  decide +kernel

end OrderApi

------------------------------------------------------------
-- Skipped Statements
------------------------------------------------------------

namespace OrderApi

/- The users table, in one of three kinds of quotes. -/
def namesUsers (upperStatement before : String) : Bool :=
  includes upperStatement (before ++ "\"USERS\"") ||
    includes upperStatement (before ++ "'USERS'") ||
    includes upperStatement (before ++ "USERS")

/- Statements related to the users table. -/
def shouldSkipStatement
    (platform : Platform)
    (statement : String) : Bool :=
  let upperStatement := platform.toUpperCase statement
  namesUsers upperStatement "CREATE TABLE " ||
    namesUsers upperStatement "ALTER TABLE " ||
    (includes upperStatement "CREATE UNIQUE INDEX" &&
      namesUsers upperStatement "") ||
    namesUsers upperStatement "REFERENCES " ||
    (includes upperStatement "ADD CONSTRAINT" &&
      namesUsers upperStatement "")

/- The statements of a migration that are executed. -/
def pendingStatements
    (platform : Platform)
    (migrationSQL : String) : List String :=
  (statements migrationSQL).filter fun statement =>
    !shouldSkipStatement platform statement

/- The pending statements of several migrations, in order. -/
def allPending
    (platform : Platform)
    (migrations : List Migration) : List String :=
  migrations.flatMap fun migration =>
    pendingStatements platform migration.sql

/-
  Every migration was executed to its last statement that is
  not skipped.
-/
def Migrated
    (platform : Platform)
    (files : MigrationFiles)
    (executed : List String) : Prop :=
  (allPending platform files.inOrder).Sublist executed

instance
    (platform : Platform)
    (files : MigrationFiles)
    (executed : List String) :
    Decidable (Migrated platform files executed) :=
  inferInstanceAs (Decidable (List.Sublist _ _))

/- Executing more statements undoes no migration. -/
theorem Migrated.mono
    {platform : Platform}
    {files : MigrationFiles}
    {executed executed' : List String}
    (hMigrated : Migrated platform files executed)
    (hMore : executed.Sublist executed') :
    Migrated platform files executed' :=
  hMigrated.trans hMore

end OrderApi

------------------------------------------------------------
-- Recorded Numbers
------------------------------------------------------------

namespace OrderApi

/- The count that is recorded for a finished migration. -/
def statementCount (migrationSQL : String) : Nat :=
  ((migrationSQL.toList.splitOn ';').filter fun s =>
    trim s ≠ [] ∧ ¬ "--".toList.isPrefixOf (trim s)).length

/- `hash & hash`: the 32 bits of a number, signed. -/
def toInt32 (n : Int) : Int :=
  Int.bmod n (2 ^ 32)

def calculateChecksum (content : String) : String :=
  let hash : Int :=
    (utf16Units content).foldl
      (fun hash char =>
        toInt32 (toInt32 (hash * 2 ^ 5) - hash + char))
      0
  String.ofList
    (List.leftpad 8 '0' (Nat.toDigits 16 hash.natAbs))

example : calculateChecksum "ab" = "00000c21" := by
  decide +kernel

end OrderApi
