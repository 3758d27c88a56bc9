import OrderApi.Model.Registry

/-
  `src/prisma/tenant-migration.service.ts`.

  The directory of migrations is read from the deployed
  program, so reading it does not fail.

  Key definitions include:
    * `stripComment`
    * `TenantMigrationService.statements`
    * `TenantMigrationService.migrateTenant`
    * `TenantMigrationService.migrateAllTenants`
-/

------------------------------------------------------------
-- Splitting into Statements
------------------------------------------------------------

namespace OrderApi

/- The characters that `.` does not match. -/
def isLineEnd (c : Char) : Bool :=
  c ∈ ['\n', '\r', '\u2028', '\u2029']

/-
  The line without its first match of `--.*$`, which has to
  reach the end of the line and does not match a line end.
-/
def stripComment : List Char → List Char
| [] => []
| c :: rest =>
    if c = '-' ∧ rest.head? = some '-' ∧
        ¬ rest.any isLineEnd then
      []
    else
      c :: stripComment rest

example :
    stripComment "a - b -- c -- d".toList =
      "a - b ".toList := by
  decide +kernel

namespace TenantMigrationService

/- The text with the comments of its lines stripped. -/
def stripped (migrationSQL : String) : List Char :=
  (['\n'] : List Char).intercalate
    ((migrationSQL.toList.splitOn '\n').map stripComment)

/- `statements`. -/
def statements (migrationSQL : String) : List String :=
  ((((stripped migrationSQL).splitOn ';').map trim).filter
    fun stmt => decide (stmt ≠ [])).map String.ofList

/-
  The statements as they are executed.  Checking a program
  that runs through them should not evaluate them.
-/
@[irreducible] def issued (migrationSQL : String) : List String :=
  (statements migrationSQL).map fun stmt => stmt ++ ";"

example :
    issued "-- T\nCREATE TABLE t (\n  a TEXT -- b\n);\nX" =
      ["CREATE TABLE t (\n  a TEXT \n);", "X;"] := by
  decide +kernel

end TenantMigrationService

end OrderApi

------------------------------------------------------------
-- Tenant Migration Service
------------------------------------------------------------

namespace OrderApi

namespace TenantMigrationService

/- An element of `results`. -/
structure MigrationResult where
  tenantCode : String
  migration : String
  status : String
  error : Option String
deriving DecidableEq, Repr

/- A call on the client of a tenant. -/
def tenantPrisma (url : String) (op : SchemaOp) :
    TenancyHandler op.Res :=
  Program.perform (TenancyOp.tenantClient url op)

/- The statements of a migration, and then its log entry. -/
def applyMigration
    (url : String)
    (migration : Migration) : TenancyHandler Unit := do
  Program.forEach (issued migration.sql) fun stmt =>
    tenantPrisma url (.executeStatement stmt)
  let _ : String ←
    tenantPrisma url
      (.insertApplied migration.name
        (statements migration.sql).length)
  pure ()

/-
  One migration, unless the log has its name.  An error of
  applying it is put into the result.
-/
def runMigration
    (tenantCode url : String)
    (migration : Migration) :
    TenancyHandler MigrationResult := do
  let existingMigration : List String ←
    tenantPrisma url (.findMigrations migration.name)
  if existingMigration.length = 0 then
    Program.attempt
      (do
        applyMigration url migration
        pure ⟨tenantCode, migration.name, "applied", none⟩)
      fun error =>
        pure
          ⟨tenantCode, migration.name, "failed",
            some error.message⟩
  else
    pure
      ⟨tenantCode, migration.name, "already_applied", none⟩

/- All migrations of a tenant, whether one fails or not. -/
def runMigrations
    (tenantCode url : String) :
    List Migration → TenancyHandler (List MigrationResult)
| [] => pure []
| migration :: migrations => do
    let result ← runMigration tenantCode url migration
    let results ← runMigrations tenantCode url migrations
    pure (result :: results)

/- One tenant, from the connection of its client on. -/
def migrateTenant
    (files : MigrationFiles)
    (tenantCode url : String) :
    TenancyHandler (List MigrationResult) := do
  let _ : Unit ← tenantPrisma url .connect
  let _ : Unit ← tenantPrisma url .createMigrationsTable
  let results ← runMigrations tenantCode url files.inOrder
  let _ : Unit ← Program.perform TenancyOp.disconnectTenant
  pure results

/- The tenants, one after the other. -/
def migrateTenants
    (clientUrl : String → String)
    (files : MigrationFiles) :
    List String → TenancyHandler (List MigrationResult)
| [] => pure []
| tenantCode :: tenantCodes => do
    let results ←
      migrateTenant files tenantCode (clientUrl tenantCode)
    let others ← migrateTenants clientUrl files tenantCodes
    pure (results ++ others)

/-
  All tenants whose database is created.  `clientUrl` is the
  URL of the client that `getClient` returns for a code.
-/
def migrateAllTenants
    (clientUrl : String → String)
    (files : MigrationFiles) :
    TenancyHandler (List MigrationResult) := do
  let tenants : List String ←
    Program.perform TenancyOp.findProvisioned
  migrateTenants clientUrl files tenants

end TenantMigrationService

end OrderApi
