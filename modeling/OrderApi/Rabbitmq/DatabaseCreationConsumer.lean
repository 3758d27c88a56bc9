import OrderApi.Model.Registry

/-
  `src/rabbitmq/database-creation.consumer.ts`.

  The directory of migrations is read from the deployed
  program, so reading it does not fail.  What is only logged
  is left out.

  Key definitions include:
    * `DatabaseCreationConsumer.migrate`
    * `DatabaseCreationConsumer.createAndMigrate`
    * `DatabaseCreationConsumer.handleDatabaseCreation`
-/

------------------------------------------------------------
-- Database Creation
------------------------------------------------------------

namespace OrderApi

namespace DatabaseCreationConsumer

/- The text by which errors are taken as success. -/
def saysExists (error : ApiError) : Bool :=
  includes error.message "already exists"

/- A call on the client of the new database. -/
def onTenant (databaseUrl : String) (op : SchemaOp) :
    TenancyHandler op.Res :=
  Program.perform (TenancyOp.tenantClient databaseUrl op)

/- Skip or execute a statement. -/
def executeStatement
    (platform : Platform)
    (databaseUrl statement : String) : TenancyHandler Unit :=
  if shouldSkipStatement platform statement then
    pure ()
  else
    onTenant databaseUrl (.executeStatement statement)

/- The statements of a migration, and its log entry. -/
def applyMigration
    (platform : Platform)
    (databaseUrl migrationSQL migrationId : String) :
    TenancyHandler Unit :=
  Program.attempt
    (do
      Program.forEach (statements migrationSQL)
        (executeStatement platform databaseUrl)
      onTenant databaseUrl
        (.finishMigration migrationId
          (statementCount migrationSQL)))
    fun migrationError => do
      let _ : Unit ←
        onTenant databaseUrl (.rollBackMigration migrationId)
      .fail migrationError

/- One migration, unless the log has its name. -/
def runMigration
    (platform : Platform)
    (databaseUrl : String)
    (migration : Migration) : TenancyHandler Unit := do
  let existingMigration : List String ←
    onTenant databaseUrl (.findMigrations migration.name)
  if existingMigration.length = 0 then do
    let migrationId : String ←
      onTenant databaseUrl
        (.insertMigration migration.name
          (calculateChecksum migration.sql))
    applyMigration platform databaseUrl migration.sql
      migrationId
  else
    pure ()

/- The new database, from its first connection on. -/
def migrate
    (platform : Platform)
    (files : MigrationFiles)
    (databaseUrl : String) : TenancyHandler Unit := do
  let _ : Unit ← onTenant databaseUrl .connect
  let _ : Unit ← onTenant databaseUrl .createMigrationsTable
  Program.forEach files.inOrder
    (runMigration platform databaseUrl)
  Program.perform TenancyOp.disconnectTenant

/-
  The client that creates the database: one of its own, or
  the default client when it cannot connect.
-/
def connectOwnClient (postgresDatabaseUrl : String) :
    TenancyHandler Bool :=
  Program.attempt
    (do
      let _ : Unit ←
        Program.perform
          (TenancyOp.connectPostgres postgresDatabaseUrl)
      pure true)
    fun _ => pure false

/- `CREATE DATABASE`; an own client is disconnected. -/
def createDatabase (databaseName : String) (own : Bool) :
    TenancyHandler Unit :=
  Program.andFinally
    (Program.perform (TenancyOp.createDatabase databaseName))
    (if own then
      Program.perform TenancyOp.disconnectPostgres
    else
      pure ())

/- `DROP DATABASE IF EXISTS`; a failure is only logged. -/
def dropDatabase (databaseName : String) :
    TenancyHandler Unit :=
  Program.attempt
    (Program.perform (TenancyOp.dropDatabase databaseName))
    fun _ => pure ()

def migrationFailed (error : ApiError) : ApiError :=
  ⟨.internal,
    "Failed to create and migrate tenant database: " ++
      error.message⟩

/-
  An error of the migration drops the database and is thrown
  on; an error that mentions `already exists`, wherever it
  was thrown, counts as success.
-/
def createAndMigrateTenantDatabase
    (platform : Platform)
    (env : Environment)
    (files : MigrationFiles)
    (tenantCode : String) : TenancyHandler Unit :=
  Program.attempt
    (do
      let own ←
        connectOwnClient (postgresDatabaseUrl platform env)
      createDatabase (databaseName platform env tenantCode)
        own
      Program.attempt
        (migrate platform files
          (databaseUrl platform env tenantCode))
        fun error => do
          dropDatabase (databaseName platform env tenantCode)
          .fail error)
    fun error =>
      if saysExists error then
        pure ()
      else
        .fail (migrationFailed error)

/-
  An error is logged and thrown on, and the message is put
  back into the queue.
-/
def handleDatabaseCreation
    (platform : Platform)
    (env : Environment)
    (files : MigrationFiles)
    (data : DatabaseCreationMessage) :
    TenancyHandler Unit := do
  createAndMigrateTenantDatabase platform env files
    data.tenantCode
  Program.perform
    (TenancyOp.userSetDatabaseCreated data.userId)

end DatabaseCreationConsumer

end OrderApi
