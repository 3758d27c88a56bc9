import OrderApi.Model.Store
import OrderApi.Rabbitmq.MigrationSql

/-
  The store that tenants are registered and provisioned in:
  the users of the default database, the databases of the
  server, and the database-creation queue.

  A tenant database is seen here through the statements that
  were executed in it and its `_prisma_migrations` rows.

  Key definitions include:
    * `TenantSchema`
    * `SchemaOp`, `SchemaOp.exec`
    * `Registry`
    * `TenancyOp`, `TenancyOp.exec`

  Key theorems include:
    * `TenancyOp.exec_error`
    * `TenancyOp.exec_userCreate`
    * `TenancyOp.exec_createDatabase`
    * `TenancyOp.exec_tenantClient`
    * `TenancyOp.ensures_tenantClient`
-/

------------------------------------------------------------
-- Schemas of Tenant Databases
------------------------------------------------------------

namespace OrderApi

/- A row of `_prisma_migrations`. -/
structure MigrationRow where
  id : String
  checksum : String
  migration_name : String
  started_at : Nat
  finished_at : Option Nat
  rolled_back_at : Option Nat
  applied_steps_count : Nat
deriving DecidableEq, Repr

instance : Keyed MigrationRow String := ⟨MigrationRow.id⟩

/-
  The statements executed in a database, oldest first, and
  its log of migrations once the table is created.
-/
structure TenantSchema where
  executed : List String
  migrations : Option (Table MigrationRow)

namespace TenantSchema

/- A database that was just created. -/
def empty : TenantSchema := ⟨[], none⟩

/- The names in the log of migrations. -/
def logged (schema : TenantSchema) : List String :=
  match schema.migrations with
  | none => []
  | some rows => rows.rows.map MigrationRow.migration_name

end TenantSchema

/- The calls on the client of a tenant database. -/
inductive SchemaOp where
  | connect
  | createMigrationsTable
  | findMigrations (name : String)
  | insertMigration (name checksum : String)
  | executeStatement (statement : String)
  | finishMigration (id : String) (appliedStepsCount : Nat)
  | rollBackMigration (id : String)
  | insertApplied (name : String) (appliedStepsCount : Nat)
deriving DecidableEq, Repr

/- An insertion answers the id that was drawn for it. -/
abbrev SchemaOp.Res : SchemaOp → Type
  | .findMigrations _ => List String
  | .insertMigration _ _ => String
  | .insertApplied _ _ => String
  | _ => Unit

/- The message for a statement that meets its object. -/
def objectExists : String :=
  "ERROR: relation already exists"

/- The message for a query on a log that is not there. -/
def logMissing : String :=
  "ERROR: relation \"_prisma_migrations\" does not exist"

/- Add a row to the log of migrations, which must exist. -/
def TenantSchema.log?
    (schema : TenantSchema)
    (row : MigrationRow) :
    Except String (String × TenantSchema) :=
  match schema.migrations with
  | none => .error logMissing
  | some rows =>
      match rows.insert? row with
      | none => .error uniqueViolated
      | some rows =>
          .ok (row.id, { schema with migrations := some rows })

/- Change a row of the log of migrations. -/
def TenantSchema.relog
    (schema : TenantSchema)
    (id : String)
    (change : MigrationRow → MigrationRow)
    (hKey :
      ∀ row, Keyed.key (change row) = Keyed.key row) :
    Except String (Unit × TenantSchema) :=
  match schema.migrations with
  | none => .error logMissing
  | some rows =>
      .ok ((),
        { schema with
          migrations := some (rows.update id change hKey) })

/- Execute a call on a tenant database. -/
def SchemaOp.exec
    (platform : Platform)
    (tick : Tick)
    (schema : TenantSchema) :
    (op : SchemaOp) → Except String (op.Res × TenantSchema)
  | .connect => .ok ((), schema)
  | .createMigrationsTable =>
      -- IF NOT EXISTS
      .ok ((),
        { schema with
          migrations :=
            some (schema.migrations.getD Table.empty) })
  | .findMigrations name =>
      match schema.migrations with
      | none => .error logMissing
      | some rows =>
          .ok
            ((rows.rows.filter fun row =>
              row.migration_name = name).map
              MigrationRow.id, schema)
  | .insertMigration name checksum =>
      schema.log?
        { id := tick.freshId
          checksum := checksum
          migration_name := name
          started_at := tick.now
          finished_at := none
          rolled_back_at := none
          applied_steps_count := 0 }
  | .executeStatement statement =>
      if platform.meetsExisting schema.executed statement then
        .error objectExists
      else
        .ok ((),
          { schema with
            executed := schema.executed ++ [statement] })
  | .finishMigration id appliedStepsCount =>
      schema.relog id
        (fun row =>
          { row with
            finished_at := some tick.now
            applied_steps_count := appliedStepsCount })
        (fun _ => rfl)
  | .rollBackMigration id =>
      schema.relog id
        (fun row => { row with rolled_back_at := some tick.now })
        (fun _ => rfl)
  | .insertApplied name appliedStepsCount =>
      schema.log?
        { id := tick.freshId
          checksum := "-"
          migration_name := name
          started_at := tick.now
          finished_at := some tick.now
          rolled_back_at := none
          applied_steps_count := appliedStepsCount }

end OrderApi

------------------------------------------------------------
-- The Registry
------------------------------------------------------------

namespace OrderApi

/- A message of the database-creation queue. -/
structure DatabaseCreationMessage where
  userId : String
  tenantCode : String
deriving DecidableEq, Repr

/- The `data` of a user that is created. -/
structure UserData where
  email : String
  username : String
  password : String
  role : Role
  tenantCode : Option String
  isDatabaseCreated : Bool
deriving DecidableEq, Repr

/- The `data` of a user update; `none` leaves a column. -/
structure UserUpdate where
  email : Option String
  username : Option String
  password : Option String
  role : Option Role
deriving DecidableEq, Repr

/-
  The users, the databases of the server by name, and every
  message published so far.  Delivery is at least once, as
  in `Backend`.
-/
structure Registry where
  users : Table User
  databases : String → Option TenantSchema
  databaseCreation : List DatabaseCreationMessage

/- Everything that enrolling and provisioning may call. -/
inductive TenancyOp where
  | userFindByEmailOrUsername (email username : String)
  | userFindByTenantCode (tenantCode : String)
  | userFindUnique (id : String)
  | userFindByEmail (email : String)
  | userFindMany
  | findProvisioned
  | userCreate (data : UserData)
  | userUpdate (id : String) (data : UserUpdate)
  | userDelete (id : String)
  | userSetDatabaseCreated (id : String)
  | publishDatabaseCreation
      (message : DatabaseCreationMessage)
  | connectPostgres (url : String)
  | createDatabase (name : String)
  | disconnectPostgres
  | tenantClient (url : String) (op : SchemaOp)
  | disconnectTenant
  | dropDatabase (name : String)
deriving DecidableEq, Repr

abbrev TenancyOp.Res : TenancyOp → Type
  | .userFindByEmailOrUsername _ _ => Option User
  | .userFindByTenantCode _ => Option User
  | .userFindUnique _ => Option User
  | .userFindByEmail _ => Option User
  | .userFindMany => List User
  | .findProvisioned => List String
  | .userCreate _ => User
  | .userUpdate _ _ => User
  | .userDelete _ => User
  | .tenantClient _ op => op.Res
  | _ => Unit

/- The first unique column whose value is taken. -/
def takenColumn? (users : List User) (data : UserData) :
    Option String :=
  if users.any fun user => user.email = data.email then
    some "email"
  else if users.any fun user =>
      user.username = data.username then
    some "username"
  else if data.tenantCode ≠ none ∧
      users.any (fun user =>
        user.tenantCode = data.tenantCode) then
    some "tenantCode"
  else
    none

/- The row for a user that is created. -/
def UserData.toUser (data : UserData) (id : String) : User :=
  { id := id
    email := data.email
    username := data.username
    password := data.password
    role := data.role
    tenantCode := data.tenantCode
    isDatabaseCreated := data.isDatabaseCreated }

/- Insert a user, subject to the unique columns. -/
def insertUser
    (tick : Tick)
    (data : UserData)
    (users : Table User) :
    Except String (User × Table User) :=
  match takenColumn? users.rows data with
  | some column =>
      .error
        ("Unique constraint failed on the fields: (" ++
          column ++ ")")
  | none =>
      match users.insert? (data.toUser tick.freshId) with
      | none => .error uniqueViolated
      | some users => .ok (data.toUser tick.freshId, users)

/- A user after the columns in `data` are written. -/
def User.apply (user : User) (data : UserUpdate) : User :=
  { user with
    email := data.email.getD user.email
    username := data.username.getD user.username
    password := data.password.getD user.password
    role := data.role.getD user.role }

theorem User.key_apply (user : User) (data : UserUpdate) :
    Keyed.key (user.apply data) = Keyed.key user :=
  rfl

/- Update a user, subject to the unique columns. -/
def updateUser
    (id : String)
    (data : UserUpdate)
    (users : Table User) :
    Except String (User × Table User) :=
  match users.find? id with
  | none => .error recordNotFound
  | some user =>
      let others :=
        users.rows.filter fun other => other.id ≠ id
      if others.any fun other =>
          some other.email = data.email ∨
            some other.username = data.username then
        .error uniqueViolated
      else
        .ok
          (user.apply data,
            users.update id (fun row => row.apply data)
              (fun row => row.key_apply data))

/- PostgreSQL's message for a `CREATE DATABASE`. -/
def databaseExists (name : String) : String :=
  "ERROR: database \"" ++ name ++ "\" already exists"

/- The registry with a database replaced or removed. -/
def Registry.put
    (store : Registry)
    (name : String)
    (schema : Option TenantSchema) : Registry :=
  { store with
    databases :=
      Function.update store.databases name schema }

/- Mark a user's database as created. -/
def Registry.setDatabaseCreated
    (store : Registry)
    (id : String) : Registry :=
  { store with
    users :=
      store.users.update id
        (fun user => { user with isDatabaseCreated := true })
        (fun _ => rfl) }

/- Tenant codes of users whose database is created. -/
def Registry.provisioned (store : Registry) : List String :=
  store.users.rows.filterMap fun user =>
    if user.isDatabaseCreated then user.tenantCode else none

/- Execute a call on a tenant client. -/
def Registry.onTenant
    (platform : Platform)
    (tick : Tick)
    (url : String)
    (op : SchemaOp)
    (store : Registry) :
    Except String (op.Res × Registry) :=
  match platform.databaseOf url with
  | none => .error "Error parsing connection string"
  | some name =>
      match store.databases name with
      | none => .error (databaseMissing name)
      | some schema =>
          match op.exec platform tick schema with
          | .error message => .error message
          | .ok (result, schema') =>
              .ok (result, store.put name (some schema'))

/- What a call answers that the environment lets through. -/
def TenancyOp.answer
    (platform : Platform)
    (tick : Tick)
    (store : Registry) :
    (op : TenancyOp) → Except String (op.Res × Registry)
  | .userFindByEmailOrUsername email username =>
      .ok
        (store.users.rows.find? fun user =>
          user.email = email ∨ user.username = username,
          store)
  | .userFindByTenantCode tenantCode =>
      .ok
        (store.users.rows.find? fun user =>
          user.tenantCode = some tenantCode, store)
  | .userFindUnique id => .ok (store.users.find? id, store)
  | .userFindByEmail email =>
      .ok
        (store.users.rows.find? fun user =>
          user.email = email, store)
  | .userFindMany => .ok (store.users.rows, store)
  | .findProvisioned => .ok (store.provisioned, store)
  | .userCreate data =>
      match insertUser tick data store.users with
      | .error message => .error message
      | .ok (user, users) =>
          .ok (user, { store with users := users })
  | .userUpdate id data =>
      match updateUser id data store.users with
      | .error message => .error message
      | .ok (user, users) =>
          .ok (user, { store with users := users })
  | .userDelete id =>
      match store.users.find? id with
      | none => .error recordNotFound
      | some user =>
          .ok
            (user,
              { store with users := store.users.delete id })
  | .userSetDatabaseCreated id =>
      match store.users.find? id with
      | none => .error recordNotFound
      | some _ => .ok ((), store.setDatabaseCreated id)
  | .publishDatabaseCreation message =>
      .ok ((),
        { store with
          databaseCreation :=
            store.databaseCreation ++ [message] })
  | .connectPostgres _ => .ok ((), store)
  | .createDatabase name =>
      match store.databases name with
      | some _ => .error (databaseExists name)
      | none =>
          .ok ((), store.put name (some TenantSchema.empty))
  | .disconnectPostgres => .ok ((), store)
  | .tenantClient url op =>
      store.onTenant platform tick url op
  | .disconnectTenant => .ok ((), store)
  | .dropDatabase name => .ok ((), store.put name none)

/- Execute a call; one that fails changes nothing. -/
def TenancyOp.exec
    (platform : Platform)
    (choice : Choice)
    (op : TenancyOp)
    (store : Registry) :
    Except ApiError op.Res × Registry :=
  match choice with
  | .failure message => (.error (storeError message), store)
  | .answer tick =>
      match op.answer platform tick store with
      | .error message => (.error (storeError message), store)
      | .ok (result, store') => (.ok result, store')

/- The programs of the tenancy handlers. -/
abbrev TenancyHandler (α : Type) :=
  Program TenancyOp TenancyOp.Res ApiError α

end OrderApi

------------------------------------------------------------
-- What a Call on a Tenant Client Does
------------------------------------------------------------

namespace OrderApi

namespace SchemaOp

variable {platform : Platform} {tick : Tick}
variable {schema schema' : TenantSchema}

/- An answered query finds the ids under a name. -/
theorem exec_findMigrations
    {name : String}
    {ids : List String}
    (hExec :
      (findMigrations name).exec platform tick schema =
        .ok (ids, schema')) :
    schema' = schema ∧
      (name ∉ schema.logged → ids = []) := by
  cases hLog : schema.migrations with
  | none => simp [exec, hLog] at hExec
  | some rows =>
      simp only [exec, hLog, Except.ok.injEq,
        Prod.mk.injEq] at hExec
      rcases hExec with ⟨rfl, rfl⟩
      refine ⟨rfl, ?_⟩
      intro hFresh
      rw [List.map_eq_nil_iff, List.filter_eq_nil_iff]
      intro row hRow
      simp only [TenantSchema.logged, hLog,
        List.mem_map, not_exists, not_and] at hFresh
      simpa using hFresh row hRow

/- A row that is logged adds its name to the log. -/
theorem logged_of_log?
    {row : MigrationRow}
    {id : String}
    (hLog : schema.log? row = .ok (id, schema')) :
    schema'.executed = schema.executed ∧
      schema'.logged =
        schema.logged ++ [row.migration_name] := by
  cases hRows : schema.migrations with
  | none => simp [TenantSchema.log?, hRows] at hLog
  | some rows =>
      simp only [TenantSchema.log?, hRows] at hLog
      split at hLog
      · cases hLog
      · rename_i rows' hInsert
        simp only [Except.ok.injEq, Prod.mk.injEq] at hLog
        rcases hLog with ⟨_, rfl⟩
        have hAdded :=
          (rows.insert?_eq_some_iff.mp hInsert).2
        simp [TenantSchema.logged, hRows, hAdded]

/- A change that keeps the names keeps the log's names. -/
theorem logged_of_relog
    {id : String}
    {change : MigrationRow → MigrationRow}
    {hKey : ∀ row, Keyed.key (change row) = Keyed.key row}
    {answer : Unit}
    (hRelog :
      schema.relog id change hKey = .ok (answer, schema'))
    (hName :
      ∀ row,
        (change row).migration_name = row.migration_name) :
    schema'.executed = schema.executed ∧
      schema'.logged = schema.logged := by
  cases hRows : schema.migrations with
  | none => simp [TenantSchema.relog, hRows] at hRelog
  | some rows =>
      simp only [TenantSchema.relog, hRows, Except.ok.injEq,
        Prod.mk.injEq] at hRelog
      rcases hRelog with ⟨_, rfl⟩
      refine ⟨rfl, ?_⟩
      simp only [TenantSchema.logged, hRows, Table.update,
        List.map_map]
      apply List.map_congr_left
      intro row _
      by_cases hRow : Keyed.key row = id
      · simp [hRow, hName]
      · simp [hRow]

/- An answered insertion adds a name to the log. -/
theorem exec_insertMigration
    {name checksum id : String}
    (hExec :
      (insertMigration name checksum).exec platform tick
        schema = .ok (id, schema')) :
    schema'.executed = schema.executed ∧
      schema'.logged = schema.logged ++ [name] :=
  logged_of_log? hExec

theorem exec_insertApplied
    {name id : String}
    {count : Nat}
    (hExec :
      (insertApplied name count).exec platform tick
        schema = .ok (id, schema')) :
    schema'.executed = schema.executed ∧
      schema'.logged = schema.logged ++ [name] :=
  logged_of_log? hExec

/- An answered statement is executed last. -/
theorem exec_executeStatement
    {statement : String}
    {answer : Unit}
    (hExec :
      (executeStatement statement).exec platform tick
        schema = .ok (answer, schema')) :
    schema'.executed = schema.executed ++ [statement] ∧
      schema'.logged = schema.logged := by
  simp only [exec] at hExec
  split at hExec
  · cases hExec
  · simp only [Except.ok.injEq, Prod.mk.injEq] at hExec
    rcases hExec with ⟨_, rfl⟩
    exact ⟨rfl, rfl⟩

/-
  The calls that neither execute a statement nor add a name
  to the log of migrations.
-/
def keepsProgress : SchemaOp → Bool
  | .connect => true
  | .createMigrationsTable => true
  | .finishMigration _ _ => true
  | .rollBackMigration _ => true
  | _ => false

theorem exec_keepsProgress
    {op : SchemaOp}
    {answer : op.Res}
    (hKeeps : op.keepsProgress)
    (hExec :
      op.exec platform tick schema =
        .ok (answer, schema')) :
    schema'.executed = schema.executed ∧
      schema'.logged = schema.logged := by
  cases op with
  | connect =>
      cases hExec
      exact ⟨rfl, rfl⟩
  | createMigrationsTable =>
      simp only [exec, Except.ok.injEq,
        Prod.mk.injEq] at hExec
      rcases hExec with ⟨_, rfl⟩
      refine ⟨rfl, ?_⟩
      cases hLog : schema.migrations with
      | none => simp [TenantSchema.logged, hLog, Table.empty]
      | some rows => simp [TenantSchema.logged, hLog]
  | finishMigration id count =>
      exact logged_of_relog hExec fun _ => rfl
  | rollBackMigration id =>
      exact logged_of_relog hExec fun _ => rfl
  | _ => cases hKeeps

/- No call undoes a statement. -/
theorem exec_executed
    {op : SchemaOp}
    {answer : op.Res}
    (hExec :
      op.exec platform tick schema =
        .ok (answer, schema')) :
    schema.executed.Sublist schema'.executed := by
  by_cases hKeeps : op.keepsProgress
  · rw [(exec_keepsProgress hKeeps hExec).1]
  · cases op with
    | findMigrations name =>
        rw [(exec_findMigrations hExec).1]
    | insertMigration name checksum =>
        rw [(exec_insertMigration hExec).1]
    | executeStatement statement =>
        rw [(exec_executeStatement hExec).1]
        exact List.sublist_append_left _ _
    | insertApplied name count =>
        rw [(exec_insertApplied hExec).1]
    | _ => exact (hKeeps rfl).elim

end SchemaOp

end OrderApi

------------------------------------------------------------
-- What a Call on the Registry Does
------------------------------------------------------------

namespace OrderApi

namespace Registry

variable {store : Registry} {name name' : String}
variable {schema : Option TenantSchema}

theorem put_databases_same :
    (store.put name schema).databases name = schema :=
  Function.update_self _ _ _

theorem put_databases_other (hName : name' ≠ name) :
    (store.put name schema).databases name' =
      store.databases name' :=
  Function.update_of_ne hName _ _

/- A database that is put back as it is. -/
theorem put_self (hSchema : store.databases name = schema) :
    store.put name schema = store := by
  unfold put
  rw [← hSchema, Function.update_eq_self]

theorem put_put (schema' : Option TenantSchema) :
    (store.put name schema).put name schema' =
      store.put name schema' := by
  simp only [put, Function.update_idem]

end Registry

/- An insertion that succeeds adds the row at the end. -/
theorem insertUser_eq_ok
    {tick : Tick}
    {data : UserData}
    {users users' : Table User}
    {user : User}
    (hInsert :
      insertUser tick data users = .ok (user, users')) :
    user = data.toUser tick.freshId ∧
      users'.rows = users.rows ++ [user] := by
  unfold insertUser at hInsert
  split at hInsert
  · cases hInsert
  · split at hInsert
    · cases hInsert
    · rename_i rows hRows
      simp only [Except.ok.injEq, Prod.mk.injEq] at hInsert
      rcases hInsert with ⟨rfl, rfl⟩
      exact ⟨rfl, (users.insert?_eq_some_iff.mp hRows).2⟩

/- What an update of a user that succeeds does. -/
theorem updateUser_eq_ok
    {id : String}
    {data : UserUpdate}
    {users users' : Table User}
    {user : User}
    (hUpdate :
      updateUser id data users = .ok (user, users')) :
    ∃ old,
      users.find? id = some old ∧ user = old.apply data ∧
        users' =
          users.update id (fun row => row.apply data)
            (fun row => row.key_apply data) := by
  unfold updateUser at hUpdate
  split at hUpdate
  · cases hUpdate
  · rename_i old hOld
    dsimp only at hUpdate
    split at hUpdate
    · cases hUpdate
    · simp only [Except.ok.injEq, Prod.mk.injEq] at hUpdate
      rcases hUpdate with ⟨rfl, rfl⟩
      exact ⟨old, hOld, rfl, rfl⟩

/- Updates leave the tenant codes of users. -/
theorem mem_of_updateUser
    {id : String}
    {data : UserUpdate}
    {users users' : Table User}
    {user row : User}
    (hUpdate :
      updateUser id data users = .ok (user, users'))
    (hRow : row ∈ users'.rows) :
    ∃ old ∈ users.rows, row.tenantCode = old.tenantCode := by
  rcases updateUser_eq_ok hUpdate with ⟨_, _, _, rfl⟩
  rcases List.mem_map.mp hRow with ⟨old, hOld, rfl⟩
  refine ⟨old, hOld, ?_⟩
  by_cases hKey : Keyed.key old = id
  · simp [hKey, User.apply]
  · simp [hKey]

namespace TenancyOp

variable {platform : Platform} {choice : Choice}
variable {store store' : Registry}

/- A call that fails changes nothing. -/
theorem exec_error
    {op : TenancyOp}
    {error : ApiError}
    (hExec :
      op.exec platform choice store =
        (.error error, store')) :
    store' = store := by
  cases choice with
  | failure message =>
      exact (congrArg Prod.snd hExec).symm
  | answer tick =>
      simp only [exec] at hExec
      split at hExec
      · exact (congrArg Prod.snd hExec).symm
      · simp at hExec

/- A call that succeeds is answered by the store. -/
theorem exec_ok
    {op : TenancyOp}
    {result : op.Res}
    (hExec :
      op.exec platform choice store = (.ok result, store')) :
    ∃ tick,
      choice = .answer tick ∧
        op.answer platform tick store =
          .ok (result, store') := by
  cases choice with
  | failure message => simp [exec] at hExec
  | answer tick =>
      refine ⟨tick, rfl, ?_⟩
      simp only [exec] at hExec
      split at hExec
      · simp at hExec
      · rename_i result' after hAnswer
        simp only [Prod.mk.injEq, Except.ok.injEq] at hExec
        rw [hAnswer, hExec.1, hExec.2]

theorem exec_userCreate
    {data : UserData}
    {user : User}
    (hExec :
      (userCreate data).exec platform choice store =
        (.ok user, store')) :
    ∃ tick users,
      choice = .answer tick ∧
        insertUser tick data store.users =
          .ok (user, users) ∧
        store' = { store with users := users } := by
  rcases exec_ok hExec with ⟨tick, hChoice, hAnswer⟩
  simp only [answer] at hAnswer
  split at hAnswer
  · cases hAnswer
  · rename_i user' users hInsert
    simp only [Except.ok.injEq, Prod.mk.injEq] at hAnswer
    rcases hAnswer with ⟨rfl, rfl⟩
    exact ⟨tick, users, hChoice, hInsert, rfl⟩

theorem exec_userSetDatabaseCreated
    {id : String}
    {result : Unit}
    (hExec :
      (userSetDatabaseCreated id).exec platform choice
        store = (.ok result, store')) :
    store' = store.setDatabaseCreated id := by
  rcases exec_ok hExec with ⟨tick, _, hAnswer⟩
  simp only [answer] at hAnswer
  split at hAnswer
  · cases hAnswer
  · simp only [Except.ok.injEq, Prod.mk.injEq,
      true_and] at hAnswer
    exact hAnswer.symm

theorem exec_createDatabase
    {name : String}
    {result : Unit}
    (hExec :
      (createDatabase name).exec platform choice store =
        (.ok result, store')) :
    store.databases name = none ∧
      store' = store.put name (some TenantSchema.empty) := by
  rcases exec_ok hExec with ⟨tick, _, hAnswer⟩
  simp only [answer] at hAnswer
  split at hAnswer
  · cases hAnswer
  · rename_i hNone
    simp only [Except.ok.injEq, Prod.mk.injEq,
      true_and] at hAnswer
    exact ⟨hNone, hAnswer.symm⟩

theorem exec_tenantClient
    {url : String}
    {op : SchemaOp}
    {result : op.Res}
    (hExec :
      (tenantClient url op).exec platform choice store =
        (.ok result, store')) :
    ∃ tick name schema schema',
      platform.databaseOf url = some name ∧
        store.databases name = some schema ∧
        op.exec platform tick schema =
          .ok (result, schema') ∧
        store' = store.put name (some schema') := by
  rcases exec_ok hExec with ⟨tick, _, hAnswer⟩
  simp only [answer, Registry.onTenant] at hAnswer
  split at hAnswer
  · cases hAnswer
  · rename_i name hName
    split at hAnswer
    · cases hAnswer
    · rename_i schema hSchema
      split at hAnswer
      · cases hAnswer
      · rename_i result' schema' hOp
        simp only [Except.ok.injEq, Prod.mk.injEq] at hAnswer
        rcases hAnswer with ⟨rfl, rfl⟩
        exact
          ⟨tick, name, schema, schema', hName, hSchema, hOp,
            rfl⟩

/-
  A call on the client of a tenant is answered from its
  database, or it fails and changes nothing.
-/
theorem ensures_tenantClient
    {url name : String}
    {schema : TenantSchema}
    (hUrl : platform.databaseOf url = some name)
    (hSchema : store.databases name = some schema)
    (op : SchemaOp)
    {Post : Except ApiError op.Res → Registry → Prop}
    (hAnswer :
      ∀ tick result schema',
        op.exec platform tick schema =
            .ok (result, schema') →
          Post (.ok result) (store.put name (some schema')))
    (hError : ∀ error, Post (.error error) store) :
    Program.Ensures (exec platform) Post
      (Program.perform (tenantClient url op)) store := by
  refine Program.ensures_perform (tenantClient url op) ?_
  intro choice
  cases hExec : (tenantClient url op).exec platform choice store
    with
  | mk answer store' =>
      cases answer with
      | error error =>
          rw [exec_error hExec]
          exact hError error
      | ok result =>
          rcases exec_tenantClient hExec with
            ⟨tick, name', schema₁, schema', hName, hFound,
              hOp, rfl⟩
          rw [hUrl] at hName
          cases hName
          rw [hSchema] at hFound
          cases hFound
          exact hAnswer tick result schema' hOp

/- All that a call can do to the users. -/
theorem exec_users_cases
    {op : TenancyOp}
    {answer : Except ApiError op.Res}
    (hExec :
      op.exec platform choice store = (answer, store')) :
    store'.users = store.users ∨
    (∃ data tick user,
      op = userCreate data ∧ choice = .answer tick ∧
        insertUser tick data store.users =
          .ok (user, store'.users)) ∨
    (∃ id data user,
      op = userUpdate id data ∧
        updateUser id data store.users =
          .ok (user, store'.users)) ∨
    (∃ id,
      op = userDelete id ∧
        store'.users = store.users.delete id) ∨
    (∃ id,
      op = userSetDatabaseCreated id ∧
        store'.users =
          (store.setDatabaseCreated id).users) := by
  cases answer with
  | error error =>
      apply Or.inl
      rw [exec_error hExec]
  | ok result =>
      rcases exec_ok hExec with ⟨tick, hChoice, hAnswer⟩
      cases op with
      | userCreate data =>
          rcases exec_userCreate hExec with
            ⟨tick, users, hTick, hInsert, rfl⟩
          exact
            Or.inr (Or.inl
              ⟨data, tick, result, rfl, hTick, hInsert⟩)
      | userUpdate id data =>
          simp only [TenancyOp.answer] at hAnswer
          split at hAnswer
          · cases hAnswer
          · rename_i user users hUpdate
            simp only [Except.ok.injEq,
              Prod.mk.injEq] at hAnswer
            rcases hAnswer with ⟨rfl, rfl⟩
            exact
              Or.inr (Or.inr (Or.inl
                ⟨id, data, user, rfl, hUpdate⟩))
      | userDelete id =>
          simp only [TenancyOp.answer] at hAnswer
          split at hAnswer
          · cases hAnswer
          · simp only [Except.ok.injEq,
              Prod.mk.injEq] at hAnswer
            rcases hAnswer with ⟨_, rfl⟩
            exact
              Or.inr (Or.inr (Or.inr (Or.inl ⟨id, rfl, rfl⟩)))
      | userSetDatabaseCreated id =>
          rw [exec_userSetDatabaseCreated hExec]
          exact
            Or.inr (Or.inr (Or.inr (Or.inr ⟨id, rfl, rfl⟩)))
      | createDatabase name =>
          rw [(exec_createDatabase hExec).2]
          exact Or.inl rfl
      | tenantClient url op =>
          rcases exec_tenantClient hExec with
            ⟨_, _, _, _, _, _, _, rfl⟩
          exact Or.inl rfl
      | _ =>
          cases hAnswer
          exact Or.inl rfl

end TenancyOp

end OrderApi
