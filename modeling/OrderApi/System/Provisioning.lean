import OrderApi.System.TenancyPhases

/-
  When a user whose database is marked as created has a
  database with all migrations executed.

  Provisioning takes an error for success when its text says
  that something `already exists`, and a handling that fails
  drops its database.  `ProvisionsSafely` says which steps
  do neither where it matters.

  Key definitions include:
    * `Registry.HasMigrated`
    * `Provisioned`
    * `ProvisionsSafely`
    * `ProvisionInv`

  Key theorems include:
    * `provisioned_of_safe`
-/

------------------------------------------------------------
-- Provisioned Registries
------------------------------------------------------------

namespace OrderApi

open DatabaseCreationConsumer (saysExists)

/- A database exists, with all migrations executed. -/
def Registry.HasMigrated
    (platform : Platform)
    (files : MigrationFiles)
    (store : Registry)
    (name : String) : Prop :=
  ∃ schema ∈ store.databases name,
    Migrated platform files schema.executed

instance
    (platform : Platform)
    (files : MigrationFiles)
    (store : Registry)
    (name : String) :
    Decidable (store.HasMigrated platform files name) :=
  inferInstanceAs (Decidable (∃ schema ∈ _, _))

/-
  The database of every tenant that is marked as created
  exists, with all migrations executed.
-/
def Provisioned
    (platform : Platform)
    (env : Environment)
    (files : MigrationFiles)
    (store : Registry) : Prop :=
  ∀ user ∈ store.users.rows,
    ∀ tenantCode ∈ user.tenantCode,
      user.isDatabaseCreated = true →
      store.HasMigrated platform files
        (DatabaseCreationConsumer.databaseName platform env
          tenantCode)

instance
    (platform : Platform)
    (env : Environment)
    (files : MigrationFiles)
    (store : Registry) :
    Decidable (Provisioned platform env files store) :=
  inferInstanceAs (Decidable (∀ user ∈ _, _))

/- No user of a database is marked. -/
def Unmarked
    (platform : Platform)
    (env : Environment)
    (store : Registry)
    (name : String) : Prop :=
  ∀ user ∈ store.users.rows,
    ∀ tenantCode ∈ user.tenantCode,
      DatabaseCreationConsumer.databaseName platform env
          tenantCode =
        name →
      user.isDatabaseCreated = false

instance
    (platform : Platform)
    (env : Environment)
    (store : Registry)
    (name : String) :
    Decidable (Unmarked platform env store name) :=
  inferInstanceAs (Decidable (∀ user ∈ _, _))

/-
  A handling for a database is about to disconnect from the
  server, or to mark its user.
-/
def aboutToFinish
    (platform : Platform)
    (env : Environment)
    (name : String)
    (thread :
      Thread TenancyJob TenancyOp TenancyOp.Res ApiError) :
    Bool :=
  match thread.job with
  | .createUser _ _ => false
  | .handleDatabaseCreation message =>
      decide (message.databaseName platform env = name) &&
        match thread.program.nextOp? with
        | some .disconnectPostgres => true
        | some (.userSetDatabaseCreated _) => true
        | _ => false

/- The error that a call of a step fails with. -/
def failure?
    (platform : Platform)
    (store : Registry)
    (call : TenancyOp × Choice) : Option ApiError :=
  match (call.1.exec platform call.2 store).1 with
  | .ok _ => none
  | .error error => some error

/- The database that a call creates. -/
def TenancyOp.creates? : TenancyOp → Option String
  | .createDatabase name => some name
  | _ => none

/- The database that a call drops. -/
def TenancyOp.drops? : TenancyOp → Option String
  | .dropDatabase name => some name
  | _ => none

/-
  A call says `already exists` only where all migrations of
  the database are executed, and drops a database only while
  it is not in use.
-/
def SafeCall
    (platform : Platform)
    (env : Environment)
    (files : MigrationFiles)
    (world : TenancyWorld)
    (call : TenancyOp × Choice) : Prop :=
  (∀ name ∈ call.1.creates?,
    ∀ error ∈ failure? platform world.store call,
      saysExists error = true →
        world.store.HasMigrated platform files name) ∧
  (TenancyPhase.isProvisioning call.1 = true →
    ∀ error ∈ failure? platform world.store call,
      saysExists error = false) ∧
  ∀ name ∈ call.1.drops?,
    failure? platform world.store call = none →
      Unmarked platform env world.store name ∧
        ∀ thread ∈ world.threads,
          aboutToFinish platform env name thread = false

instance
    (platform : Platform)
    (env : Environment)
    (files : MigrationFiles)
    (world : TenancyWorld)
    (call : TenancyOp × Choice) :
    Decidable (SafeCall platform env files world call) :=
  inferInstanceAs (Decidable (_ ∧ _ ∧ _))

/-
  The client that migrates the database of a message is one
  of the database that is created for it.
-/
def ReadsBack
    (platform : Platform)
    (env : Environment)
    (message : DatabaseCreationMessage) : Prop :=
  platform.databaseOf (message.databaseUrl platform env) =
    some (message.databaseName platform env)

/- The message whose handling a step starts. -/
def handles? (t : TenancyStep) :
    Option DatabaseCreationMessage :=
  match t.label with
  | .start (.handleDatabaseCreation message) => some message
  | _ => none

/- A step that leaves no marked user without migrations. -/
def ProvisionsSafely
    (platform : Platform)
    (env : Environment)
    (files : MigrationFiles)
    (t : TenancyStep) : Prop :=
  (∀ message ∈ handles? t, ReadsBack platform env message) ∧
    ∀ call ∈ t.call?,
      SafeCall platform env files t.before call

instance
    (platform : Platform)
    (env : Environment)
    (message : DatabaseCreationMessage) :
    Decidable (ReadsBack platform env message) :=
  inferInstanceAs (Decidable (_ = _))

instance
    (platform : Platform)
    (env : Environment)
    (files : MigrationFiles)
    (t : TenancyStep) :
    Decidable (ProvisionsSafely platform env files t) :=
  inferInstanceAs (Decidable (_ ∧ _))

end OrderApi

------------------------------------------------------------
-- The Invariant
------------------------------------------------------------

namespace OrderApi

/- The user of a message is stored, with its tenant code. -/
def Registry.Knows
    (store : Registry)
    (message : DatabaseCreationMessage) : Prop :=
  ∃ user ∈ store.users.rows,
    user.id = message.userId ∧
      user.tenantCode = some message.tenantCode

namespace TenancyPhase

variable (platform : Platform) (env : Environment)
variable (files : MigrationFiles)

/- The database that a job has created and not let go. -/
def holds? : TenancyPhase → Option String
  | owning message _ _ =>
      some (message.databaseName platform env)
  | failing message =>
      some (message.databaseName platform env)
  | _ => none

/- What a phase knows of the store. -/
def Holds (store : Registry) : TenancyPhase → Prop
  | enrolled message => store.Knows message
  | opening message =>
      store.Knows message ∧ ReadsBack platform env message
  | owning message executed logged =>
      store.Knows message ∧
        ReadsBack platform env message ∧
        ∃ schema,
          store.databases
              (message.databaseName platform env) =
            some schema ∧
          schema.executed = executed ∧
          schema.logged = logged
  | failing message =>
      ReadsBack platform env message ∧
        ∃ schema,
          store.databases
              (message.databaseName platform env) =
            some schema
  | finishing message =>
      store.Knows message ∧
        store.HasMigrated platform files
          (message.databaseName platform env)
  | excluded => False
  | _ => True

end TenancyPhase

/- What holds of every state of a safe run. -/
structure ProvisionInv
    (platform : Platform)
    (env : Environment)
    (files : MigrationFiles)
    (store : Registry)
    (phases : List TenancyPhase) : Prop where
  provisioned : Provisioned platform env files store
  messages :
    ∀ message ∈ store.databaseCreation, store.Knows message
  holds :
    ∀ (i : Nat) (phase : TenancyPhase),
      phases[i]? = some phase →
      phase.Holds platform env files store
  exclusive :
    ∀ (i j : Nat) (phase phase' : TenancyPhase) name,
      phases[i]? = some phase →
      phases[j]? = some phase' →
      phase.holds? platform env = some name →
      phase'.holds? platform env = some name →
      i = j

end OrderApi

------------------------------------------------------------
-- What Changes of the Store Keep
------------------------------------------------------------

namespace OrderApi

namespace TenancyPhase

variable {platform : Platform} {env : Environment}
variable {files : MigrationFiles}
variable {store store' : Registry} {phase : TenancyPhase}

/- Phases hold on if users and databases grow. -/
theorem Holds.mono
    (hHolds : phase.Holds platform env files store)
    (hKnows :
      ∀ message, store.Knows message → store'.Knows message)
    (hHeld :
      ∀ name, phase.holds? platform env = some name →
        store'.databases name = store.databases name)
    (hFinishing :
      ∀ message, phase = finishing message →
        store.HasMigrated platform files
          (message.databaseName platform env) →
        store'.HasMigrated platform files
          (message.databaseName platform env)) :
    phase.Holds platform env files store' := by
  cases phase with
  | enrolled message => exact hKnows _ hHolds
  | opening message =>
      exact ⟨hKnows _ hHolds.1, hHolds.2⟩
  | owning message executed logged =>
      rcases hHolds with ⟨hUser, hUrl, schema, hSchema, hRest⟩
      exact
        ⟨hKnows _ hUser, hUrl, schema,
          (hHeld _ rfl).trans hSchema, hRest⟩
  | failing message =>
      rcases hHolds with ⟨hUrl, schema, hSchema⟩
      exact ⟨hUrl, schema, (hHeld _ rfl).trans hSchema⟩
  | finishing message =>
      exact
        ⟨hKnows _ hHolds.1, hFinishing _ rfl hHolds.2⟩
  | enrolling => trivial
  | quiet => trivial
  | excluded => exact hHolds

/- A phase that holds a database knows that it exists. -/
theorem Holds.exists_of_holds?
    {name : String}
    (hHolds : phase.Holds platform env files store)
    (hName : phase.holds? platform env = some name) :
    ∃ schema, store.databases name = some schema := by
  cases phase with
  | owning message executed logged =>
      cases hName
      rcases hHolds with ⟨_, _, schema, hSchema, _⟩
      exact ⟨schema, hSchema⟩
  | failing message =>
      cases hName
      exact hHolds.2
  | _ => cases hName

end TenancyPhase

variable {platform : Platform} {env : Environment}
variable {files : MigrationFiles}
variable {store store' : Registry}
variable {phases : List TenancyPhase} {index : Nat}
variable {phase phase' : TenancyPhase}

/-
  The invariant after one job moved.  What the other phases
  know must be kept, and the job may hold a database that it
  held before or that nobody held.
-/
theorem ProvisionInv.move
    (hInv : ProvisionInv platform env files store phases)
    (hPhase : phases[index]? = some phase)
    (hProvisioned : Provisioned platform env files store')
    (hMessages :
      ∀ message ∈ store'.databaseCreation,
        store'.Knows message)
    (hOthers :
      ∀ j q, j ≠ index → phases[j]? = some q →
        q.Holds platform env files store')
    (hMoved : phase'.Holds platform env files store')
    (hHolds :
      ∀ name, phase'.holds? platform env = some name →
        phase.holds? platform env = some name ∨
          store.databases name = none) :
    ProvisionInv platform env files store'
      (phases.set index phase') where
  provisioned := hProvisioned
  messages := hMessages
  holds := by
    intro i q hAt
    rcases getElem?_set_cases hAt with
      ⟨rfl, rfl⟩ | ⟨hOther, hBefore⟩
    · exact hMoved
    · exact hOthers i q hOther hBefore
  exclusive := by
    have hAlone :
        ∀ j q name, phases[j]? = some q →
          q.holds? platform env = some name →
          phase'.holds? platform env = some name →
          j = index := by
      intro j q name hAt hHeld hMine
      rcases hHolds name hMine with hBefore | hNone
      · exact
          hInv.exclusive j index q phase name hAt hPhase hHeld
            hBefore
      · rcases
            (hInv.holds j q hAt).exists_of_holds? hHeld with
          ⟨schema, hSchema⟩
        rw [hNone] at hSchema
        cases hSchema
    intro i j q q' name hAt hAt' hHeld hHeld'
    rcases getElem?_set_cases hAt with
      ⟨rfl, rfl⟩ | ⟨hOther, hBefore⟩
    · rcases getElem?_set_cases hAt' with
        ⟨rfl, rfl⟩ | ⟨hOther', hBefore'⟩
      · rfl
      · exact
          (hAlone j q' name hBefore' hHeld' hHeld).symm
    · rcases getElem?_set_cases hAt' with
        ⟨rfl, rfl⟩ | ⟨hOther', hBefore'⟩
      · exact hAlone i q name hBefore hHeld hHeld'
      · exact
          hInv.exclusive i j q q' name hBefore hBefore' hHeld
            hHeld'

/- The invariant after a move that leaves the store. -/
theorem ProvisionInv.move_same
    (hInv : ProvisionInv platform env files store phases)
    (hPhase : phases[index]? = some phase)
    (hMoved : phase'.Holds platform env files store)
    (hHolds :
      ∀ name, phase'.holds? platform env = some name →
        phase.holds? platform env = some name) :
    ProvisionInv platform env files store
      (phases.set index phase') :=
  hInv.move hPhase hInv.provisioned hInv.messages
    (fun j q _ hAt => hInv.holds j q hAt) hMoved
    fun name hName => Or.inl (hHolds name hName)

/- Databases that are left alone stay migrated. -/
theorem Registry.HasMigrated.congr
    {name : String}
    (hMigrated : store.HasMigrated platform files name)
    (hSame : store'.databases name = store.databases name) :
    store'.HasMigrated platform files name := by
  rwa [Registry.HasMigrated, hSame]

/- The invariant after a move that leaves the databases. -/
theorem ProvisionInv.move_users
    (hInv : ProvisionInv platform env files store phases)
    (hPhase : phases[index]? = some phase)
    (hDatabases : store'.databases = store.databases)
    (hKnows :
      ∀ message, store.Knows message → store'.Knows message)
    (hProvisioned : Provisioned platform env files store')
    (hMessages :
      ∀ message ∈ store'.databaseCreation,
        store'.Knows message)
    (hMoved : phase'.Holds platform env files store')
    (hHolds : phase'.holds? platform env = none) :
    ProvisionInv platform env files store'
      (phases.set index phase') := by
  refine
    hInv.move hPhase hProvisioned hMessages ?_ hMoved ?_
  · intro j q _ hAt
    refine (hInv.holds j q hAt).mono hKnows ?_ ?_
    · intro name _
      rw [hDatabases]
    · intro message _ hMigrated
      exact hMigrated.congr (by rw [hDatabases])
  · intro name hName
    rw [hHolds] at hName
    cases hName

/-
  The invariant after a move that changes one database: one
  that the job holds, or one that did not exist.
-/
theorem ProvisionInv.move_put
    {name : String}
    {schema : Option TenantSchema}
    (hInv : ProvisionInv platform env files store phases)
    (hPhase : phases[index]? = some phase)
    (hOwner :
      phase.holds? platform env = some name ∨
        store.databases name = none)
    (hProvisioned :
      Provisioned platform env files (store.put name schema))
    (hFinishing :
      ∀ j message, j ≠ index →
        phases[j]? = some (.finishing message) →
        message.databaseName platform env = name →
        (store.put name schema).HasMigrated platform files
          name)
    (hMoved :
      phase'.Holds platform env files
        (store.put name schema))
    (hHolds :
      ∀ held, phase'.holds? platform env = some held →
        held = name) :
    ProvisionInv platform env files (store.put name schema)
      (phases.set index phase') := by
  refine
    hInv.move hPhase hProvisioned hInv.messages ?_ hMoved ?_
  · intro j q hOther hAt
    refine
      (hInv.holds j q hAt).mono (fun _ hUser => hUser) ?_ ?_
    · intro held hHeld
      apply Registry.put_databases_other
      rintro rfl
      rcases hOwner with hMine | hNone
      · exact
          hOther
            (hInv.exclusive j index q phase held hAt hPhase
              hHeld hMine)
      · rcases
            (hInv.holds j q hAt).exists_of_holds? hHeld with
          ⟨old, hOld⟩
        rw [hNone] at hOld
        cases hOld
    · rintro message rfl hMigrated
      by_cases hName :
          message.databaseName platform env = name
      · rw [hName]
        exact hFinishing j message hOther hAt hName
      · exact
          hMigrated.congr
            (Registry.put_databases_other hName)
  · intro held hHeld
    rw [hHolds held hHeld]
    exact hOwner

/- Replacing a database by a further one keeps users ready. -/
theorem Provisioned.put
    {name : String}
    {schema : Option TenantSchema}
    (hProvisioned : Provisioned platform env files store)
    (hMigrated :
      store.HasMigrated platform files name →
        (store.put name schema).HasMigrated platform files
          name) :
    Provisioned platform env files
      (store.put name schema) := by
  intro user hUser tenantCode hCode hMarked
  have hBefore :=
    hProvisioned user hUser tenantCode hCode hMarked
  by_cases hName :
      DatabaseCreationConsumer.databaseName platform env
          tenantCode =
        name
  · rw [hName] at hBefore ⊢
    exact hMigrated hBefore
  · exact
      hBefore.congr (Registry.put_databases_other hName)

end OrderApi

------------------------------------------------------------
-- Moves That Change the Store
------------------------------------------------------------

namespace OrderApi

open DatabaseCreationConsumer (saysExists)

namespace Registry

variable {store : Registry}
variable {message : DatabaseCreationMessage}

/- Further users leave the stored ones. -/
theorem Knows.of_insert
    {users : Table User}
    {user : User}
    (hKnows : store.Knows message)
    (hRows : users.rows = store.users.rows ++ [user]) :
    Knows { store with users := users } message := by
  rcases hKnows with ⟨old, hOld, hUser⟩
  refine ⟨old, ?_, hUser⟩
  change old ∈ users.rows
  rw [hRows]
  exact List.mem_append_left _ hOld

/- Marking a user leaves its id and tenant code. -/
theorem Knows.of_mark
    (hKnows : store.Knows message)
    (id : String) :
    (store.setDatabaseCreated id).Knows message := by
  rcases hKnows with ⟨old, hOld, hId, hCode⟩
  refine ⟨_, List.mem_map_of_mem hOld, ?_⟩
  by_cases hKey : Keyed.key old = id
  · simp [hKey, hId, hCode]
  · simp [hKey, hId, hCode]

end Registry

variable {platform : Platform} {env : Environment}
variable {files : MigrationFiles}
variable {store store' : Registry}
variable {phases : List TenancyPhase} {index : Nat}
variable {phase : TenancyPhase}
variable {message : DatabaseCreationMessage}

/- A user that is inserted is not marked, or no tenant. -/
theorem Provisioned.insert
    {tick : Tick}
    {data : UserData}
    {user : User}
    {users : Table User}
    (hProvisioned : Provisioned platform env files store)
    (hInsert :
      insertUser tick data store.users = .ok (user, users))
    (hData :
      data.tenantCode = none ∨
        data.isDatabaseCreated = false) :
    Provisioned platform env files
      { store with users := users } := by
  rcases insertUser_eq_ok hInsert with ⟨hUser, hRows⟩
  intro row hRow tenantCode hCode hMarked
  change row ∈ users.rows at hRow
  rw [hRows, List.mem_append, List.mem_singleton] at hRow
  rcases hRow with hOld | rfl
  · exact hProvisioned row hOld tenantCode hCode hMarked
  · subst hUser
    rcases hData with hNone | hUnmarked
    · simp [UserData.toUser, hNone] at hCode
    · simp [UserData.toUser, hUnmarked] at hMarked

/- An enrolment that succeeds. -/
theorem ProvisionInv.enrol
    {tick : Tick}
    {data : UserData}
    {user : User}
    {users : Table User}
    {phase' : TenancyPhase}
    (hInv : ProvisionInv platform env files store phases)
    (hPhase : phases[index]? = some phase)
    (hInsert :
      insertUser tick data store.users = .ok (user, users))
    (hData :
      data.tenantCode = none ∨
        data.isDatabaseCreated = false)
    (hMoved :
      phase'.Holds platform env files
        { store with users := users })
    (hHolds : phase'.holds? platform env = none) :
    ProvisionInv platform env files
      { store with users := users }
      (phases.set index phase') := by
  have hRows := (insertUser_eq_ok hInsert).2
  refine
    hInv.move_users hPhase rfl
      (fun _ hUser => hUser.of_insert hRows)
      (hInv.provisioned.insert hInsert hData) ?_ hMoved
      hHolds
  intro message hMessage
  exact (hInv.messages message hMessage).of_insert hRows

/- The user of an enrolment is known. -/
theorem knows_of_insertUser
    {tick : Tick}
    {data : UserData}
    {user : User}
    {users : Table User}
    {tenantCode : String}
    (hInsert :
      insertUser tick data store.users = .ok (user, users))
    (hCode : data.tenantCode = some tenantCode) :
    Registry.Knows { store with users := users }
      ⟨user.id, tenantCode⟩ := by
  rcases insertUser_eq_ok hInsert with ⟨rfl, hRows⟩
  refine ⟨data.toUser tick.freshId, ?_, rfl, hCode⟩
  change _ ∈ users.rows
  rw [hRows]
  exact List.mem_append_right _ List.mem_cons_self

/- A message that is published is one of a known user. -/
theorem ProvisionInv.publish
    (hInv : ProvisionInv platform env files store phases)
    (hPhase : phases[index]? = some (.enrolled message)) :
    ProvisionInv platform env files
      { store with
        databaseCreation :=
          store.databaseCreation ++ [message] }
      (phases.set index .quiet) := by
  have hKnown := hInv.holds index _ hPhase
  refine
    hInv.move_users hPhase rfl (fun _ hUser => hUser)
      hInv.provisioned ?_ trivial rfl
  intro other hOther
  rcases List.mem_append.mp hOther with hOld | hNew
  · exact hInv.messages other hOld
  · rw [List.mem_singleton] at hNew
    rw [hNew]
    exact hKnown

/- A database that is created is one that nobody relies on. -/
theorem ProvisionInv.created
    (hInv : ProvisionInv platform env files store phases)
    (hPhase : phases[index]? = some (.opening message))
    (hNone :
      store.databases (message.databaseName platform env) =
        none) :
    ProvisionInv platform env files
      (store.put (message.databaseName platform env)
        (some TenantSchema.empty))
      (phases.set index (.owning message [] [])) := by
  rcases hInv.holds index _ hPhase with ⟨hUser, hUrl⟩
  have hAbsent :
      ¬ store.HasMigrated platform files
        (message.databaseName platform env) := by
    rintro ⟨schema, hSchema, _⟩
    rw [hNone] at hSchema
    cases hSchema
  refine
    hInv.move_put hPhase (Or.inr hNone)
      (hInv.provisioned.put fun hBefore =>
        (hAbsent hBefore).elim)
      ?_
      ⟨hUser, hUrl, TenantSchema.empty,
        Registry.put_databases_same, rfl, rfl⟩
      ?_
  · intro j other _ hAt hName
    have hMigrated := (hInv.holds j _ hAt).2
    rw [hName] at hMigrated
    exact (hAbsent hMigrated).elim
  · intro held hHeld
    exact (Option.some.inj hHeld).symm

/- A call on a database that the job holds. -/
theorem ProvisionInv.onTenant
    {tick : Tick}
    {op : SchemaOp}
    {result : op.Res}
    {schema schema' : TenantSchema}
    {phase' : TenancyPhase}
    (hInv : ProvisionInv platform env files store phases)
    (hPhase : phases[index]? = some phase)
    (hHeld :
      phase.holds? platform env =
        some (message.databaseName platform env))
    (hSchema :
      store.databases (message.databaseName platform env) =
        some schema)
    (hExec :
      op.exec platform tick schema = .ok (result, schema'))
    (hMoved :
      phase'.Holds platform env files
        (store.put (message.databaseName platform env)
          (some schema')))
    (hHolds :
      phase'.holds? platform env =
        some (message.databaseName platform env)) :
    ProvisionInv platform env files
      (store.put (message.databaseName platform env)
        (some schema'))
      (phases.set index phase') := by
  have hGrows :
      store.HasMigrated platform files
          (message.databaseName platform env) →
        (store.put (message.databaseName platform env)
          (some schema')).HasMigrated platform files
            (message.databaseName platform env) := by
    rintro ⟨old, hOld, hMigrated⟩
    rw [hSchema] at hOld
    cases hOld
    exact
      ⟨schema', Registry.put_databases_same,
        hMigrated.mono (SchemaOp.exec_executed hExec)⟩
  refine
    hInv.move_put hPhase (Or.inl hHeld)
      (hInv.provisioned.put hGrows) ?_ hMoved ?_
  · intro j other _ hAt hName
    have hMigrated := (hInv.holds j _ hAt).2
    rw [hName] at hMigrated
    exact hGrows hMigrated
  · intro name hName
    rw [hHolds] at hName
    exact (Option.some.inj hName).symm

/- A database that is dropped is one that is not in use. -/
theorem ProvisionInv.drop
    (hInv : ProvisionInv platform env files store phases)
    (hPhase : phases[index]? = some (.failing message))
    (hUnmarked :
      Unmarked platform env store
        (message.databaseName platform env))
    (hIdle :
      ∀ (j : Nat) (other : DatabaseCreationMessage),
        phases[j]? = some (.finishing other) →
        other.databaseName platform env ≠
          message.databaseName platform env) :
    ProvisionInv platform env files
      (store.put (message.databaseName platform env) none)
      (phases.set index .quiet) := by
  refine
    hInv.move_put hPhase (Or.inl rfl) ?_ ?_ trivial ?_
  · intro user hUser tenantCode hCode hMarked
    have hBefore :=
      hInv.provisioned user hUser tenantCode hCode hMarked
    refine
      hBefore.congr (Registry.put_databases_other ?_)
    intro hName
    have hUnmark := hUnmarked user hUser tenantCode hCode hName
    rw [hMarked] at hUnmark
    cases hUnmark
  · intro j other _ hAt hName
    exact (hIdle j other hAt hName).elim
  · intro held hHeld
    cases hHeld

/- The user that is marked has a migrated database. -/
theorem ProvisionInv.finish
    (hInv : ProvisionInv platform env files store phases)
    (hPhase : phases[index]? = some (.finishing message)) :
    ProvisionInv platform env files
      (store.setDatabaseCreated message.userId)
      (phases.set index .quiet) := by
  rcases hInv.holds index _ hPhase with
    ⟨⟨known, hKnown, hId, hCode⟩, hMigrated⟩
  refine
    hInv.move_users hPhase rfl
      (fun _ hUser => hUser.of_mark message.userId) ?_ ?_
      trivial rfl
  · intro row hRow tenantCode hRowCode hMarked
    rcases List.mem_map.mp hRow with ⟨old, hOld, rfl⟩
    by_cases hKey : Keyed.key old = message.userId
    · have hSame : old = known :=
        store.users.eq_of_key_eq hOld hKnown
          (hKey.trans hId.symm)
      subst hSame
      simp only [hKey, if_true, hCode,
        Option.mem_some_iff] at hRowCode
      subst hRowCode
      exact hMigrated
    · simp only [hKey, if_false] at hRowCode hMarked
      exact
        hInv.provisioned old hOld tenantCode hRowCode hMarked
  · intro other hOther
    exact (hInv.messages other hOther).of_mark message.userId

end OrderApi

------------------------------------------------------------
-- What a Safe Step Keeps
------------------------------------------------------------

namespace OrderApi

open DatabaseCreationConsumer (saysExists)

variable {platform : Platform} {env : Environment}
variable {files : MigrationFiles}
variable {world : TenancyWorld}
variable {phases : List TenancyPhase} {index : Nat}

theorem failure?_of_error
    {store store' : Registry}
    {op : TenancyOp}
    {choice : Choice}
    {error : ApiError}
    (hExec :
      op.exec platform choice store =
        (.error error, store')) :
    failure? platform store (op, choice) = some error := by
  simp [failure?, hExec]

theorem failure?_of_ok
    {store store' : Registry}
    {op : TenancyOp}
    {choice : Choice}
    {result : op.Res}
    (hExec :
      op.exec platform choice store =
        (.ok result, store')) :
    failure? platform store (op, choice) = none := by
  simp [failure?, hExec]

/- The reads of an enrolment change nothing. -/
theorem TenancyOp.exec_lookup
    {store store' : Registry}
    {op : TenancyOp}
    {choice : Choice}
    {answer : Except ApiError op.Res}
    (hLookup : TenancyPhase.isLookup op = true)
    (hExec :
      op.exec platform choice store = (answer, store')) :
    store' = store := by
  cases answer with
  | error error => exact exec_error hExec
  | ok result =>
      rcases exec_ok hExec with ⟨tick, _, hAnswer⟩
      cases op <;> cases hLookup <;> cases hAnswer <;> rfl

/- A thread in its last phase is seen to finish. -/
theorem aboutToFinish_of_phase
    {message : DatabaseCreationMessage}
    (hThreads :
      PoolSystem.InPhases
        (tenancyDiscipline platform env files) world.threads
        phases)
    (hPhase : phases[index]? = some (.finishing message)) :
    ∃ thread ∈ world.threads,
      aboutToFinish platform env
        (message.databaseName platform env) thread =
          true := by
  rcases
      PoolSystem.InPhases.inProgress hThreads hPhase
        (fun hFinal => hFinal) with
    ⟨job, op, resume, hThread, hOwns, hMoves⟩
  refine ⟨_, List.mem_of_getElem? hThread, ?_⟩
  cases job with
  | createUser hashedPassword body =>
      simp [tenancyDiscipline, TenancyPhase.Owns] at hOwns
  | handleDatabaseCreation other =>
      have hSame : other = message := by
        simpa [tenancyDiscipline, TenancyPhase.Owns,
          eq_comm] using hOwns
      subst hSame
      -- an error without the text leaves only two calls
      rcases hMoves (.error ⟨.store, ""⟩) with
        ⟨phase', hMove⟩
      cases hMove with
      | disconnectFailed hOther =>
          simp [aboutToFinish, Program.nextOp?]
      | finish => simp [aboutToFinish, Program.nextOp?]
      | mistaken hOp hExists =>
          exact absurd hExists (by decide +kernel)

/- An answered call of a message's tenant client. -/
theorem TenancyOp.exec_ownClient
    {store store' : Registry}
    {message : DatabaseCreationMessage}
    {schema : TenantSchema}
    {op : SchemaOp}
    {choice : Choice}
    {result : op.Res}
    (hUrl : ReadsBack platform env message)
    (hSchema :
      store.databases (message.databaseName platform env) =
        some schema)
    (hExec :
      (tenantClient (message.databaseUrl platform env)
          op).exec platform choice store =
        (.ok result, store')) :
    ∃ tick schema',
      op.exec platform tick schema = .ok (result, schema') ∧
        store' =
          store.put (message.databaseName platform env)
            (some schema') := by
  rcases exec_tenantClient hExec with
    ⟨tick, name, old, schema', hName, hOld, hOp, hAfter⟩
  rw [hUrl] at hName
  cases hName
  rw [hSchema] at hOld
  cases hOld
  exact ⟨tick, schema', hOp, hAfter⟩

/- An answered call of a job that owns its database. -/
theorem ProvisionInv.progress
    {message : DatabaseCreationMessage}
    {executed logged executed' logged' : List String}
    {op : SchemaOp}
    {choice : Choice}
    {result : op.Res}
    {store store' : Registry}
    (hInv : ProvisionInv platform env files store phases)
    (hPhase :
      phases[index]? =
        some (.owning message executed logged))
    (hExec :
      (TenancyOp.tenantClient
          (message.databaseUrl platform env) op).exec
          platform choice store =
        (.ok result, store'))
    (hProgress :
      ∀ tick schema schema',
        op.exec platform tick schema =
            .ok (result, schema') →
          schema.executed = executed →
          schema.logged = logged →
          schema'.executed = executed' ∧
            schema'.logged = logged') :
    ProvisionInv platform env files store'
      (phases.set index
        (.owning message executed' logged')) := by
  rcases hInv.holds index _ hPhase with
    ⟨hUser, hUrl, schema, hSchema, hExecuted, hLogged⟩
  rcases TenancyOp.exec_ownClient hUrl hSchema hExec with
    ⟨tick, schema', hOp, rfl⟩
  have hAfter :=
    hProgress tick schema schema' hOp hExecuted hLogged
  exact
    hInv.onTenant hPhase rfl hSchema hOp
      ⟨hUser, hUrl, schema', Registry.put_databases_same,
        hAfter⟩
      rfl

/- A rolled-back migration leaves the job about to drop. -/
theorem ProvisionInv.rollBack
    {message : DatabaseCreationMessage}
    {id : String}
    {choice : Choice}
    {result : Unit}
    {store store' : Registry}
    (hInv : ProvisionInv platform env files store phases)
    (hPhase : phases[index]? = some (.failing message))
    (hExec :
      (TenancyOp.tenantClient
          (message.databaseUrl platform env)
          (.rollBackMigration id)).exec platform choice
          store =
        (.ok result, store')) :
    ProvisionInv platform env files store'
      (phases.set index (.failing message)) := by
  rcases hInv.holds index _ hPhase with
    ⟨hUrl, schema, hSchema⟩
  rcases TenancyOp.exec_ownClient hUrl hSchema hExec with
    ⟨tick, schema', hOp, rfl⟩
  exact
    hInv.onTenant hPhase rfl hSchema hOp
      ⟨hUrl, schema', Registry.put_databases_same⟩ rfl

/- A safe call keeps the invariant. -/
theorem ProvisionInv.resume
    {op : TenancyOp}
    {choice : Choice}
    {answer : Except ApiError op.Res}
    {store' : Registry}
    {phase phase' : TenancyPhase}
    (hInv :
      ProvisionInv platform env files world.store phases)
    (hThreads :
      PoolSystem.InPhases
        (tenancyDiscipline platform env files) world.threads
        phases)
    (hPhase : phases[index]? = some phase)
    (hMoves :
      TenancyPhase.Moves platform env files phase op answer
        phase')
    (hExec :
      op.exec platform choice world.store =
        (answer, store'))
    (hSafe :
      SafeCall platform env files world (op, choice)) :
    ProvisionInv platform env files store'
      (phases.set index phase') := by
  have hHolds := hInv.holds index phase hPhase
  rcases hSafe with ⟨hCreates, hProvisioning, hDrops⟩
  cases hMoves with
  | lookup hLookup =>
      rw [TenancyOp.exec_lookup hLookup hExec]
      exact hInv.move_same hPhase trivial fun _ hName => hName
  | enrolAdmin hCode hPending =>
      rcases TenancyOp.exec_userCreate hExec with
        ⟨tick, users, _, hInsert, rfl⟩
      exact
        hInv.enrol hPhase hInsert (Or.inr hPending)
          (knows_of_insertUser hInsert hCode) rfl
  | enrolCustomer hCode =>
      rcases TenancyOp.exec_userCreate hExec with
        ⟨tick, users, _, hInsert, rfl⟩
      exact
        hInv.enrol hPhase hInsert (Or.inl hCode) trivial rfl
  | enrolFailed =>
      rw [TenancyOp.exec_error hExec]
      exact
        hInv.move_same hPhase trivial fun _ hName => by
          cases hName
  | @publish message answer =>
      cases answer with
      | error error =>
          rw [TenancyOp.exec_error hExec]
          exact
            hInv.move_same hPhase trivial fun _ hName => by
              cases hName
      | ok result =>
          rcases TenancyOp.exec_ok hExec with
            ⟨tick, _, hAnswer⟩
          cases hAnswer
          exact hInv.publish hPhase
  | @connectPostgres message url answer =>
      have hSame : store' = world.store := by
        cases answer with
        | error error => exact TenancyOp.exec_error hExec
        | ok result =>
            rcases TenancyOp.exec_ok hExec with
              ⟨tick, _, hAnswer⟩
            cases hAnswer
            rfl
      rw [hSame]
      exact hInv.move_same hPhase hHolds fun _ hName => hName
  | created =>
      rcases TenancyOp.exec_createDatabase hExec with
        ⟨hNone, rfl⟩
      exact hInv.created hPhase hNone
  | existed hExists =>
      have hMigrated :=
        hCreates _ rfl _ (failure?_of_error hExec) hExists
      rw [TenancyOp.exec_error hExec]
      exact
        hInv.move_same hPhase ⟨hHolds.1, hMigrated⟩
          fun _ hName => by cases hName
  | refused hOther =>
      rw [TenancyOp.exec_error hExec]
      exact
        hInv.move_same hPhase trivial fun _ hName => by
          cases hName
  | disconnected =>
      rcases TenancyOp.exec_ok hExec with ⟨tick, _, hAnswer⟩
      cases hAnswer
      exact hInv.move_same hPhase hHolds fun _ hName => hName
  | disconnectFailed hOther =>
      rw [TenancyOp.exec_error hExec]
      exact
        hInv.move_same hPhase trivial fun _ hName => by
          cases hName
  | prepare hKeeps =>
      refine hInv.progress hPhase hExec ?_
      rintro tick schema schema' hOp rfl rfl
      exact SchemaOp.exec_keepsProgress hKeeps hOp
  | find hIds =>
      refine hInv.progress hPhase hExec ?_
      rintro tick schema schema' hOp rfl rfl
      rw [(SchemaOp.exec_findMigrations hOp).1]
      exact ⟨rfl, rfl⟩
  | unexpected hFresh hIds =>
      -- the log holds the names that the job has logged
      rcases hHolds with ⟨_, hUrl, schema, hSchema, _, rfl⟩
      rcases
          TenancyOp.exec_ownClient hUrl hSchema hExec with
        ⟨tick, schema', hOp, _⟩
      have hNone :=
        (SchemaOp.exec_findMigrations hOp).2 hFresh
      exact (hIds hNone).elim
  | insert =>
      refine hInv.progress hPhase hExec ?_
      rintro tick schema schema' hOp rfl rfl
      exact SchemaOp.exec_insertMigration hOp
  | execute =>
      refine hInv.progress hPhase hExec ?_
      rintro tick schema schema' hOp rfl rfl
      exact SchemaOp.exec_executeStatement hOp
  | migrationFailed hOther =>
      rcases hHolds with ⟨_, hUrl, schema, hSchema, _⟩
      rw [TenancyOp.exec_error hExec]
      exact
        hInv.move_same hPhase ⟨hUrl, schema, hSchema⟩
          fun _ hName => hName
  | disconnectTenant hMigrated =>
      rcases hHolds with
        ⟨hUser, _, schema, hSchema, rfl, _⟩
      rcases TenancyOp.exec_ok hExec with ⟨tick, _, hAnswer⟩
      cases hAnswer
      exact
        hInv.move_same hPhase
          ⟨hUser, schema, hSchema, hMigrated⟩
          fun _ hName => by cases hName
  | disconnectTenantFailed hOther =>
      rcases hHolds with ⟨_, hUrl, schema, hSchema, _⟩
      rw [TenancyOp.exec_error hExec]
      exact
        hInv.move_same hPhase ⟨hUrl, schema, hSchema⟩
          fun _ hName => hName
  | @rollBack message id answer hOther =>
      cases answer with
      | error error =>
          rw [TenancyOp.exec_error hExec]
          exact
            hInv.move_same hPhase hHolds fun _ hName => hName
      | ok result => exact hInv.rollBack hPhase hExec
  | @drop message answer =>
      cases answer with
      | error error =>
          rw [TenancyOp.exec_error hExec]
          exact
            hInv.move_same hPhase trivial fun _ hName => by
              cases hName
      | ok result =>
          rcases hDrops _ rfl (failure?_of_ok hExec) with
            ⟨hUnmarked, hIdle⟩
          rcases TenancyOp.exec_ok hExec with
            ⟨tick, _, hAnswer⟩
          cases hAnswer
          refine hInv.drop hPhase hUnmarked ?_
          intro j other hAt hName
          rcases aboutToFinish_of_phase hThreads hAt with
            ⟨thread, hThread, hFinish⟩
          have hNot := hIdle thread hThread
          rw [← hName, hFinish] at hNot
          cases hNot
  | @finish message answer =>
      cases answer with
      | error error =>
          rw [TenancyOp.exec_error hExec]
          exact
            hInv.move_same hPhase trivial fun _ hName => by
              cases hName
      | ok result =>
          rw [TenancyOp.exec_userSetDatabaseCreated hExec]
          exact hInv.finish hPhase
  | mistaken hOp hExists =>
      have hOther :=
        hProvisioning hOp _ (failure?_of_error hExec)
      rw [hExists] at hOther
      cases hOther
  | any => exact hHolds.elim

/- Starting a job keeps the invariant. -/
theorem ProvisionInv.start
    {job : TenancyJob}
    (hInv :
      ProvisionInv platform env files world.store phases)
    (hReady : job.ready world.store = true)
    (hReads :
      ∀ message, job = .handleDatabaseCreation message →
        ReadsBack platform env message) :
    ProvisionInv platform env files world.store
      (phases ++ [TenancyPhase.first job]) := by
  have hFree :
      (TenancyPhase.first job).holds? platform env =
        none := by
    cases job <;> rfl
  refine
    { provisioned := hInv.provisioned
      messages := hInv.messages
      holds := ?_
      exclusive := ?_ }
  · intro i phase hAt
    rcases getElem?_append_cases hAt with
      ⟨_, rfl⟩ | hBefore
    · cases job with
      | createUser hashedPassword body => trivial
      | handleDatabaseCreation message =>
          have hMessage :
              message ∈ world.store.databaseCreation := by
            simpa [TenancyJob.ready] using hReady
          exact
            ⟨hInv.messages message hMessage,
              hReads message rfl⟩
    · exact hInv.holds i phase hBefore
  · intro i j phase phase' name hAt hAt' hHeld hHeld'
    rcases getElem?_append_cases hAt with
      ⟨_, rfl⟩ | hBefore
    · rw [hFree] at hHeld
      cases hHeld
    · rcases getElem?_append_cases hAt' with
        ⟨_, rfl⟩ | hBefore'
      · rw [hFree] at hHeld'
        cases hHeld'
      · exact
          hInv.exclusive i j phase phase' name hBefore
            hBefore' hHeld hHeld'

end OrderApi

------------------------------------------------------------
-- Provisioning
------------------------------------------------------------

namespace OrderApi

variable {platform : Platform} {env : Environment}
variable {files : MigrationFiles}
variable {start : Registry} {world : TenancyWorld}
variable {history : List TenancyStep}

/- Without users, everybody is provisioned. -/
theorem ProvisionInv.of_unregistered
    (hStart : start.Unregistered) :
    ProvisionInv platform env files start [] where
  provisioned := by
    intro user hUser
    rw [hStart.no_users] at hUser
    cases hUser
  messages := by
    intro message hMessage
    rw [hStart.no_messages] at hMessage
    cases hMessage
  holds := by
    intro i phase hAt
    cases hAt
  exclusive := by
    intro i j phase phase' name hAt
    cases hAt

/-
  In every state of a run whose steps are safe, a user whose
  database is marked as created has a database with all
  migrations executed.
-/
theorem provisioned_of_safe
    (hStart : start.Unregistered)
    (hRun :
      TenancyRun platform env files start history world)
    (hSafe :
      ∀ t ∈ history,
        ProvisionsSafely platform env files t) :
    Provisioned platform env files world.store := by
  rcases
      PoolSystem.run_invariant
        (tenancySystem_obeys platform env files)
        (ProvisionsSafely platform env files)
        (fun _ pool phases =>
          ProvisionInv platform env files pool.store phases)
        (ProvisionInv.of_unregistered hStart)
        (by
          intro _ pool phases job hInv _ hReady _ hGood
          refine hInv.start hReady ?_
          rintro message rfl
          exact hGood.1 message rfl)
        (by
          intro _ pool phases index choice job op resume
            phase phase' hInv hThreads hThread hPhase _
            hMoves _ _ hGood
          exact
            hInv.resume hThreads hPhase hMoves rfl
              (hGood.2 _ (Transition.call?_resume hThread)))
        hRun hSafe with
    ⟨phases, _, hInv⟩
  exact hInv.provisioned

/- A tenant of the onboarding that is provisioned. -/
theorem provisioned_of_safe_of_onboarding :
    ∃ history world,
      TenancyRun Onboarding.platform Onboarding.env
          Onboarding.files Onboarding.store history world ∧
        (∀ t ∈ history,
          ProvisionsSafely Onboarding.platform
            Onboarding.env Onboarding.files t) ∧
        (∃ user ∈ world.store.users.rows,
          user.tenantCode = some "acme" ∧
            user.isDatabaseCreated = true) ∧
        Provisioned Onboarding.platform Onboarding.env
          Onboarding.files world.store := by
  rcases
      Onboarding.exists_run
        (Onboarding.enrol 0 "a" "acme" ++
          [Onboarding.handle "a" "acme"] ++
          Onboarding.goOn 1 11)
        (fun history world =>
          decide
            ((∀ t ∈ history,
              ProvisionsSafely Onboarding.platform
                Onboarding.env Onboarding.files t) ∧
              ∃ user ∈ world.store.users.rows,
                user.tenantCode = some "acme" ∧
                  user.isDatabaseCreated = true))
        (by decide +kernel) with
    ⟨history, world, hRun, hCheck⟩
  rcases of_decide_eq_true hCheck with ⟨hSafe, hMarked⟩
  exact
    ⟨history, world, hRun, hSafe, hMarked,
      provisioned_of_safe Onboarding.store_unregistered hRun
        hSafe⟩

/-
  A consumer that crashes behind `CREATE DATABASE` leaves an
  empty database, which its redelivered message takes for a
  migrated one.
-/
theorem not_provisioned :
    ¬ ∀ (env : Environment) (files : MigrationFiles)
        (start : Registry) (history : List TenancyStep)
        (world : TenancyWorld),
      start.Unregistered →
      TenancyRun Onboarding.platform env files start history
        world →
      Provisioned Onboarding.platform env files
        world.store := by
  intro hClaim
  rcases
      Onboarding.exists_run
        (Onboarding.enrol 0 "a" "acme" ++
          [Onboarding.handle "a" "acme"] ++
          Onboarding.goOn 1 2 ++
          [Onboarding.handle "a" "acme"] ++
          Onboarding.goOn 2 4)
        (fun _ world =>
          decide
            ¬ Provisioned Onboarding.platform Onboarding.env
              Onboarding.files world.store)
        (by decide +kernel) with
    ⟨history, world, hRun, hCheck⟩
  exact
    of_decide_eq_true hCheck
      (hClaim Onboarding.env Onboarding.files
        Onboarding.store history world
        Onboarding.store_unregistered hRun)

end OrderApi
