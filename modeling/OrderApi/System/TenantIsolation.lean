import OrderApi.System.TenancySystem

/-
  Which databases the tenants of a run are bound to.

  Tenant codes are unique, but the name of a database keeps
  a code only up to case, and nothing keeps it apart from
  the default database.

  Key definitions include:
    * `Registry.tenantCodes`
    * `Isolated`
    * `RegistersApart`

  Key theorems include:
    * `tenantCodes_of_step`
    * `isolated_iff_registersApart`
-/

------------------------------------------------------------
-- Tenant Codes
------------------------------------------------------------

namespace OrderApi

/- The tenant codes of all users. -/
def Registry.tenantCodes (store : Registry) : List String :=
  store.users.rows.filterMap User.tenantCode

/-
  Different tenants are bound to different databases, and
  none of them to the default database.
-/
def Isolated
    (platform : Platform)
    (env : Environment)
    (store : Registry) : Prop :=
  (∀ code ∈ store.tenantCodes, ∀ code' ∈ store.tenantCodes,
    code ≠ code' →
      DatabaseManagerService.databaseName platform env
          code ≠
        DatabaseManagerService.databaseName platform env
          code') ∧
  ∀ code ∈ store.tenantCodes,
    defaultDatabase? platform env ≠
      some
        (DatabaseManagerService.databaseName platform env
          code)

instance
    (platform : Platform)
    (env : Environment)
    (store : Registry) :
    Decidable (Isolated platform env store) :=
  inferInstanceAs (Decidable (_ ∧ _))

/- The tenant code that a call registers. -/
def TenancyOp.registers?
    (choice : Choice)
    (store : Registry) : TenancyOp → Option String
  | .userCreate data =>
      match choice with
      | .failure _ => none
      | .answer tick =>
          match insertUser tick data store.users with
          | .error _ => none
          | .ok (user, _) => user.tenantCode
  | _ => none

/- The tenant code that a step registers. -/
def registers? (t : TenancyStep) : Option String :=
  t.call?.bind fun call =>
    call.1.registers? call.2 t.before.store

/-
  A code that is registered differs from every other code
  also in lower case, and does not, in lower case and behind
  the prefix, name the default database.
-/
def RegistersApart
    (platform : Platform)
    (env : Environment)
    (t : TenancyStep) : Prop :=
  ∀ code ∈ registers? t,
    (∀ code' ∈ t.before.store.tenantCodes, code' ≠ code →
      platform.toLowerCase code' ≠
        platform.toLowerCase code) ∧
    defaultDatabase? platform env ≠
      some
        (DatabaseManagerService.databasePrefix env ++
          platform.toLowerCase code)

instance
    (platform : Platform)
    (env : Environment)
    (t : TenancyStep) :
    Decidable (RegistersApart platform env t) :=
  inferInstanceAs (Decidable (∀ code ∈ registers? t, _))

end OrderApi

------------------------------------------------------------
-- What a Step Does to the Tenant Codes
------------------------------------------------------------

namespace OrderApi

/- An insertion that succeeds registers its code. -/
theorem tenantCodes_of_insertUser
    {tick : Tick}
    {data : UserData}
    {store store' : Registry}
    {user : User}
    (hInsert :
      insertUser tick data store.users =
        .ok (user, store'.users)) :
    store'.tenantCodes =
      store.tenantCodes ++ user.tenantCode.toList := by
  rw [Registry.tenantCodes, (insertUser_eq_ok hInsert).2,
    List.filterMap_append, Registry.tenantCodes]
  cases hCode : user.tenantCode with
  | none => simp [hCode]
  | some code => simp [hCode]

/- A code that a call registers is added at the end. -/
theorem TenancyOp.tenantCodes_of_registers
    {platform : Platform}
    {choice : Choice}
    {op : TenancyOp}
    {store : Registry}
    {code : String}
    (hRegisters : op.registers? choice store = some code) :
    (op.exec platform choice store).2.tenantCodes =
      store.tenantCodes ++ [code] := by
  cases op with
  | userCreate data =>
      cases choice with
      | failure message => simp [registers?] at hRegisters
      | answer tick =>
          cases hInsert :
              insertUser tick data store.users with
          | error message =>
              simp [registers?, hInsert] at hRegisters
          | ok inserted =>
              rcases inserted with ⟨user, users⟩
              simp only [registers?, hInsert] at hRegisters
              let store' : Registry :=
                { store with users := users }
              have hCodes :
                  store'.tenantCodes =
                    store.tenantCodes ++
                      user.tenantCode.toList :=
                tenantCodes_of_insertUser hInsert
              rw [hRegisters] at hCodes
              simpa [exec, TenancyOp.answer, hInsert, store']
                using hCodes
  | _ => cases hRegisters

/- A code after a call was there before, or is registered. -/
theorem TenancyOp.mem_tenantCodes_of_exec
    {platform : Platform}
    {choice : Choice}
    {op : TenancyOp}
    {store : Registry}
    {code : String}
    (hCode :
      code ∈ (op.exec platform choice store).2.tenantCodes) :
    code ∈ store.tenantCodes ∨
      op.registers? choice store = some code := by
  cases hExec : op.exec platform choice store with
  | mk answer store' =>
      rw [hExec] at hCode
      rcases exec_users_cases hExec with
        hSame | ⟨data, tick, user, rfl, rfl, hInsert⟩ |
          ⟨id, data, user, rfl, hUpdate⟩ |
          ⟨id, rfl, hDelete⟩ | ⟨id, rfl, hMark⟩
      · apply Or.inl
        rwa [Registry.tenantCodes, hSame] at hCode
      · rw [tenantCodes_of_insertUser hInsert,
          List.mem_append, Option.mem_toList] at hCode
        rcases hCode with hOld | hNew
        · exact Or.inl hOld
        · apply Or.inr
          simpa [registers?, hInsert] using hNew
      · apply Or.inl
        rcases List.mem_filterMap.mp hCode with
          ⟨row, hRow, hRowCode⟩
        rcases mem_of_updateUser hUpdate hRow with
          ⟨old, hOld, hSame⟩
        exact
          List.mem_filterMap.mpr
            ⟨old, hOld, hSame.symm.trans hRowCode⟩
      · apply Or.inl
        rw [Registry.tenantCodes, hDelete] at hCode
        exact
          (List.filter_sublist.filterMap _).subset hCode
      · apply Or.inl
        rcases List.mem_filterMap.mp hCode with
          ⟨row, hRow, hRowCode⟩
        rw [hMark] at hRow
        rcases List.mem_map.mp hRow with ⟨old, hOld, rfl⟩
        refine List.mem_filterMap.mpr ⟨old, hOld, ?_⟩
        by_cases hKey : Keyed.key old = id
        · simpa [hKey] using hRowCode
        · simpa [hKey] using hRowCode

end OrderApi

------------------------------------------------------------
-- Isolation
------------------------------------------------------------

namespace OrderApi

variable {platform : Platform} {env : Environment}
variable {files : MigrationFiles}
variable {start : Registry} {world : TenancyWorld}
variable {history : List TenancyStep} {t : TenancyStep}

/- All that a step can do to the tenant codes. -/
theorem tenantCodes_of_step
    (hStep :
      (tenancySystem platform env files).step t.before
          t.label =
        some t.after) :
    (∀ code ∈ t.after.store.tenantCodes,
      code ∈ t.before.store.tenantCodes ∨
        registers? t = some code) ∧
    ∀ code,
      registers? t = some code →
        t.after.store.tenantCodes =
          t.before.store.tenantCodes ++ [code] := by
  rcases PoolSystem.store_of_step hStep with
    ⟨hCall, hSame⟩ | ⟨op, choice, hCall, hAfter⟩
  · constructor
    · intro code hCode
      exact Or.inl (by rwa [hSame] at hCode)
    · intro code hRegisters
      simp [registers?, hCall] at hRegisters
  · have hRegisters :
        registers? t =
          op.registers? choice t.before.store := by
      simp [registers?, hCall]
    rw [hAfter, hRegisters]
    exact
      ⟨fun code hCode =>
          TenancyOp.mem_tenantCodes_of_exec hCode,
        fun code hCode =>
          TenancyOp.tenantCodes_of_registers hCode⟩

/- Registering apart keeps the tenants isolated. -/
theorem isolated_of_registersApart
    (hStep :
      (tenancySystem platform env files).step t.before
          t.label =
        some t.after)
    (hApart : RegistersApart platform env t)
    (hBefore : Isolated platform env t.before.store) :
    Isolated platform env t.after.store := by
  rcases tenantCodes_of_step hStep with ⟨hCodes, _⟩
  constructor
  · intro code hCode code' hCode' hDistinct hSame
    rw [DatabaseManagerService.databaseName_inj] at hSame
    rcases hCodes code hCode with hOld | hNew
    · rcases hCodes code' hCode' with hOld' | hNew'
      · exact
          hBefore.1 code hOld code' hOld' hDistinct
            (DatabaseManagerService.databaseName_inj.mpr
              hSame)
      · exact (hApart code' hNew').1 code hOld hDistinct hSame
    · rcases hCodes code' hCode' with hOld' | hNew'
      · exact
          (hApart code hNew).1 code' hOld' hDistinct.symm
            hSame.symm
      · rw [hNew] at hNew'
        exact hDistinct (Option.some.inj hNew')
  · intro code hCode
    rcases hCodes code hCode with hOld | hNew
    · exact hBefore.2 code hOld
    · exact (hApart code hNew).2

/- A step into an isolated state registers apart. -/
theorem registersApart_of_isolated
    (hStep :
      (tenancySystem platform env files).step t.before
          t.label =
        some t.after)
    (hAfter : Isolated platform env t.after.store) :
    RegistersApart platform env t := by
  intro code hRegisters
  have hCodes :=
    (tenantCodes_of_step hStep).2 code hRegisters
  have hNew : code ∈ t.after.store.tenantCodes := by
    rw [hCodes]
    exact List.mem_append_right _ List.mem_cons_self
  refine ⟨?_, hAfter.2 code hNew⟩
  intro code' hCode' hDistinct hSame
  have hOld : code' ∈ t.after.store.tenantCodes := by
    rw [hCodes]
    exact List.mem_append_left _ hCode'
  exact
    hAfter.1 code' hOld code hNew hDistinct
      (DatabaseManagerService.databaseName_inj.mpr hSame)

/-
  The tenants of a run are bound to different databases, and
  none to the default one, exactly if all of its user
  creations register codes apart.
-/
theorem isolated_iff_registersApart
    (hStart : start.Unregistered)
    (hRun :
      TenancyRun platform env files start history world) :
    (∀ t ∈ history, Isolated platform env t.after.store) ↔
      ∀ t ∈ history, RegistersApart platform env t := by
  constructor
  · intro hIsolated t hMem
    exact
      registersApart_of_isolated (hRun.of_mem hMem).1
        (hIsolated t hMem)
  · intro hApart
    have hEmpty : start.tenantCodes = [] := by
      rw [Registry.tenantCodes, hStart.no_users]
      rfl
    have hFirst : Isolated platform env start := by
      simp [Isolated, hEmpty]
    have hAll :=
      Run.invariant (RegistersApart platform env)
        (fun history world =>
          Isolated platform env world.store ∧
            ∀ t ∈ history,
              Isolated platform env t.after.store)
        ⟨hFirst, by simp⟩
        (by
          rintro history before label after ⟨hBefore, hEarlier⟩
            hStep hNewest
          have hAfter :=
            isolated_of_registersApart
              (t := ⟨before, label, after⟩) hStep hNewest
              hBefore
          exact
            ⟨hAfter, List.forall_mem_cons.mpr
              ⟨hAfter, hEarlier⟩⟩)
        hRun hApart
    exact hAll.2

/- Two tenants of a server that are kept apart. -/
theorem isolated_iff_registersApart_of_onboarding :
    ∃ history world,
      TenancyRun Onboarding.platform Onboarding.env
          Onboarding.files Onboarding.store history world ∧
        world.store.tenantCodes = ["acme", "beta"] ∧
        (∀ t ∈ history,
          RegistersApart Onboarding.platform Onboarding.env
            t) ∧
        ∀ t ∈ history,
          Isolated Onboarding.platform Onboarding.env
            t.after.store := by
  rcases
      Onboarding.exists_run
        (Onboarding.enrol 0 "a" "acme" ++
          Onboarding.enrol 1 "b" "beta")
        (fun history world =>
          decide
            (world.store.tenantCodes = ["acme", "beta"] ∧
              ∀ t ∈ history,
                RegistersApart Onboarding.platform
                  Onboarding.env t))
        (by decide +kernel) with
    ⟨history, world, hRun, hCheck⟩
  rcases of_decide_eq_true hCheck with ⟨hCodes, hApart⟩
  exact
    ⟨history, world, hRun, hCodes, hApart,
      (isolated_iff_registersApart
        Onboarding.store_unregistered hRun).mpr hApart⟩

/- The codes `ACME` and `acme` are bound to one database. -/
theorem not_isolated :
    ¬ ∀ (env : Environment) (files : MigrationFiles)
        (start : Registry) (history : List TenancyStep)
        (world : TenancyWorld),
      start.Unregistered →
      TenancyRun Onboarding.platform env files start history
        world →
      Isolated Onboarding.platform env world.store := by
  intro hClaim
  rcases
      Onboarding.exists_run
        (Onboarding.enrol 0 "a" "ACME" ++
          Onboarding.enrol 1 "b" "acme")
        (fun _ world =>
          decide
            ¬ Isolated Onboarding.platform Onboarding.env
              world.store)
        (by decide +kernel) with
    ⟨history, world, hRun, hCheck⟩
  exact
    of_decide_eq_true hCheck
      (hClaim Onboarding.env Onboarding.files
        Onboarding.store history world
        Onboarding.store_unregistered hRun)

end OrderApi
