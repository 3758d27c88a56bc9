import OrderApi.System.OrderListCoherence

/-
  What `delMethodUserKeys` deletes of the cached order lists.

  It deletes the keys that begin with the user's id behind
  the names of the controller and of the method.  A list is
  kept under such a key for a request without parameters
  only: the key for another request has an object there.

  Key definitions include:
    * `keepLists`
    * `deleteUserLists`
    * `DeletesUserLists`
    * `OrderListRequest.Fits`

  Key theorems include:
    * `OrderListRequest.begins_iff`
    * `deletesUserLists_iff`
    * `not_deletesUserLists`
-/

------------------------------------------------------------
-- Deleting the Lists of a User
------------------------------------------------------------

namespace OrderApi

/- A list and the page that was computed for it. -/
abbrev KeptList := OrderListRequest × Page TenantOrder

/- Lists that the interceptor has kept, newest first. -/
def keepLists (stored : List KeptList) :
    Cache String (Page TenantOrder) :=
  stored.foldr
    (fun kept cache => cache.put kept.1.storeKey kept.2)
    Cache.empty

/- `delMethodUserKeys('OrderController', 'findAll', ...)` -/
def deletesUserKey
    (tenantCode : Option JsVal)
    (tenant userId key : String) : Bool :=
  CacheService.delMethodUserKeys tenantCode
    "OrderController" "findAll" userId (some tenant) key

def deleteUserLists
    (tenantCode : Option JsVal)
    (tenant userId : String)
    (cache : Cache String (Page TenantOrder)) :
    Cache String (Page TenantOrder) :=
  cache.drop (deletesUserKey tenantCode tenant userId)

/- The tenant in the key that a list is kept under. -/
def OrderListRequest.storeTenant?
    (list : OrderListRequest) : Option String :=
  CacheService.tenantText list.tenantCodeAfter none

/-
  Every list kept for the user in the tenant is deleted, and
  every list kept for another user is still there.
-/
def DeletesUserLists
    (tenantCode : Option JsVal)
    (tenant userId : String)
    (stored : List KeptList) : Prop :=
  ∀ kept ∈ stored, ∀ key, kept.1.storeKey = some key →
    (kept.1.user.id = userId →
      kept.1.storeTenant? = some tenant →
      deleteUserLists tenantCode tenant userId
        (keepLists stored) key = none) ∧
    (kept.1.user.id ≠ userId →
      deleteUserLists tenantCode tenant userId
          (keepLists stored) key =
        keepLists stored key)

theorem isSome_put
    {cache : Cache String (Page TenantOrder)}
    {key : String}
    (hKept : (cache key).isSome)
    (storeKey : Option String)
    (page : Page TenantOrder) :
    (cache.put storeKey page key).isSome := by
  cases storeKey with
  | none => exact hKept
  | some other =>
      simp only [Cache.put, Function.update_apply]
      split
      · rfl
      · exact hKept

/- What was kept is in the cache. -/
theorem isSome_keepLists
    {stored : List KeptList}
    {kept : KeptList}
    (hMem : kept ∈ stored)
    {key : String}
    (hKey : kept.1.storeKey = some key) :
    (keepLists stored key).isSome := by
  induction stored with
  | nil => cases hMem
  | cons newest stored ih =>
      rcases List.mem_cons.mp hMem with rfl | hMem
      · simp [keepLists, Cache.put, hKey]
      · exact isSome_put (ih hMem) _ _

/- A kept list is found no more if its key is deleted. -/
theorem deleteUserLists_eq_none
    {stored : List KeptList}
    {kept : KeptList}
    (hMem : kept ∈ stored)
    {key : String}
    (hKey : kept.1.storeKey = some key)
    (tenantCode : Option JsVal)
    (tenant userId : String) :
    deleteUserLists tenantCode tenant userId
        (keepLists stored) key = none ↔
      deletesUserKey tenantCode tenant userId key =
        true := by
  rcases Option.isSome_iff_exists.mp
      (isSome_keepLists hMem hKey) with ⟨page, hPage⟩
  simp [deleteUserLists, Cache.drop, hPage]

/- It is found as before if its key is not deleted. -/
theorem deleteUserLists_eq_self
    {stored : List KeptList}
    {kept : KeptList}
    (hMem : kept ∈ stored)
    {key : String}
    (hKey : kept.1.storeKey = some key)
    (tenantCode : Option JsVal)
    (tenant userId : String) :
    deleteUserLists tenantCode tenant userId
          (keepLists stored) key =
        keepLists stored key ↔
      deletesUserKey tenantCode tenant userId key =
        false := by
  rcases Option.isSome_iff_exists.mp
      (isSome_keepLists hMem hKey) with ⟨page, hPage⟩
  simp [deleteUserLists, Cache.drop, hPage]

end OrderApi

------------------------------------------------------------
-- Keys that Begin with a User's Id
------------------------------------------------------------

namespace OrderApi

/- The `prefix` of the keys that are deleted. -/
def userKeysStart (tenant userId : String) : String :=
  tenant ++ ":" ++ "OrderController" ++ ":" ++ "findAll" ++
    ":" ++ userId

theorem deletesUserKey_eq
    (tenantCode : Option JsVal)
    (tenant userId key : String) :
    deletesUserKey tenantCode tenant userId key =
      globMatches (userKeysStart tenant userId ++ "*")
        key := by
  simp [deletesUserKey, CacheService.delMethodUserKeys,
    CacheService.tenantText, userKeysStart]

/- What stands between a tenant and the arguments. -/
def listsName : List Char :=
  ':' :: ("OrderController".toList ++
    ':' :: ("findAll".toList ++ [':']))

theorem userKeysStart_toList (tenant userId : String) :
    (userKeysStart tenant userId).toList =
      tenant.toList ++ (listsName ++ userId.toList) := by
  simp only [userKeysStart, listsName, String.toList_append,
    List.append_assoc, List.cons_append, List.nil_append]
  rfl

theorem listsName_ends :
    ∃ init, listsName = init ++ [':'] :=
  ⟨':' :: ("OrderController".toList ++
    ':' :: "findAll".toList), by simp [listsName]⟩

theorem length_listsName : listsName.length = 25 := by
  decide +kernel

theorem brace_listsName : '{' ∉ listsName := by
  decide +kernel

/-
  A tenant that stands for itself in a pattern, and that has
  no object in it.
-/
def StandsForItself (tenant : String) : Prop :=
  tenant.toList.all literal = true ∧ '{' ∉ tenant.toList

instance (tenant : String) :
    Decidable (StandsForItself tenant) :=
  inferInstanceAs (Decidable (_ ∧ _))

/- The deletion is then one of all keys that begin so. -/
theorem deletesUserKey_iff
    {tenant userId : String}
    (hTenant : StandsForItself tenant)
    (hUuid : isUuid userId = true)
    (tenantCode : Option JsVal)
    (key : String) :
    deletesUserKey tenantCode tenant userId key = true ↔
      tenant.toList ++ (listsName ++ userId.toList) <+:
        key.toList := by
  have hNames : listsName.all literal = true := by
    decide +kernel
  have hLiteral :
      (userKeysStart tenant userId).toList.all literal =
        true := by
    rw [userKeysStart_toList, List.all_append,
      List.all_append, hTenant.1, hNames,
      literal_of_isUuid hUuid]
    rfl
  rw [deletesUserKey_eq, globMatches_star hLiteral,
    userKeysStart_toList]

/- A character near the end of two equal texts. -/
theorem mem_of_append_eq_append_cons
    {front front' text text' : List Char}
    {c : Char}
    (hSame : front ++ text = front' ++ c :: text')
    (hShort : text'.length < text.length) :
    c ∈ text := by
  rcases List.append_eq_append_iff.mp hSame with
    ⟨middle, _, hText⟩ | ⟨middle, _, hText⟩
  · rw [hText]
    simp
  · cases middle with
    | nil =>
        rw [List.nil_append] at hText
        rw [← hText]
        exact List.mem_cons_self
    | cons d middle =>
        have hLength := congrArg List.length hText
        simp only [List.length_cons,
          List.length_append] at hLength
        omega

/-
  Arguments in a key: an id, or the text of an object, which
  opens with a brace.
-/
def ArgsText (text : List Char) : Prop :=
  text.length = 36 ∨ ∃ rest, text = '{' :: rest

theorem length_of_isUuid
    {text : String}
    (hUuid : isUuid text = true) :
    text.toList.length = 36 := by
  simp only [isUuid, Bool.and_eq_true,
    decide_eq_true_eq] at hUuid
  rw [String.length_toList]
  exact hUuid.1

theorem brace_of_isUuid
    {text : String}
    (hUuid : isUuid text = true) :
    '{' ∉ text.toList := by
  simp only [isUuid, Bool.and_eq_true,
    List.all_eq_true] at hUuid
  intro hMem
  exact absurd (hUuid.2 '{' hMem) (by decide)

/- No id ends a text just behind a colon, but its own. -/
theorem not_colon_near_end
    {userId : String}
    (hUuid : isUuid userId = true)
    {front front' text : List Char}
    (hSame :
      front ++ userId.toList = front' ++ ':' :: text) :
    36 ≤ text.length := by
  by_contra hShort
  have hLength := length_of_isUuid hUuid
  exact
    (isUuid_separators hUuid).1
      (mem_of_append_eq_append_cons hSame (by omega))

/- No text that ends with an id ends inside the names. -/
theorem eq_of_ends_in_names
    {userId : String}
    (hUuid : isUuid userId = true)
    {front tenant' middle rest : List Char}
    (hBegin : front ++ userId.toList = tenant' ++ middle)
    (hMiddle : listsName = middle ++ rest) :
    front ++ userId.toList = tenant' := by
  cases middle with
  | nil => simpa using hBegin
  | cons c middle =>
      have hColon : ':' = c := (List.cons.inj hMiddle).1
      have hLength := length_listsName
      rw [hMiddle, List.length_append,
        List.length_cons] at hLength
      rw [← hColon] at hBegin
      have hLong := not_colon_near_end hUuid hBegin
      omega

/- If it ends in the arguments, these are the id. -/
theorem eq_of_ends_in_args
    {tenant userId : String}
    (hTenant : '{' ∉ tenant.toList)
    (hUuid : isUuid userId = true)
    {tenant' start after : List Char}
    (hBegin :
      (tenant.toList ++ listsName) ++ userId.toList =
        (tenant' ++ listsName) ++ start)
    (hArgs : ArgsText (start ++ after)) :
    tenant' = tenant.toList ∧
      start ++ after = userId.toList := by
  have hLong : 36 ≤ start.length := by
    rcases listsName_ends with ⟨init, hInit⟩
    have hColon :
        (tenant.toList ++ listsName) ++ userId.toList =
          (tenant' ++ init) ++ ':' :: start := by
      rw [hBegin, hInit]
      simp
    exact not_colon_near_end hUuid hColon
  rcases hArgs with hLength | ⟨rest, hOpen⟩
  · rw [List.length_append] at hLength
    have hAfter : after = [] :=
      List.eq_nil_of_length_eq_zero (by omega)
    have hParts :=
      List.append_inj' hBegin
        ((length_of_isUuid hUuid).trans (by omega))
    rw [hAfter, List.append_nil]
    exact
      ⟨(List.append_cancel_right hParts.1).symm,
        hParts.2.symm⟩
  · -- there is no brace in a tenant, the names, or an id
    exfalso
    have hBrace : '{' ∈ start := by
      cases start with
      | nil => simp at hLong
      | cons c start =>
          rw [(List.cons.inj hOpen).1]
          exact List.mem_cons_self
    have hMem := List.mem_append_right
      (tenant' ++ listsName) hBrace
    rw [← hBegin] at hMem
    simp only [List.mem_append] at hMem
    rcases hMem with (hMem | hMem) | hMem
    · exact hTenant hMem
    · exact brace_listsName hMem
    · exact brace_of_isUuid hUuid hMem

/-
  A key begins like the user's if its tenant does so, or if
  its tenant is the same and its argument is the user's id.
-/
theorem begins_iff
    {tenant userId : String}
    (hTenant : '{' ∉ tenant.toList)
    (hUuid : isUuid userId = true)
    {tenant' text : List Char}
    (hText : ArgsText text) :
    tenant.toList ++ (listsName ++ userId.toList) <+:
        tenant' ++ (listsName ++ text) ↔
      tenant.toList ++ (listsName ++ userId.toList) <+:
          tenant' ∨
        tenant' = tenant.toList ∧ text = userId.toList := by
  constructor
  · rintro ⟨after, hSame⟩
    rw [← List.append_assoc tenant.toList] at hSame ⊢
    rcases List.append_eq_append_iff.mp hSame with
      ⟨middle, hTenant', _⟩ | ⟨middle, hBegin, hNames⟩
    · apply Or.inl
      rw [hTenant']
      exact List.prefix_append _ _
    · rcases List.append_eq_append_iff.mp hNames with
        ⟨start, hMiddle, hArgs⟩ | ⟨rest, hMiddle, _⟩
      · apply Or.inr
        rw [hMiddle, ← List.append_assoc] at hBegin
        rw [hArgs] at hText ⊢
        exact
          eq_of_ends_in_args hTenant hUuid hBegin hText
      · apply Or.inl
        rw [eq_of_ends_in_names hUuid hBegin hMiddle]
  · rintro (hInside | ⟨rfl, rfl⟩)
    · exact hInside.trans (List.prefix_append _ _)
    · exact List.prefix_rfl

end OrderApi

------------------------------------------------------------
-- Which Lists are Deleted
------------------------------------------------------------

namespace OrderApi

namespace OrderListRequest

/- A request without parameters, whose key has no object. -/
def Plain (list : OrderListRequest) : Prop :=
  CacheInterceptor.getMethodArguments list.request = none

instance (list : OrderListRequest) : Decidable list.Plain :=
  decidable_of_iff
    ((CacheInterceptor.getMethodArguments
      list.request).isNone = true)
    Option.isNone_iff_eq_none

/- The key of a list: its tenant, the names, and a text. -/
theorem storeKey_cases
    {list : OrderListRequest}
    {key : String}
    (hKey : list.storeKey = some key) :
    ∃ tenant text,
      list.storeTenant? = some tenant ∧
        key.toList = tenant.toList ++ (listsName ++ text) ∧
        (list.Plain ∧ text = list.user.id.toList ∨
          ¬ list.Plain ∧ ∃ rest, text = '{' :: rest) := by
  have hFront :
      ∀ (tenant : String) (text : List Char),
        CacheService.keyFront tenant "OrderController"
            "findAll" ++ ':' :: text =
          tenant.toList ++ (listsName ++ text) := by
    intro tenant text
    simp [CacheService.keyFront, listsName]
  unfold storeKey listKey CacheInterceptor.cacheKey at hKey
  cases hArguments :
      CacheInterceptor.getMethodArguments list.request with
  | none =>
      have hArgs :
          CacheInterceptor.argsKey
              OrderController.findAllCacheable
              list.request =
            .text list.user.id := by
        simp [CacheInterceptor.argsKey,
          OrderController.findAllCacheable, hArguments]
      rw [hArgs] at hKey
      rcases CacheService.key_text hKey with
        ⟨tenant, hTenant, hText⟩
      rw [hFront] at hText
      exact
        ⟨tenant, _, hTenant, hText,
          Or.inl ⟨hArguments, rfl⟩⟩
  | some arguments =>
      have hArgs :
          CacheInterceptor.argsKey
              OrderController.findAllCacheable
              list.request =
            .object
              ((JsObject.empty.set "__userId"
                (.str list.user.id)).spread arguments) := by
        simp [CacheInterceptor.argsKey,
          OrderController.findAllCacheable, hArguments]
      rw [hArgs] at hKey
      rcases CacheService.key_object hKey with
        ⟨tenant, hTenant, hText⟩
      rw [hFront] at hText
      have hNotPlain : ¬ list.Plain := by
        simp [Plain, hArguments]
      exact
        ⟨tenant, _, hTenant, hText,
          Or.inr ⟨hNotPlain, JsVal.json_eq_cons _⟩⟩

/- A key is built of a tenant and nothing that may fail. -/
theorem exists_storeKey
    {list : OrderListRequest}
    {tenant : String}
    (hTenant : list.storeTenant? = some tenant) :
    ∃ key, list.storeKey = some key := by
  have hKey :
      list.storeKey =
        (CacheService.tenantText list.tenantCodeAfter
          none).map fun tenant =>
            tenant ++ ":" ++ "OrderController" ++ ":" ++
              "findAll" ++
                CacheService.argsString
                  (CacheInterceptor.argsKey
                    OrderController.findAllCacheable
                    list.request) :=
    rfl
  unfold storeTenant? at hTenant
  rw [hKey, hTenant]
  exact ⟨_, rfl⟩

/-
  What has to hold of a kept list.  A tenant whose code is
  special in a pattern is read as a pattern.
-/
def Fits (list : OrderListRequest)
    (tenant userId : String) : Prop :=
  if StandsForItself tenant then
    (list.user.id = userId →
      list.storeTenant? = some tenant → list.Plain) ∧
    (list.user.id ≠ userId →
      ∀ other, list.storeTenant? = some other →
        ¬ (userKeysStart tenant userId).toList <+:
          other.toList)
  else
    ∀ key, list.storeKey = some key →
      (list.user.id = userId →
        list.storeTenant? = some tenant →
        globMatches (userKeysStart tenant userId ++ "*")
          key = true) ∧
      (list.user.id ≠ userId →
        globMatches (userKeysStart tenant userId ++ "*")
          key = false)

/- What the deletion takes, by the tenant and the query. -/
theorem deletesUserKey_storeKey
    {list : OrderListRequest}
    {tenant userId other key : String}
    (hTenant : StandsForItself tenant)
    (hUuid : isUuid userId = true)
    (hKey : list.storeKey = some key)
    (hOther : list.storeTenant? = some other)
    (tenantCode : Option JsVal) :
    deletesUserKey tenantCode tenant userId key = true ↔
      (userKeysStart tenant userId).toList <+:
          other.toList ∨
        other = tenant ∧ list.user.id = userId ∧
          list.Plain := by
  rcases storeKey_cases hKey with
    ⟨tenant', text, hTenant', hChars, hText⟩
  have hSame : tenant' = other :=
    Option.some.inj (hTenant'.symm.trans hOther)
  have hArgs : ArgsText text := by
    rcases hText with ⟨_, rfl⟩ | ⟨_, hOpen⟩
    · exact Or.inl (length_of_isUuid list.hasUuid)
    · exact Or.inr hOpen
  have hOwn :
      text = userId.toList ↔
        list.user.id = userId ∧ list.Plain := by
    rcases hText with ⟨hPlain, rfl⟩ | ⟨hNot, rest, rfl⟩
    · rw [String.toList_inj]
      exact (and_iff_left hPlain).symm
    · constructor
      · intro hId
        have hBrace := brace_of_isUuid hUuid
        rw [← hId] at hBrace
        exact absurd List.mem_cons_self hBrace
      · intro hPlain
        exact absurd hPlain.2 hNot
  rw [deletesUserKey_iff hTenant hUuid, hChars, hSame,
    begins_iff hTenant.2 hUuid hArgs, hOwn,
    userKeysStart_toList, String.toList_inj]

/- One kept list is treated as it should be iff it fits. -/
theorem fits_iff
    (list : OrderListRequest)
    {userId : String}
    (hUuid : isUuid userId = true)
    (tenantCode : Option JsVal)
    (tenant : String) :
    (∀ key, list.storeKey = some key →
      (list.user.id = userId →
        list.storeTenant? = some tenant →
        deletesUserKey tenantCode tenant userId key =
          true) ∧
      (list.user.id ≠ userId →
        deletesUserKey tenantCode tenant userId key =
          false)) ↔
      list.Fits tenant userId := by
  unfold Fits
  by_cases hTenant : StandsForItself tenant
  · rw [if_pos hTenant]
    have hShort :
        ¬ (userKeysStart tenant userId).toList <+:
          tenant.toList := by
      intro hBegins
      have hLength := hBegins.length_le
      rw [userKeysStart_toList, List.length_append,
        List.length_append, length_of_isUuid hUuid]
        at hLength
      omega
    constructor
    · intro hDeleted
      refine ⟨?_, ?_⟩
      · intro hOwn hIn
        rcases exists_storeKey hIn with ⟨key, hKey⟩
        have hKeyDeleted := (hDeleted key hKey).1 hOwn hIn
        rw [deletesUserKey_storeKey hTenant hUuid hKey
          hIn] at hKeyDeleted
        exact (hKeyDeleted.resolve_left hShort).2.2
      · intro hForeign other hOther hBegins
        rcases exists_storeKey hOther with ⟨key, hKey⟩
        have hKeyKept := (hDeleted key hKey).2 hForeign
        have hKeyDeleted :=
          (deletesUserKey_storeKey hTenant hUuid hKey hOther
            tenantCode).mpr (Or.inl hBegins)
        rw [hKeyKept] at hKeyDeleted
        cases hKeyDeleted
    · rintro ⟨hPlain, hApart⟩ key hKey
      refine ⟨?_, ?_⟩
      · intro hOwn hIn
        rw [deletesUserKey_storeKey hTenant hUuid hKey hIn]
        exact Or.inr ⟨rfl, hOwn, hPlain hOwn hIn⟩
      · intro hForeign
        rcases storeKey_cases hKey with
          ⟨other, _, hOther, _, _⟩
        rw [← Bool.not_eq_true,
          deletesUserKey_storeKey hTenant hUuid hKey hOther]
        rintro (hBegins | ⟨_, hOwn, _⟩)
        · exact hApart hForeign other hOther hBegins
        · exact hForeign hOwn
  · rw [if_neg hTenant]
    simp only [deletesUserKey_eq]

end OrderListRequest

/-
  The lists of a user, and no others, are deleted iff each
  kept list fits: those of the user were kept for requests
  without parameters, and those of others under no tenant
  that begins like the deleted keys.
-/
theorem deletesUserLists_iff
    {userId : String}
    (hUuid : isUuid userId = true)
    (tenantCode : Option JsVal)
    (tenant : String)
    (stored : List KeptList) :
    DeletesUserLists tenantCode tenant userId stored ↔
      ∀ kept ∈ stored, kept.1.Fits tenant userId := by
  apply forall₂_congr
  intro kept hMem
  rw [← kept.1.fits_iff hUuid tenantCode]
  apply forall₂_congr
  intro key hKey
  rw [deleteUserLists_eq_none hMem hKey,
    deleteUserLists_eq_self hMem hKey]

namespace Listing

/- An empty page. -/
def noOrders : Page TenantOrder :=
  OrderService.paginate [] 1 10

/- Alice asks without a query, and bob for page 1. -/
def keptLists : List KeptList :=
  [(⟨alice, askAlice.hasUuid, JsObject.empty⟩, noOrders),
    (askBob, noOrders)]

end Listing

/- Alice's only list was kept without parameters. -/
theorem deletesUserLists_iff_of_listing :
    DeletesUserLists none "default" Listing.alice.id
      Listing.keptLists := by
  have hTenant : StandsForItself "default" := by
    decide +kernel
  apply
    (deletesUserLists_iff Listing.askAlice.hasUuid none
      "default" Listing.keptLists).mpr
  intro kept hMem
  unfold OrderListRequest.Fits
  rw [if_pos hTenant]
  rcases List.mem_cons.mp hMem with rfl | hMem
  · refine ⟨?_, ?_⟩
    · intro _ _
      decide
    · intro hForeign
      exact (hForeign rfl).elim
  · rw [List.mem_singleton.mp hMem]
    have hForeign : Listing.bob.id ≠ Listing.alice.id := by
      decide
    have hBob :
        Listing.askBob.storeTenant? = some "default" := by
      decide
    refine ⟨?_, ?_⟩
    · intro hOwn
      exact (hForeign hOwn).elim
    · intro _ other hOther
      rw [hBob] at hOther
      cases hOther
      decide +kernel

/- Alice's page 1 is left behind. -/
theorem not_deletesUserLists :
    ¬ ∀ (tenantCode : Option JsVal) (tenant userId : String)
        (stored : List KeptList),
      isUuid userId = true →
      DeletesUserLists tenantCode tenant userId stored := by
  intro hAlways
  have hDeletes :=
    hAlways none "default" Listing.alice.id
      [(Listing.askAlice, Listing.noOrders)]
      Listing.askAlice.hasUuid
  have hIn :
      Listing.askAlice.storeTenant? = some "default" := by
    decide
  rcases OrderListRequest.exists_storeKey hIn with
    ⟨key, hKey⟩
  have hUuid : isUuid Listing.alice.id = true :=
    Listing.askAlice.hasUuid
  have hMem :
      (Listing.askAlice, Listing.noOrders) ∈
        [(Listing.askAlice, Listing.noOrders)] :=
    List.mem_singleton_self _
  have hDeleted := (hDeletes _ hMem key hKey).1 rfl hIn
  rw [deleteUserLists_eq_none hMem hKey,
    OrderListRequest.deletesUserKey_storeKey (by decide)
      hUuid hKey hIn] at hDeleted
  rcases hDeleted with hBegins | ⟨_, _, hPlain⟩
  · exact absurd hBegins.length_le (by decide +kernel)
  · exact absurd hPlain (by decide)

end OrderApi
