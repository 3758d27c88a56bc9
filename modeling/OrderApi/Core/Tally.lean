import Mathlib.Algebra.BigOperators.Group.List.Basic
import Mathlib.Algebra.Ring.Int.Defs
import Mathlib.Data.List.Induction

/-
  Tallies: lists with one entry for each key.

  An entry that is added to a tally is merged into the entry
  of its key by adding up amounts, and the earlier entry's
  tag is kept.  An entry under a new key goes to the end.

  Key definitions include:
    * `Entry`
    * `Tally.add`
    * `tally`

  Key theorems include:
    * `mem_keys_tally`
    * `nodup_keys_tally`
    * `amount_of_mem_tally`
    * `tag_of_mem_tally`
    * `worthOf_tally`
-/

------------------------------------------------------------
-- Tallies
------------------------------------------------------------

namespace OrderApi

/- An amount under a key, with a tag. -/
structure Entry (κ τ : Type) where
  key : κ
  amount : Int
  tag : τ
deriving DecidableEq, Repr

variable {κ τ : Type} [DecidableEq κ]

/- Raise the amount of the entry under a key. -/
def Entry.raise
    (key : κ)
    (amount : Int)
    (entry : Entry κ τ) : Entry κ τ :=
  if entry.key = key then
    { entry with amount := entry.amount + amount }
  else
    entry

/- Merge an entry into a tally, or add it at the end. -/
def Tally.add
    (entries : List (Entry κ τ))
    (entry : Entry κ τ) : List (Entry κ τ) :=
  if entry.key ∈ entries.map Entry.key then
    entries.map (Entry.raise entry.key entry.amount)
  else
    entries ++ [entry]

/- The tally of entries that are added in order. -/
def tally (entries : List (Entry κ τ)) :
    List (Entry κ τ) :=
  entries.foldl Tally.add []

end OrderApi

------------------------------------------------------------
-- What an Addition Does
------------------------------------------------------------

namespace OrderApi

variable {κ τ : Type} [DecidableEq κ]
variable {entries : List (Entry κ τ)} {entry found : Entry κ τ}

@[simp] theorem Entry.key_raise
    (key : κ)
    (amount : Int)
    (entry : Entry κ τ) :
    (entry.raise key amount).key = entry.key := by
  unfold raise
  split <;> rfl

@[simp] theorem Entry.tag_raise
    (key : κ)
    (amount : Int)
    (entry : Entry κ τ) :
    (entry.raise key amount).tag = entry.tag := by
  unfold raise
  split <;> rfl

namespace Tally

/- The keys stay in place, and a new one comes last. -/
theorem keys_add :
    (add entries entry).map Entry.key =
      if entry.key ∈ entries.map Entry.key then
        entries.map Entry.key
      else
        entries.map Entry.key ++ [entry.key] := by
  unfold add
  split
  · rw [List.map_map]
    apply List.map_congr_left
    intro found _
    exact found.key_raise entry.key entry.amount
  · simp

theorem mem_keys_add
    {key : κ} :
    key ∈ (add entries entry).map Entry.key ↔
      key ∈ entries.map Entry.key ∨ key = entry.key := by
  rw [keys_add]
  split
  · rename_i hKnown
    constructor
    · exact Or.inl
    · rintro (hOld | rfl)
      · exact hOld
      · exact hKnown
  · rw [List.mem_append, List.mem_singleton]

theorem nodup_keys_add
    (hNodup : (entries.map Entry.key).Nodup) :
    ((add entries entry).map Entry.key).Nodup := by
  rw [keys_add]
  split
  · exact hNodup
  · rename_i hNew
    rw [List.nodup_append]
    refine ⟨hNodup, List.pairwise_singleton _ _, ?_⟩
    intro key hKey other hOther hSame
    rw [List.mem_singleton.mp hOther] at hSame
    exact hNew (hSame ▸ hKey)

/- An entry under another key was there before. -/
theorem mem_of_mem_add
    (hFound : found ∈ add entries entry)
    (hKey : found.key ≠ entry.key) :
    found ∈ entries := by
  unfold add at hFound
  split at hFound
  · rcases List.mem_map.mp hFound with ⟨old, hOld, rfl⟩
    rw [Entry.key_raise] at hKey
    rwa [Entry.raise, if_neg hKey]
  · rcases List.mem_append.mp hFound with hOld | hNew
    · exact hOld
    · rw [List.mem_singleton.mp hNew] at hKey
      exact (hKey rfl).elim

/- The entry under the key was raised, or is new. -/
theorem mem_add_cases
    (hFound : found ∈ add entries entry)
    (hKey : found.key = entry.key) :
    (∃ old ∈ entries,
      old.key = entry.key ∧
        found.amount = old.amount + entry.amount ∧
        found.tag = old.tag) ∨
      (entry.key ∉ entries.map Entry.key ∧
        found = entry) := by
  unfold add at hFound
  split at hFound
  · rcases List.mem_map.mp hFound with ⟨old, hOld, rfl⟩
    rw [Entry.key_raise] at hKey
    refine Or.inl ⟨old, hOld, hKey, ?_, ?_⟩
    · rw [Entry.raise, if_pos hKey]
    · exact old.tag_raise entry.key entry.amount
  · rename_i hNew
    refine Or.inr ⟨hNew, ?_⟩
    rcases List.mem_append.mp hFound with hOld | hHere
    · rw [← hKey] at hNew
      exact (hNew (List.mem_map_of_mem hOld)).elim
    · exact List.mem_singleton.mp hHere

end Tally

end OrderApi

------------------------------------------------------------
-- What Is in a Tally
------------------------------------------------------------

namespace OrderApi

variable {κ τ : Type} [DecidableEq κ]
variable {entries : List (Entry κ τ)} {entry found : Entry κ τ}

theorem tally_append :
    tally (entries ++ [entry]) =
      Tally.add (tally entries) entry := by
  simp [tally, List.foldl_append]

/- A tally has the keys of its entries. -/
theorem mem_keys_tally
    {key : κ} :
    key ∈ (tally entries).map Entry.key ↔
      key ∈ entries.map Entry.key := by
  induction entries using List.reverseRecOn with
  | nil => exact Iff.rfl
  | append_singleton entries entry ih =>
      rw [tally_append, Tally.mem_keys_add, ih,
        List.map_append, List.mem_append]
      simp

/- It has each key once. -/
theorem nodup_keys_tally :
    ((tally entries).map Entry.key).Nodup := by
  induction entries using List.reverseRecOn with
  | nil => exact List.nodup_nil
  | append_singleton entries entry ih =>
      rw [tally_append]
      exact Tally.nodup_keys_add ih

/- Its amounts are the sums of the amounts under a key. -/
theorem amount_of_mem_tally
    (hFound : found ∈ tally entries) :
    found.amount =
      ((entries.filter fun entry =>
        entry.key = found.key).map Entry.amount).sum := by
  induction entries using List.reverseRecOn
      generalizing found with
  | nil => cases hFound
  | append_singleton entries entry ih =>
      rw [tally_append] at hFound
      rw [List.filter_append, List.map_append,
        List.sum_append]
      by_cases hKey : found.key = entry.key
      · rcases Tally.mem_add_cases hFound hKey with
          ⟨old, hOld, hOldKey, hAmount, _⟩ | ⟨hNew, rfl⟩
        · have hBefore := ih hOld
          rw [hOldKey, ← hKey] at hBefore
          rw [hAmount, hBefore]
          simp [hKey]
        · have hNone :
              (entries.filter fun other =>
                other.key = found.key) = [] := by
            rw [List.filter_eq_nil_iff]
            intro other hOther hSame
            apply hNew
            rw [mem_keys_tally,
              ← of_decide_eq_true hSame]
            exact List.mem_map_of_mem hOther
          simp [hNone]
      · have hBefore :=
          ih (Tally.mem_of_mem_add hFound hKey)
        rw [hBefore]
        simp [Ne.symm hKey]

/- Its tags are those of the first entries under a key. -/
theorem tag_of_mem_tally
    (hFound : found ∈ tally entries) :
    (entries.find? fun entry =>
      entry.key = found.key).map Entry.tag =
        some found.tag := by
  induction entries using List.reverseRecOn
      generalizing found with
  | nil => cases hFound
  | append_singleton entries entry ih =>
      rw [tally_append] at hFound
      rw [List.find?_append]
      by_cases hKey : found.key = entry.key
      · rcases Tally.mem_add_cases hFound hKey with
          ⟨old, hOld, hOldKey, _, hTag⟩ | ⟨hNew, rfl⟩
        · have hBefore := ih hOld
          rw [hOldKey, ← hKey, ← hTag] at hBefore
          rcases Option.map_eq_some_iff.mp hBefore with
            ⟨first, hFirst, hFirstTag⟩
          rw [hFirst]
          simp [hFirstTag]
        · have hNone :
              (entries.find? fun other =>
                other.key = found.key) = none := by
            rw [List.find?_eq_none]
            intro other hOther hSame
            apply hNew
            rw [mem_keys_tally,
              ← of_decide_eq_true hSame]
            exact List.mem_map_of_mem hOther
          simp [hNone]
      · have hBefore :=
          ih (Tally.mem_of_mem_add hFound hKey)
        rcases Option.map_eq_some_iff.mp hBefore with
          ⟨first, hFirst, hFirstTag⟩
        rw [hFirst]
        simp [hFirstTag]

end OrderApi

------------------------------------------------------------
-- What a Tally Is Worth
------------------------------------------------------------

namespace OrderApi

variable {κ τ : Type} [DecidableEq κ]
variable {entries : List (Entry κ τ)} {entry : Entry κ τ}

/- What entries are worth, at a price by key and tag. -/
def worthOf
    (price : κ → τ → Int)
    (entries : List (Entry κ τ)) : Int :=
  (entries.map fun entry =>
    price entry.key entry.tag * entry.amount).sum

omit [DecidableEq κ] in
theorem worthOf_append
    (price : κ → τ → Int)
    (entries : List (Entry κ τ))
    (entry : Entry κ τ) :
    worthOf price (entries ++ [entry]) =
      worthOf price entries +
        price entry.key entry.tag * entry.amount := by
  simp [worthOf]

omit [DecidableEq κ] in
theorem worthOf_cons
    (price : κ → τ → Int)
    (entry : Entry κ τ)
    (entries : List (Entry κ τ)) :
    worthOf price (entry :: entries) =
      price entry.key entry.tag * entry.amount +
        worthOf price entries := by
  simp [worthOf]

/- At the price of one key, its amounts are summed up. -/
theorem worthOf_key
    (key : κ)
    (entries : List (Entry κ τ)) :
    worthOf (fun key' _ => if key' = key then 1 else 0)
        entries =
      ((entries.filter fun entry =>
        entry.key = key).map Entry.amount).sum := by
  induction entries with
  | nil => rfl
  | cons entry entries ih =>
      rw [worthOf_cons, ih]
      by_cases hKey : entry.key = key
      · simp [hKey]
      · simp [hKey]

namespace Tally

/- Other entries are not raised. -/
theorem map_raise_of_not_mem
    {key : κ}
    {amount : Int}
    (hKey : key ∉ entries.map Entry.key) :
    entries.map (Entry.raise key amount) = entries := by
  have hSame :
      ∀ found ∈ entries, found.raise key amount = found := by
    intro found hFound
    have hOther : found.key ≠ key := by
      rintro rfl
      exact hKey (List.mem_map_of_mem hFound)
    rw [Entry.raise, if_neg hOther]
  rw [List.map_congr_left hSame, List.map_id']

/- The one entry of a key is raised. -/
theorem worthOf_raise
    (price : κ → τ → Int)
    (hNodup : (entries.map Entry.key).Nodup)
    (hKnown : entry.key ∈ entries.map Entry.key)
    (hTag :
      ∀ found ∈ entries,
        found.key = entry.key → found.tag = entry.tag) :
    worthOf price
        (entries.map (Entry.raise entry.key entry.amount)) =
      worthOf price entries +
        price entry.key entry.tag * entry.amount := by
  induction entries with
  | nil => cases hKnown
  | cons head entries ih =>
      rw [List.map_cons, List.nodup_cons] at hNodup
      rcases List.forall_mem_cons.mp hTag with
        ⟨hHead, hRest⟩
      rw [List.map_cons, worthOf_cons, worthOf_cons]
      by_cases hKey : head.key = entry.key
      · have hNone :
            entry.key ∉ entries.map Entry.key := by
          rw [← hKey]
          exact hNodup.1
        have hMore :
            price head.key head.tag * (head.amount + entry.amount) =
              price head.key head.tag * head.amount +
                price entry.key entry.tag * entry.amount := by
          rw [Int.mul_add, hHead hKey, hKey]
        rw [map_raise_of_not_mem hNone, Entry.raise,
          if_pos hKey, hMore]
        omega
      · have hBelow :
            entry.key ∈ entries.map Entry.key := by
          rw [List.map_cons, List.mem_cons] at hKnown
          exact hKnown.resolve_left (Ne.symm hKey)
        rw [ih hNodup.2 hBelow hRest, Entry.raise,
          if_neg hKey]
        omega

theorem worthOf_add
    (price : κ → τ → Int)
    (hNodup : (entries.map Entry.key).Nodup)
    (hTag :
      ∀ found ∈ entries,
        found.key = entry.key → found.tag = entry.tag) :
    worthOf price (add entries entry) =
      worthOf price entries +
        price entry.key entry.tag * entry.amount := by
  unfold add
  split
  · rename_i hKnown
    exact worthOf_raise price hNodup hKnown hTag
  · exact worthOf_append price entries entry

end Tally

/- A tally is worth its entries, if keys have one tag. -/
theorem worthOf_tally
    (price : κ → τ → Int)
    (hTags :
      ∀ entry ∈ entries, ∀ found ∈ entries,
        found.key = entry.key → found.tag = entry.tag) :
    worthOf price (tally entries) =
      worthOf price entries := by
  induction entries using List.reverseRecOn with
  | nil => rfl
  | append_singleton entries entry ih =>
      have hBefore :
          ∀ entry ∈ entries, ∀ found ∈ entries,
            found.key = entry.key →
              found.tag = entry.tag := by
        intro one hOne other hOther
        exact
          hTags one (List.mem_append_left _ hOne) other
            (List.mem_append_left _ hOther)
      have hTag :
          ∀ found ∈ tally entries,
            found.key = entry.key →
              found.tag = entry.tag := by
        intro found hFound hKey
        rcases
            Option.map_eq_some_iff.mp
              (tag_of_mem_tally hFound) with
          ⟨first, hFirst, hFirstTag⟩
        have hMem := List.mem_of_find?_eq_some hFirst
        have hFirstKey : first.key = found.key := by
          simpa using List.find?_some hFirst
        rw [← hFirstTag]
        exact
          hTags entry (by simp) first
            (List.mem_append_left _ hMem)
            (hFirstKey.trans hKey)
      rw [tally_append,
        Tally.worthOf_add price nodup_keys_tally hTag,
        ih hBefore, worthOf_append]

end OrderApi
