import Intake.Dict
import Mathlib.Data.Finset.Card

/-!
# Dictionaries and histories of writes

A list of entries can be read as a history: each entry is a write, and a later write at a key takes
the place of an earlier one.  `Dict.ofList` makes a dictionary of a history, and setting a value is
one more write, `Dict.insert_ofList`, so whatever is built up from entries is the dictionary of the
whole history.

All that a dictionary tells about its history is the last write at each key.  Its value at a key is
that write, its keys are the keys that were written, and its entries are the last writes in the
order of the keys.  Two histories with the same last writes therefore make one and the same
dictionary, `Dict.ofList_congr`.
-/

namespace Intake

variable {α : Type}

/-! ## Last writes -/

/-- What a history last wrote at a key. -/
def lastWrite (writes : List (String × α)) (k : String) : Option α := writes.reverse.lookup k

/-- The history writes the value at the key, and nothing at that key later. -/
def IsLastWrite (writes : List (String × α)) (k : String) (v : α) : Prop :=
  ∃ earlier later, writes = earlier ++ (k, v) :: later ∧ k ∉ keysOf later

theorem lastWrite_eq_some_iff {writes : List (String × α)} {k : String} {v : α} :
    lastWrite writes k = some v ↔ IsLastWrite writes k v := by
  rw [lastWrite, List.lookup_eq_some_iff]
  constructor
  · rintro ⟨later, earlier, hsplit, hlater⟩
    refine ⟨earlier.reverse, later.reverse, by simpa using congrArg List.reverse hsplit, ?_⟩
    rintro hk
    obtain ⟨entry, hentry, rfl⟩ := List.mem_map.1 hk
    exact bne_iff_ne.1 (hlater entry (List.mem_reverse.1 hentry)) rfl
  · rintro ⟨earlier, later, rfl, hlater⟩
    refine ⟨later.reverse, earlier.reverse, by simp, fun entry hentry => bne_iff_ne.2 ?_⟩
    rintro rfl
    exact hlater (List.mem_map.2 ⟨entry, List.mem_reverse.1 hentry, rfl⟩)

@[simp] theorem lastWrite_eq_none_iff {writes : List (String × α)} {k : String} :
    lastWrite writes k = none ↔ k ∉ keysOf writes := by
  rw [lastWrite, List.lookup_eq_none_iff]
  constructor
  · rintro h hk
    obtain ⟨entry, hentry, rfl⟩ := List.mem_map.1 hk
    exact bne_iff_ne.1 (h entry (List.mem_reverse.2 hentry)) rfl
  · intro h entry hentry
    refine bne_iff_ne.2 ?_
    rintro rfl
    exact h (List.mem_map.2 ⟨entry, List.mem_reverse.1 hentry, rfl⟩)

/-! ## All writes at a key -/

/-- All that a history writes at a key, from the first to the last. -/
def writesAt (writes : List (String × α)) (k : String) : List α :=
  writes.filterMap fun entry => if k == entry.1 then some entry.2 else none

@[simp] theorem writesAt_cons_self (k : String) (v : α) (writes : List (String × α)) :
    writesAt ((k, v) :: writes) k = v :: writesAt writes k := by
  simp [writesAt]

theorem writesAt_cons_of_ne {k : String} {entry : String × α} (h : entry.1 ≠ k)
    (writes : List (String × α)) : writesAt (entry :: writes) k = writesAt writes k := by
  simp [writesAt, h.symm]

@[simp] theorem head?_writesAt (writes : List (String × α)) (k : String) :
    (writesAt writes k).head? = writes.lookup k := by
  rw [writesAt, List.head?_filterMap, List.lookup_eq_findSome?]

@[simp] theorem getLast?_writesAt (writes : List (String × α)) (k : String) :
    (writesAt writes k).getLast? = lastWrite writes k := by
  rw [lastWrite, ← head?_writesAt, writesAt, writesAt, List.filterMap_reverse,
    List.head?_reverse]

/-- A key has as many writes as it stands in the list of the keys. -/
@[simp] theorem length_writesAt (writes : List (String × α)) (k : String) :
    (writesAt writes k).length = (keysOf writes).count k := by
  induction writes with
  | nil => rfl
  | cons entry writes ih =>
    obtain ⟨key, v⟩ := entry
    have hkeys : keysOf ((key, v) :: writes) = key :: keysOf writes := rfl
    by_cases h : key = k
    · rw [h] at hkeys ⊢
      rw [hkeys, writesAt_cons_self, List.length_cons, ih, List.count_cons_self]
    · rw [hkeys, writesAt_cons_of_ne h, ih, List.count_cons_of_ne h]

/-- A key has just one write if that is the last one and there are no others. -/
theorem writesAt_eq_singleton_iff {writes : List (String × α)} {k : String} {v : α} :
    writesAt writes k = [v] ↔ lastWrite writes k = some v ∧ (keysOf writes).count k ≤ 1 := by
  rw [← getLast?_writesAt, ← length_writesAt]
  constructor
  · intro h
    rw [h]
    exact ⟨rfl, Nat.le_refl 1⟩
  · rintro ⟨hlast, hlength⟩
    obtain ⟨front, hfront⟩ := List.getLast?_eq_some_iff.1 hlast
    rw [hfront, List.length_append, List.length_singleton] at hlength
    rw [hfront, List.eq_nil_of_length_eq_zero (Nat.le_zero.1 (Nat.le_of_succ_le_succ hlength)),
      List.nil_append]

/-! ## Ascending entries -/

/-- Entries in ascending order are looked up by their membership. -/
theorem lookup_eq_some_iff_of_ascending {entries : List (String × α)}
    (h : (keysOf entries).Pairwise (· < ·)) {k : String} {v : α} :
    entries.lookup k = some v ↔ (k, v) ∈ entries := by
  induction entries with
  | nil => simp
  | cons entry rest ih =>
    obtain ⟨below, tail⟩ := List.pairwise_cons.1 h
    rw [lookup_entry, List.mem_cons]
    by_cases hk : k = entry.1
    · have hrest : (k, v) ∉ rest := fun hmem =>
        String.lt_irrefl k (hk ▸ below k (List.mem_map.2 ⟨_, hmem, rfl⟩))
      rw [if_pos hk, or_iff_left hrest, Option.some_inj]
      exact ⟨fun hv => Prod.ext hk hv.symm, fun hentry => (congrArg Prod.snd hentry).symm⟩
    · rw [if_neg hk, ih tail, or_iff_right]
      exact fun hentry => hk (congrArg Prod.fst hentry)

namespace Dict

@[simp] theorem mem_entries_iff {d : Dict α} {k : String} {v : α} :
    (k, v) ∈ d.entries ↔ d.get? k = some v :=
  (lookup_eq_some_iff_of_ascending d.ascending_entries).symm

theorem pairwise_entries (d : Dict α) : d.entries.Pairwise fun a b => a.1 < b.1 :=
  List.pairwise_map.1 d.ascending_entries

theorem nodup_entries (d : Dict α) : d.entries.Nodup := by
  refine d.pairwise_entries.imp ?_
  rintro a _ hlt rfl
  exact String.lt_irrefl a.1 hlt

theorem nodup_keys (d : Dict α) : d.keys.toList.Nodup := by
  refine d.keys.ascending.imp ?_
  rintro k _ hlt rfl
  exact String.lt_irrefl k hlt

/-- A key is in a dictionary exactly if there is something at it. -/
@[simp] theorem mem_keys_iff {d : Dict α} {k : String} :
    k ∈ d.keys.toList ↔ (d.get? k).isSome = true := by
  rw [← keysOf_entries, keysOf, List.mem_map, Option.isSome_iff_exists]
  constructor
  · rintro ⟨entry, hentry, rfl⟩
    exact ⟨entry.2, mem_entries_iff.1 hentry⟩
  · rintro ⟨v, hv⟩
    exact ⟨(k, v), mem_entries_iff.2 hv, rfl⟩

theorem get?_get (d : Dict α) (i : Fin d.keys.toList.length) :
    d.get? (d.keys.toList.get i) = some (d.value i) :=
  mem_entries_iff.1 (List.mem_of_getElem? (getElem?_entries d i))

/-- Dictionaries with something at the same keys have the same key set. -/
theorem keys_congr {β : Type} {d : Dict α} {e : Dict β}
    (h : ∀ k, (d.get? k).isSome = (e.get? k).isSome) : d.keys = e.keys := by
  have hperm : d.keys.toList.Perm e.keys.toList := by
    refine (List.perm_ext_iff_of_nodup d.nodup_keys e.nodup_keys).2 fun k => ?_
    rw [mem_keys_iff, mem_keys_iff, h]
  have hlist := hperm.eq_of_pairwise (fun _ _ _ _ hab hba => absurd hba (String.lt_asymm hab))
    d.keys.ascending e.keys.ascending
  obtain ⟨⟨keys, _⟩, _⟩ := d
  obtain ⟨⟨keys', _⟩, _⟩ := e
  obtain rfl : keys = keys' := hlist
  rfl

@[simp] theorem contains_iff {d : Dict α} {k : String} :
    d.contains k = true ↔ (d.get? k).isSome = true := by
  rw [contains, List.contains_iff_mem, mem_keys_iff]

@[simp] theorem isEmpty_iff {d : Dict α} : d.isEmpty = true ↔ d.size = 0 := beq_iff_eq

/-- A dictionary is given by its values at all keys. -/
theorem ext_get? {d e : Dict α} (h : ∀ k, d.get? k = e.get? k) : d = e := by
  refine ext_entries (List.Perm.eq_of_pairwise ?_ d.pairwise_entries e.pairwise_entries ?_)
  · intro a b _ _ hab hba
    exact absurd hba (String.lt_asymm hab)
  · refine (List.perm_ext_iff_of_nodup d.nodup_entries e.nodup_entries).2 fun entry => ?_
    rw [mem_entries_iff, mem_entries_iff, h]

/-! ## Histories -/

/-- Setting a value is one more write. -/
@[simp] theorem insert_ofList (writes : List (String × α)) (key : String) (value : α) :
    (ofList writes).insert key value = ofList (writes ++ [(key, value)]) := by
  apply ext_entries
  rw [entries_insert, entries_ofList, entries_ofList, ascendingEntries, ascendingEntries,
    List.foldl_append]
  rfl

theorem get?_ofList_eq_lastWrite (writes : List (String × α)) (k : String) :
    (ofList writes).get? k = lastWrite writes k := get?_ofList writes k

/-- The entries of a dictionary are a history that writes each key once. -/
theorem writesAt_entries_eq_singleton_iff {d : Dict α} {k : String} {v : α} :
    writesAt d.entries k = [v] ↔ d.get? k = some v := by
  have hcount : (keysOf d.entries).count k ≤ 1 :=
    List.nodup_iff_count_le_one.1 (d.ascending_entries.imp String.ne_of_lt) k
  rw [writesAt_eq_singleton_iff, and_iff_left hcount, ← get?_ofList_eq_lastWrite, ofList_entries]

/-- Histories with the same last writes make the same dictionary. -/
theorem ofList_congr {writes writes' : List (String × α)}
    (h : ∀ k, lastWrite writes k = lastWrite writes' k) : ofList writes = ofList writes' :=
  ext_get? fun k => by rw [get?_ofList_eq_lastWrite, get?_ofList_eq_lastWrite, h]

theorem mem_keys_ofList_iff {writes : List (String × α)} {k : String} :
    k ∈ (ofList writes).keys.toList ↔ k ∈ keysOf writes := by
  rw [mem_keys_iff, get?_ofList_eq_lastWrite, Option.isSome_iff_ne_none, ne_eq,
    lastWrite_eq_none_iff, not_not]

/-- A dictionary is as large as the set of the keys that were written. -/
theorem size_ofList (writes : List (String × α)) :
    (ofList writes).size = (keysOf writes).toFinset.card := by
  have hkeys : (ofList writes).keys.toList.toFinset = (keysOf writes).toFinset := by
    ext k
    rw [List.mem_toFinset, List.mem_toFinset, mem_keys_ofList_iff]
  rw [← hkeys, List.toFinset_card_of_nodup (nodup_keys _)]
  rfl

end Dict

end Intake
