/-!
# Finite maps with ascending keys

A dictionary is a strictly ascending list of keys and a value at each of its positions.  Holding
the keys apart from the values keeps the order of the keys a fact about strings alone, so a type
may nest dictionaries of itself and still carry the order in its values: there is no dictionary
with a repeated key or with its keys in another order, and two dictionaries with the same entries
are equal.

The view of a dictionary is its list of entries.  Everything is built from a list of entries by
`ofList`, in which a later entry wins over an earlier one with the same key.
-/

namespace Intake

/-! ## Key sets -/

/-- A finite set of strings, as the list of its members in ascending order. -/
structure KeySet where
  toList : List String
  ascending : toList.Pairwise (· < ·)
  deriving DecidableEq

/-- The number of members. -/
def KeySet.size (keys : KeySet) : Nat := keys.toList.length

/-! ## Ascending entries -/

section Entries

variable {α : Type}

/-- The keys of a list of entries. -/
def keysOf (entries : List (String × α)) : List String := entries.map Prod.fst

/-- Puts one entry at its place among ascending entries, over an entry with the same key. -/
def insertEntry (key : String) (value : α) : List (String × α) → List (String × α)
  | [] => [(key, value)]
  | (k, v) :: rest =>
    if key < k then (key, value) :: (k, v) :: rest
    else if key = k then (key, value) :: rest
    else (k, v) :: insertEntry key value rest

@[simp] theorem mem_keysOf_insertEntry {key : String} {value : α} {entries : List (String × α)}
    {k : String} : k ∈ keysOf (insertEntry key value entries) ↔ k = key ∨ k ∈ keysOf entries := by
  induction entries with
  | nil => simp [insertEntry, keysOf]
  | cons entry rest ih =>
    simp only [insertEntry]
    split
    · simp [keysOf]
    · split
      · next h => subst h; simp [keysOf]
      · simp only [keysOf, List.map_cons, List.mem_cons] at ih ⊢
        rw [ih]
        exact or_left_comm

theorem mem_insertEntry {α : Type} {key : String} {value : α} {entries : List (String × α)}
    {entry : String × α} (h : entry ∈ insertEntry key value entries) :
    entry = (key, value) ∨ entry ∈ entries := by
  induction entries with
  | nil => exact Or.inl (List.mem_singleton.1 h)
  | cons first rest ih =>
    simp only [insertEntry] at h
    split at h
    · rcases List.mem_cons.1 h with h | h
      · exact Or.inl h
      · exact Or.inr h
    · split at h
      · rcases List.mem_cons.1 h with h | h
        · exact Or.inl h
        · exact Or.inr (List.mem_cons_of_mem first h)
      · rcases List.mem_cons.1 h with h | h
        · exact Or.inr (List.mem_cons.2 (Or.inl h))
        · exact (ih h).imp id (List.mem_cons_of_mem first)

theorem ascending_insertEntry {key : String} {value : α} {entries : List (String × α)}
    (h : (keysOf entries).Pairwise (· < ·)) :
    (keysOf (insertEntry key value entries)).Pairwise (· < ·) := by
  induction entries with
  | nil => exact List.pairwise_singleton _ _
  | cons entry rest ih =>
    have ⟨below, tail⟩ := List.pairwise_cons.1 h
    simp only [insertEntry]
    split
    · next lt =>
      refine List.pairwise_cons.2 ⟨fun k hk => ?_, h⟩
      rcases List.mem_cons.1 hk with rfl | hk
      · exact lt
      · exact String.lt_trans lt (below k hk)
    · next not_lt =>
      split
      · next eq => subst eq; exact List.pairwise_cons.2 ⟨below, tail⟩
      · next ne =>
        refine List.pairwise_cons.2 ⟨fun k hk => ?_, ih tail⟩
        rcases mem_keysOf_insertEntry.1 hk with rfl | hk
        · rcases Std.lt_trichotomy k entry.1 with lt | eq | gt
          · exact absurd lt not_lt
          · exact absurd eq ne
          · exact gt
        · exact below k hk

theorem lookup_entry (entry : String × α) (entries : List (String × α)) (k : String) :
    (entry :: entries).lookup k = if k = entry.1 then some entry.2 else entries.lookup k := by
  rw [List.lookup_cons]
  by_cases h : k = entry.1
  · rw [if_pos h, beq_iff_eq.2 h]
  · rw [if_neg h, beq_eq_false_iff_ne.2 h]

@[simp] theorem lookup_insertEntry {key k : String} {value : α} {entries : List (String × α)} :
    (insertEntry key value entries).lookup k =
      if k = key then some value else entries.lookup k := by
  induction entries with
  | nil => exact lookup_entry (key, value) [] k
  | cons entry rest ih =>
    simp only [insertEntry]
    split
    · exact lookup_entry (key, value) (entry :: rest) k
    · split
      · next eq =>
        rw [lookup_entry, lookup_entry, ← eq]
        by_cases h : k = key
        · rw [if_pos h, if_pos h]
        · rw [if_neg h, if_neg h, if_neg h]
      · next ne =>
        rw [lookup_entry, lookup_entry, ih]
        by_cases h : k = entry.1
        · rw [if_pos h, if_pos h, if_neg fun same => ne (same.symm.trans h)]
        · rw [if_neg h, if_neg h]

@[simp] theorem insertEntry_insertEntry (key : String) (value : α) (entries : List (String × α)) :
    insertEntry key value (insertEntry key value entries) = insertEntry key value entries := by
  have hfront (v : α) (rest : List (String × α)) :
      insertEntry key value ((key, v) :: rest) = (key, value) :: rest := by
    rw [insertEntry, if_neg (String.lt_irrefl key), if_pos rfl]
  induction entries with
  | nil => exact hfront value []
  | cons entry rest ih =>
    simp only [insertEntry]
    split
    · exact hfront ..
    · next not_lt =>
      split
      · exact hfront ..
      · next ne => rw [insertEntry, if_neg not_lt, if_neg ne, ih]

/-- The entries in ascending order of their keys, the last one of each key. -/
def ascendingEntries (entries : List (String × α)) : List (String × α) :=
  entries.foldl (fun done entry => insertEntry entry.1 entry.2 done) []

theorem ascending_ascendingEntries (entries : List (String × α)) :
    (keysOf (ascendingEntries entries)).Pairwise (· < ·) := by
  suffices ∀ done : List (String × α), (keysOf done).Pairwise (· < ·) →
      (keysOf (entries.foldl (fun done entry => insertEntry entry.1 entry.2 done) done)).Pairwise
        (· < ·) from this [] List.Pairwise.nil
  induction entries with
  | nil => exact fun _ h => h
  | cons entry rest ih => exact fun done h => ih _ (ascending_insertEntry h)

@[simp] theorem lookup_ascendingEntries {entries : List (String × α)} {k : String} :
    (ascendingEntries entries).lookup k = entries.reverse.lookup k := by
  suffices ∀ done : List (String × α),
      (entries.foldl (fun done entry => insertEntry entry.1 entry.2 done) done).lookup k =
        (entries.reverse ++ done).lookup k by
    simpa [ascendingEntries] using this []
  induction entries with
  | nil => exact fun _ => rfl
  | cons entry rest ih =>
    intro done
    rw [List.foldl_cons, ih, List.reverse_cons, List.append_assoc, List.lookup_append,
      List.lookup_append, List.singleton_append, lookup_insertEntry, lookup_entry]

theorem insertEntry_of_lt {key : String} {value : α} {entries : List (String × α)}
    (h : ∀ k ∈ keysOf entries, k < key) :
    insertEntry key value entries = entries ++ [(key, value)] := by
  induction entries with
  | nil => rfl
  | cons entry rest ih =>
    have lt : entry.1 < key := h entry.1 List.mem_cons_self
    have ih := ih fun k hk => h k (List.mem_cons_of_mem entry.1 hk)
    rw [insertEntry, if_neg (String.lt_asymm lt), if_neg, ih, List.cons_append]
    rintro rfl
    exact absurd lt (String.lt_irrefl _)

/-- Ascending entries are already in order. -/
theorem ascendingEntries_of_ascending {entries : List (String × α)}
    (h : (keysOf entries).Pairwise (· < ·)) : ascendingEntries entries = entries := by
  suffices ∀ done : List (String × α), (keysOf (done ++ entries)).Pairwise (· < ·) →
      entries.foldl (fun done entry => insertEntry entry.1 entry.2 done) done = done ++ entries from
    this [] h
  clear h
  induction entries with
  | nil => exact fun done _ => (List.append_nil done).symm
  | cons entry rest ih =>
    intro done h
    have below : ∀ k ∈ keysOf done, k < entry.1 := by
      intro k hk
      rw [keysOf, List.map_append, List.pairwise_append] at h
      exact h.2.2 k hk entry.1 List.mem_cons_self
    rw [List.foldl_cons, insertEntry_of_lt below, ih, List.append_assoc, List.singleton_append]
    rwa [List.append_assoc, List.singleton_append]

end Entries

/-! ## Dictionaries -/

/-- A finite map from strings, given by its key set and a value for each position in it. -/
structure Dict (α : Type) where
  keys : KeySet
  value : Fin keys.toList.length → α

namespace Dict

variable {α : Type}

/-- The entries in ascending order of their keys. -/
def entries : Dict α → List (String × α)
  | ⟨keys, value⟩ => List.ofFn fun i => (keys.toList.get i, value i)

/-- The dictionary that has the given ascending entries. -/
def ofAscending (entries : List (String × α)) (h : (keysOf entries).Pairwise (· < ·)) : Dict α where
  keys := ⟨keysOf entries, h⟩
  value i := (entries.get (i.cast (List.length_map ..))).2

/-- The dictionary of a list of entries; of several entries with one key the last one stays. -/
def ofList (entries : List (String × α)) : Dict α :=
  ofAscending (ascendingEntries entries) (ascending_ascendingEntries entries)

/-- The dictionary without entries. -/
def empty : Dict α := ofList []

instance : Inhabited (Dict α) := ⟨empty⟩

/-- The number of entries. -/
def size (d : Dict α) : Nat := d.keys.size

/-- Whether there are no entries. -/
def isEmpty (d : Dict α) : Bool := d.size == 0

/-- The value at a key. -/
def get? (d : Dict α) (key : String) : Option α := d.entries.lookup key

/-- Whether there is an entry with the key. -/
def contains (d : Dict α) (key : String) : Bool := d.keys.toList.contains key

/-! ## The view -/

@[simp] theorem keysOf_entries (d : Dict α) : keysOf d.entries = d.keys.toList := by
  obtain ⟨keys, value⟩ := d
  rw [entries, keysOf, List.map_ofFn]
  exact List.ofFn_getElem

theorem ascending_entries (d : Dict α) : (keysOf d.entries).Pairwise (· < ·) := by
  rw [keysOf_entries]
  exact d.keys.ascending

@[simp] theorem entries_ofAscending (entries : List (String × α))
    (h : (keysOf entries).Pairwise (· < ·)) : (ofAscending entries h).entries = entries := by
  refine List.ext_getElem (List.length_ofFn.trans (List.length_map _)) fun i h₁ h₂ => ?_
  refine (List.getElem_ofFn h₁).trans (Prod.ext ?_ rfl)
  exact List.getElem_map Prod.fst

@[simp] theorem getElem?_entries (d : Dict α) (i : Fin d.keys.toList.length) :
    d.entries[i.val]? = some (d.keys.toList.get i, d.value i) := by
  obtain ⟨keys, value⟩ := d
  rw [entries, List.getElem?_ofFn]
  exact dif_pos i.isLt

/-- Two dictionaries with the same entries are equal. -/
theorem ext_entries {d e : Dict α} (h : d.entries = e.entries) : d = e := by
  obtain ⟨⟨k, hk⟩, v⟩ := d
  obtain ⟨⟨k', hk'⟩, v'⟩ := e
  obtain rfl : k = k' := by
    have := congrArg keysOf h
    rwa [keysOf_entries, keysOf_entries] at this
  have : v = v' := funext fun i => by
    have at_i := congrArg (fun l => l[i.val]?) h
    have left := getElem?_entries ⟨⟨k, hk⟩, v⟩ i
    have right := getElem?_entries ⟨⟨k, hk'⟩, v'⟩ i
    exact congrArg Prod.snd (Option.some.inj (left.symm.trans (at_i.trans right)))
  rw [this]

/-- What holds of the values at all positions holds of the values of all entries. -/
theorem forall_mem_entries {d : Dict α} {P : α → Prop} (h : ∀ i, P (d.value i)) :
    ∀ entry ∈ d.entries, P entry.2 := by
  obtain ⟨keys, value⟩ := d
  intro entry hentry
  obtain ⟨i, rfl⟩ := List.mem_ofFn.1 hentry
  exact h i

@[simp] theorem entries_ofList (entries : List (String × α)) :
    (ofList entries).entries = ascendingEntries entries :=
  entries_ofAscending ..

/-- A dictionary is made from its own entries. -/
@[simp] theorem ofList_entries (d : Dict α) : ofList d.entries = d := by
  apply ext_entries
  rw [entries_ofList]
  exact ascendingEntries_of_ascending d.ascending_entries

@[simp] theorem length_entries (d : Dict α) : d.entries.length = d.size :=
  List.length_ofFn

/-! ## Update -/

/-- Sets the value at a key, whether or not there was one before. -/
def insert (d : Dict α) (key : String) (value : α) : Dict α :=
  ofAscending (insertEntry key value d.entries) (ascending_insertEntry d.ascending_entries)

@[simp] theorem entries_insert (d : Dict α) (key : String) (value : α) :
    (d.insert key value).entries = insertEntry key value d.entries :=
  entries_ofAscending ..

/-- Setting the value at a key changes what is at that key and nothing else. -/
@[simp] theorem get?_insert (d : Dict α) (key : String) (value : α) (k : String) :
    (d.insert key value).get? k = if k = key then some value else d.get? k := by
  rw [get?, entries_insert, lookup_insertEntry, get?]

/-- Setting a value that was just set changes nothing. -/
@[simp] theorem insert_insert (d : Dict α) (key : String) (value : α) :
    (d.insert key value).insert key value = d.insert key value := by
  apply ext_entries
  rw [entries_insert, entries_insert, insertEntry_insertEntry]

/-- Of several entries with one key the last one stays. -/
@[simp] theorem get?_ofList (entries : List (String × α)) (k : String) :
    (ofList entries).get? k = entries.reverse.lookup k := by
  rw [get?, entries_ofList, lookup_ascendingEntries]

@[simp] theorem get?_empty (k : String) : (empty : Dict α).get? k = none := by
  rw [empty, get?_ofList, List.reverse_nil, List.lookup_nil]

end Dict

end Intake
