/-! # Insertion-ordered dictionaries

A `Dictionary` lists each key once, in the order in which the keys were first written; writing a
key again replaces its value in place.  `find?_insert` says what an insertion changes, and
`keys_insert` that the order of the keys is that of first insertion. -/
namespace ClassBindings

variable {κ α : Type} [DecidableEq κ]

/-! ## Entries -/

/-- Replaces the value of `k`, or adds the pair at the end. -/
def putEntry (k : κ) (v : α) : List (κ × α) → List (κ × α)
  | [] => [(k, v)]
  | (k', v') :: rest => if k' = k then (k, v) :: rest else (k', v') :: putEntry k v rest

/-- Writing a key that is there keeps the keys; a new key comes last. -/
theorem keys_putEntry (k : κ) (v : α) (entries : List (κ × α)) :
    (putEntry k v entries).map Prod.fst =
      if k ∈ entries.map Prod.fst then entries.map Prod.fst else entries.map Prod.fst ++ [k] := by
  induction entries with
  | nil => rfl
  | cons entry rest ih =>
    rcases entry with ⟨k', v'⟩
    by_cases hk : k' = k
    · simp [putEntry, hk]
    · have hk' : ¬k = k' := fun h => hk h.symm
      simp only [putEntry, hk, if_false, List.map_cons, ih, List.mem_cons, hk', false_or]
      split <;> simp

theorem nodup_keys_putEntry {entries : List (κ × α)} (h : (entries.map Prod.fst).Nodup) (k : κ)
    (v : α) : ((putEntry k v entries).map Prod.fst).Nodup := by
  rw [keys_putEntry]
  split
  · exact h
  · rename_i hk
    refine List.nodup_append.2 ⟨h, by simp, fun a ha b hb hab => hk ?_⟩
    rwa [← List.mem_singleton.1 hb, ← hab]

theorem lookup_putEntry (k k' : κ) (v : α) (entries : List (κ × α)) :
    (putEntry k v entries).lookup k' = if k' = k then some v else entries.lookup k' := by
  induction entries with
  | nil => by_cases h : k' = k <;> simp [putEntry, h]
  | cons entry rest ih =>
    rcases entry with ⟨a, w⟩
    by_cases ha : a = k
    · subst ha
      by_cases h : k' = a
      · simp [putEntry, h]
      · have hb : (k' == a) = false := by simpa using h
        simp [putEntry, List.lookup_cons, hb, h]
    · by_cases h : k' = a
      · subst h
        simp [putEntry, ha]
      · have hb : (k' == a) = false := by simpa using h
        simp [putEntry, ha, List.lookup_cons, hb, ih]

/-- A new key comes last. -/
theorem putEntry_of_notMem {k : κ} {entries : List (κ × α)} (h : k ∉ entries.map Prod.fst) (v : α) :
    putEntry k v entries = entries ++ [(k, v)] := by
  induction entries with
  | nil => rfl
  | cons entry rest ih =>
    rw [List.map_cons, List.mem_cons, not_or] at h
    obtain ⟨hk, hrest⟩ := h
    rw [putEntry, if_neg (Ne.symm hk), ih hrest, List.cons_append]

/-- Where each key is listed once, a key that is there is written at its position. -/
theorem putEntry_of_getElem? {k : κ} {v : α} {entries : List (κ × α)}
    (h : (entries.map Prod.fst).Nodup) {i : Nat} (hi : entries[i]? = some (k, v)) (f : α → α) :
    putEntry k (f v) entries = entries.modify i fun entry => (entry.1, f entry.2) := by
  induction entries generalizing i with
  | nil => cases hi
  | cons entry rest ih =>
    obtain ⟨hhead, hrest⟩ := List.nodup_cons.1 h
    cases i with
    | zero =>
      cases hi
      rw [putEntry, if_pos rfl, List.modify_zero_cons]
    | succ i =>
      have hmem : k ∈ rest.map Prod.fst := List.mem_map.2 ⟨(k, v), List.mem_of_getElem? hi, rfl⟩
      have hne : entry.1 ≠ k := fun he => hhead (he ▸ hmem)
      rw [putEntry, if_neg hne, ih hrest hi, List.modify_succ_cons]

/-- Where each key is listed once, looking a key up finds its entry. -/
theorem mem_iff_lookup {entries : List (κ × α)} (h : (entries.map Prod.fst).Nodup) (k : κ) (v : α) :
    (k, v) ∈ entries ↔ entries.lookup k = some v := by
  induction entries with
  | nil => simp
  | cons entry rest ih =>
    rcases entry with ⟨k', v'⟩
    obtain ⟨hk', hrest⟩ := List.nodup_cons.1 h
    rw [List.mem_cons, Prod.mk.injEq, ih hrest]
    by_cases hk : k = k'
    · subst hk
      have hnone : rest.lookup k ≠ some v := fun hsome =>
        hk' (List.mem_map.2 ⟨(k, v), (ih hrest).2 hsome, rfl⟩)
      simp [hnone, eq_comm]
    · have hb : (k == k') = false := by simpa using hk
      simp [List.lookup_cons, hb, hk]

/-! ## Dictionaries -/

/-- Values by key, each key once, in the order of first insertion. -/
structure Dictionary (κ α : Type) where
  entries : List (κ × α)
  keys_nodup : (entries.map Prod.fst).Nodup

namespace Dictionary

omit [DecidableEq κ] in
@[ext]
theorem ext {d e : Dictionary κ α} (h : d.entries = e.entries) : d = e := by
  cases d
  cases e
  simpa using h

instance [DecidableEq α] : DecidableEq (Dictionary κ α) := fun d e =>
  decidable_of_iff (d.entries = e.entries) ⟨ext, fun h => h ▸ rfl⟩

/-- No entries. -/
def empty : Dictionary κ α := ⟨[], by simp⟩

/-- The value of a key, if it has one. -/
def find? (d : Dictionary κ α) (k : κ) : Option α := d.entries.lookup k

/-- The key has a value. -/
def contains (d : Dictionary κ α) (k : κ) : Bool := (d.find? k).isSome

/-- The keys, in the order of first insertion. -/
def keys (d : Dictionary κ α) : List κ := d.entries.map Prod.fst

/-- The number of keys. -/
def size (d : Dictionary κ α) : Nat := d.entries.length

/-- Gives `k` the value `v`. -/
def insert (d : Dictionary κ α) (k : κ) (v : α) : Dictionary κ α :=
  ⟨putEntry k v d.entries, nodup_keys_putEntry d.keys_nodup k v⟩

/-- Gives `k` the value `v` unless it has one. -/
def insertIfAbsent (d : Dictionary κ α) (k : κ) (v : α) : Dictionary κ α :=
  if d.contains k then d else d.insert k v

/-- The entries are the keys with their values. -/
theorem mem_entries_iff (d : Dictionary κ α) {k : κ} {v : α} :
    (k, v) ∈ d.entries ↔ d.find? k = some v :=
  mem_iff_lookup d.keys_nodup k v

/-- The entries are known from the order of the keys and the values. -/
theorem entries_eq_map_keys (d : Dictionary κ α) {f : κ → α}
    (h : ∀ k v, d.find? k = some v → v = f k) : d.entries = d.keys.map fun k => (k, f k) := by
  have hsame : ∀ entry ∈ d.entries, (entry.1, f entry.1) = entry := fun entry hmem =>
    Prod.ext rfl (h entry.1 entry.2 (d.mem_entries_iff.1 hmem)).symm
  rw [keys, List.map_map]
  exact ((List.map_congr_left hsame).trans (List.map_id _)).symm

theorem find?_empty (k : κ) : (empty : Dictionary κ α).find? k = none := rfl

/-- **An insertion is seen at its key and nowhere else.** -/
theorem find?_insert (d : Dictionary κ α) (k k' : κ) (v : α) :
    (d.insert k v).find? k' = if k' = k then some v else d.find? k' :=
  lookup_putEntry k k' v d.entries

/-- A key that has a value keeps it when another key is new. -/
theorem find?_insert_of_new {d : Dictionary κ α} {k k' : κ} {v' : α} (hnew : ¬d.contains k)
    (h : d.find? k' = some v') (v : α) : (d.insert k v).find? k' = some v' := by
  have hne : k' ≠ k := by
    rintro rfl
    exact hnew (by simp [contains, h])
  rw [find?_insert, if_neg hne, h]

/-- **A value that is there stays** when one is offered. -/
theorem find?_insertIfAbsent (d : Dictionary κ α) (k k' : κ) (v : α) :
    (d.insertIfAbsent k v).find? k' = if k' = k then (d.find? k).or (some v) else d.find? k' := by
  rw [insertIfAbsent, contains]
  by_cases hk : k' = k
  · subst hk
    cases h : d.find? k' <;> simp [h, find?_insert]
  · cases h : d.find? k <;> simp [hk, find?_insert]

theorem contains_insert (d : Dictionary κ α) (k k' : κ) (v : α) :
    (d.insert k v).contains k' ↔ k' = k ∨ d.contains k' := by
  rw [contains, find?_insert]
  by_cases h : k' = k <;> simp [h, contains]

/-- **Keys keep the order of first insertion.** -/
theorem keys_insert (d : Dictionary κ α) (k : κ) (v : α) :
    (d.insert k v).keys = if k ∈ d.keys then d.keys else d.keys ++ [k] :=
  keys_putEntry k v d.entries

omit [DecidableEq κ] in
theorem length_keys (d : Dictionary κ α) : d.keys.length = d.size := by simp [keys, size]

theorem size_le_size_insert (d : Dictionary κ α) (k : κ) (v : α) :
    d.size ≤ (d.insert k v).size := by
  rw [← length_keys, ← length_keys, keys_insert]
  split <;> simp

end Dictionary

end ClassBindings
