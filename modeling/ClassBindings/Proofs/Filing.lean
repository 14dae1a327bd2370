import Mathlib.Data.List.Nodup
import ClassBindings.Proofs.Registration

/-! # What the stores of a package hold

The lists and tables that registration writes, each on its own: positions are counted up
(`Numbered`), the names of classes lead to them (`Indexed`), the lists of the modules are the
registered things sorted by their owner (`Listing`), and the type table knows every name that was
given away (`TypeTable.Knows`).  Each comes with what one addition does to it and with what follows
from it. -/
namespace ClassBindings

/-! ## Positions -/

/-- The members carry their positions. -/
def Numbered {α : Type} (index : α → Nat) (xs : List α) : Prop :=
  xs.map index = List.range xs.length

theorem nodup_of_increasing {α : Type} {index : α → Nat} {xs : List α}
    (h : xs.Pairwise (index · < index ·)) : xs.Nodup :=
  h.imp fun hlt heq => Nat.ne_of_lt hlt (congrArg index heq)

namespace Numbered

variable {α : Type} {index : α → Nat} {xs : List α} {x : α}

theorem append (h : Numbered index xs) (hx : index x = xs.length) :
    Numbered index (xs ++ [x]) := by
  rw [Numbered, List.map_append, h, List.length_append, List.length_singleton, List.range_succ,
    List.map_singleton, hx]

theorem index_eq (h : Numbered index xs) {i : Nat} (hx : xs[i]? = some x) : index x = i := by
  have hi : i < xs.length := (List.getElem?_eq_some_iff.1 hx).1
  have hindex : (xs.map index)[i]? = some (index x) := by rw [List.getElem?_map, hx, Option.map_some]
  rw [h, List.getElem?_range hi] at hindex
  exact (Option.some.inj hindex).symm

theorem pairwise (h : Numbered index xs) : xs.Pairwise (index · < index ·) := by
  have hrange : (List.range xs.length).Pairwise (· < ·) := List.pairwise_lt_range
  rw [← h] at hrange
  exact List.pairwise_map.1 hrange

end Numbered

/-! ## Names -/

/-- The names lead to the classes that have them, and nowhere else. -/
def Indexed (names : Dictionary String ClassId) (records : List ClassRecord) : Prop :=
  ∀ name id, names.find? name = some id ↔ ∃ r ∈ records, r.name = name ∧ r.id = id

/-- A class of a new name is found under it. -/
theorem Indexed.append {names : Dictionary String ClassId} {records : List ClassRecord}
    (h : Indexed names records) (new : ClassRecord) (hnew : ∀ r ∈ records, r.name ≠ new.name) :
    Indexed (names.insert new.name new.id) (records ++ [new]) := by
  intro name id
  rw [Dictionary.find?_insert]
  split
  · rename_i hname
    subst hname
    constructor
    · intro hid
      exact ⟨new, List.mem_append_right _ List.mem_cons_self, rfl, Option.some.inj hid⟩
    · rintro ⟨r, hr, hname, rfl⟩
      rcases List.mem_append.1 hr with hr | hr
      · exact absurd hname (hnew r hr)
      · rw [List.mem_singleton.1 hr]
  · rename_i hname
    refine (h name id).trans ⟨?_, ?_⟩
    · rintro ⟨r, hr, hid⟩
      exact ⟨r, List.mem_append_left _ hr, hid⟩
    · rintro ⟨r, hr, rfl, hid⟩
      rcases List.mem_append.1 hr with hr | hr
      · exact ⟨r, hr, rfl, hid⟩
      · exact absurd (congrArg ClassRecord.name (List.mem_singleton.1 hr)) hname

/-! ## Lists of modules -/

/-- The lists of the modules hold the items, each with its owner, in the order of registration. -/
structure Listing {κ : Type} (modules : List PackageModule) (listed : PackageModule → List κ)
    (items : List (ModuleId × κ)) : Prop where
  owned : ∀ item ∈ items, item.1.index < modules.length
  eq : ∀ i m, modules[i]? = some m → listed m = (items.filter (·.1 = ⟨i⟩)).map Prod.snd

namespace Listing

variable {κ : Type} {modules : List PackageModule} {listed : PackageModule → List κ}
  {items : List (ModuleId × κ)} {m m' : PackageModule} {i : Nat} {owner : ModuleId} {k : κ}

/-- A new module owns nothing. -/
theorem append (h : Listing modules listed items) (hm : listed m = []) :
    Listing (modules ++ [m]) listed items where
  owned item hitem := by
    rw [List.length_append]
    exact Nat.lt_add_right _ (h.owned item hitem)
  eq i m' hm' := by
    rcases Nat.lt_or_ge i modules.length with hi | hi
    · rw [List.getElem?_append_left hi] at hm'
      exact h.eq i m' hm'
    · rw [List.getElem?_append_right hi] at hm'
      have hnone : items.filter (·.1 = ⟨i⟩) = [] := by
        refine List.filter_eq_nil_iff.2 fun item hitem => ?_
        have hlt := h.owned item hitem
        simp only [decide_eq_true_eq]
        intro howner
        rw [howner] at hlt
        exact absurd hlt (Nat.not_lt.2 hi)
      rw [List.mem_singleton.1 (List.mem_of_getElem? hm'), hm, hnone, List.map_nil]

/-- A module whose list grows at the end owns what is added. -/
theorem set (h : Listing modules listed items) (hm : modules[owner.index]? = some m)
    (added : List κ) (hm' : listed m' = listed m ++ added) :
    Listing (modules.set owner.index m') listed (items ++ added.map (owner, ·)) where
  owned item hitem := by
    rw [List.length_set]
    rcases List.mem_append.1 hitem with hitem | hitem
    · exact h.owned item hitem
    · obtain ⟨k, _, rfl⟩ := List.mem_map.1 hitem
      exact (List.getElem?_eq_some_iff.1 hm).1
  eq i m'' hm'' := by
    rw [List.filter_append, List.map_append, List.filter_map, List.map_map]
    by_cases hi : owner.index = i
    · subst hi
      rw [List.getElem?_set_self (List.getElem?_eq_some_iff.1 hm).1] at hm''
      cases hm''
      rw [hm', h.eq _ m hm]
      simp [Function.comp_def]
    · rw [List.getElem?_set_ne hi] at hm''
      have howner : owner ≠ ⟨i⟩ := fun he => hi (congrArg ModuleId.index he)
      rw [h.eq i m'' hm'']
      simp [Function.comp_def, howner]

/-- A module whose list stays as it is. -/
theorem keep (h : Listing modules listed items) (hm : modules[owner.index]? = some m)
    (hm' : listed m' = listed m) : Listing (modules.set owner.index m') listed items := by
  have hset := h.set hm [] (hm'.trans (List.append_nil _).symm)
  rwa [List.map_nil, List.append_nil] at hset

theorem mem_iff (h : Listing modules listed items) (hm : modules[i]? = some m) :
    k ∈ listed m ↔ (⟨i⟩, k) ∈ items := by
  simp [h.eq i m hm]

/-- **Nothing is listed twice**, in one list or in two. -/
theorem nodup (h : Listing modules listed items) (hitems : (items.map Prod.snd).Nodup) :
    (modules.flatMap listed).Nodup := by
  refine List.nodup_flatMap.2 ⟨fun m hm => ?_, List.pairwise_iff_getElem.2 ?_⟩
  · obtain ⟨i, hi⟩ := List.mem_iff_getElem?.1 hm
    rw [h.eq i m hi]
    exact hitems.sublist (List.filter_sublist.map _)
  · intro i j hi hj hij k hki hkj
    -- What is in both lists has two owners.
    have hsame := List.inj_on_of_nodup_map hitems
      ((h.mem_iff (List.getElem?_eq_getElem hi)).1 hki)
      ((h.mem_iff (List.getElem?_eq_getElem hj)).1 hkj) rfl
    cases hsame
    exact absurd hij (Nat.lt_irrefl _)

/-- **What is owned is listed once, by its owner.** -/
theorem listed_once [DecidableEq κ] (h : Listing modules listed items)
    (hitems : (items.map Prod.snd).Nodup) (hk : (owner, k) ∈ items) :
    (modules.flatMap listed).count k = 1 ∧
      ∃ m, modules[owner.index]? = some m ∧ k ∈ listed m := by
  have hm := List.getElem?_eq_getElem (h.owned _ hk)
  have hmem : k ∈ listed _ := (h.mem_iff hm).2 hk
  refine ⟨List.count_eq_one_of_mem (h.nodup hitems) ?_, _, hm, hmem⟩
  exact List.mem_flatMap.2 ⟨_, List.mem_of_getElem? hm, hmem⟩

/-- The lists keep the order of registration. -/
theorem pairwise {R : κ → κ → Prop} (h : Listing modules listed items)
    (hitems : (items.map Prod.snd).Pairwise R) : ∀ m ∈ modules, (listed m).Pairwise R := by
  intro m hm
  obtain ⟨i, hi⟩ := List.mem_iff_getElem?.1 hm
  rw [h.eq i m hi]
  exact hitems.sublist (List.filter_sublist.map _)

end Listing

/-! ## Types -/

namespace TypeTable

/-- The table knows these types and aliases, all of different names. -/
structure Knows (table : TypeTable) (entries : List TypeEntry) (aliases : List String) : Prop where
  nodup : (entries.map (·.name) ++ aliases).Nodup
  /-- The name of a type leads to it. -/
  named : ∀ e ∈ entries, table.names.find? e.name = some e.hash
  typed : ∀ e ∈ entries, table.get? e.hash = some e
  /-- The aliases are names. -/
  taken : ∀ name ∈ aliases, table.names.contains name

namespace Knows

variable {table : TypeTable} {entries entries' : List TypeEntry} {aliases : List String}

theorem perm (h : table.Knows entries aliases) (hperm : entries.Perm entries') :
    table.Knows entries' aliases where
  nodup := (((hperm.map _).append_right aliases).nodup_iff).1 h.nodup
  named e he := h.named e (hperm.mem_iff.2 he)
  typed e he := h.typed e (hperm.mem_iff.2 he)
  taken := h.taken

theorem contains_type (h : table.Knows entries aliases) {e : TypeEntry} (he : e ∈ entries) :
    table.names.contains e.name ∧ table.types.contains e.hash := by
  have htyped : table.types.find? e.hash = some e := h.typed e he
  rw [Dictionary.contains, Dictionary.contains, h.named e he, htyped]
  exact ⟨rfl, rfl⟩

/-- What the table knows is taken. -/
theorem contains_name (h : table.Knows entries aliases) {name : String}
    (hname : name ∈ entries.map (·.name) ++ aliases) : table.names.contains name := by
  rcases List.mem_append.1 hname with hname | hname
  · obtain ⟨e, he, rfl⟩ := List.mem_map.1 hname
    exact (h.contains_type he).1
  · exact h.taken name hname

/-- **A vacant type is known once it is written**, and what was known before still is. -/
theorem insert (h : table.Knows entries aliases) {e : TypeEntry} (hvacant : table.Vacant e) :
    (table.insert e).Knows (e :: entries) aliases where
  nodup := List.nodup_cons.2 ⟨fun hmem => hvacant.name (h.contains_name hmem), h.nodup⟩
  named e' he' := by
    rw [TypeTable.insert, Dictionary.find?_insert]
    split
    · rename_i hname
      rcases List.mem_cons.1 he' with rfl | he'
      · rfl
      · exact absurd (hname ▸ (h.contains_type he').1) hvacant.name
    · rename_i hname
      rcases List.mem_cons.1 he' with rfl | he'
      · exact absurd rfl hname
      · exact h.named e' he'
  typed e' he' := by
    rw [TypeTable.insert, get?, Dictionary.find?_insert]
    split
    · rename_i hhash
      rcases List.mem_cons.1 he' with rfl | he'
      · rfl
      · exact absurd (hhash ▸ (h.contains_type he').2) hvacant.hash
    · rename_i hhash
      rcases List.mem_cons.1 he' with rfl | he'
      · exact absurd rfl hhash
      · exact h.typed e' he'
  taken name hname := by
    rw [TypeTable.insert, Dictionary.contains_insert]
    exact Or.inr (h.taken name hname)

/-- A new alias is known once it is written. -/
theorem insert_alias (h : table.Knows entries aliases) {name : String}
    (hname : ¬table.names.contains name) (hash : TypeHash) :
    Knows { table with names := table.names.insert name hash } entries (aliases ++ [name]) where
  nodup := by
    rw [← List.append_assoc]
    refine ((List.perm_append_singleton name _).nodup_iff).2 (List.nodup_cons.2 ⟨?_, h.nodup⟩)
    exact fun hmem => hname (h.contains_name hmem)
  named e he := by
    have hne : e.name ≠ name := fun heq => hname (heq ▸ (h.contains_type he).1)
    rw [Dictionary.find?_insert, if_neg hne]
    exact h.named e he
  typed := h.typed
  taken other hother := by
    rw [Dictionary.contains_insert]
    rcases List.mem_append.1 hother with hother | hother
    · exact Or.inr (h.taken other hother)
    · exact Or.inl (List.mem_singleton.1 hother)

end Knows

end TypeTable

end ClassBindings
