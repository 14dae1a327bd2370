import Mathlib.Data.List.Basic
import Mathlib.Data.List.Induction

/-! # What came before

Much of what is found out about a class depends, for each member of a list, on that member and those
before it: whether a method is the first of its overload, or whether a slot has been claimed
already.  `mapWithEarlier` is the pattern.  One member more changes nothing of the rest
(`mapWithEarlier_concat`), which is what inductions along the list go by. -/
namespace ClassBindings

variable {α β γ : Type}

/-- A value for each member of a list, from it and the members before it. -/
def mapWithEarlier (f : List α → α → β) (xs : List α) : List β :=
  xs.mapIdx fun i x => f (xs.take i) x

@[simp] theorem length_mapWithEarlier (f : List α → α → β) (xs : List α) :
    (mapWithEarlier f xs).length = xs.length := List.length_mapIdx

@[simp] theorem getElem?_mapWithEarlier (f : List α → α → β) (xs : List α) (i : Nat) :
    (mapWithEarlier f xs)[i]? = xs[i]?.map (f (xs.take i)) := List.getElem?_mapIdx

theorem mapWithEarlier_eq_map {f : List α → α → β} {g : α → β} {xs : List α}
    (h : ∀ i x, xs[i]? = some x → f (xs.take i) x = g x) : mapWithEarlier f xs = xs.map g := by
  refine List.ext_getElem? fun i => ?_
  rw [getElem?_mapWithEarlier, List.getElem?_map]
  exact Option.map_congr fun x hx => h i x hx

/-- One member more. -/
theorem mapWithEarlier_concat (f : List α → α → β) (xs : List α) (x : α) :
    mapWithEarlier f (xs ++ [x]) = mapWithEarlier f xs ++ [f xs x] := by
  have hsame : (xs.mapIdx fun i y => f ((xs ++ [x]).take i) y) =
      xs.mapIdx fun i y => f (xs.take i) y :=
    List.mapIdx_eq_mapIdx_iff.2 fun i hi => by
      rw [List.take_append_of_le_length (Nat.le_of_lt hi)]
  rw [mapWithEarlier, List.mapIdx_concat, hsame, List.take_left, mapWithEarlier]

theorem mapWithEarlier_map (f : List β → β → γ) (g : α → β) (xs : List α) :
    mapWithEarlier f (xs.map g) =
      mapWithEarlier (fun earlier x => f (earlier.map g) (g x)) xs := by
  refine List.ext_getElem? fun i => ?_
  rw [getElem?_mapWithEarlier, getElem?_mapWithEarlier, List.getElem?_map, List.map_take]
  cases xs[i]? <;> rfl

/-- Where the values of some members depend on such members only, they may as well be read among
them. -/
theorem filter_zip_mapWithEarlier {q : α → Bool} {f f' : List α → α → β}
    (h : ∀ earlier x, q x → f earlier x = f' (earlier.filter q) x) (xs : List α) :
    ((xs.zip (mapWithEarlier f xs)).filter fun y => q y.1).map (·.2) =
      mapWithEarlier f' (xs.filter q) := by
  induction xs using List.reverseRecOn with
  | nil => rfl
  | append_singleton xs x ih =>
    rw [mapWithEarlier_concat, List.zip_append (length_mapWithEarlier f xs).symm,
      List.filter_append, List.map_append, ih, List.filter_append]
    cases hx : q x with
    | false => simp [hx]
    | true => simp [hx, mapWithEarlier_concat, h xs x hx]

end ClassBindings
