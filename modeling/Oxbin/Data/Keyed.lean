import Mathlib.Algebra.BigOperators.Group.List.Basic
import Mathlib.Algebra.Ring.Int.Defs
import Mathlib.Data.List.AList

/-!
# Maps keyed by strings

A Go `map[string]T` is an association list without duplicate keys.  Beyond the operations of
`AList` the program updates all values of a map at once and adds up a measure of them.
-/

namespace Oxbin

universe u v

/-- A `map[string]β`. -/
abbrev Keyed (β : Type u) : Type u := AList fun _ : String => β

namespace Keyed

variable {β : Type u} {γ : Type v}

/-- Change every value, by its key. -/
def mapKeyed (change : String → β → γ) (map : Keyed β) : Keyed γ where
  entries := map.entries.map fun entry => ⟨entry.1, change entry.1 entry.2⟩
  nodupKeys := by
    rw [List.NodupKeys, List.keys, List.map_map]
    exact map.nodupKeys

/-- Change every value. -/
def mapValues (change : β → γ) (map : Keyed β) : Keyed γ := mapKeyed (fun _ => change) map

/-- The values of the map. -/
def values (map : Keyed β) : List β := map.entries.map Sigma.snd

/-- Add up a measure of the values. -/
def total (measure : β → Int) (map : Keyed β) : Int := (map.values.map measure).sum

theorem dlookup_map (change : String → β → γ) (key : String) (entries : List (Σ _ : String, β)) :
    (entries.map fun entry => (⟨entry.1, change entry.1 entry.2⟩ : Σ _ : String, γ)).dlookup key =
      (entries.dlookup key).map (change key) := by
  induction entries with
  | nil => rfl
  | cons entry entries induction =>
      obtain ⟨other, value⟩ := entry
      rw [List.map_cons]
      by_cases same : key = other
      · subst same
        rw [List.dlookup_cons_eq, List.dlookup_cons_eq]
        rfl
      · rw [List.dlookup_cons_ne _ _ same, List.dlookup_cons_ne _ _ same, induction]

@[simp] theorem lookup_mapKeyed (change : String → β → γ) (map : Keyed β) (key : String) :
    (mapKeyed change map).lookup key = (map.lookup key).map (change key) :=
  dlookup_map change key map.entries

@[simp] theorem lookup_mapValues (change : β → γ) (map : Keyed β) (key : String) :
    (mapValues change map).lookup key = (map.lookup key).map change :=
  lookup_mapKeyed _ map key

theorem mapValues_eq_self {change : β → β} {map : Keyed β}
    (same : ∀ key value, map.lookup key = some value → change value = value) :
    mapValues change map = map := by
  apply AList.ext
  change map.entries.map _ = map.entries
  calc map.entries.map (fun entry => (⟨entry.1, change entry.2⟩ : Σ _ : String, β))
      = map.entries.map id := by
        apply List.map_congr_left
        intro entry listed
        rw [same entry.1 entry.2 (AList.mem_lookup_iff.mpr listed)]
        rfl
    _ = map.entries := List.map_id _

@[simp] theorem keys_mapKeyed (change : String → β → γ) (map : Keyed β) :
    (mapKeyed change map).keys = map.keys := by
  simp [mapKeyed, AList.keys, List.keys]

@[simp] theorem mem_mapKeyed (change : String → β → γ) (map : Keyed β) (key : String) :
    key ∈ mapKeyed change map ↔ key ∈ map := by
  rw [AList.mem_keys, AList.mem_keys, keys_mapKeyed]

theorem lookup_insert_if (map : Keyed β) (key other : String) (value : β) :
    (map.insert other value).lookup key = if key = other then some value else map.lookup key := by
  split
  case isTrue same =>
    subst same
    exact AList.lookup_insert map
  case isFalse different => exact AList.lookup_insert_ne different

theorem lookup_erase_if (map : Keyed β) (key other : String) :
    (map.erase other).lookup key = if key = other then none else map.lookup key := by
  split
  case isTrue same =>
    subst same
    exact AList.lookup_erase key map
  case isFalse different => exact AList.lookup_erase_ne different

/-- A sum over the entries, as a sum over the keys in any order. -/
theorem sum_entries (measure : String → β → Int) (map : Keyed β) {keys : List String}
    (perm : map.keys.Perm keys) :
    (map.entries.map fun entry => measure entry.1 entry.2).sum =
      (keys.map fun key => ((map.lookup key).map (measure key)).getD 0).sum := by
  rw [← (perm.map _).sum_eq, AList.keys, List.keys, List.map_map]
  congr 1
  apply List.map_congr_left
  intro entry member
  have found : map.lookup entry.1 = some entry.2 := AList.mem_lookup_iff.mpr member
  rw [Function.comp_apply, found]
  rfl

/-! ## Counting -/

/-- The number of values with a property. -/
def count (property : β → Bool) (map : Keyed β) : Nat := (map.values.filter property).length

/-- Every entry of the second map comes from an entry of the first one. -/
def Within (relation : β → γ → Prop) (map : Keyed β) (map' : Keyed γ) : Prop :=
  ∀ key value', map'.lookup key = some value' →
    ∃ value, map.lookup key = some value ∧ relation value value'

theorem Within.refl (map : Keyed β) : Within Eq map map := fun _ value found => ⟨value, found, rfl⟩

theorem Within.trans {first second third : Keyed β} (before : Within Eq first second)
    (after : Within Eq second third) : Within Eq first third := by
  intro key value last
  obtain ⟨middle, found, same⟩ := after key value last
  exact same ▸ before key middle found

theorem within_erase (map : Keyed β) (key : String) : Within Eq map (map.erase key) := by
  intro other value found
  rw [lookup_erase_if] at found
  split at found
  case isTrue => cases found
  case isFalse => exact ⟨value, found, rfl⟩

theorem count_eq_keys (property : β → Bool) (map : Keyed β) :
    count property map =
      ((map.entries.filter fun entry => property entry.2).map Sigma.fst).length := by
  rw [count, values, List.filter_map, List.length_map, List.length_map]
  rfl

theorem count_true (map : Keyed β) : count (fun _ => true) map = (values map).length := by
  rw [count, List.filter_true]

theorem count_insert (property : β → Bool) (map : Keyed β) (key : String) (value : β) :
    count property (map.insert key value) =
      count property (map.erase key) + if property value then 1 else 0 := by
  have values : values (map.insert key value) = value :: Keyed.values (map.erase key) := rfl
  rw [count, values, List.filter_cons]
  split <;> rfl

theorem count_erase (property : β → Bool) {map : Keyed β} {key : String} {value : β}
    (found : map.lookup key = some value) :
    count property map = count property (map.erase key) + if property value then 1 else 0 := by
  have member : key ∈ map.entries.keys := AList.lookup_isSome.mp (by rw [found]; rfl)
  obtain ⟨value', before, after, _, split, erased⟩ := List.exists_of_kerase member
  have same : value' = value := by
    have listed : (⟨key, value'⟩ : Σ _ : String, β) ∈ map.entries := by rw [split]; simp
    exact Option.some.inj ((AList.mem_lookup_iff.mpr listed).symm.trans found)
  have rest : (map.erase key).entries = before ++ after := erased
  rw [count, count, values, values, rest, split, same]
  simp only [List.map_append, List.map_cons, List.filter_append, List.filter_cons,
    List.length_append]
  cases property value with
  | false => simp
  | true => simp; omega

theorem length_values_insert {map : Keyed β} {key : String} {value : β} (value' : β)
    (found : map.lookup key = some value) :
    (values (map.insert key value')).length = (values map).length := by
  rw [← count_true, ← count_true, count_insert, count_erase (fun _ => true) found]

theorem count_erase_of_not_mem (property : β → Bool) {map : Keyed β} {key : String}
    (fresh : key ∉ map) : count property (map.erase key) = count property map := by
  have same : (map.erase key).entries = map.entries := List.kerase_of_notMem_keys fresh
  rw [count, count, values, values, same]

theorem Within.count_le {relation : β → γ → Prop} {map : Keyed β} {map' : Keyed γ}
    (within : Within relation map map') {property : β → Bool} {property' : γ → Bool}
    (implies : ∀ value value', relation value value' → property' value' = true →
      property value = true) : count property' map' ≤ count property map := by
  rw [count_eq_keys, count_eq_keys]
  apply List.Subperm.length_le
  apply List.subperm_of_subset
  · exact map'.nodupKeys.sublist List.filter_sublist
  · intro key member
    obtain ⟨entry, listed, rfl⟩ := List.mem_map.mp member
    obtain ⟨present, holds⟩ := List.mem_filter.mp listed
    obtain ⟨value, found, related⟩ := within entry.1 entry.2 (AList.mem_lookup_iff.mpr present)
    refine List.mem_map.mpr ⟨⟨entry.1, value⟩, List.mem_filter.mpr
      ⟨AList.mem_lookup_iff.mp found, implies _ _ related holds⟩, rfl⟩

/-- A property that two exclusive ones make up. -/
theorem count_add (map : Keyed β) (property first second : β → Bool)
    (split : ∀ value, (if property value then 1 else 0 : Nat) =
      (if first value then 1 else 0) + if second value then 1 else 0) :
    count property map = count first map + count second map := by
  unfold count
  induction values map with
  | nil => rfl
  | cons value values induction =>
      have here := split value
      simp only [List.filter_cons]
      generalize property value = whole at here ⊢
      generalize first value = left at here ⊢
      generalize second value = right at here ⊢
      cases whole <;> cases left <;> cases right <;> simp at here ⊢ <;> omega

end Keyed

end Oxbin
