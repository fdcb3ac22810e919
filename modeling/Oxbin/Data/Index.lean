import Oxbin.Data.Keyed

/-!
# Indexes

A map from labels to the keys of another map finds each value of that map under its label.
-/

namespace Oxbin.Keyed

universe u

variable {β : Type u} {index : Keyed String} {map map' : Keyed β} {label : β → String}

/-- The index finds the values of the map by their labels, and nothing else. -/
def Indexes (index : Keyed String) (map : Keyed β) (label : β → String) : Prop :=
  ∀ key id, index.lookup key = some id ↔ ∃ value, map.lookup id = some value ∧ label value = key

namespace Indexes

/-- No two values have the same label. -/
theorem injective (indexes : Indexes index map label) {left right : String} {value value' : β}
    (found : map.lookup left = some value) (found' : map.lookup right = some value')
    (same : label value = label value') : left = right := by
  have first := (indexes (label value) left).mpr ⟨value, found, rfl⟩
  have second := (indexes (label value) right).mpr ⟨value', found', same.symm⟩
  exact Option.some.inj (first.symm.trans second)

theorem of_empty : Indexes ∅ (∅ : Keyed β) label := by
  intro key id
  refine iff_of_false (fun found => ?_) fun ⟨_, found, _⟩ => ?_
  · cases found
  · cases found

/-- Values may change as long as their labels do not. -/
theorem congr (indexes : Indexes index map label)
    (same : ∀ id, (map'.lookup id).map label = (map.lookup id).map label) :
    Indexes index map' label := by
  intro key id
  have related := same id
  rw [indexes key id, ← Option.map_eq_some_iff, ← Option.map_eq_some_iff, related]

/-- A label that is not in use can be forgotten. -/
theorem forget (indexes : Indexes index map label) {key : String}
    (unused : index.lookup key = none) : Indexes (index.erase key) map label := by
  intro other id
  rw [← indexes other id, lookup_erase_if]
  split
  case isTrue same => rw [same, unused]
  case isFalse => rfl

/-- A value and its label are removed. -/
theorem erase (indexes : Indexes index map label) {id : String} {value : β}
    (found : map.lookup id = some value) :
    Indexes (index.erase (label value)) (map.erase id) label := by
  intro key other
  rw [lookup_erase_if, lookup_erase_if]
  by_cases own : key = label value
  · rw [if_pos own]
    refine iff_of_false (fun none => nomatch none) ?_
    rintro ⟨value', found', same⟩
    split at found'
    case isTrue => cases found'
    case isFalse different => exact different (indexes.injective found' found (same.trans own))
  · rw [if_neg own, indexes key other]
    split
    case isTrue same =>
      subst same
      refine iff_of_false ?_ (by simp)
      rintro ⟨value', found', labelled⟩
      cases found.symm.trans found'
      exact own labelled.symm
    case isFalse => rfl

/-- A value is added under a label that is not in use. -/
theorem insert (indexes : Indexes index map label) {id : String} {value : β}
    (fresh : map.lookup id = none) (unused : index.lookup (label value) = none) :
    Indexes (index.insert (label value) id) (map.insert id value) label := by
  intro key other
  rw [lookup_insert_if, lookup_insert_if]
  by_cases own : key = label value
  · rw [if_pos own, Option.some.injEq]
    constructor
    · rintro rfl
      exact ⟨value, if_pos rfl, own.symm⟩
    · rintro ⟨value', found', same⟩
      split at found'
      case isTrue same => exact same.symm
      case isFalse =>
        have used := (indexes key other).mpr ⟨value', found', same⟩
        rw [own, unused] at used
        cases used
  · rw [if_neg own, indexes key other]
    split
    case isTrue same =>
      subst same
      rw [fresh]
      refine iff_of_false (by simp) ?_
      rintro ⟨value', found', labelled⟩
      cases found'
      exact own labelled.symm
    case isFalse => rfl

/-- A value gets a label that nothing else has. -/
theorem relabel (indexes : Indexes index map label) {id : String} {value value' : β}
    (found : map.lookup id = some value)
    (unused : ∀ other, index.lookup (label value') = some other → other = id) :
    Indexes ((index.erase (label value)).insert (label value') id) (map.insert id value')
      label := by
  have removed := indexes.erase found
  have added : Indexes ((index.erase (label value)).insert (label value') id)
      ((map.erase id).insert id value') label := by
    refine removed.insert ?_ ?_
    · rw [lookup_erase_if, if_pos rfl]
    · rw [lookup_erase_if]
      split
      case isTrue => rfl
      case isFalse different =>
        by_contra used
        obtain ⟨other, used⟩ := Option.ne_none_iff_exists'.mp used
        cases unused other used
        obtain ⟨_, found', labelled⟩ := (indexes (label value') id).mp used
        cases found.symm.trans found'
        exact different labelled.symm
  refine added.congr fun other => ?_
  rw [lookup_insert_if, lookup_insert_if, lookup_erase_if]
  split <;> rfl

end Indexes

end Oxbin.Keyed
