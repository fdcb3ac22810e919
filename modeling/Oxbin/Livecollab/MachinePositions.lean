import Oxbin.Livecollab.Following
import Oxbin.Livecollab.Machine

/-!
# Positions and selections in 64-bit arithmetic

`MapPos` adds up lengths as `OldLen` and `NewLen` do.  As long as the lengths of a set fit into an
`int`, positions and selections are carried as in the other files; a set whose lengths wrap around
can be valid for a document and carry positions out of the result.
-/

namespace Oxbin.Livecollab

/-- The loop of `MapPos`. -/
def mapPosSections64 (position assoc : Int) : Int → Int → List Section → Int
  | _, positionB, [] => positionB
  | positionA, positionB, sect :: sections =>
      let endA := wrap (positionA + sect.oldLen)
      if sect.changed = false then
        if endA > position then wrap (wrap (positionB + position) - positionA)
        else mapPosSections64 position assoc endA (wrap (positionB + sect.oldLen)) sections
      else if endA > position ∨ endA = position ∧ assoc < 0 ∧ sect.oldLen = 0 then
        if position = positionA ∨ assoc < 0 then positionB else wrap (positionB + sect.newLen)
      else mapPosSections64 position assoc endA (wrap (positionB + sect.newLen)) sections

/-- `ChangeSet.MapPos`. -/
def ChangeSet.mapPos64 (set : ChangeSet) (position assoc : Int) : Option Int :=
  if position < 0 ∨ position > set.oldLen64 then none
  else some (mapPosSections64 position assoc 0 0 set.sections)

/-- `SelectionRange.Map`. -/
def SelectionRange.map64 (selection : SelectionRange) (changes : ChangeSet) :
    Option SelectionRange :=
  if selection.anchor = selection.head then do
    let position ← changes.mapPos64 selection.anchor (-1)
    some ⟨position, position⟩
  else do
    let start ← changes.mapPos64 (min selection.anchor selection.head) 1
    let finish ← changes.mapPos64 (max selection.anchor selection.head) (-1)
    if selection.anchor ≤ selection.head then some ⟨start, finish⟩ else some ⟨finish, start⟩

/-! ## Lengths that fit -/

namespace ChangeSet

/-- The lengths of the set, added up exactly, fit into an `int`. -/
structure Fitting (set : ChangeSet) : Prop where
  oldLen : set.oldLen < intLimit
  newLen : set.newLen < intLimit

instance (set : ChangeSet) : Decidable set.Fitting :=
  decidable_of_iff (set.oldLen < intLimit ∧ set.newLen < intLimit)
    ⟨fun fits => ⟨fits.1, fits.2⟩, fun fits => ⟨fits.oldLen, fits.newLen⟩⟩

theorem Nonneg.mapPosSections64_eq {sections : List Section} (nonneg : Nonneg ⟨sections⟩)
    {position positionA positionB : Int} (startA : 0 ≤ positionA) (startB : 0 ≤ positionB)
    (fitsA : positionA + oldLen ⟨sections⟩ < intLimit)
    (fitsB : positionB + newLen ⟨sections⟩ < intLimit) (above : positionA ≤ position)
    (assoc : Int) : mapPosSections64 position assoc positionA positionB sections =
      mapPosSections position assoc positionA positionB sections := by
  induction sections generalizing positionA positionB with
  | nil => rfl
  | cons sect sections induction =>
      have own := nonneg sect List.mem_cons_self
      have restA := nonneg.tail.oldLen_nonneg
      have restB := nonneg.tail.newLen_nonneg
      have totalA : oldLen ⟨sect :: sections⟩ = sect.oldLen + oldLen ⟨sections⟩ := rfl
      have endA : wrap (positionA + sect.oldLen) = positionA + sect.oldLen :=
        wrap_eq (by unfold intLimit; omega) (by omega)
      have later {positionB : Int} := @induction nonneg.tail (positionA + sect.oldLen) positionB
      rw [newLen_cons] at fitsB
      rw [mapPosSections64, mapPosSections, endA]
      cases changed : sect.changed with
      | false =>
          simp only [changed, Bool.false_eq_true, if_false] at fitsB
          have endB : wrap (positionB + sect.oldLen) = positionB + sect.oldLen :=
            wrap_eq (by unfold intLimit; omega) (by omega)
          simp only [if_true, endB]
          split
          case isTrue inside =>
            -- the sum may wrap around before the difference brings it back
            rw [Int.sub_eq_add_neg, wrap_add, ← Int.sub_eq_add_neg]
            exact wrap_eq (by unfold intLimit; omega) (by omega)
          case isFalse => exact later (by omega) (by omega) (by omega) (by omega) (by omega)
      | true =>
          simp only [changed, if_true] at fitsB
          have newLen_nonneg : 0 ≤ sect.newLen := of_decide_eq_true changed
          have endB : wrap (positionB + sect.newLen) = positionB + sect.newLen :=
            wrap_eq (by unfold intLimit; omega) (by omega)
          simp only [Bool.true_eq_false, if_false, endB]
          split
          case isTrue => rfl
          case isFalse => exact later (by omega) (by omega) (by omega) (by omega) (by omega)

variable {set : ChangeSet}

theorem Nonneg.mapPos64_eq (nonneg : set.Nonneg) (fits : set.Fitting) (position assoc : Int) :
    set.mapPos64 position assoc = set.mapPos position assoc := by
  unfold mapPos64 mapPos
  rw [nonneg.oldLen64_eq fits.oldLen]
  split
  case isTrue => rfl
  case isFalse inside =>
    have same := nonneg.mapPosSections64_eq (le_refl 0) (le_refl 0)
      (by rw [Int.zero_add]; exact fits.oldLen) (by rw [Int.zero_add]; exact fits.newLen)
      (not_lt.mp (not_or.mp inside).1) assoc
    rw [same]

/-- A set that is valid for a document is valid for its length, if its lengths fit. -/
theorem validateForLength_of_document {document : String}
    (checked : set.validateForDocument64 document = .ok ()) (fits : set.oldLen < intLimit) :
    set.validateForLength (utf16Len document) = .ok () := by
  unfold validateForDocument64 at checked
  split at checked
  case isTrue => cases checked
  case isFalse same =>
    have nonneg : set.Nonneg := nonneg_of_valid (valid_of_validateSections checked)
    rw [nonneg.oldLen64_eq fits] at same
    rw [validateForLength, if_neg same, checked]

end ChangeSet

theorem SelectionRange.map64_eq {set : ChangeSet} (nonneg : set.Nonneg) (fits : set.Fitting)
    (selection : SelectionRange) : selection.map64 set = selection.map set := by
  unfold SelectionRange.map64 SelectionRange.map
  simp only [nonneg.mapPos64_eq fits]

/-! ## Selections -/

/-- A selection in the document is carried to a selection in the result, and keeps its direction
unless it has two ends that one replaced section swallows. -/
theorem SelectionRange.map_direction {set : ChangeSet} (nonneg : set.Nonneg) (fits : set.Fitting)
    {selection : SelectionRange} (within : selection.Within set.oldLen64) :
    ∃ mapped, selection.map64 set = some mapped ∧ mapped.Within set.newLen64 ∧
      ((selection.anchor ≤ selection.head → mapped.anchor ≤ mapped.head) ∧
          (selection.head ≤ selection.anchor → mapped.head ≤ mapped.anchor) ↔
        ¬(selection.anchor ≠ selection.head ∧
          Swallowed (min selection.anchor selection.head) (max selection.anchor selection.head) 0
            set.sections)) := by
  rw [nonneg.oldLen64_eq fits.oldLen] at within
  rw [map64_eq nonneg fits, nonneg.newLen64_eq fits.newLen]
  exact map_order nonneg within

/-- A word is selected, and a longer stretch around it is replaced by another word. -/
theorem SelectionRange.map_turned :
    ChangeSet.validateForDocument64 ⟨[⟨10, 3, "abc"⟩]⟩ "0123456789" = .ok () ∧
      SelectionRange.Within ⟨2, 5⟩ (ChangeSet.oldLen64 ⟨[⟨10, 3, "abc"⟩]⟩) ∧
      ∃ mapped, SelectionRange.map64 ⟨2, 5⟩ ⟨[⟨10, 3, "abc"⟩]⟩ = some mapped ∧
        mapped.head < mapped.anchor :=
  ⟨by decide +kernel, by decide, ⟨3, 0⟩, by decide, by decide⟩

theorem SelectionRange.map_direction_typed :
    ∃ mapped, SelectionRange.map64 ⟨2, 5⟩ ⟨[⟨3, 1, "x"⟩, ⟨7, -1, ""⟩]⟩ = some mapped ∧
      mapped.anchor ≤ mapped.head := by
  obtain ⟨mapped, carried, _, direction⟩ :=
    @SelectionRange.map_direction ⟨[⟨3, 1, "x"⟩, ⟨7, -1, ""⟩]⟩ (by decide) (by decide) ⟨2, 5⟩
      (by decide)
  exact ⟨mapped, carried, (direction.mpr (by decide)).1 (by decide)⟩

/-- A set that replaces and keeps more units than an `int` can count. -/
def overlongSet : ChangeSet :=
  ⟨[⟨1, -1, ""⟩, ⟨9223372036854775807, 1, "x"⟩, ⟨9223372036854775807, -1, ""⟩, ⟨2, -1, ""⟩]⟩

/-- The set is valid for a document of one unit, and carries the end of it out of any result. -/
theorem SelectionRange.map_wrapped :
    overlongSet.validateForDocument64 "a" = .ok () ∧
      SelectionRange.Within ⟨1, 1⟩ overlongSet.oldLen64 ∧
      SelectionRange.map64 ⟨1, 1⟩ overlongSet =
        some ⟨-9223372036854775805, -9223372036854775805⟩ := by
  refine ⟨?_, ?_, ?_⟩ <;> decide +kernel

/-! ## Code units -/

namespace ChangeSet

/-- Every position of the document is carried into the result, in order, and at most as far
backwards as forwards.  A kept code unit stands where its position is carried forwards to, for all
of them exactly if the set strands no surrogate. -/
theorem mapPos_follows {set : ChangeSet} {document : String}
    (checked : set.validateForDocument64 document = .ok ()) (fits : set.Fitting) :
    (∀ position assoc, 0 ≤ position → position ≤ utf16Len document →
      ∃ mapped, set.mapPos64 position assoc = some mapped ∧ 0 ≤ mapped ∧ mapped ≤ set.newLen64) ∧
    (∀ assoc left right mapped mapped', left ≤ right → set.mapPos64 left assoc = some mapped →
      set.mapPos64 right assoc = some mapped' → mapped ≤ mapped') ∧
    (∀ position mapped mapped', set.mapPos64 position (-1) = some mapped →
      set.mapPos64 position 1 = some mapped' → mapped ≤ mapped') ∧
    ∃ result, set.apply64 document = .ok result ∧
      ((∀ position, set.Keeps position → ∃ mapped unit, set.mapPos64 position 1 = some mapped ∧
          (utf16Units document)[position.toNat]? = some unit ∧
          (utf16Units result)[mapped.toNat]? = some unit) ↔
        ¬set.Strands (utf16Units document)) := by
  have exact' := validateForLength_of_document checked fits.oldLen
  have nonneg : set.Nonneg := nonneg_of_valid (valid_of_validateForLength exact').2
  rw [nonneg.newLen64_eq fits.newLen, nonneg.apply64_eq fits.oldLen fits.newLen]
  simp only [nonneg.mapPos64_eq fits]
  exact carries_positions exact'

/-- The second half of a surrogate pair is deleted. -/
theorem mapPos_stranded :
    validateForDocument64 ⟨[⟨1, -1, ""⟩, ⟨1, 0, ""⟩]⟩ "😀" = .ok () ∧
      apply64 ⟨[⟨1, -1, ""⟩, ⟨1, 0, ""⟩]⟩ "😀" = .ok "\uFFFD" ∧
      Keeps ⟨[⟨1, -1, ""⟩, ⟨1, 0, ""⟩]⟩ 0 ∧ mapPos64 ⟨[⟨1, -1, ""⟩, ⟨1, 0, ""⟩]⟩ 0 1 = some 0 ∧
      (utf16Units "\uFFFD")[0]? ≠ (utf16Units "😀")[0]? := by
  refine ⟨?_, ?_, ?_, ?_, ?_⟩ <;> decide +kernel

/-- A letter is written in front of another one. -/
theorem mapPos_follows_typed :
    ∃ mapped unit, mapPos64 ⟨[⟨0, 1, "x"⟩, ⟨1, -1, ""⟩]⟩ 0 1 = some mapped ∧
      (utf16Units "a")[0]? = some unit ∧ (utf16Units "xa")[mapped.toNat]? = some unit := by
  obtain ⟨_, _, _, result, applied, follows⟩ :=
    @mapPos_follows ⟨[⟨0, 1, "x"⟩, ⟨1, -1, ""⟩]⟩ "a" (by decide +kernel) (by decide)
  have known : apply64 ⟨[⟨0, 1, "x"⟩, ⟨1, -1, ""⟩]⟩ "a" = .ok "xa" := by decide +kernel
  rw [known] at applied
  cases applied
  exact follows.mpr (by decide +kernel) 0 (.inr (.inl ⟨rfl, by decide, by decide⟩))

/-- The order of positions is lost when the lengths of a valid set wrap around. -/
theorem mapPos_wrapped : overlongSet.validateForDocument64 "a" = .ok () ∧
    overlongSet.mapPos64 0 1 = some 0 ∧
      overlongSet.mapPos64 1 1 = some (-9223372036854775805) := by
  refine ⟨?_, ?_, ?_⟩ <;> decide +kernel

end ChangeSet

end Oxbin.Livecollab
