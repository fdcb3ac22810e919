import Oxbin.Livecollab.Canonical
import Oxbin.Livecollab.Positions

/-!
# Where positions are carried

A position of a document is carried to a position of the document that a change set leads to, and
no other position is carried at all.
-/

namespace Oxbin.Livecollab

/-! ## Lengths of results -/

theorem length_encodeRune_ofNat {value : Nat} (valid : value.isValidChar) :
    (encodeRune (Char.ofNat value)).length = if value < 0x10000 then 1 else 2 := by
  have same : (Char.ofNat value).toNat = value := by
    rw [Char.ofNat, dif_pos valid]
    rfl
  unfold encodeRune
  rw [same]
  split <;> rfl

/-- Decoding replaces what it cannot read by as many units. -/
theorem length_encode_decode (units : List UInt16) :
    (encode (decode units)).length = units.length := by
  have lone : (encodeRune replacementChar).length = 1 := length_encodeRune_ofNat (by decide)
  have plain (unit : UInt16) (outside : unit.toNat < 0xD800 ∨ 0xE000 ≤ unit.toNat) :
      (encodeRune (Char.ofNat unit.toNat)).length = 1 := by
    have below := unit.toNat_lt
    rw [length_encodeRune_ofNat (outside.imp_right fun above => ⟨by omega, by omega⟩),
      if_pos (by omega)]
  induction units using decode.induct with
  | case1 => rfl
  | case2 unit outside =>
      rw [decode, if_pos outside, encode_cons, List.length_append, plain unit outside]
      rfl
  | case3 unit inside =>
      rw [decode, if_neg inside, encode_cons, List.length_append, lone]
      rfl
  | case4 unit next units outside induction =>
      rw [decode, if_pos outside, encode_cons, List.length_append, plain unit outside, induction,
        @List.length_cons _ unit, Nat.add_comm]
  | case5 unit next units inside pair induction =>
      rw [decode, if_neg inside, if_pos pair, encode_cons, List.length_append, induction,
        length_encodeRune_ofNat (.inr ⟨by omega, by omega⟩), if_neg (by omega), Nat.add_comm,
        List.length_cons, List.length_cons]
  | case6 unit next units inside single induction =>
      rw [decode, if_neg inside, if_neg single, encode_cons, List.length_append, lone, induction,
        @List.length_cons _ unit, Nat.add_comm]

namespace ChangeSet

variable {set : ChangeSet}

/-- The result of a change set has the length that the set states. -/
theorem WellFormed.newLen_of_apply (formed : set.WellFormed) {document result : String}
    (applied : set.apply document = .ok result) : set.newLen = utf16Len result := by
  have fits : set.oldLen = (utf16Units document).length := oldLen_of_apply applied
  rw [apply, formed.applyUnits_eq fits] at applied
  cases applied
  rw [← formed.length_run fits, utf16Len, utf16Units.eq_1 (String.ofList _), String.toList_ofList,
    length_encode_decode]

/-! ## Positions -/

/-- No section of the set has a negative length. -/
def Nonneg (set : ChangeSet) : Prop := ∀ sect ∈ set.sections, 0 ≤ sect.oldLen

instance (set : ChangeSet) : Decidable set.Nonneg :=
  inferInstanceAs (Decidable (∀ sect ∈ set.sections, 0 ≤ sect.oldLen))

theorem WellFormed.nonneg (formed : set.WellFormed) : set.Nonneg := fun sect member =>
  (formed sect member).oldLen_nonneg

theorem Nonneg.oldLen_nonneg (nonneg : set.Nonneg) : 0 ≤ set.oldLen := by
  refine List.sum_nonneg fun length member => ?_
  obtain ⟨sect, listed, rfl⟩ := List.mem_map.mp member
  exact nonneg sect listed

/-- What a section writes has a length. -/
theorem Nonneg.newLen_nonneg (nonneg : set.Nonneg) : 0 ≤ set.newLen := by
  refine List.sum_nonneg fun length member => ?_
  obtain ⟨sect, listed, rfl⟩ := List.mem_map.mp member
  cases changed : sect.changed with
  | true => simpa [Section.changed] using changed
  | false => simpa using nonneg sect listed

theorem newLen_cons (sect : Section) (sections : List Section) : newLen ⟨sect :: sections⟩ =
    (if sect.changed then sect.newLen else sect.oldLen) + newLen ⟨sections⟩ := rfl

theorem Nonneg.tail {sect : Section} {sections : List Section}
    (nonneg : Nonneg ⟨sect :: sections⟩) : Nonneg ⟨sections⟩ := fun other member =>
  nonneg other (.tail _ member)

/-- Walking the sections stays between where they begin and where they end. -/
theorem mapPosSections_bounds {sections : List Section} (nonneg : Nonneg ⟨sections⟩)
    {position positionA : Int} (above : positionA ≤ position) (assoc positionB : Int) :
    positionB ≤ mapPosSections position assoc positionA positionB sections ∧
      mapPosSections position assoc positionA positionB sections ≤
        positionB + newLen ⟨sections⟩ := by
  induction sections generalizing positionA positionB with
  | nil =>
      rw [mapPosSections, newLen, List.map_nil, List.sum_nil]
      omega
  | cons sect sections induction =>
      have oldLen_nonneg : 0 ≤ sect.oldLen := nonneg sect List.mem_cons_self
      have rest_nonneg := nonneg.tail.newLen_nonneg
      rw [mapPosSections, newLen_cons]
      cases changed : sect.changed with
      | false =>
          simp only [if_true, Bool.false_eq_true, if_false]
          split
          case isTrue inside => omega
          case isFalse beyond =>
            have walked := induction nonneg.tail (not_lt.mp beyond) (positionB + sect.oldLen)
            omega
      | true =>
          have newLen_nonneg : 0 ≤ sect.newLen := by simpa [Section.changed] using changed
          simp only [if_true, Bool.true_eq_false, if_false]
          split
          case isTrue => split <;> omega
          case isFalse beyond =>
            have after : positionA + sect.oldLen ≤ position := by omega
            have walked := induction nonneg.tail after (positionB + sect.newLen)
            omega

/-- A position that is carried is one of the document, and lands in the result. -/
theorem Nonneg.mapPos_spec (nonneg : set.Nonneg) (position assoc : Int) :
    (0 ≤ position ∧ position ≤ set.oldLen ∧ ∃ mapped, set.mapPos position assoc = some mapped ∧
      0 ≤ mapped ∧ mapped ≤ set.newLen) ∨
    ¬(0 ≤ position ∧ position ≤ set.oldLen) ∧ set.mapPos position assoc = none := by
  unfold mapPos
  by_cases outside : position < 0 ∨ position > set.oldLen
  · rw [if_pos outside]
    exact .inr ⟨by omega, rfl⟩
  · rw [if_neg outside]
    have bounds := mapPosSections_bounds nonneg (not_lt.mp (not_or.mp outside).1) assoc 0
    rw [Int.zero_add] at bounds
    exact .inl ⟨by omega, by omega, _, rfl, bounds⟩

end ChangeSet

/-! ## Selections -/

namespace SelectionRange

/-- Both ends lie in a document of the given length. -/
def Within (selection : SelectionRange) (length : Int) : Prop :=
  (0 ≤ selection.anchor ∧ selection.anchor ≤ length) ∧ 0 ≤ selection.head ∧ selection.head ≤ length

instance (selection : SelectionRange) (length : Int) : Decidable (selection.Within length) :=
  inferInstanceAs (Decidable (_ ∧ _))

/-- A selection that is carried is one of the document, and lands in the result. -/
theorem map_spec {set : ChangeSet} (nonneg : set.Nonneg) (selection : SelectionRange) :
    (selection.Within set.oldLen ∧ ∃ mapped, selection.map set = some mapped ∧
      mapped.Within set.newLen) ∨
    ¬selection.Within set.oldLen ∧ selection.map set = none := by
  obtain ⟨anchor, head⟩ := selection
  unfold map Within
  by_cases empty : anchor = head
  · subst empty
    rw [if_pos rfl]
    rcases nonneg.mapPos_spec anchor (-1) with ⟨low, high, mapped, carried, bounds⟩ | ⟨out, lost⟩
    · rw [carried]
      exact .inl ⟨⟨⟨low, high⟩, low, high⟩, _, rfl, bounds, bounds⟩
    · rw [lost]
      exact .inr ⟨fun within => out within.1, rfl⟩
  · rw [if_neg empty]
    rcases nonneg.mapPos_spec (min anchor head) 1 with
      ⟨low, _, start, carried, bounds⟩ | ⟨out, lost⟩
    · rcases nonneg.mapPos_spec (max anchor head) (-1) with
        ⟨_, high, finish, carried', bounds'⟩ | ⟨out, lost⟩
      · simp only [carried, carried', Option.bind_eq_bind, Option.bind_some]
        have within : (0 ≤ anchor ∧ anchor ≤ set.oldLen) ∧ 0 ≤ head ∧ head ≤ set.oldLen := by omega
        refine .inl ⟨within, ?_⟩
        split
        case isTrue => exact ⟨_, rfl, bounds, bounds'⟩
        case isFalse => exact ⟨_, rfl, bounds', bounds⟩
      · rw [carried, lost]
        exact .inr ⟨fun within => out (by dsimp only at within; omega), rfl⟩
    · rw [lost]
      exact .inr ⟨fun within => out (by dsimp only at within; omega), rfl⟩

end SelectionRange

end Oxbin.Livecollab
