import Oxbin.Livecollab.Selections
import Oxbin.Livecollab.Surrogates

/-!
# Positions follow the text

`MapPos` carries positions in order, and a code unit that a change set keeps stands in the result
where the set carries its position to.  `SelectionRange.Map` carries the start of a selection
forwards and its end backwards, which turns a selection around if both lie inside of one section
that is replaced by some text.
-/

namespace Oxbin.Livecollab

open Transform

/-- Some section is replaced by a text and contains both positions, neither of them at an end of
the section. -/
def Swallowed (start finish : Int) : Int → List Section → Prop
  | _, [] => False
  | positionA, sect :: sections =>
      0 < sect.newLen ∧ positionA < start ∧ finish < positionA + sect.oldLen ∨
        Swallowed start finish (positionA + sect.oldLen) sections

instance decidableSwallowed (start finish : Int) :
    (positionA : Int) → (sections : List Section) →
      Decidable (Swallowed start finish positionA sections)
  | _, [] => isFalse id
  | positionA, sect :: sections =>
      haveI := decidableSwallowed start finish (positionA + sect.oldLen) sections
      inferInstanceAs (Decidable (_ ∨ _))

/-- The position lies in a section that is not changed. -/
def Kept (position : Int) : Int → List Section → Prop
  | _, [] => False
  | positionA, sect :: sections =>
      sect.changed = false ∧ positionA ≤ position ∧ position < positionA + sect.oldLen ∨
        Kept position (positionA + sect.oldLen) sections

namespace ChangeSet

variable {sections : List Section}

/-! ## Order -/

theorem not_swallowed_of_le (nonneg : Nonneg ⟨sections⟩) {start finish positionA : Int}
    (below : start ≤ positionA) : ¬Swallowed start finish positionA sections := by
  induction sections generalizing positionA with
  | nil => exact id
  | cons sect sections induction =>
      have oldLen_nonneg : 0 ≤ sect.oldLen := nonneg sect List.mem_cons_self
      rw [Swallowed, not_or]
      exact ⟨fun inside => by omega, induction nonneg.tail (by omega)⟩

/-- Positions are carried in order. -/
theorem mapPosSections_mono (nonneg : Nonneg ⟨sections⟩) {left right positionA : Int}
    (above : positionA ≤ left) (ordered : left ≤ right) (assoc positionB : Int) :
    mapPosSections left assoc positionA positionB sections ≤
      mapPosSections right assoc positionA positionB sections := by
  induction sections generalizing positionA positionB with
  | nil => exact le_rfl
  | cons sect sections induction =>
      have later (positionB : Int) (beyond : positionA + sect.oldLen ≤ right) :=
        (mapPosSections_bounds nonneg.tail beyond assoc positionB).1
      rw [mapPosSections, mapPosSections]
      cases changed : sect.changed with
      | false =>
          simp only [if_true]
          split
          case isTrue inside =>
            split
            case isTrue => omega
            case isFalse beyond => exact le_trans (by omega) (later _ (by omega))
          case isFalse beyond =>
            rw [if_neg (by omega)]
            exact induction nonneg.tail (by omega) _
      | true =>
          have newLen_nonneg : 0 ≤ sect.newLen := by simpa [Section.changed] using changed
          simp only [Bool.true_eq_false, if_false]
          by_cases inside : positionA + sect.oldLen > left ∨
              positionA + sect.oldLen = left ∧ assoc < 0 ∧ sect.oldLen = 0
          · rw [if_pos inside]
            by_cases inside' : positionA + sect.oldLen > right ∨
                positionA + sect.oldLen = right ∧ assoc < 0 ∧ sect.oldLen = 0
            · rw [if_pos inside']
              split <;> split <;> omega
            · rw [if_neg inside']
              refine le_trans ?_ (later _ (by omega))
              split <;> omega
          · rw [if_neg inside, if_neg (by omega)]
            exact induction nonneg.tail (by omega) _

/-- A position is carried at most as far backwards as forwards. -/
theorem mapPosSections_assoc (nonneg : Nonneg ⟨sections⟩) {position positionA : Int}
    (above : positionA ≤ position) (positionB : Int) :
    mapPosSections position (-1) positionA positionB sections ≤
      mapPosSections position 1 positionA positionB sections := by
  induction sections generalizing positionA positionB with
  | nil => exact le_rfl
  | cons sect sections induction =>
      have forwards := (mapPosSections_bounds nonneg above 1 positionB).1
      rw [mapPosSections] at forwards ⊢
      rw [mapPosSections]
      cases changed : sect.changed with
      | false =>
          simp only [if_true]
          split
          case isTrue => exact le_rfl
          case isFalse => exact induction nonneg.tail (by omega) _
      | true =>
          simp only [changed, Bool.true_eq_false, if_false] at forwards ⊢
          split
          case isTrue =>
            rw [if_pos (.inr (by decide))]
            exact forwards
          case isFalse beyond =>
            rw [if_neg (by omega)]
            exact induction nonneg.tail (by omega) _

/-- Two positions, the first carried forwards and the second backwards, stay in order unless one
section swallows them. -/
theorem mapPosSections_order (nonneg : Nonneg ⟨sections⟩) {start finish positionA : Int}
    (above : positionA ≤ start) (ordered : start < finish) (positionB : Int) :
    mapPosSections start 1 positionA positionB sections ≤
        mapPosSections finish (-1) positionA positionB sections ↔
      ¬Swallowed start finish positionA sections := by
  induction sections generalizing positionA positionB with
  | nil => simp [mapPosSections, Swallowed]
  | cons sect sections induction =>
      have later (positionB : Int) (beyond : positionA + sect.oldLen ≤ finish) :=
        (mapPosSections_bounds nonneg.tail beyond (-1) positionB).1
      have oldLen_nonneg : 0 ≤ sect.oldLen := nonneg sect List.mem_cons_self
      rw [mapPosSections, mapPosSections, Swallowed]
      cases changed : sect.changed with
      | false =>
          have kept : ¬0 < sect.newLen := by
            have := changed
            simp only [Section.changed, decide_eq_false_iff_not] at this
            omega
          simp only [if_true, kept, false_and, false_or]
          split
          case isTrue inside =>
            refine iff_of_true ?_ (not_swallowed_of_le nonneg.tail (by omega))
            split
            case isTrue => omega
            case isFalse beyond => exact le_trans (by omega) (later _ (by omega))
          case isFalse beyond =>
            rw [if_neg (by omega)]
            exact induction nonneg.tail (by omega) _
      | true =>
          have newLen_nonneg : 0 ≤ sect.newLen := by simpa [Section.changed] using changed
          simp only [Bool.true_eq_false, if_false]
          by_cases inside : positionA + sect.oldLen > start
          · have after := @not_swallowed_of_le _ nonneg.tail start finish
              (positionA + sect.oldLen) (by omega)
            rw [if_pos (.inl inside), or_iff_left after]
            by_cases inside' : positionA + sect.oldLen > finish
            · have covered : positionA + sect.oldLen > finish ∨
                  positionA + sect.oldLen = finish ∧ (-1 : Int) < 0 ∧ sect.oldLen = 0 :=
                    .inl inside'
              have backwards : finish = positionA ∨ (-1 : Int) < 0 := .inr (by decide)
              rw [if_pos covered, if_pos backwards]
              split <;> omega
            · have passed : ¬(positionA + sect.oldLen > finish ∨
                  positionA + sect.oldLen = finish ∧ (-1 : Int) < 0 ∧ sect.oldLen = 0) := by omega
              rw [if_neg passed]
              refine iff_of_true (le_trans ?_ (later _ (by omega))) (by omega)
              split <;> omega
          · rw [if_neg (by omega), if_neg (by omega), or_iff_right (by omega)]
            exact induction nonneg.tail (by omega) _

theorem mapPos_eq {set : ChangeSet} {position : Int} (low : 0 ≤ position)
    (high : position ≤ set.oldLen) (assoc : Int) :
    set.mapPos position assoc = some (mapPosSections position assoc 0 0 set.sections) :=
  if_neg (by omega)

end ChangeSet

/-! ## Selections -/

/-- A selection in the document is carried to a selection in the result, and keeps its direction
unless it has two ends that one replaced section swallows. -/
theorem SelectionRange.map_order {set : ChangeSet} (nonneg : set.Nonneg)
    {selection : SelectionRange} (within : selection.Within set.oldLen) :
    ∃ mapped, selection.map set = some mapped ∧ mapped.Within set.newLen ∧
      ((selection.anchor ≤ selection.head → mapped.anchor ≤ mapped.head) ∧
          (selection.head ≤ selection.anchor → mapped.head ≤ mapped.anchor) ↔
        ¬(selection.anchor ≠ selection.head ∧
          Swallowed (min selection.anchor selection.head) (max selection.anchor selection.head) 0
            set.sections)) := by
  obtain ⟨mapped, carried, inside⟩ : ∃ mapped, selection.map set = some mapped ∧
      mapped.Within set.newLen := by
    rcases SelectionRange.map_spec nonneg selection with ⟨_, spec⟩ | ⟨outside, _⟩
    · exact spec
    · exact absurd within outside
  refine ⟨mapped, carried, inside, ?_⟩
  obtain ⟨anchor, head⟩ := selection
  obtain ⟨⟨anchor_low, anchor_high⟩, head_low, head_high⟩ := within
  dsimp only at anchor_low anchor_high head_low head_high
  have order := @ChangeSet.mapPosSections_order _ nonneg
  rw [map] at carried
  rcases lt_trichotomy anchor head with ordered | rfl | ordered
  · rw [if_neg ordered.ne, min_eq_left ordered.le, max_eq_right ordered.le,
      ChangeSet.mapPos_eq anchor_low anchor_high, ChangeSet.mapPos_eq head_low head_high] at carried
    simp only [Option.bind_eq_bind, Option.bind_some, if_pos ordered.le, Option.some.injEq]
      at carried
    subst carried
    rw [min_eq_left ordered.le, max_eq_right ordered.le]
    simp only [ordered.le, ordered.not_ge, ordered.ne, true_imp_iff, false_imp_iff, and_true,
      ne_eq, not_false_eq_true, true_and]
    exact order anchor_low ordered 0
  · rw [if_pos rfl] at carried
    simp only [Option.bind_eq_bind, Option.bind_eq_some_iff, Option.some.injEq] at carried
    obtain ⟨position, _, rfl⟩ := carried
    simp
  · rw [if_neg ordered.ne', min_eq_right ordered.le, max_eq_left ordered.le,
      ChangeSet.mapPos_eq anchor_low anchor_high, ChangeSet.mapPos_eq head_low head_high] at carried
    simp only [Option.bind_eq_bind, Option.bind_some, if_neg ordered.not_ge, Option.some.injEq]
      at carried
    subst carried
    rw [min_eq_right ordered.le, max_eq_left ordered.le]
    simp only [ordered.le, ordered.not_ge, ordered.ne', true_imp_iff, false_imp_iff, ne_eq,
      not_false_eq_true, true_and]
    exact order head_low ordered 0

/-! ## Code units -/

instance decidableKept (position : Int) :
    (positionA : Int) → (sections : List Section) → Decidable (Kept position positionA sections)
  | _, [] => isFalse id
  | positionA, sect :: sections =>
      haveI := decidableKept position (positionA + sect.oldLen) sections
      inferInstanceAs (Decidable (_ ∨ _))

/-- What a section writes, each code unit with a mark that says whether it was kept. -/
def Section.labelled (sect : Section) (piece : List UInt16) : List (UInt16 × Bool) :=
  if sect.changed then (utf16Units sect.insert).map fun unit => (unit, false)
  else piece.map fun unit => (unit, true)

/-- What consecutive sections write. -/
def labelledOf : List Section → List UInt16 → List (UInt16 × Bool)
  | [], _ => []
  | sect :: sections, units =>
      sect.labelled (units.take sect.oldLen.toNat) ++
        labelledOf sections (units.drop sect.oldLen.toNat)

namespace ChangeSet

variable {sections : List Section} {set : ChangeSet}

/-- The position is in a section that the set does not change. -/
def Keeps (set : ChangeSet) (position : Int) : Prop := Kept position 0 set.sections

instance (set : ChangeSet) (position : Int) : Decidable (set.Keeps position) :=
  decidableKept position 0 set.sections

/-- Some code unit that the set keeps is a surrogate without its partner in the text that the set
writes. -/
def Strands (set : ChangeSet) (units : List UInt16) : Prop :=
  ((labelledOf set.sections units).zip (marked (set.run units))).any
    (fun place => place.1.2 && place.2.2) = true

instance (set : ChangeSet) (units : List UInt16) : Decidable (set.Strands units) :=
  inferInstanceAs (Decidable (_ = true))

/-- A change set that is valid for a document has valid sections. -/
theorem valid_of_validateSections {index : Nat}
    (checked : validateSections index sections = .ok ()) : ∀ sect ∈ sections, sect.Valid := by
  induction sections generalizing index with
  | nil => exact fun _ member => nomatch member
  | cons sect sections induction =>
      rw [validateSections] at checked
      split at checked
      · cases checked
      split at checked
      · cases checked
      split at checked
      · cases checked
      rename_i nonneg _ inserted
      rintro other (_ | ⟨_, member⟩)
      · refine ⟨by omega, fun changed => ?_⟩
        by_contra differs
        exact inserted ⟨changed, differs⟩
      · exact induction checked other member

theorem valid_of_validateForLength {length : Int}
    (checked : set.validateForLength length = .ok ()) :
    set.oldLen = length ∧ ∀ sect ∈ set.sections, sect.Valid := by
  rw [validateForLength] at checked
  split at checked
  · cases checked
  · rename_i same
    exact ⟨not_not.mp same, valid_of_validateSections checked⟩

theorem nonneg_of_valid (valid : ∀ sect ∈ sections, sect.Valid) : Nonneg ⟨sections⟩ :=
  fun sect member => (valid sect member).1

/-- Without the marks this is the text that the set writes. -/
theorem map_fst_labelledOf (valid : ∀ sect ∈ sections, sect.Valid) {units : List UInt16}
    (fits : units.length = (lengthsOf sections).sum) :
    (labelledOf sections units).map Prod.fst = walk (atomsOf sections) units := by
  induction sections generalizing units with
  | nil =>
      rw [lengthsOf_nil, List.sum_nil, List.length_eq_zero_iff] at fits
      subst fits
      rfl
  | cons sect sections induction =>
      rw [lengthsOf_cons, List.sum_cons] at fits
      have taken : (units.take sect.oldLen.toNat).length = sect.oldLen.toNat := by
        rw [List.length_take]
        omega
      have walked := sect.walk_atoms (atomsOf sections) (units.drop sect.oldLen.toNat) taken
      rw [List.take_append_drop] at walked
      rw [labelledOf, List.map_append, atomsOf_cons, walked,
        induction (fun other member => valid other (.tail _ member))
          (by rw [List.length_drop]; omega)]
      congr 1
      unfold Section.labelled Section.written
      split <;> simp [Function.comp_def]

theorem le_of_kept {position positionA : Int} (nonneg : Nonneg ⟨sections⟩)
    (kept : Kept position positionA sections) : positionA ≤ position := by
  induction sections generalizing positionA with
  | nil => exact kept.elim
  | cons sect sections induction =>
      have oldLen_nonneg : 0 ≤ sect.oldLen := nonneg sect List.mem_cons_self
      rcases kept with ⟨_, above, _⟩ | later
      · exact above
      · have := induction nonneg.tail later
        omega

theorem lt_of_kept {position positionA : Int} (nonneg : Nonneg ⟨sections⟩)
    (kept : Kept position positionA sections) : position < positionA + oldLen ⟨sections⟩ := by
  induction sections generalizing positionA with
  | nil => exact kept.elim
  | cons sect sections induction =>
      have rest_nonneg := nonneg.tail.oldLen_nonneg
      have total : oldLen ⟨sect :: sections⟩ = sect.oldLen + oldLen ⟨sections⟩ := rfl
      rw [total]
      rcases kept with ⟨_, _, inside⟩ | later
      · omega
      · have := induction nonneg.tail later
        omega

/-- The number of code units that a section writes. -/
theorem length_labelled {sect : Section} (valid : sect.Valid) {piece : List UInt16}
    (fits : piece.length = sect.oldLen.toNat) : ((sect.labelled piece).length : Int) =
      if sect.changed then sect.newLen else sect.oldLen := by
  obtain ⟨oldLen_nonneg, equality⟩ := valid
  unfold Section.labelled
  cases changed : sect.changed with
  | true =>
      simp only [if_true, List.length_map, equality changed]
      rfl
  | false =>
      simp only [Bool.false_eq_true, if_false, List.length_map, fits]
      omega

/-- A position beyond a section is carried by the sections after it. -/
theorem mapPosSections_beyond (sect : Section) {position positionA : Int}
    (beyond : positionA + sect.oldLen ≤ position) (positionB : Int) :
    mapPosSections position 1 positionA positionB (sect :: sections) =
      mapPosSections position 1 (positionA + sect.oldLen)
        (positionB + if sect.changed then sect.newLen else sect.oldLen) sections := by
  have outside : ¬(positionA + sect.oldLen > position ∨
      positionA + sect.oldLen = position ∧ (1 : Int) < 0 ∧ sect.oldLen = 0) := by omega
  rw [mapPosSections]
  cases changed : sect.changed with
  | true => simp only [Bool.true_eq_false, if_false, if_neg outside, if_true]
  | false => simp only [if_true, if_neg (not_or.mp outside).1, Bool.false_eq_true, if_false]

/-- A position in a section that is not changed. -/
theorem mapPosSections_inside {sect : Section} (unchanged : sect.changed = false)
    {position positionA : Int} (inside : position < positionA + sect.oldLen) (positionB : Int) :
    mapPosSections position 1 positionA positionB (sect :: sections) =
      positionB + position - positionA := by
  rw [mapPosSections, if_pos unchanged, if_pos inside]

/-- The places of the code units that are kept are those that their positions are carried to. -/
theorem labelledOf_eq_iff (valid : ∀ sect ∈ sections, sect.Valid) {units : List UInt16}
    (fits : units.length = (lengthsOf sections).sum) (positionA positionB : Int) (place : Nat)
    (unit : UInt16) :
    (labelledOf sections units)[place]? = some (unit, true) ↔
      ∃ position, Kept position positionA sections ∧
        units[(position - positionA).toNat]? = some unit ∧
        mapPosSections position 1 positionA positionB sections = positionB + place := by
  induction sections generalizing units positionA positionB place with
  | nil => simp [labelledOf, Kept]
  | cons sect sections induction =>
      have sound := valid sect List.mem_cons_self
      have rest : ∀ other ∈ sections, other.Valid := fun other member =>
        valid other (.tail _ member)
      rw [lengthsOf_cons, List.sum_cons] at fits
      have taken : (units.take sect.oldLen.toNat).length = sect.oldLen.toNat := by
        rw [List.length_take]
        omega
      have written := length_labelled sound taken
      have beyond {position : Int} (kept : Kept position (positionA + sect.oldLen) sections) :=
        le_of_kept (nonneg_of_valid rest) kept
      have later {position : Int} (kept : Kept position (positionA + sect.oldLen) sections) :
          units[(position - positionA).toNat]? =
            (units.drop sect.oldLen.toNat)[(position - (positionA + sect.oldLen)).toNat]? := by
        have := beyond kept
        have := sound.1
        rw [List.getElem?_drop]
        congr 1
        omega
      rw [labelledOf, List.getElem?_append]
      split
      case isTrue here =>
        constructor
        · intro found
          unfold Section.labelled at found
          cases changed : sect.changed with
          | true => simp [changed] at found
          | false =>
              simp only [changed, Bool.false_eq_true, if_false, List.getElem?_map,
                Option.map_eq_some_iff, Prod.mk.injEq, and_true, exists_eq_right] at found
              simp only [changed, Bool.false_eq_true, if_false] at written
              have inside : positionA + place < positionA + sect.oldLen := by omega
              refine ⟨positionA + place, .inl ⟨changed, by omega, inside⟩, ?_, ?_⟩
              · rw [List.getElem?_take_of_lt (by omega)] at found
                rw [← found]
                congr 1
                omega
              · rw [mapPosSections_inside changed inside]
                omega
        · rintro ⟨position, ⟨unchanged, above, inside⟩ | kept, found, carried⟩
          · rw [mapPosSections_inside unchanged inside] at carried
            have same : place = (position - positionA).toNat := by omega
            rw [Section.labelled, if_neg (by simp [unchanged]), List.getElem?_map,
              List.getElem?_take_of_lt (by omega), same, found]
            rfl
          · exfalso
            have after := beyond kept
            have bounds := (mapPosSections_bounds (nonneg_of_valid rest) after 1
              (positionB + if sect.changed then sect.newLen else sect.oldLen)).1
            rw [mapPosSections_beyond sect after] at carried
            omega
      case isFalse there =>
        rw [induction rest (by rw [List.length_drop]; omega) (positionA + sect.oldLen)
          (positionB + if sect.changed then sect.newLen else sect.oldLen)]
        constructor
        · rintro ⟨position, kept, found, carried⟩
          refine ⟨position, .inr kept, by rw [later kept, found], ?_⟩
          rw [mapPosSections_beyond sect (beyond kept), carried]
          omega
        · rintro ⟨position, ⟨unchanged, above, inside⟩ | kept, found, carried⟩
          · exfalso
            rw [mapPosSections_inside unchanged inside] at carried
            simp only [unchanged, Bool.false_eq_true, if_false] at written
            omega
          · refine ⟨position, kept, by rw [← later kept, found], ?_⟩
            rw [mapPosSections_beyond sect (beyond kept)] at carried
            omega

/-- A code unit survives on the server unless it is a lone surrogate. -/
theorem mend_eq_some_iff {units : List UInt16} {place : Nat} {unit : UInt16}
    (found : units[place]? = some unit) :
    (mend units)[place]? = some unit ↔ (marked units)[place]? ≠ some (unit, true) := by
  obtain ⟨mark, listed⟩ : ∃ mark, (marked units)[place]? = some (unit, mark) := by
    rw [← map_fst_marked units, List.getElem?_map, Option.map_eq_some_iff] at found
    obtain ⟨⟨_, mark⟩, listed, rfl⟩ := found
    exact ⟨mark, listed⟩
  rw [← map_kept_marked, List.getElem?_map, listed]
  cases mark with
  | false => simp [kept]
  | true =>
      have lone := sparing_marked units _ (List.mem_of_getElem? listed) rfl
      have replaced : replacementUnit ≠ unit := fun same => lone (same ▸ plain_replacementUnit)
      simp [kept, replaced]

theorem strands_iff {units : List UInt16} : set.Strands units ↔
    ∃ (place : Nat) (unit : UInt16), (labelledOf set.sections units)[place]? = some (unit, true) ∧
      ∃ other, (marked (set.run units))[place]? = some (other, true) := by
  rw [Strands, List.any_eq_true]
  constructor
  · rintro ⟨⟨⟨unit, _⟩, other, _⟩, member, marks⟩
    obtain ⟨place, found⟩ := List.mem_iff_getElem?.mp member
    rw [List.getElem?_zip_eq_some] at found
    obtain ⟨rfl, rfl⟩ := (Bool.and_eq_true_iff.mp marks)
    exact ⟨place, unit, found.1, other, found.2⟩
  · rintro ⟨place, unit, labelled, other, mark⟩
    exact ⟨((unit, true), (other, true)),
      List.mem_of_getElem? (List.getElem?_zip_eq_some.mpr ⟨labelled, mark⟩), rfl⟩

/-- Every position of the document is carried into the result, in order, and at most as far
backwards as forwards.  A kept code unit stands where its position is carried forwards to, for all
of them exactly if the set strands no surrogate. -/
theorem carries_positions {set : ChangeSet} {document : String}
    (checked : set.validateForLength (utf16Len document) = .ok ()) :
    (∀ position assoc, 0 ≤ position → position ≤ utf16Len document →
      ∃ mapped, set.mapPos position assoc = some mapped ∧ 0 ≤ mapped ∧ mapped ≤ set.newLen) ∧
    (∀ assoc left right mapped mapped', left ≤ right → set.mapPos left assoc = some mapped →
      set.mapPos right assoc = some mapped' → mapped ≤ mapped') ∧
    (∀ position mapped mapped', set.mapPos position (-1) = some mapped →
      set.mapPos position 1 = some mapped' → mapped ≤ mapped') ∧
    ∃ result, set.apply document = .ok result ∧
      ((∀ position, set.Keeps position → ∃ mapped unit, set.mapPos position 1 = some mapped ∧
          (utf16Units document)[position.toNat]? = some unit ∧
          (utf16Units result)[mapped.toNat]? = some unit) ↔
        ¬set.Strands (utf16Units document)) := by
  obtain ⟨fits, valid⟩ := valid_of_validateForLength checked
  have nonneg : set.Nonneg := nonneg_of_valid valid
  have carried {position assoc mapped : Int} (found : set.mapPos position assoc = some mapped) :
      0 ≤ position ∧ mapPosSections position assoc 0 0 set.sections = mapped := by
    rw [mapPos] at found
    split at found
    · cases found
    · exact ⟨by omega, Option.some.inj found⟩
  refine ⟨fun position assoc low high => ?_,
    fun assoc left right mapped mapped' ordered found found' => ?_,
    fun position mapped mapped' found found' => ?_, ?_⟩
  · rcases nonneg.mapPos_spec position assoc with ⟨_, _, spec⟩ | ⟨outside, _⟩
    · exact spec
    · exact absurd ⟨low, fits ▸ high⟩ outside
  · rw [← (carried found).2, ← (carried found').2]
    exact mapPosSections_mono nonneg (carried found).1 ordered assoc 0
  · rw [← (carried found).2, ← (carried found').2]
    exact mapPosSections_assoc nonneg (carried found).1 0
  have applied : set.applyUnits (utf16Units document) = .ok (set.run (utf16Units document)) :=
    applyUnits_of_valid valid fits
  have total : (utf16Units document).length = (lengthsOf set.sections).sum := by
    have sum_eq : ((lengthsOf set.sections).sum : Int) = set.oldLen :=
      sum_lengthsOf fun sect member => (valid sect member).1
    have length_eq : set.oldLen = (utf16Units document).length := fits
    omega
  refine ⟨_, by rw [apply, applied], ?_⟩
  have mended : utf16Units (String.ofList (decode (set.run (utf16Units document)))) =
      mend (set.run (utf16Units document)) := by rw [utf16Units, String.toList_ofList, mend]
  have written {place : Nat} {unit : UInt16}
      (labelled : (labelledOf set.sections (utf16Units document))[place]? = some (unit, true)) :
      (set.run (utf16Units document))[place]? = some unit := by
    rw [run, ← map_fst_labelledOf valid total, List.getElem?_map, labelled]
    rfl
  rw [mended, strands_iff]
  constructor
  · rintro follows ⟨place, unit, labelled, other, mark⟩
    obtain ⟨position, kept, found, place_eq⟩ :=
      (labelledOf_eq_iff valid total 0 0 place unit).mp labelled
    obtain ⟨mapped, unit', mapped_eq, found', survives⟩ := follows position kept
    rw [Int.sub_zero, found', Option.some.injEq] at found
    subst found
    have same : mapped = place := by
      rw [← (carried mapped_eq).2, place_eq]
      omega
    rw [same, Int.toNat_natCast, mend_eq_some_iff (written labelled)] at survives
    have other_eq := congrArg (Option.map Prod.fst) mark
    rw [← List.getElem?_map, map_fst_marked, written labelled] at other_eq
    cases other_eq
    exact survives mark
  · intro spared position kept
    have above := le_of_kept nonneg kept
    have inside := lt_of_kept nonneg kept
    rw [Int.zero_add] at inside
    have bound : position.toNat < (utf16Units document).length := by
      have length_eq : set.oldLen = (utf16Units document).length := fits
      change position < set.oldLen at inside
      omega
    have low := (mapPosSections_bounds nonneg above 1 0).1
    have labelled := (labelledOf_eq_iff valid total 0 0
      (mapPosSections position 1 0 0 set.sections).toNat (utf16Units document)[position.toNat]).mpr
        ⟨position, kept, by rw [Int.sub_zero, List.getElem?_eq_getElem bound], by omega⟩
    refine ⟨_, _, mapPos_eq above inside.le 1, List.getElem?_eq_getElem bound, ?_⟩
    rw [mend_eq_some_iff (written labelled)]
    exact fun mark => spared ⟨_, _, labelled, _, mark⟩

end ChangeSet

end Oxbin.Livecollab
