import Mathlib.Algebra.Order.BigOperators.Group.List
import Oxbin.Livecollab.Encoding
import Oxbin.Livecollab.Rebasing

/-!
# Canonical change sets

The parser returns canonical sets, and `Map` keeps them canonical.  What the server accepts can
therefore be written to the store and read back unchanged.
-/

namespace Oxbin.Livecollab

/-! ## The parser -/

theorem parseNonNegativeInt_range {raw : Json} {value : Int}
    (parsed : parseNonNegativeInt raw = some value) : 0 ≤ value ∧ value < intLimit := by
  unfold parseNonNegativeInt at parsed
  simp only at parsed
  split at parsed
  case h_1 =>
    split at parsed
    case isTrue range =>
      cases parsed
      exact range
    case isFalse => cases parsed
  case h_2 => cases parsed

theorem parseSection_canonical {index : Nat} {raw : Json} {sections : List Section}
    (parsed : parseSection index raw = .ok sections) : ∀ sect ∈ sections, sect.Canonical := by
  unfold parseSection at parsed
  split at parsed
  case h_1 => cases parsed
  case h_2 first values =>
    split at parsed
    case h_1 => cases parsed
    case h_2 oldLen length =>
      obtain ⟨nonneg, small⟩ := parseNonNegativeInt_range length
      cases lines : parseLines index 0 values with
      | error => rw [lines] at parsed; cases parsed
      | ok lines' =>
          rw [lines] at parsed
          cases parsed
          intro sect member
          cases List.mem_singleton.mp member
          refine ⟨.inr ⟨nonneg, rfl⟩, fun negative => ?_, small⟩
          exact absurd (utf16Len_nonneg _) (not_le.mpr negative)
  case h_3 =>
    split at parsed
    case h_1 => cases parsed
    case h_2 length read =>
      obtain ⟨nonneg, small⟩ := parseNonNegativeInt_range read
      cases parsed
      intro sect member
      split at member
      case isTrue positive =>
        cases List.mem_singleton.mp member
        exact ⟨.inl ⟨rfl, positive⟩, fun _ => rfl, small⟩
      case isFalse => cases member

theorem parseSections_canonical {index : Nat} {parts : List Json} {sections : List Section}
    (parsed : parseSections index parts = .ok sections) : ∀ sect ∈ sections, sect.Canonical := by
  induction parts generalizing index sections with
  | nil =>
      cases parsed
      intro sect member
      cases member
  | cons part parts induction =>
      rw [parseSections] at parsed
      split at parsed
      case h_1 => cases parsed
      case h_2 first read =>
        cases rest : parseSections (index + 1) parts with
        | error => rw [rest] at parsed; cases parsed
        | ok later =>
            rw [rest] at parsed
            cases parsed
            intro sect member
            rcases List.mem_append.mp member with early | late
            · exact parseSection_canonical read sect early
            · exact induction rest sect late

/-- The parser returns canonical sets. -/
theorem canonical_of_parseChangeSetJSON {json : Json} {set : ChangeSet}
    (parsed : parseChangeSetJSON json = .ok set) : set.Canonical := by
  unfold parseChangeSetJSON at parsed
  split at parsed
  case h_1 parts =>
    cases sections : parseSections 0 parts with
    | error => rw [sections] at parsed; cases parsed
    | ok sections' =>
        rw [sections] at parsed
        cases parsed
        exact parseSections_canonical sections
  case h_2 => cases parsed

/-! ## The two directions of mapping -/

/-- A kept section has no text. -/
def Section.Plain (sect : Section) : Prop := -1 ≤ sect.newLen ∧ (sect.newLen < 0 → sect.insert = "")

/-- Every section of the set is plain. -/
def ChangeSet.Plain (set : ChangeSet) : Prop := ∀ sect ∈ set.sections, sect.Plain

theorem addSection_plain {set : ChangeSet} {oldLength newLength : Int} {insert : String}
    (plain : set.Plain) (lower : -1 ≤ newLength) (empty : newLength < 0 → insert = "") :
    (addSection set oldLength newLength insert false).Plain := by
  unfold addSection
  split
  case isTrue => exact plain
  case isFalse nonempty =>
    split
    case h_1 =>
      intro sect member
      cases List.mem_singleton.mp member
      exact ⟨lower, empty⟩
    case h_2 last found =>
      have lastPlain := plain last (List.mem_of_getLast? found)
      have replaced {sect : Section} (sectPlain : sect.Plain) :
          ChangeSet.Plain ⟨set.sections.dropLast ++ [sect]⟩ := by
        intro other member
        rcases List.mem_append.mp member with front | back
        · exact plain other (List.dropLast_subset _ front)
        · cases List.mem_singleton.mp back
          exact sectPlain
      simp only
      split
      case isTrue => exact replaced lastPlain
      case isFalse =>
        split
        case isTrue inserted =>
          -- Both are insertions, the new one of a positive length.
          apply replaced
          have positive : 0 < newLength := by omega
          have := lastPlain.1
          exact ⟨by simp only; omega, fun negative => by simp only at negative; omega⟩
        case isFalse =>
          intro other member
          rcases List.mem_append.mp member with front | back
          · exact plain other front
          · cases List.mem_singleton.mp back
            exact ⟨lower, empty⟩

theorem coverChange_plain {fuel : Nat} {length : Int} {state state' : MapState}
    (plain : state.result.Plain) (covered : coverChange fuel length state = some state') :
    state'.result.Plain := by
  induction fuel generalizing length state with
  | zero => cases covered
  | succ fuel induction =>
      rw [coverChange] at covered
      split at covered
      case isTrue =>
        refine induction ?_ covered
        simp only
        split
        case isTrue emits =>
          have nonneg := emits.1
          apply addSection_plain plain
          · rw [SectionIter.newLength, if_neg (by omega)]
            omega
          · rw [SectionIter.newLength, if_neg (by omega)]
            omega
        case isFalse => exact plain
      case isFalse =>
        cases covered
        exact plain

theorem mapLoop_plain {before : Bool} {fuel : Nat} {state : MapState} {result : ChangeSet}
    (plain : state.result.Plain) (mapped : mapLoop before fuel state = .ok result) :
    result.Plain := by
  induction fuel generalizing state with
  | zero => cases mapped
  | succ fuel induction =>
      rw [mapLoop] at mapped
      simp only at mapped
      split at mapped
      case isTrue => cases mapped
      case isFalse =>
        split at mapped
        case isTrue => exact induction (addSection_plain plain le_rfl fun _ => rfl) mapped
        case isFalse =>
          split at mapped
          case isTrue theirs =>
            split at mapped
            case h_1 => cases mapped
            case h_2 covered =>
              have kept : (addSection state.result state.b.newLength (-1) "" false).Plain :=
                addSection_plain plain le_rfl fun _ => rfl
              have plain' := coverChange_plain kept covered
              refine induction ?_ mapped
              exact plain'
          case isFalse =>
            split at mapped
            case isTrue ours =>
              split at mapped
              case h_1 => cases mapped
              case h_2 =>
                refine induction ?_ mapped
                simp only
                split
                case isTrue =>
                  apply addSection_plain plain
                  · rw [SectionIter.newLength, if_neg (by omega)]
                    omega
                  · rw [SectionIter.newLength, if_neg (by omega)]
                    omega
                case isFalse => exact addSection_plain plain (by omega) (by omega)
            case isFalse =>
              split at mapped
              case isTrue =>
                cases mapped
                exact plain
              case isFalse => cases mapped

theorem ChangeSet.map_plain {set other result : ChangeSet} {before : Bool}
    (mapped : set.map other before = .ok result) : result.Plain := by
  unfold ChangeSet.map at mapped
  split at mapped
  case isTrue => cases mapped
  case isFalse =>
    refine mapLoop_plain ?_ mapped
    intro sect member
    cases member

/-- `Map` returns well-formed sets. -/
theorem ChangeSet.WellFormed.map {set other result : ChangeSet} {before : Bool}
    (formed : set.WellFormed) (formed' : other.WellFormed)
    (mapped : set.map other before = .ok result) : result.WellFormed := by
  have lengths : set.oldLen = other.oldLen := by
    unfold ChangeSet.map at mapped
    split at mapped
    case isTrue => cases mapped
    case isFalse same => exact not_not.mp same
  have total := formed.sum_lengths
  have total' := formed'.sum_lengths
  have nonneg : 0 ≤ set.oldLen := by omega
  let units : List UInt16 := List.replicate set.oldLen.toNat 0
  have fits : set.Fits (fun _ => True) units := ⟨formed, .of_length (by simp [units]; omega)⟩
  have fits' : other.Fits (fun _ => True) units := ⟨formed', .of_length (by simp [units]; omega)⟩
  obtain ⟨result', mapped', valid, _⟩ := map_spec .trivial (fun _ => ⟨⟩) fits fits' before
  rw [mapped] at mapped'
  cases mapped'
  exact valid.formed

/-- A section is at most as long as the set. -/
theorem ChangeSet.WellFormed.oldLen_le {set : ChangeSet} (formed : set.WellFormed)
    {sect : Section} (member : sect ∈ set.sections) : sect.oldLen ≤ set.oldLen := by
  refine List.single_le_sum ?_ _ (List.mem_map_of_mem member)
  intro length lengths
  obtain ⟨other, present, rfl⟩ := List.mem_map.mp lengths
  exact (formed other present).oldLen_nonneg

/-- A plain, well-formed set whose length fits into an `int` is canonical. -/
theorem ChangeSet.WellFormed.canonical {set : ChangeSet} (formed : set.WellFormed)
    (plain : set.Plain) (small : set.oldLen < intLimit) : set.Canonical :=
  fun sect member => {
    proper := formed sect member
    plain := (plain sect member).2
    small := (formed.oldLen_le member).trans_lt small }

theorem ChangeSet.Canonical.plainSet {set : ChangeSet} (canonical : set.Canonical) : set.Plain := by
  intro sect member
  have sectCanonical := canonical sect member
  refine ⟨?_, sectCanonical.plain⟩
  rcases sectCanonical.proper.newLen_cases with ⟨kept, _⟩ | ⟨nonneg, _⟩
  · exact kept.ge
  · omega

/-! ## Applying -/

theorem ChangeSet.oldLen_of_apply {set : ChangeSet} {document result : String}
    (applied : set.apply document = .ok result) : set.oldLen = utf16Len document := by
  unfold ChangeSet.apply ChangeSet.applyUnits at applied
  split at applied
  case h_1 => cases applied
  case h_2 output walked =>
    split at walked
    case isTrue => cases walked
    case isFalse same => exact not_not.mp same

theorem length_encodeRune_le (rune : Char) : (encodeRune rune).length ≤ rune.utf8Size := by
  have positive := rune.utf8Size_pos
  unfold encodeRune
  split
  case isTrue => exact positive
  case isFalse large =>
    have bytes : rune.utf8Size = 4 := by
      rw [Char.utf8Size_eq_four_iff, UInt32.lt_iff_toNat_lt]
      have : rune.val.toNat = rune.toNat := rfl
      simp only [UInt32.reduceToNat]
      omega
    rw [bytes, List.length_cons, List.length_singleton]
    omega

/-- A string has at least as many bytes as code units. -/
theorem utf16Len_le (value : String) : utf16Len value ≤ value.utf8ByteSize := by
  have bytes (runes : List Char) : (encode runes).length ≤ (String.ofList runes).utf8ByteSize := by
    induction runes with
    | nil => exact Nat.zero_le _
    | cons rune runes induction =>
        have := length_encodeRune_le rune
        have split : String.ofList (rune :: runes) =
            String.singleton rune ++ String.ofList runes := by
          apply String.toList_inj.mp
          simp
        rw [split, String.utf8ByteSize_append, String.utf8ByteSize_singleton, encode_cons,
          List.length_append]
        omega
  have := bytes value.toList
  rw [String.ofList_toList] at this
  exact Int.ofNat_le.mpr this

end Oxbin.Livecollab
