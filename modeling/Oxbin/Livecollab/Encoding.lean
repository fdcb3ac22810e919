import Oxbin.Data.Json
import Oxbin.Livecollab.Semantics

/-!
# The JSON form of change sets

A number keeps units, `[n, ...lines]` replaces `n` units by the lines.  `encodeChangeSet` writes
this form and `parseChangeSetJSON` reads it; reading what was written gives the set back, for
every set that the parser can return.
-/

namespace Oxbin.Livecollab

/-- The first number that does not fit into the program's `int`. -/
def intLimit : Int := 2 ^ 63

/-- The lines of a text. -/
def splitLines (value : String) : List String :=
  (value.toList.splitOn '\n').map String.ofList

/-- The text with the given lines. -/
def joinLines (lines : List String) : String :=
  String.ofList (List.intercalate ['\n'] (lines.map String.toList))

/-- `encodeChangeSet`. -/
def encodeChangeSet (set : ChangeSet) : Json :=
  .arr <| set.sections.map fun sect =>
    if sect.newLen < 0 then .num sect.oldLen
    else .arr (.num sect.oldLen :: (splitLines sect.insert).map .str)

/-- The value of decimal digits. -/
def digitsValue : Nat → List Char → Option Nat
  | value, [] => some value
  | value, digit :: digits =>
      if '0' ≤ digit ∧ digit ≤ '9' then
        digitsValue (10 * value + (digit.toNat - '0'.toNat)) digits
      else none

/-- A JSON integer literal: digits without a leading zero, and perhaps a sign. -/
def integerLiteral (value : String) : Option Int :=
  match value.toList with
  | ['-', '0'] | ['0'] => some 0
  | '-' :: digit :: digits =>
      if '1' ≤ digit then (digitsValue 0 (digit :: digits)).map fun value => -(value : Int)
        else none
  | digit :: digits =>
      if '1' ≤ digit then (digitsValue 0 (digit :: digits)).map fun value => (value : Int) else none
  | [] => none

/-- `parseNonNegativeInt`.  A `json.Number` may also be given as a string. -/
def parseNonNegativeInt (raw : Json) : Option Int :=
  let number := match raw with
    | .num value => some value
    | .str value => integerLiteral value
    | _ => none
  match number with
  | some value => if 0 ≤ value ∧ value < intLimit then some value else none
  | none => none

/-- The lines of a changed section; `null` leaves the line empty. -/
def parseLines (index : Nat) : Nat → List Json → Except CollabError (List String)
  | _, [] => .ok []
  | line, value :: values =>
      match value with
      | .str text => (parseLines index (line + 1) values).map (text :: ·)
      | .null => (parseLines index (line + 1) values).map ("" :: ·)
      | _ => .error (.invalidChangeSet (.sectionLine index line))

/-- One section of the JSON form, or nothing for an empty kept range. -/
def parseSection (index : Nat) : Json → Except CollabError (List Section)
  | .arr [] => .error (.invalidChangeSet (.sectionNotArray index))
  | .arr (first :: values) =>
      match parseNonNegativeInt first with
      | none => .error (.invalidChangeSet (.sectionLength index))
      | some oldLen =>
          (parseLines index 0 values).map fun lines =>
            let insert := joinLines lines
            [⟨oldLen, utf16Len insert, insert⟩]
  | raw =>
      match parseNonNegativeInt raw with
      | none => .error (.invalidChangeSet (.sectionLength index))
      | some length => .ok (if 0 < length then [⟨length, -1, ""⟩] else [])

/-- The sections from number `index` on. -/
def parseSections : Nat → List Json → Except CollabError (List Section)
  | _, [] => .ok []
  | index, part :: parts =>
      match parseSection index part with
      | .error error => .error error
      | .ok sections => (parseSections (index + 1) parts).map (sections ++ ·)

/-- `ParseChangeSetJSON`, on the JSON value that the bytes denote. -/
def parseChangeSetJSON : Json → Except CollabError ChangeSet
  | .arr parts => (parseSections 0 parts).map ChangeSet.mk
  | _ => .error (.invalidChangeSet .rootNotArray)

/-! ## Reading what was written -/

/-- The sections that the parser returns: proper, with lengths that fit into an `int`, and
without text in a kept section. -/
structure Section.Canonical (sect : Section) : Prop where
  proper : sect.Proper
  plain : sect.newLen < 0 → sect.insert = ""
  small : sect.oldLen < intLimit

/-- Every section of the set is canonical. -/
def ChangeSet.Canonical (set : ChangeSet) : Prop := ∀ sect ∈ set.sections, sect.Canonical

instance (sect : Section) : Decidable sect.Canonical :=
  decidable_of_iff (sect.Proper ∧ (sect.newLen < 0 → sect.insert = "") ∧ sect.oldLen < intLimit)
    ⟨fun ⟨proper, plain, small⟩ => ⟨proper, plain, small⟩,
      fun ⟨proper, plain, small⟩ => ⟨proper, plain, small⟩⟩

instance (set : ChangeSet) : Decidable set.Canonical :=
  inferInstanceAs (Decidable (∀ sect ∈ set.sections, sect.Canonical))

theorem ChangeSet.Canonical.wellFormed {set : ChangeSet} (canonical : set.Canonical) :
    set.WellFormed :=
  fun sect member => (canonical sect member).proper

@[simp] theorem joinLines_splitLines (value : String) : joinLines (splitLines value) = value := by
  simp [joinLines, splitLines, List.map_map, Function.comp_def, List.intercalate_splitOn]

theorem parseLines_str (index line : Nat) (lines : List String) :
    parseLines index line (lines.map .str) = .ok lines := by
  induction lines generalizing line with
  | nil => rfl
  | cons text lines induction => simp [parseLines, induction, Except.map]

theorem parseNonNegativeInt_num {value : Int} (nonneg : 0 ≤ value) (small : value < intLimit) :
    parseNonNegativeInt (.num value) = some value := by
  simp [parseNonNegativeInt, nonneg, small]

theorem parseSection_encoded (index : Nat) {sect : Section} (canonical : sect.Canonical) :
    parseSection index
      (if sect.newLen < 0 then .num sect.oldLen
        else .arr (.num sect.oldLen :: (splitLines sect.insert).map .str)) = .ok [sect] := by
  have nonneg := canonical.proper.oldLen_nonneg
  have parsed := parseNonNegativeInt_num nonneg canonical.small
  rcases canonical.proper with ⟨unchanged, positive⟩ | ⟨_, changed⟩
  · have plain := canonical.plain (by omega)
    rw [if_pos (by omega)]
    simp only [parseSection, parsed, if_pos positive]
    rw [← unchanged, ← plain]
  · have new_nonneg := utf16Len_nonneg sect.insert
    rw [if_neg (by omega)]
    simp only [parseSection, parsed, parseLines_str, Except.map, joinLines_splitLines]
    rw [← changed]

/-- The parser returns a canonical set from its own encoding. -/
theorem parseChangeSetJSON_encodeChangeSet {set : ChangeSet} (canonical : set.Canonical) :
    parseChangeSetJSON (encodeChangeSet set) = .ok set := by
  obtain ⟨sections⟩ := set
  have parsed (index : Nat) : parseSections index (sections.map fun sect =>
      if sect.newLen < 0 then .num sect.oldLen
      else .arr (.num sect.oldLen :: (splitLines sect.insert).map .str)) = .ok sections := by
    induction sections generalizing index with
    | nil => rfl
    | cons sect sections induction =>
        have tail := induction fun other member => canonical other (by
          simp only at member ⊢
          exact List.mem_cons_of_mem sect member)
        rw [List.map_cons, parseSections,
          parseSection_encoded index (canonical sect (by simp)), tail]
        rfl
  simp only [encodeChangeSet, parseChangeSetJSON, parsed, Except.map]

end Oxbin.Livecollab
