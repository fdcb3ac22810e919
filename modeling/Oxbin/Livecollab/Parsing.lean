import Mathlib.Data.List.DropRight
import Oxbin.Data.JsonWriting
import Oxbin.Live.Validation
import Oxbin.Livecollab.Canonical

/-!
# Parsing change sets

`ParseChangeSetJSON` on the bytes of a message, and the texts that it accepts.  Beside the grammar
that its comments describe it takes lengths in quotes and lines that are `null`.
-/

namespace Oxbin.Livecollab

open Json (DocumentText)

/-- `ParseChangeSetJSON`. -/
def parseChangeSetBytes (data : List UInt8) : Except CollabError ChangeSet :=
  let runes := Utf8.decode data
  if (Live.trimSpace runes).head? ≠ some '[' then .error (.invalidChangeSet .rootNotArray)
  else
    match Json.decodeNext runes with
    | none => .error (.invalidChangeSet .malformed)
    | some (json, rest) =>
        if Json.skipSpace rest = [] then parseChangeSetJSON json
        else .error (.invalidChangeSet .trailing)

/-! ## The root -/

theorem trimSpace_head {rune : Char} (visible : Live.isSpace rune = false) (text : List Char) :
    (Live.trimSpace (rune :: text)).head? = some rune := by
  have kept : (rune :: text).dropWhile Live.isSpace = rune :: text :=
    List.dropWhile_cons_of_neg (by simp [visible])
  unfold Live.trimSpace
  rw [kept]
  have nonempty : (rune :: text).rdropWhile Live.isSpace ≠ [] := by
    rw [Ne, List.rdropWhile_eq_nil_iff]
    exact fun blank => by
      have space := blank rune (by simp)
      rw [visible] at space
      cases space
  obtain ⟨back, split⟩ := List.rdropWhile_prefix Live.isSpace (rune :: text)
  change ((rune :: text).rdropWhile Live.isSpace).head? = some rune
  cases front : (rune :: text).rdropWhile Live.isSpace with
  | nil => exact absurd front nonempty
  | cons first rest =>
      rw [front] at split
      cases split
      rfl

theorem isSpace_of_isSpace {rune : Char} (space : Json.isSpace rune = true) :
    Live.isSpace rune = true := by
  unfold Json.isSpace at space
  rcases of_decide_eq_true space with rfl | rfl | rfl | rfl <;> decide

/-- A text that is an array passes the check of the root. -/
theorem root_of_documentText {parts : List Json} {text : List Char}
    (document : DocumentText (.arr parts) text) : (Live.trimSpace text).head? = some '[' := by
  obtain ⟨before, front, after, blank, _, isValue, rfl⟩ := document
  have square : ∃ rest, front = '[' :: rest := by
    cases isValue with
    | number isNumber =>
        generalize same : Json.arr parts = value at isNumber
        obtain ⟨sign, whole, fraction, exponent, _⟩ := isNumber
        unfold Json.number at same
        split at same <;> cases same
    | array isNested isList => exact ⟨_, rfl⟩
  obtain ⟨rest, rfl⟩ := square
  have trimmed : Live.trimSpace (before ++ '[' :: rest ++ after) =
      Live.trimSpace ('[' :: (rest ++ after)) := by
    unfold Live.trimSpace
    rw [List.append_assoc, List.dropWhile_append_of_pos fun rune member =>
      isSpace_of_isSpace (blank rune member)]
    rfl
  rw [trimmed]
  exact trimSpace_head (by decide) _

/-- The parser reads one JSON value and takes it apart. -/
theorem parseChangeSetBytes_iff {data : List UInt8} {set : ChangeSet} :
    parseChangeSetBytes data = .ok set ↔ ∃ parts, DocumentText (.arr parts) (Utf8.decode data) ∧
      parseSections 0 parts = .ok set.sections := by
  have parsed (json : Json) : parseChangeSetJSON json = .ok set ↔
      ∃ parts, json = .arr parts ∧ parseSections 0 parts = .ok set.sections := by
    cases json with
    | arr parts =>
        rw [parseChangeSetJSON]
        cases sections : parseSections 0 parts with
        | error error => simp [sections, Except.map]
        | ok sections' =>
            obtain ⟨own⟩ := set
            simp [sections, Except.map]
    | _ => simp [parseChangeSetJSON]
  constructor
  · intro accepted
    unfold parseChangeSetBytes at accepted
    simp only at accepted
    split at accepted
    case isTrue => cases accepted
    case isFalse =>
      split at accepted
      case h_1 => cases accepted
      case h_2 json rest read =>
        split at accepted
        case isTrue blank =>
          obtain ⟨parts, rfl, sections⟩ := (parsed json).mp accepted
          refine ⟨parts, Json.parse_iff.mp ?_, sections⟩
          unfold Json.parse
          rw [read]
          simp only
          rw [if_pos blank]
        case isFalse => cases accepted
  · rintro ⟨parts, document, sections⟩
    have read := Json.parse_iff.mpr document
    unfold parseChangeSetBytes
    simp only
    rw [if_neg (not_not.mpr (root_of_documentText document))]
    unfold Json.parse at read
    split at read
    case h_1 json rest next =>
      rw [next]
      simp only
      split at read
      case isTrue blank =>
        cases read
        rw [if_pos blank]
        exact (parsed _).mpr ⟨parts, rfl, sections⟩
      case isFalse => cases read
    case h_2 => cases read

/-! ## Sections -/

/-- A length that `parseNonNegativeInt` takes: a number, or a string with a number in it. -/
inductive LengthJson : Json → Int → Prop
  | number {length : Int} (nonneg : 0 ≤ length) (small : length < intLimit) :
      LengthJson (.num length) length
  | quoted {text : String} {length : Int} (literal : integerLiteral text = some length)
      (nonneg : 0 ≤ length) (small : length < intLimit) : LengthJson (.str text) length

/-- A line that `json.Unmarshal` takes: a string, or `null` for the empty line. -/
inductive LineJson : Json → String → Prop
  | string (text : String) : LineJson (.str text) text
  | null : LineJson .null ""

/-- The section that replaces units by lines. -/
def replacement (length : Int) (lines : List String) : Section :=
  ⟨length, utf16Len (joinLines lines), joinLines lines⟩

/-- The section that keeps units, unless there are none. -/
def keptSections (length : Int) : List Section := if 0 < length then [⟨length, -1, ""⟩] else []

/-- A part that the parser takes, and its sections. -/
inductive AcceptedPart : Json → List Section → Prop
  | kept {part : Json} {length : Int} (isLength : LengthJson part length) :
      AcceptedPart part (keptSections length)
  | changed {first : Json} {values : List Json} {length : Int} {lines : List String}
      (isLength : LengthJson first length) (isLines : List.Forall₂ LineJson values lines) :
      AcceptedPart (.arr (first :: values)) [replacement length lines]

/-- A part of the described grammar: a number, or an array of a number and strings. -/
inductive GrammarPart : Json → List Section → Prop
  | kept {length : Int} (nonneg : 0 ≤ length) (small : length < intLimit) :
      GrammarPart (.num length) (keptSections length)
  | changed {length : Int} (nonneg : 0 ≤ length) (small : length < intLimit)
      (lines : List String) :
      GrammarPart (.arr (.num length :: lines.map .str)) [replacement length lines]

/-- A part with a length in quotes or a line that is `null`. -/
def Coerces : Json → Prop
  | .str _ => True
  | .arr (.str _ :: _) => True
  | .arr (_ :: values) => ∃ value ∈ values, ∀ text, value ≠ .str text
  | _ => False

theorem parseNonNegativeInt_iff {raw : Json} {length : Int} :
    parseNonNegativeInt raw = some length ↔ LengthJson raw length := by
  constructor
  · intro parsed
    obtain ⟨nonneg, small⟩ := parseNonNegativeInt_range parsed
    unfold parseNonNegativeInt at parsed
    cases raw with
    | num value =>
        simp only [Option.ite_none_right_eq_some, Option.some.injEq] at parsed
        obtain ⟨_, rfl⟩ := parsed
        exact .number nonneg small
    | str text =>
        simp only at parsed
        split at parsed
        case h_1 value literal =>
          simp only [Option.ite_none_right_eq_some, Option.some.injEq] at parsed
          obtain ⟨_, rfl⟩ := parsed
          exact .quoted literal nonneg small
        case h_2 => cases parsed
    | _ => cases parsed
  · rintro (⟨nonneg, small⟩ | ⟨literal, nonneg, small⟩)
    · exact parseNonNegativeInt_num nonneg small
    · simp [parseNonNegativeInt, literal, nonneg, small]

theorem parseLines_iff {index line : Nat} {values : List Json} {lines : List String} :
    parseLines index line values = .ok lines ↔ List.Forall₂ LineJson values lines := by
  induction values generalizing line lines with
  | nil =>
      rw [parseLines]
      constructor
      · rintro ⟨⟩
        exact .nil
      · rintro ⟨⟩
        rfl
  | cons value values induction =>
      have taken (text : String) :
          (parseLines index (line + 1) values).map (text :: ·) = .ok lines ↔
          ∃ later, lines = text :: later ∧ List.Forall₂ LineJson values later := by
        cases rest : parseLines index (line + 1) values with
        | error error =>
            refine ⟨fun impossible => (by cases impossible), ?_⟩
            rintro ⟨later, _, isLines⟩
            rw [← induction, rest] at isLines
            cases isLines
        | ok later =>
            constructor
            · rintro ⟨⟩
              exact ⟨later, rfl, induction.mp rest⟩
            · rintro ⟨later', rfl, isLines⟩
              rw [← induction, rest] at isLines
              cases isLines
              rfl
      constructor
      · intro parsed
        unfold parseLines at parsed
        split at parsed
        case h_1 text =>
          obtain ⟨later, rfl, isLines⟩ := (taken text).mp parsed
          exact .cons (.string text) isLines
        case h_2 =>
          obtain ⟨later, rfl, isLines⟩ := (taken "").mp parsed
          exact .cons .null isLines
        case h_3 => cases parsed
      · rintro (_ | ⟨isLine, isLines⟩)
        cases isLine with
        | string => exact (taken _).mpr ⟨_, rfl, isLines⟩
        | null => exact (taken "").mpr ⟨_, rfl, isLines⟩

theorem parseSection_iff {index : Nat} {part : Json} {sections : List Section} :
    parseSection index part = .ok sections ↔ AcceptedPart part sections := by
  constructor
  · intro parsed
    unfold parseSection at parsed
    split at parsed
    case h_1 => cases parsed
    case h_2 first values =>
      split at parsed
      case h_1 => cases parsed
      case h_2 length read =>
        cases lines : parseLines index 0 values with
        | error error => rw [lines] at parsed; cases parsed
        | ok lines' =>
            rw [lines] at parsed
            cases parsed
            exact .changed (parseNonNegativeInt_iff.mp read) (parseLines_iff.mp lines)
    case h_3 =>
      split at parsed
      case h_1 => cases parsed
      case h_2 length read =>
        cases parsed
        exact .kept (parseNonNegativeInt_iff.mp read)
  · rintro (⟨isLength⟩ | ⟨isLength, isLines⟩)
    · have read := parseNonNegativeInt_iff.mpr isLength
      cases isLength with
      | number => rw [parseSection, read]; rfl; all_goals simp
      | quoted => rw [parseSection, read]; rfl; all_goals simp
    · rw [parseSection, parseNonNegativeInt_iff.mpr isLength, parseLines_iff.mpr isLines]
      rfl

theorem parseSections_iff {index : Nat} {parts : List Json} {sections : List Section} :
    parseSections index parts = .ok sections ↔
      ∃ taken, List.Forall₂ AcceptedPart parts taken ∧ sections = taken.flatten := by
  induction parts generalizing index sections with
  | nil =>
      rw [parseSections]
      constructor
      · rintro ⟨⟩
        exact ⟨[], .nil, rfl⟩
      · rintro ⟨_, ⟨⟩, rfl⟩
        rfl
  | cons part parts induction =>
      rw [parseSections]
      constructor
      · intro parsed
        split at parsed
        case h_1 => cases parsed
        case h_2 first read =>
          cases rest : parseSections (index + 1) parts with
          | error error => rw [rest] at parsed; cases parsed
          | ok later =>
              rw [rest] at parsed
              cases parsed
              obtain ⟨taken, isParts, rfl⟩ := induction.mp rest
              exact ⟨first :: taken, .cons (parseSection_iff.mp read) isParts, rfl⟩
      · rintro ⟨_, _ | ⟨isPart, isParts⟩, rfl⟩
        rw [parseSection_iff.mpr isPart]
        simp only
        rw [induction.mpr ⟨_, isParts, rfl⟩]
        rfl

/-- The parser accepts exactly the JSON arrays of accepted parts. -/
theorem parseChangeSetBytes_accepts {data : List UInt8} {set : ChangeSet} :
    parseChangeSetBytes data = .ok set ↔ ∃ parts taken,
      DocumentText (.arr parts) (Utf8.decode data) ∧ List.Forall₂ AcceptedPart parts taken ∧
        set.sections = taken.flatten := by
  rw [parseChangeSetBytes_iff]
  constructor
  · rintro ⟨parts, document, sections⟩
    obtain ⟨taken, isParts, flat⟩ := parseSections_iff.mp sections
    exact ⟨parts, taken, document, isParts, flat⟩
  · rintro ⟨parts, taken, document, isParts, flat⟩
    exact ⟨parts, document, parseSections_iff.mpr ⟨taken, isParts, flat⟩⟩

/-! ## The described grammar -/

/-- The bytes are a change set of the described grammar with the given sections. -/
def GrammarText (data : List UInt8) (sections : List Section) : Prop :=
  ∃ parts taken, DocumentText (.arr parts) (Utf8.decode data) ∧
    List.Forall₂ GrammarPart parts taken ∧ sections = taken.flatten

/-- The bytes are accepted, but with a length in quotes or a line that is `null`. -/
def CoercedText (data : List UInt8) : Prop :=
  ∃ parts taken, DocumentText (.arr parts) (Utf8.decode data) ∧
    List.Forall₂ AcceptedPart parts taken ∧ ∃ part ∈ parts, Coerces part

/-- A text is the text of one value. -/
theorem documentText_unique {text : List Char} {value value' : Json}
    (document : DocumentText value text) (document' : DocumentText value' text) :
    value = value' := by
  rw [← Json.parse_iff] at document document'
  exact Option.some.inj (document.symm.trans document')

theorem forall₂_lineJson {values : List Json} {lines : List String}
    (strings : ∀ value ∈ values, ∃ text, value = .str text)
    (isLines : List.Forall₂ LineJson values lines) : values = lines.map .str := by
  induction isLines with
  | nil => rfl
  | cons isLine isLines induction =>
      cases isLine with
      | string =>
          rw [List.map_cons, induction fun value member => strings value (by simp [member])]
      | null =>
          obtain ⟨text, impossible⟩ := strings .null (by simp)
          cases impossible

theorem lineJson_strings (lines : List String) :
    List.Forall₂ LineJson (lines.map .str) lines := by
  induction lines with
  | nil => exact .nil
  | cons line lines induction => exact .cons (.string line) induction

/-- The grammar is what the parser accepts without coercion. -/
theorem grammarPart_iff {part : Json} {sections : List Section} :
    GrammarPart part sections ↔ AcceptedPart part sections ∧ ¬Coerces part := by
  constructor
  · rintro (⟨nonneg, small⟩ | ⟨nonneg, small, lines⟩)
    · exact ⟨.kept (.number nonneg small), id⟩
    · refine ⟨.changed (.number nonneg small) (lineJson_strings lines), ?_⟩
      rintro ⟨value, member, different⟩
      obtain ⟨line, _, rfl⟩ := List.mem_map.mp member
      exact different line rfl
  · rintro ⟨⟨isLength⟩ | ⟨isLength, isLines⟩, plain⟩
    · cases isLength with
      | number nonneg small => exact .kept nonneg small
      | quoted => exact absurd trivial plain
    · cases isLength with
      | quoted => exact absurd trivial plain
      | number nonneg small =>
          have strings : ∀ value ∈ _, ∃ text, value = Json.str text := fun value member => by
            by_contra none
            exact plain ⟨value, member, fun text same => none ⟨text, same⟩⟩
          rw [forall₂_lineJson strings isLines]
          exact .changed nonneg small _

theorem forall₂_grammarPart {parts : List Json} {taken : List (List Section)} :
    List.Forall₂ GrammarPart parts taken ↔
      List.Forall₂ AcceptedPart parts taken ∧ ∀ part ∈ parts, ¬Coerces part := by
  constructor
  · intro isParts
    induction isParts with
    | nil => exact ⟨.nil, by simp⟩
    | cons isPart isParts induction =>
        obtain ⟨accepted, plain⟩ := grammarPart_iff.mp isPart
        exact ⟨.cons accepted induction.1, by simpa [plain] using induction.2⟩
  · rintro ⟨isParts, plain⟩
    induction isParts with
    | nil => exact .nil
    | cons isPart isParts induction =>
        exact .cons (grammarPart_iff.mpr ⟨isPart, plain _ (by simp)⟩)
          (induction fun part member => plain part (by simp [member]))

/-- The parser accepts exactly the described grammar, with its sections, if and only if the bytes
need no coercion. -/
theorem parses_grammar_iff (data : List UInt8) :
    (∀ set, parseChangeSetBytes data = .ok set ↔ GrammarText data set.sections) ↔
      ¬CoercedText data := by
  constructor
  · rintro exact' ⟨parts, taken, document, isParts, part, member, coerces⟩
    have accepted : parseChangeSetBytes data = .ok ⟨taken.flatten⟩ :=
      parseChangeSetBytes_accepts.mpr ⟨parts, taken, document, isParts, rfl⟩
    obtain ⟨parts', taken', document', isParts', _⟩ := (exact' _).mp accepted
    cases documentText_unique document document'
    exact (forall₂_grammarPart.mp isParts').2 part member coerces
  · intro plain set
    rw [parseChangeSetBytes_accepts]
    constructor
    · rintro ⟨parts, taken, document, isParts, flat⟩
      refine ⟨parts, taken, document, forall₂_grammarPart.mpr ⟨isParts, ?_⟩, flat⟩
      exact fun part member coerces =>
        plain ⟨parts, taken, document, isParts, part, member, coerces⟩
    · rintro ⟨parts, taken, document, isParts, flat⟩
      exact ⟨parts, taken, document, (forall₂_grammarPart.mp isParts).1, flat⟩

/-- `["5"]` is accepted, though its length is a string. -/
theorem parses_grammar_quoted :
    parseChangeSetBytes [91, 34, 53, 34, 93] = .ok ⟨[⟨5, -1, ""⟩]⟩ ∧
      ¬GrammarText [91, 34, 53, 34, 93] [⟨5, -1, ""⟩] := by
  have written : (Json.arr [.str "5"]).bytes = [91, 34, 53, 34, 93] := by decide
  have document : DocumentText (.arr [.str "5"]) (Utf8.decode [91, 34, 53, 34, 93]) := by
    rw [← written]
    exact Json.parse_iff.mp (Json.parse_bytes (by simp [Json.Writable, Json.maxDepth]))
  constructor
  · have five : LengthJson (.str "5") 5 := .quoted (by decide) (by decide) (by decide)
    exact parseChangeSetBytes_accepts.mpr
      ⟨_, [keptSections 5], document, .cons (.kept five) .nil, rfl⟩
  · rintro ⟨parts, taken, document', isParts, _⟩
    cases documentText_unique document document'
    obtain _ | ⟨isPart, _⟩ := isParts
    cases isPart

end Oxbin.Livecollab
