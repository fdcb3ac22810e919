import Mathlib.Tactic.IntervalCases
import Oxbin.Data.JsonText
import Oxbin.Data.Utf8

/-!
# Writing JSON

The text of a value belongs to the grammar, so that the reader gives the value back.
-/

namespace Oxbin.Json

/-! ## Numbers -/

theorem isDigit_of_mem_toDigits {value : Nat} {rune : Char}
    (member : rune ∈ Nat.toDigits 10 value) :
    isDigit rune = true := by
  have digit := Nat.isDigit_of_mem_toDigits (by decide) (by decide) member
  rw [Char.isDigit_iff_toNat] at digit
  unfold isDigit
  simp only [decide_eq_true_eq, Char.le_def, UInt32.le_iff_toNat_le]
  exact digit

theorem head?_toDigits {value : Nat} (positive : value ≠ 0) :
    (Nat.toDigits 10 value).head? ≠ some '0' := by
  induction value using Nat.strongRecOn with
  | ind value induction =>
      by_cases small : value < 10
      · rw [Nat.toDigits_of_lt_base small, List.head?_cons]
        exact fun same => positive (Nat.digitChar_eq_zero.mp (Option.some.inj same))
      · rw [Nat.toDigits_of_base_le (by decide) (by omega), List.head?_append,
          Option.or_of_isSome (by simp [Nat.toDigits_ne_nil])]
        exact induction (value / 10) (by omega) (by omega)

theorem whole_toDigits (value : Nat) : Whole (Nat.toDigits 10 value) := by
  by_cases zero : value = 0
  · rw [zero]
    exact .inl rfl
  · exact .inr ⟨⟨Nat.toDigits_ne_nil, fun _ => isDigit_of_mem_toDigits⟩, head?_toDigits zero⟩

/-- An integer is written as a number. -/
theorem numberText_int (value : Int) : NumberText (.num value) (toString value).toList := by
  have digits (value : Nat) : numeral (Nat.toDigits 10 value) = value :=
    Nat.ofDigitChars_ten_toDigits
  cases value with
  | ofNat value =>
      have text : (toString (Int.ofNat value)).toList = Nat.toDigits 10 value := Nat.toList_repr
      have parts := NumberText.parts [] _ [] [] (.inl rfl) (whole_toDigits value) (.inl rfl)
        (.inl rfl)
      rw [number, if_pos ⟨rfl, rfl⟩, if_pos rfl, digits, List.append_nil, List.append_nil,
        List.nil_append] at parts
      rw [text]
      exact parts
  | negSucc value =>
      have text : (toString (Int.negSucc value)).toList = '-' :: Nat.toDigits 10 (value + 1) := by
        change ("-" ++ (value + 1).repr).toList = _
        rw [String.toList_append, Nat.toList_repr]
        rfl
      have parts := NumberText.parts ['-'] _ [] [] (.inr rfl) (whole_toDigits (value + 1))
        (.inl rfl) (.inl rfl)
      rw [number, if_pos ⟨rfl, rfl⟩, if_neg (by decide), digits, List.append_nil, List.append_nil,
        List.singleton_append] at parts
      rw [text]
      exact parts

/-! ## Strings -/

theorem hexValue_hexDigit {value : Nat} (small : value < 16) :
    hexValue (hexDigit value) = some value := by
  interval_cases value <;> decide

/-- The escape of a character is read as its code. -/
theorem hexCode_escape {code : Nat} (small : code < 0x10000) :
    hexCode (hexDigit (code / 4096 % 16)) (hexDigit (code / 256 % 16)) (hexDigit (code / 16 % 16))
      (hexDigit (code % 16)) = some code := by
  unfold hexCode
  rw [hexValue_hexDigit (Nat.mod_lt _ (by decide)), hexValue_hexDigit (Nat.mod_lt _ (by decide)),
    hexValue_hexDigit (Nat.mod_lt _ (by decide)), hexValue_hexDigit (Nat.mod_lt _ (by decide))]
  simp only [Option.bind_eq_bind, Option.bind_some, Option.some.injEq]
  omega

/-- A code outside the surrogates is read as a character of its own. -/
theorem runesOf_code {code : Nat} (plain : code < 0xD800 ∨ 0xE000 ≤ code)
    (units : List StringUnit) :
    runesOf (.code code :: units) = Char.ofNat code :: runesOf units := by
  have rune : codeRune code = Char.ofNat code := if_neg (by omega)
  cases units with
  | nil => exact congrArg (· :: []) rune
  | cons next units =>
      cases next with
      | rune next => exact congrArg (· :: runesOf (.rune next :: units)) rune
      | code next => rw [runesOf, if_neg (by omega), rune]

/-- Every character is written as one unit. -/
theorem unitText_escape (rune : Char) : ∃ unit, UnitText unit (escape rune) ∧
    ∀ units, runesOf (unit :: units) = rune :: runesOf units := by
  have letter (letter : Char) (known : escaped letter = some rune) :
      ∃ unit, UnitText unit ['\\', letter] ∧
        ∀ units, runesOf (unit :: units) = rune :: runesOf units :=
    ⟨_, .letter letter rune known, fun _ => rfl⟩
  unfold escape
  split
  case isTrue same => exact letter '"' (by rw [same]; rfl)
  case isFalse quote =>
  split
  case isTrue same => exact letter '\\' (by rw [same]; rfl)
  case isFalse backslash =>
  split
  case isTrue same => exact letter 'n' (by rw [same]; rfl)
  case isFalse =>
  split
  case isTrue same => exact letter 'r' (by rw [same]; rfl)
  case isFalse =>
  split
  case isTrue same => exact letter 't' (by rw [same]; rfl)
  case isFalse =>
  split
  case isTrue same => exact letter 'b' (by rw [same]; rfl)
  case isFalse =>
  split
  case isTrue same => exact letter 'f' (by rw [same]; rfl)
  case isFalse =>
  split
  case isTrue special =>
    have small : rune.toNat < 0xD800 := by
      rcases special with control | rfl | rfl | rfl | separator | separator
      · omega
      all_goals first | decide | omega
    refine ⟨_, .code _ _ _ _ _ (hexCode_escape (by omega)), fun units => ?_⟩
    rw [runesOf_code (.inl small), Char.ofNat_toNat]
  case isFalse printable =>
    exact ⟨_, .plain rune (by omega) quote backslash, fun _ => rfl⟩

/-- A string is written as a string literal. -/
theorem stringText_quote (value : String) : StringText value (quote value) := by
  have body (runes : List Char) : ∃ units, UnitsText units (runes.flatMap escape ++ ['"']) ∧
      runesOf units = runes := by
    induction runes with
    | nil => exact ⟨[], .close, rfl⟩
    | cons rune runes induction =>
        obtain ⟨units, isUnits, same⟩ := induction
        obtain ⟨unit, isUnit, adds⟩ := unitText_escape rune
        refine ⟨unit :: units, ?_, ?_⟩
        · rw [List.flatMap_cons, List.append_assoc]
          exact .unit isUnit isUnits
        · rw [adds, same]
  obtain ⟨units, isUnits, same⟩ := body value.toList
  have text := StringText.quoted isUnits
  rwa [same, String.ofList_toList] at text

/-! ## Values -/

/-- The value has at most `depth` levels of arrays and objects, and its literals are numbers. -/
def Writable : Nat → Json → Prop
  | _, .null | _, .bool _ | _, .num _ | _, .str _ => True
  | _, .real literal => NumberText (.real literal) literal.toList
  | 0, .arr _ | 0, .obj _ => False
  | depth + 1, .arr values => ∀ value ∈ values, Writable depth value
  | depth + 1, .obj members => ∀ member ∈ members, Writable depth member.2

/-- The text that `textOfValues` and `textOfMembers` write for the items of a list. -/
theorem listText_items {α : Type} {language : α → List Char → Prop} {write : α → List Char}
    {writeAll : List α → List Char} (none : writeAll [] = [])
    (one : ∀ item, writeAll [item] = write item)
    (more : ∀ item next items, writeAll (item :: next :: items) =
      write item ++ ',' :: writeAll (next :: items)) {items : List α}
    (written : ∀ item ∈ items, language item (write item)) :
    ListText language items (writeAll items) := by
  have blank : Spaces [] := by simp [Spaces]
  cases items with
  | nil =>
      rw [none]
      exact .empty blank
  | cons item items =>
      apply ListText.items
      induction items generalizing item with
      | nil =>
          have last := SeparatedText.last blank (written item (by simp)) blank
          rwa [List.nil_append, List.append_nil, ← one] at last
      | cons next items induction =>
          have later := induction next fun other member => written other (by simp [member])
          have comma := SeparatedText.comma blank (written item (by simp)) blank later
          rwa [List.nil_append, List.append_nil, ← more] at comma

/-- The text of a value is a text of the grammar. -/
theorem valueText_text {depth : Nat} {value : Json} (writable : Writable depth value) :
    ValueText depth value value.text := by
  have scalar (value : Json) (nested : Option (Json → List Char → Prop))
      (writable : Writable 0 value) : ValueWith nested value value.text := by
    cases value with
    | null => exact .null
    | bool value => cases value with
      | true => exact .true
      | false => exact .false
    | num value => exact .number (numberText_int value)
    | real literal => exact .number writable
    | str value => exact .string (stringText_quote value)
    | arr => cases writable
    | obj => cases writable
  induction depth generalizing value with
  | zero => exact scalar value none writable
  | succ depth induction =>
      cases value with
      | arr values =>
          refine .array rfl (listText_items ?_ (fun _ => ?_) (fun _ _ _ => ?_)
            fun value member => induction (writable value member))
          all_goals rfl
      | obj members =>
          have blank : Spaces [] := by simp [Spaces]
          refine .object rfl (listText_items ?_ (fun _ => ?_) (fun _ _ _ => ?_)
            fun member present => MemberText.member (stringText_quote member.1) blank blank
              (induction (writable member present)))
          all_goals simp [textOfMembers]
      | null => exact scalar _ _ writable
      | bool => exact scalar _ _ writable
      | num => exact scalar _ _ writable
      | real => exact scalar _ _ writable
      | str => exact scalar _ _ writable

/-- A value is parsed from its text. -/
theorem parse_text {value : Json} (writable : Writable maxDepth value) :
    parse value.text = some value := by
  have blank : Spaces [] := by simp [Spaces]
  exact parse_iff.mpr ⟨[], value.text, [], blank, blank, valueText_text writable, by simp⟩

/-- The bytes of the text of a value. -/
def bytes (value : Json) : List UInt8 := Utf8.encode value.text

/-- A value is parsed from its bytes. -/
theorem parse_bytes {value : Json} (writable : Writable maxDepth value) :
    parse (Utf8.decode value.bytes) = some value := by
  rw [bytes, Utf8.decode_encode, parse_text writable]

end Oxbin.Json
