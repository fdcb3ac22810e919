import Mathlib.Data.List.TakeWhile
import Oxbin.Data.Json

/-!
# Numbers and strings in JSON

The grammar of the tokens of a JSON text and a reader for each of them, one definition for each
production on both sides.
-/

namespace Oxbin.Json

/-! ## Readers -/

/-- A reader takes a value from the front of a text. -/
abbrev Reader (α : Type) := List Char → Option (α × List Char)

/-- The reader takes exactly the texts of the language, when what follows them stops it. -/
structure Reads {α : Type} (read : Reader α) (language : α → List Char → Prop)
    (stops : List Char → Prop) : Prop where
  sound : ∀ {text value rest}, read text = some (value, rest) →
    ∃ front, text = front ++ rest ∧ language value front
  complete : ∀ {front value} rest, language value front → stops rest →
    read (front ++ rest) = some (value, rest)

/-- The whitespace of JSON. -/
def isSpace (rune : Char) : Bool := rune = ' ' ∨ rune = '\t' ∨ rune = '\n' ∨ rune = '\r'

/-- A text of whitespace. -/
def Spaces (text : List Char) : Prop := ∀ rune ∈ text, isSpace rune = true

/-- The text without the whitespace at its front. -/
def skipSpace (text : List Char) : List Char := text.dropWhile isSpace

theorem skipSpace_spec (text : List Char) :
    ∃ spaces, Spaces spaces ∧ text = spaces ++ skipSpace text :=
  ⟨text.takeWhile isSpace, fun _ member => List.mem_takeWhile_imp member,
    List.takeWhile_append_dropWhile.symm⟩

theorem skipSpace_append {spaces : List Char} (blank : Spaces spaces) (text : List Char) :
    skipSpace (spaces ++ text) = skipSpace text :=
  List.dropWhile_append_of_pos blank

theorem skipSpace_cons {rune : Char} (visible : isSpace rune = false) (text : List Char) :
    skipSpace (rune :: text) = rune :: text :=
  List.dropWhile_cons_of_neg (by simp [visible])

/-! ## Numbers -/

/-- A decimal digit. -/
def isDigit (rune : Char) : Bool := '0' ≤ rune ∧ rune ≤ '9'

/-- The number of a list of digits. -/
def numeral (digits : List Char) : Nat := Nat.ofDigitChars 10 digits 0

/-- The text does not go on with a digit. -/
def EndsDigits (text : List Char) : Prop := ∀ rune ∈ text.head?, isDigit rune = false

/-- The text does not go on with a number. -/
def EndsNumber (text : List Char) : Prop :=
  ∀ rune ∈ text.head?, isDigit rune = false ∧ rune ≠ '.' ∧ rune ≠ 'e' ∧ rune ≠ 'E'

/-- One digit or more. -/
def Digits (text : List Char) : Prop := text ≠ [] ∧ ∀ rune ∈ text, isDigit rune = true

/-- Read one digit or more. -/
def readDigits (text : List Char) : Option (List Char × List Char) :=
  if text.takeWhile isDigit = [] then none
  else some (text.takeWhile isDigit, text.dropWhile isDigit)

/-- The integer part of a number. -/
def Whole (text : List Char) : Prop := text = ['0'] ∨ Digits text ∧ text.head? ≠ some '0'

/-- Read the integer part of a number. -/
def readWhole : Reader (List Char)
  | '0' :: rest => some (['0'], rest)
  | text => readDigits text

/-- The fraction of a number. -/
def Fraction (text : List Char) : Prop := text = [] ∨ ∃ digits, text = '.' :: digits ∧ Digits digits

/-- Read the fraction of a number. -/
def readFraction : Reader (List Char)
  | '.' :: rest => (readDigits rest).map fun (digits, rest) => ('.' :: digits, rest)
  | text => some ([], text)

/-- The exponent of a number. -/
def Exponent (text : List Char) : Prop := text = [] ∨ ∃ mark sign digits,
  text = mark :: sign ++ digits ∧ (mark = 'e' ∨ mark = 'E') ∧
    (sign = [] ∨ sign = ['+'] ∨ sign = ['-']) ∧ Digits digits

/-- Split off a sign. -/
def splitSign : List Char → List Char × List Char
  | '+' :: rest => (['+'], rest)
  | '-' :: rest => (['-'], rest)
  | text => ([], text)

/-- Read the exponent of a number. -/
def readExponent : Reader (List Char)
  | mark :: rest =>
      if mark = 'e' ∨ mark = 'E' then
        (readDigits (splitSign rest).2).map fun (digits, rest') =>
          (mark :: (splitSign rest).1 ++ digits, rest')
      else some ([], mark :: rest)
  | [] => some ([], [])

/-- The value of a number with the given parts. -/
def number (sign whole fraction exponent : List Char) : Json :=
  if fraction = [] ∧ exponent = [] then
    .num (if sign = [] then numeral whole else -(numeral whole : Int))
  else .real (String.ofList (sign ++ whole ++ fraction ++ exponent))

/-- The text of a number. -/
inductive NumberText : Json → List Char → Prop
  | parts (sign whole fraction exponent : List Char) (signed : sign = [] ∨ sign = ['-'])
      (isWhole : Whole whole) (isFraction : Fraction fraction) (isExponent : Exponent exponent) :
      NumberText (number sign whole fraction exponent) (sign ++ whole ++ fraction ++ exponent)

/-- Split off a minus sign. -/
def splitMinus : List Char → List Char × List Char
  | '-' :: rest => (['-'], rest)
  | text => ([], text)

/-- Read a number. -/
def readNumber (text : List Char) : Option (Json × List Char) := do
  let (whole, rest) ← readWhole (splitMinus text).2
  let (fraction, rest) ← readFraction rest
  let (exponent, rest) ← readExponent rest
  some (number (splitMinus text).1 whole fraction exponent, rest)

theorem reads_digits : Reads readDigits (fun digits text => digits = text ∧ Digits text)
    EndsDigits where
  sound {text digits rest} read := by
    unfold readDigits at read
    split at read
    case isTrue => cases read
    case isFalse some' =>
      cases read
      exact ⟨_, List.takeWhile_append_dropWhile.symm, rfl, some',
        fun _ member => List.mem_takeWhile_imp member⟩
  complete {front digits} rest := by
    rintro ⟨rfl, nonempty, digits'⟩ ends
    have stop : rest.takeWhile isDigit = [] ∧ rest.dropWhile isDigit = rest := by
      cases rest with
      | nil => exact ⟨rfl, rfl⟩
      | cons rune rest =>
          have last := ends rune rfl
          exact ⟨List.takeWhile_cons_of_neg (by simp [last]),
            List.dropWhile_cons_of_neg (by simp [last])⟩
    unfold readDigits
    rw [List.takeWhile_append_of_pos digits', List.dropWhile_append_of_pos digits', stop.1, stop.2,
      List.append_nil, if_neg nonempty]

theorem reads_whole : Reads readWhole (fun whole text => whole = text ∧ Whole text)
    EndsDigits where
  sound {text whole rest} read := by
    unfold readWhole at read
    split at read
    case h_1 =>
      cases read
      exact ⟨['0'], rfl, rfl, .inl rfl⟩
    case h_2 other =>
      obtain ⟨front, rfl, rfl, digits⟩ := reads_digits.sound read
      refine ⟨whole, rfl, rfl, .inr ⟨digits, fun zero => ?_⟩⟩
      cases whole with
      | nil => cases zero
      | cons rune tail =>
          cases zero
          exact other (tail ++ rest) rfl
  complete {front whole} rest := by
    rintro ⟨rfl, rfl | ⟨digits, first⟩⟩ ends
    · rfl
    · have read := reads_digits.complete rest ⟨rfl, digits⟩ ends
      unfold readWhole
      split
      case h_1 rest' same =>
        cases whole with
        | nil => exact absurd rfl digits.1
        | cons rune tail =>
            cases same
            exact absurd rfl first
      case h_2 => exact read

theorem reads_fraction : Reads readFraction (fun fraction text => fraction = text ∧ Fraction text)
    (fun rest => EndsDigits rest ∧ rest.head? ≠ some '.') where
  sound {text fraction rest} read := by
    unfold readFraction at read
    split at read
    case h_1 tail =>
      obtain ⟨⟨digits, rest'⟩, read', equality⟩ := Option.map_eq_some_iff.mp read
      cases equality
      obtain ⟨front, rfl, rfl, some'⟩ := reads_digits.sound read'
      exact ⟨_, rfl, rfl, .inr ⟨digits, rfl, some'⟩⟩
    case h_2 =>
      cases read
      exact ⟨[], rfl, rfl, .inl rfl⟩
  complete {front fraction} rest := by
    rintro ⟨rfl, rfl | ⟨digits, rfl, some'⟩⟩ ⟨ends, point⟩
    · unfold readFraction
      split
      case h_1 same => exact absurd (congrArg List.head? same) point
      case h_2 => rfl
    · rw [List.cons_append, readFraction, reads_digits.complete rest ⟨rfl, some'⟩ ends]
      rfl

theorem splitSign_spec (text : List Char) : text = (splitSign text).1 ++ (splitSign text).2 ∧
    ((splitSign text).1 = [] ∨ (splitSign text).1 = ['+'] ∨ (splitSign text).1 = ['-']) := by
  unfold splitSign
  split <;> simp

theorem splitSign_append {sign digits : List Char}
    (signed : sign = [] ∨ sign = ['+'] ∨ sign = ['-']) (some' : Digits digits)
    (rest : List Char) : splitSign (sign ++ digits ++ rest) = (sign, digits ++ rest) := by
  rcases signed with rfl | rfl | rfl
  · obtain ⟨nonempty, digits'⟩ := some'
    cases digits with
    | nil => exact absurd rfl nonempty
    | cons rune digits =>
        have digit := digits' rune (by simp)
        rw [List.nil_append, List.cons_append]
        unfold splitSign
        split
        case h_1 same =>
          cases same
          cases digit
        case h_2 same =>
          cases same
          cases digit
        case h_3 => rfl
  · rfl
  · rfl

theorem reads_exponent : Reads readExponent (fun exponent text => exponent = text ∧ Exponent text)
    EndsNumber where
  sound {text exponent rest} read := by
    unfold readExponent at read
    split at read
    case h_1 mark tail =>
      split at read
      case isTrue marked =>
        obtain ⟨⟨digits, rest'⟩, read', equality⟩ := Option.map_eq_some_iff.mp read
        cases equality
        obtain ⟨front, split', rfl, some'⟩ := reads_digits.sound read'
        obtain ⟨whole, signed⟩ := splitSign_spec tail
        refine ⟨_, ?_, rfl, .inr ⟨mark, (splitSign tail).1, digits, rfl, marked, signed, some'⟩⟩
        rw [List.cons_append, List.cons_append, List.append_assoc, ← split', ← whole]
      case isFalse =>
        cases read
        exact ⟨[], rfl, rfl, .inl rfl⟩
    case h_2 =>
      cases read
      exact ⟨[], rfl, rfl, .inl rfl⟩
  complete {front exponent} rest := by
    rintro ⟨rfl, rfl | ⟨mark, sign, digits, rfl, marked, signed, some'⟩⟩ ends
    · cases rest with
      | nil => rfl
      | cons rune rest =>
          obtain ⟨_, _, small, large⟩ := ends rune rfl
          rw [List.nil_append, readExponent, if_neg (by simp [small, large])]
    · have stop : EndsDigits rest := fun rune member => (ends rune member).1
      rw [List.cons_append, List.cons_append, readExponent, if_pos marked,
        splitSign_append signed some', reads_digits.complete rest ⟨rfl, some'⟩ stop]
      rfl

theorem splitMinus_spec (text : List Char) : text = (splitMinus text).1 ++ (splitMinus text).2 ∧
    ((splitMinus text).1 = [] ∨ (splitMinus text).1 = ['-']) := by
  unfold splitMinus
  split <;> simp

theorem Whole.head {whole : List Char} (isWhole : Whole whole) :
    ∃ digit rest, whole = digit :: rest ∧ isDigit digit = true := by
  rcases isWhole with rfl | ⟨⟨nonempty, digits⟩, _⟩
  · exact ⟨'0', [], rfl, rfl⟩
  · cases whole with
    | nil => exact absurd rfl nonempty
    | cons digit rest => exact ⟨digit, rest, rfl, digits digit (by simp)⟩

theorem splitMinus_append {sign whole : List Char} (signed : sign = [] ∨ sign = ['-'])
    (isWhole : Whole whole) (rest : List Char) :
    splitMinus (sign ++ whole ++ rest) = (sign, whole ++ rest) := by
  obtain ⟨digit, tail, rfl, isDigit'⟩ := isWhole.head
  rcases signed with rfl | rfl
  · rw [List.nil_append, List.cons_append]
    unfold splitMinus
    split
    case h_1 same =>
      cases same
      cases isDigit'
    case h_2 => rfl
  · rfl

/-- What follows the integer part of a number does not begin with a digit. -/
theorem endsDigits_tail {fraction exponent rest : List Char} (isFraction : Fraction fraction)
    (isExponent : Exponent exponent) (ends : EndsNumber rest) :
    EndsDigits (exponent ++ rest) ∧ (exponent ++ rest).head? ≠ some '.' ∧
      EndsDigits (fraction ++ (exponent ++ rest)) := by
  have after : EndsDigits (exponent ++ rest) ∧ (exponent ++ rest).head? ≠ some '.' := by
    rcases isExponent with rfl | ⟨mark, sign, digits, rfl, marked, _⟩
    · rw [List.nil_append]
      exact ⟨fun rune first => (ends rune first).1, fun point => (ends '.' point).2.1 rfl⟩
    · constructor
      · intro rune first
        cases first
        rcases marked with rfl | rfl <;> rfl
      · intro point
        cases point
        rcases marked with impossible | impossible <;> cases impossible
  refine ⟨after.1, after.2, ?_⟩
  rcases isFraction with rfl | ⟨digits, rfl, _⟩
  · exact after.1
  · intro rune first
    cases first
    rfl

theorem reads_number : Reads readNumber NumberText EndsNumber where
  sound {text value rest} read := by
    unfold readNumber at read
    simp only [Option.bind_eq_bind, Option.bind_eq_some_iff, Prod.exists] at read
    obtain ⟨whole, rest₁, readWhole', fraction, rest₂, readFraction', exponent, rest₃,
      readExponent', equality⟩ := read
    cases equality
    obtain ⟨split, signed⟩ := splitMinus_spec text
    obtain ⟨_, split₁, rfl, isWhole⟩ := reads_whole.sound readWhole'
    obtain ⟨_, split₂, rfl, isFraction⟩ := reads_fraction.sound readFraction'
    obtain ⟨_, split₃, rfl, isExponent⟩ := reads_exponent.sound readExponent'
    refine ⟨_, ?_, .parts _ whole fraction exponent signed isWhole isFraction isExponent⟩
    rw [List.append_assoc, List.append_assoc, List.append_assoc, ← split₃, ← split₂, ← split₁,
      ← split]
  complete {front value} rest := by
    rintro ⟨sign, whole, fraction, exponent, signed, isWhole, isFraction, isExponent⟩ ends
    obtain ⟨afterFraction, point, afterWhole⟩ := endsDigits_tail isFraction isExponent ends
    have text : sign ++ whole ++ fraction ++ exponent ++ rest =
        sign ++ whole ++ (fraction ++ (exponent ++ rest)) := by
      simp only [List.append_assoc]
    unfold readNumber
    rw [text, splitMinus_append signed isWhole,
      reads_whole.complete _ ⟨rfl, isWhole⟩ afterWhole]
    simp only [Option.bind_eq_bind, Option.bind_some]
    rw [reads_fraction.complete _ ⟨rfl, isFraction⟩ ⟨afterFraction, point⟩]
    simp only [Option.bind_some]
    rw [reads_exponent.complete _ ⟨rfl, isExponent⟩ ends]
    rfl

/-! ## Strings -/

/-- A character of a string literal, or the code of an escape `\uXXXX`. -/
inductive StringUnit where
  | rune (rune : Char)
  | code (code : Nat)
  deriving DecidableEq, Repr

/-- The character of a code; a surrogate is replaced by U+FFFD. -/
def codeRune (code : Nat) : Char :=
  if 0xD800 ≤ code ∧ code < 0xE000 then Char.ofNat 0xFFFD else Char.ofNat code

/-- The characters of a string literal.  Two escapes may form a surrogate pair. -/
def runesOf : List StringUnit → List Char
  | [] => []
  | .rune rune :: units => rune :: runesOf units
  | .code code :: .code next :: units =>
      if 0xD800 ≤ code ∧ code < 0xDC00 ∧ 0xDC00 ≤ next ∧ next < 0xE000 then
        Char.ofNat (0x10000 + (code - 0xD800) * 0x400 + (next - 0xDC00)) :: runesOf units
      else codeRune code :: runesOf (.code next :: units)
  | .code code :: units => codeRune code :: runesOf units

/-- The value of a hexadecimal digit. -/
def hexValue (rune : Char) : Option Nat :=
  if '0' ≤ rune ∧ rune ≤ '9' then some (rune.toNat - '0'.toNat)
  else if 'a' ≤ rune ∧ rune ≤ 'f' then some (rune.toNat - 'a'.toNat + 10)
  else if 'A' ≤ rune ∧ rune ≤ 'F' then some (rune.toNat - 'A'.toNat + 10)
  else none

/-- The value of four hexadecimal digits. -/
def hexCode (a b c d : Char) : Option Nat := do
  some (4096 * (← hexValue a) + 256 * (← hexValue b) + 16 * (← hexValue c) + (← hexValue d))

/-- The character of an escape with one letter. -/
def escaped : Char → Option Char
  | '"' => some '"'
  | '\\' => some '\\'
  | '/' => some '/'
  | 'b' => some '\x08'
  | 'f' => some '\x0c'
  | 'n' => some '\n'
  | 'r' => some '\r'
  | 't' => some '\t'
  | _ => none

/-- The text of a unit of a string literal. -/
inductive UnitText : StringUnit → List Char → Prop
  | plain (rune : Char) (printable : 0x20 ≤ rune.toNat) (quote : rune ≠ '"')
      (backslash : rune ≠ '\\') : UnitText (.rune rune) [rune]
  | letter (letter rune : Char) (known : escaped letter = some rune) :
      UnitText (.rune rune) ['\\', letter]
  | code (a b c d : Char) (code : Nat) (digits : hexCode a b c d = some code) :
      UnitText (.code code) ['\\', 'u', a, b, c, d]

/-- Read what follows a backslash. -/
def readEscape : Reader StringUnit
  | 'u' :: a :: b :: c :: d :: rest => (hexCode a b c d).map fun code => (.code code, rest)
  | letter :: rest => (escaped letter).map fun rune => (.rune rune, rest)
  | [] => none

/-- Read a unit of a string literal. -/
def readUnit : Reader StringUnit
  | '\\' :: rest => readEscape rest
  | rune :: rest => if rune.toNat < 0x20 ∨ rune = '"' then none else some (.rune rune, rest)
  | [] => none

/-- The units up to the closing quote. -/
inductive UnitsText : List StringUnit → List Char → Prop
  | close : UnitsText [] ['"']
  | unit {first : StringUnit} {text : List Char} {units : List StringUnit} {texts : List Char}
      (isUnit : UnitText first text) (isUnits : UnitsText units texts) :
      UnitsText (first :: units) (text ++ texts)

/-- Read units up to the closing quote. -/
def readUnits : Nat → Reader (List StringUnit)
  | 0, _ => none
  | fuel + 1, text =>
      if text.head? = some '"' then some ([], text.tail)
      else do
        let (first, rest) ← readUnit text
        let (units, rest) ← readUnits fuel rest
        some (first :: units, rest)

/-- The text of a string literal. -/
inductive StringText : String → List Char → Prop
  | quoted {units : List StringUnit} {text : List Char} (isUnits : UnitsText units text) :
      StringText (String.ofList (runesOf units)) ('"' :: text)

/-- Read a string literal. -/
def readString : Reader String
  | '"' :: rest => (readUnits rest.length rest).map fun (units, rest) =>
      (String.ofList (runesOf units), rest)
  | _ => none

theorem reads_unit : Reads readUnit UnitText fun _ => True where
  sound {text unit rest} read := by
    unfold readUnit at read
    split at read
    case h_1 tail =>
      unfold readEscape at read
      split at read
      case h_1 a b c d rest' =>
        obtain ⟨code, digits, equality⟩ := Option.map_eq_some_iff.mp read
        cases equality
        exact ⟨_, rfl, .code a b c d code digits⟩
      case h_2 letter rest' _ =>
        obtain ⟨rune, known, equality⟩ := Option.map_eq_some_iff.mp read
        cases equality
        exact ⟨_, rfl, .letter letter rune known⟩
      case h_3 => cases read
    case h_2 rune tail other =>
      split at read
      case isTrue => cases read
      case isFalse printable =>
        cases read
        refine ⟨[rune], rfl, .plain rune (by omega) (fun quote => printable (.inr quote)) ?_⟩
        rintro rfl
        exact other rfl
    case h_3 => cases read
  complete {front unit} rest := by
    rintro (⟨rune, printable, quote, backslash⟩ | ⟨letter, rune, known⟩ |
      ⟨a, b, c, d, code, digits⟩) _
    · rw [List.singleton_append]
      unfold readUnit
      split
      case h_1 same => cases same; exact absurd rfl backslash
      case h_2 same =>
        cases same
        rw [if_neg (by simp [quote, printable])]
      case h_3 same => cases same
    · rw [List.cons_append, List.cons_append, List.nil_append, readUnit]
      unfold readEscape
      split
      case h_1 same => cases same; cases known
      case h_2 same =>
        cases same
        rw [known]
        rfl
      case h_3 same => cases same
    · rw [List.cons_append, List.cons_append, List.cons_append, List.cons_append, List.cons_append,
        List.cons_append, List.nil_append, readUnit, readEscape, digits]
      rfl

theorem UnitText.head {unit : StringUnit} {text : List Char} (isUnit : UnitText unit text) :
    ∃ rune rest, text = rune :: rest ∧ rune ≠ '"' := by
  cases isUnit with
  | plain rune printable quote backslash => exact ⟨rune, [], rfl, quote⟩
  | letter letter rune known => exact ⟨_, _, rfl, by decide⟩
  | code a b c d code digits => exact ⟨_, _, rfl, by decide⟩

theorem readUnits_sound {fuel : Nat} {text rest : List Char} {units : List StringUnit}
    (read : readUnits fuel text = some (units, rest)) :
    ∃ front, text = front ++ rest ∧ UnitsText units front := by
  induction fuel generalizing text units with
  | zero => cases read
  | succ fuel induction =>
      rw [readUnits] at read
      split at read
      case isTrue quote =>
        cases read
        obtain ⟨tail, rfl⟩ := List.head?_eq_some_iff.mp quote
        exact ⟨['"'], rfl, .close⟩
      case isFalse =>
        simp only [Option.bind_eq_bind, Option.bind_eq_some_iff, Prod.exists] at read
        obtain ⟨first, rest₁, readFirst, later, rest₂, readLater, equality⟩ := read
        cases equality
        obtain ⟨front, rfl, isUnit⟩ := reads_unit.sound readFirst
        obtain ⟨back, rfl, isUnits⟩ := induction readLater
        exact ⟨front ++ back, (List.append_assoc _ _ _).symm, .unit isUnit isUnits⟩

theorem readUnits_complete {fuel : Nat} {text rest : List Char} {units : List StringUnit}
    (isUnits : UnitsText units text) (enough : text.length ≤ fuel) :
    readUnits fuel (text ++ rest) = some (units, rest) := by
  induction isUnits generalizing fuel with
  | close =>
      cases fuel with
      | zero => simp at enough
      | succ fuel => rfl
  | @unit first text units texts isUnit isUnits induction =>
      obtain ⟨rune, tail, rfl, quote⟩ := isUnit.head
      cases fuel with
      | zero => simp at enough
      | succ fuel =>
          have read := reads_unit.complete (texts ++ rest) isUnit trivial
          rw [List.append_assoc]
          rw [List.cons_append] at read ⊢
          rw [readUnits, List.head?_cons, if_neg fun same => quote (Option.some.inj same), read]
          simp only [Option.bind_eq_bind, Option.bind_some]
          rw [induction (by simp at enough; omega)]
          rfl

theorem reads_string : Reads readString StringText fun _ => True where
  sound {text value rest} read := by
    unfold readString at read
    split at read
    case h_1 tail =>
      obtain ⟨⟨units, rest'⟩, read', equality⟩ := Option.map_eq_some_iff.mp read
      cases equality
      obtain ⟨front, rfl, isUnits⟩ := readUnits_sound read'
      exact ⟨_, rfl, .quoted isUnits⟩
    case h_2 => cases read
  complete {front value} rest := by
    rintro ⟨isUnits⟩ _
    rw [List.cons_append, readString, readUnits_complete isUnits (by simp)]
    rfl

end Oxbin.Json
