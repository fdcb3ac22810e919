import Oxbin.Data.JsonTokens

/-!
# Reading JSON

The grammar of JSON texts and its reader.  The reader takes exactly the texts of the grammar, down
to the depth of nesting that it admits.
-/

namespace Oxbin.Json

/-! ## Lists -/

/-- Items between commas, with whitespace around them. -/
inductive SeparatedText {α : Type} (language : α → List Char → Prop) : List α → List Char → Prop
  | last {before text after : List Char} {item : α} (blank : Spaces before)
      (isItem : language item text) (blank' : Spaces after) :
      SeparatedText language [item] (before ++ text ++ after)
  | comma {before text after texts : List Char} {item : α} {items : List α}
      (blank : Spaces before) (isItem : language item text) (blank' : Spaces after)
      (isItems : SeparatedText language items texts) :
      SeparatedText language (item :: items) (before ++ text ++ after ++ ',' :: texts)

/-- What stands between the brackets of a list. -/
inductive ListText {α : Type} (language : α → List Char → Prop) : List α → List Char → Prop
  | empty {text : List Char} (blank : Spaces text) : ListText language [] text
  | items {items : List α} {text : List Char} (isItems : SeparatedText language items text) :
      ListText language items text

/-- A list of images. -/
theorem ListText.map {α β : Type} {language : β → List Char → Prop} (image : α → β)
    {items : List α} {text : List Char}
    (isList : ListText (fun item => language (image item)) items text) :
    ListText language (items.map image) text := by
  cases isList with
  | empty blank => exact .empty blank
  | items isItems =>
      apply ListText.items
      induction isItems with
      | last blank isItem blank' => exact .last blank isItem blank'
      | comma blank isItem blank' _ induction => exact .comma blank isItem blank' induction

/-- Read items up to the closing bracket. -/
def readSeparated {α : Type} (read : Reader α) (close : Char) : Nat → Reader (List α)
  | 0, _ => none
  | fuel + 1, text => do
      let (item, rest) ← read (skipSpace text)
      match skipSpace rest with
      | ',' :: rest => do
          let (items, rest) ← readSeparated read close fuel rest
          some (item :: items, rest)
      | rune :: rest => if rune = close then some ([item], rest) else none
      | [] => none

/-- Read a list up to the closing bracket. -/
def readList {α : Type} (read : Reader α) (close : Char) (text : List Char) :
    Option (List α × List Char) :=
  match skipSpace text with
  | rune :: rest =>
      if rune = close then some ([], rest) else readSeparated read close text.length text
  | [] => none

/-- The delimiters that follow an item of a list. -/
def Delimits (text : List Char) : Prop :=
  ∀ rune ∈ text.head?, isSpace rune = true ∨ rune = ',' ∨ rune = ']' ∨ rune = '\x7d'

/-- No text of the language begins with whitespace or a closing bracket. -/
def Opens {α : Type} (language : α → List Char → Prop) : Prop :=
  ∀ value text, language value text → ∃ rune rest, text = rune :: rest ∧
    isSpace rune = false ∧ rune ≠ ']' ∧ rune ≠ '\x7d'

section Lists

variable {α : Type} {read : Reader α} {language : α → List Char → Prop} {close : Char}

theorem delimits_after {after rest : List Char} (blank : Spaces after) (delimits : Delimits rest) :
    Delimits (after ++ rest) := by
  cases after with
  | nil => exact delimits
  | cons rune after =>
      rintro _ ⟨⟩
      exact .inl (blank rune (by simp))

theorem readSeparated_sound (reads : Reads read language Delimits) {fuel : Nat}
    {text rest : List Char} {items : List α}
    (taken : readSeparated read close fuel text = some (items, rest)) :
    ∃ front, text = front ++ close :: rest ∧ SeparatedText language items front := by
  induction fuel generalizing text items with
  | zero => cases taken
  | succ fuel induction =>
      unfold readSeparated at taken
      simp only [Option.bind_eq_bind, Option.bind_eq_some_iff, Prod.exists] at taken
      obtain ⟨item, rest₁, readItem, taken⟩ := taken
      obtain ⟨before, blank, split⟩ := skipSpace_spec text
      obtain ⟨front, split', isItem⟩ := reads.sound readItem
      obtain ⟨after, blank', split''⟩ := skipSpace_spec rest₁
      rw [split'] at split
      split at taken
      case h_1 rest₂ next =>
        simp only [Option.bind_eq_some_iff, Prod.exists] at taken
        obtain ⟨later, rest₃, readLater, equality⟩ := taken
        cases equality
        obtain ⟨back, rfl, isItems⟩ := induction readLater
        rw [next] at split''
        refine ⟨before ++ front ++ after ++ ',' :: back, ?_, .comma blank isItem blank' isItems⟩
        rw [split, split'']
        simp only [List.append_assoc, List.cons_append]
      case h_2 rune rest₂ _ next =>
        split at taken
        case isTrue closes =>
          cases taken
          rw [next, closes] at split''
          refine ⟨before ++ front ++ after, ?_, .last blank isItem blank'⟩
          rw [split, split'']
          simp only [List.append_assoc]
        case isFalse => cases taken
      case h_3 => cases taken

theorem readSeparated_complete (reads : Reads read language Delimits) (opens : Opens language)
    (closes : close = ']' ∨ close = '\x7d') {fuel : Nat} {text rest : List Char} {items : List α}
    (isItems : SeparatedText language items text) (enough : text.length ≤ fuel) :
    readSeparated read close fuel (text ++ close :: rest) = some (items, rest) := by
  have comma : close ≠ ',' := by
    rcases closes with rfl | rfl <;> decide
  have visible : isSpace close = false := by
    rcases closes with rfl | rfl <;> decide
  have delimits (rest : List Char) : Delimits (close :: rest) := by
    rintro _ ⟨⟩
    exact .inr (.inr closes)
  induction isItems generalizing fuel with
  | @last before text after item blank isItem blank' =>
      obtain ⟨rune, tail, rfl, visible', _⟩ := opens item text isItem
      cases fuel with
      | zero => simp at enough
      | succ fuel =>
          rw [readSeparated, List.append_assoc, List.append_assoc, skipSpace_append blank,
            List.cons_append, skipSpace_cons visible', ← List.cons_append,
            reads.complete _ isItem (delimits_after blank' (delimits rest))]
          simp only [Option.bind_eq_bind, Option.bind_some]
          rw [skipSpace_append blank', skipSpace_cons visible]
          split
          case h_1 same =>
            cases same
            exact absurd rfl comma
          case h_2 same =>
            cases same
            rw [if_pos rfl]
          case h_3 same => cases same
  | @comma before text after texts item items blank isItem blank' isItems induction =>
      obtain ⟨rune, tail, rfl, visible', _⟩ := opens item text isItem
      cases fuel with
      | zero => simp at enough
      | succ fuel =>
          have commas : Delimits (',' :: (texts ++ close :: rest)) := by
            rintro _ ⟨⟩
            exact .inr (.inl rfl)
          have whole : before ++ rune :: tail ++ after ++ ',' :: texts ++ close :: rest =
              before ++ (rune :: tail ++ (after ++ ',' :: (texts ++ close :: rest))) := by
            simp only [List.append_assoc, List.cons_append]
          rw [readSeparated, whole, skipSpace_append blank, List.cons_append,
            skipSpace_cons visible', ← List.cons_append,
            reads.complete _ isItem (delimits_after blank' commas)]
          simp only [Option.bind_eq_bind, Option.bind_some]
          rw [skipSpace_append blank', skipSpace_cons (by decide)]
          simp only
          rw [induction (by simp at enough; omega)]
          rfl

/-- What a list reader takes. -/
theorem readList_sound (reads : Reads read language Delimits) {text rest : List Char}
    {items : List α} (taken : readList read close text = some (items, rest)) :
    ∃ front, text = front ++ close :: rest ∧ ListText language items front := by
  unfold readList at taken
  split at taken
  case h_1 rune rest' next =>
    split at taken
    case isTrue closes =>
      cases taken
      obtain ⟨before, blank, split⟩ := skipSpace_spec text
      rw [next, closes] at split
      exact ⟨before, split, .empty blank⟩
    case isFalse =>
      obtain ⟨front, split, isItems⟩ := readSeparated_sound reads taken
      exact ⟨front, split, .items isItems⟩
  case h_2 => cases taken

theorem SeparatedText.head {items : List α} {text : List Char}
    (isItems : SeparatedText language items text) (opens : Opens language)
    (closes : close = ']' ∨ close = '\x7d') (rest : List Char) :
    ∃ rune tail, skipSpace (text ++ rest) = rune :: tail ∧ rune ≠ close := by
  have visible {before text rest : List Char} {item : α} (blank : Spaces before)
      (isItem : language item text) :
      ∃ rune tail, skipSpace (before ++ (text ++ rest)) = rune :: tail ∧ rune ≠ close := by
    obtain ⟨rune, tail, rfl, visible, square, curly⟩ := opens item text isItem
    refine ⟨rune, tail ++ rest, ?_, ?_⟩
    · rw [skipSpace_append blank, List.cons_append, skipSpace_cons visible]
    · rcases closes with rfl | rfl
      · exact square
      · exact curly
  cases isItems with
  | last blank isItem blank' =>
      rw [List.append_assoc, List.append_assoc]
      exact visible blank isItem
  | comma blank isItem blank' isItems =>
      rw [List.append_assoc, List.append_assoc, List.append_assoc]
      exact visible blank isItem

/-- A list reader takes every list. -/
theorem readList_complete (reads : Reads read language Delimits) (opens : Opens language)
    (closes : close = ']' ∨ close = '\x7d') {text rest : List Char} {items : List α}
    (isList : ListText language items text) :
    readList read close (text ++ close :: rest) = some (items, rest) := by
  have visible : isSpace close = false := by
    rcases closes with rfl | rfl <;> decide
  unfold readList
  cases isList with
  | empty blank =>
      rw [skipSpace_append blank, skipSpace_cons visible]
      exact if_pos rfl
  | items isItems =>
      obtain ⟨rune, tail, next, different⟩ := isItems.head opens closes (close :: rest)
      rw [next]
      simp only
      rw [if_neg different]
      exact readSeparated_complete reads opens closes isItems (by simp)

end Lists

/-! ## Fields -/

/-- The text of a named item. -/
inductive FieldText {α : Type} (language : α → List Char → Prop) : String × α → List Char → Prop
  | field {name : String} {item : α} {quoted before after text : List Char}
      (isName : StringText name quoted) (blank : Spaces before) (blank' : Spaces after)
      (isItem : language item text) :
      FieldText language (name, item) (quoted ++ before ++ ':' :: after ++ text)

/-- Read a named item. -/
def readField {α : Type} (read : Reader α) (text : List Char) :
    Option ((String × α) × List Char) := do
  let (name, rest) ← readString text
  match skipSpace rest with
  | ':' :: rest => do
      let (item, rest) ← read (skipSpace rest)
      some ((name, item), rest)
  | _ => none

theorem opens_field {α : Type} (language : α → List Char → Prop) : Opens (FieldText language) := by
  rintro ⟨name, item⟩ text ⟨⟨isUnits⟩, _, _, _⟩
  exact ⟨_, _, rfl, by decide⟩

theorem reads_field {α : Type} {read : Reader α} {language : α → List Char → Prop}
    (reads : Reads read language Delimits) (opens : Opens language) :
    Reads (readField read) (FieldText language) Delimits where
  sound {text field rest} taken := by
    unfold readField at taken
    simp only [Option.bind_eq_bind, Option.bind_eq_some_iff, Prod.exists] at taken
    obtain ⟨name, rest₁, readName, taken⟩ := taken
    obtain ⟨quoted, rfl, isName⟩ := reads_string.sound readName
    obtain ⟨before, blank, split₁⟩ := skipSpace_spec rest₁
    split at taken
    case h_1 rest₂ next =>
      simp only [Option.bind_eq_some_iff, Prod.exists] at taken
      obtain ⟨item, rest₃, readItem, equality⟩ := taken
      cases equality
      obtain ⟨after, blank', split₂⟩ := skipSpace_spec rest₂
      obtain ⟨front, split₃, isItem⟩ := reads.sound readItem
      refine ⟨_, ?_, .field isName blank blank' isItem⟩
      rw [split₁, next, split₂, split₃]
      simp only [List.append_assoc, List.cons_append]
    case h_2 => cases taken
  complete {front field} rest := by
    rintro ⟨isName, blank, blank', isItem⟩ delimits
    rename_i name item quoted before after text
    obtain ⟨rune, tail, rfl, visible, _⟩ := opens item text isItem
    have whole : quoted ++ before ++ ':' :: after ++ rune :: tail ++ rest =
        quoted ++ (before ++ ':' :: (after ++ (rune :: tail ++ rest))) := by
      simp only [List.append_assoc, List.cons_append]
    unfold readField
    rw [whole, reads_string.complete _ isName trivial]
    simp only [Option.bind_eq_bind, Option.bind_some]
    rw [skipSpace_append blank, skipSpace_cons (by decide)]
    simp only
    rw [skipSpace_append blank', List.cons_append, skipSpace_cons visible, ← List.cons_append,
      reads.complete rest isItem delimits]
    rfl

/-! ## Values -/

/-- The text of a member of an object. -/
inductive MemberText (language : Json → List Char → Prop) : String × Json → List Char → Prop
  | member {name : String} {value : Json} {quoted before after text : List Char}
      (isName : StringText name quoted) (blank : Spaces before) (blank' : Spaces after)
      (isValue : language value text) :
      MemberText language (name, value) (quoted ++ before ++ ':' :: after ++ text)

/-- The texts of values whose items are texts of a given language. -/
inductive ValueWith (nested : Option (Json → List Char → Prop)) : Json → List Char → Prop
  | null : ValueWith nested .null ['n', 'u', 'l', 'l']
  | true : ValueWith nested (.bool true) ['t', 'r', 'u', 'e']
  | false : ValueWith nested (.bool false) ['f', 'a', 'l', 's', 'e']
  | number {value : Json} {text : List Char} (isNumber : NumberText value text) :
      ValueWith nested value text
  | string {value : String} {text : List Char} (isString : StringText value text) :
      ValueWith nested (.str value) text
  | array {language : Json → List Char → Prop} (isNested : nested = some language)
      {values : List Json} {text : List Char} (isList : ListText language values text) :
      ValueWith nested (.arr values) ('[' :: text ++ [']'])
  | object {language : Json → List Char → Prop} (isNested : nested = some language)
      {members : List (String × Json)} {text : List Char}
      (isList : ListText (MemberText language) members text) :
      ValueWith nested (.obj members) ('\x7b' :: text ++ ['\x7d'])

/-- The text of a value with at most `depth` levels of arrays and objects. -/
def ValueText : Nat → Json → List Char → Prop
  | 0 => ValueWith none
  | depth + 1 => ValueWith (some (ValueText depth))

/-- Read a member of an object. -/
def readMember (read : Reader Json) (text : List Char) : Option ((String × Json) × List Char) := do
  let (name, rest) ← readString text
  match skipSpace rest with
  | ':' :: rest => do
      let (value, rest) ← read (skipSpace rest)
      some ((name, value), rest)
  | _ => none

/-- Read a value whose items are read by `nested`. -/
def readWith (nested : Option (Reader Json)) : Reader Json
  | 'n' :: 'u' :: 'l' :: 'l' :: rest => some (.null, rest)
  | 't' :: 'r' :: 'u' :: 'e' :: rest => some (.bool true, rest)
  | 'f' :: 'a' :: 'l' :: 's' :: 'e' :: rest => some (.bool false, rest)
  | '"' :: rest => (readString ('"' :: rest)).map fun (value, rest) => (.str value, rest)
  | '[' :: rest => do
      let (values, rest) ← readList (← nested) ']' rest
      some (.arr values, rest)
  | '\x7b' :: rest => do
      let (members, rest) ← readList (readMember (← nested)) '\x7d' rest
      some (.obj members, rest)
  | text => readNumber text

/-- Read a value with at most `depth` levels of arrays and objects. -/
def readValue : Nat → Reader Json
  | 0 => readWith none
  | depth + 1 => readWith (some (readValue depth))

theorem Delimits.endsNumber {text : List Char} (delimits : Delimits text) : EndsNumber text := by
  intro rune member
  rcases delimits rune member with space | rfl | rfl | rfl
  · unfold isSpace at space
    rcases of_decide_eq_true space with rfl | rfl | rfl | rfl <;> decide
  all_goals decide

theorem isDigit_visible {rune : Char} (digit : isDigit rune = true) :
    isSpace rune = false ∧ rune ≠ ']' ∧ rune ≠ '\x7d' ∧ rune ≠ '"' ∧ rune ≠ 'n' ∧ rune ≠ 't' ∧
      rune ≠ 'f' ∧ rune ≠ '[' ∧ rune ≠ '\x7b' := by
  refine ⟨?_, ?_, ?_, ?_, ?_, ?_, ?_, ?_, ?_⟩
  case refine_1 =>
    by_contra space
    unfold isSpace at space
    simp only [Bool.not_eq_false, decide_eq_true_eq] at space
    rcases space with rfl | rfl | rfl | rfl <;> cases digit
  all_goals
    rintro rfl
    cases digit

/-- A number begins with a sign or a digit. -/
theorem NumberText.head {value : Json} {text : List Char} (isNumber : NumberText value text) :
    ∃ rune rest, text = rune :: rest ∧ isSpace rune = false ∧ rune ≠ ']' ∧ rune ≠ '\x7d' ∧
      rune ≠ '"' ∧ rune ≠ 'n' ∧ rune ≠ 't' ∧ rune ≠ 'f' ∧ rune ≠ '[' ∧ rune ≠ '\x7b' := by
  obtain ⟨sign, whole, fraction, exponent, signed, isWhole, _, _⟩ := isNumber
  obtain ⟨digit, tail, rfl, isDigit'⟩ := isWhole.head
  rcases signed with rfl | rfl
  · exact ⟨digit, _, rfl, isDigit_visible isDigit'⟩
  · exact ⟨'-', _, rfl, by decide⟩

theorem opens_value (nested : Option (Json → List Char → Prop)) : Opens (ValueWith nested) := by
  rintro value text isValue
  cases isValue with
  | null => exact ⟨_, _, rfl, by decide⟩
  | true => exact ⟨_, _, rfl, by decide⟩
  | false => exact ⟨_, _, rfl, by decide⟩
  | number isNumber =>
      obtain ⟨rune, rest, rfl, visible, square, curly, _⟩ := isNumber.head
      exact ⟨rune, rest, rfl, visible, square, curly⟩
  | string isString =>
      obtain ⟨isUnits⟩ := isString
      exact ⟨_, _, rfl, by decide⟩
  | array => exact ⟨_, _, rfl, by decide⟩
  | object => exact ⟨_, _, rfl, by decide⟩

/-- Members of objects are fields. -/
theorem memberText_iff {language : Json → List Char → Prop} {member : String × Json}
    {text : List Char} : MemberText language member text ↔ FieldText language member text := by
  constructor
  · rintro ⟨isName, blank, blank', isValue⟩
    exact .field isName blank blank' isValue
  · rintro ⟨isName, blank, blank', isValue⟩
    exact .member isName blank blank' isValue

theorem opens_member (language : Json → List Char → Prop) : Opens (MemberText language) :=
  fun member text isMember => opens_field language member text (memberText_iff.mp isMember)

theorem reads_member {read : Reader Json} {language : Json → List Char → Prop}
    (reads : Reads read language Delimits) (opens : Opens language) :
    Reads (readMember read) (MemberText language) Delimits where
  sound taken := by
    obtain ⟨front, split, isField⟩ := (reads_field reads opens).sound taken
    exact ⟨front, split, memberText_iff.mpr isField⟩
  complete rest isMember delimits :=
    (reads_field reads opens).complete rest (memberText_iff.mp isMember) delimits

/-- A reader that reads the items of a language reads its values. -/
theorem reads_with {nested : Option (Reader Json)} {language : Option (Json → List Char → Prop)}
    (items : ∀ read, nested = some read → ∃ language', language = some language' ∧
      Reads read language' Delimits ∧ Opens language')
    (items' : ∀ language', language = some language' → ∃ read, nested = some read ∧
      Reads read language' Delimits ∧ Opens language') :
    Reads (readWith nested) (ValueWith language) Delimits where
  sound {text value rest} taken := by
    unfold readWith at taken
    split at taken
    case h_1 =>
      cases taken
      exact ⟨_, rfl, .null⟩
    case h_2 =>
      cases taken
      exact ⟨_, rfl, .true⟩
    case h_3 =>
      cases taken
      exact ⟨_, rfl, .false⟩
    case h_4 =>
      obtain ⟨⟨name, rest'⟩, read, equality⟩ := Option.map_eq_some_iff.mp taken
      cases equality
      obtain ⟨front, split, isString⟩ := reads_string.sound read
      exact ⟨front, split, .string isString⟩
    case h_5 tail =>
      simp only [Option.bind_eq_bind, Option.bind_eq_some_iff, Prod.exists] at taken
      obtain ⟨read, isNested, values, rest', readValues, equality⟩ := taken
      cases equality
      obtain ⟨language', same, reads, _⟩ := items read isNested
      obtain ⟨front, rfl, isList⟩ := readList_sound reads readValues
      exact ⟨_, by simp, .array same isList⟩
    case h_6 tail =>
      simp only [Option.bind_eq_bind, Option.bind_eq_some_iff, Prod.exists] at taken
      obtain ⟨read, isNested, members, rest', readMembers, equality⟩ := taken
      cases equality
      obtain ⟨language', same, reads, opens⟩ := items read isNested
      obtain ⟨front, rfl, isList⟩ := readList_sound (reads_member reads opens) readMembers
      exact ⟨_, by simp, .object same isList⟩
    case h_7 =>
      obtain ⟨front, split, isNumber⟩ := reads_number.sound taken
      exact ⟨front, split, .number isNumber⟩
  complete {front value} rest := by
    intro isValue delimits
    cases isValue with
    | null => rfl
    | true => rfl
    | false => rfl
    | number isNumber =>
        obtain ⟨rune, tail, rfl, _, _, _, quote, n, t, f, square, curly⟩ := isNumber.head
        have read := reads_number.complete rest isNumber delimits.endsNumber
        rw [List.cons_append] at read ⊢
        unfold readWith
        split
        case h_7 => exact read
        all_goals
          rename_i same
          injection same with first
          contradiction
    | string isString =>
        obtain ⟨isUnits⟩ := isString
        have read := reads_string.complete rest (.quoted isUnits) trivial
        rw [List.cons_append] at read ⊢
        rw [readWith, read]
        rfl
    | array isNested isList =>
        obtain ⟨read, same, reads, opens⟩ := items' _ isNested
        rw [List.cons_append, List.cons_append, List.append_assoc, readWith, same]
        simp only [Option.bind_eq_bind, Option.bind_some]
        rw [List.singleton_append, readList_complete reads opens (.inl rfl) isList]
        rfl
    | object isNested isList =>
        obtain ⟨read, same, reads, opens⟩ := items' _ isNested
        rw [List.cons_append, List.cons_append, List.append_assoc, readWith, same]
        simp only [Option.bind_eq_bind, Option.bind_some]
        rw [List.singleton_append, readList_complete (reads_member reads opens) (opens_member _)
          (.inr rfl) isList]
        rfl

theorem opens_valueText (depth : Nat) : Opens (ValueText depth) := by
  cases depth <;> exact opens_value _

/-- The reader of values takes exactly the texts of values. -/
theorem reads_value (depth : Nat) : Reads (readValue depth) (ValueText depth) Delimits := by
  induction depth with
  | zero =>
      apply reads_with
      · rintro read ⟨⟩
      · rintro language ⟨⟩
  | succ depth induction =>
      apply reads_with
      · rintro read ⟨⟩
        exact ⟨_, rfl, induction, opens_valueText depth⟩
      · rintro language ⟨⟩
        exact ⟨_, rfl, induction, opens_valueText depth⟩

/-! ## Documents -/

/-- The deepest nesting that `encoding/json` admits. -/
def maxDepth : Nat := 10000

/-- Read the value at the front of a text, as `Decoder.Decode` does. -/
def decodeNext (text : List Char) : Option (Json × List Char) := readValue maxDepth (skipSpace text)

/-- Read a text that consists of one value. -/
def parse (text : List Char) : Option Json :=
  match decodeNext text with
  | some (value, rest) => if skipSpace rest = [] then some value else none
  | none => none

/-- A text that is one value with whitespace around it. -/
def DocumentText (value : Json) (text : List Char) : Prop :=
  ∃ before front after, Spaces before ∧ Spaces after ∧ ValueText maxDepth value front ∧
    text = before ++ front ++ after

theorem skipSpace_eq_nil {text : List Char} : skipSpace text = [] ↔ Spaces text :=
  List.dropWhile_eq_nil_iff

theorem decodeNext_iff {text rest : List Char} {value : Json} (blank : Spaces rest) :
    decodeNext text = some (value, rest) ↔ ∃ before front, Spaces before ∧
      ValueText maxDepth value front ∧ text = before ++ front ++ rest := by
  constructor
  · intro read
    obtain ⟨before, blank', split⟩ := skipSpace_spec text
    obtain ⟨front, split', isValue⟩ := (reads_value maxDepth).sound read
    refine ⟨before, front, blank', isValue, ?_⟩
    rw [split, split', List.append_assoc]
  · rintro ⟨before, front, blank', isValue, rfl⟩
    obtain ⟨rune, tail, rfl, visible, _⟩ := opens_valueText maxDepth value front isValue
    have delimits : Delimits rest := by
      intro rune member
      exact .inl (blank rune (List.mem_of_head? member))
    unfold decodeNext
    rw [List.append_assoc, skipSpace_append blank', List.cons_append, skipSpace_cons visible,
      ← List.cons_append]
    exact (reads_value maxDepth).complete rest isValue delimits

/-- A text is parsed if and only if the grammar has it. -/
theorem parse_iff {text : List Char} {value : Json} :
    parse text = some value ↔ DocumentText value text := by
  unfold parse
  constructor
  · intro parsed
    split at parsed
    case h_1 value' rest read =>
      split at parsed
      case isTrue blank =>
        cases parsed
        have blank := skipSpace_eq_nil.mp blank
        obtain ⟨before, front, blank', isValue, split⟩ := (decodeNext_iff blank).mp read
        exact ⟨before, front, rest, blank', blank, isValue, split⟩
      case isFalse => cases parsed
    case h_2 => cases parsed
  · rintro ⟨before, front, after, blank, blank', isValue, split⟩
    rw [(decodeNext_iff blank').mpr ⟨before, front, blank, isValue, split⟩]
    simp only
    rw [if_pos (skipSpace_eq_nil.mpr blank')]

/-! ## Raw messages -/

/-- Read a value together with its text, as `json.RawMessage` keeps it. -/
def readRaw (read : Reader Json) : Reader (Json × List Char) := fun text =>
  (read text).map fun (value, rest) => ((value, text.take (text.length - rest.length)), rest)

theorem reads_raw {read : Reader Json} {language : Json → List Char → Prop}
    (reads : Reads read language Delimits) :
    Reads (readRaw read) (fun raw text => raw.2 = text ∧ language raw.1 text) Delimits where
  sound {text raw rest} taken := by
    obtain ⟨⟨value, rest'⟩, read', equality⟩ := Option.map_eq_some_iff.mp taken
    cases equality
    obtain ⟨front, rfl, isValue⟩ := reads.sound read'
    exact ⟨front, rfl, by simp, isValue⟩
  complete {front raw} rest := by
    rintro ⟨rfl, isValue⟩ delimits
    rw [readRaw, reads.complete rest isValue delimits]
    simp

/-- The members of an object with the texts of their values. -/
def parseFields (text : List Char) : Option (List (String × Json × List Char)) :=
  match skipSpace text with
  | '\x7b' :: rest =>
      match readList (readField (readRaw (readValue (maxDepth - 1)))) '\x7d' rest with
      | some (fields, rest) => if skipSpace rest = [] then some fields else none
      | none => none
  | _ => none

/-- The text of an object is read as its members, each with its text. -/
theorem parseFields_object {fields : List (String × Json × List Char)} {text : List Char}
    (isList : ListText (FieldText fun raw text => raw.2 = text ∧
      ValueText (maxDepth - 1) raw.1 text) fields text) :
    parseFields ('\x7b' :: text ++ ['\x7d']) = some fields := by
  have reads := reads_raw (reads_value (maxDepth - 1))
  have opens : Opens fun (raw : Json × List Char) text =>
      raw.2 = text ∧ ValueText (maxDepth - 1) raw.1 text :=
    fun raw text isRaw => opens_valueText _ raw.1 text isRaw.2
  have read : readList (readField (readRaw (readValue (maxDepth - 1)))) '\x7d' (text ++ ['\x7d']) =
      some (fields, []) :=
    readList_complete (reads_field reads opens) (opens_field _) (.inr rfl) isList
  rw [parseFields, List.cons_append, skipSpace_cons (by decide)]
  simp only [read]
  rfl

end Oxbin.Json
