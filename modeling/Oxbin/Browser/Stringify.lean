import Oxbin.Browser.Crypto
import Oxbin.Data.JsonWriting
import Oxbin.Livecollab.Utf16

/-!
# `JSON.stringify`

What the browser writes for a value.  Its strings are code units; lone surrogates are written as
escapes, so that the text is valid Unicode whatever the strings are.
-/

namespace Oxbin.Browser

open Livecollab (decode replacementChar utf16Units)

/-! ## Strings -/

/-- A code point of a JavaScript string. -/
inductive CodePoint where
  | scalar (rune : Char)
  | surrogate (unit : UInt16)
  deriving DecidableEq

/-- `StringToCodePoints`. -/
def codePoints : List UInt16 → List CodePoint
  | [] => []
  | [unit] =>
      if unit.toNat < 0xD800 ∨ 0xE000 ≤ unit.toNat then [.scalar (Char.ofNat unit.toNat)]
      else [.surrogate unit]
  | unit :: next :: units =>
      if unit.toNat < 0xD800 ∨ 0xE000 ≤ unit.toNat then
        .scalar (Char.ofNat unit.toNat) :: codePoints (next :: units)
      else if unit.toNat < 0xDC00 ∧ 0xDC00 ≤ next.toNat ∧ next.toNat < 0xE000 then
        .scalar (Char.ofNat (0x10000 + (unit.toNat - 0xD800) * 0x400 + (next.toNat - 0xDC00))) ::
          codePoints units
      else .surrogate unit :: codePoints (next :: units)

/-- The escape `\uXXXX` of a code. -/
def unicodeEscape (code : Nat) : List Char :=
  ['\\', 'u', Json.hexDigit (code / 4096 % 16), Json.hexDigit (code / 256 % 16),
    Json.hexDigit (code / 16 % 16), Json.hexDigit (code % 16)]

/-- The letter of a character with a short escape. -/
def shortEscape (rune : Char) : Option Char :=
  if rune = '\x08' then some 'b'
  else if rune = '\t' then some 't'
  else if rune = '\n' then some 'n'
  else if rune = '\x0c' then some 'f'
  else if rune = '\r' then some 'r'
  else if rune = '"' then some '"'
  else if rune = '\\' then some '\\'
  else none

/-- What `QuoteJSONString` writes for a code point. -/
def CodePoint.quote : CodePoint → List Char
  | .scalar rune =>
      match shortEscape rune with
      | some letter => ['\\', letter]
      | none => if rune.toNat < 0x20 then unicodeEscape rune.toNat else [rune]
  | .surrogate unit => unicodeEscape unit.toNat

/-- `QuoteJSONString`. -/
def quote (value : List UInt16) : List Char :=
  '"' :: (codePoints value).flatMap CodePoint.quote ++ ['"']

/-! ## Values -/

mutual

/-- `JSON.stringify` for values whose numbers are safe integers, which are written digit by digit;
what is no JSON value is not written. -/
def stringify : JsValue → List Char
  | .null => ['n', 'u', 'l', 'l']
  | .boolean true => ['t', 'r', 'u', 'e']
  | .boolean false => ['f', 'a', 'l', 's', 'e']
  | .number value => (toString value).toList
  | .string value => quote value
  | .array values => '[' :: stringifyValues values ++ [']']
  | .object members => '\x7b' :: stringifyMembers members ++ ['\x7d']
  | .other => []

/-- The elements of an array. -/
def stringifyValues : List JsValue → List Char
  | [] => []
  | [value] => stringify value
  | value :: next :: values => stringify value ++ ',' :: stringifyValues (next :: values)

/-- The properties of an object. -/
def stringifyMembers : List (String × JsValue) → List Char
  | [] => []
  | [(name, value)] => quote (utf16Units name) ++ ':' :: stringify value
  | (name, value) :: next :: members =>
      quote (utf16Units name) ++ ':' :: stringify value ++ ',' :: stringifyMembers (next :: members)

end

mutual

/-- The value that a reader finds; lone surrogates are replaced. -/
def JsValue.json : JsValue → Json
  | .null | .other => .null
  | .boolean value => .bool value
  | .number value => .num value
  | .string value => .str (String.ofList (decode value))
  | .array values => .arr (jsonValues values)
  | .object members => .obj (jsonMembers members)

/-- The elements of an array. -/
def jsonValues : List JsValue → List Json
  | [] => []
  | value :: values => value.json :: jsonValues values

/-- The properties of an object. -/
def jsonMembers : List (String × JsValue) → List (String × Json)
  | [] => []
  | (name, value) :: members => (name, value.json) :: jsonMembers members

end

/-- The value has at most `depth` levels of arrays and objects, all of JSON values. -/
def JsValue.Writable : Nat → JsValue → Prop
  | _, .null | _, .boolean _ | _, .number _ | _, .string _ => True
  | _, .other => False
  | 0, .array _ | 0, .object _ => False
  | depth + 1, .array values => ∀ value ∈ values, Writable depth value
  | depth + 1, .object members => ∀ member ∈ members, Writable depth member.2

/-! ## The grammar -/

/-- The character that a reader finds for a code point. -/
def CodePoint.read : CodePoint → Char
  | .scalar rune => rune
  | .surrogate _ => replacementChar

theorem decode_eq (value : List UInt16) : decode value = (codePoints value).map CodePoint.read := by
  fun_induction codePoints value with
  | case1 => rfl
  | case2 unit plain => rw [decode, if_pos plain]; rfl
  | case3 unit lone => rw [decode, if_neg lone]; rfl
  | case4 unit next units plain induction => rw [decode, if_pos plain, induction]; rfl
  | case5 unit next units surrogate pair induction =>
      rw [decode, if_neg surrogate, if_pos pair, induction]
      rfl
  | case6 unit next units surrogate lone induction =>
      rw [decode, if_neg surrogate, if_neg lone, induction]
      rfl

/-- The unit that a reader finds for a code point. -/
def CodePoint.unit : CodePoint → Json.StringUnit
  | .scalar rune =>
      match shortEscape rune with
      | some _ => .rune rune
      | none => if rune.toNat < 0x20 then .code rune.toNat else .rune rune
  | .surrogate unit => .code unit.toNat

theorem escaped_of_shortEscape {rune letter : Char} (short : shortEscape rune = some letter) :
    Json.escaped letter = some rune := by
  rw [shortEscape] at short
  split at short
  case isTrue same => cases short; rw [same]; rfl
  split at short
  case isTrue same => cases short; rw [same]; rfl
  split at short
  case isTrue same => cases short; rw [same]; rfl
  split at short
  case isTrue same => cases short; rw [same]; rfl
  split at short
  case isTrue same => cases short; rw [same]; rfl
  split at short
  case isTrue same => cases short; rw [same]; rfl
  split at short
  case isTrue same => cases short; rw [same]; rfl
  cases short

theorem ne_of_shortEscape {rune : Char} (long : shortEscape rune = none) :
    rune ≠ '"' ∧ rune ≠ '\\' := by
  constructor
  · rintro rfl
    cases long
  · rintro rfl
    cases long

theorem unitText_quote (point : CodePoint) : Json.UnitText point.unit point.quote := by
  cases point with
  | scalar rune =>
      rw [CodePoint.unit, CodePoint.quote]
      cases short : shortEscape rune with
      | some letter => exact .letter letter rune (escaped_of_shortEscape short)
      | none =>
          obtain ⟨quote, backslash⟩ := ne_of_shortEscape short
          dsimp only
          split
          case isTrue control => exact .code _ _ _ _ _ (Json.hexCode_escape (by omega))
          case isFalse printable => exact .plain rune (by omega) quote backslash
  | surrogate unit => exact .code _ _ _ _ _ (Json.hexCode_escape unit.toNat_lt)

/-- A character is read as itself, however it is written. -/
theorem runesOf_scalar (rune : Char) (units : List Json.StringUnit) :
    Json.runesOf ((CodePoint.scalar rune).unit :: units) = rune :: Json.runesOf units := by
  rw [CodePoint.unit]
  split
  · rfl
  split
  case isTrue control => rw [Json.runesOf_code (.inl (by omega)), Char.ofNat_toNat]
  case isFalse => rfl

/-- A surrogate is read as U+FFFD if the next unit does not pair with it. -/
theorem runesOf_surrogate {unit : UInt16} (surrogate : ¬(unit.toNat < 0xD800 ∨ 0xE000 ≤ unit.toNat))
    {units : List Json.StringUnit} (lone : ∀ next ∈ units.head?, ∀ code, next = .code code →
      ¬(unit.toNat < 0xDC00 ∧ 0xDC00 ≤ code ∧ code < 0xE000)) :
    Json.runesOf ((CodePoint.surrogate unit).unit :: units) =
      replacementChar :: Json.runesOf units := by
  have replaced : Json.codeRune unit.toNat = replacementChar := if_pos (by omega)
  rw [CodePoint.unit]
  cases units with
  | nil => exact congrArg (· :: []) replaced
  | cons next units =>
      cases next with
      | rune next => exact congrArg (· :: Json.runesOf (.rune next :: units)) replaced
      | code next =>
          have apart := lone (.code next) rfl next rfl
          rw [Json.runesOf, if_neg (by omega), replaced]

/-- The first code point is the first unit if it is a surrogate. -/
theorem head_codePoints {first unit : UInt16} {units : List UInt16} {points : List CodePoint}
    (split : codePoints (first :: units) = .surrogate unit :: points) : unit = first := by
  cases units with
  | nil =>
      rw [codePoints] at split
      split at split <;> cases split
      rfl
  | cons next units =>
      rw [codePoints] at split
      split at split
      · cases split
      split at split <;> cases split
      rfl

/-- The units of a literal are read as the characters of the string. -/
theorem runesOf_codePoints (value : List UInt16) :
    Json.runesOf ((codePoints value).map CodePoint.unit) =
      (codePoints value).map CodePoint.read := by
  fun_induction codePoints value with
  | case1 => rfl
  | case2 unit plain => exact runesOf_scalar _ []
  | case3 unit lone => exact runesOf_surrogate lone (by rintro _ ⟨⟩)
  | case4 unit next units plain induction =>
      rw [List.map_cons, runesOf_scalar, induction]
      rfl
  | case5 unit next units surrogate pair induction =>
      rw [List.map_cons, runesOf_scalar, induction]
      rfl
  | case6 unit next units surrogate lone induction =>
      rw [List.map_cons, runesOf_surrogate surrogate, induction]
      · rfl
      intro following head code same
      cases split : codePoints (next :: units) with
      | nil =>
          rw [split] at head
          cases head
      | cons point points =>
          rw [split, List.map_cons, List.head?_cons, Option.mem_some_iff] at head
          subst head
          cases point with
          | scalar rune =>
              rw [CodePoint.unit] at same
              split at same
              · cases same
              split at same
              · cases same
                omega
              · cases same
          | surrogate unit' =>
              cases same
              rw [head_codePoints split]
              exact lone

/-- A string is written as a literal that is read as the string. -/
theorem stringText_quote (value : List UInt16) :
    Json.StringText (String.ofList (decode value)) (quote value) := by
  have body (points : List CodePoint) : Json.UnitsText (points.map CodePoint.unit)
      (points.flatMap CodePoint.quote ++ ['"']) := by
    induction points with
    | nil => exact .close
    | cons point points induction =>
        rw [List.flatMap_cons, List.append_assoc]
        exact .unit (unitText_quote point) induction
  rw [decode_eq, ← runesOf_codePoints]
  exact .quoted (body (codePoints value))

/-- The name of a property is read as it is. -/
theorem stringText_name (name : String) : Json.StringText name (quote (utf16Units name)) := by
  have text := stringText_quote (utf16Units name)
  rwa [utf16Units, Livecollab.decode_encode, String.ofList_toList] at text

theorem jsonValues_eq (values : List JsValue) : jsonValues values = values.map JsValue.json := by
  induction values with
  | nil => rfl
  | cons value values induction => rw [jsonValues, induction, List.map_cons]

theorem jsonMembers_eq (members : List (String × JsValue)) :
    jsonMembers members = members.map fun member => (member.1, member.2.json) := by
  induction members with
  | nil => rfl
  | cons member members induction => rw [jsonMembers, induction, List.map_cons]

/-- What `JSON.stringify` writes is a text of the grammar. -/
theorem valueText_stringify {depth : Nat} {value : JsValue} (writable : value.Writable depth) :
    Json.ValueText depth value.json (stringify value) := by
  have blank : Json.Spaces [] := by simp [Json.Spaces]
  have scalar (value : JsValue) (nested : Option (Json → List Char → Prop))
      (writable : value.Writable 0) : Json.ValueWith nested value.json (stringify value) := by
    cases value with
    | null => exact .null
    | boolean value => cases value with
      | true => exact .true
      | false => exact .false
    | number value => exact .number (Json.numberText_int value)
    | string value => exact .string (stringText_quote value)
    | array => cases writable
    | object => cases writable
    | other => cases writable
  induction depth generalizing value with
  | zero => exact scalar value none writable
  | succ depth induction =>
      cases value with
      | array values =>
          have items : Json.ListText (fun value => Json.ValueText depth (JsValue.json value)) values
              (stringifyValues values) :=
            Json.listText_items rfl (fun _ => rfl) (fun _ _ _ => rfl)
              fun value member => induction (writable value member)
          rw [JsValue.json, jsonValues_eq]
          exact .array rfl items.map
      | object members =>
          have items : Json.ListText (fun member : String × JsValue =>
              Json.MemberText (Json.ValueText depth) (member.1, member.2.json)) members
              (stringifyMembers members) :=
            Json.listText_items rfl (fun _ => rfl)
              (fun _ _ _ => by simp [stringifyMembers])
              fun member present => by
                have text := Json.MemberText.member (stringText_name member.1) blank blank
                  (induction (writable member present))
                rw [List.append_nil, List.append_assoc, List.singleton_append] at text
                exact text
          rw [JsValue.json, jsonMembers_eq]
          exact .object rfl (items.map fun member : String × JsValue => (member.1, member.2.json))
      | null => exact scalar _ _ writable
      | boolean => exact scalar _ _ writable
      | number => exact scalar _ _ writable
      | string => exact scalar _ _ writable
      | other => cases writable

/-- An object is read as its properties, each with the text that was written for it. -/
theorem parseFields_stringify {members : List (String × JsValue)}
    (writable : ∀ member ∈ members, member.2.Writable (Json.maxDepth - 1)) :
    Json.parseFields (stringify (.object members)) =
      some (members.map fun member => (member.1, member.2.json, stringify member.2)) := by
  have blank : Json.Spaces [] := by simp [Json.Spaces]
  have items : Json.ListText (fun member : String × JsValue =>
      Json.FieldText (fun raw text => raw.2 = text ∧ Json.ValueText (Json.maxDepth - 1) raw.1 text)
        (member.1, member.2.json, stringify member.2)) members (stringifyMembers members) :=
    Json.listText_items rfl (fun _ => rfl) (fun _ _ _ => by simp [stringifyMembers])
      fun member present => by
        have text : Json.FieldText (fun raw text => raw.2 = text ∧
            Json.ValueText (Json.maxDepth - 1) raw.1 text)
            (member.1, member.2.json, stringify member.2) _ :=
          .field (stringText_name member.1) blank blank
            ⟨rfl, valueText_stringify (writable member present)⟩
        rw [List.append_nil, List.append_assoc, List.singleton_append] at text
        exact text
  exact Json.parseFields_object
    (items.map fun member : String × JsValue => (member.1, member.2.json, stringify member.2))

/-- A value is parsed from its text. -/
theorem parse_stringify {value : JsValue} (writable : value.Writable Json.maxDepth) :
    Json.parse (stringify value) = some value.json := by
  have blank : Json.Spaces [] := by simp [Json.Spaces]
  exact Json.parse_iff.mpr ⟨[], _, [], blank, blank, valueText_stringify writable, by simp⟩

theorem JsValue.Writable.succ {depth : Nat} {value : JsValue} (writable : value.Writable depth) :
    value.Writable (depth + 1) := by
  induction depth generalizing value with
  | zero => cases value <;> trivial
  | succ depth induction =>
      cases value with
      | array values => exact fun value member => induction (writable value member)
      | object members => exact fun member present => induction (writable member present)
      | other => cases writable
      | _ => trivial

theorem JsValue.Writable.mono {depth depth' : Nat} {value : JsValue}
    (writable : value.Writable depth) (ordered : depth ≤ depth') : value.Writable depth' := by
  induction ordered with
  | refl => exact writable
  | step _ induction => exact induction.succ

/-! ## Sizes -/

/-- The bytes that `TextEncoder.encode` makes of a string, as `utf8Bytes` counts them. -/
def utf8Bytes (value : List UInt16) : Nat := (Utf8.encode (decode value)).length

/-- The bytes by which an escape is longer than the encoding of a code point. -/
def CodePoint.growth : CodePoint → Nat
  | .scalar rune => if (shortEscape rune).isSome then 1 else if rune.toNat < 0x20 then 5 else 0
  | .surrogate _ => 3

/-- The bytes by which the escapes of a string are longer than its encoding. -/
def growth (value : List UInt16) : Nat := ((codePoints value).map CodePoint.growth).sum

theorem length_encode (runes : List Char) :
    (Utf8.encode runes).length = (runes.map Char.utf8Size).sum := by
  induction runes with
  | nil => rfl
  | cons rune runes induction =>
      rw [Utf8.encode_cons, List.length_append, String.length_utf8EncodeChar, induction,
        List.map_cons, List.sum_cons]

theorem encode_append (front back : List Char) :
    Utf8.encode (front ++ back) = Utf8.encode front ++ Utf8.encode back :=
  List.flatMap_append

theorem utf8Size_of_ascii {rune : Char} (ascii : rune.toNat < 0x80) : rune.utf8Size = 1 := by
  rw [Char.utf8Size_eq_one_iff]
  exact UInt32.le_iff_toNat_le.mpr (show rune.toNat ≤ 127 by omega)

theorem length_unicodeEscape (code : Nat) : (Utf8.encode (unicodeEscape code)).length = 6 := by
  have digit : ∀ value < 16, (Json.hexDigit value).utf8Size = 1 := by decide
  rw [length_encode, unicodeEscape]
  simp only [List.map_cons, List.map_nil, List.sum_cons, List.sum_nil,
    digit _ (Nat.mod_lt _ (by decide : 0 < 16))]
  rfl

theorem ascii_of_shortEscape {rune letter : Char} (short : shortEscape rune = some letter) :
    rune.utf8Size = 1 ∧ letter.utf8Size = 1 := by
  have known := escaped_of_shortEscape short
  unfold Json.escaped at known
  split at known <;> cases known <;> decide

theorem length_quote_codePoint (point : CodePoint) :
    (Utf8.encode point.quote).length = point.read.utf8Size + point.growth := by
  cases point with
  | scalar rune =>
      rw [CodePoint.quote, CodePoint.read, CodePoint.growth]
      cases short : shortEscape rune with
      | some letter =>
          obtain ⟨one, one'⟩ := ascii_of_shortEscape short
          rw [length_encode, one]
          simp [one', show ('\\' : Char).utf8Size = 1 by decide]
      | none =>
          dsimp only
          split
          case isTrue control =>
            rw [length_unicodeEscape, utf8Size_of_ascii (by omega)]
            rfl
          case isFalse printable => simp
  | surrogate unit => exact length_unicodeEscape unit.toNat

/-- The size of a literal. -/
theorem length_quote (value : List UInt16) :
    (Utf8.encode (quote value)).length = utf8Bytes value + growth value + 2 := by
  have body (points : List CodePoint) :
      (Utf8.encode (points.flatMap CodePoint.quote)).length =
        (Utf8.encode (points.map CodePoint.read)).length + (points.map CodePoint.growth).sum := by
    induction points with
    | nil => rfl
    | cons point points induction =>
        rw [List.flatMap_cons, encode_append, List.length_append, induction,
          length_quote_codePoint, List.map_cons, Utf8.encode_cons, List.length_append,
          String.length_utf8EncodeChar, List.map_cons, List.sum_cons]
        omega
  have mark : (String.utf8EncodeChar '"').length = 1 := by decide
  have mark' : (Utf8.encode ['"']).length = 1 := by decide
  rw [quote, List.cons_append, Utf8.encode_cons, encode_append, List.length_append,
    List.length_append, body, mark, mark', utf8Bytes, growth, decode_eq]
  omega

/-- Plain characters of ASCII are written as they are. -/
def plainText (value : String) : Bool :=
  value.toList.all fun rune => 0x20 ≤ rune.toNat ∧ rune.toNat < 0x80 ∧ rune ≠ '"' ∧ rune ≠ '\\'

theorem codePoints_of_low {runes : List Char} (low : ∀ rune ∈ runes, rune.toNat < 0xD800) :
    codePoints (Livecollab.encode runes) = runes.map .scalar := by
  induction runes with
  | nil => rfl
  | cons rune runes induction =>
      have bound := low rune List.mem_cons_self
      have rest := induction fun other member => low other (List.mem_cons_of_mem rune member)
      have unit : (UInt16.ofNat rune.toNat).toNat = rune.toNat := by
        rw [UInt16.toNat_ofNat']
        omega
      rw [Livecollab.encode_cons, Livecollab.encodeRune_small (by omega), List.singleton_append,
        List.map_cons, ← rest]
      cases Livecollab.encode runes with
      | nil => simp [codePoints, unit, bound]
      | cons next units => rw [codePoints, unit, if_pos (.inl bound), Char.ofNat_toNat]

theorem shortEscape_of_plain {rune : Char} (printable : 0x20 ≤ rune.toNat) (quote : rune ≠ '"')
    (backslash : rune ≠ '\\') : shortEscape rune = none := by
  have apart {control : Char} (low : control.toNat < 0x20) : rune ≠ control := by
    rintro rfl
    omega
  rw [shortEscape, if_neg (apart (by decide)), if_neg (apart (by decide)),
    if_neg (apart (by decide)), if_neg (apart (by decide)), if_neg (apart (by decide)),
    if_neg quote, if_neg backslash]

/-- Plain text is as long as a literal as it is without the quotes. -/
theorem length_quote_of_plainText {value : String} (plain : plainText value = true) :
    (Utf8.encode (quote (utf16Units value))).length = value.toList.length + 2 := by
  have each : ∀ rune ∈ value.toList,
      0x20 ≤ rune.toNat ∧ rune.toNat < 0x80 ∧ rune ≠ '"' ∧ rune ≠ '\\' := fun rune member =>
    of_decide_eq_true (List.all_eq_true.mp plain rune member)
  have points : codePoints (utf16Units value) = value.toList.map .scalar :=
    codePoints_of_low fun rune member => by
      have bound := (each rune member).2.1
      omega
  have unescaped : growth (utf16Units value) = 0 := by
    rw [growth, points, List.map_map]
    apply List.sum_eq_zero
    intro size member
    obtain ⟨rune, listed, rfl⟩ := List.mem_map.mp member
    obtain ⟨printable, ascii, quote, backslash⟩ := each rune listed
    rw [Function.comp_apply, CodePoint.growth, shortEscape_of_plain printable quote backslash,
      if_neg (by simp), if_neg (by omega)]
  have bytes : utf8Bytes (utf16Units value) = value.toList.length := by
    rw [utf8Bytes, utf16Units, Livecollab.decode_encode, length_encode]
    have ones : value.toList.map Char.utf8Size = value.toList.map fun _ => 1 :=
      List.map_congr_left fun rune member => utf8Size_of_ascii (each rune member).2.1
    rw [ones, List.map_const', List.sum_replicate_nat, Nat.mul_one]
  rw [length_quote, unescaped, bytes, add_zero]

/-- The bytes of what `JSON.stringify` writes. -/
def JsValue.size (value : JsValue) : Nat := (Utf8.encode (stringify value)).length

theorem size_string (value : List UInt16) :
    (JsValue.string value).size = utf8Bytes value + growth value + 2 := length_quote value

theorem size_plainText {value : String} (plain : plainText value = true) :
    (JsValue.string (utf16Units value)).size = value.toList.length + 2 :=
  length_quote_of_plainText plain

theorem size_boolean (value : Bool) : (JsValue.boolean value).size = if value then 4 else 5 := by
  cases value <;> rfl

/-- Every property takes its name, its value, two quotes, a colon, and a comma or a brace. -/
theorem size_object {members : List (String × JsValue)} (nonempty : members ≠ [])
    (plain : ∀ member ∈ members, plainText member.1 = true) : (JsValue.object members).size =
      1 + (members.map fun member => member.1.toList.length + 4 + member.2.size).sum := by
  have ascii (rune : Char) (low : rune.toNat < 0x80) (runes : List Char) :
      (Utf8.encode (rune :: runes)).length = 1 + (Utf8.encode runes).length := by
    rw [Utf8.encode_cons, List.length_append, String.length_utf8EncodeChar, utf8Size_of_ascii low]
  have body : (Utf8.encode (stringifyMembers members)).length + 1 =
      (members.map fun member => member.1.toList.length + 4 + member.2.size).sum := by
    induction members with
    | nil => exact absurd rfl nonempty
    | cons member members induction =>
        obtain ⟨name, value⟩ := member
        have named := length_quote_of_plainText (plain (name, value) List.mem_cons_self)
        cases members with
        | nil =>
            rw [stringifyMembers, encode_append, List.length_append, ascii _ (by decide), named,
              List.map_cons, List.map_nil, List.sum_cons, List.sum_nil, JsValue.size]
            dsimp only
            omega
        | cons next members =>
            have rest := induction (List.cons_ne_nil _ _) fun other present =>
              plain other (List.mem_cons_of_mem _ present)
            rw [stringifyMembers, encode_append, encode_append, List.length_append,
              List.length_append, ascii _ (by decide), ascii _ (by decide), named, List.map_cons,
              List.sum_cons, ← rest, JsValue.size]
            dsimp only
            omega
  rw [← body, JsValue.size, stringify, List.cons_append, ascii _ (by decide), encode_append,
    List.length_append]
  rfl

end Oxbin.Browser
