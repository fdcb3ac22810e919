import Mathlib.Algebra.Ring.Int.Defs
import Mathlib.Data.String.Defs

/-!
# JSON values

Values are trees; their text is what Go's `json.Marshal` writes, so that sizes of messages and
payloads count the bytes of the program.
-/

namespace Oxbin

/-- A JSON value.  Numbers without fraction and exponent are integers, others keep their text. -/
inductive Json where
  | null
  | bool (value : Bool)
  | num (value : Int)
  | real (literal : String)
  | str (value : String)
  | arr (values : List Json)
  | obj (members : List (String × Json))

namespace Json

/-- The digits of a number below sixteen. -/
def hexDigit (value : Nat) : Char :=
  if value < 10 then Char.ofNat ('0'.toNat + value) else Char.ofNat ('a'.toNat + (value - 10))

/-- The escape `\uXXXX` of a character below U+10000. -/
def unicodeEscape (rune : Char) : List Char :=
  let code := rune.toNat
  ['\\', 'u', hexDigit (code / 4096 % 16), hexDigit (code / 256 % 16), hexDigit (code / 16 % 16),
    hexDigit (code % 16)]

/-- `json.Marshal` escapes quotes, backslashes, control characters, the characters that are
special in HTML, and the two line separators. -/
def escape (rune : Char) : List Char :=
  if rune = '"' then ['\\', '"']
  else if rune = '\\' then ['\\', '\\']
  else if rune = '\n' then ['\\', 'n']
  else if rune = '\r' then ['\\', 'r']
  else if rune = '\t' then ['\\', 't']
  else if rune = '\x08' then ['\\', 'b']
  else if rune = '\x0c' then ['\\', 'f']
  else if rune.toNat < 0x20 ∨ rune = '<' ∨ rune = '>' ∨ rune = '&' ∨ rune.toNat = 0x2028 ∨
      rune.toNat = 0x2029 then unicodeEscape rune
  else [rune]

/-- The literal of a string. -/
def quote (value : String) : List Char :=
  '"' :: value.toList.flatMap escape ++ ['"']

mutual

/-- The text of a value. -/
def text : Json → List Char
  | .null => ['n', 'u', 'l', 'l']
  | .bool true => ['t', 'r', 'u', 'e']
  | .bool false => ['f', 'a', 'l', 's', 'e']
  | .num value => (toString value).toList
  | .real literal => literal.toList
  | .str value => quote value
  | .arr values => '[' :: textOfValues values ++ [']']
  | .obj members => '\x7b' :: textOfMembers members ++ ['\x7d']

/-- The elements of an array, separated by commas. -/
def textOfValues : List Json → List Char
  | [] => []
  | [value] => text value
  | value :: next :: values => text value ++ ',' :: textOfValues (next :: values)

/-- The members of an object, separated by commas. -/
def textOfMembers : List (String × Json) → List Char
  | [] => []
  | [(name, value)] => quote name ++ ':' :: text value
  | (name, value) :: next :: members =>
      quote name ++ ':' :: text value ++ ',' :: textOfMembers (next :: members)

end

/-- The number of bytes of the text. -/
def size (value : Json) : Int := ((text value).map fun rune => (rune.utf8Size : Int)).sum

/-- The member of an object, the last one if there are several. -/
def get? (name : String) : Json → Option Json
  | .obj members => (members.reverse.find? fun member => member.1 == name).map Prod.snd
  | _ => none

end Json

end Oxbin
