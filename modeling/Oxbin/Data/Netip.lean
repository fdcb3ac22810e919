import Mathlib.Algebra.Ring.Nat
import Mathlib.Data.List.Basic

/-!
# Addresses as text

What Go's `net/netip`, `net` and `strings` read of addresses.  Strings are lists of bytes.
-/

namespace Oxbin.Netip

/-- The byte of an ASCII character. -/
def byte (rune : Char) : UInt8 := rune.toUInt8

/-- The bytes of an ASCII string. -/
def ascii (value : String) : List UInt8 := value.toList.map byte

/-! ## Strings -/

/-- `strings.Split` for a separator of one byte. -/
def split (separator : UInt8) : List UInt8 → List (List UInt8)
  | [] => [[]]
  | unit :: units =>
      if unit = separator then [] :: split separator units
      else
        match split separator units with
        | [] => [[unit]]
        | word :: words => (unit :: word) :: words

theorem split_ne_nil (separator : UInt8) (value : List UInt8) : split separator value ≠ [] := by
  fun_cases split separator value <;> simp

/-- Text in front of a separator is split for itself. -/
theorem split_append (separator : UInt8) (left right : List UInt8) :
    split separator (left ++ separator :: right) =
      split separator left ++ split separator right := by
  induction left with
  | nil => simp [split]
  | cons unit units induction =>
      rw [List.cons_append, split, split, induction]
      split
      case isTrue => rfl
      case isFalse =>
        cases words : split separator units with
        | nil => exact absurd words (split_ne_nil separator units)
        | cons word words => rfl

/-- `unicode.IsSpace`, as the encodings of the characters. -/
def spaces : List (List UInt8) :=
  [[9], [10], [11], [12], [13], [32], [0xC2, 0x85], [0xC2, 0xA0], [0xE1, 0x9A, 0x80],
    [0xE2, 0x80, 0x80], [0xE2, 0x80, 0x81], [0xE2, 0x80, 0x82], [0xE2, 0x80, 0x83],
    [0xE2, 0x80, 0x84], [0xE2, 0x80, 0x85], [0xE2, 0x80, 0x86], [0xE2, 0x80, 0x87],
    [0xE2, 0x80, 0x88], [0xE2, 0x80, 0x89], [0xE2, 0x80, 0x8A], [0xE2, 0x80, 0xA8],
    [0xE2, 0x80, 0xA9], [0xE2, 0x80, 0xAF], [0xE2, 0x81, 0x9F], [0xE3, 0x80, 0x80]]

/-- Drop leading words of a list as long as there are any. -/
def trimLeft (words : List (List UInt8)) : Nat → List UInt8 → List UInt8
  | 0, value => value
  | fuel + 1, value =>
      match words.find? fun word => word.isPrefixOf value with
      | some word => trimLeft words fuel (value.drop word.length)
      | none => value

/-- `strings.TrimSpace`. -/
def trimSpace (value : List UInt8) : List UInt8 :=
  let value := trimLeft spaces value.length value
  (trimLeft (spaces.map List.reverse) value.length value.reverse).reverse

/-- `net.SplitHostPort`. -/
def splitHostPort (hostport : List UInt8) : Option (List UInt8 × List UInt8) :=
  let port := (hostport.reverse.takeWhile fun unit => unit ≠ byte ':').reverse
  let colon := hostport.length - port.length - 1
  -- no bracket may come after the host begins, or after a bracketed host ends
  let checked (host : List UInt8) (opening closing : Nat) :=
    if byte '[' ∈ hostport.drop opening ∨ byte ']' ∈ hostport.drop closing then none
    else some (host, port)
  if byte ':' ∉ hostport then none
  else if hostport.head? = some (byte '[') then
    let stop := hostport.idxOf (byte ']')
    if byte ']' ∉ hostport ∨ stop + 1 ≠ colon then none
    else checked ((hostport.take stop).drop 1) 1 (stop + 1)
  else if byte ':' ∈ hostport.take colon then none
  else checked (hostport.take colon) 0 0

/-! ## Addresses -/

/-- `netip.Addr`. -/
inductive Addr where
  | zero
  | v4 (bits : BitVec 32)
  | v6 (bits : BitVec 128) (zone : List UInt8)
  deriving DecidableEq, Repr

/-- `Addr.Is4In6`. -/
def Addr.is4In6 : Addr → Bool
  | v6 bits _ => decide (bits.toNat / 2 ^ 32 = 0xFFFF)
  | _ => false

/-- `Addr.Unmap`. -/
def Addr.unmap : Addr → Addr
  | v6 bits zone => if (v6 bits zone).is4In6 then v4 (bits.setWidth 32) else v6 bits zone
  | ip => ip

/-- `netip.Prefix`, for valid prefixes only. -/
inductive Prefix where
  | v4 (bits : BitVec 32) (length : Fin 33)
  | v6 (bits : BitVec 128) (length : Fin 129)
  deriving DecidableEq, Repr

/-- `Prefix.Contains`. -/
def Prefix.contains : Prefix → Addr → Bool
  | .v4 bits length, .v4 ip => decide ((ip ^^^ bits) >>> (32 - length.val) = 0)
  | .v6 bits length, .v6 ip zone =>
      decide (zone = [] ∧ (ip ^^^ bits) >>> (128 - length.val) = 0)
  | _, _ => false

/-- The number that bytes stand for, the first one being the highest. -/
def number (base : Nat) (digits : List Nat) : Nat :=
  digits.foldl (fun value digit => value * base + digit) 0

/-- The value of a decimal digit. -/
def digit (unit : UInt8) : Option Nat :=
  if byte '0' ≤ unit ∧ unit ≤ byte '9' then some (unit.toNat - (byte '0').toNat) else none

/-- The value of a hexadecimal digit. -/
def hexDigit (unit : UInt8) : Option Nat :=
  if byte 'a' ≤ unit ∧ unit ≤ byte 'f' then some (unit.toNat - (byte 'a').toNat + 10)
  else if byte 'A' ≤ unit ∧ unit ≤ byte 'F' then some (unit.toNat - (byte 'A').toNat + 10)
  else digit unit

/-- One field of an IPv4 address. -/
def parseOctet (field : List UInt8) : Option Nat := do
  let digits ← field.mapM digit
  if digits = [] ∨ 1 < digits.length ∧ digits.head? = some 0 ∨ 255 < number 10 digits then none
  else some (number 10 digits)

/-- `parseIPv4Fields`. -/
def parseIPv4Fields (value : List UInt8) : Option (List Nat) :=
  let fields := split (byte '.') value
  if fields.length = 4 then fields.mapM parseOctet else none

/-- The loop of `parseIPv6`: what is left of the string, the bytes, and where the ellipsis is. -/
def parseGroups : Nat → List UInt8 → List Nat → Option Nat →
    Option (List UInt8 × List Nat × Option Nat)
  | 0, value, ip, ellipsis => some (value, ip, ellipsis)
  | fuel + 1, value, ip, ellipsis =>
      let digits := (value.takeWhile fun unit => (hexDigit unit).isSome).filterMap hexDigit
      let rest := value.drop digits.length
      let group := number 16 digits
      let extended := ip ++ [group / 256, group % 256]
      if digits = [] ∨ 4 < digits.length then none
      else if rest.head? = some (byte '.') then
        if ellipsis = none ∧ ip.length ≠ 12 ∨ 16 < ip.length + 4 then none
        else (parseIPv4Fields value).map fun octets => ([], ip ++ octets, ellipsis)
      else
        match rest with
        | [] => some ([], extended, ellipsis)
        | [_] => none
        | colon :: next :: more =>
            if colon ≠ byte ':' then none
            else if next ≠ byte ':' then parseGroups fuel (next :: more) extended ellipsis
            else if ellipsis ≠ none then none
            else if more = [] then some ([], extended, some extended.length)
            else parseGroups fuel more extended (some extended.length)

/-- `parseIPv6`. -/
def parseIPv6 (value : List UInt8) : Option Addr := do
  let address := value.takeWhile fun unit => unit ≠ byte '%'
  let zone := value.drop (address.length + 1)
  if byte '%' ∈ value ∧ zone = [] then none
  let leading := [byte ':', byte ':'].isPrefixOf address
  if leading = true ∧ address.length = 2 then return .v6 0 zone
  let (rest, ip, ellipsis) ←
    if leading then parseGroups 8 (address.drop 2) [] (some 0) else parseGroups 8 address [] none
  if rest ≠ [] then none
  let bytes ←
    match ellipsis with
    | none => if ip.length < 16 then none else some ip
    | some place =>
        if ip.length < 16 then
          some (ip.take place ++ List.replicate (16 - ip.length) 0 ++ ip.drop place)
        else none
  some (.v6 (BitVec.ofNat 128 (number 256 bytes)) zone)

/-- `netip.ParseAddr`. -/
def parseAddr (value : List UInt8) : Option Addr :=
  match value.find? fun unit => unit = byte '.' ∨ unit = byte ':' ∨ unit = byte '%' with
  | none => none
  | some unit =>
      if unit = byte '.' then
        (parseIPv4Fields value).map fun octets => .v4 (BitVec.ofNat 32 (number 256 octets))
      else if unit = byte ':' then parseIPv6 value
      else none

end Oxbin.Netip
