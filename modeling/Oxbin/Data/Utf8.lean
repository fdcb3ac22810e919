import Mathlib.Data.String.Defs

/-!
# Decoding UTF-8

Bytes that are no encoding of a character each stand for U+FFFD, so that every byte string can be
read as characters.
-/

namespace Oxbin.Utf8

/-- The bytes of a text. -/
def encode (runes : List Char) : List UInt8 := runes.flatMap String.utf8EncodeChar

/-- The character at the front of the bytes, if they begin with one. -/
def firstRune (bytes : List UInt8) : Option Char :=
  (bytes.take 4).toByteArray.utf8DecodeChar? 0

/-- The characters of the bytes after the next `skip` bytes. -/
def decodeFrom : Nat → List UInt8 → List Char
  | _, [] => []
  | skip + 1, _ :: bytes => decodeFrom skip bytes
  | 0, byte :: bytes =>
      match firstRune (byte :: bytes) with
      | some rune => rune :: decodeFrom (rune.utf8Size - 1) bytes
      | none => Char.ofNat 0xFFFD :: decodeFrom 0 bytes

/-- The characters of a byte string. -/
def decode (bytes : List UInt8) : List Char := decodeFrom 0 bytes

@[simp] theorem encode_nil : encode [] = [] := rfl

@[simp] theorem encode_cons (rune : Char) (runes : List Char) :
    encode (rune :: runes) = String.utf8EncodeChar rune ++ encode runes := rfl

theorem firstRune_encoded (rune : Char) (bytes : List UInt8) :
    firstRune (String.utf8EncodeChar rune ++ bytes) = some rune := by
  have size := rune.utf8Size_le_four
  unfold firstRune
  rw [List.take_append, List.take_of_length_le (by rwa [String.length_utf8EncodeChar]),
    List.toByteArray_append]
  exact ByteArray.utf8DecodeChar?_utf8EncodeChar_append

theorem decodeFrom_append (front back : List UInt8) :
    decodeFrom front.length (front ++ back) = decodeFrom 0 back := by
  induction front with
  | nil => rfl
  | cons byte front induction => exact induction

/-- Decoding peels off one encoded character. -/
theorem decode_encoded (rune : Char) (bytes : List UInt8) :
    decode (String.utf8EncodeChar rune ++ bytes) = rune :: decode bytes := by
  have first := firstRune_encoded rune bytes
  have length := String.length_utf8EncodeChar rune
  cases encoded : String.utf8EncodeChar rune with
  | nil => exact absurd encoded String.utf8EncodeChar_ne_nil
  | cons byte rest =>
      rw [encoded, List.cons_append] at first
      rw [encoded, List.length_cons] at length
      unfold decode
      rw [List.cons_append, decodeFrom, first]
      simp only
      rw [← length, Nat.add_sub_cancel, decodeFrom_append]

/-- Decoding an encoded text gives it back. -/
@[simp] theorem decode_encode (runes : List Char) : decode (encode runes) = runes := by
  induction runes with
  | nil => rfl
  | cons rune runes induction => rw [encode_cons, decode_encoded, induction]

end Oxbin.Utf8
