import Mathlib.Data.List.Basic
import Mathlib.Data.List.TakeDrop

/-!
# Bytes in groups of six bits

Three bytes are four sextets.  One or two bytes at the end are two or three sextets, whose last one
has bits to spare; the encoder leaves them zero.
-/

namespace Oxbin.Base64

/-- The sextets of bytes. -/
def sextets : List UInt8 → List Nat
  | [] => []
  | [a] => [a.toNat / 4, a.toNat % 4 * 16]
  | [a, b] => [a.toNat / 4, a.toNat % 4 * 16 + b.toNat / 16, b.toNat % 16 * 4]
  | a :: b :: c :: bytes =>
      a.toNat / 4 :: (a.toNat % 4 * 16 + b.toNat / 16) :: (b.toNat % 16 * 4 + c.toNat / 64) ::
        c.toNat % 64 :: sextets bytes

/-- The bytes of sextets; spare bits at the end are dropped, and so is a single last sextet. -/
def bytes : List Nat → List UInt8
  | a :: b :: c :: d :: sextets =>
      .ofNat (a * 4 + b / 16) :: .ofNat (b % 16 * 16 + c / 4) :: .ofNat (c % 4 * 64 + d) ::
        bytes sextets
  | [a, b, c] => [.ofNat (a * 4 + b / 16), .ofNat (b % 16 * 16 + c / 4)]
  | [a, b] => [.ofNat (a * 4 + b / 16)]
  | _ => []

/-- Bytes as numbers. -/
theorem ofNat_eq {value : Nat} {byte : UInt8} (equality : value = byte.toNat) :
    UInt8.ofNat value = byte := by
  rw [equality, UInt8.ofNat_toNat]

/-- Decoding the sextets of bytes gives the bytes back. -/
@[simp] theorem bytes_sextets (word : List UInt8) : bytes (sextets word) = word := by
  fun_induction sextets word with
  | case1 => rfl
  | case2 a =>
      rw [bytes, @ofNat_eq _ a (by omega)]
  | case3 a b =>
      have := b.toNat_lt
      rw [bytes, @ofNat_eq _ a (by omega), @ofNat_eq _ b (by omega)]
  | case4 a b c word induction =>
      have := b.toNat_lt
      have := c.toNat_lt
      rw [bytes, @ofNat_eq _ a (by omega), @ofNat_eq _ b (by omega),
        @ofNat_eq _ c (by omega), induction]

/-- Sextets are below sixty-four. -/
theorem sextets_lt (word : List UInt8) : ∀ value ∈ sextets word, value < 64 := by
  fun_induction sextets word with
  | case1 => simp
  | case2 a =>
      have := a.toNat_lt
      simp only [List.mem_cons, List.not_mem_nil, or_false]
      omega
  | case3 a b =>
      have := a.toNat_lt
      have := b.toNat_lt
      simp only [List.mem_cons, List.not_mem_nil, or_false]
      omega
  | case4 a b c word induction =>
      have := a.toNat_lt
      have := b.toNat_lt
      have := c.toNat_lt
      intro value member
      simp only [List.mem_cons] at member
      rcases member with rfl | rfl | rfl | rfl | later
      · omega
      · omega
      · omega
      · omega
      · exact induction value later

/-- The number of sextets leaves the remainder zero, two or three. -/
theorem length_sextets_mod (word : List UInt8) : (sextets word).length % 4 ≠ 1 := by
  fun_induction sextets word with
  | case1 => simp
  | case2 => simp
  | case3 => simp
  | case4 a b c word induction =>
      simp only [List.length_cons]
      omega

/-- Four sextets for three bytes, rounded up. -/
theorem length_sextets (word : List UInt8) : (sextets word).length = (4 * word.length + 2) / 3 := by
  fun_induction sextets word with
  | case1 => rfl
  | case2 => simp
  | case3 => simp
  | case4 a b c word induction =>
      simp only [List.length_cons]
      omega

theorem sextets_eq_nil {word : List UInt8} : sextets word = [] ↔ word = [] := by
  fun_cases sextets word <;> simp

/-! ## Text -/

/-- Bytes as text in an alphabet, without padding. -/
def encode (letter : Nat → Char) (word : List UInt8) : List Char := (sextets word).map letter

/-- Text in an alphabet without padding, as bytes.  Line breaks are passed over, and the spare bits
at the end may be anything. -/
def decode (value : Char → Option Nat) (text : List Char) : Option (List UInt8) :=
  ((text.filter fun rune => rune ≠ '\r' ∧ rune ≠ '\n').mapM value).bind fun sextets =>
    if sextets.length % 4 = 1 then none else some (bytes sextets)

theorem mapM_map_letter {letter : Nat → Char} {value : Char → Option Nat}
    (inverse : ∀ sextet < 64, value (letter sextet) = some sextet) {sextets : List Nat}
    (small : ∀ sextet ∈ sextets, sextet < 64) :
    (sextets.map letter).mapM value = some sextets := by
  induction sextets with
  | nil => rfl
  | cons sextet sextets induction =>
      have rest := induction fun other member => small other (List.mem_cons_of_mem _ member)
      rw [List.map_cons, List.mapM_cons, inverse sextet (small sextet List.mem_cons_self), rest]
      rfl

/-- Decoding the text of bytes gives the bytes back. -/
theorem decode_encode {letter : Nat → Char} {value : Char → Option Nat}
    (inverse : ∀ sextet < 64, value (letter sextet) = some sextet)
    (unbroken : ∀ sextet < 64, letter sextet ≠ '\r' ∧ letter sextet ≠ '\n') (word : List UInt8) :
    decode value (encode letter word) = some word := by
  have whole : (encode letter word).filter (fun rune => rune ≠ '\r' ∧ rune ≠ '\n') =
      encode letter word := by
    refine List.filter_eq_self.mpr fun rune member => ?_
    obtain ⟨sextet, listed, rfl⟩ := List.mem_map.mp member
    exact decide_eq_true (unbroken sextet (sextets_lt word sextet listed))
  rw [decode, whole, encode, mapM_map_letter inverse (sextets_lt word), Option.bind_some,
    if_neg (length_sextets_mod word), bytes_sextets]

end Oxbin.Base64
