import Mathlib.Data.Char
import Mathlib.Tactic.IntervalCases
import Oxbin.Transform.Cuts

/-!
# UTF-16 code units

Positions and lengths of change sets count UTF-16 code units, as JavaScript strings do.  This
file models `utf16.Encode` and `utf16.Decode` on the scalar values of a valid string and shows
that whole encoded strings can be cut from one another only between characters.
-/

namespace Oxbin.Livecollab

open Transform

/-- The code units of one scalar value. -/
def encodeRune (rune : Char) : List UInt16 :=
  if rune.toNat < 0x10000 then [.ofNat rune.toNat]
  else [.ofNat (0xD800 + (rune.toNat - 0x10000) / 0x400),
    .ofNat (0xDC00 + (rune.toNat - 0x10000) % 0x400)]

/-- `utf16.Encode`. -/
def encode (runes : List Char) : List UInt16 :=
  runes.flatMap encodeRune

/-- U+FFFD, which stands for a lone surrogate. -/
def replacementChar : Char := Char.ofNat 0xFFFD

/-- `utf16.Decode`. -/
def decode : List UInt16 → List Char
  | [] => []
  | [unit] =>
      if unit.toNat < 0xD800 ∨ 0xE000 ≤ unit.toNat then [Char.ofNat unit.toNat]
      else [replacementChar]
  | unit :: next :: units =>
      if unit.toNat < 0xD800 ∨ 0xE000 ≤ unit.toNat then
        Char.ofNat unit.toNat :: decode (next :: units)
      else if unit.toNat < 0xDC00 ∧ 0xDC00 ≤ next.toNat ∧ next.toNat < 0xE000 then
        Char.ofNat (0x10000 + (unit.toNat - 0xD800) * 0x400 + (next.toNat - 0xDC00)) ::
          decode units
      else replacementChar :: decode (next :: units)

/-- The code units of a string. -/
def utf16Units (value : String) : List UInt16 := encode value.toList

/-- `UTF16Len`. -/
def utf16Len (value : String) : Int := (utf16Units value).length

@[simp] theorem encode_nil : encode [] = [] := rfl

@[simp] theorem encode_cons (rune : Char) (runes : List Char) :
    encode (rune :: runes) = encodeRune rune ++ encode runes := rfl

@[simp] theorem encode_append (left right : List Char) :
    encode (left ++ right) = encode left ++ encode right := by
  simp [encode]

@[simp] theorem utf16Units_empty : utf16Units "" = [] := rfl

@[simp] theorem utf16Units_append (left right : String) :
    utf16Units (left ++ right) = utf16Units left ++ utf16Units right := by
  simp [utf16Units]

@[simp] theorem utf16Len_empty : utf16Len "" = 0 := rfl

@[simp] theorem utf16Len_append (left right : String) :
    utf16Len (left ++ right) = utf16Len left + utf16Len right := by
  simp [utf16Len]

theorem utf16Len_nonneg (value : String) : 0 ≤ utf16Len value := by
  simp [utf16Len]

/-- A scalar value lies outside the surrogates and below the last plane. -/
theorem rune_range (rune : Char) :
    rune.toNat < 0xD800 ∨ 0xE000 ≤ rune.toNat ∧ rune.toNat < 0x110000 := by
  rcases rune.valid with low | ⟨above, below⟩
  · exact .inl low
  · right
    simp only [Char.toNat] at *
    constructor <;> omega

theorem ofNat_toNat (rune : Char) : Char.ofNat rune.toNat = rune := Char.ofNat_toNat rune

theorem encodeRune_small {rune : Char} (small : rune.toNat < 0x10000) :
    encodeRune rune = [.ofNat rune.toNat] := by
  simp [encodeRune, small]

theorem encodeRune_large {rune : Char} (large : ¬rune.toNat < 0x10000) :
    encodeRune rune = [.ofNat (0xD800 + (rune.toNat - 0x10000) / 0x400),
      .ofNat (0xDC00 + (rune.toNat - 0x10000) % 0x400)] := by
  simp [encodeRune, large]

/-- Decoding peels off one encoded character. -/
theorem decode_encodeRune (rune : Char) (units : List UInt16) :
    decode (encodeRune rune ++ units) = rune :: decode units := by
  have range := rune_range rune
  by_cases small : rune.toNat < 0x10000
  · have unit_toNat : (UInt16.ofNat rune.toNat).toNat = rune.toNat := by
      simp only [UInt16.toNat_ofNat']
      omega
    have plain : rune.toNat < 0xD800 ∨ 0xE000 ≤ rune.toNat := by omega
    rw [encodeRune_small small]
    cases units with
    | nil => simp [decode, unit_toNat, plain]
    | cons next units => simp [decode, unit_toNat, plain]
  · have high_toNat : (UInt16.ofNat (0xD800 + (rune.toNat - 0x10000) / 0x400)).toNat =
        0xD800 + (rune.toNat - 0x10000) / 0x400 := by
      simp only [UInt16.toNat_ofNat']
      omega
    have low_toNat : (UInt16.ofNat (0xDC00 + (rune.toNat - 0x10000) % 0x400)).toNat =
        0xDC00 + (rune.toNat - 0x10000) % 0x400 := by
      simp only [UInt16.toNat_ofNat']
      omega
    have not_plain : ¬(0xD800 + (rune.toNat - 0x10000) / 0x400 < 0xD800 ∨
        0xE000 ≤ 0xD800 + (rune.toNat - 0x10000) / 0x400) := by omega
    have pair : 0xD800 + (rune.toNat - 0x10000) / 0x400 < 0xDC00 ∧
        0xDC00 ≤ 0xDC00 + (rune.toNat - 0x10000) % 0x400 ∧
        0xDC00 + (rune.toNat - 0x10000) % 0x400 < 0xE000 := by omega
    have recombined : 0x10000 + (0xD800 + (rune.toNat - 0x10000) / 0x400 - 0xD800) * 0x400 +
        (0xDC00 + (rune.toNat - 0x10000) % 0x400 - 0xDC00) = rune.toNat := by omega
    rw [encodeRune_large small, List.cons_append, List.cons_append, List.nil_append, decode,
      high_toNat, low_toNat, if_neg not_plain, if_pos pair, recombined, ofNat_toNat]

theorem decode_encode_append (runes : List Char) (units : List UInt16) :
    decode (encode runes ++ units) = runes ++ decode units := by
  induction runes with
  | nil => rfl
  | cons rune runes induction =>
      rw [encode_cons, List.append_assoc, decode_encodeRune, induction, List.cons_append]

/-- Decoding an encoded string gives it back. -/
@[simp] theorem decode_encode (runes : List Char) : decode (encode runes) = runes := by
  simpa [decode] using decode_encode_append runes []

/-- The code units of a whole string: no surrogate of it is alone. -/
def WholeRunes (units : List UInt16) : Prop :=
  ∃ runes, units = encode runes

theorem wholeRunes_utf16Units (value : String) : WholeRunes (utf16Units value) :=
  ⟨value.toList, rfl⟩

theorem WholeRunes.encode_decode {units : List UInt16} (whole : WholeRunes units) :
    encode (decode units) = units := by
  obtain ⟨runes, rfl⟩ := whole
  rw [decode_encode]

instance : DecidablePred WholeRunes := fun units =>
  decidable_of_iff (encode (decode units) = units)
    ⟨fun whole => ⟨_, whole.symm⟩, WholeRunes.encode_decode⟩

/-- Whole strings form a submonoid that can be cancelled from the left. -/
theorem cuttable_wholeRunes : Cuttable WholeRunes where
  nil := ⟨[], rfl⟩
  append := by
    rintro _ _ ⟨left, rfl⟩ ⟨right, rfl⟩
    exact ⟨left ++ right, (encode_append left right).symm⟩
  cancel := by
    rintro left right ⟨whole, equality⟩ ⟨front, rfl⟩
    have decoded : whole = front ++ decode right := by
      rw [← decode_encode whole, ← equality, decode_encode_append]
    refine ⟨decode right, ?_⟩
    rw [decoded, encode_append, List.append_cancel_left_eq] at equality
    exact equality

end Oxbin.Livecollab
