import Oxbin.Data.Base64
import Oxbin.Paste.Payload

/-!
# The server's base64url

`decodeBase64url` of `internal/paste/paste.go` decodes strictly, passing over line breaks, and then
compares the input with the encoding of the result.  It accepts the encodings of non-empty byte
strings and nothing else.
-/

namespace Oxbin.Paste

/-- The alphabet of `base64.RawURLEncoding`. -/
def urlAlphabet : List Char :=
  ['A', 'B', 'C', 'D', 'E', 'F', 'G', 'H', 'I', 'J', 'K', 'L', 'M', 'N', 'O', 'P', 'Q', 'R', 'S',
    'T', 'U', 'V', 'W', 'X', 'Y', 'Z', 'a', 'b', 'c', 'd', 'e', 'f', 'g', 'h', 'i', 'j', 'k', 'l',
    'm', 'n', 'o', 'p', 'q', 'r', 's', 't', 'u', 'v', 'w', 'x', 'y', 'z', '0', '1', '2', '3', '4',
    '5', '6', '7', '8', '9', '-', '_']

/-- The letter of a sextet. -/
def letter (value : Nat) : Char := urlAlphabet.getD value '='

/-- `RawURLEncoding.EncodeToString`. -/
def encodeToString (bytes : List UInt8) : String :=
  String.ofList ((Base64.sextets bytes).map letter)

/-- `RawURLEncoding.Strict().DecodeString`. -/
def strictDecodeString (value : String) : Option (List Nat) :=
  ((value.toList.filter fun rune => rune ≠ '\r' ∧ rune ≠ '\n').mapM sextet).bind decodeSextets

/-- `decodeBase64url`, statement by statement. -/
def decodeBase64urlStrict (value : String) : Option (List Nat) :=
  if value = "" then none
  else
    match strictDecodeString value with
    | none => none
    | some decoded =>
        if encodeToString (decoded.map UInt8.ofNat) ≠ value then none else some decoded

/-! ## Letters -/

theorem sextet_letter {value : Nat} (small : value < 64) : sextet (letter value) = some value := by
  revert value
  decide

theorem letter_of_sextet {rune : Char} {value : Nat} (read : sextet rune = some value) :
    value < 64 ∧ letter value = rune := by
  have upper : ∀ index < 26, (letter index).toNat = 'A'.toNat + index := by decide
  have lower : ∀ index < 26, (letter (index + 26)).toNat = 'a'.toNat + index := by decide
  have digit : ∀ index < 10, (letter (index + 52)).toNat = '0'.toNat + index := by decide
  have toNat_le {left right : Char} (ordered : left ≤ right) : left.toNat ≤ right.toNat := ordered
  unfold sextet at read
  split at read
  case isTrue range =>
    have first := toNat_le range.1
    have last := toNat_le range.2
    simp only [Char.reduceToNat] at first last upper
    cases read
    have small : rune.toNat - 65 < 26 := by omega
    refine ⟨by simp only [Char.reduceToNat]; omega, Char.toNat_inj.mp ?_⟩
    simp only [Char.reduceToNat]
    rw [upper _ small]
    omega
  split at read
  case isTrue range =>
    have first := toNat_le range.1
    have last := toNat_le range.2
    simp only [Char.reduceToNat] at first last lower
    cases read
    have small : rune.toNat - 97 < 26 := by omega
    refine ⟨by simp only [Char.reduceToNat]; omega, Char.toNat_inj.mp ?_⟩
    simp only [Char.reduceToNat]
    rw [lower _ small]
    omega
  split at read
  case isTrue range =>
    have first := toNat_le range.1
    have last := toNat_le range.2
    simp only [Char.reduceToNat] at first last digit
    cases read
    have small : rune.toNat - 48 < 10 := by omega
    refine ⟨by simp only [Char.reduceToNat]; omega, Char.toNat_inj.mp ?_⟩
    simp only [Char.reduceToNat]
    rw [digit _ small]
    omega
  split at read
  case isTrue same =>
    cases read
    exact ⟨by decide, same.symm⟩
  split at read
  case isTrue same =>
    cases read
    exact ⟨by decide, same.symm⟩
  case isFalse => cases read

theorem mapM_sextet_letter {values : List Nat} (small : ∀ value ∈ values, value < 64) :
    (values.map letter).mapM sextet = some values := by
  induction values with
  | nil => rfl
  | cons value values induction =>
      have rest := induction fun other member => small other (List.mem_cons_of_mem _ member)
      rw [List.map_cons, List.mapM_cons, sextet_letter (small value List.mem_cons_self), rest]
      rfl

theorem map_letter_of_mapM {runes : List Char} {values : List Nat}
    (read : runes.mapM sextet = some values) :
    (∀ value ∈ values, value < 64) ∧ values.map letter = runes := by
  induction runes generalizing values with
  | nil =>
      cases read
      simp
  | cons rune runes induction =>
      rw [List.mapM_cons] at read
      obtain ⟨value, first, rest⟩ := Option.bind_eq_some_iff.mp read
      obtain ⟨later, readLater, equality⟩ := Option.bind_eq_some_iff.mp rest
      cases equality
      obtain ⟨small, same⟩ := letter_of_sextet first
      obtain ⟨smallLater, sameLater⟩ := induction readLater
      refine ⟨fun other member => ?_, by rw [List.map_cons, same, sameLater]⟩
      rcases List.mem_cons.mp member with rfl | member
      · exact small
      · exact smallLater other member

/-! ## Groups -/

theorem decodeSextets_sextets (bytes : List UInt8) :
    decodeSextets (Base64.sextets bytes) = some (bytes.map UInt8.toNat) := by
  fun_induction Base64.sextets bytes with
  | case1 => rfl
  | case2 a =>
      rw [decodeSextets, if_pos (by omega)]
      simp only [List.map_cons, List.map_nil, Option.some.injEq, List.cons.injEq, and_true]
      omega
  | case3 a b =>
      have := b.toNat_lt
      rw [decodeSextets, if_pos (by omega)]
      simp only [List.map_cons, List.map_nil, Option.some.injEq, List.cons.injEq, and_true]
      omega
  | case4 a b c bytes induction =>
      have := b.toNat_lt
      have := c.toNat_lt
      rw [decodeSextets, induction]
      simp only [List.map_cons, Option.map_some, Option.some.injEq, List.cons.injEq, and_true]
      omega

/-- Strict decoding loses no bit. -/
theorem sextets_of_decodeSextets {values decoded : List Nat}
    (small : ∀ value ∈ values, value < 64) (read : decodeSextets values = some decoded) :
    Base64.sextets (decoded.map UInt8.ofNat) = values ∧ ∀ byte ∈ decoded, byte < 256 := by
  have toNat_ofNat {value : Nat} (bound : value < 256) : (UInt8.ofNat value).toNat = value := by
    rw [UInt8.toNat_ofNat', Nat.mod_eq_of_lt bound]
  fun_induction decodeSextets values generalizing decoded with
  | case1 =>
      cases read
      exact ⟨rfl, by simp⟩
  | case2 => cases read
  | case3 a b spare =>
      cases read
      simp only [List.mem_cons, List.not_mem_nil, or_false, forall_eq_or_imp, forall_eq] at small
      obtain ⟨smallA, smallB⟩ := small
      refine ⟨?_, by simp only [List.mem_singleton]; omega⟩
      rw [List.map_cons, List.map_nil, Base64.sextets, toNat_ofNat (by omega)]
      simp only [List.cons.injEq, and_true]
      omega
  | case4 => cases read
  | case5 a b c spare =>
      cases read
      simp only [List.mem_cons, List.not_mem_nil, or_false, forall_eq_or_imp, forall_eq] at small
      obtain ⟨smallA, smallB, smallC⟩ := small
      refine ⟨?_, by simp only [List.mem_cons, List.not_mem_nil, or_false]; omega⟩
      rw [List.map_cons, List.map_cons, List.map_nil, Base64.sextets, toNat_ofNat (by omega),
        toNat_ofNat (by omega)]
      simp only [List.cons.injEq, and_true]
      omega
  | case6 => cases read
  | case7 a b c d values induction =>
      obtain ⟨later, readLater, rfl⟩ := Option.map_eq_some_iff.mp read
      have smallLater : ∀ value ∈ values, value < 64 := fun value member =>
        small value (by simp [member])
      obtain ⟨same, bound⟩ := induction smallLater readLater
      have smallA := small a (by simp)
      have smallB := small b (by simp)
      have smallC := small c (by simp)
      have smallD := small d (by simp)
      constructor
      · rw [List.map_cons, List.map_cons, List.map_cons, Base64.sextets, toNat_ofNat (by omega),
          toNat_ofNat (by omega), toNat_ofNat (by omega), same]
        simp only [List.cons.injEq, and_true]
        omega
      · intro byte member
        simp only [List.mem_cons] at member
        rcases member with rfl | rfl | rfl | later
        · omega
        · omega
        · omega
        · exact bound byte later

theorem map_toNat_ofNat {decoded : List Nat} (bound : ∀ byte ∈ decoded, byte < 256) :
    (decoded.map UInt8.ofNat).map UInt8.toNat = decoded := by
  rw [List.map_map]
  refine (List.map_congr_left fun byte member => ?_).trans (List.map_id _)
  rw [Function.comp_apply, UInt8.toNat_ofNat', Nat.mod_eq_of_lt (bound byte member)]
  rfl

/-! ## The decoder -/

theorem encodeToString_ne_empty {bytes : List UInt8} (nonempty : bytes ≠ []) :
    encodeToString bytes ≠ "" := by
  intro empty
  have runes := congrArg String.toList empty
  rw [encodeToString, String.toList_ofList] at runes
  exact nonempty (Base64.sextets_eq_nil.mp (List.map_eq_nil_iff.mp runes))

/-- Encodings have no line breaks. -/
theorem letter_not_break {value : Nat} (small : value < 64) :
    letter value ≠ '\r' ∧ letter value ≠ '\n' := by
  revert value
  decide

/-- The server decodes exactly the encodings of non-empty byte strings, and to these bytes. -/
theorem decodeBase64url_eq_some {value : String} {decoded : List Nat} :
    decodeBase64url value = some decoded ↔
      ∃ bytes : List UInt8, bytes ≠ [] ∧ encodeToString bytes = value ∧
        decoded = bytes.map UInt8.toNat := by
  unfold decodeBase64url
  constructor
  · intro read
    split at read
    case isTrue => cases read
    case isFalse nonempty =>
      obtain ⟨values, letters, groups⟩ := Option.bind_eq_some_iff.mp read
      obtain ⟨small, same⟩ := map_letter_of_mapM letters
      obtain ⟨regrouped, bound⟩ := sextets_of_decodeSextets small groups
      have encoded : encodeToString (decoded.map UInt8.ofNat) = value := by
        rw [encodeToString, regrouped, same, String.ofList_toList]
      refine ⟨decoded.map UInt8.ofNat, ?_, encoded, ?_⟩
      · intro empty
        rw [empty] at encoded
        exact nonempty encoded.symm
      · exact (map_toNat_ofNat bound).symm
  · rintro ⟨bytes, nonempty, rfl, rfl⟩
    rw [if_neg (encodeToString_ne_empty nonempty), encodeToString, String.toList_ofList,
      mapM_sextet_letter (Base64.sextets_lt bytes), Option.bind_some, decodeSextets_sextets]

/-- Decoding with line breaks passed over and the comparison with the encoded bytes is decoding
without line breaks. -/
theorem decodeBase64urlStrict_eq (value : String) :
    decodeBase64urlStrict value = decodeBase64url value := by
  refine Option.ext fun decoded => ?_
  rw [decodeBase64url_eq_some]
  unfold decodeBase64urlStrict strictDecodeString
  constructor
  · intro read
    split at read
    case isTrue => cases read
    case isFalse nonempty =>
      split at read
      case h_1 => cases read
      case h_2 bytes found =>
        split at read
        case isTrue => cases read
        case isFalse same =>
          cases read
          obtain ⟨values, letters, groups⟩ := Option.bind_eq_some_iff.mp found
          obtain ⟨_, bound⟩ := sextets_of_decodeSextets (map_letter_of_mapM letters).1 groups
          have encoded := not_not.mp same
          refine ⟨decoded.map UInt8.ofNat, ?_, encoded, ?_⟩
          · intro empty
            rw [empty] at encoded
            exact nonempty encoded.symm
          · exact (map_toNat_ofNat bound).symm
  · rintro ⟨bytes, nonempty, rfl, rfl⟩
    have kept : ((encodeToString bytes).toList.filter fun rune => rune ≠ '\r' ∧ rune ≠ '\n') =
        (Base64.sextets bytes).map letter := by
      rw [encodeToString, String.toList_ofList, List.filter_eq_self]
      intro rune member
      obtain ⟨value, listed, rfl⟩ := List.mem_map.mp member
      exact decide_eq_true (letter_not_break (Base64.sextets_lt bytes value listed))
    rw [if_neg (encodeToString_ne_empty nonempty), kept,
      mapM_sextet_letter (Base64.sextets_lt bytes), Option.bind_some, decodeSextets_sextets]
    simp [Function.comp_def]

end Oxbin.Paste
