import Mathlib.Algebra.BigOperators.Group.List.Basic
import Mathlib.Algebra.Ring.Nat

/-!
# Cutting a word into admissible pieces

An edit reads its word piece by piece.  `Cuts P lengths word` says that pieces of the given
lengths make up the word and that each of them is admissible.  With the trivial predicate this
is only the statement that the lengths add up; with a predicate such as "is a whole number of
encoded characters" it says that no piece ends inside a character.
-/

namespace Oxbin.Transform

universe u

variable {α : Type u}

/-- Admissible words form a submonoid that can be cancelled from the left. -/
structure Cuttable (P : List α → Prop) : Prop where
  nil : P []
  append : ∀ {left right}, P left → P right → P (left ++ right)
  cancel : ∀ {left right}, P (left ++ right) → P left → P right

/-- Every word is admissible. -/
theorem Cuttable.trivial : Cuttable (fun _ : List α => True) where
  nil := ⟨⟩
  append _ _ := ⟨⟩
  cancel _ _ := ⟨⟩

/-- Admissible pieces of the given lengths make up the word. -/
def Cuts (P : List α → Prop) : List Nat → List α → Prop
  | [], word => word = []
  | length :: lengths, word =>
      ∃ piece rest, word = piece ++ rest ∧ piece.length = length ∧ P piece ∧ Cuts P lengths rest

namespace Cuts

variable {P : List α → Prop} {lengths lengths' : List Nat} {word word' : List α}

theorem cons {piece rest : List α} (admissible : P piece) (cuts : Cuts P lengths rest) :
    Cuts P (piece.length :: lengths) (piece ++ rest) :=
  ⟨piece, rest, rfl, rfl, admissible, cuts⟩

theorem length_eq (cuts : Cuts P lengths word) : word.length = lengths.sum := by
  induction lengths generalizing word with
  | nil =>
      obtain rfl : word = [] := cuts
      rfl
  | cons length lengths induction =>
      obtain ⟨piece, rest, rfl, rfl, _, cuts⟩ := cuts
      simp [induction cuts]

theorem append (left : Cuts P lengths word) (right : Cuts P lengths' word') :
    Cuts P (lengths ++ lengths') (word ++ word') := by
  induction lengths generalizing word with
  | nil =>
      obtain rfl : word = [] := left
      exact right
  | cons length lengths induction =>
      obtain ⟨piece, rest, rfl, rfl, admissible, cuts⟩ := left
      rw [List.append_assoc]
      exact (induction cuts).cons admissible

theorem snoc {piece : List α} (cuts : Cuts P lengths word) (admissible : P piece) :
    Cuts P (lengths ++ [piece.length]) (word ++ piece) :=
  cuts.append ⟨piece, [], by simp, rfl, admissible, rfl⟩

theorem admissible (cuttable : Cuttable P) (cuts : Cuts P lengths word) : P word := by
  induction lengths generalizing word with
  | nil =>
      obtain rfl : word = [] := cuts
      exact cuttable.nil
  | cons length lengths induction =>
      obtain ⟨piece, rest, rfl, rfl, admissible, cuts⟩ := cuts
      exact cuttable.append admissible (induction cuts)

theorem cons_iff {length : Nat} : Cuts P (length :: lengths) word ↔
    length ≤ word.length ∧ P (word.take length) ∧ Cuts P lengths (word.drop length) := by
  constructor
  · rintro ⟨piece, rest, rfl, rfl, admissible, cuts⟩
    rw [List.take_left, List.drop_left]
    exact ⟨by simp, admissible, cuts⟩
  · rintro ⟨le, admissible, cuts⟩
    exact ⟨_, _, (List.take_append_drop length word).symm, List.length_take_of_le le, admissible,
      cuts⟩

instance decidable [DecidableEq α] [DecidablePred P] :
    (lengths : List Nat) → (word : List α) → Decidable (Cuts P lengths word)
  | [], word => inferInstanceAs (Decidable (word = []))
  | _ :: lengths, _ =>
      have := decidable lengths
      decidable_of_iff _ cons_iff.symm

/-- The pieces of a concatenated list of lengths cut the word in two. -/
theorem exists_append (cuts : Cuts P (lengths ++ lengths') word) :
    ∃ left right, word = left ++ right ∧ Cuts P lengths left ∧ Cuts P lengths' right := by
  induction lengths generalizing word with
  | nil => exact ⟨[], word, rfl, rfl, cuts⟩
  | cons length lengths induction =>
      obtain ⟨piece, rest, rfl, rfl, admissible, cuts⟩ := cuts
      obtain ⟨left, right, rfl, first, second⟩ := induction cuts
      exact ⟨piece ++ left, right, by simp, first.cons admissible, second⟩

/-- A piece of length zero may be left out. -/
theorem drop_zero (cuts : Cuts P (0 :: lengths) word) : Cuts P lengths word := by
  obtain ⟨piece, rest, rfl, empty, _, cuts⟩ := cuts
  rw [List.length_eq_zero_iff] at empty
  simpa [empty] using cuts

/-- With the trivial predicate only the lengths matter. -/
theorem of_length (fits : word.length = lengths.sum) : Cuts (fun _ => True) lengths word := by
  induction lengths generalizing word with
  | nil => exact List.length_eq_zero_iff.mp fits
  | cons length lengths induction =>
      rw [List.sum_cons] at fits
      refine ⟨word.take length, word.drop length, (List.take_append_drop _ _).symm, ?_, ⟨⟩,
        induction ?_⟩
      · rw [List.length_take]
        omega
      · rw [List.length_drop]
        omega

/-- Two ways to cut one word agree on the shorter of their first pieces. -/
theorem split (cuttable : Cuttable P) {short long : Nat} (le : short ≤ long)
    (left : Cuts P (short :: lengths) word) (right : Cuts P (long :: lengths') word) :
    ∃ piece rest, word = piece ++ rest ∧ piece.length = short ∧ P piece ∧
      Cuts P lengths rest ∧ Cuts P ((long - short) :: lengths') rest := by
  obtain ⟨piece, rest, rfl, rfl, admissible, cuts⟩ := left
  obtain ⟨piece', rest', equality, rfl, admissible', cuts'⟩ := right
  obtain ⟨middle, rfl⟩ : ∃ middle, piece' = piece ++ middle := by
    have prefixes : piece <+: piece' ++ rest' := equality ▸ List.prefix_append piece rest
    obtain ⟨middle, middle_eq⟩ :=
      List.prefix_of_prefix_length_le prefixes (List.prefix_append piece' rest') le
    exact ⟨middle, middle_eq.symm⟩
  rw [List.append_assoc, List.append_cancel_left_eq] at equality
  refine ⟨piece, rest, rfl, rfl, admissible, cuts, middle, rest', equality, ?_, ?_, cuts'⟩
  · simp
  · exact cuttable.cancel admissible' admissible

/-- Two ways to cut one word agree on the common part of their first pieces. -/
theorem common (cuttable : Cuttable P) {first second : Nat}
    (left : Cuts P (first :: lengths) word) (right : Cuts P (second :: lengths') word) :
    ∃ piece rest, word = piece ++ rest ∧ piece.length = min first second ∧ P piece ∧
      Cuts P ((first - min first second) :: lengths) rest ∧
      Cuts P ((second - min first second) :: lengths') rest := by
  rcases Nat.le_total first second with le | le
  · obtain ⟨piece, rest, word_eq, fits, admissible, cuts, cuts'⟩ := split cuttable le left right
    rw [Nat.min_eq_left le, Nat.sub_self]
    exact ⟨piece, rest, word_eq, fits, admissible, ⟨[], rest, rfl, rfl, cuttable.nil, cuts⟩, cuts'⟩
  · obtain ⟨piece, rest, word_eq, fits, admissible, cuts, cuts'⟩ := split cuttable le right left
    rw [Nat.min_eq_right le, Nat.sub_self]
    exact ⟨piece, rest, word_eq, fits, admissible, cuts', ⟨[], rest, rfl, rfl, cuttable.nil, cuts⟩⟩

end Cuts

end Oxbin.Transform
