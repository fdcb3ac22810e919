import Oxbin.Livecollab.ChangeSet
import Oxbin.Transform.Weave

/-!
# What a change set does to code units

A well-formed change set is an edit in the sense of `Oxbin.Transform`: `Apply` executes its
atoms, and the lengths of its sections cut the document.  `addSection`, which joins a section
with its predecessor where it can, extends that edit by exactly the section it is given.
-/

namespace Oxbin.Livecollab

open Transform

/-- The shape of the sections that the parser admits: an unchanged section is not empty, and the
length of a changed section is that of its text. -/
def Section.Proper (sect : Section) : Prop :=
  sect.newLen = -1 ∧ 0 < sect.oldLen ∨
    0 ≤ sect.oldLen ∧ sect.newLen = utf16Len sect.insert

instance (sect : Section) : Decidable sect.Proper := inferInstanceAs (Decidable (_ ∨ _))

/-- Every section of the set is proper. -/
def ChangeSet.WellFormed (set : ChangeSet) : Prop := ∀ sect ∈ set.sections, sect.Proper

instance (set : ChangeSet) : Decidable set.WellFormed :=
  inferInstanceAs (Decidable (∀ sect ∈ set.sections, sect.Proper))

/-- What `ValidateForDocument` checks of a section besides the text of an unchanged one. -/
def Section.Valid (sect : Section) : Prop :=
  0 ≤ sect.oldLen ∧ (sect.changed = true → sect.newLen = utf16Len sect.insert)

/-- The edit performed by one section. -/
def Section.atoms (sect : Section) : List (Atom UInt16) :=
  if sect.changed then change sect.oldLen (utf16Units sect.insert) sect.oldLen.toNat
  else List.replicate sect.oldLen.toNat .keep

/-- The edit performed by consecutive sections. -/
def atomsOf (sections : List Section) : List (Atom UInt16) :=
  sections.flatMap Section.atoms

/-- The numbers of units that consecutive sections read. -/
def lengthsOf (sections : List Section) : List Nat :=
  sections.map fun sect => sect.oldLen.toNat

/-- The result of applying a change set, as a total function. -/
def ChangeSet.run (set : ChangeSet) (units : List UInt16) : List UInt16 :=
  walk (atomsOf set.sections) units

@[simp] theorem atomsOf_nil : atomsOf [] = [] := rfl

@[simp] theorem atomsOf_cons (sect : Section) (sections : List Section) :
    atomsOf (sect :: sections) = sect.atoms ++ atomsOf sections := rfl

@[simp] theorem atomsOf_append (left right : List Section) :
    atomsOf (left ++ right) = atomsOf left ++ atomsOf right := by
  simp [atomsOf]

@[simp] theorem lengthsOf_nil : lengthsOf [] = [] := rfl

@[simp] theorem lengthsOf_cons (sect : Section) (sections : List Section) :
    lengthsOf (sect :: sections) = sect.oldLen.toNat :: lengthsOf sections := rfl

@[simp] theorem lengthsOf_append (left right : List Section) :
    lengthsOf (left ++ right) = lengthsOf left ++ lengthsOf right := by
  simp [lengthsOf]

@[simp] theorem Section.width_atoms (sect : Section) : width sect.atoms = sect.oldLen.toNat := by
  unfold Section.atoms
  split <;> simp

theorem width_atomsOf (sections : List Section) :
    width (atomsOf sections) = (lengthsOf sections).sum := by
  induction sections with
  | nil => rfl
  | cons sect sections induction => simp [width_append, induction]

theorem Section.Proper.oldLen_nonneg {sect : Section} (proper : sect.Proper) :
    0 ≤ sect.oldLen := by
  rcases proper with ⟨_, positive⟩ | ⟨nonneg, _⟩
  · exact positive.le
  · exact nonneg

theorem Section.Proper.newLen_cases {sect : Section} (proper : sect.Proper) :
    sect.newLen = -1 ∧ 0 < sect.oldLen ∧ sect.changed = false ∨
      0 ≤ sect.newLen ∧ sect.newLen = utf16Len sect.insert ∧ sect.changed = true := by
  rcases proper with ⟨unchanged, positive⟩ | ⟨_, equality⟩
  · exact .inl ⟨unchanged, positive, by simp [Section.changed, unchanged]⟩
  · have nonneg : 0 ≤ sect.newLen := equality ▸ utf16Len_nonneg _
    exact .inr ⟨nonneg, equality, by simpa [Section.changed] using nonneg⟩

theorem Section.Proper.valid {sect : Section} (proper : sect.Proper) : sect.Valid := by
  refine ⟨proper.oldLen_nonneg, fun changed => ?_⟩
  rcases proper.newLen_cases with ⟨_, _, unchanged⟩ | ⟨_, equality, _⟩
  · rw [unchanged] at changed
    cases changed
  · exact equality

theorem ChangeSet.WellFormed.valid {set : ChangeSet} (formed : set.WellFormed) :
    ∀ sect ∈ set.sections, sect.Valid := fun sect member => (formed sect member).valid

theorem sum_lengthsOf {sections : List Section} (nonneg : ∀ sect ∈ sections, 0 ≤ sect.oldLen) :
    ((lengthsOf sections).sum : Int) = ChangeSet.oldLen ⟨sections⟩ := by
  induction sections with
  | nil => rfl
  | cons sect sections induction =>
      have oldLen_nonneg := nonneg sect (by simp)
      have tail := induction fun other member => nonneg other (by simp [member])
      simp only [ChangeSet.oldLen, lengthsOf_cons, List.sum_cons, List.map_cons] at tail ⊢
      omega

theorem ChangeSet.WellFormed.sum_lengths {set : ChangeSet} (formed : set.WellFormed) :
    ((lengthsOf set.sections).sum : Int) = set.oldLen :=
  sum_lengthsOf fun sect member => (formed sect member).oldLen_nonneg

/-! ## Apply -/

/-- What a section writes for the units it reads. -/
def Section.written (sect : Section) (piece : List UInt16) : List UInt16 :=
  if sect.changed then utf16Units sect.insert else piece

/-- A section replaces the units it reads. -/
theorem Section.walk_atoms (sect : Section) (atoms : List (Atom UInt16)) {piece : List UInt16}
    (rest : List UInt16) (fits : piece.length = sect.oldLen.toNat) :
    walk (sect.atoms ++ atoms) (piece ++ rest) = sect.written piece ++ walk atoms rest := by
  unfold Section.atoms Section.written
  rw [← fits]
  split
  · exact walk_change _ _ _ _ _
  · exact walk_keeps _ _ _

theorem applySections_eq (input : List UInt16) (sections : List Section) (index : Nat)
    (position : Int) (output : List UInt16) (valid : ∀ sect ∈ sections, sect.Valid)
    (nonneg : 0 ≤ position)
    (fits : position + (lengthsOf sections).sum = input.length) :
    ChangeSet.applySections input sections index position output =
      .ok (input.length, output ++ walk (atomsOf sections) (input.drop position.toNat)) := by
  induction sections generalizing index position output with
  | nil =>
      have reached : position = input.length := by simpa using fits
      simp [ChangeSet.applySections, reached]
  | cons sect sections induction =>
      have oldLen_nonneg := (valid sect (by simp)).1
      rw [lengthsOf_cons, List.sum_cons] at fits
      have inside : ¬position + sect.oldLen > input.length := by omega
      have next := fun output => induction (index + 1) (position + sect.oldLen) output
        (fun other member => valid other (by simp [member])) (by omega) (by omega)
      have pieces : input.drop position.toNat =
          (input.drop position.toNat).take sect.oldLen.toNat ++
            input.drop (position + sect.oldLen).toNat := by
        rw [show (position + sect.oldLen).toNat = position.toNat + sect.oldLen.toNat by omega,
          ← List.drop_drop, List.take_append_drop]
      have taken : ((input.drop position.toNat).take sect.oldLen.toNat).length =
          sect.oldLen.toNat := by
        rw [List.length_take, List.length_drop]
        omega
      have walked := sect.walk_atoms (atomsOf sections)
        (input.drop (position + sect.oldLen).toNat) taken
      rw [← pieces, Section.written] at walked
      rw [ChangeSet.applySections, atomsOf_cons, walked]
      simp only [if_neg inside]
      by_cases changed : sect.changed = true
      · simp only [changed, if_true, next, List.append_assoc]
      · have ordered : 0 ≤ position ∧ position ≤ position + sect.oldLen := by omega
        simp only [changed, Bool.false_eq_true, if_false, if_pos ordered, next,
          List.append_assoc, add_sub_cancel_left]

/-- The number of units that valid sections write. -/
theorem length_walk_atomsOf (sections : List Section) (valid : ∀ sect ∈ sections, sect.Valid)
    (units : List UInt16) (fits : units.length = (lengthsOf sections).sum) :
    ((walk (atomsOf sections) units).length : Int) = ChangeSet.newLen ⟨sections⟩ := by
  induction sections generalizing units with
  | nil => simp [ChangeSet.newLen]
  | cons sect sections induction =>
      obtain ⟨oldLen_nonneg, equality⟩ := valid sect (by simp)
      rw [lengthsOf_cons, List.sum_cons] at fits
      have taken : (units.take sect.oldLen.toNat).length = sect.oldLen.toNat := by
        rw [List.length_take]
        omega
      have walked := sect.walk_atoms (atomsOf sections) (units.drop sect.oldLen.toNat) taken
      rw [List.take_append_drop, Section.written] at walked
      have tail := induction (fun other member => valid other (by simp [member]))
        (units.drop sect.oldLen.toNat) (by rw [List.length_drop]; omega)
      simp only [ChangeSet.newLen, List.map_cons, List.sum_cons] at tail ⊢
      rw [atomsOf_cons, walked, List.length_append, Nat.cast_add, tail]
      cases changed : sect.changed with
      | true => simp only [if_true, equality changed, utf16Len]
      | false =>
          simp only [Bool.false_eq_true, if_false, taken, add_left_inj]
          omega

/-- `Apply` before its decoding step executes a set of valid sections. -/
theorem ChangeSet.applyUnits_of_valid {set : ChangeSet} (valid : ∀ sect ∈ set.sections, sect.Valid)
    {units : List UInt16} (fits : set.oldLen = units.length) :
    set.applyUnits units = .ok (set.run units) := by
  have total : ((lengthsOf set.sections).sum : Int) = set.oldLen :=
    sum_lengthsOf fun sect member => (valid sect member).1
  have written : ((walk (atomsOf set.sections) units).length : Int) = set.newLen :=
    length_walk_atomsOf set.sections valid units (by omega)
  have newLen_nonneg : ¬set.newLen < 0 := by omega
  have walked := applySections_eq units set.sections 0 0 [] valid le_rfl (by omega)
  simp only [ChangeSet.applyUnits, fits, ne_eq, not_true_eq_false, if_false, newLen_nonneg,
    walked, List.nil_append, Int.toNat_zero, List.drop_zero]
  rfl

/-- `Apply` before its decoding step executes a well-formed set. -/
theorem ChangeSet.WellFormed.applyUnits_eq {set : ChangeSet} (formed : set.WellFormed)
    {units : List UInt16} (fits : set.oldLen = units.length) :
    set.applyUnits units = .ok (set.run units) := applyUnits_of_valid formed.valid fits

theorem ChangeSet.WellFormed.length_run {set : ChangeSet} (formed : set.WellFormed)
    {units : List UInt16} (fits : set.oldLen = units.length) :
    ((set.run units).length : Int) = set.newLen := by
  have total := formed.sum_lengths
  exact length_walk_atomsOf set.sections formed.valid units (by omega)

end Oxbin.Livecollab
