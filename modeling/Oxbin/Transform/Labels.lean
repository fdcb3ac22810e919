import Oxbin.Transform.Weave

/-!
# Letters that carry a label

Whether a letter of a text survives an edit is a question about the occurrence, not about the
letter.  Over an alphabet of letters with labels the occurrences of interest are labelled, and an
edit spares them when it drops no labelled letter and writes none.  Executed together with an edit
that spares the labels, any other edit leaves the same labelled letters in the same order.
-/

namespace Oxbin.Transform

universe u

variable {α β : Type u}

/-- Renaming the letters of two edits and of their word renames the weave. -/
theorem weave_map (rename : α → β) (before : Bool) (as bs : List (Atom α)) (letters : List α) :
    weave before (as.map (Atom.map rename)) (bs.map (Atom.map rename)) (letters.map rename) =
      (weave before as bs letters).map rename := by
  have quiet_map {atoms : List (Atom α)} (quiet : Quiet atoms) :
      Quiet (atoms.map (Atom.map rename)) := by
    intro rank word rest equality
    cases atoms with
    | nil => cases equality
    | cons atom atoms =>
        cases atom with
        | text rank' word' => exact quiet rank' word' atoms rfl
        | keep => cases equality
        | drop => cases equality
  fun_induction weave before as bs letters
  case case1 p left as q right bs letters first induction =>
    simp only [List.map_cons, Atom.map, List.map_append] at induction ⊢
    rw [weave, if_pos first, induction]
  case case2 p left as q right bs letters second induction =>
    simp only [List.map_cons, Atom.map, List.map_append] at induction ⊢
    rw [weave, if_neg second, induction]
  case case3 p left as bs letters quiet induction =>
    simp only [List.map_cons, Atom.map, List.map_append]
    rw [weave_text_left (quiet_map quiet), induction]
  case case4 as q right bs letters quiet induction =>
    simp only [List.map_cons, Atom.map, List.map_append]
    rw [weave_text_right (quiet_map quiet), induction]
  case case5 as bs letter letters induction =>
    simp only [List.map_cons, Atom.map]
    rw [weave, induction]
  case case6 a as b bs letter letters _ _ _ _ induction =>
    cases a <;> cases b <;> simp_all [weave, Atom.map]
  case case7 as bs letters _ quietLeft quietRight _ exhausted =>
    rcases as with _ | ⟨a, as⟩ <;> rcases bs with _ | ⟨b, bs⟩ <;>
      rcases letters with _ | ⟨letter, letters⟩
    case cons.cons.cons => exact (exhausted a as b bs letter letters rfl rfl rfl).elim
    case cons.cons.nil => cases a <;> cases b <;> simp_all [weave, Atom.map]
    case cons.nil.nil | cons.nil.cons => cases a <;> simp_all [weave, Atom.map]
    case nil.cons.nil | nil.cons.cons => cases b <;> simp_all [weave, Atom.map]
    all_goals simp

/-- Woven with an edit that keeps every letter, an edit does what it does alone. -/
theorem weave_keep_all (before : Bool) (atoms : List (Atom α)) (letters : List α)
    (fits : width atoms = letters.length) :
    weave before atoms (List.replicate letters.length .keep) letters = walk atoms letters := by
  induction atoms generalizing letters with
  | nil =>
      obtain rfl := List.length_eq_zero_iff.mp fits.symm
      simp
  | cons atom atoms induction =>
      cases atom with
      | text rank word =>
          have quiet : Quiet (List.replicate letters.length (.keep : Atom α)) := by
            intro rank word rest equality
            have member : Atom.text rank word ∈ List.replicate letters.length (.keep : Atom α) := by
              rw [equality]
              exact List.mem_cons_self
            cases List.eq_of_mem_replicate member
          rw [weave_text_left quiet, induction letters fits, walk_text]
      | keep =>
          cases letters with
          | nil => simp [width] at fits
          | cons letter letters =>
              rw [List.length_cons, List.replicate_succ, weave,
                induction letters (by simpa [width] using fits), walk]
      | drop =>
          cases letters with
          | nil => simp [width] at fits
          | cons letter letters =>
              rw [List.length_cons, List.replicate_succ]
              simp only [weave, walk]
              exact induction letters (by simpa [width] using fits)

/-! ## Labels -/

section Labels

variable (labelled : α → Bool)

/-- The edit writes no labelled letter. -/
def Unlabelled (atoms : List (Atom α)) : Prop :=
  ∀ rank word, .text rank word ∈ atoms → word.filter labelled = []

variable {labelled}

theorem Unlabelled.tail {atom : Atom α} {atoms : List (Atom α)}
    (unlabelled : Unlabelled labelled (atom :: atoms)) : Unlabelled labelled atoms :=
  fun rank word member => unlabelled rank word (List.mem_cons_of_mem _ member)

/-- An edit that writes no labelled letter leaves some of those of the word. -/
theorem Unlabelled.sublist_filter {atoms : List (Atom α)} (unlabelled : Unlabelled labelled atoms)
    (letters : List α) :
    ((walk atoms letters).filter labelled).Sublist (letters.filter labelled) := by
  induction atoms generalizing letters with
  | nil => simp
  | cons atom atoms induction =>
      have tail := induction unlabelled.tail
      cases atom with
      | text rank word =>
          rw [walk_text, List.filter_append, unlabelled rank word List.mem_cons_self,
            List.nil_append]
          exact tail letters
      | keep =>
          cases letters with
          | nil => simp [walk]
          | cons letter letters =>
              rw [walk, List.filter_cons, List.filter_cons]
              split
              · exact (tail letters).cons_cons letter
              · exact tail letters
      | drop =>
          cases letters with
          | nil => simp [walk]
          | cons letter letters =>
              rw [walk, List.filter_cons]
              split
              · exact (tail letters).cons letter
              · exact tail letters

/-- The edit writes no labelled letter and drops none of the word. -/
structure Spares (labelled : α → Bool) (atoms : List (Atom α)) (letters : List α) : Prop where
  unlabelled : Unlabelled labelled atoms
  fits : width atoms = letters.length
  filter_eq : (walk atoms letters).filter labelled = letters.filter labelled

theorem Spares.text {rank : Int} {word : List α} {atoms : List (Atom α)} {letters : List α}
    (spares : Spares labelled (.text rank word :: atoms) letters) :
    word.filter labelled = [] ∧ Spares labelled atoms letters := by
  have blank := spares.unlabelled rank word List.mem_cons_self
  refine ⟨blank, spares.unlabelled.tail, spares.fits, ?_⟩
  simpa only [walk_text, List.filter_append, blank, List.nil_append] using spares.filter_eq

theorem Spares.keep {letter : α} {atoms : List (Atom α)} {letters : List α}
    (spares : Spares labelled (.keep :: atoms) (letter :: letters)) :
    Spares labelled atoms letters := by
  refine ⟨spares.unlabelled.tail, by simpa [width] using spares.fits, ?_⟩
  have equality := spares.filter_eq
  rw [walk, List.filter_cons, List.filter_cons] at equality
  split at equality
  · exact (List.cons.inj equality).2
  · exact equality

theorem Spares.drop {letter : α} {atoms : List (Atom α)} {letters : List α}
    (spares : Spares labelled (.drop :: atoms) (letter :: letters)) :
    labelled letter = false ∧ Spares labelled atoms letters := by
  have equality := spares.filter_eq
  rw [walk, List.filter_cons] at equality
  split at equality
  case isTrue =>
    have shorter := (spares.unlabelled.tail.sublist_filter letters).length_le
    rw [equality, List.length_cons] at shorter
    omega
  case isFalse unlabelled =>
    exact ⟨Bool.not_eq_true _ ▸ unlabelled, spares.unlabelled.tail,
      by simpa [width] using spares.fits, equality⟩

/-- Woven with an edit that spares the labels, an edit leaves the labelled letters that it leaves
alone. -/
theorem Spares.filter_weave {as bs : List (Atom α)} {letters : List α} (before : Bool)
    (spares : Spares labelled as letters) (fits : width bs = letters.length) :
    (weave before as bs letters).filter labelled = (walk bs letters).filter labelled := by
  fun_induction weave before as bs letters
  case case1 p left as q right bs letters first induction =>
    obtain ⟨blank, rest⟩ := spares.text
    rw [List.filter_append, blank, List.nil_append, induction rest fits]
  case case2 p left as q right bs letters second induction =>
    rw [List.filter_append, walk_text, List.filter_append, induction spares fits]
  case case3 p left as bs letters quiet induction =>
    obtain ⟨blank, rest⟩ := spares.text
    rw [List.filter_append, blank, List.nil_append, induction rest fits]
  case case4 as q right bs letters quiet induction =>
    rw [List.filter_append, walk_text, List.filter_append, induction spares fits]
  case case5 as bs letter letters induction =>
    have fits' : width bs = letters.length := by simpa [width] using fits
    rw [walk, List.filter_cons, List.filter_cons, induction spares.keep fits']
  case case6 a as b bs letter letters _ quietLeft quietRight different induction =>
    have fits' : width bs = letters.length := by cases b <;> simp_all [width]
    cases a with
    | text rank word => exact (quietLeft rank word rfl).elim
    | keep =>
        cases b with
        | text rank word => exact (quietRight rank word rfl).elim
        | keep => exact (different rfl rfl).elim
        | drop => rw [walk, induction spares.keep fits']
    | drop =>
        obtain ⟨unlabelled, rest⟩ := spares.drop
        cases b with
        | text rank word => exact (quietRight rank word rfl).elim
        | keep =>
            rw [walk, List.filter_cons_of_neg (by simp [unlabelled]), induction rest fits']
        | drop => rw [walk, induction rest fits']
  case case7 as bs letters _ quietLeft quietRight _ exhausted =>
    cases letters with
    | nil =>
        cases bs with
        | nil => rfl
        | cons b bs => cases b <;> simp_all [width]
    | cons letter letters =>
        cases bs with
        | nil => cases fits
        | cons b bs =>
            cases as with
            | nil => cases spares.fits
            | cons a as => exact (exhausted a as b bs letter letters rfl rfl rfl).elim

end Labels

end Oxbin.Transform
