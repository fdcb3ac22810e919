import Mathlib.Data.List.Basic
import Mathlib.Tactic.Ring

/-!
# Weaving two edits of one word

An edit of a word over an arbitrary alphabet is a list of atoms: keep a letter, drop a letter, or
write a new word in front of the next letter.  `walk` executes one edit.  `weave` executes two
edits of the same word at once, and orders the words that both write at one place by their rank.
The weave is symmetric in its two edits, so an algorithm that rebases each of two concurrent
edits over the other converges as soon as both of its outputs agree with the weave.
-/

namespace Oxbin.Transform

universe u

variable {α : Type u}

/-- One atomic instruction of an edit. -/
inductive Atom (α : Type u) where
  /-- Copy the next letter. -/
  | keep
  /-- Skip the next letter. -/
  | drop
  /-- Write a word; among two words written at one place the smaller rank goes first. -/
  | text (rank : Int) (word : List α)

/-- Execute one edit. -/
def walk : List (Atom α) → List α → List α
  | .text _ word :: atoms, letters => word ++ walk atoms letters
  | .keep :: atoms, letter :: letters => letter :: walk atoms letters
  | .drop :: atoms, _ :: letters => walk atoms letters
  | _, _ => []

/-- The word of rank `left` goes in front of the word of rank `right`. -/
def Precedes (before : Bool) (left right : Int) : Prop :=
  left < right ∨ left = right ∧ before = true

instance (before : Bool) (left right : Int) : Decidable (Precedes before left right) :=
  inferInstanceAs (Decidable (_ ∨ _))

/-- Execute two edits of one word at once; `before` lets the left edit win a tie. -/
def weave (before : Bool) : List (Atom α) → List (Atom α) → List α → List α
  | .text p left :: as, .text q right :: bs, letters =>
      if Precedes before p q then left ++ weave before as (.text q right :: bs) letters
      else right ++ weave before (.text p left :: as) bs letters
  | .text _ left :: as, bs, letters => left ++ weave before as bs letters
  | as, .text _ right :: bs, letters => right ++ weave before as bs letters
  | .keep :: as, .keep :: bs, letter :: letters => letter :: weave before as bs letters
  | _ :: as, _ :: bs, _ :: letters => weave before as bs letters
  | _, _, _ => []
  termination_by as bs => as.length + bs.length

/-- The same edit over another alphabet. -/
def Atom.map {β : Type u} (rename : α → β) : Atom α → Atom β
  | .keep => .keep
  | .drop => .drop
  | .text rank word => .text rank (word.map rename)

/-- A change drops `count` letters and writes `word` in front of them. -/
def change (rank : Int) (word : List α) (count : Nat) : List (Atom α) :=
  if word = [] then List.replicate count .drop
  else .text rank word :: List.replicate count .drop

@[simp] theorem change_nil (rank : Int) (count : Nat) :
    change rank ([] : List α) count = List.replicate count .drop := by
  simp [change]

/-- The number of letters that an edit reads. -/
def width : List (Atom α) → Nat
  | [] => 0
  | .text _ _ :: atoms => width atoms
  | .keep :: atoms | .drop :: atoms => width atoms + 1

/-! ## One edit -/

/-- Renaming the letters of the word and of the edit renames the result. -/
theorem walk_map {β : Type u} (rename : α → β) (atoms : List (Atom α)) (letters : List α) :
    walk (atoms.map (Atom.map rename)) (letters.map rename) = (walk atoms letters).map rename := by
  induction atoms generalizing letters with
  | nil => rfl
  | cons atom atoms induction =>
      cases atom with
      | text rank word => simp only [List.map_cons, Atom.map, walk, induction, List.map_append]
      | keep =>
          cases letters with
          | nil => rfl
          | cons letter letters => simp only [List.map_cons, Atom.map, walk, induction]
      | drop =>
          cases letters with
          | nil => rfl
          | cons letter letters => simp only [List.map_cons, Atom.map, walk, induction]

/-- Every letter of the result is one of the word or one that the edit writes. -/
theorem mem_walk {atoms : List (Atom α)} {letters : List α} {letter : α}
    (member : letter ∈ walk atoms letters) :
    letter ∈ letters ∨ ∃ rank word, .text rank word ∈ atoms ∧ letter ∈ word := by
  induction atoms generalizing letters with
  | nil => cases member
  | cons atom atoms induction =>
      have later {rest : List α} (member : letter ∈ walk atoms rest) : letter ∈ rest ∨
          ∃ rank word, .text rank word ∈ atom :: atoms ∧ letter ∈ word := by
        rcases induction member with old | ⟨rank, word, written, new⟩
        · exact .inl old
        · exact .inr ⟨rank, word, List.mem_cons_of_mem _ written, new⟩
      cases atom with
      | text rank word =>
          rcases List.mem_append.mp member with new | rest
          · exact .inr ⟨rank, word, List.mem_cons_self, new⟩
          · exact later rest
      | keep =>
          cases letters with
          | nil => cases member
          | cons first letters =>
              rcases List.mem_cons.mp member with rfl | rest
              · exact .inl List.mem_cons_self
              · exact (later rest).imp_left (List.mem_cons_of_mem _)
      | drop =>
          cases letters with
          | nil => cases member
          | cons first letters => exact (later member).imp_left (List.mem_cons_of_mem _)

theorem width_append (as bs : List (Atom α)) : width (as ++ bs) = width as + width bs := by
  induction as with
  | nil => simp [width]
  | cons atom as induction =>
      cases atom <;> simp only [List.cons_append, width, induction] <;> ring

@[simp] theorem width_keeps (count : Nat) :
    width (List.replicate count (.keep : Atom α)) = count := by
  induction count with
  | zero => rfl
  | succ count induction => simp only [List.replicate_succ, width, induction]

@[simp] theorem width_drops (count : Nat) :
    width (List.replicate count (.drop : Atom α)) = count := by
  induction count with
  | zero => rfl
  | succ count induction => simp only [List.replicate_succ, width, induction]

@[simp] theorem width_change (rank : Int) (word : List α) (count : Nat) :
    width (change rank word count) = count := by
  unfold change
  split <;> simp [width]

/-- Consecutive edits execute independently. -/
theorem walk_append (as bs : List (Atom α)) (left right : List α)
    (fits : width as = left.length) :
    walk (as ++ bs) (left ++ right) = walk as left ++ walk bs right := by
  induction as generalizing left with
  | nil =>
      obtain rfl := List.length_eq_zero_iff.mp fits.symm
      simp [walk]
  | cons atom as induction =>
      cases atom with
      | text rank word =>
          simp only [List.cons_append, walk, induction left fits, List.append_assoc]
      | keep =>
          cases left with
          | nil => simp [width] at fits
          | cons letter left =>
              simp only [List.cons_append, walk]
              rw [induction left (by simpa [width] using fits)]
      | drop =>
          cases left with
          | nil => simp [width] at fits
          | cons letter left =>
              simp only [List.cons_append, walk]
              rw [induction left (by simpa [width] using fits)]

@[simp] theorem walk_nil (letters : List α) : walk [] letters = [] := by
  simp [walk]

@[simp] theorem walk_text (rank : Int) (word : List α) (atoms : List (Atom α))
    (letters : List α) :
    walk (.text rank word :: atoms) letters = word ++ walk atoms letters := by
  simp [walk]

theorem walk_keeps (kept : List α) (atoms : List (Atom α)) (letters : List α) :
    walk (List.replicate kept.length .keep ++ atoms) (kept ++ letters) =
      kept ++ walk atoms letters := by
  induction kept with
  | nil => rfl
  | cons letter kept induction =>
      simpa only [List.length_cons, List.replicate_succ, List.cons_append, walk,
        List.cons.injEq, true_and] using induction

theorem walk_drops (dropped : List α) (atoms : List (Atom α)) (letters : List α) :
    walk (List.replicate dropped.length .drop ++ atoms) (dropped ++ letters) =
      walk atoms letters := by
  induction dropped with
  | nil => rfl
  | cons letter dropped induction =>
      simpa only [List.length_cons, List.replicate_succ, List.cons_append, walk] using induction

theorem walk_change (rank : Int) (word dropped : List α) (atoms : List (Atom α))
    (letters : List α) :
    walk (change rank word dropped.length ++ atoms) (dropped ++ letters) =
      word ++ walk atoms letters := by
  by_cases empty : word = []
  · simp [empty, walk_drops]
  · simp [change, empty, walk_drops]

/-! ## Two edits -/

/-- The edit writes nothing in front of the next letter. -/
def Quiet (atoms : List (Atom α)) : Prop :=
  ∀ rank word rest, atoms ≠ .text rank word :: rest

theorem not_precedes_swap {before : Bool} {left right : Int} :
    ¬Precedes before left right ↔ Precedes (!before) right left := by
  cases before <;> simp [Precedes] <;> omega

theorem weave_text_left {before : Bool} {p : Int} {left : List α} {as bs : List (Atom α)}
    {letters : List α} (quiet : Quiet bs) :
    weave before (.text p left :: as) bs letters = left ++ weave before as bs letters := by
  rw [weave]
  exact fun rank word rest equality => quiet rank word rest equality

theorem weave_text_right {before : Bool} {q : Int} {right : List α} {as bs : List (Atom α)}
    {letters : List α} (quiet : Quiet as) :
    weave before as (.text q right :: bs) letters = right ++ weave before as bs letters := by
  rw [weave]
  exact fun rank word rest equality => quiet rank word rest equality

@[simp] theorem weave_nil (before : Bool) (letters : List α) : weave before [] [] letters = [] := by
  rw [weave] <;> simp

/-- The weave does not depend on which of its edits is called the left one. -/
theorem weave_symm (before : Bool) (as bs : List (Atom α)) (letters : List α) :
    weave before as bs letters = weave (!before) bs as letters := by
  fun_induction weave before as bs letters
  case case1 p left as q right bs letters first induction =>
    have second : ¬Precedes (!before) q p := by
      rw [not_precedes_swap, Bool.not_not]
      exact first
    rw [weave, if_neg second, induction]
  case case2 p left as q right bs letters second induction =>
    rw [weave, if_pos (not_precedes_swap.mp second), induction]
  case case3 p left as bs letters quiet induction =>
    rw [weave_text_right quiet, induction]
  case case4 as q right bs letters quiet induction =>
    rw [weave_text_left quiet, induction]
  case case5 as bs letter letters induction =>
    rw [weave, induction]
  case case6 a as b bs letter letters _ _ _ _ induction =>
    cases a <;> cases b <;> simp_all [weave]
  case case7 as bs letters _ quietLeft quietRight _ exhausted =>
    rcases as with _ | ⟨a, as⟩ <;> rcases bs with _ | ⟨b, bs⟩ <;>
      rcases letters with _ | ⟨letter, letters⟩
    case cons.cons.cons => exact (exhausted a as b bs letter letters rfl rfl rfl).elim
    case cons.cons.nil => cases a <;> cases b <;> simp_all [weave]
    case cons.nil.nil | cons.nil.cons => cases a <;> simp_all [weave]
    case nil.cons.nil | nil.cons.cons => cases b <;> simp_all [weave]
    all_goals simp

/-! ## Shared stretches of letters -/

theorem quiet_replicate_append {atom : Atom α} (letter : ∀ rank word, atom ≠ .text rank word)
    {count : Nat} (positive : 0 < count) (atoms : List (Atom α)) :
    Quiet (List.replicate count atom ++ atoms) := by
  obtain ⟨count, rfl⟩ := Nat.exists_eq_succ_of_ne_zero positive.ne'
  intro rank word rest equality
  rw [List.replicate_succ, List.cons_append, List.cons.injEq] at equality
  exact letter rank word equality.1

theorem weave_keeps (before : Bool) (kept : List α) (as bs : List (Atom α)) (letters : List α) :
    weave before (List.replicate kept.length .keep ++ as)
        (List.replicate kept.length .keep ++ bs) (kept ++ letters) =
      kept ++ weave before as bs letters := by
  induction kept with
  | nil => rfl
  | cons letter kept induction =>
      simpa only [List.length_cons, List.replicate_succ, List.cons_append, weave,
        List.cons.injEq, true_and] using induction

/-- A stretch dropped by one of the edits contributes nothing. -/
theorem weave_dropped (before : Bool) (dropped : List α) {left right : Atom α}
    (agree : left = .drop ∧ (right = .keep ∨ right = .drop) ∨ left = .keep ∧ right = .drop)
    (as bs : List (Atom α)) (letters : List α) :
    weave before (List.replicate dropped.length left ++ as)
        (List.replicate dropped.length right ++ bs) (dropped ++ letters) =
      weave before as bs letters := by
  induction dropped with
  | nil => rfl
  | cons letter dropped induction =>
      rw [← induction]
      rcases agree with ⟨rfl, rfl | rfl⟩ | ⟨rfl, rfl⟩ <;>
        simp only [List.length_cons, List.replicate_succ, List.cons_append, weave]

/-! ## Changes -/

/-- The word of rank `rank` goes in front of whatever the other edit does next. -/
def Leads (before : Bool) (rank : Int) (atoms : List (Atom α)) : Prop :=
  ∀ other word rest, atoms = .text other word :: rest → Precedes before rank other

theorem Quiet.leads {atoms : List (Atom α)} (quiet : Quiet atoms) (before : Bool) (rank : Int) :
    Leads before rank atoms :=
  fun other word rest equality => (quiet other word rest equality).elim

/-- A leading change writes its word at once. -/
theorem weave_change_left {before : Bool} {rank : Int} (word : List α) (count : Nat)
    {as bs : List (Atom α)} {letters : List α} (leads : Leads before rank bs) :
    weave before (change rank word count ++ as) bs letters =
      word ++ weave before (List.replicate count .drop ++ as) bs letters := by
  by_cases empty : word = []
  · simp [empty]
  · simp only [change, if_neg empty, List.cons_append]
    by_cases quiet : Quiet bs
    · exact weave_text_left quiet
    · simp only [Quiet, not_forall, not_not] at quiet
      obtain ⟨other, right, rest, rfl⟩ := quiet
      rw [weave, if_pos (leads other right rest rfl)]

/-- A change of the right edit writes its word at once when it leads the left edit. -/
theorem weave_change_right {before : Bool} {rank : Int} (word : List α) (count : Nat)
    {as bs : List (Atom α)} {letters : List α} (leads : Leads (!before) rank as) :
    weave before as (change rank word count ++ bs) letters =
      word ++ weave before as (List.replicate count .drop ++ bs) letters := by
  rw [weave_symm, weave_change_left word count leads, weave_symm, Bool.not_not]

end Oxbin.Transform
