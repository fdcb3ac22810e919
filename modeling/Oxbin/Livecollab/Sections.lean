import Oxbin.Livecollab.Semantics

/-!
# Writing and reading sections

`Map` writes its result with `addSection`, which joins a section with its predecessor where it
can, and reads its arguments through two section iterators.  This file says what both do in terms
of the edits that the sections stand for.
-/

namespace Oxbin.Livecollab

open Transform

variable {P : List UInt16 → Prop}

/-! ## Writing -/

/-- The sections turn `input` into `output`, and the pieces that they read are admissible. -/
structure Builds (P : List UInt16 → Prop) (sections : List Section)
    (input output : List UInt16) : Prop where
  proper : ∀ sect ∈ sections, sect.Proper
  cuts : Cuts P (lengthsOf sections) input
  writes : walk (atomsOf sections) input = output

theorem Builds.nil : Builds P [] [] [] where
  proper := by simp
  cuts := rfl
  writes := by simp

theorem Builds.snoc {sections : List Section} {input output piece : List UInt16}
    (builds : Builds P sections input output) {sect : Section} (proper : sect.Proper)
    (admissible : P piece) (fits : piece.length = sect.oldLen.toNat) :
    Builds P (sections ++ [sect]) (input ++ piece) (output ++ sect.written piece) where
  proper := by
    intro other member
    rcases List.mem_append.mp member with member | member
    · exact builds.proper other member
    · rwa [List.mem_singleton.mp member]
  cuts := by
    rw [lengthsOf_append, lengthsOf_cons, ← fits]
    exact builds.cuts.snoc admissible
  writes := by
    have width_eq : width (atomsOf sections) = input.length := by
      rw [width_atomsOf, builds.cuts.length_eq]
    have walked := sect.walk_atoms [] [] fits
    simp only [List.append_nil, walk_nil] at walked
    rw [atomsOf_append, walk_append _ _ _ _ width_eq, builds.writes, atomsOf_cons, atomsOf_nil,
      List.append_nil, walked]

theorem Builds.exists_snoc {sections : List Section} {sect : Section}
    {input output : List UInt16} (builds : Builds P (sections ++ [sect]) input output) :
    ∃ front piece written, input = front ++ piece ∧ output = written ++ sect.written piece ∧
      Builds P sections front written ∧ sect.Proper ∧ P piece ∧
      piece.length = sect.oldLen.toNat := by
  have cuts := builds.cuts
  rw [lengthsOf_append] at cuts
  obtain ⟨front, last, rfl, frontCuts, piece, rest, rfl, fits, admissible, empty⟩ :=
    cuts.exists_append
  obtain rfl : rest = [] := empty
  have width_eq : width (atomsOf sections) = front.length := by
    rw [width_atomsOf, frontCuts.length_eq]
  have walked := sect.walk_atoms [] [] fits
  simp only [List.append_nil, walk_nil] at walked
  refine ⟨front, piece, walk (atomsOf sections) front, by simp, ?_, ⟨?_, frontCuts, rfl⟩,
    builds.proper sect (by simp), admissible, fits⟩
  · rw [← builds.writes, List.append_nil, atomsOf_append, walk_append _ _ _ _ width_eq,
      atomsOf_cons, atomsOf_nil, List.append_nil, walked]
  · intro other member
    exact builds.proper other (by simp [member])

/-- What `addSection` is asked to write for the units it is asked to read. -/
def emitted (newLength : Int) (insert : String) (piece : List UInt16) : List UInt16 :=
  if 0 ≤ newLength then utf16Units insert else piece

/-- `addSection` extends the edit by the section that it is given, joined or not. -/
theorem Builds.addSection {set : ChangeSet} {input output : List UInt16}
    (builds : Builds P set.sections input output) (cuttable : Cuttable P)
    {oldLength newLength : Int} {insert : String} {piece : List UInt16}
    (admissible : P piece) (fits : (piece.length : Int) = oldLength)
    (lengths : newLength = -1 ∨ newLength = utf16Len insert) :
    Builds P (addSection set oldLength newLength insert false).sections (input ++ piece)
      (output ++ emitted newLength insert piece) := by
  have insert_nonneg := utf16Len_nonneg insert
  have proper (short : ¬(oldLength = 0 ∧ newLength ≤ 0)) :
      Section.Proper ⟨oldLength, newLength, insert⟩ := by
    rcases lengths with unchanged | changed
    · exact .inl ⟨unchanged, show 0 < oldLength by omega⟩
    · exact .inr ⟨show 0 ≤ oldLength by omega, changed⟩
  have written : Section.written ⟨oldLength, newLength, insert⟩ piece =
      emitted newLength insert piece := by
    simp [Section.written, Section.changed, emitted]
  have appended (short : ¬(oldLength = 0 ∧ newLength ≤ 0)) :
      Builds P (set.sections ++ [⟨oldLength, newLength, insert⟩]) (input ++ piece)
        (output ++ emitted newLength insert piece) := by
    rw [← written]
    exact builds.snoc (proper short) admissible (by simp [← fits])
  unfold Livecollab.addSection
  split
  case isTrue short =>
    obtain rfl : piece = [] := List.length_eq_zero_iff.mp (by omega)
    have silent : emitted newLength insert [] = [] := by
      rcases lengths with unchanged | changed
      · simp [emitted, unchanged]
      · have empty : utf16Units insert = [] :=
          List.length_eq_zero_iff.mp (by unfold utf16Len at changed; omega)
        simp [emitted, empty]
    simpa [silent] using builds
  case isFalse short =>
    split
    case h_1 none =>
      rw [List.getLast?_eq_none_iff] at none
      simpa [none] using appended short
    case h_2 last some =>
      obtain ⟨front, sections_eq⟩ := List.getLast?_eq_some_iff.mp some
      have dropped : set.sections.dropLast = front := by simp [sections_eq]
      rw [sections_eq] at builds
      obtain ⟨input', piece', output', rfl, rfl, builds', last_proper, admissible', fits'⟩ :=
        builds.exists_snoc
      have last_nonneg := last_proper.oldLen_nonneg
      have both := cuttable.append admissible' admissible
      simp only [dropped, Bool.false_eq_true, if_false, List.append_assoc]
      split
      case isTrue same =>
        -- both sections keep, or both only delete
        have joined_proper :
            Section.Proper { last with oldLen := last.oldLen + oldLength } := by
          rcases last_proper with ⟨unchanged, positive⟩ | ⟨_, equality⟩
          · exact .inl ⟨unchanged, show 0 < last.oldLen + oldLength by omega⟩
          · exact .inr ⟨show 0 ≤ last.oldLen + oldLength by omega, equality⟩
        have joined_written :
            Section.written { last with oldLen := last.oldLen + oldLength } (piece' ++ piece) =
              last.written piece' ++ emitted newLength insert piece := by
          rcases lengths with unchanged | changed
          · have kept : last.newLen = -1 := by omega
            simp [Section.written, Section.changed, emitted, unchanged, kept]
          · have empty : utf16Units insert = [] :=
              List.length_eq_zero_iff.mp (by unfold utf16Len at changed; omega)
            have new_nonneg : 0 ≤ newLength := by omega
            have last_nonneg : 0 ≤ last.newLen := by omega
            simp [Section.written, Section.changed, emitted, empty, new_nonneg, last_nonneg]
        rw [← joined_written]
        exact builds'.snoc joined_proper both (by simp [fits', ← fits]; omega)
      case isFalse different =>
        split
        case isTrue insertions =>
          -- two insertions at one place
          obtain ⟨rfl, last_empty⟩ := insertions
          obtain rfl : piece = [] := List.length_eq_zero_iff.mp (by omega)
          have last_changed : last.newLen = utf16Len last.insert := by
            rcases last_proper with ⟨_, positive⟩ | ⟨_, equality⟩
            · omega
            · exact equality
          have changed : newLength = utf16Len insert := by omega
          have joined_proper : Section.Proper
              { last with newLen := last.newLen + newLength, insert := last.insert ++ insert } := by
            refine .inr ⟨last_nonneg, ?_⟩
            simp [last_changed, changed]
          have last_insert_nonneg := utf16Len_nonneg last.insert
          have joined_written : Section.written
              { last with newLen := last.newLen + newLength, insert := last.insert ++ insert }
                (piece' ++ []) = last.written piece' ++ emitted newLength insert [] := by
            have sum_nonneg : 0 ≤ utf16Len last.insert + utf16Len insert := by omega
            simp [Section.written, Section.changed, emitted, last_changed, changed,
              last_insert_nonneg, insert_nonneg, sum_nonneg]
          rw [← joined_written]
          exact builds'.snoc joined_proper both (by simp [fits'])
        case isFalse apart =>
          rw [← List.append_assoc, ← List.append_assoc]
          exact appended short

/-! ## Reading -/

namespace SectionIter

/-- The sections that the iterator has not entered. -/
def rest (iter : SectionIter) : List Section := iter.set.sections.drop iter.index

/-- The numbers of units that are still to be read. -/
def lengths (iter : SectionIter) : List Nat := iter.old.toNat :: lengthsOf iter.rest

/-- The rank of the current text: a change that is partly read goes in front of everything. -/
def rank (iter : SectionIter) : Int := if iter.offset = 0 then iter.old else -1

/-- The edit that the current section still performs; the text of a spent change is written. -/
def headAtoms (iter : SectionIter) (spent : Bool) : List (Atom UInt16) :=
  if iter.new < 0 then List.replicate iter.old.toNat .keep
  else if spent then List.replicate iter.old.toNat .drop
  else change iter.rank (utf16Units iter.text) iter.old.toNat

/-- The edit that is still to be performed. -/
def atoms (iter : SectionIter) (spent : Bool) : List (Atom UInt16) :=
  iter.headAtoms spent ++ atomsOf iter.rest

/-- The current section is none, kept or changed. -/
inductive Current (iter : SectionIter) : Prop
  | done (ended : iter.new = -2) (old_eq : iter.old = 0) (rest_eq : iter.rest = [])
  | keep (kept : iter.new = -1) (old_pos : 0 < iter.old)
  | change (changed : iter.new = utf16Len iter.text) (old_nonneg : 0 ≤ iter.old)
      (offset_nonneg : 0 ≤ iter.offset)

/-- The iterator stands in a well-formed change set. -/
structure Valid (iter : SectionIter) : Prop where
  proper : ∀ sect ∈ iter.rest, sect.Proper
  current : iter.Current

/-- The number of sections that are not finished. -/
def pending (iter : SectionIter) : Nat :=
  iter.rest.length + if iter.done then 0 else 1

theorem Current.old_nonneg {iter : SectionIter} (current : iter.Current) : 0 ≤ iter.old := by
  cases current with
  | done _ old_eq _ => exact old_eq.ge
  | keep _ old_pos => exact old_pos.le
  | change _ old_nonneg _ => exact old_nonneg

theorem Valid.done_of_new {iter : SectionIter} (valid : iter.Valid) (low : iter.new < -1) :
    iter.done ∧ iter.old = 0 ∧ iter.rest = [] := by
  cases valid.current with
  | done ended old_eq rest_eq => exact ⟨ended, old_eq, rest_eq⟩
  | keep kept _ => omega
  | change changed _ _ =>
      have := utf16Len_nonneg iter.text
      omega

theorem Valid.pos_of_keep {iter : SectionIter} (valid : iter.Valid) (kept : iter.new = -1) :
    0 < iter.old := by
  cases valid.current with
  | done ended _ _ => omega
  | keep _ old_pos => exact old_pos
  | change changed _ _ =>
      have := utf16Len_nonneg iter.text
      omega

theorem Valid.new_eq {iter : SectionIter} (valid : iter.Valid) (nonneg : 0 ≤ iter.new) :
    iter.new = utf16Len iter.text ∧ 0 ≤ iter.offset := by
  cases valid.current with
  | done ended _ _ => omega
  | keep kept _ => omega
  | change changed _ offset_nonneg => exact ⟨changed, offset_nonneg⟩

theorem Valid.newLength_eq {iter : SectionIter} (valid : iter.Valid) (nonneg : 0 ≤ iter.new) :
    iter.newLength = utf16Len iter.text := by
  rw [newLength, if_neg (by omega), (valid.new_eq nonneg).1]

/-! ### The next section -/

theorem next_of_rest_nil {iter : SectionIter} (none : iter.rest = []) :
    iter.next.new = -2 ∧ iter.next.old = 0 ∧ iter.next.rest = [] := by
  have missing : iter.set.sections[iter.index]? = Option.none := by
    rw [List.getElem?_eq_none_iff]
    exact List.drop_eq_nil_iff.mp none
  rw [next, missing]
  exact ⟨rfl, rfl, none⟩

theorem next_of_rest_cons {iter : SectionIter} {sect : Section} {sections : List Section}
    (some : iter.rest = sect :: sections) :
    iter.next.new = sect.newLen ∧ iter.next.old = sect.oldLen ∧ iter.next.rest = sections ∧
      (0 ≤ sect.newLen → iter.next.text = sect.insert) := by
  have found : iter.set.sections[iter.index]? = Option.some sect := by
    rw [← List.head?_drop]
    change iter.rest.head? = _
    rw [some, List.head?_cons]
  have tail_eq : iter.set.sections.drop (iter.index + 1) = sections := by
    rw [← List.tail_drop]
    change iter.rest.tail = sections
    rw [some, List.tail_cons]
  rw [next, found]
  refine ⟨rfl, rfl, tail_eq, ?_⟩
  intro nonneg
  have present : ¬(sect.newLen = -2 ∨ sect.newLen < 0) := by omega
  simp [text, done, present, found]

@[simp] theorem next_offset (iter : SectionIter) : iter.next.offset = 0 := by
  unfold next
  split <;> rfl

theorem index_le_next (iter : SectionIter) : iter.index ≤ iter.next.index := by
  unfold next
  split <;> simp

theorem index_lt_next {iter : SectionIter} (nonneg : 0 ≤ iter.next.new) :
    iter.index < iter.next.index := by
  revert nonneg
  unfold next
  split <;> simp

theorem valid_next {iter : SectionIter} (proper : ∀ sect ∈ iter.rest, sect.Proper) :
    iter.next.Valid := by
  cases rest_eq : iter.rest with
  | nil =>
      obtain ⟨new_eq, old_eq, next_rest⟩ := next_of_rest_nil rest_eq
      exact ⟨by simp [next_rest], .done new_eq old_eq next_rest⟩
  | cons sect sections =>
      obtain ⟨new_eq, old_eq, next_rest, next_text⟩ := next_of_rest_cons rest_eq
      rw [rest_eq] at proper
      refine ⟨fun other member => proper other (by simp [next_rest ▸ member]), ?_⟩
      rcases proper sect (by simp) with ⟨unchanged, positive⟩ | ⟨nonneg, equality⟩
      · exact .keep (new_eq.trans unchanged) (old_eq ▸ positive)
      · have new_nonneg : 0 ≤ sect.newLen := equality ▸ utf16Len_nonneg _
        refine .change ?_ (old_eq ▸ nonneg) (by simp)
        rw [new_eq, next_text new_nonneg, equality]

theorem next_pending (iter : SectionIter) : iter.next.pending ≤ iter.rest.length := by
  cases rest_eq : iter.rest with
  | nil =>
      obtain ⟨new_eq, _, next_rest⟩ := next_of_rest_nil rest_eq
      simp [pending, next_rest, done, new_eq]
  | cons sect sections =>
      obtain ⟨_, _, next_rest, _⟩ := next_of_rest_cons rest_eq
      simp only [pending, next_rest, List.length_cons]
      split <;> omega

/-- The next section performs what is left. -/
theorem next_atoms (iter : SectionIter) {spent : Bool}
    (fresh : 0 ≤ iter.next.new → spent = false) :
    iter.next.atoms spent = atomsOf iter.rest := by
  cases rest_eq : iter.rest with
  | nil =>
      obtain ⟨new_eq, old_eq, next_rest⟩ := next_of_rest_nil rest_eq
      simp [atoms, headAtoms, next_rest, new_eq, old_eq]
  | cons sect sections =>
      obtain ⟨new_eq, old_eq, next_rest, next_text⟩ := next_of_rest_cons rest_eq
      rw [atoms, next_rest, atomsOf_cons, List.append_cancel_right_eq, headAtoms, Section.atoms]
      rw [new_eq] at fresh ⊢
      by_cases nonneg : 0 ≤ sect.newLen
      · simp [Section.changed, nonneg, fresh nonneg, next_text nonneg, rank, old_eq]
      · simp [Section.changed, nonneg, old_eq]

theorem next_cuts {iter : SectionIter} (cuttable : Cuttable P) {units : List UInt16}
    (cuts : Cuts P (lengthsOf iter.rest) units) : Cuts P iter.next.lengths units := by
  cases rest_eq : iter.rest with
  | nil =>
      obtain ⟨_, old_eq, next_rest⟩ := next_of_rest_nil rest_eq
      rw [rest_eq] at cuts
      obtain rfl : units = [] := cuts
      rw [lengths, next_rest, old_eq]
      exact ⟨[], [], rfl, rfl, cuttable.nil, rfl⟩
  | cons sect sections =>
      obtain ⟨_, old_eq, next_rest, _⟩ := next_of_rest_cons rest_eq
      rw [rest_eq] at cuts
      rwa [lengths, next_rest, old_eq]

/-! ### Going forward -/

theorem forward_all {iter : SectionIter} {length : Int} (all : length = iter.old) :
    iter.forward length = iter.next := by
  simp [forward, all]

theorem forward_part {iter : SectionIter} {length : Int} (part : length ≠ iter.old) :
    iter.forward length =
      { iter with old := iter.old - length, offset := iter.offset + length } := by
  simp [forward, part]

theorem Valid.forward {iter : SectionIter} (valid : iter.Valid) {length : Int}
    (nonneg : 0 ≤ length) (le : length ≤ iter.old) : (iter.forward length).Valid := by
  by_cases all : length = iter.old
  · rw [forward_all all]
    exact valid_next valid.proper
  · rw [forward_part all]
    refine ⟨valid.proper, ?_⟩
    cases valid.current with
    | done _ old_eq _ => omega
    | keep kept old_pos => exact .keep kept (show 0 < iter.old - length by omega)
    | change changed old_nonneg offset_nonneg =>
        exact .change changed (show 0 ≤ iter.old - length by omega)
          (show 0 ≤ iter.offset + length by omega)

theorem forward_cuts {iter : SectionIter} (cuttable : Cuttable P) {length : Nat}
    (le : (length : Int) ≤ iter.old) {units : List UInt16}
    (cuts : Cuts P ((iter.old.toNat - length) :: lengthsOf iter.rest) units) :
    Cuts P (iter.forward length).lengths units := by
  by_cases all : (length : Int) = iter.old
  · rw [forward_all all]
    rw [show iter.old.toNat - length = 0 by omega] at cuts
    exact next_cuts cuttable cuts.drop_zero
  · rw [forward_part all]
    change Cuts P ((iter.old - length).toNat :: lengthsOf iter.rest) units
    rwa [show (iter.old - length).toNat = iter.old.toNat - length by omega]

/-- Reading kept units leaves the rest of the edit. -/
theorem atoms_keep {iter : SectionIter} (kept : iter.new < 0)
    {length : Nat} (le : (length : Int) ≤ iter.old) (spent : Bool) {spent' : Bool}
    (fresh : 0 ≤ iter.next.new → (length : Int) = iter.old → spent' = false) :
    iter.atoms spent =
      List.replicate length .keep ++ (iter.forward length).atoms spent' := by
  have head_eq : iter.headAtoms spent = List.replicate iter.old.toNat .keep := by
    rw [headAtoms, if_pos kept]
  rw [atoms, head_eq]
  by_cases all : (length : Int) = iter.old
  · rw [forward_all all, next_atoms iter fun nonneg => fresh nonneg all]
    congr
    omega
  · rw [forward_part all]
    have left_eq : iter.old.toNat = length + (iter.old - length).toNat := by omega
    simp only [atoms, headAtoms, if_pos kept, rest]
    rw [← List.append_assoc, List.replicate_append_replicate, ← left_eq]

/-- Reading units of a change whose text is written leaves the rest of the edit. -/
theorem atoms_spent {iter : SectionIter} (changed : 0 ≤ iter.new) {length : Nat}
    (le : (length : Int) ≤ iter.old) {spent' : Bool}
    (fresh : 0 ≤ iter.next.new → (length : Int) = iter.old → spent' = false)
    (same : (length : Int) < iter.old → spent' = true) :
    iter.atoms true =
      List.replicate length .drop ++ (iter.forward length).atoms spent' := by
  have not_kept : ¬iter.new < 0 := by omega
  rw [atoms, headAtoms, if_neg not_kept, if_pos rfl]
  by_cases all : (length : Int) = iter.old
  · rw [forward_all all, next_atoms iter fun nonneg => fresh nonneg all]
    congr
    omega
  · rw [forward_part all]
    have left_eq : iter.old.toNat = length + (iter.old - length).toNat := by omega
    simp only [atoms, headAtoms, if_neg not_kept, rest, same (by omega), if_true]
    rw [← List.append_assoc, List.replicate_append_replicate, ← left_eq]

/-- The edit left by a partly read change whose text is not written. -/
theorem atoms_unspent {iter : SectionIter} (changed : 0 ≤ iter.new)
    (offset_nonneg : 0 ≤ iter.offset) {length : Nat} (positive : 0 < length)
    (lt : (length : Int) < iter.old) :
    (iter.forward length).atoms false =
      change (-1) (utf16Units iter.text) (iter.old.toNat - length) ++ atomsOf iter.rest := by
  have not_kept : ¬iter.new < 0 := by omega
  have moved : iter.offset + length ≠ 0 := by omega
  have left_eq : (iter.old - length).toNat = iter.old.toNat - length := by omega
  rw [forward_part lt.ne]
  simp only [atoms, headAtoms, if_neg not_kept, Bool.false_eq_true, if_false, rank, if_neg moved,
    left_eq, rest]
  rfl

/-! ### Which text goes first -/

theorem rank_nonneg_of_mem {sections : List Section} (proper : ∀ sect ∈ sections, sect.Proper)
    {rank : Int} {word : List UInt16} (member : Atom.text rank word ∈ atomsOf sections) :
    0 ≤ rank := by
  obtain ⟨sect, sect_mem, inside⟩ := List.mem_flatMap.mp member
  have oldLen_nonneg := (proper sect sect_mem).oldLen_nonneg
  unfold Section.atoms change at inside
  split at inside
  · split at inside <;> simp at inside
    rw [inside.1]
    exact oldLen_nonneg
  · simp at inside

/-- A text leads the edit of an iterator if it precedes the text of the current section and,
where that section reads nothing, every text of rank zero. -/
theorem Valid.leads {iter : SectionIter} (valid : iter.Valid) {spent before : Bool} {rank : Int}
    (progress : spent = true → 0 ≤ iter.new → 0 < iter.old)
    (first : 0 ≤ iter.new → spent = false → Precedes before rank iter.rank)
    (beyond : 0 ≤ iter.new → iter.old = 0 → Precedes before rank 0) :
    Leads before rank (iter.atoms spent) := by
  intro other word others equality
  rw [atoms, headAtoms] at equality
  have letters (atom : Atom UInt16) (letter : ∀ rank word, atom ≠ .text rank word)
      (positive : 0 < iter.old) :
      List.replicate iter.old.toNat atom ++ atomsOf iter.rest ≠ .text other word :: others :=
    quiet_replicate_append letter (by omega) _ _ _ _
  cases valid.current with
  | done ended old_eq rest_eq => simp [ended, old_eq, rest_eq] at equality
  | keep kept old_pos =>
      rw [if_pos (by omega)] at equality
      exact (letters .keep (by simp) old_pos equality).elim
  | change changed old_nonneg offset_nonneg =>
      have new_nonneg : 0 ≤ iter.new := changed ▸ utf16Len_nonneg _
      have drops (equality : List.replicate iter.old.toNat .drop ++ atomsOf iter.rest =
          .text other word :: others) : Precedes before rank other := by
        by_cases positive : 0 < iter.old
        · exact (letters .drop (by simp) positive equality).elim
        · have old_eq : iter.old = 0 := by omega
          rw [old_eq] at equality
          have member : Atom.text other word ∈ atomsOf iter.rest := by
            rw [show atomsOf iter.rest = _ by simpa using equality]
            simp
          have other_nonneg : 0 ≤ other := rank_nonneg_of_mem valid.proper member
          rcases beyond new_nonneg old_eq with lower | ⟨rfl, tie⟩
          · exact .inl (by omega)
          · exact other_nonneg.lt_or_eq.imp_right fun same => ⟨same, tie⟩
      rw [if_neg (by omega)] at equality
      cases spent with
      | true => exact drops (by simpa using equality)
      | false =>
          by_cases empty : utf16Units iter.text = []
          · exact drops (by simpa [empty] using equality)
          · simp only [Bool.false_eq_true, if_false, change, if_neg empty, List.cons_append,
              List.cons.injEq, Atom.text.injEq] at equality
            rw [← equality.1.1]
            exact first new_nonneg rfl

end SectionIter

end Oxbin.Livecollab
