import Oxbin.Livecollab.Sections

/-!
# Convergence of `Map`

`Map` computes the weave of its two arguments: the change set that it returns reads what the other
set writes, and writes the weave.  The weave is symmetric, so mapping each of two concurrent
change sets over the other lets both orders of application meet in one document.
-/

namespace Oxbin.Livecollab

open Transform

section Loop

variable {P : List UInt16 → Prop} (cuttable : Cuttable P)
  (strings : ∀ value : String, P (utf16Units value))

/-- The iterator `a` of `Map` together with the mark of the last change that was written. -/
structure Ready (iter : SectionIter) (inserted : Int) : Prop where
  valid : iter.Valid
  inserted_le : inserted ≤ iter.index
  progress : inserted = iter.index → 0 ≤ iter.new → 0 < iter.old

/-- The text of the current change is written. -/
def spent (iter : SectionIter) (inserted : Int) : Bool := decide (inserted = iter.index)

/-- Bounds the iterations that an iterator is still good for. -/
def load (iter : SectionIter) (inserted : Int) : Nat :=
  2 * iter.pending + if 0 ≤ iter.new ∧ inserted < iter.index then 1 else 0

theorem load_le (iter : SectionIter) (inserted : Int) :
    load iter inserted ≤ 2 * iter.pending + 1 := by
  unfold load
  split <;> omega

theorem spent_next {iter : SectionIter} {inserted : Int} (le : inserted ≤ iter.index)
    (nonneg : 0 ≤ iter.next.new) : spent iter.next inserted = false := by
  have := SectionIter.index_lt_next nonneg
  unfold spent
  exact decide_eq_false (by omega)

theorem Ready.next {iter : SectionIter} {inserted inserted' : Int}
    (ready : Ready iter inserted) (le : inserted' ≤ iter.index) : Ready iter.next inserted' where
  valid := SectionIter.valid_next ready.valid.proper
  inserted_le := by
    have := iter.index_le_next
    omega
  progress := by
    intro same nonneg
    have := SectionIter.index_lt_next nonneg
    omega

theorem Ready.forward {iter : SectionIter} {inserted : Int} (ready : Ready iter inserted)
    {length : Int} (nonneg : 0 ≤ length) (le : length ≤ iter.old) :
    Ready (iter.forward length) inserted := by
  by_cases all : length = iter.old
  · rw [SectionIter.forward_all all]
    exact ready.next ready.inserted_le
  · refine ⟨ready.valid.forward nonneg le, ?_, ?_⟩
    · rw [SectionIter.forward_part all]
      exact ready.inserted_le
    · rw [SectionIter.forward_part all]
      intro _ _
      change 0 < iter.old - length
      omega

theorem forward_pending (iter : SectionIter) (length : Int) :
    (iter.forward length).pending ≤ iter.pending := by
  by_cases all : length = iter.old
  · rw [SectionIter.forward_all all]
    exact iter.next_pending.trans (Nat.le_add_right _ _)
  · rw [SectionIter.forward_part all]
    exact le_rfl

theorem next_pending_lt {iter : SectionIter} (running : ¬iter.done) :
    iter.next.pending < iter.pending := by
  have := iter.next_pending
  simp only [SectionIter.pending, if_neg running] at this ⊢
  omega

/-- An iterator with units to read has not ended. -/
theorem Ready.running {iter : SectionIter} {inserted : Int} (ready : Ready iter inserted)
    {length : Nat} {lengths : List Nat} {units : List UInt16} (positive : 0 < length)
    (left : Cuts P iter.lengths units) (right : Cuts P (length :: lengths) units) :
    ¬iter.done := by
  intro ended
  obtain ⟨_, old_eq, rest_eq⟩ := ready.valid.done_of_new (by rw [ended]; decide)
  have total := left.length_eq.symm.trans right.length_eq
  simp only [SectionIter.lengths, old_eq, rest_eq, lengthsOf_nil, Int.toNat_zero, List.sum_cons,
    List.sum_nil] at total
  omega

theorem load_next_lt {iter : SectionIter} (running : ¬iter.done) (inserted inserted' : Int) :
    load iter.next inserted' < load iter inserted := by
  have := load_le iter.next inserted'
  have := next_pending_lt running
  unfold load at *
  omega

/-- Moving on never adds to the load. -/
theorem load_forward {iter : SectionIter} {inserted : Int} (running : ¬iter.done) (length : Int) :
    load (iter.forward length) inserted ≤ load iter inserted := by
  by_cases all : length = iter.old
  · rw [SectionIter.forward_all all]
    exact (load_next_lt running _ _).le
  · rw [SectionIter.forward_part all]
    exact le_rfl

/-! ## Skipping what the other set replaces -/

include cuttable in
/-- `coverChange` moves over the units dropped by the other set and writes what the weave writes
there. -/
theorem coverChange_spec (before : Bool) {others : List (Atom UInt16)} {lengths : List Nat}
    (ranks : ∀ rank word, Atom.text rank word ∈ others → 0 ≤ rank) (fuel length : Nat)
    (state : MapState) (units input output : List UInt16)
    (ready : Ready state.a state.inserted)
    (enough : 0 < fuel ∧ (0 < length → state.a.pending < fuel))
    (readsA : Cuts P state.a.lengths units) (readsB : Cuts P (length :: lengths) units)
    (builds : Builds P state.result.sections input output) :
    ∃ state' written, coverChange fuel length state = some state' ∧
      state'.b = state.b ∧ Ready state'.a state'.inserted ∧
      load state'.a state'.inserted ≤ load state.a state.inserted ∧
      Cuts P state'.a.lengths (units.drop length) ∧ Cuts P lengths (units.drop length) ∧
      Builds P state'.result.sections input (output ++ written) ∧
      weave before (state.a.atoms (spent state.a state.inserted))
          (List.replicate length .drop ++ others) units =
        written ++ weave before (state'.a.atoms (spent state'.a state'.inserted)) others
          (units.drop length) := by
  induction fuel generalizing length state units output with
  | zero => omega
  | succ fuel induction =>
      rcases Nat.eq_zero_or_pos length with rfl | positive
      · refine ⟨state, [], by simp [coverChange], rfl, ready, le_rfl, by simpa using readsA,
          by simpa using readsB.drop_zero, by simpa using builds, by simp⟩
      have running := ready.running positive readsA readsB
      have old_nonneg := ready.valid.current.old_nonneg
      obtain ⟨piece, rest, rfl, fits, admissible, readsA', readsB'⟩ := readsA.common cuttable readsB
      have piece_eq : (piece.length : Int) = min state.a.old length := by omega
      have le_old : (piece.length : Int) ≤ state.a.old := by omega
      have dropped : (piece ++ rest).drop length = rest.drop (length - piece.length) := by
        rw [List.drop_append, List.drop_eq_nil_of_le (by omega), List.nil_append]
      have others_eq : List.replicate length Atom.drop ++ others =
          List.replicate piece.length .drop ++
            (List.replicate (length - piece.length) .drop ++ others) := by
        rw [← List.append_assoc, List.replicate_append_replicate]
        congr
        omega
      rw [← fits] at readsA' readsB'
      have forward_cuts := SectionIter.forward_cuts cuttable le_old readsA'
      have forward_enough : 0 < fuel ∧
          (0 < length - piece.length → (state.a.forward piece.length).pending < fuel) := by
        have pending_lt := next_pending_lt running
        refine ⟨by omega, fun remains => ?_⟩
        rw [SectionIter.forward_all (by omega)]
        omega
      rw [coverChange, if_pos (by omega), dropped, others_eq]
      simp only [← piece_eq]
      by_cases emit : 0 ≤ state.a.new ∧ state.inserted < state.a.index ∧
          state.a.old ≤ piece.length
      · -- the whole change lies under the other one: its text is written here
        obtain ⟨new_nonneg, unwritten, le_piece⟩ := emit
        have all : (piece.length : Int) = state.a.old := by omega
        have text_eq := ready.valid.newLength_eq new_nonneg
        have written_eq : emitted state.a.newLength state.a.text [] = utf16Units state.a.text := by
          simp [emitted, text_eq, utf16Len_nonneg]
        have added : Builds P
            (addSection state.result 0 state.a.newLength state.a.text false).sections
            (input ++ []) (output ++ emitted state.a.newLength state.a.text []) :=
          builds.addSection cuttable cuttable.nil rfl (.inr text_eq)
        rw [written_eq, List.append_nil] at added
        rw [if_pos ⟨new_nonneg, unwritten, le_piece⟩]
        obtain ⟨state', written, run, same, ready', load', cutsA, cutsB, builds', woven⟩ :=
          induction (length - piece.length)
            { state with
              a := state.a.forward piece.length
              inserted := state.a.index
              result := addSection state.result 0 state.a.newLength state.a.text false } rest
            (output ++ utf16Units state.a.text)
            (by rw [SectionIter.forward_all all]; exact ready.next le_rfl)
            forward_enough forward_cuts readsB' added
        refine ⟨state', utf16Units state.a.text ++ written, ?_, same, ready', ?_, cutsA, cutsB,
          by rwa [← List.append_assoc], ?_⟩
        · rw [← run]
          congr
          omega
        · refine load'.trans ?_
          rw [SectionIter.forward_all all]
          exact (load_next_lt running _ _).le
        · rw [List.append_assoc, ← woven]
          have unspent : spent state.a state.inserted = false := decide_eq_false (by omega)
          have quiet : Quiet (List.replicate piece.length Atom.drop ++
              (List.replicate (length - piece.length) .drop ++ others)) := by
            rw [← others_eq]
            exact quiet_replicate_append (by simp) positive _
          rw [unspent, SectionIter.atoms, SectionIter.headAtoms, if_neg (by omega),
            if_neg Bool.false_ne_true, weave_change_left _ _ (quiet.leads _ _),
            show state.a.old.toNat = piece.length by omega, weave_dropped _ _ (by simp)]
          congr 2
          rw [SectionIter.forward_all all]
          exact (SectionIter.next_atoms _ (spent_next le_rfl)).symm
      · rw [if_neg emit]
        obtain ⟨state', written, run, same, ready', load', cutsA, cutsB, builds', woven⟩ :=
          induction (length - piece.length) { state with a := state.a.forward piece.length } rest
            output (ready.forward (by omega) le_old) forward_enough forward_cuts readsB' builds
        refine ⟨state', written, ?_, same, ready', ?_, cutsA, cutsB, builds', ?_⟩
        · rw [← run]
          congr
          omega
        · exact load'.trans (load_forward running _)
        · rw [← woven]
          have fresh (nonneg : 0 ≤ state.a.next.new) (all : (piece.length : Int) = state.a.old) :
              spent (state.a.forward piece.length) state.inserted = false := by
            rw [SectionIter.forward_all all]
            exact spent_next ready.inserted_le nonneg
          by_cases kept : state.a.new < 0
          · rw [SectionIter.atoms_keep kept le_old _ fresh, weave_dropped _ _ (by simp)]
          · by_cases written : state.inserted = state.a.index
            · have isSpent : spent state.a state.inserted = true := decide_eq_true written
              rw [isSpent, SectionIter.atoms_spent (by omega) le_old fresh (fun part => ?_),
                weave_dropped _ _ (by simp)]
              rw [SectionIter.forward_part part.ne]
              exact isSpent
            · -- the other change ends inside this one, which keeps its text for later
              have new_nonneg : 0 ≤ state.a.new := by omega
              have inserted_le := ready.inserted_le
              have part : (piece.length : Int) < state.a.old := by
                by_contra whole
                exact emit ⟨new_nonneg, by omega, by omega⟩
              have unspent : spent state.a state.inserted = false := decide_eq_false written
              have stays : spent (state.a.forward piece.length) state.inserted = false := by
                rw [SectionIter.forward_part part.ne]
                exact unspent
              have quiet : Quiet (List.replicate piece.length Atom.drop ++
                  (List.replicate (length - piece.length) .drop ++ others)) := by
                rw [← others_eq]
                exact quiet_replicate_append (by simp) positive _
              have leads : Leads before (-1)
                  (List.replicate (length - piece.length) .drop ++ others) := by
                intro other word more equality
                rw [show length - piece.length = 0 by omega] at equality
                have := ranks other word (by simp_all)
                exact .inl (by omega)
              have split_eq : state.a.old.toNat =
                  piece.length + (state.a.old.toNat - piece.length) := by omega
              rw [unspent, stays, SectionIter.atoms_unspent new_nonneg
                (ready.valid.new_eq new_nonneg).2 (by omega) part, SectionIter.atoms,
                SectionIter.headAtoms, if_neg kept, if_neg Bool.false_ne_true,
                weave_change_left _ _ (quiet.leads _ _), weave_change_left _ _ leads, split_eq,
                ← List.replicate_append_replicate, List.append_assoc,
                weave_dropped _ _ (by simp), ← split_eq]

/-! ## Reaching the next change of the other set -/

/-- The other iterator: its changes are only read from their start. -/
structure Fresh (iter : SectionIter) : Prop where
  valid : iter.Valid
  offset_eq : 0 ≤ iter.new → iter.offset = 0

theorem Fresh.next {iter : SectionIter} (fresh : Fresh iter) : Fresh iter.next where
  valid := SectionIter.valid_next fresh.valid.proper
  offset_eq _ := iter.next_offset

theorem Fresh.forward_keep {iter : SectionIter} (fresh : Fresh iter) (kept : iter.new = -1)
    {length : Int} (nonneg : 0 ≤ length) (le : length ≤ iter.old) :
    Fresh (iter.forward length) := by
  refine ⟨fresh.valid.forward nonneg le, ?_⟩
  by_cases all : length = iter.old
  · rw [SectionIter.forward_all all]
    exact fun _ => iter.next_offset
  · rw [SectionIter.forward_part all]
    intro changed
    change 0 ≤ iter.new at changed
    omega

/-- A change is its text followed by the units that it drops. -/
theorem Fresh.atoms_eq {iter : SectionIter} (fresh : Fresh iter) (changed : 0 ≤ iter.new) :
    iter.atoms false =
      change iter.old (utf16Units iter.text) iter.old.toNat ++ atomsOf iter.rest := by
  rw [SectionIter.atoms, SectionIter.headAtoms, if_neg (by omega), if_neg Bool.false_ne_true,
    SectionIter.rank, if_pos (fresh.offset_eq changed)]

/-- Both sets are read up to `left'` units before the end of a dropped stretch, the other one
up to `iter'`, and that one keeps `kept`. -/
structure Reached (P : List UInt16 → Prop) (before : Bool) (others : List (Atom UInt16))
    (lengths : List Nat) (iter : SectionIter) (left : Nat) (units : List UInt16)
    (iter' : SectionIter) (kept : List UInt16) (left' : Nat) (units' : List UInt16) : Prop where
  left_le : left' ≤ left
  fresh : Fresh iter'
  pending_le : iter'.pending ≤ iter.pending
  pending_lt : iter.new = -1 → 0 < left' → iter'.pending < iter.pending
  admissible : P kept
  readsA : Cuts P (left' :: lengths) units'
  readsB : Cuts P iter'.lengths units'
  walked : walk (iter.atoms false) units = kept ++ walk (iter'.atoms false) units'
  woven : weave before (List.replicate left .drop ++ others) (iter.atoms false) units =
    weave before (List.replicate left' .drop ++ others) (iter'.atoms false) units'

variable {before : Bool} {others : List (Atom UInt16)} {lengths : List Nat}

include cuttable in
/-- Nothing is read where the other set has no kept section next. -/
theorem Reached.refl {iter : SectionIter} {left : Nat} {units : List UInt16}
    (fresh : Fresh iter) (stopped : iter.new = -1 → left = 0)
    (readsA : Cuts P (left :: lengths) units) (readsB : Cuts P iter.lengths units) :
    Reached P before others lengths iter left units iter [] left units where
  left_le := le_rfl
  fresh := fresh
  pending_le := le_rfl
  pending_lt same positive := by
    have := stopped same
    omega
  admissible := cuttable.nil
  readsA := readsA
  readsB := readsB
  walked := rfl
  woven := rfl

include cuttable in
/-- The stretch may be read up to a section of the other set and then further. -/
theorem Reached.trans {iter iter' iter'' : SectionIter} {left left' left'' : Nat}
    {units units' units'' kept kept' : List UInt16}
    (first : Reached P before others lengths iter left units iter' kept left' units')
    (second : Reached P before others lengths iter' left' units' iter'' kept' left'' units'') :
    Reached P before others lengths iter left units iter'' (kept ++ kept') left'' units'' where
  left_le := second.left_le.trans first.left_le
  fresh := second.fresh
  pending_le := second.pending_le.trans first.pending_le
  pending_lt same positive :=
    second.pending_le.trans_lt (first.pending_lt same (positive.trans_le second.left_le))
  admissible := cuttable.append first.admissible second.admissible
  readsA := second.readsA
  readsB := second.readsB
  walked := by rw [first.walked, second.walked, List.append_assoc]
  woven := first.woven.trans second.woven

include cuttable in
/-- One kept section of the other set. -/
theorem reached_keep (before : Bool) (others : List (Atom UInt16)) {iter : SectionIter}
    {left : Nat} {units : List UInt16} (fresh : Fresh iter)
    (same : iter.new = -1) (readsA : Cuts P (left :: lengths) units)
    (readsB : Cuts P iter.lengths units) :
    ∃ kept units', (kept.length : Int) = min (left : Int) iter.old ∧
      Reached P before others lengths iter left units (iter.forward kept.length) kept
        (left - kept.length) units' := by
  have old_pos := fresh.valid.pos_of_keep same
  have low : iter.new < 0 := by omega
  obtain ⟨piece, rest, rfl, fits, admissible, readsA', readsB'⟩ := readsA.common cuttable readsB
  have le_old : (piece.length : Int) ≤ iter.old := by omega
  have le_left : piece.length ≤ left := by omega
  rw [← fits] at readsA' readsB'
  have atoms_eq := SectionIter.atoms_keep low le_old false (fun _ _ => rfl)
  refine ⟨piece, rest, by omega, Nat.sub_le _ _,
    fresh.forward_keep same (by omega) le_old, forward_pending _ _, ?_, admissible, readsA',
    SectionIter.forward_cuts cuttable le_old readsB', ?_, ?_⟩
  · intro _ remains
    rw [SectionIter.forward_all (by omega)]
    refine next_pending_lt ?_
    rw [SectionIter.done, same]
    decide
  · rw [atoms_eq, walk_keeps]
  · rw [atoms_eq, show List.replicate left (Atom.drop : Atom UInt16) =
      List.replicate piece.length .drop ++ List.replicate (left - piece.length) .drop by
        rw [List.replicate_append_replicate, Nat.add_sub_cancel' le_left],
      List.append_assoc, weave_dropped _ _ (by simp)]

include cuttable in
/-- One deletion of the other set that ends inside the stretch. -/
theorem reached_deletion (before : Bool) (others : List (Atom UInt16)) {iter : SectionIter}
    {left : Nat} {units : List UInt16} (fresh : Fresh iter) (deletion : iter.new = 0)
    (short : iter.old < left)
    (readsA : Cuts P (left :: lengths) units) (readsB : Cuts P iter.lengths units) :
    ∃ units', Reached P before others lengths iter left units iter.next []
      (left - iter.old.toNat) units' := by
  have old_nonneg := fresh.valid.current.old_nonneg
  have nonneg : 0 ≤ iter.new := by omega
  have silent : utf16Units iter.text = [] :=
    List.length_eq_zero_iff.mp (by
      have := (fresh.valid.new_eq nonneg).1
      unfold utf16Len at this
      omega)
  obtain ⟨piece, rest, rfl, fits, admissible, readsA', readsB'⟩ := readsA.common cuttable readsB
  rw [Nat.min_eq_right (by omega)] at fits readsA' readsB'
  rw [Nat.sub_self] at readsB'
  have atoms_eq : iter.atoms false =
      List.replicate piece.length .drop ++ iter.next.atoms false := by
    rw [fresh.atoms_eq nonneg, silent, change_nil, fits,
      SectionIter.next_atoms iter fun _ => rfl]
  refine ⟨rest, Nat.sub_le _ _, fresh.next, ?_, fun same => by omega, cuttable.nil, readsA',
    SectionIter.next_cuts cuttable readsB'.drop_zero, ?_, ?_⟩
  · exact iter.next_pending.trans (Nat.le_add_right _ _)
  · rw [atoms_eq, walk_drops, List.nil_append]
  · rw [atoms_eq, show List.replicate left (Atom.drop : Atom UInt16) =
      List.replicate piece.length .drop ++ List.replicate (left - iter.old.toNat) .drop by
        rw [List.replicate_append_replicate, fits]
        congr
        omega,
      List.append_assoc, weave_dropped _ _ (by simp)]

include cuttable in
/-- `reachChange` reads both sets over units that the mapped set drops. -/
theorem reachChange_spec (before : Bool) (others : List (Atom UInt16)) (fuel : Nat)
    (iter : SectionIter) (length left : Nat) (units : List UInt16) (fresh : Fresh iter)
    (enough : 0 < fuel ∧ (0 < left → iter.pending < fuel))
    (readsA : Cuts P (left :: lengths) units) (readsB : Cuts P iter.lengths units) :
    ∃ (iter' : SectionIter) (left' : Nat) (kept units' : List UInt16),
      reachChange fuel iter length left =
        some (iter', (length : Int) + (kept.length : Int), (left' : Int)) ∧
      Reached P before others lengths iter left units iter' kept left' units' := by
  induction fuel generalizing iter length left units with
  | zero => omega
  | succ fuel induction =>
      have stop (stopped : iter.new = -1 → left = 0) :
          Reached P before others lengths iter left units iter [] left units :=
        .refl cuttable fresh stopped readsA readsB
      rcases Nat.eq_zero_or_pos left with rfl | positive
      · exact ⟨iter, 0, [], units, by simp [reachChange], stop fun _ => rfl⟩
      rw [reachChange, if_pos (by omega)]
      by_cases same : iter.new = -1
      · obtain ⟨kept, units', kept_length, reached⟩ :=
          reached_keep cuttable before others fresh same readsA readsB
        have running : ¬iter.done := by
          rw [SectionIter.done, same]
          decide
        have continuing : 0 < fuel ∧
            (0 < left - kept.length → (iter.forward kept.length).pending < fuel) := by
          have := next_pending_lt running
          refine ⟨by omega, fun remains => ?_⟩
          have := reached.pending_lt same remains
          omega
        obtain ⟨iter', left', kept', units'', run, reached'⟩ :=
          induction (iter.forward kept.length) (length + kept.length) (left - kept.length) units'
            reached.fresh continuing reached.readsA reached.readsB
        refine ⟨iter', left', kept ++ kept', units'', ?_, reached.trans cuttable reached'⟩
        rw [if_pos same, ← kept_length]
        rw [show ((length + kept.length : Nat) : Int) = length + kept.length by omega,
          show ((left - kept.length : Nat) : Int) = left - kept.length by omega] at run
        rw [run, List.length_append, Nat.cast_add, add_assoc]
      · rw [if_neg same]
        by_cases deletion : iter.new = 0 ∧ iter.old < left
        · have old_nonneg := fresh.valid.current.old_nonneg
          obtain ⟨units', reached⟩ :=
            reached_deletion cuttable before others fresh deletion.1 deletion.2 readsA readsB
          have running : ¬iter.done := by
            rw [SectionIter.done, deletion.1]
            decide
          have continuing : 0 < fuel ∧
              (0 < left - iter.old.toNat → iter.next.pending < fuel) := by
            have := next_pending_lt running
            refine ⟨by omega, fun _ => by omega⟩
          obtain ⟨iter', left', kept', units'', run, reached'⟩ :=
            induction iter.next length (left - iter.old.toNat) units' reached.fresh continuing
              reached.readsA reached.readsB
          refine ⟨iter', left', kept', units'', ?_, reached.trans cuttable reached'⟩
          rw [show ((left - iter.old.toNat : Nat) : Int) = left - iter.old by omega] at run
          rw [if_pos deletion, run]
        · exact ⟨iter, left, [], units, by simp [deletion], stop fun kept => (same kept).elim⟩

/-! ## The main loop -/

/-- The iterator in a change whose text is written and of which `left` units are to be dropped. -/
theorem Ready.forward_written {iter : SectionIter} {inserted : Int} (ready : Ready iter inserted)
    (changed : 0 ≤ iter.new) {left : Nat} (le : left ≤ iter.old.toNat) :
    Ready (iter.forward (iter.old - left)) iter.index ∧
      (iter.forward (iter.old - left)).atoms (spent (iter.forward (iter.old - left)) iter.index) =
        List.replicate left .drop ++ atomsOf iter.rest ∧
      (0 < left → load (iter.forward (iter.old - left)) iter.index = 2 * iter.pending) := by
  have old_nonneg := ready.valid.current.old_nonneg
  rcases Nat.eq_zero_or_pos left with rfl | positive
  · rw [SectionIter.forward_all (by simp)]
    refine ⟨ready.next le_rfl, ?_, by simp⟩
    rw [SectionIter.next_atoms _ (spent_next le_rfl)]
    rfl
  · have part : iter.old - left ≠ iter.old := by omega
    have remains : 0 < iter.old - (iter.old - left) := by omega
    have not_kept : ¬iter.new < 0 := by omega
    have valid : (iter.forward (iter.old - left)).Valid :=
      ready.valid.forward (by omega) (by omega)
    have moved := SectionIter.forward_part part
    refine ⟨⟨valid, ?_, ?_⟩, ?_, fun _ => ?_⟩
    · rw [moved]
    · rw [moved]
      exact fun _ _ => remains
    · rw [moved]
      simp only [SectionIter.atoms, SectionIter.headAtoms, if_neg not_kept, spent, decide_true,
        if_true, SectionIter.rest]
      rw [show (iter.old - (iter.old - left)).toNat = left by omega]
    · rw [moved]
      simp only [load, lt_irrefl, and_false, if_false, add_zero]
      rfl

/-- The invariant of the main loop: the result so far turns `input` into `output`, and what the
iterators still perform on `units` completes it to `read` and `written`. -/
structure Mapping (P : List UInt16 → Prop) (before : Bool) (read written : List UInt16)
    (state : MapState) (units input output : List UInt16) : Prop where
  ready : Ready state.a state.inserted
  fresh : Fresh state.b
  readsA : Cuts P state.a.lengths units
  readsB : Cuts P state.b.lengths units
  builds : Builds P state.result.sections input output
  read_eq : input ++ walk (state.b.atoms false) units = read
  written_eq : output ++ weave before (state.a.atoms (spent state.a state.inserted))
    (state.b.atoms false) units = written

/-- Bounds the iterations of the main loop. -/
def MapState.work (state : MapState) : Nat :=
  load state.a state.inserted + 2 * state.b.pending

/-- The loop can go on from `state` with less work. -/
def Continues (P : List UInt16 → Prop) (before : Bool) (read written : List UInt16)
    (work : Nat) (state : MapState) : Prop :=
  state.work < work ∧ ∃ units input output, Mapping P before read written state units input output

namespace Mapping

variable {read written : List UInt16} {state : MapState} {units input output : List UInt16}

/-- Both iterators have units to read, or none has. -/
theorem matched (mapping : Mapping P before read written state units input output) :
    ¬(state.a.done ∧ 0 < state.b.old ∨ state.b.done ∧ 0 < state.a.old) := by
  have total := mapping.readsA.length_eq.symm.trans mapping.readsB.length_eq
  simp only [SectionIter.lengths, List.sum_cons] at total
  rintro (⟨ended, positive⟩ | ⟨ended, positive⟩)
  · obtain ⟨_, old_eq, rest_eq⟩ :=
      mapping.ready.valid.done_of_new (by rw [ended]; decide)
    simp only [old_eq, rest_eq, lengthsOf_nil, List.sum_nil] at total
    omega
  · obtain ⟨_, old_eq, rest_eq⟩ :=
      mapping.fresh.valid.done_of_new (by rw [ended]; decide)
    simp only [old_eq, rest_eq, lengthsOf_nil, List.sum_nil] at total
    omega

include cuttable in
/-- Both sets keep the next units. -/
theorem keep (mapping : Mapping P before read written state units input output)
    (keepsA : state.a.new = -1) (keepsB : state.b.new = -1) :
    Continues P before read written state.work
      { state with
        a := state.a.forward (min state.a.old state.b.old)
        b := state.b.forward (min state.a.old state.b.old)
        result := addSection state.result (min state.a.old state.b.old) (-1) "" false } := by
  have posA := mapping.ready.valid.pos_of_keep keepsA
  have posB := mapping.fresh.valid.pos_of_keep keepsB
  have runningA : ¬state.a.done := by
    rw [SectionIter.done, keepsA]
    decide
  have runningB : ¬state.b.done := by
    rw [SectionIter.done, keepsB]
    decide
  obtain ⟨piece, rest, rfl, fits, admissible, readsA, readsB⟩ :=
    mapping.readsA.common cuttable mapping.readsB
  have piece_eq : min state.a.old state.b.old = (piece.length : Int) := by omega
  have leA : (piece.length : Int) ≤ state.a.old := by omega
  have leB : (piece.length : Int) ≤ state.b.old := by omega
  rw [← fits] at readsA readsB
  rw [piece_eq]
  have freshA (nonneg : 0 ≤ state.a.next.new) (all : (piece.length : Int) = state.a.old) :
      spent (state.a.forward piece.length) state.inserted = false := by
    rw [SectionIter.forward_all all]
    exact spent_next mapping.ready.inserted_le nonneg
  have atomsA := SectionIter.atoms_keep (by omega) leA (spent state.a state.inserted) freshA
  have atomsB := SectionIter.atoms_keep (by omega) leB false (fun _ _ => rfl)
  refine ⟨?_, rest, input ++ piece, output ++ piece, ?_⟩
  · simp only [MapState.work]
    have loadA : load (state.a.forward piece.length) state.inserted ≤
        load state.a state.inserted := load_forward runningA _
    have pendingB := forward_pending state.b piece.length
    rcases (by omega : (piece.length : Int) = state.a.old ∨ (piece.length : Int) = state.b.old)
      with all | all
    · have := load_next_lt runningA state.inserted state.inserted
      rw [SectionIter.forward_all all]
      omega
    · have := next_pending_lt runningB
      rw [show state.b.forward piece.length = state.b.next from SectionIter.forward_all all]
      omega
  · exact {
      ready := mapping.ready.forward (by omega) leA
      fresh := mapping.fresh.forward_keep keepsB (by omega) leB
      readsA := SectionIter.forward_cuts cuttable leA readsA
      readsB := SectionIter.forward_cuts cuttable leB readsB
      builds := mapping.builds.addSection cuttable admissible rfl (.inl rfl)
      read_eq := by rw [← mapping.read_eq, atomsB, walk_keeps, List.append_assoc]
      written_eq := by
        rw [← mapping.written_eq, atomsA, atomsB, weave_keeps, List.append_assoc] }

/-- The text of the other set's change goes first. -/
theorem leads_theirs (mapping : Mapping P before read written state units input output)
    (first : state.a.new < 0 ∨ state.inserted = state.a.index ∨ state.a.offset = 0 ∧
      (state.b.old < state.a.old ∨ state.b.old = state.a.old ∧ !before)) :
    Leads (!before) state.b.old (state.a.atoms (spent state.a state.inserted)) := by
  have old_nonneg := mapping.fresh.valid.current.old_nonneg
  have progress := mapping.ready.progress
  refine mapping.ready.valid.leads (fun written => progress (of_decide_eq_true written)) ?_ ?_
  · intro changed unspent
    rcases first with kept | same | ⟨start, earlier⟩
    · omega
    · exact (of_decide_eq_false unspent same).elim
    · rw [SectionIter.rank, if_pos start]
      simpa [Precedes] using earlier
  · intro changed empty
    rcases first with kept | same | ⟨start, lower | ⟨equal, tie⟩⟩
    · omega
    · have := progress same changed
      omega
    · omega
    · exact .inr ⟨by omega, by simpa using tie⟩

include cuttable strings in
/-- The change of the other set is written as kept units, together with the texts of the mapped
set under it. -/
theorem theirs (mapping : Mapping P before read written state units input output)
    (changed : 0 ≤ state.b.new)
    (first : state.a.new < 0 ∨ state.inserted = state.a.index ∨ state.a.offset = 0 ∧
      (state.b.old < state.a.old ∨ state.b.old = state.a.old ∧ !before))
    {fuel : Nat} (enough : state.work ≤ fuel) :
    ∃ state', coverChange fuel state.b.old
        { state with result := addSection state.result state.b.newLength (-1) "" false } =
          some state' ∧
      Continues P before read written state.work { state' with b := state'.b.next } := by
  have old_nonneg := mapping.fresh.valid.current.old_nonneg
  have atomsB := mapping.fresh.atoms_eq changed
  have text_eq := mapping.fresh.valid.newLength_eq changed
  have running : ¬state.b.done := by
    unfold SectionIter.done
    omega
  have pending_lt := next_pending_lt running
  have kept : emitted (-1) "" (utf16Units state.b.text) = utf16Units state.b.text := by
    simp [emitted]
  have added : Builds P (addSection state.result state.b.newLength (-1) "" false).sections
      (input ++ utf16Units state.b.text) (output ++ emitted (-1) "" (utf16Units state.b.text)) :=
    mapping.builds.addSection cuttable (strings _) text_eq.symm (.inl rfl)
  rw [kept] at added
  have enough' : 0 < fuel ∧ (0 < state.b.old.toNat → state.a.pending < fuel) := by
    unfold MapState.work load at enough
    omega
  obtain ⟨state', covered, run, same, ready, load_le, readsA, readsB, builds, woven⟩ :=
    coverChange_spec cuttable before (fun _ _ => SectionIter.rank_nonneg_of_mem
      mapping.fresh.valid.proper) fuel state.b.old.toNat
      { state with result := addSection state.result state.b.newLength (-1) "" false } units
      (input ++ utf16Units state.b.text) (output ++ utf16Units state.b.text) mapping.ready enough'
      mapping.readsA mapping.readsB added
  rw [Int.toNat_of_nonneg old_nonneg] at run
  change state'.b = state.b at same
  have nextAtoms : state.b.next.atoms false = atomsOf state.b.rest :=
    SectionIter.next_atoms state.b fun _ => rfl
  have dropped : ∃ piece, units = piece ++ units.drop state.b.old.toNat ∧
      piece.length = state.b.old.toNat :=
    ⟨units.take state.b.old.toNat, (List.take_append_drop _ _).symm, by
      have total := mapping.readsB.length_eq
      simp only [SectionIter.lengths, List.sum_cons] at total
      rw [List.length_take]
      omega⟩
  obtain ⟨piece, units_eq, fits⟩ := dropped
  refine ⟨state', run, ?_, units.drop state.b.old.toNat, input ++ utf16Units state.b.text,
    output ++ utf16Units state.b.text ++ covered, ready, ?_, readsA, ?_, builds, ?_, ?_⟩
  · simp only [MapState.work, same] at load_le ⊢
    omega
  · exact same ▸ mapping.fresh.next
  · change Cuts P state'.b.next.lengths _
    rw [same]
    exact SectionIter.next_cuts cuttable readsB
  · rw [← mapping.read_eq, atomsB, units_eq, ← fits, walk_change, fits, ← units_eq, same,
      nextAtoms, List.append_assoc]
  · rw [← mapping.written_eq, atomsB, weave_change_right _ _ (mapping.leads_theirs first), same,
      nextAtoms, woven, List.append_assoc, List.append_assoc]

/-- The text of the mapped set's change goes first. -/
theorem leads_ours (mapping : Mapping P before read written state units input output)
    (first : ¬(0 ≤ state.b.new ∧ (state.a.new < 0 ∨ state.inserted = state.a.index ∨
      state.a.offset = 0 ∧
        (state.b.old < state.a.old ∨ state.b.old = state.a.old ∧ !before)))) :
    Leads before state.a.rank (state.b.atoms false) := by
  have oldA_nonneg := mapping.ready.valid.current.old_nonneg
  have oldB_nonneg := mapping.fresh.valid.current.old_nonneg
  have precedes (changed : 0 ≤ state.b.new) : Precedes before state.a.rank state.b.old := by
    unfold Precedes SectionIter.rank
    cases before
    all_goals
      simp only [Bool.not_false, Bool.not_true, Bool.false_eq_true, and_false, and_true] at first ⊢
      split <;> omega
  refine mapping.fresh.valid.leads (by simp) ?_ ?_
  · intro changed _
    rw [SectionIter.rank.eq_def state.b, if_pos (mapping.fresh.offset_eq changed)]
    exact precedes changed
  · intro changed empty
    rw [← empty]
    exact precedes changed

include cuttable in
/-- The change of the mapped set is written over what is left of the units that it drops. -/
theorem ours (mapping : Mapping P before read written state units input output)
    (changed : 0 ≤ state.a.new)
    (first : ¬(0 ≤ state.b.new ∧ (state.a.new < 0 ∨ state.inserted = state.a.index ∨
      state.a.offset = 0 ∧
        (state.b.old < state.a.old ∨ state.b.old = state.a.old ∧ !before))))
    {fuel : Nat} (enough : state.work ≤ fuel) :
    ∃ b length left, reachChange fuel state.b 0 state.a.old = some (b, length, left) ∧
      Continues P before read written state.work
        { a := state.a.forward (state.a.old - left), b, inserted := state.a.index,
          result := if state.inserted < state.a.index then
              addSection state.result length state.a.newLength state.a.text false
            else addSection state.result length 0 "" false } := by
  have old_nonneg := mapping.ready.valid.current.old_nonneg
  have text_eq := mapping.ready.valid.newLength_eq changed
  have runningA : ¬state.a.done := by
    unfold SectionIter.done
    omega
  have pendingA := next_pending_lt runningA
  have enough' : 0 < fuel ∧ (0 < state.a.old.toNat → state.b.pending < fuel) := by
    unfold MapState.work load at enough
    omega
  obtain ⟨b, left, kept, units', run, reached⟩ :=
    reachChange_spec cuttable before (atomsOf state.a.rest) fuel state.b 0
      state.a.old.toNat units mapping.fresh enough' mapping.readsA mapping.readsB
  have left_le := reached.left_le
  rw [Int.toNat_of_nonneg old_nonneg, Nat.cast_zero, zero_add] at run
  refine ⟨b, kept.length, left, run, ?_⟩
  obtain ⟨readyA, atomsA, loadA⟩ := mapping.ready.forward_written changed left_le
  have readsA : Cuts P (state.a.forward (state.a.old - left)).lengths units' := by
    rw [show state.a.old - left = ((state.a.old.toNat - left : Nat) : Int) by omega]
    refine SectionIter.forward_cuts cuttable (by omega) ?_
    rw [Nat.sub_sub_self left_le]
    exact reached.readsA
  have read_eq : input ++ kept ++ walk (b.atoms false) units' = read := by
    rw [← mapping.read_eq, reached.walked, List.append_assoc]
  have less : load (state.a.forward (state.a.old - left)) state.a.index + 2 * b.pending <
      state.work := by
    have := reached.pending_le
    unfold MapState.work
    rcases Nat.eq_zero_or_pos left with rfl | positive
    · have := load_next_lt runningA state.inserted state.a.index
      rw [SectionIter.forward_all (by simp)]
      omega
    · rw [loadA positive]
      unfold load
      by_cases unwritten : state.inserted < state.a.index
      · rw [if_pos ⟨changed, unwritten⟩]
        omega
      · have inserted_le := mapping.ready.inserted_le
        have inserted_eq : state.inserted = state.a.index := by omega
        have old_pos := mapping.ready.progress inserted_eq changed
        have runningB : ¬state.b.done := fun ended => mapping.matched (.inr ⟨ended, old_pos⟩)
        have kept : state.b.new = -1 := by
          by_contra other
          have low : state.b.new < -1 := by omega
          exact runningB (mapping.fresh.valid.done_of_new low).1
        have := reached.pending_lt kept positive
        omega
  refine ⟨less, units', input ++ kept, ?_⟩
  by_cases unwritten : state.inserted < state.a.index
  · have unspent : spent state.a state.inserted = false := decide_eq_false unwritten.ne
    have text : emitted state.a.newLength state.a.text kept = utf16Units state.a.text := by
      simp [emitted, text_eq, utf16Len_nonneg]
    have added := mapping.builds.addSection cuttable reached.admissible rfl (.inr text_eq)
    rw [text] at added
    simp only [if_pos unwritten]
    refine ⟨output ++ utf16Units state.a.text, readyA, reached.fresh, readsA, reached.readsB,
      added, read_eq, ?_⟩
    rw [← mapping.written_eq, unspent, SectionIter.atoms.eq_def state.a, SectionIter.headAtoms,
      if_neg (by omega), if_neg Bool.false_ne_true,
      weave_change_left _ _ (mapping.leads_ours first), reached.woven, atomsA, List.append_assoc]
  · have inserted_le := mapping.ready.inserted_le
    have isSpent : spent state.a state.inserted = true := decide_eq_true (by omega)
    have silent : emitted 0 "" kept = [] := by simp [emitted]
    have added : Builds P (addSection state.result kept.length 0 "" false).sections
        (input ++ kept) (output ++ emitted 0 "" kept) :=
      mapping.builds.addSection cuttable reached.admissible rfl (.inr rfl)
    rw [silent, List.append_nil] at added
    simp only [if_neg unwritten]
    refine ⟨output, readyA, reached.fresh, readsA, reached.readsB, added, read_eq, ?_⟩
    rw [← mapping.written_eq, isSpent, SectionIter.atoms.eq_def state.a, SectionIter.headAtoms,
      if_neg (by omega), if_pos rfl, reached.woven, atomsA]

/-- Where no branch of the loop applies, both sets are finished. -/
theorem both_done (mapping : Mapping P before read written state units input output)
    (lowA : state.a.new < 0) (keeps : ¬(state.a.new = -1 ∧ state.b.new = -1))
    (lowB : state.b.new < 0) : state.a.done ∧ state.b.done := by
  have matched := mapping.matched
  rcases (by omega : state.a.new < -1 ∨ state.a.new = -1) with endedA | keepsA
  · have doneA := (mapping.ready.valid.done_of_new endedA).1
    refine ⟨doneA, ?_⟩
    by_contra running
    have keepsB : state.b.new = -1 := by
      by_contra other
      exact running (mapping.fresh.valid.done_of_new (by omega)).1
    exact matched (.inl ⟨doneA, mapping.fresh.valid.pos_of_keep keepsB⟩)
  · have doneB := (mapping.fresh.valid.done_of_new (by omega)).1
    exact (matched (.inr ⟨doneB, mapping.ready.valid.pos_of_keep keepsA⟩)).elim

/-- When both sets are finished nothing is left to read or write. -/
theorem completed (mapping : Mapping P before read written state units input output)
    (doneA : state.a.done) (doneB : state.b.done) : input = read ∧ output = written := by
  obtain ⟨_, oldA, restA⟩ := mapping.ready.valid.done_of_new (by rw [doneA]; decide)
  obtain ⟨_, oldB, restB⟩ := mapping.fresh.valid.done_of_new (by rw [doneB]; decide)
  have atomsA : state.a.atoms (spent state.a state.inserted) = [] := by
    rw [SectionIter.atoms, SectionIter.headAtoms, if_pos (by rw [doneA]; decide), oldA, restA]
    rfl
  have atomsB : state.b.atoms false = [] := by
    rw [SectionIter.atoms, SectionIter.headAtoms, if_pos (by rw [doneB]; decide), oldB, restB]
    rfl
  constructor
  · rw [← mapping.read_eq, atomsB, walk_nil, List.append_nil]
  · rw [← mapping.written_eq, atomsA, atomsB, weave_nil, List.append_nil]

end Mapping

include cuttable strings in
/-- With enough fuel the main loop returns a change set that completes the weave. -/
theorem mapLoop_spec {read written : List UInt16} (fuel : Nat) (state : MapState)
    (units input output : List UInt16)
    (mapping : Mapping P before read written state units input output)
    (enough : state.work < fuel) :
    ∃ result, mapLoop before fuel state = .ok result ∧
      Builds P result.sections read written := by
  induction fuel generalizing state units input output with
  | zero => omega
  | succ fuel induction =>
      have resume {next : MapState} (continues : Continues P before read written state.work next) :
          ∃ result, mapLoop before fuel next = .ok result ∧
            Builds P result.sections read written := by
        obtain ⟨less, units, input, output, mapping⟩ := continues
        exact induction next units input output mapping (by omega)
      rw [mapLoop]
      simp only [if_neg mapping.matched]
      by_cases keeps : state.a.new = -1 ∧ state.b.new = -1
      · rw [if_pos keeps]
        exact resume (mapping.keep cuttable keeps.1 keeps.2)
      rw [if_neg keeps]
      by_cases first : 0 ≤ state.b.new ∧ (state.a.new < 0 ∨ state.inserted = state.a.index ∨
          state.a.offset = 0 ∧
            (state.b.old < state.a.old ∨ state.b.old = state.a.old ∧ !before))
      · obtain ⟨next, run, continues⟩ :=
          mapping.theirs cuttable strings first.1 first.2 (Nat.lt_succ_iff.mp enough)
        rw [if_pos first, run]
        exact resume continues
      rw [if_neg first]
      by_cases changed : 0 ≤ state.a.new
      · obtain ⟨b, length, left, run, continues⟩ :=
          mapping.ours cuttable changed first (Nat.lt_succ_iff.mp enough)
        rw [if_pos changed, run]
        exact resume continues
      · rw [if_neg changed]
        obtain ⟨doneA, doneB⟩ := mapping.both_done (by omega) keeps (by
          by_contra theirs
          exact first ⟨by omega, .inl (by omega)⟩)
        obtain ⟨rfl, rfl⟩ := mapping.completed doneA doneB
        rw [if_pos ⟨doneA, doneB⟩]
        exact ⟨state.result, rfl, mapping.builds⟩

/-! ## Mapping whole change sets -/

/-- A change set to be applied to `units`: its sections are proper and read admissible pieces. -/
structure ChangeSet.Fits (P : List UInt16 → Prop) (set : ChangeSet) (units : List UInt16) :
    Prop where
  formed : set.WellFormed
  cuts : Cuts P (lengthsOf set.sections) units

instance [DecidablePred P] (set : ChangeSet) (units : List UInt16) : Decidable (set.Fits P units) :=
  decidable_of_iff (set.WellFormed ∧ Cuts P (lengthsOf set.sections) units)
    ⟨fun fits => ⟨fits.1, fits.2⟩, fun fits => ⟨fits.formed, fits.cuts⟩⟩

theorem ChangeSet.Fits.oldLen_eq {set : ChangeSet} {units : List UInt16}
    (fits : set.Fits P units) : set.oldLen = units.length := by
  rw [fits.cuts.length_eq]
  exact fits.formed.sum_lengths.symm

/-- A new iterator has the whole set in front of it. -/
theorem SectionIter.ofSet_spec (cuttable : Cuttable P) {set : ChangeSet} {units : List UInt16}
    (fits : set.Fits P units) :
    (SectionIter.ofSet set).Valid ∧ (SectionIter.ofSet set).atoms false = atomsOf set.sections ∧
      Cuts P (SectionIter.ofSet set).lengths units ∧
      (SectionIter.ofSet set).pending ≤ set.sections.length := by
  let start : SectionIter := { set, index := 0, old := 0, new := 0, offset := 0 }
  have rest_eq : start.rest = set.sections := List.drop_zero
  refine ⟨valid_next (rest_eq ▸ fits.formed), ?_, next_cuts cuttable (rest_eq ▸ fits.cuts), ?_⟩
  · exact (next_atoms start fun _ => rfl).trans (by rw [rest_eq])
  · exact start.next_pending.trans (by rw [rest_eq])

include cuttable strings in
/-- `Map` returns a change set for the document that the other set leaves; it writes the weave of
both sets. -/
theorem ChangeSet.map_spec {set other : ChangeSet} {units : List UInt16}
    (fits : set.Fits P units) (fits' : other.Fits P units) (before : Bool) :
    ∃ result, set.map other before = .ok result ∧ result.Fits P (other.run units) ∧
      result.run (other.run units) =
        weave before (atomsOf set.sections) (atomsOf other.sections) units := by
  obtain ⟨validA, atomsA, cutsA, pendingA⟩ := SectionIter.ofSet_spec cuttable fits
  obtain ⟨validB, atomsB, cutsB, pendingB⟩ := SectionIter.ofSet_spec cuttable fits'
  have unspent : spent (SectionIter.ofSet set) (-1) = false := decide_eq_false (by omega)
  have mapping : Mapping P before (other.run units)
      (weave before (atomsOf set.sections) (atomsOf other.sections) units)
      { a := .ofSet set, b := .ofSet other, inserted := -1, result := ⟨[]⟩ } units [] [] := {
    ready := ⟨validA, by simp, by simp only; omega⟩
    fresh := ⟨validB, fun _ => SectionIter.next_offset _⟩
    readsA := cutsA
    readsB := cutsB
    builds := .nil
    read_eq := by rw [List.nil_append, atomsB]; rfl
    written_eq := by rw [List.nil_append, unspent, atomsA, atomsB] }
  have enough : MapState.work
      { a := .ofSet set, b := .ofSet other, inserted := -1, result := ⟨[]⟩ } <
        mapFuel set other := by
    have := load_le (SectionIter.ofSet set) (-1)
    simp only [MapState.work, mapFuel]
    omega
  obtain ⟨result, run, builds⟩ := mapLoop_spec cuttable strings _ _ _ _ _ mapping enough
  refine ⟨result, ?_, ⟨builds.proper, builds.cuts⟩, builds.writes⟩
  rw [ChangeSet.map, if_neg (by rw [fits.oldLen_eq, fits'.oldLen_eq]; simp), run]

end Loop

/-- Two change sets of one document can both be mapped over each other, and both orders of
application give the same code units. -/
theorem ChangeSet.map_converges (a b : ChangeSet) (units : List UInt16)
    (formedA : a.WellFormed) (formedB : b.WellFormed) (startA : a.oldLen = units.length)
    (startB : b.oldLen = units.length) :
    ∃ a' b', a.map b true = .ok a' ∧ b.map a false = .ok b' ∧
      a'.oldLen = b.newLen ∧ b'.oldLen = a.newLen ∧
      ∃ afterA afterB result, a.applyUnits units = .ok afterA ∧ b.applyUnits units = .ok afterB ∧
        b'.applyUnits afterA = .ok result ∧ a'.applyUnits afterB = .ok result := by
  have fitsA : a.Fits (fun _ => True) units :=
    ⟨formedA, .of_length (by have := formedA.sum_lengths; omega)⟩
  have fitsB : b.Fits (fun _ => True) units :=
    ⟨formedB, .of_length (by have := formedB.sum_lengths; omega)⟩
  obtain ⟨a', mapA, fitsA', wovenA⟩ := ChangeSet.map_spec .trivial (fun _ => ⟨⟩) fitsA fitsB true
  obtain ⟨b', mapB, fitsB', wovenB⟩ := ChangeSet.map_spec .trivial (fun _ => ⟨⟩) fitsB fitsA false
  have meet : b'.run (a.run units) = a'.run (b.run units) := by
    rw [wovenA, wovenB, weave_symm]
    rfl
  refine ⟨a', b', mapA, mapB, ?_, ?_, a.run units, b.run units, a'.run (b.run units),
    formedA.applyUnits_eq startA, formedB.applyUnits_eq startB, ?_,
    fitsA'.formed.applyUnits_eq fitsA'.oldLen_eq⟩
  · rw [fitsA'.oldLen_eq, formedB.length_run startB]
  · rw [fitsB'.oldLen_eq, formedA.length_run startA]
  · rw [fitsB'.formed.applyUnits_eq fitsB'.oldLen_eq, meet]

/-- Replacing "bc" and deleting "cd" in "abcd" meet. -/
theorem ChangeSet.map_converges_overlap :
    ∃ a' b', ChangeSet.map ⟨[⟨1, -1, ""⟩, ⟨2, 1, "x"⟩, ⟨1, -1, ""⟩]⟩
        ⟨[⟨2, -1, ""⟩, ⟨2, 0, ""⟩]⟩ true = .ok a' ∧
      ChangeSet.map ⟨[⟨2, -1, ""⟩, ⟨2, 0, ""⟩]⟩
        ⟨[⟨1, -1, ""⟩, ⟨2, 1, "x"⟩, ⟨1, -1, ""⟩]⟩ false = .ok b' ∧
      a'.oldLen = 2 ∧ b'.oldLen = 3 ∧
      ∃ afterA afterB result,
        ChangeSet.applyUnits ⟨[⟨1, -1, ""⟩, ⟨2, 1, "x"⟩, ⟨1, -1, ""⟩]⟩ (utf16Units "abcd") =
          .ok afterA ∧
        ChangeSet.applyUnits ⟨[⟨2, -1, ""⟩, ⟨2, 0, ""⟩]⟩ (utf16Units "abcd") = .ok afterB ∧
        b'.applyUnits afterA = .ok result ∧ a'.applyUnits afterB = .ok result :=
  ChangeSet.map_converges ⟨[⟨1, -1, ""⟩, ⟨2, 1, "x"⟩, ⟨1, -1, ""⟩]⟩
    ⟨[⟨2, -1, ""⟩, ⟨2, 0, ""⟩]⟩ (utf16Units "abcd") (by decide) (by decide) (by decide) (by decide)

end Oxbin.Livecollab
