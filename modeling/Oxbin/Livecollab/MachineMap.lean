import Oxbin.Livecollab.Machine

/-!
# Mapping in 64-bit arithmetic

`Map` with the sums of the program.  It is the `Map` of the other files as long as the lengths of
the mapped set fit into an `int`.
-/

namespace Oxbin.Livecollab

/-- `addSection` without its last parameter, which `Map` never sets. -/
def addSection64 (set : ChangeSet) (oldLength newLength : Int) (insert : String) : ChangeSet :=
  if oldLength = 0 ∧ newLength ≤ 0 then set
  else
    match set.sections.getLast? with
    | none => ⟨[⟨oldLength, newLength, insert⟩]⟩
    | some last =>
        let front := set.sections.dropLast
        if newLength ≤ 0 ∧ newLength = last.newLen then
          ⟨front ++ [{ last with oldLen := wrap (last.oldLen + oldLength) }]⟩
        else if oldLength = 0 ∧ last.oldLen = 0 then
          ⟨front ++ [{ last with
            newLen := wrap (last.newLen + newLength), insert := last.insert ++ insert }]⟩
        else ⟨set.sections ++ [⟨oldLength, newLength, insert⟩]⟩

/-- `sectionIter.forward`. -/
def SectionIter.forward64 (iter : SectionIter) (length : Int) : SectionIter :=
  if length = iter.old then iter.next
  else { iter with old := wrap (iter.old - length), offset := wrap (iter.offset + length) }

/-- The inner loop of `Map` that skips what a change of the other set replaces. -/
def coverChange64 : Nat → Int → MapState → Option MapState
  | 0, _, _ => none
  | fuel + 1, length, state =>
      if 0 < length then
        let piece := min state.a.old length
        let state :=
          if 0 ≤ state.a.new ∧ state.inserted < state.a.index ∧ state.a.old ≤ piece then
            { state with
              result := addSection64 state.result 0 state.a.newLength state.a.text
              inserted := state.a.index }
          else state
        coverChange64 fuel (wrap (length - piece)) { state with a := state.a.forward64 piece }
      else some state

/-- The inner loop of `Map` that advances the other set under a change of the mapped set. -/
def reachChange64 : Nat → SectionIter → Int → Int → Option (SectionIter × Int × Int)
  | 0, _, _, _ => none
  | fuel + 1, b, length, left =>
      if 0 < left then
        if b.new = -1 then
          let piece := min left b.old
          reachChange64 fuel (b.forward64 piece) (wrap (length + piece)) (wrap (left - piece))
        else if b.new = 0 ∧ b.old < left then
          reachChange64 fuel b.next length (wrap (left - b.old))
        else some (b, length, left)
      else some (b, length, left)

/-- The main loop of `Map`. -/
def mapLoop64 (before : Bool) : Nat → MapState → Except CollabError ChangeSet
  | 0, _ => .error .diverges
  | fuel + 1, state =>
      let a := state.a
      let b := state.b
      if a.done ∧ 0 < b.old ∨ b.done ∧ 0 < a.old then
        .error (.invalidChangeSet .mismatchedLengths)
      else if a.new = -1 ∧ b.new = -1 then
        let length := min a.old b.old
        mapLoop64 before fuel
          { state with
            a := a.forward64 length
            b := b.forward64 length
            result := addSection64 state.result length (-1) "" }
      else if 0 ≤ b.new ∧ (a.new < 0 ∨ state.inserted = a.index ∨
          a.offset = 0 ∧ (b.old < a.old ∨ b.old = a.old ∧ !before)) then
        match coverChange64 fuel b.old
            { state with result := addSection64 state.result b.newLength (-1) "" } with
        | none => .error .diverges
        | some state => mapLoop64 before fuel { state with b := state.b.next }
      else if 0 ≤ a.new then
        match reachChange64 fuel b 0 a.old with
        | none => .error .diverges
        | some (b, length, left) =>
            let result :=
              if state.inserted < a.index then
                addSection64 state.result length a.newLength a.text
              else addSection64 state.result length 0 ""
            mapLoop64 before fuel
              { a := a.forward64 (wrap (a.old - left)), b, inserted := a.index, result }
      else if a.done ∧ b.done then .ok state.result
      else .error (.invalidChangeSet .mismatchedSets)

/-- `ChangeSet.Map`. -/
def ChangeSet.map64 (set other : ChangeSet) (before : Bool) : Except CollabError ChangeSet :=
  if set.oldLen64 ≠ other.oldLen64 then
    .error (.invalidChangeSet (.cannotMap set.oldLen64 other.oldLen64))
  else
    mapLoop64 before (mapFuel set other)
      { a := .ofSet set, b := .ofSet other, inserted := -1, result := ⟨[]⟩ }

/-! ## Iterators -/

/-- The sections of the iterator have lengths that fit into an `int`, and it stands in one. -/
structure SectionIter.Small (iter : SectionIter) : Prop where
  sections : ∀ sect ∈ iter.set.sections, 0 ≤ sect.oldLen ∧ sect.oldLen < intLimit
  old : 0 ≤ iter.old
  offset : 0 ≤ iter.offset
  fits : iter.offset + iter.old < intLimit

namespace SectionIter

variable {iter : SectionIter}

theorem Small.next (small : iter.Small) : iter.next.Small := by
  unfold SectionIter.next
  split
  case h_1 => exact ⟨small.sections, le_rfl, le_rfl, (by decide : (0 : Int) + 0 < intLimit)⟩
  case h_2 sect found =>
    obtain ⟨nonneg, fits⟩ := small.sections sect (List.mem_of_getElem? found)
    exact ⟨small.sections, nonneg, le_rfl, by simpa using fits⟩

theorem Small.forward (small : iter.Small) {length : Int} (nonneg : 0 ≤ length)
    (within : length ≤ iter.old) :
    iter.forward64 length = SectionIter.forward iter length ∧
      (SectionIter.forward iter length).Small := by
  obtain ⟨sections, old, offset, fits⟩ := small
  unfold SectionIter.forward64 SectionIter.forward
  split
  case isTrue => exact ⟨rfl, Small.next ⟨sections, old, offset, fits⟩⟩
  case isFalse =>
    rw [wrap_eq (by unfold intLimit; omega) (by omega),
      wrap_eq (by unfold intLimit; omega) (by omega)]
    refine ⟨rfl, sections, ?_, ?_, ?_⟩
    all_goals simp only
    all_goals omega

theorem small_ofSet {set : ChangeSet} (canonical : set.Canonical) : (ofSet set).Small := by
  apply Small.next
  refine ⟨fun sect member => ?_, le_rfl, le_rfl, (by decide : (0 : Int) + 0 < intLimit)⟩
  exact ⟨(canonical sect member).proper.oldLen_nonneg, (canonical sect member).small⟩

end SectionIter

/-! ## Results -/

/-- The units that a set inserts. -/
def ChangeSet.inserted (set : ChangeSet) : Int :=
  (set.sections.map fun sect => max sect.newLen 0).sum

/-- The lengths of the sections are lengths. -/
def ChangeSet.Signed (set : ChangeSet) : Prop :=
  ∀ sect ∈ set.sections, 0 ≤ sect.oldLen ∧ -1 ≤ sect.newLen

/-- The set has grown to another one. -/
def ChangeSet.Grows (set final : ChangeSet) : Prop :=
  set.oldLen ≤ final.oldLen ∧ set.inserted ≤ final.inserted

/-- The lengths of the set fit into an `int`. -/
def ChangeSet.Bounded (set : ChangeSet) : Prop :=
  set.oldLen < intLimit ∧ set.inserted < intLimit

theorem ChangeSet.Grows.trans {set middle final : ChangeSet} (first : set.Grows middle)
    (second : middle.Grows final) : set.Grows final :=
  ⟨first.1.trans second.1, first.2.trans second.2⟩

theorem ChangeSet.Grows.bounded {set final : ChangeSet} (grows : set.Grows final)
    (bounded : final.Bounded) : set.Bounded :=
  ⟨grows.1.trans_lt bounded.1, grows.2.trans_lt bounded.2⟩

theorem ChangeSet.Signed.nonneg {set : ChangeSet} (signed : set.Signed) :
    0 ≤ set.oldLen ∧ 0 ≤ set.inserted := by
  constructor
  · apply List.sum_nonneg
    intro length member
    obtain ⟨sect, present, rfl⟩ := List.mem_map.mp member
    exact (signed sect present).1
  · apply List.sum_nonneg
    intro length member
    obtain ⟨sect, present, rfl⟩ := List.mem_map.mp member
    exact le_max_right _ _

/-- Adding a section lets the result grow, and nothing wraps around while it fits. -/
theorem addSection64_eq {set : ChangeSet} {oldLength newLength : Int} {insert : String}
    (signed : set.Signed) (nonneg : 0 ≤ oldLength) (lower : -1 ≤ newLength) :
    (addSection set oldLength newLength insert false).Signed ∧
      set.Grows (addSection set oldLength newLength insert false) ∧
      ((addSection set oldLength newLength insert false).Bounded →
        addSection64 set oldLength newLength insert =
          addSection set oldLength newLength insert false) := by
  unfold addSection addSection64
  split
  case isTrue => exact ⟨signed, ⟨le_rfl, le_rfl⟩, fun _ => rfl⟩
  case isFalse =>
    obtain ⟨sections⟩ := set
    rcases List.eq_nil_or_concat sections with rfl | ⟨front, last, rfl⟩
    · refine ⟨?_, ⟨?_, ?_⟩, fun _ => rfl⟩
      · intro sect member
        cases List.mem_singleton.mp member
        exact ⟨nonneg, lower⟩
      · simpa [ChangeSet.oldLen] using nonneg
      · simp [ChangeSet.inserted]
    · rw [List.concat_eq_append] at signed ⊢
      have front_signed : ChangeSet.Signed ⟨front⟩ := fun sect member =>
        signed sect (List.mem_append_left _ member)
      obtain ⟨last_nonneg, last_lower⟩ := signed last (by simp)
      obtain ⟨front_old, front_inserted⟩ := front_signed.nonneg
      have append_signed {sects : List Section}
          (added : ∀ sect ∈ sects, 0 ≤ sect.oldLen ∧ -1 ≤ sect.newLen) :
          ChangeSet.Signed ⟨front ++ sects⟩ := by
        intro sect member
        rcases List.mem_append.mp member with old | new
        · exact front_signed sect old
        · exact added sect new
      simp only [ChangeSet.oldLen, ChangeSet.inserted] at front_old front_inserted
      simp only [List.getLast?_append, List.getLast?_singleton, Option.some_or,
        List.dropLast_concat]
      split
      case isTrue merges =>
        refine ⟨append_signed ?_, ⟨?_, ?_⟩, fun bounded => ?_⟩
        · intro sect member
          cases List.mem_singleton.mp member
          exact ⟨by simp only; omega, last_lower⟩
        · simp [ChangeSet.oldLen]
          omega
        · simp [ChangeSet.inserted]
        · have total := bounded.1
          simp [ChangeSet.oldLen] at total
          rw [wrap_eq (by unfold intLimit; omega) (by omega)]
      case isFalse =>
        split
        case isTrue inserts =>
          have positive : 0 < newLength := by omega
          refine ⟨append_signed ?_, ⟨?_, ?_⟩, fun bounded => ?_⟩
          · intro sect member
            cases List.mem_singleton.mp member
            exact ⟨last_nonneg, by simp only; omega⟩
          · simp [ChangeSet.oldLen]
          · simp [ChangeSet.inserted]
            omega
          · have total := bounded.2
            simp [ChangeSet.inserted] at total
            rw [wrap_eq (by unfold intLimit; omega) (by omega)]
        case isFalse =>
          refine ⟨?_, ⟨?_, ?_⟩, fun _ => by simp⟩
          · intro sect member
            simp only [Bool.false_eq_true, if_false, List.mem_append, List.mem_singleton] at member
            rcases member with (old | rfl) | rfl
            · exact front_signed sect old
            · exact ⟨last_nonneg, last_lower⟩
            · exact ⟨nonneg, lower⟩
          · simp [ChangeSet.oldLen]
            omega
          · simp [ChangeSet.inserted]

/-! ## Loops -/

theorem SectionIter.Small.old_lt {iter : SectionIter} (small : iter.Small) :
    iter.old < intLimit := by
  have := small.offset
  have := small.fits
  omega

theorem wrap_small {value : Int} (nonneg : 0 ≤ value) (fits : value < intLimit) :
    wrap value = value :=
  wrap_eq (by unfold intLimit; omega) fits

theorem coverChange64_eq {fuel : Nat} {length : Int} {state state' : MapState}
    (small : state.a.Small) (signed : state.result.Signed) (fits : length < intLimit)
    (covered : coverChange fuel length state = some state') :
    state'.a.Small ∧ state'.b = state.b ∧ state'.result.Signed ∧
      state.result.Grows state'.result ∧
      (state'.result.Bounded → coverChange64 fuel length state = some state') := by
  induction fuel generalizing length state with
  | zero => cases covered
  | succ fuel induction =>
      rw [coverChange] at covered
      rw [coverChange64]
      split at covered
      case isFalse done =>
        cases covered
        exact ⟨small, rfl, signed, ⟨le_rfl, le_rfl⟩, fun _ => if_neg done⟩
      case isTrue more =>
        have old := small.old
        have piece : 0 ≤ min state.a.old length := by omega
        obtain ⟨same, forward⟩ := small.forward piece (min_le_left _ _)
        have rest : wrap (length - min state.a.old length) = length - min state.a.old length :=
          wrap_small (by omega) (by omega)
        rw [if_pos more]
        simp only at covered ⊢
        rw [rest]
        split at covered
        case isTrue emits =>
          have newLength : state.a.newLength = state.a.new := if_neg (by omega)
          obtain ⟨signed', grows, equality⟩ := @addSection64_eq state.result 0 state.a.newLength
            state.a.text signed le_rfl (by omega)
          obtain ⟨small', other, signed'', grows', equality'⟩ :=
            induction (by simpa only using forward) signed' (by omega) covered
          refine ⟨small', other, signed'', grows.trans grows', fun bounded => ?_⟩
          rw [if_pos emits, equality (grows'.bounded bounded)]
          simp only
          rw [same]
          exact equality' bounded
        case isFalse silent =>
          obtain ⟨small', other, signed', grows, equality⟩ :=
            @induction _ { state with a := state.a.forward (min state.a.old length) } forward
              signed (by omega) covered
          refine ⟨small', other, signed', grows, fun bounded => ?_⟩
          rw [if_neg silent, same]
          exact equality bounded

theorem reachChange64_eq {fuel : Nat} {b b' : SectionIter} {length left length' left' : Int}
    (small : b.Small) (nonneg : 0 ≤ length) (nonneg' : 0 ≤ left) (fits : length + left < intLimit)
    (reached : reachChange fuel b length left = some (b', length', left')) :
    reachChange64 fuel b length left = some (b', length', left') ∧ b'.Small ∧ 0 ≤ length' ∧
      0 ≤ left' ∧ left' ≤ left := by
  induction fuel generalizing b length left with
  | zero => cases reached
  | succ fuel induction =>
      have old := small.old
      rw [reachChange] at reached
      rw [reachChange64]
      split at reached
      case isFalse done =>
        cases reached
        exact ⟨if_neg done, small, nonneg, nonneg', le_rfl⟩
      case isTrue more =>
        rw [if_pos more]
        split at reached
        case isTrue keeps =>
          obtain ⟨same, forward⟩ := small.forward (by omega) (min_le_right left b.old)
          obtain ⟨equality, small', length_nonneg, left_nonneg, le⟩ :=
            induction forward (by omega) (by omega) (by omega) reached
          rw [if_pos keeps]
          simp only
          rw [same, wrap_small (by omega) (by omega), wrap_small (by omega) (by omega)]
          exact ⟨equality, small', length_nonneg, left_nonneg, by omega⟩
        case isFalse changes =>
          rw [if_neg changes]
          split at reached
          case isTrue deletes =>
            obtain ⟨equality, small', length_nonneg, left_nonneg, le⟩ :=
              induction small.next nonneg (by omega) (by omega) reached
            rw [if_pos deletes, wrap_small (by omega) (by omega)]
            exact ⟨equality, small', length_nonneg, left_nonneg, by omega⟩
          case isFalse stops =>
            cases reached
            exact ⟨if_neg stops, small, nonneg, nonneg', le_rfl⟩

/-- As long as the result fits, the loop is the loop of unbounded integers. -/
theorem mapLoop64_eq {before : Bool} {fuel : Nat} {state : MapState} {final : ChangeSet}
    (small : state.a.Small) (small' : state.b.Small) (signed : state.result.Signed)
    (mapped : mapLoop before fuel state = .ok final) :
    state.result.Grows final ∧
      (final.Bounded → mapLoop64 before fuel state = .ok final) := by
  induction fuel generalizing state with
  | zero => cases mapped
  | succ fuel induction =>
      have old := small.old
      have old' := small'.old
      have fits := small.old_lt
      have fits' := small'.old_lt
      rw [mapLoop] at mapped
      rw [mapLoop64]
      simp only at mapped ⊢
      split at mapped
      case isTrue => cases mapped
      case isFalse matched =>
        rw [if_neg matched]
        split at mapped
        case isTrue keeps =>
          obtain ⟨same, forward⟩ := small.forward (by omega) (min_le_left state.a.old state.b.old)
          obtain ⟨same', forward'⟩ :=
            small'.forward (by omega) (min_le_right state.a.old state.b.old)
          obtain ⟨signed', grows, equality⟩ := @addSection64_eq state.result
            (min state.a.old state.b.old) (-1) "" signed (by omega) le_rfl
          obtain ⟨grows', equality'⟩ := induction (by simpa only using forward)
            (by simpa only using forward') signed' mapped
          refine ⟨grows.trans grows', fun bounded => ?_⟩
          rw [if_pos keeps, same, same', equality (grows'.bounded bounded)]
          exact equality' bounded
        case isFalse changes =>
          rw [if_neg changes]
          split at mapped
          case isTrue theirs =>
            split at mapped
            case h_1 => cases mapped
            case h_2 covered next =>
              have newLength : state.b.newLength = state.b.new := if_neg (by omega)
              obtain ⟨signed', grows, equality⟩ := @addSection64_eq state.result
                state.b.newLength (-1) "" signed (by omega) le_rfl
              obtain ⟨covered_small, same, covered_signed, grows', equality'⟩ :=
                coverChange64_eq (by simpa only using small) signed' fits' next
              have next_small : covered.b.next.Small := by
                rw [same]
                exact small'.next
              obtain ⟨grows'', equality''⟩ := @induction { covered with b := covered.b.next }
                covered_small next_small covered_signed mapped
              refine ⟨grows.trans (grows'.trans grows''), fun bounded => ?_⟩
              have bounded' := grows''.bounded bounded
              rw [if_pos theirs, equality (grows'.bounded bounded'), equality' bounded']
              exact equality'' bounded
          case isFalse ours =>
            rw [if_neg ours]
            split at mapped
            case isTrue changed =>
              rw [if_pos changed]
              split at mapped
              case h_1 => cases mapped
              case h_2 b' length left reached =>
                obtain ⟨equality, reached_small, nonneg, left_nonneg, le⟩ :=
                  reachChange64_eq small' le_rfl old (by omega) reached
                obtain ⟨same, forward⟩ := @SectionIter.Small.forward state.a small
                  (state.a.old - left) (by omega) (by omega)
                have newLength : state.a.newLength = state.a.new := if_neg (by omega)
                rw [equality]
                simp only
                rw [wrap_small (by omega) (by omega), same]
                split at mapped
                case isTrue fresh =>
                  obtain ⟨signed', grows, equality'⟩ := @addSection64_eq state.result length
                    state.a.newLength state.a.text signed nonneg (by omega)
                  obtain ⟨grows', equality''⟩ := induction (by simpa only using forward)
                    (by simpa only using reached_small) signed' mapped
                  refine ⟨grows.trans grows', fun bounded => ?_⟩
                  rw [if_pos fresh, equality' (grows'.bounded bounded)]
                  exact equality'' bounded
                case isFalse stale =>
                  obtain ⟨signed', grows, equality'⟩ := @addSection64_eq state.result length 0 ""
                    signed nonneg (by omega)
                  obtain ⟨grows', equality''⟩ := induction (by simpa only using forward)
                    (by simpa only using reached_small) signed' mapped
                  refine ⟨grows.trans grows', fun bounded => ?_⟩
                  rw [if_neg stale, equality' (grows'.bounded bounded)]
                  exact equality'' bounded
            case isFalse unchanged =>
              rw [if_neg unchanged]
              split at mapped
              case isTrue finished =>
                cases mapped
                exact ⟨⟨le_rfl, le_rfl⟩, fun _ => if_pos finished⟩
              case isFalse => cases mapped

/-- Where the lengths of the result fit into an `int`, `Map` is what the other files say. -/
theorem ChangeSet.map64_eq {set other result : ChangeSet} {before : Bool}
    (canonical : set.Canonical) (canonical' : other.Canonical)
    (mapped : set.map other before = .ok result) (bounded : result.Bounded) :
    set.map64 other before = .ok result := by
  unfold ChangeSet.map at mapped
  split at mapped
  case isTrue => cases mapped
  case isFalse same =>
    have same := not_not.mp same
    unfold ChangeSet.map64
    rw [oldLen64_eq, oldLen64_eq, same, if_neg (by simp)]
    refine (mapLoop64_eq (SectionIter.small_ofSet canonical) (SectionIter.small_ofSet canonical')
      ?_ mapped).2 bounded
    intro sect member
    cases member

end Oxbin.Livecollab
