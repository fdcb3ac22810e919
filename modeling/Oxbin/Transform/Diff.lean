import Mathlib.Data.List.Basic
import Mathlib.Data.List.Infix

/-!
# The stretch in which two words differ

Two words share a longest prefix, and what is left of them shares a longest suffix.  Replacing the
stretch between the two turns one word into the other.  Every other replacement that does so
writes all the letters that this one writes.
-/

namespace Oxbin.Transform

universe u

variable {α : Type u}

/-- One stretch of a word is replaced by another. -/
structure Replacement (before after front old new back : List α) : Prop where
  before_eq : before = front ++ old ++ back
  after_eq : after = front ++ new ++ back

section Prefix

variable [DecidableEq α]

/-- The length of the longest common prefix. -/
def commonPrefix : List α → List α → Nat
  | first :: left, first' :: right => if first = first' then commonPrefix left right + 1 else 0
  | _, _ => 0

/-- The length of the longest common suffix. -/
def commonSuffix (left right : List α) : Nat := commonPrefix left.reverse right.reverse

theorem take_commonPrefix (left right : List α) :
    left.take (commonPrefix left right) = right.take (commonPrefix left right) := by
  fun_induction commonPrefix left right with
  | case1 first left right induction => rw [List.take_succ_cons, List.take_succ_cons, induction]
  | case2 => rfl
  | case3 => rfl

theorem commonPrefix_le (left right : List α) :
    commonPrefix left right ≤ left.length ∧ commonPrefix left right ≤ right.length := by
  fun_induction commonPrefix left right with
  | case1 first left right induction => simpa using induction
  | case2 => simp
  | case3 => simp

theorem le_commonPrefix {front left right : List α} (inLeft : front <+: left)
    (inRight : front <+: right) : front.length ≤ commonPrefix left right := by
  induction front generalizing left right with
  | nil => simp
  | cons first front induction =>
      obtain ⟨left', rfl⟩ := inLeft
      obtain ⟨right', rfl⟩ := inRight
      simp only [List.cons_append, commonPrefix, if_true, List.length_cons]
      have shorter := @induction (front ++ left') (front ++ right') ⟨left', rfl⟩ ⟨right', rfl⟩
      omega

theorem commonSuffix_le (left right : List α) :
    commonSuffix left right ≤ left.length ∧ commonSuffix left right ≤ right.length := by
  have bounds := commonPrefix_le left.reverse right.reverse
  rwa [List.length_reverse, List.length_reverse] at bounds

theorem drop_commonSuffix (left right : List α) :
    left.drop (left.length - commonSuffix left right) =
      right.drop (right.length - commonSuffix left right) := by
  have shared := take_commonPrefix left.reverse right.reverse
  rw [List.take_reverse, List.take_reverse, List.reverse_inj] at shared
  exact shared

theorem le_commonSuffix {back left right : List α} (inLeft : back <:+ left)
    (inRight : back <:+ right) : back.length ≤ commonSuffix left right := by
  have shared := le_commonPrefix (List.reverse_prefix.mpr inLeft) (List.reverse_prefix.mpr inRight)
  rwa [List.length_reverse] at shared

end Prefix

/-- The replacement between the longest common prefix and the longest common suffix of the
rest. -/
structure Difference (before after front old new back : List α) : Prop
    extends Replacement before after front old new back where
  longest_front : ∀ front', front' <+: before → front' <+: after → front'.length ≤ front.length
  longest_back : ∀ back', back' <:+ old ++ back → back' <:+ new ++ back →
    back'.length ≤ back.length

/-- The prefix and the suffix that two words share cut out their difference. -/
theorem difference_of_common [DecidableEq α] (before after : List α) :
    let front := commonPrefix before after
    let back := commonSuffix (before.drop front) (after.drop front)
    Difference before after (before.take front)
      ((before.take (before.length - back)).drop front)
      ((after.take (after.length - back)).drop front) (before.drop (before.length - back)) := by
  intro front back
  have front_le := commonPrefix_le before after
  have back_le := commonSuffix_le (before.drop front) (after.drop front)
  have shared := drop_commonSuffix (before.drop front) (after.drop front)
  rw [List.length_drop, List.length_drop] at back_le
  rw [List.length_drop, List.length_drop, List.drop_drop, List.drop_drop,
    show front + (before.length - front - back) = before.length - back by omega,
    show front + (after.length - front - back) = after.length - back by omega] at shared
  have before_drop : (before.take (before.length - back)).drop front ++
      before.drop (before.length - back) = before.drop front := by
    rw [List.drop_take, show before.length - back - front = (before.length - front) - back by omega]
    conv_rhs => rw [← List.take_append_drop (before.length - front - back) (before.drop front)]
    rw [List.drop_drop, show front + (before.length - front - back) = before.length - back by omega]
  have after_drop : (after.take (after.length - back)).drop front ++
      after.drop (after.length - back) = after.drop front := by
    rw [List.drop_take, show after.length - back - front = (after.length - front) - back by omega]
    conv_rhs => rw [← List.take_append_drop (after.length - front - back) (after.drop front)]
    rw [List.drop_drop, show front + (after.length - front - back) = after.length - back by omega]
  refine ⟨⟨?_, ?_⟩, fun front' inBefore inAfter => ?_, fun back' inBefore inAfter => ?_⟩
  · rw [List.append_assoc, before_drop, List.take_append_drop]
  · rw [List.append_assoc, shared, after_drop, take_commonPrefix before after,
      List.take_append_drop]
  · rw [List.length_take, min_eq_left front_le.1]
    exact le_commonPrefix inBefore inAfter
  · rw [before_drop] at inBefore
    rw [shared, after_drop] at inAfter
    have longest := le_commonSuffix inBefore inAfter
    rw [List.length_drop]
    omega

/-- Whatever replacement turns one word into the other, it writes the letters of the
difference. -/
theorem Difference.mem_of_replacement {before after front old new back : List α}
    (difference : Difference before after front old new back)
    {front' old' new' back' : List α}
    (replacement : Replacement before after front' old' new' back') {letter : α}
    (member : letter ∈ new) : letter ∈ new' := by
  classical
  have before_eq := difference.before_eq
  have after_eq := difference.after_eq
  -- A difference that drops nothing writes as much of every letter as any replacement adds.
  have counted (empty : old = []) : letter ∈ new' := by
    have before_count := congrArg (List.count letter) (before_eq.symm.trans replacement.before_eq)
    have after_count := congrArg (List.count letter) (after_eq.symm.trans replacement.after_eq)
    simp only [List.count_append, empty, List.count_nil] at before_count after_count
    have positive := List.count_pos_iff.mpr member
    exact List.count_pos_iff.mp (by omega)
  have rest_before : old ++ back <:+ before := ⟨front, by rw [before_eq, List.append_assoc]⟩
  have rest_after : new ++ back <:+ after := ⟨front, by rw [after_eq, List.append_assoc]⟩
  have back_before : back' <:+ before := ⟨front' ++ old', replacement.before_eq.symm⟩
  have back_after : back' <:+ after := ⟨front' ++ new', replacement.after_eq.symm⟩
  have old_shorter (inside : old ++ back <:+ new ++ back) : old = [] := by
    have longest := difference.longest_back _ (List.suffix_refl _) inside
    rw [List.length_append] at longest
    exact List.length_eq_zero_iff.mp (by omega)
  have new_shorter (inside : new ++ back <:+ old ++ back) : new = [] := by
    have longest := difference.longest_back _ inside (List.suffix_refl _)
    rw [List.length_append] at longest
    exact List.length_eq_zero_iff.mp (by omega)
  have overlap (inside : new ++ back <:+ old ++ back) : letter ∈ new' := by
    rw [new_shorter inside] at member
    cases member
  rcases List.suffix_or_suffix_of_suffix back_before rest_before with inOld | outOld
  · rcases List.suffix_or_suffix_of_suffix back_after rest_after with inNew | outNew
    · have back_le := difference.longest_back back' inOld inNew
      have front_before : front' <+: before :=
        ⟨old' ++ back', by rw [replacement.before_eq, List.append_assoc]⟩
      have front_after : front' <+: after :=
        ⟨new' ++ back', by rw [replacement.after_eq, List.append_assoc]⟩
      have longest_after : front <+: after := ⟨new ++ back, by rw [after_eq, List.append_assoc]⟩
      have front_le := difference.longest_front front' front_before front_after
      obtain ⟨gap, rfl⟩ := List.suffix_of_suffix_length_le back_after
        ((List.suffix_append new back).trans rest_after) back_le
      obtain ⟨lead, rfl⟩ := List.prefix_of_prefix_length_le front_after longest_after front_le
      have written := after_eq.symm.trans replacement.after_eq
      rw [show front' ++ lead ++ new ++ (gap ++ back') = front' ++ (lead ++ new ++ gap) ++ back' by
        simp only [List.append_assoc], List.append_left_inj, List.append_right_inj] at written
      rw [← written]
      simp [member]
    · exact overlap (outNew.trans inOld)
  · rcases List.suffix_or_suffix_of_suffix back_after rest_after with inNew | outNew
    · exact counted (old_shorter (outOld.trans inNew))
    · rcases List.suffix_or_suffix_of_suffix outOld outNew with inside | inside
      · exact counted (old_shorter inside)
      · exact overlap inside

end Oxbin.Transform
