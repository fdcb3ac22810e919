import Mathlib.Data.Int.Range
import Mathlib.Data.List.Sort
import Mathlib.Tactic.Ring

/-!
# Lists of consecutive numbers

A log numbers its entries one after the other, appends at the end and drops what is older than a
watermark.  The numbers that it keeps are those after some number up to the latest one.
-/

namespace Oxbin

/-- The numbers after `low` up to `high`, each of them once. -/
structure Spans (low high : Int) (numbers : List Int) : Prop where
  ordered : low ≤ high
  nodup : numbers.Nodup
  mem : ∀ number, number ∈ numbers ↔ low < number ∧ number ≤ high

namespace Spans

variable {low high : Int} {numbers : List Int}

theorem nil (high : Int) : Spans high high [] where
  ordered := le_rfl
  nodup := List.nodup_nil
  mem number := by
    constructor
    · intro member
      cases member
    · intro between
      omega

/-- The next number is appended. -/
theorem next (spans : Spans low high numbers) : Spans low (high + 1) (numbers ++ [high + 1]) where
  ordered := spans.ordered.trans (by omega)
  nodup := by
    apply List.nodup_append.mpr
    refine ⟨spans.nodup, List.nodup_singleton _, ?_⟩
    intro number member last final same
    have bound := ((spans.mem number).mp member).2
    have latest := List.mem_singleton.mp final
    omega
  mem number := by
    rw [List.mem_append, List.mem_singleton, spans.mem]
    have ordered := spans.ordered
    omega

/-- The numbers up to a watermark are dropped. -/
theorem drop (spans : Spans low high numbers) {through : Int} (within : through ≤ high) :
    Spans (max low through) high (numbers.filter fun number => through < number) where
  ordered := max_le spans.ordered within
  nodup := spans.nodup.filter _
  mem number := by
    rw [List.mem_filter, spans.mem, decide_eq_true_eq]
    omega

/-- The least number, or the one after the latest if there is none. -/
theorem minimum (spans : Spans low high numbers) :
    numbers.min?.getD (high + 1) = low + 1 := by
  cases least : numbers.min? with
  | none =>
      rw [List.min?_eq_none_iff] at least
      have empty : ¬ (low < high ∧ high ≤ high) := by
        rw [← spans.mem, least]
        exact List.not_mem_nil
      have ordered := spans.ordered
      rw [Option.getD_none]
      omega
  | some number =>
      obtain ⟨member, least⟩ := List.min?_eq_some_iff.mp least
      obtain ⟨above, below⟩ := (spans.mem number).mp member
      have first := least (low + 1) ((spans.mem _).mpr ⟨by omega, by omega⟩)
      rw [Option.getD_some]
      omega

theorem pairwise_range (low high : Int) : (Int.range low high).Pairwise (· < ·) := by
  rw [Int.range, List.pairwise_map]
  exact List.pairwise_lt_range.imp fun less => by omega

/-- In increasing order the numbers after one of them follow each other. -/
theorem sorted {α : Type} (spans : Spans low high numbers) {since : Int} (retained : low ≤ since)
    {entries : List α} {measure : α → Int} (listed : entries.map measure = numbers) :
    ((entries.filter fun entry => since < measure entry).insertionSort fun left right =>
      measure left ≤ measure right).map measure = Int.range (since + 1) (high + 1) := by
  have total : Std.Total fun left right : α => measure left ≤ measure right :=
    ⟨fun left right => le_total (measure left) (measure right)⟩
  have trans : IsTrans α fun left right => measure left ≤ measure right :=
    ⟨fun _ _ _ => le_trans⟩
  have ascending := List.pairwise_insertionSort (fun left right : α => measure left ≤ measure right)
    (entries.filter fun entry => since < measure entry)
  have same := (List.perm_insertionSort (fun left right : α => measure left ≤ measure right)
    (entries.filter fun entry => since < measure entry)).map measure
  have newer : (entries.filter fun entry => since < measure entry).map measure =
      numbers.filter fun number => since < number := by
    rw [← listed, List.filter_map]
    rfl
  rw [newer] at same
  have range := pairwise_range (since + 1) (high + 1)
  refine @List.Perm.eq_of_pairwise _ (· ≤ ·) _ _ ?_ (List.pairwise_map.mpr ascending)
    (range.imp le_of_lt) (same.trans ?_)
  · intro left right _ _ below above
    exact le_antisymm below above
  · refine (List.perm_ext_iff_of_nodup (spans.nodup.filter _) (range.imp ne_of_lt)).mpr ?_
    intro number
    rw [List.mem_filter, spans.mem, decide_eq_true_eq, Int.mem_range_iff]
    omega

end Spans

end Oxbin
