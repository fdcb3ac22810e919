import Mathlib.Data.List.Basic
import Mathlib.Data.List.Infix

/-!
# Documents of the editor

The editor keeps a document as lines.  A string that is loaded or inserted is split at every line
break that the editor knows, and every break counts one code unit from then on.
-/

namespace Oxbin.CodeMirror

/-- The code unit of `\n`. -/
def lineFeed : UInt16 := 10

/-- The code unit of `\r`. -/
def carriageReturn : UInt16 := 13

/-- Put a unit in front of the first line. -/
def extend (unit : UInt16) : List (List UInt16) → List (List UInt16)
  | [] => [[unit]]
  | line :: lines => (unit :: line) :: lines

/-- `split("\n")`. -/
def splitFeeds : List UInt16 → List (List UInt16)
  | [] => [[]]
  | unit :: units =>
      if unit = lineFeed then [] :: splitFeeds units else extend unit (splitFeeds units)

/-- `split` with the editor's `DefaultSplit`, which takes `\r\n`, `\r` and `\n` for breaks. -/
def splitLines : List UInt16 → List (List UInt16)
  | [] => [[]]
  | [unit] => if unit = carriageReturn ∨ unit = lineFeed then [[], []] else [[unit]]
  | unit :: next :: units =>
      if unit = carriageReturn ∧ next = lineFeed then [] :: splitLines units
      else if unit = carriageReturn ∨ unit = lineFeed then [] :: splitLines (next :: units)
      else extend unit (splitLines (next :: units))

/-- The string of a `Text` with the given lines. -/
def joinLines : List (List UInt16) → List UInt16
  | [] => []
  | [line] => line
  | line :: next :: lines => line ++ lineFeed :: joinLines (next :: lines)

/-- The document that the editor makes of a string. -/
def breakLines (content : List UInt16) : List UInt16 := joinLines (splitLines content)

theorem joinLines_nil_cons {lines : List (List UInt16)} (nonempty : lines ≠ []) :
    joinLines ([] :: lines) = lineFeed :: joinLines lines := by
  cases lines with
  | nil => exact absurd rfl nonempty
  | cons line lines => rfl

theorem joinLines_extend (unit : UInt16) (lines : List (List UInt16)) :
    joinLines (extend unit lines) = unit :: joinLines lines := by
  match lines with
  | [] | [_] | _ :: _ :: _ => rfl

theorem extend_ne_nil (unit : UInt16) (lines : List (List UInt16)) : extend unit lines ≠ [] := by
  cases lines <;> simp [extend]

theorem splitFeeds_ne_nil (content : List UInt16) : splitFeeds content ≠ [] := by
  cases content with
  | nil => simp [splitFeeds]
  | cons unit units =>
      rw [splitFeeds]
      split
      · simp
      · exact extend_ne_nil _ _

theorem splitLines_ne_nil (content : List UInt16) : splitLines content ≠ [] := by
  fun_cases splitLines content <;> simp [extend_ne_nil]

/-- Split at `\n` only, a string is kept as it is. -/
@[simp] theorem joinLines_splitFeeds (content : List UInt16) :
    joinLines (splitFeeds content) = content := by
  induction content with
  | nil => rfl
  | cons unit units induction =>
      rw [splitFeeds]
      split
      case isTrue feed => rw [joinLines_nil_cons (splitFeeds_ne_nil units), induction, feed]
      case isFalse => rw [joinLines_extend, induction]

@[simp] theorem breakLines_nil : breakLines [] = [] := rfl

theorem breakLines_pair (units : List UInt16) :
    breakLines (carriageReturn :: lineFeed :: units) = lineFeed :: breakLines units := by
  rw [breakLines, splitLines, if_pos ⟨rfl, rfl⟩, joinLines_nil_cons (splitLines_ne_nil units)]
  rfl

theorem breakLines_break {unit : UInt16} {units : List UInt16}
    (isBreak : unit = carriageReturn ∨ unit = lineFeed)
    (alone : unit = carriageReturn → units.head? ≠ some lineFeed) :
    breakLines (unit :: units) = lineFeed :: breakLines units := by
  cases units with
  | nil => rw [breakLines, splitLines, if_pos isBreak]; rfl
  | cons next units =>
      have single : ¬(unit = carriageReturn ∧ next = lineFeed) := by
        rintro ⟨same, rfl⟩
        exact alone same rfl
      rw [breakLines, splitLines, if_neg single, if_pos isBreak,
        joinLines_nil_cons (splitLines_ne_nil _)]
      rfl

theorem breakLines_other {unit : UInt16} {units : List UInt16}
    (other : ¬(unit = carriageReturn ∨ unit = lineFeed)) :
    breakLines (unit :: units) = unit :: breakLines units := by
  cases units with
  | nil => rw [breakLines, splitLines, if_neg other]; rfl
  | cons next units =>
      rw [breakLines, splitLines, if_neg fun pair => other (.inl pair.1), if_neg other,
        joinLines_extend]
      rfl

/-- The document has no `\r`. -/
theorem not_mem_breakLines (content : List UInt16) : carriageReturn ∉ breakLines content := by
  have feed_ne : carriageReturn ≠ lineFeed := by decide
  fun_induction splitLines content with
  | case1 => simp
  | case2 unit isBreak => rw [breakLines_break isBreak fun _ => by simp]; simp [feed_ne]
  | case3 unit other =>
      rw [breakLines_other other]
      simpa using fun same => other (.inl same.symm)
  | case4 unit next units pair induction =>
      rw [pair.1, pair.2, breakLines_pair]
      simpa [feed_ne] using induction
  | case5 unit next units single isBreak induction =>
      have alone : unit = carriageReturn → (next :: units).head? ≠ some lineFeed :=
        fun same feed => single ⟨same, Option.some.inj feed⟩
      rw [breakLines_break isBreak alone]
      simpa [feed_ne] using induction
  | case6 unit next units single other induction =>
      rw [breakLines_other other]
      simpa [induction] using fun same => other (.inl same.symm)

/-- The string is the document that the editor makes of it exactly if it has no `\r`. -/
theorem breakLines_eq_self_iff {content : List UInt16} :
    breakLines content = content ↔ carriageReturn ∉ content := by
  constructor
  · intro same
    rw [← same]
    exact not_mem_breakLines content
  · intro clean
    induction content with
    | nil => rfl
    | cons unit units induction =>
        rw [List.mem_cons, not_or] at clean
        have tail := induction clean.2
        by_cases feed : unit = lineFeed
        · rw [breakLines_break (.inr feed) fun same => absurd same.symm clean.1, tail, feed]
        · rw [breakLines_other (by tauto), tail]

/-- A `\r` directly in front of a `\n`. -/
def HasBreakPair (content : List UInt16) : Prop := [carriageReturn, lineFeed] <:+: content

instance (content : List UInt16) : Decidable (HasBreakPair content) :=
  inferInstanceAs (Decidable (_ <:+: _))

theorem hasBreakPair_cons {unit : UInt16} {units : List UInt16} :
    HasBreakPair (unit :: units) ↔
      unit = carriageReturn ∧ units.head? = some lineFeed ∨ HasBreakPair units := by
  rw [HasBreakPair, List.infix_cons_iff, List.cons_prefix_cons]
  refine or_congr_left (and_congr eq_comm ?_)
  cases units with
  | nil => simp
  | cons next units => simp [List.cons_prefix_cons, eq_comm]

/-- The document is never longer than the string. -/
theorem length_breakLines_le (content : List UInt16) :
    (breakLines content).length ≤ content.length := by
  fun_induction splitLines content with
  | case1 => simp
  | case2 unit isBreak => rw [breakLines_break isBreak fun _ => by simp]; simp
  | case3 unit other => rw [breakLines_other other]; simp
  | case4 unit next units pair induction =>
      rw [pair.1, pair.2, breakLines_pair]
      simp only [List.length_cons]
      omega
  | case5 unit next units single isBreak induction =>
      have alone : unit = carriageReturn → (next :: units).head? ≠ some lineFeed :=
        fun same feed => single ⟨same, Option.some.inj feed⟩
      rw [breakLines_break isBreak alone]
      simpa using induction
  | case6 unit next units single other induction =>
      rw [breakLines_other other]
      simpa using induction

/-- The document is as long as the string exactly if the string has no `\r\n`. -/
theorem length_breakLines_eq_iff {content : List UInt16} :
    (breakLines content).length = content.length ↔ ¬HasBreakPair content := by
  have feed_ne : ¬lineFeed = carriageReturn := by decide
  fun_induction splitLines content with
  | case1 => simp [HasBreakPair]
  | case2 unit isBreak =>
      rw [breakLines_break isBreak fun _ => by simp, hasBreakPair_cons]
      simp [HasBreakPair]
  | case3 unit other =>
      rw [breakLines_other other, hasBreakPair_cons]
      simp [HasBreakPair]
  | case4 unit next units pair induction =>
      have shorter := length_breakLines_le units
      rw [pair.1, pair.2, breakLines_pair]
      refine iff_of_false ?_ (not_not.mpr (hasBreakPair_cons.mpr (.inl ⟨rfl, rfl⟩)))
      simp only [List.length_cons]
      omega
  | case5 unit next units single isBreak induction =>
      have alone : unit = carriageReturn → (next :: units).head? ≠ some lineFeed :=
        fun same feed => single ⟨same, Option.some.inj feed⟩
      rw [breakLines_break isBreak alone, hasBreakPair_cons, List.length_cons, List.length_cons,
        Nat.add_right_cancel_iff]
      exact induction.trans (not_congr (by tauto))
  | case6 unit next units single other induction =>
      rw [breakLines_other other, hasBreakPair_cons, List.length_cons, List.length_cons,
        Nat.add_right_cancel_iff]
      exact induction.trans (not_congr (by tauto))

end Oxbin.CodeMirror
