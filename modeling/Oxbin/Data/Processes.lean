import Mathlib.Data.List.Basic
import Mathlib.Logic.Function.Basic

/-!
# Processes that share memory

Processes form a list, and a statement of one of them replaces its state.  A mutex is owned by the
process inside the section that the mutex protects, a reference count is the number of the
processes that it counts, and a table lists the entries that processes use.
-/

namespace Oxbin

universe u v w

variable {α : Type u} {processes : List α} {index : Nat} {before after : α}

/-- A statement changes nothing but the process that runs it. -/
theorem getElem?_set_of_getElem? (found : processes[index]? = some before) (other : Nat) :
    (processes.set index after)[other]? =
      if other = index then some after else processes[other]? := by
  obtain ⟨inside, _⟩ := List.getElem?_eq_some_iff.mp found
  rw [List.getElem?_set]
  by_cases same : index = other
  · rw [if_pos same, if_pos same.symm, if_pos (same ▸ inside)]
  · rw [if_neg same, if_neg (Ne.symm same)]

/-- The others stay as they are. -/
theorem mem_set_of_mem {process : α} (found : processes[index]? = some before)
    (member : process ∈ processes) : process = before ∨ process ∈ processes.set index after := by
  obtain ⟨other, found'⟩ := List.getElem?_of_mem member
  by_cases own : other = index
  · rw [own, found, Option.some.injEq] at found'
    exact .inl found'.symm
  · refine .inr (@List.mem_of_getElem? _ _ other _ ?_)
    rw [getElem?_set_of_getElem? found, if_neg own, found']

/-- A process that gives up some of what it has. -/
theorem flatMap_set_sublist {β : Type v} {held : α → List β}
    (found : processes[index]? = some before)
    (less : (held after).Sublist (held before)) :
    ((processes.set index after).flatMap held).Sublist (processes.flatMap held) := by
  induction processes generalizing index with
  | nil => exact List.Sublist.refl _
  | cons process processes induction =>
      cases index with
      | zero =>
          cases found
          exact less.append (List.Sublist.refl _)
      | succ index => exact (List.Sublist.refl _).append (induction found)

/-- The owner of a mutex is the process inside of its section. -/
def Owned (owner : Option Nat) (processes : List α) (inside : α → Prop) : Prop :=
  ∀ index, owner = some index ↔ ∃ process, processes[index]? = some process ∧ inside process

namespace Owned

variable {owner : Option Nat} {inside : α → Prop}

/-- A free mutex, as long as nobody is inside. -/
theorem of_outside (outside : ∀ process ∈ processes, ¬inside process) :
    Owned none processes inside := fun _ =>
  iff_of_false (fun taken => nomatch taken) fun ⟨process, found, enters⟩ =>
    outside process (List.mem_of_getElem? found) enters

/-- The section has room for one process. -/
theorem eq_of_inside (owned : Owned owner processes inside) {other : Nat} {process process' : α}
    (found : processes[index]? = some process) (enters : inside process)
    (found' : processes[other]? = some process') (enters' : inside process') : index = other := by
  have first := (owned index).mpr ⟨process, found, enters⟩
  rw [(owned other).mpr ⟨process', found', enters'⟩] at first
  exact (Option.some.inj first).symm

/-- A free mutex has nobody in its section. -/
theorem outside_of_free (owned : Owned none processes inside)
    (found : processes[index]? = some before) : ¬inside before := fun enters => by
  cases (owned index).mpr ⟨before, found, enters⟩

/-- A new process is outside. -/
theorem push (owned : Owned owner processes inside) (outside : ¬inside after) :
    Owned owner (processes ++ [after]) inside := by
  intro index
  rw [owned index]
  constructor
  · rintro ⟨process, found, enters⟩
    obtain ⟨bound, _⟩ := List.getElem?_eq_some_iff.mp found
    exact ⟨process, by rw [List.getElem?_append_left bound, found], enters⟩
  · rintro ⟨process, found, enters⟩
    rw [List.getElem?_append] at found
    split at found
    · exact ⟨process, found, enters⟩
    · have new := List.mem_singleton.mp (List.mem_of_getElem? found)
      exact absurd (new ▸ enters) outside

/-- A statement that neither enters nor leaves the section. -/
theorem keep (owned : Owned owner processes inside) (found : processes[index]? = some before)
    (same : inside after ↔ inside before) : Owned owner (processes.set index after) inside := by
  intro other
  rw [owned other, getElem?_set_of_getElem? found]
  by_cases own : other = index
  · rw [if_pos own, own, found]
    simp only [Option.some.injEq, exists_eq_left', same]
  · rw [if_neg own]

/-- Locking a free mutex. -/
theorem take (owned : Owned none processes inside) (found : processes[index]? = some before)
    (enters : inside after) : Owned (some index) (processes.set index after) inside := by
  intro other
  rw [getElem?_set_of_getElem? found, Option.some.injEq]
  by_cases own : other = index
  · rw [if_pos own]
    exact iff_of_true own.symm ⟨after, rfl, enters⟩
  · rw [if_neg own]
    refine iff_of_false (Ne.symm own) ?_
    rintro ⟨process, found', enters'⟩
    exact owned.outside_of_free found' enters'

/-- Unlocking a mutex. -/
theorem free (owned : Owned owner processes inside) (found : processes[index]? = some before)
    (entered : inside before) (outside : ¬inside after) :
    Owned none (processes.set index after) inside := by
  intro other
  rw [getElem?_set_of_getElem? found]
  refine iff_of_false (fun taken => nomatch taken) ?_
  rintro ⟨process, found', enters'⟩
  by_cases own : other = index
  · rw [if_pos own, Option.some.injEq] at found'
    exact outside (found' ▸ enters')
  · rw [if_neg own] at found'
    exact own (owned.eq_of_inside found' enters' found entered)

end Owned

/-- The count is the number of the processes that it counts. -/
def Counts (count : Int) (processes : List α) (counted : α → Bool) : Prop :=
  count = processes.countP counted

namespace Counts

variable {count : Int} {counted : α → Bool}

theorem of_uncounted (uncounted : ∀ process ∈ processes, counted process = false) :
    Counts 0 processes counted := by
  rw [Counts, List.countP_eq_zero.mpr fun process member => by simp [uncounted process member]]
  rfl

theorem push (counts : Counts count processes counted) (uncounted : counted after = false) :
    Counts count (processes ++ [after]) counted := by
  rw [Counts, counts, List.countP_append, List.countP_singleton, if_neg (by simp [uncounted])]
  rfl

/-- A statement moves the count by what it adds to its process. -/
theorem set (counts : Counts count processes counted)
    (found : processes[index]? = some before) :
    Counts (count + (if counted after then 1 else 0) - if counted before then 1 else 0)
      (processes.set index after) counted := by
  obtain ⟨bound, at_index⟩ := List.getElem?_eq_some_iff.mp found
  have least := @List.boole_getElem_le_countP _ counted processes index bound
  rw [Counts, counts, List.countP_set bound, at_index]
  rw [at_index] at least
  cases earlier : counted before <;> cases counted after <;>
    simp only [earlier, ↓reduceIte, Bool.false_eq_true] at least ⊢ <;> omega

end Counts

variable {κ : Type v} {β : Type w}

/-- The table has an entry exactly if some process uses it. -/
def Lists (table : κ → Option β) (processes : List α) (used : α → Option (κ × β)) : Prop :=
  ∀ key value, table key = some value ↔
    ∃ index : Nat, ∃ process, processes[index]? = some process ∧ used process = some (key, value)

namespace Lists

variable {table : κ → Option β} {used : α → Option (κ × β)} {key : κ} {value : β}

theorem nil : Lists (fun _ => none) ([] : List α) used := fun _ _ =>
  iff_of_false (fun listed => nomatch listed) fun ⟨_, _, found, _⟩ => by cases found

theorem push (lists : Lists table processes used) (unused : used after = none) :
    Lists table (processes ++ [after]) used := by
  intro key value
  rw [lists key value]
  constructor
  · rintro ⟨index, process, found, uses⟩
    obtain ⟨bound, _⟩ := List.getElem?_eq_some_iff.mp found
    exact ⟨index, process, by rw [List.getElem?_append_left bound, found], uses⟩
  · rintro ⟨index, process, found, uses⟩
    rw [List.getElem?_append] at found
    split at found
    · exact ⟨index, process, found, uses⟩
    · obtain rfl := List.mem_singleton.mp (List.mem_of_getElem? found)
      rw [unused] at uses
      cases uses

/-- Who uses an entry after a statement. -/
theorem exists_set_iff (found : processes[index]? = some before) :
    (∃ other : Nat, ∃ process, (processes.set index after)[other]? = some process ∧
        used process = some (key, value)) ↔
      used after = some (key, value) ∨ ∃ other, other ≠ index ∧
        ∃ process, processes[other]? = some process ∧ used process = some (key, value) := by
  simp only [getElem?_set_of_getElem? found]
  constructor
  · rintro ⟨other, process, found', uses⟩
    by_cases own : other = index
    · rw [if_pos own, Option.some.injEq] at found'
      exact .inl (found' ▸ uses)
    · rw [if_neg own] at found'
      exact .inr ⟨other, own, process, found', uses⟩
  · rintro (uses | ⟨other, apart, process, found', uses⟩)
    · exact ⟨index, after, if_pos rfl, uses⟩
    · exact ⟨other, process, by rw [if_neg apart, found'], uses⟩

/-- Who uses an entry before a statement. -/
theorem exists_iff (found : processes[index]? = some before) :
    (∃ other : Nat, ∃ process, processes[other]? = some process ∧
        used process = some (key, value)) ↔
      used before = some (key, value) ∨ ∃ other, other ≠ index ∧
        ∃ process, processes[other]? = some process ∧ used process = some (key, value) := by
  constructor
  · rintro ⟨other, process, found', uses⟩
    by_cases own : other = index
    · rw [own, found, Option.some.injEq] at found'
      exact .inl (found' ▸ uses)
    · exact .inr ⟨other, own, process, found', uses⟩
  · rintro (uses | ⟨other, _, process, found', uses⟩)
    · exact ⟨index, before, found, uses⟩
    · exact ⟨other, process, found', uses⟩

/-- A statement that uses what it used before. -/
theorem keep (lists : Lists table processes used) (found : processes[index]? = some before)
    (same : used after = used before) : Lists table (processes.set index after) used := by
  intro key value
  rw [lists key value, exists_set_iff found, exists_iff found, same]

/-- A process begins to use an entry of the table. -/
theorem join (lists : Lists table processes used) (found : processes[index]? = some before)
    (unused : used before = none) (uses : used after = some (key, value))
    (listed : table key = some value) : Lists table (processes.set index after) used := by
  intro other result
  rw [exists_set_iff found, uses, Option.some.injEq, Prod.mk.injEq]
  have earlier := lists other result
  rw [exists_iff found, unused] at earlier
  constructor
  · intro entry
    rcases earlier.mp entry with none | others
    · cases none
    · exact .inr others
  · rintro (⟨rfl, rfl⟩ | others)
    · exact listed
    · exact earlier.mpr (.inr others)

/-- A process is done with an entry that another one still uses. -/
theorem leave (lists : Lists table processes used) (found : processes[index]? = some before)
    (uses : used before = some (key, value)) (unused : used after = none)
    (others : ∃ other, other ≠ index ∧
      ∃ process, processes[other]? = some process ∧ used process = some (key, value)) :
    Lists table (processes.set index after) used := by
  intro other result
  rw [lists other result, exists_iff found, exists_set_iff found, uses, unused]
  constructor
  · rintro (same | still)
    · cases same
      exact .inr others
    · exact .inr still
  · rintro (none | still)
    · cases none
    · exact .inr still

variable [DecidableEq κ]

/-- A process makes an entry. -/
theorem add (lists : Lists table processes used) (found : processes[index]? = some before)
    (unused : used before = none) (uses : used after = some (key, value))
    (missing : table key = none) :
    Lists (Function.update table key (some value)) (processes.set index after) used := by
  intro other result
  rw [exists_set_iff found, uses, Option.some.injEq, Prod.mk.injEq, Function.update_apply]
  have earlier := lists other result
  rw [exists_iff found, unused] at earlier
  split
  case isTrue same =>
    rw [same, missing] at earlier
    rw [same, Option.some.injEq]
    constructor
    · exact fun equality => .inl ⟨rfl, equality⟩
    · rintro (⟨_, equality⟩ | others)
      · exact equality
      · cases earlier.mpr (.inr others)
  case isFalse apart =>
    rw [earlier]
    constructor
    · rintro (none | others)
      · cases none
      · exact .inr others
    · rintro (⟨same, _⟩ | others)
      · exact absurd same.symm apart
      · exact .inr others

/-- A process is done with an entry that nobody else uses. -/
theorem remove (lists : Lists table processes used) (found : processes[index]? = some before)
    (uses : used before = some (key, value)) (unused : used after = none)
    (alone : ∀ other, other ≠ index →
      ∀ process, processes[other]? = some process → used process ≠ some (key, value)) :
    Lists (Function.update table key none) (processes.set index after) used := by
  intro other result
  rw [exists_set_iff found, unused, Function.update_apply]
  have earlier := lists other result
  rw [exists_iff found, uses, Option.some.injEq, Prod.mk.injEq] at earlier
  split
  case isTrue same =>
    refine iff_of_false (fun listed => nomatch listed) ?_
    rintro (none | ⟨place, apart, process, found', uses'⟩)
    · cases none
    · have listed := (lists other result).mpr ⟨place, process, found', uses'⟩
      rw [same, (lists key value).mpr ⟨index, before, found, uses⟩, Option.some.injEq] at listed
      exact alone place apart process found' (by rw [uses', same, listed])
  case isFalse apart =>
    rw [earlier]
    constructor
    · rintro (⟨same, _⟩ | others)
      · exact absurd same.symm apart
      · exact .inr others
    · rintro (none | others)
      · cases none
      · exact .inr others

end Lists

end Oxbin
