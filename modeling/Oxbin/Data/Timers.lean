import Mathlib.Data.List.Nodup
import Mathlib.Data.List.Perm.Basic

/-!
# Timers of a browser

`setTimeout` arms a callback under an ID that was not used before, and `clearTimeout` disarms it.
An armed callback runs at most once; when it does is left open.
-/

namespace Oxbin

/-- The armed callbacks by their IDs, and the ID of the next one. -/
structure Timers (α : Type) where
  next : Nat
  armed : List (Nat × α)
  fresh : ∀ timer ∈ armed, timer.1 < next
  unique : (armed.map Prod.fst).Nodup

namespace Timers

variable {α : Type}

/-- No timer was ever armed. -/
def none : Timers α := ⟨0, [], by simp, List.nodup_nil⟩

/-- `setTimeout`; the ID of the timer is `timers.next`. -/
def set (timers : Timers α) (callback : α) : Timers α where
  next := timers.next + 1
  armed := (timers.next, callback) :: timers.armed
  fresh := by
    intro timer member
    rcases List.mem_cons.mp member with rfl | old
    · exact Nat.lt_succ_self _
    · exact Nat.lt_succ_of_lt (timers.fresh timer old)
  unique := by
    rw [List.map_cons, List.nodup_cons]
    refine ⟨fun old => ?_, timers.unique⟩
    obtain ⟨timer, member, same⟩ := List.mem_map.mp old
    exact absurd same (Nat.ne_of_lt (timers.fresh timer member))

/-- `clearTimeout`; a timer that is not armed stays so. -/
def clear (timers : Timers α) (id : Nat) : Timers α where
  next := timers.next
  armed := timers.armed.filter fun timer => timer.1 ≠ id
  fresh timer member := timers.fresh timer (List.mem_filter.mp member).1
  unique := timers.unique.sublist (List.filter_sublist.map Prod.fst)

/-- `clearTimeout` of the timer that a field holds. -/
def clear? (timers : Timers α) : Option Nat → Timers α
  | Option.none => timers
  | some id => timers.clear id

/-- The callback of an armed timer. -/
def callback? (timers : Timers α) (id : Nat) : Option α :=
  (timers.armed.find? fun timer => timer.1 == id).map Prod.snd

/-- The timer is armed with the callback. -/
def Armed (timers : Timers α) (id : Nat) (callback : α) : Prop := (id, callback) ∈ timers.armed

/-- The IDs of the armed timers whose callbacks satisfy a condition. -/
def held (timers : Timers α) (condition : α → Bool) : List Nat :=
  (timers.armed.filter fun timer => condition timer.2).map Prod.fst

@[simp] theorem next_set (timers : Timers α) (callback : α) :
    (timers.set callback).next = timers.next + 1 := rfl

@[simp] theorem next_clear (timers : Timers α) (id : Nat) :
    (timers.clear id).next = timers.next := rfl

@[simp] theorem next_clear? (timers : Timers α) (id : Option Nat) :
    (timers.clear? id).next = timers.next := by
  cases id <;> rfl

@[simp] theorem not_armed_none (id : Nat) (callback : α) :
    ¬(none : Timers α).Armed id callback := List.not_mem_nil

@[simp] theorem armed_set {timers : Timers α} {id : Nat} {callback other : α} :
    (timers.set callback).Armed id other ↔
      id = timers.next ∧ other = callback ∨ timers.Armed id other := by
  unfold Armed set
  rw [List.mem_cons, Prod.mk.injEq]

@[simp] theorem armed_clear {timers : Timers α} {id other : Nat} {callback : α} :
    (timers.clear id).Armed other callback ↔ timers.Armed other callback ∧ other ≠ id := by
  unfold Armed clear
  rw [List.mem_filter, decide_eq_true_eq]

theorem Armed.lt {timers : Timers α} {id : Nat} {callback : α} (armed : timers.Armed id callback) :
    id < timers.next := timers.fresh _ armed

theorem Armed.unique {timers : Timers α} {id : Nat} {callback other : α}
    (armed : timers.Armed id callback) (armed' : timers.Armed id other) : callback = other :=
  congrArg Prod.snd (List.inj_on_of_nodup_map timers.unique armed armed' rfl)

theorem armed_of_callback? {timers : Timers α} {id : Nat} {callback : α}
    (found : timers.callback? id = some callback) : timers.Armed id callback := by
  obtain ⟨⟨other, callback'⟩, first, rfl⟩ := Option.map_eq_some_iff.mp found
  have same : other = id := by simpa using List.find?_some first
  subst same
  exact List.mem_of_find?_eq_some first

theorem Armed.callback?_eq {timers : Timers α} {id : Nat} {callback : α}
    (armed : timers.Armed id callback) : timers.callback? id = some callback := by
  obtain ⟨timer, found⟩ :
      ∃ timer, timers.armed.find? (fun timer => timer.1 == id) = some timer := by
    rw [← Option.isSome_iff_exists, List.find?_isSome]
    exact ⟨(id, callback), armed, by simp⟩
  have called : timers.callback? id = some timer.2 := by
    rw [callback?, found]
    rfl
  rw [called, (armed_of_callback? called).unique armed]

@[simp] theorem held_none (condition : α → Bool) : (none : Timers α).held condition = [] := rfl

theorem held_set (timers : Timers α) (callback : α) (condition : α → Bool) :
    (timers.set callback).held condition =
      if condition callback then timers.next :: timers.held condition
      else timers.held condition := by
  unfold held set
  rw [List.filter_cons]
  split
  next => rfl
  next => rfl

theorem held_clear (timers : Timers α) (id : Nat) (condition : α → Bool) :
    (timers.clear id).held condition = (timers.held condition).filter (· ≠ id) := by
  unfold held clear
  rw [List.filter_map, List.filter_filter, List.filter_filter]
  congr 1
  apply List.filter_congr
  intro timer _
  rw [Bool.and_comm]
  rfl

theorem lt_of_mem_held {timers : Timers α} {condition : α → Bool} {id : Nat}
    (member : id ∈ timers.held condition) : id < timers.next := by
  obtain ⟨timer, kept, rfl⟩ := List.mem_map.mp member
  exact timers.fresh timer (List.mem_filter.mp kept).1

theorem mem_held {timers : Timers α} {condition : α → Bool} {id : Nat} :
    id ∈ timers.held condition ↔
      ∃ callback, timers.Armed id callback ∧ condition callback = true := by
  unfold held Armed
  simp

/-- An armed timer is held under the conditions that its callback satisfies. -/
theorem Armed.mem_held_iff {timers : Timers α} {condition : α → Bool} {id : Nat} {callback : α}
    (armed : timers.Armed id callback) :
    id ∈ timers.held condition ↔ condition callback = true := by
  rw [mem_held]
  constructor
  · rintro ⟨other, armed', holds⟩
    rwa [armed.unique armed']
  · intro holds
    exact ⟨callback, armed, holds⟩

end Timers

end Oxbin
