import Mathlib.Algebra.Order.Field.Basic
import Mathlib.Algebra.Order.Ring.Rat
import Mathlib.Tactic.Linarith
import Mathlib.Tactic.Positivity

/-!
# Vessels that refill

A vessel of some capacity is refilled at a constant rate until it is full.  What is drawn from it
during an interval is bounded by its capacity and what flows in.
-/

namespace Oxbin

universe u v w

variable {K : Type u} [Field K] [LinearOrder K]

/-- The level after some time. -/
def refill (capacity flow level elapsed : K) : K := min capacity (level + elapsed * flow)

variable {capacity flow level elapsed later : K}

theorem refill_le_capacity : refill capacity flow level elapsed ≤ capacity := min_le_left _ _

/-- A vessel is full once enough has flown in. -/
theorem refill_eq_capacity (enough : capacity ≤ level + elapsed * flow) :
    refill capacity flow level elapsed = capacity := min_eq_left enough

/-- An amount has flown in exactly if it fits the vessel and the time suffices. -/
theorem le_refill_iff {amount : K} : amount ≤ refill capacity flow level elapsed ↔
    amount ≤ capacity ∧ amount ≤ level + elapsed * flow := le_min_iff

variable [IsStrictOrderedRing K]

theorem refill_nonneg (capacity_nonneg : 0 ≤ capacity) (flow_nonneg : 0 ≤ flow)
    (level_nonneg : 0 ≤ level) (elapsed_nonneg : 0 ≤ elapsed) :
    0 ≤ refill capacity flow level elapsed :=
  le_min capacity_nonneg (by positivity)

/-- No more flows in than the time allows. -/
theorem refill_le_add (flow_nonneg : 0 ≤ flow) (ordered : elapsed ≤ later) :
    refill capacity flow level later ≤ refill capacity flow level elapsed +
      (later - elapsed) * flow := by
  have inflow : 0 ≤ (later - elapsed) * flow := mul_nonneg (sub_nonneg.mpr ordered) flow_nonneg
  rw [refill, refill, min_add]
  apply le_min
  · exact min_le_of_left_le (by linarith)
  · exact min_le_of_right_le (by linarith)

/-! ## Runs that draw from a vessel -/

/-- A system whose actions draw from a vessel. -/
structure Meter (State : Type v) (Action : Type w) (K : Type u) where
  step : State → Action → State
  time : Action → K
  draw : State → Action → K
  level : State → K → K

namespace Meter

variable {State : Type v} {Action : Type w}

/-- What the actions of a run draw from `start` to `stop`. -/
def drawn (meter : Meter State Action K) (start stop : K) : State → List Action → K
  | _, [] => 0
  | state, action :: actions =>
      (if start ≤ meter.time action ∧ meter.time action ≤ stop then meter.draw state action
        else 0) + drawn meter start stop (meter.step state action) actions

/-- A run forward in time whose actions are all admitted. -/
def Runs (meter : Meter State Action K) (Admitted : State → Action → Prop) :
    K → State → List Action → Prop
  | _, _, [] => True
  | clock, state, action :: actions => clock ≤ meter.time action ∧ Admitted state action ∧
      Runs meter Admitted (meter.time action) (meter.step state action) actions

/-- What is drawn is taken from the vessel, which only the inflow fills. -/
structure Conserves (meter : Meter State Action K) (Admitted : State → Action → Prop)
    (Valid : State → K → Prop) (capacity flow : K) : Prop where
  flow_nonneg : 0 ≤ flow
  level_le : ∀ state time, meter.level state time ≤ capacity
  level_nonneg : ∀ {state clock time}, Valid state clock → clock ≤ time → 0 ≤ meter.level state time
  inflow : ∀ state {time later}, time ≤ later →
    meter.level state later ≤ meter.level state time + (later - time) * flow
  draw_nonneg : ∀ state action, 0 ≤ meter.draw state action
  step : ∀ {state clock action}, Valid state clock → clock ≤ meter.time action →
    Admitted state action → Valid (meter.step state action) (meter.time action) ∧
      meter.level (meter.step state action) (meter.time action) + meter.draw state action ≤
        meter.level state (meter.time action)

variable {meter : Meter State Action K} {Admitted : State → Action → Prop}
  {Valid : State → K → Prop} {start stop clock : K} {state : State} {actions : List Action}

omit [Field K] [IsStrictOrderedRing K] in
/-- A run begins before its last action. -/
theorem Runs.le_last {action : Action}
    (runs : meter.Runs Admitted clock state (actions ++ [action])) : clock ≤ meter.time action := by
  induction actions generalizing clock state with
  | nil => exact runs.1
  | cons first actions induction => exact runs.1.trans (induction runs.2.2)

omit [IsStrictOrderedRing K] in
/-- After an interval nothing is drawn in it. -/
theorem drawn_of_late (late : stop < clock) (runs : meter.Runs Admitted clock state actions) :
    meter.drawn start stop state actions = 0 := by
  induction actions generalizing clock state with
  | nil => rfl
  | cons action actions induction =>
      obtain ⟨ordered, -, rest⟩ := runs
      have past : stop < meter.time action := late.trans_le ordered
      rw [drawn, if_neg fun inside => absurd inside.2 (not_le.mpr past), zero_add]
      exact induction past rest

/-- From some time on no more is drawn than the vessel holds and what flows in. -/
theorem drawn_le_level (conserves : meter.Conserves Admitted Valid capacity flow)
    (valid : Valid state clock) (runs : meter.Runs Admitted clock state actions)
    (ordered : clock ≤ stop) :
    meter.drawn start stop state actions ≤ meter.level state clock + (stop - clock) * flow := by
  induction actions generalizing clock state with
  | nil =>
      have level := conserves.level_nonneg valid (le_refl clock)
      have inflow := mul_nonneg (sub_nonneg.mpr ordered) conserves.flow_nonneg
      exact add_nonneg level inflow
  | cons action actions induction =>
      obtain ⟨forward, admitted, rest⟩ := runs
      obtain ⟨valid', taken⟩ := conserves.step valid forward admitted
      have refilled := conserves.inflow state forward
      have drawn_nonneg := conserves.draw_nonneg state action
      by_cases late : stop < meter.time action
      · have nothing : meter.drawn start stop state (action :: actions) = 0 := by
          rw [drawn, if_neg fun inside => absurd inside.2 (not_le.mpr late), zero_add,
            drawn_of_late late rest]
        have level := conserves.level_nonneg valid (le_refl clock)
        have inflow := mul_nonneg (sub_nonneg.mpr ordered) conserves.flow_nonneg
        rw [nothing]
        exact add_nonneg level inflow
      · have remaining := induction valid' rest (not_lt.mp late)
        have counted : (if start ≤ meter.time action ∧ meter.time action ≤ stop then
            meter.draw state action else 0) ≤ meter.draw state action := by
          split
          · exact le_refl _
          · exact drawn_nonneg
        rw [drawn]
        linarith

/-- In no interval more is drawn than the capacity and what flows in. -/
theorem drawn_le (conserves : meter.Conserves Admitted Valid capacity flow)
    (valid : Valid state clock) (runs : meter.Runs Admitted clock state actions)
    (ordered : start ≤ stop) (capacity_nonneg : 0 ≤ capacity) :
    meter.drawn start stop state actions ≤ capacity + (stop - start) * flow := by
  have bound_nonneg : 0 ≤ capacity + (stop - start) * flow :=
    add_nonneg capacity_nonneg (mul_nonneg (sub_nonneg.mpr ordered) conserves.flow_nonneg)
  induction actions generalizing clock state with
  | nil => exact bound_nonneg
  | cons action actions induction =>
      obtain ⟨forward, admitted, rest⟩ := runs
      by_cases early : meter.time action < start
      · rw [drawn, if_neg fun inside => absurd inside.1 (not_le.mpr early), zero_add]
        exact induction (conserves.step valid forward admitted).1 rest
      have inside : start ≤ meter.time action := not_lt.mp early
      by_cases late : stop < meter.time action
      · rw [drawn, if_neg fun inside => absurd inside.2 (not_le.mpr late), zero_add,
          drawn_of_late late rest]
        exact bound_nonneg
      · obtain ⟨valid', taken⟩ := conserves.step valid forward admitted
        have remaining : meter.drawn start stop (meter.step state action) actions ≤ _ :=
          drawn_le_level conserves valid' rest (not_lt.mp late)
        have full := conserves.level_le state (meter.time action)
        have shorter : (stop - meter.time action) * flow ≤ (stop - start) * flow :=
          mul_le_mul_of_nonneg_right (by linarith) conserves.flow_nonneg
        rw [drawn, if_pos ⟨inside, not_lt.mp late⟩]
        linarith

end Meter

end Oxbin
