import Oxbin.Ratelimit.Window

/-!
# Waiting after a denial

A denied call is allowed after the announced wait exactly if rounding did not shorten the wait below
the time that the bucket takes to refill.
-/

namespace Oxbin.Ratelimit

/-- Waiting a number of whole seconds is enough, or makes the bucket stale. -/
def Covered (staleAfter : Int) (need : ℚ) : Prop :=
  need ≤ second ∨ staleAfter ≤ need ∨ need = ⌊need⌋ ∧ ⌊need⌋ % second = 0 ∨
    second ≤ 2 * (⌊need⌋ % second)

instance (staleAfter : Int) (need : ℚ) : Decidable (Covered staleAfter need) :=
  inferInstanceAs (Decidable (_ ∨ _ ∨ _ ∨ _))

namespace Registry

variable {registry : Registry} {rate : Rate} {key : Key}

/-- The time that a bucket takes to fill up to what a call asks for. -/
def need (registry : Registry) (rate : Rate) (key : Key) (cost now : Int) : ℚ :=
  (paid cost - registry.available rate key now) / rate.count * rate.window

end Registry

/-! ## Rounding -/

/-- The header `Retry-After` for a bucket that takes some time to fill up. -/
def header (need : ℚ) : Int :=
  retryHeader (Registry.round (if ⌊need⌋ < second then second else ⌊need⌋) second)

variable {need : ℚ}

theorem header_of_short (short : ⌊need⌋ < second) : header need = 1 := by
  rw [header, if_pos short]
  decide

/-- Below half a second the wait is rounded down. -/
theorem header_of_down (long : second ≤ ⌊need⌋) (down : 2 * (⌊need⌋ % second) < second) :
    header need * second = ⌊need⌋ - ⌊need⌋ % second := by
  have whole := Int.mul_ediv_add_emod ⌊need⌋ second
  have rounded : Registry.round ⌊need⌋ second = ⌊need⌋ / second * second := by
    rw [Registry.round, if_pos (by omega)]
    linarith
  have positive : 1 ≤ ⌊need⌋ / second := Int.le_ediv_of_mul_le (by decide) (by omega)
  rw [header, if_neg (by omega), rounded, retryHeader, Int.mul_ediv_cancel _ (by decide),
    max_eq_right positive]
  linarith

/-- From half a second on the wait is rounded up, unless it is too long. -/
theorem header_of_up (long : second ≤ ⌊need⌋) (up : second ≤ 2 * (⌊need⌋ % second)) :
    ⌊need⌋ + 1 ≤ header need * second ∨ twoHours ≤ header need * second := by
  have whole := Int.mul_ediv_add_emod ⌊need⌋ second
  have below := Int.emod_lt_of_pos ⌊need⌋ (by decide : 0 < second)
  rw [header, if_neg (by omega), Registry.round, if_neg (by omega)]
  split
  · left
    have rounded : ⌊need⌋ + second - ⌊need⌋ % second = (⌊need⌋ / second + 1) * second := by linarith
    have positive : 1 ≤ ⌊need⌋ / second + 1 := by
      have := Int.ediv_nonneg (show 0 ≤ ⌊need⌋ by omega) (by decide : 0 ≤ second)
      omega
    rw [rounded, retryHeader, Int.mul_ediv_cancel _ (by decide), max_eq_right positive]
    linarith
  · right
    decide

theorem twoHours_le_iff (duration : Int) :
    twoHours ≤ duration ↔ twoHours ≤ duration - duration % second := by
  rw [twoHours, second]
  omega

/-- The announced wait is enough or makes the bucket stale, unless rounding shortened it. -/
theorem covered_iff : Covered twoHours need ↔
    need ≤ ((header need * second : Int) : ℚ) ∨ twoHours ≤ header need * second := by
  have floor_le := Int.floor_le need
  have lt_floor := Int.lt_floor_add_one need
  by_cases short : ⌊need⌋ < second
  · have enough : need ≤ second := (Int.floor_lt.mp short).le
    rw [header_of_short short, one_mul]
    exact ⟨fun _ => .inl enough, fun _ => .inl enough⟩
  have long : second ≤ ⌊need⌋ := not_lt.mp short
  by_cases up : second ≤ 2 * (⌊need⌋ % second)
  · refine ⟨fun _ => ?_, fun _ => .inr (.inr (.inr up))⟩
    obtain enough | stale := header_of_up long up
    · left
      have enough' : (⌊need⌋ : ℚ) + 1 ≤ ((header need * second : Int) : ℚ) := by
        exact_mod_cast enough
      exact lt_floor.le.trans enough'
    · exact .inr stale
  -- Here the wait is rounded down, which is harmless for whole seconds and for stale buckets.
  rw [header_of_down long (not_le.mp up)]
  have nonneg := Int.emod_nonneg ⌊need⌋ (by decide : second ≠ 0)
  have hours : twoHours ≤ need ↔ twoHours ≤ ⌊need⌋ - ⌊need⌋ % second := by
    rw [← Int.le_floor]
    exact twoHours_le_iff ⌊need⌋
  rw [Covered, hours]
  constructor
  · rintro (one | stale | ⟨whole, rest⟩ | up')
    · have floor_eq : ⌊need⌋ = second := le_antisymm (by exact_mod_cast floor_le.trans one) long
      left
      rw [floor_eq, Int.emod_self, sub_zero]
      exact one
    · exact .inr stale
    · left
      rw [rest, sub_zero]
      exact whole.le
    · exact absurd up' up
  · rintro (enough | stale)
    · have rest : ⌊need⌋ ≤ ⌊need⌋ - ⌊need⌋ % second := by exact_mod_cast floor_le.trans enough
      have none_left : ⌊need⌋ % second = 0 := by omega
      rw [none_left, sub_zero] at enough
      exact .inr (.inr (.inl ⟨le_antisymm enough floor_le, none_left⟩))
    · exact .inr (.inl stale)

/-! ## The same call again -/

namespace Registry

variable {registry : Registry} {rate : Rate} {category : Category} {identity : String}
  {cost now : Int} {visits : Visits}

/-- A denied call finds a bucket, and leaves its tokens there. -/
theorem lookup_of_denied (known : registry.rates category = some rate)
    (affordable : paid cost ≤ rate.count)
    (denied : (registry.allow category identity cost now visits).1.1 = false) :
    (registry.allow category identity cost now visits).1.2 =
      round (if ⌊registry.need rate ⟨category, identity⟩ cost now⌋ < second then second else
        ⌊registry.need rate ⟨category, identity⟩ cost now⌋) second ∧
    (registry.allow category identity cost now visits).2.buckets.lookup ⟨category, identity⟩ =
      some ⟨registry.available rate ⟨category, identity⟩ now, now⟩ := by
  obtain ⟨answer, bucket⟩ := @allow_eq registry rate category identity known cost now visits
  by_cases enough : (paid cost : ℚ) ≤
      (registry.evict now visits).available rate ⟨category, identity⟩ now
  · rw [answer, if_pos enough] at denied
    cases denied
  rw [if_neg enough] at answer bucket
  have kept : (registry.evict now visits).available rate ⟨category, identity⟩ now =
      registry.available rate ⟨category, identity⟩ now := by
    rw [available, available]
    cases found : (registry.evict now visits).buckets.lookup ⟨category, identity⟩ with
    | none =>
        rw [available, found, tokens] at enough
        exact absurd (by exact_mod_cast affordable) enough
    | some state => rw [(lookup_evict found).1]
  rw [kept] at answer bucket
  rw [sub_zero] at bucket
  exact ⟨congrArg Prod.snd answer, bucket⟩

section Others

variable {key : Key} {calls : List Call}

theorem lookup_perform {call : Call} (other : call.uses key = false) :
    (registry.perform call).buckets.lookup key = registry.buckets.lookup key ∨
      (registry.perform call).buckets.lookup key = none := by
  obtain same | ⟨same, -⟩ := lookup_perform_of_other other
  · exact .inl same
  · rw [same]
    cases found : (registry.evict call.now call.visits).buckets.lookup key with
    | none => exact .inr rfl
    | some state => exact .inl (lookup_evict found).1.symm

/-- Other calls leave a bucket as it is or evict it. -/
theorem lookup_run (apart : ∀ call ∈ calls, call.uses key = false) :
    (registry.run calls).buckets.lookup key = registry.buckets.lookup key ∨
      (registry.run calls).buckets.lookup key = none := by
  induction calls generalizing registry with
  | nil => exact .inl rfl
  | cons call calls induction =>
      obtain same | gone := @induction (registry.perform call)
        fun other member => apart other (List.mem_cons_of_mem call member)
      · rw [run, List.foldl_cons, ← run, same]
        exact lookup_perform (apart call List.mem_cons_self)
      · exact .inr gone

/-- Below the capacity other calls leave a bucket that is not stale. -/
theorem lookup_run_of_roomy {last : Call} {clock : ℚ} {state : Bucket}
    (apart : ∀ call ∈ calls, call.uses key = false)
    (runs : (meter rate key).Runs Roomy clock registry (calls ++ [last]))
    (found : registry.buckets.lookup key = some state)
    (recent : last.now - state.seen < registry.staleAfter) :
    (registry.run calls).buckets.lookup key = some state ∧ (registry.run calls).Roomy last := by
  induction calls generalizing registry clock with
  | nil => exact ⟨found, runs.2.1⟩
  | cons call calls induction =>
      obtain ⟨-, roomy, rest⟩ := runs
      have before : (call.now : ℚ) ≤ (last.now : ℚ) := rest.le_last
      have before' : call.now ≤ last.now := by exact_mod_cast before
      have kept : (registry.perform call).buckets.lookup key = some state := by
        obtain same | ⟨same, known_roomy⟩ :=
          lookup_perform_of_other (apart call List.mem_cons_self)
        · rw [same, found]
        · rw [same, lookup_evict_of_roomy (known_roomy roomy), found]
          apply Option.filter_some_pos
          simp only [Bool.not_eq_true', decide_eq_false_iff_not, not_le]
          omega
      apply induction (fun other member => apart other (List.mem_cons_of_mem call member)) rest kept
      show last.now - state.seen < (registry.perform call).staleAfter
      rwa [(alike_perform call).staleAfter]

end Others

/-- The bucket has the tokens once the time that it needs has passed. -/
theorem affords_iff {tokens : ℚ} {again : Int} (affordable : paid cost ≤ rate.count) :
    (paid cost : ℚ) ≤ Registry.tokens rate again (some ⟨tokens, now⟩) ↔
      (paid cost - tokens) / rate.count * rate.window ≤ ((again - now : Int) : ℚ) := by
  have affordable' : (paid cost : ℚ) ≤ rate.count := by exact_mod_cast affordable
  rw [tokens_some, le_refill_iff, and_iff_right affordable', ← sub_le_iff_le_add', Rate.flow,
    ← mul_div_assoc, le_div_iff₀ rate.window_pos', div_mul_eq_mul_div, div_le_iff₀ rate.count_pos']

theorem allowed_iff (known : registry.rates category = some rate) :
    (registry.allow category identity cost now visits).1.1 = true ↔
      (paid cost : ℚ) ≤ (registry.evict now visits).available rate ⟨category, identity⟩ now := by
  rw [(allow_eq known cost now visits).1]
  split
  case isTrue enough => exact iff_of_true rfl enough
  case isFalse short => exact iff_of_false Bool.false_ne_true short

/-- A denied call is allowed after the announced wait, whatever other callers do, if the wait is not
rounded below the time that the bucket needs; below the capacity only then. -/
theorem allow_again_iff (registry : Registry) (two : registry.staleAfter = twoHours)
    (category : Category) (identity : String) (rate : Rate)
    (known : registry.rates category = some rate) (cost now : Int) (visits : Visits)
    (affordable : paid cost ≤ rate.count)
    (denied : (registry.allow category identity cost now visits).1.1 = false) (others : List Call)
    (apart : ∀ call ∈ others, call.uses ⟨category, identity⟩ = false) (again : Int)
    (visits' : Visits) :
    (Covered twoHours (registry.need rate ⟨category, identity⟩ cost now) →
      now + retryHeader (registry.allow category identity cost now visits).1.2 * second ≤ again →
      (((registry.allow category identity cost now visits).2.run others).allow
        category identity cost again visits').1.1 = true) ∧
    ((meter rate ⟨category, identity⟩).Runs Roomy now
        (registry.allow category identity cost now visits).2
        (others ++ [⟨.allow category identity cost, again, visits'⟩]) →
      again = now + retryHeader (registry.allow category identity cost now visits).1.2 * second →
      ((((registry.allow category identity cost now visits).2.run others).allow
          category identity cost again visits').1.1 = true ↔
        Covered twoHours (registry.need rate ⟨category, identity⟩ cost now))) := by
  obtain ⟨wait, bucket⟩ := lookup_of_denied known affordable denied
  have waited : retryHeader (registry.allow category identity cost now visits).1.2 =
      header (registry.need rate ⟨category, identity⟩ cost now) := by rw [wait, header]
  have alike : Alike registry (registry.allow category identity cost now visits).2 :=
    @alike_perform registry ⟨.allow category identity cost, now, visits⟩
  rw [waited]
  generalize (registry.allow category identity cost now visits).2 = after at bucket alike
  have alike' : Alike registry (after.run others) := alike.trans (alike_run others)
  rw [allowed_iff (by rw [alike'.rates, known])]
  have sufficient : Covered twoHours (registry.need rate ⟨category, identity⟩ cost now) →
      now + header (registry.need rate ⟨category, identity⟩ cost now) * second ≤ again →
      (paid cost : ℚ) ≤
        ((after.run others).evict again visits').available rate ⟨category, identity⟩ again := by
    intro covered patient
    rw [available]
    cases found : ((after.run others).evict again visits').buckets.lookup ⟨category, identity⟩ with
    | none =>
        rw [tokens]
        exact_mod_cast affordable
    | some state =>
        obtain ⟨left, recent⟩ := lookup_evict found
        rw [alike'.staleAfter, two] at recent
        obtain same | gone := lookup_run apart
        · obtain rfl := Option.some.inj (bucket.symm.trans (same.symm.trans left))
          rw [affords_iff affordable]
          obtain enough | stale := covered_iff.mp covered
          · exact enough.trans (by exact_mod_cast (by omega))
          · exact absurd recent (by dsimp only; omega)
        · rw [gone] at left
          cases left
  refine ⟨sufficient, fun runs exact => ⟨fun allowed => ?_, fun covered => ?_⟩⟩
  · rw [covered_iff]
    by_contra short
    obtain ⟨long, recent⟩ := not_or.mp short
    obtain ⟨left, roomy⟩ := lookup_run_of_roomy apart runs bucket
      (by rw [alike.staleAfter, two]; dsimp only; omega)
    rw [available, lookup_evict_of_roomy roomy, left, Option.filter_some_pos,
      affords_iff affordable] at allowed
    · refine long (allowed.trans (by exact_mod_cast (by omega)))
    · rw [alike'.staleAfter, two]
      simp only [Bool.not_eq_true', decide_eq_false_iff_not, not_le]
      omega
  · exact sufficient covered exact.ge

/-- The default rate of creations. -/
def hourly : Rate := ⟨15, 3600 * second, by decide, by decide⟩

/-- Fifteen creations at one moment. -/
def exhausted : Registry :=
  (new (fun _ => some hourly) 10000 twoHours (by decide) (by decide)).run
    (List.replicate 15 ⟨.allow .create "ip" 1, 0, ⟨[], []⟩⟩)

/-- A whole number of seconds is announced as it is. -/
theorem allow_again_iff_exhausted :
    ((exhausted.allow .create "ip" 1 0 ⟨[], []⟩).2.allow .create "ip" 1 (240 * second)
      ⟨[], []⟩).1.1 = true :=
  (allow_again_iff exhausted (alike_run _).staleAfter .create "ip" hourly
    (congrFun (alike_run _).rates .create) 1 0 ⟨[], []⟩ (by decide) (by decide +kernel) []
    (by simp) (240 * second) ⟨[], []⟩).1 (by decide +kernel) (by decide +kernel)

/-- The sixteenth is announced for 239 seconds later, when the bucket lacks a fraction of a
token. -/
theorem allow_again_short :
    (exhausted.allow .create "ip" 1 600000000 ⟨[], []⟩).1 = (false, 239 * second) ∧
    ((exhausted.allow .create "ip" 1 600000000 ⟨[], []⟩).2.allow .create "ip" 1
      (600000000 + retryHeader (239 * second) * second) ⟨[], []⟩).1 = (false, second) := by
  decide +kernel

end Registry

end Oxbin.Ratelimit
