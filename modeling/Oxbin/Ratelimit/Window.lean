import Oxbin.Ratelimit.Registry

/-!
# Rate limits over windows

What a bucket allows during an interval is bounded by its rate exactly if buckets are only evicted
once they are full again.
-/

namespace Oxbin.Ratelimit

/-- `2*time.Hour`, after which the registry of the server evicts. -/
def twoHours : Int := 7200 * second

/-- The tokens that flow into a bucket in a nanosecond. -/
def Rate.flow (rate : Rate) : ℚ := rate.count / rate.window

theorem Rate.count_pos' (rate : Rate) : (0 : ℚ) < rate.count := by
  have positive := rate.count_pos
  exact_mod_cast (by omega : 0 < rate.count)

theorem Rate.window_pos' (rate : Rate) : (0 : ℚ) < rate.window := by
  exact_mod_cast rate.window_pos

theorem Rate.flow_pos (rate : Rate) : 0 < rate.flow := div_pos rate.count_pos' rate.window_pos'

/-- A window fills a bucket. -/
theorem Rate.window_mul_flow (rate : Rate) : (rate.window : ℚ) * rate.flow = rate.count :=
  mul_div_cancel₀ _ rate.window_pos'.ne'

namespace Registry

variable {registry : Registry} {rate : Rate} {key : Key} {call : Call} {clock : ℚ}

/-- The tokens in a bucket at any time. -/
def level (rate : Rate) (key : Key) (registry : Registry) (time : ℚ) : ℚ :=
  match registry.buckets.lookup key with
  | none => rate.count
  | some state => refill rate.count rate.flow state.tokens (time - state.seen)

theorem tokens_some (now : Int) (state : Bucket) : tokens rate now (some state) =
    refill (rate.count : ℚ) rate.flow state.tokens ((now - state.seen : Int) : ℚ) := by
  rw [tokens, refill, Rate.flow, mul_div_assoc]

theorem available_eq (now : Int) :
    registry.available rate key now = level rate key registry now := by
  rw [available, level]
  cases registry.buckets.lookup key with
  | none => rfl
  | some state => rw [tokens_some, Int.cast_sub]

/-- The bucket as a vessel from which the allowed calls draw. -/
def meter (rate : Rate) (key : Key) : Meter Registry Call ℚ where
  step := perform
  time call := call.now
  draw registry call := registry.allowedCost key call
  level := level rate key

/-- What holds of the bucket of a rate. -/
structure Sound (rate : Rate) (key : Key) (registry : Registry) (clock : ℚ) : Prop where
  rates : registry.rates key.category = some rate
  bucket : ∀ state, registry.buckets.lookup key = some state →
    0 ≤ state.tokens ∧ (state.seen : ℚ) ≤ clock

/-- The call finds the bucket full if it finds it stale. -/
def Timely (rate : Rate) (key : Key) (registry : Registry) (call : Call) : Prop :=
  ∀ state, registry.buckets.lookup key = some state →
    registry.staleAfter ≤ call.now - state.seen →
      (rate.count : ℚ) ≤ state.tokens + ((call.now - state.seen : Int) : ℚ) * rate.flow

theorem level_le (time : ℚ) : level rate key registry time ≤ rate.count := by
  rw [level]
  split
  · exact le_refl _
  · exact refill_le_capacity

theorem Sound.level_nonneg {time : ℚ} (sound : Sound rate key registry clock)
    (ordered : clock ≤ time) : 0 ≤ level rate key registry time := by
  rw [level]
  split
  · exact rate.count_pos'.le
  case h_2 state found =>
    obtain ⟨tokens_nonneg, seen⟩ := sound.bucket state found
    exact refill_nonneg rate.count_pos'.le rate.flow_pos.le tokens_nonneg (by linarith)

theorem level_inflow (registry : Registry) {time later : ℚ} (ordered : time ≤ later) :
    level rate key registry later ≤
      level rate key registry time + (later - time) * rate.flow := by
  rw [level, level]
  split
  · exact le_add_of_nonneg_right (mul_nonneg (sub_nonneg.mpr ordered) rate.flow_pos.le)
  case h_2 state found =>
    have inflow : refill (rate.count : ℚ) rate.flow state.tokens (later - state.seen) ≤ _ :=
      refill_le_add rate.flow_pos.le (sub_le_sub_right ordered (state.seen : ℚ))
    rwa [sub_sub_sub_cancel_right] at inflow

/-- An eviction does not change what is in a bucket that it finds full if it finds it stale. -/
theorem available_evict (roomy : (registry.evictStale call.now).len < registry.maxEntries)
    (timely : Timely rate key registry call) :
    (registry.evict call.now call.visits).available rate key call.now =
      registry.available rate key call.now := by
  rw [available, available, lookup_evict_of_roomy roomy]
  cases found : registry.buckets.lookup key with
  | none => rfl
  | some state =>
      by_cases stale : registry.staleAfter ≤ call.now - state.seen
      · have full := timely state found stale
        rw [Option.filter_some_neg (by simpa using stale), tokens_some, refill_eq_capacity full]
        rfl
      · rw [Option.filter_some_pos (by simpa using stale)]

theorem allowedCost_nonneg (key : Key) (registry : Registry) (call : Call) :
    0 ≤ registry.allowedCost key call := by
  rw [allowedCost]
  split
  case h_1 category identity cost _ =>
    have positive := paid_pos cost
    split <;> omega
  · exact le_refl 0

theorem allowedCost_of_other (other : call.uses key = false) :
    registry.allowedCost key call = 0 := by
  rw [Call.uses] at other
  rw [allowedCost]
  split
  case h_1 category identity cost same =>
    rw [same] at other
    exact if_neg fun both => of_decide_eq_false other both.1
  · rfl

/-- A call for a bucket takes the tokens that it is allowed. -/
theorem perform_of_uses (known : registry.rates key.category = some rate)
    (uses : call.uses key = true) :
    (registry.perform call).buckets.lookup key =
      some ⟨(registry.evict call.now call.visits).available rate key call.now -
        registry.allowedCost key call, call.now⟩ ∧
    (registry.Roomy call → (registry.evictStale call.now).len < registry.maxEntries) ∧
    (registry.allowedCost key call : ℚ) ≤
      max 0 ((registry.evict call.now call.visits).available rate key call.now) := by
  rw [perform, Roomy, allowedCost]
  rw [Call.uses] at uses
  cases same : call.operation with
  | allow category identity cost =>
      rw [same] at uses
      have key_eq : Key.mk category identity = key := of_decide_eq_true uses
      subst key_eq
      obtain ⟨answer, bucket⟩ := allow_eq known cost call.now call.visits
      dsimp only
      rw [bucket, answer]
      by_cases enough : (paid cost : ℚ) ≤
          (registry.evict call.now call.visits).available rate ⟨category, identity⟩ call.now
      · simp [enough]
      · simp [enough]
  | recordMiss identity => rw [same] at uses; cases uses
  | recordSuccess identity => rw [same] at uses; cases uses

/-- A call takes what it is allowed from its bucket. -/
theorem Sound.perform (sound : Sound rate key registry clock) (forward : clock ≤ call.now)
    (roomy : registry.Roomy call) (timely : Timely rate key registry call) :
    Sound rate key (registry.perform call) call.now ∧
      level rate key (registry.perform call) call.now + registry.allowedCost key call ≤
        level rate key registry call.now := by
  have rates : (registry.perform call).rates key.category = some rate := by
    rw [(alike_perform call).rates, sound.rates]
  by_cases uses : call.uses key = true
  · obtain ⟨bucket, known_roomy, affordable⟩ := perform_of_uses sound.rates uses
    rw [available_evict (known_roomy roomy) timely, available_eq] at bucket affordable
    have level_nonneg := sound.level_nonneg forward
    rw [max_eq_right level_nonneg] at affordable
    refine ⟨⟨rates, fun state found => ?_⟩, ?_⟩
    · obtain rfl := Option.some.inj (bucket.symm.trans found)
      exact ⟨sub_nonneg.mpr affordable, le_refl _⟩
    · have drained : level rate key (registry.perform call) call.now ≤
          level rate key registry call.now - registry.allowedCost key call := by
        rw [level, bucket]
        exact (min_le_right _ _).trans (by simp)
      linarith
  · have other : call.uses key = false := by simpa using uses
    have nothing : registry.allowedCost key call = 0 := allowedCost_of_other other
    rw [nothing, Int.cast_zero, add_zero]
    obtain same | ⟨same, known_roomy⟩ := lookup_perform_of_other other
    · refine ⟨⟨rates, fun state found => ?_⟩, ?_⟩
      · obtain ⟨tokens_nonneg, seen⟩ := sound.bucket state (same ▸ found)
        exact ⟨tokens_nonneg, seen.trans forward⟩
      · rw [level, same, level]
    · refine ⟨⟨rates, fun state found => ?_⟩, ?_⟩
      · obtain ⟨tokens_nonneg, seen⟩ := sound.bucket state (lookup_evict (same ▸ found)).1
        exact ⟨tokens_nonneg, seen.trans forward⟩
      · have kept := available_evict (known_roomy roomy) timely
        rw [available_eq, available_eq] at kept
        rw [← kept, level, same, level]

/-- Below the capacity the bucket is a vessel if it is only evicted once it is full. -/
theorem conserves (rate : Rate) (key : Key) : (meter rate key).Conserves
    (fun registry call => registry.Roomy call ∧ Timely rate key registry call) (Sound rate key)
    rate.count rate.flow where
  flow_nonneg := rate.flow_pos.le
  level_le _ := level_le
  level_nonneg := Sound.level_nonneg
  inflow := level_inflow
  draw_nonneg registry call := Int.cast_nonneg (allowedCost_nonneg key registry call)
  step sound forward admitted := sound.perform forward admitted.1 admitted.2

theorem sound_new {rates : Category → Option Rate} (known : rates key.category = some rate)
    {maxEntries staleAfter : Int} (maxEntries_pos : 1 ≤ maxEntries)
    (staleAfter_pos : 0 < staleAfter) (clock : ℚ) :
    Sound rate key (new rates maxEntries staleAfter maxEntries_pos staleAfter_pos) clock :=
  ⟨known, fun state found => by cases found⟩

/-- A bucket that is stale for longer than a window is full. -/
theorem Sound.timely (sound : Sound rate key registry clock)
    (short : rate.window ≤ registry.staleAfter) : Timely rate key registry call := by
  intro state found stale
  have tokens_nonneg := (sound.bucket state found).1
  have elapsed : (rate.window : ℚ) ≤ ((call.now - state.seen : Int) : ℚ) := by
    exact_mod_cast short.trans stale
  have full := mul_le_mul_of_nonneg_right elapsed rate.flow_pos.le
  rw [rate.window_mul_flow] at full
  linarith

theorem Sound.runs_timely {calls : List Call} (sound : Sound rate key registry clock)
    (short : rate.window ≤ registry.staleAfter)
    (runs : (meter rate key).Runs Roomy clock registry calls) :
    (meter rate key).Runs (fun registry call => registry.Roomy call ∧ Timely rate key registry call)
      clock registry calls := by
  induction calls generalizing clock registry with
  | nil => trivial
  | cons call calls induction =>
      obtain ⟨forward, roomy, rest⟩ := runs
      have timely : Timely rate key registry call := sound.timely short
      have sound' := (sound.perform forward roomy timely).1
      have short' : rate.window ≤ (registry.perform call).staleAfter := by
        rwa [(alike_perform call).staleAfter]
      exact ⟨forward, ⟨roomy, timely⟩, induction sound' short' rest⟩

/-- In no interval is a bucket allowed more than its rate. -/
def WithinRate (rate : Rate) (key : Key) (registry : Registry) (calls : List Call) : Prop :=
  ∀ start length : ℚ, 0 ≤ length →
    (meter rate key).drawn start (start + length) registry calls ≤
      rate.count + rate.count * length / rate.window

theorem Sound.withinRate {calls : List Call} (sound : Sound rate key registry clock)
    (runs : (meter rate key).Runs
      (fun registry call => registry.Roomy call ∧ Timely rate key registry call)
      clock registry calls) : WithinRate rate key registry calls := by
  intro start length nonneg
  have bound := Meter.drawn_le (conserves rate key) sound runs (le_add_of_nonneg_right nonneg :
    start ≤ start + length) rate.count_pos'.le
  rwa [add_sub_cancel_left, Rate.flow, mul_div_left_comm, mul_div_assoc'] at bound

/-! ## A window longer than the age of a stale bucket -/

/-- A whole bucket, and another once the first is stale. -/
def greedy (rate : Rate) (key : Key) (staleAfter : Int) : List Call :=
  [⟨.allow key.category key.identity rate.count, 0, ⟨[], []⟩⟩,
    ⟨.allow key.category key.identity rate.count, staleAfter, ⟨[], []⟩⟩]

section Greedy

variable {rates : Category → Option Rate} {maxEntries staleAfter : Int}
  (maxEntries_pos : 1 ≤ maxEntries) (staleAfter_pos : 0 < staleAfter)

/-- The registry with one empty bucket. -/
def drained (rates : Category → Option Rate) (maxEntries staleAfter : Int)
    (maxEntries_pos : 1 ≤ maxEntries) (staleAfter_pos : 0 < staleAfter) (key : Key) : Registry :=
  { new rates maxEntries staleAfter maxEntries_pos staleAfter_pos with
    buckets := AList.insert key ⟨0, 0⟩ ∅ }

theorem allow_new (known : rates key.category = some rate) :
    (new rates maxEntries staleAfter maxEntries_pos staleAfter_pos).allow key.category key.identity
      rate.count 0 ⟨[], []⟩ =
        ((true, 0), drained rates maxEntries staleAfter maxEntries_pos staleAfter_pos key) := by
  have evicted : (new rates maxEntries staleAfter maxEntries_pos staleAfter_pos).evict 0 ⟨[], []⟩ =
      new rates maxEntries staleAfter maxEntries_pos staleAfter_pos := if_pos maxEntries_pos
  rw [allow_of_fresh known (by rw [evicted]; rfl) rate.count_pos (le_refl _), evicted, sub_self]
  rfl

/-- The bucket is evicted once it is stale. -/
theorem evictStale_drained (key : Key) :
    (drained rates maxEntries staleAfter maxEntries_pos staleAfter_pos key).evictStale staleAfter =
      new rates maxEntries staleAfter maxEntries_pos staleAfter_pos := by
  have stale : keep (fun state : Bucket => !decide (staleAfter ≤ staleAfter - state.seen))
      (AList.insert key ⟨0, 0⟩ ∅) = ∅ := by
    apply AList.ext
    simp [keep, AList.insert, AList.empty_entries]
  rw [evictStale, drained, new]
  simp only [stale]
  rfl

theorem greedy_runs (known : rates key.category = some rate) : (meter rate key).Runs Roomy 0
    (new rates maxEntries staleAfter maxEntries_pos staleAfter_pos)
    (greedy rate key staleAfter) := by
  refine ⟨?_, maxEntries_pos, ?_, ?_, trivial⟩
  · exact le_of_eq Int.cast_zero.symm
  · show ((0 : Int) : ℚ) ≤ (staleAfter : ℚ)
    exact_mod_cast staleAfter_pos.le
  · show ((allow _ _ _ _ _ _).2.evictStale staleAfter).len < (allow _ _ _ _ _ _).2.maxEntries
    rw [allow_new maxEntries_pos staleAfter_pos known, evictStale_drained]
    exact maxEntries_pos

theorem greedy_drawn (known : rates key.category = some rate) :
    (meter rate key).drawn 0 staleAfter
      (new rates maxEntries staleAfter maxEntries_pos staleAfter_pos)
      (greedy rate key staleAfter) = 2 * rate.count := by
  have first := allow_new maxEntries_pos staleAfter_pos known
  have second : ((drained rates maxEntries staleAfter maxEntries_pos staleAfter_pos key).allow
      key.category key.identity rate.count staleAfter ⟨[], []⟩).1 = (true, 0) := by
    have fresh : (drained rates maxEntries staleAfter maxEntries_pos staleAfter_pos key).evict
        staleAfter ⟨[], []⟩ = new rates maxEntries staleAfter maxEntries_pos staleAfter_pos := by
      rw [evict, evictStale_drained]
      exact if_pos maxEntries_pos
    rw [allow_of_fresh (show (drained _ _ _ _ _ key).rates key.category = some rate from known)
      (by rw [fresh]; rfl) rate.count_pos (le_refl _)]
  have positive : (0 : ℚ) ≤ staleAfter := by exact_mod_cast staleAfter_pos.le
  simp only [greedy, Meter.drawn, meter, allowedCost, perform, first, second,
    paid_of_pos rate.count_pos]
  simp [positive]
  ring

theorem window_of_withinRate (known : rates key.category = some rate)
    (within : WithinRate rate key (new rates maxEntries staleAfter maxEntries_pos staleAfter_pos)
      (greedy rate key staleAfter)) : rate.window ≤ staleAfter := by
  have positive : (0 : ℚ) ≤ staleAfter := by exact_mod_cast staleAfter_pos.le
  have bound := within 0 staleAfter positive
  rw [zero_add, greedy_drawn maxEntries_pos staleAfter_pos known] at bound
  have quotient : (rate.count : ℚ) ≤ rate.count * staleAfter / rate.window := by linarith
  rw [le_div_iff₀ rate.window_pos'] at quotient
  exact_mod_cast le_of_mul_le_mul_left quotient rate.count_pos'

end Greedy

/-- Below its capacity the registry of the server keeps to a rate exactly if the window is no longer
than the age at which it evicts; it always does in runs that evict a bucket only once it is full. -/
theorem withinRate_iff (rates : Category → Option Rate) (maxEntries : Int)
    (maxEntries_pos : 1 ≤ maxEntries) (key : Key) (rate : Rate)
    (known : rates key.category = some rate) :
    ((∀ clock calls, (meter rate key).Runs Roomy clock
        (new rates maxEntries twoHours maxEntries_pos (by decide)) calls →
      WithinRate rate key (new rates maxEntries twoHours maxEntries_pos (by decide)) calls) ↔
        rate.window ≤ twoHours) ∧
    (∀ clock calls, (meter rate key).Runs
        (fun registry call => registry.Roomy call ∧ Timely rate key registry call) clock
        (new rates maxEntries twoHours maxEntries_pos (by decide)) calls →
      WithinRate rate key (new rates maxEntries twoHours maxEntries_pos (by decide)) calls) := by
  refine ⟨⟨fun within => ?_, fun short clock calls runs => ?_⟩, fun clock calls runs => ?_⟩
  · exact window_of_withinRate maxEntries_pos (by decide) known
      (within 0 _ (greedy_runs maxEntries_pos (by decide) known))
  · have sound := sound_new known maxEntries_pos (by decide : 0 < twoHours) clock
    exact sound.withinRate (sound.runs_timely short runs)
  · exact (sound_new known maxEntries_pos (by decide : 0 < twoHours) clock).withinRate runs

/-- Ten calls are allowed in a day, and ten more two hours later. -/
def daily : Rate := ⟨10, 24 * 3600 * second, by decide, by decide⟩

theorem withinRate_iff_daily :
    ((∀ clock calls, (meter daily ⟨.create, "ip"⟩).Runs Roomy clock
        (new (fun _ => some daily) 10000 twoHours (by decide) (by decide)) calls →
      WithinRate daily ⟨.create, "ip"⟩
        (new (fun _ => some daily) 10000 twoHours (by decide) (by decide)) calls) ↔
        daily.window ≤ twoHours) ∧
    (∀ clock calls, (meter daily ⟨.create, "ip"⟩).Runs
        (fun registry call => registry.Roomy call ∧ Timely daily ⟨.create, "ip"⟩ registry call)
        clock (new (fun _ => some daily) 10000 twoHours (by decide) (by decide)) calls →
      WithinRate daily ⟨.create, "ip"⟩
        (new (fun _ => some daily) 10000 twoHours (by decide) (by decide)) calls) :=
  withinRate_iff _ _ _ _ _ rfl

theorem greedy_exceeds : ¬ ∀ (rate : Rate) (clock : ℚ) (calls : List Call),
    (meter rate ⟨.create, "ip"⟩).Runs Roomy clock
      (new (fun _ => some rate) 10000 twoHours (by decide) (by decide)) calls →
    WithinRate rate ⟨.create, "ip"⟩
      (new (fun _ => some rate) 10000 twoHours (by decide) (by decide)) calls := by
  intro within
  have runs : (meter daily ⟨.create, "ip"⟩).Runs Roomy 0
      (new (fun _ => some daily) 10000 twoHours (by decide) (by decide))
      (greedy daily ⟨.create, "ip"⟩ twoHours) := greedy_runs _ _ rfl
  have short := window_of_withinRate _ _ rfl (within daily 0 _ runs)
  exact absurd short (by decide)

end Registry

end Oxbin.Ratelimit
