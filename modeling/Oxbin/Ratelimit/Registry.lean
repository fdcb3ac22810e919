import Mathlib.Algebra.Order.Floor.Ring
import Mathlib.Data.Rat.Floor
import Oxbin.Data.Keyed
import Oxbin.Data.Refilling

/-!
# Rate limits

The registry of token buckets of `internal/ratelimit/limiter.go`, with exact arithmetic in place of
`float64`.  Times and durations are nanoseconds.  Go visits the entries of a map in any order; the
orders in which an eviction visits them are inputs here.
-/

namespace Oxbin.Ratelimit

/-- `Category`. -/
inductive Category where
  | create
  | read
  | miss
  | consume
  | liveCreate
  | liveUnlock
  | liveConnection
  | liveMessage
  | liveMessageRoom
  | liveMessageIP
  deriving DecidableEq, Repr

/-- `config.Rate`, with what `parseRate` and `NewRegistry` check. -/
structure Rate where
  count : Int
  window : Int
  count_pos : 1 ≤ count
  window_pos : 0 < window

/-- `key`. -/
structure Key where
  category : Category
  identity : String
  deriving DecidableEq, Repr

/-- `bucket`. -/
structure Bucket where
  tokens : ℚ
  seen : Int
  deriving DecidableEq, Repr

/-- `missState`. -/
structure MissState where
  consecutive : Int
  seen : Int
  deriving DecidableEq, Repr

/-- `Registry`, with what `NewRegistry` checks. -/
structure Registry where
  rates : Category → Option Rate
  buckets : AList fun _ : Key => Bucket
  misses : Keyed MissState
  maxEntries : Int
  staleAfter : Int
  maxEntries_pos : 1 ≤ maxEntries
  staleAfter_pos : 0 < staleAfter

/-- The orders in which `range` visits the buckets and the misses. -/
structure Visits where
  buckets : List Key
  misses : List String

def consecutiveMissThreshold : Int := 5

/-- `time.Second`. -/
def second : Int := 1000000000

/-- The entries of a map whose values satisfy a test. -/
def keep {κ β : Type} [DecidableEq κ] (test : β → Bool) (map : AList fun _ : κ => β) :
    AList fun _ : κ => β where
  entries := map.entries.filter fun entry => test entry.2
  nodupKeys := map.nodupKeys.sublist List.filter_sublist

@[simp] theorem lookup_keep {κ β : Type} [DecidableEq κ] (test : β → Bool)
    (map : AList fun _ : κ => β) (key : κ) :
    (keep test map).lookup key = (map.lookup key).filter test := by
  ext value
  rw [← Option.mem_def, AList.mem_lookup_iff, Option.filter_eq_some_iff, ← Option.mem_def,
    AList.mem_lookup_iff]
  exact List.mem_filter

namespace Registry

/-- `NewRegistry`. -/
def new (rates : Category → Option Rate) (maxEntries staleAfter : Int)
    (maxEntries_pos : 1 ≤ maxEntries) (staleAfter_pos : 0 < staleAfter) : Registry where
  rates := rates
  buckets := ∅
  misses := ∅
  maxEntries := maxEntries
  staleAfter := staleAfter
  maxEntries_pos := maxEntries_pos
  staleAfter_pos := staleAfter_pos

variable (registry : Registry)

/-- `Registry.Len`. -/
def len : Int := registry.buckets.entries.length + registry.misses.entries.length

/-- The first two loops of `evict`. -/
def evictStale (now : Int) : Registry :=
  { registry with
    buckets := keep (fun state => !decide (registry.staleAfter ≤ now - state.seen)) registry.buckets
    misses := keep (fun state => !decide (registry.staleAfter ≤ now - state.seen)) registry.misses }

/-- The third loop of `evict`. -/
def evictBuckets (registry : Registry) : List Key → Registry
  | [] => registry
  | key :: keys =>
      let registry := { registry with buckets := registry.buckets.erase key }
      if registry.len < registry.maxEntries then registry else evictBuckets registry keys

/-- The last loop of `evict`. -/
def evictMisses (registry : Registry) : List String → Registry
  | [] => registry
  | identity :: identities =>
      let registry := { registry with misses := registry.misses.erase identity }
      if registry.len < registry.maxEntries then registry else evictMisses registry identities

/-- `Registry.evict`. -/
def evict (now : Int) (visits : Visits) : Registry :=
  let registry := registry.evictStale now
  if registry.len < registry.maxEntries then registry
  else
    let registry := registry.evictBuckets visits.buckets
    if registry.len < registry.maxEntries then registry
    else registry.evictMisses visits.misses

/-- `Duration.Round`, for durations that are not negative. -/
def round (duration multiple : Int) : Int :=
  let rest := duration % multiple
  if rest + rest < multiple then duration - rest
  else if duration + multiple - rest < 2 ^ 63 then duration + multiple - rest
  else 2 ^ 63 - 1

/-- What `Allow` returns as `retryAfter` when tokens are missing. -/
def retryAfter (rate : Rate) (missing : ℚ) : Int :=
  let wait := ⌊missing / rate.count * rate.window⌋
  round (if wait < second then second else wait) second

/-- The tokens that `Allow` finds in a bucket. -/
def tokens (rate : Rate) (now : Int) : Option Bucket → ℚ
  | none => rate.count
  | some state =>
      min rate.count (state.tokens + ((now - state.seen : Int) : ℚ) * rate.count / rate.window)

/-- The tokens that `Allow` asks for. -/
def paid (cost : Int) : Int := if cost < 1 then 1 else cost

/-- `Registry.Allow`. -/
def allow (category : Category) (identity : String) (cost : Int) (now : Int) (visits : Visits) :
    (Bool × Int) × Registry :=
  let cost := paid cost
  let registry := registry.evict now visits
  match registry.rates category with
  | none => ((true, 0), registry)
  | some rate =>
      let key : Key := ⟨category, identity⟩
      let tokens := tokens rate now (registry.buckets.lookup key)
      if cost ≤ tokens then
        ((true, 0), { registry with buckets := registry.buckets.insert key ⟨tokens - cost, now⟩ })
      else
        ((false, retryAfter rate (cost - tokens)),
          { registry with buckets := registry.buckets.insert key ⟨tokens, now⟩ })

/-- `Registry.RecordMiss`. -/
def recordMiss (identity : String) (now : Int) (visits : Visits) : Int × Registry :=
  let registry := registry.evict now visits
  let consecutive := ((registry.misses.lookup identity).map MissState.consecutive).getD 0 + 1
  (if consecutiveMissThreshold ≤ consecutive then 2 else 1,
    { registry with misses := registry.misses.insert identity ⟨consecutive, now⟩ })

/-- `Registry.RecordSuccess`. -/
def recordSuccess (identity : String) : Registry :=
  { registry with misses := registry.misses.erase identity }

end Registry

/-- The header `Retry-After` of `allowIdentity` and `allowHTTP`, in seconds. -/
def retryHeader (retryAfter : Int) : Int := max 1 (retryAfter / second)

/-! ## Calls -/

/-- A call of the registry. -/
inductive Operation where
  | allow (category : Category) (identity : String) (cost : Int)
  | recordMiss (identity : String)
  | recordSuccess (identity : String)

/-- A call with the time that the clock shows and the orders in which it visits the entries. -/
structure Call where
  operation : Operation
  now : Int
  visits : Visits

/-- The call is for the bucket. -/
def Call.uses (call : Call) (key : Key) : Bool :=
  match call.operation with
  | .allow category identity _ => decide (Key.mk category identity = key)
  | _ => false

namespace Registry

/-- The registry after a call. -/
def perform (registry : Registry) (call : Call) : Registry :=
  match call.operation with
  | .allow category identity cost =>
      (registry.allow category identity cost call.now call.visits).2
  | .recordMiss identity => (registry.recordMiss identity call.now call.visits).2
  | .recordSuccess identity => registry.recordSuccess identity

/-- The registry after calls. -/
def run (registry : Registry) (calls : List Call) : Registry := calls.foldl perform registry

/-- The cost that a call for a bucket is allowed. -/
def allowedCost (registry : Registry) (key : Key) (call : Call) : Int :=
  match call.operation with
  | .allow category identity cost =>
      if Key.mk category identity = key ∧
          (registry.allow category identity cost call.now call.visits).1.1 = true then
        paid cost
      else 0
  | _ => 0

/-- When a call evicts, the entries that are left after the stale ones are below the capacity. -/
def Roomy (registry : Registry) (call : Call) : Prop :=
  match call.operation with
  | .recordSuccess _ => True
  | _ => (registry.evictStale call.now).len < registry.maxEntries

/-! ## Eviction -/

/-- The options of a registry. -/
structure Alike (registry registry' : Registry) : Prop where
  rates : registry'.rates = registry.rates
  maxEntries : registry'.maxEntries = registry.maxEntries
  staleAfter : registry'.staleAfter = registry.staleAfter

theorem Alike.refl (registry : Registry) : Alike registry registry := ⟨rfl, rfl, rfl⟩

theorem Alike.trans {first second third : Registry} (left : Alike first second)
    (right : Alike second third) : Alike first third :=
  ⟨right.1.trans left.1, right.2.trans left.2, right.3.trans left.3⟩

variable {registry : Registry}

theorem alike_evictBuckets (keys : List Key) : Alike registry (registry.evictBuckets keys) := by
  induction keys generalizing registry with
  | nil => exact .refl registry
  | cons key keys induction =>
      have erased : Alike registry { registry with buckets := registry.buckets.erase key } :=
        ⟨rfl, rfl, rfl⟩
      rw [evictBuckets]
      split
      · exact erased
      · exact erased.trans induction

theorem alike_evictMisses (identities : List String) :
    Alike registry (registry.evictMisses identities) := by
  induction identities generalizing registry with
  | nil => exact .refl registry
  | cons identity identities induction =>
      have erased : Alike registry { registry with misses := registry.misses.erase identity } :=
        ⟨rfl, rfl, rfl⟩
      rw [evictMisses]
      split
      · exact erased
      · exact erased.trans induction

theorem alike_evict (now : Int) (visits : Visits) : Alike registry (registry.evict now visits) := by
  have stale : Alike registry (registry.evictStale now) := ⟨rfl, rfl, rfl⟩
  rw [evict]
  dsimp only
  split
  · exact stale
  split
  · exact stale.trans (alike_evictBuckets _)
  · exact stale.trans ((alike_evictBuckets _).trans (alike_evictMisses _))

/-- An eviction leaves a bucket as it is or deletes it. -/
def Spares (registry registry' : Registry) : Prop := ∀ key state,
  registry'.buckets.lookup key = some state → registry.buckets.lookup key = some state

theorem Spares.trans {first second third : Registry} (left : Spares first second)
    (right : Spares second third) : Spares first third := fun key state found =>
  left key state (right key state found)

theorem spares_evictBuckets (keys : List Key) : Spares registry (registry.evictBuckets keys) := by
  induction keys generalizing registry with
  | nil => exact fun _ _ found => found
  | cons key keys induction =>
      have erased : Spares registry { registry with buckets := registry.buckets.erase key } := by
        intro other state found
        by_cases same : other = key
        · rw [same, AList.lookup_erase] at found
          cases found
        · rwa [AList.lookup_erase_ne same] at found
      rw [evictBuckets]
      split
      · exact erased
      · exact erased.trans induction

theorem buckets_evictMisses (identities : List String) :
    (registry.evictMisses identities).buckets = registry.buckets := by
  induction identities generalizing registry with
  | nil => rfl
  | cons identity identities induction =>
      rw [evictMisses]
      split
      · rfl
      · exact induction

/-- What an eviction leaves is not stale. -/
theorem lookup_evict {now : Int} {visits : Visits} {key : Key} {state : Bucket}
    (found : (registry.evict now visits).buckets.lookup key = some state) :
    registry.buckets.lookup key = some state ∧ now - state.seen < registry.staleAfter := by
  have spared : Spares (registry.evictStale now) (registry.evict now visits) := by
    rw [evict]
    dsimp only
    split
    · exact fun _ _ found => found
    split
    · exact spares_evictBuckets _
    · intro key state found
      rw [buckets_evictMisses] at found
      exact spares_evictBuckets _ key state found
  have kept := spared key state found
  rw [evictStale, lookup_keep, Option.filter_eq_some_iff] at kept
  exact ⟨kept.1, by simpa using kept.2⟩

/-- Below the capacity exactly the stale buckets are evicted. -/
theorem lookup_evict_of_roomy {now : Int}
    (roomy : (registry.evictStale now).len < registry.maxEntries) (visits : Visits) (key : Key) :
    (registry.evict now visits).buckets.lookup key =
      (registry.buckets.lookup key).filter
        fun state => !decide (registry.staleAfter ≤ now - state.seen) := by
  have evicted : registry.evict now visits = registry.evictStale now := if_pos roomy
  rw [evicted, evictStale, lookup_keep]

/-! ## What a call does to a bucket -/

theorem alike_perform (call : Call) : Alike registry (registry.perform call) := by
  rw [perform]
  split
  case h_1 category identity cost _ =>
    have evicted := @alike_evict registry call.now call.visits
    rw [allow]
    dsimp only
    split
    · exact evicted
    split
    · exact evicted.trans ⟨rfl, rfl, rfl⟩
    · exact evicted.trans ⟨rfl, rfl, rfl⟩
  case h_2 => exact (alike_evict _ _).trans ⟨rfl, rfl, rfl⟩
  case h_3 => exact ⟨rfl, rfl, rfl⟩

theorem alike_run (calls : List Call) : Alike registry (registry.run calls) := by
  induction calls generalizing registry with
  | nil => exact .refl registry
  | cons call calls induction => exact (alike_perform call).trans induction

/-- A call for another bucket leaves a bucket as it is or deletes it. -/
theorem lookup_perform_of_other {call : Call} {key : Key} (other : call.uses key = false) :
    (registry.perform call).buckets.lookup key = registry.buckets.lookup key ∨
      (registry.perform call).buckets.lookup key =
          (registry.evict call.now call.visits).buckets.lookup key ∧
        (registry.Roomy call → (registry.evictStale call.now).len < registry.maxEntries) := by
  rw [perform, Roomy]
  cases same : call.operation with
  | allow category identity cost =>
      have apart : key ≠ ⟨category, identity⟩ := by
        rintro rfl
        simp [Call.uses, same] at other
      right
      refine ⟨?_, id⟩
      dsimp only
      rw [allow]
      dsimp only
      split
      · rfl
      split
      · exact AList.lookup_insert_ne apart
      · exact AList.lookup_insert_ne apart
  | recordMiss identity => exact .inr ⟨rfl, id⟩
  | recordSuccess identity => exact .inl rfl

/-- The tokens in a bucket at some time. -/
def available (registry : Registry) (rate : Rate) (key : Key) (now : Int) : ℚ :=
  tokens rate now (registry.buckets.lookup key)

theorem paid_pos (cost : Int) : 1 ≤ paid cost := by
  rw [paid]
  split
  · exact le_refl 1
  · omega

/-- A call for a bucket is allowed exactly if the bucket has the tokens, and takes them. -/
theorem allow_eq {rate : Rate} {category : Category} {identity : String}
    (known : registry.rates category = some rate) (cost now : Int) (visits : Visits) :
    (registry.allow category identity cost now visits).1 =
      (if (paid cost : ℚ) ≤ (registry.evict now visits).available rate ⟨category, identity⟩ now then
        (true, 0)
      else
        (false, retryAfter rate
          (paid cost - (registry.evict now visits).available rate ⟨category, identity⟩ now))) ∧
    (registry.allow category identity cost now visits).2.buckets.lookup ⟨category, identity⟩ =
      some ⟨(registry.evict now visits).available rate ⟨category, identity⟩ now -
        (if (paid cost : ℚ) ≤
            (registry.evict now visits).available rate ⟨category, identity⟩ now then
          (paid cost : ℚ) else 0), now⟩ := by
  have rates : (registry.evict now visits).rates category = some rate := by
    rw [(alike_evict now visits).rates, known]
  rw [allow, available]
  simp only [rates]
  split
  · simp
  · simp

theorem paid_of_pos {cost : Int} (positive : 1 ≤ cost) : paid cost = cost := if_neg (by omega)

/-- A call for a bucket that the registry does not have is allowed up to the count of the rate. -/
theorem allow_of_fresh {rate : Rate} {key : Key}
    (known : registry.rates key.category = some rate) {cost now : Int} {visits : Visits}
    (fresh : (registry.evict now visits).buckets.lookup key = none) (positive : 1 ≤ cost)
    (affordable : cost ≤ rate.count) :
    registry.allow key.category key.identity cost now visits = ((true, 0),
      { registry.evict now visits with
        buckets := (registry.evict now visits).buckets.insert key ⟨rate.count - cost, now⟩ }) := by
  have rates : (registry.evict now visits).rates key.category = some rate := by
    rw [(alike_evict now visits).rates, known]
  have enough : (cost : ℚ) ≤ rate.count := by exact_mod_cast affordable
  rw [allow]
  simp only [rates, paid_of_pos positive, fresh, tokens]
  exact if_pos enough

end Registry

end Oxbin.Ratelimit
