import Oxbin.Browser.Resync

/-!
# Resynchronisations are linear

In every run of the resynchronisation controller an activation ends once, within its attempts and
its deadline; only the snapshot of the newest request is reconciled, and a success has replayed the
events that arrived since that request, in order.
-/

namespace Oxbin.Browser.Resync

variable {Snapshot Event Authority : Type}

/-! ## The property -/

/-- Whether an activation is open. -/
def Entry.activity (before : Bool) : Entry Snapshot Event Authority → Bool
  | .started => true
  | .succeeded | .failed _ | .stopped => false
  | _ => before

/-- The number of requests of the activation. -/
def Entry.attempts (before : Nat) : Entry Snapshot Event Authority → Nat
  | .started => 0
  | .requested _ _ => before + 1
  | _ => before

/-- The newest request that was not reconciled, with the events that were received since. -/
def Entry.newest (before : Option (Nat × List Event)) :
    Entry Snapshot Event Authority → Option (Nat × List Event)
  | .requested generation _ => some (generation, [])
  | .received event => before.map fun request => (request.1, request.2 ++ [event])
  | .applied _ => before
  | _ => none

/-- Whether an activation is open after a history. -/
def activity (history : List (Entry Snapshot Event Authority)) : Bool :=
  history.foldl Entry.activity false

/-- The number of requests of the last activation. -/
def attempts (history : List (Entry Snapshot Event Authority)) : Nat :=
  history.foldl Entry.attempts 0

/-- The newest request of a history. -/
def newest (history : List (Entry Snapshot Event Authority)) : Option (Nat × List Event) :=
  history.foldl Entry.newest none

/-- What has to hold of a history when an entry follows it. -/
def Allowed (options : Options) (front : List (Entry Snapshot Event Authority)) :
    Entry Snapshot Event Authority → Prop
  | .started => activity front = false
  | .received _ => activity front = true
  | .requested _ _ => activity front = true ∧ attempts front < options.maxAttempts
  | .reconciled generation _ _ =>
      activity front = true ∧ ∃ events, newest front = some (generation, events)
  | .applied _ => activity front = true
  | .succeeded => activity front = true ∧
      ∃ before generation snapshot authority events,
        front = before ++ .reconciled generation snapshot authority :: events.map .applied ∧
          newest before = some (generation, events)
  | .failed _ => activity front = true
  | .stopped => activity front = true

/-- Every entry of the history is allowed after the entries before it. -/
def Linear (options : Options) (history : List (Entry Snapshot Event Authority)) : Prop :=
  ∀ front entry back, history = front ++ entry :: back → Allowed options front entry

@[simp] theorem activity_concat (history : List (Entry Snapshot Event Authority))
    (entry : Entry Snapshot Event Authority) :
    activity (history ++ [entry]) = entry.activity (activity history) := by
  simp [activity]

@[simp] theorem attempts_concat (history : List (Entry Snapshot Event Authority))
    (entry : Entry Snapshot Event Authority) :
    attempts (history ++ [entry]) = entry.attempts (attempts history) := by
  simp [attempts]

@[simp] theorem newest_concat (history : List (Entry Snapshot Event Authority))
    (entry : Entry Snapshot Event Authority) :
    newest (history ++ [entry]) = entry.newest (newest history) := by
  simp [newest]

theorem Linear.concat {options : Options} {history : List (Entry Snapshot Event Authority)}
    (linear : Linear options history) {entry : Entry Snapshot Event Authority}
    (allowed : Allowed options history entry) : Linear options (history ++ [entry]) := by
  intro front other back split
  rcases List.eq_nil_or_concat back with rfl | ⟨middle, last, rfl⟩
  · obtain ⟨rfl, same⟩ := List.append_inj' split rfl
    cases same
    exact allowed
  · have split' : history ++ [entry] = (front ++ other :: middle) ++ [last] := by
      rw [split]
      simp
    exact linear front other middle (List.append_inj' split' rfl).1

/-! ## The invariant -/

/-- What holds in every run, also while the callback of the deadline runs. -/
structure Tracked (options : Options) (world : World Snapshot Event Authority) : Prop where
  linear : Linear options world.history
  activity : activity world.history = world.active
  attempts : world.active = true → attempts world.history = world.attempt
  attempting : world.active = false → world.requestController = none
  newest : ∀ generation, world.requestController = some generation →
    newest world.history = some (generation, world.buffer)
  deadlineTimer : ∀ timer, world.deadlineTimer = some timer → world.timers.Armed timer .deadline
  retryTimer : ∀ timer, world.retryTimer = some timer → world.timers.Armed timer .retry

/-- What holds in every run. -/
structure Kept (options : Options) (world : World Snapshot Event Authority) : Prop
    extends Tracked options world where
  deadline : world.active = true → world.deadlineTimer.isSome = true

section Kept

variable {options : Options} {surroundings : Surroundings Snapshot Event Authority}
  {world : World Snapshot Event Authority}

/-- Clearing a timer of one kind leaves the timers of the other kind armed. -/
theorem armed_clear_other {timers : Timers Callback} {timer other : Nat}
    {callback callback' : Callback} (armed : timers.Armed timer callback)
    (armed' : timers.Armed other callback') (differ : callback ≠ callback') :
    (timers.clear other).Armed timer callback := by
  refine Timers.armed_clear.mpr ⟨armed, fun same => differ ?_⟩
  subst same
  exact armed.unique armed'

/-- Clearing the timer of one field leaves a timer of the other kind armed. -/
theorem armed_clear?_other {timers : Timers Callback} {timer : Nat} {field : Option Nat}
    {callback callback' : Callback} (armed : timers.Armed timer callback)
    (held : ∀ other, field = some other → timers.Armed other callback')
    (differ : callback ≠ callback') : (timers.clear? field).Armed timer callback := by
  cases field with
  | none => exact armed
  | some other => exact armed_clear_other armed (held other rfl) differ

theorem Tracked.cancelAttempt (tracked : Tracked options world) :
    Tracked options world.cancelAttempt where
  linear := tracked.linear
  activity := tracked.activity
  attempts := tracked.attempts
  attempting _ := rfl
  newest _ current := by cases current
  deadlineTimer timer held :=
    armed_clear?_other (tracked.deadlineTimer timer held) tracked.retryTimer (by simp)
  retryTimer _ held := by cases held

theorem Kept.cancelAttempt (kept : Kept options world) : Kept options world.cancelAttempt :=
  ⟨kept.toTracked.cancelAttempt, kept.deadline⟩

/-- An activation ends with its entry. -/
theorem Tracked.finish (tracked : Tracked options world)
    (attempting : world.requestController = none) {entry : Entry Snapshot Event Authority}
    (allowed : Allowed options world.history entry) (ends : entry.activity world.active = false)
    (buffer : List Event) :
    Kept options
      ({ world.clearDeadline with active := false, buffer := buffer }.record entry) where
  linear := tracked.linear.concat allowed
  activity := by
    change Resync.activity (world.history ++ [entry]) = false
    rw [activity_concat, tracked.activity, ends]
  attempts active := by cases active
  attempting _ := attempting
  newest _ current := absurd (attempting.symm.trans current) (by simp)
  deadlineTimer _ held := by cases held
  retryTimer timer held :=
    armed_clear?_other (tracked.retryTimer timer held) tracked.deadlineTimer (by simp)
  deadline active := by cases active

theorem Tracked.fail (tracked : Tracked options world) (active : world.active = true)
    (reason : Reason) : Kept options (world.fail reason) := by
  have allowed : Allowed options world.history (.failed reason) := by
    change Resync.activity world.history = true
    rw [tracked.activity, active]
  exact tracked.cancelAttempt.finish rfl allowed rfl []

/-- A new attempt, once the old one is cancelled. -/
theorem Kept.attempt (cancelled : Kept options world.cancelAttempt)
    (active : world.active = true) :
    Kept options (world.beginAttempt options surroundings) := by
  rw [World.beginAttempt, if_neg (by simp [active])]
  dsimp only
  split
  next => exact cancelled.fail active .requestFailed
  next budget =>
    have budget : world.cancelAttempt.hasBudget options surroundings 0 = true := by
      simpa using budget
    have within : world.attempt < options.maxAttempts := (of_decide_eq_true budget).1
    have counted := cancelled.attempts active
    refine ⟨⟨cancelled.linear.concat ?_, ?_, ?_, ?_, ?_, cancelled.deadlineTimer,
      cancelled.retryTimer⟩, cancelled.deadline⟩
    · refine ⟨cancelled.activity.trans active, ?_⟩
      rw [counted]
      exact within
    · change Resync.activity (world.history ++ [_]) = world.active
      rw [activity_concat]
      exact cancelled.activity
    · intro _
      change Resync.attempts (world.history ++ [_]) = world.attempt + 1
      rw [attempts_concat]
      exact congrArg (· + 1) counted
    · intro ended
      have ended : world.active = false := ended
      rw [active] at ended
      cases ended
    · rintro generation ⟨⟩
      change Resync.newest (world.history ++ [_]) = _
      rw [newest_concat]
      rfl

theorem Kept.beginAttempt (kept : Kept options world) :
    Kept options (world.beginAttempt options surroundings) := by
  by_cases active : world.active = true
  · exact kept.cancelAttempt.attempt active
  · rw [World.beginAttempt, if_pos (by simpa using active)]
    exact kept

theorem Kept.retry (kept : Kept options world) (reason : Reason) :
    Kept options (world.retry options surroundings reason) := by
  rw [World.retry]
  split
  next => exact kept
  next active =>
    have active : world.active = true := by simpa using active
    dsimp only
    split
    next => exact kept.fail active reason
    next =>
      refine ⟨⟨kept.linear, kept.activity, kept.attempts, kept.attempting, kept.newest,
        fun timer held => ?_, ?_⟩, kept.deadline⟩
      · exact Timers.armed_set.mpr (.inr (kept.deadlineTimer timer held))
      · rintro timer ⟨⟩
        exact Timers.armed_set.mpr (.inl ⟨rfl, rfl⟩)

/-- An entry inside of an activation, while no request is waited for. -/
theorem Kept.record (kept : Kept options world) (attempting : world.requestController = none)
    {entry : Entry Snapshot Event Authority} (allowed : Allowed options world.history entry)
    (stays : entry.activity world.active = world.active)
    (counts : entry.attempts (Resync.attempts world.history) = Resync.attempts world.history) :
    Kept options (world.record entry) where
  linear := kept.linear.concat allowed
  activity := by
    change Resync.activity (world.history ++ [entry]) = world.active
    rw [activity_concat, kept.activity, stays]
  attempts active := by
    change Resync.attempts (world.history ++ [entry]) = world.attempt
    rw [attempts_concat, counts, kept.attempts active]
  attempting _ := attempting
  newest _ current := absurd (attempting.symm.trans current) (by simp)
  deadlineTimer := kept.deadlineTimer
  retryTimer := kept.retryTimer
  deadline := kept.deadline

theorem Kept.start (kept : Kept options world) :
    Kept options (world.start options surroundings) := by
  rw [World.start]
  by_cases active : world.active = true
  · simp only [active, if_true]
    exact kept.beginAttempt
  · have ended : world.active = false := by simpa using active
    have attempting := kept.attempting ended
    simp only [ended, Bool.false_eq_true, if_false]
    apply Kept.beginAttempt
    refine ⟨⟨kept.linear.concat (kept.activity.trans ended), ?_, ?_, ?_, ?_, ?_, ?_⟩, fun _ => rfl⟩
    · change Resync.activity (world.history ++ [_]) = true
      rw [activity_concat]
      rfl
    · intro _
      change Resync.attempts (world.history ++ [_]) = 0
      rw [attempts_concat]
      rfl
    · intro _
      exact attempting
    · intro generation current
      exact absurd (attempting.symm.trans current) (by simp)
    · rintro timer ⟨⟩
      exact Timers.armed_set.mpr (.inl ⟨rfl, rfl⟩)
    · intro timer held
      exact Timers.armed_set.mpr (.inr (kept.retryTimer timer held))

theorem Kept.bufferEvent (kept : Kept options world) (event : Event) :
    Kept options (world.bufferEvent options surroundings event) := by
  rw [World.bufferEvent]
  split
  next => exact kept
  next active =>
    have active : world.active = true := by simpa using active
    have allowed : Allowed options world.history (.received event) := kept.activity.trans active
    dsimp only
    split
    next =>
      refine ⟨⟨kept.linear.concat allowed, ?_, ?_, kept.attempting, ?_, kept.deadlineTimer,
        kept.retryTimer⟩, kept.deadline⟩
      · change Resync.activity (world.history ++ [_]) = world.active
        rw [activity_concat]
        exact kept.activity
      · intro _
        change Resync.attempts (world.history ++ [_]) = world.attempt
        rw [attempts_concat]
        exact kept.attempts active
      · intro generation current
        change Resync.newest (world.history ++ [_]) = some (generation, world.buffer ++ [event])
        rw [newest_concat, kept.newest generation current]
        rfl
    next =>
      -- The event that overflows the buffer comes before the next request.
      have cancelled := kept.cancelAttempt.record rfl allowed rfl rfl
      exact Kept.attempt cancelled active

theorem Kept.stop (kept : Kept options world) : Kept options world.stop := by
  have cancelled := kept.toTracked.cancelAttempt
  by_cases active : world.active = true
  · have allowed : Allowed options world.history .stopped := kept.activity.trans active
    have finished := cancelled.finish rfl allowed rfl []
    rw [World.stop, if_pos active]
    exact ⟨⟨finished.linear, finished.activity, finished.attempts, finished.attempting,
      finished.newest, finished.deadlineTimer, finished.retryTimer⟩, finished.deadline⟩
  · have ended : world.active = false := by simpa using active
    rw [World.stop, if_neg active]
    refine ⟨⟨kept.linear, kept.activity.trans ended, ?_, fun _ => rfl, ?_, ?_, ?_⟩, ?_⟩
    · intro active
      cases active
    · intro generation current
      cases current
    · intro timer held
      cases held
    · intro timer held
      cases held
    · intro active
      cases active

/-- The loop over the buffer; `done` are the events that were applied so far. -/
theorem Kept.applyAll (kept : Kept options world) (active : world.active = true)
    (attempting : world.requestController = none)
    {before : List (Entry Snapshot Event Authority)} {generation : Nat} {snapshot : Snapshot}
    {authority : Authority} {done later : List Event} (position : Nat)
    (history : world.history =
      before ++ .reconciled generation snapshot authority :: done.map .applied)
    (since : Resync.newest before = some (generation, done ++ later)) :
    Kept options (world.applyAll options surroundings position later) := by
  induction later generalizing world done position with
  | nil =>
      have allowed : Allowed options world.history .succeeded := by
        rw [List.append_nil] at since
        exact ⟨kept.activity.trans active, before, generation, snapshot, authority, done, history,
          since⟩
      exact kept.toTracked.finish attempting allowed rfl world.buffer
  | cons event later induction =>
      have recorded : Kept options (world.record (.applied event)) :=
        kept.record attempting (kept.activity.trans active) rfl rfl
      have history' : (world.record (.applied event)).history =
          before ++ .reconciled generation snapshot authority ::
            (done ++ [event]).map .applied := by
        change world.history ++ [_] = _
        rw [history]
        simp
      have since' : Resync.newest before = some (generation, (done ++ [event]) ++ later) := by
        rw [since]
        simp
      rw [World.applyAll]
      split
      next => exact induction recorded active attempting (position + 1) history' since'
      next => exact recorded.retry _
      next => exact recorded

theorem isCurrent_iff {generation : Nat} : world.isCurrent generation = true ↔
    world.active = true ∧ world.generation = generation ∧
      world.requestController = some generation ∧ generation ∉ world.aborted := by
  simp [World.isCurrent, and_assoc]

theorem Kept.resolved (kept : Kept options world) (generation : Nat) (authority : Authority)
    (snapshot : Snapshot) :
    Kept options (world.resolved options surroundings generation authority snapshot) := by
  rw [World.resolved]
  split
  next => exact kept
  next current =>
    obtain ⟨active, -, attempting, -⟩ := isCurrent_iff.mp (by simpa using current)
    have since := kept.newest generation attempting
    have reconciled : Kept options ({ world with requestController := none }.record
        (.reconciled generation snapshot authority)) := by
      refine ⟨⟨kept.linear.concat ⟨kept.activity.trans active, world.buffer, since⟩, ?_, ?_,
        fun _ => rfl, ?_, kept.deadlineTimer, kept.retryTimer⟩, kept.deadline⟩
      · change Resync.activity (world.history ++ [_]) = world.active
        rw [activity_concat]
        exact kept.activity
      · intro _
        change Resync.attempts (world.history ++ [_]) = world.attempt
        rw [attempts_concat]
        exact kept.attempts active
      · intro other waiting
        cases waiting
    dsimp only
    split
    next => exact reconciled.fail active _
    next => exact reconciled.retry _
    next => exact reconciled
    next =>
      have emptied : Kept options { { world with requestController := none }.record
          (.reconciled generation snapshot authority) with buffer := [] } :=
        ⟨⟨reconciled.linear, reconciled.activity, reconciled.attempts, reconciled.attempting,
          fun _ waiting => (by cases waiting), reconciled.deadlineTimer, reconciled.retryTimer⟩,
          reconciled.deadline⟩
      have since' : Resync.newest world.history = some (generation, [] ++ world.buffer) := since
      exact emptied.applyAll active rfl 0 rfl since'

theorem Kept.rejected (kept : Kept options world) (generation : Nat) (abortError : Bool) :
    Kept options (world.rejected options surroundings generation abortError) := by
  have dropped : Kept options { world with requestController := none } :=
    ⟨⟨kept.linear, kept.activity, kept.attempts, fun _ => rfl, fun _ waiting => (by cases waiting),
      kept.deadlineTimer, kept.retryTimer⟩, kept.deadline⟩
  rw [World.rejected]
  split
  next => exact kept
  next =>
    dsimp only
    split
    next => exact dropped
    next => exact dropped.retry _

theorem Kept.settle (kept : Kept options world) (generation : Nat) :
    Kept options (world.settle generation) :=
  ⟨⟨kept.linear, kept.activity, kept.attempts, kept.attempting, kept.newest, kept.deadlineTimer,
    kept.retryTimer⟩, kept.deadline⟩

/-- The deadline of an activation ends it. -/
theorem Kept.deadline_fires (kept : Kept options world) {timer : Nat}
    (armed : world.timers.Armed timer .deadline) :
    Kept options
      ({ world with timers := world.timers.clear timer }.called
        options surroundings .deadline) := by
  have tracked : Tracked options
      { world with timers := world.timers.clear timer, deadlineTimer := none } :=
    ⟨kept.linear, kept.activity, kept.attempts, kept.attempting, kept.newest,
      fun _ held => (by cases held), fun other held =>
        armed_clear_other (kept.retryTimer other held) armed (by simp)⟩
  rw [World.called]
  dsimp only
  split
  next active => exact tracked.fail active _
  next ended => exact ⟨tracked, fun active => absurd active ended⟩

theorem Kept.retry_fires (kept : Kept options world) {timer : Nat}
    (armed : world.timers.Armed timer .retry) :
    Kept options
      ({ world with timers := world.timers.clear timer }.called options surroundings .retry) := by
  have waiting : Kept options
      { world with timers := world.timers.clear timer, retryTimer := none } :=
    ⟨⟨kept.linear, kept.activity, kept.attempts, kept.attempting, kept.newest, fun other held =>
        armed_clear_other (kept.deadlineTimer other held) armed (by simp),
      fun _ held => (by cases held)⟩, kept.deadline⟩
  exact waiting.beginAttempt

theorem Kept.step (kept : Kept options world) (happening : Happening Snapshot Event) :
    Kept options (world.step options surroundings happening) := by
  cases happening with
  | start => exact kept.start
  | bufferEvent event => exact kept.bufferEvent event
  | stop => exact kept.stop
  | resolve generation snapshot =>
      rw [World.step]
      split
      next => exact kept
      next authority _ => exact (kept.settle generation).resolved generation authority snapshot
  | reject generation abortError =>
      rw [World.step]
      split
      next => exact kept
      next => exact (kept.settle generation).rejected generation abortError
  | fire timer =>
      rw [World.step]
      split
      next => exact kept
      next callback found =>
        have armed := Timers.armed_of_callback? found
        cases callback with
        | retry => exact kept.retry_fires armed
        | deadline => exact kept.deadline_fires armed

end Kept

theorem kept_run (options : Options)
    (events : List (Surroundings Snapshot Event Authority × Happening Snapshot Event)) :
    Kept options (run options events) := by
  have start : Kept options ({} : World Snapshot Event Authority) := by
    refine ⟨⟨?_, rfl, fun active => (by cases active), fun _ => rfl,
      fun _ waiting => (by cases waiting), fun _ held => (by cases held),
      fun _ held => (by cases held)⟩, fun active => (by cases active)⟩
    intro front entry back split
    cases front <;> cases split
  exact List.foldlRecOn events _ start fun _ kept event _ => kept.step event.2

/-- In every run an activation ends once, with a success, a failure or a call of `stop`, and while
it is open its deadline is armed and ends it; it issues at most `maxAttempts` requests; only the
newest request is reconciled; and a success follows on the reconciliation and on the application
of the events that were received since that request, each once and in order. -/
theorem resync_linear (options : Options)
    (events : List (Surroundings Snapshot Event Authority × Happening Snapshot Event)) :
    Linear options (run options events).history ∧
      activity (run options events).history = (run options events).active ∧
      ((run options events).active = true → ∃ timer, ∀ surroundings,
        ((run options events).step options surroundings (.fire timer)).history =
          (run options events).history ++ [.failed .requestFailed]) := by
  have kept := kept_run options events
  refine ⟨kept.linear, kept.activity, fun active => ?_⟩
  obtain ⟨timer, held⟩ := Option.isSome_iff_exists.mp (kept.deadline active)
  have armed := kept.deadlineTimer timer held
  refine ⟨timer, fun surroundings => ?_⟩
  rw [World.step, armed.callback?_eq]
  dsimp only [World.called]
  rw [if_pos active]
  rfl

end Oxbin.Browser.Resync
