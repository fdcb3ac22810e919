import Oxbin.Browser.Connection

/-!
# Coherence of the connection controller

What the controller waits for is one of a socket, a reconnect timer and a reconnect probe, and it
reports `connected` exactly while its socket is joined.  `start`, `reconnectAfterResync` and a close
can break this; the theorem says in which states they do.
-/

namespace Oxbin.Browser.Connection

/-! ## The property -/

/-- A probe is under way whose result the controller waits for. -/
def World.inFlight (world : World) : Bool :=
  world.probing && decide (world.probeGeneration ∈ world.probes)

/-- The number of current sockets, armed reconnect timers and reconnect probes in flight. -/
def World.pending (world : World) : Nat :=
  world.socket.toList.length + (world.timers.held Callback.isReconnect).length +
    world.inFlight.toNat

/-- At most one source is pending, and the state is `connected` while the socket is joined. -/
structure Coherent (world : World) : Prop where
  single : world.pending ≤ 1
  connected : world.state = .connected ↔ world.socket.isSome = true ∧ world.joined = true

/-- The event is a callback of a socket that is not the current one, or of a probe whose result the
controller does not wait for. -/
def Superseded (world : World) : Event → Prop
  | .opened socket | .message socket _ | .closed socket _ _ => world.socket ≠ some socket
  | .fire timer => ∃ socket, world.socket ≠ some socket ∧
      (world.timers.callback? timer = some (.connectTimeout socket) ∨
        world.timers.callback? timer = some (.joinTimeout socket))
  | .settle generation _ => world.probing = false ∨ world.probeGeneration ≠ generation
  | _ => False

/-- The controller and what it did are as before. -/
def Unmoved (before after : World) : Prop :=
  after.toController = before.toController ∧ after.outputs = before.outputs

/-- The event does not start over a probe, drop a joined connection without a state, or close a
joined socket over a probe that settled while the browser was not online. -/
def Orderly (isOnline : Bool) (world : World) : Event → Prop
  | .start => (isOnline = true → world.socket = none → world.inFlight = false) ∧
      (isOnline = false → world.joined = false)
  | .reconnectAfterResync => world.stopped = false →
      (isOnline = true → world.inFlight = false) ∧ (isOnline = false → world.joined = false)
  | .closed socket code reason => world.socket = some socket → isOnline = true →
      World.ending (code.getD 1006) (reason.getD "") = none → world.probing = true →
      world.joined = false
  | _ => True

/-! ## The invariant of all runs -/

/-- What holds in every run. -/
structure Sound (options : Options) (world : World) : Prop where
  joined : world.joined = true → world.socket.isSome = true
  stopped : world.stopped = true →
    world.socket = none ∧ world.reconnectTimer = none ∧ world.probing = false
  held : world.timers.held Callback.isReconnect = world.reconnectTimer.toList
  connectTimer : ∀ id, world.connectTimer = some id →
    id < world.timers.next ∧ world.reconnectTimer ≠ some id
  joinTimer : ∀ id, world.joinTimer = some id →
    id < world.timers.next ∧ world.reconnectTimer ≠ some id
  probes : world.probing = true → options.probes = true

namespace World

theorem setState_eq (next : LiveConnectionState) (world : World) :
    world.setState next = { world with
      state := next
      outputs := if world.state = next then world.outputs else world.outputs ++
        [.state next, .work (next = .connecting ∨ next = .reconnecting)] } := by
  unfold setState
  split
  next same => cases world; cases same; rfl
  next => rfl

theorem closeSocket_eq (socket : Option Nat) (code : Int) (reason : String) (world : World) :
    world.closeSocket socket code reason = { world with
      outputs := world.outputs ++ socket.toList.map fun socket => .close socket code reason } := by
  cases socket with
  | none => simp [closeSocket]
  | some socket => rfl

theorem isCurrent_iff {socket : Nat} {world : World} :
    world.isCurrent socket = true ↔ world.stopped = false ∧ world.socket = some socket := by
  simp [isCurrent]

theorem isCurrentProbe_iff {generation : Nat} {isOnline : Bool} {world : World} :
    world.isCurrentProbe generation isOnline = true ↔ world.stopped = false ∧
      world.probing = true ∧ world.probeGeneration = generation ∧ isOnline = true := by
  simp [isCurrentProbe, and_assoc]

end World

section Sound

variable {options : Options} {world : World}

theorem held_clear_other {timers : Timers Callback} {reconnectTimer : Option Nat} {id : Nat}
    (held : timers.held Callback.isReconnect = reconnectTimer.toList)
    (other : reconnectTimer ≠ some id) :
    (timers.clear id).held Callback.isReconnect = reconnectTimer.toList := by
  rw [Timers.held_clear, held]
  cases reconnectTimer with
  | none => rfl
  | some armed =>
      have differs : armed ≠ id := fun same => other (congrArg some same)
      simp [differs]

theorem Sound.setState (sound : Sound options world) (next : LiveConnectionState) :
    Sound options (world.setState next) := by
  rw [World.setState_eq]
  exact ⟨sound.joined, sound.stopped, sound.held, sound.connectTimer, sound.joinTimer,
    sound.probes⟩

theorem Sound.emit (sound : Sound options world) (output : Output) :
    Sound options (world.emit output) :=
  ⟨sound.joined, sound.stopped, sound.held, sound.connectTimer, sound.joinTimer, sound.probes⟩

theorem Sound.closeSocket (sound : Sound options world) (socket : Option Nat) (code : Int)
    (reason : String) : Sound options (world.closeSocket socket code reason) := by
  rw [World.closeSocket_eq]
  exact ⟨sound.joined, sound.stopped, sound.held, sound.connectTimer, sound.joinTimer,
    sound.probes⟩

theorem Sound.clearConnectTimer (sound : Sound options world) :
    Sound options world.clearConnectTimer where
  joined := sound.joined
  stopped := sound.stopped
  held := by
    cases timer : world.connectTimer with
    | none => simpa [World.clearConnectTimer, timer, Timers.clear?] using sound.held
    | some id =>
        simpa [World.clearConnectTimer, timer, Timers.clear?] using
          held_clear_other sound.held (sound.connectTimer id timer).2
  connectTimer _ none := by cases none
  joinTimer id timer := by simpa [World.clearConnectTimer] using sound.joinTimer id timer
  probes := sound.probes

theorem Sound.clearJoinTimer (sound : Sound options world) :
    Sound options world.clearJoinTimer where
  joined := sound.joined
  stopped := sound.stopped
  held := by
    cases timer : world.joinTimer with
    | none => simpa [World.clearJoinTimer, timer, Timers.clear?] using sound.held
    | some id =>
        simpa [World.clearJoinTimer, timer, Timers.clear?] using
          held_clear_other sound.held (sound.joinTimer id timer).2
  connectTimer id timer := by simpa [World.clearJoinTimer] using sound.connectTimer id timer
  joinTimer _ none := by cases none
  probes := sound.probes

theorem Sound.clearAttemptTimers (sound : Sound options world) :
    Sound options world.clearAttemptTimers :=
  sound.clearConnectTimer.clearJoinTimer

theorem Sound.clearReconnectTimer (sound : Sound options world) :
    Sound options world.clearReconnectTimer where
  joined := sound.joined
  stopped stops := ⟨(sound.stopped stops).1, rfl, (sound.stopped stops).2.2⟩
  held := by
    cases timer : world.reconnectTimer with
    | none =>
        have held := sound.held
        rw [timer] at held
        simpa [World.clearReconnectTimer, timer, Timers.clear?] using held
    | some id =>
        have held := sound.held
        rw [timer] at held
        simp [World.clearReconnectTimer, timer, Timers.clear?, Timers.held_clear, held]
  connectTimer id timer := by
    simpa [World.clearReconnectTimer] using (sound.connectTimer id timer).1
  joinTimer id timer := by simpa [World.clearReconnectTimer] using (sound.joinTimer id timer).1
  probes := sound.probes

theorem Sound.cancelProbe (sound : Sound options world) : Sound options world.cancelProbe where
  joined := sound.joined
  stopped stops := ⟨(sound.stopped stops).1, (sound.stopped stops).2.1, rfl⟩
  held := sound.held
  connectTimer := sound.connectTimer
  joinTimer := sound.joinTimer
  probes probing := by cases probing

/-- Dropping the socket. -/
theorem Sound.drop (sound : Sound options world) :
    Sound options { world with socket := none, joined := false } where
  joined joins := by cases joins
  stopped stops := ⟨rfl, (sound.stopped stops).2⟩
  held := sound.held
  connectTimer := sound.connectTimer
  joinTimer := sound.joinTimer
  probes := sound.probes

/-- Arming a timer of an attempt. -/
theorem Sound.held_set (sound : Sound options world) {callback : Callback}
    (other : callback.isReconnect = false) :
    (world.timers.set callback).held Callback.isReconnect = world.reconnectTimer.toList := by
  rw [Timers.held_set, other]
  exact sound.held

theorem Sound.reconnectTimer_ne (sound : Sound options world) :
    world.reconnectTimer ≠ some world.timers.next := by
  intro same
  have member : world.timers.next ∈ world.timers.held Callback.isReconnect := by
    rw [sound.held, same]
    exact List.mem_singleton_self _
  exact (Timers.lt_of_mem_held member).false

theorem Sound.connect (sound : Sound options world) (isOnline : Bool) :
    Sound options (world.connect isOnline) := by
  rw [World.connect]
  split
  next =>
    split
    next => exact sound.setState .offline
    next => exact sound
  next condition =>
    simp only [Bool.or_eq_true, not_or, Bool.not_eq_true] at condition
    have cleared : Sound options { world.clearReconnectTimer with joined := false } := by
      have cleared := sound.clearReconnectTimer
      exact { cleared with joined := fun joins => by cases joins }
    have named := cleared.setState (if world.attempt = 0 then .connecting else .reconnecting)
    refine ⟨fun _ => rfl, fun stops => ?_, ?_, ?_, ?_, named.probes⟩
    · have stopped : world.stopped = true := by
        simpa [World.emit, World.setState_eq, World.clearReconnectTimer] using stops
      rw [condition.1.1] at stopped
      cases stopped
    · exact named.held_set rfl
    · rintro id ⟨⟩
      exact ⟨Nat.lt_succ_self _, named.reconnectTimer_ne⟩
    · intro id timer
      have earlier := named.joinTimer id timer
      exact ⟨Nat.lt_succ_of_lt earlier.1, earlier.2⟩

theorem Sound.scheduleReconnect (sound : Sound options world) (isOnline : Bool) :
    Sound options (world.scheduleReconnect isOnline) := by
  rw [World.scheduleReconnect]
  split
  next => exact sound
  next condition =>
    simp only [Bool.or_eq_true, not_or, Bool.not_eq_true] at condition
    have named := sound.setState .reconnecting
    have none : world.reconnectTimer = none := by simpa using condition.1.2
    have none' : (world.setState .reconnecting).reconnectTimer = Option.none := by
      simpa [World.setState_eq] using none
    refine ⟨named.joined, fun stops => ?_, ?_, fun id timer => ?_, fun id timer => ?_,
      named.probes⟩
    · have stopped : world.stopped = true := by simpa [World.setState_eq] using stops
      rw [condition.1.1] at stopped
      cases stopped
    · have held := named.held
      rw [none'] at held
      rw [Timers.held_set, held]
      rfl
    · have earlier := (named.connectTimer id timer).1
      refine ⟨Nat.lt_succ_of_lt earlier, fun same => ?_⟩
      cases same
      exact earlier.false
    · have earlier := (named.joinTimer id timer).1
      refine ⟨Nat.lt_succ_of_lt earlier, fun same => ?_⟩
      cases same
      exact earlier.false

theorem Sound.retryOrExhaust (sound : Sound options world) (isOnline : Bool) :
    Sound options (world.retryOrExhaust options isOnline) := by
  rw [World.retryOrExhaust]
  split
  next => exact (sound.setState .offline).emit _
  next => exact sound.scheduleReconnect isOnline

theorem Sound.probeBeforeReconnect (sound : Sound options world) (isOnline : Bool)
    (probes : options.probes = true) :
    Sound options (world.probeBeforeReconnect isOnline) := by
  rw [World.probeBeforeReconnect]
  split
  next =>
    split
    next => exact sound.setState .offline
    next => exact sound
  next condition =>
    simp only [Bool.or_eq_true, not_or, Bool.not_eq_true] at condition
    have begun : Sound options { world with
        probing := true, probeGeneration := world.probeGeneration + 1 } := by
      refine ⟨sound.joined, fun stops => ?_, sound.held, sound.connectTimer, sound.joinTimer,
        fun _ => probes⟩
      have stopped : world.stopped = true := stops
      rw [condition.1.1] at stopped
      cases stopped
    have emitted := (begun.setState .reconnecting).emit (.probe (world.probeGeneration + 1))
    exact ⟨emitted.joined, emitted.stopped, emitted.held, emitted.connectTimer,
      emitted.joinTimer, emitted.probes⟩

theorem Sound.probed (sound : Sound options world) (generation : Nat)
    (result : Option LiveReconnectProbeResult) (isOnline : Bool) :
    Sound options (world.probed options generation result isOnline) := by
  have settled : Sound options { world with probing := false } :=
    ⟨sound.joined, fun stops => ⟨(sound.stopped stops).1, (sound.stopped stops).2.1, rfl⟩,
      sound.held, sound.connectTimer, sound.joinTimer, fun probing => by cases probing⟩
  rw [World.probed]
  split
  next => exact sound
  next =>
    dsimp only
    split
    next => exact (settled.setState .offline).emit _
    next => exact (settled.setState .offline).emit _
    all_goals exact settled.retryOrExhaust isOnline

theorem sound_foldl_emit (outputs : List Output) (sound : Sound options world) :
    Sound options (outputs.foldl (fun world output => world.emit output) world) :=
  List.foldlRecOn outputs _ sound fun _ sound output _ => sound.emit output

theorem Sound.afterClose (sound : Sound options world) (code : Int) (reason : String)
    (isOnline : Bool) : Sound options (world.afterClose options code reason isOnline) := by
  have tried : Sound options { world with attempt := world.attempt + 1 } :=
    ⟨sound.joined, sound.stopped, sound.held, sound.connectTimer, sound.joinTimer, sound.probes⟩
  rw [World.afterClose]
  split
  next => exact sound.setState .offline
  next =>
    split
    next outputs _ => exact sound_foldl_emit outputs (sound.setState .offline)
    next =>
      dsimp only
      split
      next probes => exact tried.probeBeforeReconnect isOnline probes
      next => exact tried.retryOrExhaust isOnline

theorem Sound.handleClose (sound : Sound options world) (socket : Nat) (code : Option Int)
    (reason : Option String) (isOnline : Bool) :
    Sound options (world.handleClose options socket code reason isOnline) := by
  rw [World.handleClose]
  split
  next => exact sound
  next => exact (sound.drop.clearAttemptTimers.emit _).afterClose _ _ isOnline

theorem Sound.opened (sound : Sound options world) (socket : Nat) :
    Sound options (world.opened socket) := by
  rw [World.opened]
  split
  next => exact sound
  next =>
    have joins := sound.clearConnectTimer.emit (.join socket)
    refine ⟨joins.joined, joins.stopped, joins.held_set rfl, fun id timer => ?_, ?_, joins.probes⟩
    · cases timer
    · rintro id ⟨⟩
      exact ⟨Nat.lt_succ_self _, joins.reconnectTimer_ne⟩

theorem Sound.timedOut (sound : Sound options world) (socket : Nat) (reason : String) :
    Sound options (world.timedOut socket reason) := by
  rw [World.timedOut]
  split
  next => exact sound
  next => exact sound.emit _

/-- The reconnect timer is the one that the controller holds. -/
theorem Sound.mem_reconnectTimer (sound : Sound options world) {timer : Nat} {callback : Callback}
    (armed : world.timers.callback? timer = some callback) :
    world.reconnectTimer = some timer ↔ callback.isReconnect = true := by
  rw [← (Timers.armed_of_callback? armed).mem_held_iff, sound.held, Option.mem_toList]

theorem Sound.disarm (sound : Sound options world) {timer : Nat} {callback : Callback}
    (armed : world.timers.callback? timer = some callback)
    (attempts : callback.isReconnect = false) :
    Sound options { world with timers := world.timers.clear timer } := by
  refine ⟨sound.joined, sound.stopped, held_clear_other sound.held fun same => ?_,
    sound.connectTimer, sound.joinTimer, sound.probes⟩
  rw [sound.mem_reconnectTimer armed, attempts] at same
  cases same

theorem Sound.disarm_reconnect (sound : Sound options world) {timer : Nat}
    (armed : world.timers.callback? timer = some .reconnect) :
    world.reconnectTimer = some timer ∧ Sound options
      { world with timers := world.timers.clear timer, reconnectTimer := none } := by
  have same := (sound.mem_reconnectTimer armed).mpr rfl
  have cleared := sound.clearReconnectTimer
  unfold World.clearReconnectTimer at cleared
  rw [same] at cleared
  exact ⟨same, cleared⟩

/-- A timer that fires is armed no more. -/
theorem Sound.fire (sound : Sound options world) (isOnline : Bool) {timer : Nat}
    {callback : Callback} (armed : world.timers.callback? timer = some callback) :
    Sound options ({ world with timers := world.timers.clear timer }.called isOnline callback) := by
  cases callback with
  | reconnect => exact (sound.disarm_reconnect armed).2.connect isOnline
  | connectTimeout socket => exact (sound.disarm armed rfl).timedOut socket _
  | joinTimeout socket => exact (sound.disarm armed rfl).timedOut socket _

theorem Sound.start (sound : Sound options world) (isOnline : Bool) :
    Sound options (world.start isOnline) := by
  have started : Sound options { world with stopped := false } :=
    { sound with stopped := fun stops => by cases stops }
  exact started.connect isOnline

/-- What `stop` does before it reports. -/
theorem Sound.halt (sound : Sound options world) :
    Sound options { { world with stopped := true }.cancelProbe.clearTimers with
      socket := none, joined := false } := by
  have idle := sound.cancelProbe.clearReconnectTimer.clearAttemptTimers.drop
  exact ⟨idle.joined, fun _ => ⟨rfl, rfl, rfl⟩, idle.held, idle.connectTimer, idle.joinTimer,
    idle.probes⟩

theorem Sound.stop (sound : Sound options world) : Sound options world.stop :=
  (sound.halt.closeSocket _ _ _).setState .offline

theorem Sound.online (sound : Sound options world) (isOnline : Bool) :
    Sound options (world.online isOnline) := by
  rw [World.online]
  split
  next => exact sound
  next =>
    have again : Sound options { world with attempt := 0 } :=
      ⟨sound.joined, sound.stopped, sound.held, sound.connectTimer, sound.joinTimer, sound.probes⟩
    exact again.connect isOnline

theorem Sound.offline (sound : Sound options world) : Sound options world.offline := by
  rw [World.offline]
  split
  next => exact sound
  next =>
    have idle := sound.cancelProbe.clearReconnectTimer.drop.clearAttemptTimers
    exact (idle.closeSocket _ _ _).setState .offline

theorem Sound.markJoined (sound : Sound options world) : Sound options world.markJoined := by
  rw [World.markJoined]
  split
  next => exact sound
  next condition =>
    have joined : Sound options { world with joined := true, attempt := 0 } := by
      refine ⟨fun _ => ?_, sound.stopped, sound.held, sound.connectTimer, sound.joinTimer,
        sound.probes⟩
      simp only [Bool.or_eq_true, not_or, Option.isNone_iff_eq_none] at condition
      exact Option.isSome_iff_ne_none.mpr condition.1
    exact joined.clearJoinTimer.setState .connected

theorem Sound.reconnectAfterResync (sound : Sound options world) (isOnline : Bool) :
    Sound options (world.reconnectAfterResync isOnline) := by
  rw [World.reconnectAfterResync]
  split
  next => exact sound
  next => exact (sound.drop.clearAttemptTimers.closeSocket _ _ _).scheduleReconnect isOnline

theorem Sound.step (sound : Sound options world) (isOnline : Bool) (event : Event) :
    Sound options (world.step options isOnline event) := by
  cases event with
  | start => exact sound.start isOnline
  | stop => exact sound.stop
  | online => exact sound.online isOnline
  | offline => exact sound.offline
  | markJoined => exact sound.markJoined
  | reconnectAfterResync => exact sound.reconnectAfterResync isOnline
  | send data readyState =>
      rw [World.step, World.send]
      split
      next => exact sound
      next =>
        split
        next => exact sound
        next => exact sound.emit _
  | opened socket => exact sound.opened socket
  | message socket data =>
      cases data with
      | none => exact sound
      | some data =>
          rw [World.step, World.received]
          split
          next => exact sound
          next => exact sound.emit _
  | closed socket code reason => exact sound.handleClose socket code reason isOnline
  | fire timer =>
      rw [World.step]
      split
      next => exact sound
      next callback armed => exact sound.fire isOnline armed
  | settle generation result =>
      rw [World.step]
      split
      next =>
        have erased : Sound options { world with probes := world.probes.erase generation } :=
          ⟨sound.joined, sound.stopped, sound.held, sound.connectTimer, sound.joinTimer,
            sound.probes⟩
        exact erased.probed generation result isOnline
      next => exact sound

end Sound

theorem sound_run (options : Options) (events : List (Bool × Event)) :
    Sound options (run options events) := by
  have start : Sound options {} :=
    ⟨fun joins => (by cases joins), fun stops => (by cases stops), rfl,
      fun _ timer => (by cases timer), fun _ timer => (by cases timer),
      fun probing => (by cases probing)⟩
  exact List.foldlRecOn events _ start fun _ sound event _ => sound.step event.1 event.2

/-! ## What an event does to coherence -/

/-- No source is pending beside another one. -/
structure Single (world : World) : Prop where
  socket : world.socket = none ∨ world.reconnectTimer = none
  inFlight : world.inFlight = true → world.socket = none ∧ world.reconnectTimer = none

section Step

variable {options : Options} {world : World}

theorem coherent_iff (sound : Sound options world) :
    Coherent world ↔ Single world ∧ (world.state = .connected ↔ world.joined = true) := by
  have joined : world.socket.isSome = true ∧ world.joined = true ↔ world.joined = true :=
    and_iff_right_of_imp sound.joined
  have single : world.pending ≤ 1 ↔ Single world := by
    have single_iff : Single world ↔ (world.socket = none ∨ world.reconnectTimer = none) ∧
        (world.inFlight = true → world.socket = none ∧ world.reconnectTimer = none) :=
      ⟨fun single => ⟨single.socket, single.inFlight⟩, fun single => ⟨single.1, single.2⟩⟩
    rw [single_iff, World.pending, sound.held]
    cases world.socket <;> cases world.reconnectTimer <;> cases world.inFlight <;> simp
  constructor
  · intro coherent
    exact ⟨single.mp coherent.single, by rw [← joined]; exact coherent.connected⟩
  · intro both
    exact ⟨single.mpr both.1, by rw [joined]; exact both.2⟩

theorem coherent_setState (sound : Sound options world) {next : LiveConnectionState}
    (other : next ≠ .connected) :
    Coherent (world.setState next) ↔ Single world ∧ world.joined = false := by
  rw [coherent_iff (sound.setState next), World.setState_eq]
  have same : (next = .connected ↔ world.joined = true) ↔ world.joined = false := by
    simp [other]
  dsimp only
  rw [same]
  exact and_congr_left fun _ => ⟨fun single => ⟨single.socket, single.inFlight⟩,
    fun single => ⟨single.socket, single.inFlight⟩⟩

theorem coherent_connect (sound : Sound options world) (running : world.stopped = false)
    (single : Single world) (isOnline : Bool) :
    Coherent (world.connect isOnline) ↔ if isOnline = false then world.joined = false
      else if world.socket.isSome then Coherent world else world.inFlight = false := by
  have connected := sound.connect isOnline
  unfold World.connect at connected ⊢
  cases isOnline with
  | false =>
      simp only [running, Bool.not_false, Bool.or_true, Bool.and_true, if_true]
      rw [coherent_setState sound (by simp), and_iff_right single]
  | true =>
      cases socket : world.socket with
      | some current => simp [running]
      | none =>
          simp only [running, socket, Option.isSome_none, Bool.not_true, Bool.or_false,
            Bool.false_eq_true, if_false, Bool.true_eq_false] at connected ⊢
          rw [coherent_iff connected, World.setState_eq]
          constructor
          · intro both
            by_contra flying
            cases (both.1.inFlight (Bool.not_eq_false _ ▸ flying)).1
          · intro idle
            refine ⟨⟨.inr rfl, fun flying => ?_⟩, ?_⟩
            · have idle' := idle.symm.trans flying
              cases idle'
            · cases first : decide (world.attempt = 0) <;>
                simp_all [World.emit, World.clearReconnectTimer]

theorem coherent_scheduleReconnect (sound : Sound options world) (running : world.stopped = false)
    (isOnline : Bool) :
    Coherent (world.scheduleReconnect isOnline) ↔
      if world.reconnectTimer.isSome || !isOnline then Coherent world
      else world.socket = none ∧ world.inFlight = false := by
  have scheduled := sound.scheduleReconnect isOnline
  unfold World.scheduleReconnect at scheduled ⊢
  rw [running, Bool.false_or] at scheduled ⊢
  split
  next => rfl
  next pending =>
    rw [if_neg pending] at scheduled
    rw [coherent_iff scheduled, World.setState_eq]
    constructor
    · intro both
      have free : world.socket = none := by
        rcases both.1.socket with free | armed
        · exact free
        · cases armed
      refine ⟨free, ?_⟩
      by_contra flying
      cases (both.1.inFlight (Bool.not_eq_false _ ▸ flying)).2
    · rintro ⟨free, idle⟩
      refine ⟨⟨.inl free, fun flying => ?_⟩, ?_⟩
      · have idle' := idle.symm.trans flying
        cases idle'
      · have unjoined : world.joined = false := by
          by_contra joins
          have held := sound.joined (Bool.not_eq_false _ ▸ joins)
          rw [free] at held
          cases held
        simp [unjoined]

/-- Coherence is about five things only. -/
theorem Coherent.congr {other : World} (coherent : Coherent world) (sound : Sound options world)
    (sound' : Sound options other) (socket : other.socket = world.socket)
    (reconnectTimer : other.reconnectTimer = world.reconnectTimer)
    (inFlight : other.inFlight = world.inFlight) (state : other.state = world.state)
    (joined : other.joined = world.joined) : Coherent other := by
  obtain ⟨single, connected⟩ := (coherent_iff sound).mp coherent
  refine (coherent_iff sound').mpr ⟨⟨?_, ?_⟩, ?_⟩
  · rw [socket, reconnectTimer]
    exact single.socket
  · rw [inFlight, socket, reconnectTimer]
    exact single.inFlight
  · rw [state, joined]
    exact connected

/-- A controller that waits for nothing. -/
theorem coherent_offline (sound : Sound options world) (socket : world.socket = none)
    (reconnectTimer : world.reconnectTimer = none) : Coherent (world.setState .offline) := by
  refine (coherent_setState sound (by simp)).mpr ⟨⟨.inl socket, fun _ => ⟨socket, reconnectTimer⟩⟩,
    ?_⟩
  by_contra joins
  have held := sound.joined (Bool.not_eq_false _ ▸ joins)
  rw [socket] at held
  cases held

theorem Coherent.unjoined (coherent : Coherent world) (sound : Sound options world)
    (socket : world.socket = none) : world.joined = false ∧ world.state ≠ .connected := by
  have joined : world.joined = false := by
    by_contra joins
    have held := sound.joined (Bool.not_eq_false _ ▸ joins)
    rw [socket] at held
    cases held
  refine ⟨joined, fun connected => ?_⟩
  have joins := (coherent.connected.mp connected).2
  rw [joined] at joins
  cases joins

theorem coherent_start (sound : Sound options world) (coherent : Coherent world)
    (isOnline : Bool) :
    Coherent (world.start isOnline) ↔ Orderly isOnline world .start := by
  have started : Sound options { world with stopped := false } :=
    { sound with stopped := fun stops => by cases stops }
  have coherent' : Coherent { world with stopped := false } :=
    ⟨coherent.single, coherent.connected⟩
  have single := ((coherent_iff started).mp coherent').1
  rw [World.start, coherent_connect started rfl single, Orderly]
  cases isOnline with
  | false => simp
  | true =>
      cases socket : world.socket with
      | none => simp [World.inFlight]
      | some current => simpa [socket] using coherent'

theorem coherent_online (sound : Sound options world) (coherent : Coherent world)
    (isOnline : Bool) : Coherent (world.online isOnline) := by
  rw [World.online]
  split
  next => exact coherent
  next condition =>
    simp only [Bool.or_eq_true, not_or, Bool.not_eq_true] at condition
    obtain ⟨⟨⟨running, socket⟩, probing⟩, -⟩ := condition
    have again : Sound options { world with attempt := 0 } :=
      ⟨sound.joined, sound.stopped, sound.held, sound.connectTimer, sound.joinTimer, sound.probes⟩
    have free : world.socket = none := by simpa using socket
    have single := ((coherent_iff sound).mp coherent).1
    refine (coherent_connect again running ⟨single.socket, single.inFlight⟩ isOnline).mpr ?_
    have idle : World.inFlight { world with attempt := 0 } = false := by
      simp [World.inFlight, probing]
    cases isOnline with
    | false => simpa using (coherent.unjoined sound free).1
    | true =>
        rw [if_neg (by simp), if_neg (by simp [free])]
        exact idle

/-- When the socket is dropped and the state stays, the socket must not have been joined. -/
theorem coherent_drop (sound : Sound options world) (coherent : Coherent world) {other : World}
    (sound' : Sound options other) (socket : other.socket = none)
    (reconnectTimer : other.reconnectTimer = world.reconnectTimer)
    (inFlight : other.inFlight = world.inFlight) (state : other.state = world.state) :
    Coherent other ↔ world.joined = false := by
  obtain ⟨single, connected⟩ := (coherent_iff sound).mp coherent
  have unjoined : other.joined = false := by
    by_contra joins
    have held := sound'.joined (Bool.not_eq_false _ ▸ joins)
    rw [socket] at held
    cases held
  rw [coherent_iff sound', and_iff_right, state, connected, unjoined]
  · simp
  · refine ⟨.inl socket, fun flying => ⟨socket, ?_⟩⟩
    rw [reconnectTimer]
    exact (single.inFlight (inFlight ▸ flying)).2

theorem coherent_reconnectAfterResync (sound : Sound options world) (coherent : Coherent world)
    (isOnline : Bool) : Coherent (world.reconnectAfterResync isOnline) ↔
      Orderly isOnline world .reconnectAfterResync := by
  rw [World.reconnectAfterResync, Orderly]
  by_cases stops : world.stopped = true
  · rw [if_pos stops, stops]
    simpa using coherent
  · rw [if_neg stops]
    have running : world.stopped = false := by simpa using stops
    have single := ((coherent_iff sound).mp coherent).1
    have dropped := sound.drop.clearAttemptTimers.closeSocket world.socket normalClose
      "resynchronizing"
    have scheduled := coherent_scheduleReconnect dropped
      (by rw [World.closeSocket_eq]; exact running) isOnline
    refine scheduled.trans ?_
    rw [coherent_drop sound coherent dropped (by rw [World.closeSocket_eq]; rfl)
      (by rw [World.closeSocket_eq]; rfl) (by rw [World.closeSocket_eq]; rfl)
      (by rw [World.closeSocket_eq]; rfl), World.closeSocket_eq, imp_iff_right running]
    change (if world.reconnectTimer.isSome || !isOnline then world.joined = false
      else none = none ∧ world.inFlight = false) ↔ _
    cases armed : world.reconnectTimer with
    | none => cases isOnline <;> simp
    | some timer =>
        have free : world.socket = none := by
          rcases single.socket with free | unarmed
          · exact free
          · rw [armed] at unarmed
            cases unarmed
        have idle : world.inFlight = false := by
          by_contra flying
          have unarmed := (single.inFlight (Bool.not_eq_false _ ▸ flying)).2
          rw [armed] at unarmed
          cases unarmed
        simp [(coherent.unjoined sound free).1, idle]

theorem coherent_retryOrExhaust (sound : Sound options world) (running : world.stopped = false)
    (socket : world.socket = none) (reconnectTimer : world.reconnectTimer = none)
    (idle : world.inFlight = false) {isOnline : Bool} (online : isOnline = true) :
    Coherent (world.retryOrExhaust options isOnline) := by
  rw [World.retryOrExhaust]
  split
  next =>
    have ended := sound.setState .offline
    exact (coherent_offline sound socket reconnectTimer).congr ended (ended.emit _) rfl rfl rfl rfl
      rfl
  next =>
    refine (coherent_scheduleReconnect sound running isOnline).mpr ?_
    rw [if_neg (by simp [reconnectTimer, online])]
    exact ⟨socket, idle⟩

theorem coherent_probed (sound : Sound options world) (coherent : Coherent world)
    (generation : Nat) (result : Option LiveReconnectProbeResult) (isOnline : Bool)
    (settled : world.probeGeneration = generation → world.probing = true →
      world.socket = none ∧ world.reconnectTimer = none) :
    Coherent (world.probed options generation result isOnline) := by
  rw [World.probed]
  split
  next => exact coherent
  next current =>
    obtain ⟨running, probing, same, online⟩ :=
      World.isCurrentProbe_iff.mp (by simpa using current)
    obtain ⟨socket, reconnectTimer⟩ := settled same probing
    have ended : Sound options { world with probing := false } :=
      ⟨sound.joined, fun stops => ⟨(sound.stopped stops).1, (sound.stopped stops).2.1, rfl⟩,
        sound.held, sound.connectTimer, sound.joinTimer, fun probing => by cases probing⟩
    have offline (output : Output) : Coherent
        ((World.setState .offline { world with probing := false }).emit output) :=
      (coherent_offline ended socket reconnectTimer).congr (ended.setState .offline)
        ((ended.setState .offline).emit output) rfl rfl rfl rfl rfl
    have retried := coherent_retryOrExhaust ended running socket reconnectTimer rfl online
    dsimp only
    split
    next => exact offline _
    next => exact offline _
    all_goals exact retried

theorem coherent_probeBeforeReconnect (sound : Sound options world)
    (running : world.stopped = false) (probes : options.probes = true)
    (socket : world.socket = none) (reconnectTimer : world.reconnectTimer = none)
    {isOnline : Bool} (online : isOnline = true) :
    Coherent (world.probeBeforeReconnect isOnline) ↔
      if world.probing then Coherent world else True := by
  have begun := sound.probeBeforeReconnect isOnline probes
  subst online
  unfold World.probeBeforeReconnect at begun ⊢
  cases probing : world.probing with
  | true => simp [running]
  | false =>
      simp only [running, probing, Bool.not_true, Bool.or_false, Bool.false_eq_true, if_false]
        at begun ⊢
      rw [coherent_iff begun, World.setState_eq]
      have unjoined : world.joined = false := by
        by_contra joins
        have held := sound.joined (Bool.not_eq_false _ ▸ joins)
        rw [socket] at held
        cases held
      refine iff_of_true ⟨⟨.inl socket, fun _ => ⟨socket, reconnectTimer⟩⟩, ?_⟩ trivial
      simp [World.emit, unjoined]

theorem coherent_foldl_emit (outputs : List Output) (sound : Sound options world)
    (coherent : Coherent world) :
    Coherent (outputs.foldl (fun world output => world.emit output) world) := by
  induction outputs generalizing world with
  | nil => exact coherent
  | cons output outputs induction =>
      have emitted := sound.emit output
      exact induction emitted (coherent.congr sound emitted rfl rfl rfl rfl rfl)

/-- After a close the state is wrong only if a probe that settled offline is still waited for. -/
theorem coherent_afterClose (sound : Sound options world) (running : world.stopped = false)
    (socket : world.socket = none) (reconnectTimer : world.reconnectTimer = none)
    (idle : world.inFlight = false) (code : Int) (reason : String) (isOnline : Bool) :
    Coherent (world.afterClose options code reason isOnline) ↔
      (isOnline = true → World.ending code reason = none → world.probing = true →
        Coherent world) := by
  rw [World.afterClose]
  cases isOnline with
  | false =>
      rw [if_pos (by simp)]
      exact iff_of_true (coherent_offline sound socket reconnectTimer)
        (fun online => by cases online)
  | true =>
      rw [if_neg (by simp [running]), imp_iff_right rfl]
      cases ends : World.ending code reason with
      | some outputs =>
          have ended := coherent_offline sound socket reconnectTimer
          exact iff_of_true (coherent_foldl_emit outputs (sound.setState .offline) ended)
            (fun none => by cases none)
      | none =>
          have tried : Sound options { world with attempt := world.attempt + 1 } :=
            ⟨sound.joined, sound.stopped, sound.held, sound.connectTimer, sound.joinTimer,
              sound.probes⟩
          rw [imp_iff_right rfl]
          dsimp only
          split
          next probes =>
            refine (coherent_probeBeforeReconnect tried running probes socket reconnectTimer
              rfl).trans ?_
            have same : Coherent { world with attempt := world.attempt + 1 } ↔ Coherent world :=
              ⟨fun coherent => ⟨coherent.single, coherent.connected⟩,
                fun coherent => ⟨coherent.single, coherent.connected⟩⟩
            rw [same]
            cases world.probing <;> simp
          next probes =>
            have unprobed : world.probing ≠ true := fun probing => probes (sound.probes probing)
            exact iff_of_true
              (coherent_retryOrExhaust tried running socket reconnectTimer idle rfl)
              (fun probing => absurd probing unprobed)

theorem Sound.isCurrent_iff (sound : Sound options world) {socket : Nat} :
    world.isCurrent socket = true ↔ world.socket = some socket := by
  rw [World.isCurrent_iff]
  refine ⟨And.right, fun same => ⟨?_, same⟩⟩
  by_contra stops
  have free := (sound.stopped (Bool.not_eq_false _ ▸ stops)).1
  rw [same] at free
  cases free

theorem coherent_handleClose (sound : Sound options world) (coherent : Coherent world)
    (socket : Nat) (code : Option Int) (reason : Option String) (isOnline : Bool) :
    Coherent (world.handleClose options socket code reason isOnline) ↔
      Orderly isOnline world (.closed socket code reason) := by
  rw [World.handleClose, Orderly]
  by_cases same : world.socket = some socket
  · have current := sound.isCurrent_iff.mpr same
    rw [if_neg (by simp [current]), imp_iff_right same]
    have single := ((coherent_iff sound).mp coherent).1
    have timer : world.reconnectTimer = none := by
      rcases single.socket with free | unarmed
      · rw [same] at free
        cases free
      · exact unarmed
    have idle : world.inFlight = false := by
      by_contra flying
      have free := (single.inFlight (Bool.not_eq_false _ ▸ flying)).1
      rw [same] at free
      cases free
    have closed := sound.drop.clearAttemptTimers.emit
      (.closeStatus (code.getD 1006) (reason.getD ""))
    refine (coherent_afterClose closed (World.isCurrent_iff.mp current).1 rfl timer idle _ _
      isOnline).trans ?_
    rw [coherent_drop sound coherent closed rfl rfl rfl rfl]
    rfl
  · have stale : ¬world.isCurrent socket = true := fun current =>
      same (sound.isCurrent_iff.mp current)
    rw [if_pos (by simpa using stale)]
    exact iff_of_true coherent fun current => absurd current same

theorem coherent_stop (sound : Sound options world) : Coherent world.stop :=
  coherent_offline (sound.halt.closeSocket _ _ _) (by rw [World.closeSocket_eq])
    (by rw [World.closeSocket_eq]; rfl)

theorem coherent_offline_event (sound : Sound options world) (coherent : Coherent world) :
    Coherent world.offline := by
  rw [World.offline]
  split
  next => exact coherent
  next =>
    have idle := sound.cancelProbe.clearReconnectTimer.drop.clearAttemptTimers
    exact coherent_offline (idle.closeSocket world.socket normalClose "browser offline")
      (by rw [World.closeSocket_eq]; rfl) (by rw [World.closeSocket_eq]; rfl)

theorem coherent_markJoined (sound : Sound options world) (coherent : Coherent world) :
    Coherent world.markJoined := by
  have sound' := sound.markJoined
  have single := ((coherent_iff sound).mp coherent).1
  rw [World.markJoined] at sound' ⊢
  split at sound'
  next skipped =>
    rw [if_pos skipped]
    exact coherent
  next joins =>
    rw [if_neg joins]
    rw [coherent_iff sound', World.setState_eq]
    exact ⟨⟨single.socket, single.inFlight⟩, iff_of_true rfl rfl⟩

theorem coherent_opened (sound : Sound options world) (coherent : Coherent world)
    (socket : Nat) : Coherent (world.opened socket) := by
  have sound' := sound.opened socket
  rw [World.opened] at sound' ⊢
  split at sound'
  next stale =>
    rw [if_pos stale]
    exact coherent
  next current =>
    rw [if_neg current]
    exact coherent.congr sound sound' rfl rfl rfl rfl rfl

theorem coherent_emit (sound : Sound options world) (coherent : Coherent world)
    (output : Output) : Coherent (world.emit output) :=
  coherent.congr sound (sound.emit output) rfl rfl rfl rfl rfl

theorem coherent_timedOut (sound : Sound options world) (coherent : Coherent world)
    (socket : Nat) (reason : String) : Coherent (world.timedOut socket reason) := by
  rw [World.timedOut]
  split
  next => exact coherent
  next => exact coherent_emit sound coherent _

theorem coherent_fire (sound : Sound options world) (coherent : Coherent world) (isOnline : Bool)
    {timer : Nat} {callback : Callback} (armed : world.timers.callback? timer = some callback) :
    Coherent ({ world with timers := world.timers.clear timer }.called isOnline callback) := by
  have single := ((coherent_iff sound).mp coherent).1
  have disarmed (attempts : callback.isReconnect = false) :
      Coherent { world with timers := world.timers.clear timer } :=
    coherent.congr sound (sound.disarm armed attempts) rfl rfl rfl rfl rfl
  cases callback with
  | reconnect =>
      obtain ⟨same, cleared⟩ := sound.disarm_reconnect armed
      have free : world.socket = none := by
        rcases single.socket with free | unarmed
        · exact free
        · rw [same] at unarmed
          cases unarmed
      have idle : world.inFlight = false := by
        by_contra flying
        have unarmed := (single.inFlight (Bool.not_eq_false _ ▸ flying)).2
        rw [same] at unarmed
        cases unarmed
      have running : world.stopped = false := by
        by_contra stops
        have unarmed := (sound.stopped (Bool.not_eq_false _ ▸ stops)).2.1
        rw [same] at unarmed
        cases unarmed
      refine (coherent_connect cleared running ⟨.inl free, fun _ => ⟨free, rfl⟩⟩ isOnline).mpr ?_
      cases isOnline with
      | false => simpa using (coherent.unjoined sound free).1
      | true =>
          rw [if_neg (by simp), if_neg (by simp [free])]
          exact idle
  | connectTimeout socket =>
      exact coherent_timedOut (sound.disarm armed rfl) (disarmed rfl) socket _
  | joinTimeout socket => exact coherent_timedOut (sound.disarm armed rfl) (disarmed rfl) socket _

theorem coherent_settle (sound : Sound options world) (coherent : Coherent world)
    (isOnline : Bool) (generation : Nat) (result : Option LiveReconnectProbeResult) :
    Coherent (world.step options isOnline (.settle generation result)) := by
  rw [World.step]
  split
  next pending =>
    obtain ⟨single, connected⟩ := (coherent_iff sound).mp coherent
    have erased : Sound options { world with probes := world.probes.erase generation } :=
      ⟨sound.joined, sound.stopped, sound.held, sound.connectTimer, sound.joinTimer, sound.probes⟩
    have fewer (flying : World.inFlight
        { world with probes := world.probes.erase generation } = true) :
        world.inFlight = true := by
      simp only [World.inFlight, Bool.and_eq_true, decide_eq_true_eq] at flying ⊢
      exact ⟨flying.1, List.mem_of_mem_erase flying.2⟩
    have coherent' : Coherent { world with probes := world.probes.erase generation } :=
      (coherent_iff erased).mpr
        ⟨⟨single.socket, fun flying => single.inFlight (fewer flying)⟩, connected⟩
    refine coherent_probed erased coherent' generation result isOnline fun same probing => ?_
    have flying : world.inFlight = true := by
      simp only [World.inFlight, Bool.and_eq_true, decide_eq_true_eq]
      exact ⟨probing, same ▸ pending⟩
    exact single.inFlight flying
  next => exact coherent

/-- An event keeps the controller coherent exactly if it is orderly. -/
theorem coherent_step (sound : Sound options world) (coherent : Coherent world) (isOnline : Bool)
    (event : Event) :
    Coherent (world.step options isOnline event) ↔ Orderly isOnline world event := by
  cases event with
  | start => exact coherent_start sound coherent isOnline
  | stop => exact iff_of_true (coherent_stop sound) trivial
  | online => exact iff_of_true (coherent_online sound coherent isOnline) trivial
  | offline => exact iff_of_true (coherent_offline_event sound coherent) trivial
  | markJoined => exact iff_of_true (coherent_markJoined sound coherent) trivial
  | reconnectAfterResync => exact coherent_reconnectAfterResync sound coherent isOnline
  | send data readyState =>
      refine iff_of_true ?_ trivial
      rw [World.step, World.send]
      split
      next => exact coherent
      next =>
        split
        next => exact coherent
        next => exact coherent_emit sound coherent _
  | opened socket => exact iff_of_true (coherent_opened sound coherent socket) trivial
  | message socket data =>
      refine iff_of_true ?_ trivial
      cases data with
      | none => exact coherent
      | some data =>
          rw [World.step, World.received]
          split
          next => exact coherent
          next => exact coherent_emit sound coherent _
  | closed socket code reason =>
      exact coherent_handleClose sound coherent socket code reason isOnline
  | fire timer =>
      refine iff_of_true ?_ trivial
      rw [World.step]
      split
      next => exact coherent
      next callback armed => exact coherent_fire sound coherent isOnline armed
  | settle generation result =>
      exact iff_of_true (coherent_settle sound coherent isOnline generation result) trivial

theorem timedOut_superseded {world : World} {socket : Nat} (other : world.socket ≠ some socket)
    (reason : String) : world.timedOut socket reason = world := by
  have stale : world.isCurrent socket = false := by simp [World.isCurrent, other]
  rw [World.timedOut, if_pos (by simp [stale])]

/-- The callbacks of a superseded socket or probe change nothing. -/
theorem superseded_unmoved (options : Options) (isOnline : Bool) {event : Event}
    (superseded : Superseded world event) :
    Unmoved world (world.step options isOnline event) := by
  have stale {socket : Nat} (other : world.socket ≠ some socket) :
      (!world.isCurrent socket) = true := by simp [World.isCurrent, other]
  cases event with
  | opened socket =>
      rw [World.step, World.opened, if_pos (stale superseded)]
      exact ⟨rfl, rfl⟩
  | message socket data =>
      cases data with
      | none => exact ⟨rfl, rfl⟩
      | some data =>
          rw [World.step, World.received, if_pos (stale superseded)]
          exact ⟨rfl, rfl⟩
  | closed socket code reason =>
      rw [World.step, World.handleClose, if_pos (stale superseded)]
      exact ⟨rfl, rfl⟩
  | fire timer =>
      obtain ⟨socket, other, armed | armed⟩ := superseded
      · simp only [World.step, armed, World.called]
        have still : Unmoved world { world with timers := world.timers.clear timer } := ⟨rfl, rfl⟩
        rwa [timedOut_superseded]
        exact other
      · simp only [World.step, armed, World.called]
        have still : Unmoved world { world with timers := world.timers.clear timer } := ⟨rfl, rfl⟩
        rwa [timedOut_superseded]
        exact other
  | settle generation result =>
      rw [World.step]
      split
      next =>
        have old : World.isCurrentProbe generation isOnline
            { world with probes := world.probes.erase generation } = false := by
          rcases superseded with probing | other
          · simp [World.isCurrentProbe, probing]
          · simp [World.isCurrentProbe, other]
        rw [World.probed, if_pos (by simp [old])]
        exact ⟨rfl, rfl⟩
      next => exact ⟨rfl, rfl⟩
  | start => cases superseded
  | stop => cases superseded
  | online => cases superseded
  | offline => cases superseded
  | markJoined => cases superseded
  | reconnectAfterResync => cases superseded
  | send => cases superseded

end Step

/-! ## Runs -/

/-- The controller is coherent in every state of a run, and superseded callbacks change nothing. -/
structure CoherentRun (options : Options) (events : List (Bool × Event)) : Prop where
  coherent : ∀ front, front <+: events → Coherent (run options front)
  superseded : ∀ front event, front ++ [event] <+: events →
    Superseded (run options front) event.2 →
    Unmoved (run options front) (run options (front ++ [event]))

theorem run_concat (options : Options) (events : List (Bool × Event)) (event : Bool × Event) :
    run options (events ++ [event]) = (run options events).step options event.1 event.2 := by
  rw [run, List.foldl_append]
  rfl

theorem coherent_init : Coherent {} := ⟨by decide, by decide⟩

/-- A run is coherent if and only if all its events are orderly. -/
theorem coherent_run_iff (options : Options) (events : List (Bool × Event)) :
    CoherentRun options events ↔ ∀ front event, front ++ [event] <+: events →
      Orderly event.1 (run options front) event.2 := by
  constructor
  · intro whole front event within
    have before := whole.coherent front ((List.prefix_append _ _).trans within)
    have after := whole.coherent _ within
    rw [run_concat] at after
    exact (coherent_step (sound_run options front) before event.1 event.2).mp after
  · intro orderly
    refine ⟨fun front => ?_, fun front event _ superseded => ?_⟩
    · induction front using List.reverseRecOn with
      | nil => exact fun _ => coherent_init
      | append_singleton front event induction =>
          intro within
          have before := induction ((List.prefix_append _ _).trans within)
          rw [run_concat]
          exact (coherent_step (sound_run options front) before event.1 event.2).mpr
            (orderly front event within)
    · rw [run_concat]
      exact superseded_unmoved options event.1 superseded

/-- The probe after a lost connection is under way when a resynchronisation succeeds: then a
reconnect timer is armed beside it. -/
theorem coherent_run_resync : ¬CoherentRun {}
    [(true, .start), (true, .closed 0 (some 1006) none), (true, .reconnectAfterResync)] := by
  intro whole
  have single := (whole.coherent _ List.prefix_rfl).single
  revert single
  decide

end Oxbin.Browser.Connection
