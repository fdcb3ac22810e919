import Mathlib.Algebra.Ring.Int.Defs
import Oxbin.Data.Timers

/-!
# The resynchronisation controller

`LiveResyncController` of `live-resync.ts`.  Its callbacks answer what the surroundings of an event
say, requests settle and timers fire in any order, and the history records what happened.
-/

namespace Oxbin.Browser.Resync

/-- The numbers of `LiveResyncOptions`; times are in milliseconds. -/
structure Options where
  bufferLimit : Nat := 128
  maxAttempts : Nat := 4
  maxElapsedMs : Int := 10000
  retryBaseMs : Int := 150
  retryMaxMs : Int := 1200

/-- Why a resynchronisation fails. -/
inductive Reason where
  | reconciliationFailed
  | requestFailed
  deriving DecidableEq, Repr

/-- What `reconcile` returns; it may also throw. -/
inductive Reconciled where
  | accepted
  | refused
  | terminal
  | threw
  deriving DecidableEq, Repr

/-- What `applyBuffered` returns; it may also throw. -/
inductive Applied where
  | accepted
  | refused
  | threw
  deriving DecidableEq, Repr

/-- The callbacks of the controller's timers. -/
inductive Callback where
  | retry
  | deadline
  deriving DecidableEq, Repr

variable {Snapshot Event Authority : Type}

/-- What happened: calls of the controller's callbacks, events that it took, and calls of `stop`
that ended an activation. -/
inductive Entry (Snapshot Event Authority : Type) where
  | started
  | received (event : Event)
  | requested (generation attempt : Nat)
  | reconciled (generation : Nat) (snapshot : Snapshot) (authority : Authority)
  | applied (event : Event)
  | succeeded
  | failed (reason : Reason)
  | stopped

/-- The fields of the controller; an abort controller is named by the generation of its request. -/
structure Controller (Event : Type) where
  active : Bool := false
  attempt : Nat := 0
  startedAt : Int := 0
  generation : Nat := 0
  buffer : List Event := []
  requestController : Option Nat := none
  retryTimer : Option Nat := none
  deadlineTimer : Option Nat := none

/-- The controller in its browser: the requests that have not settled with the authority that was
captured for each, the aborted controllers, the armed timers, and the history. -/
structure World (Snapshot Event Authority : Type) extends Controller Event where
  requests : List (Nat × Authority) := []
  aborted : List Nat := []
  timers : Timers Callback := Timers.none
  history : List (Entry Snapshot Event Authority) := []

/-- What an event meets: the time, and what the callbacks return.  `applyBuffered` may answer
differently at every position of the buffer. -/
structure Surroundings (Snapshot Event Authority : Type) where
  now : Int
  captureAuthority : Authority
  reconcile : Snapshot → Authority → Reconciled
  applyBuffered : Nat → Event → Applied

namespace World

variable (options : Options) (surroundings : Surroundings Snapshot Event Authority)

/-- Record an entry. -/
def record (entry : Entry Snapshot Event Authority) (world : World Snapshot Event Authority) :
    World Snapshot Event Authority :=
  { world with history := world.history ++ [entry] }

/-- `cancelAttempt`. -/
def cancelAttempt (world : World Snapshot Event Authority) : World Snapshot Event Authority :=
  { world with
    aborted := world.aborted ++ world.requestController.toList
    requestController := none
    timers := world.timers.clear? world.retryTimer
    retryTimer := none }

/-- `clearDeadline`. -/
def clearDeadline (world : World Snapshot Event Authority) : World Snapshot Event Authority :=
  { world with timers := world.timers.clear? world.deadlineTimer, deadlineTimer := none }

/-- `hasBudget`. -/
def hasBudget (nextDelay : Int) (world : World Snapshot Event Authority) : Bool :=
  world.attempt < options.maxAttempts ∧
    surroundings.now - world.startedAt + nextDelay ≤ options.maxElapsedMs

/-- `fail`. -/
def fail (reason : Reason) (world : World Snapshot Event Authority) :
    World Snapshot Event Authority :=
  { world.cancelAttempt.clearDeadline with active := false, buffer := [] }.record (.failed reason)

/-- `beginAttempt`, up to the promise of the request. -/
def beginAttempt (world : World Snapshot Event Authority) : World Snapshot Event Authority :=
  if !world.active then world
  else
    let world := world.cancelAttempt
    if !world.hasBudget options surroundings 0 then world.fail .requestFailed
    else
      let generation := world.generation + 1
      { world with
        attempt := world.attempt + 1
        generation := generation
        requestController := some generation
        buffer := []
        requests := world.requests ++ [(generation, surroundings.captureAuthority)] }.record
        (.requested generation (world.attempt + 1))

/-- `start`. -/
def start (world : World Snapshot Event Authority) : World Snapshot Event Authority :=
  let started :=
    if world.active then world
    else
      { world with
        active := true
        attempt := 0
        startedAt := surroundings.now
        deadlineTimer := some world.timers.next
        timers := world.timers.set .deadline }.record .started
  started.beginAttempt options surroundings

/-- `bufferEvent`. -/
def bufferEvent (event : Event) (world : World Snapshot Event Authority) :
    World Snapshot Event Authority :=
  if !world.active then world
  else
    let world := world.record (.received event)
    if world.buffer.length < options.bufferLimit then
      { world with buffer := world.buffer ++ [event] }
    else world.beginAttempt options surroundings

/-- `stop`; it ends an activation if there is one. -/
def stop (world : World Snapshot Event Authority) : World Snapshot Event Authority :=
  let stopped := { world with generation := world.generation + 1 }.cancelAttempt.clearDeadline
  { stopped with
    active := false
    buffer := []
    history := if world.active then world.history ++ [.stopped] else world.history }

/-- `retry`. -/
def retry (reason : Reason) (world : World Snapshot Event Authority) :
    World Snapshot Event Authority :=
  if !world.active then world
  else
    let delay := min options.retryMaxMs (options.retryBaseMs * 2 ^ (world.attempt - 1))
    if !world.hasBudget options surroundings delay then world.fail reason
    else
      { world with
        retryTimer := some world.timers.next
        timers := world.timers.set .retry }

/-- `isCurrent`. -/
def isCurrent (generation : Nat) (world : World Snapshot Event Authority) : Bool :=
  world.active && world.generation == generation &&
    world.requestController == some generation && !decide (generation ∈ world.aborted)

/-- The loop over the buffered events, from a position of the buffer, and what follows it. -/
def applyAll (position : Nat) (buffered : List Event) (world : World Snapshot Event Authority) :
    World Snapshot Event Authority :=
  match buffered with
  | [] => { world with active := false }.clearDeadline.record .succeeded
  | event :: later =>
      let world := world.record (.applied event)
      match surroundings.applyBuffered position event with
      | .accepted => world.applyAll (position + 1) later
      | .refused => world.retry options surroundings .reconciliationFailed
      | .threw => world

/-- What follows when a request resolves. -/
def resolved (generation : Nat) (authority : Authority) (snapshot : Snapshot)
    (world : World Snapshot Event Authority) : World Snapshot Event Authority :=
  if !world.isCurrent generation then world
  else
    let world := { world with requestController := none }.record
      (.reconciled generation snapshot authority)
    match surroundings.reconcile snapshot authority with
    | .terminal => world.fail .reconciliationFailed
    | .refused => world.retry options surroundings .reconciliationFailed
    | .threw => world
    | .accepted => { world with buffer := [] }.applyAll options surroundings 0 world.buffer

/-- What follows when a request rejects. -/
def rejected (generation : Nat) (abortError : Bool) (world : World Snapshot Event Authority) :
    World Snapshot Event Authority :=
  if !world.isCurrent generation then world
  else
    let world := { world with requestController := none }
    if abortError then world else world.retry options surroundings .requestFailed

/-- The callback of a timer. -/
def called (callback : Callback) (world : World Snapshot Event Authority) :
    World Snapshot Event Authority :=
  match callback with
  | .retry => { world with retryTimer := none }.beginAttempt options surroundings
  | .deadline =>
      let world := { world with deadlineTimer := none }
      if world.active then world.fail .requestFailed else world

end World

/-! ## Runs -/

/-- What happens to the controller. -/
inductive Happening (Snapshot Event : Type) where
  | start
  | bufferEvent (event : Event)
  | stop
  | resolve (generation : Nat) (snapshot : Snapshot)
  | reject (generation : Nat) (abortError : Bool)
  | fire (timer : Nat)

/-- The authority of a request that has not settled. -/
def World.authority? (generation : Nat) (world : World Snapshot Event Authority) :
    Option Authority :=
  (world.requests.find? fun request => request.1 == generation).map Prod.snd

/-- The request settles. -/
def World.settle (generation : Nat) (world : World Snapshot Event Authority) :
    World Snapshot Event Authority :=
  { world with requests := world.requests.filter fun request => request.1 ≠ generation }

/-- One event.  A request settles once and a timer fires while it is armed. -/
def World.step (options : Options) (surroundings : Surroundings Snapshot Event Authority)
    (world : World Snapshot Event Authority) :
    Happening Snapshot Event → World Snapshot Event Authority
  | .start => world.start options surroundings
  | .bufferEvent event => world.bufferEvent options surroundings event
  | .stop => world.stop
  | .resolve generation snapshot =>
      match world.authority? generation with
      | none => world
      | some authority =>
          (world.settle generation).resolved options surroundings generation authority snapshot
  | .reject generation abortError =>
      match world.authority? generation with
      | none => world
      | some _ => (world.settle generation).rejected options surroundings generation abortError
  | .fire timer =>
      match world.timers.callback? timer with
      | none => world
      | some callback =>
          { world with timers := world.timers.clear timer }.called options surroundings callback

/-- The world after a list of events. -/
def run (options : Options)
    (events : List (Surroundings Snapshot Event Authority × Happening Snapshot Event)) :
    World Snapshot Event Authority :=
  events.foldl (fun world event => world.step options event.1 event.2) {}

end Oxbin.Browser.Resync
