import Mathlib.Data.List.Infix
import Oxbin.Data.Timers

/-!
# The connection controller

`LiveConnectionController` of `live-connection.ts` in a browser: its fields, its timers, the
sockets it creates and the reconnect probes under way.  Timers fire, sockets report events and
probes settle in any order; how long a timer waits is left open.
-/

namespace Oxbin.Browser

/-- `LiveConnectionState`. -/
inductive LiveConnectionState where
  | connecting
  | connected
  | reconnecting
  | offline
  | recovery
  deriving DecidableEq, Repr

/-- `LiveReconnectProbeResult`. -/
inductive LiveReconnectProbeResult where
  | authorized
  | authenticationRequired
  | roomUnavailable
  | retry
  deriving DecidableEq, Repr

namespace Connection

/-- The callbacks of the controller's timers. -/
inductive Callback where
  | reconnect
  | connectTimeout (socket : Nat)
  | joinTimeout (socket : Nat)
  deriving DecidableEq, Repr

/-- The callback of a reconnect timer. -/
def Callback.isReconnect : Callback → Bool
  | .reconnect => true
  | _ => false

/-- What the controller does to the outside: the callbacks of its options, and its sockets. -/
inductive Output where
  | state (state : LiveConnectionState)
  | work (active : Bool)
  | message (data : String)
  | closeStatus (code : Int) (reason : String)
  | authenticationRequired
  | roomFull
  | roomUnavailable
  | reconnectExhausted
  | probe (generation : Nat)
  | create (socket : Nat)
  | join (socket : Nat)
  | send (socket : Nat) (data : String)
  | close (socket : Nat) (code : Int) (reason : String)
  deriving DecidableEq, Repr

/-- The options that decide what the controller does. -/
structure Options where
  /-- Whether `probeReconnect` is given. -/
  probes : Bool := true
  maxReconnectAttempts : Nat := 8

/-- The fields of the controller; a socket is its number in the order of creation. -/
structure Controller where
  socket : Option Nat := none
  reconnectTimer : Option Nat := none
  connectTimer : Option Nat := none
  joinTimer : Option Nat := none
  stopped : Bool := false
  probing : Bool := false
  probeGeneration : Nat := 0
  joined : Bool := false
  attempt : Nat := 0
  state : LiveConnectionState := .offline
  deriving DecidableEq

/-- The controller in its browser: the armed timers, the number of sockets that were created, the
generations of the probes that have not settled, and the outputs so far. -/
structure World extends Controller where
  timers : Timers Callback := Timers.none
  sockets : Nat := 0
  probes : List Nat := []
  outputs : List Output := []

def socketOpen : Int := 1
def normalClose : Int := 1000
def policyViolation : Int := 1008
def tryAgainLater : Int := 1013

/-- The reason contains a word, in any case; a test of a regular expression with the flag `i`. -/
def mentions (word : String) (reason : String) : Bool :=
  (reason.toList.map Char.toLower).tails.any word.toList.isPrefixOf

namespace World

/-- Record an output. -/
def emit (output : Output) (world : World) : World :=
  { world with outputs := world.outputs ++ [output] }

/-- `setState`. -/
def setState (next : LiveConnectionState) (world : World) : World :=
  if world.state = next then world
  else
    { world with
      state := next
      outputs := world.outputs ++
        [.state next, .work (next = .connecting ∨ next = .reconnecting)] }

/-- `clearReconnectTimer`. -/
def clearReconnectTimer (world : World) : World :=
  { world with timers := world.timers.clear? world.reconnectTimer, reconnectTimer := none }

/-- `clearConnectTimer`. -/
def clearConnectTimer (world : World) : World :=
  { world with timers := world.timers.clear? world.connectTimer, connectTimer := none }

/-- `clearJoinTimer`. -/
def clearJoinTimer (world : World) : World :=
  { world with timers := world.timers.clear? world.joinTimer, joinTimer := none }

/-- `clearAttemptTimers`. -/
def clearAttemptTimers (world : World) : World := world.clearConnectTimer.clearJoinTimer

/-- `clearTimers`. -/
def clearTimers (world : World) : World := world.clearReconnectTimer.clearAttemptTimers

/-- `cancelProbe`. -/
def cancelProbe (world : World) : World :=
  { world with probing := false, probeGeneration := world.probeGeneration + 1 }

/-- `if (socket) socket.close(code, reason)`. -/
def closeSocket (socket : Option Nat) (code : Int) (reason : String) (world : World) : World :=
  match socket with
  | none => world
  | some socket => world.emit (.close socket code reason)

/-- `isCurrent`. -/
def isCurrent (socket : Nat) (world : World) : Bool := !world.stopped && world.socket == some socket

/-- `isCurrentProbe`. -/
def isCurrentProbe (generation : Nat) (isOnline : Bool) (world : World) : Bool :=
  !world.stopped && world.probing && world.probeGeneration == generation && isOnline

/-- `connect`. -/
def connect (isOnline : Bool) (world : World) : World :=
  if world.stopped || world.socket.isSome || !isOnline then
    if !world.stopped && !isOnline then world.setState .offline else world
  else
    let world := { world.clearReconnectTimer with joined := false }
    let world := world.setState (if world.attempt = 0 then .connecting else .reconnecting)
    let socket := world.sockets
    { world.emit (.create socket) with
      sockets := socket + 1
      socket := some socket
      connectTimer := some world.timers.next
      timers := world.timers.set (.connectTimeout socket) }

/-- `start`. -/
def start (isOnline : Bool) (world : World) : World :=
  connect isOnline { world with stopped := false }

/-- `stop`. -/
def stop (world : World) : World :=
  let stopped := ({ world with stopped := true }.cancelProbe).clearTimers
  (({ stopped with socket := none, joined := false }.closeSocket world.socket normalClose
    "leaving live room").setState .offline)

/-- `online`. -/
def online (isOnline : Bool) (world : World) : World :=
  if world.stopped || world.socket.isSome || world.probing || world.reconnectTimer.isSome then world
  else connect isOnline { world with attempt := 0 }

/-- `offline`. -/
def offline (world : World) : World :=
  if world.stopped then world
  else
    let cleared := { world.cancelProbe.clearReconnectTimer with socket := none }.clearAttemptTimers
    ({ cleared with joined := false }.closeSocket world.socket normalClose
      "browser offline").setState .offline

/-- `markJoined`. -/
def markJoined (world : World) : World :=
  if world.socket.isNone || world.stopped then world
  else ({ world with joined := true, attempt := 0 }.clearJoinTimer).setState .connected

/-- `scheduleReconnect`. -/
def scheduleReconnect (isOnline : Bool) (world : World) : World :=
  if world.stopped || world.reconnectTimer.isSome || !isOnline then world
  else
    let world := world.setState .reconnecting
    { world with
      reconnectTimer := some world.timers.next
      timers := world.timers.set .reconnect }

/-- `reconnectAfterResync`. -/
def reconnectAfterResync (isOnline : Bool) (world : World) : World :=
  if world.stopped then world
  else
    let cleared := { world with socket := none }.clearAttemptTimers
    ({ cleared with joined := false }.closeSocket world.socket normalClose
      "resynchronizing").scheduleReconnect isOnline

/-- `send`. -/
def send (data : String) (readyState : Int) (world : World) : World :=
  match world.socket with
  | none => world
  | some socket =>
      if !world.joined || readyState ≠ socketOpen then world else world.emit (.send socket data)

/-- `retryOrExhaust`. -/
def retryOrExhaust (options : Options) (isOnline : Bool) (world : World) : World :=
  if world.attempt ≥ options.maxReconnectAttempts then
    (world.setState .offline).emit .reconnectExhausted
  else world.scheduleReconnect isOnline

/-- `probeBeforeReconnect`, up to the promise of the probe. -/
def probeBeforeReconnect (isOnline : Bool) (world : World) : World :=
  if world.stopped || world.probing || !isOnline then
    if !world.stopped && !isOnline then world.setState .offline else world
  else
    let generation := world.probeGeneration + 1
    let world :=
      { world with probing := true, probeGeneration := generation }.setState .reconnecting
    { world.emit (.probe generation) with probes := world.probes ++ [generation] }

/-- What follows when the promise of a probe settles; `none` is a rejection. -/
def probed (options : Options) (generation : Nat) (result : Option LiveReconnectProbeResult)
    (isOnline : Bool) (world : World) : World :=
  if !world.isCurrentProbe generation isOnline then world
  else
    let world := { world with probing := false }
    match result with
    | some .authenticationRequired => (world.setState .offline).emit .authenticationRequired
    | some .roomUnavailable => (world.setState .offline).emit .roomUnavailable
    | some .authorized | some .retry | none => world.retryOrExhaust options isOnline

/-- The output with which a close ends the connection; other closes are tried again. -/
def ending (code : Int) (reason : String) : Option (List Output) :=
  if code = policyViolation ∧ (mentions "password" reason ∨ mentions "auth" reason) then
    some [.authenticationRequired]
  else if code = tryAgainLater ∧ (mentions "room limit" reason ∨ mentions "room full" reason) then
    some [.roomFull]
  else if code = normalClose ∧ reason = "leaving live room" then some []
  else if code = tryAgainLater ∧ mentions "expired" reason then some []
  else none

/-- `handleClose` after `onCloseStatus`. -/
def afterClose (options : Options) (code : Int) (reason : String) (isOnline : Bool)
    (world : World) : World :=
  if world.stopped || !isOnline then world.setState .offline
  else
    match ending code reason with
    | some outputs =>
        outputs.foldl (fun world output => world.emit output) (world.setState .offline)
    | none =>
        let world := { world with attempt := world.attempt + 1 }
        if options.probes then world.probeBeforeReconnect isOnline
        else world.retryOrExhaust options isOnline

/-- `handleClose`. -/
def handleClose (options : Options) (socket : Nat) (code : Option Int) (reason : Option String)
    (isOnline : Bool) (world : World) : World :=
  if !world.isCurrent socket then world
  else
    let code := code.getD 1006
    let reason := reason.getD ""
    let closed := { world with socket := none }.clearAttemptTimers
    ({ closed with joined := false }.emit (.closeStatus code reason)).afterClose options code reason
      isOnline

/-- The listener of `open`. -/
def opened (socket : Nat) (world : World) : World :=
  if !world.isCurrent socket then world
  else
    let world := world.clearConnectTimer.emit (.join socket)
    { world with
      joinTimer := some world.timers.next
      timers := world.timers.set (.joinTimeout socket) }

/-- The listener of `message`; data of another type than a string is `none`. -/
def received (socket : Nat) (data : Option String) (world : World) : World :=
  match data with
  | none => world
  | some data => if !world.isCurrent socket then world else world.emit (.message data)

/-- The callback of an attempt's timer. -/
def timedOut (socket : Nat) (reason : String) (world : World) : World :=
  if !world.isCurrent socket || world.joined then world
  else world.emit (.close socket policyViolation reason)

/-- The callback of a timer. -/
def called (isOnline : Bool) (callback : Callback) (world : World) : World :=
  match callback with
  | .reconnect => connect isOnline { world with reconnectTimer := none }
  | .connectTimeout socket => world.timedOut socket "connection timed out"
  | .joinTimeout socket => world.timedOut socket "join timed out"

end World

/-! ## Runs -/

/-- What happens to the controller. -/
inductive Event where
  | start
  | stop
  | online
  | offline
  | markJoined
  | reconnectAfterResync
  | send (data : String) (readyState : Int)
  | opened (socket : Nat)
  | message (socket : Nat) (data : Option String)
  | closed (socket : Nat) (code : Option Int) (reason : Option String)
  | fire (timer : Nat)
  | settle (generation : Nat) (result : Option LiveReconnectProbeResult)
  deriving DecidableEq

/-- One event, with what `isOnline` returns in it.  A timer fires while it is armed and a promise
settles once. -/
def World.step (options : Options) (isOnline : Bool) (world : World) : Event → World
  | .start => world.start isOnline
  | .stop => world.stop
  | .online => world.online isOnline
  | .offline => world.offline
  | .markJoined => world.markJoined
  | .reconnectAfterResync => world.reconnectAfterResync isOnline
  | .send data readyState => world.send data readyState
  | .opened socket => world.opened socket
  | .message socket data => world.received socket data
  | .closed socket code reason => world.handleClose options socket code reason isOnline
  | .fire timer =>
      match world.timers.callback? timer with
      | none => world
      | some callback => { world with timers := world.timers.clear timer }.called isOnline callback
  | .settle generation result =>
      if generation ∈ world.probes then
        { world with probes := world.probes.erase generation }.probed options generation result
          isOnline
      else world

/-- The world after a list of events. -/
def run (options : Options) (events : List (Bool × Event)) : World :=
  events.foldl (fun world event => world.step options event.1 event.2) {}

end Connection

end Oxbin.Browser
