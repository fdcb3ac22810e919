import Oxbin.Httpapi.Wire
import Oxbin.Live.Broadcast

/-!
# Peers

A `livePeer` of `internal/httpapi/live.go` is a connection to a room with a queue of frames.  The
server's goroutines put events into the queue, and the goroutine `writer` takes them out and writes
them.  Whoever finds the queue full stops the peer.
-/

namespace Oxbin.Httpapi

open Live

/-- An event for peers. -/
inductive Event where
  | joined (result : JoinResult) (connectionID : String)
  | metadata (accepted : AcceptedMetadataOperation)
  | document (accepted : AcceptedDocumentOperation)
  | resync
  /-- An event about participants or modes, an error or an acknowledgement. -/
  | notice (data : Json)

namespace Event

/-- The JSON of an event. -/
def data : Event → Json
  | .joined result connectionID => encodeLiveWireEvent (liveJoinedEvent result connectionID)
  | .metadata accepted => metadataWireEvent accepted
  | .document accepted => documentWireEvent accepted
  | .resync => liveStatusEvent "http_resync_required"
  | .notice data => data

/-- What the event tells clients to change.  A duplicate only answers its sender. -/
def change : Event → Option View.Change
  | .metadata accepted => if accepted.duplicate then none else some (.metadata accepted)
  | .document accepted => if accepted.duplicate then none else some (.document accepted)
  | _ => none

/-- The event is no mere notice. -/
def substantial : Event → Bool
  | .notice _ => false
  | _ => true

end Event

/-- The event that `handleWireMessage` makes of the answer to an operation. -/
def operationEvent : Answer → Option Event
  | .document accepted => some (.document accepted)
  | .metadata accepted => some (.metadata accepted)
  | _ => none

/-- The operation has been accepted before. -/
def isDuplicate : Answer → Bool
  | .document accepted => accepted.duplicate
  | .metadata accepted => accepted.duplicate
  | _ => false

/-- `livePeerQueueSize`. -/
def livePeerQueueSize : Nat := 32

/-- `livePeer`, with what the writer has written.  `control` holds the final frame, `polled` says
that the writer has found it empty, and `listed` that the peer is in the registry. -/
structure LivePeer where
  session : Session
  clientID : String
  out : List Event := []
  control : Bool := false
  done : Bool := false
  stopOnce : Bool := false
  listed : Bool := true
  polled : Bool := false
  exited : Bool := false
  written : List Event := []

namespace LivePeer

/-- `stop`. -/
def stop (peer : LivePeer) : LivePeer :=
  if peer.stopOnce then peer else { peer with stopOnce := true, done := true }

/-- `closeAfter`. -/
def closeAfter (peer : LivePeer) : LivePeer :=
  if peer.stopOnce then peer else { peer with stopOnce := true, control := true }

/-- `enqueue`.  Between a closed peer and a free place in its queue, `select` may choose either. -/
def enqueue (limit : Int) (event : Event) (choosesDone : Bool) (peer : LivePeer) : LivePeer :=
  if event.data.size > limit then peer.stop
  else if peer.done ∧ (choosesDone ∨ livePeerQueueSize ≤ peer.out.length) then peer
  else if peer.out.length < livePeerQueueSize then { peer with out := peer.out ++ [event] }
  else peer.stop

/-- The steps of `writer`. -/
inductive Writes (peer : LivePeer) : LivePeer → Prop
  /-- The first `select` goes to its default. -/
  | poll (running : peer.exited = false) (unpolled : peer.polled = false)
      (empty : peer.control = false) : Writes peer { peer with polled := true }
  /-- Either `select` finds the final frame. -/
  | final (running : peer.exited = false) (closing : peer.control = true) :
      Writes peer { peer with control := false, done := true, exited := true }
  | quit (running : peer.exited = false) (polled : peer.polled = true) (closed : peer.done = true) :
      Writes peer { peer with exited := true }
  | write (event : Event) (later : List Event) (running : peer.exited = false)
      (polled : peer.polled = true) (queued : peer.out = event :: later) :
      Writes peer { peer with out := later, polled := false, written := peer.written ++ [event] }
  | fail (event : Event) (later : List Event) (running : peer.exited = false)
      (polled : peer.polled = true) (queued : peer.out = event :: later) :
      Writes peer (stop { peer with out := later, exited := true })

/-- The peer is registered and has not been stopped. -/
structure Live (peer : LivePeer) : Prop where
  listed : peer.listed = true
  running : peer.stopOnce = false

/-- A peer that has not been stopped is neither closed nor closing. -/
def Sound (peer : LivePeer) : Prop :=
  peer.stopOnce = false → peer.done = false ∧ peer.control = false

/-- What has been sent to the peer. -/
def sent (peer : LivePeer) : List Event := peer.written ++ peer.out

section Steps

variable {peer peer' : LivePeer} {limit : Int} {event : Event} {choosesDone : Bool}

theorem not_live_stop : ¬peer.stop.Live := by
  rintro ⟨_, running⟩
  unfold stop at running
  split at running
  case isTrue stopped => exact Bool.noConfusion (stopped.symm.trans running)
  case isFalse => cases running

theorem not_live_closeAfter : ¬peer.closeAfter.Live := by
  rintro ⟨_, running⟩
  unfold closeAfter at running
  split at running
  case isTrue stopped => exact Bool.noConfusion (stopped.symm.trans running)
  case isFalse => cases running

theorem Sound.stop (sound : peer.Sound) : peer.stop.Sound := by
  unfold LivePeer.stop
  split
  · exact sound
  · exact fun running => nomatch running

theorem Sound.closeAfter (sound : peer.Sound) : peer.closeAfter.Sound := by
  unfold LivePeer.closeAfter
  split
  · exact sound
  · exact fun running => nomatch running

theorem Sound.enqueue (sound : peer.Sound) : (peer.enqueue limit event choosesDone).Sound := by
  unfold LivePeer.enqueue
  split
  · exact sound.stop
  · split
    · exact sound
    · split
      · exact sound
      · exact sound.stop

/-- A peer that is still alive has got the event. -/
theorem enqueue_live (sound : peer.Sound) (live : (peer.enqueue limit event choosesDone).Live) :
    peer.Live ∧ (peer.enqueue limit event choosesDone).sent = peer.sent ++ [event] := by
  unfold enqueue at live ⊢
  split at live
  case isTrue => exact absurd live not_live_stop
  case isFalse small =>
    rw [if_neg small]
    split at live
    case isTrue closed => exact Bool.noConfusion ((sound live.running).1.symm.trans closed.1)
    case isFalse taken =>
      rw [if_neg taken]
      split at live
      case isTrue free =>
        rw [if_pos free]
        exact ⟨⟨live.listed, live.running⟩, (List.append_assoc _ _ _).symm⟩
      case isFalse => exact absurd live not_live_stop

theorem Sound.writes (sound : peer.Sound) (writes : peer.Writes peer') : peer'.Sound := by
  cases writes with
  | poll | quit | write => exact sound
  | final running closing =>
      exact fun open' => Bool.noConfusion ((sound open').2.symm.trans closing)
  | fail event later =>
      exact Sound.stop (fun running => sound running)

/-- The writer takes nothing away from what has been sent. -/
theorem writes_live (writes : peer.Writes peer') (live : peer'.Live) :
    peer.Live ∧ peer'.sent = peer.sent := by
  cases writes with
  | poll | quit | final => exact ⟨⟨live.listed, live.running⟩, rfl⟩
  | write event later running polled queued =>
      refine ⟨⟨live.listed, live.running⟩, ?_⟩
      unfold sent
      rw [queued, List.append_assoc]
      rfl
  | fail => exact absurd live not_live_stop

end Steps

end LivePeer

end Oxbin.Httpapi
