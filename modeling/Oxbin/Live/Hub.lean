import Oxbin.Data.Processes
import Oxbin.Live.Life

/-!
# The hub

The rooms that are loaded, and the calls on them from `internal/live/hub.go`.  A call takes the lock
of the hub and the locks of rooms one after the other, so that the parts of several calls
interleave.
-/

namespace Oxbin.Live

open Livecollab Storage

/-! ## Errors -/

/-- The result is not that the room has expired. -/
def Unexpired {α : Type} (result : Except LiveError α) : Prop := result ≠ .error .roomExpired

section Unexpired

variable {α β : Type}

theorem Unexpired.bind {first : Except LiveError α} {next : α → Except LiveError β}
    (before : Unexpired first) (after : ∀ value, Unexpired (next value)) :
    Unexpired (first >>= next) := by
  cases first with
  | error error => exact fun same => before (congrArg Except.error (Except.error.inj same))
  | ok value => exact after value

theorem unexpired_ok (value : α) : Unexpired (.ok value) := fun same => nomatch same

theorem unexpired_require {condition : Prop} [Decidable condition] {error : LiveError}
    (other : error ≠ .roomExpired) : Unexpired (require condition error) := by
  unfold require
  split
  · exact unexpired_ok ()
  · exact fun same => other (Except.error.inj same)

theorem unexpired_generateName [Host] (used : List String) (candidate : Nat → Option String)
    (attempts index : Nat) : Unexpired (generateName used candidate attempts index) := by
  fun_induction generateName used candidate attempts index with
  | case1 | case2 => exact fun same => nomatch same
  | case3 attempts index name named error invalid =>
      have checked : Unexpired (validateNickname name) :=
        unexpired_require fun same => nomatch same
      rw [invalid] at checked
      exact fun same => checked (congrArg Except.error (Except.error.inj same))
  | case4 attempts index name => exact unexpired_ok name
  | case5 attempts index name named valid taken induction => exact induction

theorem unexpired_validate (identity : JoinIdentity) : Unexpired identity.validate := by
  have opaqueIdentifier (value : String) (limit : Nat) {error : LiveError}
      (other : error ≠ .roomExpired) : Unexpired (validateOpaqueIdentifier value limit error) :=
    unexpired_require other
  refine (opaqueIdentifier _ _ (by nofun)).bind fun _ => (opaqueIdentifier _ _ (by nofun)).bind
    fun _ => (opaqueIdentifier _ _ (by nofun)).bind fun _ => ?_
  split
  · exact unexpired_require (by nofun)
  · exact unexpired_ok ()

end Unexpired

namespace Room

theorem unexpired_rejoin (room : Room) (participantID : String) (participant : Participant)
    (identity : JoinIdentity) (creator : Bool) (now : Time) :
    Unexpired (room.rejoin participantID participant identity creator now) := by
  unfold rejoin
  split
  · exact fun same => nomatch same
  · split
    · exact fun same => nomatch same
    · split
      · exact fun same => nomatch same
      · exact unexpired_ok _

theorem unexpired_joinNew [Host] (room : Room) (identity : JoinIdentity) (creator : Bool)
    (candidate : Nat → Option String) (now : Time) :
    Unexpired (room.joinNew identity creator candidate now) := by
  have access : Unexpired (room.accessClassForJoin creator) := by
    unfold accessClassForJoin
    simp only
    repeat' split
    all_goals exact fun same => nomatch same
  have named : Unexpired (participantIDForRoom room.snapshot.slug identity.participantCredential) :=
    (unexpired_require (by nofun)).bind fun _ =>
      (unexpired_require (by nofun)).bind fun _ => unexpired_ok _
  unfold joinNew
  refine (unexpired_require (by nofun)).bind fun _ => access.bind fun _ =>
    named.bind fun _ => (unexpired_require (by nofun)).bind fun _ => ?_
  simp only
  split
  · exact (unexpired_ok _).bind fun _ => unexpired_ok _
  · exact (unexpired_generateName _ _ _ _).bind fun _ => unexpired_ok _

end Room

/-! ## Objects -/

namespace Room

/-- Nobody is in the room, or it has been closed for good. -/
def Deserted (room : Room) : Prop :=
  room.closed = true ∨ ∀ id, room.participants.lookup id = none

section Deserted

variable {room room' : Room}

/-- Who has left does not come back by himself. -/
theorem Continues.deserted (continues : room.Continues room')
    (closed : room.closed = true → room'.closed = true) (deserted : room.Deserted) :
    room'.Deserted := by
  rcases deserted with shut | empty
  · exact .inl (closed shut)
  · refine .inr fun id => ?_
    cases found : room'.participants.lookup id with
    | none => rfl
    | some participant' =>
        obtain ⟨participant, present, _⟩ := continues.participants id participant' found
        cases (empty id).symm.trans present

theorem shouldEvict_deserted [Host] (room : Room) (now : Time)
    (verdict : (room.shouldEvict now).2 = true) : (room.shouldEvict now).1.Deserted := by
  unfold shouldEvict at verdict ⊢
  split at verdict
  case isTrue closed =>
    rw [if_pos closed]
    exact .inl closed
  case isFalse opened =>
    rw [if_neg opened]
    refine .inr fun id => ?_
    have none : (room.pruneDisconnected now).1.participants.entries = [] :=
      List.isEmpty_iff.mp verdict
    rw [AList.lookup, none]
    rfl

/-- A join does not enter a closed room. -/
theorem join_deserted [Host] {room : Room} (rostered : room.Rostered) (identity : JoinIdentity)
    (capability : CreatorCapability)
    (candidate : Nat → Option String) (now : Time) :
    (room.closed = true → (room.join identity capability candidate now).1.closed = true) ∧
      ((room.join identity capability candidate now).2 = .error .roomExpired →
        (room.join identity capability candidate now).1.closed = true) ∧
      ∀ result, (room.join identity capability candidate now).2 = .ok result →
        ¬(room.join identity capability candidate now).1.Deserted := by
  have ends := room.join_outcome identity capability candidate now
  generalize room.join identity capability candidate now = outcome at ends ⊢
  cases ends with
  | past => exact ⟨fun _ => rfl, fun _ => rfl, fun _ answered => (nomatch answered)⟩
  | refused isOpen sessions within error cause =>
      refine ⟨fun closed => (nomatch isOpen.1.symm.trans closed), fun expired => ?_,
        fun _ answered => (nomatch answered)⟩
      cases expired
      rcases cause with ⟨participantID, participant, failed⟩ | failed
      · exact absurd failed (unexpired_rejoin _ _ _ _ _ _)
      · exact absurd failed (unexpired_joinNew _ _ _ _ _)
  | joined isOpen sessions within room' result joined =>
      have closed : room'.closed = false := by
        rw [joined.rest.2]
        exact (room.settledAt_rest now).2.trans isOpen.1
      refine ⟨fun shut => (nomatch isOpen.1.symm.trans shut), fun expired => (nomatch expired),
        fun _ _ deserted => ?_⟩
      rcases deserted with shut | empty
      · cases closed.symm.trans shut
      · have settled : Rostered { room.settledAt now with sessions } := rostered.settledAt now
        obtain ⟨_, participant', admission⟩ := joined.admission settled
        have entered := admission.participants result.session.participant
        rw [if_pos rfl] at entered
        cases (empty _).symm.trans entered

end Deserted

/-- The room has this slug, and nothing to save. -/
structure Labelled (slug : String) (room : Room) : Prop where
  slug : room.snapshot.slug = slug
  clean : room.dirty = false

section Labelled

variable {slug : String} {room room' : Room}

theorem Labelled.applyPersistedMetadata {change : ChangeRecord} (labelled : room.Labelled slug)
    (applied : room.applyPersistedMetadata change = .ok room') : room'.Labelled slug := by
  obtain ⟨persisted, middle, _, replays, rfl⟩ := applyPersistedMetadata_ok applied
  cases replays <;> exact ⟨labelled.slug, labelled.clean⟩

theorem Labelled.replayDocument {store : Store} {fault : Bool} {id : String}
    (labelled : room.Labelled slug) (replayed : room.replayDocument store fault id = .ok room') :
    room'.Labelled slug := by
  obtain ⟨_, _, ⟨_, rfl⟩ | ⟨_, _, _, _, _, _, rfl⟩⟩ := replayDocument_ok replayed
  · exact labelled
  · exact ⟨labelled.slug, labelled.clean⟩

theorem Labelled.replay {store : Store} {fault : Bool} (labelled : room.Labelled slug)
    (replayed : room.replay store fault = .ok room') : room'.Labelled slug := by
  obtain ⟨middle, final, metadata, documents, rfl⟩ := replay_ok replayed
  have labelled' : middle.Labelled slug := by
    rcases metadata with ⟨_, rfl⟩ | ⟨_, changes, _, fold⟩
    · exact labelled
    · exact foldlM_preserves (Labelled slug)
        (fun _ _ _ applied labelled => labelled.applyPersistedMetadata applied) fold labelled
  have final := foldlM_preserves (Labelled slug)
    (fun _ _ _ replayed labelled => labelled.replayDocument replayed) documents labelled'
  exact ⟨final.slug, final.clean⟩

theorem Labelled.loadOperations {store : Store} {fault : Bool} (labelled : room.Labelled slug)
    (loaded : room.loadOperations store fault = .ok room') : room'.Labelled slug := by
  unfold Room.loadOperations at loaded
  simp only [bind_eq_ok] at loaded
  obtain ⟨operations, _, fold⟩ := loaded
  refine foldlM_preserves (Labelled slug)
    (fun room operation next step labelled => ?_) fold labelled
  unfold loadOperation at step
  simp only [bind_eq_ok] at step
  obtain ⟨record, _, _, _, equality⟩ := step
  cases equality
  exact ⟨labelled.slug, labelled.clean⟩

theorem newRoom_labelled {store store' : Store} {snapshot : RoomSnapshot} {options : HubOptions}
    {faults : LoadFaults} (loaded : newRoom store snapshot options faults = (store', .ok room)) :
    room.Labelled snapshot.slug := by
  obtain ⟨documents, replayed, settled, _, _, _, replay, rest, ledger⟩ := newRoom_ok loaded
  have labelled := (⟨rfl, rfl⟩ : (ofSnapshot options snapshot documents).Labelled _).replay replay
  refine Labelled.loadOperations ?_ ledger
  rcases rest with ⟨_, rfl⟩ | ⟨_, rfl⟩
  · exact labelled
  · exact ⟨labelled.slug, labelled.clean⟩

end Labelled

theorem Vacant.rostered {options : HubOptions} {room : Room} (vacant : room.Vacant options) :
    room.Rostered := by
  intro id participant found
  rw [vacant.participants] at found
  cases found

theorem Vacant.deserted {options : HubOptions} {room : Room} (vacant : room.Vacant options) :
    room.Deserted := by
  refine .inr fun id => ?_
  rw [vacant.participants]
  rfl

end Room

namespace Authority

variable [Host] {authority : Authority}

/-- A call of a session does not open a closed room. -/
theorem request_closed (closed : authority.room.closed = true) (session : Session) (now : Time)
    (fault : Bool) (request : Request) :
    (authority.request session now fault request).1.room.closed = true := by
  have past : ¬authority.room.Open now := fun isOpen => nomatch isOpen.1.symm.trans closed
  have refused : authority.room.ensureConnection session.participant session.connectionID
      session.generation now = ({ authority.room with closed := true }, .error .roomExpired) := by
    rw [Room.ensureConnection, Room.ensureActive_closed past]
  cases request with
  | disconnect =>
      simp only [Authority.request, Room.disconnect]
      repeat' split
      all_goals exact closed
  | _ =>
      simp only [Authority.request, Room.submitDocument, Room.applyMetadata, Room.updatePresence,
        Room.rename, Room.heartbeat, Room.setWatchOnly, Room.setLayoutPreset, refused]

/-- A closed room stays closed. -/
theorem perform_closed (rostered : authority.room.Rostered)
    (closed : authority.room.closed = true) (action : Action) :
    (authority.perform action).1.room.closed = true := by
  unfold perform
  split
  case h_1 identity capability candidate call =>
    unfold join
    split
    case h_1 => exact closed
    case h_2 =>
      exact (Room.join_deserted rostered identity capability candidate action.now).1 closed
  case h_2 session request call =>
      exact request_closed closed session action.now action.fault request
  case h_3 =>
    rw [Room.sweep, if_pos closed]
    exact closed
  case h_4 =>
    rw [Room.shouldEvict, if_pos closed]
    exact closed
  case h_5 =>
    unfold Room.shutdown
    simp only
    split
    · split
      · exact closed
      · rfl
    · rfl
  case h_6 => exact closed

theorem perform_rostered (rostered : authority.room.Rostered) (action : Action) :
    (authority.perform action).1.room.Rostered := by
  have move := perform_move rostered action
  generalize authority.perform action = outcome at move ⊢
  cases move with
  | thins outcome thins => exact thins.2
  | joins identity capability candidate call isOpen sessions within room' result joined =>
      have settled : Room.Rostered { authority.room.settledAt action.now with sessions } :=
        rostered.settledAt action.now
      obtain ⟨_, participant', admission⟩ := joined.admission settled
      exact admission.rostered settled joined.rest.1

theorem perform_clean (clean : authority.room.dirty = false) (action : Action) :
    (authority.perform action).1.room.dirty = false := by
  unfold perform
  split
  case h_1 identity capability candidate call =>
    unfold join
    split
    case h_1 => exact clean
    case h_2 => exact (dirty_of_shared (Room.join_shared _ _ _ _ _)).trans clean
  case h_2 session request call => exact request_clean clean session action.now action.fault request
  case h_3 => exact (dirty_of_shared (Room.sweep_shared _ _)).trans clean
  case h_4 => exact (dirty_of_shared (Room.shouldEvict_shared _ _)).trans clean
  case h_5 =>
    simp only
    rw [shutdown_clean clean]
    exact clean
  case h_6 => exact clean

theorem perform_slug (rostered : authority.room.Rostered) (action : Action) :
    (authority.perform action).1.room.snapshot.slug = authority.room.snapshot.slug := by
  have move := perform_move rostered action
  generalize authority.perform action = outcome at move ⊢
  cases move with
  | thins outcome thins => exact thins.1.slug
  | joins identity capability candidate call isOpen sessions within room' result joined =>
      have same := congrArg (fun room => room.snapshot.slug) joined.rest.1
      exact Eq.trans same (authority.room.settledAt_continues action.now).slug

omit [Host] in
theorem map_ne_joined {α : Type} (answer : α → Answer) (result : Except LiveError α)
    (other : ∀ value result, answer value ≠ .joined result) (session : JoinResult) :
    result.map answer ≠ .ok (.joined session) := by
  cases result with
  | error error => exact fun same => nomatch same
  | ok value => exact fun same => other value session (Except.ok.inj same)

/-- Only a join returns a session. -/
theorem perform_ne_joined {action : Action}
    (other : ∀ identity capability candidate, action.call ≠ .join identity capability candidate)
    (session : JoinResult) : (authority.perform action).2 ≠ .ok (.joined session) := by
  unfold perform
  split
  case h_1 identity capability candidate call => exact absurd call (other _ _ _)
  case h_2 caller request call =>
    cases request <;>
      exact map_ne_joined _ _ (fun _ _ same => Answer.noConfusion same) session
  case h_3 => exact fun same => nomatch same
  case h_4 => exact fun same => nomatch same
  case h_5 => exact map_ne_joined _ _ (fun _ _ same => Answer.noConfusion same) session
  case h_6 => exact fun same => nomatch same

/-- A room without anything to save is closed by a shutdown. -/
theorem perform_shutdown (clean : authority.room.dirty = false) {action : Action}
    (call : action.call = .shutdown) : (authority.perform action).1.room.Deserted := by
  unfold perform
  rw [call]
  simp only
  rw [shutdown_clean clean]
  exact .inl rfl

/-- Only a join that succeeds brings somebody into a room. -/
theorem perform_deserted (rostered : authority.room.Rostered) {action : Action}
    (deserted : authority.room.Deserted)
    (apart : ∀ result, (authority.perform action).2 ≠ .ok (.joined result)) :
    (authority.perform action).1.room.Deserted := by
  have move := perform_move rostered action
  have closed := fun shut => perform_closed rostered shut action
  generalize authority.perform action = outcome at move apart closed ⊢
  cases move with
  | thins outcome thins => exact thins.1.deserted closed deserted
  | joins identity capability candidate call isOpen sessions within room' result joined =>
      exact absurd rfl (apart result)

end Authority

/-! ## Tasks -/

/-- A call that has not returned, with what it is about to do.  The first part of a call has been
done when it becomes a task. -/
inductive Task where
  /-- `JoinWithIdentity` has the room and is about to join it. -/
  | joining (slug : String) (object : Nat) (identity : JoinIdentity)
      (capability : CreatorCapability) (candidate : Nat → Option String) (now : Time)
  /-- `sweep` is about to sweep the first of the rooms that it has listed. -/
  | sweeping (now : Time) (pending : List Nat)
  /-- `sweep` is about to ask whether it evicts the room. -/
  | judging (now : Time) (object : Nat) (pending : List Nat)
  /-- `sweep` evicts the room and is about to ask for its slug. -/
  | naming (now : Time) (object : Nat) (pending : List Nat)
  /-- `removeRoom`, with what `sweep` goes on with. -/
  | removing (slug : String) (object : Nat) (later : Option (Time × List Nat))
  /-- `Shutdown` is about to shut down the first of the rooms that it has listed. -/
  | closing (now : Time) (pending : List Nat)
  | returned

namespace Task

/-- The room that the task is about to remove from the hub. -/
def evicts : Task → Option Nat
  | naming _ object _ | removing _ object _ => some object
  | _ => none

/-- The rooms that the task is about to shut down. -/
def drains : Task → List Nat
  | closing _ pending => pending
  | _ => []

end Task

/-- `Hub` with its store, the rooms that it has loaded so far, and the calls on it.  Rooms are known
by their address. -/
structure Hub where
  store : Store
  objects : List Room
  rooms : Keyed Nat
  closed : Bool
  tasks : List Task

namespace Hub

/-- Call a method of a room. -/
def act [Host] (hub : Hub) (object : Nat) (room : Room) (action : Action) : Hub :=
  { hub with
    store := (Authority.perform ⟨room, hub.store⟩ action).1.store
    objects := hub.objects.set object (Authority.perform ⟨room, hub.store⟩ action).1.room }

/-- A task goes on. -/
def goOn (hub : Hub) (index : Nat) (task : Task) : Hub :=
  { hub with tasks := hub.tasks.set index task }

/-- `removeRoom`. -/
def removeRoom (hub : Hub) (slug : String) (object : Nat) : Hub :=
  if hub.rooms.lookup slug = some object then { hub with rooms := hub.rooms.erase slug } else hub

/-- The result is a session. -/
def admits : Except LiveError Answer → Bool
  | .ok (.joined _) => true
  | _ => false

/-- What a join does after `room.join`. -/
def afterJoin (slug : String) (object : Nat) : Except LiveError Answer → Task
  | .error .roomExpired => .removing slug object none
  | _ => .returned

theorem afterJoin_of_admits {answer : Except LiveError Answer} (admitted : admits answer = true)
    (slug : String) (object : Nat) : afterJoin slug object answer = .returned := by
  unfold afterJoin
  split
  · cases admitted
  · rfl

/-- The room is registered. -/
def Registered (hub : Hub) (object : Nat) : Prop :=
  ∃ slug, hub.rooms.lookup slug = some object

/-- A shutdown is about to close the room. -/
def Draining (hub : Hub) (object : Nat) : Prop :=
  ∃ task ∈ hub.tasks, object ∈ task.drains

/-- A sweep or a join is about to remove the room. -/
def Doomed (hub : Hub) (object : Nat) : Prop :=
  ∃ task ∈ hub.tasks, task.evicts = some object

/-- The hub keeps the room until somebody decides otherwise. -/
def Keeps (hub : Hub) (object : Nat) : Prop :=
  (hub.Registered object ∨ hub.Draining object) ∧ ¬hub.Doomed object

/-- One step, with the room that a join has entered. -/
inductive Step [Host] (options : HubOptions) (hub : Hub) : Option Nat → Hub → Prop
  /-- `JoinWithIdentity` finds the room. -/
  | find (slug : String) (object : Nat) (identity : JoinIdentity) (capability : CreatorCapability)
      (candidate : Nat → Option String) (now : Time) (opened : hub.closed = false)
      (named : slug ≠ "" ∧ Trimmed slug) (valid : identity.validate = .ok ())
      (found : hub.rooms.lookup slug = some object) :
      Step options hub none { hub with
        tasks := hub.tasks ++ [.joining slug object identity capability candidate now] }
  /-- `JoinWithIdentity` loads the room. -/
  | load (slug : String) (identity : JoinIdentity) (capability : CreatorCapability)
      (candidate : Nat → Option String) (now : Time) (fault : Bool) (snapshot : RoomSnapshot)
      (faults : LoadFaults) (store : Store) (room : Room) (opened : hub.closed = false)
      (named : slug ≠ "" ∧ Trimmed slug) (valid : identity.validate = .ok ())
      (missing : hub.rooms.lookup slug = none)
      (read : Storage.Store.getRoomSnapshot hub.store slug now fault = .ok snapshot)
      -- the query selects the row by its slug
      (row : snapshot.slug = slug)
      (loaded : Room.newRoom hub.store snapshot options faults = (store, .ok room)) :
      Step options hub none { hub with
        store := store
        objects := hub.objects ++ [room]
        rooms := hub.rooms.insert slug hub.objects.length
        tasks := hub.tasks ++
          [.joining slug hub.objects.length identity capability candidate now] }
  | enter (index : Nat) (slug : String) (object : Nat) (identity : JoinIdentity)
      (capability : CreatorCapability) (candidate : Nat → Option String) (now : Time) (room : Room)
      (task : hub.tasks[index]? =
        some (.joining slug object identity capability candidate now))
      (present : hub.objects[object]? = some room) (action : Action)
      (join : action = ⟨.join identity capability candidate, now, false⟩)
      (answer : Except LiveError Answer)
      (answered : (Authority.perform ⟨room, hub.store⟩ action).2 = answer) :
      Step options hub (if admits answer then some object else none)
        ((hub.act object room action).goOn index (afterJoin slug object answer))
  /-- A session calls a method of its room. -/
  | request (object : Nat) (room : Room) (present : hub.objects[object]? = some room)
      (session : Session) (request : Request) (now : Time) (fault : Bool) :
      Step options hub none (hub.act object room ⟨.request session request, now, fault⟩)
  /-- Something else is done to the store, as by a load that fails. -/
  | storage (store : Store) : Step options hub none { hub with store }
  | sweep (now : Time) (visits : List Nat) (opened : hub.closed = false)
      (listed : visits.Perm hub.rooms.values) :
      Step options hub none { hub with tasks := hub.tasks ++ [.sweeping now visits] }
  | sweepRoom (index object : Nat) (now : Time) (pending : List Nat) (room : Room)
      (task : hub.tasks[index]? = some (.sweeping now (object :: pending)))
      (present : hub.objects[object]? = some room) :
      Step options hub none
        ((hub.act object room ⟨.sweep, now, false⟩).goOn index (.judging now object pending))
  | judge (index object : Nat) (now : Time) (pending : List Nat) (room : Room) (verdict : Bool)
      (task : hub.tasks[index]? = some (.judging now object pending))
      (present : hub.objects[object]? = some room)
      (judged : (room.shouldEvict now).2 = verdict) :
      Step options hub none ((hub.act object room ⟨.shouldEvict, now, false⟩).goOn index
        (if verdict then .naming now object pending else .sweeping now pending))
  | name (index object : Nat) (now : Time) (pending : List Nat) (room : Room)
      (task : hub.tasks[index]? = some (.naming now object pending))
      (present : hub.objects[object]? = some room) :
      Step options hub none
        (hub.goOn index (.removing room.snapshot.slug object (some (now, pending))))
  | remove (index object : Nat) (slug : String) (later : Option (Time × List Nat))
      (task : hub.tasks[index]? = some (.removing slug object later)) :
      Step options hub none ((hub.removeRoom slug object).goOn index
        (match later with
        | some (now, pending) => .sweeping now pending
        | none => .returned))
  | shutdown (now : Time) (visits : List Nat) (opened : hub.closed = false)
      (listed : visits.Perm hub.rooms.values) :
      Step options hub none { hub with
        closed := true, rooms := ∅, tasks := hub.tasks ++ [.closing now visits] }
  | shutdownRoom (index object : Nat) (now : Time) (pending : List Nat) (room : Room)
      (fault : Bool) (task : hub.tasks[index]? = some (.closing now (object :: pending)))
      (present : hub.objects[object]? = some room) :
      Step options hub none
        ((hub.act object room ⟨.shutdown, now, fault⟩).goOn index (.closing now pending))

/-! ## What holds in every hub -/

/-- The slug of a room. -/
def slugOf (hub : Hub) (object : Nat) : Option String :=
  hub.objects[object]?.map fun room => room.snapshot.slug

/-- Rooms are registered under their slugs until a shutdown, which closes each of them. -/
structure Sound (hub : Hub) : Prop where
  rostered : ∀ room ∈ hub.objects, room.Rostered
  clean : ∀ room ∈ hub.objects, room.dirty = false
  registered : ∀ slug object, hub.rooms.lookup slug = some object → hub.slugOf object = some slug
  cleared : hub.closed = true → hub.rooms = ∅
  undrained : hub.closed = false → ∀ task ∈ hub.tasks, task.drains = []
  drained : ((hub.tasks.flatMap Task.drains).map hub.slugOf).Nodup

/-- Nobody is in the room, whatever it has become. -/
def Left (hub : Hub) (object : Nat) : Prop :=
  ∀ room, hub.objects[object]? = some room → room.Deserted

/-- Nobody is in a room that the hub does not keep. -/
def Safe (hub : Hub) : Prop := ∀ object, ¬hub.Keeps object → hub.Left object

section Tasks

variable {hub hub' : Hub} {index object : Nat} {task task' : Task}

/-- Another call begins. -/
theorem Sound.spawn (sound : hub.Sound) (drains : task.drains = []) :
    Sound { hub with tasks := hub.tasks ++ [task] } where
  rostered := sound.rostered
  clean := sound.clean
  registered := sound.registered
  cleared := sound.cleared
  undrained opened other member := by
    rcases List.mem_append.mp member with old | new
    · exact sound.undrained opened other old
    · rw [List.mem_singleton.mp new, drains]
  drained := by
    rw [List.flatMap_append, List.flatMap_singleton, drains, List.append_nil]
    exact sound.drained

/-- A task goes on and shuts down no other rooms. -/
theorem Sound.goOn (sound : hub.Sound) (found : hub.tasks[index]? = some task)
    (drains : task'.drains.Sublist task.drains) : (hub.goOn index task').Sound where
  rostered := sound.rostered
  clean := sound.clean
  registered := sound.registered
  cleared := sound.cleared
  undrained opened other member := by
    rcases List.mem_or_eq_of_mem_set member with old | rfl
    · exact sound.undrained opened other old
    · have none := sound.undrained opened task (List.mem_of_getElem? found)
      rw [none] at drains
      exact List.sublist_nil.mp drains
  drained := sound.drained.sublist ((flatMap_set_sublist found drains).map _)

theorem removeRoom_tasks (hub : Hub) (slug : String) (object : Nat) :
    (hub.removeRoom slug object).tasks = hub.tasks := by
  unfold Hub.removeRoom
  split <;> rfl

theorem Sound.removeRoom (sound : hub.Sound) (slug : String) (object : Nat) :
    (hub.removeRoom slug object).Sound := by
  unfold Hub.removeRoom
  split
  case isTrue found =>
    exact {
      rostered := sound.rostered
      clean := sound.clean
      registered other object' found' := by
        refine sound.registered other object' ?_
        by_cases same : other = slug
        · rw [same, AList.lookup_erase] at found'
          cases found'
        · rwa [AList.lookup_erase_ne same] at found'
      cleared closed := by
        rw [sound.cleared closed] at found
        cases found
      undrained := sound.undrained
      drained := sound.drained }
  case isFalse => exact sound

/-- No shutdown has begun. -/
theorem Sound.no_drains (sound : hub.Sound) (opened : hub.closed = false) :
    hub.tasks.flatMap Task.drains = [] :=
  List.flatMap_eq_nil_iff.mpr (sound.undrained opened)

/-- The rooms that are registered have different slugs. -/
theorem Sound.map_slugOf_values (sound : hub.Sound) :
    hub.rooms.values.map hub.slugOf = hub.rooms.keys.map some := by
  rw [Keyed.values, AList.keys, List.keys, List.map_map, List.map_map]
  refine List.map_congr_left fun entry member => ?_
  exact sound.registered entry.1 entry.2 (AList.mem_lookup_iff.mpr member)

theorem Sound.shutdown (sound : hub.Sound) (opened : hub.closed = false) (now : Time)
    {visits : List Nat} (listed : visits.Perm hub.rooms.values) :
    Sound { hub with closed := true, rooms := ∅, tasks := hub.tasks ++ [.closing now visits] } where
  rostered := sound.rostered
  clean := sound.clean
  registered _ _ found := nomatch found
  cleared _ := rfl
  undrained reopened := nomatch reopened
  drained := by
    rw [List.flatMap_append, List.flatMap_singleton, sound.no_drains opened, List.nil_append]
    refine (listed.map hub.slugOf).nodup_iff.mpr ?_
    rw [sound.map_slugOf_values]
    exact hub.rooms.keys_nodup.map (Option.some_injective _)

theorem Sound.load (sound : hub.Sound) (opened : hub.closed = false) {slug : String} {room : Room}
    (store : Store) (rostered : room.Rostered) (labelled : room.Labelled slug) :
    Sound { hub with
      store := store, objects := hub.objects ++ [room]
      rooms := hub.rooms.insert slug hub.objects.length } where
  rostered other member := by
    rcases List.mem_append.mp member with old | new
    · exact sound.rostered other old
    · exact List.mem_singleton.mp new ▸ rostered
  clean other member := by
    rcases List.mem_append.mp member with old | new
    · exact sound.clean other old
    · exact List.mem_singleton.mp new ▸ labelled.clean
  registered other object found := by
    rw [slugOf]
    by_cases same : other = slug
    · rw [same, AList.lookup_insert] at found
      cases found
      rw [List.getElem?_concat_length, Option.map_some, labelled.slug, same]
    · rw [AList.lookup_insert_ne same] at found
      have slugged := sound.registered other object found
      obtain ⟨old, present, _⟩ := Option.map_eq_some_iff.mp slugged
      rw [List.getElem?_append_left (List.getElem?_eq_some_iff.mp present).1]
      exact slugged
  cleared closed := nomatch opened.symm.trans closed
  undrained := sound.undrained
  drained := by
    rw [sound.no_drains opened]
    exact List.nodup_nil

/-- No room that is kept is let go while somebody is in it. -/
theorem Safe.of_keeps (safe : hub.Safe) (left : ∀ object, hub.Left object → hub'.Left object)
    (keeps : ∀ object, hub.Keeps object → hub'.Keeps object ∨ hub'.Left object) : hub'.Safe := by
  intro object dropped
  by_cases kept : hub.Keeps object
  · exact (keeps object kept).resolve_left dropped
  · exact left object (safe object kept)

/-- Another call begins. -/
theorem Safe.spawn (safe : hub.Safe) (evicts : task.evicts = none) :
    Safe { hub with tasks := hub.tasks ++ [task] } := by
  refine safe.of_keeps (fun _ => id) fun object ⟨held, spared⟩ => .inl ⟨?_, ?_⟩
  · refine held.imp_right fun ⟨other, member, drains⟩ => ?_
    exact ⟨other, List.mem_append_left _ member, drains⟩
  · rintro ⟨other, member, doomed⟩
    rcases List.mem_append.mp member with old | new
    · exact spared ⟨other, old, doomed⟩
    · rw [List.mem_singleton.mp new, evicts] at doomed
      cases doomed

/-- A task goes on.  It forgets only rooms that everybody has left. -/
theorem Safe.goOn (safe : hub.Safe) (found : hub.tasks[index]? = some task)
    (drains : ∀ object ∈ task.drains, object ∈ task'.drains ∨ hub.Left object)
    (evicts : ∀ object, task'.evicts = some object → hub.Left object) :
    (hub.goOn index task').Safe := by
  refine safe.of_keeps (fun _ => id) fun object ⟨held, spared⟩ => ?_
  by_cases left : hub.Left object
  · exact .inr left
  refine .inl ⟨held.imp_right ?_, ?_⟩
  · rintro ⟨other, member, drain⟩
    rcases @mem_set_of_mem _ _ _ _ task' _ found member with rfl | still
    · exact ⟨task', List.mem_set (List.getElem?_eq_some_iff.mp found).1 _,
        (drains object drain).resolve_right left⟩
    · exact ⟨other, still, drain⟩
  · rintro ⟨other, member, doomed⟩
    rcases List.mem_or_eq_of_mem_set member with old | rfl
    · exact spared ⟨other, old, doomed⟩
    · exact left (evicts object doomed)

/-- A task that neither removes nor shuts down any room does not matter. -/
theorem Keeps.of_goOn (found : hub.tasks[index]? = some task) (evicts : task.evicts = none)
    (drains : task'.drains = []) (kept : (hub.goOn index task').Keeps object) :
    hub.Keeps object := by
  obtain ⟨held, spared⟩ := kept
  refine ⟨held.imp_right ?_, ?_⟩
  · rintro ⟨other, member, drain⟩
    rcases List.mem_or_eq_of_mem_set member with old | rfl
    · exact ⟨other, old, drain⟩
    · rw [drains] at drain
      cases drain
  · rintro ⟨other, member, doomed⟩
    rcases @mem_set_of_mem _ _ _ _ task' _ found member with rfl | still
    · cases evicts.symm.trans doomed
    · exact spared ⟨other, still, doomed⟩

/-- The room that a task removes has been left. -/
theorem Safe.removeRoom (safe : hub.Safe) {slug : String}
    (doomed : hub.Doomed object) : (hub.removeRoom slug object).Safe := by
  unfold Hub.removeRoom
  split
  case isTrue found =>
    refine safe.of_keeps (fun _ => id) fun other ⟨held, spared⟩ => .inl ⟨?_, spared⟩
    refine held.imp_left fun ⟨slug', found'⟩ => ⟨slug', ?_⟩
    rw [AList.lookup_erase_ne]
    · exact found'
    · rintro rfl
      cases found.symm.trans found'
      exact spared doomed
  case isFalse => exact safe

theorem Safe.shutdown (safe : hub.Safe) (now : Time) {visits : List Nat}
    (listed : visits.Perm hub.rooms.values) :
    Safe { hub with closed := true, rooms := ∅, tasks := hub.tasks ++ [.closing now visits] } := by
  refine safe.of_keeps (fun _ => id) fun object ⟨held, spared⟩ => .inl ⟨.inr ?_, ?_⟩
  · rcases held with ⟨slug, found⟩ | ⟨other, member, drain⟩
    · refine ⟨_, List.mem_append_right _ (List.mem_singleton_self _), listed.mem_iff.mpr ?_⟩
      exact List.mem_map.mpr ⟨⟨slug, object⟩, AList.mem_lookup_iff.mp found, rfl⟩
    · exact ⟨other, List.mem_append_left _ member, drain⟩
  · rintro ⟨other, member, doomed⟩
    rcases List.mem_append.mp member with old | new
    · exact spared ⟨other, old, doomed⟩
    · rw [List.mem_singleton.mp new] at doomed
      cases doomed

theorem Safe.load (safe : hub.Safe) {slug : String} {room : Room} (store : Store)
    (missing : hub.rooms.lookup slug = none) (deserted : room.Deserted) :
    Safe { hub with
      store := store, objects := hub.objects ++ [room]
      rooms := hub.rooms.insert slug hub.objects.length } := by
  refine safe.of_keeps (fun object left other present => ?_) fun object ⟨held, spared⟩ =>
    .inl ⟨held.imp_left fun ⟨slug', found⟩ => ⟨slug', ?_⟩, spared⟩
  · rw [List.getElem?_append] at present
    split at present
    · exact left other present
    · exact List.mem_singleton.mp (List.mem_of_getElem? present) ▸ deserted
  · rw [AList.lookup_insert_ne]
    · exact found
    · rintro rfl
      cases missing.symm.trans found

end Tasks

section Steps

variable [Host] {options : HubOptions} {hub hub' : Hub} {object : Nat} {room : Room}

theorem act_getElem? (present : hub.objects[object]? = some room) (action : Action) (other : Nat) :
    (hub.act object room action).objects[other]? =
      if other = object then some (Authority.perform ⟨room, hub.store⟩ action).1.room
      else hub.objects[other]? :=
  getElem?_set_of_getElem? present other

theorem Sound.slugOf_act (sound : hub.Sound) (present : hub.objects[object]? = some room)
    (action : Action) : (hub.act object room action).slugOf = hub.slugOf := by
  funext other
  rw [slugOf, act_getElem? present, slugOf]
  split
  case isTrue same =>
    have rostered := sound.rostered room (List.mem_of_getElem? present)
    rw [same, present, Option.map_some, Option.map_some,
      @Authority.perform_slug _ ⟨room, hub.store⟩ rostered action]
  case isFalse => rfl

theorem Sound.act (sound : hub.Sound) (present : hub.objects[object]? = some room)
    (action : Action) : (hub.act object room action).Sound := by
  have slugs := sound.slugOf_act present action
  have each {kind : Room → Prop} (holds : ∀ other ∈ hub.objects, kind other)
      (new : kind (Authority.perform ⟨room, hub.store⟩ action).1.room) :
      ∀ other ∈ (hub.act object room action).objects, kind other := by
    intro other member
    rcases List.mem_or_eq_of_mem_set member with old | rfl
    · exact holds other old
    · exact new
  have member := List.mem_of_getElem? present
  exact {
    rostered := each sound.rostered (@Authority.perform_rostered _ ⟨room, hub.store⟩
      (sound.rostered room member) action)
    clean := each sound.clean (@Authority.perform_clean _ ⟨room, hub.store⟩
      (sound.clean room member) action)
    registered := slugs ▸ sound.registered
    cleared := sound.cleared
    undrained := sound.undrained
    drained := slugs ▸ sound.drained }

/-- What holds of the room after a call. -/
theorem left_act (present : hub.objects[object]? = some room) {action : Action}
    (deserted : (Authority.perform ⟨room, hub.store⟩ action).1.room.Deserted) :
    (hub.act object room action).Left object := by
  intro other found
  rw [act_getElem? present, if_pos rfl, Option.some.injEq] at found
  exact found ▸ deserted

/-- Only a join that succeeds brings somebody into a room. -/
theorem Safe.act (safe : hub.Safe) (sound : hub.Sound) (present : hub.objects[object]? = some room)
    {action : Action}
    (apart : hub.Keeps object ∨
      ∀ result, (Authority.perform ⟨room, hub.store⟩ action).2 ≠ .ok (.joined result)) :
    (hub.act object room action).Safe := by
  intro other dropped other' found
  rw [act_getElem? present] at found
  split at found
  case isTrue same =>
    cases found
    have deserted : room.Deserted := safe object (same ▸ dropped) room present
    rcases apart with kept | apart
    · exact absurd (same ▸ kept) dropped
    · exact @Authority.perform_deserted _ ⟨room, hub.store⟩
        (sound.rostered room (List.mem_of_getElem? present)) action deserted apart
  case isFalse => exact safe other dropped other' found

/-- A join of a room that has expired leaves a closed room behind. -/
theorem left_of_expired (rostered : room.Rostered) {action : Action}
    {identity : JoinIdentity} {capability : CreatorCapability} {candidate : Nat → Option String}
    {now : Time} (join : action = ⟨.join identity capability candidate, now, false⟩)
    {store : Store} (expired : (Authority.perform ⟨room, store⟩ action).2 = .error .roomExpired) :
    (Authority.perform ⟨room, store⟩ action).1.room.Deserted := by
  subst join
  change (Authority.join ⟨room, store⟩ identity capability candidate now).2 = _ at expired
  change (Authority.join ⟨room, store⟩ identity capability candidate now).1.room.Deserted
  unfold Authority.join at expired ⊢
  cases valid : identity.validate with
  | error error =>
      rw [valid] at expired
      cases expired
      exact absurd valid (unexpired_validate identity)
  | ok =>
      rw [valid] at expired
      have left := (Room.join_deserted rostered identity capability candidate now).2.1
      cases answer : (room.join identity capability candidate now).2 with
      | error error =>
          simp only [answer] at expired
          cases expired
          exact .inl (left answer)
      | ok result =>
          simp only [answer] at expired
          cases expired

/-- A join that succeeds brings somebody into the room. -/
theorem entered_of_admits (rostered : room.Rostered) {action : Action}
    {identity : JoinIdentity} {capability : CreatorCapability} {candidate : Nat → Option String}
    {now : Time} (join : action = ⟨.join identity capability candidate, now, false⟩)
    {store : Store} (admitted : admits (Authority.perform ⟨room, store⟩ action).2 = true) :
    ¬(Authority.perform ⟨room, store⟩ action).1.room.Deserted := by
  subst join
  change admits (Authority.join ⟨room, store⟩ identity capability candidate now).2 = _ at admitted
  change ¬(Authority.join ⟨room, store⟩ identity capability candidate now).1.room.Deserted
  unfold Authority.join at admitted ⊢
  cases valid : identity.validate with
  | error error =>
      rw [valid] at admitted
      cases admitted
  | ok =>
      rw [valid] at admitted
      have entered := (Room.join_deserted rostered identity capability candidate now).2.2
      cases answer : (room.join identity capability candidate now).2 with
      | error error =>
          simp only [answer] at admitted
          cases admitted
      | ok result => exact entered result answer

theorem Step.sound {entered : Option Nat} (step : Step options hub entered hub')
    (sound : hub.Sound) : hub'.Sound := by
  cases step with
  | find => exact sound.spawn rfl
  | load slug identity capability candidate now fault snapshot faults store room opened named valid
      missing read row loaded =>
      exact (sound.load opened store (Room.newRoom_vacant loaded).rostered
        (row ▸ Room.newRoom_labelled loaded)).spawn rfl
  | enter index slug object identity capability candidate now room task present action join answer
      answered =>
      refine (sound.act present action).goOn task ?_
      unfold afterJoin
      split <;> exact List.Sublist.refl _
  | request object room present => exact sound.act present _
  | storage => exact ⟨sound.rostered, sound.clean, sound.registered, sound.cleared,
      sound.undrained, sound.drained⟩
  | sweep => exact sound.spawn rfl
  | sweepRoom index object now pending room task present =>
      exact (sound.act present _).goOn task (List.Sublist.refl _)
  | judge index object now pending room verdict task present =>
      refine (sound.act present _).goOn task ?_
      cases verdict <;> exact List.Sublist.refl _
  | name index object now pending room task => exact sound.goOn task (List.Sublist.refl _)
  | remove index object slug later task =>
      refine (sound.removeRoom slug object).goOn ((hub.removeRoom_tasks slug object).symm ▸ task) ?_
      cases later <;> exact List.Sublist.refl _
  | shutdown now visits opened listed => exact sound.shutdown opened now listed
  | shutdownRoom index object now pending room fault task present =>
      exact (sound.act present _).goOn task (List.sublist_cons_self _ _)

/-- The hub stays safe as long as joins enter rooms that it keeps. -/
theorem Step.safe {entered : Option Nat} (step : Step options hub entered hub')
    (sound : hub.Sound) (safe : hub.Safe) (kept : ∀ object ∈ entered, hub.Keeps object) :
    hub'.Safe := by
  -- all calls but joins
  have calls {object : Nat} {room : Room} (present : hub.objects[object]? = some room)
      {action : Action}
      (other : ∀ identity capability candidate, action.call ≠ .join identity capability candidate) :
      (hub.act object room action).Safe :=
    safe.act sound present (.inr (Authority.perform_ne_joined other))
  cases step with
  | find => exact safe.spawn rfl
  | load slug identity capability candidate now fault snapshot faults store room opened named valid
      missing read row loaded =>
      exact (safe.load store missing (Room.newRoom_vacant loaded).deserted).spawn rfl
  | enter index slug object identity capability candidate now room task present action join answer
      answered =>
      refine Safe.goOn (safe.act sound present ?_) task (fun _ none => nomatch none) ?_
      · by_cases admitted : admits answer = true
        · rw [if_pos admitted] at kept
          exact .inl (kept object rfl)
        · refine .inr fun result same => admitted ?_
          rw [← answered, same]
          rfl
      · intro other evicts
        unfold afterJoin at evicts
        split at evicts
        case h_1 =>
          cases evicts
          exact left_act present (left_of_expired
            (sound.rostered room (List.mem_of_getElem? present)) join answered)
        case h_2 => cases evicts
  | request object room present => exact calls present (by nofun)
  | storage => exact safe
  | sweep => exact safe.spawn rfl
  | sweepRoom index object now pending room task present =>
      exact (calls present (by nofun)).goOn task (fun _ none => nomatch none) (by nofun)
  | judge index object now pending room verdict task present judged =>
      refine (calls present (by nofun)).goOn task (fun _ none => nomatch none) ?_
      intro other evicts
      cases verdict with
      | false => cases evicts
      | true =>
          cases evicts
          exact left_act present (room.shouldEvict_deserted now judged)
  | name index object now pending room task =>
      refine safe.goOn task (fun _ none => nomatch none) fun other evicts => ?_
      cases evicts
      exact safe object fun kept => kept.2 ⟨_, List.mem_of_getElem? task, rfl⟩
  | remove index object slug later task =>
      have removed : (hub.removeRoom slug object).Safe :=
        safe.removeRoom ⟨_, List.mem_of_getElem? task, rfl⟩
      refine removed.goOn ((hub.removeRoom_tasks slug object).symm ▸ task) ?_ ?_
      · exact fun _ none => nomatch none
      · intro other evicts
        cases later <;> cases evicts
  | shutdown now visits opened listed => exact safe.shutdown now listed
  | shutdownRoom index object now pending room fault task present =>
      refine (calls present (by nofun)).goOn task (fun other drains => ?_) (by nofun)
      rcases List.mem_cons.mp drains with rfl | later
      · exact .inr (left_act present (@Authority.perform_shutdown _ ⟨room, hub.store⟩
          (sound.clean room (List.mem_of_getElem? present)) _ rfl))
      · exact .inl later

/-- A join has brought somebody into a room that the hub does not keep. -/
theorem Step.unsafe {object : Nat} (step : Step options hub (some object) hub')
    (sound : hub.Sound) (dropped : ¬hub.Keeps object) : ¬hub'.Safe := by
  generalize entering : some object = entered at step
  cases step with
  | enter index slug object' identity capability candidate now room task present action join answer
      answered =>
      split at entering
      case isFalse => cases entering
      case isTrue admitted =>
        cases entering
        have found : admits (Authority.perform ⟨room, hub.store⟩ action).2 = true :=
          answered ▸ admitted
        have entered :=
          entered_of_admits (sound.rostered room (List.mem_of_getElem? present)) join found
        have inside := hub.act_getElem? present action object
        rw [if_pos rfl] at inside
        rw [afterJoin_of_admits admitted]
        exact fun safe => entered (safe object
          (fun kept => dropped (Keeps.of_goOn task rfl rfl kept)) _ inside)
  | _ => cases entering

/-! ## Runs -/

/-- The hubs that calls lead to while every join enters a room that the hub keeps. -/
inductive Reached [Host] (options : HubOptions) : Hub → Prop
  | newHub (store : Store) : Reached options ⟨store, [], ∅, false, []⟩
  | step {hub hub' : Hub} {entered : Option Nat} (reached : Reached options hub)
      (step : Step options hub entered hub') (kept : ∀ object ∈ entered, hub.Keeps object) :
      Reached options hub'

theorem Reached.sound (reached : Reached options hub) : hub.Sound := by
  induction reached with
  | newHub store => exact {
      rostered := fun _ none => nomatch none
      clean := fun _ none => nomatch none
      registered := fun _ _ none => nomatch none
      cleared := fun _ => rfl
      undrained := fun _ _ none => nomatch none
      drained := List.nodup_nil }
  | step reached step kept sound => exact step.sound sound

theorem Reached.safe (reached : Reached options hub) : hub.Safe := by
  induction reached with
  | newHub store => exact fun _ _ room present => nomatch present
  | step reached step kept safe => exact step.safe reached.sound safe kept

omit [Host] in
/-- The hub does not lose sight of a room that somebody is in. -/
theorem Safe.keeps (safe : hub.Safe) (present : hub.objects[object]? = some room)
    (inside : ¬room.Deserted) : hub.Registered object ∨ hub.Draining object :=
  (Classical.by_contradiction fun dropped => inside (safe object dropped room present) :
    hub.Keeps object).1

omit [Host] in
/-- An open hub has every room that somebody is in under its slug. -/
theorem Safe.lookup (safe : hub.Safe) (sound : hub.Sound) (opened : hub.closed = false)
    (present : hub.objects[object]? = some room) (inside : ¬room.Deserted) :
    hub.rooms.lookup room.snapshot.slug = some object := by
  rcases safe.keeps present inside with ⟨slug, found⟩ | ⟨task, member, drain⟩
  · have slugged := sound.registered slug object found
    rw [slugOf, present, Option.map_some, Option.some.injEq] at slugged
    exact slugged.symm ▸ found
  · rw [sound.undrained opened task member] at drain
    cases drain

omit [Host] in
/-- Only one room of a slug has somebody in it. -/
theorem Safe.unique (safe : hub.Safe) (sound : hub.Sound) {object' : Nat} {room' : Room}
    (present : hub.objects[object]? = some room) (present' : hub.objects[object']? = some room')
    (inside : ¬room.Deserted) (inside' : ¬room'.Deserted)
    (same : room.snapshot.slug = room'.snapshot.slug) : object = object' := by
  cases opened : hub.closed with
  | false =>
      have found := safe.lookup sound opened present inside
      have found' := safe.lookup sound opened present' inside'
      rw [same, found', Option.some.injEq] at found
      exact found.symm
  | true =>
      have drains {object : Nat} {room : Room} (present : hub.objects[object]? = some room)
          (inside : ¬room.Deserted) : object ∈ hub.tasks.flatMap Task.drains := by
        rcases safe.keeps present inside with ⟨slug, found⟩ | ⟨task, member, drain⟩
        · rw [sound.cleared opened] at found
          cases found
        · exact List.mem_flatMap.mpr ⟨task, member, drain⟩
      refine List.inj_on_of_nodup_map sound.drained (drains present inside)
        (drains present' inside') ?_
      rw [slugOf, slugOf, present, present', Option.map_some, Option.map_some, same]

/-- However the calls on the hub interleave, no two rooms of one slug have somebody in them, as long
as no join enters a room that has been removed, or is about to be, since the join found it; the
first such join breaks this. -/
theorem single_authority (reached : Reached options hub) :
    (∀ object room, hub.objects[object]? = some room → ¬room.Deserted →
      (hub.closed = false → hub.rooms.lookup room.snapshot.slug = some object) ∧
      ∀ object' room', hub.objects[object']? = some room' → ¬room'.Deserted →
        room.snapshot.slug = room'.snapshot.slug → object = object') ∧
    ∀ entered hub', Step options hub entered hub' →
      (hub'.Safe ↔ ∀ object ∈ entered, hub.Keeps object) := by
  refine ⟨fun object room present inside => ⟨fun opened => ?_, ?_⟩, fun entered hub' step => ?_⟩
  · exact reached.safe.lookup reached.sound opened present inside
  · intro object' room' present' inside' same
    exact reached.safe.unique reached.sound present present' inside inside' same
  · refine ⟨fun safe object entering => ?_, step.safe reached.sound reached.safe⟩
    cases entering
    exact Classical.by_contradiction fun dropped => step.unsafe reached.sound dropped safe

end Steps

/-- Ann joins the small room, which the hub loads. -/
theorem single_authority_small :
    let action : Action := smallJoin "ann" "page" [] 2
    let hub := (⟨smallStore, [(smallAuthority defaultHubOptions).room],
      (∅ : Keyed Nat).insert "demo" 0, false,
      [.joining "demo" 0 (smallIdentity "ann" "page") ⟨[], true⟩ (fun _ => none) (unixTime 2)]⟩ :
        Hub)
    let hub' :=
      (@act sampleHost hub 0 (smallAuthority defaultHubOptions).room action).goOn 0 .returned
    (∀ object room, hub'.objects[object]? = some room → ¬room.Deserted →
      (hub'.closed = false → hub'.rooms.lookup room.snapshot.slug = some object) ∧
      ∀ object' room', hub'.objects[object']? = some room' → ¬room'.Deserted →
        room.snapshot.slug = room'.snapshot.slug → object = object') ∧
    ∀ entered hub'', @Step sampleHost defaultHubOptions hub' entered hub'' →
      (hub''.Safe ↔ ∀ object ∈ entered, hub'.Keeps object) := by
  intro action hub hub'
  have loaded : @Step sampleHost defaultHubOptions ⟨smallStore, [], ∅, false, []⟩ none hub :=
    @Step.load sampleHost _ _ "demo" (smallIdentity "ann" "page") ⟨[], true⟩ (fun _ => none)
      (unixTime 2) false smallSnapshot .none smallStore (smallAuthority defaultHubOptions).room rfl
      (by decide +kernel) (by decide +kernel) rfl rfl rfl rfl
  have entered : @Step sampleHost defaultHubOptions hub (some 0) hub' := by
    have answered : admits (@Authority.perform sampleHost ⟨(smallAuthority defaultHubOptions).room,
        smallStore⟩ action).2 = true := by decide +kernel
    have step := @Step.enter sampleHost defaultHubOptions hub 0 "demo" 0
      (smallIdentity "ann" "page")
      ⟨[], true⟩ (fun _ => none) (unixTime 2) (smallAuthority defaultHubOptions).room rfl rfl action
      rfl _ rfl
    rwa [if_pos answered, afterJoin_of_admits answered] at step
  have kept : hub.Keeps 0 := by
    refine ⟨.inl ⟨"demo", rfl⟩, ?_⟩
    rintro ⟨task, member, doomed⟩
    rw [List.mem_singleton.mp member] at doomed
    cases doomed
  have reached := @Reached.step sampleHost _ _ _ _
    (@Reached.newHub sampleHost defaultHubOptions smallStore) loaded (by nofun)
  exact @single_authority sampleHost _ _ (@Reached.step sampleHost _ _ _ _ reached entered
    fun object entering => Option.some.inj entering ▸ kept)

end Hub

end Oxbin.Live
