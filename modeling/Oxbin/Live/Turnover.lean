import Oxbin.Live.Committed
import Oxbin.Live.Sessions

/-!
# What a call does to the roster

Every participant is refreshed whenever its connections change.  A call only touches the activity
of a connection, or takes connections and participants away, or adds one connection by a join.
-/

namespace Oxbin.Live

open Livecollab Storage

/-! ## Participants -/

namespace Participant

@[simp] theorem refresh_connections (participant : Participant) (watchOnly : Bool) :
    (participant.refresh watchOnly).connections = participant.connections := by
  unfold refresh
  cases participant.connections.values <;> rfl

@[simp] theorem refresh_sessionID (participant : Participant) (watchOnly : Bool) :
    (participant.refresh watchOnly).sessionID = participant.sessionID := by
  unfold refresh
  cases participant.connections.values <;> rfl

@[simp] theorem refresh_accessClass (participant : Participant) (watchOnly : Bool) :
    (participant.refresh watchOnly).accessClass = participant.accessClass := by
  unfold refresh
  cases participant.connections.values <;> rfl

@[simp] theorem refresh_nextGeneration (participant : Participant) (watchOnly : Bool) :
    (participant.refresh watchOnly).nextGeneration = participant.nextGeneration := by
  unfold refresh
  cases participant.connections.values <;> rfl

@[simp] theorem refresh_disconnectedAt (participant : Participant) (watchOnly : Bool) :
    (participant.refresh watchOnly).disconnectedAt = participant.disconnectedAt := by
  unfold refresh
  cases participant.connections.values <;> rfl

@[simp] theorem refresh_id (participant : Participant) (watchOnly : Bool) :
    (participant.refresh watchOnly).snapshot.id = participant.snapshot.id := by
  unfold refresh
  cases participant.connections.values <;> rfl

@[simp] theorem refresh_nickname (participant : Participant) (watchOnly : Bool) :
    (participant.refresh watchOnly).snapshot.nickname = participant.snapshot.nickname := by
  unfold refresh
  cases participant.connections.values <;> rfl

@[simp] theorem refresh_canEdit (participant : Participant) (watchOnly : Bool) :
    (participant.refresh watchOnly).snapshot.canEdit =
      participantCanEdit participant.accessClass watchOnly := by
  unfold refresh
  cases participant.connections.values <;> rfl

@[simp] theorem refresh_refresh (participant : Participant) (before watchOnly : Bool) :
    (participant.refresh before).refresh watchOnly = participant.refresh watchOnly := by
  unfold refresh
  cases same : participant.connections.values with
  | nil =>
      simp only [same]
      split <;> rfl
  | cons => simp only [same]

/-- A snapshot without what it takes from the connections of the participant. -/
def still (snapshot : ParticipantSnapshot) : ParticipantSnapshot :=
  { snapshot with currentTab := "", cursor := none, cursors := [], lastSeenAt := 0 }

/-- The participant under a key, with its connections under their keys and its snapshot up to
date, except for what a refused presence update may leave behind. -/
structure Sound (id : String) (watchOnly : Bool) (participant : Participant) : Prop where
  id : participant.snapshot.id = id
  connections : ∀ connectionID connection,
    participant.connections.lookup connectionID = some connection → connection.id = connectionID
  refreshed : still (participant.refresh watchOnly).snapshot = still participant.snapshot

/-- Refreshing makes a participant sound. -/
theorem Sound.of_refresh {id : String} {participant : Participant} (watchOnly : Bool)
    (named : participant.snapshot.id = id)
    (connections : ∀ connectionID connection,
      participant.connections.lookup connectionID = some connection →
        connection.id = connectionID) : (participant.refresh watchOnly).Sound id watchOnly where
  id := (refresh_id _ _).trans named
  connections := by rwa [refresh_connections]
  refreshed := by rw [refresh_refresh]

theorem Sound.canEdit {id : String} {watchOnly : Bool} {participant : Participant}
    (sound : participant.Sound id watchOnly) :
    participant.snapshot.canEdit = participantCanEdit participant.accessClass watchOnly := by
  have equality := congrArg ParticipantSnapshot.canEdit sound.refreshed
  have same : (participant.refresh watchOnly).snapshot.canEdit = participant.snapshot.canEdit :=
    equality
  rw [← same, refresh_canEdit]

end Participant

/-- A connection without the times of its activity. -/
def Connection.still (connection : Connection) : Connection :=
  { connection with lastSeenAt := 0, lastActivityAt := 0 }

namespace Participant

/-- Only the activity of connections has changed. -/
structure Touched (participant participant' : Participant) : Prop where
  snapshot : still participant'.snapshot = still participant.snapshot
  sessionID : participant'.sessionID = participant.sessionID
  accessClass : participant'.accessClass = participant.accessClass
  nextGeneration : participant'.nextGeneration = participant.nextGeneration
  disconnectedAt : participant'.disconnectedAt = participant.disconnectedAt
  connections : ∀ connectionID,
    (participant'.connections.lookup connectionID).map Connection.still =
      (participant.connections.lookup connectionID).map Connection.still

theorem Touched.refl (participant : Participant) : participant.Touched participant :=
  ⟨rfl, rfl, rfl, rfl, rfl, fun _ => rfl⟩

theorem Touched.trans {first second third : Participant} (before : first.Touched second)
    (after : second.Touched third) : first.Touched third where
  snapshot := after.snapshot.trans before.snapshot
  sessionID := after.sessionID.trans before.sessionID
  accessClass := after.accessClass.trans before.accessClass
  nextGeneration := after.nextGeneration.trans before.nextGeneration
  disconnectedAt := after.disconnectedAt.trans before.disconnectedAt
  connections id := (after.connections id).trans (before.connections id)

/-- The snapshot of a participant with a connection, apart from what its connections determine. -/
theorem still_refresh {participant : Participant} (watchOnly : Bool)
    (connected : participant.connections.values ≠ []) :
    still (participant.refresh watchOnly).snapshot =
      { still participant.snapshot with
        accessClass := participant.accessClass
        canEdit := participantCanEdit participant.accessClass watchOnly
        connectionCount := participant.connections.values.length
        status := .connected } := by
  unfold refresh
  cases same : participant.connections.values with
  | nil => exact absurd same connected
  | cons => rfl

/-- A changed connection does not change the rest of its participant. -/
theorem Sound.still_insert {id : String} {watchOnly : Bool} {participant : Participant}
    (sound : participant.Sound id watchOnly) {connection connection' : Connection}
    (found : participant.connections.lookup connection.id = some connection)
    (same : connection'.id = connection.id) :
    still (Participant.refresh { participant with
        connections := participant.connections.insert connection'.id connection' }
      watchOnly).snapshot =
        still participant.snapshot := by
  rw [same]
  have length := Keyed.length_values_insert connection' found
  have connected : participant.connections.values ≠ [] := by
    intro none
    have member : connection ∈ participant.connections.values :=
      List.mem_map.mpr ⟨_, AList.mem_lookup_iff.mp found, rfl⟩
    simp [none] at member
  have connected' :
      Keyed.values (participant.connections.insert connection.id connection') ≠ [] := by
    rw [← List.length_pos_iff, length]
    exact List.length_pos_iff.mpr connected
  rw [still_refresh _ connected', ← sound.refreshed, still_refresh _ connected]
  simp only [length]

theorem keyed_insert {connections : Keyed Connection} (connection : Connection)
    (keyed : ∀ connectionID connection,
      connections.lookup connectionID = some connection → connection.id = connectionID) :
    ∀ connectionID other, (connections.insert connection.id connection).lookup connectionID =
      some other → other.id = connectionID := by
  intro connectionID other found
  rw [Keyed.lookup_insert_if] at found
  split at found
  case isTrue same =>
    cases found
    exact same.symm
  case isFalse => exact keyed connectionID other found

/-- A changed connection leaves a participant sound that is not refreshed. -/
theorem Sound.insert {id : String} {watchOnly : Bool} {participant : Participant}
    (sound : participant.Sound id watchOnly) {connection connection' : Connection}
    (found : participant.connections.lookup connection.id = some connection)
    (same : connection'.id = connection.id) :
    Participant.Sound id watchOnly { participant with
      connections := participant.connections.insert connection'.id connection' } where
  id := sound.id
  connections := keyed_insert connection' sound.connections
  refreshed := sound.still_insert found same

/-- A new nickname leaves a participant sound. -/
theorem Sound.renamed {id : String} {watchOnly : Bool} {participant : Participant}
    (sound : participant.Sound id watchOnly) (name : String) :
    Participant.Sound id watchOnly { participant with
      snapshot := { participant.snapshot with nickname := name } } where
  id := sound.id
  connections := sound.connections
  refreshed := by
    have rest : still (Participant.refresh { participant with
        snapshot := { participant.snapshot with nickname := name } } watchOnly).snapshot =
          { still (participant.refresh watchOnly).snapshot with nickname := name } := by
      unfold refresh
      cases participant.connections.values <;> rfl
    rw [rest, sound.refreshed]
    rfl

/-- Activity on a connection touches its participant. -/
theorem Sound.touched {id : String} {watchOnly : Bool} {participant : Participant}
    (sound : participant.Sound id watchOnly) {connection connection' : Connection}
    (found : participant.connections.lookup connection.id = some connection)
    (still : connection'.still = connection.still) :
    participant.Touched (Participant.refresh { participant with
      connections := participant.connections.insert connection'.id connection' } watchOnly) := by
  have equality := congrArg Connection.id still
  have same : connection'.id = connection.id := equality
  constructor
  case snapshot => exact sound.still_insert found same
  case connections =>
    intro connectionID
    rw [refresh_connections, Keyed.lookup_insert_if, same]
    split
    case isTrue own =>
      subst own
      rw [found, Option.map_some, Option.map_some, still]
    case isFalse => rfl
  all_goals simp

/-- Nothing but connections may have been lost. -/
structure Continues (participant participant' : Participant) : Prop where
  id : participant'.snapshot.id = participant.snapshot.id
  sessionID : participant'.sessionID = participant.sessionID
  accessClass : participant'.accessClass = participant.accessClass
  nextGeneration : participant'.nextGeneration = participant.nextGeneration
  connections : ∀ connectionID connection',
    participant'.connections.lookup connectionID = some connection' →
      ∃ connection, participant.connections.lookup connectionID = some connection ∧
        connection'.generation = connection.generation

end Participant

namespace Room

/-! ## Rosters -/

/-- The participants of the room are sound. -/
def Rostered (room : Room) : Prop :=
  ∀ id participant, room.participants.lookup id = some participant →
    participant.Sound id room.watchOnly

/-- The connection behind a session is present. -/
def Holds (room : Room) (participantID connectionID : String) (generation : Nat) : Prop :=
  ∃ participant connection, room.participants.lookup participantID = some participant ∧
    participant.connections.lookup connectionID = some connection ∧
    connection.generation = generation

/-- Only the activity of connections has changed. -/
structure Touched (room room' : Room) : Prop where
  shared : room'.shared = room.shared
  sessions : room'.sessions = room.sessions
  names : room'.names = room.names
  closed : room'.closed = room.closed
  participants : ∀ id, Option.Rel Participant.Touched (room.participants.lookup id)
    (room'.participants.lookup id)

theorem Touched.refl (room : Room) : room.Touched room where
  shared := rfl
  sessions := rfl
  names := rfl
  closed := rfl
  participants id := by
    cases room.participants.lookup id with
    | none => exact .none
    | some participant => exact .some (.refl participant)

theorem Touched.trans {first second third : Room} (before : first.Touched second)
    (after : second.Touched third) : first.Touched third where
  shared := after.shared.trans before.shared
  sessions := after.sessions.trans before.sessions
  names := after.names.trans before.names
  closed := after.closed.trans before.closed
  participants id := by
    have left := before.participants id
    have right := after.participants id
    generalize first.participants.lookup id = start at left ⊢
    generalize second.participants.lookup id = middle at left right
    generalize third.participants.lookup id = last at right ⊢
    cases left with
    | none => exact right
    | some left =>
        cases right with
        | some right => exact .some (left.trans right)

/-- A room whose participants are refreshed one by one stays sound. -/
theorem Rostered.insert {room : Room} (rostered : room.Rostered) {id : String}
    (participant : Participant) (named : participant.snapshot.id = id)
    (connections : ∀ connectionID connection,
      participant.connections.lookup connectionID = some connection →
        connection.id = connectionID) : (room.refreshParticipant id participant).Rostered := by
  intro other present found
  rw [refreshParticipant, Keyed.lookup_insert_if] at found
  split at found
  case isTrue same =>
    cases found
    exact .of_refresh room.watchOnly (named.trans same.symm) connections
  case isFalse => exact rostered other present found

/-- Activity on a connection. -/
theorem Rostered.updateConnection {room : Room} (rostered : room.Rostered) {id : String}
    {participant : Participant} (connection connection' : Connection)
    (present : room.participants.lookup id = some participant)
    (found : participant.connections.lookup connection.id = some connection)
    (still : connection'.still = connection.still) :
    room.Touched (room.updateConnection id participant connection') ∧
      (room.updateConnection id participant connection').Rostered := by
  have sound := rostered id participant present
  constructor
  · constructor
    case participants =>
      intro other
      rw [Room.updateConnection, refreshParticipant, Keyed.lookup_insert_if]
      split
      case isTrue same =>
        subst same
        rw [present]
        exact .some (sound.touched found still)
      case isFalse => exact (Touched.refl room).participants other
    all_goals rfl
  · refine rostered.insert { participant with
      connections := participant.connections.insert connection'.id connection' } sound.id ?_
    exact Participant.keyed_insert connection' sound.connections

/-! ## Live connections -/

/-- The room serves calls at this instant. -/
def Open (room : Room) (now : Time) : Prop :=
  room.closed = false ∧ unix now < unix room.snapshot.expiresAt

theorem ensureActive_open {room : Room} {now : Time} (isOpen : room.Open now) :
    room.ensureActive now = (room, .ok ()) := by
  obtain ⟨closed, early⟩ := isOpen
  rw [ensureActive, if_neg (by simp [closed, early])]

theorem ensureActive_closed {room : Room} {now : Time} (past : ¬room.Open now) :
    room.ensureActive now = ({ room with closed := true }, .error .roomExpired) := by
  rw [ensureActive, if_pos]
  by_contra neither
  simp only [not_or, not_le] at neither
  exact past ⟨Bool.eq_false_iff.mpr neither.1, neither.2⟩

/-- How `ensureConnection` ends. -/
inductive Gate (room : Room) (participantID connectionID : String) (generation : Nat)
    (now : Time) : Room × Except LiveError Unit → Prop
  /-- The room has expired. -/
  | past (past : ¬room.Open now) :
      Gate room participantID connectionID generation now
        ({ room with closed := true }, .error .roomExpired)
  /-- The connection is gone. -/
  | gone (gone : ¬room.Holds participantID connectionID generation) (error : LiveError) :
      Gate room participantID connectionID generation now (room, .error error)
  /-- The connection is live. -/
  | live (room' : Room) (isOpen : room.Open now)
      (holds : room.Holds participantID connectionID generation) (touched : room.Touched room')
      (rostered : room'.Rostered) :
      Gate room participantID connectionID generation now (room', .ok ())

theorem ensureConnection_gate {room : Room} (rostered : room.Rostered)
    (participantID connectionID : String) (generation : Nat) (now : Time) :
    room.Gate participantID connectionID generation now
      (room.ensureConnection participantID connectionID generation now) := by
  unfold ensureConnection
  by_cases isOpen : room.Open now
  · rw [ensureActive_open isOpen]
    simp only
    split
    case h_1 absent =>
      refine .gone (fun ⟨participant, _, present, _⟩ => ?_) _
      cases absent.symm.trans present
    case h_2 participant present =>
      split
      case h_1 absent =>
        refine .gone (fun ⟨participant', _, present', found, _⟩ => ?_) _
        cases present.symm.trans present'
        cases absent.symm.trans found
      case h_2 connection found =>
        split
        case isTrue stale =>
          refine .gone (fun ⟨participant', connection', present', found', current⟩ => ?_) _
          cases present.symm.trans present'
          cases found.symm.trans found'
          exact stale current
        case isFalse current =>
          have same := (rostered _ participant present).connections _ connection found
          obtain ⟨touched, rostered'⟩ := rostered.updateConnection connection
            { connection with lastSeenAt := now } present (same ▸ found) rfl
          exact .live _ isOpen ⟨participant, connection, present, found, not_not.mp current⟩ touched
            rostered'
  · rw [ensureActive_closed isOpen]
    exact .past isOpen

theorem markConnectionActivity_touched {room : Room} (rostered : room.Rostered)
    (participantID connectionID : String) (now : Time) :
    room.Touched (room.markConnectionActivity participantID connectionID now) ∧
      (room.markConnectionActivity participantID connectionID now).Rostered := by
  unfold markConnectionActivity
  split
  case h_1 => exact ⟨.refl room, rostered⟩
  case h_2 participant present =>
    split
    case h_1 => exact ⟨.refl room, rostered⟩
    case h_2 connection found =>
      have same := (rostered _ participant present).connections _ connection found
      exact rostered.updateConnection connection { connection with
        lastSeenAt := now, lastActivityAt := now } present (same ▸ found) rfl

/-- A call of a session that changes the shared state, up to its admission checks. -/
inductive Entry {α : Type} (room : Room) (store : Store) (session : Session) (now : Time)
    (allowed : Room → Prop) (body : Room → Outcome α) : Outcome α → Prop
  /-- The room has expired. -/
  | past (past : ¬room.Open now) :
      Entry room store session now allowed body
        (⟨{ room with closed := true }, store⟩, .error .roomExpired)
  /-- The connection is gone. -/
  | gone (gone : ¬room.Holds session.participant session.connectionID session.generation)
      (error : LiveError) :
      Entry room store session now allowed body (⟨room, store⟩, .error error)
  /-- The participant may not do this. -/
  | refused (room' : Room) (isOpen : room.Open now)
      (holds : room.Holds session.participant session.connectionID session.generation)
      (touched : room.Touched room') (rostered : room'.Rostered) (forbids : ¬allowed room')
      (error : LiveError) :
      Entry room store session now allowed body (⟨room', store⟩, .error error)
  /-- The call takes place. -/
  | admitted (room' : Room) (isOpen : room.Open now)
      (holds : room.Holds session.participant session.connectionID session.generation)
      (touched : room.Touched room') (rostered : room'.Rostered) (allows : allowed room') :
      Entry room store session now allowed body (body room')

/-- A call of a session that changes a mode of the room. -/
inductive ModeEntry (room : Room) (store : Store) (session : Session) (now : Time)
    (change : Room → Room) (save : Except LiveError Store) : Outcome RoomState → Prop
  /-- The room has expired. -/
  | past (past : ¬room.Open now) :
      ModeEntry room store session now change save
        (⟨{ room with closed := true }, store⟩, .error .roomExpired)
  /-- The connection is gone. -/
  | gone (gone : ¬room.Holds session.participant session.connectionID session.generation)
      (error : LiveError) :
      ModeEntry room store session now change save (⟨room, store⟩, .error error)
  /-- The session may not do this, or the store has failed. -/
  | refused (room' : Room) (isOpen : room.Open now)
      (holds : room.Holds session.participant session.connectionID session.generation)
      (touched : room.Touched room') (rostered : room'.Rostered) (error : LiveError) :
      ModeEntry room store session now change save (⟨room', store⟩, .error error)
  /-- The room is in the mode already. -/
  | unchanged (room' : Room) (isOpen : room.Open now)
      (holds : room.Holds session.participant session.connectionID session.generation)
      (touched : room.Touched room') (rostered : room'.Rostered)
      (creator : session.creator = true) :
      ModeEntry room store session now change save (⟨room', store⟩, .ok room'.state)
  /-- The mode is set in the store and in the room. -/
  | changed (room' : Room) (isOpen : room.Open now)
      (holds : room.Holds session.participant session.connectionID session.generation)
      (touched : room.Touched room') (rostered : room'.Rostered)
      (creator : session.creator = true) (store' : Store) (saved : save = .ok store') :
      ModeEntry room store session now change save
        (⟨change room', store'⟩, .ok (change room').state)

section Calls

variable {room : Room} (rostered : room.Rostered) (store : Store) (session : Session)
  (now : Time) (fault : Bool)

include rostered

theorem submitDocument_entry [Host] (operation : DocumentOperation) :
    room.Entry store session now (fun room' => room'.canEdit session.participant = true)
      (fun room' => room'.acceptDocument store operation now fault)
      (room.submitDocument store session.participant session.connectionID session.generation
        operation now fault) := by
  have gate := ensureConnection_gate rostered session.participant session.connectionID
    session.generation now
  unfold submitDocument
  generalize room.ensureConnection session.participant session.connectionID session.generation
    now = outcome at gate ⊢
  cases gate with
  | past past => exact .past past
  | gone gone error => exact .gone gone error
  | live room' isOpen holds touched rostered' =>
      obtain ⟨marked, rostered''⟩ := markConnectionActivity_touched rostered' session.participant
        session.connectionID now
      simp only
      split
      case isTrue forbids =>
        exact .refused _ isOpen holds (touched.trans marked) rostered'' (by simp [forbids]) _
      case isFalse allows =>
        exact .admitted _ isOpen holds (touched.trans marked) rostered''
          (Bool.not_eq_false _ ▸ allows)

theorem applyMetadata_entry [Host] (operation : MetadataOperation)
    (generator : Nat → Option String) :
    room.Entry store session now (fun room' => room'.canEdit session.participant = true)
      (fun room' => room'.acceptMetadata store operation generator now fault)
      (room.applyMetadata store session.participant session.connectionID session.generation
        operation generator now fault) := by
  have gate := ensureConnection_gate rostered session.participant session.connectionID
    session.generation now
  unfold applyMetadata
  generalize room.ensureConnection session.participant session.connectionID session.generation
    now = outcome at gate ⊢
  cases gate with
  | past past => exact .past past
  | gone gone error => exact .gone gone error
  | live room' isOpen holds touched rostered' =>
      obtain ⟨marked, rostered''⟩ := markConnectionActivity_touched rostered' session.participant
        session.connectionID now
      simp only
      split
      case isTrue forbids =>
        exact .refused _ isOpen holds (touched.trans marked) rostered'' (by simp [forbids]) _
      case isFalse allows =>
        exact .admitted _ isOpen holds (touched.trans marked) rostered''
          (Bool.not_eq_false _ ▸ allows)

theorem setWatchOnly_entry (enabled : Bool) :
    room.ModeEntry store session now (fun room' => room'.locked enabled)
      (Storage.Store.setRoomLocked store room.snapshot.slug enabled now fault)
      (room.setWatchOnly store session.participant session.connectionID session.generation
        session.creator enabled now fault) := by
  have gate := ensureConnection_gate rostered session.participant session.connectionID
    session.generation now
  unfold setWatchOnly
  generalize room.ensureConnection session.participant session.connectionID session.generation
    now = outcome at gate ⊢
  cases gate with
  | past past => exact .past past
  | gone gone error => exact .gone gone error
  | live room' isOpen holds touched rostered' =>
      obtain ⟨marked, rostered''⟩ := markConnectionActivity_touched rostered' session.participant
        session.connectionID now
      have both := touched.trans marked
      simp only
      split
      case isTrue => exact .refused _ isOpen holds both rostered'' _
      case isFalse creator =>
        have creator := Bool.not_eq_false _ ▸ creator
        split
        case isTrue => exact .unchanged _ isOpen holds both rostered'' creator
        case isFalse =>
          split
          case h_1 => exact .refused _ isOpen holds both rostered'' _
          case h_2 store' saved =>
            rw [snapshot_of_shared both.shared] at saved
            exact .changed _ isOpen holds both rostered'' creator store' saved

theorem setLayoutPreset_entry (preset : String) :
    room.ModeEntry store session now (fun room' => room'.laidOut preset)
      (Storage.Store.setRoomLayoutPreset store room.snapshot.slug preset now fault)
      (room.setLayoutPreset store session.participant session.connectionID session.generation
        session.creator preset now fault) := by
  have gate := ensureConnection_gate rostered session.participant session.connectionID
    session.generation now
  unfold setLayoutPreset
  generalize room.ensureConnection session.participant session.connectionID session.generation
    now = outcome at gate ⊢
  cases gate with
  | past past => exact .past past
  | gone gone error => exact .gone gone error
  | live room' isOpen holds touched rostered' =>
      obtain ⟨marked, rostered''⟩ := markConnectionActivity_touched rostered' session.participant
        session.connectionID now
      have both := touched.trans marked
      simp only
      split
      case isTrue => exact .refused _ isOpen holds touched rostered' _
      case isFalse creator =>
        have creator := Bool.not_eq_false _ ▸ creator
        split
        case isTrue => exact .refused _ isOpen holds touched rostered' _
        case isFalse =>
          split
          case isTrue => exact .unchanged _ isOpen holds both rostered'' creator
          case isFalse =>
            split
            case h_1 => exact .refused _ isOpen holds both rostered'' _
            case h_2 store' saved =>
              rw [snapshot_of_shared both.shared] at saved
              exact .changed _ isOpen holds both rostered'' creator store' saved

end Calls

/-! ## Commits -/

/-- The rosters of two rooms are the same, and so is what joins depend on. -/
structure SameRoster (room room' : Room) : Prop where
  options : room'.options = room.options
  slug : room'.snapshot.slug = room.snapshot.slug
  creatorTokenHash : room'.snapshot.creatorTokenHash = room.snapshot.creatorTokenHash
  participants : room'.participants = room.participants
  sessions : room'.sessions = room.sessions
  names : room'.names = room.names
  closed : room'.closed = room.closed
  watchOnly : room'.watchOnly = room.watchOnly
  layoutPreset : room'.snapshot.layoutPreset = room.snapshot.layoutPreset

theorem SameRoster.trans {first second third : Room} (before : first.SameRoster second)
    (after : second.SameRoster third) : first.SameRoster third where
  options := after.options.trans before.options
  slug := after.slug.trans before.slug
  creatorTokenHash := after.creatorTokenHash.trans before.creatorTokenHash
  participants := after.participants.trans before.participants
  sessions := after.sessions.trans before.sessions
  names := after.names.trans before.names
  closed := after.closed.trans before.closed
  watchOnly := after.watchOnly.trans before.watchOnly
  layoutPreset := after.layoutPreset.trans before.layoutPreset

theorem committed_sameRoster (changed : Room) (change : ChangeRecord) (fingerprint : String)
    (result : OperationResult) (beforeLength : Int) :
    changed.SameRoster (changed.committed change fingerprint result beforeLength) := by
  cases result with
  | document accepted =>
      obtain ⟨documents, equality⟩ := committed_document_eq changed change fingerprint accepted
        beforeLength
      rw [equality]
      exact ⟨rfl, rfl, rfl, rfl, rfl, rfl, rfl, rfl, rfl⟩
  | metadata accepted =>
      unfold committed recordCommitted
      simp only
      split <;> exact ⟨rfl, rfl, rfl, rfl, rfl, rfl, rfl, rfl, rfl⟩

/-- A document operation leaves the roster alone. -/
theorem acceptDocument_sameRoster [Host] (room : Room) (store : Store)
    (operation : DocumentOperation) (now : Time) (fault : Bool) :
    room.SameRoster (room.acceptDocument store operation now fault).1.room := by
  have ends := room.acceptDocument_outcome store operation now fault
  generalize room.acceptDocument store operation now fault = outcome at ends ⊢
  cases ends with
  | refused => exact ⟨rfl, rfl, rfl, rfl, rfl, rfl, rfl, rfl, rfl⟩
  | repeated => exact ⟨rfl, rfl, rfl, rfl, rfl, rfl, rfl, rfl, rfl⟩
  | accepted document changes content store' named fresh admitted =>
      have edited : room.SameRoster (room.editDocument operation.documentID document content
          (document.snapshot.currentRevision + 1) now) :=
            ⟨rfl, rfl, rfl, rfl, rfl, rfl, rfl, rfl, rfl⟩
      simp only [accepted]
      exact edited.trans (committed_sameRoster _ _ _ _ _)

/-- The operation is a deletion that passes all checks of `applyMetadata`. -/
structure Deletes (room : Room) (operation : MetadataOperation) : Prop where
  kind : operation.kind = "document_delete"
  named : ensureOperationIDs operation.operationID operation.clientID = .ok ()
  fresh : room.operations.lookup operation.operationID = none
  admitted : room.admitMetadata operation = .ok ()
  several : room.order.length ≠ 1
  found : operation.documentID ∈ room.documents

/-- The room after every connection has left the document that an operation deletes. -/
def left (room : Room) (operation : MetadataOperation) : Room :=
  room.leaveDocumentAll operation.documentID
    ((room.order.erase operation.documentID).headD "")

theorem MetadataChange.roster {room : Room} {operation : MetadataOperation} {now : Time}
    {effect : MetadataEffect} (change : room.MetadataChange operation now effect) :
    (operation.kind ≠ "document_delete" ∧ room.SameRoster effect.room) ∨
      operation.kind = "document_delete" ∧ room.order.length ≠ 1 ∧
        operation.documentID ∈ room.documents ∧ (room.left operation).SameRoster effect.room := by
  cases change with
  | create documentID kind =>
      exact .inl ⟨by simp [kind], rfl, rfl, rfl, rfl, rfl, rfl, rfl, rfl, rfl⟩
  | update document kind => exact .inl ⟨by simp [kind], rfl, rfl, rfl, rfl, rfl, rfl, rfl, rfl, rfl⟩
  | delete kind several found =>
      exact .inr ⟨kind, several, found, rfl, rfl, rfl, rfl, rfl, rfl, rfl, rfl, rfl⟩
  | reorder kind => exact .inl ⟨by simp [kind], rfl, rfl, rfl, rfl, rfl, rfl, rfl, rfl, rfl⟩

theorem MetadataChange.snapshot {room : Room} {operation : MetadataOperation} {now : Time}
    {effect : MetadataEffect} (change : room.MetadataChange operation now effect) :
    effect.room.snapshot = room.snapshot := by
  cases change <;> rfl

/-- The roster after a change that is committed or undone. -/
theorem commitMetadata_sameRoster {room : Room} {effect : MetadataEffect}
    (snapshot : effect.room.snapshot = room.snapshot) (store : Store)
    (operation : MetadataOperation) (fingerprint : String) (now : Time) (fault : Bool) :
    effect.room.SameRoster
      (room.commitMetadata store operation fingerprint effect now fault).1.room := by
  have undone : room.snapshot.slug = effect.room.snapshot.slug ∧
      room.snapshot.creatorTokenHash = effect.room.snapshot.creatorTokenHash ∧
      room.snapshot.layoutPreset = effect.room.snapshot.layoutPreset := by
    rw [snapshot]
    exact ⟨rfl, rfl, rfl⟩
  unfold commitMetadata
  simp only
  split
  case isTrue => exact ⟨rfl, undone.1, undone.2.1, rfl, rfl, rfl, rfl, rfl, undone.2.2⟩
  case isFalse =>
    unfold appendAndSave
    simp only
    split
    case h_1 failed =>
      split at failed
      case h_1 =>
        cases failed
        exact ⟨rfl, undone.1, undone.2.1, rfl, rfl, rfl, rfl, rfl, undone.2.2⟩
      case h_2 => cases failed
    case h_2 succeeded =>
      split at succeeded
      case h_1 => cases succeeded
      case h_2 =>
        cases succeeded
        have changed : effect.room.SameRoster (room.metadataChanged effect) :=
          ⟨rfl, rfl, rfl, rfl, rfl, rfl, rfl, rfl, rfl⟩
        exact changed.trans (committed_sameRoster _
          (room.metadataChange operation effect now) fingerprint
          (.metadata (room.acceptedMetadata operation effect)) 0)

/-- A metadata operation leaves the roster alone unless it is a deletion that passes its checks. -/
theorem acceptMetadata_roster [Host] (room : Room) (store : Store)
    (operation : MetadataOperation) (generator : Nat → Option String) (now : Time)
    (fault : Bool) :
    (¬room.Deletes operation ∧
        room.SameRoster (room.acceptMetadata store operation generator now fault).1.room) ∨
      room.Deletes operation ∧ (room.left operation).SameRoster
        (room.acceptMetadata store operation generator now fault).1.room := by
  have same : room.SameRoster room := ⟨rfl, rfl, rfl, rfl, rfl, rfl, rfl, rfl, rfl⟩
  unfold acceptMetadata
  split
  case h_1 error named =>
    exact .inl ⟨fun deletes => (nomatch named.symm.trans deletes.named), same⟩
  case h_2 named =>
    simp only
    split
    case h_1 record found =>
      have known (deletes : room.Deletes operation) : False := by
        cases found.symm.trans deletes.fresh
      split
      case h_1 => split <;> exact .inl ⟨known, same⟩
      case h_2 => exact .inl ⟨known, same⟩
    case h_2 fresh =>
      split
      case h_1 error refused =>
        exact .inl ⟨fun deletes => (nomatch refused.symm.trans deletes.admitted), same⟩
      case h_2 admitted =>
        split
        case h_1 error refused =>
          refine .inl ⟨fun deletes => ?_, same⟩
          unfold metadataEffect at refused
          rw [deletes.kind] at refused
          simp [require, deletes.several, deletes.found, bind, Except.bind] at refused
        case h_2 effect performed =>
          have change := metadataChange_of_metadataEffect performed
          have commits := commitMetadata_sameRoster change.snapshot store operation
            (Host.fingerprint (metadataOperationJson operation)) now fault
          rcases change.roster with ⟨kind, roster⟩ | ⟨kind, several, found, roster⟩
          · exact .inl ⟨fun deletes => kind deletes.kind, roster.trans commits⟩
          · exact .inr ⟨⟨kind, named, fresh, admitted, several, found⟩, roster.trans commits⟩

end Room

/-! ## Participants that lose connections -/

namespace Participant

theorem Continues.refl (participant : Participant) : participant.Continues participant :=
  ⟨rfl, rfl, rfl, rfl, fun _ connection found => ⟨connection, found, rfl⟩⟩

theorem Continues.trans {first second third : Participant} (before : first.Continues second)
    (after : second.Continues third) : first.Continues third where
  id := after.id.trans before.id
  sessionID := after.sessionID.trans before.sessionID
  accessClass := after.accessClass.trans before.accessClass
  nextGeneration := after.nextGeneration.trans before.nextGeneration
  connections id connection found := by
    obtain ⟨middle, found, same⟩ := after.connections id connection found
    obtain ⟨first, found, same'⟩ := before.connections id middle found
    exact ⟨first, found, same.trans same'⟩

theorem Touched.continues {participant participant' : Participant}
    (touched : participant.Touched participant') : participant.Continues participant' where
  id := by
    have equality := congrArg ParticipantSnapshot.id touched.snapshot
    exact equality
  sessionID := touched.sessionID
  accessClass := touched.accessClass
  nextGeneration := touched.nextGeneration
  connections id connection' found := by
    have same := touched.connections id
    rw [found, Option.map_some, eq_comm, Option.map_eq_some_iff] at same
    obtain ⟨connection, found, still⟩ := same
    have equality := congrArg Connection.generation still
    exact ⟨connection, found, equality.symm⟩

theorem Continues.refresh {participant participant' : Participant}
    (continues : participant.Continues participant') (watchOnly : Bool) :
    participant.Continues (participant'.refresh watchOnly) where
  id := (refresh_id _ _).trans continues.id
  sessionID := (refresh_sessionID _ _).trans continues.sessionID
  accessClass := (refresh_accessClass _ _).trans continues.accessClass
  nextGeneration := (refresh_nextGeneration _ _).trans continues.nextGeneration
  connections := by
    rw [refresh_connections]
    exact continues.connections

end Participant

namespace Room

/-- Only participants and connections may have been lost. -/
structure Continues (room room' : Room) : Prop where
  options : room'.options = room.options
  slug : room'.snapshot.slug = room.snapshot.slug
  creatorTokenHash : room'.snapshot.creatorTokenHash = room.snapshot.creatorTokenHash
  sessions : Keyed.Within Eq room.sessions room'.sessions
  participants : Keyed.Within Participant.Continues room.participants room'.participants

theorem Continues.refl (room : Room) : room.Continues room :=
  ⟨rfl, rfl, rfl, .refl _, fun _ participant found => ⟨participant, found, .refl participant⟩⟩

theorem Continues.trans {first second third : Room} (before : first.Continues second)
    (after : second.Continues third) : first.Continues third where
  options := after.options.trans before.options
  slug := after.slug.trans before.slug
  creatorTokenHash := after.creatorTokenHash.trans before.creatorTokenHash
  sessions := before.sessions.trans after.sessions
  participants id participant found := by
    obtain ⟨middle, found, continues⟩ := after.participants id participant found
    obtain ⟨first, found, continues'⟩ := before.participants id middle found
    exact ⟨first, found, continues'.trans continues⟩

theorem Touched.continues {room room' : Room} (touched : room.Touched room') :
    room.Continues room' where
  options := by
    have equality := congrArg Room.options touched.shared
    exact equality
  slug := congrArg RoomSnapshot.slug (snapshot_of_shared touched.shared)
  creatorTokenHash := congrArg RoomSnapshot.creatorTokenHash (snapshot_of_shared touched.shared)
  sessions := touched.sessions ▸ .refl _
  participants id participant' found := by
    have related := touched.participants id
    rw [found] at related
    generalize same : room.participants.lookup id = before at related
    cases related with
    | some touched => exact ⟨_, rfl, touched.continues⟩

/-! ## Timeouts -/

theorem lookup_foldl_erase (lost : List Connection) (connections : Keyed Connection)
    {id : String} {connection : Connection}
    (found : (lost.foldl (fun connections connection => connections.erase connection.id)
      connections).lookup id = some connection) : connections.lookup id = some connection := by
  induction lost generalizing connections with
  | nil => exact found
  | cons first lost induction =>
      have erased := induction _ found
      rw [Keyed.lookup_erase_if] at erased
      split at erased
      case isTrue => cases erased
      case isFalse => exact erased

theorem expireParticipant_continues (options : HubOptions) (watchOnly : Bool) (now : Time)
    (participant : Participant) :
    participant.Continues (expireParticipant options watchOnly now participant) := by
  unfold expireParticipant
  simp only
  split
  case isTrue => exact .refl participant
  case isFalse =>
    apply Participant.Continues.refresh
    split
    all_goals exact ⟨rfl, rfl, rfl, rfl, fun _ connection found =>
      ⟨connection, lookup_foldl_erase _ _ found, rfl⟩⟩

theorem expireParticipant_sound {options : HubOptions} {watchOnly : Bool} {now : Time}
    {id : String} {participant : Participant} (sound : participant.Sound id watchOnly) :
    (expireParticipant options watchOnly now participant).Sound id watchOnly := by
  unfold expireParticipant
  simp only
  split
  case isTrue => exact sound
  case isFalse =>
    split
    all_goals exact .of_refresh watchOnly sound.id fun connectionID connection found =>
      sound.connections connectionID connection (lookup_foldl_erase _ _ found)

/-- Changing every participant for a sound one that continues it. -/
theorem mapValues_continues {room : Room} (change : Participant → Participant)
    (continues : ∀ participant : Participant, participant.Continues (change participant)) :
    Keyed.Within Participant.Continues room.participants
      (Keyed.mapValues change room.participants) := by
  intro id participant found
  rw [Keyed.lookup_mapValues, Option.map_eq_some_iff] at found
  obtain ⟨before, found, rfl⟩ := found
  exact ⟨before, found, continues before⟩

theorem expireConnections_continues (room : Room) (now : Time) :
    room.Continues (room.expireConnections now) :=
  ⟨rfl, rfl, rfl, .refl _, mapValues_continues _ (expireParticipant_continues _ _ _)⟩

theorem Rostered.expireConnections {room : Room} (rostered : room.Rostered) (now : Time) :
    (room.expireConnections now).Rostered := by
  intro id participant found
  rw [Room.expireConnections, Keyed.lookup_mapValues, Option.map_eq_some_iff] at found
  obtain ⟨before, found, rfl⟩ := found
  exact expireParticipant_sound (rostered id before found)

/-! ## Pruning -/

theorem removeParticipant_rest [Host] (room : Room) (id : String) :
    (room.removeParticipant id).shared = room.shared ∧
      (room.removeParticipant id).closed = room.closed := by
  unfold removeParticipant
  split <;> exact ⟨rfl, rfl⟩

theorem removeParticipant_lookup [Host] (room : Room) (id other : String) :
    (room.removeParticipant id).participants.lookup other =
      if other = id then none else room.participants.lookup other := by
  unfold removeParticipant
  split
  case h_1 absent =>
    split
    case isTrue same => rw [same, absent]
    case isFalse => rfl
  case h_2 => exact Keyed.lookup_erase_if _ _ _

theorem removeParticipant_sessions [Host] (room : Room) (id : String) :
    Keyed.Within Eq room.sessions (room.removeParticipant id).sessions := by
  unfold removeParticipant
  split
  case h_1 => exact .refl _
  case h_2 => exact Keyed.within_erase _ _

theorem removeParticipants_sessions [Host] (ids : List String) (room : Room) :
    Keyed.Within Eq room.sessions (ids.foldl removeParticipant room).sessions := by
  induction ids generalizing room with
  | nil => exact .refl _
  | cons id ids induction =>
      exact (room.removeParticipant_sessions id).trans (induction (room.removeParticipant id))

theorem removeParticipants_rest [Host] (ids : List String) (room : Room) :
    (ids.foldl removeParticipant room).shared = room.shared ∧
      (ids.foldl removeParticipant room).closed = room.closed := by
  induction ids generalizing room with
  | nil => exact ⟨rfl, rfl⟩
  | cons id ids induction =>
      obtain ⟨shared, closed⟩ := induction (room.removeParticipant id)
      obtain ⟨shared', closed'⟩ := room.removeParticipant_rest id
      exact ⟨shared.trans shared', closed.trans closed'⟩

theorem removeParticipants_lookup [Host] (ids : List String) (room : Room) (other : String) :
    (ids.foldl removeParticipant room).participants.lookup other =
      if other ∈ ids then none else room.participants.lookup other := by
  induction ids generalizing room with
  | nil => simp
  | cons id ids induction =>
      rw [List.foldl_cons, induction, removeParticipant_lookup]
      by_cases same : other = id <;> simp [same]

/-- The participants that a pruning removes. -/
theorem mem_pruneDisconnected [Host] (room : Room) (now : Time) (id : String) :
    id ∈ (room.pruneDisconnected now).2 ↔
      ∃ participant, room.participants.lookup id = some participant ∧
        gone room.options now participant = true := by
  unfold pruneDisconnected
  rw [List.mem_insertionSort, List.mem_filterMap]
  constructor
  · rintro ⟨entry, listed, chosen⟩
    split at chosen
    case isTrue gone =>
      cases chosen
      exact ⟨entry.2, AList.mem_lookup_iff.mpr listed, gone⟩
    case isFalse => cases chosen
  · rintro ⟨participant, found, gone⟩
    exact ⟨⟨id, participant⟩, AList.mem_lookup_iff.mp found, if_pos gone⟩

theorem pruneDisconnected_nodup [Host] (room : Room) (now : Time) :
    (room.pruneDisconnected now).2.Nodup := by
  unfold pruneDisconnected
  rw [List.Perm.nodup_iff (List.perm_insertionSort _ _)]
  have keys : (room.participants.entries.filterMap fun entry =>
      if gone room.options now entry.2 then some entry.1 else none) =
        (room.participants.entries.filter fun entry => gone room.options now entry.2).map
          Sigma.fst := by
    rw [← List.filterMap_eq_map, List.filterMap_filter]
    congr 1
  rw [keys]
  exact room.participants.nodupKeys.sublist List.filter_sublist

/-- The participants that a pruning leaves. -/
theorem pruneDisconnected_lookup [Host] (room : Room) (now : Time) (id : String) :
    (room.pruneDisconnected now).1.participants.lookup id =
      if id ∈ (room.pruneDisconnected now).2 then none else room.participants.lookup id :=
  removeParticipants_lookup _ room id

theorem pruneDisconnected_rest [Host] (room : Room) (now : Time) :
    (room.pruneDisconnected now).1.shared = room.shared ∧
      (room.pruneDisconnected now).1.closed = room.closed := removeParticipants_rest _ room

end Room

end Oxbin.Live
