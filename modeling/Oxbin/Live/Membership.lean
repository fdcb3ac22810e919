import Oxbin.Live.Replay
import Oxbin.Live.Turnover

/-!
# Joining and leaving

What the calls that change the membership of a room do: joins add one connection, and all other
calls only take connections and participants away.
-/

namespace Oxbin.Live

open Livecollab Storage

namespace Room

/-! ## Leaving -/

theorem pruneDisconnected_continues [Host] (room : Room) (now : Time) :
    room.Continues (room.pruneDisconnected now).1 where
  options := by
    have equality := congrArg Room.options (room.pruneDisconnected_rest now).1
    exact equality
  slug := congrArg RoomSnapshot.slug (snapshot_of_shared (room.pruneDisconnected_rest now).1)
  creatorTokenHash := congrArg RoomSnapshot.creatorTokenHash
    (snapshot_of_shared (room.pruneDisconnected_rest now).1)
  sessions := removeParticipants_sessions _ room
  participants id participant found := by
    rw [pruneDisconnected_lookup] at found
    split at found
    case isTrue => cases found
    case isFalse => exact ⟨participant, found, .refl participant⟩

theorem Rostered.pruneDisconnected [Host] {room : Room} (rostered : room.Rostered) (now : Time) :
    (room.pruneDisconnected now).1.Rostered := by
  intro id participant found
  have equality := congrArg Room.watchOnly (room.pruneDisconnected_rest now).1
  have watchOnly : (room.pruneDisconnected now).1.watchOnly = room.watchOnly := equality
  rw [pruneDisconnected_lookup] at found
  split at found
  case isTrue => cases found
  case isFalse =>
    rw [watchOnly]
    exact rostered id participant found

/-- The room after the timeouts with which a join begins. -/
def settledAt [Host] (room : Room) (now : Time) : Room :=
  ((room.expireConnections now).pruneDisconnected now).1

theorem settledAt_continues [Host] (room : Room) (now : Time) :
    room.Continues (room.settledAt now) :=
  (room.expireConnections_continues now).trans (pruneDisconnected_continues _ now)

theorem settledAt_rest [Host] (room : Room) (now : Time) :
    (room.settledAt now).shared = room.shared ∧ (room.settledAt now).closed = room.closed :=
  pruneDisconnected_rest _ now

theorem Rostered.settledAt [Host] {room : Room} (rostered : room.Rostered) (now : Time) :
    (room.settledAt now).Rostered := (rostered.expireConnections now).pruneDisconnected now

/-- The room that a join has settled, when it forgets a session of a participant that is gone. -/
theorem narrowed_continues [Host] (room : Room) (now : Time) {sessions : Keyed String}
    (narrowed : Keyed.Within Eq (room.settledAt now).sessions sessions) :
    room.Continues { room.settledAt now with sessions } := by
  have settled := room.settledAt_continues now
  exact ⟨settled.options, settled.slug, settled.creatorTokenHash, settled.sessions.trans narrowed,
    settled.participants⟩

/-- Putting back one participant, refreshed, that continues the one before. -/
theorem refreshParticipant_continues {room : Room} {id : String}
    {participant participant' : Participant}
    (present : room.participants.lookup id = some participant)
    (continues : participant.Continues participant') :
    room.Continues (room.refreshParticipant id participant') where
  options := rfl
  slug := rfl
  creatorTokenHash := rfl
  sessions := .refl _
  participants other next found := by
    rw [refreshParticipant, Keyed.lookup_insert_if] at found
    split at found
    case isTrue same =>
      cases found
      exact ⟨participant, same ▸ present, continues.refresh room.watchOnly⟩
    case isFalse => exact ⟨next, found, .refl next⟩

theorem disconnect_continues {room : Room} (rostered : room.Rostered)
    (participantID connectionID : String) (generation : Nat) (now : Time) :
    room.Continues (room.disconnect participantID connectionID generation now).1 ∧
      (room.disconnect participantID connectionID generation now).1.Rostered := by
  unfold disconnect
  split
  case h_1 => exact ⟨.refl room, rostered⟩
  case h_2 participant present =>
    split
    case h_1 => exact ⟨.refl room, rostered⟩
    case h_2 connection found =>
      split
      case isTrue => exact ⟨.refl room, rostered⟩
      case isFalse =>
        have sound := rostered _ participant present
        have erased (id : String) (connection : Connection)
            (found : (participant.connections.erase connectionID).lookup id = some connection) :
            participant.connections.lookup id = some connection := by
          rw [Keyed.lookup_erase_if] at found
          split at found
          case isTrue => cases found
          case isFalse => exact found
        simp only
        split
        all_goals exact ⟨refreshParticipant_continues present ⟨rfl, rfl, rfl, rfl,
          fun id connection found => ⟨connection, erased id connection found, rfl⟩⟩,
          rostered.insert _ sound.id fun id connection found =>
            sound.connections id connection (erased id connection found)⟩

/-- Changing every participant for a refreshed one. -/
theorem refreshAll_rostered {room : Room} (rostered : room.Rostered) (watchOnly : Bool)
    (change : Participant → Participant)
    (id : ∀ participant, (change participant).snapshot.id = participant.snapshot.id)
    (connections : ∀ participant : Participant,
      (∀ connectionID connection, participant.connections.lookup connectionID = some connection →
        connection.id = connectionID) →
      ∀ connectionID connection,
        (change participant).connections.lookup connectionID = some connection →
          connection.id = connectionID) :
    ∀ key participant, (Keyed.mapValues (fun participant => (change participant).refresh watchOnly)
      room.participants).lookup key = some participant → participant.Sound key watchOnly := by
  intro key participant found
  rw [Keyed.lookup_mapValues, Option.map_eq_some_iff] at found
  obtain ⟨before, found, rfl⟩ := found
  have sound := rostered key before found
  exact .of_refresh watchOnly ((id before).trans sound.id) (connections before sound.connections)

theorem close_continues {room : Room} (rostered : room.Rostered) :
    room.Continues room.close ∧ room.close.Rostered := by
  refine ⟨⟨rfl, rfl, rfl, .refl _, mapValues_continues _ fun participant => ?_⟩,
    refreshAll_rostered rostered room.watchOnly (fun participant => { participant with
      connections := ∅
      snapshot := { participant.snapshot with status := .offline } }) (fun _ => rfl)
      fun _ _ _ _ found => ?_⟩
  · apply Participant.Continues.refresh
    exact ⟨rfl, rfl, rfl, rfl, fun _ _ found => by cases found⟩
  · cases found

theorem locked_continues {room : Room} (rostered : room.Rostered) (enabled : Bool) :
    room.Continues (room.locked enabled) ∧ (room.locked enabled).Rostered := by
  refine ⟨⟨rfl, rfl, rfl, .refl _, mapValues_continues _ fun participant => ?_⟩,
    refreshAll_rostered rostered enabled (fun participant => participant) (fun _ => rfl)
      fun _ keyed => keyed⟩
  exact (Participant.Continues.refl participant).refresh enabled

theorem left_continues {room : Room} (rostered : room.Rostered) (operation : MetadataOperation) :
    room.Continues (room.left operation) ∧ (room.left operation).Rostered := by
  refine ⟨⟨rfl, rfl, rfl, .refl _, mapValues_continues _ fun participant => ?_⟩,
    refreshAll_rostered rostered room.watchOnly (fun participant => { participant with
      connections := Keyed.mapValues (leaveDocument operation.documentID
        ((room.order.erase operation.documentID).headD "")) participant.connections })
      (fun _ => rfl) fun participant keyed id connection found => ?_⟩
  · apply Participant.Continues.refresh
    refine ⟨rfl, rfl, rfl, rfl, fun id connection found => ?_⟩
    rw [Keyed.lookup_mapValues, Option.map_eq_some_iff] at found
    obtain ⟨before, found, rfl⟩ := found
    exact ⟨before, found, rfl⟩
  · rw [Keyed.lookup_mapValues, Option.map_eq_some_iff] at found
    obtain ⟨before, found, rfl⟩ := found
    exact keyed id before found

/-! ## Calls of a session -/

/-- Only participants and connections may have been lost, and the roster is still sound. -/
def Thins (room room' : Room) : Prop := room.Continues room' ∧ room'.Rostered

theorem Thins.trans {first second third : Room} (before : first.Thins second)
    (after : second.Thins third) : first.Thins third := ⟨before.1.trans after.1, after.2⟩

/-- Putting a sound participant in the place of the one that it continues. -/
theorem replaceParticipant_thins {room room' : Room} {id : String} {participant : Participant}
    (rostered : room.Rostered) (present : room.participants.lookup id = some participant)
    (participant' : Participant) (continues : participant.Continues participant')
    (sound : participant'.Sound id room.watchOnly)
    (shared : room'.shared = room.shared) (watchOnly : room'.watchOnly = room.watchOnly)
    (sessions : room'.sessions = room.sessions)
    (participants : room'.participants = room.participants.insert id participant') :
    room.Thins room' := by
  have options := congrArg Room.options shared
  have snapshot := snapshot_of_shared shared
  refine ⟨⟨options, congrArg RoomSnapshot.slug snapshot,
    congrArg RoomSnapshot.creatorTokenHash snapshot, sessions ▸ .refl _,
    fun other next found => ?_⟩, fun other next found => ?_⟩
  · rw [participants, Keyed.lookup_insert_if] at found
    split at found
    case isTrue same =>
      cases found
      exact ⟨participant, same ▸ present, continues⟩
    case isFalse => exact ⟨next, found, .refl next⟩
  · rw [watchOnly]
    rw [participants, Keyed.lookup_insert_if] at found
    split at found
    case isTrue same =>
      cases found
      exact same ▸ sound
    case isFalse => exact rostered other next found

section Calls

variable {room : Room} (rostered : room.Rostered)

include rostered

theorem closed_thins : room.Thins { room with closed := true } :=
  ⟨⟨rfl, rfl, rfl, .refl _, (Continues.refl room).participants⟩, rostered⟩

theorem heartbeat_thins (participantID connectionID : String) (generation : Nat) (now : Time) :
    room.Thins (room.heartbeat participantID connectionID generation now).1 := by
  have gate := ensureConnection_gate rostered participantID connectionID generation now
  unfold heartbeat
  generalize room.ensureConnection participantID connectionID generation now = outcome at gate ⊢
  cases gate with
  | past => exact closed_thins rostered
  | gone => exact ⟨.refl room, rostered⟩
  | live room' _ _ touched rostered' => exact ⟨touched.continues, rostered'⟩

theorem rename_thins [Host] (participantID connectionID : String) (generation : Nat)
    (name : String) (now : Time) :
    room.Thins (room.rename participantID connectionID generation name now).1 := by
  have gate := ensureConnection_gate rostered participantID connectionID generation now
  unfold rename
  generalize room.ensureConnection participantID connectionID generation now = outcome at gate ⊢
  cases gate with
  | past => exact closed_thins rostered
  | gone => exact ⟨.refl room, rostered⟩
  | live room' _ _ touched rostered' =>
      have entered : room.Thins room' := ⟨touched.continues, rostered'⟩
      simp only
      split
      case h_1 => exact entered
      case h_2 =>
        split
        case h_1 => exact entered
        case h_2 participant present =>
          let renamed : Room := { room' with
            names := (room'.names.erase (nameKey participant.snapshot.nickname)).insert
              (nameKey name) participantID
            participants := room'.participants.insert participantID { participant with
              snapshot := { participant.snapshot with nickname := name } } }
          have named : room'.Thins renamed := replaceParticipant_thins rostered' present
            { participant with snapshot := { participant.snapshot with nickname := name } }
            ⟨rfl, rfl, rfl, rfl, fun _ connection found => ⟨connection, found, rfl⟩⟩
            ((rostered' _ participant present).renamed name) rfl rfl rfl rfl
          obtain ⟨marked, rostered''⟩ := markConnectionActivity_touched named.2 participantID
            connectionID now
          have success := (entered.trans named).trans ⟨marked.continues, rostered''⟩
          split
          all_goals
            split
            · exact entered
            · exact success

theorem updatePresence_thins (participantID connectionID : String) (generation : Nat)
    (update : PresenceUpdate) (now : Time) :
    room.Thins (room.updatePresence participantID connectionID generation update now).1 := by
  have gate := ensureConnection_gate rostered participantID connectionID generation now
  unfold updatePresence
  generalize room.ensureConnection participantID connectionID generation now = outcome at gate ⊢
  cases gate with
  | past => exact closed_thins rostered
  | gone => exact ⟨.refl room, rostered⟩
  | live room' _ _ touched rostered' =>
      have entered : room.Thins room' := ⟨touched.continues, rostered'⟩
      simp only
      split
      case h_1 => exact entered
      case h_2 participant present =>
        split
        case h_1 => exact entered
        case h_2 connection found =>
          split
          case isTrue => exact entered
          case isFalse =>
            have sound := rostered' _ participant present
            have keyed := sound.connections _ connection found
            subst keyed
            have continues (connection' : Connection) (same : connection'.id = connection.id)
                (generation : connection'.generation = connection.generation) :
                participant.Continues { participant with
                  connections := participant.connections.insert connection'.id connection' } := by
              refine ⟨rfl, rfl, rfl, rfl, fun id other listed => ?_⟩
              rw [Keyed.lookup_insert_if, same] at listed
              split at listed
              case isTrue own =>
                cases listed
                exact ⟨connection, own ▸ found, generation⟩
              case isFalse => exact ⟨other, listed, rfl⟩
            have moved (connection' : Connection) (same : connection'.id = connection.id)
                (generation : connection'.generation = connection.generation) :
                room'.Thins { room' with
                  participants := room'.participants.insert participantID { participant with
                    connections := participant.connections.insert connection'.id connection' } } :=
              replaceParticipant_thins rostered' present _ (continues connection' same generation)
                (sound.insert found same) rfl rfl rfl rfl
            have refreshed (connection' : Connection) (same : connection'.id = connection.id)
                (generation : connection'.generation = connection.generation) :
                room'.Thins { room' with
                  participants := room'.participants.insert participantID
                    (Participant.refresh { participant with
                      connections := participant.connections.insert connection'.id connection' }
                        room'.watchOnly) } :=
              replaceParticipant_thins rostered' present _
                ((continues connection' same generation).refresh room'.watchOnly)
                (.of_refresh _ sound.id (Participant.keyed_insert connection' sound.connections))
                rfl rfl rfl rfl
            split
            · exact entered.trans (moved _ (by split <;> rfl) (by split <;> rfl))
            · exact entered.trans (refreshed _ (by split <;> rfl) (by split <;> rfl))

end Calls

/-! ## Joining -/

/-- The participant that has joined again. -/
def rejoined (room : Room) (participant : Participant) (identity : JoinIdentity) (creator : Bool)
    (now : Time) : Participant :=
  Participant.refresh { (room.addConnection
    (if creator then { participant with accessClass := .creator } else participant)
      identity now).1 with disconnectedAt := zeroTime } room.watchOnly

/-- The participant that has joined for the first time. -/
def newcomer [Host] (room : Room) (participantID nickname : String) (identity : JoinIdentity)
    (accessClass : ParticipantAccessClass) (now : Time) : Participant :=
  (room.addConnection {
    sessionID := identity.participantCredential, accessClass, connections := ∅
    nextGeneration := 0, disconnectedAt := zeroTime
    snapshot := {
      id := participantID, nickname, joinedAt := now, color := Host.participantColor participantID
      currentTab := room.order.headD "", cursor := none, cursors := [], status := .connected
      accessClass, canEdit := false, connectionCount := 1, lastSeenAt := now } }
    identity now).1.refresh room.watchOnly

/-- The two ways in which a join succeeds. -/
inductive Joined [Host] (room : Room) (identity : JoinIdentity) (creator : Bool) (now : Time) :
    Room → Session → Prop
  /-- The credential has a participant. -/
  | again (participantID : String) (participant : Participant)
      (known : room.sessions.lookup identity.participantCredential = some participantID)
      (present : room.participants.lookup participantID = some participant)
      (free : identity.connectionID ∉ participant.connections)
      (space : (participant.connections.values.length : Int) <
        room.options.maxConnectionsPerParticipant)
      (writers : creator = true → participant.accessClass = .viewer →
        room.writerSlotCount < room.options.maxWriters) :
      Joined room identity creator now
        { room with
          participants := room.participants.insert participantID
            (room.rejoined participant identity creator now) }
        { participant := participant.snapshot.id, sessionID := participant.sessionID
          connectionID := identity.connectionID, clientID := identity.clientID
          generation := participant.nextGeneration + 1, creator }
  /-- The credential is new. -/
  | first (participantID nickname : String) (accessClass : ParticipantAccessClass)
      (space : (room.participants.values.length : Int) < room.options.maxParticipants)
      (access : room.accessClassForJoin creator = .ok accessClass)
      (named : participantIDForRoom room.snapshot.slug identity.participantCredential =
        .ok participantID)
      (fresh : participantID ∉ room.participants) :
      Joined room identity creator now
        { room with
          participants := room.participants.insert participantID
            (room.newcomer participantID nickname identity accessClass now)
          sessions := room.sessions.insert identity.participantCredential participantID
          names := room.names.insert (nameKey nickname) participantID }
        { participant := participantID, sessionID := identity.participantCredential
          connectionID := identity.connectionID, clientID := identity.clientID
          generation := 1, creator }

@[simp] theorem joinResult_session (room : Room) (participant : Participant)
    (connection : Connection) (creator reconnected : Bool) :
    (room.joinResult participant connection creator reconnected).session = {
      participant := participant.snapshot.id, sessionID := participant.sessionID
      connectionID := connection.id, clientID := connection.clientID
      generation := connection.generation, creator } := rfl

@[simp] theorem addConnection_snapshot (room : Room) (participant : Participant)
    (identity : JoinIdentity) (now : Time) :
    (room.addConnection participant identity now).1.snapshot = participant.snapshot := rfl

@[simp] theorem addConnection_sessionID (room : Room) (participant : Participant)
    (identity : JoinIdentity) (now : Time) :
    (room.addConnection participant identity now).1.sessionID = participant.sessionID := rfl

theorem rejoin_joined [Host] {room room' : Room} {participantID : String}
    {participant : Participant} {identity : JoinIdentity} {creator : Bool} {now : Time}
    {result : JoinResult}
    (known : room.sessions.lookup identity.participantCredential = some participantID)
    (present : room.participants.lookup participantID = some participant)
    (joins : room.rejoin participantID participant identity creator now = .ok (room', result)) :
    room.Joined identity creator now room' result.session := by
  unfold rejoin at joins
  split at joins
  case isTrue => cases joins
  case isFalse free =>
    split at joins
    case isTrue => cases joins
    case isFalse space =>
      split at joins
      case isTrue => cases joins
      case isFalse writers =>
        simp only [Except.ok.injEq, Prod.mk.injEq] at joins
        obtain ⟨after, results⟩ := joins
        have session : result.session = {
            participant := participant.snapshot.id, sessionID := participant.sessionID
            connectionID := identity.connectionID, clientID := identity.clientID
            generation := participant.nextGeneration + 1, creator } := by
          rw [← results]
          cases creator <;> simp [addConnection]
        rw [← after, session]
        exact .again participantID participant known present free (by omega)
          fun creator viewer => by
            by_contra full
            exact writers ⟨creator, viewer, by omega⟩

theorem joinNew_joined [Host] {room room' : Room} {identity : JoinIdentity} {creator : Bool}
    {candidate : Nat → Option String} {now : Time} {result : JoinResult}
    (joins : room.joinNew identity creator candidate now = .ok (room', result)) :
    room.Joined identity creator now room' result.session := by
  unfold joinNew at joins
  simp only [bind_eq_ok, require_eq_ok, exists_const] at joins
  obtain ⟨space, accessClass, access, participantID, named, fresh, joins⟩ := joins
  split at joins
  all_goals
    simp only [bind_eq_ok, Except.ok.injEq, Prod.mk.injEq] at joins
    obtain ⟨nickname, _, after, results⟩ := joins
    have session : result.session = {
        participant := participantID, sessionID := identity.participantCredential
        connectionID := identity.connectionID, clientID := identity.clientID
        generation := 1, creator } := by
      rw [← results]
      simp [addConnection]
    rw [← after, session]
    exact .first participantID nickname accessClass space access named fresh

/-- The three ways in which a join ends. -/
inductive JoinOutcome [Host] (room : Room) (identity : JoinIdentity)
    (capability : CreatorCapability) (candidate : Nat → Option String) (now : Time) :
    Room × Except LiveError JoinResult → Prop
  /-- The room has expired. -/
  | past (past : ¬room.Open now) :
      JoinOutcome room identity capability candidate now
        ({ room with closed := true }, .error .roomExpired)
  /-- Only timeouts have taken place. -/
  | refused (isOpen : room.Open now) (sessions : Keyed String)
      (within : Keyed.Within Eq (room.settledAt now).sessions sessions) (error : LiveError)
      (cause : (∃ participantID participant, (room.settledAt now).rejoin participantID participant
          identity (capability.matchesRoomHash room.snapshot.slug room.snapshot.creatorTokenHash)
            now = .error error) ∨
        Room.joinNew { room.settledAt now with sessions } identity
          (capability.matchesRoomHash room.snapshot.slug room.snapshot.creatorTokenHash) candidate
            now = .error error) :
      JoinOutcome room identity capability candidate now
        ({ room.settledAt now with sessions }, .error error)
  /-- The room has one more connection. -/
  | joined (isOpen : room.Open now) (sessions : Keyed String)
      (within : Keyed.Within Eq (room.settledAt now).sessions sessions) (room' : Room)
      (result : JoinResult)
      (joined : Room.Joined { room.settledAt now with sessions } identity
        (capability.matchesRoomHash room.snapshot.slug room.snapshot.creatorTokenHash) now room'
          result.session) :
      JoinOutcome room identity capability candidate now (room', .ok result)

theorem join_outcome [Host] (room : Room) (identity : JoinIdentity)
    (capability : CreatorCapability) (candidate : Nat → Option String) (now : Time) :
    room.JoinOutcome identity capability candidate now
      (room.join identity capability candidate now) := by
  unfold join
  by_cases isOpen : room.Open now
  · rw [ensureActive_open isOpen]
    simp only
    rw [← settledAt]
    cases known : room.settledAt now |>.sessions.lookup identity.participantCredential with
    | none =>
        simp only [Option.bind_eq_bind, Option.bind_none]
        split
        case h_1 error failed =>
            exact .refused isOpen _ (Keyed.within_erase _ _) error (.inr failed)
        case h_2 room' result joins =>
            exact .joined isOpen _ (Keyed.within_erase _ _) room' result (joinNew_joined joins)
    | some participantID =>
        cases present : room.settledAt now |>.participants.lookup participantID with
        | none =>
            simp only [Option.bind_eq_bind, Option.bind_some, present, Option.bind_none]
            split
            case h_1 error failed =>
                exact .refused isOpen _ (Keyed.within_erase _ _) error (.inr failed)
            case h_2 room' result joins =>
              exact .joined isOpen _ (Keyed.within_erase _ _) room' result (joinNew_joined joins)
        | some participant =>
            simp only [Option.bind_eq_bind, Option.bind_some, present]
            split
            case h_1 error failed => exact .refused isOpen _ (.refl _) error (.inl ⟨_, _, failed⟩)
            case h_2 room' result joins =>
              exact .joined isOpen _ (.refl _) room' result (rejoin_joined known present joins)
  · rw [ensureActive_closed isOpen]
    exact .past isOpen

/-- A join does not change what the clients share. -/
theorem Joined.rest [Host] {room room' : Room} {identity : JoinIdentity} {creator : Bool}
    {now : Time} {session : Session} (joined : room.Joined identity creator now room' session) :
    room'.shared = room.shared ∧ room'.closed = room.closed := by
  cases joined <;> exact ⟨rfl, rfl⟩

theorem rejoined_connections (room : Room) (participant : Participant) (identity : JoinIdentity)
    (creator : Bool) (now : Time) :
    (room.rejoined participant identity creator now).connections =
      participant.connections.insert identity.connectionID
        (room.addConnection participant identity now).2 := by
  rw [rejoined, Participant.refresh_connections]
  cases creator <;> rfl

/-- What a join does to the participant of its session. -/
structure Admission (room room' : Room) (session : Session) (participant' : Participant) :
    Prop where
  sound : participant'.Sound session.participant room.watchOnly
  creator : session.creator = true → participant'.accessClass = .creator
  participants : ∀ id, room'.participants.lookup id =
    if id = session.participant then some participant' else room.participants.lookup id
  fresh : ∀ participant, room.participants.lookup session.participant = some participant →
    session.connectionID ∉ participant.connections
  connections : ∀ id, id ≠ session.connectionID → participant'.connections.lookup id =
    (room.participants.lookup session.participant).bind fun participant =>
      participant.connections.lookup id
  added : ∃ connection, participant'.connections.lookup session.connectionID = some connection ∧
    connection.generation = session.generation

theorem accessClassForJoin_creator {room : Room} {accessClass : ParticipantAccessClass}
    (access : room.accessClassForJoin true = .ok accessClass) : accessClass = .creator := by
  unfold accessClassForJoin at access
  simp only [if_true] at access
  split at access
  · cases access
  · cases access
    rfl

theorem Joined.admission [Host] {room room' : Room} (rostered : room.Rostered)
    {identity : JoinIdentity} {creator : Bool} {now : Time} {session : Session}
    (joined : room.Joined identity creator now room' session) :
    session.creator = creator ∧ ∃ participant', room.Admission room' session participant' := by
  cases joined with
  | again participantID participant known present free space writers =>
      have sound := rostered _ participant present
      refine ⟨rfl, room.rejoined participant identity creator now, ?_⟩
      have connections := room.rejoined_connections participant identity creator now
      constructor
      case sound =>
        refine .of_refresh room.watchOnly (by cases creator <;> rfl) ?_
        have keyed := Participant.keyed_insert (room.addConnection participant identity now).2
          sound.connections
        cases creator <;> exact keyed
      case creator =>
        intro creator
        cases creator
        simp [rejoined, addConnection]
      case participants => exact fun id => sound.id ▸ Keyed.lookup_insert_if _ _ _ _
      case fresh =>
        intro other found
        rw [show participant.snapshot.id = participantID from sound.id] at found
        cases present.symm.trans found
        exact free
      case connections =>
        intro id other
        rw [connections, sound.id, present, Option.bind_some]
        exact AList.lookup_insert_ne other
      case added =>
        rw [connections]
        exact ⟨_, AList.lookup_insert _, rfl⟩
  | first participantID nickname accessClass space access named fresh =>
      refine ⟨rfl, room.newcomer participantID nickname identity accessClass now, ?_⟩
      have absent := AList.lookup_eq_none.mpr fresh
      constructor
      case sound =>
        exact .of_refresh room.watchOnly rfl (Participant.keyed_insert _ fun _ _ found => by
          cases found)
      case creator =>
        intro creator
        cases creator
        simp [newcomer, addConnection, accessClassForJoin_creator access]
      case participants => exact fun id => Keyed.lookup_insert_if _ _ _ _
      case fresh =>
        intro other found
        cases absent.symm.trans found
      case connections =>
        intro id other
        rw [newcomer, Participant.refresh_connections, absent, Option.bind_none]
        exact AList.lookup_insert_ne other
      case added =>
        rw [newcomer, Participant.refresh_connections]
        exact ⟨_, AList.lookup_insert _, rfl⟩

/-- The connections after a join are the ones before it and the new one. -/
theorem Admission.holds_iff {room room' : Room} {session : Session} {participant' : Participant}
    (admission : room.Admission room' session participant') (participantID connectionID : String)
    (generation : Nat) :
    room'.Holds participantID connectionID generation ↔
      (participantID = session.participant ∧ connectionID = session.connectionID ∧
        generation = session.generation) ∨ room.Holds participantID connectionID generation := by
  obtain ⟨connection, added, current⟩ := admission.added
  constructor
  · rintro ⟨participant, other, present, found, rfl⟩
    rw [admission.participants] at present
    split at present
    case isTrue same =>
      cases present
      by_cases own : connectionID = session.connectionID
      · subst own
        cases added.symm.trans found
        exact .inl ⟨same, rfl, current⟩
      · rw [admission.connections _ own, Option.bind_eq_some_iff] at found
        obtain ⟨before, present, found⟩ := found
        exact .inr ⟨before, other, same ▸ present, found, rfl⟩
    case isFalse => exact .inr ⟨participant, other, present, found, rfl⟩
  · rintro (⟨rfl, rfl, rfl⟩ | ⟨participant, other, present, found, rfl⟩)
    · exact ⟨participant', connection, by rw [admission.participants, if_pos rfl], added, current⟩
    · by_cases same : participantID = session.participant
      · subst same
        refine ⟨participant', other, by rw [admission.participants, if_pos rfl], ?_, rfl⟩
        have distinct : connectionID ≠ session.connectionID := by
          rintro rfl
          refine admission.fresh participant present (AList.lookup_isSome.mp ?_)
          rw [found]
          rfl
        rw [admission.connections _ distinct, present, Option.bind_some, found]
      · exact ⟨participant, other, by rw [admission.participants, if_neg same, present], found,
          rfl⟩

theorem Admission.rostered {room room' : Room} {session : Session} {participant' : Participant}
    (admission : room.Admission room' session participant') (rostered : room.Rostered)
    (shared : room'.shared = room.shared) : room'.Rostered := by
  have equality := congrArg Room.watchOnly shared
  have watchOnly : room'.watchOnly = room.watchOnly := equality
  intro id participant found
  rw [watchOnly]
  rw [admission.participants] at found
  split at found
  case isTrue same =>
    cases found
    exact same ▸ admission.sound
  case isFalse => exact rostered id participant found

/-- A live connection of the second room is a live connection of the first one. -/
theorem Continues.holds {room room' : Room} (continues : room.Continues room')
    {participantID connectionID : String} {generation : Nat}
    (holds : room'.Holds participantID connectionID generation) :
    room.Holds participantID connectionID generation := by
  obtain ⟨participant', connection', present, found, rfl⟩ := holds
  obtain ⟨participant, present, kept⟩ := continues.participants _ participant' present
  obtain ⟨connection, found, same⟩ := kept.connections _ connection' found
  exact ⟨participant, connection, present, found, same.symm⟩

/-! ## All calls -/

theorem SameRoster.thins {room room' : Room} (same : room.SameRoster room')
    (rostered : room.Rostered) : room.Thins room' := by
  refine ⟨⟨same.options, same.slug, same.creatorTokenHash, same.sessions ▸ .refl _,
    fun id participant found => ?_⟩, fun id participant found => ?_⟩
  · rw [same.participants] at found
    exact ⟨participant, found, .refl participant⟩
  · rw [same.participants] at found
    rw [same.watchOnly]
    exact rostered id participant found

theorem Entry.thins {α : Type} {room : Room} (rostered : room.Rostered) {store : Store}
    {session : Session} {now : Time} {allowed : Room → Prop} {body : Room → Outcome α}
    {outcome : Outcome α} (entry : room.Entry store session now allowed body outcome)
    (thins : ∀ room' : Room, room'.Rostered → room'.Thins (body room').1.room) :
    room.Thins outcome.1.room := by
  cases entry with
  | past => exact closed_thins rostered
  | gone => exact ⟨.refl room, rostered⟩
  | refused room' _ _ touched rostered' => exact ⟨touched.continues, rostered'⟩
  | admitted room' _ _ touched rostered' =>
      exact Thins.trans ⟨touched.continues, rostered'⟩ (thins room' rostered')

theorem ModeEntry.thins {room : Room} (rostered : room.Rostered) {store : Store}
    {session : Session} {now : Time} {change : Room → Room} {save : Except LiveError Store}
    {outcome : Outcome RoomState} (entry : room.ModeEntry store session now change save outcome)
    (thins : ∀ room' : Room, room'.Rostered → room'.Thins (change room')) :
    room.Thins outcome.1.room := by
  cases entry with
  | past => exact closed_thins rostered
  | gone => exact ⟨.refl room, rostered⟩
  | refused room' _ _ touched rostered' => exact ⟨touched.continues, rostered'⟩
  | unchanged room' _ _ touched rostered' => exact ⟨touched.continues, rostered'⟩
  | changed room' _ _ touched rostered' =>
      exact Thins.trans ⟨touched.continues, rostered'⟩ (thins room' rostered')

/-- A call of a session only takes connections and participants away. -/
theorem request_thins [Host] {authority : Authority} (rostered : authority.room.Rostered)
    (session : Session) (now : Time) (fault : Bool) (request : Request) :
    authority.room.Thins (authority.request session now fault request).1.room := by
  cases request with
  | submitDocument operation =>
      exact (submitDocument_entry rostered authority.store session now fault operation).thins
        rostered fun room' rostered' =>
          (acceptDocument_sameRoster room' _ operation now fault).thins rostered'
  | applyMetadata operation generator =>
      refine (applyMetadata_entry rostered authority.store session now fault operation
        generator).thins rostered fun room' rostered' => ?_
      rcases room'.acceptMetadata_roster authority.store operation generator now fault with
        ⟨_, same⟩ | ⟨_, same⟩
      · exact same.thins rostered'
      · have left := left_continues rostered' operation
        exact Thins.trans left (same.thins left.2)
  | updatePresence update => exact updatePresence_thins rostered _ _ _ _ _
  | rename name => exact rename_thins rostered _ _ _ _ _
  | heartbeat => exact heartbeat_thins rostered _ _ _ _
  | disconnect => exact disconnect_continues rostered _ _ _ _
  | setWatchOnly enabled =>
      exact (setWatchOnly_entry rostered authority.store session now fault enabled).thins rostered
        fun room' rostered' => locked_continues rostered' enabled
  | setLayoutPreset preset =>
      exact (setLayoutPreset_entry rostered authority.store session now fault preset).thins
        rostered fun room' rostered' =>
          ⟨⟨rfl, rfl, rfl, .refl _, (Continues.refl room').participants⟩, rostered'⟩

theorem sweep_thins [Host] {room : Room} (rostered : room.Rostered) (now : Time) :
    room.Thins (room.sweep now).1 := by
  unfold sweep
  split
  case isTrue => exact ⟨.refl room, rostered⟩
  case isFalse =>
    split
    case isTrue => exact close_continues rostered
    case isFalse => exact ⟨room.settledAt_continues now, rostered.settledAt now⟩

theorem shouldEvict_thins [Host] {room : Room} (rostered : room.Rostered) (now : Time) :
    room.Thins (room.shouldEvict now).1 := by
  unfold shouldEvict
  split
  case isTrue => exact ⟨.refl room, rostered⟩
  case isFalse => exact ⟨room.pruneDisconnected_continues now, rostered.pruneDisconnected now⟩

theorem shutdown_thins {room : Room} (rostered : room.Rostered) (store : Store) (now : Time)
    (fault : Bool) : room.Thins (room.shutdown store now fault).1.room := by
  unfold shutdown
  simp only
  split
  case isTrue =>
    have durable (room' : Room) (same : room.SameRoster room') : room.Thins room' :=
      same.thins rostered
    split
    case h_1 => exact durable _ ⟨rfl, rfl, rfl, rfl, rfl, rfl, rfl, rfl, rfl⟩
    case h_2 =>
      have saved : room.SameRoster ({ room.durableSnapshot.1 with
          snapshot := room.durableSnapshot.2, dirty := false } : Room).markDocumentsDurable :=
        ⟨rfl, rfl, rfl, rfl, rfl, rfl, rfl, rfl, rfl⟩
      have thins := saved.thins rostered
      exact thins.trans (close_continues thins.2)
  case isFalse => exact close_continues rostered

end Room

namespace Authority

/-- What an action does to the roster: it only takes away, or it is a join that succeeds. -/
inductive Move [Host] (authority : Authority) (action : Action) : Outcome Answer → Prop
  | thins (outcome : Outcome Answer) (thins : authority.room.Thins outcome.1.room)
      (issues : Answer.session outcome.2 = []) : Move authority action outcome
  | joins (identity : JoinIdentity) (capability : CreatorCapability)
      (candidate : Nat → Option String) (call : action.call = .join identity capability candidate)
      (isOpen : authority.room.Open action.now) (sessions : Keyed String)
      (within : Keyed.Within Eq (authority.room.settledAt action.now).sessions sessions)
      (room' : Room) (result : JoinResult)
      (joined : Room.Joined { authority.room.settledAt action.now with sessions } identity
        (capability.matchesRoomHash authority.room.snapshot.slug
          authority.room.snapshot.creatorTokenHash) action.now room' result.session) :
      Move authority action ({ authority with room := room' }, .ok (.joined result))

theorem session_request [Host] (authority : Authority) (session : Session) (now : Time)
    (fault : Bool) (request : Request) :
    Answer.session (authority.request session now fault request).2 = [] := by
  have quiet {α : Type} (answer : α → Answer)
      (quiet : ∀ value, Answer.session (.ok (answer value)) = [])
      (result : Except LiveError α) : Answer.session (result.map answer) = [] := by
    cases result with
    | error => rfl
    | ok value => exact quiet value
  cases request <;> exact quiet _ (fun _ => rfl) _

theorem perform_move [Host] {authority : Authority} (rostered : authority.room.Rostered)
    (action : Action) : authority.Move action (authority.perform action) := by
  have same : authority.room.Thins authority.room := ⟨.refl _, rostered⟩
  unfold perform
  split
  case h_1 identity capability candidate call =>
    unfold join
    split
    case h_1 => exact .thins _ same rfl
    case h_2 =>
      have ends := authority.room.join_outcome identity capability candidate action.now
      generalize authority.room.join identity capability candidate action.now = outcome at ends ⊢
      cases ends with
      | past => exact .thins _ (Room.closed_thins rostered) rfl
      | refused isOpen sessions within error cause =>
          exact .thins _ ⟨authority.room.narrowed_continues action.now within,
            rostered.settledAt action.now⟩ rfl
      | joined isOpen sessions within room' result joined =>
          exact .joins identity capability candidate call isOpen sessions within room' result joined
  case h_2 session request call =>
    exact .thins _ (Room.request_thins rostered session action.now action.fault request)
      (session_request _ _ _ _ _)
  case h_3 => exact .thins _ (Room.sweep_thins rostered action.now) rfl
  case h_4 => exact .thins _ (Room.shouldEvict_thins rostered action.now) rfl
  case h_5 =>
    refine .thins _ (Room.shutdown_thins rostered authority.store action.now action.fault) ?_
    simp only
    cases (authority.room.shutdown authority.store action.now action.fault).2 <;> rfl
  case h_6 => exact .thins _ same rfl

end Authority

namespace Stage

theorem Loaded.rostered {options : HubOptions} {stage : Stage} (loaded : Loaded options stage) :
    stage.authority.room.Rostered := by
  cases loaded with
  | newRoom store snapshot faults authority valid load =>
      intro id participant found
      rw [(Room.newRoom_vacant load).participants] at found
      cases found

/-- In every reachable state the participants are sound. -/
theorem Reachable.rostered [Host] {options : HubOptions} {stage : Stage}
    (reachable : Reachable options stage) : stage.authority.room.Rostered := by
  induction reachable with
  | loaded stage loaded => exact loaded.rostered
  | step stage action reachable possible rostered =>
      have move := Authority.perform_move rostered action
      unfold Stage.step
      generalize stage.authority.perform action = outcome at move ⊢
      cases move with
      | thins outcome thins => exact thins.2
      | joins identity capability candidate call isOpen sessions within room' result joined =>
          have settled : Room.Rostered { stage.authority.room.settledAt action.now with
              sessions } := rostered.settledAt action.now
          obtain ⟨_, participant', admission⟩ := joined.admission settled
          exact admission.rostered settled joined.rest.1

end Stage

end Oxbin.Live
