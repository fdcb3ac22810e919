import Oxbin.Live.Authority
import Oxbin.Livecollab.Positions

/-!
# Participants and sessions

Joining, leaving and timing out, and the part of the life of a room that depends on it: sweeping,
eviction and shutdown.
-/

namespace Oxbin.Live

open Livecollab Storage

/-- `CreatorCapability`. -/
structure CreatorCapability where
  token : List UInt8
  valid : Bool
  deriving DecidableEq, Repr

/-- `CreatorCapability.MatchesRoomHash`. -/
def CreatorCapability.matchesRoomHash [Host] (capability : CreatorCapability) (slug : String)
    (stored : List UInt8) : Bool :=
  capability.valid ∧ slug ≠ "" ∧ (Host.creatorHash capability.token slug).length = 32 ∧
    stored.length = 32 ∧ Host.creatorHash capability.token slug = stored

/-- The fields of a `RoomSession` other than its room. -/
structure Session where
  participant : String
  sessionID : String
  connectionID : String
  clientID : String
  generation : Nat
  creator : Bool
  deriving DecidableEq, Repr

/-- `JoinResult`. -/
structure JoinResult where
  session : Session
  participant : ParticipantSnapshot
  state : RoomState
  reconnected : Bool
  deriving DecidableEq, Repr

/-- `NameGenerator.Generate`; `candidate` is the name that each attempt draws. -/
def generateName [Host] (used : List String) (candidate : Nat → Option String) :
    Nat → Nat → Except LiveError String
  | 0, _ => .error .noUniqueName
  | attempts + 1, index =>
      match candidate index with
      | none => .error .noUniqueName
      | some name =>
          match validateNickname name with
          | .error error => .error error
          | .ok () =>
              if nameKey name ∉ used then .ok name
              else generateName used candidate attempts (index + 1)

namespace Room

/-! ## Timeouts -/

/-- The connections of a participant that have timed out. -/
def timedOut (options : HubOptions) (now : Time) (connection : Connection) : Bool :=
  now - connection.lastSeenAt > options.participantTimeout

/-- `expireConnectionsLocked` for one participant. -/
def expireParticipant (options : HubOptions) (watchOnly : Bool) (now : Time)
    (participant : Participant) : Participant :=
  let lost := participant.connections.values.filter (timedOut options now)
  if lost = [] then participant
  else
    let finalLostAt := (lost.map fun connection =>
      connection.lastSeenAt + options.participantTimeout).foldl max zeroTime
    let connections := lost.foldl (fun connections connection => connections.erase connection.id)
      participant.connections
    let participant := { participant with connections }
    let participant :=
      if connections.values = [] then
        { participant with
          snapshot := { participant.snapshot with lastSeenAt := finalLostAt }
          disconnectedAt := finalLostAt }
      else participant
    participant.refresh watchOnly

/-- `expireConnectionsLocked`. -/
def expireConnections (room : Room) (now : Time) : Room :=
  { room with
    participants := Keyed.mapValues (expireParticipant room.options room.watchOnly now)
      room.participants }

/-- The reconnect grace of a participant has passed. -/
def gone (options : HubOptions) (now : Time) (participant : Participant) : Bool :=
  participant.connections.values = [] ∧ participant.disconnectedAt ≠ zeroTime ∧
    now - participant.disconnectedAt > options.reconnectGrace

/-- Delete a participant with its session and its name. -/
def removeParticipant [Host] (room : Room) (participantID : String) : Room :=
  match room.participants.lookup participantID with
  | none => room
  | some participant =>
      { room with
        participants := room.participants.erase participantID
        sessions := room.sessions.erase participant.sessionID
        names := room.names.erase (nameKey participant.snapshot.nickname) }

/-- `pruneDisconnectedLocked`: the room and the IDs passed to the publish callback. -/
def pruneDisconnected [Host] (room : Room) (now : Time) : Room × List String :=
  let participantIDs := (room.participants.entries.filterMap fun entry =>
    if gone room.options now entry.2 then some entry.1 else none).insertionSort
      fun left right => left ≤ right
  (participantIDs.foldl removeParticipant room, participantIDs)

/-! ## Joining -/

/-- `writerSlotCountLocked`. -/
def writerSlotCount (room : Room) : Int :=
  (room.participants.values.filter fun participant =>
    participant.accessClass = .creator ∨ participant.accessClass = .collaborator).length

/-- `viewerSlotCountLocked`. -/
def viewerSlotCount (room : Room) : Int :=
  (room.participants.values.filter fun participant => participant.accessClass = .viewer).length

/-- `hasCreatorLocked`. -/
def hasCreator (room : Room) : Bool :=
  room.participants.values.any fun participant => participant.accessClass = .creator

/-- `accessClassForJoinLocked`. -/
def accessClassForJoin (room : Room) (creator : Bool) : Except LiveError ParticipantAccessClass :=
  let writers := room.writerSlotCount
  if creator then
    if writers ≥ room.options.maxWriters then .error .participantLimit else .ok .creator
  else
    let collaboratorLimit :=
      if room.snapshot.creatorTokenHash.length > 0 ∧ room.hasCreator = false then
        room.options.maxWriters - 1
      else room.options.maxWriters
    if writers < collaboratorLimit then .ok .collaborator
    else if room.viewerSlotCount ≥ room.options.maxViewers then .error .participantLimit
    else .ok .viewer

/-- `addConnectionLocked`. -/
def addConnection (room : Room) (participant : Participant) (identity : JoinIdentity)
    (now : Time) : Participant × Connection :=
  let generation := participant.nextGeneration + 1
  let currentTab :=
    if participant.snapshot.currentTab ∈ room.documents then participant.snapshot.currentTab
    else room.order.headD ""
  let connection : Connection := {
    id := identity.connectionID, clientID := identity.clientID, generation, currentTab
    cursor := none, lastSeenAt := now, lastActivityAt := now }
  ({ participant with
    nextGeneration := generation
    connections := participant.connections.insert connection.id connection }, connection)

/-- `joinResultLocked`. -/
def joinResult (room : Room) (participant : Participant) (connection : Connection)
    (creator reconnected : Bool) : JoinResult where
  session := {
    participant := participant.snapshot.id, sessionID := participant.sessionID
    connectionID := connection.id, clientID := connection.clientID
    generation := connection.generation, creator }
  participant := participant.snapshot
  state := room.state
  reconnected := reconnected

/-- The branch of `join` for a credential that has a participant. -/
def rejoin (room : Room) (participantID : String) (participant : Participant)
    (identity : JoinIdentity) (creator : Bool) (now : Time) :
    Except LiveError (Room × JoinResult) :=
  if identity.connectionID ∈ participant.connections then .error .sessionActive
  else if (participant.connections.values.length : Int) ≥
      room.options.maxConnectionsPerParticipant then .error .connectionLimit
  else if creator = true ∧ participant.accessClass = .viewer ∧
      room.writerSlotCount ≥ room.options.maxWriters then .error .participantLimit
  else
    let participant := if creator then { participant with accessClass := .creator } else participant
    let (participant, connection) := room.addConnection participant identity now
    let participant := Participant.refresh { participant with disconnectedAt := zeroTime }
      room.watchOnly
    let room := { room with participants := room.participants.insert participantID participant }
    .ok (room, room.joinResult participant connection creator true)

/-- The branch of `join` for a new participant. -/
def joinNew [Host] (room : Room) (identity : JoinIdentity) (creator : Bool)
    (candidate : Nat → Option String) (now : Time) : Except LiveError (Room × JoinResult) := do
  require ((room.participants.values.length : Int) < room.options.maxParticipants)
    .participantLimit
  let accessClass ← room.accessClassForJoin creator
  let participantID ← participantIDForRoom room.snapshot.slug identity.participantCredential
  require (participantID ∉ room.participants) .operationConflict
  let preferred := identity.preferredNameSet = true ∧ nameKey identity.preferredName ∉ room.names ∧
    identity.preferredName ≠ ""
  let nickname ←
    if preferred then .ok identity.preferredName
    else generateName room.names.keys candidate 8 0
  let participant : Participant := {
    sessionID := identity.participantCredential, accessClass, connections := ∅
    nextGeneration := 0, disconnectedAt := zeroTime
    snapshot := {
      id := participantID, nickname, joinedAt := now, color := Host.participantColor participantID
      currentTab := room.order.headD "", cursor := none, cursors := [], status := .connected
      accessClass, canEdit := false, connectionCount := 1, lastSeenAt := now } }
  let (participant, connection) := room.addConnection participant identity now
  let participant := participant.refresh room.watchOnly
  let room := { room with
    participants := room.participants.insert participantID participant
    sessions := room.sessions.insert identity.participantCredential participantID
    names := room.names.insert (nameKey nickname) participantID }
  .ok (room, room.joinResult participant connection creator false)

/-- `join`. -/
def join [Host] (room : Room) (identity : JoinIdentity) (capability : CreatorCapability)
    (candidate : Nat → Option String) (now : Time) : Room × Except LiveError JoinResult :=
  match room.ensureActive now with
  | (room, .error error) => (room, .error error)
  | (room, .ok ()) =>
      let creator := capability.matchesRoomHash room.snapshot.slug room.snapshot.creatorTokenHash
      let room := ((room.expireConnections now).pruneDisconnected now).1
      let known := do
        let participantID ← room.sessions.lookup identity.participantCredential
        let participant ← room.participants.lookup participantID
        some (participantID, participant)
      let (room, joined) := match known with
        | some (participantID, participant) =>
            (room, room.rejoin participantID participant identity creator now)
        | none =>
            let room := { room with
              sessions := room.sessions.erase identity.participantCredential }
            (room, room.joinNew identity creator candidate now)
      match joined with
      | .error error => (room, .error error)
      | .ok (room, result) => (room, .ok result)

/-! ## Leaving -/

/-- `disconnect`. -/
def disconnect (room : Room) (participantID connectionID : String) (generation : Nat)
    (now : Time) : Room × Except LiveError Unit :=
  match room.participants.lookup participantID with
  | none => (room, .error .participantNotFound)
  | some participant =>
      match participant.connections.lookup connectionID with
      | none => (room, .error .participantInactive)
      | some connection =>
          if connection.generation ≠ generation then (room, .error .participantInactive)
          else
            let connections := participant.connections.erase connectionID
            let participant := { participant with connections }
            let participant :=
              if Keyed.values connections = [] then
                { participant with
                  snapshot := { participant.snapshot with lastSeenAt := now }
                  disconnectedAt := now }
              else participant
            (room.refreshParticipant participantID participant, .ok ())

/-- `heartbeat`. -/
def heartbeat (room : Room) (participantID connectionID : String) (generation : Nat)
    (now : Time) : Room × Except LiveError Unit :=
  room.ensureConnection participantID connectionID generation now

/-- `rename`. -/
def rename [Host] (room : Room) (participantID connectionID : String) (generation : Nat)
    (name : String) (now : Time) : Room × Except LiveError Unit :=
  match room.ensureConnection participantID connectionID generation now with
  | (room, .error error) => (room, .error error)
  | (room, .ok ()) =>
      match validateNickname name with
      | .error error => (room, .error error)
      | .ok () =>
          let owned := match room.names.lookup (nameKey name) with
            | some owner => owner = participantID
            | none => true
          match room.participants.lookup participantID with
          | none => (room, .error .participantNotFound)
          | some participant =>
              if owned = false then (room, .error .nameTaken)
              else
                let room := { room with
                  names := (room.names.erase (nameKey participant.snapshot.nickname)).insert
                    (nameKey name) participantID
                  participants := room.participants.insert participantID { participant with
                    snapshot := { participant.snapshot with nickname := name } } }
                (room.markConnectionActivity participantID connectionID now, .ok ())

/-! ## Presence -/

/-- `mapSelection`. -/
def mapSelection (selection : SelectionRange) (changes : ChangeSet) : Option SelectionRange :=
  if selection.anchor = selection.head then do
    let position ← changes.mapPos selection.head 1
    some ⟨position, position⟩
  else selection.map changes

/-- The selection of an update, carried over the accepted changes newer than its revision. -/
def mapPresence (revision : Int) : List DocumentHistory → SelectionRange → Option SelectionRange
  | [], selection => some selection
  | accepted :: history, selection =>
      if accepted.revision > revision then
        (mapSelection selection accepted.changes).bind (mapPresence revision history)
      else mapPresence revision history selection

/-- The cursor that an update asks for, if it asks for one. -/
def presenceCursor (room : Room) (update : PresenceUpdate) :
    Except LiveError (Option CursorSelection) :=
  if update.documentID = "" then .ok none
  else
    match room.documents.lookup update.documentID with
    | none => .error .documentNotFound
    | some document =>
        let current := document.snapshot.currentRevision
        if update.revision < document.compactedRevision ∨ update.revision > current then
          .error .invalidPresence
        else
          let selection : SelectionRange := ⟨update.anchor, update.head⟩
          let mapped := if update.revision = current then some selection
            else mapPresence update.revision document.history selection
          match mapped with
          | none => .error .invalidPresence
          | some selection =>
              let length := utf16Len document.snapshot.content
              if selection.anchor < 0 ∨ selection.head < 0 ∨ selection.anchor > length ∨
                  selection.head > length then .error .invalidPresence
              else .ok (some ⟨update.documentID, current, selection.anchor, selection.head⟩)

/-- `updatePresence`; the tab of a connection moves before the cursor is checked. -/
def updatePresence (room : Room) (participantID connectionID : String) (generation : Nat)
    (update : PresenceUpdate) (now : Time) : Room × Except LiveError ParticipantSnapshot :=
  match room.ensureConnection participantID connectionID generation now with
  | (room, .error error) => (room, .error error)
  | (room, .ok ()) =>
      match room.participants.lookup participantID with
      | none => (room, .error .participantNotFound)
      | some participant =>
          match participant.connections.lookup connectionID with
          | none => (room, .error .participantInactive)
          | some connection =>
              if update.currentTab ≠ "" ∧ update.currentTab ∉ room.documents then
                (room, .error .documentNotFound)
              else
                let connection := if update.currentTab ≠ "" then
                    { connection with currentTab := update.currentTab }
                  else connection
                match room.presenceCursor update with
                | .error error =>
                    ({ room with
                      participants := room.participants.insert participantID { participant with
                        connections := participant.connections.insert connection.id connection } },
                      .error error)
                | .ok cursor =>
                    let connections := participant.connections.insert connection.id
                      { connection with
                      cursor := cursor <|> connection.cursor
                      lastSeenAt := now, lastActivityAt := now }
                    let participant := Participant.refresh { participant with connections }
                      room.watchOnly
                    ({ room with
                      participants := room.participants.insert participantID participant },
                      .ok participant.snapshot)

/-! ## The life of a room -/

/-- Take every participant offline and close the room. -/
def close (room : Room) : Room :=
  { room with
    participants := Keyed.mapValues (fun participant => Participant.refresh
      { participant with
        connections := ∅
        snapshot := { participant.snapshot with status := .offline } } room.watchOnly)
      room.participants
    closed := true }

/-- `sweep`: the room and the IDs of the participants whose removal is published. -/
def sweep [Host] (room : Room) (now : Time) : Room × List String :=
  if room.closed then (room, [])
  else if unix room.snapshot.expiresAt ≤ unix now then (room.close, [])
  else (room.expireConnections now).pruneDisconnected now

/-- `shouldEvict`. -/
def shouldEvict [Host] (room : Room) (now : Time) : Room × Bool :=
  if room.closed then (room, true)
  else
    let room := (room.pruneDisconnected now).1
    (room, room.participants.entries.isEmpty)

/-- `shutdown`. -/
def shutdown (room : Room) (store : Store) (now : Time) (fault : Bool) : Outcome Unit :=
  if room.dirty = true ∧ unix now < unix room.snapshot.expiresAt then
    let (room, durable) := room.durableSnapshot
    match Storage.Store.saveSnapshot store durable now fault with
    | .error error => (⟨room, store⟩, .error error)
    | .ok store =>
        (⟨({ room with snapshot := durable, dirty := false }.markDocumentsDurable).close, store⟩,
          .ok ())
  else (⟨room.close, store⟩, .ok ())

end Room

end Oxbin.Live
