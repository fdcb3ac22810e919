import Mathlib.Data.List.Sort
import Oxbin.Live.Validation

/-!
# The state of a live room

The fields of the `room` of `internal/live/hub.go` and the functions that read them or maintain
their redundancy: the state sent to clients, the durable snapshot and the bounded histories.
-/

namespace Oxbin.Live

open Livecollab

/-- `documentHistory`. -/
structure DocumentHistory where
  operationID : String
  clientID : String
  revision : Int
  baseVersion : Int
  beforeLen : Int
  bytes : Int
  changes : ChangeSet
  deriving DecidableEq, Repr

/-- `documentState`. -/
structure Document where
  snapshot : DocumentSnapshot
  history : List DocumentHistory
  historyBytes : Int
  compactedRevision : Int
  deriving DecidableEq, Repr

/-- `connectionState`. -/
structure Connection where
  id : String
  clientID : String
  generation : Nat
  currentTab : String
  cursor : Option CursorSelection
  lastSeenAt : Time
  lastActivityAt : Time
  deriving DecidableEq, Repr

/-- `participantState`. -/
structure Participant where
  snapshot : ParticipantSnapshot
  sessionID : String
  accessClass : ParticipantAccessClass
  connections : Keyed Connection
  nextGeneration : Nat
  disconnectedAt : Time

/-- The result that the operation ledger keeps. -/
inductive OperationResult where
  | document (accepted : AcceptedDocumentOperation)
  | metadata (accepted : AcceptedMetadataOperation)
  deriving DecidableEq, Repr

/-- `operationRecord`. -/
structure LedgerRecord where
  fingerprint : String
  result : OperationResult
  deriving DecidableEq, Repr

/-- `room`. -/
structure Room where
  options : HubOptions
  snapshot : RoomSnapshot
  documents : Keyed Document
  order : List String
  participants : Keyed Participant
  sessions : Keyed String
  names : Keyed String
  watchOnly : Bool
  operations : Keyed LedgerRecord
  operationOrder : List String
  metadataHistory : List AcceptedMetadataOperation
  metadataHistorySizes : List Int
  metadataHistoryBytes : Int
  metadataCompactedRevision : Int
  dirty : Bool
  closed : Bool

/-! ## Participants -/

/-- `participantCanEdit`. -/
def participantCanEdit (accessClass : ParticipantAccessClass) (locked : Bool) : Bool :=
  match accessClass with
  | .creator => true
  | .collaborator => !locked
  | .viewer => false

/-- The comparison by which `refreshParticipantLocked` picks the latest connection. -/
def latest (instant : Connection → Time) (best candidate : Connection) : Connection :=
  if instant candidate > instant best ∨
      instant candidate = instant best ∧ candidate.generation > best.generation ∨
      instant candidate = instant best ∧ candidate.generation = best.generation ∧
        candidate.id < best.id then candidate
  else best

/-- `refreshParticipantLocked`. -/
def Participant.refresh (participant : Participant) (watchOnly : Bool) : Participant :=
  let connections := participant.connections.values
  let snapshot : ParticipantSnapshot := { participant.snapshot with
    accessClass := participant.accessClass
    canEdit := participantCanEdit participant.accessClass watchOnly
    connectionCount := connections.length
    cursors := []
    cursor := none }
  match connections with
  | [] =>
      let status : ParticipantStatus :=
        if snapshot.status = .offline then .offline else .connectionLost
      { participant with snapshot := { snapshot with status } }
  | first :: others =>
      let latestActivity := others.foldl (latest Connection.lastActivityAt) first
      let latestSeen := others.foldl (latest Connection.lastSeenAt) first
      let cursors := connections.filterMap fun connection =>
        connection.cursor.map fun selection => ⟨connection.id, selection⟩
      { participant with
        snapshot := { snapshot with
          status := .connected
          cursors := cursors.insertionSort fun left right =>
            left.connectionID ≤ right.connectionID
          currentTab := latestActivity.currentTab
          lastSeenAt := latestSeen.lastSeenAt
          cursor := latestActivity.cursor } }

namespace Room

/-- Put a participant back after a change, refreshed. -/
def refreshParticipant (room : Room) (id : String) (participant : Participant) : Room :=
  { room with participants := room.participants.insert id (participant.refresh room.watchOnly) }

/-- `stateLocked`. -/
def state (room : Room) : RoomState where
  slug := room.snapshot.slug
  expiresAt := room.snapshot.expiresAt
  watchOnly := room.watchOnly
  layoutPreset := room.snapshot.layoutPreset
  metadataRevision := room.snapshot.metadataRevision
  metadataSnapshotRevision := room.snapshot.metadataSnapshotRevision
  documents := room.order.zipIdx.filterMap fun (documentID, position) =>
    (room.documents.lookup documentID).map fun document =>
      { id := document.snapshot.id, name := document.snapshot.name,
        language := document.snapshot.language, content := document.snapshot.content,
        position, revision := document.snapshot.currentRevision,
        snapshotRevision := document.snapshot.snapshotRevision }
  participants := (room.participants.values.map Participant.snapshot).insertionSort
    fun left right => left.joinedAt < right.joinedAt ∨
      left.joinedAt = right.joinedAt ∧ left.id ≤ right.id

/-! ## Snapshots -/

/-- The documents in their order, with their positions. -/
def orderedDocuments (documents : Keyed Document) (order : List String) :
    List DocumentSnapshot :=
  order.zipIdx.filterMap fun (documentID, position) =>
    (documents.lookup documentID).map fun document =>
      { document.snapshot with position := position }

/-- The position that a document has in the order, or the one that it had. -/
def positioned (order : List String) (documentID : String) (document : Document) : Document :=
  if documentID ∈ order then
    { document with snapshot := { document.snapshot with position := order.idxOf documentID } }
  else document

/-- The assignment of positions in `syncSnapshotLocked`. -/
def positionAll (documents : Keyed Document) (order : List String) : Keyed Document :=
  Keyed.mapKeyed (positioned order) documents

/-- `syncSnapshotLocked`. -/
def syncSnapshot (room : Room) : Room :=
  let documents := orderedDocuments room.documents room.order
  { room with
    documents := positionAll room.documents room.order
    snapshot := { room.snapshot with
      documents
      contentSize := (documents.map fun document => byteLen document.content).sum } }

/-- The snapshot that `durableSnapshotLocked` derives from a synchronised room. -/
def durable (snapshot : RoomSnapshot) : RoomSnapshot :=
  { snapshot with
    metadataSnapshotRevision := snapshot.metadataRevision
    documents := snapshot.documents.map fun document =>
      { document with snapshotRevision := document.currentRevision } }

/-- `durableSnapshotLocked`: it synchronises the room and returns the durable snapshot. -/
def durableSnapshot (room : Room) : Room × RoomSnapshot :=
  let room := room.syncSnapshot
  (room, durable room.snapshot)

/-- `markDocumentsDurableLocked`. -/
def markDocumentsDurable (room : Room) : Room :=
  { room with
    documents := Keyed.mapValues (fun document => { document with
      snapshot := { document.snapshot with
        snapshotRevision := document.snapshot.currentRevision } }) room.documents }

/-- `contentSizeWith`. -/
def contentSizeWith (room : Room) (documentID content : String) : Int :=
  if documentID = "" then
    room.documents.total (fun document => byteLen document.snapshot.content) + byteLen content
  else
    (room.documents.entries.map fun entry =>
      if entry.1 = documentID then byteLen content
      else byteLen entry.2.snapshot.content).sum

end Room

/-! ## Histories -/

/-- `documentState.lengthAt`. -/
def Document.lengthAt (document : Document) (version : Int) : Option Int :=
  if version = document.snapshot.currentRevision then
    some (utf16Len document.snapshot.content)
  else
    (document.history.find? fun accepted => accepted.baseVersion == version).map
      DocumentHistory.beforeLen

/-- Drop the oldest entries until rows and bytes are within their limits. -/
def pruneRows {α : Type} (size : α → Int) (maxRows maxBytes : Int) :
    List α → Int → List α × Int
  | [], bytes => ([], bytes)
  | entry :: entries, bytes =>
      if ((entry :: entries).length : Int) > maxRows ∨ bytes > maxBytes then
        pruneRows size maxRows maxBytes entries (bytes - size entry)
      else (entry :: entries, bytes)

/-- `documentState.pruneHistory`. -/
def Document.pruneHistory (document : Document) (maxRows maxBytes : Int) : Document :=
  let (history, historyBytes) :=
    pruneRows DocumentHistory.bytes maxRows maxBytes document.history document.historyBytes
  { document with
    history, historyBytes
    compactedRevision := match history with
      | [] => document.snapshot.currentRevision
      | oldest :: _ => oldest.baseVersion }

/-- `documentState.addHistory`. -/
def Document.addHistory (document : Document) (accepted : DocumentHistory) : Document :=
  { document with
    history := document.history ++ [accepted]
    historyBytes := document.historyBytes + accepted.bytes }

/-- `operationRecordLimit`. -/
def operationRecordLimit (options : HubOptions) : Int :=
  let maxRecords := options.maxHistoryRows * 2
  if maxRecords < 32 then 32 else maxRecords

namespace Room

/-- The loop of `pruneOperationRecords`. -/
def pruneRecords (maxRecords : Int) :
    List String → Keyed LedgerRecord → List String × Keyed LedgerRecord
  | [], operations => ([], operations)
  | id :: order, operations =>
      if ((id :: order).length : Int) > maxRecords then
        pruneRecords maxRecords order (operations.erase id)
      else (id :: order, operations)

/-- `pruneOperationRecords`. -/
def pruneOperationRecords (room : Room) : Room :=
  let (operationOrder, operations) :=
    pruneRecords (operationRecordLimit room.options) room.operationOrder room.operations
  { room with operationOrder, operations }

/-- `pruneMetadataHistory`. -/
def pruneMetadataHistory (room : Room) : Room :=
  let (entries, metadataHistoryBytes) :=
    pruneRows Prod.snd room.options.maxHistoryRows room.options.maxHistoryBytes
      (room.metadataHistory.zip room.metadataHistorySizes) room.metadataHistoryBytes
  let metadataHistory := entries.map Prod.fst
  { room with
    metadataHistory
    metadataHistorySizes := entries.map Prod.snd
    metadataHistoryBytes
    metadataCompactedRevision := match metadataHistory with
      | [] => room.snapshot.metadataRevision
      | oldest :: _ => oldest.revision - 1 }

/-- Enter an accepted operation into the ledger. -/
def recordOperation (room : Room) (operationID : String) (record : LedgerRecord) : Room :=
  { room with
    operations := room.operations.insert operationID record
    operationOrder := room.operationOrder ++ [operationID] }

/-- `recordDocumentOperation`. -/
def recordDocumentOperation (room : Room) (fingerprint : String)
    (accepted : AcceptedDocumentOperation) (beforeLength payloadBytes : Int) : Room :=
  let room := room.recordOperation accepted.operationID ⟨fingerprint, .document accepted⟩
  let entry : DocumentHistory := {
    operationID := accepted.operationID, clientID := accepted.clientID
    revision := accepted.revision, baseVersion := accepted.revision - 1
    beforeLen := beforeLength, bytes := payloadBytes, changes := accepted.changes }
  let room := match room.documents.lookup accepted.documentID with
    | none => room
    | some document =>
        { room with
          documents := room.documents.insert accepted.documentID
            ((document.addHistory entry).pruneHistory room.options.maxHistoryRows
              room.options.maxHistoryBytes) }
  room.pruneOperationRecords

/-- `recordMetadataOperation`. -/
def recordMetadataOperation (room : Room) (fingerprint : String)
    (accepted : AcceptedMetadataOperation) (payloadBytes : Int) : Room :=
  let room := room.recordOperation accepted.operationID ⟨fingerprint, .metadata accepted⟩
  let room := { room with
    metadataHistory := room.metadataHistory ++ [accepted]
    metadataHistorySizes := room.metadataHistorySizes ++ [payloadBytes]
    metadataHistoryBytes := room.metadataHistoryBytes + payloadBytes }
  room.pruneMetadataHistory.pruneOperationRecords

end Room

end Oxbin.Live
