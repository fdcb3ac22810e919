import Oxbin.Live.Authority

/-!
# Loading a room

`newRoom` rebuilds a room from its stored snapshot: it replays the changes that the snapshot does
not contain, repairs the stored snapshot, and reloads the operation ledger.
-/

namespace Oxbin.Live

open Livecollab Storage

/-- `beforeExpiry`. -/
def beforeExpiry (expiresAt : Time) : Time := unixTime (unix expiresAt - 1)

/-- Which of the store calls of `newRoom` fail. -/
structure LoadFaults where
  replay : Bool
  save : Bool
  ledger : Bool
  deriving DecidableEq, Repr

/-- No store call fails. -/
def LoadFaults.none : LoadFaults := ⟨false, false, false⟩

/-! ## Payloads -/

/-- A string field of an object; a missing field or `null` leaves it empty. -/
def stringField (name : String) (json : Json) : Except LiveError String :=
  match json.get? name with
  | .none | some .null => .ok ""
  | some (.str value) => .ok value
  | some _ => .error .decode

/-- The strings of an array; `null` leaves a string empty. -/
def stringsOf : List Json → Except LiveError (List String)
  | [] => .ok []
  | .str value :: values => (stringsOf values).map (value :: ·)
  | .null :: values => (stringsOf values).map ("" :: ·)
  | _ :: _ => .error .decode

/-- A field that holds a list of strings. -/
def stringsField (name : String) (json : Json) : Except LiveError (List String) :=
  match json.get? name with
  | .none | some .null => .ok []
  | some (.arr values) => stringsOf values
  | some _ => .error .decode

/-- The payload is an object, or `null`. -/
def isObject : Json → Bool
  | .obj _ | .null => true
  | _ => false

/-- Decode a `persistedDocumentChange` and its change set. -/
def decodeDocumentChange (payload : Json) : Except LiveError ChangeSet :=
  if isObject payload = false then .error .decode
  else
    match payload.get? "changes" with
    | none => .error (.collab (.invalidChangeSet .rootNotArray))
    | some changes => (parseChangeSetJSON changes).mapError LiveError.collab

/-- Decode a `persistedMetadataChange`. -/
def decodeMetadataChange (payload : Json) : Except LiveError PersistedMetadataChange := do
  require (isObject payload = true) .decode
  let kind ← stringField "kind" payload
  let documentID ← stringField "document_id" payload
  let name ← stringField "name" payload
  let language ← stringField "language" payload
  let content ← stringField "content" payload
  let order ← stringsField "order" payload
  .ok { kind, documentID, name, language, content, order }

namespace Room

/-! ## Replay -/

/-- `applyPersistedMetadata`. -/
def applyPersistedMetadata (room : Room) (change : ChangeRecord) : Except LiveError Room := do
  let persisted ← decodeMetadataChange change.payload
  let room ← match persisted.kind with
    | "document_create" =>
        if persisted.documentID ∈ room.documents then .ok room
        else if room.options.maxTabs ≤ (room.order.length : Int) then .error .roomLimit
        else
          let document : DocumentSnapshot := {
            id := persisted.documentID, name := persisted.name, language := persisted.language
            content := persisted.content, position := room.order.length, currentRevision := 0
            snapshotRevision := 0, updatedAt := change.createdAt }
          .ok { room with
            documents := room.documents.insert persisted.documentID ⟨document, [], 0, 0⟩
            order := room.order ++ [persisted.documentID] }
    | "document_update" =>
        match room.documents.lookup persisted.documentID with
        | none => .error .documentDeleted
        | some document =>
            .ok { room with
              documents := room.documents.insert persisted.documentID { document with
                snapshot := { document.snapshot with
                  name := persisted.name, language := persisted.language } } }
    | "document_delete" =>
        if persisted.documentID ∈ room.documents then
          .ok { room with
            documents := room.documents.erase persisted.documentID
            order := room.order.erase persisted.documentID }
        else .ok room
    | "document_reorder" =>
        match validateDocumentOrder persisted.order room.options.maxTabs with
        | .error error => .error error
        | .ok () => .ok { room with order := persisted.order }
    | _ => .error .operationConflict
  .ok { room with snapshot := { room.snapshot with metadataRevision := change.revision } }

/-- `applyPersistedDocument`. -/
def applyPersistedDocument (options : HubOptions) (document : Document) (change : ChangeRecord) :
    Except LiveError Document := do
  let changes ← decodeDocumentChange change.payload
  require (change.revision = document.snapshot.currentRevision + 1) (.collab .revisionConflict)
  match changes.apply document.snapshot.content with
  | .error error => .error (.collab error)
  | .ok content =>
      let entry : DocumentHistory := {
        operationID := "", clientID := "", revision := change.revision
        baseVersion := document.snapshot.currentRevision
        beforeLen := utf16Len document.snapshot.content, bytes := change.payload.size, changes }
      let document := { document.addHistory entry with
        snapshot := { document.snapshot with
          content, currentRevision := change.revision, updatedAt := change.createdAt } }
      .ok (document.pruneHistory options.maxHistoryRows options.maxHistoryBytes)

/-- The replay of one document. -/
def replayDocument (room : Room) (store : Store) (fault : Bool) (documentID : String) :
    Except LiveError Room :=
  match room.documents.lookup documentID with
  | none => .error (.collab .panic)
  | some document =>
      if document.snapshot.currentRevision ≤ document.snapshot.snapshotRevision then .ok room
      else do
        let changes ← Storage.Store.loadChangesSince store room.snapshot.slug .document documentID
          document.snapshot.snapshotRevision (beforeExpiry room.snapshot.expiresAt) fault
        let start := { document with
          snapshot := { document.snapshot with
            currentRevision := document.snapshot.snapshotRevision } }
        let replayed ← changes.foldlM (applyPersistedDocument room.options) start
        require (replayed.snapshot.currentRevision = document.snapshot.currentRevision)
          .persistence
        .ok { room with documents := room.documents.insert documentID replayed }

/-- `replay`. -/
def replay (room : Room) (store : Store) (fault : Bool) : Except LiveError Room := do
  let room ←
    if room.snapshot.metadataRevision > room.snapshot.metadataSnapshotRevision then do
      let changes ← Storage.Store.loadChangesSince store room.snapshot.slug .metadata
        metadataStreamID room.snapshot.metadataSnapshotRevision
        (beforeExpiry room.snapshot.expiresAt) fault
      changes.foldlM applyPersistedMetadata room
    else .ok room
  let room ← room.order.foldlM (fun room documentID => room.replayDocument store fault documentID)
    room
  .ok room.syncSnapshot

/-! ## The ledger -/

/-- `operationRecordFromDurable`. -/
def operationRecordFromDurable (room : Room) (operation : OperationRecord) :
    Except LiveError LedgerRecord := do
  require (ensureOperationIDs operation.operationID operation.clientID = .ok () ∧
    byteLen operation.fingerprint = 64 ∧ 0 < operation.revision ∧ 0 ≤ operation.baseRevision)
    .persistence
  match operation.streamKind with
  | .document => do
      require (operation.operationKind = "push_changes" ∧
        validateDocumentID operation.streamID = .ok ()) .persistence
      let changes ← decodeDocumentChange operation.resultPayload
      let document := match room.documents.lookup operation.streamID with
        | some document =>
            if document.snapshot.currentRevision = operation.revision then
              document.snapshot.content
            else ""
        | none => ""
      .ok ⟨operation.fingerprint, .document {
        operationID := operation.operationID, clientID := operation.clientID
        documentID := operation.streamID, baseVersion := operation.baseRevision
        revision := operation.revision, changes, document, duplicate := false }⟩
  | .metadata => do
      require (operation.streamID = metadataStreamID) .persistence
      let persisted ← decodeMetadataChange operation.resultPayload
      require (persisted.kind = operation.operationKind) .persistence
      .ok ⟨operation.fingerprint, .metadata {
        operationID := operation.operationID, clientID := operation.clientID
        kind := persisted.kind, documentID := persisted.documentID
        revision := operation.revision, name := persisted.name, language := persisted.language
        content := persisted.content, order := persisted.order, state := room.state
        duplicate := false }⟩

/-- One step of `loadOperations`. -/
def loadOperation (room : Room) (operation : OperationRecord) : Except LiveError Room := do
  let record ← room.operationRecordFromDurable operation
  require (operation.operationID ∉ room.operations) .persistence
  .ok (room.recordOperation operation.operationID record)

/-- `loadOperations`. -/
def loadOperations (room : Room) (store : Store) (fault : Bool) : Except LiveError Room := do
  let operations ← Storage.Store.loadRecentOperations store room.snapshot.slug
    (operationRecordLimit room.options) (beforeExpiry room.snapshot.expiresAt) fault
  operations.foldlM loadOperation room

/-! ## Construction -/

/-- The document loop of `newRoom`. -/
def addDocuments (options : HubOptions) :
    List DocumentSnapshot → Keyed Document → Except LiveError (Keyed Document)
  | [], documents => .ok documents
  | document :: rest, documents => do
      require (document.id ∉ documents ∧ validateDocumentID document.id = .ok () ∧
        validateTabName document.name = .ok () ∧ validateLanguageID document.language = .ok () ∧
        validateDocumentContent document.content options.maxBytes = .ok ()) .invalidSnapshot
      addDocuments options rest
        (documents.insert document.id ⟨document, [], 0, document.snapshotRevision⟩)

/-- The snapshot trails the current revisions. -/
def Trailing (snapshot : RoomSnapshot) : Prop :=
  snapshot.metadataSnapshotRevision < snapshot.metadataRevision ∨
    ∃ document ∈ snapshot.documents, document.snapshotRevision < document.currentRevision

instance (snapshot : RoomSnapshot) : Decidable (Trailing snapshot) :=
  inferInstanceAs (Decidable (_ ∨ _))

/-- A room with the documents of a snapshot, before replay. -/
def ofSnapshot (options : HubOptions) (snapshot : RoomSnapshot) (documents : Keyed Document) :
    Room where
  options := options
  snapshot := snapshot
  documents := documents
  order := snapshot.documents.map DocumentSnapshot.id
  participants := ∅
  sessions := ∅
  names := ∅
  watchOnly := snapshot.locked
  operations := ∅
  operationOrder := []
  metadataHistory := []
  metadataHistorySizes := []
  metadataHistoryBytes := 0
  metadataCompactedRevision := snapshot.metadataSnapshotRevision
  dirty := false
  closed := false

/-- `newRoom`. -/
def newRoom (store : Store) (snapshot : RoomSnapshot) (options : HubOptions)
    (faults : LoadFaults) : Store × Except LiveError Room :=
  let loaded : Except LiveError Room := do
    require (snapshot.slug ≠ "" ∧ snapshot.documents ≠ [] ∧ snapshot.expiresAt ≠ zeroTime ∧
      snapshot.expiresAt > snapshot.createdAt) .invalidSnapshot
    let documents ← addDocuments options snapshot.documents ∅
    require (snapshot.contentSize ≤ options.maxBytes) .roomLimit
    (ofSnapshot options snapshot documents).replay store faults.replay
  match loaded with
  | .error error => (store, .error error)
  | .ok room =>
      if Trailing snapshot then
        let (room, durable) := room.durableSnapshot
        match Storage.Store.saveSnapshot store durable (beforeExpiry snapshot.expiresAt)
            faults.save with
        | .error error => (store, .error error)
        | .ok store =>
            (store, Room.loadOperations { room with snapshot := durable }.markDocumentsDurable
              store faults.ledger)
      else (store, room.loadOperations store faults.ledger)

end Room

end Oxbin.Live
