import Oxbin.Storage.LiveStore

/-!
# Operations on the shared state of a room

`submitDocument`, `applyMetadata` and the two mode changes of `internal/live/hub.go`.  A room is
taken together with the store that it commits to; an operation returns both and a result.  The
argument `fault` says whether the database fails.
-/

namespace Oxbin.Live

open Livecollab Storage

/-- A room and its store. -/
structure Authority where
  room : Room
  store : Store

/-- The program's `if err := room.store...; err != nil` branches take place after a step that may
have changed the room: an operation returns the authority together with its result. -/
abbrev Outcome (α : Type) : Type := Authority × Except LiveError α

/-! ## Connections -/

namespace Room

/-- `ensureActiveLocked`. -/
def ensureActive (room : Room) (now : Time) : Room × Except LiveError Unit :=
  if room.closed = true ∨ unix room.snapshot.expiresAt ≤ unix now then
    ({ room with closed := true }, .error .roomExpired)
  else (room, .ok ())

/-- Change a connection of a participant and refresh the participant. -/
def updateConnection (room : Room) (participantID : String) (participant : Participant)
    (connection : Connection) : Room :=
  room.refreshParticipant participantID { participant with
    connections := participant.connections.insert connection.id connection }

/-- `ensureConnectionLocked`: the participant and the connection of a live session. -/
def ensureConnection (room : Room) (participantID connectionID : String) (generation : Nat)
    (now : Time) : Room × Except LiveError Unit :=
  match room.ensureActive now with
  | (room, .error error) => (room, .error error)
  | (room, .ok ()) =>
      match room.participants.lookup participantID with
      | none => (room, .error .participantNotFound)
      | some participant =>
          match participant.connections.lookup connectionID with
          | none => (room, .error .participantInactive)
          | some connection =>
              if connection.generation ≠ generation then (room, .error .participantInactive)
              else (room.updateConnection participantID participant
                { connection with lastSeenAt := now }, .ok ())

/-- `markConnectionActivityLocked`. -/
def markConnectionActivity (room : Room) (participantID connectionID : String) (now : Time) :
    Room :=
  match room.participants.lookup participantID with
  | none => room
  | some participant =>
      match participant.connections.lookup connectionID with
      | none => room
      | some connection =>
          room.updateConnection participantID participant
            { connection with lastSeenAt := now, lastActivityAt := now }

/-- The advertised permission of a participant. -/
def canEdit (room : Room) (participantID : String) : Bool :=
  match room.participants.lookup participantID with
  | none => false
  | some participant => participant.snapshot.canEdit

/-- `ensureOperationIDs`. -/
def ensureOperationIDs (operationID clientID : String) : Except LiveError Unit :=
  require (operationID ≠ "" ∧ byteLen operationID ≤ 128 ∧ clientID ≠ "" ∧ byteLen clientID ≤ 128)
    .operationConflict

/-- `restoreLocked`. -/
def restore (room backup : Room) : Room :=
  { room with
    snapshot := backup.snapshot
    order := backup.order
    documents := backup.documents }

end Room

/-! ## Fingerprints and payloads -/

/-- The JSON of a slice; `nil` and the empty slice of the parser are `null`. -/
def jsonSlice (values : List Json) : Json := if values.isEmpty then .null else .arr values

/-- The JSON of a `DocumentOperation`. -/
def documentOperationJson (operation : DocumentOperation) : Json :=
  .obj [("OperationID", .str operation.operationID), ("ClientID", .str operation.clientID),
    ("DocumentID", .str operation.documentID), ("BaseVersion", .num operation.baseVersion),
    ("Changes", .obj [("Sections", jsonSlice <| operation.changes.sections.map fun sect =>
      .obj [("OldLen", .num sect.oldLen), ("NewLen", .num sect.newLen),
        ("Insert", .str sect.insert)])])]

/-- The JSON of a `MetadataOperation`. -/
def metadataOperationJson (operation : MetadataOperation) : Json :=
  .obj [("OperationID", .str operation.operationID), ("ClientID", .str operation.clientID),
    ("BaseVersion", .num operation.baseVersion), ("Kind", .str operation.kind),
    ("DocumentID", .str operation.documentID), ("Name", .str operation.name),
    ("Language", .str operation.language), ("Content", .str operation.content),
    ("Order", jsonSlice (operation.order.map .str))]

/-- `encodeDocumentChange`: the payload of a `persistedDocumentChange`. -/
def encodeDocumentChange (changes : ChangeSet) : Json :=
  .obj [("changes", encodeChangeSet changes)]

/-- `persistedMetadataChange`. -/
structure PersistedMetadataChange where
  kind : String
  documentID : String
  name : String
  language : String
  content : String
  order : List String
  deriving DecidableEq, Repr

/-- The payload of a `persistedMetadataChange`; all fields but the kind are `omitempty`. -/
def PersistedMetadataChange.payload (persisted : PersistedMetadataChange) : Json :=
  let field (name value : String) : List (String × Json) :=
    if value = "" then [] else [(name, .str value)]
  .obj <| ("kind", .str persisted.kind) :: field "document_id" persisted.documentID ++
    field "name" persisted.name ++ field "language" persisted.language ++
    field "content" persisted.content ++
    if persisted.order = [] then [] else [("order", .arr (persisted.order.map .str))]

/-! ## Committing an accepted operation -/

/-- The stream record of an accepted operation. -/
def OperationResult.streamKind : OperationResult → StreamKind
  | .document _ => .document
  | .metadata _ => .metadata

namespace Room

/-- The revision through which the stored history is dropped, or zero. -/
def compactThrough (room : Room) (result : OperationResult) (payloadBytes : Int) : Int :=
  match result with
  | .document accepted =>
      match room.documents.lookup accepted.documentID with
      | none => 0
      | some document =>
          if document.history.length + 1 > room.options.maxHistoryRows ∨
              document.historyBytes + payloadBytes > room.options.maxHistoryBytes then
            accepted.revision
          else 0
  | .metadata accepted =>
      if room.metadataHistory.length + 1 > room.options.maxHistoryRows ∨
          room.metadataHistoryBytes + payloadBytes > room.options.maxHistoryBytes then
        accepted.revision
      else 0

/-- The durable operation of a commit. -/
def operationRecord (change : ChangeRecord) (fingerprint : String) (result : OperationResult)
    (backup : Room) : OperationRecord :=
  let (operationID, clientID, baseRevision) := match result with
    | .document accepted => (accepted.operationID, accepted.clientID, accepted.baseVersion)
    | .metadata accepted =>
        (accepted.operationID, accepted.clientID, backup.snapshot.metadataRevision)
  { operationID, clientID, fingerprint, streamKind := change.streamKind
    streamID := change.streamID, baseRevision, revision := change.revision
    operationKind := change.kind, resultPayload := change.payload, createdAt := change.createdAt }

/-- What `appendAndSave` records in memory once the commit has succeeded. -/
def recordCommitted (room : Room) (durable : RoomSnapshot) (fingerprint : String)
    (result : OperationResult) (beforeLength payloadBytes compactThrough : Int) : Room :=
  let room := { room with snapshot := durable }.markDocumentsDurable
  let room := match result with
    | .document accepted =>
        let room := room.recordDocumentOperation fingerprint accepted beforeLength payloadBytes
        if 0 < compactThrough then
          match room.documents.lookup accepted.documentID with
          | none => room
          | some document =>
              { room with
                documents := room.documents.insert accepted.documentID { document with
                  history := [], historyBytes := 0, compactedRevision := compactThrough } }
        else room
    | .metadata accepted =>
        let room := room.recordMetadataOperation fingerprint accepted payloadBytes
        if 0 < compactThrough then
          { room with
            metadataHistory := [], metadataHistorySizes := [], metadataHistoryBytes := 0
            metadataCompactedRevision := compactThrough }
        else room
  { room with dirty := false }

/-- `appendAndSave`. -/
def appendAndSave (room : Room) (store : Store) (change : ChangeRecord) (fingerprint : String)
    (result : OperationResult) (backup : Room) (beforeLength : Int) (now : Time) (fault : Bool) :
    Outcome Unit :=
  let payloadBytes := change.payload.size
  let compactThrough := room.compactThrough result payloadBytes
  let (room, durable) := room.durableSnapshot
  let commit : ChangeCommit := {
    snapshot := durable, change
    operation := operationRecord change fingerprint result backup
    compactThrough, retainOperations := operationRecordLimit room.options }
  match Storage.Store.commitChange store commit now fault with
  | .error _ => (⟨room.restore backup, store⟩, .error .persistence)
  | .ok store =>
      (⟨room.recordCommitted durable fingerprint result beforeLength payloadBytes compactThrough,
        store⟩, .ok ())

/-! ## Document operations -/

/-- The change set of an operation, mapped over the accepted changes newer than its base. -/
def rebase (baseVersion : Int) : List DocumentHistory → ChangeSet → Except CollabError ChangeSet
  | [], changes => .ok changes
  | accepted :: history, changes =>
      if accepted.revision > baseVersion then
        match changes.map accepted.changes false with
        | .error error => .error error
        | .ok changes => rebase baseVersion history changes
      else rebase baseVersion history changes

/-- The admission checks of `submitDocument` for an operation that is not in the ledger: the
document, the rebased change set and the new content. -/
def admitDocument (room : Room) (operation : DocumentOperation) :
    Except LiveError (Document × ChangeSet × String) := do
  require (validateDocumentID operation.documentID = .ok ()) .documentNotFound
  match room.documents.lookup operation.documentID with
  | none => .error .documentNotFound
  | some document =>
      require (document.compactedRevision ≤ operation.baseVersion)
        (.documentResync room.state operation.documentID)
      require (operation.baseVersion ≤ document.snapshot.currentRevision)
        (.collab .revisionConflict)
      match document.lengthAt operation.baseVersion with
      | none => .error (.documentResync room.state operation.documentID)
      | some baseLength =>
          require (operation.changes.validateInsertedBytes room.options.maxMessageBytes = .ok ())
            .operationLimit
          require ((encodeChangeSet operation.changes).size ≤ room.options.maxMessageBytes)
            .operationLimit
          require (operation.changes.oldLen = baseLength) (.collab .revisionConflict)
          match operation.changes.validateForLength baseLength with
          | .error error => .error (.collab error)
          | .ok () =>
              match rebase operation.baseVersion document.history operation.changes with
              | .error _ => .error (.collab .revisionConflict)
              | .ok changes =>
                  match changes.apply document.snapshot.content with
                  | .error error => .error (.collab error)
                  | .ok content =>
                      require (room.contentSizeWith operation.documentID content ≤
                        room.options.maxBytes) .roomLimit
                      .ok (document, changes, content)

/-- The room with the new content of a document, before it is committed. -/
def editDocument (room : Room) (documentID : String) (document : Document) (content : String)
    (revision : Int) (now : Time) : Room :=
  Room.syncSnapshot { room with
    documents := room.documents.insert documentID { document with
      snapshot := { document.snapshot with
        content, currentRevision := revision, updatedAt := now } } }

/-- The part of `submitDocument` after its admission checks. -/
def commitDocument (room : Room) (store : Store) (operation : DocumentOperation)
    (fingerprint : String) (document : Document) (changes : ChangeSet) (content : String)
    (now : Time) (fault : Bool) : Outcome AcceptedDocumentOperation :=
  let accepted : AcceptedDocumentOperation := {
    operationID := operation.operationID, clientID := operation.clientID
    documentID := operation.documentID, baseVersion := operation.baseVersion
    revision := document.snapshot.currentRevision + 1, changes, document := content
    duplicate := false }
  let edited := room.editDocument operation.documentID document content accepted.revision now
  let payload := encodeDocumentChange changes
  if payload.size > room.options.maxMessageBytes then
    (⟨edited.restore room, store⟩, .error .operationLimit)
  else
    let change : ChangeRecord := {
      streamKind := .document, streamID := operation.documentID, revision := accepted.revision
      kind := "push_changes", payload, createdAt := now }
    match edited.appendAndSave store change fingerprint (.document accepted) room
        (utf16Len document.snapshot.content) now fault with
    | (authority, .error error) => (authority, .error error)
    | (authority, .ok ()) => (authority, .ok accepted)

/-- `submitDocument` for a live connection with permission to edit. -/
def acceptDocument [Host] (room : Room) (store : Store) (operation : DocumentOperation)
    (now : Time) (fault : Bool) : Outcome AcceptedDocumentOperation :=
  match ensureOperationIDs operation.operationID operation.clientID with
  | .error error => (⟨room, store⟩, .error error)
  | .ok () =>
      let fingerprint := Host.fingerprint (documentOperationJson operation)
      match room.operations.lookup operation.operationID with
      | some record =>
          match record.result with
          | .document accepted =>
              if record.fingerprint ≠ fingerprint then
                (⟨room, store⟩, .error (.collab .duplicateOperation))
              else (⟨room, store⟩, .ok { accepted with duplicate := true })
          | .metadata _ => (⟨room, store⟩, .error (.collab .duplicateOperation))
      | none =>
          match room.admitDocument operation with
          | .error error => (⟨room, store⟩, .error error)
          | .ok (document, changes, content) =>
              room.commitDocument store operation fingerprint document changes content now fault

/-- `submitDocument`. -/
def submitDocument [Host] (room : Room) (store : Store) (participantID connectionID : String)
    (generation : Nat) (operation : DocumentOperation) (now : Time) (fault : Bool) :
    Outcome AcceptedDocumentOperation :=
  match room.ensureConnection participantID connectionID generation now with
  | (room, .error error) => (⟨room, store⟩, .error error)
  | (room, .ok ()) =>
      let room := room.markConnectionActivity participantID connectionID now
      if room.canEdit participantID = false then (⟨room, store⟩, .error .watchOnly)
      else room.acceptDocument store operation now fault

/-! ## Metadata operations -/

/-- `uniqueGeneratedID` for documents; `generator` returns the ID of each attempt. -/
def newDocumentID (room : Room) (generator : Nat → Option String) :
    Nat → Nat → Except LiveError String
  | 0, _ => .error .operationLimit
  | attempts + 1, index =>
      match generator index with
      | none => .error .database
      | some id =>
          if validateDocumentID id = .ok () ∧ id ∉ room.documents then .ok id
          else newDocumentID room generator attempts (index + 1)

/-- The presence changes of a document deletion for one connection. -/
def leaveDocument (documentID fallbackTab : String) (connection : Connection) : Connection :=
  { connection with
    currentTab := if connection.currentTab = documentID then fallbackTab else connection.currentTab
    cursor := match connection.cursor with
      | some cursor => if cursor.documentID = documentID then none else some cursor
      | none => none }

/-- Move every connection away from a deleted document. -/
def leaveDocumentAll (room : Room) (documentID fallbackTab : String) : Room :=
  { room with
    participants := Keyed.mapValues (fun participant => Participant.refresh
      { participant with
        connections := Keyed.mapValues (leaveDocument documentID fallbackTab)
          participant.connections } room.watchOnly) room.participants }

/-- The fields that the `switch` of `applyMetadata` fills in. -/
structure MetadataEffect where
  room : Room
  documentID : String
  name : String
  language : String
  content : String
  order : List String

/-- The `switch` of `applyMetadata`. -/
def metadataEffect (room : Room) (operation : MetadataOperation) (generator : Nat → Option String)
    (now : Time) : Except LiveError MetadataEffect :=
  match operation.kind with
  | "document_create" => do
      require ((room.order.length : Int) < room.options.maxTabs) .roomLimit
      validateTabName operation.name
      validateLanguageID operation.language
      require (validateDocumentContent operation.content room.options.maxMessageBytes = .ok ())
        .operationLimit
      require (room.contentSizeWith "" operation.content ≤ room.options.maxBytes) .roomLimit
      let documentID ← room.newDocumentID generator 8 0
      let document : DocumentSnapshot := {
        id := documentID, name := operation.name, language := operation.language
        content := operation.content, position := room.order.length, currentRevision := 0
        snapshotRevision := 0, updatedAt := now }
      .ok {
        room := { room with
          documents := room.documents.insert documentID ⟨document, [], 0, 0⟩
          order := room.order ++ [documentID] }
        documentID, name := operation.name, language := operation.language
        content := operation.content, order := [] }
  | "document_update" =>
      match room.documents.lookup operation.documentID with
      | none => .error .documentDeleted
      | some document => do
          validateTabName operation.name
          validateLanguageID operation.language
          .ok {
            room := { room with
              documents := room.documents.insert operation.documentID { document with
                snapshot := { document.snapshot with
                  name := operation.name, language := operation.language, updatedAt := now } } }
            documentID := operation.documentID, name := operation.name
            language := operation.language, content := "", order := [] }
  | "document_delete" => do
      require (room.order.length ≠ 1) .lastDocument
      require (operation.documentID ∈ room.documents) .documentDeleted
      let order := room.order.erase operation.documentID
      let deleted := { room with documents := room.documents.erase operation.documentID, order }
      .ok {
        room := deleted.leaveDocumentAll operation.documentID (order.headD "")
        documentID := operation.documentID, name := "", language := "", content := "", order := [] }
  | "document_reorder" => do
      require (validateDocumentOrder operation.order room.options.maxTabs = .ok () ∧
        operation.order.length = room.order.length) (.metadataResync room.state)
      require (∀ id ∈ operation.order, id ∈ room.documents ∧ id ≠ "") (.metadataResync room.state)
      .ok {
        room := { room with order := operation.order }
        documentID := "", name := "", language := "", content := "", order := operation.order }
  | _ => .error .operationConflict

/-- The checks of `applyMetadata` before its `switch`, for an operation not in the ledger. -/
def admitMetadata (room : Room) (operation : MetadataOperation) : Except LiveError Unit := do
  require (0 ≤ operation.baseVersion ∧ operation.baseVersion ≤ room.snapshot.metadataRevision)
    (.collab .revisionConflict)
  require (operation.kind = "document_reorder" →
    operation.baseVersion = room.snapshot.metadataRevision) (.metadataResync room.state)
  require (validateRoomOperation operation.kind = .ok () ∧
    operation.kind ∉ ["push_changes", "join", "presence", "participant_rename", "ack"])
    .operationConflict

/-- The part of `applyMetadata` after its `switch`. -/
def commitMetadata (room : Room) (store : Store) (operation : MetadataOperation)
    (fingerprint : String) (effect : MetadataEffect) (now : Time) (fault : Bool) :
    Outcome AcceptedMetadataOperation :=
  let revision := room.snapshot.metadataRevision + 1
  let changed := Room.syncSnapshot { effect.room with
    snapshot := { effect.room.snapshot with metadataRevision := revision } }
  let persisted : PersistedMetadataChange := {
    kind := operation.kind, documentID := effect.documentID, name := effect.name
    language := effect.language, content := effect.content, order := effect.order }
  if persisted.payload.size > room.options.maxMessageBytes then
    (⟨changed.restore room, store⟩, .error .operationLimit)
  else
    let accepted : AcceptedMetadataOperation := {
      operationID := operation.operationID, clientID := operation.clientID
      kind := operation.kind, documentID := effect.documentID, revision
      name := effect.name, language := effect.language, content := effect.content
      order := effect.order, state := changed.state, duplicate := false }
    let change : ChangeRecord := {
      streamKind := .metadata, streamID := metadataStreamID, revision, kind := operation.kind
      payload := persisted.payload, createdAt := now }
    match changed.appendAndSave store change fingerprint (.metadata accepted) room 0 now fault with
    | (authority, .error error) => (authority, .error error)
    | (authority, .ok ()) => (authority, .ok { accepted with state := authority.room.state })

/-- `applyMetadata` for a live connection with permission to edit. -/
def acceptMetadata [Host] (room : Room) (store : Store) (operation : MetadataOperation)
    (generator : Nat → Option String) (now : Time) (fault : Bool) :
    Outcome AcceptedMetadataOperation :=
  match ensureOperationIDs operation.operationID operation.clientID with
  | .error error => (⟨room, store⟩, .error error)
  | .ok () =>
      let fingerprint := Host.fingerprint (metadataOperationJson operation)
      match room.operations.lookup operation.operationID with
      | some record =>
          match record.result with
          | .metadata accepted =>
              if record.fingerprint ≠ fingerprint then
                (⟨room, store⟩, .error (.collab .duplicateOperation))
              else (⟨room, store⟩, .ok { accepted with duplicate := true })
          | .document _ => (⟨room, store⟩, .error (.collab .duplicateOperation))
      | none =>
          match room.admitMetadata operation with
          | .error error => (⟨room, store⟩, .error error)
          | .ok () =>
              match room.metadataEffect operation generator now with
              | .error error => (⟨room, store⟩, .error error)
              | .ok effect => room.commitMetadata store operation fingerprint effect now fault

/-- `applyMetadata`. -/
def applyMetadata [Host] (room : Room) (store : Store) (participantID connectionID : String)
    (generation : Nat) (operation : MetadataOperation) (generator : Nat → Option String)
    (now : Time) (fault : Bool) : Outcome AcceptedMetadataOperation :=
  match room.ensureConnection participantID connectionID generation now with
  | (room, .error error) => (⟨room, store⟩, .error error)
  | (room, .ok ()) =>
      let room := room.markConnectionActivity participantID connectionID now
      if room.canEdit participantID = false then (⟨room, store⟩, .error .watchOnly)
      else room.acceptMetadata store operation generator now fault

/-! ## Modes of the room -/

/-- `setWatchOnly`. -/
def setWatchOnly (room : Room) (store : Store) (participantID connectionID : String)
    (generation : Nat) (creator enabled : Bool) (now : Time) (fault : Bool) : Outcome RoomState :=
  match room.ensureConnection participantID connectionID generation now with
  | (room, .error error) => (⟨room, store⟩, .error error)
  | (room, .ok ()) =>
      let room := room.markConnectionActivity participantID connectionID now
      if creator = false then (⟨room, store⟩, .error .creatorRequired)
      else if room.watchOnly = enabled then (⟨room, store⟩, .ok room.state)
      else
        match Storage.Store.setRoomLocked store room.snapshot.slug enabled now fault with
        | .error _ => (⟨room, store⟩, .error .persistence)
        | .ok store =>
            let room := { room with
              watchOnly := enabled
              snapshot := { room.snapshot with locked := enabled }
              participants := Keyed.mapValues (fun participant => participant.refresh enabled)
                room.participants }
            (⟨room, store⟩, .ok room.state)

/-- `SetLayoutPreset`. -/
def setLayoutPreset (room : Room) (store : Store) (participantID connectionID : String)
    (generation : Nat) (creator : Bool) (preset : String) (now : Time) (fault : Bool) :
    Outcome RoomState :=
  match room.ensureConnection participantID connectionID generation now with
  | (room, .error error) => (⟨room, store⟩, .error error)
  | (room, .ok ()) =>
      if creator = false then (⟨room, store⟩, .error .creatorRequired)
      else if validLayoutPreset preset = false then (⟨room, store⟩, .error .invalidLayoutPreset)
      else
        let room := room.markConnectionActivity participantID connectionID now
        if room.snapshot.layoutPreset = preset then (⟨room, store⟩, .ok room.state)
        else
          match Storage.Store.setRoomLayoutPreset store room.snapshot.slug preset now fault with
          | .error _ => (⟨room, store⟩, .error .persistence)
          | .ok store =>
              let room := { room with
                snapshot := { room.snapshot with layoutPreset := preset } }
              (⟨room, store⟩, .ok room.state)

end Room

end Oxbin.Live
