import Oxbin.Live.Room

/-!
# The durable live rooms

The tables of `db/migrations` and the transactions of `internal/storage/sqlite/live.go`.  The rows
of one room are kept together, operations in the order of their sequence numbers.  Every
transaction either succeeds or leaves the store as it was; `fault` says that the database failed.
-/

namespace Oxbin.Storage

open Live

/-- A row of `live_rooms`. -/
structure RoomRow where
  slug : String
  passwordHash : String
  creatorTokenHash : List UInt8
  locked : Bool
  layoutPreset : String
  contentSize : Int
  metadataRevision : Int
  metadataSnapshotRevision : Int
  expiresAt : Int
  createdAt : Int
  deriving DecidableEq, Repr

/-- A row of `live_documents`. -/
structure DocumentRow where
  documentID : String
  name : String
  language : String
  content : String
  position : Int
  currentRevision : Int
  snapshotRevision : Int
  updatedAt : Int
  deriving DecidableEq, Repr

/-- A row of `live_changes`. -/
structure ChangeRow where
  streamKind : StreamKind
  streamID : String
  revision : Int
  kind : String
  payload : Json
  createdAt : Int

/-- A row of `live_operations`. -/
structure OperationRow where
  operationID : String
  clientID : String
  fingerprint : String
  streamKind : StreamKind
  streamID : String
  baseRevision : Int
  revision : Int
  operationKind : String
  resultPayload : Json
  createdAt : Int

/-- The rows of one room in the four tables. -/
structure Tables where
  room : RoomRow
  documents : List DocumentRow
  changes : List ChangeRow
  operations : List OperationRow

/-- The rooms of the database. -/
abbrev Store := Keyed Tables

/-! ## Preparation -/

/-- `validateStream`. -/
def validateStream (streamKind : StreamKind) (streamID : String) : Except LiveError Unit :=
  match streamKind with
  | .metadata => require (streamID = metadataStreamID) .invalidChange
  | .document => require (validateDocumentID streamID = .ok ()) .invalidChange

/-- The largest `int64`. -/
def maxInt64 : Int := 2 ^ 63 - 1

/-- The document loop of `prepareRoomSnapshot`: position and IDs so far, and the content size. -/
def prepareDocuments (createdAt : Time) :
    Int → List String → Int → List DocumentSnapshot →
      Except LiveError (List DocumentSnapshot × Int)
  | _, _, contentSize, [] => .ok ([], contentSize)
  | index, seen, contentSize, document :: documents => do
      require (document.position = index ∧ 0 ≤ document.currentRevision ∧
        0 ≤ document.snapshotRevision ∧ document.snapshotRevision ≤ document.currentRevision)
        .invalidSnapshot
      require (validateDocumentID document.id = .ok () ∧ validateTabName document.name = .ok () ∧
        validateLanguageID document.language = .ok () ∧
        validateDocumentContent document.content maxInt64 = .ok ()) .invalidSnapshot
      require (document.id ∉ seen) .invalidSnapshot
      require (byteLen document.content ≤ maxInt64 - contentSize) .invalidSnapshot
      let updatedAt := if document.updatedAt = zeroTime then createdAt else document.updatedAt
      let (documents, contentSize) ← prepareDocuments createdAt (index + 1) (document.id :: seen)
        (contentSize + byteLen document.content) documents
      .ok ({ document with updatedAt } :: documents, contentSize)

/-- `prepareRoomSnapshot`. -/
def prepareRoomSnapshot (snapshot : RoomSnapshot) : Except LiveError RoomSnapshot := do
  let layoutPreset := if snapshot.layoutPreset = "" then "single" else snapshot.layoutPreset
  require (validLayoutPreset layoutPreset = true) .invalidSnapshot
  require (snapshot.slug ≠ "" ∧ Trimmed snapshot.slug) .invalidSnapshot
  require (0 ≤ snapshot.metadataRevision ∧ 0 ≤ snapshot.metadataSnapshotRevision ∧
    snapshot.metadataSnapshotRevision ≤ snapshot.metadataRevision) .invalidSnapshot
  require (snapshot.creatorTokenHash = [] ∨ snapshot.creatorTokenHash.length = 32) .invalidSnapshot
  require (snapshot.createdAt ≠ zeroTime ∧ snapshot.expiresAt ≠ zeroTime ∧
    snapshot.expiresAt > snapshot.createdAt) .invalidSnapshot
  require (snapshot.documents ≠ []) .invalidSnapshot
  let (documents, contentSize) ← prepareDocuments snapshot.createdAt 0 [] 0 snapshot.documents
  .ok { snapshot with layoutPreset, documents, contentSize }

/-- `prepareChange`. -/
def prepareChange (change : ChangeRecord) (now : Time) : Except LiveError ChangeRecord := do
  validateStream change.streamKind change.streamID
  require (0 < change.revision ∧ Trimmed change.kind ∧ change.kind ≠ "" ∧
    validateRoomOperation change.kind = .ok () ∧ change.payload.text ≠ []) .invalidChange
  .ok { change with createdAt := if change.createdAt = zeroTime then now else change.createdAt }

/-- `hex.DecodeString` succeeds. -/
def isHex (value : String) : Bool :=
  value.toList.length % 2 = 0 ∧ value.toList.all fun rune =>
    ('0' ≤ rune ∧ rune ≤ '9') ∨ ('a' ≤ rune ∧ rune ≤ 'f') ∨ ('A' ≤ rune ∧ rune ≤ 'F')

/-- `prepareOperation`. -/
def prepareOperation (operation : OperationRecord) (change : ChangeRecord) (now : Time) :
    Except LiveError OperationRecord := do
  require (operation.operationID ≠ "" ∧ Trimmed operation.operationID ∧
    byteLen operation.operationID ≤ 128) .invalidChange
  require (operation.clientID ≠ "" ∧ Trimmed operation.clientID ∧
    byteLen operation.clientID ≤ 128) .invalidChange
  require (byteLen operation.fingerprint = 64 ∧ 0 ≤ operation.baseRevision ∧
    operation.revision = change.revision ∧ operation.streamKind = change.streamKind ∧
    operation.streamID = change.streamID ∧ operation.operationKind = change.kind ∧
    operation.resultPayload.text = change.payload.text) .invalidChange
  require (isHex operation.fingerprint = true) .invalidChange
  .ok { operation with
    createdAt := if operation.createdAt = zeroTime then now else operation.createdAt }

/-! ## Rows -/

/-- The row of a document. -/
def documentRow (document : DocumentSnapshot) : DocumentRow where
  documentID := document.id
  name := document.name
  language := document.language
  content := document.content
  position := document.position
  currentRevision := document.currentRevision
  snapshotRevision := document.snapshotRevision
  updatedAt := unix document.updatedAt

/-- The document of a row. -/
def DocumentRow.snapshot (row : DocumentRow) : DocumentSnapshot where
  id := row.documentID
  name := row.name
  language := row.language
  content := row.content
  position := row.position
  currentRevision := row.currentRevision
  snapshotRevision := row.snapshotRevision
  updatedAt := unixTime row.updatedAt

/-- The row of a change. -/
def changeRow (change : ChangeRecord) : ChangeRow where
  streamKind := change.streamKind
  streamID := change.streamID
  revision := change.revision
  kind := change.kind
  payload := change.payload
  createdAt := unix change.createdAt

/-- The change of a row. -/
def ChangeRow.record (row : ChangeRow) : ChangeRecord where
  streamKind := row.streamKind
  streamID := row.streamID
  revision := row.revision
  kind := row.kind
  payload := row.payload
  createdAt := unixTime row.createdAt

/-- The row of an operation. -/
def operationRow (operation : OperationRecord) : OperationRow where
  operationID := operation.operationID
  clientID := operation.clientID
  fingerprint := operation.fingerprint
  streamKind := operation.streamKind
  streamID := operation.streamID
  baseRevision := operation.baseRevision
  revision := operation.revision
  operationKind := operation.operationKind
  resultPayload := operation.resultPayload
  createdAt := unix operation.createdAt

/-- The operation of a row. -/
def OperationRow.record (row : OperationRow) : OperationRecord where
  operationID := row.operationID
  clientID := row.clientID
  fingerprint := row.fingerprint
  streamKind := row.streamKind
  streamID := row.streamID
  baseRevision := row.baseRevision
  revision := row.revision
  operationKind := row.operationKind
  resultPayload := row.resultPayload
  createdAt := unixTime row.createdAt

/-- The change belongs to the stream. -/
def ChangeRow.inStream (streamKind : StreamKind) (streamID : String) (row : ChangeRow) : Bool :=
  row.streamKind = streamKind ∧ row.streamID = streamID

namespace Tables

/-- The rows of a room that has not expired. -/
def active (store : Store) (slug : String) (now : Time) : Except LiveError Tables :=
  match store.lookup slug with
  | some tables => if tables.room.expiresAt > unix now then .ok tables else .error .roomNotFound
  | none => .error .roomNotFound

/-- The row of a document. -/
def document? (tables : Tables) (documentID : String) : Option DocumentRow :=
  tables.documents.find? fun row => row.documentID == documentID

/-- `insertOperation`; a second row with the operation ID is a constraint error. -/
def insertOperation (tables : Tables) (operation : OperationRecord) : Except LiveError Tables :=
  if tables.operations.any fun row => row.operationID = operation.operationID then
    .error .database
  else .ok { tables with operations := tables.operations ++ [operationRow operation] }

/-- `insertChange`. -/
def insertChange (tables : Tables) (change : ChangeRecord) : Except LiveError Tables :=
  if tables.changes.any fun row =>
      row.inStream change.streamKind change.streamID && row.revision = change.revision then
    .error .revisionConflict
  else .ok { tables with changes := tables.changes ++ [changeRow change] }

/-- Update the row of one document. -/
def updateDocument (documents : List DocumentRow) (document : DocumentSnapshot) :
    List DocumentRow :=
  documents.map fun row => if row.documentID = document.id then documentRow document else row

/-- `syncDocuments`. -/
def syncDocuments (rows : List DocumentRow) (documents : List DocumentSnapshot) :
    List DocumentRow :=
  let existing := rows.map DocumentRow.documentID
  let written := documents.foldl (fun rows document =>
    if document.id ∈ existing then updateDocument rows document
    else rows ++ [documentRow document]) rows
  written.filter fun row => row.documentID ∈ documents.map DocumentSnapshot.id

/-- Delete the changes of a stream up to a revision. -/
def deleteChanges (tables : Tables) (streamKind : StreamKind) (streamID : String)
    (through : Int) : Tables :=
  { tables with
    changes := tables.changes.filter fun row =>
      !(row.inStream streamKind streamID && row.revision ≤ through) }

/-- Keep the newest operations. -/
def pruneOperations (tables : Tables) (retain : Int) : Tables :=
  { tables with
    operations := tables.operations.drop (tables.operations.length - retain.toNat) }

/-- The document branch of `CommitChange`. -/
def commitDocument (tables : Tables) (snapshot : RoomSnapshot) (change : ChangeRecord) :
    Except LiveError Tables := do
  match snapshot.documents.find? fun document => document.id == change.streamID with
  | none => .error .revisionConflict
  | some document =>
      require (document.currentRevision = change.revision ∧
        document.snapshotRevision = change.revision ∧
        tables.room.metadataRevision = snapshot.metadataRevision) .revisionConflict
      match tables.document? document.id with
      | none => .error .roomNotFound
      | some row =>
          require (row.currentRevision + 1 = change.revision) .revisionConflict
          let tables ← tables.insertChange change
          .ok { tables with
            room := { tables.room with contentSize := snapshot.contentSize }
            documents := updateDocument tables.documents document }

/-- The metadata branch of `CommitChange`. -/
def commitMetadata (tables : Tables) (snapshot : RoomSnapshot) (change : ChangeRecord) :
    Except LiveError Tables := do
  require (change.revision = snapshot.metadataRevision ∧
    snapshot.metadataSnapshotRevision = change.revision ∧
    tables.room.metadataRevision + 1 = change.revision) .revisionConflict
  let tables ← tables.insertChange change
  .ok { tables with
    room := { tables.room with
      contentSize := snapshot.contentSize
      metadataRevision := snapshot.metadataRevision
      metadataSnapshotRevision := snapshot.metadataSnapshotRevision }
    documents := syncDocuments tables.documents snapshot.documents }

end Tables

/-! ## Transactions -/

namespace Store

/-- `CreateRoom`; the table checks that the room expires in a later second than it is created. -/
def createRoom (store : Store) (snapshot : RoomSnapshot) (fault : Bool) :
    Except LiveError Store := do
  let snapshot ← prepareRoomSnapshot snapshot
  require (fault = false) .database
  require (unix snapshot.createdAt < unix snapshot.expiresAt) .database
  require (snapshot.slug ∉ store) .roomSlugCollision
  .ok (store.insert snapshot.slug {
    room := {
      slug := snapshot.slug, passwordHash := snapshot.passwordHash
      creatorTokenHash := snapshot.creatorTokenHash, locked := snapshot.locked
      layoutPreset := snapshot.layoutPreset, contentSize := snapshot.contentSize
      metadataRevision := snapshot.metadataRevision
      metadataSnapshotRevision := snapshot.metadataSnapshotRevision
      expiresAt := unix snapshot.expiresAt, createdAt := unix snapshot.createdAt }
    documents := snapshot.documents.map documentRow
    changes := []
    operations := [] })

/-- `getRoomSnapshot` on the rows of a room. -/
def snapshotOf (tables : Tables) : RoomSnapshot where
  slug := tables.room.slug
  passwordHash := tables.room.passwordHash
  creatorTokenHash := tables.room.creatorTokenHash
  locked := tables.room.locked
  layoutPreset := tables.room.layoutPreset
  contentSize := tables.room.contentSize
  metadataRevision := tables.room.metadataRevision
  metadataSnapshotRevision := tables.room.metadataSnapshotRevision
  expiresAt := unixTime tables.room.expiresAt
  createdAt := unixTime tables.room.createdAt
  documents := (tables.documents.insertionSort fun left right =>
    left.position ≤ right.position).map DocumentRow.snapshot

/-- `GetRoomSnapshot`. -/
def getRoomSnapshot (store : Store) (slug : String) (now : Time) (fault : Bool) :
    Except LiveError RoomSnapshot := do
  require (fault = false) .database
  (Tables.active store slug now).map snapshotOf

/-- `SetRoomLocked`. -/
def setRoomLocked (store : Store) (slug : String) (locked : Bool) (now : Time) (fault : Bool) :
    Except LiveError Store := do
  require (fault = false) .database
  let tables ← Tables.active store slug now
  .ok (store.insert slug { tables with room := { tables.room with locked } })

/-- `SetRoomLayoutPreset`. -/
def setRoomLayoutPreset (store : Store) (slug preset : String) (now : Time) (fault : Bool) :
    Except LiveError Store := do
  require (validLayoutPreset preset = true) .invalidLayoutPreset
  require (fault = false) .database
  let tables ← Tables.active store slug now
  .ok (store.insert slug { tables with room := { tables.room with layoutPreset := preset } })

/-- `SaveSnapshot`. -/
def saveSnapshot (store : Store) (snapshot : RoomSnapshot) (now : Time) (fault : Bool) :
    Except LiveError Store := do
  let snapshot ← prepareRoomSnapshot snapshot
  require (fault = false) .database
  let tables ← Tables.active store snapshot.slug now
  require (tables.room.metadataRevision = snapshot.metadataRevision ∧
    tables.room.metadataSnapshotRevision ≤ snapshot.metadataSnapshotRevision) .revisionConflict
  require (unix snapshot.expiresAt = tables.room.expiresAt) .revisionConflict
  require (∀ document ∈ snapshot.documents, ∀ row ∈ tables.document? document.id,
    row.currentRevision = document.currentRevision ∧
      row.snapshotRevision ≤ document.snapshotRevision) .revisionConflict
  .ok (store.insert snapshot.slug { tables with
    room := { tables.room with
      contentSize := snapshot.contentSize
      metadataRevision := snapshot.metadataRevision
      metadataSnapshotRevision := snapshot.metadataSnapshotRevision }
    documents := snapshot.documents.map documentRow })

/-- `CommitChange`. -/
def commitChange (store : Store) (commit : ChangeCommit) (now : Time) (fault : Bool) :
    Except LiveError Store := do
  let snapshot ← prepareRoomSnapshot commit.snapshot
  let change ← match prepareChange commit.change now with
    | .ok change => .ok change
    | .error _ => .error .invalidChange
  require (0 ≤ commit.compactThrough ∧ commit.compactThrough ≤ commit.change.revision ∧
    1 ≤ commit.retainOperations) .invalidChange
  let operation ← prepareOperation commit.operation change now
  require (fault = false) .database
  let tables ← Tables.active store snapshot.slug now
  require (tables.room.expiresAt = unix snapshot.expiresAt) .revisionConflict
  let tables ← tables.insertOperation operation
  let tables ← match change.streamKind with
    | .document => tables.commitDocument snapshot change
    | .metadata => tables.commitMetadata snapshot change
  let tables :=
    if 0 < commit.compactThrough then
      tables.deleteChanges change.streamKind change.streamID commit.compactThrough
    else tables
  .ok (store.insert snapshot.slug (tables.pruneOperations commit.retainOperations))

/-- The current revision of a stream. -/
def currentRevision? (tables : Tables) (streamKind : StreamKind) (streamID : String) :
    Option Int :=
  match streamKind with
  | .metadata => some tables.room.metadataRevision
  | .document => (tables.document? streamID).map DocumentRow.currentRevision

/-- Append one change of `AppendChanges`. -/
def appendChange (tables : Tables) (change : ChangeRecord) : Except LiveError Tables := do
  match currentRevision? tables change.streamKind change.streamID with
  | none => .error .roomNotFound
  | some revision =>
      require (change.revision = revision + 1) .revisionConflict
      let tables ← tables.insertChange change
      match change.streamKind with
      | .metadata =>
          .ok { tables with room := { tables.room with metadataRevision := change.revision } }
      | .document =>
          .ok { tables with
            documents := tables.documents.map fun row =>
              if row.documentID = change.streamID then
                { row with currentRevision := change.revision }
              else row }

/-- `AppendChanges`: the revisions of the streams advance, their snapshots do not. -/
def appendChanges (store : Store) (slug : String) (changes : List ChangeRecord) (now : Time)
    (fault : Bool) : Except LiveError Store := do
  require (changes ≠ []) .invalidChange
  let changes ← changes.mapM fun change => prepareChange change now
  require (fault = false) .database
  let tables ← Tables.active store slug now
  require (∀ change ∈ changes,
    (currentRevision? tables change.streamKind change.streamID).isSome) .roomNotFound
  let tables ← changes.foldlM appendChange tables
  .ok (store.insert slug tables)

/-- `LoadChangesSince`. -/
def loadChangesSince (store : Store) (slug : String) (streamKind : StreamKind)
    (streamID : String) (since : Int) (now : Time) (fault : Bool) :
    Except LiveError (List ChangeRecord) := do
  validateStream streamKind streamID
  require (0 ≤ since) .invalidChange
  require (fault = false) .database
  let tables ← Tables.active store slug now
  match currentRevision? tables streamKind streamID with
  | none => .error .roomNotFound
  | some currentRevision =>
      let rows := tables.changes.filter (ChangeRow.inStream streamKind streamID)
      let minimumRevision := ((rows.map ChangeRow.revision).min?).getD (currentRevision + 1)
      require (minimumRevision - 1 ≤ since) .historyCompacted
      let newer := rows.filter fun row => since < row.revision
      .ok ((newer.insertionSort fun left right => left.revision ≤ right.revision).map
        ChangeRow.record)

/-- `queryOperations`: the newest operations, oldest first. -/
def queryOperations (tables : Tables) (clientID : String) (limit : Int) : List OperationRecord :=
  let rows := if clientID = "" then tables.operations
    else tables.operations.filter fun row => row.clientID = clientID
  (rows.drop (rows.length - limit.toNat)).map OperationRow.record

/-- `LoadRecentOperations`. -/
def loadRecentOperations (store : Store) (slug : String) (limit : Int) (now : Time)
    (fault : Bool) : Except LiveError (List OperationRecord) := do
  require (slug ≠ "" ∧ Trimmed slug ∧ 1 ≤ limit) .invalidChange
  require (fault = false) .database
  (Tables.active store slug now).map fun tables => queryOperations tables "" limit

/-- `GetRoomSnapshotWithClientOperations`. -/
def getRoomSnapshotWithClientOperations (store : Store) (slug clientID : String) (limit : Int)
    (now : Time) (fault : Bool) : Except LiveError (RoomSnapshot × List OperationRecord) := do
  require (clientID ≠ "" ∧ Trimmed clientID ∧ byteLen clientID ≤ 128 ∧ 1 ≤ limit) .invalidChange
  require (fault = false) .database
  (Tables.active store slug now).map fun tables =>
    (snapshotOf tables, queryOperations tables clientID limit)

/-- `CompactChanges`. -/
def compactChanges (store : Store) (slug : String) (streamKind : StreamKind)
    (streamID : String) (throughRevision : Int) (now : Time) (fault : Bool) :
    Except LiveError Store := do
  validateStream streamKind streamID
  require (0 ≤ throughRevision) .invalidChange
  require (fault = false) .database
  let tables ← Tables.active store slug now
  match currentRevision? tables streamKind streamID with
  | none => .error .roomNotFound
  | some currentRevision =>
      require (throughRevision ≤ currentRevision) .revisionConflict
      let tables : Tables := match streamKind with
        | .metadata =>
            { tables with room := { tables.room with
              metadataSnapshotRevision :=
                max tables.room.metadataSnapshotRevision throughRevision } }
        | .document =>
            { tables with documents := tables.documents.map fun row =>
              if row.documentID = streamID then
                { row with snapshotRevision := max row.snapshotRevision throughRevision }
              else row }
      .ok (store.insert slug (tables.deleteChanges streamKind streamID throughRevision))

end Store

end Oxbin.Storage
