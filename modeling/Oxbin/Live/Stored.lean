import Oxbin.Live.Committed
import Oxbin.Live.Payload
import Oxbin.Storage.Commit

/-!
# The stored image of a room

The rows of a room determine everything about it that its clients share: its documents, their
order and revisions, its modes and its operation ledger.
-/

namespace Oxbin.Live

open Livecollab Storage

/-! ## The shared state -/

/-- What the clients of a room share of a document. -/
structure DocumentAuthority where
  id : String
  name : String
  language : String
  content : String
  revision : Int
  deriving DecidableEq, Repr

/-- The change of an operation in the ledger. -/
inductive RetainedChange where
  | document (documentID : String) (baseVersion : Int) (changes : ChangeSet)
  | metadata (change : PersistedMetadataChange)
  deriving DecidableEq, Repr

/-- An operation in the ledger, without the state that its acceptance led to. -/
structure RetainedRecord where
  fingerprint : String
  operationID : String
  clientID : String
  revision : Int
  change : RetainedChange
  deriving DecidableEq, Repr

/-- The authority state of a room. -/
@[ext]
structure AuthorityState where
  slug : String
  order : List String
  document : String → Option DocumentAuthority
  metadataRevision : Int
  watchOnly : Bool
  layoutPreset : String
  operationOrder : List String
  operation : String → Option RetainedRecord

/-- The shared part of a document. -/
def Document.authority (document : Document) : DocumentAuthority where
  id := document.snapshot.id
  name := document.snapshot.name
  language := document.snapshot.language
  content := document.snapshot.content
  revision := document.snapshot.currentRevision

/-- The part of a ledger entry that outlives the room in memory. -/
def LedgerRecord.retained (record : LedgerRecord) : RetainedRecord :=
  match record.result with
  | .document accepted => {
      fingerprint := record.fingerprint, operationID := accepted.operationID
      clientID := accepted.clientID, revision := accepted.revision
      change := .document accepted.documentID accepted.baseVersion accepted.changes }
  | .metadata accepted => {
      fingerprint := record.fingerprint, operationID := accepted.operationID
      clientID := accepted.clientID, revision := accepted.revision
      change := .metadata {
        kind := accepted.kind, documentID := accepted.documentID, name := accepted.name
        language := accepted.language, content := accepted.content, order := accepted.order } }

/-- The authority state that a room holds in memory. -/
def Room.authority (room : Room) : AuthorityState where
  slug := room.snapshot.slug
  order := room.order
  document id := (room.documents.lookup id).map Document.authority
  metadataRevision := room.snapshot.metadataRevision
  watchOnly := room.watchOnly
  layoutPreset := room.snapshot.layoutPreset
  operationOrder := room.operationOrder
  operation id := (room.operations.lookup id).map LedgerRecord.retained

/-! ## Well-formed rooms -/

/-- A document under its key, with labels and a history that the store accepts. -/
structure Document.Formed (id : String) (document : Document) : Prop where
  keyed : document.snapshot.id = id
  valid : ValidDocument document.snapshot
  history : HistoryFormed document.history

namespace Room

/-- The number of bytes of a document. -/
def bytesOf (room : Room) (id : String) : Int :=
  ((room.documents.lookup id).map fun document => byteLen document.snapshot.content).getD 0

/-- The number of bytes of all documents. -/
def bytes (room : Room) : Int := (room.order.map room.bytesOf).sum

/-- The invariant of a room: the order lists the documents, which fit into the room, and the
ledger lists its operations, of which there are not too many. -/
structure Formed (room : Room) : Prop where
  slug : room.snapshot.slug ≠ "" ∧ Trimmed room.snapshot.slug
  nonempty : room.order ≠ []
  order : room.order.Nodup
  present : ∀ id, id ∈ room.documents ↔ id ∈ room.order
  documents : ∀ id document, room.documents.lookup id = some document → document.Formed id
  size : room.bytes ≤ room.options.maxBytes
  operationOrder : room.operationOrder.Nodup
  recorded : ∀ id, id ∈ room.operations ↔ id ∈ room.operationOrder
  retained : room.operationOrder.length ≤ ledgerLimit room.options

end Room

end Oxbin.Live

namespace Oxbin.Storage

open Live

/-- A row without the time of its last change. -/
def DocumentRow.timeless (row : DocumentRow) : DocumentRow := { row with updatedAt := 0 }

/-- The row that a commit of the room writes for a document. -/
def rowFor (order : List String) (id : String) (document : Document) : DocumentRow :=
  (documentRow (Room.saved order id document).snapshot).timeless

/-- The row is loaded as an entry of the ledger. -/
def OperationRow.Decodes (row : OperationRow) (record : LedgerRecord) : Prop :=
  ∀ room : Room, ∃ loaded, room.operationRecordFromDurable row.record = .ok loaded ∧
    loaded.retained = record.retained

end Oxbin.Storage

namespace Oxbin.Live

open Livecollab Storage Storage.Tables

namespace Room

/-- The tables hold the shared state of the room. -/
structure Stored (room : Room) (tables : Tables) : Prop where
  slug : tables.room.slug = room.snapshot.slug
  locked : tables.room.locked = room.watchOnly
  layoutPreset : tables.room.layoutPreset = room.snapshot.layoutPreset
  metadataRevision : tables.room.metadataRevision = room.snapshot.metadataRevision
  metadataSnapshotRevision : tables.room.metadataSnapshotRevision = room.snapshot.metadataRevision
  expiresAt : tables.room.expiresAt = unix room.snapshot.expiresAt
  lifetime : tables.room.createdAt < tables.room.expiresAt ∧
    unixTime tables.room.expiresAt ≠ zeroTime
  contentSize : tables.room.contentSize ≤ room.options.maxBytes
  distinct : (rowIDs tables.documents).Nodup
  rows : ∀ id, (rowOf tables.documents id).map DocumentRow.timeless =
    (room.documents.lookup id).map (rowFor room.order id)
  ledgerOrder : room.operationOrder = tables.operations.map OperationRow.operationID
  ledger : ∀ row ∈ tables.operations, ∃ record,
    room.operations.lookup row.operationID = some record ∧ row.Decodes record

variable {room room' : Room} {tables : Tables}

theorem mem_documents_iff {room : Room} {id : String} :
    id ∈ room.documents ↔ ∃ document, room.documents.lookup id = some document := by
  rw [← AList.lookup_isSome, Option.isSome_iff_exists]

theorem rowFor_eq {order : List String} {id : String} (member : id ∈ order)
    (document : Document) : rowFor order id document = {
      documentID := document.snapshot.id, name := document.snapshot.name
      language := document.snapshot.language, content := document.snapshot.content
      position := order.idxOf id, currentRevision := document.snapshot.currentRevision
      snapshotRevision := document.snapshot.currentRevision, updatedAt := 0 } := by
  unfold rowFor saved positioned
  rw [if_pos member]
  rfl

/-- The rows are those of the documents in the order. -/
theorem Stored.perm_order (stored : room.Stored tables) (formed : room.Formed) :
    (rowIDs tables.documents).Perm room.order := by
  rw [List.perm_ext_iff_of_nodup stored.distinct formed.order]
  intro id
  have rows := stored.rows id
  rw [← formed.present, mem_documents_iff]
  constructor
  · intro member
    obtain ⟨row, found⟩ := Option.ne_none_iff_exists'.mp
      (mt rowOf_eq_none.mp (not_not.mpr member))
    rw [found, Option.map_some] at rows
    obtain ⟨document, lookup, _⟩ := Option.map_eq_some_iff.mp rows.symm
    exact ⟨document, lookup⟩
  · rintro ⟨document, lookup⟩
    by_contra absent
    rw [rowOf_eq_none.mpr absent, lookup] at rows
    cases rows

/-- The rows in the order of their positions are the documents in their order. -/
theorem Stored.order_eq (stored : room.Stored tables) (formed : room.Formed) :
    rowIDs (tables.documents.insertionSort fun left right => left.position ≤ right.position) =
      room.order := by
  refine sorted_rowIDs formed.order (stored.perm_order formed) fun row member => ?_
  have rows := stored.rows row.documentID
  rw [rowOf_of_mem stored.distinct member, Option.map_some] at rows
  obtain ⟨document, _, equality⟩ := Option.map_eq_some_iff.mp rows.symm
  have listed := (stored.perm_order formed).mem_iff.mp (List.mem_map_of_mem member)
  rw [rowFor_eq listed] at equality
  exact (congrArg DocumentRow.position equality).symm

/-- The shared part of a document can be read off its row. -/
theorem authority_rowFor (order : List String) (id : String) (document : Document) :
    document.authority = ⟨(rowFor order id document).documentID, (rowFor order id document).name,
      (rowFor order id document).language, (rowFor order id document).content,
      (rowFor order id document).currentRevision⟩ := by
  unfold rowFor saved positioned
  split <;> rfl

theorem Stored.document_eq (stored : room.Stored tables) (id : String) :
    (room.documents.lookup id).map Document.authority =
      (rowOf tables.documents id).map fun row =>
        ⟨row.documentID, row.name, row.language, row.content, row.currentRevision⟩ := by
  have rows := stored.rows id
  cases found : rowOf tables.documents id with
  | none =>
      rw [found, Option.map_none] at rows
      rw [Option.map_eq_none_iff.mp rows.symm]
      rfl
  | some row =>
      rw [found, Option.map_some] at rows
      obtain ⟨document, lookup, equality⟩ := Option.map_eq_some_iff.mp rows.symm
      rw [lookup, Option.map_some, Option.map_some, authority_rowFor room.order id document,
        equality]
      rfl

theorem Stored.operation_eq (stored : room.Stored tables) (stored' : room'.Stored tables)
    (formed : room.Formed) (formed' : room'.Formed) (id : String) :
    (room.operations.lookup id).map LedgerRecord.retained =
      (room'.operations.lookup id).map LedgerRecord.retained := by
  by_cases member : id ∈ tables.operations.map OperationRow.operationID
  · obtain ⟨row, listed, rfl⟩ := List.mem_map.mp member
    obtain ⟨record, lookup, decodes⟩ := stored.ledger row listed
    obtain ⟨record', lookup', decodes'⟩ := stored'.ledger row listed
    obtain ⟨loaded, load, retained⟩ := decodes room
    obtain ⟨loaded', load', retained'⟩ := decodes' room
    rw [load] at load'
    cases load'
    rw [lookup, lookup', Option.map_some, Option.map_some, ← retained, retained']
  · have absent : id ∉ room.operations := by rwa [formed.recorded, stored.ledgerOrder]
    have absent' : id ∉ room'.operations := by rwa [formed'.recorded, stored'.ledgerOrder]
    rw [AList.lookup_eq_none.mpr absent, AList.lookup_eq_none.mpr absent']

/-- The tables determine the shared state. -/
theorem Stored.authority_eq (stored : room.Stored tables) (stored' : room'.Stored tables)
    (formed : room.Formed) (formed' : room'.Formed) : room.authority = room'.authority := by
  apply AuthorityState.ext
  case slug => exact stored.slug.symm.trans stored'.slug
  case order => exact (stored.order_eq formed).symm.trans (stored'.order_eq formed')
  case document =>
    funext id
    exact (stored.document_eq id).trans (stored'.document_eq id).symm
  case metadataRevision => exact stored.metadataRevision.symm.trans stored'.metadataRevision
  case watchOnly => exact stored.locked.symm.trans stored'.locked
  case layoutPreset => exact stored.layoutPreset.symm.trans stored'.layoutPreset
  case operationOrder => exact stored.ledgerOrder.trans stored'.ledgerOrder.symm
  case operation =>
    funext id
    exact stored.operation_eq stored' formed formed' id

end Room

end Oxbin.Live
