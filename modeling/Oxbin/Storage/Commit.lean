import Oxbin.Live.Outcome
import Oxbin.Storage.Rows

/-!
# What a commit writes

`CommitChange` validates the snapshot, the change and the operation, and then writes either the
row of one document or the rows of all documents, the change, and the operation.
-/

namespace Oxbin.Storage

open Live Live.Room

/-! ## Preparation -/

/-- The IDs and labels of a document that the store and the hub accept. -/
structure ValidDocument (document : DocumentSnapshot) : Prop where
  id : validateDocumentID document.id = .ok ()
  name : validateTabName document.name = .ok ()
  language : validateLanguageID document.language = .ok ()

/-- A document with the time at which it was changed, at least that of the room. -/
def timed (createdAt : Time) (document : DocumentSnapshot) : DocumentSnapshot :=
  { document with
    updatedAt := if document.updatedAt = zeroTime then createdAt else document.updatedAt }

@[simp] theorem timed_id (createdAt : Time) (document : DocumentSnapshot) :
    (timed createdAt document).id = document.id := rfl

theorem map_id_timed (createdAt : Time) (documents : List DocumentSnapshot) :
    (documents.map (timed createdAt)).map DocumentSnapshot.id =
      documents.map DocumentSnapshot.id := by
  rw [List.map_map]
  rfl

theorem prepareDocuments_ok {createdAt : Time} {index size size' : Int} {seen : List String}
    {documents documents' : List DocumentSnapshot}
    (prepared : prepareDocuments createdAt index seen size documents = .ok (documents', size')) :
    documents' = documents.map (timed createdAt) ∧
      size' = size + (documents.map fun document => byteLen document.content).sum ∧
      (∀ document ∈ documents, ValidDocument document ∧ document.id ∉ seen) ∧
      (documents.map DocumentSnapshot.id).Nodup ∧ ∀ document ∈ documents,
        document.position = index + (documents.map DocumentSnapshot.id).idxOf document.id ∧
          document.snapshotRevision ≤ document.currentRevision := by
  induction documents generalizing index seen size documents' with
  | nil =>
      cases prepared
      simp
  | cons document documents induction =>
      rw [prepareDocuments] at prepared
      simp only [bind_eq_ok, require_eq_ok, exists_const] at prepared
      obtain ⟨⟨place, _, _, trails⟩, ⟨id, name, language, _⟩, unseen, _, ⟨later, size''⟩, rest,
        equality⟩ := prepared
      cases equality
      obtain ⟨rfl, rfl, valid, distinct, places⟩ := induction rest
      refine ⟨rfl, by rw [List.map_cons, List.sum_cons, Int.add_assoc], ?_, ?_, ?_⟩
      · intro other member
        rcases List.mem_cons.mp member with rfl | tail
        · exact ⟨⟨id, name, language⟩, unseen⟩
        · exact ⟨(valid other tail).1, fun old => (valid other tail).2 (by simp [old])⟩
      · refine List.nodup_cons.mpr ⟨fun member => ?_, distinct⟩
        obtain ⟨other, tail, same⟩ := List.mem_map.mp member
        exact (valid other tail).2 (by simp [same])
      · intro other member
        rcases List.mem_cons.mp member with rfl | tail
        · rw [List.map_cons, List.idxOf_cons_self, place]
          exact ⟨by simp, trails⟩
        · have different : document.id ≠ other.id := fun same =>
            (valid other tail).2 (by simp [same])
          obtain ⟨place', trails'⟩ := places other tail
          rw [List.map_cons, List.idxOf_cons_ne _ different, place']
          push_cast
          exact ⟨by omega, trails'⟩

/-- What `prepareRoomSnapshot` has checked, and the snapshot that it returns. -/
structure Prepared (snapshot prepared : RoomSnapshot) : Prop where
  slug : snapshot.slug ≠ "" ∧ Trimmed snapshot.slug
  documents : snapshot.documents ≠ []
  valid : ∀ document ∈ snapshot.documents, ValidDocument document
  distinct : (snapshot.documents.map DocumentSnapshot.id).Nodup
  places : ∀ document ∈ snapshot.documents,
    document.position = (snapshot.documents.map DocumentSnapshot.id).idxOf document.id ∧
      document.snapshotRevision ≤ document.currentRevision
  trails : snapshot.metadataSnapshotRevision ≤ snapshot.metadataRevision
  expires : snapshot.createdAt ≠ zeroTime ∧ snapshot.expiresAt ≠ zeroTime ∧
    snapshot.expiresAt > snapshot.createdAt
  equality : ∃ layoutPreset, prepared = { snapshot with
    layoutPreset
    documents := snapshot.documents.map (timed snapshot.createdAt)
    contentSize := (snapshot.documents.map fun document => byteLen document.content).sum }

theorem prepared_of_prepareRoomSnapshot {snapshot prepared : RoomSnapshot}
    (equality : prepareRoomSnapshot snapshot = .ok prepared) : Prepared snapshot prepared := by
  unfold prepareRoomSnapshot at equality
  simp only [bind_eq_ok, require_eq_ok, exists_const] at equality
  obtain ⟨_, slug, ⟨_, _, trails⟩, _, expires, documents, ⟨documents', size⟩, prepared',
    equality⟩ := equality
  cases equality
  obtain ⟨rfl, rfl, valid, distinct, places⟩ := prepareDocuments_ok prepared'
  simp only [Int.zero_add] at places
  rw [Int.zero_add]
  exact ⟨slug, documents, fun document member => (valid document member).1, distinct, places,
    trails, expires, _, rfl⟩

/-- A document of the prepared snapshot is the one of the snapshot with its time. -/
theorem Prepared.documentOf_eq {snapshot prepared : RoomSnapshot}
    (preparation : Prepared snapshot prepared) (id : String) :
    Tables.documentOf prepared.documents id =
      (Tables.documentOf snapshot.documents id).map (timed snapshot.createdAt) := by
  obtain ⟨_, equality⟩ := preparation.equality
  rw [equality, Tables.documentOf, List.find?_map]
  rfl

theorem prepareChange_ok {change prepared : ChangeRecord} {now : Time}
    (equality : prepareChange change now = .ok prepared) :
    validateStream change.streamKind change.streamID = .ok () ∧ 0 < change.revision ∧
      ∃ createdAt, prepared = { change with createdAt } := by
  unfold prepareChange at equality
  simp only [bind_eq_ok, require_eq_ok, exists_const] at equality
  obtain ⟨_, stream, ⟨revision, _⟩, equality⟩ := equality
  cases equality
  exact ⟨stream, revision, _, rfl⟩

theorem prepareOperation_ok {operation prepared : OperationRecord} {change : ChangeRecord}
    {now : Time} (equality : prepareOperation operation change now = .ok prepared) :
    byteLen operation.fingerprint = 64 ∧ 0 ≤ operation.baseRevision ∧
      ∃ createdAt, prepared = { operation with createdAt } := by
  unfold prepareOperation at equality
  simp only [bind_eq_ok, require_eq_ok, exists_const] at equality
  obtain ⟨_, _, ⟨fingerprint, baseRevision, _⟩, _, equality⟩ := equality
  cases equality
  exact ⟨fingerprint, baseRevision, _, rfl⟩

/-! ## The transaction -/

/-- The branch of `CommitChange` for the stream of the change. -/
def Tables.commitStream (tables : Tables) (snapshot : RoomSnapshot) (change : ChangeRecord) :
    Except LiveError Tables :=
  match change.streamKind with
  | .document => tables.commitDocument snapshot change
  | .metadata => tables.commitMetadata snapshot change

/-- What a successful `CommitChange` has checked, and what it writes. -/
structure Writes (store : Store) (commit : ChangeCommit) (now : Time) (prepared : RoomSnapshot)
    (tables : Tables) (change : ChangeRecord) (operation : OperationRecord) (written : Tables)
    (store' : Store) : Prop where
  preparation : Prepared commit.snapshot prepared
  stream : validateStream commit.change.streamKind commit.change.streamID = .ok ()
  revision : 0 < commit.change.revision
  fingerprint : byteLen commit.operation.fingerprint = 64
  baseRevision : 0 ≤ commit.operation.baseRevision
  retain : 1 ≤ commit.retainOperations
  changed : ∃ createdAt, change = { commit.change with createdAt }
  recorded : ∃ createdAt, operation = { commit.operation with createdAt }
  found : store.lookup commit.snapshot.slug = some tables
  active : unix now < tables.room.expiresAt
  fresh : ∀ row ∈ tables.operations, row.operationID ≠ operation.operationID
  branch : Tables.commitStream { tables with
    operations := tables.operations ++ [operationRow operation] } prepared change = .ok written
  result : store' = store.insert commit.snapshot.slug (Tables.pruneOperations
    (if 0 < commit.compactThrough then
      written.deleteChanges change.streamKind change.streamID commit.compactThrough
    else written) commit.retainOperations)

theorem active_eq_ok {store : Store} {slug : String} {now : Time} {tables : Tables} :
    Tables.active store slug now = .ok tables ↔
      store.lookup slug = some tables ∧ unix now < tables.room.expiresAt := by
  unfold Tables.active
  cases found : store.lookup slug with
  | none => simp
  | some tables' =>
      simp only [Option.some.injEq]
      split
      case isTrue alive =>
        rw [Except.ok.injEq]
        constructor
        · rintro rfl
          exact ⟨rfl, alive⟩
        · exact And.left
      case isFalse expired =>
        constructor
        · intro impossible
          cases impossible
        · rintro ⟨rfl, alive⟩
          exact absurd alive expired

theorem insertOperation_eq_ok {tables tables' : Tables} {operation : OperationRecord} :
    tables.insertOperation operation = .ok tables' ↔
      (∀ row ∈ tables.operations, row.operationID ≠ operation.operationID) ∧
        tables' = { tables with operations := tables.operations ++ [operationRow operation] } := by
  unfold Tables.insertOperation
  split
  case isTrue known =>
    obtain ⟨row, member, same⟩ := List.any_eq_true.mp known
    constructor
    · intro impossible
      cases impossible
    · rintro ⟨fresh, _⟩
      exact absurd (of_decide_eq_true same) (fresh row member)
  case isFalse unknown =>
    rw [Except.ok.injEq]
    constructor
    · rintro rfl
      refine ⟨fun row member same => unknown ?_, rfl⟩
      exact List.any_eq_true.mpr ⟨row, member, decide_eq_true same⟩
    · rintro ⟨_, rfl⟩
      rfl

/-- What is known after a successful commit. -/
theorem writes_of_commitChange {store store' : Store} {commit : ChangeCommit} {now : Time}
    {fault : Bool} (saved : Store.commitChange store commit now fault = .ok store') :
    ∃ prepared tables change operation written,
      Writes store commit now prepared tables change operation written store' := by
  unfold Store.commitChange at saved
  rw [bind_eq_ok] at saved
  obtain ⟨prepared, prepares, saved⟩ := saved
  have preparation := prepared_of_prepareRoomSnapshot prepares
  have slug : prepared.slug = commit.snapshot.slug := by
    obtain ⟨layoutPreset, equality⟩ := preparation.equality
    rw [equality]
  cases checked : prepareChange commit.change now with
  | error error =>
      rw [checked] at saved
      cases saved
  | ok change =>
      rw [checked] at saved
      simp only [bind_eq_ok, require_eq_ok, exists_const] at saved
      obtain ⟨change', equality, limits, operation, operations, _, tables, active, _, inserted,
        insertion, saved⟩ := saved
      cases equality
      obtain ⟨stream, revision, changed⟩ := prepareChange_ok checked
      obtain ⟨fingerprint, baseRevision, recorded⟩ := prepareOperation_ok operations
      obtain ⟨found, alive⟩ := active_eq_ok.mp active
      obtain ⟨fresh, rfl⟩ := insertOperation_eq_ok.mp insertion
      have branches : ∃ written, Tables.commitStream { tables with
          operations := tables.operations ++ [operationRow operation] } prepared change =
            .ok written ∧ store' = store.insert prepared.slug (Tables.pruneOperations
              (if 0 < commit.compactThrough then
                written.deleteChanges change.streamKind change.streamID commit.compactThrough
              else written) commit.retainOperations) := by
        unfold Tables.commitStream
        split at saved
        case h_1 kind =>
          obtain ⟨written, branch, equality⟩ := bind_eq_ok.mp saved
          cases equality
          rw [kind]
          exact ⟨written, branch, rfl⟩
        case h_2 kind =>
          obtain ⟨written, branch, equality⟩ := bind_eq_ok.mp saved
          cases equality
          rw [kind]
          exact ⟨written, branch, rfl⟩
      obtain ⟨written, branch, result⟩ := branches
      rw [slug] at found result
      exact ⟨prepared, tables, change, operation, written, preparation, stream, revision,
        fingerprint, baseRevision, limits.2.2, changed, recorded, found, alive, fresh, branch,
        result⟩

/-! ## The branches -/

theorem insertChange_ok {tables tables' : Tables} {change : ChangeRecord}
    (inserted : tables.insertChange change = .ok tables') :
    tables' = { tables with changes := tables.changes ++ [changeRow change] } := by
  unfold Tables.insertChange at inserted
  split at inserted
  case isTrue => cases inserted
  case isFalse =>
    cases inserted
    rfl

theorem commitDocument_ok {tables written : Tables} {snapshot : RoomSnapshot}
    {change : ChangeRecord} (committed : tables.commitDocument snapshot change = .ok written) :
    ∃ document row, Tables.documentOf snapshot.documents change.streamID = some document ∧
      Tables.rowOf tables.documents document.id = some row ∧
      row.currentRevision + 1 = change.revision ∧
      tables.room.metadataRevision = snapshot.metadataRevision ∧
      written = { tables with
        room := { tables.room with contentSize := snapshot.contentSize }
        documents := Tables.updateDocument tables.documents document
        changes := tables.changes ++ [changeRow change] } := by
  unfold Tables.commitDocument at committed
  split at committed
  case h_1 => cases committed
  case h_2 document found =>
    simp only [require_bind_eq_ok] at committed
    obtain ⟨⟨_, _, metadata⟩, committed⟩ := committed
    split at committed
    case h_1 => cases committed
    case h_2 row stored =>
      simp only [bind_eq_ok, require_eq_ok, exists_const] at committed
      obtain ⟨next, inserted, insertion, equality⟩ := committed
      rw [insertChange_ok insertion] at equality
      cases equality
      exact ⟨document, row, found, stored, next, metadata, rfl⟩

theorem commitMetadata_ok {tables written : Tables} {snapshot : RoomSnapshot}
    {change : ChangeRecord} (committed : tables.commitMetadata snapshot change = .ok written) :
    change.revision = snapshot.metadataRevision ∧
      snapshot.metadataSnapshotRevision = snapshot.metadataRevision ∧
      written = { tables with
        room := { tables.room with
          contentSize := snapshot.contentSize
          metadataRevision := snapshot.metadataRevision
          metadataSnapshotRevision := snapshot.metadataRevision }
        documents := Tables.syncDocuments tables.documents snapshot.documents
        changes := tables.changes ++ [changeRow change] } := by
  unfold Tables.commitMetadata at committed
  simp only [bind_eq_ok, require_eq_ok, exists_const] at committed
  obtain ⟨⟨revision, saved, _⟩, inserted, insertion, equality⟩ := committed
  rw [insertChange_ok insertion, saved, revision] at equality
  cases equality
  exact ⟨revision, saved.trans revision, rfl⟩

section Writes

variable {store store' : Store} {commit : ChangeCommit} {now : Time} {prepared : RoomSnapshot}
  {tables written : Tables} {change : ChangeRecord} {operation : OperationRecord}

/-- A commit to a document rewrites the row of the document. -/
theorem Writes.document
    (writes : Writes store commit now prepared tables change operation written store')
    (kind : commit.change.streamKind = .document) :
    ∃ document row, Tables.documentOf prepared.documents commit.change.streamID = some document ∧
      Tables.rowOf tables.documents document.id = some row ∧
      row.currentRevision + 1 = commit.change.revision ∧
      written.room = { tables.room with contentSize := prepared.contentSize } ∧
      written.documents = Tables.updateDocument tables.documents document ∧
      written.changes = tables.changes ++ [changeRow change] ∧
      written.operations = tables.operations ++ [operationRow operation] := by
  have branch := writes.branch
  obtain ⟨_, rfl⟩ := writes.changed
  rw [Tables.commitStream, kind] at branch
  obtain ⟨document, row, found, stored, next, _, equality⟩ := commitDocument_ok branch
  refine ⟨document, row, found, stored, next, ?_⟩
  rw [equality]
  exact ⟨rfl, rfl, rfl, rfl⟩

/-- A commit to the metadata rewrites all rows. -/
theorem Writes.metadata
    (writes : Writes store commit now prepared tables change operation written store')
    (kind : commit.change.streamKind = .metadata) :
    written.room = { tables.room with
        contentSize := prepared.contentSize
        metadataRevision := prepared.metadataRevision
        metadataSnapshotRevision := prepared.metadataRevision } ∧
      written.documents = Tables.syncDocuments tables.documents prepared.documents ∧
      written.changes = tables.changes ++ [changeRow change] ∧
      written.operations = tables.operations ++ [operationRow operation] := by
  have branch := writes.branch
  obtain ⟨_, rfl⟩ := writes.changed
  rw [Tables.commitStream, kind] at branch
  obtain ⟨_, _, equality⟩ := commitMetadata_ok branch
  rw [equality]
  exact ⟨rfl, rfl, rfl, rfl⟩

/-- Compaction and pruning leave the documents alone. -/
theorem Writes.lookup
    (writes : Writes store commit now prepared tables change operation written store') :
    ∃ tables', store' = store.insert commit.snapshot.slug tables' ∧
      tables'.room = written.room ∧ tables'.documents = written.documents ∧
      tables'.operations =
        written.operations.drop (written.operations.length - commit.retainOperations.toNat) := by
  refine ⟨_, writes.result, ?_⟩
  split <;> exact ⟨rfl, rfl, rfl⟩

end Writes

end Oxbin.Storage
