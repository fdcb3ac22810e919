import Oxbin.Live.Creation
import Oxbin.Storage.Statements

/-!
# Commits and replacements

`SaveSnapshot` replaces the rows of a room by those of a snapshot.  `CommitChange` touches fewer
rows, and leaves the same ones.
-/

namespace Oxbin.Storage

open Live Live.Room Tables Execution

/-- The rows of a room after `SaveSnapshot` has replaced them. -/
def Tables.replaced (tables : Tables) (snapshot : RoomSnapshot) : Tables :=
  { tables with
    room := { tables.room with
      contentSize := snapshot.contentSize
      metadataRevision := snapshot.metadataRevision
      metadataSnapshotRevision := snapshot.metadataSnapshotRevision }
    documents := snapshot.documents.map documentRow }

theorem saveSnapshot_replaced {store store' : Store} {snapshot : RoomSnapshot} {now : Time}
    {fault : Bool} (saved : Store.saveSnapshot store snapshot now fault = .ok store') :
    ∃ prepared tables, prepareRoomSnapshot snapshot = .ok prepared ∧
      store.lookup prepared.slug = some tables ∧
      store' = store.insert prepared.slug (tables.replaced prepared) := by
  unfold Store.saveSnapshot at saved
  simp only [bind_eq_ok, require_eq_ok, exists_const] at saved
  obtain ⟨prepared, prepares, _, tables, active, _, _, _, equality⟩ := saved
  cases equality
  exact ⟨prepared, tables, prepares, (active_eq_ok.mp active).1, rfl⟩

/-- The snapshot of an operation on one document differs from the rows in that document only. -/
structure OneDocument (tables : Tables) (snapshot : RoomSnapshot) (documentID : String) : Prop where
  metadata : snapshot.metadataSnapshotRevision = tables.room.metadataSnapshotRevision
  listed : (snapshot.documents.map DocumentSnapshot.id).Perm (rowIDs tables.documents)
  others : ∀ document ∈ snapshot.documents, document.id ≠ documentID →
    rowOf tables.documents document.id = some (documentRow (timed snapshot.createdAt document))

section Replacement

variable {store store' : Store} {commit : ChangeCommit} {now : Time} {prepared : RoomSnapshot}
  {tables written : Tables} {change : ChangeRecord} {operation : OperationRecord}

/-- Rows that are found for the same IDs are the same rows. -/
theorem perm_of_rowOf {rows rows' : List DocumentRow} (nodup : (rowIDs rows).Nodup)
    (nodup' : (rowIDs rows').Nodup) (same : ∀ id, rowOf rows id = rowOf rows' id) :
    rows.Perm rows' := by
  rw [List.perm_ext_iff_of_nodup (.of_map _ nodup) (.of_map _ nodup')]
  have found {rows rows' : List DocumentRow} (nodup : (rowIDs rows).Nodup)
      (same : ∀ id, rowOf rows id = rowOf rows' id) (row : DocumentRow) (member : row ∈ rows) :
      row ∈ rows' := by
    have stored := rowOf_of_mem nodup member
    rw [same] at stored
    exact List.mem_of_find?_eq_some stored
  exact fun row => ⟨found nodup same row, found nodup' (fun id => (same id).symm) row⟩

theorem rowIDs_map_documentRow (documents : List DocumentSnapshot) :
    rowIDs (documents.map documentRow) = documents.map DocumentSnapshot.id := by
  rw [rowIDs, List.map_map]
  rfl

/-- Rows that are found as the documents of the snapshot are the rows of a replacement. -/
theorem perm_replaced (preparation : Prepared commit.snapshot prepared)
    (nodup : (rowIDs written.documents).Nodup)
    (rows : ∀ id, rowOf written.documents id = (documentOf prepared.documents id).map documentRow) :
    written.documents.Perm (tables.replaced prepared).documents := by
  refine perm_of_rowOf nodup ?_ fun id => (rows id).trans (rowOf_map_documentRow _ id).symm
  obtain ⟨_, equality⟩ := preparation.equality
  rw [Tables.replaced, rowIDs_map_documentRow, equality, map_id_timed]
  exact preparation.distinct

/-- A commit to a document leaves the rows of its snapshot. -/
theorem Writes.replaces_document
    (writes : Writes store commit now prepared tables change operation written store')
    (distinct : (rowIDs tables.documents).Nodup)
    (kind : commit.change.streamKind = .document)
    (allowed : OneDocument tables commit.snapshot commit.change.streamID) :
    written.room = (tables.replaced prepared).room ∧
      written.documents.Perm (tables.replaced prepared).documents := by
  have branch := writes.branch
  obtain ⟨_, changed⟩ := writes.changed
  rw [Tables.commitStream, changed, kind] at branch
  obtain ⟨document, row, listed, stored, _, metadata, equality⟩ := commitDocument_ok branch
  obtain ⟨_, prepares⟩ := writes.preparation.equality
  have named := id_of_documentOf listed
  constructor
  · rw [equality, Tables.replaced, ← metadata, prepares, allowed.metadata]
  · refine perm_replaced writes.preparation ?_ fun id => ?_
    · rw [equality, rowIDs_updateDocument]
      exact distinct
    · rw [equality, rowOf_updateDocument]
      split
      case isTrue own =>
        subst own
        rw [stored]
        rw [← named] at listed
        rw [listed]
        rfl
      case isFalse other =>
        cases found : documentOf prepared.documents id with
        | none =>
            rw [Option.map_none, rowOf_eq_none, ← allowed.listed.mem_iff]
            rw [documentOf_eq_none, prepares, map_id_timed] at found
            exact found
        | some document' =>
            have same := id_of_documentOf found
            have member := List.mem_of_find?_eq_some found
            rw [congrArg RoomSnapshot.documents prepares] at member
            obtain ⟨original, present, rfl⟩ := List.mem_map.mp member
            subst same
            exact allowed.others original present fun own => other (own.trans named.symm)

/-- A commit to the metadata leaves the rows of its snapshot. -/
theorem Writes.replaces_metadata
    (writes : Writes store commit now prepared tables change operation written store')
    (distinct : (rowIDs tables.documents).Nodup)
    (kind : commit.change.streamKind = .metadata) :
    written.room = (tables.replaced prepared).room ∧
      written.documents.Perm (tables.replaced prepared).documents := by
  have branch := writes.branch
  obtain ⟨_, changed⟩ := writes.changed
  rw [Tables.commitStream, changed, kind] at branch
  obtain ⟨_, saved, equality⟩ := commitMetadata_ok branch
  obtain ⟨_, prepares⟩ := writes.preparation.equality
  have distinct' : (prepared.documents.map DocumentSnapshot.id).Nodup := by
    rw [prepares, map_id_timed]
    exact writes.preparation.distinct
  obtain ⟨nodup, rows⟩ := syncDocuments_spec distinct distinct'
  constructor
  · rw [equality, Tables.replaced, saved]
  · exact perm_replaced writes.preparation (equality ▸ nodup) (equality ▸ rows)

end Replacement

/-- A commit that succeeds leaves the room and the documents that a replacement by its snapshot
would leave; a commit that fails, at whichever statement, changes nothing. -/
theorem commit_replaces {store : Store} {commit : ChangeCommit} {tables : Tables}
    (faults : Nat → Option LiveError) (ranged : List String → List String) (now : Time)
    (ranges : ∀ ids, (ranged ids).Perm ids)
    (stored : store.lookup commit.snapshot.slug = some tables)
    (distinct : (rowIDs tables.documents).Nodup)
    (allowed : commit.change.streamKind = .document →
      OneDocument tables commit.snapshot commit.change.streamID) (statements : Nat) :
    let ended := commitTransaction faults ranged commit now ⟨store, none, statements⟩
    ended.2.transaction = none ∧
    (∀ error, ended.1 = .error error → ended.2.committed = store) ∧
    ∀ value, ended.1 = .ok value → ∃ prepared written,
      prepareRoomSnapshot commit.snapshot = .ok prepared ∧
      ended.2.committed = store.insert commit.snapshot.slug written ∧
      written.room = (tables.replaced prepared).room ∧
      written.documents.Perm (tables.replaced prepared).documents := by
  intro ended
  have settled : Execution.Settled faults store (Store.commitChange store commit now false) ended :=
    settled_commitTransaction commit now ranges (fun tables' found => by
      cases stored.symm.trans found
      exact distinct) statements
  refine ⟨settled.closed, settled.unchanged, fun value succeeds => ?_⟩
  have commits := settled.commits value succeeds
  have prepares : ∃ prepared, prepareRoomSnapshot commit.snapshot = .ok prepared := by
    rw [commitChange_eq, bind_eq_ok] at commits
    exact ⟨_, commits.choose_spec.1⟩
  obtain ⟨prepared, prepares⟩ := prepares
  obtain ⟨prepared', tables', change, operation, written, writes⟩ :=
    writes_of_commitChange commits
  cases stored.symm.trans writes.found
  obtain ⟨_, equality⟩ := (prepared_of_prepareRoomSnapshot prepares).equality
  obtain ⟨_, equality'⟩ := writes.preparation.equality
  have same : tables.replaced prepared = tables.replaced prepared' := by
    rw [Tables.replaced, Tables.replaced, equality, equality']
  obtain ⟨final, result, room, documents, _⟩ := writes.lookup
  refine ⟨prepared, final, prepares, result, ?_⟩
  rw [same, room, documents]
  cases kind : commit.change.streamKind with
  | document => exact writes.replaces_document distinct kind (allowed kind)
  | metadata => exact writes.replaces_metadata distinct kind

/-- The snapshot of a room with two documents. -/
def pairSnapshot : RoomSnapshot := { smallSnapshot with
  contentSize := 4
  documents := [smallDocument, { smallDocument with id := "notes", position := 1 }] }

/-- The tables of the room with two documents. -/
def pairTables : Tables := Room.createdTables pairSnapshot

/-- A commit of an operation to the room with two documents. -/
def pairCommit (snapshot : RoomSnapshot) (change : ChangeRecord) : ChangeCommit where
  snapshot := snapshot
  change := change
  compactThrough := 0
  operation := {
    operationID := "o", clientID := "c", fingerprint := String.ofList (List.replicate 64 'a')
    streamKind := change.streamKind, streamID := change.streamID, baseRevision := 0, revision := 1
    operationKind := change.kind, resultPayload := change.payload, createdAt := unixTime 2 }
  retainOperations := 32

/-- A letter is appended to the first document. -/
def appendCommit : ChangeCommit := pairCommit { pairSnapshot with
    contentSize := 5
    documents := [
      { smallDocument with content := "abc", currentRevision := 1, snapshotRevision := 1 },
      { smallDocument with id := "notes", position := 1 }] }
  (smallLetter 1)

/-- The first document is deleted. -/
def deleteCommit : ChangeCommit := pairCommit { pairSnapshot with
    contentSize := 2, metadataRevision := 1, metadataSnapshotRevision := 1
    documents := [{ smallDocument with id := "notes" }] } {
  streamKind := .metadata, streamID := metadataStreamID, revision := 1, kind := "document_delete"
  payload := .obj [("kind", .str "document_delete"), ("document_id", .str "main")]
  createdAt := unixTime 2 }

/-- The room with two documents. -/
def pairStore : Store := (∅ : Store).insert "demo" pairTables

/-- An edit of one of two documents, the deletion of the other, and an edit whose third statement
fails. -/
theorem commit_replaces_small :
    (∃ prepared written, prepareRoomSnapshot appendCommit.snapshot = .ok prepared ∧
      (commitTransaction (fun _ => none) id appendCommit (unixTime 2)
        ⟨pairStore, none, 0⟩).2.committed = pairStore.insert "demo" written ∧
      written.documents.Perm (prepared.documents.map documentRow)) ∧
    (∃ prepared written, prepareRoomSnapshot deleteCommit.snapshot = .ok prepared ∧
      (commitTransaction (fun _ => none) List.reverse deleteCommit (unixTime 2)
        ⟨pairStore, none, 0⟩).2.committed = pairStore.insert "demo" written ∧
      written.documents.Perm (prepared.documents.map documentRow)) ∧
    (commitTransaction (fun statement => if statement = 3 then some .database else none) id
      appendCommit (unixTime 2) ⟨pairStore, none, 0⟩).2.committed = pairStore := by
  have one : OneDocument pairTables appendCommit.snapshot "main" := ⟨rfl, .rfl, by decide⟩
  refine ⟨?_, ?_, ?_⟩
  · obtain ⟨prepared, written, prepares, committed, _, documents⟩ :=
      (@commit_replaces pairStore appendCommit pairTables (fun _ => none) id (unixTime 2)
        (fun _ => .rfl) rfl (by decide) (fun _ => one) 0).2.2 () (by decide +kernel)
    exact ⟨prepared, written, prepares, committed, documents⟩
  · obtain ⟨prepared, written, prepares, committed, _, documents⟩ :=
      (@commit_replaces pairStore deleteCommit pairTables (fun _ => none) List.reverse (unixTime 2)
        List.reverse_perm rfl (by decide) (fun kind => absurd kind (by decide)) 0).2.2 ()
          (by decide +kernel)
    exact ⟨prepared, written, prepares, committed, documents⟩
  · exact (@commit_replaces pairStore appendCommit pairTables _ id (unixTime 2) (fun _ => .rfl) rfl
      (by decide) (fun _ => one) 0).2.1 .database (by decide +kernel)

end Oxbin.Storage
