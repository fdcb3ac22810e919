import Oxbin.Data.Transaction
import Oxbin.Storage.Commit

/-!
# The statements of a commit

`CommitChange` executes its statements one after the other in a transaction, and any of them may
fail.  What the transaction leaves is what `Store.commitChange` computes at once, and it is the
rows that a replacement of the whole room would leave.
-/

namespace Oxbin.Storage

open Live Live.Room Tables Execution

/-! ## Statements -/

/-- A statement on the rows of a room; without the room it finds no rows. -/
def onRoom (slug : String) (write : Tables → Except LiveError Tables) (store : Store) :
    Except LiveError (Unit × Store) :=
  match store.lookup slug with
  | none => .ok ((), store)
  | some tables => (write tables).map fun tables => ((), store.insert slug tables)

/-- Update the row of a room that has not expired. -/
def updateRoom (slug : String) (now : Time) (set : RoomRow → RoomRow) :
    Store → Except LiveError (Unit × Store) :=
  onRoom slug fun tables =>
    .ok (if tables.room.expiresAt > unix now then { tables with room := set tables.room }
      else tables)

/-- Insert the row of a document; a second row with its ID is a constraint error. -/
def insertDocument (slug : String) (document : DocumentSnapshot) :
    Store → Except LiveError (Unit × Store) :=
  onRoom slug fun tables =>
    if document.id ∈ rowIDs tables.documents then .error .database
    else .ok { tables with documents := tables.documents ++ [documentRow document] }

/-- Update the row of a document. -/
def updateRow (slug : String) (document : DocumentSnapshot) :
    Store → Except LiveError (Unit × Store) :=
  onRoom slug fun tables =>
    .ok { tables with documents := updateDocument tables.documents document }

/-- Delete the row of a document. -/
def deleteDocument (slug documentID : String) : Store → Except LiveError (Unit × Store) :=
  onRoom slug fun tables =>
    .ok { tables with
      documents := tables.documents.filter fun row => row.documentID ≠ documentID }

/-- Read the revision of a document. -/
def readRevision (slug documentID : String) (store : Store) : Except LiveError (Int × Store) :=
  match (store.lookup slug).bind fun tables => tables.document? documentID with
  | none => .error .roomNotFound
  | some row => .ok (row.currentRevision, store)

/-- Read the IDs of the documents. -/
def readDocumentIDs (slug : String) (store : Store) : Except LiveError (List String × Store) :=
  .ok (((store.lookup slug).map fun tables => rowIDs tables.documents).getD [], store)

section Statements

variable (faults : Nat → Option LiveError) (ranged : List String → List String)

/-- `syncDocuments`; `ranged` is the order in which the map of the remaining IDs is ranged over. -/
def syncStatements (snapshot : RoomSnapshot) : Execution Store LiveError Unit := do
  let existing ← execute faults (readDocumentIDs snapshot.slug)
  snapshot.documents.forM fun document =>
    execute faults <|
      if document.id ∈ existing then updateRow snapshot.slug document
      else insertDocument snapshot.slug document
  (ranged (existing.filter fun id => id ∉ snapshot.documents.map DocumentSnapshot.id)).forM
    fun id => execute faults (deleteDocument snapshot.slug id)

/-- The document branch of `CommitChange`. -/
def documentStatements (snapshot : RoomSnapshot) (change : ChangeRecord) (now : Time)
    (metadataRevision : Int) : Execution Store LiveError Unit := do
  match snapshot.documents.find? fun document => document.id == change.streamID with
  | none => check (.error .revisionConflict)
  | some document =>
      check (require (document.currentRevision = change.revision ∧
        document.snapshotRevision = change.revision ∧
        metadataRevision = snapshot.metadataRevision) .revisionConflict)
      let currentRevision ← execute faults (readRevision snapshot.slug document.id)
      check (require (currentRevision + 1 = change.revision) .revisionConflict)
      execute faults (onRoom snapshot.slug fun tables => tables.insertChange change)
      execute faults (updateRoom snapshot.slug now fun room =>
        { room with contentSize := snapshot.contentSize })
      execute faults (updateRow snapshot.slug document)

/-- The metadata branch of `CommitChange`. -/
def metadataStatements (snapshot : RoomSnapshot) (change : ChangeRecord) (now : Time)
    (metadataRevision : Int) : Execution Store LiveError Unit := do
  check (require (change.revision = snapshot.metadataRevision ∧
    snapshot.metadataSnapshotRevision = change.revision ∧
    metadataRevision + 1 = change.revision) .revisionConflict)
  execute faults (onRoom snapshot.slug fun tables => tables.insertChange change)
  execute faults (updateRoom snapshot.slug now fun room => { room with
    contentSize := snapshot.contentSize
    metadataRevision := snapshot.metadataRevision
    metadataSnapshotRevision := snapshot.metadataSnapshotRevision })
  syncStatements faults ranged snapshot

/-- The branch of the stream. -/
def streamStatements (snapshot : RoomSnapshot) (change : ChangeRecord) (now : Time)
    (metadataRevision : Int) : Execution Store LiveError Unit :=
  match change.streamKind with
  | .document => documentStatements faults snapshot change now metadataRevision
  | .metadata => metadataStatements faults ranged snapshot change now metadataRevision

/-- The compaction of the stream. -/
def compactStatements (slug : String) (change : ChangeRecord) (through : Int) :
    Execution Store LiveError Unit :=
  if 0 < through then
    execute faults (onRoom slug fun tables =>
      .ok (tables.deleteChanges change.streamKind change.streamID through))
  else pure ()

/-- The transaction of `CommitChange`. -/
def commitStatements (commit : ChangeCommit) (snapshot : RoomSnapshot) (change : ChangeRecord)
    (operation : OperationRecord) (now : Time) : Execution Store LiveError Unit := do
  let tables ← execute faults fun store =>
    (active store snapshot.slug now).map fun tables => (tables, store)
  check (require (tables.room.expiresAt = unix snapshot.expiresAt) .revisionConflict)
  execute faults (onRoom snapshot.slug fun tables => tables.insertOperation operation)
  streamStatements faults ranged snapshot change now tables.room.metadataRevision
  compactStatements faults snapshot.slug change commit.compactThrough
  execute faults (onRoom snapshot.slug fun tables =>
    .ok (tables.pruneOperations commit.retainOperations))

/-- The change of a commit; its error is not passed on. -/
def checkedChange (commit : ChangeCommit) (now : Time) : Except LiveError ChangeRecord :=
  (prepareChange commit.change now).mapError fun _ => .invalidChange

/-- `CommitChange`, statement by statement. -/
def commitTransaction (commit : ChangeCommit) (now : Time) : Execution Store LiveError Unit := do
  let snapshot ← check (prepareRoomSnapshot commit.snapshot)
  let change ← check (checkedChange commit now)
  check (require (0 ≤ commit.compactThrough ∧ commit.compactThrough ≤ commit.change.revision ∧
    1 ≤ commit.retainOperations) .invalidChange)
  let operation ← check (prepareOperation commit.operation change now)
  transact faults (commitStatements faults ranged commit snapshot change operation now)

end Statements

/-! ## The statements refine the transaction -/

section Refinement

variable {faults : Nat → Option LiveError} {ranged : List String → List String} {store : Store}
  {tables : Tables} {slug : String} {α : Type} {next : Unit → Execution Store LiveError α}
  {rest : Tables → Except LiveError Store} {now : Time}

theorem onRoom_found (found : store.lookup slug = some tables)
    (write : Tables → Except LiveError Tables) :
    onRoom slug write store = (write tables).map fun tables => ((), store.insert slug tables) := by
  rw [onRoom, found]

theorem onRoom_insert (write : Tables → Except LiveError Tables) :
    onRoom slug write (store.insert slug tables) =
      (write tables).map fun tables => ((), store.insert slug tables) := by
  rw [onRoom, AList.lookup_insert]
  simp only [AList.insert_insert]

/-- A statement on the room that has been written. -/
theorem refines_onRoom {write : Tables → Except LiveError Tables}
    (continues : ∀ written, write tables = .ok written →
      Refines faults (next ()) (store.insert slug written) (rest written)) :
    Refines faults (execute faults (onRoom slug write) >>= next) (store.insert slug tables)
      (write tables >>= rest) :=
  refines_execute (onRoom_insert write) continues

/-- A statement on the room that cannot fail of itself. -/
theorem refines_onRoom_ok {write : Tables → Except LiveError Tables} {written : Tables}
    {outcome : Except LiveError Store} (effect : write tables = .ok written)
    (continues : Refines faults (next ()) (store.insert slug written) outcome) :
    Refines faults (execute faults (onRoom slug write) >>= next) (store.insert slug tables)
      outcome :=
  refines_write (by rw [onRoom_insert, effect]; rfl) continues

/-- Updating the row of the room while it is active. -/
theorem refines_updateRoom {set : RoomRow → RoomRow} {outcome : Except LiveError Store}
    (alive : tables.room.expiresAt > unix now)
    (continues : Refines faults (next ())
      (store.insert slug { tables with room := set tables.room }) outcome) :
    Refines faults (execute faults (updateRoom slug now set) >>= next) (store.insert slug tables)
      outcome :=
  refines_onRoom_ok (congrArg Except.ok (if_pos alive)) continues

/-- The document branch. -/
theorem refines_documentStatements (snapshot : RoomSnapshot) (change : ChangeRecord)
    (alive : tables.room.expiresAt > unix now)
    (continues : ∀ written,
      Refines faults (next ()) (store.insert snapshot.slug written) (rest written)) :
    Refines faults
      (documentStatements faults snapshot change now tables.room.metadataRevision >>= next)
      (store.insert snapshot.slug tables) (tables.commitDocument snapshot change >>= rest) := by
  unfold documentStatements Tables.commitDocument
  cases snapshot.documents.find? fun document => document.id == change.streamID with
  | none => exact refines_error _ next
  | some document =>
      simp only [Execution.bind_assoc, bind_assoc]
      refine refines_check fun _ _ => ?_
      have read : readRevision snapshot.slug document.id (store.insert snapshot.slug tables) =
          match tables.document? document.id with
          | none => .error .roomNotFound
          | some row => .ok (row.currentRevision, store.insert snapshot.slug tables) := by
        rw [readRevision, AList.lookup_insert]
        rfl
      cases stored : tables.document? document.id with
      | none =>
          rw [stored] at read
          exact refines_failure read
      | some row =>
          rw [stored] at read
          refine refines_write read ?_
          simp only [bind_assoc]
          refine refines_check fun _ _ => ?_
          refine refines_onRoom fun inserted insertion => ?_
          rw [insertChange_ok insertion]
          refine refines_updateRoom alive ?_
          exact refines_onRoom_ok rfl (continues _)

/-- Deleting rows one after the other. -/
theorem foldl_deleteDocument (rows : List DocumentRow) (ids : List String) :
    ids.foldl (fun rows id => rows.filter fun row => row.documentID ≠ id) rows =
      rows.filter fun row => row.documentID ∉ ids := by
  induction ids generalizing rows with
  | nil => simp
  | cons id ids induction =>
      rw [List.foldl_cons, induction, List.filter_filter]
      refine List.filter_congr fun row _ => ?_
      rw [← Bool.decide_and, decide_eq_decide, List.mem_cons, not_or, and_comm]

/-- The rows that are left are those of the documents. -/
theorem filter_synced {rows : List DocumentRow} {documents : List DocumentSnapshot}
    {left : List String} (nodup : (rowIDs rows).Nodup)
    (distinct : (documents.map DocumentSnapshot.id).Nodup)
    (remaining : left.Perm ((rowIDs rows).filter fun id =>
      id ∉ documents.map DocumentSnapshot.id)) :
    ((documents.foldl (syncDocument (rowIDs rows)) rows).filter fun row =>
      row.documentID ∉ left) = syncDocuments rows documents := by
  change _ = (documents.foldl (syncDocument (rowIDs rows)) rows).filter fun row =>
    row.documentID ∈ documents.map DocumentSnapshot.id
  obtain ⟨written, found⟩ := syncDocument_fold (rowIDs rows) nodup distinct fun _ _ => Iff.rfl
  refine List.filter_congr fun row member => ?_
  rw [decide_eq_decide, remaining.mem_iff, List.mem_filter, decide_eq_true_eq, not_and, not_not]
  refine ⟨fun kept => ?_, fun listed _ => listed⟩
  have stored := found row.documentID
  rw [rowOf_of_mem written member] at stored
  by_contra absent
  rw [documentOf_eq_none.mpr absent, Option.map_none, Option.none_or] at stored
  refine absent (kept ?_)
  by_contra unknown
  rw [rowOf_eq_none.mpr unknown] at stored
  cases stored

/-- `syncDocuments`. -/
theorem refines_syncStatements {snapshot : RoomSnapshot} {outcome : Except LiveError Store}
    (ranges : ∀ ids, (ranged ids).Perm ids) (nodup : (rowIDs tables.documents).Nodup)
    (distinct : (snapshot.documents.map DocumentSnapshot.id).Nodup)
    (continues : Refines faults (next ()) (store.insert snapshot.slug { tables with
      documents := syncDocuments tables.documents snapshot.documents }) outcome) :
    Refines faults (syncStatements faults ranged snapshot >>= next)
      (store.insert snapshot.slug tables) outcome := by
  unfold syncStatements
  simp only [Execution.bind_assoc]
  have read : readDocumentIDs snapshot.slug (store.insert snapshot.slug tables) =
      .ok (rowIDs tables.documents, store.insert snapshot.slug tables) := by
    rw [readDocumentIDs, AList.lookup_insert]
    rfl
  refine refines_write read ?_
  let state (rows : List DocumentRow) : Store :=
    store.insert snapshot.slug { tables with documents := rows }
  refine @refines_forM _ _ _ _ _ _ _ state (syncDocument (rowIDs tables.documents))
    (fun documents rows => (rowIDs rows).Nodup ∧ (documents.map DocumentSnapshot.id).Nodup ∧
      ∀ document ∈ documents,
        document.id ∈ rowIDs tables.documents ↔ document.id ∈ rowIDs rows)
    snapshot.documents tables.documents _ _ ?_ ⟨nodup, distinct, fun _ _ => Iff.rfl⟩ ?_
  · rintro document documents rows ⟨nodup, distinct, known⟩
    refine ⟨?_, (rowIDs_syncDocument nodup (known document (by simp))).1,
      distinct.of_cons, known_syncDocument nodup distinct known⟩
    have own := known document (by simp)
    unfold syncDocument
    split
    case isTrue old => exact onRoom_insert _
    case isFalse new =>
      refine (onRoom_insert _).trans ?_
      rw [if_neg (mt own.mpr new)]
      rfl
  · refine @refines_forM _ _ _ _ _ _ _ state
      (fun rows id => rows.filter fun row => row.documentID ≠ id) (fun _ _ => True)
      _ _ _ _ ?_ trivial ?_
    · intro id ids rows _
      exact ⟨onRoom_insert _, trivial⟩
    · rw [foldl_deleteDocument, filter_synced nodup distinct (ranges _)]
      exact continues

/-- The metadata branch. -/
theorem refines_metadataStatements (snapshot : RoomSnapshot) (change : ChangeRecord)
    (alive : tables.room.expiresAt > unix now) (ranges : ∀ ids, (ranged ids).Perm ids)
    (nodup : (rowIDs tables.documents).Nodup)
    (distinct : (snapshot.documents.map DocumentSnapshot.id).Nodup)
    (continues : ∀ written,
      Refines faults (next ()) (store.insert snapshot.slug written) (rest written)) :
    Refines faults
      (metadataStatements faults ranged snapshot change now tables.room.metadataRevision >>= next)
      (store.insert snapshot.slug tables) (tables.commitMetadata snapshot change >>= rest) := by
  unfold metadataStatements Tables.commitMetadata
  simp only [Execution.bind_assoc, bind_assoc]
  refine refines_check fun _ _ => ?_
  refine refines_onRoom fun inserted insertion => ?_
  rw [insertChange_ok insertion]
  refine refines_updateRoom alive ?_
  exact refines_syncStatements ranges nodup distinct (continues _)

/-- The branch of the stream. -/
theorem refines_streamStatements {snapshot : RoomSnapshot} {change : ChangeRecord}
    (alive : tables.room.expiresAt > unix now) (ranges : ∀ ids, (ranged ids).Perm ids)
    (nodup : (rowIDs tables.documents).Nodup)
    (distinct : (snapshot.documents.map DocumentSnapshot.id).Nodup)
    (continues : ∀ written,
      Refines faults (next ()) (store.insert snapshot.slug written) (rest written)) :
    Refines faults
      (streamStatements faults ranged snapshot change now tables.room.metadataRevision >>= next)
      (store.insert snapshot.slug tables) (tables.commitStream snapshot change >>= rest) := by
  unfold streamStatements Tables.commitStream
  cases change.streamKind with
  | document => exact refines_documentStatements snapshot change alive continues
  | metadata =>
      exact refines_metadataStatements snapshot change alive ranges nodup distinct continues

/-- What a commit computes in its transaction. -/
def committedStore (store : Store) (commit : ChangeCommit) (snapshot : RoomSnapshot)
    (change : ChangeRecord) (operation : OperationRecord) (now : Time) :
    Except LiveError Store := do
  let tables ← active store snapshot.slug now
  require (tables.room.expiresAt = unix snapshot.expiresAt) .revisionConflict
  let tables ← tables.insertOperation operation
  let tables ← tables.commitStream snapshot change
  .ok (store.insert snapshot.slug (Tables.pruneOperations
    (if 0 < commit.compactThrough then
      tables.deleteChanges change.streamKind change.streamID commit.compactThrough
    else tables) commit.retainOperations))

theorem commitChange_eq (store : Store) (commit : ChangeCommit) (now : Time) :
    Store.commitChange store commit now false = (do
      let snapshot ← prepareRoomSnapshot commit.snapshot
      let change ← checkedChange commit now
      require (0 ≤ commit.compactThrough ∧ commit.compactThrough ≤ commit.change.revision ∧
        1 ≤ commit.retainOperations) .invalidChange
      let operation ← prepareOperation commit.operation change now
      committedStore store commit snapshot change operation now) := by
  unfold Store.commitChange committedStore Tables.commitStream checkedChange
  refine bind_congr fun snapshot => ?_
  cases prepareChange commit.change now with
  | error error => rfl
  | ok prepared =>
      refine bind_congr fun change => bind_congr fun _ => bind_congr fun operation => ?_
      change (active store snapshot.slug now >>= _) = _
      refine bind_congr fun tables => bind_congr fun _ => bind_congr fun inserted => ?_
      cases change.streamKind with
      | document => rfl
      | metadata => rfl

/-- The transaction of a commit. -/
theorem refines_commitStatements {commit : ChangeCommit} {snapshot : RoomSnapshot}
    {change : ChangeRecord} {operation : OperationRecord}
    (ranges : ∀ ids, (ranged ids).Perm ids)
    (nodup : ∀ tables, store.lookup snapshot.slug = some tables →
      (rowIDs tables.documents).Nodup)
    (distinct : (snapshot.documents.map DocumentSnapshot.id).Nodup) :
    Refines faults (commitStatements faults ranged commit snapshot change operation now) store
      (committedStore store commit snapshot change operation now) := by
  unfold commitStatements committedStore
  refine refines_execute rfl fun tables selected => ?_
  obtain ⟨found, alive⟩ := active_eq_ok.mp selected
  refine refines_check fun _ _ => ?_
  refine refines_execute (onRoom_found found _) fun inserted insertion => ?_
  obtain ⟨_, equality⟩ := insertOperation_eq_ok.mp insertion
  have finish (written : Tables) : Refines faults (do
      compactStatements faults snapshot.slug change commit.compactThrough
      execute faults (onRoom snapshot.slug fun tables =>
        .ok (tables.pruneOperations commit.retainOperations)))
      (store.insert snapshot.slug written) (.ok (store.insert snapshot.slug (Tables.pruneOperations
        (if 0 < commit.compactThrough then
          written.deleteChanges change.streamKind change.streamID commit.compactThrough
        else written) commit.retainOperations))) := by
    have prune (tables : Tables) : Refines faults (execute faults (onRoom snapshot.slug
        fun tables => .ok (tables.pruneOperations commit.retainOperations)))
        (store.insert snapshot.slug tables)
        (.ok (store.insert snapshot.slug (tables.pruneOperations commit.retainOperations))) :=
      refines_last (onRoom_insert _)
    unfold compactStatements
    split
    case isTrue => exact refines_onRoom_ok rfl (prune _)
    case isFalse => exact prune _
  subst equality
  refine @refines_streamStatements faults ranged store
    { tables with operations := tables.operations ++ [operationRow operation] } _ _ _ _ _ _
    alive ranges (nodup tables found) distinct ?_
  exact finish

/-- `CommitChange` does at once what its statements do. -/
theorem settled_commitTransaction (commit : ChangeCommit) (now : Time)
    (ranges : ∀ ids, (ranged ids).Perm ids)
    (nodup : ∀ tables, store.lookup commit.snapshot.slug = some tables →
      (rowIDs tables.documents).Nodup) (statements : Nat) :
    Execution.Settled faults store (Store.commitChange store commit now false)
      (commitTransaction faults ranged commit now ⟨store, none, statements⟩) := by
  rw [commitChange_eq]
  unfold commitTransaction
  refine settled_check fun snapshot prepares => ?_
  refine settled_check fun change _ => ?_
  refine settled_check fun _ _ => ?_
  refine settled_check fun operation _ => ?_
  have prepared := prepared_of_prepareRoomSnapshot prepares
  obtain ⟨layoutPreset, equality⟩ := prepared.equality
  have slug : snapshot.slug = commit.snapshot.slug := by rw [equality]
  have distinct : (snapshot.documents.map DocumentSnapshot.id).Nodup := by
    rw [equality]
    exact (map_id_timed _ _).symm ▸ prepared.distinct
  exact settled_transact (refines_commitStatements ranges (slug ▸ nodup) distinct) statements

end Refinement

end Oxbin.Storage
