import Mathlib.Algebra.Order.BigOperators.Group.List
import Oxbin.Storage.Statements

/-!
# What the store accepts

The checks of `CommitChange`, from the facts that let them pass.
-/

namespace Oxbin.Storage

open Live Live.Room Tables

/-! ## Preparation -/

/-- The document loop of `prepareRoomSnapshot` accepts well-formed documents in their places. -/
theorem prepareDocuments_total {createdAt : Time} {index size : Int} {seen : List String}
    {documents : List DocumentSnapshot}
    (valid : ∀ document ∈ documents, ValidDocument document ∧ document.id ∉ seen)
    (distinct : (documents.map DocumentSnapshot.id).Nodup)
    (places : ∀ document ∈ documents,
      document.position = index + (documents.map DocumentSnapshot.id).idxOf document.id)
    (revisions : ∀ document ∈ documents, 0 ≤ document.snapshotRevision ∧
      document.snapshotRevision ≤ document.currentRevision)
    (nonneg : 0 ≤ size)
    (fits : size + (documents.map fun document => byteLen document.content).sum ≤ maxInt64) :
    ∃ prepared, prepareDocuments createdAt index seen size documents = .ok prepared := by
  induction documents generalizing index size seen with
  | nil => exact ⟨_, rfl⟩
  | cons document documents induction =>
      rw [List.map_cons, List.nodup_cons] at distinct
      obtain ⟨⟨id, name, language⟩, unseen⟩ := valid document (by simp)
      obtain ⟨first, second⟩ := revisions document (by simp)
      have place := places document (by simp)
      rw [List.map_cons, List.idxOf_cons_self, Nat.cast_zero, Int.add_zero] at place
      rw [List.map_cons, List.sum_cons] at fits
      have bytes : 0 ≤ byteLen document.content := Int.natCast_nonneg _
      have rest : 0 ≤ (documents.map fun document => byteLen document.content).sum :=
        List.sum_nonneg fun bytes member => by
          obtain ⟨other, _, rfl⟩ := List.mem_map.mp member
          exact Int.natCast_nonneg _
      obtain ⟨⟨later, total⟩, prepared⟩ := @induction (index + 1)
        (size + byteLen document.content) (document.id :: seen)
        (fun other member => by
          obtain ⟨validOther, unseenOther⟩ := valid other (by simp [member])
          refine ⟨validOther, fun known => ?_⟩
          rcases List.mem_cons.mp known with same | old
          · exact distinct.1 (same ▸ List.mem_map_of_mem member)
          · exact unseenOther old)
        distinct.2
        (fun other member => by
          have different : document.id ≠ other.id := fun same =>
            distinct.1 (same ▸ List.mem_map_of_mem member)
          have placed := places other (by simp [member])
          rw [List.map_cons, List.idxOf_cons_ne _ different] at placed
          rw [placed]
          push_cast
          omega)
        (fun other member => revisions other (by simp [member]))
        (by omega) (by omega)
      refine ⟨(timed createdAt document :: later, total), ?_⟩
      rw [prepareDocuments]
      simp only [bind_eq_ok, require_eq_ok, exists_const]
      refine ⟨⟨place, by omega, first, second⟩, ⟨id, name, language, ?_⟩, unseen, by omega,
        (later, total), prepared, rfl⟩
      rw [validateDocumentContent, require_eq_ok]
      exact ⟨by decide, by omega⟩

/-- The facts that let `prepareRoomSnapshot` pass. -/
structure Preparable (snapshot : RoomSnapshot) : Prop where
  preset : validLayoutPreset snapshot.layoutPreset = true
  slug : snapshot.slug ≠ "" ∧ Trimmed snapshot.slug
  metadata : 0 ≤ snapshot.metadataSnapshotRevision ∧
    snapshot.metadataSnapshotRevision ≤ snapshot.metadataRevision
  creator : snapshot.creatorTokenHash = [] ∨ snapshot.creatorTokenHash.length = 32
  expires : snapshot.expiresAt ≠ zeroTime ∧ snapshot.expiresAt > snapshot.createdAt
  nonempty : snapshot.documents ≠ []
  valid : ∀ document ∈ snapshot.documents, ValidDocument document
  distinct : (snapshot.documents.map DocumentSnapshot.id).Nodup
  places : ∀ document ∈ snapshot.documents,
    document.position = (snapshot.documents.map DocumentSnapshot.id).idxOf document.id
  revisions : ∀ document ∈ snapshot.documents, 0 ≤ document.snapshotRevision ∧
    document.snapshotRevision ≤ document.currentRevision
  fits : (snapshot.documents.map fun document => byteLen document.content).sum ≤ maxInt64

theorem Preparable.prepares {snapshot : RoomSnapshot} (preparable : Preparable snapshot)
    (created : snapshot.createdAt ≠ zeroTime) :
    ∃ prepared, prepareRoomSnapshot snapshot = .ok prepared := by
  obtain ⟨⟨documents, size⟩, prepared⟩ := @prepareDocuments_total snapshot.createdAt 0 0 []
    snapshot.documents (fun document member => ⟨preparable.valid document member, by simp⟩)
    preparable.distinct (fun document member => by
      rw [Int.zero_add]
      exact preparable.places document member)
    preparable.revisions le_rfl (by
      rw [Int.zero_add]
      exact preparable.fits)
  obtain ⟨first, second⟩ := preparable.metadata
  have named : snapshot.layoutPreset ≠ "" := fun empty => by
    have preset := preparable.preset
    rw [empty] at preset
    revert preset
    decide
  refine ⟨{ snapshot with documents, contentSize := size }, ?_⟩
  unfold prepareRoomSnapshot
  simp only [bind_eq_ok, require_eq_ok, exists_const, if_neg named]
  exact ⟨preparable.preset, preparable.slug, ⟨by omega, first, second⟩, preparable.creator,
    ⟨created, preparable.expires⟩, preparable.nonempty, (documents, size), prepared, rfl⟩

theorem prepareChange_total {change : ChangeRecord} (now : Time)
    (stream : validateStream change.streamKind change.streamID = .ok ())
    (revision : 0 < change.revision) (kind : validateRoomOperation change.kind = .ok ())
    (payload : change.payload.text ≠ []) :
    ∃ createdAt, prepareChange change now = .ok { change with createdAt } := by
  have known : change.kind ∈ operationKinds := by
    rwa [validateRoomOperation, require_eq_ok] at kind
  have plain : ∀ kind ∈ operationKinds, Trimmed kind ∧ kind ≠ "" := by decide
  obtain ⟨trimmed, named⟩ := plain _ known
  refine ⟨if change.createdAt = zeroTime then now else change.createdAt, ?_⟩
  unfold prepareChange
  rw [bind_eq_ok]
  refine ⟨(), stream, ?_⟩
  rw [require_bind_eq_ok]
  exact ⟨⟨revision, trimmed, named, kind, payload⟩, rfl⟩

theorem prepareOperation_total {operation : OperationRecord} {change : ChangeRecord} (now : Time)
    (operationID : operation.operationID ≠ "" ∧ Trimmed operation.operationID ∧
      byteLen operation.operationID ≤ 128)
    (clientID : operation.clientID ≠ "" ∧ Trimmed operation.clientID ∧
      byteLen operation.clientID ≤ 128)
    (digest : byteLen operation.fingerprint = 64 ∧ isHex operation.fingerprint = true)
    (base : 0 ≤ operation.baseRevision)
    (same : operation.revision = change.revision ∧ operation.streamKind = change.streamKind ∧
      operation.streamID = change.streamID ∧ operation.operationKind = change.kind ∧
      operation.resultPayload.text = change.payload.text) :
    ∃ createdAt, prepareOperation operation change now = .ok { operation with createdAt } := by
  refine ⟨if operation.createdAt = zeroTime then now else operation.createdAt, ?_⟩
  unfold prepareOperation
  simp only [bind_eq_ok, require_eq_ok, exists_const]
  exact ⟨operationID, clientID, ⟨digest.1, base, same⟩, digest.2, trivial⟩

theorem prepareDocuments_revisions {createdAt : Time} {index size size' : Int}
    {seen : List String} {documents documents' : List DocumentSnapshot}
    (prepared : prepareDocuments createdAt index seen size documents = .ok (documents', size')) :
    ∀ document ∈ documents', 0 ≤ document.currentRevision := by
  induction documents generalizing index seen size documents' with
  | nil =>
      cases prepared
      simp
  | cons document documents induction =>
      rw [prepareDocuments] at prepared
      simp only [bind_eq_ok, require_eq_ok, exists_const] at prepared
      obtain ⟨⟨_, current, _⟩, _, _, _, ⟨later, _⟩, rest, equality⟩ := prepared
      cases equality
      intro other member
      rcases List.mem_cons.mp member with rfl | tail
      · exact current
      · exact induction rest other tail

/-- What `prepareRoomSnapshot` checks of a room beside its documents. -/
theorem prepareRoomSnapshot_checked {snapshot prepared : RoomSnapshot}
    (prepares : prepareRoomSnapshot snapshot = .ok prepared) :
    validLayoutPreset prepared.layoutPreset = true ∧ 0 ≤ prepared.metadataRevision ∧
      (prepared.creatorTokenHash = [] ∨ prepared.creatorTokenHash.length = 32) ∧
      ∀ document ∈ prepared.documents, 0 ≤ document.currentRevision := by
  unfold prepareRoomSnapshot at prepares
  simp only [bind_eq_ok, require_eq_ok, exists_const] at prepares
  obtain ⟨preset, _, ⟨metadata, _⟩, creator, _, _, ⟨documents, size⟩, prepared', equality⟩ :=
    prepares
  cases equality
  exact ⟨preset, metadata, creator, prepareDocuments_revisions prepared'⟩

/-! ## Commits -/

/-- What a commit leaves of the row of the room, and which changes are stored after it. -/
theorem Writes.kept {store store' : Store} {commit : ChangeCommit} {now : Time}
    {prepared : RoomSnapshot} {tables written : Tables} {change : ChangeRecord}
    {operation : OperationRecord}
    (writes : Writes store commit now prepared tables change operation written store') :
    ∃ tables', store' = store.insert commit.snapshot.slug tables' ∧
      tables'.room.creatorTokenHash = tables.room.creatorTokenHash ∧
      tables'.room.createdAt = tables.room.createdAt ∧
      tables'.room.expiresAt = tables.room.expiresAt ∧
      ∀ row ∈ tables'.changes, row ∈ tables.changes ∨ row = changeRow change := by
  have rows : written.room.creatorTokenHash = tables.room.creatorTokenHash ∧
      written.room.createdAt = tables.room.createdAt ∧
      written.room.expiresAt = tables.room.expiresAt ∧
      written.changes = tables.changes ++ [changeRow change] := by
    cases kind : commit.change.streamKind with
    | document =>
        obtain ⟨_, _, _, _, _, room, _, changes, _⟩ := writes.document kind
        rw [room, changes]
        exact ⟨rfl, rfl, rfl, rfl⟩
    | metadata =>
        obtain ⟨room, _, changes, _⟩ := writes.metadata kind
        rw [room, changes]
        exact ⟨rfl, rfl, rfl, rfl⟩
  obtain ⟨creator, created, expires, changes⟩ := rows
  refine ⟨_, writes.result, ?_⟩
  split
  case isTrue =>
    refine ⟨creator, created, expires, fun row member => ?_⟩
    have stored : row ∈ written.changes := List.mem_of_mem_filter member
    rwa [changes, List.mem_append, List.mem_singleton] at stored
  case isFalse =>
    refine ⟨creator, created, expires, fun row member => ?_⟩
    have stored : row ∈ written.changes := member
    rwa [changes, List.mem_append, List.mem_singleton] at stored

/-- The store has no change of the stream with the revision. -/
def Unrecorded (tables : Tables) (change : ChangeRecord) : Prop :=
  ∀ row ∈ tables.changes,
    row.inStream change.streamKind change.streamID = true → row.revision ≠ change.revision

theorem insertChange_iff {tables : Tables} {change : ChangeRecord} :
    (∃ written, tables.insertChange change = .ok written) ↔ Unrecorded tables change := by
  unfold Tables.insertChange Unrecorded
  split
  case isTrue known =>
    obtain ⟨row, member, same⟩ := List.any_eq_true.mp known
    rw [Bool.and_eq_true, decide_eq_true_eq] at same
    constructor
    · rintro ⟨_, impossible⟩
      cases impossible
    · exact fun vacant => absurd same.2 (vacant row member same.1)
  case isFalse unknown =>
    refine ⟨fun _ row member stream revision => unknown ?_, fun _ => ⟨_, rfl⟩⟩
    refine List.any_eq_true.mpr ⟨row, member, ?_⟩
    rw [stream, Bool.true_and, decide_eq_true_eq]
    exact revision

/-- The facts that let a commit to the tables pass. -/
structure Committable (tables : Tables) (snapshot : RoomSnapshot) (change : ChangeRecord) :
    Prop where
  document : change.streamKind = .document → ∃ document row,
    documentOf snapshot.documents change.streamID = some document ∧
    document.currentRevision = change.revision ∧ document.snapshotRevision = change.revision ∧
    tables.room.metadataRevision = snapshot.metadataRevision ∧
    rowOf tables.documents document.id = some row ∧ row.currentRevision + 1 = change.revision
  metadata : change.streamKind = .metadata → change.revision = snapshot.metadataRevision ∧
    snapshot.metadataSnapshotRevision = change.revision ∧
    tables.room.metadataRevision + 1 = change.revision

theorem Committable.commitStream {tables : Tables} {snapshot : RoomSnapshot}
    {change : ChangeRecord} (committable : Committable tables snapshot change) :
    (∃ written, tables.commitStream snapshot change = .ok written) ↔ Unrecorded tables change := by
  rw [← insertChange_iff]
  unfold Tables.commitStream
  cases kind : change.streamKind with
  | document =>
      obtain ⟨document, row, listed, current, settled, metadata, stored, next⟩ :=
        committable.document kind
      unfold Tables.commitDocument
      rw [show (snapshot.documents.find? fun document => document.id == change.streamID) =
        some document from listed]
      simp only [require_bind_eq_ok]
      rw [show tables.document? document.id = some row from stored]
      simp only [bind_eq_ok, require_eq_ok, exists_const]
      constructor
      · rintro ⟨_, _, _, written, inserted, _⟩
        exact ⟨written, inserted⟩
      · rintro ⟨written, inserted⟩
        exact ⟨_, ⟨current, settled, metadata⟩, next, written, inserted, rfl⟩
  | metadata =>
      unfold Tables.commitMetadata
      simp only [bind_eq_ok, require_eq_ok, exists_const]
      constructor
      · rintro ⟨_, _, written, inserted, _⟩
        exact ⟨written, inserted⟩
      · rintro ⟨written, inserted⟩
        exact ⟨_, committable.metadata kind, written, inserted, rfl⟩

/-- With its checks passed a commit can only fail for a change at its revision. -/
theorem commitChange_iff {store : Store} {commit : ChangeCommit} {now : Time}
    {prepared : RoomSnapshot} {change : ChangeRecord} {operation : OperationRecord}
    {tables : Tables} (prepares : prepareRoomSnapshot commit.snapshot = .ok prepared)
    (checked : prepareChange commit.change now = .ok change)
    (limits : 0 ≤ commit.compactThrough ∧ commit.compactThrough ≤ commit.change.revision ∧
      1 ≤ commit.retainOperations)
    (recorded : prepareOperation commit.operation change now = .ok operation)
    (active : active store prepared.slug now = .ok tables)
    (expires : tables.room.expiresAt = unix prepared.expiresAt)
    (fresh : ∀ row ∈ tables.operations, row.operationID ≠ operation.operationID)
    (committable : Committable tables prepared change) :
    (∃ store', Store.commitChange store commit now false = .ok store') ↔
      Unrecorded tables change := by
  let inserted := { tables with operations := tables.operations ++ [operationRow operation] }
  have insertion : tables.insertOperation operation = .ok inserted :=
    insertOperation_eq_ok.mpr ⟨fresh, rfl⟩
  have streams := @Committable.commitStream inserted prepared change
    ⟨committable.document, committable.metadata⟩
  rw [show Unrecorded inserted change ↔ Unrecorded tables change from Iff.rfl] at streams
  rw [← streams, commitChange_eq, prepares]
  simp only [checkedChange, committedStore, bind_eq_ok, require_eq_ok, exists_const]
  constructor
  · rintro ⟨_, _, equality, change', same, _, operation', recorded', tables', active', _, inserted',
      insertion', written, branch, _⟩
    cases equality
    rw [checked] at same
    cases same
    cases recorded.symm.trans recorded'
    cases active.symm.trans active'
    cases insertion.symm.trans insertion'
    exact ⟨written, branch⟩
  · rintro ⟨written, branch⟩
    exact ⟨_, prepared, rfl, change, by rw [checked]; rfl, limits, operation, recorded, tables,
      active, expires, inserted, insertion, written, branch, rfl⟩

end Oxbin.Storage
