import Oxbin.Live.Reload

/-!
# Saving a commit

A room stays stored when an operation is committed to it: the document branch rewrites one row
and the metadata branch all of them, and both prune the ledger like the room does in memory.
-/

namespace Oxbin.Live

open Livecollab Storage Storage.Tables

namespace Room

/-! ## The committed room -/

/-- The room is the changed room after a commit that enters a record into the ledger. -/
structure Commits (changed : Room) (operationID : String) (record : LedgerRecord) (final : Room) :
    Prop where
  options : final.options = changed.options
  order : final.order = changed.order
  watchOnly : final.watchOnly = changed.watchOnly
  snapshot : final.snapshot = changed.durableSnapshot.2
  documents : ∀ id, (final.documents.lookup id).map Document.snapshot =
    (changed.documents.lookup id).map fun document => (saved changed.order id document).snapshot
  operationOrder : final.operationOrder = (pruneRecords (ledgerLimit changed.options)
    (changed.operationOrder ++ [operationID]) (changed.operations.insert operationID record)).1
  operations : final.operations = (pruneRecords (ledgerLimit changed.options)
    (changed.operationOrder ++ [operationID]) (changed.operations.insert operationID record)).2

theorem commits_document (changed : Room) (change : ChangeRecord) (fingerprint : String)
    (accepted : AcceptedDocumentOperation) (beforeLength : Int) :
    changed.Commits accepted.operationID ⟨fingerprint, .document accepted⟩
      (changed.committed change fingerprint (.document accepted) beforeLength) := by
  have documents := committed_document_lookup changed change fingerprint accepted beforeLength
  obtain ⟨_, equality⟩ := committed_document_eq changed change fingerprint accepted beforeLength
  constructor
  case documents =>
    intro id
    rw [documents, Option.map_map]
    congr 1
    funext document
    by_cases same : id = accepted.documentID <;> simp [same]
  all_goals rw [equality]

theorem commits_metadata (changed : Room) (change : ChangeRecord) (fingerprint : String)
    (accepted : AcceptedMetadataOperation) (beforeLength : Int) :
    changed.Commits accepted.operationID ⟨fingerprint, .metadata accepted⟩
      (changed.committed change fingerprint (.metadata accepted) beforeLength) := by
  constructor
  case documents =>
    intro id
    rw [committed_metadata_lookup, Option.map_map]
    rfl
  all_goals
    unfold committed recordCommitted recordMetadataOperation
    simp only [pruneOperationRecords_eq]
    split <;> rfl

/-- Pruning keeps the ledger in order. -/
theorem pruneRecords_ledger (limit : Nat) (order : List String) (operations : Keyed LedgerRecord)
    (nodup : order.Nodup) (recorded : ∀ id, id ∈ operations ↔ id ∈ order) :
    (pruneRecords limit order operations).1.Nodup ∧
      (∀ id, id ∈ (pruneRecords limit order operations).2 ↔
        id ∈ (pruneRecords limit order operations).1) ∧
      (pruneRecords limit order operations).1.length ≤ limit := by
  rw [pruneRecords_order]
  refine ⟨nodup.sublist (List.drop_sublist _ _), fun id => ?_, by rw [List.length_drop]; omega⟩
  have parts := List.take_append_drop (order.length - limit) order
  have member : id ∈ order ↔ id ∈ order.take (order.length - limit) ∨
      id ∈ order.drop (order.length - limit) := by
    rw [← List.mem_append, parts]
  have apart : id ∈ order.take (order.length - limit) → id ∉ order.drop (order.length - limit) := by
    intro early late
    rw [← parts] at nodup
    exact (List.nodup_append.mp nodup).2.2 id early id late rfl
  rw [← AList.lookup_isSome, pruneRecords_lookup]
  split
  case isTrue early => simpa using apart early
  case isFalse kept =>
    rw [AList.lookup_isSome, recorded, member]
    simp [kept]

section Commits

variable {changed final : Room} {operationID : String} {record : LedgerRecord}

theorem Commits.lookup (commits : changed.Commits operationID record final) {id : String}
    {document : Document} (found : final.documents.lookup id = some document) :
    ∃ before, changed.documents.lookup id = some before ∧
      document.snapshot = (saved changed.order id before).snapshot := by
  have documents := commits.documents id
  rw [found, Option.map_some] at documents
  obtain ⟨before, lookup, equality⟩ := Option.map_eq_some_iff.mp documents.symm
  exact ⟨before, lookup, equality.symm⟩

theorem saved_snapshot (order : List String) (id : String) (document : Document) :
    (saved order id document).snapshot.id = document.snapshot.id ∧
      (saved order id document).snapshot.name = document.snapshot.name ∧
      (saved order id document).snapshot.language = document.snapshot.language ∧
      (saved order id document).snapshot.content = document.snapshot.content := by
  unfold saved positioned
  split <;> exact ⟨rfl, rfl, rfl, rfl⟩

theorem Commits.bytesOf (commits : changed.Commits operationID record final) (id : String) :
    final.bytesOf id = changed.bytesOf id := by
  have documents := congrArg (Option.map fun snapshot : DocumentSnapshot =>
    byteLen snapshot.content) (commits.documents id)
  rw [Option.map_map, Option.map_map] at documents
  unfold Room.bytesOf
  refine congrArg (Option.getD · 0) (documents.trans ?_)
  congr 1
  funext document
  exact congrArg byteLen (saved_snapshot changed.order id document).2.2.2

/-- A commit keeps the room well formed. -/
theorem Commits.formed (commits : changed.Commits operationID record final)
    (formed : changed.Formed) (fresh : operationID ∉ changed.operations)
    (history : ∀ id document, final.documents.lookup id = some document →
      HistoryFormed document.history) : final.Formed := by
  have ledger := pruneRecords_ledger (ledgerLimit changed.options)
    (changed.operationOrder ++ [operationID]) (changed.operations.insert operationID record) (by
      refine formed.operationOrder.append (List.nodup_singleton _) ?_
      rw [List.disjoint_singleton, ← formed.recorded]
      exact fresh) (by
      intro id
      rw [AList.mem_insert, formed.recorded, List.mem_append, List.mem_singleton, or_comm])
  rw [← commits.operationOrder, ← commits.operations] at ledger
  constructor
  case slug =>
    rw [commits.snapshot]
    exact formed.slug
  case nonempty => exact commits.order ▸ formed.nonempty
  case order => exact commits.order ▸ formed.order
  case present =>
    intro id
    have documents := congrArg Option.isSome (commits.documents id)
    rw [Option.isSome_map, Option.isSome_map] at documents
    rw [commits.order, ← formed.present, ← AList.lookup_isSome, documents, AList.lookup_isSome]
  case documents =>
    intro id document found
    obtain ⟨before, lookup, equality⟩ := commits.lookup found
    obtain ⟨sameID, sameName, sameLanguage, _⟩ := saved_snapshot changed.order id before
    rw [← equality] at sameID sameName sameLanguage
    obtain ⟨keyed, valid, _⟩ := formed.documents id before lookup
    refine ⟨sameID.trans keyed, ⟨?_, ?_, ?_⟩, history id document found⟩
    · exact sameID ▸ valid.id
    · exact sameName ▸ valid.name
    · exact sameLanguage ▸ valid.language
  case size =>
    rw [bytes, commits.order, commits.options, List.map_congr_left fun id _ => commits.bytesOf id]
    exact formed.size
  case operationOrder => exact ledger.1
  case recorded => exact ledger.2.1
  case retained => exact commits.options ▸ ledger.2.2

end Commits

/-! ## The durable snapshot -/

/-- A document at a position. -/
def placed (position : Nat) (document : Document) : DocumentSnapshot :=
  { document.snapshot with position := position }

/-- The documents from a place in the order on. -/
def orderedFrom (documents : Keyed Document) (order : List String) (start : Nat) :
    List DocumentSnapshot :=
  (order.zipIdx start).filterMap fun entry =>
    (documents.lookup entry.1).map (placed entry.2)

theorem orderedFrom_cons (documents : Keyed Document) (id : String) (order : List String)
    (start : Nat) : orderedFrom documents (id :: order) start =
      ((documents.lookup id).map (placed start)).toList ++
        orderedFrom documents order (start + 1) := by
  unfold orderedFrom
  rw [List.zipIdx_cons, List.filterMap_cons]
  cases documents.lookup id <;> rfl

theorem documentOf_orderedFrom {documents : Keyed Document} {order : List String}
    (nodup : order.Nodup)
    (keyed : ∀ id document, documents.lookup id = some document → document.snapshot.id = id)
    (start : Nat) (id : String) : documentOf (orderedFrom documents order start) id =
      if id ∈ order then (documents.lookup id).map (placed (start + order.idxOf id)) else none := by
  induction order generalizing start with
  | nil => rfl
  | cons first order induction =>
      rw [List.nodup_cons] at nodup
      have tail := induction nodup.2 (start + 1)
      rw [orderedFrom_cons]
      by_cases same : first = id
      · subst same
        rw [if_neg nodup.1] at tail
        rw [if_pos List.mem_cons_self, List.idxOf_cons_self, Nat.add_zero]
        cases lookup : documents.lookup first with
        | none => exact tail
        | some document =>
            rw [Option.map_some, Option.toList_some, List.singleton_append, documentOf_cons]
            exact if_pos (keyed first document lookup)
      · rw [List.idxOf_cons_ne _ same, show start + (order.idxOf id).succ =
          start + 1 + order.idxOf id by omega]
        have member : id ∈ first :: order ↔ id ∈ order := by simp [Ne.symm same]
        simp only [member]
        rw [← tail]
        cases lookup : documents.lookup first with
        | none => rfl
        | some document =>
            rw [Option.map_some, Option.toList_some, List.singleton_append, documentOf_cons]
            exact if_neg fun equal => same ((keyed _ _ lookup).symm.trans equal)

/-- The documents that a durable snapshot lists. -/
theorem documents_durable (changed : Room) : changed.durableSnapshot.2.documents =
    (orderedFrom changed.documents changed.order 0).map fun document =>
      { document with snapshotRevision := document.currentRevision } := rfl

theorem documentOf_durable {changed : Room} (formed : changed.Formed) (id : String) :
    documentOf changed.durableSnapshot.2.documents id =
      (changed.documents.lookup id).map fun document =>
        (saved changed.order id document).snapshot := by
  have ordered := documentOf_orderedFrom formed.order
    (fun id document lookup => (formed.documents id document lookup).keyed) 0 id
  rw [documents_durable, documentOf, List.find?_map]
  unfold documentOf at ordered
  refine (congrArg (Option.map _) ordered).trans ?_
  rw [Nat.zero_add]
  split
  case isTrue member =>
    rw [Option.map_map]
    congr 1
    funext document
    simp only [saved, positioned, if_pos member, Document.settled]
    rfl
  case isFalse absent =>
    rw [AList.lookup_eq_none.mpr (mt (formed.present id).mp absent)]
    rfl

/-- The contents that a durable snapshot lists. -/
theorem bytes_durable {changed : Room} (formed : changed.Formed) :
    (changed.durableSnapshot.2.documents.map fun document => byteLen document.content).sum =
      changed.bytes := by
  have ordered (order : List String) (start : Nat) (known : ∀ id ∈ order, id ∈ changed.documents) :
      ((orderedFrom changed.documents order start).map fun document =>
        byteLen document.content) = order.map changed.bytesOf := by
    induction order generalizing start with
    | nil => rfl
    | cons first order induction =>
        obtain ⟨document, lookup⟩ := mem_documents_iff.mp (known first (by simp))
        have tail := induction (start + 1) fun id member => known id (by simp [member])
        rw [orderedFrom_cons, List.map_append, tail, List.map_cons, bytesOf, lookup]
        rfl
  have all := ordered changed.order 0 fun id member => (formed.present id).mpr member
  rw [documents_durable, bytes, ← all, List.map_map]
  rfl

/-! ## The row of an operation -/

/-- A durable record of a document operation is loaded. -/
theorem operationRecordFromDurable_document (room : Room) (operation : OperationRecord)
    {changes : ChangeSet} (kind : operation.streamKind = .document)
    (named : ensureOperationIDs operation.operationID operation.clientID = .ok ())
    (digest : byteLen operation.fingerprint = 64) (revision : 0 < operation.revision)
    (base : 0 ≤ operation.baseRevision) (pushes : operation.operationKind = "push_changes")
    (valid : validateDocumentID operation.streamID = .ok ())
    (payload : decodeDocumentChange operation.resultPayload = .ok changes) :
    ∃ document, room.operationRecordFromDurable operation =
      .ok ⟨operation.fingerprint, .document {
        operationID := operation.operationID, clientID := operation.clientID
        documentID := operation.streamID, baseVersion := operation.baseRevision
        revision := operation.revision, changes, document, duplicate := false }⟩ := by
  unfold operationRecordFromDurable
  simp only [require_bind_eq_ok, kind, payload]
  exact ⟨_, ⟨named, digest, revision, base⟩, ⟨pushes, valid⟩, rfl⟩

/-- A durable record of a metadata operation is loaded. -/
theorem operationRecordFromDurable_metadata (room : Room) (operation : OperationRecord)
    (persisted : PersistedMetadataChange) (kind : operation.streamKind = .metadata)
    (named : ensureOperationIDs operation.operationID operation.clientID = .ok ())
    (digest : byteLen operation.fingerprint = 64) (revision : 0 < operation.revision)
    (base : 0 ≤ operation.baseRevision) (stream : operation.streamID = metadataStreamID)
    (payload : operation.resultPayload = persisted.payload)
    (same : persisted.kind = operation.operationKind) :
    room.operationRecordFromDurable operation =
      .ok ⟨operation.fingerprint, .metadata {
        operationID := operation.operationID, clientID := operation.clientID
        kind := persisted.kind, documentID := persisted.documentID
        revision := operation.revision, name := persisted.name, language := persisted.language
        content := persisted.content, order := persisted.order, state := room.state
        duplicate := false }⟩ := by
  unfold operationRecordFromDurable
  simp only [bind_eq_ok, require_eq_ok, exists_const, kind, payload, decodeMetadataChange_payload]
  exact ⟨⟨named, digest, revision, base⟩, stream, persisted, rfl, same, rfl⟩
/-- The row of a committed operation. -/
def committedRow (change : ChangeRecord) (fingerprint : String) (result : OperationResult)
    (backup : Room) (createdAt : Time) : OperationRow :=
  operationRow { operationRecord change fingerprint result backup with createdAt }

section Row

variable {fingerprint : String} {now createdAt : Time} {backup : Room}

/-- The row of an accepted document operation. -/
theorem decodes_document {accepted : AcceptedDocumentOperation}
    (named : ensureOperationIDs accepted.operationID accepted.clientID = .ok ())
    (digest : byteLen fingerprint = 64) (revision : 0 < accepted.revision)
    (base : 0 ≤ accepted.baseVersion) (valid : validateDocumentID accepted.documentID = .ok ())
    (canonical : accepted.changes.Canonical) :
    (committedRow (documentChange accepted now) fingerprint (.document accepted) backup
      createdAt).Decodes ⟨fingerprint, .document accepted⟩ := by
  intro room
  obtain ⟨_, loaded⟩ := room.operationRecordFromDurable_document
    (committedRow (documentChange accepted now) fingerprint (.document accepted) backup
      createdAt).record rfl named digest revision base rfl valid
    (decodeDocumentChange_encode canonical)
  exact ⟨_, loaded, rfl⟩

/-- The row of an accepted metadata operation. -/
theorem decodes_metadata {room : Room} {operation : MetadataOperation} {effect : MetadataEffect}
    (named : ensureOperationIDs operation.operationID operation.clientID = .ok ())
    (digest : byteLen fingerprint = 64) (revision : 0 < room.snapshot.metadataRevision + 1)
    (base : 0 ≤ backup.snapshot.metadataRevision) :
    (committedRow (room.metadataChange operation effect now) fingerprint
      (.metadata (room.acceptedMetadata operation effect)) backup createdAt).Decodes
        ⟨fingerprint, .metadata (room.acceptedMetadata operation effect)⟩ := by
  intro reader
  have loaded := reader.operationRecordFromDurable_metadata
    (committedRow (room.metadataChange operation effect now) fingerprint
      (.metadata (room.acceptedMetadata operation effect)) backup createdAt).record
    (persistedMetadata operation effect) rfl named digest revision base rfl rfl rfl
  exact ⟨_, loaded, rfl⟩

end Row

/-! ## The written tables -/

/-- The room has the settings of another one, and its ledger. -/
structure SameSettings (room changed : Room) : Prop where
  options : changed.options = room.options
  slug : changed.snapshot.slug = room.snapshot.slug
  layoutPreset : changed.snapshot.layoutPreset = room.snapshot.layoutPreset
  expiresAt : changed.snapshot.expiresAt = room.snapshot.expiresAt
  watchOnly : changed.watchOnly = room.watchOnly
  operations : changed.operations = room.operations
  operationOrder : changed.operationOrder = room.operationOrder

/-- Tables after a commit to a room that they held before. -/
structure Saved (tables : Tables) (changed : Room) (row : OperationRow) (tables' : Tables) :
    Prop where
  room : ∃ contentSize, contentSize ≤ changed.options.maxBytes ∧ tables'.room = { tables.room with
    contentSize
    metadataRevision := changed.snapshot.metadataRevision
    metadataSnapshotRevision := changed.snapshot.metadataRevision }
  distinct : (rowIDs tables'.documents).Nodup
  rows : ∀ id, (rowOf tables'.documents id).map DocumentRow.timeless =
    (changed.documents.lookup id).map (rowFor changed.order id)
  fresh : ∀ other ∈ tables.operations, other.operationID ≠ row.operationID
  operations : tables'.operations = (tables.operations ++ [row]).drop
    ((tables.operations ++ [row]).length - ledgerLimit changed.options)

theorem rowFor_saved (order : List String) (id : String) {document saved' : Document}
    (same : saved'.snapshot = (saved order id document).snapshot) :
    rowFor order id saved' = rowFor order id document := by
  unfold rowFor saved positioned at *
  split
  case isTrue member =>
    simp only [if_pos member, Document.settled] at same ⊢
    rw [same]
  case isFalse absent =>
    simp only [if_neg absent, Document.settled] at same ⊢
    rw [same]

theorem rowFor_positioned (order : List String) (id : String) (document : Document) :
    rowFor order id (positioned order id document) = rowFor order id document := by
  unfold rowFor saved positioned
  split <;> rfl

/-- After a commit the room is stored again. -/
theorem Saved.stored {room changed final : Room} {tables tables' : Tables} {row : OperationRow}
    {record : LedgerRecord} (saved : Saved tables changed row tables')
    (commits : changed.Commits row.operationID record final) (settings : room.SameSettings changed)
    (stored : room.Stored tables) (formed : final.Formed) (decodes : row.Decodes record) :
    final.Stored tables' := by
  obtain ⟨contentSize, fits, roomRow⟩ := saved.room
  have ledgerOrder : final.operationOrder = tables'.operations.map OperationRow.operationID := by
    rw [saved.operations, commits.operationOrder, pruneRecords_order, settings.operationOrder,
      List.map_drop, List.map_append, ← stored.ledgerOrder, List.length_append,
      List.length_append, stored.ledgerOrder, List.length_map]
    rfl
  constructor
  case slug =>
    rw [roomRow, commits.snapshot]
    exact stored.slug.trans settings.slug.symm
  case locked =>
    rw [roomRow, commits.watchOnly]
    exact stored.locked.trans settings.watchOnly.symm
  case layoutPreset =>
    rw [roomRow, commits.snapshot]
    exact stored.layoutPreset.trans settings.layoutPreset.symm
  case metadataRevision =>
    rw [roomRow, commits.snapshot]
    rfl
  case metadataSnapshotRevision =>
    rw [roomRow, commits.snapshot]
    rfl
  case expiresAt =>
    rw [roomRow, commits.snapshot]
    exact stored.expiresAt.trans (congrArg unix settings.expiresAt.symm)
  case lifetime =>
    rw [roomRow]
    exact stored.lifetime
  case contentSize =>
    rw [roomRow, commits.options]
    exact fits
  case distinct => exact saved.distinct
  case rows =>
    intro id
    rw [saved.rows, commits.order]
    have documents := commits.documents id
    cases lookup : changed.documents.lookup id with
    | none =>
        rw [lookup, Option.map_none, Option.map_eq_none_iff] at documents
        rw [documents]
    | some document =>
        rw [lookup, Option.map_some, Option.map_eq_some_iff] at documents
        obtain ⟨document', found, same⟩ := documents
        rw [found, Option.map_some, Option.map_some, rowFor_saved _ _ same]
  case ledgerOrder => exact ledgerOrder
  case ledger =>
    intro other member
    have listed : other.operationID ∈ final.operations := by
      rw [formed.recorded, ledgerOrder]
      exact List.mem_map_of_mem member
    obtain ⟨found, lookup⟩ := Option.isSome_iff_exists.mp (AList.lookup_isSome.mpr listed)
    have kept := lookup
    rw [commits.operations, pruneRecords_lookup] at kept
    split at kept
    case isTrue => cases kept
    case isFalse =>
      rw [Keyed.lookup_insert_if, settings.operations] at kept
      have written := List.mem_of_mem_drop (saved.operations ▸ member)
      rcases List.mem_append.mp written with old | new
      · rw [if_neg (saved.fresh other old)] at kept
        obtain ⟨record', lookup', decodes'⟩ := stored.ledger other old
        rw [kept] at lookup'
        cases lookup'
        exact ⟨found, lookup, decodes'⟩
      · cases List.mem_singleton.mp new
        rw [if_pos rfl] at kept
        cases kept
        exact ⟨record, lookup, decodes⟩

section Branches

variable {room changed backup : Room} {store store' : Store} {change change' : ChangeRecord}
  {fingerprint : String} {result : OperationResult} {now : Time} {prepared : RoomSnapshot}
  {tables written : Tables} {operation : OperationRecord}

/-- The documents of the prepared snapshot, as rows. -/
theorem documentOf_prepared
    (writes : Writes store (changed.commitOf change fingerprint result backup) now prepared tables
      change' operation written store') (formed : changed.Formed) (id : String) :
    ((documentOf prepared.documents id).map documentRow).map DocumentRow.timeless =
      (changed.documents.lookup id).map (rowFor changed.order id) := by
  obtain ⟨_, equality⟩ := writes.preparation.equality
  have documents := congrArg RoomSnapshot.documents equality
  rw [documents, documentOf, List.find?_map]
  have found := documentOf_durable formed id
  unfold documentOf at found
  refine (congrArg (fun document => Option.map DocumentRow.timeless (Option.map documentRow
    (Option.map (timed changed.snapshot.createdAt) document))) found).trans ?_
  rw [Option.map_map, Option.map_map, Option.map_map]
  rfl

theorem contentSize_prepared
    (writes : Writes store (changed.commitOf change fingerprint result backup) now prepared tables
      change' operation written store') (formed : changed.Formed) :
    prepared.contentSize ≤ changed.options.maxBytes := by
  obtain ⟨_, equality⟩ := writes.preparation.equality
  have size := congrArg RoomSnapshot.contentSize equality
  exact (size.trans (bytes_durable formed)).le.trans formed.size

/-- The document branch of a commit. -/
theorem saved_document
    (writes : Writes store (changed.commitOf change fingerprint result backup) now prepared tables
      change' operation written store')
    (kind : change.streamKind = .document) (formed : changed.Formed) (stored : room.Stored tables)
    (metadata : changed.snapshot.metadataRevision = room.snapshot.metadataRevision)
    (others : ∀ id, id ≠ change.streamID → (changed.documents.lookup id).map
      (rowFor changed.order id) = (room.documents.lookup id).map (rowFor room.order id)) :
    ∃ tables' createdAt, store' = store.insert changed.snapshot.slug tables' ∧
      Saved tables changed (committedRow change fingerprint result backup createdAt) tables' := by
  obtain ⟨createdAt, recorded⟩ := writes.recorded
  obtain ⟨document, row, listed, present, _, roomRow, documents, _, operations⟩ :=
    writes.document kind
  obtain ⟨tables', inserted, roomRow', documents', operations'⟩ := writes.lookup
  have id : document.id = change.streamID := id_of_documentOf listed
  have own := documentOf_prepared writes formed change.streamID
  rw [show documentOf prepared.documents change.streamID = some document from listed,
    Option.map_some, Option.map_some] at own
  refine ⟨tables', createdAt, inserted, ?_⟩
  constructor
  case room =>
    refine ⟨prepared.contentSize, contentSize_prepared writes formed, ?_⟩
    have settled := stored.metadataSnapshotRevision.trans stored.metadataRevision.symm
    rw [roomRow', roomRow, metadata, ← stored.metadataRevision]
    simp only [settled]
  case distinct =>
    rw [documents', documents, rowIDs_updateDocument]
    exact stored.distinct
  case rows =>
    intro id'
    rw [documents', documents, rowOf_updateDocument]
    split
    case isTrue same =>
      subst same
      rw [present, id, ← own]
      rfl
    case isFalse other =>
      rw [others id' (id ▸ other)]
      exact stored.rows id'
  case fresh =>
    intro other member
    have fresh := writes.fresh other member
    rwa [recorded] at fresh
  case operations =>
    rw [operations', operations, recorded]
    rfl

/-- The metadata branch of a commit. -/
theorem saved_metadata
    (writes : Writes store (changed.commitOf change fingerprint result backup) now prepared tables
      change' operation written store')
    (kind : change.streamKind = .metadata) (formed : changed.Formed)
    (stored : room.Stored tables) :
    ∃ tables' createdAt, store' = store.insert changed.snapshot.slug tables' ∧
      Saved tables changed (committedRow change fingerprint result backup createdAt) tables' := by
  obtain ⟨createdAt, recorded⟩ := writes.recorded
  obtain ⟨roomRow, documents, _, operations⟩ := writes.metadata kind
  obtain ⟨tables', inserted, roomRow', documents', operations'⟩ := writes.lookup
  obtain ⟨_, equality⟩ := writes.preparation.equality
  have distinct : (prepared.documents.map DocumentSnapshot.id).Nodup := by
    rw [congrArg RoomSnapshot.documents equality, map_id_timed]
    exact writes.preparation.distinct
  obtain ⟨nodup, rows⟩ := syncDocuments_spec stored.distinct distinct
  refine ⟨tables', createdAt, inserted, ?_⟩
  constructor
  case room =>
    refine ⟨prepared.contentSize, contentSize_prepared writes formed, ?_⟩
    rw [roomRow', roomRow, congrArg RoomSnapshot.metadataRevision equality]
    rfl
  case distinct =>
    rw [documents', documents]
    exact nodup
  case rows =>
    intro id
    rw [documents', documents, rows]
    exact documentOf_prepared writes formed id
  case fresh =>
    intro other member
    have fresh := writes.fresh other member
    rwa [recorded] at fresh
  case operations =>
    rw [operations', operations, recorded]
    rfl

end Branches

end Room

end Oxbin.Live
