import Oxbin.Live.Stored

/-!
# Reloading a room

A room that is stored can be rebuilt from its tables at any time before it expires, and what is
rebuilt is stored by the same tables.
-/

namespace Oxbin.Live

open Livecollab Storage Storage.Tables

namespace Room

/-! ## Documents -/

/-- A document as `newRoom` loads it. -/
def loadedDocument (document : DocumentSnapshot) : Document where
  snapshot := document
  history := []
  historyBytes := 0
  compactedRevision := document.snapshotRevision

theorem addDocuments_ok {options : HubOptions} {documents : List DocumentSnapshot}
    {start : Keyed Document} (distinct : (documents.map DocumentSnapshot.id).Nodup)
    (fresh : ∀ document ∈ documents, document.id ∉ start)
    (valid : ∀ document ∈ documents, ValidDocument document ∧ 0 ≤ options.maxBytes ∧
      byteLen document.content ≤ options.maxBytes) :
    ∃ loaded, addDocuments options documents start = .ok loaded := by
  induction documents generalizing start with
  | nil => exact ⟨start, rfl⟩
  | cons document documents induction =>
      rw [List.map_cons, List.nodup_cons] at distinct
      obtain ⟨⟨id, name, language⟩, nonneg, content⟩ := valid document (by simp)
      obtain ⟨loaded, equality⟩ := @induction
        (start.insert document.id (loadedDocument document)) distinct.2 (by
        intro other member
        rw [AList.mem_insert, not_or]
        refine ⟨fun same => distinct.1 ?_, fresh other (by simp [member])⟩
        rw [← same]
        exact List.mem_map_of_mem member) fun other member => valid other (by simp [member])
      refine ⟨loaded, ?_⟩
      rw [addDocuments, require_bind_eq_ok]
      refine ⟨⟨fresh document (by simp), id, name, language, ?_⟩, equality⟩
      rw [validateDocumentContent, require_eq_ok]
      exact ⟨nonneg, content⟩

/-- The documents that `newRoom` has checked and loaded. -/
theorem addDocuments_lookup {options : HubOptions} {documents : List DocumentSnapshot}
    {start loaded : Keyed Document} (added : addDocuments options documents start = .ok loaded) :
    (documents.map DocumentSnapshot.id).Nodup ∧
      (∀ document ∈ documents, ValidDocument document ∧ document.id ∉ start) ∧
      ∀ id, loaded.lookup id =
        ((documentOf documents id).map loadedDocument).or (start.lookup id) := by
  induction documents generalizing start with
  | nil =>
      cases added
      exact ⟨.nil, by simp, fun _ => rfl⟩
  | cons document documents induction =>
      rw [addDocuments, require_bind_eq_ok] at added
      obtain ⟨⟨fresh, id, name, language, _⟩, added⟩ := added
      obtain ⟨distinct, valid, lookup⟩ := induction added
      have apart : document.id ∉ documents.map DocumentSnapshot.id := by
        intro member
        obtain ⟨other, later, same⟩ := List.mem_map.mp member
        exact (valid other later).2 (by rw [AList.mem_insert]; exact .inl same)
      refine ⟨List.nodup_cons.mpr ⟨apart, distinct⟩, fun other member => ?_, fun key => ?_⟩
      · rcases List.mem_cons.mp member with rfl | later
        · exact ⟨⟨id, name, language⟩, fresh⟩
        · obtain ⟨otherValid, unknown⟩ := valid other later
          exact ⟨otherValid, fun old => unknown (by rw [AList.mem_insert]; exact .inr old)⟩
      · rw [lookup, Keyed.lookup_insert_if, documentOf_cons]
        by_cases same : document.id = key
        · subst same
          rw [if_pos rfl, if_pos rfl, documentOf_eq_none.mpr apart]
          rfl
        · rw [if_neg same, if_neg (Ne.symm same)]

/-- A room whose snapshots do not trail has nothing to replay. -/
theorem replay_settled {room : Room} {store : Store} {fault : Bool}
    (metadata : room.snapshot.metadataRevision ≤ room.snapshot.metadataSnapshotRevision)
    (settled : ∀ id ∈ room.order, ∃ document, room.documents.lookup id = some document ∧
      document.snapshot.currentRevision ≤ document.snapshot.snapshotRevision) :
    room.replay store fault = .ok room.syncSnapshot := by
  have documents (order : List String) (listed : ∀ id ∈ order, id ∈ room.order) :
      order.foldlM (fun room documentID => room.replayDocument store fault documentID) room =
        .ok room := by
    induction order with
    | nil => rfl
    | cons id order induction =>
        obtain ⟨document, lookup, current⟩ := settled id (listed id (by simp))
        have replayed : room.replayDocument store fault id = .ok room := by
          unfold replayDocument
          rw [lookup]
          exact if_pos current
        rw [List.foldlM_cons, replayed]
        exact induction fun other member => listed other (by simp [member])
  unfold replay
  rw [if_neg (by omega)]
  have all := documents room.order fun _ member => member
  simp only [bind, Except.bind] at all ⊢
  rw [all]

/-! ## The ledger -/

/-- Loading operations enters each of them under its ID. -/
theorem loadOperation_fold {room : Room} {rows : List OperationRow}
    (distinct : (rows.map OperationRow.operationID).Nodup)
    (fresh : ∀ row ∈ rows, row.operationID ∉ room.operations)
    (decodes : ∀ row ∈ rows, ∃ record, row.Decodes record) :
    ∃ operations, (rows.map OperationRow.record).foldlM loadOperation room =
        .ok { room with
          operations
          operationOrder := room.operationOrder ++ rows.map OperationRow.operationID } ∧
      (∀ id, id ∉ rows.map OperationRow.operationID →
        operations.lookup id = room.operations.lookup id) ∧
      ∀ row ∈ rows, ∃ record, operations.lookup row.operationID = some record ∧
        row.Decodes record := by
  induction rows generalizing room with
  | nil => exact ⟨room.operations, by simp [pure, Except.pure], fun _ _ => rfl, by simp⟩
  | cons row rows induction =>
      rw [List.map_cons, List.nodup_cons] at distinct
      obtain ⟨record, decoded⟩ := decodes row (by simp)
      obtain ⟨loaded, load, retained⟩ := decoded room
      have loads : room.loadOperation row.record =
          .ok (room.recordOperation row.operationID loaded) := by
        unfold loadOperation
        rw [load]
        exact require_bind_eq_ok.mpr ⟨fresh row (by simp), rfl⟩
      obtain ⟨operations, equality, others, found⟩ := @induction
        (room.recordOperation row.operationID loaded) distinct.2 (by
          intro other member
          rw [recordOperation, AList.mem_insert, not_or]
          refine ⟨fun same => distinct.1 ?_, fresh other (by simp [member])⟩
          rw [← same]
          exact List.mem_map_of_mem member) fun other member => decodes other (by simp [member])
      refine ⟨operations, ?_, fun id absent => ?_, fun other member => ?_⟩
      · rw [List.map_cons, List.foldlM_cons, loads]
        simp only [bind, Except.bind]
        rw [equality, recordOperation, List.map_cons, List.append_assoc]
        rfl
      · rw [List.map_cons, List.mem_cons, not_or] at absent
        rw [others id absent.2, recordOperation, AList.lookup_insert_ne absent.1]
      · rcases List.mem_cons.mp member with rfl | later
        · refine ⟨loaded, ?_, ?_⟩
          · rw [others _ distinct.1, recordOperation, AList.lookup_insert]
          · intro room'
            obtain ⟨loaded', load', retained'⟩ := decoded room'
            exact ⟨loaded', load', retained'.trans retained.symm⟩
        · exact found other later

/-! ## The whole room -/

@[simp] theorem unix_unixTime (seconds : Int) : unix (unixTime seconds) = seconds :=
  Int.mul_ediv_cancel _ (by decide)

section Load

variable {room : Room} {tables : Tables}

/-- The row of a document. -/
theorem Stored.row_spec (stored : room.Stored tables) (formed : room.Formed) {id : String}
    {row : DocumentRow} (found : rowOf tables.documents id = some row) :
    id ∈ room.order ∧ row.position = room.order.idxOf id ∧
      row.snapshotRevision = row.currentRevision ∧
      ∃ document, room.documents.lookup id = some document ∧
        row.documentID = document.snapshot.id ∧ row.name = document.snapshot.name ∧
        row.language = document.snapshot.language ∧ row.content = document.snapshot.content := by
  have rows := stored.rows id
  rw [found, Option.map_some] at rows
  obtain ⟨document, lookup, equality⟩ := Option.map_eq_some_iff.mp rows.symm
  have listed : id ∈ room.order :=
    (formed.present id).mp (mem_documents_iff.mpr ⟨document, lookup⟩)
  rw [rowFor_eq listed] at equality
  have field {α : Type} (read : DocumentRow → α) := congrArg read equality.symm
  exact ⟨listed, field DocumentRow.position,
    (field DocumentRow.snapshotRevision).trans (field DocumentRow.currentRevision).symm,
    document, lookup, field DocumentRow.documentID, field DocumentRow.name,
    field DocumentRow.language, field DocumentRow.content⟩

/-- The rows of a stored room pass the checks of `newRoom`. -/
theorem Stored.row_valid (stored : room.Stored tables) (formed : room.Formed) {row : DocumentRow}
    (member : row ∈ tables.documents) : ValidDocument row.snapshot := by
  obtain ⟨_, _, _, document, lookup, id, name, language, _⟩ :=
    stored.row_spec formed (rowOf_of_mem stored.distinct member)
  have valid := (formed.documents _ document lookup).valid
  constructor
  case id => exact (congrArg validateDocumentID id).trans valid.id
  case name => exact (congrArg validateTabName name).trans valid.name
  case language => exact (congrArg validateLanguageID language).trans valid.language

/-- Every document fits into the room. -/
theorem Formed.bytes_le (formed : room.Formed) {id : String} {document : Document}
    (lookup : room.documents.lookup id = some document) :
    byteLen document.snapshot.content ≤ room.options.maxBytes := by
  have nonneg (id : String) : 0 ≤ room.bytesOf id := by
    unfold bytesOf
    cases room.documents.lookup id with
    | none => exact le_rfl
    | some document => exact Int.natCast_nonneg _
  have listed : id ∈ room.order :=
    (formed.present id).mp (mem_documents_iff.mpr ⟨document, lookup⟩)
  have part : room.bytesOf id ≤ room.bytes := by
    refine List.single_le_sum ?_ _ (List.mem_map_of_mem listed)
    intro bytes member
    obtain ⟨other, _, rfl⟩ := List.mem_map.mp member
    exact nonneg other
  have own : room.bytesOf id = byteLen document.snapshot.content := by
    rw [bytesOf, lookup]
    rfl
  exact own ▸ part.trans formed.size

/-- The documents of the stored snapshot. -/
theorem documentOf_snapshotOf (distinct : (rowIDs tables.documents).Nodup) (id : String) :
    documentOf (Storage.Store.snapshotOf tables).documents id =
      (rowOf tables.documents id).map DocumentRow.snapshot := by
  have perm := List.perm_insertionSort
    (fun left right : DocumentRow => left.position ≤ right.position) tables.documents
  have found (rows : List DocumentRow) : documentOf (rows.map DocumentRow.snapshot) id =
      (rowOf rows id).map DocumentRow.snapshot := by
    rw [documentOf, List.find?_map]
    rfl
  have sorted : (rowIDs (tables.documents.insertionSort fun left right =>
      left.position ≤ right.position)).Nodup := (perm.map _).nodup_iff.mpr distinct
  rw [Storage.Store.snapshotOf, found]
  congr 1
  cases lookup : rowOf tables.documents id with
  | none =>
      rw [rowOf_eq_none] at lookup ⊢
      rwa [rowIDs, (perm.map _).mem_iff]
  | some row =>
      have member := perm.mem_iff.mpr (List.mem_of_find?_eq_some lookup)
      have same := rowOf_of_mem sorted member
      rwa [documentID_of_rowOf lookup] at same

/-- A room as it is rebuilt from its tables. -/
structure Rebuilt (options : HubOptions) (tables : Tables) (listed : List String) (room' : Room) :
    Prop where
  options : room'.options = options
  slug : room'.snapshot.slug = tables.room.slug
  expiresAt : room'.snapshot.expiresAt = unixTime tables.room.expiresAt
  watchOnly : room'.watchOnly = tables.room.locked
  layoutPreset : room'.snapshot.layoutPreset = tables.room.layoutPreset
  metadataRevision : room'.snapshot.metadataRevision = tables.room.metadataRevision
  order : room'.order = listed
  documents : ∀ id, room'.documents.lookup id = (rowOf tables.documents id).map fun row =>
    positioned listed id (loadedDocument row.snapshot)
  operationOrder : room'.operationOrder = tables.operations.map OperationRow.operationID
  recorded : ∀ id, id ∈ room'.operations ↔ id ∈ tables.operations.map OperationRow.operationID
  ledger : ∀ row ∈ tables.operations, ∃ record,
    room'.operations.lookup row.operationID = some record ∧ row.Decodes record

/-- A rebuilt room is stored by the tables that it is built from. -/
theorem Stored.of_rebuilt (stored : room.Stored tables) (formed : room.Formed) {room' : Room}
    (rebuilt : room'.Rebuilt room.options tables room.order) :
    room'.Formed ∧ room'.Stored tables := by
  have stored' : room'.Stored tables := {
    slug := rebuilt.slug.symm
    locked := rebuilt.watchOnly.symm
    layoutPreset := rebuilt.layoutPreset.symm
    metadataRevision := rebuilt.metadataRevision.symm
    metadataSnapshotRevision := by
      rw [stored.metadataSnapshotRevision, rebuilt.metadataRevision, stored.metadataRevision]
    expiresAt := by rw [rebuilt.expiresAt, unix_unixTime]
    lifetime := stored.lifetime
    contentSize := rebuilt.options ▸ stored.contentSize
    distinct := stored.distinct
    rows := by
      intro id
      rw [rebuilt.documents, rebuilt.order]
      cases found : rowOf tables.documents id with
      | none => rfl
      | some row =>
          obtain ⟨listed, position, settled, _, _, _⟩ := stored.row_spec formed found
          rw [Option.map_some, Option.map_some, Option.map_some, rowFor_eq listed, positioned,
            if_pos listed, DocumentRow.timeless, position, settled]
          rfl
    ledgerOrder := rebuilt.operationOrder
    ledger := rebuilt.ledger }
  have sameBytes (id : String) : room'.bytesOf id = room.bytesOf id := by
    have same := (stored'.document_eq id).trans (stored.document_eq id).symm
    have bytes (documents : Keyed Document) : ((documents.lookup id).map fun document =>
        byteLen document.snapshot.content) = ((documents.lookup id).map Document.authority).map
          fun authority => byteLen authority.content := by
      rw [Option.map_map]
      rfl
    rw [bytesOf, bytesOf, bytes, bytes, same]
  refine ⟨?_, stored'⟩
  constructor
  case slug =>
    rw [rebuilt.slug, stored.slug]
    exact formed.slug
  case nonempty => exact rebuilt.order ▸ formed.nonempty
  case order => exact rebuilt.order ▸ formed.order
  case present =>
    intro id
    rw [rebuilt.order, ← (stored.perm_order formed).mem_iff, mem_documents_iff]
    rw [← not_iff_not, ← rowOf_eq_none]
    simp [rebuilt.documents, Option.eq_none_iff_forall_ne_some]
  case documents =>
    intro id document lookup
    rw [rebuilt.documents, Option.map_eq_some_iff] at lookup
    obtain ⟨row, found, rfl⟩ := lookup
    have valid := stored.row_valid formed (List.mem_of_find?_eq_some found)
    have same := documentID_of_rowOf found
    unfold positioned
    split
    · exact ⟨same, ⟨valid.id, valid.name, valid.language⟩, by simp [HistoryFormed, loadedDocument]⟩
    · exact ⟨same, ⟨valid.id, valid.name, valid.language⟩, by simp [HistoryFormed, loadedDocument]⟩
  case size =>
    rw [bytes, rebuilt.order, rebuilt.options, List.map_congr_left fun id _ => sameBytes id]
    exact formed.size
  case operationOrder =>
    rw [rebuilt.operationOrder, ← stored.ledgerOrder]
    exact formed.operationOrder
  case recorded =>
    intro id
    rw [rebuilt.recorded, rebuilt.operationOrder]
  case retained =>
    rw [rebuilt.operationOrder, rebuilt.options, ← stored.ledgerOrder]
    exact formed.retained

/-- The ledger of a stored room is read back. -/
theorem Stored.loadOperations {store : Store} (stored : room.Stored tables) (formed : room.Formed)
    (found : store.lookup room.snapshot.slug = some tables) {base : Room}
    (slug : base.snapshot.slug = room.snapshot.slug)
    (expiresAt : unix base.snapshot.expiresAt = unix room.snapshot.expiresAt)
    (options : base.options = room.options) (empty : base.operations = ∅)
    (unordered : base.operationOrder = []) :
    ∃ operations, base.loadOperations store false = .ok { base with
        operations, operationOrder := tables.operations.map OperationRow.operationID } ∧
      (∀ id, id ∈ operations ↔ id ∈ tables.operations.map OperationRow.operationID) ∧
      ∀ row ∈ tables.operations, ∃ record, operations.lookup row.operationID = some record ∧
        row.Decodes record := by
  have early : unix (beforeExpiry base.snapshot.expiresAt) < tables.room.expiresAt := by
    rw [stored.expiresAt, ← expiresAt]
    unfold beforeExpiry unixTime unix
    omega
  have few : tables.operations.length ≤ (operationRecordLimit room.options).toNat := by
    have retained := formed.retained
    rw [stored.ledgerOrder, List.length_map] at retained
    exact retained
  have limit : 1 ≤ operationRecordLimit room.options := by
    have positive := ledgerLimit_pos room.options
    rw [operationRecordLimit_eq]
    omega
  have loaded : Storage.Store.loadRecentOperations store base.snapshot.slug
      (operationRecordLimit base.options) (beforeExpiry base.snapshot.expiresAt) false =
        .ok (tables.operations.map OperationRow.record) := by
    unfold Storage.Store.loadRecentOperations
    rw [slug, options, require_bind_eq_ok, require_bind_eq_ok]
    refine ⟨⟨formed.slug.1, formed.slug.2, limit⟩, rfl, ?_⟩
    rw [active_eq_ok.mpr ⟨found, early⟩, Except.map, Storage.Store.queryOperations, if_pos rfl,
      Nat.sub_eq_zero_of_le few, List.drop_zero]
  have distinct := formed.operationOrder
  rw [stored.ledgerOrder] at distinct
  obtain ⟨operations, fold, others, records⟩ := @loadOperation_fold base tables.operations distinct
    (by simp [empty]) fun row member => by
      obtain ⟨record, _, decodes⟩ := stored.ledger row member
      exact ⟨record, decodes⟩
  refine ⟨operations, ?_, fun id => ⟨fun member => ?_, fun member => ?_⟩, records⟩
  · unfold Room.loadOperations
    rw [loaded]
    rw [unordered, List.nil_append] at fold
    exact fold
  · by_contra absent
    rw [← AList.lookup_isSome, others id absent, empty] at member
    simp at member
  · obtain ⟨row, listed, rfl⟩ := List.mem_map.mp member
    obtain ⟨record, lookup, _⟩ := records row listed
    rw [← AList.lookup_isSome, lookup]
    rfl

theorem getRoomSnapshot_ok {store : Store} {slug : String} {now : Time} {fault : Bool}
    {snapshot : RoomSnapshot}
    (read : Storage.Store.getRoomSnapshot store slug now fault = .ok snapshot) :
    ∃ tables, store.lookup slug = some tables ∧ unix now < tables.room.expiresAt ∧
      snapshot = Storage.Store.snapshotOf tables := by
  unfold Storage.Store.getRoomSnapshot at read
  rw [require_bind_eq_ok] at read
  cases active : Tables.active store slug now with
  | error error =>
      rw [active] at read
      cases read.2
  | ok tables =>
      obtain ⟨found, alive⟩ := active_eq_ok.mp active
      rw [active] at read
      cases read.2
      exact ⟨tables, found, alive, rfl⟩

/-- The documents of the stored snapshot in their order. -/
theorem Stored.ids_snapshotOf (stored : room.Stored tables) (formed : room.Formed) :
    (Storage.Store.snapshotOf tables).documents.map DocumentSnapshot.id = room.order := by
  rw [← stored.order_eq formed, Storage.Store.snapshotOf, List.map_map]
  rfl

/-- What `newRoom` makes of the tables of a stored room. -/
theorem Stored.newRoom_eq {store : Store} (stored : room.Stored tables) (formed : room.Formed)
    (found : store.lookup room.snapshot.slug = some tables) :
    ∃ documents operations,
      (∀ id, documents.lookup id =
        (rowOf tables.documents id).map fun row => loadedDocument row.snapshot) ∧
      (∀ id, id ∈ operations ↔ id ∈ tables.operations.map OperationRow.operationID) ∧
      (∀ row ∈ tables.operations, ∃ record, operations.lookup row.operationID = some record ∧
        row.Decodes record) ∧
      newRoom store (Storage.Store.snapshotOf tables) room.options .none = (store, .ok
        { (ofSnapshot room.options (Storage.Store.snapshotOf tables) documents).syncSnapshot with
          operations, operationOrder := tables.operations.map OperationRow.operationID }) := by
  have ids := stored.ids_snapshotOf formed
  have member_row {document : DocumentSnapshot}
      (member : document ∈ (Storage.Store.snapshotOf tables).documents) :
      ∃ row ∈ tables.documents, document = row.snapshot := by
    obtain ⟨row, sorted, rfl⟩ := List.mem_map.mp member
    exact ⟨row, (List.perm_insertionSort _ _).mem_iff.mp sorted, rfl⟩
  have fits {row : DocumentRow} (member : row ∈ tables.documents) :
      byteLen row.content ≤ room.options.maxBytes := by
    obtain ⟨_, _, _, document, lookup, _, _, _, content⟩ :=
      stored.row_spec formed (rowOf_of_mem stored.distinct member)
    exact content ▸ formed.bytes_le lookup
  have settled {row : DocumentRow} (member : row ∈ tables.documents) :
      row.snapshotRevision = row.currentRevision :=
    (stored.row_spec formed (rowOf_of_mem stored.distinct member)).2.2.1
  obtain ⟨documents, added⟩ := @addDocuments_ok room.options
    (Storage.Store.snapshotOf tables).documents ∅ (ids ▸ formed.order) (by simp) (by
      intro document member
      obtain ⟨row, listed, rfl⟩ := member_row member
      have bytes := fits listed
      exact ⟨stored.row_valid formed listed, (Int.natCast_nonneg _).trans bytes, bytes⟩)
  have loaded (id : String) : documents.lookup id =
      (rowOf tables.documents id).map fun row => loadedDocument row.snapshot := by
    rw [(addDocuments_lookup added).2.2, documentOf_snapshotOf stored.distinct, Option.map_map,
      AList.lookup_empty, Option.or_none]
    rfl
  let base := ofSnapshot room.options (Storage.Store.snapshotOf tables) documents
  have replayed : base.replay store false = .ok base.syncSnapshot := by
    apply replay_settled
    · exact (stored.metadataRevision.trans stored.metadataSnapshotRevision.symm).le
    · intro id listed
      have known : id ∈ rowIDs tables.documents :=
        (stored.perm_order formed).mem_iff.mpr (ids ▸ listed)
      obtain ⟨row, present⟩ := Option.ne_none_iff_exists'.mp
        (mt rowOf_eq_none.mp (not_not.mpr known))
      refine ⟨loadedDocument row.snapshot, ?_, (settled (List.mem_of_find?_eq_some present)).ge⟩
      exact (loaded id).trans (by rw [present]; rfl)
  have settledSnapshot : ¬Trailing (Storage.Store.snapshotOf tables) := by
    rintro (metadata | ⟨document, member, behind⟩)
    · exact absurd metadata
        (stored.metadataRevision.trans stored.metadataSnapshotRevision.symm).le.not_gt
    · obtain ⟨row, listed, rfl⟩ := member_row member
      exact absurd behind (settled listed).ge.not_gt
  obtain ⟨operations, ledger, recorded, records⟩ := @Stored.loadOperations room tables store stored
    formed found base.syncSnapshot stored.slug (by
      rw [← stored.expiresAt]
      exact unix_unixTime _) rfl rfl rfl
  refine ⟨documents, operations, loaded, recorded, records, ?_⟩
  have later : unixTime tables.room.expiresAt > unixTime tables.room.createdAt :=
    Int.mul_lt_mul_of_pos_right stored.lifetime.1 (by decide)
  have checked : (Storage.Store.snapshotOf tables).slug ≠ "" ∧
      (Storage.Store.snapshotOf tables).documents ≠ [] ∧
      (Storage.Store.snapshotOf tables).expiresAt ≠ zeroTime ∧
      (Storage.Store.snapshotOf tables).expiresAt >
        (Storage.Store.snapshotOf tables).createdAt := by
    refine ⟨stored.slug.trans_ne formed.slug.1, fun none => ?_, stored.lifetime.2, later⟩
    rw [none] at ids
    exact formed.nonempty ids.symm
  have built : (do
      require ((Storage.Store.snapshotOf tables).slug ≠ "" ∧
        (Storage.Store.snapshotOf tables).documents ≠ [] ∧
        (Storage.Store.snapshotOf tables).expiresAt ≠ zeroTime ∧
        (Storage.Store.snapshotOf tables).expiresAt >
          (Storage.Store.snapshotOf tables).createdAt) .invalidSnapshot
      let documents ← addDocuments room.options (Storage.Store.snapshotOf tables).documents ∅
      require ((Storage.Store.snapshotOf tables).contentSize ≤ room.options.maxBytes) .roomLimit
      (ofSnapshot room.options (Storage.Store.snapshotOf tables) documents).replay store
        LoadFaults.none.replay) = .ok base.syncSnapshot := by
    rw [require_bind_eq_ok, added]
    exact ⟨checked, require_bind_eq_ok.mpr ⟨stored.contentSize, replayed⟩⟩
  unfold newRoom
  simp only [built, if_neg settledSnapshot]
  exact congrArg (store, ·) ledger

/-- A stored room is rebuilt from its tables. -/
theorem Stored.reload {store : Store} (stored : room.Stored tables) (formed : room.Formed)
    (found : store.lookup room.snapshot.slug = some tables) {now : Time}
    (alive : unix now < unix room.snapshot.expiresAt) :
    ∃ snapshot room', Storage.Store.getRoomSnapshot store room.snapshot.slug now false =
        .ok snapshot ∧ newRoom store snapshot room.options .none = (store, .ok room') ∧
      room'.Formed ∧ room'.Stored tables ∧ room'.options = room.options := by
  have active : Tables.active store room.snapshot.slug now = .ok tables :=
    active_eq_ok.mpr ⟨found, stored.expiresAt ▸ alive⟩
  obtain ⟨documents, operations, loaded, recorded, records, built⟩ := stored.newRoom_eq formed found
  have ids := stored.ids_snapshotOf formed
  refine ⟨Storage.Store.snapshotOf tables, _, ?_, built, ?_⟩
  · unfold Storage.Store.getRoomSnapshot
    rw [active]
    rfl
  · rw [← and_assoc]
    refine ⟨stored.of_rebuilt formed ?_, rfl⟩
    constructor
    case documents =>
      intro id
      have positions : (ofSnapshot room.options (Storage.Store.snapshotOf tables)
          documents).syncSnapshot.documents.lookup id =
            (documents.lookup id).map (positioned room.order id) := by
        rw [← ids]
        exact Keyed.lookup_mapKeyed _ _ _
      exact positions.trans (by rw [loaded, Option.map_map]; rfl)
    case order => exact ids
    case recorded => exact recorded
    case ledger => exact records
    all_goals rfl

end Load

end Room

end Oxbin.Live
