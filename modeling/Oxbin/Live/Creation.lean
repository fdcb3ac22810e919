import Oxbin.Live.Run
import Oxbin.Live.Sessions

/-!
# A new room

The tables that `CreateRoom` writes hold the room that is loaded from them for the first time.
-/

namespace Oxbin.Live

open Livecollab Storage Storage.Tables

namespace Room

/-! ## What loading has checked -/

/-- Nothing is replayed from a stream without changes. -/
theorem loadChangesSince_none {store : Store} {slug : String} {streamKind : StreamKind}
    {streamID : String} {since : Int} {now : Time} {fault : Bool} {changes : List ChangeRecord}
    {tables : Tables} (found : store.lookup slug = some tables) (none : tables.changes = [])
    (loaded : Storage.Store.loadChangesSince store slug streamKind streamID since now fault =
      .ok changes) :
    ∃ revision, Storage.Store.currentRevision? tables streamKind streamID = some revision ∧
      revision ≤ since := by
  unfold Storage.Store.loadChangesSince at loaded
  simp only [bind_eq_ok, require_eq_ok, exists_const] at loaded
  obtain ⟨_, _, _, _, tables', active, loaded⟩ := loaded
  obtain ⟨found', _⟩ := active_eq_ok.mp active
  cases found.symm.trans found'
  split at loaded
  case h_1 => cases loaded
  case h_2 revision current =>
    simp only [none, List.filter_nil, List.map_nil, List.min?_nil, Option.getD_none,
      bind_eq_ok, require_eq_ok, exists_const] at loaded
    exact ⟨revision, current, by omega⟩

/-- A room without stored changes is only loaded when its snapshots do not trail. -/
theorem settled_of_replay {room room' : Room} {store : Store} {fault : Bool} {tables : Tables}
    (found : store.lookup room.snapshot.slug = some tables) (none : tables.changes = [])
    (metadata : tables.room.metadataRevision = room.snapshot.metadataRevision)
    (rows : ∀ id document row, room.documents.lookup id = some document →
      rowOf tables.documents id = some row →
        row.currentRevision = document.snapshot.currentRevision)
    (replayed : room.replay store fault = .ok room') :
    room.snapshot.metadataRevision ≤ room.snapshot.metadataSnapshotRevision ∧
      ∀ id ∈ room.order, ∃ document, room.documents.lookup id = some document ∧
        document.snapshot.currentRevision ≤ document.snapshot.snapshotRevision := by
  have documents (order : List String) (final : Room)
      (fold : order.foldlM (fun room documentID => room.replayDocument store fault documentID)
        room = .ok final) :
      ∀ id ∈ order, ∃ document, room.documents.lookup id = some document ∧
        document.snapshot.currentRevision ≤ document.snapshot.snapshotRevision := by
    induction order with
    | nil => simp
    | cons id order induction =>
        rw [List.foldlM_cons, bind_eq_ok] at fold
        obtain ⟨next, step, fold⟩ := fold
        unfold replayDocument at step
        cases lookup : room.documents.lookup id with
        | none => rw [lookup] at step; cases step
        | some document =>
            have settled : document.snapshot.currentRevision ≤
                document.snapshot.snapshotRevision := by
              by_contra behind
              rw [lookup] at step
              simp only [if_neg behind, bind_eq_ok] at step
              obtain ⟨changes, loaded, _⟩ := step
              obtain ⟨revision, current, le⟩ := loadChangesSince_none found none loaded
              obtain ⟨row, stored, equality⟩ := Option.map_eq_some_iff.mp current
              have same := rows id document row lookup stored
              omega
            rw [lookup] at step
            simp only [if_pos settled, Except.ok.injEq] at step
            subst step
            intro other member
            rcases List.mem_cons.mp member with rfl | later
            · exact ⟨document, lookup, settled⟩
            · exact induction fold other later
  have settled : room.snapshot.metadataRevision ≤ room.snapshot.metadataSnapshotRevision := by
    by_contra behind
    unfold replay at replayed
    rw [if_pos (by omega)] at replayed
    simp only [bind_eq_ok] at replayed
    obtain ⟨changes, loaded, _⟩ := replayed
    obtain ⟨revision, current, le⟩ := loadChangesSince_none found none loaded
    cases current
    omega
  refine ⟨settled, ?_⟩
  unfold replay at replayed
  rw [if_neg (by omega)] at replayed
  simp only [bind_eq_ok, Except.ok.injEq] at replayed
  obtain ⟨_, rfl, final, fold, _⟩ := replayed
  exact documents room.order final fold

/-- What `newRoom` has checked. -/
theorem loaded_of_newRoom {store store' : Store} {snapshot : RoomSnapshot} {options : HubOptions}
    {faults : LoadFaults} {room : Room}
    (loaded : newRoom store snapshot options faults = (store', .ok room)) :
    (snapshot.slug ≠ "" ∧ snapshot.documents ≠ [] ∧ snapshot.expiresAt ≠ zeroTime ∧
      snapshot.expiresAt > snapshot.createdAt) ∧ snapshot.contentSize ≤ options.maxBytes ∧
      ∃ documents replayed, addDocuments options snapshot.documents ∅ = .ok documents ∧
        (ofSnapshot options snapshot documents).replay store faults.replay = .ok replayed := by
  unfold newRoom at loaded
  simp only at loaded
  split at loaded
  case h_1 => cases loaded
  case h_2 replayed built =>
    simp only [bind_eq_ok, require_eq_ok, exists_const] at built
    obtain ⟨checked, documents, added, size, replay⟩ := built
    exact ⟨checked, size, documents, replayed, added, replay⟩

/-! ## The created tables -/

/-- The tables of a new room. -/
def createdTables (snapshot : RoomSnapshot) : Tables where
  room := {
    slug := snapshot.slug, passwordHash := snapshot.passwordHash
    creatorTokenHash := snapshot.creatorTokenHash, locked := snapshot.locked
    layoutPreset := snapshot.layoutPreset, contentSize := snapshot.contentSize
    metadataRevision := snapshot.metadataRevision
    metadataSnapshotRevision := snapshot.metadataSnapshotRevision
    expiresAt := unix snapshot.expiresAt, createdAt := unix snapshot.createdAt }
  documents := snapshot.documents.map documentRow
  changes := []
  operations := []

theorem createRoom_prepared {store created : Store} {snapshot : RoomSnapshot} {fault : Bool}
    (create : Storage.Store.createRoom store snapshot fault = .ok created) :
    ∃ prepared, prepareRoomSnapshot snapshot = .ok prepared ∧
      unix prepared.createdAt < unix prepared.expiresAt ∧
      created = store.insert snapshot.slug (createdTables prepared) := by
  unfold Storage.Store.createRoom at create
  simp only [bind_eq_ok, require_eq_ok, exists_const] at create
  obtain ⟨prepared, prepares, _, lifetime, _, equality⟩ := create
  have slug : prepared.slug = snapshot.slug := by
    obtain ⟨_, equality⟩ := (prepared_of_prepareRoomSnapshot prepares).equality
    rw [equality]
  cases equality
  exact ⟨prepared, prepares, lifetime, by rw [← slug]; rfl⟩

theorem createRoom_ok {store created : Store} {snapshot : RoomSnapshot} {fault : Bool}
    (create : Storage.Store.createRoom store snapshot fault = .ok created) :
    ∃ prepared, Prepared snapshot prepared ∧
      unix prepared.createdAt < unix prepared.expiresAt ∧
      created = store.insert snapshot.slug (createdTables prepared) := by
  obtain ⟨prepared, prepares, rest⟩ := createRoom_prepared create
  exact ⟨prepared, prepared_of_prepareRoomSnapshot prepares, rest⟩

theorem rowOf_map_documentRow (documents : List DocumentSnapshot) (id : String) :
    rowOf (documents.map documentRow) id = (documentOf documents id).map documentRow := by
  rw [rowOf, List.find?_map]
  rfl

section Created

variable {snapshot prepared : RoomSnapshot}

/-- The rows of a new room. -/
theorem created_row (preparation : Prepared snapshot prepared) {id : String} {row : DocumentRow}
    (found : rowOf (createdTables prepared).documents id = some row) :
    row.documentID = id ∧ row.position = (snapshot.documents.map DocumentSnapshot.id).idxOf id ∧
      row.snapshotRevision ≤ row.currentRevision ∧
      id ∈ snapshot.documents.map DocumentSnapshot.id := by
  obtain ⟨_, equality⟩ := preparation.equality
  rw [createdTables, rowOf_map_documentRow, Option.map_eq_some_iff] at found
  obtain ⟨document, listed, rfl⟩ := found
  have same := id_of_documentOf listed
  have member := List.mem_of_find?_eq_some listed
  rw [congrArg RoomSnapshot.documents equality] at member
  obtain ⟨original, present, rfl⟩ := List.mem_map.mp member
  obtain ⟨place, trails⟩ := preparation.places original present
  subst same
  exact ⟨rfl, place, trails, List.mem_map.mpr ⟨original, present, rfl⟩⟩

theorem created_distinct (preparation : Prepared snapshot prepared) :
    rowIDs (createdTables prepared).documents = snapshot.documents.map DocumentSnapshot.id := by
  obtain ⟨_, equality⟩ := preparation.equality
  rw [createdTables, rowIDs, List.map_map, congrArg RoomSnapshot.documents equality]
  exact map_id_timed _ _

/-- A new room before its documents are replayed. -/
def createdRoom (options : HubOptions) (prepared : RoomSnapshot) (documents : Keyed Document) :
    Room :=
  ofSnapshot options (Storage.Store.snapshotOf (createdTables prepared)) documents

/-- The documents of a new room are those of its rows. -/
theorem created_lookup (preparation : Prepared snapshot prepared) {options : HubOptions}
    {documents : Keyed Document}
    (added : addDocuments options (Storage.Store.snapshotOf (createdTables prepared)).documents ∅ =
      .ok documents) (id : String) :
    documents.lookup id = (rowOf (createdTables prepared).documents id).map fun row =>
      loadedDocument row.snapshot := by
  have distinct : (rowIDs (createdTables prepared).documents).Nodup :=
    created_distinct preparation ▸ preparation.distinct
  rw [(addDocuments_lookup added).2.2, documentOf_snapshotOf distinct, Option.map_map,
    AList.lookup_empty, Option.or_none]
  rfl

/-- The documents of a new room in their order. -/
theorem created_order (preparation : Prepared snapshot prepared) :
    (Storage.Store.snapshotOf (createdTables prepared)).documents.map DocumentSnapshot.id =
      snapshot.documents.map DocumentSnapshot.id := by
  have ids := created_distinct preparation
  have distinct : (rowIDs (createdTables prepared).documents).Nodup := ids ▸ preparation.distinct
  have sorted := sorted_rowIDs preparation.distinct (List.Perm.of_eq ids) fun row member =>
    (created_row preparation (rowOf_of_mem distinct member)).2.1
  rw [Storage.Store.snapshotOf, List.map_map]
  exact sorted

/-- The size of a new room. -/
theorem created_bytes (preparation : Prepared snapshot prepared) {options : HubOptions}
    {documents : Keyed Document}
    (added : addDocuments options (Storage.Store.snapshotOf (createdTables prepared)).documents ∅ =
      .ok documents) : (createdRoom options prepared documents).bytes = prepared.contentSize := by
  have distinct : (rowIDs (createdTables prepared).documents).Nodup :=
    created_distinct preparation ▸ preparation.distinct
  have perm : (rowIDs (createdTables prepared).documents).Perm
      (createdRoom options prepared documents).order := by
    rw [created_distinct preparation]
    exact List.Perm.of_eq (created_order preparation).symm
  obtain ⟨_, equality⟩ := preparation.equality
  have contents : prepared.contentSize =
      ((createdTables prepared).documents.map fun row => byteLen row.content).sum := by
    rw [createdTables, List.map_map, congrArg RoomSnapshot.documents equality, List.map_map,
      congrArg RoomSnapshot.contentSize equality]
    rfl
  rw [bytes, ← (perm.map _).sum_eq, contents, rowIDs, List.map_map]
  refine congrArg List.sum (List.map_congr_left fun row member => ?_)
  have found := rowOf_of_mem distinct member
  have lookup : (createdRoom options prepared documents).documents.lookup row.documentID =
      some (loadedDocument row.snapshot) :=
    (created_lookup preparation added row.documentID).trans (by rw [found]; rfl)
  rw [Function.comp_apply, bytesOf, lookup]
  rfl

/-- A new room that can be loaded, and its tables. -/
theorem created_stored (preparation : Prepared snapshot prepared) {options : HubOptions}
    {documents : Keyed Document} {replayed : Room} {store : Store} {fault : Bool}
    (lifetime : unix prepared.createdAt < unix prepared.expiresAt)
    (found : store.lookup prepared.slug = some (createdTables prepared))
    (checked : unixTime (unix prepared.expiresAt) ≠ zeroTime)
    (size : prepared.contentSize ≤ options.maxBytes)
    (added : addDocuments options (Storage.Store.snapshotOf (createdTables prepared)).documents ∅ =
      .ok documents)
    (replay : (createdRoom options prepared documents).replay store fault = .ok replayed) :
    (createdRoom options prepared documents).Formed ∧
      (createdRoom options prepared documents).Stored (createdTables prepared) := by
  have distinct : (rowIDs (createdTables prepared).documents).Nodup :=
    created_distinct preparation ▸ preparation.distinct
  have order := created_order preparation
  obtain ⟨nodup, valid, _⟩ := addDocuments_lookup added
  have lookup := created_lookup preparation added
  have slug : prepared.slug = snapshot.slug := by
    obtain ⟨_, equality⟩ := preparation.equality
    rw [equality]
  obtain ⟨metadata, settled⟩ := @settled_of_replay
    (createdRoom options prepared documents) replayed store fault (createdTables prepared) found
      rfl rfl (by
      intro id document row present stored
      have loaded := lookup id
      rw [stored, Option.map_some] at loaded
      cases present.symm.trans loaded
      rfl) replay
  have trails : prepared.metadataSnapshotRevision ≤ prepared.metadataRevision := by
    obtain ⟨_, equality⟩ := preparation.equality
    rw [equality]
    exact preparation.trails
  constructor
  · constructor
    case slug =>
      change prepared.slug ≠ "" ∧ Trimmed prepared.slug
      rw [slug]
      exact preparation.slug
    case nonempty =>
      intro empty
      rw [createdRoom, ofSnapshot, order, List.map_eq_nil_iff] at empty
      exact preparation.documents empty
    case order => exact nodup
    case present =>
      intro id
      change id ∈ documents ↔ id ∈ List.map DocumentSnapshot.id _
      rw [order, ← created_distinct preparation, ← AList.lookup_isSome, lookup,
        Option.isSome_map, Option.isSome_iff_ne_none, ne_eq, rowOf_eq_none, not_not]
    case documents =>
      intro id document present
      rw [show (createdRoom options prepared documents).documents.lookup id =
        documents.lookup id from rfl, lookup, Option.map_eq_some_iff] at present
      obtain ⟨row, stored, rfl⟩ := present
      have listed := documentOf_snapshotOf distinct id
      rw [stored, Option.map_some] at listed
      exact ⟨documentID_of_rowOf stored, (valid _ (List.mem_of_find?_eq_some listed)).1,
        by simp [HistoryFormed, loadedDocument]⟩
    case size => exact (created_bytes preparation added).le.trans size
    case operationOrder => exact .nil
    case recorded => exact fun id => by simp [createdRoom, ofSnapshot]
    case retained => exact Nat.zero_le _
  · constructor
    case metadataSnapshotRevision => exact le_antisymm trails metadata
    case expiresAt => exact (unix_unixTime _).symm
    case lifetime => exact ⟨lifetime, checked⟩
    case contentSize => exact size
    case distinct => exact distinct
    case rows =>
      intro id
      change _ = (documents.lookup id).map (rowFor (List.map DocumentSnapshot.id _) id)
      rw [lookup, order]
      cases stored : rowOf (createdTables prepared).documents id with
      | none => rfl
      | some row =>
          obtain ⟨_, place, trails, listed⟩ := created_row preparation stored
          obtain ⟨document, present, current⟩ := settled id (by
            change id ∈ List.map DocumentSnapshot.id _
            rwa [order])
          have loaded := lookup id
          rw [stored, Option.map_some] at loaded
          cases present.symm.trans loaded
          have equal : row.snapshotRevision = row.currentRevision := le_antisymm trails current
          rw [Option.map_some, Option.map_some, Option.map_some, rowFor_eq listed,
            DocumentRow.timeless, place, equal]
          rfl
    case ledger => simp [createdTables]
    all_goals rfl

end Created

/-- A new room and its tables are in accord. -/
theorem Consistent.created {store store' created : Store} {snapshot loaded : RoomSnapshot}
    {fault : Bool} {now : Time} {options : HubOptions} {room : Room}
    (create : Storage.Store.createRoom store snapshot fault = .ok created)
    (read : Storage.Store.getRoomSnapshot created snapshot.slug now false = .ok loaded)
    (load : newRoom created loaded options .none = (store', .ok room)) :
    room.Consistent store' ∧ room.options = options := by
  obtain ⟨prepared, preparation, lifetime, rfl⟩ := createRoom_ok create
  have slug : prepared.slug = snapshot.slug := by
    obtain ⟨_, equality⟩ := preparation.equality
    rw [equality]
  have found : (store.insert snapshot.slug (createdTables prepared)).lookup prepared.slug =
      some (createdTables prepared) := by
    rw [slug]
    exact AList.lookup_insert _
  obtain ⟨tables, found', alive, rfl⟩ := getRoomSnapshot_ok read
  rw [AList.lookup_insert] at found'
  cases found'
  obtain ⟨⟨_, _, checked, _⟩, size, documents, replayed, added, replay⟩ := loaded_of_newRoom load
  obtain ⟨formed, stored⟩ := created_stored preparation lifetime found checked size added replay
  obtain ⟨loaded, room', read', load', formed', stored', options'⟩ := stored.reload formed found
    (stored.expiresAt ▸ alive)
  obtain ⟨tables, found', _, rfl⟩ := getRoomSnapshot_ok read'
  cases (show _ = _ from found).symm.trans found'
  rw [show (createdRoom options prepared documents).options = options from rfl, load] at load'
  cases load'
  refine ⟨⟨formed', _, ?_, stored'⟩, options'⟩
  rw [← stored'.slug]
  exact found

end Room

/-- The small room is the one that is created and loaded. -/
theorem small_created : Storage.Store.createRoom ∅ smallSnapshot false = .ok smallStore := by
  have prepared : Storage.prepareRoomSnapshot smallSnapshot = .ok smallSnapshot := by
    decide +kernel
  unfold Storage.Store.createRoom
  rw [prepared]
  rfl

theorem small_started : Authority.Started defaultHubOptions (smallAuthority defaultHubOptions) :=
  .created ∅ smallStore smallSnapshot smallSnapshot false (2 * 1000000000) _ small_created rfl rfl

theorem smallWork_started : Authority.Started smallOptions (smallAuthority smallOptions) :=
  .created ∅ smallStore smallSnapshot smallSnapshot false (2 * 1000000000) _ small_created rfl rfl

/-- The change of a revision of the small document that appends a letter. -/
def smallLetter (revision : Int) : ChangeRecord where
  streamKind := .document
  streamID := "main"
  revision := revision
  kind := "push_changes"
  payload := .obj [("changes", .arr [.num (revision + 1), .arr [.num 0, .str "c"]])]
  createdAt := unixTime 2

end Oxbin.Live
