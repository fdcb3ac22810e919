import Oxbin.Live.Creation
import Oxbin.Storage.Acceptance

/-!
# What the hub hands to the store

The hub checks an operation, and the store checks the commit that the hub makes of it.  The rows
that belong to a reachable room let all checks of the store pass but those that the hub does not
make.
-/

namespace Oxbin.Live

open Livecollab Storage Storage.Tables

/-! ## Revisions and settings -/

/-- The revisions of a document are counted from zero. -/
structure Document.Numbered (document : Document) : Prop where
  current : 0 ≤ document.snapshot.currentRevision
  history : ∀ entry ∈ document.history, 0 ≤ entry.baseVersion

theorem Document.Numbered.sameText {document other : Document} (numbered : other.Numbered)
    (same : document.SameText other) : document.Numbered where
  current := same.currentRevision ▸ numbered.current
  history := same.history ▸ numbered.history

namespace Room

/-- The settings and the revisions of a room, and what the rows say of them. -/
structure Registered (room : Room) (store : Store) : Prop where
  preset : validLayoutPreset room.snapshot.layoutPreset = true
  creator : room.snapshot.creatorTokenHash = [] ∨ room.snapshot.creatorTokenHash.length = 32
  metadataRevision : 0 ≤ room.snapshot.metadataRevision
  documents : ∀ id document, room.documents.lookup id = some document → document.Numbered
  rows : ∀ tables, store.lookup room.snapshot.slug = some tables →
    tables.room.creatorTokenHash = room.snapshot.creatorTokenHash ∧
    unixTime tables.room.createdAt = room.snapshot.createdAt ∧
    unixTime tables.room.expiresAt = room.snapshot.expiresAt ∧
    ∀ row ∈ tables.changes, row.streamKind = .metadata →
      row.revision ≤ room.snapshot.metadataRevision

theorem Registered.of_shared {room room' : Room} {store : Store}
    (registered : room.Registered store) (shared : room'.shared = room.shared) :
    room'.Registered store := by
  have shape (room : Room) : room.Registered store ↔ room.shared.Registered store :=
    ⟨fun registered => { registered with }, fun registered => { registered with }⟩
  rw [shape, shared, ← shape]
  exact registered

section Commit

variable {room changed final : Room} {store store' : Store} {change : ChangeRecord}
  {fingerprint : String} {result : OperationResult} {now : Time} {operationID : String}
  {record : LedgerRecord} {fault : Bool}

/-- A commit keeps the settings. -/
theorem Registered.commit (registered : room.Registered store)
    (saved : Storage.Store.commitChange store (changed.commitOf change fingerprint result room) now
      fault = .ok store')
    (settings : ∃ documents contentSize metadataRevision, changed.snapshot = { room.snapshot with
      documents, contentSize, metadataRevision })
    (grows : room.snapshot.metadataRevision ≤ changed.snapshot.metadataRevision)
    (stream : change.streamKind = .metadata →
      change.revision ≤ changed.snapshot.metadataRevision)
    (commits : changed.Commits operationID record final)
    (numbered : ∀ id document, final.documents.lookup id = some document → document.Numbered) :
    final.Registered store' := by
  obtain ⟨prepared, tables, change', operation, written, writes⟩ := writes_of_commitChange saved
  obtain ⟨tables', inserted, creator, created, expires, changes⟩ := writes.kept
  obtain ⟨documents, contentSize, metadataRevision, settings⟩ := settings
  have snapshot : final.snapshot = { room.snapshot with
      documents := changed.durableSnapshot.2.documents
      contentSize := changed.durableSnapshot.2.contentSize
      metadataRevision := changed.snapshot.metadataRevision
      metadataSnapshotRevision := changed.snapshot.metadataRevision } := by
    have durable : changed.durableSnapshot.2 = { changed.snapshot with
        documents := changed.durableSnapshot.2.documents
        contentSize := changed.durableSnapshot.2.contentSize
        metadataSnapshotRevision := changed.snapshot.metadataRevision } := rfl
    rw [commits.snapshot, durable, settings]
  have slug : (changed.commitOf change fingerprint result room).snapshot.slug =
      room.snapshot.slug := by
    have same := congrArg RoomSnapshot.slug (commits.snapshot.symm.trans snapshot)
    exact same
  obtain ⟨creatorRow, createdRow, expiresRow, metadataRows⟩ :=
    registered.rows tables (slug ▸ writes.found)
  constructor
  case preset =>
    rw [snapshot]
    exact registered.preset
  case creator =>
    rw [snapshot]
    exact registered.creator
  case metadataRevision =>
    rw [snapshot]
    exact registered.metadataRevision.trans grows
  case documents => exact numbered
  case rows =>
    intro tables'' found
    rw [inserted, slug, snapshot, AList.lookup_insert] at found
    cases found
    rw [snapshot]
    refine ⟨creator.trans creatorRow, (congrArg unixTime created).trans createdRow,
      (congrArg unixTime expires).trans expiresRow, fun row member kind => ?_⟩
    obtain ⟨createdAt, changed'⟩ := writes.changed
    rcases changes row member with old | new
    · exact (metadataRows row old kind).trans grows
    · subst new
      rw [changed'] at kind ⊢
      exact stream kind

end Commit

/-- A document operation keeps the settings and goes on counting. -/
theorem Registered.document [Host] {room : Room} {store : Store} {operation : DocumentOperation}
    {now : Time} {fault : Bool} {outcome : Outcome AcceptedDocumentOperation}
    (registered : room.Registered store)
    (ends : DocumentOutcome room store operation now fault outcome) :
    outcome.1.room.Registered outcome.1.store := by
  cases ends with
  | refused => exact registered
  | repeated => exact registered
  | accepted document changes content store' named fresh admitted small saved =>
      have admitted := admitted_of_admitDocument admitted
      refine registered.commit saved ⟨_, _, _, rfl⟩ le_rfl (fun kind => by cases kind)
        (commits_document _ _ _ _ _) fun id final lookup => ?_
      rcases accepted_lookup_cases room operation _ document changes content now lookup with
        rfl | ⟨other, found, same⟩
      · obtain ⟨own, entry, lookup', _, revision, suffix, step⟩ :=
          accepted_lookup_own room operation _ document changes content now
        cases lookup.symm.trans lookup'
        have numbered := registered.documents _ document admitted.found
        refine ⟨revision ▸ Int.le_add_one numbered.current, fun recorded member => ?_⟩
        rcases List.mem_append.mp (suffix.subset member) with old | new
        · exact numbered.history recorded old
        · rw [List.mem_singleton.mp new]
          have base : entry.baseVersion = document.snapshot.currentRevision :=
            congrArg HistoryStep.baseVersion step
          rw [base]
          exact numbered.current
      · exact (registered.documents id other found).sameText same

/-- A metadata operation leaves the texts alone, or it adds a new one. -/
theorem MetadataChange.documents_numbered {room : Room} {operation : MetadataOperation}
    {now : Time} {effect : MetadataEffect} (change : room.MetadataChange operation now effect)
    (numbered : ∀ id document, room.documents.lookup id = some document → document.Numbered)
    {id : String} {document : Document}
    (found : effect.room.documents.lookup id = some document) : document.Numbered := by
  cases change with
  | create documentID kind space name language content fits valid fresh =>
      rw [Keyed.lookup_insert_if] at found
      split at found
      case isTrue =>
        cases found
        exact ⟨le_rfl, by simp⟩
      case isFalse => exact numbered id document found
  | update before kind present name language =>
      rw [Keyed.lookup_insert_if] at found
      split at found
      case isTrue =>
        cases found
        exact ⟨(numbered _ before present).current, (numbered _ before present).history⟩
      case isFalse => exact numbered id document found
  | delete kind several present =>
      have lookup := Keyed.lookup_erase_if room.documents id operation.documentID
      rw [show (room.documents.erase operation.documentID).lookup id = some document from found]
        at lookup
      split at lookup
      case isTrue => cases lookup
      case isFalse => exact numbered id document lookup.symm
  | reorder kind valid complete known => exact numbered id document found

theorem MetadataChange.snapshot_changed {room : Room} {operation : MetadataOperation} {now : Time}
    {effect : MetadataEffect} (change : room.MetadataChange operation now effect) :
    (room.metadataChanged effect).snapshot = { room.snapshot with
      documents := (room.metadataChanged effect).snapshot.documents
      contentSize := (room.metadataChanged effect).snapshot.contentSize
      metadataRevision := room.snapshot.metadataRevision + 1 } := by
  have same := congrArg Room.snapshot change.rest
  have settings : effect.room.snapshot = room.snapshot := same
  have base : (room.metadataChanged effect).snapshot = { effect.room.snapshot with
      documents := (room.metadataChanged effect).snapshot.documents
      contentSize := (room.metadataChanged effect).snapshot.contentSize
      metadataRevision := room.snapshot.metadataRevision + 1 } := rfl
  exact base.trans (by rw [settings])

/-- A metadata operation keeps the settings and goes on counting. -/
theorem Registered.metadata [Host] {room : Room} {store : Store} {operation : MetadataOperation}
    {now : Time} {fault : Bool} {outcome : Outcome AcceptedMetadataOperation}
    (registered : room.Registered store)
    (ends : MetadataOutcome room store operation now fault outcome) :
    outcome.1.room.Registered outcome.1.store := by
  cases ends with
  | refused room' shared error => exact registered.of_shared shared
  | repeated => exact registered
  | accepted effect store' authority named fresh admitted change small saved result =>
      have revision : (room.metadataChanged effect).snapshot.metadataRevision =
        room.snapshot.metadataRevision + 1 := rfl
      rw [result]
      refine registered.commit saved ⟨_, _, _, change.snapshot_changed⟩
        (revision ▸ Int.le_add_one le_rfl) (fun _ => le_rfl) (commits_metadata _ _ _ _ 0)
        fun id final lookup => ?_
      rw [committed_metadata_lookup, Option.map_eq_some_iff] at lookup
      obtain ⟨before, found, rfl⟩ := lookup
      rw [metadataChanged, syncSnapshot, positionAll, Keyed.lookup_mapKeyed,
        Option.map_eq_some_iff] at found
      obtain ⟨original, present, rfl⟩ := found
      exact (change.documents_numbered registered.documents present).sameText
        ((saved_sameText _ _ _).trans (Document.positioned_sameText _ _ _))

/-! ## Modes and loading -/

theorem Registered.watchOnly {room : Room} {store : Store} {enabled : Bool} {now : Time}
    {fault : Bool} {outcome : Outcome RoomState} (registered : room.Registered store)
    (ends : ModeOutcome room store (fun room => room.locked enabled)
      (Storage.Store.setRoomLocked store room.snapshot.slug enabled now fault) outcome) :
    outcome.1.room.Registered outcome.1.store := by
  cases ends with
  | refused room' shared => exact registered.of_shared shared
  | unchanged room' shared => exact registered.of_shared shared
  | changed room' shared store' saved =>
      unfold Storage.Store.setRoomLocked at saved
      simp only [bind_eq_ok, require_eq_ok, exists_const] at saved
      obtain ⟨_, tables, active, equality⟩ := saved
      cases equality
      have registered := registered.of_shared shared
      obtain ⟨found, _⟩ := active_eq_ok.mp active
      rw [← snapshot_of_shared shared] at found ⊢
      refine { registered with rows := fun tables' found' => ?_ }
      cases (AList.lookup_insert store).symm.trans found'
      exact registered.rows tables found

theorem Registered.layoutPreset {room : Room} {store : Store} {preset : String} {now : Time}
    {fault : Bool} {outcome : Outcome RoomState} (registered : room.Registered store)
    (ends : ModeOutcome room store (fun room => room.laidOut preset)
      (Storage.Store.setRoomLayoutPreset store room.snapshot.slug preset now fault) outcome) :
    outcome.1.room.Registered outcome.1.store := by
  cases ends with
  | refused room' shared => exact registered.of_shared shared
  | unchanged room' shared => exact registered.of_shared shared
  | changed room' shared store' saved =>
      unfold Storage.Store.setRoomLayoutPreset at saved
      simp only [bind_eq_ok, require_eq_ok, exists_const] at saved
      obtain ⟨valid, _, tables, active, equality⟩ := saved
      cases equality
      have registered := registered.of_shared shared
      obtain ⟨found, _⟩ := active_eq_ok.mp active
      rw [← snapshot_of_shared shared] at found ⊢
      refine { registered with preset := valid, rows := fun tables' found' => ?_ }
      cases (AList.lookup_insert store).symm.trans found'
      exact registered.rows tables found

/-- A room that is loaded from rows with valid settings. -/
theorem registered_loaded {tables : Tables} {store : Store} {options : HubOptions}
    {documents : Keyed Document} {operations : Keyed LedgerRecord}
    (preset : validLayoutPreset tables.room.layoutPreset = true)
    (creator : tables.room.creatorTokenHash = [] ∨ tables.room.creatorTokenHash.length = 32)
    (metadataRevision : 0 ≤ tables.room.metadataRevision)
    (rows : ∀ id row, rowOf tables.documents id = some row → 0 ≤ row.currentRevision)
    (stream : ∀ row ∈ tables.changes, row.streamKind = .metadata →
      row.revision ≤ tables.room.metadataRevision)
    (found : store.lookup tables.room.slug = some tables)
    (loaded : ∀ id, documents.lookup id =
      (rowOf tables.documents id).map fun row => loadedDocument row.snapshot) :
    ({ (ofSnapshot options (Storage.Store.snapshotOf tables) documents).syncSnapshot with
      operations,
      operationOrder := tables.operations.map OperationRow.operationID } : Room).Registered
        store where
  preset := preset
  creator := creator
  metadataRevision := metadataRevision
  documents id document lookup := by
    have positions : (documents.lookup id).map (positioned
        ((Storage.Store.snapshotOf tables).documents.map DocumentSnapshot.id) id) = some document :=
      (Keyed.lookup_mapKeyed _ _ _).symm.trans lookup
    rw [loaded, Option.map_map, Option.map_eq_some_iff] at positions
    obtain ⟨row, stored, rfl⟩ := positions
    have numbered : (loadedDocument row.snapshot).Numbered :=
      ⟨rows id row stored, by simp [loadedDocument]⟩
    exact numbered.sameText (Document.positioned_sameText _ _ _)
  rows tables' found' := by
    cases found.symm.trans found'
    exact ⟨rfl, rfl, rfl, stream⟩

/-- Reloading keeps the settings and the revisions. -/
theorem Registered.reload {room room' : Room} {store store' : Store} {snapshot : RoomSnapshot}
    {now : Time} (registered : room.Registered store) (consistent : room.Consistent store)
    (read : Storage.Store.getRoomSnapshot store room.snapshot.slug now false = .ok snapshot)
    (loaded : newRoom store snapshot room.options .none = (store', .ok room')) :
    room'.Registered store' := by
  obtain ⟨formed, tables, found, stored⟩ := consistent
  obtain ⟨tables', found', _, rfl⟩ := getRoomSnapshot_ok read
  cases found.symm.trans found'
  obtain ⟨documents, operations, lookup, _, _, built⟩ := stored.newRoom_eq formed found
  rw [loaded] at built
  cases built
  obtain ⟨creator, created, expires, stream⟩ := registered.rows tables found
  refine registered_loaded (stored.layoutPreset ▸ registered.preset)
    (creator ▸ registered.creator) (stored.metadataRevision ▸ registered.metadataRevision)
    (fun id row present => ?_) (stored.metadataRevision ▸ stream) (stored.slug ▸ found) lookup
  obtain ⟨listed, _, _, document, known, _⟩ := stored.row_spec formed present
  have rows := stored.rows id
  rw [present, known, Option.map_some, Option.map_some, Option.some_inj, rowFor_eq listed] at rows
  have revision : row.currentRevision = document.snapshot.currentRevision :=
    congrArg DocumentRow.currentRevision rows
  exact revision ▸ (registered.documents id document known).current

/-- A new room is registered. -/
theorem Registered.created {store store' created : Store} {snapshot loaded : RoomSnapshot}
    {fault : Bool} {now : Time} {options : HubOptions} {room : Room}
    (create : Storage.Store.createRoom store snapshot fault = .ok created)
    (read : Storage.Store.getRoomSnapshot created snapshot.slug now false = .ok loaded)
    (load : newRoom created loaded options .none = (store', .ok room)) :
    room.Registered store' := by
  obtain ⟨prepared, prepares, lifetime, rfl⟩ := createRoom_prepared create
  have preparation := prepared_of_prepareRoomSnapshot prepares
  obtain ⟨preset, metadataRevision, creator, revisions⟩ := prepareRoomSnapshot_checked prepares
  have slug : prepared.slug = snapshot.slug := by
    obtain ⟨_, equality⟩ := preparation.equality
    rw [equality]
  have found : (store.insert snapshot.slug (createdTables prepared)).lookup prepared.slug =
      some (createdTables prepared) := by
    rw [slug]
    exact AList.lookup_insert _
  obtain ⟨tables, found', alive, rfl⟩ := getRoomSnapshot_ok read
  rw [AList.lookup_insert] at found'
  cases found'
  obtain ⟨⟨_, _, checked, _⟩, size, documents, replayed, added, replay⟩ := loaded_of_newRoom load
  obtain ⟨formed, stored⟩ := created_stored preparation lifetime found checked size added replay
  obtain ⟨documents', operations, lookup, _, _, built⟩ := stored.newRoom_eq formed found
  rw [show (createdRoom options prepared documents).options = options from rfl, load] at built
  cases built
  refine registered_loaded preset creator metadataRevision (fun id row present => ?_) (by
    intro row member
    cases member) found lookup
  rw [createdTables, rowOf_map_documentRow, Option.map_eq_some_iff] at present
  obtain ⟨document, listed, rfl⟩ := present
  exact revisions document (List.mem_of_find?_eq_some listed)

end Room

namespace Authority

theorem Step.registered [Host] {authority authority' : Authority} {event : Event}
    (step : Step authority event authority')
    (consistent : authority.room.Consistent authority.store)
    (registered : authority.room.Registered authority.store) :
    authority'.room.Registered authority'.store := by
  cases step with
  | document participantID connectionID generation operation json parsed now fault =>
      obtain ⟨room, shared, ends⟩ := authority.room.submitDocument_outcome authority.store
        participantID connectionID generation operation now fault
      exact (registered.of_shared shared).document ends
  | metadata participantID connectionID generation operation generator now fault =>
      obtain ⟨room, shared, ends⟩ := authority.room.applyMetadata_outcome authority.store
        participantID connectionID generation operation generator now fault
      exact (registered.of_shared shared).metadata ends
  | watchOnly => exact registered.watchOnly (Room.setWatchOnly_outcome _ _ _ _ _ _ _ _ _)
  | layoutPreset => exact registered.layoutPreset (Room.setLayoutPreset_outcome _ _ _ _ _ _ _ _ _)
  | roster room shared => exact registered.of_shared shared
  | elsewhere store same =>
      exact { registered with rows := fun tables found => registered.rows tables (same ▸ found) }
  | reload snapshot now store room read loaded => exact registered.reload consistent read loaded

theorem Run.registered [Host] {start authority : Authority} {events : List Event}
    (run : Run start events authority) (consistent : start.room.Consistent start.store)
    (registered : start.room.Registered start.store) :
    authority.room.Registered authority.store := by
  induction run with
  | nil => exact registered
  | snoc events authority event authority' run step induction =>
      exact step.registered (run.consistent consistent) induction

end Authority

end Oxbin.Live
