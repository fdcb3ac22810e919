import Oxbin.Live.Effects
import Oxbin.Live.History

/-!
# Runs of a room

A room is created in the store and loaded, and then goes through operations of its clients,
changes of its roster, changes of other rooms, and reloads.  In every state that a run reaches
the room is well formed and stored.
-/

namespace Oxbin.Live

open Livecollab Storage

/-- What happens to a room. -/
inductive Event where
  | document (operation : DocumentOperation) (answer : Except LiveError AcceptedDocumentOperation)
  | metadata (operation : MetadataOperation) (answer : Except LiveError AcceptedMetadataOperation)
  | watchOnly (answer : Except LiveError RoomState)
  | layoutPreset (answer : Except LiveError RoomState)
  | roster
  | elsewhere
  | reload

namespace Authority

/-- One step of a room.  Document operations arrive as JSON, and the participants only matter for
the answers. -/
inductive Step [Host] : Authority → Event → Authority → Prop
  | document (authority : Authority) (participantID connectionID : String) (generation : Nat)
      (operation : DocumentOperation) (json : Json)
      (parsed : parseChangeSetJSON json = .ok operation.changes) (now : Time) (fault : Bool) :
      Step authority
        (.document operation (authority.room.submitDocument authority.store participantID
          connectionID generation operation now fault).2)
        (authority.room.submitDocument authority.store participantID connectionID generation
          operation now fault).1
  | metadata (authority : Authority) (participantID connectionID : String) (generation : Nat)
      (operation : MetadataOperation) (generator : Nat → Option String) (now : Time)
      (fault : Bool) :
      Step authority
        (.metadata operation (authority.room.applyMetadata authority.store participantID
          connectionID generation operation generator now fault).2)
        (authority.room.applyMetadata authority.store participantID connectionID generation
          operation generator now fault).1
  | watchOnly (authority : Authority) (participantID connectionID : String) (generation : Nat)
      (creator enabled : Bool) (now : Time) (fault : Bool) :
      Step authority
        (.watchOnly (authority.room.setWatchOnly authority.store participantID connectionID
          generation creator enabled now fault).2)
        (authority.room.setWatchOnly authority.store participantID connectionID generation
          creator enabled now fault).1
  | layoutPreset (authority : Authority) (participantID connectionID : String) (generation : Nat)
      (creator : Bool) (preset : String) (now : Time) (fault : Bool) :
      Step authority
        (.layoutPreset (authority.room.setLayoutPreset authority.store participantID connectionID
          generation creator preset now fault).2)
        (authority.room.setLayoutPreset authority.store participantID connectionID generation
          creator preset now fault).1
  | roster (authority : Authority) (room : Room) (shared : room.shared = authority.room.shared) :
      Step authority .roster { authority with room }
  | elsewhere (authority : Authority) (store : Store)
      (same : store.lookup authority.room.snapshot.slug =
        authority.store.lookup authority.room.snapshot.slug) :
      Step authority .elsewhere { authority with store }
  | reload (authority : Authority) (snapshot : RoomSnapshot) (now : Time) (store : Store)
      (room : Room)
      (read : Storage.Store.getRoomSnapshot authority.store authority.room.snapshot.slug now
        false = .ok snapshot)
      (loaded : Room.newRoom authority.store snapshot authority.room.options .none =
        (store, .ok room)) :
      Step authority .reload ⟨room, store⟩

/-- A run of a room. -/
inductive Run [Host] (start : Authority) : List Event → Authority → Prop
  | nil : Run start [] start
  | snoc (events : List Event) (authority : Authority) (event : Event) (authority' : Authority)
      (run : Run start events authority) (step : Step authority event authority') :
      Run start (events ++ [event]) authority'

/-- The room has just been created and loaded. -/
inductive Started (options : HubOptions) : Authority → Prop
  | created (store created : Store) (snapshot loaded : RoomSnapshot) (fault : Bool) (now : Time)
      (authority : Authority) (create : Storage.Store.createRoom store snapshot fault = .ok created)
      (read : Storage.Store.getRoomSnapshot created snapshot.slug now false = .ok loaded)
      (load : Room.newRoom created loaded options .none =
        (authority.store, .ok authority.room)) : Started options authority

end Authority

namespace Room

/-- The room is well formed and its tables hold it. -/
structure Consistent (room : Room) (store : Store) : Prop where
  formed : room.Formed
  stored : ∃ tables, store.lookup room.snapshot.slug = some tables ∧ room.Stored tables

theorem Formed.of_shared {room room' : Room} (formed : room.Formed)
    (shared : room'.shared = room.shared) : room'.Formed := by
  have shape (room : Room) : room.Formed ↔ room.shared.Formed :=
    ⟨fun formed => { formed with }, fun formed => { formed with }⟩
  rw [shape, shared, ← shape]
  exact formed

theorem Stored.of_shared {room room' : Room} {tables : Tables} (stored : room.Stored tables)
    (shared : room'.shared = room.shared) : room'.Stored tables := by
  have shape (room : Room) : room.Stored tables ↔ room.shared.Stored tables :=
    ⟨fun stored => { stored with }, fun stored => { stored with }⟩
  rw [shape, shared, ← shape]
  exact stored

theorem Consistent.of_shared {room room' : Room} {store : Store}
    (consistent : room.Consistent store) (shared : room'.shared = room.shared) :
    room'.Consistent store := by
  obtain ⟨formed, tables, found, stored⟩ := consistent
  have snapshot : room'.shared.snapshot = room.shared.snapshot := congrArg Room.snapshot shared
  have slug : room'.snapshot.slug = room.snapshot.slug := congrArg RoomSnapshot.slug snapshot
  exact ⟨formed.of_shared shared, tables, slug ▸ found, stored.of_shared shared⟩

/-! ## Operations -/

/-- A commit leaves the room and its tables in accord. -/
theorem Consistent.commit {room changed final : Room} {store store' : Store}
    {tables tables' : Tables} {row : OperationRow} {record : LedgerRecord}
    (stored : room.Stored tables) (settings : room.SameSettings changed)
    (formed : changed.Formed) (inserted : store' = store.insert changed.snapshot.slug tables')
    (saved : Saved tables changed row tables') (decodes : row.Decodes record)
    (fresh : room.operations.lookup row.operationID = none)
    (commits : changed.Commits row.operationID record final)
    (history : ∀ id document, final.documents.lookup id = some document →
      HistoryFormed document.history) :
    final.Consistent store' := by
  have unknown : row.operationID ∉ changed.operations := by
    rw [settings.operations]
    exact AList.lookup_eq_none.mp fresh
  have finalFormed := commits.formed formed unknown history
  refine ⟨finalFormed, tables', ?_, saved.stored commits settings stored finalFormed decodes⟩
  rw [inserted, commits.snapshot]
  exact AList.lookup_insert _

/-- The histories after an accepted document operation. -/
theorem Formed.accepted_history {room : Room} (formed : room.Formed)
    {operation : DocumentOperation} {document : Document} {changes : ChangeSet} {content : String}
    (admitted : room.Admitted operation document changes content) (wellFormed : changes.WellFormed)
    (fingerprint : String) (now : Time) {id : String} {final : Document}
    (lookup : (room.accepted operation fingerprint document changes content
      now).documents.lookup id = some final) : HistoryFormed final.history := by
  rcases accepted_lookup_cases room operation fingerprint document changes content now lookup with
    rfl | ⟨other, found, same⟩
  · obtain ⟨own, entry, lookup', _, _, suffix, step⟩ :=
      accepted_lookup_own room operation fingerprint document changes content now
    cases lookup.symm.trans lookup'
    intro recorded member
    rcases List.mem_append.mp (suffix.subset member) with old | new
    · exact (formed.documents _ document admitted.found).history recorded old
    · rw [List.mem_singleton.mp new]
      have changed : entry.changes = changes := congrArg HistoryStep.changes step
      rw [changed]
      exact wellFormed
  · rw [same.history]
    exact (formed.documents id other found).history

/-- A document operation leaves the room and its tables in accord. -/
theorem Consistent.document [Host] {room : Room} {store : Store} {operation : DocumentOperation}
    {now : Time} {fault : Bool} {outcome : Outcome AcceptedDocumentOperation}
    (consistent : room.Consistent store) (canonical : operation.changes.Canonical)
    (ends : DocumentOutcome room store operation now fault outcome) :
    outcome.1.room.Consistent outcome.1.store := by
  cases ends with
  | refused => exact consistent
  | repeated => exact consistent
  | accepted document changes content store' named fresh admitted small saved =>
      obtain ⟨formed, tables, found, stored⟩ := consistent
      have admitted := admitted_of_admitDocument admitted
      have changesCanonical := admitted.canonical formed canonical
      have edited := admitted.edited_formed formed (document.snapshot.currentRevision + 1) now
      obtain ⟨prepared, tables', change, durable, written, writes⟩ :=
        writes_of_commitChange saved
      have same : tables' = tables := Option.some.inj (writes.found.symm.trans found)
      subst same
      let changed := room.editDocument operation.documentID document content
        (document.snapshot.currentRevision + 1) now
      have settings : room.SameSettings changed := ⟨rfl, rfl, rfl, rfl, rfl, rfl, rfl⟩
      have others (id : String) (other : id ≠ operation.documentID) :
          (changed.documents.lookup id).map (rowFor changed.order id) =
            (room.documents.lookup id).map (rowFor room.order id) := by
        rw [editDocument_lookup, if_neg other, Option.map_map]
        congr 1
        funext document
        exact rowFor_positioned room.order id document
      obtain ⟨tables', createdAt, inserted, saved⟩ :=
        saved_document writes rfl edited stored rfl others
      refine Consistent.commit stored settings edited inserted saved (decodes_document named
        writes.fingerprint writes.revision writes.baseRevision admitted.valid changesCanonical)
        fresh (commits_document _ _ _ _ _) fun id final lookup => ?_
      exact formed.accepted_history admitted changesCanonical.wellFormed
        (Host.fingerprint (documentOperationJson operation)) now lookup

/-- A metadata operation leaves the room and its tables in accord. -/
theorem Consistent.metadata [Host] {room : Room} {store : Store} {operation : MetadataOperation}
    {now : Time} {fault : Bool} {outcome : Outcome AcceptedMetadataOperation}
    (consistent : room.Consistent store)
    (ends : MetadataOutcome room store operation now fault outcome) :
    outcome.1.room.Consistent outcome.1.store := by
  cases ends with
  | refused room' shared error => exact consistent.of_shared shared
  | repeated => exact consistent
  | accepted effect store' authority named fresh admitted change small saved result =>
      obtain ⟨formed, tables, found, stored⟩ := consistent
      have changed := change.changed_formed formed
      obtain ⟨prepared, tables', record, durable, written, writes⟩ :=
        writes_of_commitChange saved
      have rest {α : Type} (read : Room → α) := congrArg read change.rest
      have settings : room.SameSettings (room.metadataChanged effect) := {
        options := rest Room.options
        slug := rest fun room => room.snapshot.slug
        layoutPreset := rest fun room => room.snapshot.layoutPreset
        expiresAt := rest fun room => room.snapshot.expiresAt
        watchOnly := rest Room.watchOnly
        operations := rest Room.operations
        operationOrder := rest Room.operationOrder }
      have same : tables' = tables :=
        Option.some.inj (writes.found.symm.trans (settings.slug ▸ found))
      subst same
      obtain ⟨tables', createdAt, inserted, saved⟩ :=
        saved_metadata writes rfl changed stored
      rw [result]
      refine Consistent.commit stored settings changed inserted saved (decodes_metadata named
        writes.fingerprint writes.revision writes.baseRevision)
        fresh (commits_metadata _ _ _ _ 0) fun id final lookup => ?_
      rw [committed_metadata_lookup, Option.map_eq_some_iff] at lookup
      obtain ⟨before, found, rfl⟩ := lookup
      rw [(saved_sameText _ _ _).history]
      exact (changed.documents id before found).history

/-! ## Modes -/

theorem Consistent.watchOnly {room : Room} {store : Store} {enabled : Bool} {now : Time}
    {fault : Bool} {outcome : Outcome RoomState} (consistent : room.Consistent store)
    (ends : ModeOutcome room store (fun room => room.locked enabled)
      (Storage.Store.setRoomLocked store room.snapshot.slug enabled now fault) outcome) :
    outcome.1.room.Consistent outcome.1.store := by
  cases ends with
  | refused room' shared => exact consistent.of_shared shared
  | unchanged room' shared => exact consistent.of_shared shared
  | changed room' shared store' saved =>
      unfold Storage.Store.setRoomLocked at saved
      simp only [bind_eq_ok, require_eq_ok, exists_const] at saved
      obtain ⟨_, tables, active, equality⟩ := saved
      cases equality
      obtain ⟨formed, tables', found, stored⟩ := consistent.of_shared shared
      obtain ⟨found', _⟩ := active_eq_ok.mp active
      rw [← snapshot_of_shared shared] at found' ⊢
      cases found.symm.trans found'
      exact ⟨{ formed with }, { tables with room := { tables.room with locked := enabled } },
        AList.lookup_insert _, { stored with locked := rfl }⟩

theorem Consistent.layoutPreset {room : Room} {store : Store} {preset : String} {now : Time}
    {fault : Bool} {outcome : Outcome RoomState} (consistent : room.Consistent store)
    (ends : ModeOutcome room store (fun room => room.laidOut preset)
      (Storage.Store.setRoomLayoutPreset store room.snapshot.slug preset now fault) outcome) :
    outcome.1.room.Consistent outcome.1.store := by
  cases ends with
  | refused room' shared => exact consistent.of_shared shared
  | unchanged room' shared => exact consistent.of_shared shared
  | changed room' shared store' saved =>
      unfold Storage.Store.setRoomLayoutPreset at saved
      simp only [bind_eq_ok, require_eq_ok, exists_const] at saved
      obtain ⟨_, _, tables, active, equality⟩ := saved
      cases equality
      obtain ⟨formed, tables', found, stored⟩ := consistent.of_shared shared
      obtain ⟨found', _⟩ := active_eq_ok.mp active
      rw [← snapshot_of_shared shared] at found' ⊢
      cases found.symm.trans found'
      exact ⟨{ formed with },
        { tables with room := { tables.room with layoutPreset := preset } },
        AList.lookup_insert _, { stored with layoutPreset := rfl }⟩

/-- Reloading leaves the room and its tables in accord. -/
theorem Consistent.reload {room room' : Room} {store store' : Store} {snapshot : RoomSnapshot}
    {now : Time} (consistent : room.Consistent store)
    (read : Storage.Store.getRoomSnapshot store room.snapshot.slug now false = .ok snapshot)
    (loaded : newRoom store snapshot room.options .none = (store', .ok room')) :
    room'.Consistent store' := by
  obtain ⟨formed, tables, found, stored⟩ := consistent
  obtain ⟨tables', found', alive, rfl⟩ := getRoomSnapshot_ok read
  cases found.symm.trans found'
  rw [stored.expiresAt] at alive
  obtain ⟨snapshot', room'', read', loaded', formed', stored', _⟩ :=
    stored.reload formed found alive
  cases read.symm.trans read'
  rw [loaded] at loaded'
  cases loaded'
  refine ⟨formed', tables, ?_, stored'⟩
  rw [← stored'.slug, stored.slug]
  exact found

end Room

namespace Authority

/-- A step leaves the room and its tables in accord. -/
theorem Step.consistent [Host] {authority authority' : Authority} {event : Event}
    (step : Step authority event authority')
    (consistent : authority.room.Consistent authority.store) :
    authority'.room.Consistent authority'.store := by
  cases step with
  | document participantID connectionID generation operation json parsed now fault =>
      obtain ⟨room, shared, ends⟩ := authority.room.submitDocument_outcome authority.store
        participantID connectionID generation operation now fault
      exact (consistent.of_shared shared).document (canonical_of_parseChangeSetJSON parsed) ends
  | metadata participantID connectionID generation operation generator now fault =>
      obtain ⟨room, shared, ends⟩ := authority.room.applyMetadata_outcome authority.store
        participantID connectionID generation operation generator now fault
      exact (consistent.of_shared shared).metadata ends
  | watchOnly => exact consistent.watchOnly (Room.setWatchOnly_outcome _ _ _ _ _ _ _ _ _)
  | layoutPreset => exact consistent.layoutPreset (Room.setLayoutPreset_outcome _ _ _ _ _ _ _ _ _)
  | roster room shared => exact consistent.of_shared shared
  | elsewhere store same =>
      obtain ⟨formed, tables, found, stored⟩ := consistent
      exact ⟨formed, tables, same.trans found, stored⟩
  | reload snapshot now store room read loaded => exact consistent.reload read loaded

/-- The options never change. -/
theorem Step.options [Host] {authority authority' : Authority} {event : Event}
    (step : Step authority event authority')
    (consistent : authority.room.Consistent authority.store) :
    authority'.room.options = authority.room.options := by
  have shares {room room' : Room} (shared : room.shared = room'.shared) :
      room.options = room'.options := by
    have equality := congrArg Room.options shared
    exact equality
  cases step with
  | document participantID connectionID generation operation json parsed now fault =>
      obtain ⟨room, shared, ends⟩ := authority.room.submitDocument_outcome authority.store
        participantID connectionID generation operation now fault
      generalize authority.room.submitDocument authority.store participantID connectionID
        generation operation now fault = outcome at ends
      cases ends with
      | refused => exact shares shared
      | repeated => exact shares shared
      | accepted document changes content store' =>
          have same : room.options = authority.room.options := shares shared
          exact (Room.commits_document _ _ _ _ _).options.trans same
  | metadata participantID connectionID generation operation generator now fault =>
      obtain ⟨room, shared, ends⟩ := authority.room.applyMetadata_outcome authority.store
        participantID connectionID generation operation generator now fault
      generalize authority.room.applyMetadata authority.store participantID connectionID
        generation operation generator now fault = outcome at ends
      cases ends with
      | refused room' shared' => exact shares (shared'.trans shared)
      | repeated => exact shares shared
      | accepted effect store' authority' named fresh admitted change small saved result =>
          rw [result]
          have rest := congrArg Room.options change.rest
          have same : (room.metadataChanged effect).options = room.options := rest
          have before : room.options = authority.room.options := shares shared
          exact ((Room.commits_metadata _ _ _ _ 0).options.trans same).trans before
  | watchOnly participantID connectionID generation creator enabled now fault =>
      have ends := authority.room.setWatchOnly_outcome authority.store participantID connectionID
        generation creator enabled now fault
      generalize authority.room.setWatchOnly authority.store participantID connectionID generation
        creator enabled now fault = outcome at ends
      cases ends with
      | refused room' shared => exact shares shared
      | unchanged room' shared => exact shares shared
      | changed room' shared =>
          have same : room'.options = authority.room.options := shares shared
          exact same
  | layoutPreset participantID connectionID generation creator preset now fault =>
      have ends := authority.room.setLayoutPreset_outcome authority.store participantID connectionID
        generation creator preset now fault
      generalize authority.room.setLayoutPreset authority.store participantID connectionID
        generation creator preset now fault = outcome at ends
      cases ends with
      | refused room' shared => exact shares shared
      | unchanged room' shared => exact shares shared
      | changed room' shared =>
          have same : room'.options = authority.room.options := shares shared
          exact same
  | roster room shared => exact shares shared
  | elsewhere => rfl
  | reload snapshot now store room read loaded =>
      obtain ⟨formed, tables, found, stored⟩ := consistent
      obtain ⟨tables', found', alive, rfl⟩ := Room.getRoomSnapshot_ok read
      cases found.symm.trans found'
      rw [stored.expiresAt] at alive
      obtain ⟨snapshot', room', read', loaded', _, _, options⟩ := stored.reload formed found alive
      cases read.symm.trans read'
      rw [loaded] at loaded'
      cases loaded'
      exact options

theorem Run.consistent [Host] {start authority : Authority} {events : List Event}
    (run : Run start events authority) (consistent : start.room.Consistent start.store) :
    authority.room.Consistent authority.store := by
  induction run with
  | nil => exact consistent
  | snoc events authority event authority' run step induction => exact step.consistent induction

theorem Run.options [Host] {start authority : Authority} {events : List Event}
    (run : Run start events authority) (consistent : start.room.Consistent start.store) :
    authority.room.options = start.room.options := by
  induction run with
  | nil => rfl
  | snoc events authority event authority' run step induction =>
      exact (step.options (run.consistent consistent)).trans induction

end Authority

end Oxbin.Live
