import Oxbin.Live.Membership
import Oxbin.Live.Representation
import Oxbin.Live.Restart

/-!
# The life of a room

A room is created in the store and loaded, serves its clients, and is loaded again after it has
been evicted or the program has been restarted.  All along the texts that its documents have are
written down.
-/

namespace Oxbin.Live

open Livecollab Storage Storage.Tables

namespace Room

/-! ## Texts -/

section Texts

variable {room room' : Room} {annals : Annals}

theorem Recollects.logged (recollects : room.Recollects annals) :
    room.Recollects (annals.log room) := recollects.log_eq.symm ▸ recollects

theorem Recollects.of_shared (recollects : room.Recollects annals)
    (shared : room'.shared = room.shared) : room'.Recollects annals := by
  intro id document found
  rw [documents_of_shared shared] at found
  exact recollects id document found

/-- Documents with the same records have the same texts. -/
theorem Recollects.of_map (recollects : room.Recollects annals)
    (moved : String → Document → Document)
    (same : ∀ id document, (moved id document).SameRecord document)
    (documents : ∀ id, room'.documents.lookup id = (room.documents.lookup id).map (moved id)) :
    room'.Recollects annals := by
  intro id document' found'
  rw [documents, Option.map_eq_some_iff] at found'
  obtain ⟨document, found, rfl⟩ := found'
  exact (recollects id document found).sameRecord (same id document)

theorem DocumentOutcome.recollects [Host] {store : Store} {operation : DocumentOperation}
    {now : Time} {fault : Bool} {outcome : Outcome AcceptedDocumentOperation}
    (ends : DocumentOutcome room store operation now fault outcome)
    (recollects : room.Recollects annals) :
    outcome.1.room.Recollects (annals.log outcome.1.room) := by
  cases ends with
  | refused => exact recollects.logged
  | repeated => exact recollects.logged
  | accepted document changes content store' named fresh admitted =>
      exact recollects.carries
        (recollects.accepted_carries (admitted_of_admitDocument admitted) _ _)

theorem MetadataOutcome.recollects [Host] {store : Store} {operation : MetadataOperation}
    {now : Time} {fault : Bool} {outcome : Outcome AcceptedMetadataOperation}
    (ends : MetadataOutcome room store operation now fault outcome)
    (recollects : room.Recollects annals) :
    outcome.1.room.Recollects (annals.log outcome.1.room) := by
  cases ends with
  | refused room' shared => exact (recollects.of_shared shared).logged
  | repeated => exact recollects.logged
  | accepted effect store' authority named fresh admitted change small saved result =>
      subst result
      exact recollects.carries (change.committed_carries _ _ _)

theorem ModeOutcome.recollects {store : Store} {change : Room → Room}
    {save : Except LiveError Store} {outcome : Outcome RoomState}
    (ends : ModeOutcome room store change save outcome)
    (documents : ∀ room : Room, (change room).documents = room.documents)
    (recollects : room.Recollects annals) :
    outcome.1.room.Recollects (annals.log outcome.1.room) := by
  cases ends with
  | refused room' shared => exact (recollects.of_shared shared).logged
  | unchanged room' shared => exact (recollects.of_shared shared).logged
  | changed room' shared =>
      have changed : (change room').Recollects annals := fun id document found =>
        recollects.of_shared shared id document (documents room' ▸ found)
      exact changed.logged

theorem Recollects.shutdown (recollects : room.Recollects annals) (store : Store) (now : Time)
    (fault : Bool) : (room.shutdown store now fault).1.room.Recollects annals := by
  unfold Room.shutdown
  simp only
  split
  case isTrue =>
    split
    case h_1 =>
      exact recollects.of_map (positioned room.order) (Document.positioned_sameRecord room.order)
        fun _ => Keyed.lookup_mapKeyed _ _ _
    case h_2 =>
      exact recollects.of_map (saved room.order) (Document.saved_sameRecord room.order)
        room.settle_lookup
  case isFalse => exact recollects

end Texts

/-- Nothing has been written to the document since it was loaded. -/
structure Blank (document : Document) : Prop where
  history : document.history = []
  bytes : document.historyBytes = 0
  compacted : document.compactedRevision = document.snapshot.currentRevision

theorem recollects_blank {room : Room}
    (blank : ∀ id document, room.documents.lookup id = some document → Blank document)
    (annals : Annals) : room.Recollects (annals.log room) := by
  intro id document found
  obtain ⟨history, bytes, compacted⟩ := blank id document found
  refine .blank ?_ history bytes compacted
  rw [log_of_lookup found, if_pos rfl]

/-- A room that is loaded from its tables has nothing to save, and its documents are blank. -/
theorem Stored.blank {room room' : Room} {tables : Tables} {store store' : Store}
    (stored : room.Stored tables) (formed : room.Formed)
    (found : store.lookup room.snapshot.slug = some tables)
    (load : newRoom store (Storage.Store.snapshotOf tables) room.options .none =
      (store', .ok room')) : room'.dirty = false ∧
    ∀ id document, room'.documents.lookup id = some document → Blank document := by
  obtain ⟨documents, operations, loaded, _, _, equality⟩ := stored.newRoom_eq formed found
  rw [load] at equality
  cases equality
  refine ⟨rfl, fun id document present => ?_⟩
  have lookup : (syncSnapshot (ofSnapshot room.options (Storage.Store.snapshotOf tables)
      documents)).documents.lookup id = _ := Keyed.lookup_mapKeyed _ _ id
  rw [show (syncSnapshot _).documents.lookup id = some document from present] at lookup
  obtain ⟨before, present', rfl⟩ := Option.map_eq_some_iff.mp lookup.symm
  rw [show (ofSnapshot _ _ documents).documents.lookup id = documents.lookup id from rfl,
    loaded, Option.map_eq_some_iff] at present'
  obtain ⟨row, listed, rfl⟩ := present'
  have settled := (stored.row_spec formed listed).2.2.1
  unfold positioned
  split
  · exact ⟨rfl, rfl, settled⟩
  · exact ⟨rfl, rfl, settled⟩

end Room

namespace Authority

/-- A room that has just been created is loaded from the tables that its creation has written. -/
theorem Started.stored {options : HubOptions} {authority : Authority}
    (started : Started options authority) :
    ∃ (room : Room) (store : Store) (prepared : RoomSnapshot),
      room.Formed ∧ room.Stored (Room.createdTables prepared) ∧
      store.lookup room.snapshot.slug = some (Room.createdTables prepared) ∧
      Room.newRoom store (Storage.Store.snapshotOf (Room.createdTables prepared)) room.options
        .none = (authority.store, .ok authority.room) := by
  cases started with
  | created store created snapshot loaded fault now authority create read load =>
      obtain ⟨prepared, preparation, lifetime, rfl⟩ := Room.createRoom_ok create
      have slug : prepared.slug = snapshot.slug := by
        obtain ⟨_, equality⟩ := preparation.equality
        rw [equality]
      have found : (store.insert snapshot.slug (Room.createdTables prepared)).lookup prepared.slug =
          some (Room.createdTables prepared) := by
        rw [slug]
        exact AList.lookup_insert _
      obtain ⟨tables, found', alive, rfl⟩ := Room.getRoomSnapshot_ok read
      rw [AList.lookup_insert] at found'
      cases found'
      obtain ⟨⟨_, _, checked, _⟩, size, documents, replayed, added, replay⟩ :=
        Room.loaded_of_newRoom load
      obtain ⟨formed, stored⟩ :=
        Room.created_stored preparation lifetime found checked size added replay
      exact ⟨_, _, prepared, formed, stored, found, load⟩

/-- So has a room that has just been created. -/
theorem Started.blank {options : HubOptions} {authority : Authority}
    (started : Started options authority) : authority.room.dirty = false ∧
    ∀ id document, authority.room.documents.lookup id = some document → Room.Blank document := by
  obtain ⟨room, store, prepared, formed, stored, found, load⟩ := started.stored
  exact stored.blank formed found load

/-- A request enters the texts that it writes. -/
theorem request_recollects [Host] {authority : Authority} {annals : Annals}
    (recollects : authority.room.Recollects annals) (session : Session) (now : Time) (fault : Bool)
    (request : Request) :
    (authority.request session now fault request).1.room.Recollects
      (annals.log (authority.request session now fault request).1.room) := by
  cases request with
  | submitDocument operation =>
      obtain ⟨room', shared, ends⟩ := authority.room.submitDocument_outcome authority.store
        session.participant session.connectionID session.generation operation now fault
      exact ends.recollects (recollects.of_shared shared)
  | applyMetadata operation generator =>
      obtain ⟨room', shared, ends⟩ := authority.room.applyMetadata_outcome authority.store
        session.participant session.connectionID session.generation operation generator now fault
      exact ends.recollects (recollects.of_shared shared)
  | updatePresence update =>
      exact (recollects.of_shared (Room.updatePresence_shared _ _ _ _ _ _)).logged
  | rename name => exact (recollects.of_shared (Room.rename_shared _ _ _ _ _ _)).logged
  | heartbeat => exact (recollects.of_shared (Room.ensureConnection_shared _ _ _ _ _)).logged
  | disconnect => exact (recollects.of_shared (Room.disconnect_shared _ _ _ _ _)).logged
  | setWatchOnly enabled =>
      have ends := authority.room.setWatchOnly_outcome authority.store session.participant
        session.connectionID session.generation session.creator enabled now fault
      exact ends.recollects (fun _ => rfl) recollects
  | setLayoutPreset preset =>
      have ends := authority.room.setLayoutPreset_outcome authority.store session.participant
        session.connectionID session.generation session.creator preset now fault
      exact ends.recollects (fun _ => rfl) recollects

/-- A call enters the texts that it writes. -/
theorem perform_recollects [Host] {authority : Authority} {annals : Annals}
    (recollects : authority.room.Recollects annals) (action : Action) :
    (authority.perform action).1.room.Recollects
      (annals.log (authority.perform action).1.room) := by
  unfold perform
  split
  case h_1 identity capability candidate call =>
    unfold join
    split
    case h_1 => exact recollects.logged
    case h_2 => exact (recollects.of_shared (Room.join_shared _ _ _ _ _)).logged
  case h_2 session request call =>
    exact request_recollects recollects session action.now action.fault request
  case h_3 => exact (recollects.of_shared (Room.sweep_shared _ _)).logged
  case h_4 => exact (recollects.of_shared (Room.shouldEvict_shared _ _)).logged
  case h_5 => exact (recollects.shutdown _ _ _).logged
  case h_6 => exact recollects.logged

/-! ## Accord with the store -/

theorem dirty_of_shared {room room' : Room} (shared : room'.shared = room.shared) :
    room'.dirty = room.dirty := by
  have equality := congrArg Room.dirty shared
  exact equality

/-- No operation leaves anything that is not saved. -/
theorem request_clean [Host] {authority : Authority} (clean : authority.room.dirty = false)
    (session : Session) (now : Time) (fault : Bool) (request : Request) :
    (authority.request session now fault request).1.room.dirty = false := by
  have shares {room : Room} (shared : room.shared = authority.room.shared) : room.dirty = false :=
    (dirty_of_shared shared).trans clean
  have mode {change : Room → Room} {save : Except LiveError Store} {outcome : Outcome RoomState}
      (ends : Room.ModeOutcome authority.room authority.store change save outcome)
      (keeps : ∀ room : Room, (change room).dirty = room.dirty) :
      outcome.1.room.dirty = false := by
    cases ends with
    | refused room' shared => exact shares shared
    | unchanged room' shared => exact shares shared
    | changed room' shared => exact (keeps room').trans (shares shared)
  cases request with
  | submitDocument operation =>
      obtain ⟨room', shared, ends⟩ := authority.room.submitDocument_outcome authority.store
        session.participant session.connectionID session.generation operation now fault
      simp only [request]
      generalize authority.room.submitDocument authority.store session.participant
        session.connectionID session.generation operation now fault = outcome at ends ⊢
      cases ends with
      | refused => exact shares shared
      | repeated => exact shares shared
      | accepted => rfl
  | applyMetadata operation generator =>
      obtain ⟨room', shared, ends⟩ := authority.room.applyMetadata_outcome authority.store
        session.participant session.connectionID session.generation operation generator now fault
      simp only [request]
      generalize authority.room.applyMetadata authority.store session.participant
        session.connectionID session.generation operation generator now fault = outcome at ends ⊢
      cases ends with
      | refused room'' shared' => exact shares (shared'.trans shared)
      | repeated => exact shares shared
      | accepted effect store' authority' named fresh admitted change small saved result =>
          subst result
          rfl
  | updatePresence update => exact shares (Room.updatePresence_shared _ _ _ _ _ _)
  | rename name => exact shares (Room.rename_shared _ _ _ _ _ _)
  | heartbeat => exact shares (Room.ensureConnection_shared _ _ _ _ _)
  | disconnect => exact shares (Room.disconnect_shared _ _ _ _ _)
  | setWatchOnly enabled =>
      exact mode (authority.room.setWatchOnly_outcome authority.store session.participant
        session.connectionID session.generation session.creator enabled now fault) fun _ => rfl
  | setLayoutPreset preset =>
      exact mode (authority.room.setLayoutPreset_outcome authority.store session.participant
        session.connectionID session.generation session.creator preset now fault) fun _ => rfl

theorem shutdown_clean {authority : Authority} (clean : authority.room.dirty = false) (now : Time)
    (fault : Bool) : (authority.room.shutdown authority.store now fault).1 =
      ⟨authority.room.close, authority.store⟩ := by
  unfold Room.shutdown
  rw [if_neg]
  rintro ⟨dirty, _⟩
  cases clean.symm.trans dirty

/-- The room and its tables are in accord, and nothing is left to save. -/
structure Settled (options : HubOptions) (authority : Authority) : Prop where
  consistent : authority.room.Consistent authority.store
  options : authority.room.options = options
  clean : authority.room.dirty = false

theorem Settled.of_shared {options : HubOptions} {authority : Authority} {room : Room}
    (settled : authority.Settled options) (shared : room.shared = authority.room.shared) :
    Settled options ⟨room, authority.store⟩ where
  consistent := settled.consistent.of_shared shared
  options := by
    have equality := congrArg Room.options shared
    exact Eq.trans equality settled.options
  clean := (dirty_of_shared shared).trans settled.clean

theorem Settled.step [Host] {options : HubOptions} {authority authority' : Authority}
    {event : Event} (settled : authority.Settled options) (step : Step authority event authority')
    (clean : authority'.room.dirty = false) : authority'.Settled options where
  consistent := step.consistent settled.consistent
  options := (step.options settled.consistent).trans settled.options
  clean := clean

/-- The action leaves the tables of the room to the room. -/
def Apart (authority : Authority) (action : Action) : Prop :=
  ∀ store, action.call = .elsewhere store →
    store.lookup authority.room.snapshot.slug =
      authority.store.lookup authority.room.snapshot.slug

theorem perform_settled [Host] {options : HubOptions} {authority : Authority} {action : Action}
    {issued : List Session} (settled : authority.Settled options)
    (possible : action.Possible issued)
    (apart : authority.Apart action) : (authority.perform action).1.Settled options := by
  obtain ⟨call, now, fault⟩ := action
  cases call with
  | join identity capability candidate =>
      change (authority.join identity capability candidate now).1.Settled options
      unfold join
      split
      case h_1 => exact settled
      case h_2 => exact settled.of_shared (Room.join_shared _ _ _ _ _)
  | request session request =>
      obtain ⟨event, step⟩ := request_step possible
      exact settled.step step (request_clean settled.clean session now fault request)
  | sweep => exact settled.of_shared (Room.sweep_shared _ _)
  | shouldEvict => exact settled.of_shared (Room.shouldEvict_shared _ _)
  | shutdown =>
      change (authority.room.shutdown authority.store now fault).1.Settled options
      rw [shutdown_clean settled.clean]
      exact settled.of_shared rfl
  | elsewhere store =>
      exact settled.step (.elsewhere authority store (apart store rfl)) settled.clean

end Authority

/-! ## Lives -/

namespace Stage

/-- A room from its creation on, through calls that are admitted and through loads, and the texts
that its documents have had. -/
inductive Led [Host] (options : HubOptions) (admits : Stage → Annals → Action → Prop) :
    Stage → Annals → Prop
  | created (authority : Authority) (valid : options.validate = .ok ())
      (started : Authority.Started options authority) :
      Led options admits ⟨authority, []⟩ (Annals.log (fun _ _ => "") authority.room)
  | step (stage : Stage) (annals : Annals) (action : Action) (led : Led options admits stage annals)
      (possible : action.Possible stage.issued) (apart : stage.authority.Apart action)
      (admitted : admits stage annals action) :
      Led options admits (stage.step action) (annals.log (stage.step action).authority.room)
  | reload (stage : Stage) (annals : Annals) (snapshot : RoomSnapshot) (now : Time)
      (authority : Authority) (led : Led options admits stage annals)
      (valid : options.validate = .ok ())
      (read : Storage.Store.getRoomSnapshot stage.authority.store
        stage.authority.room.snapshot.slug now false = .ok snapshot)
      (load : Room.newRoom stage.authority.store snapshot options .none =
        (authority.store, .ok authority.room)) :
      Led options admits ⟨authority, []⟩ (annals.log authority.room)

/-- Any life of a room. -/
abbrev Lived [Host] (options : HubOptions) : Stage → Annals → Prop :=
  Led options fun _ _ _ => True

section Led

variable [Host] {options : HubOptions} {admits : Stage → Annals → Action → Prop} {stage : Stage}
  {annals : Annals}

/-- A life is a run of the room since it was loaded last. -/
theorem Led.reachable (led : Led options admits stage annals) : Reachable options stage := by
  induction led with
  | created authority valid started =>
      cases started with
      | created store created snapshot loaded fault now authority create read load =>
          exact .loaded _ (.newRoom created loaded .none authority valid load)
  | step stage annals action led possible apart admitted reachable =>
      exact .step stage action reachable possible
  | reload stage annals snapshot now authority led valid read load =>
      exact .loaded _ (.newRoom stage.authority.store snapshot .none authority valid load)

/-- All along the room and its tables are in accord. -/
theorem Led.settled (led : Led options admits stage annals) : stage.authority.Settled options := by
  induction led with
  | created authority valid started =>
      obtain ⟨consistent, same⟩ := started.consistent
      exact ⟨consistent, same, started.blank.1⟩
  | step stage annals action led possible apart admitted settled =>
      exact Authority.perform_settled settled possible apart
  | reload stage annals snapshot now authority led valid read load settled =>
      obtain ⟨tables, found, stored⟩ := settled.consistent.stored
      obtain ⟨tables', found', _, rfl⟩ := Room.getRoomSnapshot_ok read
      cases found.symm.trans found'
      rw [← settled.options] at load
      exact settled.step (.reload stage.authority _ now authority.store authority.room read load)
        (stored.blank settled.consistent.formed found load).1

/-- All along the documents have the texts that are written down. -/
theorem Led.recollects (led : Led options admits stage annals) :
    stage.authority.room.Recollects annals := by
  induction led with
  | created authority valid started => exact Room.recollects_blank started.blank.2 _
  | step stage annals action led possible apart admitted recollects =>
      exact Authority.perform_recollects recollects action
  | reload stage annals snapshot now authority led valid read load =>
      obtain ⟨⟨formed, tables, found, stored⟩, same, _⟩ := led.settled
      obtain ⟨tables', found', _, rfl⟩ := Room.getRoomSnapshot_ok read
      cases found.symm.trans found'
      rw [← same] at load
      exact Room.recollects_blank (stored.blank formed found load).2 annals

/-- A life goes on through any calls on the room. -/
theorem Led.run (lived : Lived options stage annals) {actions : List Action}
    (possible : stage.Possible actions)
    (own : ∀ action ∈ actions, ∀ store, action.call ≠ .elsewhere store) :
    ∃ annals', Lived options (stage.run actions) annals' := by
  induction actions generalizing stage annals with
  | nil => exact ⟨annals, lived⟩
  | cons action actions induction =>
      have apart : stage.authority.Apart action := fun store call =>
        absurd call (own action List.mem_cons_self store)
      exact induction (.step stage annals action lived possible.1 apart trivial) possible.2
        fun other member => own other (.tail _ member)

end Led

end Stage

end Oxbin.Live
