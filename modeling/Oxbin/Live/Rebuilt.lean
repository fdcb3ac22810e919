import Oxbin.Live.Life

/-!
# The room that a load rebuilds

A load replays the changes that the stored snapshot does not contain.  Unlike the operations that
have written them it does not check them against the limits of the room.
-/

namespace Oxbin.Live

open Livecollab Storage Storage.Tables

/-! ## The texts of a replay -/

/-- The content to which stored changes lead. -/
def contentAfter (content : String) : List ChangeRecord → String
  | [] => content
  | change :: changes =>
      contentAfter (match decodeDocumentChange change.payload with
        | .error _ => content
        | .ok changeSet => (changeSet.apply content).toOption.getD content) changes

/-- The snapshot is one that the store has checked, and it has no more documents than the room
takes. -/
structure RoomSnapshot.Within (snapshot : RoomSnapshot) (options : HubOptions) : Prop where
  tabs : (snapshot.documents.length : Int) ≤ options.maxTabs
  revisions : ∀ document ∈ snapshot.documents, document.snapshotRevision ≤ document.currentRevision

/-- The snapshot is within the limits of the options. -/
structure RoomSnapshot.Limited (snapshot : RoomSnapshot) (options : HubOptions) : Prop where
  tabs : (snapshot.documents.length : Int) ≤ options.maxTabs
  size : (snapshot.documents.map fun document => byteLen document.content).sum ≤ options.maxBytes

namespace Room

section Stored

variable (store : Store) (room : Room)

/-- The changes that a load replays on a document. -/
def storedChanges (id : String) (document : DocumentSnapshot) : List ChangeRecord :=
  if document.snapshotRevision < document.currentRevision then
    (Storage.Store.loadChangesSince store room.snapshot.slug .document id document.snapshotRevision
      (beforeExpiry room.snapshot.expiresAt) false).toOption.getD []
  else []

/-- The changes that a load replays on the metadata. -/
def storedMetadata : List ChangeRecord :=
  if room.snapshot.metadataSnapshotRevision < room.snapshot.metadataRevision then
    (Storage.Store.loadChangesSince store room.snapshot.slug .metadata metadataStreamID
      room.snapshot.metadataSnapshotRevision (beforeExpiry room.snapshot.expiresAt)
      false).toOption.getD []
  else []

/-- The texts that a document goes through in a replay. -/
def storedTexts : Annals := fun id version =>
  match room.documents.lookup id with
  | none => ""
  | some document => contentAfter document.snapshot.content
      ((room.storedChanges store id document.snapshot).take
        (version - document.snapshot.snapshotRevision).toNat)

/-- The size to which a replay of the documents leads. -/
def storedBytes : Int :=
  (room.order.map fun id => ((room.documents.lookup id).map fun document =>
    (byteLen (room.storedTexts store id document.snapshot.currentRevision) : Int)).getD 0).sum

/-- The change is one that `applyMetadata` makes: a deletion leaves a document, and an order lists
all documents. -/
def Respects (change : PersistedMetadataChange) : Prop :=
  (change.kind = "document_delete" → change.documentID ∈ room.documents →
    room.order.length ≠ 1) ∧
  (change.kind = "document_reorder" → change.order.length = room.order.length ∧
    ∀ id ∈ change.order, id ∈ room.documents)

/-- The stored changes respect the limits of the room: each change of the metadata is one that
`applyMetadata` makes, and the contents to which the changes lead fit into the room. -/
def Replayable (room : Room) : List ChangeRecord → Prop
  | [] => room.storedBytes store ≤ room.options.maxBytes
  | change :: changes =>
      (∀ persisted, decodeMetadataChange change.payload = .ok persisted →
        room.Respects persisted) ∧
      ∀ room', room.applyPersistedMetadata change = .ok room' → Replayable room' changes

end Stored

end Room

/-! ## One document -/

namespace Document

theorem applyPersistedDocument_ok {options : HubOptions} {document document' : Document}
    {change : ChangeRecord}
    (applied : Room.applyPersistedDocument options document change = .ok document') :
    ∃ changes content, decodeDocumentChange change.payload = .ok changes ∧
      change.revision = document.snapshot.currentRevision + 1 ∧
      changes.apply document.snapshot.content = .ok content ∧
      document' = ({ document.addHistory {
          operationID := "", clientID := "", revision := change.revision
          baseVersion := document.snapshot.currentRevision
          beforeLen := utf16Len document.snapshot.content, bytes := change.payload.size
          changes } with
        snapshot := { document.snapshot with
          content, currentRevision := change.revision, updatedAt := change.createdAt } } :
        Document).pruneHistory options.maxHistoryRows options.maxHistoryBytes := by
  unfold Room.applyPersistedDocument at applied
  simp only [Room.bind_eq_ok, require_eq_ok, exists_const] at applied
  obtain ⟨changes, decoded, revision, applied⟩ := applied
  split at applied
  case h_1 => cases applied
  case h_2 content written =>
    cases applied
    exact ⟨changes, content, decoded, revision, written, rfl⟩

/-- A replay enters the texts to which its changes lead. -/
theorem Recalls.replayed {options : HubOptions} {texts : Texts} {changes : List ChangeRecord}
    {document document' : Document} (recalls : document.Recalls texts)
    (fold : changes.foldlM (Room.applyPersistedDocument options) document = .ok document')
    (written : ∀ count ≤ changes.length, texts (document.snapshot.currentRevision + count) =
      contentAfter document.snapshot.content (changes.take count)) :
    document'.Recalls texts := by
  induction changes generalizing document with
  | nil =>
      cases fold
      exact recalls
  | cons change changes induction =>
      rw [List.foldlM_cons, Room.bind_eq_ok] at fold
      obtain ⟨middle, applied, fold⟩ := fold
      obtain ⟨changeSet, content, decoded, revision, applies, rfl⟩ :=
        applyPersistedDocument_ok applied
      have next : contentAfter document.snapshot.content [change] = content := by
        simp only [contentAfter, decoded, applies]
        rfl
      have entered : texts (document.snapshot.currentRevision + 1) = content := by
        have first := written 1 (by simp)
        rwa [Nat.cast_one, List.take_succ_cons, List.take_zero, next] at first
      have continued := recalls.addHistory {
        operationID := "", clientID := "", revision := change.revision
        baseVersion := document.snapshot.currentRevision
        beforeLen := utf16Len document.snapshot.content, bytes := change.payload.size
        changes := changeSet } change.createdAt rfl revision rfl applies entered
      rw [← revision] at continued
      refine induction (continued.pruneHistory _ _) fold fun count within => ?_
      have later := written (count + 1) (by
        rw [List.length_cons]
        omega)
      rw [List.take_succ_cons] at later
      change texts (change.revision + count) = contentAfter content (changes.take count)
      rw [revision, Int.add_assoc, Int.add_comm 1, ← Nat.cast_succ, later, ← next]
      rfl

/-- The document has not been replayed. -/
structure Unread (document : Document) : Prop where
  history : document.history = []
  bytes : document.historyBytes = 0
  compacted : document.compactedRevision = document.snapshot.snapshotRevision
  behind : document.snapshot.snapshotRevision ≤ document.snapshot.currentRevision

end Document

/-! ## All documents -/

namespace Room

theorem loadChangesSince_faultless {store : Store} {slug streamID : String} {kind : StreamKind}
    {since : Int} {now : Time} {fault : Bool} {changes : List ChangeRecord}
    (loads : Storage.Store.loadChangesSince store slug kind streamID since now fault =
      .ok changes) :
    Storage.Store.loadChangesSince store slug kind streamID since now false = .ok changes := by
  cases fault with
  | false => exact loads
  | true =>
      unfold Storage.Store.loadChangesSince at loads
      simp only [bind_eq_ok, require_eq_ok, exists_const] at loads
      obtain ⟨_, _, _, healthy, _⟩ := loads
      cases healthy

theorem storedTexts_congr {store : Store} {room room' : Room} {id : String}
    (snapshot : room'.snapshot = room.snapshot)
    (same : room'.documents.lookup id = room.documents.lookup id) :
    room'.storedTexts store id = room.storedTexts store id := by
  funext version
  unfold storedTexts storedChanges
  rw [same, snapshot]

/-- A document before its replay and after it. -/
structure Replays (store : Store) (room room' : Room) (id : String)
    (document document' : Document) : Prop where
  found : room.documents.lookup id = some document
  found' : room'.documents.lookup id = some document'
  currentRevision : document'.snapshot.currentRevision = document.snapshot.currentRevision
  recalls : document'.Recalls (room.storedTexts store id)

/-- The replay of a document enters its texts. -/
theorem replayDocument_replays {store : Store} {room room' : Room} {fault : Bool} {id : String}
    (replayed : room.replayDocument store fault id = .ok room')
    (unread : ∀ document, room.documents.lookup id = some document → document.Unread) :
    (∃ documents, room' = { room with documents }) ∧
      (∀ other, other ≠ id → room'.documents.lookup other = room.documents.lookup other) ∧
      ∃ document document', room.Replays store room' id document document' := by
  obtain ⟨document, found, ends⟩ := replayDocument_ok replayed
  have fresh := unread document found
  rcases ends with ⟨settled, rfl⟩ | ⟨behind, changes, final, loads, fold, arrived, rfl⟩
  · refine ⟨⟨_, rfl⟩, fun _ _ => rfl, document, document, found, found, rfl, ?_⟩
    refine .blank ?_ fresh.history fresh.bytes
      (fresh.compacted.trans (le_antisymm fresh.behind settled))
    simp only [storedTexts, found, storedChanges]
    rw [if_neg (by omega), List.take_nil]
    rfl
  · have stored : room.storedChanges store id document.snapshot = changes := by
      rw [storedChanges, if_pos behind, loadChangesSince_faultless loads]
      rfl
    refine ⟨⟨_, rfl⟩, fun other different => AList.lookup_insert_ne different, document, final,
      found, AList.lookup_insert _, arrived, ?_⟩
    have texts (count : Nat) :
        room.storedTexts store id (document.snapshot.snapshotRevision + count) =
        contentAfter document.snapshot.content (changes.take count) := by
      simp only [storedTexts, found, stored]
      congr 2
      omega
    refine Document.Recalls.replayed ?_ fold fun count _ => texts count
    refine .blank ?_ fresh.history fresh.bytes fresh.compacted
    have start := texts 0
    rw [Nat.cast_zero, Int.add_zero, List.take_zero] at start
    exact start.symm

/-- The replay of the documents enters their texts. -/
theorem replayDocuments_replays {store : Store} {room room' : Room} {fault : Bool}
    {order : List String} (nodup : order.Nodup)
    (unread : ∀ id ∈ order, ∀ document, room.documents.lookup id = some document →
      document.Unread)
    (replayed : order.foldlM (fun room id => room.replayDocument store fault id) room = .ok room') :
    (∃ documents, room' = { room with documents }) ∧
      (∀ other, other ∉ order → room'.documents.lookup other = room.documents.lookup other) ∧
      ∀ id ∈ order, ∃ document document', room.Replays store room' id document document' := by
  induction order generalizing room with
  | nil =>
      cases replayed
      exact ⟨⟨_, rfl⟩, fun _ _ => rfl, by simp⟩
  | cons first order induction =>
      rw [List.foldlM_cons, bind_eq_ok] at replayed
      obtain ⟨middle, head, tail⟩ := replayed
      obtain ⟨apart, nodup⟩ := List.nodup_cons.mp nodup
      obtain ⟨⟨documents, rfl⟩, others, document, document', replays⟩ :=
        replayDocument_replays head (unread first (by simp))
      have later (id : String) (member : id ∈ order) : id ≠ first :=
        fun same => apart (same ▸ member)
      obtain ⟨⟨documents', rfl⟩, outside, inside⟩ :=
        induction nodup (fun id member document found =>
        unread id (by simp [member]) document (by rwa [others id (later id member)] at found)) tail
      refine ⟨⟨_, rfl⟩, fun other absent => ?_, fun id member => ?_⟩
      · rw [List.mem_cons, not_or] at absent
        exact (outside other absent.2).trans (others other absent.1)
      · rcases List.mem_cons.mp member with rfl | rest
        · exact ⟨document, document', replays.found, (outside id apart).trans replays.found',
            replays.currentRevision, replays.recalls⟩
        · obtain ⟨before, after, found, found', current, recalls⟩ := inside id rest
          have same := others id (later id rest)
          have texts : storedTexts store { room with documents } id = room.storedTexts store id :=
            storedTexts_congr rfl same
          rw [texts] at recalls
          exact ⟨before, after, same.symm.trans found, found', current, recalls⟩

/-! ## The metadata -/

/-- The room lists documents that have not been replayed. -/
structure Gathered (room : Room) : Prop where
  listed : room.Listed
  tabs : (room.order.length : Int) ≤ room.options.maxTabs
  unread : ∀ id document, room.documents.lookup id = some document → document.Unread

/-- A replayed change that respects the room keeps it a list of its documents. -/
theorem Gathered.replays {room room' : Room} {persisted : PersistedMetadataChange}
    {change : ChangeRecord} (gathered : room.Gathered)
    (replays : room.ReplaysMetadata persisted change room')
    (respects : room.Respects persisted) : room'.Gathered := by
  have listed := gathered.listed
  cases replays with
  | create kind fresh space =>
      have absent : persisted.documentID ∉ room.order := mt (listed.present _).mpr fresh
      refine ⟨⟨by simp, ?_, fun id => ?_⟩, ?_, fun id document found => ?_⟩
      · refine listed.nodup.append (List.nodup_singleton _) ?_
        rwa [List.disjoint_singleton]
      · rw [AList.mem_insert, listed.present, List.mem_append, List.mem_singleton, or_comm]
      · simp only [List.length_append, List.length_singleton]
        omega
      · rw [Keyed.lookup_insert_if] at found
        split at found
        case isTrue =>
          cases found
          exact ⟨rfl, rfl, rfl, le_rfl⟩
        case isFalse => exact gathered.unread id document found
  | update document kind found =>
      refine ⟨listed.edited found _, gathered.tabs, fun id document' found' => ?_⟩
      rw [Keyed.lookup_insert_if] at found'
      split at found'
      case isTrue =>
        cases found'
        obtain ⟨history, bytes, compacted, behind⟩ := gathered.unread _ document found
        exact ⟨history, bytes, compacted, behind⟩
      case isFalse => exact gathered.unread id document' found'
  | delete kind found =>
      have several := respects.1 kind found
      have member := (listed.present persisted.documentID).mp found
      have length := List.length_erase_of_mem member
      have positive := List.length_pos_iff.mpr listed.nonempty
      refine ⟨⟨fun empty => ?_, listed.nodup.erase _, fun id => ?_⟩, ?_,
        fun id document found' => ?_⟩
      · rw [show room.order.erase persisted.documentID = [] from empty, List.length_nil] at length
        omega
      · change id ∈ room.documents.erase persisted.documentID ↔
          id ∈ room.order.erase persisted.documentID
        rw [listed.nodup.mem_erase_iff, ← listed.present, AList.mem_erase]
      · have tabs := gathered.tabs
        simp only [length]
        omega
      · have lookup := Keyed.lookup_erase_if room.documents id persisted.documentID
        rw [show (room.documents.erase persisted.documentID).lookup id = some document from found']
          at lookup
        split at lookup
        case isTrue => cases lookup
        case isFalse => exact gathered.unread id document lookup.symm
  | reorder kind valid =>
      obtain ⟨complete, known⟩ := respects.2 kind
      obtain ⟨nodup, nonempty⟩ := nodup_of_validateDocumentOrder valid
      have perm := listed.perm_order nodup complete known
      refine ⟨⟨nonempty, nodup, fun id =>
        (listed.present id).trans perm.mem_iff.symm⟩, ?_, gathered.unread⟩
      simp only [complete]
      exact gathered.tabs
  | idle => exact gathered

/-- The room after the replay of its metadata. -/
def afterMetadata (store : Store) (room : Room) : Room :=
  ((room.storedMetadata store).foldlM applyPersistedMetadata room).toOption.getD room

theorem Gathered.replayMetadata {store : Store} {changes : List ChangeRecord}
    {room room' : Room} (gathered : room.Gathered)
    (fold : changes.foldlM applyPersistedMetadata room = .ok room')
    (replayable : Replayable store room changes) :
    room'.Gathered ∧ room'.storedBytes store ≤ room'.options.maxBytes := by
  induction changes generalizing room with
  | nil =>
      cases fold
      exact ⟨gathered, replayable⟩
  | cons change changes induction =>
      rw [List.foldlM_cons, bind_eq_ok] at fold
      obtain ⟨middle, applied, fold⟩ := fold
      obtain ⟨respects, later⟩ := replayable
      refine induction ?_ fold (later middle applied)
      obtain ⟨persisted, changed, decoded, replays, rfl⟩ := applyPersistedMetadata_ok applied
      obtain ⟨⟨nonempty, nodup, present⟩, tabs, unread⟩ :=
        gathered.replays replays (respects persisted decoded)
      exact ⟨⟨nonempty, nodup, present⟩, tabs, unread⟩

/-- What a replay builds represents the stored texts. -/
theorem Gathered.replay {store : Store} {room room' : Room} {fault : Bool}
    (gathered : room.Gathered) (replayed : room.replay store fault = .ok room')
    (replayable : Replayable store room (room.storedMetadata store)) :
    room'.Represents ((room.afterMetadata store).storedTexts store) := by
  obtain ⟨middle, final, metadata, walked, rfl⟩ := replay_ok replayed
  have fold : (room.storedMetadata store).foldlM applyPersistedMetadata room = .ok middle := by
    unfold storedMetadata
    rcases metadata with ⟨settled, rfl⟩ | ⟨behind, changes, loads, fold⟩
    · rw [if_neg (by omega)]
      rfl
    · rw [if_pos behind, loadChangesSince_faultless loads]
      exact fold
  have after : room.afterMetadata store = middle := by
    rw [afterMetadata, fold]
    rfl
  rw [after]
  obtain ⟨⟨listed, tabs, unread⟩, fits⟩ := gathered.replayMetadata fold replayable
  obtain ⟨⟨documents, rfl⟩, outside, inside⟩ :=
    replayDocuments_replays listed.nodup (fun id _ => unread id) walked
  have replays (id : String) (document' : Document)
      (found' : documents.lookup id = some document') :
      ∃ document, middle.Replays store { middle with documents } id document document' := by
    by_cases member : id ∈ middle.order
    · obtain ⟨document, replayed, replays⟩ := inside id member
      cases replays.found'.symm.trans found'
      exact ⟨document, replays⟩
    · have absent := mt (listed.present id).mp member
      rw [← AList.lookup_eq_none, ← outside id member] at absent
      cases absent.symm.trans found'
  have bytes : ({ middle with documents } : Room).bytes = middle.storedBytes store := by
    unfold bytes storedBytes
    refine congrArg List.sum (List.map_congr_left fun id member => ?_)
    obtain ⟨document, document', replays⟩ := inside id member
    have content := replays.recalls.content
    rw [replays.currentRevision] at content
    rw [bytesOf, replays.found', replays.found, Option.map_some, Option.map_some, content]
  apply represents_sync
  case listed =>
    refine ⟨listed.nonempty, listed.nodup, fun id => ?_⟩
    by_cases member : id ∈ middle.order
    · obtain ⟨_, document', replays⟩ := inside id member
      exact iff_of_true (AList.lookup_isSome.mp (by rw [replays.found']; rfl)) member
    · refine iff_of_false (fun present => member ((listed.present id).mp ?_)) member
      rw [← AList.lookup_isSome] at present ⊢
      rwa [outside id member] at present
  case tabs => exact tabs
  case fits =>
    rw [bytes]
    exact fits
  case recalls =>
    intro id document' found'
    obtain ⟨document, replays⟩ := replays id document' found'
    exact replays.recalls

theorem loadOperations_rest {store : Store} {room room' : Room} {fault : Bool}
    (loaded : room.loadOperations store fault = .ok room') :
    ∃ operations operationOrder, room' = { room with operations, operationOrder } := by
  unfold loadOperations at loaded
  simp only [bind_eq_ok] at loaded
  obtain ⟨operations, _, fold⟩ := loaded
  refine foldlM_preserves (fun room' => ∃ operations operationOrder,
    room' = { room with operations, operationOrder }) (fun middle operation next step same => ?_)
    fold ⟨_, _, rfl⟩
  obtain ⟨_, _, rfl⟩ := same
  unfold loadOperation at step
  simp only [bind_eq_ok] at step
  obtain ⟨record, _, _, _, equality⟩ := step
  cases equality
  exact ⟨_, _, rfl⟩

/-- A room with the documents of a snapshot has not been replayed. -/
theorem gathered_ofSnapshot {options : HubOptions} {snapshot : RoomSnapshot}
    {documents : Keyed Document} (added : addDocuments options snapshot.documents ∅ = .ok documents)
    (present : snapshot.documents ≠ []) (within : snapshot.Within options) :
    (ofSnapshot options snapshot documents).Gathered := by
  obtain ⟨distinct, _, lookup⟩ := addDocuments_lookup added
  refine ⟨⟨?_, distinct, fun id => ?_⟩, ?_, fun id document found => ?_⟩
  · exact fun empty => present (List.map_eq_nil_iff.mp empty)
  · change id ∈ documents ↔ id ∈ snapshot.documents.map DocumentSnapshot.id
    rw [← not_iff_not, ← AList.lookup_eq_none, lookup, ← documentOf_eq_none]
    simp
  · change ((snapshot.documents.map DocumentSnapshot.id).length : Int) ≤ options.maxTabs
    rw [List.length_map]
    exact within.tabs
  · change documents.lookup id = some document at found
    rw [lookup] at found
    cases stored : documentOf snapshot.documents id with
    | none => simp [stored] at found
    | some original =>
        simp only [stored, Option.map_some, Option.some_or, Option.some_inj] at found
        subst found
        exact ⟨rfl, rfl, rfl, within.revisions original (List.mem_of_find?_eq_some stored)⟩

/-- The stored changes respect the limits of the room. -/
def Respected (store : Store) (snapshot : RoomSnapshot) (options : HubOptions) : Prop :=
  ∀ documents, addDocuments options snapshot.documents ∅ = .ok documents →
    Replayable store (ofSnapshot options snapshot documents)
      ((ofSnapshot options snapshot documents).storedMetadata store)

/-- The texts that the documents go through in a load. -/
def loadedTexts (store : Store) (snapshot : RoomSnapshot) (options : HubOptions) : Annals :=
  match addDocuments options snapshot.documents ∅ with
  | .error _ => fun _ _ => ""
  | .ok documents =>
      ((ofSnapshot options snapshot documents).afterMetadata store).storedTexts store

/-- A loaded room represents the stored texts. -/
theorem newRoom_represents {store store' : Store} {snapshot : RoomSnapshot} {options : HubOptions}
    {faults : LoadFaults} {room : Room}
    (loaded : newRoom store snapshot options faults = (store', .ok room))
    (within : snapshot.Within options) (respected : Respected store snapshot options) :
    room.Represents (loadedTexts store snapshot options) := by
  obtain ⟨documents, replayed, settled, added, present, _, replay, rest, ledger⟩ :=
    newRoom_ok loaded
  have represents := (gathered_ofSnapshot added present within).replay replay
    (respected documents added)
  have texts : loadedTexts store snapshot options =
      ((ofSnapshot options snapshot documents).afterMetadata store).storedTexts store := by
    rw [loadedTexts, added]
  rw [texts]
  obtain ⟨_, _, rfl⟩ := loadOperations_rest ledger
  rcases rest with ⟨_, rfl⟩ | ⟨_, rfl⟩
  · exact represents.of_documents rfl rfl rfl rfl
  · exact represents.settle.of_documents rfl rfl rfl rfl

section Written

variable {room : Room} {tables : Tables} {options : HubOptions}

/-- The stored snapshot of a room is never behind the room. -/
theorem Stored.settled_row (stored : room.Stored tables) (formed : room.Formed)
    {document : DocumentSnapshot}
    (member : document ∈ (Storage.Store.snapshotOf tables).documents) :
    document.snapshotRevision = document.currentRevision := by
  obtain ⟨row, sorted, rfl⟩ := List.mem_map.mp member
  have listed := (List.perm_insertionSort _ _).mem_iff.mp sorted
  exact (stored.row_spec formed (rowOf_of_mem stored.distinct listed)).2.2.1

/-- A load has nothing to replay from the tables that a room has written. -/
theorem Stored.respected (stored : room.Stored tables) (formed : room.Formed) (store : Store)
    (within : (Storage.Store.snapshotOf tables).Limited options) :
    Respected store (Storage.Store.snapshotOf tables) options := by
  intro documents added
  have nodup : ((Storage.Store.snapshotOf tables).documents.map DocumentSnapshot.id).Nodup := by
    rw [stored.ids_snapshotOf formed]
    exact formed.order
  have settled : ¬(Storage.Store.snapshotOf tables).metadataSnapshotRevision <
      (Storage.Store.snapshotOf tables).metadataRevision :=
    (stored.metadataRevision.trans stored.metadataSnapshotRevision.symm).le.not_gt
  have none : (ofSnapshot options (Storage.Store.snapshotOf tables) documents).storedMetadata
      store = [] := if_neg settled
  rw [none]
  refine le_of_eq_of_le ?_ within.size
  unfold storedBytes
  rw [ofSnapshot, List.map_map]
  refine congrArg List.sum (List.map_congr_left fun document member => ?_)
  have lookup : documents.lookup document.id = some (loadedDocument document) := by
    rw [(addDocuments_lookup added).2.2, documentOf_of_mem nodup member]
    rfl
  have current := (stored.settled_row formed member).not_lt
  have changes : (loadedDocument document).snapshot = document := rfl
  simp only [Function.comp_apply, storedTexts, lookup, storedChanges, changes, if_neg current,
    List.take_nil, contentAfter, Option.map_some, Option.getD_some]

end Written

end Room

/-! ## Runs -/

namespace Stage

/-- From a load that respects the limits of the room on, every run keeps the room a list of its
documents, within its limits, with histories that lead to the texts of the documents. -/
theorem represents_run [Host] {store : Store} {snapshot : RoomSnapshot}
    {options : HubOptions} {faults : LoadFaults} {authority : Authority}
    (load : Room.newRoom store snapshot options faults = (authority.store, .ok authority.room))
    (within : snapshot.Within options) (respected : Room.Respected store snapshot options)
    (actions : List Action) :
    (run ⟨authority, []⟩ actions).authority.room.Represents
      (annals (Room.loadedTexts store snapshot options) ⟨authority, []⟩ actions) := by
  have start : (⟨authority, []⟩ : Stage).authority.room.Represents
      (Room.loadedTexts store snapshot options) := Room.newRoom_represents load within respected
  exact run_represents start actions

/-- However a room has lived before, from a load that finds its snapshot within the limits on every
run keeps it a list of its documents, within its limits, with histories that lead to the texts of
the documents. -/
theorem representation_kept [Host] {written options : HubOptions} {stage : Stage} {texts : Annals}
    (lived : Lived written stage texts) {now : Time} {snapshot : RoomSnapshot}
    (read : Storage.Store.getRoomSnapshot stage.authority.store
      stage.authority.room.snapshot.slug now false = .ok snapshot)
    {faults : LoadFaults} {authority : Authority}
    (load : Room.newRoom stage.authority.store snapshot options faults =
      (authority.store, .ok authority.room))
    (within : snapshot.Limited options) (actions : List Action) :
    (run ⟨authority, []⟩ actions).authority.room.Represents
        (annals (Room.loadedTexts stage.authority.store snapshot options) ⟨authority, []⟩ actions) ∧
      ∀ id document, (run ⟨authority, []⟩ actions).authority.room.documents.lookup id =
          some document →
        (∀ entry ∈ document.history,
          entry.beforeLen = utf16Len (annals (Room.loadedTexts stage.authority.store snapshot
            options) ⟨authority, []⟩ actions id entry.baseVersion) ∧
          entry.changes.oldLen = utf16Len (annals (Room.loadedTexts stage.authority.store snapshot
            options) ⟨authority, []⟩ actions id entry.baseVersion)) ∧
        ∀ version, document.compactedRevision ≤ version →
          version ≤ document.snapshot.currentRevision →
          document.lengthAt version = some (utf16Len (annals (Room.loadedTexts stage.authority.store
            snapshot options) ⟨authority, []⟩ actions id version) : Int) := by
  obtain ⟨formed, tables, found, stored⟩ := lived.settled.consistent
  obtain ⟨tables', found', _, rfl⟩ := Room.getRoomSnapshot_ok read
  cases found.symm.trans found'
  have represents := represents_run load
    ⟨within.tabs, fun document member => (stored.settled_row formed member).le⟩
    (stored.respected formed stage.authority.store within) actions
  refine ⟨represents, fun id document found => ?_⟩
  have recalls := represents.documents id document found
  exact ⟨fun entry member => recalls.retained.lengths member, fun version => recalls.lengthAt⟩

/-- The creator returns and writes again, the second time behind the first change. -/
def smallReturnWork : List Action :=
  [smallJoin "bob" "page" smallToken 10,
    smallRequest (.submitDocument (smallAppend "op-5" 2 4)) 11 false,
    smallRequest (.submitDocument (smallAppend "op-6" 2 4)) 12 false]

/-- The small room is loaded again after changes that have filled the history of its document, and
the history is filled once more. -/
theorem smallReturnWork_done :
    let written := (@run sampleHost (smallStage smallOptions) (smallWork.take 4)).authority
    written.room.snapshot.slug = "demo" ∧
      ((Storage.Store.getRoomSnapshot written.store "demo" (unixTime 9) false).toOption.bind
        fun snapshot => (Room.newRoom written.store snapshot smallOptions .none).2.toOption.map
          fun room => ((snapshot.documents.length,
              (snapshot.documents.map fun document => byteLen document.content).sum),
            ((@run sampleHost ⟨⟨room, (Room.newRoom written.store snapshot smallOptions .none).1⟩,
              []⟩ smallReturnWork).authority.room.documents.lookup "main").map fun document =>
                (document.snapshot.content, document.compactedRevision))) =
        some ((2, 6), some ("abcccc", 4)) := by
  decide +kernel

theorem representation_kept_small : ∃ (snapshot : RoomSnapshot) (authority : Authority),
    let again := (@run sampleHost ⟨authority, []⟩ smallReturnWork).authority.room
    Room.newRoom (@run sampleHost (smallStage smallOptions) (smallWork.take 4)).authority.store
        snapshot smallOptions .none = (authority.store, .ok authority.room) ∧
      (again.documents.lookup "main").map (fun document =>
        (document.snapshot.content, document.compactedRevision)) = some ("abcccc", 4) ∧
      again.Represents (@annals sampleHost (Room.loadedTexts
        (@run sampleHost (smallStage smallOptions) (smallWork.take 4)).authority.store snapshot
          smallOptions) ⟨authority, []⟩ smallReturnWork) := by
  have possible : @Possible sampleHost (smallStage smallOptions) (smallWork.take 4) :=
    (@possible_append sampleHost _ (smallWork.take 4) (smallWork.drop 4)).mp
      smallWork_possible |>.1
  obtain ⟨texts, lived⟩ := @Led.run sampleHost _ _ _
    (@Led.created sampleHost _ (fun _ _ _ => True) _ rfl smallWork_started) _ possible
    (by simp [smallWork, smallJoin, smallRequest])
  obtain ⟨slug, done⟩ := smallReturnWork_done
  obtain ⟨snapshot, read, loads⟩ := Option.bind_eq_some_iff.mp done
  obtain ⟨room, load, facts⟩ := Option.map_eq_some_iff.mp loads
  rw [Prod.mk.injEq, Prod.mk.injEq] at facts
  obtain ⟨⟨tabs, size⟩, shown⟩ := facts
  have read' := ok_of_toOption read
  rw [← slug] at read'
  refine ⟨snapshot, ⟨room, _⟩, Prod.ext rfl (ok_of_toOption load), shown, ?_⟩
  exact (@representation_kept sampleHost _ smallOptions _ _ lived _ _ read' .none ⟨room, _⟩
    (Prod.ext rfl (ok_of_toOption load)) ⟨by rw [tabs]; decide, by rw [size]; decide⟩ _).1

end Stage

end Oxbin.Live
