import Oxbin.Live.Annals
import Oxbin.Live.Effects
import Oxbin.Live.History
import Oxbin.Live.Permissions

/-!
# The representation of a room

The order of a room lists its documents, which fit into the room, and the histories of the
documents lead to their texts.  No operation breaks that.
-/

namespace Oxbin.Live

open Livecollab Storage

namespace Room

/-- The documents have had the texts of the annals. -/
def Recollects (room : Room) (annals : Annals) : Prop :=
  ∀ id document, room.documents.lookup id = some document → document.Recalls (annals id)

/-- The room represents documents that have had the texts of the annals. -/
structure Represents (room : Room) (annals : Annals) : Prop where
  listed : room.Listed
  tabs : (room.order.length : Int) ≤ room.options.maxTabs
  size : room.snapshot.contentSize = room.bytes
  fits : room.bytes ≤ room.options.maxBytes
  documents : ∀ id document, room.documents.lookup id = some document →
    document.Recalls (annals id)

theorem log_of_lookup {room : Room} {id : String} {document : Document}
    (found : room.documents.lookup id = some document) (annals : Annals) (version : Int) :
    annals.log room id version = if version = document.snapshot.currentRevision then
      document.snapshot.content else annals id version := by
  unfold Annals.log
  rw [found]

theorem Recollects.log_eq {room : Room} {annals : Annals} (recollects : room.Recollects annals) :
    annals.log room = annals := by
  funext id version
  cases found : room.documents.lookup id with
  | none => rw [Annals.log, found]
  | some document =>
      rw [log_of_lookup found]
      split
      case isTrue current => rw [current, (recollects id document found).content]
      case isFalse => rfl

theorem Represents.log_eq {room : Room} {annals : Annals} (represents : room.Represents annals) :
    annals.log room = annals := Recollects.log_eq represents.documents

/-- The size that synchronising enters. -/
theorem contentSize_sync (room : Room) : room.syncSnapshot.snapshot.contentSize = room.bytes := by
  have ordered (order : List (String × Nat)) :
      ((order.filterMap fun entry =>
        (room.documents.lookup entry.1).map fun document =>
          ({ document.snapshot with position := entry.2 } : DocumentSnapshot)).map
            fun document => byteLen document.content).sum =
        ((order.map Prod.fst).map room.bytesOf).sum := by
    induction order with
    | nil => rfl
    | cons entry order induction =>
        obtain ⟨id, position⟩ := entry
        rw [List.map_cons, List.map_cons, List.sum_cons, ← induction, bytesOf, List.filterMap_cons]
        cases found : room.documents.lookup id with
        | none => simp
        | some document => simp
  have whole := ordered room.order.zipIdx
  rwa [List.zipIdx_map_fst] at whole

/-- What becomes of a document in a step. -/
inductive Carries (room room' : Room) (annals : Annals) (id : String) (document' : Document) : Prop
  | kept (document : Document) (found : room.documents.lookup id = some document)
      (same : document'.SameRecord document)
  | fresh (history : document'.history = []) (bytes : document'.historyBytes = 0)
      (compacted : document'.compactedRevision = document'.snapshot.currentRevision)
  | edited (recalls : document'.Recalls (annals.log room' id))

/-- The documents after a step. -/
theorem Recollects.carries {room room' : Room} {annals : Annals}
    (recollects : room.Recollects annals)
    (carries : ∀ id document', room'.documents.lookup id = some document' →
      room.Carries room' annals id document') : room'.Recollects (annals.log room') := by
  intro id document' found'
  have log := log_of_lookup found' annals
  cases carries id document' found' with
  | kept document found same =>
      have recalls := (recollects id document found).sameRecord same
      refine recalls.congr fun version _ => ?_
      rw [log]
      split
      case isTrue current => rw [current, recalls.content]
      case isFalse => rfl
  | fresh history bytes compacted =>
      exact .blank (by rw [log, if_pos rfl]) history bytes compacted
  | edited recalls => exact recalls

/-- A room whose documents have the same records represents the same. -/
theorem represents_of_map {room room' : Room} {annals : Annals} (listed : room.Listed)
    (tabs : (room.order.length : Int) ≤ room.options.maxTabs)
    (fits : room.bytes ≤ room.options.maxBytes)
    (recalls : ∀ id document, room.documents.lookup id = some document →
      document.Recalls (annals id)) (options : room'.options = room.options)
    (order : room'.order = room.order) (moved : String → Document → Document)
    (same : ∀ id document, (moved id document).SameRecord document)
    (documents : ∀ id, room'.documents.lookup id = (room.documents.lookup id).map (moved id))
    (size : room'.snapshot.contentSize = room.bytes) : room'.Represents annals := by
  have bytesOf (id : String) : room'.bytesOf id = room.bytesOf id := by
    rw [Room.bytesOf, documents, Option.map_map, Room.bytesOf]
    congr 2
    funext document
    exact congrArg byteLen (same id document).text.content
  have bytes : room'.bytes = room.bytes := by
    unfold Room.bytes
    rw [order]
    exact congrArg List.sum (List.map_congr_left fun id _ => bytesOf id)
  constructor
  case listed =>
    refine ⟨order ▸ listed.nonempty, order ▸ listed.nodup, fun id => ?_⟩
    rw [order, ← listed.present, ← AList.lookup_isSome, documents, Option.isSome_map,
      AList.lookup_isSome]
  case tabs =>
    rw [order, options]
    exact tabs
  case size => rw [size, bytes]
  case fits =>
    rw [bytes, options]
    exact fits
  case documents =>
    intro id document' found'
    rw [documents, Option.map_eq_some_iff] at found'
    obtain ⟨document, found, rfl⟩ := found'
    exact (recalls id document found).sameRecord (same id document)

/-- Synchronising enters the size. -/
theorem represents_sync {room : Room} {annals : Annals} (listed : room.Listed)
    (tabs : (room.order.length : Int) ≤ room.options.maxTabs)
    (fits : room.bytes ≤ room.options.maxBytes)
    (recalls : ∀ id document, room.documents.lookup id = some document →
      document.Recalls (annals id)) : room.syncSnapshot.Represents annals :=
  represents_of_map listed tabs fits recalls rfl rfl (positioned room.order)
    (Document.positioned_sameRecord room.order) (fun _ => Keyed.lookup_mapKeyed _ _ _)
    (contentSize_sync room)

/-- Rooms with the same documents represent the same. -/
theorem Represents.of_documents {room room' : Room} {annals : Annals}
    (represents : room.Represents annals) (options : room'.options = room.options)
    (order : room'.order = room.order)
    (contentSize : room'.snapshot.contentSize = room.snapshot.contentSize)
    (documents : room'.documents = room.documents) : room'.Represents annals := by
  refine represents_of_map represents.listed represents.tabs represents.fits represents.documents
    options order (fun _ document => document) (fun _ document => .refl document) (fun id => ?_)
    (contentSize.trans represents.size)
  rw [documents, Option.map_id']

theorem Represents.of_shared {room room' : Room} {annals : Annals}
    (represents : room.Represents annals) (shared : room'.shared = room.shared) :
    room'.Represents annals := by
  have options := congrArg Room.options shared
  exact represents.of_documents options (order_of_shared shared)
    (congrArg RoomSnapshot.contentSize (snapshot_of_shared shared)) (documents_of_shared shared)

/-! ## Commits -/

section Commit

variable {room changed final : Room} {annals : Annals} {operationID : String}
  {record : LedgerRecord}

theorem Commits.bytes (commits : changed.Commits operationID record final) :
    final.bytes = changed.bytes := by
  unfold Room.bytes
  rw [commits.order]
  exact congrArg List.sum (List.map_congr_left fun id _ => commits.bytesOf id)

theorem Commits.listed (commits : changed.Commits operationID record final)
    (listed : changed.Listed) : final.Listed where
  nonempty := commits.order ▸ listed.nonempty
  nodup := commits.order ▸ listed.nodup
  present id := by
    have documents := congrArg Option.isSome (commits.documents id)
    rw [Option.isSome_map, Option.isSome_map] at documents
    rw [commits.order, ← listed.present, ← AList.lookup_isSome, documents, AList.lookup_isSome]

/-- A commit represents what the changed room has entered. -/
theorem Represents.commit (represents : room.Represents annals)
    (commits : changed.Commits operationID record final) (listed : changed.Listed)
    (tabs : (changed.order.length : Int) ≤ changed.options.maxTabs)
    (fits : changed.bytes ≤ changed.options.maxBytes)
    (carries : ∀ id document', final.documents.lookup id = some document' →
      room.Carries final annals id document') : final.Represents (annals.log final) where
  listed := commits.listed listed
  tabs := by
    rw [commits.order, commits.options]
    exact tabs
  size := by
    rw [commits.snapshot, commits.bytes]
    exact contentSize_sync changed
  fits := by
    rw [commits.bytes, commits.options]
    exact fits
  documents := Recollects.carries represents.documents carries

end Commit

/-! ## Operations -/

section Operations

variable {room : Room} {annals : Annals}

theorem compactThrough_document (changed : Room) (accepted : AcceptedDocumentOperation)
    (payloadBytes : Int) (compacts : 0 < changed.compactThrough (.document accepted) payloadBytes) :
    changed.compactThrough (.document accepted) payloadBytes = accepted.revision := by
  unfold compactThrough at compacts ⊢
  simp only at compacts ⊢
  split at compacts
  · omega
  · split at compacts
    case isTrue full => rw [if_pos full]
    case isFalse => omega

/-- The document that an operation edits continues its history. -/
theorem Recollects.accepted_own (recollects : room.Recollects annals)
    {operation : DocumentOperation} {document : Document} {changes : ChangeSet} {content : String}
    (admitted : room.Admitted operation document changes content) (fingerprint : String)
    (now : Time) {document' : Document}
    (found' : (room.accepted operation fingerprint document changes content
      now).documents.lookup operation.documentID = some document') :
    document'.Recalls (annals.log
      (room.accepted operation fingerprint document changes content now) operation.documentID) := by
  have recalls := recollects _ document admitted.found
  have log := log_of_lookup found' annals
  have own : operation.documentID =
    (acceptedDocument operation document changes content).documentID := rfl
  rw [Room.accepted, committed_document_lookup, editDocument_lookup, if_pos rfl, Option.map_some,
    Option.map_some, if_pos own, Option.some_inj] at found'
  subst found'
  rw [Document.recorded_snapshot, (saved_sameText _ _ _).currentRevision,
    (saved_sameText _ _ _).content, (Document.positioned_sameText _ _ _).currentRevision,
    (Document.positioned_sameText _ _ _).content] at log
  replace log (version : Int) : annals.log (room.accepted operation fingerprint document changes
      content now) operation.documentID version = if version = document.snapshot.currentRevision + 1
        then content else annals operation.documentID version := log version
  have older : document.Recalls (annals.log
      (room.accepted operation fingerprint document changes content now) operation.documentID) :=
    recalls.congr fun version below => by
      rw [log]
      exact if_neg (by omega)
  have entered : annals.log (room.accepted operation fingerprint document changes content now)
      operation.documentID (document.snapshot.currentRevision + 1) = content := by
    rw [log]
    exact if_pos rfl
  have continued := older.addHistory (historyEntry
    (acceptedDocument operation document changes content) (utf16Len document.snapshot.content)
      (encodeDocumentChange changes).size) now (Int.add_sub_cancel _ _) rfl rfl admitted.applied
      entered
  refine Document.Recalls.recorded (continued.sameRecord (Document.SameRecord.addHistory
    ((Document.saved_sameRecord _ _ _).trans (Document.positioned_sameRecord _ _ _)) _)) ?_
  intro compacts
  rw [compactThrough_document _ _ _ compacts, (saved_sameText _ _ _).currentRevision,
    (Document.positioned_sameText _ _ _).currentRevision]
  rfl

/-- The documents after an accepted document operation. -/
theorem Recollects.accepted_carries (recollects : room.Recollects annals)
    {operation : DocumentOperation} {document : Document} {changes : ChangeSet} {content : String}
    (admitted : room.Admitted operation document changes content) (fingerprint : String)
    (now : Time) (id : String) (document' : Document)
    (found' : (room.accepted operation fingerprint document changes content
      now).documents.lookup id = some document') :
    room.Carries (room.accepted operation fingerprint document changes content now) annals id
      document' := by
  by_cases own : id = operation.documentID
  · subst own
    exact .edited (recollects.accepted_own admitted fingerprint now found')
  · have unedited : id ≠ (acceptedDocument operation document changes content).documentID := own
    rw [Room.accepted, committed_document_lookup, editDocument_lookup, if_neg own,
      Option.map_map, Option.map_eq_some_iff] at found'
    obtain ⟨before, found, rfl⟩ := found'
    refine .kept before found ?_
    rw [Function.comp_apply, if_neg unedited]
    exact (Document.saved_sameRecord _ _ _).trans (Document.positioned_sameRecord _ _ _)

/-- An accepted document operation enters its text. -/
theorem Represents.accepted (represents : room.Represents annals)
    {operation : DocumentOperation} {document : Document} {changes : ChangeSet} {content : String}
    (admitted : room.Admitted operation document changes content) (fingerprint : String)
    (now : Time) :
    (room.accepted operation fingerprint document changes content now).Represents
      (annals.log (room.accepted operation fingerprint document changes content now)) := by
  have listed := represents.listed.edited admitted.found { document with
    snapshot := { document.snapshot with
      content, currentRevision := document.snapshot.currentRevision + 1, updatedAt := now } }
  refine represents.commit (commits_document _ _ _ _ _) listed.sync represents.tabs ?_
    (Recollects.accepted_carries represents.documents admitted fingerprint now)
  rw [editDocument, bytes_sync]
  exact admitted.size represents.listed rfl

/-- A change of the metadata keeps, adds or removes whole documents. -/
theorem MetadataChange.carries {operation : MetadataOperation} {now : Time}
    {effect : MetadataEffect} (change : room.MetadataChange operation now effect) {id : String}
    {document' : Document} (found' : effect.room.documents.lookup id = some document') :
    (∃ document, room.documents.lookup id = some document ∧ document'.SameRecord document) ∨
      document'.history = [] ∧ document'.historyBytes = 0 ∧
        document'.compactedRevision = document'.snapshot.currentRevision := by
  cases change with
  | create documentID =>
      rw [Keyed.lookup_insert_if] at found'
      split at found'
      case isTrue =>
        cases found'
        exact .inr ⟨rfl, rfl, rfl⟩
      case isFalse => exact .inl ⟨document', found', .refl document'⟩
  | update document kind found =>
      rw [Keyed.lookup_insert_if] at found'
      split at found'
      case isTrue same =>
        cases found'
        exact .inl ⟨document, same ▸ found, ⟨⟨rfl, rfl, rfl⟩, rfl, rfl⟩⟩
      case isFalse => exact .inl ⟨document', found', .refl document'⟩
  | delete =>
      have lookup := Keyed.lookup_erase_if room.documents id operation.documentID
      rw [show (room.documents.erase operation.documentID).lookup id = some document' from found']
        at lookup
      split at lookup
      case isTrue => cases lookup
      case isFalse => exact .inl ⟨document', lookup.symm, .refl document'⟩
  | reorder => exact .inl ⟨document', found', .refl document'⟩

theorem MetadataChange.tabs {operation : MetadataOperation} {now : Time} {effect : MetadataEffect}
    (change : room.MetadataChange operation now effect)
    (tabs : (room.order.length : Int) ≤ room.options.maxTabs) :
    (effect.room.order.length : Int) ≤ room.options.maxTabs := by
  cases change with
  | create documentID kind space =>
      simp only [List.length_append, List.length_singleton]
      omega
  | update => exact tabs
  | delete =>
      have shorter := List.length_erase_le (a := operation.documentID) (l := room.order)
      exact (Int.ofNat_le.mpr shorter).trans tabs
  | reorder kind valid complete =>
      simp only [complete]
      exact tabs

/-- The documents after an accepted metadata operation. -/
theorem MetadataChange.committed_carries {operation : MetadataOperation} {now : Time}
    {effect : MetadataEffect} (change : room.MetadataChange operation now effect)
    (record : ChangeRecord) (fingerprint : String) (accepted : AcceptedMetadataOperation)
    (id : String) (document' : Document)
    (found' : ((room.metadataChanged effect).committed record fingerprint (.metadata accepted)
      0).documents.lookup id = some document') :
    room.Carries ((room.metadataChanged effect).committed record fingerprint (.metadata accepted) 0)
      annals id document' := by
  have lookup : (room.metadataChanged effect).documents.lookup id =
      (effect.room.documents.lookup id).map (positioned effect.room.order id) :=
    Keyed.lookup_mapKeyed _ _ _
  rw [committed_metadata_lookup, lookup, Option.map_map, Option.map_eq_some_iff] at found'
  obtain ⟨middle, found', rfl⟩ := found'
  have same : (saved (room.metadataChanged effect).order id
      (positioned effect.room.order id middle)).SameRecord middle :=
    (Document.saved_sameRecord _ _ _).trans (Document.positioned_sameRecord _ _ _)
  rcases change.carries found' with ⟨document, found, kept⟩ | ⟨history, bytes, compacted⟩
  · exact .kept document found (same.trans kept)
  · refine .fresh (same.text.history.trans history) (same.historyBytes.trans bytes) ?_
    exact same.compactedRevision.trans (compacted.trans same.text.currentRevision.symm)

/-- An accepted metadata operation enters the documents that it creates. -/
theorem Represents.metadata (represents : room.Represents annals) {operation : MetadataOperation}
    {now : Time} {effect : MetadataEffect} (change : room.MetadataChange operation now effect)
    (record : ChangeRecord) (fingerprint : String) (accepted : AcceptedMetadataOperation) :
    ((room.metadataChanged effect).committed record fingerprint (.metadata accepted) 0).Represents
      (annals.log
        ((room.metadataChanged effect).committed record fingerprint (.metadata accepted) 0)) := by
  have equality := congrArg Room.options change.rest
  have options : effect.room.options = room.options := equality
  have listed := change.listed represents.listed
  have synced : (room.metadataChanged effect).Listed :=
    Listed.sync ⟨listed.nonempty, listed.nodup, listed.present⟩
  refine represents.commit (commits_metadata _ _ _ _ _) synced ?_ ?_
    (change.committed_carries record fingerprint accepted)
  · change (effect.room.order.length : Int) ≤ effect.room.options.maxTabs
    rw [options]
    exact change.tabs represents.tabs
  · rw [metadataChanged, bytes_sync]
    change effect.room.bytes ≤ effect.room.options.maxBytes
    rw [options]
    exact change.size represents.listed represents.fits

/-! ## Calls -/

/-- The room after its snapshot has been saved. -/
def settle (room : Room) : Room :=
  { room.durableSnapshot.1 with snapshot := room.durableSnapshot.2 }.markDocumentsDurable

theorem settle_lookup (room : Room) (id : String) :
    room.settle.documents.lookup id = (room.documents.lookup id).map (saved room.order id) := by
  simp only [settle, durableSnapshot, markDocumentsDurable, syncSnapshot, positionAll,
    Keyed.lookup_mapValues, Keyed.lookup_mapKeyed, Option.map_map]
  rfl

theorem Represents.settle (represents : room.Represents annals) : room.settle.Represents annals :=
  represents_of_map represents.listed represents.tabs represents.fits represents.documents rfl rfl
    (saved room.order) (Document.saved_sameRecord room.order) room.settle_lookup
    (contentSize_sync room)

theorem Represents.shutdown (represents : room.Represents annals) (store : Store) (now : Time)
    (fault : Bool) : (room.shutdown store now fault).1.room.Represents annals := by
  have closed {room : Room} (represents : room.Represents annals) :
      room.close.Represents annals := represents.of_documents rfl rfl rfl rfl
  unfold Room.shutdown
  simp only
  split
  case isTrue =>
    split
    case h_1 =>
      exact represents_sync represents.listed represents.tabs represents.fits represents.documents
    case h_2 => exact closed (represents.settle.of_documents rfl rfl rfl rfl)
  case isFalse => exact closed represents

theorem Represents.logged (represents : room.Represents annals) :
    room.Represents (annals.log room) := represents.log_eq.symm ▸ represents

theorem DocumentOutcome.represents [Host] {store : Store} {operation : DocumentOperation}
    {now : Time} {fault : Bool} {outcome : Outcome AcceptedDocumentOperation}
    (ends : DocumentOutcome room store operation now fault outcome)
    (represents : room.Represents annals) :
    outcome.1.room.Represents (annals.log outcome.1.room) := by
  cases ends with
  | refused => exact represents.logged
  | repeated => exact represents.logged
  | accepted document changes content store' named fresh admitted =>
      exact represents.accepted (admitted_of_admitDocument admitted) _ _

theorem MetadataOutcome.represents [Host] {store : Store} {operation : MetadataOperation}
    {now : Time} {fault : Bool} {outcome : Outcome AcceptedMetadataOperation}
    (ends : MetadataOutcome room store operation now fault outcome)
    (represents : room.Represents annals) :
    outcome.1.room.Represents (annals.log outcome.1.room) := by
  cases ends with
  | refused room' shared => exact (represents.of_shared shared).logged
  | repeated => exact represents.logged
  | accepted effect store' authority named fresh admitted change small saved result =>
      subst result
      exact represents.metadata change _ _ _

theorem ModeOutcome.represents {store : Store} {change : Room → Room}
    {save : Except LiveError Store} {outcome : Outcome RoomState}
    (ends : ModeOutcome room store change save outcome)
    (keeps : ∀ room : Room, room.Represents annals → (change room).Represents annals)
    (represents : room.Represents annals) : outcome.1.room.Represents annals := by
  cases ends with
  | refused room' shared => exact represents.of_shared shared
  | unchanged room' shared => exact represents.of_shared shared
  | changed room' shared => exact keeps room' (represents.of_shared shared)

theorem Represents.request [Host] {authority : Authority}
    (represents : authority.room.Represents annals) (session : Session) (now : Time) (fault : Bool)
    (request : Request) :
    (authority.request session now fault request).1.room.Represents
      (annals.log (authority.request session now fault request).1.room) := by
  cases request with
  | submitDocument operation =>
      obtain ⟨room', shared, ends⟩ := authority.room.submitDocument_outcome authority.store
        session.participant session.connectionID session.generation operation now fault
      exact ends.represents (represents.of_shared shared)
  | applyMetadata operation generator =>
      obtain ⟨room', shared, ends⟩ := authority.room.applyMetadata_outcome authority.store
        session.participant session.connectionID session.generation operation generator now fault
      exact ends.represents (represents.of_shared shared)
  | updatePresence update =>
      exact (represents.of_shared (updatePresence_shared _ _ _ _ _ _)).logged
  | rename name => exact (represents.of_shared (rename_shared _ _ _ _ _ _)).logged
  | heartbeat => exact (represents.of_shared (ensureConnection_shared _ _ _ _ _)).logged
  | disconnect => exact (represents.of_shared (disconnect_shared _ _ _ _ _)).logged
  | setWatchOnly enabled =>
      have ends := authority.room.setWatchOnly_outcome authority.store session.participant
        session.connectionID session.generation session.creator enabled now fault
      exact (ends.represents (fun _ represents => represents.of_documents rfl rfl rfl rfl)
        represents).logged
  | setLayoutPreset preset =>
      have ends := authority.room.setLayoutPreset_outcome authority.store session.participant
        session.connectionID session.generation session.creator preset now fault
      exact (ends.represents (fun _ represents => represents.of_documents rfl rfl rfl rfl)
        represents).logged

end Operations

end Room

/-- A call enters the texts that it writes. -/
theorem Authority.perform_represents [Host] {authority : Authority} {annals : Annals}
    (represents : authority.room.Represents annals) (action : Action) :
    (authority.perform action).1.room.Represents
      (annals.log (authority.perform action).1.room) := by
  unfold perform
  split
  case h_1 identity capability candidate call =>
    unfold join
    split
    case h_1 => exact represents.logged
    case h_2 => exact (represents.of_shared (Room.join_shared _ _ _ _ _)).logged
  case h_2 session request call => exact represents.request session action.now action.fault request
  case h_3 => exact (represents.of_shared (Room.sweep_shared _ _)).logged
  case h_4 => exact (represents.of_shared (Room.shouldEvict_shared _ _)).logged
  case h_5 => exact (represents.shutdown _ _ _).logged
  case h_6 => exact represents.logged

namespace Stage

/-- The texts that the documents have had in a run. -/
def annals [Host] (annals : Annals) (stage : Stage) : List Action → Annals
  | [] => annals
  | action :: actions =>
      (stage.step action).annals (annals.log (stage.step action).authority.room) actions

/-- In every run the room goes on representing the texts of its documents. -/
theorem run_represents [Host] {stage : Stage} {annals : Annals}
    (represents : stage.authority.room.Represents annals) (actions : List Action) :
    (stage.run actions).authority.room.Represents (stage.annals annals actions) := by
  induction actions generalizing stage annals with
  | nil => exact represents
  | cons action actions induction =>
      exact induction (Authority.perform_represents represents action)

end Stage

end Oxbin.Live
