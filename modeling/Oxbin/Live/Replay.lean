import Oxbin.Live.Outcome
import Oxbin.Live.Load

/-!
# What loading replays

The steps of a replay, and the parts of a room that it leaves alone.
-/

namespace Oxbin.Live

open Livecollab Storage

namespace Room

/-! ## Metadata changes -/

/-- The effect of a persisted metadata change, before its revision is entered. -/
inductive ReplaysMetadata (room : Room) (persisted : PersistedMetadataChange)
    (change : ChangeRecord) : Room → Prop
  | create (kind : persisted.kind = "document_create")
      (fresh : persisted.documentID ∉ room.documents)
      (space : (room.order.length : Int) < room.options.maxTabs) :
      ReplaysMetadata room persisted change { room with
        documents := room.documents.insert persisted.documentID {
          snapshot := {
            id := persisted.documentID, name := persisted.name, language := persisted.language
            content := persisted.content, position := room.order.length, currentRevision := 0
            snapshotRevision := 0, updatedAt := change.createdAt }
          history := [], historyBytes := 0, compactedRevision := 0 }
        order := room.order ++ [persisted.documentID] }
  | update (document : Document) (kind : persisted.kind = "document_update")
      (found : room.documents.lookup persisted.documentID = some document) :
      ReplaysMetadata room persisted change { room with
        documents := room.documents.insert persisted.documentID { document with
          snapshot := { document.snapshot with
            name := persisted.name, language := persisted.language } } }
  | delete (kind : persisted.kind = "document_delete")
      (found : persisted.documentID ∈ room.documents) :
      ReplaysMetadata room persisted change { room with
        documents := room.documents.erase persisted.documentID
        order := room.order.erase persisted.documentID }
  | reorder (kind : persisted.kind = "document_reorder")
      (valid : validateDocumentOrder persisted.order room.options.maxTabs = .ok ()) :
      ReplaysMetadata room persisted change { room with order := persisted.order }
  | idle (kind : persisted.kind = "document_create" ∧ persisted.documentID ∈ room.documents ∨
      persisted.kind = "document_delete" ∧ persisted.documentID ∉ room.documents) :
      ReplaysMetadata room persisted change room

/-- Enter the revision of a replayed change. -/
def atMetadataRevision (room : Room) (revision : Int) : Room :=
  { room with snapshot := { room.snapshot with metadataRevision := revision } }

theorem applyPersistedMetadata_ok {room room' : Room} {change : ChangeRecord}
    (applied : room.applyPersistedMetadata change = .ok room') :
    ∃ persisted middle, decodeMetadataChange change.payload = .ok persisted ∧
      room.ReplaysMetadata persisted change middle ∧
      room' = middle.atMetadataRevision change.revision := by
  unfold applyPersistedMetadata at applied
  rw [bind_eq_ok] at applied
  obtain ⟨persisted, decoded, applied⟩ := applied
  refine ⟨persisted, ?_⟩
  split at applied
  case h_1 kind =>
    split at applied
    case isTrue known =>
      cases applied
      exact ⟨room, decoded, .idle (.inl ⟨kind, known⟩), rfl⟩
    case isFalse fresh =>
      split at applied
      case isTrue => cases applied
      case isFalse space =>
        cases applied
        exact ⟨_, decoded, .create kind fresh (by omega), rfl⟩
  case h_2 kind =>
    split at applied
    case h_1 => cases applied
    case h_2 document found =>
      cases applied
      exact ⟨_, decoded, .update document kind found, rfl⟩
  case h_3 kind =>
    split at applied
    case isTrue found =>
      cases applied
      exact ⟨_, decoded, .delete kind found, rfl⟩
    case isFalse absent =>
      cases applied
      exact ⟨room, decoded, .idle (.inr ⟨kind, absent⟩), rfl⟩
  case h_4 kind =>
    split at applied
    case h_1 => cases applied
    case h_2 valid =>
      cases applied
      exact ⟨_, decoded, .reorder kind valid, rfl⟩
  case h_5 => cases applied

/-! ## Documents -/

/-- How the replay of one document ends. -/
theorem replayDocument_ok {room room' : Room} {store : Store} {fault : Bool} {id : String}
    (replayed : room.replayDocument store fault id = .ok room') :
    ∃ document, room.documents.lookup id = some document ∧
      ((document.snapshot.currentRevision ≤ document.snapshot.snapshotRevision ∧ room' = room) ∨
        document.snapshot.snapshotRevision < document.snapshot.currentRevision ∧
        ∃ changes final, Storage.Store.loadChangesSince store room.snapshot.slug .document id
            document.snapshot.snapshotRevision (beforeExpiry room.snapshot.expiresAt) fault =
              .ok changes ∧
          changes.foldlM (applyPersistedDocument room.options) { document with
            snapshot := { document.snapshot with
              currentRevision := document.snapshot.snapshotRevision } } = .ok final ∧
          final.snapshot.currentRevision = document.snapshot.currentRevision ∧
          room' = { room with documents := room.documents.insert id final }) := by
  unfold replayDocument at replayed
  split at replayed
  case h_1 => cases replayed
  case h_2 document found =>
    refine ⟨document, found, ?_⟩
    split at replayed
    case isTrue settled =>
      cases replayed
      exact .inl ⟨settled, rfl⟩
    case isFalse behind =>
      simp only [bind_eq_ok, require_eq_ok, exists_const] at replayed
      obtain ⟨changes, loads, final, fold, arrived, equality⟩ := replayed
      cases equality
      exact .inr ⟨by omega, changes, final, loads, fold, arrived, rfl⟩

/-- How a replay ends. -/
theorem replay_ok {room room' : Room} {store : Store} {fault : Bool}
    (replayed : room.replay store fault = .ok room') :
    ∃ middle final, (room.snapshot.metadataRevision ≤ room.snapshot.metadataSnapshotRevision ∧
        middle = room ∨
        room.snapshot.metadataSnapshotRevision < room.snapshot.metadataRevision ∧
        ∃ changes, Storage.Store.loadChangesSince store room.snapshot.slug .metadata
            metadataStreamID room.snapshot.metadataSnapshotRevision
            (beforeExpiry room.snapshot.expiresAt) fault = .ok changes ∧
          changes.foldlM applyPersistedMetadata room = .ok middle) ∧
      middle.order.foldlM (fun room id => room.replayDocument store fault id) middle = .ok final ∧
      room' = final.syncSnapshot := by
  unfold replay at replayed
  split at replayed
  case isTrue behind =>
    simp only [bind_eq_ok] at replayed
    obtain ⟨changes, loads, middle, fold, final, documents, equality⟩ := replayed
    cases equality
    exact ⟨middle, final, .inr ⟨behind, changes, loads, fold⟩, documents, rfl⟩
  case isFalse settled =>
    simp only [bind_eq_ok] at replayed
    obtain ⟨_, ⟨⟩, final, documents, equality⟩ := replayed
    cases equality
    exact ⟨_, final, .inl ⟨by omega, rfl⟩, documents, rfl⟩

/-! ## Vacant rooms -/

/-- Nobody is in the room, which has these options. -/
structure Vacant (options : HubOptions) (room : Room) : Prop where
  options : room.options = options
  participants : room.participants = ∅
  sessions : room.sessions = ∅
  names : room.names = ∅
  closed : room.closed = false

theorem applyPersistedMetadata_vacant {options : HubOptions} {room room' : Room}
    {change : ChangeRecord} (applied : room.applyPersistedMetadata change = .ok room')
    (vacant : room.Vacant options) : room'.Vacant options := by
  obtain ⟨persisted, middle, _, replays, rfl⟩ := applyPersistedMetadata_ok applied
  cases replays <;> exact ⟨vacant.options, vacant.participants, vacant.sessions, vacant.names,
    vacant.closed⟩

theorem replayDocument_vacant {options : HubOptions} {room room' : Room} {store : Store}
    {fault : Bool} {id : String} (replayed : room.replayDocument store fault id = .ok room')
    (vacant : room.Vacant options) : room'.Vacant options := by
  obtain ⟨_, _, ⟨_, rfl⟩ | ⟨_, _, _, _, _, _, rfl⟩⟩ := replayDocument_ok replayed
  · exact vacant
  · exact ⟨vacant.options, vacant.participants, vacant.sessions, vacant.names, vacant.closed⟩

theorem replay_vacant {options : HubOptions} {room room' : Room} {store : Store} {fault : Bool}
    (replayed : room.replay store fault = .ok room') (vacant : room.Vacant options) :
    room'.Vacant options := by
  obtain ⟨middle, final, metadata, documents, rfl⟩ := replay_ok replayed
  have vacant' : middle.Vacant options := by
    rcases metadata with ⟨_, rfl⟩ | ⟨_, changes, _, fold⟩
    · exact vacant
    · exact foldlM_preserves (Vacant options)
        (fun _ _ _ applied => applyPersistedMetadata_vacant applied) fold vacant
  obtain ⟨options, participants, sessions, names, closed⟩ := foldlM_preserves (Vacant options)
    (fun _ _ _ replayed => replayDocument_vacant replayed) documents vacant'
  exact ⟨options, participants, sessions, names, closed⟩

theorem loadOperations_vacant {options : HubOptions} {room room' : Room} {store : Store}
    {fault : Bool} (loaded : room.loadOperations store fault = .ok room')
    (vacant : room.Vacant options) : room'.Vacant options := by
  unfold loadOperations at loaded
  simp only [bind_eq_ok] at loaded
  obtain ⟨operations, _, fold⟩ := loaded
  refine foldlM_preserves (Vacant options) (fun room operation next step vacant => ?_) fold vacant
  unfold loadOperation at step
  simp only [bind_eq_ok] at step
  obtain ⟨record, _, _, _, equality⟩ := step
  cases equality
  exact ⟨vacant.options, vacant.participants, vacant.sessions, vacant.names, vacant.closed⟩

/-- How loading a room ends. -/
theorem newRoom_ok {store store' : Store} {snapshot : RoomSnapshot} {options : HubOptions}
    {faults : LoadFaults} {room : Room}
    (loaded : newRoom store snapshot options faults = (store', .ok room)) :
    ∃ documents replayed settled, addDocuments options snapshot.documents ∅ = .ok documents ∧
      snapshot.documents ≠ [] ∧ snapshot.contentSize ≤ options.maxBytes ∧
      (ofSnapshot options snapshot documents).replay store faults.replay = .ok replayed ∧
      (¬Trailing snapshot ∧ settled = replayed ∨
        Trailing snapshot ∧ settled = ({ replayed.durableSnapshot.1 with
          snapshot := replayed.durableSnapshot.2 } : Room).markDocumentsDurable) ∧
      settled.loadOperations store' faults.ledger = .ok room := by
  unfold newRoom at loaded
  simp only at loaded
  split at loaded
  case h_1 => cases loaded
  case h_2 replayed built =>
    simp only [bind_eq_ok, require_eq_ok, exists_const] at built
    obtain ⟨⟨_, present, _⟩, documents, added, size, replay⟩ := built
    refine ⟨documents, replayed, ?_⟩
    split at loaded
    case isTrue trailing =>
      split at loaded
      case h_1 => cases loaded
      case h_2 =>
        simp only [Prod.mk.injEq] at loaded
        obtain ⟨rfl, loaded⟩ := loaded
        exact ⟨_, added, present, size, replay, .inr ⟨trailing, rfl⟩, loaded⟩
    case isFalse current =>
      simp only [Prod.mk.injEq] at loaded
      obtain ⟨rfl, loaded⟩ := loaded
      exact ⟨_, added, present, size, replay, .inl ⟨current, rfl⟩, loaded⟩

/-- Nobody is in a room that has just been loaded. -/
theorem newRoom_vacant {store store' : Store} {snapshot : RoomSnapshot} {options : HubOptions}
    {faults : LoadFaults} {room : Room}
    (loaded : newRoom store snapshot options faults = (store', .ok room)) :
    room.Vacant options := by
  obtain ⟨documents, replayed, settled, _, _, _, replay, rest, ledger⟩ := newRoom_ok loaded
  have vacant := replay_vacant replay ⟨rfl, rfl, rfl, rfl, rfl⟩
  refine loadOperations_vacant ledger ?_
  rcases rest with ⟨_, rfl⟩ | ⟨_, rfl⟩
  · exact vacant
  · exact ⟨vacant.options, vacant.participants, vacant.sessions, vacant.names, vacant.closed⟩

end Room

end Oxbin.Live
