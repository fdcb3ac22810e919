import Oxbin.Live.Outcome

/-!
# The room after a commit

The parts of a room that a committed operation changes: its documents, its ledger and its
metadata history.  Everything else is what the operation left before the commit.
-/

namespace Oxbin.Live

open Livecollab Storage

/-! ## Documents -/

namespace Document

/-- The document is marked as durable at its current revision. -/
def settled (document : Document) : Document :=
  { document with
    snapshot := { document.snapshot with
      snapshotRevision := document.snapshot.currentRevision } }

/-- The document with an accepted change in its history, which may be compacted. -/
def recorded (options : HubOptions) (entry : DocumentHistory) (compactThrough : Int)
    (document : Document) : Document :=
  let document := (document.addHistory entry).pruneHistory options.maxHistoryRows
    options.maxHistoryBytes
  if 0 < compactThrough then
    { document with history := [], historyBytes := 0, compactedRevision := compactThrough }
  else document

/-- Two documents with the same text, at the same revision, with the same history. -/
structure SameText (left right : Document) : Prop where
  content : left.snapshot.content = right.snapshot.content
  currentRevision : left.snapshot.currentRevision = right.snapshot.currentRevision
  history : left.history = right.history

theorem SameText.refl (document : Document) : document.SameText document := ⟨rfl, rfl, rfl⟩

theorem SameText.trans {first second third : Document} (left : first.SameText second)
    (right : second.SameText third) : first.SameText third :=
  ⟨left.content.trans right.content, left.currentRevision.trans right.currentRevision,
    left.history.trans right.history⟩

theorem settled_sameText (document : Document) : document.settled.SameText document :=
  ⟨rfl, rfl, rfl⟩

theorem positioned_sameText (order : List String) (documentID : String) (document : Document) :
    (Room.positioned order documentID document).SameText document := by
  unfold Room.positioned
  split <;> exact ⟨rfl, rfl, rfl⟩

@[simp] theorem recorded_snapshot (options : HubOptions) (entry : DocumentHistory)
    (compactThrough : Int) (document : Document) :
    (document.recorded options entry compactThrough).snapshot = document.snapshot := by
  unfold recorded pruneHistory
  simp only
  split <;> rfl

/-- The new history is the end of the old one with its new entry. -/
theorem recorded_history (options : HubOptions) (entry : DocumentHistory) (compactThrough : Int)
    (document : Document) :
    (document.recorded options entry compactThrough).history <:+ document.history ++ [entry] := by
  unfold recorded pruneHistory
  simp only
  split
  · exact List.nil_suffix
  · obtain ⟨count, equality⟩ := Room.pruneRows_eq_drop DocumentHistory.bytes options.maxHistoryRows
      options.maxHistoryBytes (document.addHistory entry).history
        (document.addHistory entry).historyBytes
    rw [equality]
    exact List.drop_suffix _ _

end Document

namespace Room

/-- A document as a commit leaves it: in its position and durable. -/
def saved (order : List String) (documentID : String) (document : Document) : Document :=
  (positioned order documentID document).settled

theorem saved_sameText (order : List String) (documentID : String) (document : Document) :
    (saved order documentID document).SameText document :=
  (Document.settled_sameText _).trans (Document.positioned_sameText _ _ _)

/-! ## A committed document operation -/

section Document

variable (changed : Room) (change : ChangeRecord) (fingerprint : String)
  (accepted : AcceptedDocumentOperation) (beforeLength : Int)

/-- The entry of the history for an accepted document operation. -/
def historyEntry (accepted : AcceptedDocumentOperation) (beforeLength payloadBytes : Int) :
    DocumentHistory where
  operationID := accepted.operationID
  clientID := accepted.clientID
  revision := accepted.revision
  baseVersion := accepted.revision - 1
  beforeLen := beforeLength
  bytes := payloadBytes
  changes := accepted.changes

theorem recordDocumentOperation_lookup (room : Room) (payloadBytes : Int) (documentID : String) :
    (room.recordDocumentOperation fingerprint accepted beforeLength
        payloadBytes).documents.lookup documentID =
      (room.documents.lookup documentID).map fun document =>
        if documentID = accepted.documentID then
          (document.addHistory (historyEntry accepted beforeLength payloadBytes)).pruneHistory
            room.options.maxHistoryRows room.options.maxHistoryBytes
        else document := by
  unfold recordDocumentOperation
  simp only [pruneOperationRecords_eq, recordOperation]
  split
  case h_1 missing =>
    by_cases same : documentID = accepted.documentID
    · subst same
      rw [missing]
      rfl
    · simp [same]
  case h_2 document found =>
    rw [Keyed.lookup_insert_if]
    by_cases same : documentID = accepted.documentID
    · subst same
      rw [found, if_pos rfl, Option.map_some, if_pos rfl]
      rfl
    · simp [same]

/-- The documents after a committed document operation. -/
theorem committed_document_lookup (documentID : String) :
    (changed.committed change fingerprint (.document accepted) beforeLength).documents.lookup
        documentID =
      (changed.documents.lookup documentID).map fun document =>
        if documentID = accepted.documentID then
          (saved changed.order documentID document).recorded changed.options
            (historyEntry accepted beforeLength change.payload.size)
            (changed.compactThrough (.document accepted) change.payload.size)
        else saved changed.order documentID document := by
  have base (id : String) :
      ({ changed.syncSnapshot with
          snapshot := changed.durableSnapshot.2 } : Room).markDocumentsDurable.documents.lookup id =
        (changed.documents.lookup id).map (saved changed.order id) := by
    simp only [markDocumentsDurable, syncSnapshot, positionAll, Keyed.lookup_mapValues,
      Keyed.lookup_mapKeyed, Option.map_map]
    rfl
  have recorded (id : String) := recordDocumentOperation_lookup fingerprint accepted beforeLength
    ({ changed.syncSnapshot with
        snapshot := changed.durableSnapshot.2 } : Room).markDocumentsDurable change.payload.size id
  unfold committed recordCommitted
  simp only [durableSnapshot] at base recorded ⊢
  simp only [base, Option.map_map] at recorded
  unfold Document.recorded
  split
  case isTrue compacts =>
    split
    case h_1 missing =>
      rw [recorded]
      rw [recorded, Option.map_eq_none_iff] at missing
      by_cases same : documentID = accepted.documentID
      · subst same
        rw [missing]
        rfl
      · simp [Function.comp_def, same]
    case h_2 document found =>
      rw [recorded, Option.map_eq_some_iff] at found
      obtain ⟨before, lookup, rfl⟩ := found
      rw [Keyed.lookup_insert_if]
      by_cases same : documentID = accepted.documentID
      · subst same
        simp [lookup, markDocumentsDurable, syncSnapshot]
      · simp [recorded, same, Function.comp_def]
  case isFalse keeps =>
    rw [recorded]
    rfl

end Document

/-- The documents after a committed metadata operation. -/
theorem committed_metadata_lookup (changed : Room) (change : ChangeRecord) (fingerprint : String)
    (accepted : AcceptedMetadataOperation) (beforeLength : Int) (documentID : String) :
    (changed.committed change fingerprint (.metadata accepted) beforeLength).documents.lookup
        documentID =
      (changed.documents.lookup documentID).map (saved changed.order documentID) := by
  unfold committed recordCommitted recordMetadataOperation
  simp only [pruneOperationRecords_eq]
  split
  all_goals
    simp only [pruneMetadataHistory, recordOperation, markDocumentsDurable, durableSnapshot,
      syncSnapshot, positionAll, Keyed.lookup_mapValues, Keyed.lookup_mapKeyed, Option.map_map]
    rfl

/-! ## The ledger -/

theorem recordDocumentOperation_eq (room : Room) (fingerprint : String)
    (accepted : AcceptedDocumentOperation) (beforeLength payloadBytes : Int) :
    ∃ documents, room.recordDocumentOperation fingerprint accepted beforeLength payloadBytes =
      Room.pruneOperationRecords
        { room.recordOperation accepted.operationID ⟨fingerprint, .document accepted⟩ with
          documents } := by
  unfold recordDocumentOperation
  simp only
  split
  · exact ⟨_, rfl⟩
  · exact ⟨_, rfl⟩

/-- Everything but the documents after a committed document operation. -/
theorem committed_document_eq (changed : Room) (change : ChangeRecord) (fingerprint : String)
    (accepted : AcceptedDocumentOperation) (beforeLength : Int) :
    ∃ documents, changed.committed change fingerprint (.document accepted) beforeLength =
      { changed with
        snapshot := changed.durableSnapshot.2
        documents
        operations := (pruneRecords (ledgerLimit changed.options)
          (changed.operationOrder ++ [accepted.operationID])
          (changed.operations.insert accepted.operationID ⟨fingerprint, .document accepted⟩)).2
        operationOrder := (pruneRecords (ledgerLimit changed.options)
          (changed.operationOrder ++ [accepted.operationID])
          (changed.operations.insert accepted.operationID ⟨fingerprint, .document accepted⟩)).1
        dirty := false } := by
  obtain ⟨documents, recorded⟩ := recordDocumentOperation_eq
    ({ changed.syncSnapshot with
        snapshot := changed.durableSnapshot.2 } : Room).markDocumentsDurable fingerprint accepted
    beforeLength change.payload.size
  unfold committed recordCommitted
  simp only [durableSnapshot] at recorded ⊢
  rw [recorded, pruneOperationRecords_eq]
  split
  · split
    · exact ⟨_, rfl⟩
    · exact ⟨_, rfl⟩
  · exact ⟨_, rfl⟩

/-- An entry of the ledger after a commit is the new one or an old one. -/
theorem lookup_of_pruneRecords {limit : Nat} {order : List String}
    {operations : Keyed LedgerRecord} {operationID id : String} {record found : LedgerRecord}
    (lookup : (pruneRecords limit (order ++ [operationID])
      (operations.insert operationID record)).2.lookup id = some found) :
    found = record ∨ operations.lookup id = some found := by
  rw [pruneRecords_lookup] at lookup
  split at lookup
  case isTrue => cases lookup
  case isFalse =>
    rw [Keyed.lookup_insert_if] at lookup
    split at lookup
    · cases lookup
      exact .inl rfl
    · exact .inr lookup

end Room

end Oxbin.Live
