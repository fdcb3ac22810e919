import Oxbin.Browser.Decoding
import Oxbin.Httpapi.Peers
import Oxbin.Live.Ledger

/-!
# Reading the replies to operations

The server answers an operation with an event, which goes to the other clients too unless the
operation has been accepted before.  A browser reads from it what has been accepted, except from a
late reply to the creation of a document that has been deleted in the meantime.
-/

namespace Oxbin.Browser

open Live Livecollab Httpapi

/-! ## Reading -/

theorem nonnegativeInteger_eq_some {value number : Int} :
    nonnegativeInteger (some (.num value)) = some number ↔ Safe value ∧ number = value := by
  change (if Safe value then some value else none) = some number ↔ _
  rw [Option.ite_none_right_eq_some, Option.some_inj, eq_comm (b := number)]

/-- A browser reads from the event of a reply what has been accepted. -/
def Readable : Answer → Prop
  | .document accepted =>
      decodeLiveWireEvent (documentWireEvent accepted) = some (.changes accepted.operationID
        accepted.clientID accepted.documentID accepted.baseVersion accepted.revision
        (encodeChangeSet accepted.changes))
  | .metadata accepted =>
      ∃ event, decodeLiveWireEvent (metadataWireEvent accepted) = some event ∧
        Announces accepted event
  | _ => True

theorem readable_document {accepted : AcceptedDocumentOperation} :
    Readable (.document accepted) ↔ Safe accepted.baseVersion ∧ Safe accepted.revision := by
  constructor
  · intro read
    simp [Readable, decodeLiveWireEvent, documentWireEvent, decodeAuthor,
      Option.bind_eq_some_iff, nonnegativeInteger_eq_some] at read
    exact ⟨read.1, read.2⟩
  · rintro ⟨base, revision⟩
    exact decode_documentWireEvent base revision

/-- A reply is read if it announces something, and its revision is a number that browsers read. -/
theorem readable_metadata {accepted : AcceptedMetadataOperation} :
    Readable (.metadata accepted) ↔
      Safe accepted.revision ∧ ∃ event, Announces accepted event := by
  constructor
  · rintro ⟨event, read, announces⟩
    refine ⟨?_, event, announces⟩
    cases announces with
    | create document kind found revision position =>
        simp [decodeLiveWireEvent, metadataWireEvent, metadataFields, kind, found, decodeAuthor,
          Option.bind_eq_some_iff, nonnegativeInteger_eq_some] at read
        exact read.2
    | update kind documentID name language =>
        simp [decodeLiveWireEvent, metadataWireEvent, metadataFields, kind, decodeAuthor,
          Option.bind_eq_some_iff, nonnegativeInteger_eq_some, documentID, name, language] at read
        exact read
    | delete kind documentID =>
        simp [decodeLiveWireEvent, metadataWireEvent, metadataFields, kind, decodeAuthor,
          Option.bind_eq_some_iff, nonnegativeInteger_eq_some, documentID] at read
        exact read
    | reorder kind order =>
        simp [decodeLiveWireEvent, metadataWireEvent, metadataFields, kind, decodeAuthor,
          Option.bind_eq_some_iff, nonnegativeInteger_eq_some, order] at read
        exact read.1
  · rintro ⟨revision, event, announces⟩
    exact ⟨event, decode_metadataWireEvent announces revision, announces⟩

/-- What the event of a creation needs: the document, with numbers that browsers read. -/
def ShowsDocument (accepted : AcceptedMetadataOperation) : Prop :=
  accepted.kind = "document_create" → ∃ document, (accepted.state.documents.find? fun document =>
    document.id == accepted.documentID) = some document ∧
      Safe document.revision ∧ Safe document.position

/-- An operation that names what its kind needs is announced, unless its document is missing. -/
theorem announces_iff {accepted : AcceptedMetadataOperation}
    (complete : accepted.persisted.Complete) :
    (∃ event, Announces accepted event) ↔ ShowsDocument accepted := by
  rw [exists_announces]
  constructor
  · rintro (⟨_, document, found, safe⟩ | ⟨kind, _⟩ | ⟨kind, _⟩ | ⟨kind, _⟩) created
    · exact ⟨document, found, safe⟩
    all_goals simp [kind] at created
  · intro shows
    rcases complete with kind | named | named | named
    · obtain ⟨document, found, safe⟩ := shows kind
      exact .inl ⟨kind, document, found, safe⟩
    · exact .inr (.inl named)
    · exact .inr (.inr (.inl named))
    · exact .inr (.inr (.inr named))

/-! ## Replies -/

/-- What a submission must find for its reply to be read.  A new revision must be a number that
browsers read, and so must the place of a new document.  If the ledger answers, it must not have
lost the document that was created. -/
def Legible (room : Room) : Call → Prop
  | .request _ (.submitDocument operation) =>
      match (room.operations.lookup operation.operationID).map LedgerRecord.result with
      | some (.document accepted) => Safe accepted.baseVersion ∧ Safe accepted.revision
      | _ => Safe operation.baseVersion ∧ Safe (room.current operation.documentID + 1)
  | .request _ (.applyMetadata operation _) =>
      match (room.operations.lookup operation.operationID).map LedgerRecord.result with
      | some (.metadata accepted) => Safe accepted.revision ∧ ShowsDocument accepted
      | _ => Safe (room.snapshot.metadataRevision + 1) ∧
          (operation.kind = "document_create" → Safe room.order.length)
  | _ => True

section Replies

variable [Host] {options : HubOptions} {stage : Stage} {annals : Annals} {session : Session}
  {now : Time} {fault : Bool}

theorem readable_document_iff {operation : DocumentOperation} {store : Storage.Store}
    {before : Room} (shared : before.shared = stage.authority.room.shared)
    {outcome : Outcome AcceptedDocumentOperation} {accepted : AcceptedDocumentOperation}
    (ends : Room.DocumentOutcome before store operation now fault outcome)
    (performed : outcome.2 = .ok accepted) :
    Readable (.document accepted) ↔
      Legible stage.authority.room (.request session (.submitDocument operation)) := by
  rw [readable_document, Legible, ← Room.operations_of_shared shared]
  cases ends with
  | refused => cases performed
  | repeated accepted record =>
      cases performed
      rw [record]
      rfl
  | accepted document changes content store' named fresh admitted =>
      cases performed
      have current : stage.authority.room.current operation.documentID =
          document.snapshot.currentRevision := by
        have found := (Room.admitted_of_admitDocument admitted).found
        rw [(Room.sameTabs_of_shared shared).documents] at found
        rw [Room.current, Room.tab, found]
        rfl
      rw [fresh, current]
      rfl

theorem readable_metadata_iff (lived : Stage.Lived options stage annals) {action : Action}
    (possible : action.Possible stage.issued) {accepted : AcceptedMetadataOperation}
    (answered : (stage.authority.perform action).2 = .ok (.metadata accepted))
    {operation : MetadataOperation} {generator : Nat → Option String} {store : Storage.Store}
    {before : Room} (shared : before.shared = stage.authority.room.shared)
    {outcome : Outcome AcceptedMetadataOperation}
    (ends : Room.MetadataOutcome before store operation now fault outcome)
    (performed : outcome.2 = .ok accepted) :
    Readable (.metadata accepted) ↔
      Legible stage.authority.room (.request session (.applyMetadata operation generator)) := by
  have operations := Room.operations_of_shared shared
  rw [readable_metadata, Legible, ← operations]
  cases ends with
  | refused => cases performed
  | repeated known record =>
      cases performed
      have remembered : stage.authority.room.authority.operation operation.operationID =
          some (LedgerRecord.retained
            ⟨Host.fingerprint (metadataOperationJson operation), .metadata known⟩) := by
        change (stage.authority.room.operations.lookup _).map LedgerRecord.retained = _
        rw [← operations, record]
        rfl
      have complete : known.persisted.Complete :=
        lived.complete operation.operationID _ remembered _ rfl
      rw [record]
      exact and_congr_right fun _ => announces_iff complete
  | accepted effect store' authority named fresh admitted change =>
      cases performed
      have complete := lived.complete_told possible answered rfl
      have revision : before.snapshot.metadataRevision =
          stage.authority.room.snapshot.metadataRevision :=
        (Room.sameTabs_of_shared shared).metadataRevision
      rw [fresh, announces_iff complete]
      change (Safe (before.snapshot.metadataRevision + 1) ∧ _) ↔ _
      rw [revision]
      refine and_congr_right fun _ => forall_congr' fun kind => ?_
      obtain ⟨document, found, zero, place⟩ := lived.created_document possible answered rfl kind
      rw [found, ← place]
      constructor
      · rintro ⟨_, ⟨⟩, _, position⟩
        exact position
      · intro position
        refine ⟨document, rfl, ?_, position⟩
        rw [zero]
        decide

end Replies

/-! ## A late reply -/

/-- The creator of the small room creates a document and deletes it. -/
def smallDeletion : List Action :=
  [smallJoin "bob" "page" smallToken 2,
    Stage.smallRequest (.applyMetadata (smallCreate "op-1") fun _ => some "notes") 3 false,
    Stage.smallRequest (.applyMetadata { smallCreate "op-2" with
      baseVersion := 1, kind := "document_delete", documentID := "notes" } fun _ => none) 4 false]

/-- The creator creates the document again, not knowing that this has been done. -/
def smallAgain : Action :=
  Stage.smallRequest (.applyMetadata (smallCreate "op-1") fun _ => some "notes") 7 false

/-- The small room after the deletion, loaded again and joined by its creator. -/
def smallReturned (authority : Authority) : Stage :=
  @Stage.run sampleHost ⟨authority, []⟩ [smallJoin "bob" "page" smallToken 6]

/-- The accepted operation on the metadata in an answer. -/
def metadataOf : Answer → Option AcceptedMetadataOperation
  | .metadata accepted => some accepted
  | _ => none

theorem metadataOf_eq_some {answer : Answer} {accepted : AcceptedMetadataOperation}
    (found : metadataOf answer = some accepted) : answer = .metadata accepted := by
  cases answer <;> cases found
  rfl

/-- What happens in the small room until the creator is answered. -/
theorem smallDeletion_done :
    let left := (@Stage.run sampleHost (smallStage defaultHubOptions) smallDeletion).authority
    ∃ snapshot authority accepted,
      Storage.Store.getRoomSnapshot left.store left.room.snapshot.slug (unixTime 5) false =
        .ok snapshot ∧
      Room.newRoom left.store snapshot defaultHubOptions .none =
        (authority.store, .ok authority.room) ∧
      (@Authority.perform sampleHost (smallReturned authority).authority smallAgain).2 =
        .ok (.metadata accepted) ∧
      Stage.smallSession "bob" "page" 1 true ∈ (smallReturned authority).issued ∧
      accepted.kind = "document_create" ∧ accepted.duplicate = true ∧
      (decodeLiveWireEvent (metadataWireEvent accepted)).isNone = true := by
  intro left
  have done : (Storage.Store.getRoomSnapshot left.store left.room.snapshot.slug (unixTime 5)
      false).toOption.any (fun snapshot =>
        let loaded := Room.newRoom left.store snapshot defaultHubOptions .none
        loaded.2.toOption.any fun room =>
          let stage := smallReturned ⟨room, loaded.1⟩
          ((@Authority.perform sampleHost stage.authority smallAgain).2.toOption.bind
            metadataOf).any fun accepted =>
              decide (Stage.smallSession "bob" "page" 1 true ∈ stage.issued ∧
                accepted.kind = "document_create" ∧ accepted.duplicate = true ∧
                (decodeLiveWireEvent (metadataWireEvent accepted)).isNone = true)) = true := by
    decide +kernel
  obtain ⟨snapshot, read, done⟩ := ok_of_any done
  obtain ⟨room, load, done⟩ := ok_of_any done
  obtain ⟨accepted, answered, done⟩ := Option.any_eq_true _ _ |>.mp done
  obtain ⟨answer, performed, found⟩ := Option.bind_eq_some_iff.mp answered
  cases metadataOf_eq_some found
  exact ⟨snapshot, ⟨room, _⟩, accepted, read, Prod.ext rfl load, ok_of_toOption performed,
    of_decide_eq_true done⟩

/-- The first creation is answered with the document. -/
theorem smallDeletion_begins :
    let stage := @Stage.run sampleHost (smallStage defaultHubOptions) (smallDeletion.take 1)
    (∃ accepted, (@Authority.perform sampleHost stage.authority smallAgain).2 =
      .ok (.metadata accepted)) ∧
    Stage.smallSession "bob" "page" 1 true ∈ stage.issued ∧
    Legible stage.authority.room smallAgain.call := by
  intro stage
  have done : ((@Authority.perform sampleHost stage.authority smallAgain).2.toOption.bind
      metadataOf).isSome = true ∧ Stage.smallSession "bob" "page" 1 true ∈ stage.issued ∧
      (stage.authority.room.operations.lookup "op-1").isNone = true ∧
      Safe (stage.authority.room.snapshot.metadataRevision + 1) ∧
      Safe stage.authority.room.order.length := by
    decide +kernel
  obtain ⟨accepts, issued, fresh, revision, place⟩ := done
  obtain ⟨accepted, answered⟩ := Option.isSome_iff_exists.mp accepts
  obtain ⟨answer, performed, found⟩ := Option.bind_eq_some_iff.mp answered
  cases metadataOf_eq_some found
  refine ⟨⟨accepted, ok_of_toOption performed⟩, issued, ?_⟩
  have absent : stage.authority.room.operations.lookup (smallCreate "op-1").operationID = none :=
    Option.isNone_iff_eq_none.mp fresh
  change Legible _ (.request _ (.applyMetadata (smallCreate "op-1") fun _ => some "notes"))
  rw [Legible, absent]
  exact ⟨revision, fun _ => place⟩

end Oxbin.Browser
