import Oxbin.Browser.Wire
import Oxbin.Httpapi.Wire

/-!
# Reading the server's events

A browser reads from an event what the server has written, if the revisions are integers that a
JavaScript number represents and the operation names what its kind needs.
-/

namespace Oxbin.Browser

open Live Livecollab Httpapi

@[simp] theorem string_str (value : String) : string (some (.str value)) = some value := rfl

@[simp] theorem array_arr (values : List Json) : array (some (.arr values)) = some values := rfl

theorem nonnegativeInteger_num {value : Int} (safe : Safe value) :
    nonnegativeInteger (some (.num value)) = some value := if_pos safe

/-- `liveDocumentResponse` and what the browser makes of it. -/
def roomDocument (document : DocumentState) : LiveRoomDocument where
  id := document.id
  name := document.name
  language := document.language
  content := document.content
  revision := document.revision
  position := document.position

theorem decode_liveDocumentResponse {document : DocumentState} (revision : Safe document.revision)
    (position : Safe document.position) :
    decodeDocument (some (liveDocumentResponse document)) = some (roomDocument document) := by
  have revision := nonnegativeInteger_num revision
  have position := nonnegativeInteger_num position
  simp [decodeDocument, liveDocumentResponse, revision, position, roomDocument]

/-- A browser reads the event of an accepted change. -/
theorem decode_documentWireEvent {accepted : AcceptedDocumentOperation}
    (base : Safe accepted.baseVersion) (revision : Safe accepted.revision) :
    decodeLiveWireEvent (documentWireEvent accepted) = some (.changes accepted.operationID
      accepted.clientID accepted.documentID accepted.baseVersion accepted.revision
      (encodeChangeSet accepted.changes)) := by
  have base := nonnegativeInteger_num base
  have revision := nonnegativeInteger_num revision
  simp [decodeLiveWireEvent, documentWireEvent, decodeAuthor, base, revision]

/-- The event that an accepted operation on the metadata stands for. -/
inductive Announces (accepted : AcceptedMetadataOperation) : LiveWireEvent → Prop
  | create (document : DocumentState) (kind : accepted.kind = "document_create")
      (found : (accepted.state.documents.find? fun document =>
        document.id == accepted.documentID) = some document)
      (revision : Safe document.revision) (position : Safe document.position) :
      Announces accepted (.documentCreated accepted.operationID accepted.clientID accepted.revision
        (roomDocument document))
  | update (kind : accepted.kind = "document_update") (documentID : accepted.documentID ≠ "")
      (name : accepted.name ≠ "") (language : accepted.language ≠ "") :
      Announces accepted (.documentUpdated accepted.operationID accepted.clientID
        accepted.documentID accepted.revision accepted.name accepted.language)
  | delete (kind : accepted.kind = "document_delete") (documentID : accepted.documentID ≠ "") :
      Announces accepted (.documentDeleted accepted.operationID accepted.clientID
        accepted.documentID accepted.revision)
  | reorder (kind : accepted.kind = "document_reorder") (order : accepted.order ≠ []) :
      Announces accepted (.documentReordered accepted.operationID accepted.clientID
        accepted.revision accepted.order)

/-- What an operation on the metadata needs to be announced. -/
theorem exists_announces {accepted : AcceptedMetadataOperation} :
    (∃ event, Announces accepted event) ↔
      accepted.kind = "document_create" ∧ (∃ document ∈ accepted.state.documents.find?
        fun document => document.id == accepted.documentID,
          Safe document.revision ∧ Safe document.position) ∨
      accepted.kind = "document_update" ∧ accepted.documentID ≠ "" ∧ accepted.name ≠ "" ∧
        accepted.language ≠ "" ∨
      accepted.kind = "document_delete" ∧ accepted.documentID ≠ "" ∨
      accepted.kind = "document_reorder" ∧ accepted.order ≠ [] := by
  constructor
  · rintro ⟨event, announces⟩
    cases announces with
    | create document kind found revision position =>
        exact .inl ⟨kind, document, found, revision, position⟩
    | update kind documentID name language => exact .inr (.inl ⟨kind, documentID, name, language⟩)
    | delete kind documentID => exact .inr (.inr (.inl ⟨kind, documentID⟩))
    | reorder kind order => exact .inr (.inr (.inr ⟨kind, order⟩))
  · rintro (⟨kind, document, found, revision, position⟩ | ⟨kind, documentID, name, language⟩ |
      ⟨kind, documentID⟩ | ⟨kind, order⟩)
    · exact ⟨_, .create document kind found revision position⟩
    · exact ⟨_, .update kind documentID name language⟩
    · exact ⟨_, .delete kind documentID⟩
    · exact ⟨_, .reorder kind order⟩

instance (accepted : AcceptedMetadataOperation) : Decidable (∃ event, Announces accepted event) :=
  decidable_of_iff _ exists_announces.symm

/-- A browser reads the event of an accepted operation on the metadata. -/
theorem decode_metadataWireEvent {accepted : AcceptedMetadataOperation} {event : LiveWireEvent}
    (announces : Announces accepted event) (revision : Safe accepted.revision) :
    decodeLiveWireEvent (metadataWireEvent accepted) = some event := by
  have revision := nonnegativeInteger_num revision
  cases announces with
  | create document kind found safe position =>
      have read := decode_liveDocumentResponse safe position
      simp [decodeLiveWireEvent, metadataWireEvent, metadataFields, kind, found, decodeAuthor,
        revision, read]
  | update kind documentID name language =>
      simp [decodeLiveWireEvent, metadataWireEvent, metadataFields, kind, decodeAuthor, revision,
        documentID, name, language]
  | delete kind documentID =>
      simp [decodeLiveWireEvent, metadataWireEvent, metadataFields, kind, decodeAuthor, revision,
        documentID]
  | reorder kind order =>
      have read := mapM_string accepted.order
      simp [decodeLiveWireEvent, metadataWireEvent, metadataFields, kind, decodeAuthor, revision,
        order, read]

end Oxbin.Browser
