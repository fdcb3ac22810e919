import Oxbin.Live.Load

/-!
# Bridging a join

`bridge` returns the retained operations that are newer than the revisions known to a client, or
asks the client to fetch the room again.
-/

namespace Oxbin.Live

namespace Room

/-- The variables of the first loop of `bridge`. -/
structure BridgeScan where
  metadataChanges : List AcceptedMetadataOperation
  knownDocuments : Keyed Int
  deleted : List String

/-- The first loop of `bridge`: the metadata operations newer than the known revision. -/
def scanMetadata (knownMetadata : Int) (scan : BridgeScan)
    (accepted : AcceptedMetadataOperation) : BridgeScan :=
  if accepted.revision ≤ knownMetadata then scan
  else
    let scan := { scan with metadataChanges := scan.metadataChanges ++ [accepted] }
    match accepted.kind with
    | "document_create" =>
        { scan with knownDocuments := scan.knownDocuments.insert accepted.documentID 0 }
    | "document_delete" => { scan with deleted := accepted.documentID :: scan.deleted }
    | _ => scan

/-- The retained changes of a document after a revision. -/
def documentChangesSince (documentID : String) (document : Document) (version : Int) :
    List AcceptedDocumentOperation :=
  (document.history.filter fun accepted => version < accepted.revision).map fun accepted =>
    { operationID := accepted.operationID, clientID := accepted.clientID, documentID
      baseVersion := accepted.baseVersion, revision := accepted.revision
      changes := accepted.changes, document := "", duplicate := false }

/-- A document can be brought up to date from the known version. -/
def bridgeable (room : Room) (knownDocuments : Keyed Int) (documentID : String) : Prop :=
  ∃ document ∈ room.documents.lookup documentID, ∃ version ∈ knownDocuments.lookup documentID,
    document.compactedRevision ≤ version ∧ version ≤ document.snapshot.currentRevision

instance (room : Room) (knownDocuments : Keyed Int) (documentID : String) :
    Decidable (room.bridgeable knownDocuments documentID) :=
  inferInstanceAs (Decidable (∃ document ∈ room.documents.lookup documentID, _))

/-- The answer that asks for a new snapshot. -/
def resyncBridge : BridgeResult := ⟨[], [], true⟩

/-- `bridge` for a live connection. -/
def bridgeKnown (room : Room) (known : KnownRevisions) : BridgeResult :=
  if known.metadata < room.metadataCompactedRevision ∨
      known.metadata > room.snapshot.metadataRevision then resyncBridge
  else
    let scan := room.metadataHistory.foldl (scanMetadata known.metadata)
      { metadataChanges := [], knownDocuments := known.documents, deleted := [] }
    if ¬∀ documentID ∈ room.order, room.bridgeable scan.knownDocuments documentID then
      resyncBridge
    else if ¬∀ documentID ∈ scan.knownDocuments.keys,
        documentID ∈ room.documents ∨ documentID ∈ scan.deleted then resyncBridge
    else {
      documentChanges := room.order.flatMap fun documentID =>
        match room.documents.lookup documentID, scan.knownDocuments.lookup documentID with
        | some document, some version => documentChangesSince documentID document version
        | _, _ => []
      metadataChanges := scan.metadataChanges
      resync := false }

/-- `bridge`. -/
def bridge (room : Room) (participantID connectionID : String) (generation : Nat)
    (known : KnownRevisions) (now : Time) : Room × Except LiveError BridgeResult :=
  match room.ensureConnection participantID connectionID generation now with
  | (room, .error error) => (room, .error error)
  | (room, .ok ()) => (room, .ok (room.bridgeKnown known))

end Room

end Oxbin.Live
