import Oxbin.Data.Clock
import Oxbin.Live.Bridge
import Oxbin.Live.Payload
import Oxbin.Live.Roster

/-!
# Events on the wire

The server's messages of `internal/httpapi/live_wire.go` and `live_response.go`, as the JSON that
`encodeLiveWireEvent` writes.  Only a room time without a text keeps an event from being encoded.
-/

namespace Oxbin.Httpapi

open Live Livecollab Clock

/-- `ParticipantStatus` as a string. -/
def statusText : ParticipantStatus → String
  | .connected => "connected"
  | .connectionLost => "connection_lost"
  | .offline => "offline"

/-- `ParticipantAccessClass` as a string. -/
def accessText : ParticipantAccessClass → String
  | .creator => "creator"
  | .collaborator => "collaborator"
  | .viewer => "viewer"

/-- An `omitempty` flag of an object. -/
def optionalFlag (name : String) (value : Bool) : List (String × Json) :=
  if value then [(name, .bool true)] else []

/-- An `omitempty` list of an object. -/
def optionalList (name : String) (values : List Json) : List (String × Json) :=
  if values = [] then [] else [(name, .arr values)]

/-! ## Members of objects -/

@[simp] theorem get?_nil (name : String) : (Json.obj []).get? name = none := rfl

/-- The later of two members counts. -/
@[simp] theorem get?_append (name : String) (members later : List (String × Json)) :
    (Json.obj (members ++ later)).get? name =
      ((Json.obj later).get? name).or ((Json.obj members).get? name) := by
  simp only [Json.get?, List.reverse_append, List.find?_append]
  cases later.reverse.find? fun member => member.1 == name <;> rfl

@[simp] theorem get?_cons (name key : String) (value : Json) (members : List (String × Json)) :
    (Json.obj ((key, value) :: members)).get? name =
      ((Json.obj members).get? name).or (if key = name then some value else none) := by
  rw [← List.singleton_append, get?_append]
  congr 1
  by_cases same : key = name <;> simp [Json.get?, same]

@[simp] theorem get?_optionalFlag (name key : String) (value : Bool) :
    (Json.obj (optionalFlag key value)).get? name =
      if key = name ∧ value = true then some (.bool true) else none := by
  cases value
  · simp [optionalFlag, Json.get?]
  · simp [optionalFlag, get?_cons, get?_nil]

@[simp] theorem get?_optionalField (name key value : String) :
    (Json.obj (optionalField key value)).get? name =
      if key = name ∧ value ≠ "" then some (.str value) else none := by
  by_cases empty : value = ""
  · simp [optionalField, empty, get?_nil]
  · simp [optionalField, empty, get?_cons, get?_nil]

@[simp] theorem get?_optionalList (name key : String) (values : List Json) :
    (Json.obj (optionalList key values)).get? name =
      if key = name ∧ values ≠ [] then some (.arr values) else none := by
  by_cases empty : values = []
  · simp [optionalList, empty, get?_nil]
  · simp [optionalList, empty, get?_cons, get?_nil]

@[simp] theorem get?_optionalMember (name key : String) (value : Option Json) :
    (Json.obj (value.toList.map fun value => (key, value))).get? name =
      if key = name then value else none := by
  cases value with
  | none => simp [get?_nil]
  | some value => simp [get?_cons, get?_nil]

/-- `encodeLiveWireEvent`. -/
def encodeLiveWireEvent (event : Option Json) : Json :=
  event.getD <| .obj [("type", .str "error"), ("code", .str "service_unavailable"),
    ("message", .str "Service is temporarily unavailable")]

/-! ## Participants -/

/-- The fields of `liveCursorResponse`. -/
def liveCursorResponse (cursor : CursorSelection) : List (String × Json) :=
  [("document_id", .str cursor.documentID), ("revision", .num cursor.revision),
    ("anchor", .num cursor.anchor), ("head", .num cursor.head)]

/-- `liveConnectionCursorResponse`. -/
def liveConnectionCursorResponse (cursor : ConnectionCursor) : Json :=
  .obj (("connection_id", .str cursor.connectionID) :: liveCursorResponse cursor.selection)

/-- `responseForLiveParticipant`. -/
def responseForLiveParticipant (participant : ParticipantSnapshot) : Option Json := do
  let joinedAt ← timestamp participant.joinedAt
  let lastSeenAt ← timestamp participant.lastSeenAt
  some <| .obj <|
    [("id", .str participant.id), ("nickname", .str participant.nickname),
      ("joined_at", joinedAt), ("color", .str participant.color),
      ("current_tab", .str participant.currentTab)] ++
    (participant.cursor.toList.map fun cursor => ("cursor", .obj (liveCursorResponse cursor))) ++
    optionalList "cursors" (participant.cursors.map liveConnectionCursorResponse) ++
    [("status", .str (statusText participant.status)),
      ("access_class", .str (accessText participant.accessClass)),
      ("can_edit", .bool participant.canEdit),
      ("connection_count", .num participant.connectionCount), ("last_seen_at", lastSeenAt)]

/-- The participants of `responseForLiveState`. -/
def responseForLiveState (state : RoomState) : Option Json :=
  (state.participants.mapM responseForLiveParticipant).map .arr

/-- `liveDocumentRevisions`. -/
def liveDocumentRevisions (state : RoomState) : Json :=
  .arr <| state.documents.map fun document =>
    .obj [("document_id", .str document.id), ("revision", .num document.revision)]

/-! ## Events -/

/-- The `liveJoinedEvent` of a join. -/
def liveJoinedEvent (joined : JoinResult) (connectionID : String) : Option Json := do
  let expiresAt ← timestamp joined.state.expiresAt
  let participants ← responseForLiveState joined.state
  let participant ← responseForLiveParticipant joined.participant
  some <| .obj [("type", .str "joined"), ("expires_at", expiresAt),
    ("metadata_revision", .num joined.state.metadataRevision),
    ("document_revisions", liveDocumentRevisions joined.state),
    ("participants", participants), ("participant", participant),
    ("creator", .bool joined.session.creator), ("watch_only", .bool joined.state.watchOnly),
    ("layout_preset", .str joined.state.layoutPreset), ("locked", .bool joined.state.watchOnly),
    ("connection_id", .str connectionID), ("reconnected", .bool joined.reconnected)]

/-- `liveStatusEvent`. -/
def liveStatusEvent (status : String) : Json :=
  .obj [("type", .str "status"), ("status", .str status)]

/-- `documentWireEvent`. -/
def documentWireEvent (accepted : AcceptedDocumentOperation) : Json :=
  .obj <| [("type", .str "changes"), ("operation_id", .str accepted.operationID),
    ("client_id", .str accepted.clientID), ("document_id", .str accepted.documentID),
    ("base_version", .num accepted.baseVersion), ("revision", .num accepted.revision),
    ("changes", encodeChangeSet accepted.changes)] ++ optionalFlag "duplicate" accepted.duplicate

/-- `liveDocumentResponse`. -/
def liveDocumentResponse (document : DocumentState) : Json :=
  .obj [("id", .str document.id), ("name", .str document.name),
    ("language", .str document.language), ("content", .str document.content),
    ("position", .num document.position), ("revision", .num document.revision),
    ("snapshot_revision", .num document.snapshotRevision)]

/-- What `metadataWireEvent` sets for the kind of an operation. -/
structure MetadataFields where
  type : String := ""
  document : Option Json := none
  name : String := ""
  language : String := ""
  order : List String := []

/-- The `switch` of `metadataWireEvent`. -/
def metadataFields (accepted : AcceptedMetadataOperation) : MetadataFields :=
  match accepted.kind with
  | "document_create" => {
      type := "document_created"
      document := (accepted.state.documents.find? fun document =>
        document.id == accepted.documentID).map liveDocumentResponse }
  | "document_update" => {
      type := "document_updated", name := accepted.name, language := accepted.language }
  | "document_delete" => { type := "document_deleted" }
  | "document_reorder" => { type := "document_reordered", order := accepted.order }
  | _ => {}

/-- `metadataWireEvent`. -/
def metadataWireEvent (accepted : AcceptedMetadataOperation) : Json :=
  let fields := metadataFields accepted
  .obj <| [("type", .str fields.type), ("operation_id", .str accepted.operationID),
      ("client_id", .str accepted.clientID)] ++
    optionalField "document_id" accepted.documentID ++
    [("metadata_revision", .num accepted.revision)] ++
    (fields.document.toList.map fun document => ("document", document)) ++
    optionalField "name" fields.name ++ optionalField "language" fields.language ++
    optionalList "order" (fields.order.map .str) ++
    optionalFlag "duplicate" accepted.duplicate

end Oxbin.Httpapi
