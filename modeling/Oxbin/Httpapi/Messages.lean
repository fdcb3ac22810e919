import Oxbin.Browser.Stringify
import Oxbin.Browser.Wire
import Oxbin.CodeMirror.ChangeSet
import Oxbin.CodeMirror.Text
import Oxbin.Live.Sessions
import Oxbin.Livecollab.Surrogates
import Oxbin.Paste.Bodies

/-!
# Messages of a browser

What `web/src/live-room.tsx` sends over its connection, what `internal/httpapi/live_wire.go` decodes
it to, and the call on the session that the handler of `internal/httpapi/live.go` makes of it.
-/

namespace Oxbin.Httpapi

open Browser (JsValue Safe stringify)
open CodeMirror (splitFeeds)
open Live Livecollab
open Paste (decodeBool decodeInt decodeString decodeStruct fieldNamed)

/-! ## The envelope -/

/-- `liveWireMessage`. -/
structure LiveWireMessage where
  type : String
  sessionID : String
  connectionID : Option String
  clientID : Option String
  preferredName : Option String
  operationID : String
  documentID : String
  baseVersion : Int
  changes : Option Json
  name : String
  language : String
  content : String
  order : List String
  currentTab : String
  revision : Int
  anchor : Int
  head : Int
  watchOnly : Bool
  layoutPreset : String
  metadataRevision : Int
  documentRevisions : List (String × Int)

/-- A message that has nothing but its type. -/
def LiveWireMessage.blank (type : String) : LiveWireMessage where
  type := type
  sessionID := ""
  connectionID := none
  clientID := none
  preferredName := none
  operationID := ""
  documentID := ""
  baseVersion := 0
  changes := none
  name := ""
  language := ""
  content := ""
  order := []
  currentTab := ""
  revision := 0
  anchor := 0
  head := 0
  watchOnly := false
  layoutPreset := ""
  metadataRevision := 0
  documentRevisions := []

/-- Decode a value into a pointer to a string. -/
def decodePointer : Json → Option (Option String)
  | .null => some none
  | .str value => some (some value)
  | _ => none

/-- Decode the elements of an array over those of a slice. -/
def decodeElements {α : Type} (element : α → Json → Option α) (zero : α) :
    List α → List Json → Option (List α)
  | _, [] => some []
  | old, value :: values => do
      let first ← element (old.headD zero) value
      let rest ← decodeElements element zero old.tail values
      some (first :: rest)

/-- Decode a value into a slice. -/
def decodeSlice {α : Type} (element : α → Json → Option α) (zero : α) (old : List α) :
    Json → Option (List α)
  | .null => some []
  | .arr values => decodeElements element zero old values
  | _ => none

/-- Decode a `liveWireDocumentRevision`. -/
def decodeDocumentRevision (old : String × Int) : Json → Option (String × Int) :=
  decodeStruct ["document_id", "revision"] (fun field value (documentID, revision) =>
    match field with
    | "document_id" => (decodeString documentID value).map (·, revision)
    | "revision" => (decodeInt revision value).map (documentID, ·)
    | _ => none) true old

/-- The names of the fields. -/
def liveWireFields : List String :=
  ["type", "session_id", "connection_id", "client_id", "preferred_name", "operation_id",
    "document_id", "base_version", "changes", "name", "language", "content", "order", "current_tab",
    "revision", "anchor", "head", "watch_only", "layout_preset", "metadata_revision",
    "document_revisions"]

/-- The fields of a `liveWireMessage`. -/
def LiveWireMessage.assign (field : String) (value : Json) (message : LiveWireMessage) :
    Option LiveWireMessage :=
  match field with
  | "type" => (decodeString message.type value).map ({ message with type := · })
  | "session_id" => (decodeString message.sessionID value).map ({ message with sessionID := · })
  | "connection_id" => (decodePointer value).map ({ message with connectionID := · })
  | "client_id" => (decodePointer value).map ({ message with clientID := · })
  | "preferred_name" => (decodePointer value).map ({ message with preferredName := · })
  | "operation_id" =>
      (decodeString message.operationID value).map ({ message with operationID := · })
  | "document_id" => (decodeString message.documentID value).map ({ message with documentID := · })
  | "base_version" => (decodeInt message.baseVersion value).map ({ message with baseVersion := · })
  | "changes" => some { message with changes := some value }
  | "name" => (decodeString message.name value).map ({ message with name := · })
  | "language" => (decodeString message.language value).map ({ message with language := · })
  | "content" => (decodeString message.content value).map ({ message with content := · })
  | "order" => (decodeSlice decodeString "" message.order value).map ({ message with order := · })
  | "current_tab" => (decodeString message.currentTab value).map ({ message with currentTab := · })
  | "revision" => (decodeInt message.revision value).map ({ message with revision := · })
  | "anchor" => (decodeInt message.anchor value).map ({ message with anchor := · })
  | "head" => (decodeInt message.head value).map ({ message with head := · })
  | "watch_only" => (decodeBool message.watchOnly value).map ({ message with watchOnly := · })
  | "layout_preset" =>
      (decodeString message.layoutPreset value).map ({ message with layoutPreset := · })
  | "metadata_revision" =>
      (decodeInt message.metadataRevision value).map ({ message with metadataRevision := · })
  | "document_revisions" =>
      (decodeSlice decodeDocumentRevision ("", 0) message.documentRevisions value).map
        ({ message with documentRevisions := · })
  | _ => none

/-- The types that `decodeLiveWireMessage` accepts. -/
def liveWireTypes : List String :=
  ["join", "heartbeat", "ack", "push_changes", "document_create", "document_update",
    "document_delete", "document_reorder", "room_watch_only", "room_layout", "presence",
    "participant_rename"]

/-- The errors of `decodeLiveWireMessage`. -/
inductive LiveWireError where
  | malformed
  | typeRequired
  | unsupportedOperation (type : String)
  deriving DecidableEq

/-- `decodeLiveWireMessage`. -/
def decodeLiveWireMessage (data : List Char) : Except LiveWireError LiveWireMessage :=
  match (Json.parse data).bind
      (decodeStruct liveWireFields LiveWireMessage.assign true (.blank "")) with
  | none => .error .malformed
  | some message =>
      if message.type = "" then .error .typeRequired
      else if message.type ∈ liveWireTypes then .ok message
      else .error (.unsupportedOperation message.type)

namespace LiveWireMessage

/-- The call that `handleWireMessage` makes on the session, if it makes one. -/
def request (message : LiveWireMessage) (clientID : String) (generator : Nat → Option String) :
    Except LiveError (Option Request) :=
  if message.clientID.isSome ∧ message.clientID ≠ some clientID then .error .invalidClientID
  else
    match message.type with
    | "heartbeat" => .ok (some .heartbeat)
    | "ack" => .ok none
    | "push_changes" =>
        match message.changes.map parseChangeSetJSON with
        | some (.ok changes) =>
            .ok (some (.submitDocument {
              operationID := message.operationID, clientID, documentID := message.documentID
              baseVersion := message.baseVersion, changes }))
        | _ => .error .operationLimit
    | "document_create" | "document_update" | "document_delete" | "document_reorder" =>
        .ok (some (.applyMetadata {
          operationID := message.operationID, clientID, baseVersion := message.baseVersion
          kind := message.type, documentID := message.documentID, name := message.name
          language := message.language, content := message.content
          order := message.order } generator))
    | "room_layout" => .ok (some (.setLayoutPreset message.layoutPreset))
    | "room_watch_only" => .ok (some (.setWatchOnly message.watchOnly))
    | "presence" =>
        .ok (some (.updatePresence {
          currentTab := message.currentTab, documentID := message.documentID
          revision := message.revision, anchor := message.anchor, head := message.head }))
    | "participant_rename" => .ok (some (.rename message.name))
    | _ => .error .operationConflict

/-- `knownLiveRevisions`. -/
def knownLiveRevisions (message : LiveWireMessage) : Option KnownRevisions :=
  if message.metadataRevision < 0 ∨ message.documentRevisions.length = 0 then none
  else
    (message.documentRevisions.foldlM (fun (known : Keyed Int) (documentID, revision) =>
      if documentID = "" ∨ revision < 0 then none
      else if documentID ∈ known then none
      else some (known.insert documentID revision)) ∅).map
        fun documents => ⟨message.metadataRevision, documents⟩

/-- `liveJoinIdentity`. -/
def liveJoinIdentity (message : LiveWireMessage) : Except LiveError JoinIdentity :=
  match message.connectionID, message.clientID with
  | none, _ => .error .invalidConnectionID
  | some _, none => .error .invalidClientID
  | some connectionID, some clientID => do
      let identity : JoinIdentity := {
        participantCredential := message.sessionID, connectionID, clientID
        preferredName := message.preferredName.getD ""
        preferredNameSet := message.preferredName.isSome }
      identity.validate
      .ok identity

end LiveWireMessage

/-! ## What a browser sends -/

/-- `toJSON` of a change set of the editor. -/
def toJSON (set : CodeMirror.ChangeSet UInt16) : JsValue :=
  .array <| set.sections.map fun sect =>
    if sect.newLen < 0 then .number sect.oldLen
    else if sect.newLen = 0 then .array [.number sect.oldLen]
    else .array (.number sect.oldLen :: (splitFeeds sect.insert).map .string)

/-- The fields that `sendMetadata` is called with. -/
inductive MetadataRequest where
  | create (name language content : List UInt16)
  | update (documentID name language : List UInt16)
  | delete (documentID : List UInt16)
  | reorder (order : List (List UInt16))

/-- The messages of `live-room.tsx`; `join` is that of `liveJoinMessage`. -/
inductive LiveMessage where
  | join (sessionID connectionID clientID : List UInt16) (metadataRevision : Int)
      (documents : List (List UInt16 × Int)) (preferredName : List UInt16)
  | pushChanges (operationID clientID documentID : List UInt16) (baseVersion : Int)
      (changes : CodeMirror.ChangeSet UInt16)
  | metadata (operationID clientID : List UInt16) (baseVersion : Int) (fields : MetadataRequest)
  | presence (documentID : List UInt16) (revision anchor head : Int)
  | rename (nickname : List UInt16)
  | layout (preset : List UInt16)
  | watchOnly (enabled : Bool)

/-- A string that has a `String` for its value. -/
def jsString (value : String) : JsValue := .string (utf16Units value)

/-- The text that arrives for a string; lone surrogates do not. -/
def arriving (value : List UInt16) : String := String.ofList (decode value)

/-- The change set that arrives. -/
def arrivingSet (set : CodeMirror.ChangeSet UInt16) : ChangeSet :=
  ⟨set.sections.map fun sect =>
    ⟨sect.oldLen, sect.newLen, if sect.newLen < 0 then "" else arriving sect.insert⟩⟩

/-- The revisions of documents that arrive. -/
def arrivingRevisions (documents : List (List UInt16 × Int)) : List (String × Int) :=
  documents.map fun (documentID, revision) => (arriving documentID, revision)

namespace MetadataRequest

/-- The type of the message. -/
def type : MetadataRequest → String
  | .create _ _ _ => "document_create"
  | .update _ _ _ => "document_update"
  | .delete _ => "document_delete"
  | .reorder _ => "document_reorder"

/-- The properties that are spread into the message. -/
def properties : MetadataRequest → List (String × JsValue)
  | .create name language content =>
      [("name", .string name), ("language", .string language), ("content", .string content)]
  | .update documentID name language =>
      [("document_id", .string documentID), ("name", .string name), ("language", .string language)]
  | .delete documentID => [("document_id", .string documentID)]
  | .reorder order => [("order", .array (order.map .string))]

/-- What the request tells the server to do. -/
def operation (operationID clientID : String) (baseVersion : Int) (fields : MetadataRequest) :
    MetadataOperation :=
  let plain : MetadataOperation := {
    operationID, clientID, baseVersion, kind := fields.type, documentID := "", name := ""
    language := "", content := "", order := [] }
  match fields with
  | .create name language content => { plain with
      name := arriving name, language := arriving language, content := arriving content }
  | .update documentID name language => { plain with
      documentID := arriving documentID, name := arriving name, language := arriving language }
  | .delete documentID => { plain with documentID := arriving documentID }
  | .reorder order => { plain with order := order.map arriving }

end MetadataRequest

namespace LiveMessage

/-- The object that is sent. -/
def value : LiveMessage → JsValue
  | .join sessionID connectionID clientID metadataRevision documents preferredName =>
      .object ([("type", jsString "join"), ("session_id", .string sessionID),
        ("connection_id", .string connectionID), ("client_id", .string clientID)] ++
        (if preferredName = [] then [] else [("preferred_name", .string preferredName)]) ++
        [("metadata_revision", .number metadataRevision),
          ("document_revisions", .array (documents.map fun (documentID, revision) =>
            .object [("document_id", .string documentID), ("revision", .number revision)]))])
  | .pushChanges operationID clientID documentID baseVersion changes =>
      .object [("type", jsString "push_changes"), ("operation_id", .string operationID),
        ("client_id", .string clientID), ("document_id", .string documentID),
        ("base_version", .number baseVersion), ("changes", toJSON changes)]
  | .metadata operationID clientID baseVersion fields =>
      .object ([("type", jsString fields.type), ("operation_id", .string operationID),
        ("client_id", .string clientID), ("base_version", .number baseVersion)] ++
        fields.properties)
  | .presence documentID revision anchor head =>
      .object [("type", jsString "presence"), ("current_tab", .string documentID),
        ("document_id", .string documentID), ("revision", .number revision),
        ("anchor", .number anchor), ("head", .number head)]
  | .rename nickname =>
      .object [("type", jsString "participant_rename"), ("name", .string nickname)]
  | .layout preset => .object [("type", jsString "room_layout"), ("layout_preset", .string preset)]
  | .watchOnly enabled =>
      .object [("type", jsString "room_watch_only"), ("watch_only", .boolean enabled)]

/-- What arrives. -/
def wire : LiveMessage → LiveWireMessage
  | .join sessionID connectionID clientID metadataRevision documents preferredName =>
      { LiveWireMessage.blank "join" with
        sessionID := arriving sessionID, connectionID := some (arriving connectionID)
        clientID := some (arriving clientID)
        preferredName := if preferredName = [] then none else some (arriving preferredName)
        metadataRevision, documentRevisions := arrivingRevisions documents }
  | .pushChanges operationID clientID documentID baseVersion changes =>
      { LiveWireMessage.blank "push_changes" with
        operationID := arriving operationID, clientID := some (arriving clientID)
        documentID := arriving documentID, baseVersion, changes := some (toJSON changes).json }
  | .metadata operationID clientID baseVersion fields =>
      let arrived := fields.operation (arriving operationID) (arriving clientID) baseVersion
      { LiveWireMessage.blank fields.type with
        operationID := arriving operationID, clientID := some (arriving clientID), baseVersion
        documentID := arrived.documentID, name := arrived.name, language := arrived.language
        content := arrived.content, order := arrived.order }
  | .presence documentID revision anchor head =>
      { LiveWireMessage.blank "presence" with
        currentTab := arriving documentID, documentID := arriving documentID, revision, anchor
        head }
  | .rename nickname =>
      { LiveWireMessage.blank "participant_rename" with name := arriving nickname }
  | .layout preset => { LiveWireMessage.blank "room_layout" with layoutPreset := arriving preset }
  | .watchOnly enabled => { LiveWireMessage.blank "room_watch_only" with watchOnly := enabled }

/-- A message as the client with an ID sends it: its numbers are integers for a browser, its changes
are ones of the editor, and a join names the documents that the browser has, each once. -/
def Sendable (own : String) : LiveMessage → Prop
  | .join _ _ _ metadataRevision documents _ =>
      Safe metadataRevision ∧ documents ≠ [] ∧
        ((arrivingRevisions documents).map Prod.fst).Nodup ∧
        ∀ document ∈ documents, document.1 ≠ [] ∧ Safe document.2
  | .pushChanges _ clientID _ baseVersion changes =>
      arriving clientID = own ∧ Safe baseVersion ∧ changes.WellFormed ∧
        ∀ sect ∈ changes.sections, Safe sect.oldLen
  | .metadata _ clientID baseVersion _ => arriving clientID = own ∧ Safe baseVersion
  | .presence _ revision anchor head => Safe revision ∧ Safe anchor ∧ Safe head
  | .rename _ | .layout _ | .watchOnly _ => True

/-- The message is taken for what it was meant to be. -/
def Understood (own : String) (generator : Nat → Option String) (wire : LiveWireMessage) :
    LiveMessage → Prop
  | .join sessionID connectionID clientID metadataRevision documents preferredName =>
      let identity : JoinIdentity := {
        participantCredential := arriving sessionID, connectionID := arriving connectionID
        clientID := arriving clientID, preferredName := arriving preferredName
        preferredNameSet := decide (preferredName ≠ []) }
      wire.type = "join" ∧ wire.liveJoinIdentity = identity.validate.map (fun _ => identity) ∧
        ∃ known, wire.knownLiveRevisions = some ⟨metadataRevision, known⟩ ∧
          ∀ documentID, known.lookup documentID = (arrivingRevisions documents).lookup documentID
  | .pushChanges operationID clientID documentID baseVersion changes =>
      wire.request own generator = .ok (some (.submitDocument {
        operationID := arriving operationID, clientID := arriving clientID
        documentID := arriving documentID, baseVersion, changes := arrivingSet changes }))
  | .metadata operationID clientID baseVersion fields =>
      wire.request own generator = .ok (some (.applyMetadata
        (fields.operation (arriving operationID) (arriving clientID) baseVersion) generator))
  | .presence documentID revision anchor head =>
      wire.request own generator = .ok (some (.updatePresence {
        currentTab := arriving documentID, documentID := arriving documentID, revision, anchor
        head }))
  | .rename nickname => wire.request own generator = .ok (some (.rename (arriving nickname)))
  | .layout preset => wire.request own generator = .ok (some (.setLayoutPreset (arriving preset)))
  | .watchOnly enabled => wire.request own generator = .ok (some (.setWatchOnly enabled))

instance (own : String) : DecidablePred (Sendable own)
  | .join _ _ _ _ _ _ | .pushChanges _ _ _ _ _ | .metadata _ _ _ _ | .presence _ _ _ _ =>
      inferInstanceAs (Decidable (_ ∧ _))
  | .rename _ | .layout _ | .watchOnly _ => inferInstanceAs (Decidable True)

end LiveMessage

/-! ## The way to the server -/

@[simp] theorem json_jsString (value : String) : (jsString value).json = .str value := by
  simp [jsString, JsValue.json, utf16Units]

@[simp] theorem json_string (value : List UInt16) :
    (JsValue.string value).json = .str (arriving value) := rfl

theorem decodeInt_num {old value : Int} (safe : Safe value) :
    decodeInt old (.num value) = some value := by
  have bound : Browser.maxSafeInteger < 2 ^ 63 := by decide
  exact if_pos ⟨by have := safe.1; omega, lt_of_le_of_lt safe.2 bound⟩

theorem fieldNamed_live {name : String} (known : name ∈ liveWireFields) :
    fieldNamed liveWireFields name = some name := by
  revert name
  decide +kernel

theorem decodeElements_map {α : Type} {element : α → Json → Option α} {zero : α} (json : α → Json)
    (values : List α) (reads : ∀ value ∈ values, element zero (json value) = some value) :
    decodeElements element zero [] (values.map json) = some values := by
  induction values with
  | nil => rfl
  | cons value values induction =>
      have rest := induction fun other member => reads other (.tail _ member)
      have first := reads value List.mem_cons_self
      simp only [List.map_cons, decodeElements, List.headD_nil, List.tail_nil, first, rest]
      rfl

theorem decodeDocumentRevision_object {documentID : String} {revision : Int}
    (safe : Safe revision) :
    decodeDocumentRevision ("", 0)
      (.obj [("document_id", .str documentID), ("revision", .num revision)]) =
        some (documentID, revision) := by
  have field (name : String) (known : name ∈ ["document_id", "revision"]) :
      fieldNamed ["document_id", "revision"] name = some name := by
    revert name
    decide
  simp [decodeDocumentRevision, decodeStruct, field, decodeString, decodeInt_num safe]

/-- Decode the members of an object into a message. -/
def decodeMembers (message : LiveWireMessage) (members : List (String × Json)) :
    Option LiveWireMessage :=
  decodeStruct liveWireFields LiveWireMessage.assign true message (.obj members)

theorem decodeMembers_cons {message next : LiveWireMessage} {name : String} {value : Json}
    {members : List (String × Json)}
    (assigned : LiveWireMessage.assign name value message = some next)
    (known : name ∈ liveWireFields := by decide) :
    decodeMembers message ((name, value) :: members) = decodeMembers next members := by
  simp only [decodeMembers, decodeStruct, List.foldlM_cons, fieldNamed_live known, assigned]
  rfl

theorem decodeMembers_read {β : Type} {message : LiveWireMessage} {name : String} {value : Json}
    {read : Option β} {result : β} {build : β → LiveWireMessage} {members : List (String × Json)}
    (assigned : LiveWireMessage.assign name value message = read.map build)
    (reads : read = some result) (known : name ∈ liveWireFields := by decide) :
    decodeMembers message ((name, value) :: members) = decodeMembers (build result) members := by
  rw [reads] at assigned
  exact decodeMembers_cons assigned known

theorem json_order (order : List (List UInt16)) :
    (JsValue.array (order.map .string)).json = .arr ((order.map arriving).map .str) := by
  rw [JsValue.json, Browser.jsonValues_eq, List.map_map, List.map_map]
  rfl

theorem json_revisions (documents : List (List UInt16 × Int)) :
    (JsValue.array (documents.map fun (documentID, revision) =>
      .object [("document_id", .string documentID), ("revision", .number revision)])).json =
      .arr ((arrivingRevisions documents).map fun document =>
        .obj [("document_id", .str document.1), ("revision", .num document.2)]) := by
  rw [JsValue.json, Browser.jsonValues_eq, arrivingRevisions, List.map_map, List.map_map]
  rfl

/-- An envelope is decoded from the object that was sent. -/
theorem decodeStruct_value {own : String} {message : LiveMessage}
    (sendable : message.Sendable own) :
    decodeStruct liveWireFields LiveWireMessage.assign true (.blank "") message.value.json =
      some message.wire := by
  cases message with
  | join sessionID connectionID clientID metadataRevision documents preferredName =>
      obtain ⟨safe, _, _, each⟩ := sendable
      have tail (start : LiveWireMessage) (fresh : start.documentRevisions = []) :
          decodeMembers start [("metadata_revision", .num metadataRevision),
            ("document_revisions", .arr ((arrivingRevisions documents).map fun document =>
              .obj [("document_id", .str document.1), ("revision", .num document.2)]))] =
            some { start with
              metadataRevision, documentRevisions := arrivingRevisions documents } := by
        have revisions : decodeElements decodeDocumentRevision ("", 0) start.documentRevisions
            ((arrivingRevisions documents).map fun document =>
              .obj [("document_id", .str document.1), ("revision", .num document.2)]) =
            some (arrivingRevisions documents) := by
          rw [fresh]
          refine decodeElements_map _ _ fun document member => ?_
          obtain ⟨original, listed, rfl⟩ := List.mem_map.mp member
          exact decodeDocumentRevision_object (each original listed).2
        exact (decodeMembers_read rfl (decodeInt_num safe)).trans <|
          (decodeMembers_read rfl revisions).trans rfl
      simp only [LiveMessage.value]
      by_cases unnamed : preferredName = []
      · simp only [if_pos unnamed, List.cons_append, List.nil_append, LiveMessage.wire]
        rw [JsValue.json]
        simp only [Browser.jsonMembers, json_jsString, json_string, json_revisions]
        exact (decodeMembers_cons rfl).trans <|
          (decodeMembers_cons rfl).trans <|
          (decodeMembers_cons rfl).trans <|
          (decodeMembers_cons rfl).trans (tail _ rfl)
      · simp only [if_neg unnamed, List.cons_append, List.nil_append, LiveMessage.wire]
        rw [JsValue.json]
        simp only [Browser.jsonMembers, json_jsString, json_string, json_revisions]
        exact (decodeMembers_cons rfl).trans <|
          (decodeMembers_cons rfl).trans <|
          (decodeMembers_cons rfl).trans <|
          (decodeMembers_cons rfl).trans <|
          (decodeMembers_cons rfl).trans (tail _ rfl)
  | pushChanges operationID clientID documentID baseVersion changes =>
      simp only [LiveMessage.value, JsValue.json, Browser.jsonMembers, json_jsString]
      exact (decodeMembers_cons rfl).trans <|
        (decodeMembers_cons rfl).trans <|
        (decodeMembers_cons rfl).trans <|
        (decodeMembers_cons rfl).trans <|
        (decodeMembers_read rfl (decodeInt_num sendable.2.1)).trans <|
        (decodeMembers_cons rfl).trans rfl
  | metadata operationID clientID baseVersion fields =>
      have head {next : LiveWireMessage} (rest : decodeMembers
          { LiveWireMessage.blank fields.type with
            operationID := arriving operationID, clientID := some (arriving clientID)
            baseVersion }
          (Browser.jsonMembers fields.properties) = some next) :
          decodeStruct liveWireFields LiveWireMessage.assign true (.blank "")
            (LiveMessage.metadata operationID clientID baseVersion fields).value.json =
              some next := by
        simp only [LiveMessage.value, JsValue.json, List.cons_append, List.nil_append,
          Browser.jsonMembers, json_jsString]
        exact (decodeMembers_cons rfl).trans <|
          (decodeMembers_cons rfl).trans <|
          (decodeMembers_cons rfl).trans <|
          (decodeMembers_read rfl (decodeInt_num sendable.2)).trans rest
      apply head
      cases fields with
      | create name language content =>
          exact (decodeMembers_cons rfl).trans <|
            (decodeMembers_cons rfl).trans <|
            (decodeMembers_cons rfl).trans rfl
      | update documentID name language =>
          exact (decodeMembers_cons rfl).trans <|
            (decodeMembers_cons rfl).trans <|
            (decodeMembers_cons rfl).trans rfl
      | delete documentID => exact (decodeMembers_cons rfl).trans rfl
      | reorder order =>
          have elements : decodeElements decodeString "" [] ((order.map arriving).map .str) =
              some (order.map arriving) := decodeElements_map _ _ fun _ _ => rfl
          simp only [MetadataRequest.properties, Browser.jsonMembers, json_order]
          exact (decodeMembers_read rfl elements).trans rfl
  | presence documentID revision anchor head =>
      obtain ⟨first, second, third⟩ := sendable
      simp only [LiveMessage.value, JsValue.json, Browser.jsonMembers, json_jsString]
      exact (decodeMembers_cons rfl).trans <|
        (decodeMembers_cons rfl).trans <|
        (decodeMembers_cons rfl).trans <|
        (decodeMembers_read rfl (decodeInt_num first)).trans <|
        (decodeMembers_read rfl (decodeInt_num second)).trans <|
        (decodeMembers_read rfl (decodeInt_num third)).trans rfl
  | rename nickname =>
      simp only [LiveMessage.value, JsValue.json, Browser.jsonMembers, json_jsString]
      exact (decodeMembers_cons rfl).trans <|
        (decodeMembers_cons rfl).trans rfl
  | layout preset =>
      simp only [LiveMessage.value, JsValue.json, Browser.jsonMembers, json_jsString]
      exact (decodeMembers_cons rfl).trans <|
        (decodeMembers_cons rfl).trans rfl
  | watchOnly enabled =>
      simp only [LiveMessage.value, JsValue.json, Browser.jsonMembers, json_jsString]
      exact (decodeMembers_cons rfl).trans <|
        (decodeMembers_cons rfl).trans rfl

theorem writable_value (message : LiveMessage) : message.value.Writable 3 := by
  cases message with
  | join sessionID connectionID clientID metadataRevision documents preferredName =>
      have revisions : (JsValue.array (documents.map fun (documentID, revision) =>
          .object [("document_id", .string documentID), ("revision", .number revision)])).Writable
          2 := by
        intro entry present
        obtain ⟨_, _, rfl⟩ := List.mem_map.mp present
        simp [JsValue.Writable]
      intro member present
      simp only [List.mem_append, List.mem_cons, List.not_mem_nil, or_false] at present
      rcases present with ((rfl | rfl | rfl | rfl) | named) | rfl | rfl
      · trivial
      · trivial
      · trivial
      · trivial
      · split at named
        · cases named
        · cases List.mem_singleton.mp named
          trivial
      · trivial
      · exact revisions
  | pushChanges operationID clientID documentID baseVersion changes =>
      have sections : (toJSON changes).Writable 2 := by
        intro part present
        obtain ⟨sect, _, rfl⟩ := List.mem_map.mp present
        split
        · trivial
        · split <;> simp [JsValue.Writable]
      simpa [LiveMessage.value, jsString, JsValue.Writable] using sections
  | metadata operationID clientID baseVersion fields =>
      cases fields <;>
        simp [LiveMessage.value, MetadataRequest.properties, jsString, JsValue.Writable]
  | _ => simp [LiveMessage.value, jsString, JsValue.Writable]

theorem type_wire (message : LiveMessage) : message.wire.type ∈ liveWireTypes := by
  cases message with
  | metadata operationID clientID baseVersion fields =>
      cases fields <;>
        simp [LiveMessage.wire, LiveWireMessage.blank, MetadataRequest.type, liveWireTypes]
  | _ => simp [LiveMessage.wire, LiveWireMessage.blank, liveWireTypes]

/-- The envelope that is decoded from what was sent. -/
theorem decode_stringify {own : String} {message : LiveMessage} (sendable : message.Sendable own) :
    decodeLiveWireMessage (stringify message.value) = .ok message.wire := by
  have parsed := Browser.parse_stringify ((writable_value message).mono (by decide))
  have known := type_wire message
  have typed : message.wire.type ≠ "" := ne_of_mem_of_not_mem known (by decide)
  simp only [decodeLiveWireMessage, parsed, Option.bind_some, decodeStruct_value sendable,
    if_neg typed, if_pos known]

/-! ## Changes -/

/-- A line feed stands for itself, whatever surrounds it. -/
theorem decode_feed (front back : List UInt16) :
    decode (front ++ CodeMirror.lineFeed :: back) = decode front ++ '\n' :: decode back := by
  have feed (back : List UInt16) :
      decode (CodeMirror.lineFeed :: back) = '\n' :: decode back := by
    cases back <;> rfl
  fun_induction decode front with
  | case1 => exact feed back
  | case2 unit plain => rw [List.singleton_append, decode, if_pos plain, feed]; rfl
  | case3 unit surrogate =>
      have apart : ¬(unit.toNat < 0xDC00 ∧ 0xDC00 ≤ CodeMirror.lineFeed.toNat ∧
          CodeMirror.lineFeed.toNat < 0xE000) := by
        rintro ⟨_, low, _⟩
        exact absurd low (by decide)
      rw [List.singleton_append, decode, if_neg surrogate, if_neg apart, feed]
      rfl
  | case4 unit next units plain induction =>
      rw [List.cons_append, List.cons_append, decode, if_pos plain, ← List.cons_append, induction]
      rfl
  | case5 unit next units surrogate pair induction =>
      rw [List.cons_append, List.cons_append, decode, if_neg surrogate, if_pos pair, induction]
      rfl
  | case6 unit next units surrogate alone induction =>
      rw [List.cons_append, List.cons_append, decode, if_neg surrogate, if_neg alone,
        ← List.cons_append, induction]
      rfl

theorem joinLines_arriving (lines : List (List UInt16)) :
    joinLines (lines.map arriving) = arriving (CodeMirror.joinLines lines) := by
  have decoded : List.intercalate ['\n'] (lines.map decode) =
      decode (CodeMirror.joinLines lines) := by
    fun_induction CodeMirror.joinLines lines with
    | case1 => rfl
    | case2 line => exact List.intercalate_singleton
    | case3 line next lines induction =>
        rw [decode_feed, ← induction, List.map_cons, List.map_cons, List.intercalate_cons_cons,
          List.append_assoc]
        rfl
  have texts : (lines.map arriving).map String.toList = lines.map decode := by
    rw [List.map_map]
    exact List.map_congr_left fun line _ => String.toList_ofList
  rw [joinLines, texts, decoded]
  rfl

/-- The text of an inserted string has its length. -/
theorem utf16Len_arriving (value : List UInt16) : utf16Len (arriving value) = value.length := by
  rw [utf16Len, utf16Units, arriving, String.toList_ofList]
  exact congrArg Int.ofNat (length_mend value)

/-- One section, as it arrives. -/
def sectionJson (sect : CodeMirror.Section UInt16) : Json :=
  if sect.newLen < 0 then .num sect.oldLen
  else if sect.newLen = 0 then .arr [.num sect.oldLen]
  else .arr (.num sect.oldLen :: ((splitFeeds sect.insert).map arriving).map .str)

theorem json_toJSON (set : CodeMirror.ChangeSet UInt16) :
    (toJSON set).json = .arr (set.sections.map sectionJson) := by
  rw [toJSON, JsValue.json, Browser.jsonValues_eq, List.map_map]
  congr 1
  refine List.map_congr_left fun sect _ => ?_
  have lines : (JsValue.array (.number sect.oldLen ::
      (splitFeeds sect.insert).map .string)).json =
      .arr (.num sect.oldLen :: ((splitFeeds sect.insert).map arriving).map .str) := by
    rw [JsValue.json, Browser.jsonValues_eq, List.map_cons, List.map_map, List.map_map]
    rfl
  rw [Function.comp_apply, sectionJson]
  split
  · rfl
  · split
    · rfl
    · exact lines

theorem parseSection_sectionJson (index : Nat) {sect : CodeMirror.Section UInt16}
    (proper : sect.Proper) (safe : Safe sect.oldLen) :
    parseSection index (sectionJson sect) =
      .ok [⟨sect.oldLen, sect.newLen, if sect.newLen < 0 then "" else arriving sect.insert⟩] := by
  have length := parseNonNegativeInt_num safe.1 (lt_of_le_of_lt safe.2 (by decide))
  rcases proper with ⟨unchanged, positive⟩ | ⟨_, changed⟩
  · rw [sectionJson, unchanged, if_pos (by decide), if_pos (by decide)]
    simp only [parseSection, length, if_pos positive]
  · have kept : ¬sect.newLen < 0 := by omega
    rw [sectionJson, if_neg kept, if_neg kept]
    split
    case isTrue empty =>
      have nothing : sect.insert = [] :=
        List.length_eq_zero_iff.mp (by rw [changed] at empty; exact_mod_cast empty)
      simp only [parseSection, length, parseLines, Except.map, nothing, empty]
      rfl
    case isFalse =>
      simp only [parseSection, length, parseLines_str, Except.map, joinLines_arriving,
        CodeMirror.joinLines_splitFeeds, utf16Len_arriving, changed]

/-- The server reads the change set that the editor has written. -/
theorem parseChangeSetJSON_toJSON {set : CodeMirror.ChangeSet UInt16} (formed : set.WellFormed)
    (safe : ∀ sect ∈ set.sections, Safe sect.oldLen) :
    parseChangeSetJSON (toJSON set).json = .ok (arrivingSet set) := by
  obtain ⟨sections⟩ := set
  have parsed (index : Nat) : parseSections index (sections.map sectionJson) =
      .ok (arrivingSet ⟨sections⟩).sections := by
    induction sections generalizing index with
    | nil => rfl
    | cons sect sections induction =>
        have first := parseSection_sectionJson index (formed sect List.mem_cons_self)
          (safe sect List.mem_cons_self)
        have rest := induction (fun other member => formed other (.tail _ member))
          (fun other member => safe other (.tail _ member))
        rw [List.map_cons, parseSections, first]
        simp only [rest, Except.map]
        rfl
  simp only [json_toJSON, parseChangeSetJSON, parsed, Except.map]

/-! ## Joining -/

/-- The revisions that a message names, after those that were entered before. -/
theorem foldlM_known (documents : List (String × Int)) (known : Keyed Int)
    (distinct : (documents.map Prod.fst).Nodup)
    (each : ∀ document ∈ documents, document.1 ≠ "" ∧ Safe document.2)
    (new : ∀ document ∈ documents, document.1 ∉ known) :
    ∃ known', documents.foldlM (fun (known : Keyed Int) (documentID, revision) =>
        if documentID = "" ∨ revision < 0 then none
        else if documentID ∈ known then none
        else some (known.insert documentID revision)) known = some known' ∧
      ∀ documentID, known'.lookup documentID =
        (documents.lookup documentID).or (known.lookup documentID) := by
  induction documents generalizing known with
  | nil => exact ⟨known, rfl, fun _ => rfl⟩
  | cons document documents induction =>
      obtain ⟨id, revision⟩ := document
      obtain ⟨named, counted⟩ := each (id, revision) List.mem_cons_self
      have fresh := new (id, revision) List.mem_cons_self
      rw [List.map_cons, List.nodup_cons] at distinct
      obtain ⟨known', folded, lookup⟩ := induction (known.insert id revision) distinct.2
        (fun other member => each other (.tail _ member)) fun other member present => by
          rcases (AList.mem_insert _).mp present with same | present
          · exact distinct.1 (List.mem_map.mpr ⟨other, member, same⟩)
          · exact new other (.tail _ member) present
      refine ⟨known', ?_, fun documentID => ?_⟩
      · rw [List.foldlM_cons]
        have invalid : ¬(id = "" ∨ revision < 0) :=
          not_or.mpr ⟨named, not_lt.mpr counted.1⟩
        simp only [if_neg invalid, if_neg fresh]
        exact folded
      · rw [lookup, List.lookup_cons]
        by_cases same : documentID = id
        · have missing : documents.lookup id = none :=
            List.lookup_eq_none_iff.mpr fun other member => bne_iff_ne.mpr fun same =>
              distinct.1 (List.mem_map.mpr ⟨other, member, same.symm⟩)
          rw [same, missing, AList.lookup_insert, beq_self_eq_true]
          rfl
        · rw [AList.lookup_insert_ne same, beq_eq_false_iff_ne.mpr same]

/-- The revisions of a message that names some documents, each once. -/
theorem LiveWireMessage.knownLiveRevisions_named {wire : LiveWireMessage}
    (counted : 0 ≤ wire.metadataRevision) (listed : wire.documentRevisions ≠ [])
    (distinct : (wire.documentRevisions.map Prod.fst).Nodup)
    (each : ∀ document ∈ wire.documentRevisions, document.1 ≠ "" ∧ Safe document.2) :
    ∃ known, wire.knownLiveRevisions = some ⟨wire.metadataRevision, known⟩ ∧
      ∀ documentID, known.lookup documentID = wire.documentRevisions.lookup documentID := by
  obtain ⟨known, folded, lookup⟩ := foldlM_known wire.documentRevisions ∅ distinct each
    fun _ _ present => AList.notMem_empty _ present
  have valid : ¬(wire.metadataRevision < 0 ∨ wire.documentRevisions.length = 0) :=
    not_or.mpr ⟨not_lt.mpr counted, fun empty => listed (List.length_eq_zero_iff.mp empty)⟩
  refine ⟨known, ?_, fun documentID => ?_⟩
  · rw [knownLiveRevisions, if_neg valid, folded]
    rfl
  · rw [lookup, AList.lookup_empty, Option.or_none]

theorem arriving_ne_empty {value : List UInt16} (nonempty : value ≠ []) : arriving value ≠ "" := by
  intro empty
  have length := utf16Len_arriving value
  rw [empty, utf16Len_empty] at length
  exact nonempty (List.length_eq_zero_iff.mp (by exact_mod_cast length.symm))

theorem understood_wire {own : String} {message : LiveMessage} (sendable : message.Sendable own)
    (generator : Nat → Option String) : message.Understood own generator message.wire := by
  cases message with
  | join sessionID connectionID clientID metadataRevision documents preferredName =>
      obtain ⟨safe, listed, distinct, each⟩ := sendable
      have named : ∀ document ∈ arrivingRevisions documents, document.1 ≠ "" ∧ Safe document.2 := by
        intro document member
        obtain ⟨original, present, rfl⟩ := List.mem_map.mp member
        exact ⟨arriving_ne_empty (each original present).1, (each original present).2⟩
      refine ⟨rfl, ?_, LiveWireMessage.knownLiveRevisions_named safe.1
        (fun empty => listed (List.map_eq_nil_iff.mp empty)) distinct named⟩
      have name : (if preferredName = [] then none
          else some (arriving preferredName)).getD "" = arriving preferredName := by
        split
        case isTrue unnamed => rw [unnamed]; rfl
        case isFalse => rfl
      have set : (if preferredName = [] then none
          else some (arriving preferredName)).isSome = decide (preferredName ≠ []) := by
        split
        case isTrue unnamed => rw [unnamed]; rfl
        case isFalse named => exact (decide_eq_true named).symm
      simp only [LiveMessage.wire, LiveWireMessage.blank, LiveWireMessage.liveJoinIdentity, name,
        set]
      generalize JoinIdentity.validate _ = outcome
      cases outcome <;> rfl
  | pushChanges operationID clientID documentID baseVersion changes =>
      obtain ⟨rfl, _, formed, safe⟩ := sendable
      have parsed := parseChangeSetJSON_toJSON formed safe
      simp [LiveMessage.Understood, LiveWireMessage.request, LiveMessage.wire,
        LiveWireMessage.blank, parsed]
  | metadata operationID clientID baseVersion fields =>
      obtain ⟨rfl, _⟩ := sendable
      cases fields <;>
        simp [LiveMessage.Understood, LiveWireMessage.request, LiveMessage.wire,
          LiveWireMessage.blank, MetadataRequest.operation, MetadataRequest.type]
  | _ =>
      simp [LiveMessage.Understood, LiveWireMessage.request, LiveMessage.wire,
        LiveWireMessage.blank]

/-- What a browser sends to the server is taken for what it was meant to be. -/
theorem messages_arrive {own : String} {message : LiveMessage} (sendable : message.Sendable own)
    (generator : Nat → Option String) :
    ∃ wire, decodeLiveWireMessage (stringify message.value) = .ok wire ∧
      message.Understood own generator wire :=
  ⟨message.wire, decode_stringify sendable, understood_wire sendable generator⟩

/-- A browser joins with a document, replaces a letter by two lines, one of which ends in half of a
surrogate pair, and renames the document. -/
def smallMessages : List LiveMessage :=
  [.join [115] [112] [97] 2 [([109], 3)] [65],
    .pushChanges [111] [97] [109] 3 ⟨[⟨1, -1, []⟩, ⟨1, 4, [120, 0xD83D, 10, 121]⟩]⟩,
    .metadata [113] [97] 2 (.update [109] [110] [116])]

theorem messages_arrive_small :
    (∀ message ∈ smallMessages, ∃ wire, decodeLiveWireMessage (stringify message.value) = .ok wire ∧
      message.Understood "a" (fun _ => none) wire) ∧
    arrivingSet ⟨[⟨1, -1, []⟩, ⟨1, 4, [120, 0xD83D, 10, 121]⟩]⟩ =
      ⟨[⟨1, -1, ""⟩, ⟨1, 4, "x\uFFFD\ny"⟩]⟩ := by
  have sendable : ∀ message ∈ smallMessages, message.Sendable "a" := by decide +kernel
  exact ⟨fun message member => messages_arrive (sendable message member) fun _ => none,
    by decide +kernel⟩

end Oxbin.Httpapi
