import Mathlib.Data.List.Sort
import Oxbin.Browser.Loading
import Oxbin.Browser.Tab
import Oxbin.Browser.Wire

/-!
# The workspace of a browser

What `live-room.tsx` keeps of a room, and how its handlers apply the events of the server.  The
panes, the participants and the texts for the user are left out; the resynchronisation controller
is idle.
-/

namespace Oxbin.Browser

open Livecollab

/-! ## Operations under way -/

inductive LiveOperationKind where
  | document
  | metadata
  deriving DecidableEq, Repr

/-- `LiveOperation`. -/
structure LiveOperation where
  id : String
  kind : LiveOperationKind
  generation : Int
  documentID : Option String
  recoveryText : String
  message : Json
  sentGeneration : Option Int
  terminal : Bool

/-- `LiveOperationTracker`. -/
abbrev LiveOperationTracker : Type := Keyed LiveOperation

namespace LiveOperationTracker

variable (tracker : LiveOperationTracker)

/-- `get`; an ID that is missing or empty finds nothing. -/
def get (id : Option String) : Option LiveOperation :=
  match id with
  | none | some "" => none
  | some id => tracker.lookup id

/-- `shouldSend`. -/
def shouldSend (id : String) (generation : Int) : Bool :=
  match tracker.lookup id with
  | none => false
  | some operation => !operation.terminal && operation.sentGeneration ≠ some generation

/-- `markSent`. -/
def markSent (id : String) (generation : Int) : LiveOperationTracker :=
  match tracker.lookup id with
  | none => tracker
  | some operation =>
      if operation.terminal then tracker
      else tracker.insert id { operation with sentGeneration := some generation }

/-- `settle`. -/
def settle (id : Option String) (generation : Int) : LiveOperationTracker :=
  match get tracker id with
  | none => tracker
  | some operation =>
      if generation < operation.generation then tracker else tracker.erase operation.id

/-- `reject`, with the operation that it returns. -/
def reject (id : Option String) (generation : Int) :
    LiveOperationTracker × Option LiveOperation :=
  match get tracker id with
  | none => (tracker, none)
  | some operation =>
      if generation < operation.generation then (tracker, none)
      else
        let rejected := { operation with terminal := true }
        (tracker.insert operation.id rejected, some rejected)

end LiveOperationTracker

/-- `LiveOperationErrorClass`. -/
inductive LiveOperationErrorClass where
  | retryable
  | resync
  | auth
  | overload
  | validation
  | terminal
  deriving DecidableEq, Repr

/-- `classifyLiveOperationError`. -/
def classifyLiveOperationError (code : String) (status : Option String) :
    LiveOperationErrorClass :=
  match status with
  | some "retryable" => .retryable
  | some "resync_required" => .resync
  | some "auth_required" => .auth
  | some "overloaded" => .overload
  | some "validation" => .validation
  | some "terminal" => .terminal
  | _ =>
      match code with
      | "service_unavailable" => .retryable
      | "resync_required" => .resync
      | "unauthorized" => .auth
      | "room_limit_reached" | "rate_limited" => .overload
      | "invalid_request" | "message_too_large" | "name_taken" => .validation
      | _ => .terminal

/-! ## The workspace -/

/-- The state that the handlers share.  `documents` is `documentsRef`, `rendered` what React shows,
and `editors` holds the editors with the texts of `syncedContentsRef`. -/
structure Workspace where
  clientID : String
  documents : List LiveRoomDocument
  rendered : List LiveRoomDocument
  editors : Keyed Tab
  metadataRevision : Int
  metadataOperation : String
  metadataBusy : Bool
  operations : LiveOperationTracker
  connectionGeneration : Int
  recovery : Option LiveOperation

variable [Editor]

/-- `makeLiveEditorState`, with the synchronised text. -/
def Tab.ofRoomDocument (document : LiveRoomDocument) : Tab where
  version := document.revision
  synced := utf16Units document.content
  text := Editor.create (utf16Units document.content)
  pending := []
  submission := .idle

/-- `normalizeLiveDocuments`. -/
def normalizeLiveDocuments (documents : List LiveRoomDocument) : List LiveRoomDocument :=
  documents.mergeSort fun left right => left.position ≤ right.position

namespace Workspace

/-- The workspace of a room that has just been fetched. -/
def mounted (clientID : String) (metadataRevision : Int) (documents : List LiveRoomDocument) :
    Workspace where
  clientID := clientID
  documents := normalizeLiveDocuments documents
  rendered := normalizeLiveDocuments documents
  editors := ∅
  metadataRevision := metadataRevision
  metadataOperation := ""
  metadataBusy := false
  operations := ∅
  connectionGeneration := 0
  recovery := none

/-- `getEditorState`. -/
def getEditorState (workspace : Workspace) (document : LiveRoomDocument) : Workspace × Tab :=
  match workspace.editors.lookup document.id with
  | some editor => (workspace, editor)
  | none =>
      let created := Tab.ofRoomDocument document
      ({ workspace with editors := workspace.editors.insert document.id created }, created)

/-- An operation is settled. -/
def settle (workspace : Workspace) (operationID : String) : Workspace :=
  { workspace with
    operations := LiveOperationTracker.settle workspace.operations (some operationID)
      workspace.connectionGeneration }

/-- The part of `applyDocumentEvent` for an event that the editor has received. -/
def receive (workspace : Workspace) (documentID : String) (revision : Int) (editor : Tab) :
    Workspace :=
  { workspace with
    editors := workspace.editors.insert documentID editor
    documents := workspace.documents.map fun candidate =>
      if candidate.id = documentID then
        { candidate with content := String.ofList (decode editor.text), revision }
      else candidate }

/-- `applyDocumentEvent`.  The flag is false if the browser needs a new snapshot; an error is an
exception of the editor. -/
def applyDocumentEvent (workspace : Workspace)
    (operationID clientID documentID : String) (baseVersion revision : Int) (changes : Json) :
    Except CollabError (Bool × Workspace) :=
  match Editor.fromJSON changes with
  | none => .ok (false, workspace)
  | some changes =>
      match workspace.documents.find? fun candidate => candidate.id == documentID with
      | none => .ok (true, workspace)
      | some document =>
          let (workspace, editor) := workspace.getEditorState document
          if revision ≤ editor.version then .ok (true, workspace.settle operationID)
          else
            match editor.applyDocumentEvent workspace.clientID {
              operationID, clientID, documentID, baseVersion, revision, changes
              document := "", duplicate := false } with
            | .error .gap => .ok (false, workspace)
            | .error (.changes error) => .error error
            | .ok editor =>
                .ok (true, (workspace.receive documentID revision editor).settle operationID)

/-- Number documents by their places. -/
def numbered (documents : List LiveRoomDocument) : List LiveRoomDocument :=
  documents.zipIdx.map fun entry => { entry.1 with position := entry.2 }

/-- The place that `new Map` keeps for an ID: the last one. -/
def placeOf (order : List String) (id : String) : Int :=
  order.length - 1 - order.reverse.idxOf id

/-- The `switch` of `applyMetadataEvent`. -/
def arrange (workspace : Workspace) : LiveWireEvent → Option Workspace
  | .documentCreated _ _ _ document =>
      if workspace.documents.any fun other => other.id == document.id then some workspace
      else some <| (getEditorState { workspace with
        documents := workspace.documents ++
          [{ document with position := workspace.documents.length }] } document).1
  | .documentUpdated _ _ documentID _ name language =>
      some { workspace with
        documents := workspace.documents.map fun document =>
          if document.id = documentID then { document with name, language } else document }
  | .documentDeleted _ _ documentID _ =>
      some { workspace with
        editors := workspace.editors.erase documentID
        documents := numbered (workspace.documents.filter fun document =>
          document.id ≠ documentID) }
  | .documentReordered _ _ _ order =>
      if order.eraseDups.length ≠ workspace.documents.length ∨
          ¬∀ document ∈ workspace.documents, document.id ∈ order then none
      else some { workspace with
        documents := (workspace.documents.map fun document =>
          { document with position := placeOf order document.id }).mergeSort
            fun left right => left.position ≤ right.position }
  | _ => some workspace

/-- The part of `applyMetadataEvent` after the `switch`. -/
def finish (workspace : Workspace) (operationID : String) (metadataRevision : Int) : Workspace :=
  let own := operationID = workspace.metadataOperation
  settle { workspace with
    rendered := workspace.documents
    metadataRevision
    metadataOperation := if own then "" else workspace.metadataOperation
    metadataBusy := if own then false else workspace.metadataBusy } operationID

/-- `applyMetadataEvent`. -/
def applyMetadataEvent (workspace : Workspace) (operationID : String) (metadataRevision : Int)
    (event : LiveWireEvent) : Bool × Workspace :=
  if metadataRevision < workspace.metadataRevision then (true, workspace.settle operationID)
  else if metadataRevision > workspace.metadataRevision + 1 then (false, workspace)
  else
    match workspace.arrange event with
    | none => (false, workspace)
    | some workspace => (true, workspace.finish operationID metadataRevision)

/-- `replayPendingMetadata`; `sent` says whether the message has been sent. -/
def replayPendingMetadata (workspace : Workspace) (sent : Bool) : Workspace :=
  match LiveOperationTracker.get workspace.operations (some workspace.metadataOperation) with
  | none => workspace
  | some operation =>
      if operation.kind = .metadata ∧ sent ∧ LiveOperationTracker.shouldSend workspace.operations
          operation.id workspace.connectionGeneration then
        { workspace with
          operations := LiveOperationTracker.markSent workspace.operations operation.id
            workspace.connectionGeneration }
      else workspace

/-- `recoverOperationError`. -/
def recoverOperationError (workspace : Workspace) (code : String)
    (operationID status : Option String) : Bool × Workspace :=
  let pending := LiveOperationTracker.get workspace.operations operationID
  let created := pending.bind fun operation =>
    if code = "room_limit_reached" ∧ operation.kind = .metadata ∧
        string (operation.message.get? "type") = some "document_create" then some operation
    else none
  match created with
  | some operation =>
      let own := operation.id = workspace.metadataOperation
      (false, { workspace with
        operations := workspace.operations.erase operation.id
        metadataOperation := if own then "" else workspace.metadataOperation
        metadataBusy := if own then false else workspace.metadataBusy })
  | none =>
      let category := classifyLiveOperationError code status
      if category = .retryable ∨ category = .resync then (false, workspace)
      else
        match LiveOperationTracker.reject workspace.operations operationID
            workspace.connectionGeneration with
        | (_, none) => (true, workspace)
        | (operations, some operation) =>
            (true, { workspace with
              operations
              recovery := some operation
              metadataOperation :=
                if operation.id = workspace.metadataOperation then ""
                else workspace.metadataOperation
              metadataBusy := false })

/-- `handleEvent`.  The flag is false if the browser fetches a new snapshot. -/
def handleEvent (workspace : Workspace) (sent : Bool) (event : LiveWireEvent) :
    Except CollabError (Bool × Workspace) :=
  match event with
  | .changes operationID clientID documentID baseVersion revision changes =>
      workspace.applyDocumentEvent operationID clientID documentID baseVersion revision changes
  | .documentCreated operationID _ metadataRevision _
  | .documentUpdated operationID _ _ metadataRevision _ _
  | .documentDeleted operationID _ _ metadataRevision
  | .documentReordered operationID _ metadataRevision _ =>
      .ok (workspace.applyMetadataEvent operationID metadataRevision event)
  | .joined _ _ _ _ _ _ _ _ _ =>
      let idle := (LiveOperationTracker.get workspace.operations
        (some workspace.metadataOperation)).isNone
      .ok (true, replayPendingMetadata { workspace with
        metadataBusy := if idle then false else workspace.metadataBusy
        connectionGeneration := workspace.connectionGeneration + 1 } sent)
  | .error code _ operationID status =>
      if code = "room_expired" ∨ status = some "expired" then
        .ok (true, { workspace with operations := ∅ })
      else .ok (workspace.recoverOperationError code operationID status)
  | .status .httpResyncRequired => .ok (false, workspace)
  | _ => .ok (true, workspace)

/-- `onMessage`, for the JSON of a message; what is no event only changes the status line. -/
def onMessage (workspace : Workspace) (sent : Bool) (data : Json) :
    Except CollabError (Bool × Workspace) :=
  match decodeLiveWireEvent data with
  | none => .ok (true, workspace)
  | some event => workspace.handleEvent sent event

/-- A React effect puts back the documents that were rendered last. -/
def rerender (workspace : Workspace) : Workspace :=
  { workspace with documents := workspace.rendered }

end Workspace

end Oxbin.Browser
