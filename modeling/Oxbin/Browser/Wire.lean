import Oxbin.Data.Json
import Oxbin.Live.Room

/-!
# Events in the browser

`live-wire.ts`: what a browser reads from the JSON of an event.  A member of an object that is
missing is `undefined`; an array has none of the members that are asked for.
-/

namespace Oxbin.Browser

open Live (ParticipantStatus ParticipantAccessClass)

/-- `LiveCursor`. -/
structure LiveCursor where
  documentID : String
  revision : Int
  anchor : Int
  head : Int
  deriving DecidableEq, Repr

/-- `LiveConnectionCursor`. -/
structure LiveConnectionCursor extends LiveCursor where
  connectionID : String
  deriving DecidableEq, Repr

/-- `LiveParticipant`. -/
structure LiveParticipant where
  id : String
  nickname : String
  accessClass : ParticipantAccessClass
  canEdit : Bool
  connectionCount : Int
  joinedAt : String
  color : String
  currentTab : String
  cursor : Option LiveCursor
  cursors : List LiveConnectionCursor
  status : ParticipantStatus
  lastSeenAt : String
  deriving DecidableEq, Repr

/-- `LiveDocumentRevision`. -/
structure LiveDocumentRevision where
  documentID : String
  revision : Int
  deriving DecidableEq, Repr

/-- `LiveRoomDocument`. -/
structure LiveRoomDocument where
  id : String
  name : String
  language : String
  content : String
  revision : Int
  position : Int
  deriving DecidableEq, Repr

/-- `LiveLayoutPreset`. -/
inductive LiveLayoutPreset where
  | single
  | columns
  | rows
  | three
  | grid
  deriving DecidableEq, Repr

/-- The status of a status event. -/
inductive LiveStatus where
  | httpResyncRequired
  | rateLimited
  | synchronized
  | expired
  deriving DecidableEq, Repr

/-- `LiveWireEvent`. -/
inductive LiveWireEvent where
  | joined (expiresAt : String) (metadataRevision : Int)
      (documentRevisions : List LiveDocumentRevision) (participants : List LiveParticipant)
      (participant : LiveParticipant) (reconnected creator watchOnly : Bool)
      (layoutPreset : LiveLayoutPreset)
  | changes (operationID clientID documentID : String) (baseVersion revision : Int)
      (changes : Json)
  | documentCreated (operationID clientID : String) (metadataRevision : Int)
      (document : LiveRoomDocument)
  | documentUpdated (operationID clientID documentID : String) (metadataRevision : Int)
      (name language : String)
  | documentDeleted (operationID clientID documentID : String) (metadataRevision : Int)
  | documentReordered (operationID clientID : String) (metadataRevision : Int)
      (order : List String)
  | presenceJoined (participant : LiveParticipant)
  | presenceUpdated (participant : LiveParticipant)
  | participantRenamed (participant : LiveParticipant)
  | presenceLeft (participantID : String) (participant : Option LiveParticipant)
  | roomModeChanged (watchOnly : Bool) (participants : List LiveParticipant)
  | roomLayoutChanged (layoutPreset : LiveLayoutPreset)
  | participantRemoved (participantID : String)
  | status (status : LiveStatus)
  | error (code message : String) (operationID status : Option String)

/-! ## Values -/

/-- `Number.MAX_SAFE_INTEGER`. -/
def maxSafeInteger : Int := 2 ^ 53 - 1

/-- A number that a browser takes for an integer. -/
def Safe (value : Int) : Prop := 0 ≤ value ∧ value ≤ maxSafeInteger

instance : DecidablePred Safe := fun _ => inferInstanceAs (Decidable (_ ∧ _))

/-- `typeof value === "string"`. -/
def string : Option Json → Option String
  | some (.str value) => some value
  | _ => none

theorem mapM_string (values : List String) :
    values.mapM ((fun value => string (some value)) ∘ Json.str) = some values := by
  induction values with
  | nil => rfl
  | cons value values induction =>
      rw [List.mapM_cons, induction]
      rfl

/-- `typeof value === "boolean"`. -/
def boolean : Option Json → Option Bool
  | some (.bool value) => some value
  | _ => none

/-- `array`. -/
def array : Option Json → Option (List Json)
  | some (.arr values) => some values
  | _ => none

/-- `nonnegativeInteger`. -/
def nonnegativeInteger : Option Json → Option Int
  | some (.num value) => if 0 ≤ value ∧ value ≤ maxSafeInteger then some value else none
  | _ => none

/-- The value of two digits. -/
def twoDigits (tens ones : Char) : Nat := 10 * (tens.toNat - '0'.toNat) + (ones.toNat - '0'.toNat)

/-- The milliseconds of the rest of a time of day, cut off after the third digit. -/
def milliseconds : List Char → Option (List Char)
  | ['Z'] => some ['0', '0', '0']
  | '.' :: rest =>
      if rest.getLast? = some 'Z' ∧ rest.dropLast ≠ [] ∧ rest.dropLast.all Char.isDigit then
        some ((rest.dropLast ++ ['0', '0']).take 3)
      else none
  | _ => none

/-- `new Date(value).toISOString()` for a date and a time in UTC. -/
def isoString (value : String) : Option String :=
  match value.toList with
  | y₁ :: y₂ :: y₃ :: y₄ :: '-' :: m₁ :: m₂ :: '-' :: d₁ :: d₂ :: 'T' :: h₁ :: h₂ :: ':' :: i₁ ::
      i₂ :: ':' :: s₁ :: s₂ :: rest =>
      let digits := [y₁, y₂, y₃, y₄, m₁, m₂, d₁, d₂, h₁, h₂, i₁, i₂, s₁, s₂]
      if digits.all Char.isDigit ∧ 1 ≤ twoDigits m₁ m₂ ∧ twoDigits m₁ m₂ ≤ 12 ∧
          1 ≤ twoDigits d₁ d₂ ∧ twoDigits d₁ d₂ ≤ 31 ∧ twoDigits h₁ h₂ ≤ 23 ∧
          twoDigits i₁ i₂ ≤ 59 ∧ twoDigits s₁ s₂ ≤ 59 then
        (milliseconds rest).map fun fraction =>
          String.ofList (value.toList.take 19 ++ '.' :: fraction ++ ['Z'])
      else none
  | _ => none

/-- `timestamp`. -/
def timestamp (value : Option Json) : Option String := (string value).bind isoString

/-- `isLiveLayoutPreset`. -/
def layoutPreset : Option Json → Option LiveLayoutPreset
  | some (.str "single") => some .single
  | some (.str "columns") => some .columns
  | some (.str "rows") => some .rows
  | some (.str "three") => some .three
  | some (.str "grid") => some .grid
  | _ => none

/-- `event.layout_preset ?? "single"`. -/
def layoutPresetOrSingle : Option Json → Option LiveLayoutPreset
  | none | some .null => some .single
  | value => layoutPreset value

/-- `isParticipantStatus`. -/
def participantStatus : Option Json → Option ParticipantStatus
  | some (.str "connected") => some .connected
  | some (.str "connection_lost") => some .connectionLost
  | some (.str "offline") => some .offline
  | _ => none

/-- `isParticipantAccessClass`. -/
def participantAccessClass : Option Json → Option ParticipantAccessClass
  | some (.str "creator") => some .creator
  | some (.str "collaborator") => some .collaborator
  | some (.str "viewer") => some .viewer
  | _ => none

/-- The statuses of a status event. -/
def liveStatus : Option Json → Option LiveStatus
  | some (.str "http_resync_required") => some .httpResyncRequired
  | some (.str "rate_limited") => some .rateLimited
  | some (.str "synchronized") => some .synchronized
  | some (.str "expired") => some .expired
  | _ => none

/-! ## Parts of events -/

/-- The loop of `decodeDocumentRevisions`. -/
def decodeRevisions (seen : List String) : List Json → Option (List LiveDocumentRevision)
  | [] => some []
  | document :: documents => do
      let documentID ← string (document.get? "document_id")
      let revision ← nonnegativeInteger (document.get? "revision")
      if documentID ∈ seen then none
      else
        let later ← decodeRevisions (documentID :: seen) documents
        some (⟨documentID, revision⟩ :: later)

/-- `decodeDocumentRevisions`. -/
def decodeDocumentRevisions (value : Option Json) : Option (List LiveDocumentRevision) :=
  (array value).bind (decodeRevisions [])

/-- `decodeDocument`. -/
def decodeDocument (value : Option Json) : Option LiveRoomDocument := do
  let document ← value
  let id ← string (document.get? "id")
  let name ← string (document.get? "name")
  let language ← string (document.get? "language")
  let content ← string (document.get? "content")
  let revision ← nonnegativeInteger (document.get? "revision")
  let position ← nonnegativeInteger (document.get? "position")
  some { id, name, language, content, revision, position }

/-- `decodeCursor`. -/
def decodeCursor (cursor : Json) : Option LiveCursor := do
  let documentID ← string (cursor.get? "document_id")
  let revision ← nonnegativeInteger (cursor.get? "revision")
  let anchor ← nonnegativeInteger (cursor.get? "anchor")
  let head ← nonnegativeInteger (cursor.get? "head")
  some { documentID, revision, anchor, head }

/-- `decodeConnectionCursor`. -/
def decodeConnectionCursor (cursor : Json) : Option LiveConnectionCursor := do
  let decoded ← decodeCursor cursor
  let connectionID ← string (cursor.get? "connection_id")
  some { decoded with connectionID }

/-- A member that may be missing. -/
def optional {α : Type} (decode : Json → Option α) : Option Json → Option (Option α)
  | none => some none
  | some value => (decode value).map some

/-- `decodeParticipant`. -/
def decodeParticipant (participant : Json) : Option LiveParticipant := do
  let id ← string (participant.get? "id")
  let nickname ← string (participant.get? "nickname")
  let color ← string (participant.get? "color")
  let currentTab ← string (participant.get? "current_tab")
  let status ← participantStatus (participant.get? "status")
  let accessClass ← participantAccessClass (participant.get? "access_class")
  let canEdit ← boolean (participant.get? "can_edit")
  let joinedAt ← timestamp (participant.get? "joined_at")
  let lastSeenAt ← timestamp (participant.get? "last_seen_at")
  let cursor ← optional decodeCursor (participant.get? "cursor")
  let cursors ← match participant.get? "cursors" with
    | none => some []
    | cursors => (array cursors).bind fun values => values.mapM decodeConnectionCursor
  let connectionCount ← nonnegativeInteger (participant.get? "connection_count")
  if status = .connected then guard (1 ≤ connectionCount) else guard (connectionCount = 0)
  some { id, nickname, accessClass, canEdit, connectionCount, color, currentTab, joinedAt,
         lastSeenAt, cursor, cursors, status }

/-- The participants of an event. -/
def decodeParticipants (value : Option Json) : Option (List LiveParticipant) :=
  (array value).bind fun values => values.mapM decodeParticipant

/-! ## Events -/

/-- The authors of an operation. -/
def decodeAuthor (event : Json) : Option (String × String) := do
  let operationID ← string (event.get? "operation_id")
  let clientID ← string (event.get? "client_id")
  some (operationID, clientID)

/-- `decodeLiveWireEvent`. -/
def decodeLiveWireEvent (event : Json) : Option LiveWireEvent := do
  match ← string (event.get? "type") with
  | "joined" =>
      let expiresAt ← timestamp (event.get? "expires_at")
      let metadataRevision ← nonnegativeInteger (event.get? "metadata_revision")
      let documentRevisions ← decodeDocumentRevisions (event.get? "document_revisions")
      let participants ← decodeParticipants (event.get? "participants")
      let participant ← (event.get? "participant").bind decodeParticipant
      let reconnected ← boolean (event.get? "reconnected")
      let creator ← boolean (event.get? "creator")
      let watchOnly ← boolean (event.get? "watch_only")
      let layoutPreset ← layoutPresetOrSingle (event.get? "layout_preset")
      some (.joined expiresAt metadataRevision documentRevisions participants participant
        reconnected creator watchOnly layoutPreset)
  | "changes" =>
      let (operationID, clientID) ← decodeAuthor event
      let documentID ← string (event.get? "document_id")
      let baseVersion ← nonnegativeInteger (event.get? "base_version")
      let revision ← nonnegativeInteger (event.get? "revision")
      let changes ← event.get? "changes"
      some (.changes operationID clientID documentID baseVersion revision changes)
  | "document_created" =>
      let document ← decodeDocument (event.get? "document")
      let (operationID, clientID) ← decodeAuthor event
      let metadataRevision ← nonnegativeInteger (event.get? "metadata_revision")
      some (.documentCreated operationID clientID metadataRevision document)
  | "document_updated" =>
      let (operationID, clientID) ← decodeAuthor event
      let documentID ← string (event.get? "document_id")
      let name ← string (event.get? "name")
      let language ← string (event.get? "language")
      let metadataRevision ← nonnegativeInteger (event.get? "metadata_revision")
      some (.documentUpdated operationID clientID documentID metadataRevision name language)
  | "document_deleted" =>
      let (operationID, clientID) ← decodeAuthor event
      let documentID ← string (event.get? "document_id")
      let metadataRevision ← nonnegativeInteger (event.get? "metadata_revision")
      some (.documentDeleted operationID clientID documentID metadataRevision)
  | "document_reordered" =>
      let order ← array (event.get? "order")
      let (operationID, clientID) ← decodeAuthor event
      let metadataRevision ← nonnegativeInteger (event.get? "metadata_revision")
      let order ← order.mapM fun value => string (some value)
      some (.documentReordered operationID clientID metadataRevision order)
  | "presence_joined" =>
      ((event.get? "participant").bind decodeParticipant).map .presenceJoined
  | "presence_updated" =>
      ((event.get? "participant").bind decodeParticipant).map .presenceUpdated
  | "participant_renamed" =>
      ((event.get? "participant").bind decodeParticipant).map .participantRenamed
  | "presence_left" =>
      let participantID ← string (event.get? "participant_id")
      let participant ← optional decodeParticipant (event.get? "participant")
      some (.presenceLeft participantID participant)
  | "room_layout_changed" => (layoutPreset (event.get? "layout_preset")).map .roomLayoutChanged
  | "room_mode_changed" =>
      let participants ← decodeParticipants (event.get? "participants")
      let watchOnly ← boolean (event.get? "watch_only")
      some (.roomModeChanged watchOnly participants)
  | "participant_removed" => (string (event.get? "participant_id")).map .participantRemoved
  | "status" => (liveStatus (event.get? "status")).map .status
  | "error" =>
      let code ← string (event.get? "code")
      let message ← string (event.get? "message")
      some (.error code message (string (event.get? "operation_id"))
        (string (event.get? "status")))
  | _ => none

end Oxbin.Browser
