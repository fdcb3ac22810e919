import Oxbin.Data.Keyed
import Oxbin.Livecollab.Encoding

/-!
# The contract of the live hub

The data that the hub exchanges with its callers and with the store, from
`internal/live/hub_contract.go` and `internal/live/store.go`.  Instants are nanoseconds.
-/

namespace Oxbin.Live

open Livecollab

/-- An instant, in nanoseconds since 1970. -/
abbrev Time := Int

/-- `time.Time.Unix`. -/
def unix (time : Time) : Int := time / 1000000000

/-- `unixTime`: the instant of a stored second. -/
def unixTime (seconds : Int) : Time := seconds * 1000000000

/-- The zero `time.Time`, in the year 1. -/
def zeroTime : Time := -62135596800 * 1000000000

/-- The number of bytes of a string. -/
def byteLen (value : String) : Int := value.utf8ByteSize

/-- `HubOptions`; `MaxBytes` is an `int64` and the row and message limits are an `int`. -/
structure HubOptions where
  maxTabs : Int
  maxBytes : Int
  maxWriters : Int
  maxViewers : Int
  maxParticipants : Int
  maxConnectionsPerParticipant : Int
  maxMessageBytes : Int
  maxHistoryRows : Int
  maxHistoryBytes : Int
  reconnectGrace : Int
  heartbeatInterval : Int
  participantTimeout : Int
  maxBytes_small : maxBytes < intLimit := by decide
  maxHistoryRows_small : 2 * maxHistoryRows < intLimit := by decide
  deriving DecidableEq

/-- `DefaultHubOptions`. -/
def defaultHubOptions : HubOptions where
  maxTabs := 8
  maxBytes := 1048576
  maxWriters := 10
  maxViewers := 100
  maxParticipants := 110
  maxConnectionsPerParticipant := 8
  maxMessageBytes := 65536
  maxHistoryRows := 1000
  maxHistoryBytes := 4194304
  reconnectGrace := 30 * 1000000000
  heartbeatInterval := 20 * 1000000000
  participantTimeout := 60 * 1000000000

/-- Why `HubOptions.validate` refuses the options. -/
inductive OptionsError where
  | notPositive
  | incoherentLimits
  | messageExceedsContent
  | incoherentTiming
  deriving DecidableEq, Repr

/-- `HubOptions.validate`. -/
def HubOptions.validate (options : HubOptions) : Except OptionsError Unit :=
  if options.maxTabs < 1 ∨ options.maxBytes < 1 ∨ options.maxWriters < 1 ∨ options.maxViewers < 0 ∨
      options.maxParticipants < 1 ∨ options.maxConnectionsPerParticipant < 1 ∨
      options.maxMessageBytes < 1 ∨ options.maxHistoryRows < 1 ∨ options.maxHistoryBytes < 1 then
    .error .notPositive
  else if options.maxWriters + options.maxViewers ≠ options.maxParticipants then
    .error .incoherentLimits
  else if options.maxMessageBytes > options.maxBytes then .error .messageExceedsContent
  else if options.reconnectGrace ≤ 0 ∨ options.heartbeatInterval ≤ 0 ∨
      options.participantTimeout ≤ options.reconnectGrace ∨
      options.participantTimeout < 2 * options.heartbeatInterval then .error .incoherentTiming
  else .ok ()

/-- What the hub takes from hash functions and from the Unicode case tables. -/
class Host where
  /-- The hexadecimal SHA-256 digest of the text of a JSON value. -/
  fingerprint : Json → String
  /-- The digest that names the participant of a room with a credential. -/
  participantID : String → String → String
  /-- The colour of a participant. -/
  participantColor : String → String
  /-- The digest that binds a creator token to a room. -/
  creatorHash : List UInt8 → String → List UInt8
  /-- `strings.ToLower`. -/
  toLower : String → String

/-- A host for concrete runs: 64 digits of a checksum for a digest, and ASCII case. -/
abbrev sampleHost : Host where
  fingerprint json := String.ofList <| Nat.toDigits 10 <|
    10 ^ 63 + json.text.foldl (fun sum rune => sum * 31 + rune.toNat) 0 % 10 ^ 63
  participantID slug credential := "p-" ++ slug ++ "-" ++ credential
  participantColor _ := "#2563eb"
  creatorHash token slug := token ++ slug.toUTF8.toList
  toLower value := String.ofList (value.toList.map Char.toLower)

/-! ## Participants -/

/-- `ParticipantStatus`. -/
inductive ParticipantStatus where
  | connected
  | connectionLost
  | offline
  deriving DecidableEq, Repr

/-- `ParticipantAccessClass`. -/
inductive ParticipantAccessClass where
  | creator
  | collaborator
  | viewer
  deriving DecidableEq, Repr

/-- `CursorSelection`. -/
structure CursorSelection where
  documentID : String
  revision : Int
  anchor : Int
  head : Int
  deriving DecidableEq, Repr

/-- `ConnectionCursor`. -/
structure ConnectionCursor where
  connectionID : String
  selection : CursorSelection
  deriving DecidableEq, Repr

/-- `ParticipantSnapshot`. -/
structure ParticipantSnapshot where
  id : String
  nickname : String
  joinedAt : Time
  color : String
  currentTab : String
  cursor : Option CursorSelection
  cursors : List ConnectionCursor
  status : ParticipantStatus
  accessClass : ParticipantAccessClass
  canEdit : Bool
  connectionCount : Nat
  lastSeenAt : Time
  deriving DecidableEq, Repr

/-! ## Documents and rooms -/

/-- `DocumentState`. -/
structure DocumentState where
  id : String
  name : String
  language : String
  content : String
  position : Nat
  revision : Int
  snapshotRevision : Int
  deriving DecidableEq, Repr

/-- `RoomState`. -/
structure RoomState where
  slug : String
  expiresAt : Time
  watchOnly : Bool
  layoutPreset : String
  metadataRevision : Int
  metadataSnapshotRevision : Int
  documents : List DocumentState
  participants : List ParticipantSnapshot
  deriving DecidableEq, Repr

/-- `DocumentSnapshot`. -/
structure DocumentSnapshot where
  id : String
  name : String
  language : String
  content : String
  position : Int
  currentRevision : Int
  snapshotRevision : Int
  updatedAt : Time
  deriving DecidableEq, Repr

/-- `RoomSnapshot`. -/
structure RoomSnapshot where
  slug : String
  passwordHash : String
  creatorTokenHash : List UInt8
  locked : Bool
  layoutPreset : String
  contentSize : Int
  metadataRevision : Int
  metadataSnapshotRevision : Int
  expiresAt : Time
  createdAt : Time
  documents : List DocumentSnapshot
  deriving DecidableEq, Repr

/-! ## Operations -/

/-- `DocumentOperation`. -/
structure DocumentOperation where
  operationID : String
  clientID : String
  documentID : String
  baseVersion : Int
  changes : ChangeSet
  deriving DecidableEq, Repr

/-- `AcceptedDocumentOperation`. -/
structure AcceptedDocumentOperation where
  operationID : String
  clientID : String
  documentID : String
  baseVersion : Int
  revision : Int
  changes : ChangeSet
  document : String
  duplicate : Bool
  deriving DecidableEq, Repr

/-- `MetadataOperation`. -/
structure MetadataOperation where
  operationID : String
  clientID : String
  baseVersion : Int
  kind : String
  documentID : String
  name : String
  language : String
  content : String
  order : List String
  deriving DecidableEq, Repr

/-- `AcceptedMetadataOperation`. -/
structure AcceptedMetadataOperation where
  operationID : String
  clientID : String
  kind : String
  documentID : String
  revision : Int
  name : String
  language : String
  content : String
  order : List String
  state : RoomState
  duplicate : Bool
  deriving DecidableEq, Repr

/-- `PresenceUpdate`. -/
structure PresenceUpdate where
  currentTab : String
  documentID : String
  revision : Int
  anchor : Int
  head : Int
  deriving DecidableEq, Repr

/-- `KnownRevisions`. -/
structure KnownRevisions where
  metadata : Int
  documents : Keyed Int

/-- `BridgeResult`. -/
structure BridgeResult where
  documentChanges : List AcceptedDocumentOperation
  metadataChanges : List AcceptedMetadataOperation
  resync : Bool
  deriving DecidableEq, Repr

/-! ## Durable records -/

/-- The two kinds of revision streams. -/
inductive StreamKind where
  | metadata
  | document
  deriving DecidableEq, Repr

/-- `MetadataStreamID`. -/
def metadataStreamID : String := "metadata"

/-- `ChangeRecord`; the payload is JSON text. -/
structure ChangeRecord where
  streamKind : StreamKind
  streamID : String
  revision : Int
  kind : String
  payload : Json
  createdAt : Time

/-- `OperationRecord`. -/
structure OperationRecord where
  operationID : String
  clientID : String
  fingerprint : String
  streamKind : StreamKind
  streamID : String
  baseRevision : Int
  revision : Int
  operationKind : String
  resultPayload : Json
  createdAt : Time

/-- `ChangeCommit`. -/
structure ChangeCommit where
  snapshot : RoomSnapshot
  change : ChangeRecord
  operation : OperationRecord
  compactThrough : Int
  retainOperations : Int

/-! ## Errors -/

/-- The errors of the hub and of the store. -/
inductive LiveError where
  | hubClosed
  | roomExpired
  | roomLimit
  | participantLimit
  | connectionLimit
  | participantNotFound
  | participantInactive
  | sessionActive
  | creatorRequired
  | watchOnly
  | documentNotFound
  | documentDeleted
  | lastDocument
  | metadataResync (state : RoomState)
  | documentResync (state : RoomState) (documentID : String)
  | nameTaken
  | invalidLayoutPreset
  | invalidPresence
  | persistence
  | operationConflict
  | operationLimit
  | roomNotFound
  | roomSlugCollision
  | invalidSnapshot
  | invalidChange
  | revisionConflict
  | historyCompacted
  | invalidNickname
  | invalidTabName
  | invalidLanguage
  | invalidDocumentID
  | invalidContent
  | invalidOperation
  | invalidParticipantCredential
  | invalidConnectionID
  | invalidClientID
  | noUniqueName
  /-- An error of the collaboration package. -/
  | collab (error : CollabError)
  /-- A payload of the store that does not decode. -/
  | decode
  /-- An error of the database or of the context. -/
  | database
  deriving DecidableEq, Repr

end Oxbin.Live
