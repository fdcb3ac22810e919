import Oxbin.Live.Load
import Oxbin.Live.Roster

/-!
# Calls on a loaded room

Clients reach a room by joining it and then through the session that the join returned.  A run of
a room is a list of calls, in the order in which they take the lock of the room.
-/

namespace Oxbin.Live

open Livecollab Storage

/-- The methods of a `RoomSession`. -/
inductive Request where
  | submitDocument (operation : DocumentOperation)
  | applyMetadata (operation : MetadataOperation) (generator : Nat → Option String)
  | updatePresence (update : PresenceUpdate)
  | rename (name : String)
  | heartbeat
  | disconnect
  | setWatchOnly (enabled : Bool)
  | setLayoutPreset (preset : String)

/-- A call on a room.  Sweeping and the check for eviction are two critical sections of the hub's
sweep, and the store serves other rooms between two calls. -/
inductive Call where
  | join (identity : JoinIdentity) (capability : CreatorCapability)
      (candidate : Nat → Option String)
  | request (session : Session) (request : Request)
  | sweep
  | shouldEvict
  | shutdown
  | elsewhere (store : Store)

/-- A call at an instant; `fault` says whether the database fails. -/
structure Action where
  call : Call
  now : Time
  fault : Bool

/-- What a call returns when it succeeds. -/
inductive Answer where
  | joined (result : JoinResult)
  | document (accepted : AcceptedDocumentOperation)
  | metadata (accepted : AcceptedMetadataOperation)
  | presence (participant : ParticipantSnapshot)
  | state (state : RoomState)
  | removed (participantIDs : List String)
  | evict (verdict : Bool)
  | done
  deriving DecidableEq

namespace Authority

/-- Call a method of a session. -/
def request [Host] (authority : Authority) (session : Session) (now : Time) (fault : Bool) :
    Request → Outcome Answer
  | .submitDocument operation =>
      let (authority, result) := authority.room.submitDocument authority.store session.participant
        session.connectionID session.generation operation now fault
      (authority, result.map .document)
  | .applyMetadata operation generator =>
      let (authority, result) := authority.room.applyMetadata authority.store session.participant
        session.connectionID session.generation operation generator now fault
      (authority, result.map .metadata)
  | .updatePresence update =>
      let (room, result) := authority.room.updatePresence session.participant session.connectionID
        session.generation update now
      ({ authority with room }, result.map .presence)
  | .rename name =>
      let (room, result) := authority.room.rename session.participant session.connectionID
        session.generation name now
      ({ authority with room }, result.map fun () => .done)
  | .heartbeat =>
      let (room, result) := authority.room.heartbeat session.participant session.connectionID
        session.generation now
      ({ authority with room }, result.map fun () => .done)
  | .disconnect =>
      let (room, result) := authority.room.disconnect session.participant session.connectionID
        session.generation now
      ({ authority with room }, result.map fun () => .done)
  | .setWatchOnly enabled =>
      let (authority, result) := authority.room.setWatchOnly authority.store session.participant
        session.connectionID session.generation session.creator enabled now fault
      (authority, result.map .state)
  | .setLayoutPreset preset =>
      let (authority, result) := authority.room.setLayoutPreset authority.store
        session.participant session.connectionID session.generation session.creator preset now fault
      (authority, result.map .state)

/-- `JoinWithIdentity` for a room that is loaded. -/
def join [Host] (authority : Authority) (identity : JoinIdentity)
    (capability : CreatorCapability) (candidate : Nat → Option String) (now : Time) :
    Outcome Answer :=
  match identity.validate with
  | .error error => (authority, .error error)
  | .ok () =>
      let (room, result) := authority.room.join identity capability candidate now
      ({ authority with room }, result.map .joined)

/-- Take one action. -/
def perform [Host] (authority : Authority) (action : Action) : Outcome Answer :=
  match action.call with
  | .join identity capability candidate =>
      authority.join identity capability candidate action.now
  | .request session request => authority.request session action.now action.fault request
  | .sweep =>
      let (room, removed) := authority.room.sweep action.now
      ({ authority with room }, .ok (.removed removed))
  | .shouldEvict =>
      let (room, verdict) := authority.room.shouldEvict action.now
      ({ authority with room }, .ok (.evict verdict))
  | .shutdown =>
      let (authority, result) := authority.room.shutdown authority.store action.now action.fault
      (authority, result.map fun () => .done)
  | .elsewhere store => ({ authority with store }, .ok .done)

end Authority

/-! ## Runs -/

/-- A loaded room and the sessions that its joins have returned. -/
structure Stage where
  authority : Authority
  issued : List Session

/-- The session that a call returns. -/
def Answer.session : Except LiveError Answer → List Session
  | .ok (.joined result) => [result.session]
  | _ => []

namespace Stage

/-- The stage after an action. -/
def step [Host] (stage : Stage) (action : Action) : Stage where
  authority := (stage.authority.perform action).1
  issued := stage.issued ++ Answer.session (stage.authority.perform action).2

/-- The stage after a list of actions. -/
def run [Host] (stage : Stage) (actions : List Action) : Stage := actions.foldl step stage

end Stage

/-- The action is possible: a session has been returned by a join, and the changes of a document
operation have been parsed. -/
def Action.Possible (issued : List Session) (action : Action) : Prop :=
  match action.call with
  | .request session request => session ∈ issued ∧
      match request with
      | .submitDocument operation => ∃ json, parseChangeSetJSON json = .ok operation.changes
      | _ => True
  | _ => True

namespace Stage

/-- Every action is possible when it is taken. -/
def Possible [Host] : Stage → List Action → Prop
  | _, [] => True
  | stage, action :: actions => action.Possible stage.issued ∧ (stage.step action).Possible actions

/-- The room has just been loaded. -/
inductive Loaded (options : HubOptions) : Stage → Prop
  | newRoom (store : Store) (snapshot : RoomSnapshot) (faults : LoadFaults) (authority : Authority)
      (valid : options.validate = .ok ())
      (load : Room.newRoom store snapshot options faults =
        (authority.store, .ok authority.room)) : Loaded options ⟨authority, []⟩

/-- The stages that a loaded room reaches. -/
inductive Reachable [Host] (options : HubOptions) : Stage → Prop
  | loaded (stage : Stage) (loaded : Loaded options stage) : Reachable options stage
  | step (stage : Stage) (action : Action) (reachable : Reachable options stage)
      (possible : action.Possible stage.issued) : Reachable options (stage.step action)

theorem run_append [Host] (stage : Stage) (before after : List Action) :
    stage.run (before ++ after) = (stage.run before).run after := List.foldl_append

theorem possible_append [Host] {stage : Stage} {before after : List Action} :
    stage.Possible (before ++ after) ↔
      stage.Possible before ∧ (stage.run before).Possible after := by
  induction before generalizing stage with
  | nil => exact (iff_of_eq (true_and _)).symm
  | cons action before induction =>
      rw [List.cons_append, Possible, Possible, induction, and_assoc]
      rfl

theorem Reachable.run [Host] {options : HubOptions} {stage : Stage}
    (reachable : Reachable options stage) {actions : List Action}
    (possible : stage.Possible actions) : Reachable options (stage.run actions) := by
  induction actions generalizing stage with
  | nil => exact reachable
  | cons action actions induction =>
      exact induction (.step stage action reachable possible.1) possible.2

end Stage

/-! ## A small room -/

/-- The document of the small room. -/
def smallDocument : DocumentSnapshot where
  id := "main"
  name := "main.go"
  language := "go"
  content := "ab"
  position := 0
  currentRevision := 0
  snapshotRevision := 0
  updatedAt := 1000000000

/-- A room with one document and a creator. -/
def smallSnapshot : RoomSnapshot where
  slug := "demo"
  passwordHash := ""
  creatorTokenHash := List.replicate 28 1 ++ "demo".toUTF8.toList
  locked := false
  layoutPreset := "single"
  contentSize := 2
  metadataRevision := 0
  metadataSnapshotRevision := 0
  expiresAt := 100 * 1000000000
  createdAt := 1000000000
  documents := [smallDocument]

/-- The store with the small room. -/
def smallStore : Store := (∅ : Store).insert "demo" {
  room := {
    slug := "demo", passwordHash := "", creatorTokenHash := smallSnapshot.creatorTokenHash
    locked := false, layoutPreset := "single", contentSize := 2, metadataRevision := 0
    metadataSnapshotRevision := 0, expiresAt := 100, createdAt := 1 }
  documents := [documentRow smallDocument]
  changes := []
  operations := [] }

/-- The small room. -/
def smallAuthority (options : HubOptions) : Authority where
  room := (Room.ofSnapshot options smallSnapshot
    ((∅ : Keyed Document).insert "main" ⟨smallDocument, [], 0, 0⟩)).syncSnapshot
  store := smallStore

/-- The small room before anybody joins it. -/
def smallStage (options : HubOptions) : Stage := ⟨smallAuthority options, []⟩

theorem small_loaded : Stage.Loaded defaultHubOptions (smallStage defaultHubOptions) :=
  .newRoom smallStore smallSnapshot .none _ rfl rfl

/-- The token of the creator of the small room. -/
def smallToken : List UInt8 := List.replicate 28 1

/-- A join of the small room, under the credential as a name. -/
def smallIdentity (credential connectionID : String) : JoinIdentity where
  participantCredential := credential
  connectionID := connectionID
  clientID := connectionID
  preferredName := credential
  preferredNameSet := true

/-- Join the small room at a second. -/
def smallJoin (credential connectionID : String) (token : List UInt8) (second : Int) : Action where
  call := .join (smallIdentity credential connectionID) ⟨token, true⟩ fun _ => none
  now := unixTime second
  fault := false

/-- Options under which a document remembers one change. -/
def smallOptions : HubOptions := { defaultHubOptions with
  maxHistoryRows := 1
  maxHistoryRows_small := by decide }

/-- Write a letter at the end of the document of the small room. -/
def smallAppend (operationID : String) (baseVersion length : Int) : DocumentOperation where
  operationID := operationID
  clientID := "page"
  documentID := "main"
  baseVersion := baseVersion
  changes := ⟨[⟨length, -1, ""⟩, ⟨0, 1, "c"⟩]⟩

/-- Create a second document. -/
def smallCreate (operationID : String) : MetadataOperation where
  operationID := operationID
  clientID := "page"
  baseVersion := 0
  kind := "document_create"
  documentID := ""
  name := "notes"
  language := "plaintext"
  content := "hi"
  order := []

namespace Stage

/-- The session of a participant of the small room. -/
def smallSession (credential connectionID : String) (generation : Nat) (creator : Bool) :
    Session where
  participant := "p-demo-" ++ credential
  sessionID := credential
  connectionID := connectionID
  clientID := connectionID
  generation := generation
  creator := creator

/-- The creator of the small room calls a method of its session. -/
def smallRequest (request : Request) (second : Int) (fault : Bool) : Action where
  call := .request (smallSession "bob" "page" 1 true) request
  now := unixTime second
  fault := fault

/-- The creator writes twice, the second time behind the first change, creates a document, is let
down by the database, changes the layout, and locks the room. -/
def smallWork : List Action :=
  [smallJoin "bob" "page" smallToken 2,
    smallRequest (.submitDocument (smallAppend "op-1" 0 2)) 3 false,
    smallRequest (.submitDocument (smallAppend "op-2" 0 2)) 4 false,
    smallRequest (.applyMetadata (smallCreate "op-3") fun _ => some "notes") 5 false,
    smallRequest (.submitDocument (smallAppend "op-4" 2 4)) 6 true,
    smallRequest (.setLayoutPreset "columns") 7 false,
    smallRequest (.setWatchOnly true) 8 false]

theorem parse_smallAppend (operationID : String) (baseVersion : Int) {length : Int}
    (known : length = 2 ∨ length = 4) : ∃ json, parseChangeSetJSON json =
      .ok (smallAppend operationID baseVersion length).changes := by
  rcases known with rfl | rfl
  · refine ⟨.arr [.num 2, .arr [.num 0, .str "c"]], ?_⟩
    simp only [smallAppend]
    decide +kernel
  · refine ⟨.arr [.num 4, .arr [.num 0, .str "c"]], ?_⟩
    simp only [smallAppend]
    decide +kernel

theorem smallWork_possible : @Possible sampleHost (smallStage smallOptions) smallWork := by
  refine ⟨trivial, ⟨?_, parse_smallAppend _ _ (.inl rfl)⟩, ⟨?_, parse_smallAppend _ _ (.inl rfl)⟩,
    ⟨?_, trivial⟩, ⟨?_, parse_smallAppend _ _ (.inr rfl)⟩, ⟨?_, trivial⟩, ⟨?_, trivial⟩, trivial⟩
  all_goals decide +kernel

end Stage

end Oxbin.Live
