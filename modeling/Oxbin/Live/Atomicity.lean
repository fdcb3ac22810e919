import Oxbin.Live.Permissions

/-!
# Operations that fail

An operation that returns an error leaves documents, modes, histories and the ledger as they were,
and so does the store.  A deletion that fails when it is committed has moved the presence of the
clients already.
-/

namespace Oxbin.Live

open Livecollab Storage

namespace Room

/-! ## Displaced connections -/

theorem leaveDocument_eq_self (documentID fallbackTab : String) (connection : Connection) :
    leaveDocument documentID fallbackTab connection = connection ↔
      (leaveDocument documentID fallbackTab connection).still = connection.still := by
  constructor
  · intro same
    rw [same]
  · intro still
    have tab := congrArg Connection.currentTab still
    have cursor := congrArg Connection.cursor still
    obtain ⟨id, clientID, generation, currentTab, cursor, lastSeenAt, lastActivityAt⟩ := connection
    simp only [leaveDocument, Connection.still] at tab cursor ⊢
    rw [tab, cursor]

theorem leaveDocument_still (documentID fallbackTab : String) {connection connection' : Connection}
    (still : connection'.still = connection.still) :
    (leaveDocument documentID fallbackTab connection').still =
      (leaveDocument documentID fallbackTab connection).still := by
  have tab := congrArg Connection.currentTab still
  have cursor := congrArg Connection.cursor still
  have rest := still
  simp only [Connection.still, leaveDocument, Connection.mk.injEq] at tab cursor rest ⊢
  simp [rest]

/-- Deleting the document takes the tab or the cursor of a connection away. -/
def Displaces (room : Room) (operation : MetadataOperation) : Prop :=
  ∃ id participant connectionID connection,
    room.participants.lookup id = some participant ∧
    participant.connections.lookup connectionID = some connection ∧
    leaveDocument operation.documentID ((room.order.erase operation.documentID).headD "")
      connection ≠ connection

theorem Touched.lookup_connection {room room' : Room} (touched : room.Touched room')
    {id connectionID : String} {participant : Participant} {connection : Connection}
    (present : room.participants.lookup id = some participant)
    (found : participant.connections.lookup connectionID = some connection) :
    ∃ participant' connection', room'.participants.lookup id = some participant' ∧
      participant'.connections.lookup connectionID = some connection' ∧
      connection'.still = connection.still := by
  have related := touched.participants id
  rw [present] at related
  generalize same : room'.participants.lookup id = after at related
  cases related with
  | some touched =>
      have still := touched.connections connectionID
      rw [found, Option.map_some, Option.map_eq_some_iff] at still
      obtain ⟨connection', found', still⟩ := still
      exact ⟨_, connection', rfl, found', still⟩

theorem Touched.lookup_connection' {room room' : Room} (touched : room.Touched room')
    {id connectionID : String} {participant' : Participant} {connection' : Connection}
    (present : room'.participants.lookup id = some participant')
    (found : participant'.connections.lookup connectionID = some connection') :
    ∃ participant connection, room.participants.lookup id = some participant ∧
      participant.connections.lookup connectionID = some connection ∧
      connection'.still = connection.still := by
  have related := touched.participants id
  rw [present] at related
  generalize same : room.participants.lookup id = before at related
  cases related with
  | some touched =>
      have still := touched.connections connectionID
      rw [found, Option.map_some, eq_comm, Option.map_eq_some_iff] at still
      obtain ⟨connection, found, still⟩ := still
      exact ⟨_, connection, rfl, found, still.symm⟩

theorem Touched.displaces {room room' : Room} (touched : room.Touched room')
    {operation : MetadataOperation} (displaces : room'.Displaces operation) :
    room.Displaces operation := by
  obtain ⟨id, participant', connectionID, connection', present', found', moved⟩ := displaces
  obtain ⟨participant, connection, present, found, still⟩ :=
    touched.lookup_connection' present' found'
  refine ⟨id, participant, connectionID, connection, present, found, ?_⟩
  rw [ne_eq, leaveDocument_eq_self] at moved ⊢
  rw [order_of_shared touched.shared, leaveDocument_still _ _ still, still] at moved
  exact moved

/-- A deletion that displaces nobody leaves the roster alone. -/
theorem left_touched {room : Room} (rostered : room.Rostered) {operation : MetadataOperation}
    (stays : ¬room.Displaces operation) : room.Touched (room.left operation) := by
  constructor
  case participants =>
    intro id
    rw [left, leaveDocumentAll, Keyed.lookup_mapValues]
    cases present : room.participants.lookup id with
    | none => exact .none
    | some participant =>
        have sound := rostered id participant present
        have same : Keyed.mapValues (leaveDocument operation.documentID
            ((room.order.erase operation.documentID).headD "")) participant.connections =
              participant.connections := by
          refine Keyed.mapValues_eq_self fun connectionID connection found => ?_
          by_contra moved
          exact stays ⟨id, participant, connectionID, connection, present, found, moved⟩
        rw [Option.map_some, same]
        refine .some ⟨sound.refreshed, ?_, ?_, ?_, ?_, ?_⟩
        all_goals simp
  all_goals rfl

theorem Deletes.of_shared {room room' : Room} (shared : room.shared = room'.shared)
    {operation : MetadataOperation} (deletes : room.Deletes operation) :
    room'.Deletes operation where
  kind := deletes.kind
  named := deletes.named
  fresh := operations_of_shared shared ▸ deletes.fresh
  admitted := by
    have admitted := deletes.admitted
    unfold admitMetadata at admitted ⊢
    simp only [bind_eq_ok, require_eq_ok, exists_const] at admitted ⊢
    rwa [snapshot_of_shared shared] at admitted
  several := order_of_shared shared ▸ deletes.several
  found := documents_of_shared shared ▸ deletes.found

theorem Touched.canEdit {room room' : Room} (touched : room.Touched room') (id : String) :
    room'.canEdit id = room.canEdit id := by
  have related := touched.participants id
  unfold Room.canEdit
  generalize room.participants.lookup id = before at related ⊢
  generalize room'.participants.lookup id = after at related ⊢
  cases related with
  | none => rfl
  | some touched =>
      have equality := congrArg ParticipantSnapshot.canEdit touched.snapshot
      exact equality

end Room

/-- The request is an operation on the shared state. -/
def Request.Changes : Request → Prop
  | .submitDocument _ => True
  | .applyMetadata _ _ => True
  | .setWatchOnly _ => True
  | .setLayoutPreset _ => True
  | _ => False

namespace Authority

/-- Only the activity of connections has changed and, when the room has expired, whether it is
closed. -/
structure Untouched (authority authority' : Authority) (now : Time) : Prop where
  store : authority'.store = authority.store
  closed : authority'.room.closed = authority.room.closed ∨ ¬authority.room.Open now
  room : authority.room.Touched { authority'.room with closed := authority.room.closed }

/-- The request is a deletion that passes all checks while a connection is in the document. -/
def Strands (authority : Authority) (session : Session) (now : Time) (request : Request) : Prop :=
  ∃ operation generator, request = .applyMetadata operation generator ∧
    authority.room.Open now ∧
    authority.room.Holds session.participant session.connectionID session.generation ∧
    authority.room.canEdit session.participant = true ∧
    authority.room.Deletes operation ∧ authority.room.Displaces operation

theorem Untouched.of_touched {authority : Authority} {room' : Room}
    (touched : authority.room.Touched room') (now : Time) :
    authority.Untouched ⟨room', authority.store⟩ now where
  store := rfl
  closed := .inl touched.closed
  room := by
    have same : ({ room' with closed := authority.room.closed } : Room) = room' := by
      rw [← touched.closed]
    rwa [same]

theorem Untouched.of_past {authority : Authority} {now : Time}
    (past : ¬authority.room.Open now) :
    authority.Untouched ⟨{ authority.room with closed := true }, authority.store⟩ now where
  store := rfl
  closed := .inr past
  room := .refl authority.room

end Authority

namespace Room

/-- Rooms with one roster and one shared state. -/
theorem SameRoster.touched {room room' : Room} (same : room.SameRoster room')
    (shared : room'.shared = room.shared) : room.Touched room' where
  shared := shared
  sessions := same.sessions
  names := same.names
  closed := same.closed
  participants id := by
    rw [same.participants]
    exact (Touched.refl room).participants id

theorem acceptDocument_failed [Host] {room : Room} {store : Store}
    {operation : DocumentOperation} {now : Time} {fault : Bool} {error : LiveError}
    (failed : (room.acceptDocument store operation now fault).2 = .error error) :
    (room.acceptDocument store operation now fault).1 = ⟨room, store⟩ := by
  have ends := room.acceptDocument_outcome store operation now fault
  generalize room.acceptDocument store operation now fault = outcome at ends failed ⊢
  cases ends with
  | refused => rfl
  | repeated => cases failed
  | accepted => cases failed

theorem acceptMetadata_failed [Host] {room : Room} {store : Store}
    {operation : MetadataOperation} {generator : Nat → Option String} {now : Time} {fault : Bool}
    {error : LiveError}
    (failed : (room.acceptMetadata store operation generator now fault).2 = .error error) :
    (room.acceptMetadata store operation generator now fault).1.room.shared = room.shared ∧
      (room.acceptMetadata store operation generator now fault).1.store = store := by
  have ends := room.acceptMetadata_outcome store operation generator now fault
  generalize room.acceptMetadata store operation generator now fault = outcome at ends failed ⊢
  cases ends with
  | refused room' shared => exact ⟨shared, rfl⟩
  | repeated => cases failed
  | accepted => cases failed

end Room

namespace Authority

section Requests

variable {authority : Authority} (rostered : authority.room.Rostered) {session : Session}
  {now : Time} {error : LiveError}

theorem mode_untouched {change : Room → Room} {save : Except LiveError Store}
    {outcome : Outcome RoomState}
    (entry : authority.room.ModeEntry authority.store session now change save outcome)
    (failed : outcome.2 = .error error) : authority.Untouched outcome.1 now := by
  cases entry with
  | past past => exact .of_past past
  | gone => exact .of_touched (.refl _) now
  | refused room' isOpen holds touched => exact .of_touched touched now
  | unchanged => cases failed
  | changed => cases failed

theorem document_untouched [Host] {operation : DocumentOperation} {fault : Bool}
    {allowed : Room → Prop} {outcome : Outcome AcceptedDocumentOperation}
    (entry : authority.room.Entry authority.store session now allowed
      (fun room' => room'.acceptDocument authority.store operation now fault) outcome)
    (failed : outcome.2 = .error error) : authority.Untouched outcome.1 now := by
  cases entry with
  | past past => exact .of_past past
  | gone => exact .of_touched (.refl _) now
  | refused room' isOpen holds touched => exact .of_touched touched now
  | admitted room' isOpen holds touched =>
      rw [Room.acceptDocument_failed failed]
      exact .of_touched touched now

theorem metadata_failed [Host] {operation : MetadataOperation} {generator : Nat → Option String}
    {fault : Bool} {allowed : Room → Prop} {outcome : Outcome AcceptedMetadataOperation}
    (entry : authority.room.Entry authority.store session now allowed
      (fun room' => room'.acceptMetadata authority.store operation generator now fault) outcome)
    (failed : outcome.2 = .error error) :
    outcome.1.room.shared = authority.room.shared ∧ outcome.1.store = authority.store := by
  cases entry with
  | past => exact ⟨rfl, rfl⟩
  | gone => exact ⟨rfl, rfl⟩
  | refused room' isOpen holds touched => exact ⟨touched.shared, rfl⟩
  | admitted room' isOpen holds touched =>
      obtain ⟨shared, store⟩ := Room.acceptMetadata_failed failed
      exact ⟨shared.trans touched.shared, store⟩

/-- A metadata operation that fails touches nobody unless it strands somebody. -/
theorem metadata_untouched [Host] {operation : MetadataOperation}
    {generator : Nat → Option String} {fault : Bool} {outcome : Outcome AcceptedMetadataOperation}
    (entry : authority.room.Entry authority.store session now
      (fun room' => room'.canEdit session.participant = true)
      (fun room' => room'.acceptMetadata authority.store operation generator now fault) outcome)
    (failed : outcome.2 = .error error)
    (lawful : ¬authority.Strands session now (.applyMetadata operation generator)) :
    authority.Untouched outcome.1 now := by
  cases entry with
  | past past => exact .of_past past
  | gone => exact .of_touched (.refl _) now
  | refused room' isOpen holds touched => exact .of_touched touched now
  | admitted room' isOpen holds touched rostered allows =>
      obtain ⟨shared, store⟩ := Room.acceptMetadata_failed failed
      have change := room'.acceptMetadata_roster authority.store operation generator now fault
      generalize (room'.acceptMetadata authority.store operation generator now fault).1 =
        authority' at shared store change ⊢
      obtain ⟨room'', store'⟩ := authority'
      cases store
      rcases change with ⟨_, same⟩ | ⟨deletes, same⟩
      · exact .of_touched (touched.trans (same.touched shared)) now
      · have stays : ¬room'.Displaces operation := fun displaces =>
          lawful ⟨operation, generator, rfl, isOpen, holds, touched.canEdit _ ▸ allows,
            deletes.of_shared touched.shared, touched.displaces displaces⟩
        have left := Room.left_touched rostered stays
        exact .of_touched ((touched.trans left).trans
          (same.touched (shared.trans (Room.leaveDocumentAll_shared _ _ _).symm))) now

/-- A deletion that fails leaves the connections that it has displaced elsewhere. -/
theorem metadata_stranded [Host] {operation : MetadataOperation}
    {generator : Nat → Option String} {fault : Bool} {outcome : Outcome AcceptedMetadataOperation}
    (entry : authority.room.Entry authority.store session now
      (fun room' => room'.canEdit session.participant = true)
      (fun room' => room'.acceptMetadata authority.store operation generator now fault) outcome)
    (strands : authority.Strands session now (.applyMetadata operation generator)) :
    ¬authority.Untouched outcome.1 now := by
  obtain ⟨_, _, request, isOpen, holds, allows, deletes, displaces⟩ := strands
  cases request
  intro untouched
  cases entry with
  | past past => exact past isOpen
  | gone gone => exact gone holds
  | refused room' _ _ touched _ forbids => exact forbids (touched.canEdit _ ▸ allows)
  | admitted room' _ _ touched =>
      obtain ⟨id, participant, connectionID, connection, present, found, moved⟩ := displaces
      obtain ⟨participant', connection', present', found', still⟩ :=
        touched.lookup_connection present found
      have order := Room.order_of_shared touched.shared
      rcases room'.acceptMetadata_roster authority.store operation generator now fault with
        ⟨kept, _⟩ | ⟨_, same⟩
      · exact kept (deletes.of_shared touched.shared.symm)
      · obtain ⟨after, connection'', present'', found'', still''⟩ :=
          untouched.room.lookup_connection present found
        rw [same.participants, Room.left, Room.leaveDocumentAll, Keyed.lookup_mapValues, present',
          Option.map_some] at present''
        cases present''
        rw [Participant.refresh_connections, Keyed.lookup_mapValues, found',
          Option.map_some] at found''
        cases found''
        rw [ne_eq, Room.leaveDocument_eq_self] at moved
        refine moved ?_
        rw [← Room.leaveDocument_still _ _ still, ← order, still'']

end Requests

end Authority

namespace Authority

theorem map_error {α β : Type} {answer : α → β} {result : Except LiveError α} {error : LiveError}
    (failed : result.map answer = .error error) : result = .error error := by
  cases result with
  | error => exact congrArg Except.error (Except.error.inj failed)
  | ok => cases failed

/-- An operation that fails leaves the shared state and the store alone. -/
theorem request_failed [Host] {authority : Authority} (rostered : authority.room.Rostered)
    {session : Session} {now : Time} {fault : Bool} {request : Request} (changes : request.Changes)
    {error : LiveError}
    (failed : (authority.request session now fault request).2 = .error error) :
    (authority.request session now fault request).1.room.shared = authority.room.shared ∧
      (authority.request session now fault request).1.store = authority.store := by
  have quiet {authority' : Authority} (untouched : authority.Untouched authority' now) :
      authority'.room.shared = authority.room.shared ∧ authority'.store = authority.store :=
    ⟨untouched.room.shared, untouched.store⟩
  cases request with
  | submitDocument operation =>
      exact quiet (document_untouched (Room.submitDocument_entry rostered authority.store session
        now fault operation) (map_error failed))
  | applyMetadata operation generator =>
      exact metadata_failed (Room.applyMetadata_entry rostered authority.store session now fault
        operation generator) (map_error failed)
  | setWatchOnly enabled =>
      exact quiet (mode_untouched (Room.setWatchOnly_entry rostered authority.store session now
        fault enabled) (map_error failed))
  | setLayoutPreset preset =>
      exact quiet (mode_untouched (Room.setLayoutPreset_entry rostered authority.store session now
        fault preset) (map_error failed))
  | _ => cases changes

/-- An operation that fails touches nobody exactly when it strands nobody. -/
theorem untouched_iff [Host] {authority : Authority} (rostered : authority.room.Rostered)
    {session : Session} {now : Time} {fault : Bool} {request : Request} (changes : request.Changes)
    {error : LiveError}
    (failed : (authority.request session now fault request).2 = .error error) :
    authority.Untouched (authority.request session now fault request).1 now ↔
      ¬authority.Strands session now request := by
  cases request with
  | submitDocument operation =>
      have entry := Room.submitDocument_entry rostered authority.store session now fault operation
      exact iff_of_true (document_untouched entry (map_error failed))
        fun ⟨_, _, request, _⟩ => nomatch request
  | applyMetadata operation generator =>
      have entry := Room.applyMetadata_entry rostered authority.store session now fault operation
        generator
      exact ⟨fun untouched strands => metadata_stranded entry strands untouched,
        metadata_untouched entry (map_error failed)⟩
  | setWatchOnly enabled =>
      have entry := Room.setWatchOnly_entry rostered authority.store session now fault enabled
      exact iff_of_true (mode_untouched entry (map_error failed))
        fun ⟨_, _, request, _⟩ => nomatch request
  | setLayoutPreset preset =>
      have entry := Room.setLayoutPreset_entry rostered authority.store session now fault preset
      exact iff_of_true (mode_untouched entry (map_error failed))
        fun ⟨_, _, request, _⟩ => nomatch request
  | _ => cases changes

end Authority

namespace Stage

/-- An operation that fails leaves the shared state and the store as they were, and it touches
nothing but the activity of connections exactly when it strands nobody. -/
theorem operation_atomic [Host] {options : HubOptions} {stage : Stage}
    (reachable : Reachable options stage) {session : Session} {now : Time} {fault : Bool}
    {request : Request} (changes : request.Changes) {error : LiveError}
    (failed : (stage.authority.request session now fault request).2 = .error error) :
    ((stage.authority.request session now fault request).1.room.shared =
        stage.authority.room.shared ∧
      (stage.authority.request session now fault request).1.store = stage.authority.store) ∧
    (stage.authority.Untouched (stage.authority.request session now fault request).1 now ↔
      ¬stage.authority.Strands session now request) :=
  ⟨Authority.request_failed reachable.rostered changes failed,
    Authority.untouched_iff reachable.rostered changes failed⟩

/-- An operation on the tabs of the small room. -/
def smallMetadata (operationID kind documentID name : String) : MetadataOperation where
  operationID := operationID
  clientID := "ann"
  baseVersion := 0
  kind := kind
  documentID := documentID
  name := name
  language := "go"
  content := ""
  order := []

/-- The small room with a second document, and a participant in the first one. -/
def smallDesk : List Action :=
  [smallJoin "ann" "page" [] 2,
    ⟨.request (smallSession "ann" "page" 1 false) (.applyMetadata
      (smallMetadata "op1" "document_create" "" "notes.go") fun _ => some "notes"),
      unixTime 3, false⟩]

/-- The tab of the participant in the small room. -/
def smallTab (authority : Authority) : Option String :=
  ((authority.room.participants.lookup "p-demo-ann").bind fun participant =>
    participant.connections.lookup "page").map Connection.currentTab

/-- A deletion that the store refuses moves the participant to another tab. -/
theorem operation_atomic_stranded :
    let desk := @run sampleHost (smallStage defaultHubOptions) smallDesk
    let failed := @Authority.request sampleHost desk.authority
      (smallSession "ann" "page" 1 false) (unixTime 4) true
      (.applyMetadata (smallMetadata "op2" "document_delete" "main" "") fun _ => none)
    @Possible sampleHost (smallStage defaultHubOptions) smallDesk ∧
      failed.2 = .error .persistence ∧ failed.1.room.order = ["main", "notes"] ∧
      smallTab desk.authority = some "main" ∧ smallTab failed.1 = some "notes" := by
  refine ⟨⟨trivial, ⟨by decide +kernel, trivial⟩, trivial⟩, ?_⟩
  refine ⟨?_, ?_, ?_, ?_⟩
  all_goals decide +kernel

/-- An edit that the store refuses. -/
theorem operation_atomic_small :
    let desk := @run sampleHost (smallStage defaultHubOptions) smallDesk
    let edit : DocumentOperation := ⟨"op2", "ann", "main", 0, ⟨[⟨2, -1, ""⟩, ⟨0, 1, "c"⟩]⟩⟩
    desk.authority.Untouched (@Authority.request sampleHost desk.authority
      (smallSession "ann" "page" 1 false) (unixTime 4) true (.submitDocument edit)).1
      (unixTime 4) := by
  have possible : @Possible sampleHost (smallStage defaultHubOptions) smallDesk :=
    ⟨trivial, ⟨by decide +kernel, trivial⟩, trivial⟩
  have reachable := @Reachable.run sampleHost _ _
    (@Reachable.loaded sampleHost _ _ small_loaded) _ possible
  exact (@operation_atomic sampleHost _ _ reachable (smallSession "ann" "page" 1 false)
    (unixTime 4) true (.submitDocument ⟨"op2", "ann", "main", 0, ⟨[⟨2, -1, ""⟩, ⟨0, 1, "c"⟩]⟩⟩)
    trivial .persistence (by decide +kernel)).2.mpr fun ⟨_, _, request, _⟩ => nomatch request

end Stage

end Oxbin.Live
