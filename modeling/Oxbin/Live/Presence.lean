import Oxbin.Live.Atomicity

/-!
# Where clients are

A connection is in a tab and has a cursor.  A call that is refused should not move anybody.  A
presence update moves the tab before it looks at the cursor, and a deletion moves the connections
of the document before it is committed, so both may leave a trace when they fail.
-/

namespace Oxbin.Live

open Livecollab Storage

namespace Room

/-- The tab and the cursor of a connection. -/
def place (room : Room) (id connectionID : String) : Option (String × Option CursorSelection) :=
  ((room.participants.lookup id).bind fun participant =>
    participant.connections.lookup connectionID).map fun connection =>
      (connection.currentTab, connection.cursor)

/-- The nickname of a participant. -/
def nickname (room : Room) (id : String) : Option String :=
  (room.participants.lookup id).map fun participant => participant.snapshot.nickname

/-- Everybody is where they were, under the name that they had. -/
structure SamePresence (room room' : Room) : Prop where
  places : ∀ id connectionID, room'.place id connectionID = room.place id connectionID
  nicknames : ∀ id, room'.nickname id = room.nickname id

theorem SamePresence.of_participants {room room' : Room}
    (same : room'.participants = room.participants) : room.SamePresence room' where
  places id connectionID := by rw [place, same, place]
  nicknames id := by rw [nickname, same, nickname]

theorem Touched.samePresence {room room' : Room} (touched : room.Touched room') :
    room.SamePresence room' := by
  constructor
  · intro id connectionID
    have related := touched.participants id
    unfold place
    generalize room.participants.lookup id = before at related ⊢
    generalize room'.participants.lookup id = after at related ⊢
    cases related with
    | none => rfl
    | some touched =>
        have still := congrArg (Option.map fun connection : Connection =>
          (connection.currentTab, connection.cursor)) (touched.connections connectionID)
        rw [Option.map_map, Option.map_map] at still
        exact still
  · intro id
    have related := touched.participants id
    unfold nickname
    generalize room.participants.lookup id = before at related ⊢
    generalize room'.participants.lookup id = after at related ⊢
    cases related with
    | none => rfl
    | some touched =>
        have nickname := congrArg ParticipantSnapshot.nickname touched.snapshot
        exact congrArg some nickname

theorem SamePresence.trans {first second third : Room} (before : first.SamePresence second)
    (after : second.SamePresence third) : first.SamePresence third where
  places id connectionID := (after.places id connectionID).trans (before.places id connectionID)
  nicknames id := (after.nicknames id).trans (before.nicknames id)

/-! ## Presence updates -/

/-- The connection after an update has named its tab. -/
def visit (update : PresenceUpdate) (connection : Connection) : Connection :=
  if update.currentTab ≠ "" then { connection with currentTab := update.currentTab } else connection

/-- The room after a connection of a participant has been changed and the participant has not been
refreshed. -/
def putConnection (room : Room) (id : String) (participant : Participant)
    (connection : Connection) : Room :=
  { room with
    participants := room.participants.insert id { participant with
      connections := participant.connections.insert connection.id connection } }

/-- How `updatePresence` ends. -/
inductive PresenceEntry (room : Room) (participantID connectionID : String) (generation : Nat)
    (update : PresenceUpdate) (now : Time) : Room × Except LiveError ParticipantSnapshot → Prop
  /-- The room has expired. -/
  | past (past : ¬room.Open now) :
      PresenceEntry room participantID connectionID generation update now
        ({ room with closed := true }, .error .roomExpired)
  /-- The connection is gone. -/
  | gone (gone : ¬room.Holds participantID connectionID generation) (error : LiveError) :
      PresenceEntry room participantID connectionID generation update now (room, .error error)
  /-- There is no such tab. -/
  | untabbed (room' : Room) (isOpen : room.Open now)
      (holds : room.Holds participantID connectionID generation) (touched : room.Touched room')
      (rostered : room'.Rostered)
      (absent : update.currentTab ≠ "" ∧ update.currentTab ∉ room'.documents) :
      PresenceEntry room participantID connectionID generation update now
        (room', .error .documentNotFound)
  /-- The tab has been moved, and the cursor is refused. -/
  | refused (room' : Room) (isOpen : room.Open now)
      (holds : room.Holds participantID connectionID generation) (touched : room.Touched room')
      (rostered : room'.Rostered) (participant : Participant) (connection : Connection)
      (present : room'.participants.lookup participantID = some participant)
      (found : participant.connections.lookup connectionID = some connection)
      (tab : update.currentTab = "" ∨ update.currentTab ∈ room'.documents) (error : LiveError)
      (refused : room'.presenceCursor update = .error error) :
      PresenceEntry room participantID connectionID generation update now
        (room'.putConnection participantID participant (visit update connection), .error error)
  /-- The connection is where the update says. -/
  | accepted (room' : Room) (isOpen : room.Open now)
      (holds : room.Holds participantID connectionID generation) (touched : room.Touched room')
      (rostered : room'.Rostered) (participant : Participant) (connection : Connection)
      (present : room'.participants.lookup participantID = some participant)
      (found : participant.connections.lookup connectionID = some connection)
      (tab : update.currentTab = "" ∨ update.currentTab ∈ room'.documents)
      (cursor : Option CursorSelection) (accepted : room'.presenceCursor update = .ok cursor)
      (participant' : Participant)
      (same : participant' = Participant.refresh { participant with
        connections := participant.connections.insert (visit update connection).id
          { visit update connection with
            cursor := cursor <|> (visit update connection).cursor
            lastSeenAt := now, lastActivityAt := now } } room'.watchOnly) :
      PresenceEntry room participantID connectionID generation update now
        ({ room' with participants := room'.participants.insert participantID participant' },
          .ok participant'.snapshot)

theorem visit_id (update : PresenceUpdate) (connection : Connection) :
    (visit update connection).id = connection.id := by
  unfold visit
  split <;> rfl

theorem visit_cursor (update : PresenceUpdate) (connection : Connection) :
    (visit update connection).cursor = connection.cursor := by
  unfold visit
  split <;> rfl

theorem updatePresence_entry {room : Room} (rostered : room.Rostered)
    (participantID connectionID : String) (generation : Nat) (update : PresenceUpdate)
    (now : Time) : room.PresenceEntry participantID connectionID generation update now
      (room.updatePresence participantID connectionID generation update now) := by
  have gate := ensureConnection_gate rostered participantID connectionID generation now
  unfold updatePresence
  generalize room.ensureConnection participantID connectionID generation now = outcome at gate ⊢
  cases gate with
  | past past => exact .past past
  | gone gone error => exact .gone gone error
  | live room' isOpen holds touched rostered' =>
      obtain ⟨participant₀, connection₀, present₀, found₀, _⟩ := holds
      obtain ⟨participant, connection, present, found, _⟩ :=
        touched.lookup_connection present₀ found₀
      simp only [present, found]
      split
      case isTrue absent =>
        exact .untabbed room' isOpen ⟨_, _, present₀, found₀, by assumption⟩ touched
          rostered' absent
      case isFalse known =>
        have tab : update.currentTab = "" ∨ update.currentTab ∈ room'.documents := by
          rw [not_and_or, not_not, not_not] at known
          exact known
        have holds : room.Holds participantID connectionID generation :=
          ⟨_, _, present₀, found₀, by assumption⟩
        split
        case h_1 error refused =>
          exact .refused room' isOpen holds touched rostered' participant connection present found
            tab error refused
        case h_2 cursor accepted =>
          exact .accepted room' isOpen holds touched rostered' participant connection present found
            tab cursor accepted _ rfl

/-! ## Calls that fail -/

/-- Putting back a connection of a participant. -/
theorem place_putConnection {room : Room} {id : String} {participant : Participant}
    (present : room.participants.lookup id = some participant) (connection : Connection)
    (other connectionID : String) :
    (room.putConnection id participant connection).place other connectionID =
      if other = id ∧ connectionID = connection.id then
        some (connection.currentTab, connection.cursor)
      else room.place other connectionID := by
  unfold place putConnection
  rw [Keyed.lookup_insert_if]
  by_cases own : other = id
  · subst own
    rw [if_pos rfl, present, Option.bind_some, Option.bind_some, Keyed.lookup_insert_if]
    by_cases same : connectionID = connection.id
    · rw [if_pos same, if_pos ⟨rfl, same⟩, Option.map_some]
    · rw [if_neg same, if_neg fun both => same both.2]
  · rw [if_neg own, if_neg fun both => own both.1]

theorem nickname_putConnection {room : Room} {id : String} {participant : Participant}
    (present : room.participants.lookup id = some participant) (connection : Connection)
    (other : String) :
    (room.putConnection id participant connection).nickname other = room.nickname other := by
  unfold nickname putConnection
  rw [Keyed.lookup_insert_if]
  split
  case isTrue own =>
    rw [own, present]
    rfl
  case isFalse => rfl

theorem rename_failed [Host] {room : Room} (rostered : room.Rostered)
    {participantID connectionID : String} {generation : Nat} {name : String} {now : Time}
    {error : LiveError}
    (failed : (room.rename participantID connectionID generation name now).2 = .error error) :
    room.SamePresence (room.rename participantID connectionID generation name now).1 := by
  have gate := ensureConnection_gate rostered participantID connectionID generation now
  unfold rename at failed ⊢
  generalize room.ensureConnection participantID connectionID generation now = outcome
    at gate failed ⊢
  cases gate with
  | past => exact .of_participants rfl
  | gone => exact .of_participants rfl
  | live room' _ _ touched =>
      simp only at failed ⊢
      split
      case h_1 => exact touched.samePresence
      case h_2 valid =>
        simp only [valid] at failed
        split
        case h_1 => exact touched.samePresence
        case h_2 participant present =>
          simp only [present] at failed
          split
          all_goals
            split
            · exact touched.samePresence
            · simp_all

/-! ## Deletions -/

/-- Where a connection goes when a document is deleted. -/
def leavePlace (documentID fallbackTab : String) (place : String × Option CursorSelection) :
    String × Option CursorSelection :=
  (if place.1 = documentID then fallbackTab else place.1,
    place.2.filter fun cursor => cursor.documentID ≠ documentID)

theorem leaveDocument_place (documentID fallbackTab : String) (connection : Connection) :
    ((leaveDocument documentID fallbackTab connection).currentTab,
      (leaveDocument documentID fallbackTab connection).cursor) =
        leavePlace documentID fallbackTab (connection.currentTab, connection.cursor) := by
  unfold leaveDocument leavePlace
  cases connection.cursor with
  | none => rfl
  | some cursor =>
      rw [Option.filter_some]
      by_cases own : cursor.documentID = documentID
      · simp [own]
      · simp [own]

theorem place_left (room : Room) (operation : MetadataOperation) (id connectionID : String) :
    (room.left operation).place id connectionID = (room.place id connectionID).map
      (leavePlace operation.documentID ((room.order.erase operation.documentID).headD "")) := by
  unfold place left leaveDocumentAll
  rw [Keyed.lookup_mapValues]
  cases room.participants.lookup id with
  | none => rfl
  | some participant =>
      rw [Option.map_some, Option.bind_some, Option.bind_some, Participant.refresh_connections,
        Keyed.lookup_mapValues, Option.map_map, Option.map_map]
      refine congrFun (congrArg Option.map (funext fun connection => ?_)) _
      exact leaveDocument_place _ _ connection

theorem nickname_left (room : Room) (operation : MetadataOperation) (id : String) :
    (room.left operation).nickname id = room.nickname id := by
  unfold nickname left leaveDocumentAll
  rw [Keyed.lookup_mapValues, Option.map_map]
  refine congrFun (congrArg Option.map (funext fun participant => ?_)) _
  exact Participant.refresh_nickname _ _

theorem displaces_iff {room : Room} {operation : MetadataOperation} :
    room.Displaces operation ↔ ∃ id connectionID,
      (room.left operation).place id connectionID ≠ room.place id connectionID := by
  constructor
  · rintro ⟨id, participant, connectionID, connection, present, found, moved⟩
    refine ⟨id, connectionID, fun same => moved ?_⟩
    rw [place_left, place, present, Option.bind_some, found, Option.map_some, Option.map_some,
      ← leaveDocument_place, Option.some.injEq, Prod.mk.injEq] at same
    obtain ⟨id, clientID, generation, currentTab, cursor, lastSeenAt, lastActivityAt⟩ := connection
    simp only [leaveDocument] at same ⊢
    rw [same.1, same.2]
  · rintro ⟨id, connectionID, moved⟩
    rw [place_left] at moved
    cases present : room.participants.lookup id with
    | none => simp [place, present] at moved
    | some participant =>
        cases found : participant.connections.lookup connectionID with
        | none => simp [place, present, found] at moved
        | some connection =>
            refine ⟨id, participant, connectionID, connection, present, found, fun same => moved ?_⟩
            rw [place, present, Option.bind_some, found, Option.map_some, Option.map_some,
              ← leaveDocument_place, same]

/-- A deletion keeps everybody in place exactly when it displaces nobody. -/
theorem samePresence_left {room : Room} {operation : MetadataOperation} :
    room.SamePresence (room.left operation) ↔ ¬room.Displaces operation := by
  rw [displaces_iff]
  constructor
  · rintro same ⟨id, connectionID, moved⟩
    exact moved (same.places id connectionID)
  · intro stays
    refine ⟨fun id connectionID => ?_, fun id => nickname_left room operation id⟩
    by_contra moved
    exact stays ⟨id, connectionID, moved⟩

theorem Displaces.of_places {room room' : Room} {operation : MetadataOperation}
    (displaces : room.Displaces operation) (order : room'.order = room.order)
    (places : ∀ id connectionID, room'.place id connectionID = room.place id connectionID) :
    room'.Displaces operation := by
  obtain ⟨id, connectionID, moved⟩ := displaces_iff.mp displaces
  refine displaces_iff.mpr ⟨id, connectionID, ?_⟩
  rwa [place_left, order, places, ← place_left]

end Room

/-- The request sets the presence of the session, its name or the documents. -/
def Request.Presents : Request → Prop
  | .updatePresence _ => True
  | .rename _ => True
  | .applyMetadata _ _ => True
  | _ => False

namespace Authority

/-- The request is a presence update of a live connection that names a tab of the room other than
the one in which the connection is. -/
def Shifts (authority : Authority) (session : Session) (now : Time) (request : Request) : Prop :=
  ∃ update, request = .updatePresence update ∧ authority.room.Open now ∧
    authority.room.Holds session.participant session.connectionID session.generation ∧
    update.currentTab ≠ "" ∧ update.currentTab ∈ authority.room.documents ∧
    ∀ tab cursor, authority.room.place session.participant session.connectionID =
      some (tab, cursor) → tab ≠ update.currentTab

section Requests

variable {authority : Authority} (rostered : authority.room.Rostered) {session : Session}
  {now : Time} {error : LiveError}

include rostered in
/-- A presence update that fails moves nobody unless it names another tab. -/
theorem updatePresence_failed {update : PresenceUpdate}
    (failed : (authority.room.updatePresence session.participant session.connectionID
      session.generation update now).2 = .error error) :
    authority.room.SamePresence (authority.room.updatePresence session.participant
        session.connectionID session.generation update now).1 ↔
      ¬authority.Shifts session now (.updatePresence update) := by
  have entry := Room.updatePresence_entry rostered session.participant session.connectionID
    session.generation update now
  generalize authority.room.updatePresence session.participant session.connectionID
    session.generation update now = outcome at entry failed ⊢
  cases entry with
  | past past =>
      refine iff_of_true (.of_participants rfl) ?_
      rintro ⟨_, _, isOpen, _⟩
      exact past isOpen
  | gone gone =>
      refine iff_of_true (.of_participants rfl) ?_
      rintro ⟨_, _, _, holds, _⟩
      exact gone holds
  | untabbed room' _ _ touched _ absent =>
      refine iff_of_true touched.samePresence ?_
      rintro ⟨_, request, _, _, _, known, _⟩
      cases request
      rw [Room.documents_of_shared touched.shared] at absent
      exact absent.2 known
  | refused room' isOpen holds touched rostered' participant connection present found tab =>
      have keyed := (rostered' _ participant present).connections _ connection found
      have before : room'.place session.participant session.connectionID =
          some (connection.currentTab, connection.cursor) := by
        rw [Room.place, present, Option.bind_some, found, Option.map_some]
      have after := Room.place_putConnection present (Room.visit update connection)
      rw [Room.visit_id, keyed, Room.visit_cursor] at after
      have places := touched.samePresence.places session.participant session.connectionID
      rw [before] at places
      constructor
      · rintro same ⟨_, request, _, _, named, _, elsewhere⟩
        cases request
        have moved := (after session.participant session.connectionID).symm.trans
          (same.places session.participant session.connectionID)
        rw [if_pos ⟨rfl, rfl⟩, ← places, Option.some.injEq, Prod.mk.injEq, Room.visit,
          if_pos named] at moved
        exact elsewhere _ _ places.symm moved.1.symm
      · intro stays
        have still : (Room.visit update connection).currentTab = connection.currentTab := by
          unfold Room.visit
          split
          case isTrue named =>
            by_contra moved
            refine stays ⟨update, rfl, isOpen, holds, named, ?_, fun tab cursor place same => ?_⟩
            · rw [← Room.documents_of_shared touched.shared]
              exact tab.resolve_left named
            · rw [← places, Option.some.injEq, Prod.mk.injEq] at place
              exact moved (same.symm.trans place.1.symm)
          case isFalse => rfl
        refine touched.samePresence.trans ⟨fun other connectionID => ?_, fun other =>
          Room.nickname_putConnection present _ other⟩
        rw [after, still]
        split
        case isTrue own => rw [own.1, own.2, before]
        case isFalse => rfl
  | accepted => cases failed

theorem applyMetadata_presence [Host] {operation : MetadataOperation}
    {generator : Nat → Option String} {fault : Bool} {outcome : Outcome AcceptedMetadataOperation}
    (entry : authority.room.Entry authority.store session now
      (fun room' => room'.canEdit session.participant = true)
      (fun room' => room'.acceptMetadata authority.store operation generator now fault) outcome) :
    authority.room.SamePresence outcome.1.room ↔
      ¬authority.Strands session now (.applyMetadata operation generator) := by
  cases entry with
  | past past =>
      refine iff_of_true (.of_participants rfl) ?_
      rintro ⟨_, _, _, isOpen, _⟩
      exact past isOpen
  | gone gone =>
      refine iff_of_true (.of_participants rfl) ?_
      rintro ⟨_, _, _, _, holds, _⟩
      exact gone holds
  | refused room' _ _ touched _ forbids =>
      refine iff_of_true touched.samePresence ?_
      rintro ⟨_, _, _, _, _, allows, _⟩
      exact forbids (touched.canEdit _ ▸ allows)
  | admitted room' isOpen holds touched _ allows =>
      have presence := touched.samePresence
      have order := Room.order_of_shared touched.shared
      rcases room'.acceptMetadata_roster authority.store operation generator now fault with
        ⟨kept, same⟩ | ⟨deletes, same⟩
      · refine iff_of_true (presence.trans (.of_participants same.participants)) ?_
        rintro ⟨_, _, request, _, _, _, deletes, _⟩
        cases request
        exact kept (deletes.of_shared touched.shared.symm)
      · have left : (room'.left operation).SamePresence _ := .of_participants same.participants
        constructor
        · rintro unmoved ⟨_, _, request, _, _, _, _, displaces⟩
          cases request
          refine Room.samePresence_left.mp ⟨fun id connectionID => ?_, fun id =>
            Room.nickname_left room' operation id⟩ (displaces.of_places order presence.places)
          rw [← left.places, unmoved.places, presence.places]
        · intro lawful
          refine (presence.trans (Room.samePresence_left.mpr fun displaces => lawful ?_)).trans left
          exact ⟨operation, generator, rfl, isOpen, holds, touched.canEdit _ ▸ allows,
            deletes.of_shared touched.shared, touched.displaces displaces⟩

end Requests

end Authority

namespace Stage

/-- A presence update, a renaming or an operation on the documents that fails leaves every tab,
every cursor and every nickname as it was exactly when it is neither an update that names another
tab nor a deletion that strands somebody. -/
theorem presence_kept [Host] {options : HubOptions} {stage : Stage}
    (reachable : Reachable options stage) {session : Session} {now : Time} {fault : Bool}
    {request : Request} (presents : request.Presents) {error : LiveError}
    (failed : (stage.authority.request session now fault request).2 = .error error) :
    stage.authority.room.SamePresence
        (stage.authority.request session now fault request).1.room ↔
      ¬stage.authority.Shifts session now request ∧
        ¬stage.authority.Strands session now request := by
  have rostered := reachable.rostered
  cases request with
  | updatePresence update =>
      have kept := Authority.updatePresence_failed rostered (Authority.map_error failed)
      exact kept.trans (and_iff_left fun ⟨_, _, request, _⟩ => nomatch request).symm
  | rename name =>
      have kept := Room.rename_failed rostered (Authority.map_error failed)
      exact iff_of_true kept ⟨fun ⟨_, request, _⟩ => (nomatch request),
        fun ⟨_, _, request, _⟩ => (nomatch request)⟩
  | applyMetadata operation generator =>
      have entry := Room.applyMetadata_entry rostered stage.authority.store session now fault
        operation generator
      have kept := Authority.applyMetadata_presence entry
      exact kept.trans (and_iff_right fun ⟨_, request, _⟩ => nomatch request).symm
  | _ => cases presents

/-- A name that is refused. -/
theorem presence_kept_small :
    let desk := @run sampleHost (smallStage defaultHubOptions) smallDesk
    desk.authority.room.SamePresence (@Authority.request sampleHost desk.authority
      (smallSession "ann" "page" 1 false) (unixTime 4) false (.rename "")).1.room := by
  have possible : @Possible sampleHost (smallStage defaultHubOptions) smallDesk :=
    ⟨trivial, ⟨by decide +kernel, trivial⟩, trivial⟩
  have reachable := @Reachable.run sampleHost _ _
    (@Reachable.loaded sampleHost _ _ small_loaded) _ possible
  refine (@presence_kept sampleHost _ _ reachable (smallSession "ann" "page" 1 false)
    (unixTime 4) false (.rename "") trivial .invalidNickname (by decide +kernel)).mpr ⟨?_, ?_⟩
  · rintro ⟨_, request, _⟩
    cases request
  · rintro ⟨_, _, request, _⟩
    cases request

/-- A presence update that names the other tab and a cursor past the end of the document. -/
def strayUpdate : PresenceUpdate where
  currentTab := "notes"
  documentID := "main"
  revision := 0
  anchor := 99
  head := 99

/-- A refused presence update leaves its tab behind, and so does a deletion that the store
refuses. -/
theorem presence_moved :
    let desk := @run sampleHost (smallStage defaultHubOptions) smallDesk
    let session := smallSession "ann" "page" 1 false
    let updated := @Authority.request sampleHost desk.authority session (unixTime 4) false
      (.updatePresence strayUpdate)
    let deleted := @Authority.request sampleHost desk.authority session (unixTime 4) true
      (.applyMetadata (smallMetadata "op2" "document_delete" "main" "") fun _ => none)
    @Possible sampleHost (smallStage defaultHubOptions) smallDesk ∧
      desk.authority.room.place "p-demo-ann" "page" = some ("main", none) ∧
      updated.2 = .error .invalidPresence ∧
      updated.1.room.place "p-demo-ann" "page" = some ("notes", none) ∧
      deleted.2 = .error .persistence ∧
      deleted.1.room.place "p-demo-ann" "page" = some ("notes", none) := by
  refine ⟨⟨trivial, ⟨by decide +kernel, trivial⟩, trivial⟩, ?_, ?_, ?_, ?_, ?_⟩
  all_goals decide +kernel

end Stage

end Oxbin.Live
