import Oxbin.Live.Coherence
import Oxbin.Live.Cursors

/-!
# Rosters that are skewed

A presence update moves the tab of a connection before it looks at the cursor.  When it is refused
then, the snapshot of the participant still shows the tab before: this is the only way in which a
roster ceases to be coherent.
-/

namespace Oxbin.Live

open Livecollab Storage

namespace Room

variable {room room' : Room}

/-! ## Presence updates -/

theorem visit_eq (update : PresenceUpdate) (connection : Connection) :
    visit update connection = { connection with
      currentTab := (visit update connection).currentTab } := by
  unfold visit
  split <;> rfl

section Presence

variable {id : String} {participant : Participant} {connection : Connection}
  {update : PresenceUpdate}

theorem visit_placed (placed : connection.Placed room.documents)
    (tab : update.currentTab = "" ∨ update.currentTab ∈ room.documents) :
    (visit update connection).Placed room.documents := by
  unfold visit
  split
  case isTrue named => exact ⟨tab.resolve_left named, placed.2⟩
  case isFalse => exact placed

theorem presenceCursor_placed {cursor : CursorSelection}
    (accepted : room.presenceCursor update = .ok (some cursor)) :
    cursor.documentID ∈ room.documents := by
  unfold presenceCursor at accepted
  split at accepted
  case isTrue => cases accepted
  case isFalse =>
    split at accepted
    case h_1 => cases accepted
    case h_2 document found =>
      have known := AList.lookup_isSome.mp (Option.isSome_of_eq_some found)
      simp only at accepted
      split at accepted
      case isTrue => cases accepted
      case isFalse =>
        split at accepted
        case h_1 => cases accepted
        case h_2 =>
          split at accepted
          case isTrue => cases accepted
          case isFalse =>
            cases accepted
            exact known

variable [Host] (coherent : room.Coherent)
  (present : room.participants.lookup id = some participant)
  (found : participant.connections.lookup connection.id = some connection)
  (tab : update.currentTab = "" ∨ update.currentTab ∈ room.documents)

include coherent present found tab

/-- A refused update leaves the roster coherent exactly when it does not move the foremost
connection. -/
theorem putConnection_coherent_iff :
    (room.putConnection id participant (visit update connection)).Coherent ↔
      (visit update connection).currentTab = connection.currentTab ∨
        ¬participant.Foremost connection := by
  have displayed := coherent.displayed id participant present
  rw [← Participant.displayed_put_iff displayed found, ← visit_eq]
  constructor
  · intro coherent'
    exact coherent'.displayed id _ (AList.lookup_insert _)
  · intro displayed'
    have placed := coherent.placed id participant present
    have succeeds : participant.Succeeds room.documents
        (participant.put (visit update connection)) :=
      ⟨rfl, rfl, displayed', placed.put (visit_placed (placed _ connection found) tab)⟩
    exact coherent.replace present succeeds rfl rfl rfl rfl

/-- An accepted update leaves the roster coherent. -/
theorem settlePresence_coherent {cursor : Option CursorSelection}
    (accepted : room.presenceCursor update = .ok cursor) (now : Time) :
    Coherent { room with
      participants := room.participants.insert id (Participant.refresh { participant with
        connections := participant.connections.insert (visit update connection).id
          { visit update connection with
            cursor := cursor <|> (visit update connection).cursor
            lastSeenAt := now, lastActivityAt := now } } room.watchOnly) } := by
  have placed := coherent.placed id participant present
  have moved := visit_placed (placed _ connection found) tab
  have keyed := (coherent.displayed id participant present).keyed
  set settled : Connection := { visit update connection with
    cursor := cursor <|> (visit update connection).cursor
    lastSeenAt := now, lastActivityAt := now } with settledEq
  have own : settled.Placed room.documents := by
    refine ⟨moved.1, fun selection shown => ?_⟩
    rw [settledEq] at shown
    cases cursor with
    | none => exact moved.2 selection shown
    | some selected =>
        cases shown
        exact presenceCursor_placed accepted
  have succeeds : participant.Succeeds room.documents
      ((participant.put settled).refresh room.watchOnly) :=
    .refresh _ rfl rfl (Participant.keyed_insert settled keyed) (placed.put own)
  exact coherent.replace present succeeds rfl rfl rfl rfl

end Presence

/-- A refused update has moved the foremost connection of a participant to another tab. -/
def Skewed (room : Room) (participantID connectionID : String) (generation : Nat)
    (update : PresenceUpdate) (now : Time) : Prop :=
  room.Open now ∧ ∃ participant connection,
    room.participants.lookup participantID = some participant ∧
    participant.connections.lookup connectionID = some connection ∧
    connection.generation = generation ∧ participant.Foremost connection ∧
    update.currentTab ≠ "" ∧ update.currentTab ∈ room.documents ∧
    update.currentTab ≠ connection.currentTab ∧
    ∃ error, room.presenceCursor update = .error error

theorem updatePresence_coherent_iff [Host] (coherent : room.Coherent)
    (participantID connectionID : String) (generation : Nat) (update : PresenceUpdate)
    (now : Time) :
    (room.updatePresence participantID connectionID generation update now).1.Coherent ↔
      ¬room.Skewed participantID connectionID generation update now := by
  unfold updatePresence ensureConnection
  by_cases isOpen : room.Open now
  · rw [ensureActive_open isOpen]
    cases present : room.participants.lookup participantID with
    | none =>
        simp only [present]
        refine iff_of_true coherent ?_
        rintro ⟨_, participant, _, present', _⟩
        cases present.symm.trans present'
    | some participant =>
        cases found : participant.connections.lookup connectionID with
        | none =>
            simp only [present, found]
            refine iff_of_true coherent ?_
            rintro ⟨_, participant, connection, present', found', _⟩
            cases present.symm.trans present'
            cases found.symm.trans found'
        | some connection =>
            have displayed := coherent.displayed _ participant present
            have placed := coherent.placed _ participant present
            have keyed := displayed.keyed _ connection found
            by_cases current : connection.generation = generation
            · subst keyed
              have entered := coherent.updateConnection present
                { connection with lastSeenAt := now }
                (placed _ connection found)
              have present' : (room.updateConnection participantID participant
                  { connection with lastSeenAt := now }).participants.lookup participantID =
                    some ((participant.put { connection with lastSeenAt := now }).refresh
                      room.watchOnly) := AList.lookup_insert _
              have documents : (room.updateConnection participantID participant
                { connection with lastSeenAt := now }).documents = room.documents := rfl
              simp only [present, found]
              rw [if_neg (not_not.mpr current)]
              simp only
              generalize room.updateConnection participantID participant
                { connection with lastSeenAt := now } = room' at entered present' documents ⊢
              set live : Connection := { connection with lastSeenAt := now }
              have found' : ((participant.put live).refresh room.watchOnly).connections.lookup
                  connection.id = some live := by
                rw [Participant.refresh_connections, Participant.lookup_put, if_pos rfl]
              have foremost : ((participant.put live).refresh room.watchOnly).Foremost live ↔
                  participant.Foremost connection :=
                (Participant.foremost_refresh _ _ _).trans
                  (@Participant.foremost_put participant connection live found rfl rfl)
              have cursors := presenceCursor_congr documents update
              simp only [present', found', cursors]
              split
              case isTrue absent =>
                refine iff_of_true entered ?_
                rintro ⟨_, _, _, _, _, _, _, _, known, _⟩
                exact absent.2 (documents ▸ known)
              case isFalse known =>
                have tab : update.currentTab = "" ∨ update.currentTab ∈ room'.documents := by
                  rw [not_and_or, not_not, not_not] at known
                  exact known
                split
                case h_1 error refused =>
                  refine (@putConnection_coherent_iff _ _ _ live _ _ entered present' found'
                    tab).trans ?_
                  rw [foremost]
                  constructor
                  · rintro stays ⟨_, participant, connection, listed, listed', _, foremost,
                      named, _, elsewhere, _⟩
                    cases present.symm.trans listed
                    cases found.symm.trans listed'
                    have unmoved := stays.resolve_right (not_not.mpr foremost)
                    rw [visit, if_pos named] at unmoved
                    exact elsewhere unmoved
                  · intro straight
                    by_contra neither
                    rw [not_or, not_not] at neither
                    obtain ⟨moved, leads⟩ := neither
                    have named : update.currentTab ≠ "" := by
                      intro unnamed
                      rw [visit, if_neg (not_not.mpr unnamed)] at moved
                      exact moved rfl
                    rw [visit, if_pos named] at moved
                    exact straight ⟨isOpen, participant, connection, present, found, current, leads,
                      named, documents ▸ tab.resolve_left named, moved, error, refused⟩
                case h_2 cursor accepted =>
                  refine iff_of_true (@settlePresence_coherent _ _ _ live _ _ entered present'
                    found'
                    tab _ (cursors.trans accepted) now) ?_
                  rintro ⟨_, _, _, _, _, _, _, _, _, _, error, refused⟩
                  cases refused.symm.trans accepted
            · simp only [present, found]
              rw [if_pos current]
              refine iff_of_true coherent ?_
              rintro ⟨_, participant, connection, present', found', same, _⟩
              cases present.symm.trans present'
              cases found.symm.trans found'
              exact current same
  · rw [ensureActive_closed isOpen]
    exact iff_of_true (coherent.of_roster rfl rfl rfl fun _ => id) fun skewed => isOpen skewed.1

/-- The update has a cursor that is not in the text of its revision. -/
def Misplaced (room : Room) (annals : Annals) (update : PresenceUpdate) : Prop :=
  update.documentID ≠ "" ∧ ∀ document, room.documents.lookup update.documentID = some document →
    document.compactedRevision ≤ update.revision →
    update.revision ≤ document.snapshot.currentRevision →
    ¬(⟨update.anchor, update.head⟩ : SelectionRange).Within
      (utf16Len (annals update.documentID update.revision))

theorem presenceCursor_misplaced {annals : Annals} (recollects : room.Recollects annals)
    (formed : ∀ id document, room.documents.lookup id = some document → document.Formed id)
    (update : PresenceUpdate) :
    (∃ error, room.presenceCursor update = .error error) ↔ room.Misplaced annals update := by
  by_cases unnamed : update.documentID = ""
  · refine iff_of_false ?_ fun misplaced => misplaced.1 unnamed
    rintro ⟨_, refused⟩
    rw [presenceCursor, if_pos unnamed] at refused
    cases refused
  · cases found : room.documents.lookup update.documentID with
    | none =>
        refine iff_of_true ⟨.documentNotFound, ?_⟩ ⟨unnamed, fun document present => ?_⟩
        · rw [presenceCursor, if_neg unnamed, found]
        · cases found.symm.trans present
    | some document =>
        by_cases outside : update.revision < document.compactedRevision ∨
            update.revision > document.snapshot.currentRevision
        · refine iff_of_true ⟨.invalidPresence, ?_⟩
            ⟨unnamed, fun document' present above below => ?_⟩
          · rw [presenceCursor, if_neg unnamed, found]
            exact if_pos outside
          · cases found.symm.trans present
            omega
        · have above : document.compactedRevision ≤ update.revision := by omega
          have below : update.revision ≤ document.snapshot.currentRevision := by omega
          rcases presenceCursor_spec unnamed found (recollects _ document found)
              (formed _ document found).history above below with
            ⟨within, mapped, accepted, _⟩ | ⟨out, refused⟩
          · refine iff_of_false ?_ fun misplaced => misplaced.2 document found above below within
            rintro ⟨_, refused⟩
            cases accepted.symm.trans refused
          · refine iff_of_true ⟨_, refused⟩ ⟨unnamed, fun document' present _ _ => ?_⟩
            exact out

end Room

/-! ## Calls -/

namespace Authority

/-- The request is a presence update that names another tab than the one in which the foremost
connection of its participant is, and a cursor that is not in the text of its revision. -/
def Skews (authority : Authority) (annals : Annals) (session : Session) (now : Time)
    (request : Request) : Prop :=
  ∃ update, request = .updatePresence update ∧ authority.room.Open now ∧
    ∃ participant connection,
      authority.room.participants.lookup session.participant = some participant ∧
      participant.connections.lookup session.connectionID = some connection ∧
      connection.generation = session.generation ∧ participant.Foremost connection ∧
      update.currentTab ≠ "" ∧ update.currentTab ∈ authority.room.documents ∧
      update.currentTab ≠ connection.currentTab ∧ authority.room.Misplaced annals update

variable [Host] {authority : Authority} {options : HubOptions} {annals : Annals}

theorem request_coherent_iff (coherent : authority.room.Coherent)
    (settled : authority.Settled options) (recollects : authority.room.Recollects annals)
    (session : Session) (now : Time) (fault : Bool) (request : Request) :
    (authority.request session now fault request).1.room.Coherent ↔
      ¬authority.Skews annals session now request := by
  have formed := settled.consistent.formed
  have listed : authority.room.Listed := ⟨formed.nonempty, formed.order, formed.present⟩
  have straight (other : ∀ update, request ≠ .updatePresence update) :
      ¬authority.Skews annals session now request := fun ⟨update, same, _⟩ => other update same
  cases request with
  | submitDocument operation =>
      exact iff_of_true (coherent.submitDocument _ _ _ _ _ _ _) (straight (by simp))
  | applyMetadata operation generator =>
      exact iff_of_true (coherent.applyMetadata listed _ _ _ _ _ _ _ _) (straight (by simp))
  | updatePresence update =>
      refine (Room.updatePresence_coherent_iff coherent _ _ _ _ _).trans (not_congr ?_)
      unfold Skews Room.Skewed
      simp only [Request.updatePresence.injEq, exists_eq_left', ←
        Room.presenceCursor_misplaced recollects formed.documents]
  | rename name => exact iff_of_true (coherent.rename _ _ _ _ _) (straight (by simp))
  | heartbeat => exact iff_of_true (coherent.ensureConnection _ _ _ _) (straight (by simp))
  | disconnect => exact iff_of_true (coherent.disconnect _ _ _ _) (straight (by simp))
  | setWatchOnly enabled =>
      exact iff_of_true (coherent.setWatchOnly _ _ _ _ _ _ _ _) (straight (by simp))
  | setLayoutPreset preset =>
      exact iff_of_true (coherent.setLayoutPreset _ _ _ _ _ _ _ _) (straight (by simp))

/-- The action is no such request. -/
def Straight (authority : Authority) (annals : Annals) (action : Action) : Prop :=
  ∀ session request, action.call = .request session request →
    ¬authority.Skews annals session action.now request

theorem perform_coherent_iff (coherent : authority.room.Coherent)
    (settled : authority.Settled options) (recollects : authority.room.Recollects annals)
    (action : Action) :
    (authority.perform action).1.room.Coherent ↔ authority.Straight annals action := by
  have formed := settled.consistent.formed
  have listed : authority.room.Listed := ⟨formed.nonempty, formed.order, formed.present⟩
  obtain ⟨call, now, fault⟩ := action
  have straight (other : ∀ session request, call ≠ .request session request) :
      authority.Straight annals ⟨call, now, fault⟩ := fun session request same =>
    absurd same (other session request)
  cases call with
  | join identity capability candidate =>
      refine iff_of_true ?_ (straight (by simp))
      change (authority.join identity capability candidate now).1.room.Coherent
      unfold join
      split
      case h_1 => exact coherent
      case h_2 => exact coherent.join listed _ _ _ _
  | request session request =>
      refine (request_coherent_iff coherent settled recollects session now fault request).trans ?_
      refine ⟨fun straight session' request' same => ?_, fun straight => straight _ _ rfl⟩
      cases same
      exact straight
  | sweep =>
      refine iff_of_true ?_ (straight (by simp))
      change (authority.room.sweep now).1.Coherent
      unfold Room.sweep
      split
      case isTrue => exact coherent
      case isFalse =>
        split
        case isTrue => exact coherent.close
        case isFalse => exact coherent.settledAt now
  | shouldEvict =>
      refine iff_of_true ?_ (straight (by simp))
      change (authority.room.shouldEvict now).1.Coherent
      unfold Room.shouldEvict
      split
      case isTrue => exact coherent
      case isFalse => exact coherent.pruneDisconnected now
  | shutdown =>
      refine iff_of_true ?_ (straight (by simp))
      change (authority.room.shutdown authority.store now fault).1.room.Coherent
      rw [shutdown_clean settled.clean]
      exact coherent.close
  | elsewhere store => exact iff_of_true coherent (straight (by simp))

end Authority

namespace Stage

section Led

variable [Host] {options : HubOptions} {stage : Stage} {annals : Annals}

theorem coherent_of_load {store store' : Store} {snapshot : RoomSnapshot} {faults : LoadFaults}
    {room : Room} (load : Room.newRoom store snapshot options faults = (store', .ok room)) :
    room.Coherent := by
  obtain ⟨_, participants, sessions, names, _⟩ := Room.newRoom_vacant load
  constructor
  case sessions =>
    rw [participants, sessions]
    exact .of_empty
  case names =>
    rw [participants, names]
    exact .of_empty
  all_goals
    intro id participant found
    rw [participants] at found
    cases found

theorem Led.coherent (led : Led options (fun stage annals action =>
    stage.authority.Straight annals action) stage annals) : stage.authority.room.Coherent := by
  induction led with
  | created authority valid started =>
      cases started with
      | created store created snapshot loaded fault now authority create read load =>
          exact coherent_of_load load
  | step stage annals action led possible apart straight coherent =>
      exact (Authority.perform_coherent_iff coherent led.settled led.recollects action).mpr straight
  | reload stage annals snapshot now authority led valid read load => exact coherent_of_load load

/-- The roster of a room is coherent as long as no presence update of the foremost connection of a
participant is refused that names another tab, and exactly such an update breaks it. -/
theorem roster_coherent (led : Led options (fun stage annals action =>
    stage.authority.Straight annals action) stage annals) :
    stage.authority.room.Coherent ∧ ∀ action : Action,
      (stage.step action).authority.room.Coherent ↔ stage.authority.Straight annals action :=
  ⟨led.coherent, Authority.perform_coherent_iff led.coherent led.settled led.recollects⟩

end Led

/-- A cursor that the action announces is one in its document. -/
def Placed (stage : Stage) (action : Action) : Prop :=
  match action.call with
  | .request _ (.updatePresence update) =>
      (stage.authority.room.presenceCursor update).toOption.isSome = true
  | .elsewhere _ => False
  | _ => True

instance (stage : Stage) (action : Action) : Decidable (stage.Placed action) := by
  unfold Placed
  split <;> infer_instance

/-- Every cursor that the actions announce is one in its document. -/
def AllPlaced [Host] : Stage → List Action → Prop
  | _, [] => True
  | stage, action :: actions => stage.Placed action ∧ (stage.step action).AllPlaced actions

instance decidableAllPlaced [Host] : (actions : List Action) → (stage : Stage) →
    Decidable (stage.AllPlaced actions)
  | [], _ => inferInstanceAs (Decidable True)
  | action :: actions, stage =>
      have := decidableAllPlaced actions (stage.step action)
      inferInstanceAs (Decidable (_ ∧ _))

section Placed

variable {options : HubOptions} {stage : Stage} {annals : Annals} {action : Action}

theorem Placed.straight (placed : stage.Placed action) (settled : stage.authority.Settled options)
    (recollects : stage.authority.room.Recollects annals) :
    stage.authority.Straight annals action := by
  rintro session request call ⟨update, rfl, _, _, _, _, _, _, _, _, _, _, misplaced⟩
  obtain ⟨error, refused⟩ := (Room.presenceCursor_misplaced recollects
    settled.consistent.formed.documents update).mpr misplaced
  rw [Placed, call] at placed
  change (stage.authority.room.presenceCursor update).toOption.isSome = true at placed
  rw [refused] at placed
  cases placed

theorem Placed.apart (placed : stage.Placed action) : stage.authority.Apart action := by
  intro store call
  rw [Placed, call] at placed
  cases placed

theorem AllPlaced.led [Host] {actions : List Action} (placed : stage.AllPlaced actions)
    (led : Led options (fun stage annals action => stage.authority.Straight annals action) stage
      annals) (possible : stage.Possible actions) :
    ∃ annals', Led options (fun stage annals action => stage.authority.Straight annals action)
      (stage.run actions) annals' := by
  induction actions generalizing stage annals with
  | nil => exact ⟨annals, led⟩
  | cons action actions induction =>
      obtain ⟨first, rest⟩ := placed
      have straight := first.straight led.settled led.recollects
      exact induction rest (.step stage annals action led possible.1 first.apart straight)
        possible.2

end Placed

/-- A participant creates a document and goes to it under another name, while the creator comes and
goes. -/
def smallRoster : List Action :=
  smallDesk ++ [smallJoin "bob" "desk" smallToken 4,
    ⟨.request (smallSession "ann" "page" 1 false) (.updatePresence ⟨"notes", "notes", 0, 0, 0⟩),
      unixTime 5, false⟩,
    ⟨.request (smallSession "ann" "page" 1 false) (.rename "anna"), unixTime 6, false⟩,
    ⟨.request (smallSession "bob" "desk" 1 true) .disconnect, unixTime 7, false⟩,
    ⟨.sweep, unixTime 60, false⟩]

/-- The roster of the small room is coherent after all that. -/
theorem roster_coherent_small :
    let room := (@run sampleHost (smallStage defaultHubOptions) smallRoster).authority.room
    @Room.Coherent sampleHost room ∧ (room.participants.lookup "p-demo-ann").map
      (fun participant => participant.snapshot.currentTab) = some "notes" := by
  have possible : @Possible sampleHost (smallStage defaultHubOptions) smallRoster :=
    ⟨trivial, ⟨by decide +kernel, trivial⟩, trivial, ⟨by decide +kernel, trivial⟩,
      ⟨by decide +kernel, trivial⟩, ⟨by decide +kernel, trivial⟩, trivial, trivial⟩
  have placed : @AllPlaced sampleHost (smallStage defaultHubOptions) smallRoster := by
    decide +kernel
  obtain ⟨annals, led⟩ := @AllPlaced.led _ _ _ sampleHost _ placed
    (@Led.created sampleHost _ (fun stage annals action =>
      stage.authority.Straight annals action) _ rfl small_started) possible
  exact ⟨(@roster_coherent sampleHost _ _ _ led).1, by decide +kernel⟩

/-- A participant is in one tab, and its snapshot shows another one. -/
theorem roster_skewed : ∃ stage annals, @Lived sampleHost defaultHubOptions stage annals ∧
    ¬@Room.Coherent sampleHost stage.authority.room := by
  have possible : @Possible sampleHost (smallStage defaultHubOptions) (smallDesk ++
      [⟨.request (smallSession "ann" "page" 1 false) (.updatePresence strayUpdate), unixTime 4,
        false⟩]) :=
    ⟨trivial, ⟨by decide +kernel, trivial⟩, ⟨by decide +kernel, trivial⟩, trivial⟩
  obtain ⟨annals, lived⟩ := @Led.run sampleHost _ _ _
    (@Led.created sampleHost _ (fun _ _ _ => True) _ rfl small_started) _ possible
    (by simp [smallDesk, smallJoin])
  refine ⟨_, annals, lived, fun coherent => ?_⟩
  have shown : ((@run sampleHost (smallStage defaultHubOptions) (smallDesk ++
      [⟨.request (smallSession "ann" "page" 1 false) (.updatePresence strayUpdate), unixTime 4,
        false⟩])).authority.room.participants.lookup "p-demo-ann").map (fun participant =>
          (participant.snapshot.currentTab, participant.connections.values.map
            Connection.currentTab)) = some ("main", ["notes"]) := by decide +kernel
  obtain ⟨participant, found, same⟩ := Option.map_eq_some_iff.mp shown
  rw [Prod.mk.injEq] at same
  have displayed := @Room.Coherent.displayed sampleHost _ coherent _ participant found
  obtain ⟨connection, values, tab⟩ := List.map_eq_singleton_iff.mp same.2
  have foremost := Participant.foremost_latest displayed.keyed values
  have agrees := (displayed.foremost _ foremost).1
  rw [same.1] at agrees
  exact absurd (agrees.trans tab) (by decide)

end Stage

end Oxbin.Live
