import Oxbin.Live.Handles

/-!
# Participants whose reconnect grace has passed

A participant is deleted when it has been without connections for too long.  The sweep announces
the participants that it deletes; joins and the check for eviction delete them in silence.
-/

namespace Oxbin.Live

open Livecollab Storage

namespace Room

/-! ## Members -/

/-- The same participants are in the room. -/
def SameMembers (room room' : Room) : Prop :=
  ∀ id, id ∈ room'.participants ↔ id ∈ room.participants

theorem SameMembers.refl (room : Room) : room.SameMembers room := fun _ => Iff.rfl

theorem SameMembers.trans {first second third : Room} (before : first.SameMembers second)
    (after : second.SameMembers third) : first.SameMembers third :=
  fun id => (after id).trans (before id)

theorem Touched.sameMembers {room room' : Room} (touched : room.Touched room') :
    room.SameMembers room' := by
  intro id
  have related := touched.participants id
  rw [← AList.lookup_isSome, ← AList.lookup_isSome]
  generalize room.participants.lookup id = before at related ⊢
  generalize room'.participants.lookup id = after at related ⊢
  cases related <;> exact Iff.rfl

theorem SameRoster.sameMembers {room room' : Room} (same : room.SameRoster room') :
    room.SameMembers room' := by
  intro id
  rw [same.participants]

/-- Another state of a participant. -/
theorem insert_sameMembers {room room' : Room} {id : String} {participant : Participant}
    (present : room.participants.lookup id = some participant) {participant' : Participant}
    (participants : room'.participants = room.participants.insert id participant') :
    room.SameMembers room' := by
  intro other
  rw [participants, AList.mem_insert]
  constructor
  · rintro (rfl | member)
    · exact AList.lookup_isSome.mp (by rw [present]; rfl)
    · exact member
  · exact .inr

theorem left_sameMembers (room : Room) (operation : MetadataOperation) :
    room.SameMembers (room.left operation) := fun id => Keyed.mem_mapKeyed _ room.participants id

theorem locked_sameMembers (room : Room) (enabled : Bool) :
    room.SameMembers (room.locked enabled) := fun id => Keyed.mem_mapKeyed _ room.participants id

theorem close_sameMembers (room : Room) : room.SameMembers room.close :=
  fun id => Keyed.mem_mapKeyed _ room.participants id

theorem expireConnections_sameMembers (room : Room) (now : Time) :
    room.SameMembers (room.expireConnections now) :=
  fun id => Keyed.mem_mapKeyed _ room.participants id

section Calls

variable {room : Room} (rostered : room.Rostered)

include rostered

theorem heartbeat_sameMembers (participantID connectionID : String) (generation : Nat)
    (now : Time) :
    room.SameMembers (room.heartbeat participantID connectionID generation now).1 := by
  have gate := ensureConnection_gate rostered participantID connectionID generation now
  unfold heartbeat
  generalize room.ensureConnection participantID connectionID generation now = outcome at gate ⊢
  cases gate with
  | past => exact .refl room
  | gone => exact .refl room
  | live room' _ _ touched => exact touched.sameMembers

theorem rename_sameMembers [Host] (participantID connectionID : String) (generation : Nat)
    (name : String) (now : Time) :
    room.SameMembers (room.rename participantID connectionID generation name now).1 := by
  have gate := ensureConnection_gate rostered participantID connectionID generation now
  unfold rename
  generalize room.ensureConnection participantID connectionID generation now = outcome at gate ⊢
  cases gate with
  | past => exact .refl room
  | gone => exact .refl room
  | live room' _ _ touched rostered' =>
      have entered := touched.sameMembers
      simp only
      split
      case h_1 => exact entered
      case h_2 =>
        split
        case h_1 => exact entered
        case h_2 participant present =>
          let renamed : Room := { room' with
            names := (room'.names.erase (nameKey participant.snapshot.nickname)).insert
              (nameKey name) participantID
            participants := room'.participants.insert participantID { participant with
              snapshot := { participant.snapshot with nickname := name } } }
          have named : room'.Thins renamed := replaceParticipant_thins rostered' present
            { participant with snapshot := { participant.snapshot with nickname := name } }
            ⟨rfl, rfl, rfl, rfl, fun _ connection found => ⟨connection, found, rfl⟩⟩
            ((rostered' _ participant present).renamed name) rfl rfl rfl rfl
          have marked := (markConnectionActivity_touched named.2 participantID connectionID
            now).1.sameMembers
          have replaced : room'.SameMembers renamed := insert_sameMembers present rfl
          have success := entered.trans (replaced.trans marked)
          split
          all_goals
            split
            · exact entered
            · exact success

theorem updatePresence_sameMembers (participantID connectionID : String) (generation : Nat)
    (update : PresenceUpdate) (now : Time) :
    room.SameMembers (room.updatePresence participantID connectionID generation update now).1 := by
  have gate := ensureConnection_gate rostered participantID connectionID generation now
  unfold updatePresence
  generalize room.ensureConnection participantID connectionID generation now = outcome at gate ⊢
  cases gate with
  | past => exact .refl room
  | gone => exact .refl room
  | live room' _ _ touched rostered' =>
      have entered := touched.sameMembers
      simp only
      split
      case h_1 => exact entered
      case h_2 participant present =>
        split
        case h_1 => exact entered
        case h_2 connection found =>
          split
          case isTrue => exact entered
          case isFalse => split <;> exact entered.trans (insert_sameMembers present rfl)

end Calls

theorem disconnect_sameMembers (room : Room) (participantID connectionID : String)
    (generation : Nat) (now : Time) :
    room.SameMembers (room.disconnect participantID connectionID generation now).1 := by
  unfold disconnect
  split
  case h_1 => exact .refl room
  case h_2 participant present =>
    split
    case h_1 => exact .refl room
    case h_2 connection found =>
      split
      case isTrue => exact .refl room
      case isFalse => exact insert_sameMembers present rfl

theorem Entry.sameMembers {α : Type} {room : Room} {store : Store} {session : Session}
    {now : Time} {allowed : Room → Prop} {body : Room → Outcome α} {outcome : Outcome α}
    (entry : room.Entry store session now allowed body outcome)
    (same : ∀ room' : Room, room'.SameMembers (body room').1.room) :
    room.SameMembers outcome.1.room := by
  cases entry with
  | past => exact .refl room
  | gone => exact .refl room
  | refused room' _ _ touched => exact touched.sameMembers
  | admitted room' _ _ touched => exact touched.sameMembers.trans (same room')

theorem ModeEntry.sameMembers {room : Room} {store : Store} {session : Session} {now : Time}
    {change : Room → Room} {save : Except LiveError Store} {outcome : Outcome RoomState}
    (entry : room.ModeEntry store session now change save outcome)
    (same : ∀ room' : Room, room'.SameMembers (change room')) :
    room.SameMembers outcome.1.room := by
  cases entry with
  | past => exact .refl room
  | gone => exact .refl room
  | refused room' _ _ touched => exact touched.sameMembers
  | unchanged room' _ _ touched => exact touched.sameMembers
  | changed room' _ _ touched => exact touched.sameMembers.trans (same room')

/-- A call of a session adds and deletes nobody. -/
theorem request_sameMembers [Host] {authority : Authority} (rostered : authority.room.Rostered)
    (session : Session) (now : Time) (fault : Bool) (request : Request) :
    authority.room.SameMembers (authority.request session now fault request).1.room := by
  cases request with
  | submitDocument operation =>
      exact (submitDocument_entry rostered authority.store session now fault operation).sameMembers
        fun room' => (acceptDocument_sameRoster room' _ operation now fault).sameMembers
  | applyMetadata operation generator =>
      refine (applyMetadata_entry rostered authority.store session now fault operation
        generator).sameMembers fun room' => ?_
      rcases room'.acceptMetadata_roster authority.store operation generator now fault with
        ⟨_, same⟩ | ⟨_, same⟩
      · exact same.sameMembers
      · exact (room'.left_sameMembers operation).trans same.sameMembers
  | updatePresence update => exact updatePresence_sameMembers rostered _ _ _ _ _
  | rename name => exact rename_sameMembers rostered _ _ _ _ _
  | heartbeat => exact heartbeat_sameMembers rostered _ _ _ _
  | disconnect => exact disconnect_sameMembers _ _ _ _ _
  | setWatchOnly enabled =>
      exact (setWatchOnly_entry rostered authority.store session now fault enabled).sameMembers
        fun room' => room'.locked_sameMembers enabled
  | setLayoutPreset preset =>
      exact (setLayoutPreset_entry rostered authority.store session now fault preset).sameMembers
        fun room' => .refl room'

/-! ## Members after a join -/

theorem mem_pruneDisconnected_iff [Host] (room : Room) (now : Time) (id : String) :
    id ∈ (room.pruneDisconnected now).1.participants ↔
      id ∈ room.participants ∧ id ∉ (room.pruneDisconnected now).2 := by
  rw [← AList.lookup_isSome, pruneDisconnected_lookup, ← AList.lookup_isSome]
  split
  case isTrue member => simp [member]
  case isFalse absent => simp [absent]

/-- A join leaves everybody in the room whose grace has not passed. -/
theorem join_members [Host] {room : Room} (rostered : room.Rostered) (identity : JoinIdentity)
    (capability : CreatorCapability) (candidate : Nat → Option String) {now : Time} {id : String}
    (member : id ∈ room.participants)
    (stays : room.Open now → id ∉ ((room.expireConnections now).pruneDisconnected now).2) :
    id ∈ (room.join identity capability candidate now).1.participants := by
  have ends := room.join_outcome identity capability candidate now
  have settled (isOpen : room.Open now) : id ∈ (room.settledAt now).participants :=
    (mem_pruneDisconnected_iff _ _ _).mpr
      ⟨(room.expireConnections_sameMembers now id).mpr member, stays isOpen⟩
  generalize room.join identity capability candidate now = outcome at ends ⊢
  cases ends with
  | past => exact member
  | refused isOpen => exact settled isOpen
  | joined isOpen sessions within room' result joined =>
      have base : Rostered { room.settledAt now with sessions } := rostered.settledAt now
      obtain ⟨_, participant', admission⟩ := joined.admission base
      rw [← AList.lookup_isSome, admission.participants]
      split
      · rfl
      · exact AList.lookup_isSome.mpr (settled isOpen)

theorem sweep_members [Host] (room : Room) {now : Time} {id : String}
    (member : id ∈ room.participants) :
    id ∈ (room.sweep now).1.participants ∨ id ∈ (room.sweep now).2 := by
  unfold sweep
  split
  case isTrue => exact .inl member
  case isFalse =>
    split
    case isTrue => exact .inl ((room.close_sameMembers id).mpr member)
    case isFalse =>
      by_cases gone : id ∈ ((room.expireConnections now).pruneDisconnected now).2
      · exact .inr gone
      · exact .inl ((mem_pruneDisconnected_iff _ _ _).mpr
          ⟨(room.expireConnections_sameMembers now id).mpr member, gone⟩)

theorem shutdown_sameMembers (room : Room) (store : Store) (now : Time) (fault : Bool) :
    room.SameMembers (room.shutdown store now fault).1.room := by
  unfold shutdown
  simp only
  split
  · split
    · exact .refl room
    · exact room.close_sameMembers
  · exact room.close_sameMembers

end Room

/-! ## Announcements -/

/-- The participants whose removal a call announces. -/
def Answer.announced : Except LiveError Answer → List String
  | .ok (.removed participantIDs) => participantIDs
  | _ => []

namespace Authority

/-- The call deletes the participant because its reconnect grace has passed, and the room stays
registered. -/
def Lapses [Host] (authority : Authority) (action : Action) (id : String) : Prop :=
  match action.call with
  | .join identity _ _ => identity.validate = .ok () ∧ authority.room.Open action.now ∧
      id ∈ ((authority.room.expireConnections action.now).pruneDisconnected action.now).2
  | .sweep => authority.room.Open action.now ∧
      id ∈ ((authority.room.expireConnections action.now).pruneDisconnected action.now).2
  | .shouldEvict => authority.room.closed = false ∧
      (authority.room.pruneDisconnected action.now).1.participants.entries ≠ [] ∧
      id ∈ (authority.room.pruneDisconnected action.now).2
  | _ => False

/-- Every participant that is deleted is announced, once, and nobody else is. -/
structure Announced [Host] (authority : Authority) (action : Action) : Prop where
  lapsed : ∀ id, authority.Lapses action id →
    (Answer.announced (authority.perform action).2).count id = 1
  departed : ∀ id, id ∈ authority.room.participants →
    id ∉ (authority.perform action).1.room.participants →
      (authority.perform action).2 = .ok (.evict true) ∨
        id ∈ Answer.announced (authority.perform action).2
  only : ∀ id ∈ Answer.announced (authority.perform action).2, authority.Lapses action id

end Authority

/-- The reconnect grace of nobody has passed. -/
def Room.Timely (room : Room) (now : Time) : Prop :=
  ∀ id participant, room.participants.lookup id = some participant →
    Room.gone room.options now participant = false

/-- When a join or a check for eviction comes, a sweep has deleted everybody whose grace has
passed. -/
def Authority.Swept (authority : Authority) (action : Action) : Prop :=
  match action.call with
  | .join identity _ _ => identity.validate = .ok () → authority.room.Open action.now →
      (authority.room.expireConnections action.now).Timely action.now
  | .shouldEvict => authority.room.closed = false →
      (∃ id participant, authority.room.participants.lookup id = some participant ∧
        Room.gone authority.room.options action.now participant = false) →
      authority.room.Timely action.now
  | _ => True

namespace Room

theorem timely_iff [Host] (room : Room) (now : Time) :
    room.Timely now ↔ ∀ id, id ∉ (room.pruneDisconnected now).2 := by
  simp only [mem_pruneDisconnected, not_exists, not_and, Bool.not_eq_true]
  rfl

theorem stays_iff [Host] (room : Room) (now : Time) :
    (room.pruneDisconnected now).1.participants.entries ≠ [] ↔
      ∃ id participant, room.participants.lookup id = some participant ∧
        gone room.options now participant = false := by
  constructor
  · intro nonempty
    obtain ⟨⟨id, participant⟩, listed⟩ := List.exists_mem_of_ne_nil _ nonempty
    have present := AList.mem_lookup_iff.mpr listed
    rw [Option.mem_def, pruneDisconnected_lookup] at present
    split at present
    case isTrue => cases present
    case isFalse kept =>
      rw [mem_pruneDisconnected, not_exists] at kept
      exact ⟨id, participant, present,
        Bool.eq_false_iff.mpr fun gone => kept participant ⟨present, gone⟩⟩
  · rintro ⟨id, participant, present, kept⟩ empty
    have member : id ∈ (room.pruneDisconnected now).1.participants := by
      refine (mem_pruneDisconnected_iff _ _ _).mpr
        ⟨AList.lookup_isSome.mp (by rw [present]; rfl), ?_⟩
      rw [mem_pruneDisconnected]
      rintro ⟨other, present', gone⟩
      cases present.symm.trans present'
      cases kept.symm.trans gone
    rw [AList.mem_keys, AList.keys, empty] at member
    cases member

end Room

namespace Authority

/-- A call that announces nothing is in order when it deletes nobody. -/
theorem announced_iff_of_silent [Host] (authority : Authority) (action : Action)
    (silent : Answer.announced (authority.perform action).2 = [])
    (departed : (∀ id, ¬authority.Lapses action id) → ∀ id, id ∈ authority.room.participants →
      id ∉ (authority.perform action).1.room.participants →
        (authority.perform action).2 = .ok (.evict true)) :
    authority.Announced action ↔ ∀ id, ¬authority.Lapses action id := by
  constructor
  · intro announced id lapses
    have once := announced.lapsed id lapses
    rw [silent] at once
    cases once
  · intro kept
    refine ⟨fun id lapses => absurd lapses (kept id),
      fun id member absent => .inl (departed kept id member absent), fun id member => ?_⟩
    rw [silent] at member
    cases member

theorem request_silent [Host] (authority : Authority) (session : Session) (now : Time)
    (fault : Bool) (request : Request) :
    Answer.announced (authority.request session now fault request).2 = [] := by
  have quiet {α : Type} (answer : α → Answer)
      (quiet : ∀ value, Answer.announced (.ok (answer value)) = []) (result : Except LiveError α) :
      Answer.announced (result.map answer) = [] := by
    cases result with
    | error => rfl
    | ok value => exact quiet value
  cases request <;> exact quiet _ (fun _ => rfl) _

theorem join_silent [Host] (authority : Authority) (identity : JoinIdentity)
    (capability : CreatorCapability) (candidate : Nat → Option String) (now : Time) :
    Answer.announced (authority.join identity capability candidate now).2 = [] := by
  unfold join
  split
  · rfl
  · simp only
    cases (authority.room.join identity capability candidate now).2 <;> rfl

theorem sweep_announced [Host] (room : Room) (now : Time) :
    (room.Open now ∧ (room.sweep now).2 =
      ((room.expireConnections now).pruneDisconnected now).2) ∨
      ¬room.Open now ∧ (room.sweep now).2 = [] := by
  unfold Room.sweep
  split
  case isTrue closed => exact .inr ⟨fun isOpen => by simp [isOpen.1] at closed, rfl⟩
  case isFalse active =>
    split
    case isTrue late => exact .inr ⟨fun isOpen => absurd isOpen.2 (by omega), rfl⟩
    case isFalse early => exact .inl ⟨⟨Bool.eq_false_iff.mpr active, by omega⟩, rfl⟩

/-- A call is in order exactly when a sweep has come before it. -/
theorem announced_iff [Host] {authority : Authority} (rostered : authority.room.Rostered)
    (action : Action) : authority.Announced action ↔ authority.Swept action := by
  obtain ⟨call, now, fault⟩ := action
  cases call with
  | join identity capability candidate =>
      rw [announced_iff_of_silent authority ⟨.join identity capability candidate, now, fault⟩
        (join_silent authority identity capability candidate now)]
      · constructor
        · intro kept valid isOpen
          exact (Room.timely_iff _ _).mpr fun id gone => kept id ⟨valid, isOpen, gone⟩
        · rintro swept id ⟨valid, isOpen, gone⟩
          exact (Room.timely_iff _ _).mp (swept valid isOpen) id gone
      · intro kept id member absent
        refine absurd ?_ absent
        simp only [perform, join]
        split
        case h_1 => exact member
        case h_2 valid =>
          exact Room.join_members rostered identity capability candidate member
            fun isOpen gone => kept id ⟨valid, isOpen, gone⟩
  | request session request =>
      rw [announced_iff_of_silent authority ⟨.request session request, now, fault⟩
        (request_silent authority session now fault request)]
      · exact iff_of_true (fun _ => not_false) trivial
      · exact fun _ id member absent => absurd
          ((Room.request_sameMembers rostered session now fault request id).mpr member) absent
  | sweep =>
      refine iff_of_true ⟨?_, ?_, ?_⟩ trivial
      · rintro id ⟨isOpen, gone⟩
        rcases sweep_announced authority.room now with ⟨_, same⟩ | ⟨past, _⟩
        · simp only [perform, Answer.announced, same]
          exact List.count_eq_one_of_mem (Room.pruneDisconnected_nodup _ _) gone
        · exact absurd isOpen past
      · intro id member absent
        exact .inr ((authority.room.sweep_members member).resolve_left absent)
      · intro id announced
        simp only [perform, Answer.announced] at announced
        rcases sweep_announced authority.room now with ⟨isOpen, same⟩ | ⟨_, none⟩
        · exact ⟨isOpen, same ▸ announced⟩
        · rw [none] at announced
          cases announced
  | shouldEvict =>
      rw [announced_iff_of_silent authority ⟨.shouldEvict, now, fault⟩ rfl]
      · constructor
        · intro kept active stays
          exact (Room.timely_iff _ _).mpr fun id gone =>
            kept id ⟨active, (Room.stays_iff _ _).mpr stays, gone⟩
        · rintro swept id ⟨active, stays, gone⟩
          exact (Room.timely_iff _ _).mp (swept active ((Room.stays_iff _ _).mp stays)) id gone
      · intro kept id member absent
        simp only [perform, Room.shouldEvict] at absent ⊢
        split at absent
        case isTrue => exact absurd member absent
        case isFalse active =>
          rw [if_neg active]
          by_cases empty :
              (authority.room.pruneDisconnected now).1.participants.entries = []
          · rw [empty]
            rfl
          · refine absurd ⟨Bool.eq_false_iff.mpr active, empty, ?_⟩ (kept id)
            by_contra listed
            exact absent ((Room.mem_pruneDisconnected_iff _ _ _).mpr ⟨member, listed⟩)
  | shutdown =>
      have silent : Answer.announced (authority.perform ⟨.shutdown, now, fault⟩).2 = [] := by
        simp only [perform]
        cases (authority.room.shutdown authority.store now fault).2 <;> rfl
      rw [announced_iff_of_silent authority ⟨.shutdown, now, fault⟩ silent]
      · exact iff_of_true (fun _ => not_false) trivial
      · exact fun _ id member absent => absurd
          ((Room.shutdown_sameMembers _ authority.store now fault id).mpr member) absent
  | elsewhere store =>
      rw [announced_iff_of_silent authority ⟨.elsewhere store, now, fault⟩ rfl]
      · exact iff_of_true (fun _ => not_false) trivial
      · exact fun _ id member absent => absurd member absent

end Authority

namespace Stage

/-- In a run every removal is announced exactly when a sweep comes before every join and every
check for eviction that finds somebody whose grace has passed. -/
theorem removals_announced [Host] {options : HubOptions} {stage : Stage}
    (reachable : Reachable options stage) {actions : List Action}
    (possible : stage.Possible actions) :
    (∀ before action after, actions = before ++ action :: after →
        (stage.run before).authority.Announced action) ↔
      ∀ before action after, actions = before ++ action :: after →
        (stage.run before).authority.Swept action := by
  refine forall_congr' fun before => forall_congr' fun action => forall_congr' fun after =>
    forall_congr' fun split => ?_
  subst split
  exact Authority.announced_iff
    (reachable.run (possible_append.mp possible).1).rostered action

/-- Two participants join the small room, and one of them leaves it. -/
def smallParting : List Action :=
  [smallJoin "ann" "page" [] 2, smallJoin "bob" "page" [] 2,
    ⟨.request (smallSession "ann" "page" 1 false) .disconnect, unixTime 3, false⟩]

/-- A join after the reconnect grace deletes a participant in silence. -/
theorem removals_announced_silent :
    let parted := @run sampleHost (smallStage defaultHubOptions) smallParting
    let joined := @Authority.perform sampleHost parted.authority (smallJoin "eve" "page" [] 40)
    @Possible sampleHost (smallStage defaultHubOptions) (smallParting ++
        [smallJoin "eve" "page" [] 40]) ∧
      (parted.authority.room.participants.lookup "p-demo-ann").isSome = true ∧
      (joined.1.room.participants.lookup "p-demo-ann").isSome = false ∧
      (joined.1.room.participants.lookup "p-demo-bob").isSome = true ∧
      joined.1.room.closed = false ∧ Answer.announced joined.2 = [] := by
  refine ⟨⟨trivial, trivial, ⟨by decide +kernel, trivial⟩, trivial, trivial⟩, ?_⟩
  refine ⟨?_, ?_, ?_, ?_, ?_⟩
  all_goals decide +kernel

/-- A sweep after the reconnect grace announces the participant that it deletes. -/
theorem removals_announced_small :
    @Authority.Announced sampleHost
      (@run sampleHost (smallStage defaultHubOptions) smallVisit).authority
      ⟨.sweep, unixTime 40, false⟩ := by
  have reachable := @Reachable.run sampleHost _ _
    (@Reachable.loaded sampleHost _ _ small_loaded) _ smallVisit_possible
  refine (@removals_announced sampleHost _ _ reachable [⟨.sweep, unixTime 40, false⟩]
    ⟨trivial, trivial⟩).mpr ?_ [] _ [] rfl
  intro before action after split
  cases before with
  | nil =>
      cases split
      trivial
  | cons _ before => cases before <;> cases split

end Stage

end Oxbin.Live
