import Oxbin.Live.Membership

/-!
# Sessions whose connection is gone

A session names its connection by the participant, the connection ID and a generation that the
participant counts.  Without that connection every call of the session is refused, until a join
counts to the same generation again: the counter goes with a participant that is deleted.
-/

namespace Oxbin.Live

open Livecollab Storage

namespace Room

/-! ## Calls without a connection -/

theorem ensureConnection_gone {room : Room} (rostered : room.Rostered)
    {participantID connectionID : String} {generation : Nat}
    (gone : ¬room.Holds participantID connectionID generation) (now : Time) :
    ∃ room' error, room.ensureConnection participantID connectionID generation now =
        (room', .error error) ∧
      (room' = room ∨ ¬room.Open now ∧ room' = { room with closed := true }) := by
  have gate := ensureConnection_gate rostered participantID connectionID generation now
  generalize room.ensureConnection participantID connectionID generation now = outcome at gate ⊢
  cases gate with
  | past past => exact ⟨_, _, rfl, .inr ⟨past, rfl⟩⟩
  | gone _ error => exact ⟨room, error, rfl, .inl rfl⟩
  | live _ _ holds => exact absurd holds gone

theorem disconnect_gone {room : Room} {participantID connectionID : String} {generation : Nat}
    (gone : ¬room.Holds participantID connectionID generation) (now : Time) :
    ∃ error, room.disconnect participantID connectionID generation now =
      (room, .error error) := by
  unfold disconnect
  split
  case h_1 => exact ⟨_, rfl⟩
  case h_2 participant present =>
    split
    case h_1 => exact ⟨_, rfl⟩
    case h_2 connection found =>
      split
      case isTrue => exact ⟨_, rfl⟩
      case isFalse current =>
        exact absurd ⟨participant, connection, present, found, not_not.mp current⟩ gone

/-- Without its connection a session is refused, and at most the expiry of the room is noted. -/
theorem request_gone [Host] {authority : Authority} (rostered : authority.room.Rostered)
    {session : Session}
    (gone : ¬authority.room.Holds session.participant session.connectionID session.generation)
    (now : Time) (fault : Bool) (request : Request) :
    ∃ authority' error, authority.request session now fault request =
        (authority', .error error) ∧
      (authority' = authority ∨ ¬authority.room.Open now ∧
        authority' = { authority with room := { authority.room with closed := true } }) := by
  obtain ⟨room', error, refused, rest⟩ := ensureConnection_gone rostered gone now
  have noted (authority' : Authority) (same : authority' = { authority with room := room' }) :
      authority' = authority ∨ ¬authority.room.Open now ∧
        authority' = { authority with room := { authority.room with closed := true } } := by
    subst same
    rcases rest with rfl | ⟨past, rfl⟩
    · exact .inl rfl
    · exact .inr ⟨past, rfl⟩
  cases request
  case disconnect =>
    obtain ⟨error, refused⟩ := disconnect_gone gone now
    refine ⟨authority, error, ?_, .inl rfl⟩
    simp only [Authority.request, refused]
    rfl
  all_goals
    refine ⟨{ authority with room := room' }, error, ?_, noted _ rfl⟩
    simp only [Authority.request, submitDocument, applyMetadata, updatePresence, rename, heartbeat,
      setWatchOnly, setLayoutPreset, refused]
    rfl

theorem heartbeat_live [Host] {authority : Authority} (rostered : authority.room.Rostered)
    {session : Session} {now : Time} (isOpen : authority.room.Open now)
    (holds : authority.room.Holds session.participant session.connectionID session.generation)
    (fault : Bool) :
    (authority.request session now fault .heartbeat).2 = .ok .done := by
  have gate := ensureConnection_gate rostered session.participant session.connectionID
    session.generation now
  simp only [Authority.request, heartbeat]
  generalize authority.room.ensureConnection session.participant session.connectionID
    session.generation now = outcome at gate ⊢
  cases gate with
  | past past => exact absurd isOpen past
  | gone gone => exact absurd holds gone
  | live => rfl

/-! ## The generations of a participant -/

/-- The generation of the latest connection of a participant; a participant that the room does
not know starts at zero. -/
def latestGeneration (room : Room) (participantID : String) : Nat :=
  match room.participants.lookup participantID with
  | none => 0
  | some participant => participant.nextGeneration

/-- Every credential stands for the participant that is named after it. -/
def Credentialed [Host] (room : Room) : Prop :=
  ∀ credential participantID, room.sessions.lookup credential = some participantID →
    participantIDForRoom room.snapshot.slug credential = .ok participantID

theorem Credentialed.continues [Host] {room room' : Room} (credentialed : room.Credentialed)
    (continues : room.Continues room') : room'.Credentialed := by
  intro credential participantID found
  obtain ⟨known, found, same⟩ := continues.sessions credential participantID found
  exact continues.slug ▸ same ▸ credentialed credential known found

/-- A join takes the next generation of the participant that is named after its credential. -/
theorem Joined.handle [Host] {room room' : Room} (rostered : room.Rostered)
    (credentialed : room.Credentialed) {identity : JoinIdentity} {creator : Bool} {now : Time}
    {session : Session} (joined : room.Joined identity creator now room' session) :
    participantIDForRoom room.snapshot.slug identity.participantCredential =
        .ok session.participant ∧
      session.connectionID = identity.connectionID ∧
      session.generation = room.latestGeneration session.participant + 1 ∧
      room'.Credentialed := by
  cases joined with
  | again participantID participant known present =>
      have named := (rostered _ participant present).id
      refine ⟨named ▸ credentialed _ _ known, rfl, ?_, credentialed⟩
      rw [latestGeneration, named, present]
  | first participantID nickname accessClass space access named fresh =>
      refine ⟨named, rfl, ?_, fun credential other found => ?_⟩
      · rw [latestGeneration, AList.lookup_eq_none.mpr fresh]
      · rw [Keyed.lookup_insert_if] at found
        split at found
        case isTrue same =>
          cases found
          exact same ▸ named
        case isFalse => exact credentialed credential other found

end Room

namespace Stage

theorem Loaded.credentialed [Host] {options : HubOptions} {stage : Stage}
    (loaded : Loaded options stage) : stage.authority.room.Credentialed := by
  cases loaded with
  | newRoom store snapshot faults authority valid load =>
      intro credential participantID found
      rw [(Room.newRoom_vacant load).sessions] at found
      cases found

theorem Reachable.credentialed [Host] {options : HubOptions} {stage : Stage}
    (reachable : Reachable options stage) : stage.authority.room.Credentialed := by
  induction reachable with
  | loaded stage loaded => exact loaded.credentialed
  | step stage action reachable possible credentialed =>
      have move := Authority.perform_move reachable.rostered action
      unfold Stage.step
      generalize stage.authority.perform action = outcome at move ⊢
      cases move with
      | thins outcome thins => exact credentialed.continues thins.1
      | joins identity capability candidate call isOpen sessions narrowed room' result joined =>
          have base := credentialed.continues
            (stage.authority.room.narrowed_continues action.now narrowed)
          have rostered : Room.Rostered { stage.authority.room.settledAt action.now with
              sessions } := reachable.rostered.settledAt action.now
          exact (joined.handle rostered base).2.2.2

/-! ## Revival -/

/-- The room accepts a join of the participant of the session, under the connection ID of the
session, and the generations of the participant stand just below the one of the session. -/
def Revives [Host] (stage : Stage) (session : Session) (action : Action) : Prop :=
  ∃ identity capability candidate, action.call = .join identity capability candidate ∧
    participantIDForRoom stage.authority.room.snapshot.slug identity.participantCredential =
      .ok session.participant ∧
    identity.connectionID = session.connectionID ∧
    (stage.authority.room.settledAt action.now).latestGeneration session.participant + 1 =
      session.generation ∧
    ∃ result, (stage.authority.perform action).2 = .ok (.joined result)

/-- Only a revival brings the connection of a session back. -/
theorem Reachable.revives_of_holds [Host] {options : HubOptions} {stage : Stage}
    (reachable : Reachable options stage) {session : Session}
    (gone : ¬stage.authority.room.Holds session.participant session.connectionID
      session.generation) {action : Action}
    (holds : (stage.step action).authority.room.Holds session.participant session.connectionID
      session.generation) : stage.Revives session action := by
  have move := Authority.perform_move reachable.rostered action
  unfold Stage.step at holds
  unfold Revives
  generalize stage.authority.perform action = outcome at move holds ⊢
  cases move with
  | thins outcome thins => exact absurd (thins.1.holds holds) gone
  | joins identity capability candidate call isOpen sessions narrowed room' result joined =>
      have settled := stage.authority.room.narrowed_continues action.now narrowed
      have rostered : Room.Rostered { stage.authority.room.settledAt action.now with
          sessions } := reachable.rostered.settledAt action.now
      obtain ⟨named, connection, generation, _⟩ :=
        joined.handle rostered (reachable.credentialed.continues settled)
      obtain ⟨_, participant', admission⟩ := joined.admission rostered
      rcases (admission.holds_iff _ _ _).mp holds with
        ⟨participant, connection', generation'⟩ | holds
      · rw [participant, connection', generation']
        exact ⟨identity, capability, candidate, call, settled.slug ▸ named, connection.symm,
          generation.symm, result, rfl⟩
      · exact absurd (settled.holds holds) gone

/-- A revival brings the connection of a session back to an open room. -/
theorem Revives.holds [Host] {options : HubOptions} {stage : Stage}
    (reachable : Reachable options stage) {session : Session} {action : Action}
    (revives : stage.Revives session action) :
    (stage.step action).authority.room.Holds session.participant session.connectionID
      session.generation ∧ (stage.step action).authority.room.Open action.now := by
  obtain ⟨_, _, _, call, named, connection, generation, _, succeeds⟩ := revives
  have move := Authority.perform_move reachable.rostered action
  unfold Stage.step
  generalize stage.authority.perform action = outcome at move succeeds ⊢
  cases move with
  | thins outcome thins issues =>
      rw [succeeds] at issues
      cases issues
  | joins identity capability candidate call' isOpen sessions narrowed room' result joined =>
      have settled := stage.authority.room.narrowed_continues action.now narrowed
      have rostered : Room.Rostered { stage.authority.room.settledAt action.now with
          sessions } := reachable.rostered.settledAt action.now
      obtain ⟨named', connection', generation', _⟩ :=
        joined.handle rostered (reachable.credentialed.continues settled)
      obtain ⟨_, participant', admission⟩ := joined.admission rostered
      cases call.symm.trans call'
      have participant := Except.ok.inj (named.symm.trans (settled.slug ▸ named'))
      have same : session.generation = result.session.generation := by
        rw [← generation, participant]
        exact generation'.symm
      refine ⟨(admission.holds_iff _ _ _).mpr
        (.inl ⟨participant, (connection'.trans connection).symm, same⟩), ?_⟩
      obtain ⟨shared, closed⟩ := joined.rest
      obtain ⟨shared', closed'⟩ := stage.authority.room.settledAt_rest action.now
      constructor
      · exact (closed.trans closed').trans isOpen.1
      · rw [Room.snapshot_of_shared (shared.trans shared')]
        exact isOpen.2

/-- Without a revival the connection of a session stays away. -/
theorem Reachable.gone_run [Host] {options : HubOptions} {stage : Stage}
    (reachable : Reachable options stage) {session : Session}
    (gone : ¬stage.authority.room.Holds session.participant session.connectionID
      session.generation) {actions : List Action} (possible : stage.Possible actions)
    (quiet : ∀ before action after, actions = before ++ action :: after →
      ¬(stage.run before).Revives session action) :
    ¬(stage.run actions).authority.room.Holds session.participant session.connectionID
      session.generation := by
  induction actions generalizing stage with
  | nil => exact gone
  | cons action actions induction =>
      refine induction (.step stage action reachable possible.1) ?_ possible.2 ?_
      · exact fun holds => quiet [] action actions rfl (reachable.revives_of_holds gone holds)
      · exact fun before next after split => quiet (action :: before) next after
          (by rw [split]; rfl)

/-! ## Handles -/

/-- Every call of the session is refused, and at most the expiry of the room is noted. -/
structure Inert [Host] (stage : Stage) (session : Session) : Prop where
  refused : ∀ now fault request, ∃ error,
    (stage.authority.request session now fault request).2 = .error error
  unchanged : ∀ now fault request, stage.authority.room.Open now ∨
    stage.authority.room.closed = true →
      (stage.authority.request session now fault request).1 = stage.authority
  expired : ∀ now fault request, ¬stage.authority.room.Open now →
    (stage.authority.request session now fault request).1 = stage.authority ∨
      (stage.authority.request session now fault request).1 =
        { stage.authority with room := { stage.authority.room with closed := true } }

theorem Reachable.inert [Host] {options : HubOptions} {stage : Stage}
    (reachable : Reachable options stage) {session : Session}
    (gone : ¬stage.authority.room.Holds session.participant session.connectionID
      session.generation) : stage.Inert session := by
  have ends := Room.request_gone reachable.rostered gone
  constructor
  case refused =>
    intro now fault request
    obtain ⟨authority', error, equality, _⟩ := ends now fault request
    exact ⟨error, congrArg Prod.snd equality⟩
  case unchanged =>
    intro now fault request condition
    obtain ⟨authority', error, equality, same | ⟨past, noted⟩⟩ := ends now fault request
    · rw [equality, same]
    · have closed := condition.resolve_left past
      rw [equality, noted, ← closed]
  case expired =>
    intro now fault request past
    obtain ⟨authority', error, equality, same | ⟨_, noted⟩⟩ := ends now fault request
    · exact .inl (by rw [equality, same])
    · exact .inr (by rw [equality, noted])

/-- A session whose connection is gone stays inert over a run exactly when no step of the run
revives it. -/
theorem stale_handle_inert [Host] {options : HubOptions} {stage : Stage}
    (reachable : Reachable options stage) {session : Session}
    (gone : ¬stage.authority.room.Holds session.participant session.connectionID
      session.generation) {actions : List Action} (possible : stage.Possible actions) :
    (∀ before after, actions = before ++ after → (stage.run before).Inert session) ↔
      ∀ before action after, actions = before ++ action :: after →
        ¬(stage.run before).Revives session action := by
  constructor
  · rintro inert before action after rfl revives
    obtain ⟨possible, first, _⟩ := possible_append.mp possible
    have reached := reachable.run possible
    obtain ⟨holds, isOpen⟩ := revives.holds reached
    have live := Room.heartbeat_live (Reachable.step _ action reached first).rostered isOpen holds
      false
    obtain ⟨error, refused⟩ := (inert (before ++ [action]) after (by simp)).refused action.now
      false .heartbeat
    rw [run_append] at refused
    cases refused.symm.trans live
  · rintro quiet before after rfl
    obtain ⟨possible, _⟩ := possible_append.mp possible
    refine (reachable.run possible).inert (reachable.gone_run gone possible ?_)
    exact fun first action rest split => quiet first action (rest ++ after) (by rw [split]; simp)

end Stage

/-! ## A handle that comes back -/

instance (room : Room) (participantID connectionID : String) (generation : Nat) :
    Decidable (room.Holds participantID connectionID generation) :=
  decidable_of_iff (((room.participants.lookup participantID).bind fun participant =>
    participant.connections.lookup connectionID).any fun connection =>
      connection.generation = generation) (by
    simp only [Option.any_eq_true, Option.bind_eq_some_iff, decide_eq_true_eq]
    exact ⟨fun ⟨connection, ⟨participant, present, found⟩, same⟩ =>
        ⟨participant, connection, present, found, same⟩,
      fun ⟨participant, connection, present, found, same⟩ =>
        ⟨connection, ⟨participant, present, found⟩, same⟩⟩)

namespace Stage

/-- A participant joins the small room and leaves it, while another one stays. -/
def smallVisit : List Action :=
  [smallJoin "eve" "desk" [] 2, smallJoin "ann" "page" [] 2,
    ⟨.request (smallSession "ann" "page" 1 false) .disconnect, unixTime 3, false⟩]

/-- The participant is swept away and joins again. -/
def smallReturn : List Action := [⟨.sweep, unixTime 40, false⟩, smallJoin "ann" "page" [] 41]

theorem smallVisit_possible : @Possible sampleHost (smallStage defaultHubOptions) smallVisit :=
  ⟨trivial, trivial, ⟨by decide +kernel, trivial⟩, trivial⟩

/-- A participant that returns after its reconnect grace revives the session that it has left. -/
theorem stale_handle_revived :
    let left := @run sampleHost (smallStage defaultHubOptions) smallVisit
    @Reachable sampleHost defaultHubOptions left ∧ @Possible sampleHost left smallReturn ∧
      smallSession "ann" "page" 1 false ∈ left.issued ∧
      ¬left.authority.room.Holds "p-demo-ann" "page" 1 ∧
      (@Authority.request sampleHost (@run sampleHost left smallReturn).authority
        (smallSession "ann" "page" 1 false) (unixTime 42) false .heartbeat).2 = .ok .done := by
  refine ⟨@Reachable.run sampleHost _ _
    (@Reachable.loaded sampleHost _ _ small_loaded) _ smallVisit_possible,
    ⟨trivial, trivial, trivial⟩, ?_, ?_, ?_⟩
  all_goals decide +kernel

/-- A participant that has left does not come back by the join of another participant. -/
theorem stale_handle_inert_small :
    @Inert sampleHost (@run sampleHost (@run sampleHost (smallStage defaultHubOptions) smallVisit)
      [smallJoin "bob" "page" [] 41]) (smallSession "ann" "page" 1 false) := by
  have reachable := @Reachable.run sampleHost _ _
    (@Reachable.loaded sampleHost _ _ small_loaded) _ smallVisit_possible
  refine (@stale_handle_inert sampleHost _ _ reachable (smallSession "ann" "page" 1 false)
    (by decide +kernel) [smallJoin "bob" "page" [] 41] ⟨trivial, trivial⟩).mpr ?_ _ [] rfl
  intro before action after split
  cases before with
  | nil =>
      cases split
      rintro ⟨_, _, _, call, named, _⟩
      cases call
      revert named
      decide +kernel
  | cons _ before => cases before <;> cases split

end Stage

end Oxbin.Live
