import Oxbin.Live.Membership

/-!
# The capacity of a room

A room never holds more writers, viewers or connections than its options allow, and while its
creator is away one place for a writer stays free.
-/

namespace Oxbin.Live

namespace Room

/-! ## Counting participants -/

/-- The number of participants of a class. -/
def classCount (room : Room) (accessClass : ParticipantAccessClass) : Nat :=
  Keyed.count (fun participant => decide (participant.accessClass = accessClass))
    room.participants

theorem writerSlotCount_eq (room : Room) :
    room.writerSlotCount = room.classCount .creator + room.classCount .collaborator := by
  have split := Keyed.count_add room.participants
    (fun participant => decide (participant.accessClass = .creator ∨
      participant.accessClass = .collaborator))
    (fun participant => decide (participant.accessClass = .creator))
    (fun participant => decide (participant.accessClass = .collaborator)) (by
      intro participant
      cases participant.accessClass <;> rfl)
  exact congrArg Nat.cast split

theorem viewerSlotCount_eq (room : Room) : room.viewerSlotCount = room.classCount .viewer := rfl

theorem participants_length (room : Room) :
    (room.participants.values.length : Int) = room.writerSlotCount + room.viewerSlotCount := by
  have split := Keyed.count_add room.participants (fun _ => true)
    (fun participant => decide (participant.accessClass = .creator ∨
      participant.accessClass = .collaborator))
    (fun participant => decide (participant.accessClass = .viewer)) (by
      intro participant
      cases participant.accessClass <;> rfl)
  rw [Keyed.count_true] at split
  exact congrArg Nat.cast split

theorem hasCreator_eq (room : Room) : room.hasCreator = true ↔ 0 < room.classCount .creator := by
  rw [hasCreator, classCount, Keyed.count, List.length_pos_iff, ne_eq, List.filter_eq_nil_iff,
    List.any_eq_true]
  simp

/-- The room is within its capacity, and one place is reserved for its creator. -/
structure WithinCapacity (room : Room) : Prop where
  writers : room.writerSlotCount ≤ room.options.maxWriters
  viewers : room.viewerSlotCount ≤ room.options.maxViewers
  reserved : room.snapshot.creatorTokenHash ≠ [] →
    (room.classCount .collaborator : Int) < room.options.maxWriters
  connections : ∀ id participant, room.participants.lookup id = some participant →
    (participant.connections.values.length : Int) ≤ room.options.maxConnectionsPerParticipant

/-! ## Steps -/

theorem Continues.classCount_le {room room' : Room} (continues : room.Continues room')
    (accessClass : ParticipantAccessClass) :
    room'.classCount accessClass ≤ room.classCount accessClass :=
  continues.participants.count_le fun _ _ related holds => by
    rwa [related.accessClass] at holds

/-- Losing participants and connections keeps the room within its capacity. -/
theorem WithinCapacity.continues {room room' : Room} (within : room.WithinCapacity)
    (continues : room.Continues room') : room'.WithinCapacity := by
  have fewer := continues.classCount_le
  have creators := fewer .creator
  have collaborators := fewer .collaborator
  have viewers := fewer .viewer
  have writersBefore := within.writers
  rw [writerSlotCount_eq] at writersBefore
  constructor
  case writers =>
    rw [writerSlotCount_eq, continues.options]
    omega
  case viewers =>
    have viewersBefore := within.viewers
    rw [viewerSlotCount_eq] at viewersBefore ⊢
    rw [continues.options]
    omega
  case reserved =>
    intro hash
    rw [continues.creatorTokenHash] at hash
    have reserved := within.reserved hash
    rw [continues.options]
    omega
  case connections =>
    intro id participant' found
    obtain ⟨participant, found, kept⟩ := continues.participants id participant' found
    have connections := within.connections id participant found
    have part : Keyed.Within (fun _ _ => True) participant.connections
        participant'.connections := by
      intro id connection found
      obtain ⟨before, found, _⟩ := kept.connections id connection found
      exact ⟨before, found, trivial⟩
    have fewer : Keyed.count (fun _ => true) participant'.connections ≤
        Keyed.count (fun _ => true) participant.connections := part.count_le fun _ _ _ _ => rfl
    rw [Keyed.count_true, Keyed.count_true] at fewer
    rw [continues.options]
    omega

/-- A participant that takes the place of another one. -/
theorem classCount_replace {room : Room} (room' : Room) {id : String}
    {participant participant' : Participant}
    (present : room.participants.lookup id = some participant)
    (participants : room'.participants = room.participants.insert id participant')
    (accessClass : ParticipantAccessClass) :
    room'.classCount accessClass + (if participant.accessClass = accessClass then 1 else 0) =
      room.classCount accessClass + if participant'.accessClass = accessClass then 1 else 0 := by
  rw [classCount, classCount, participants, Keyed.count_insert, Keyed.count_erase _ present]
  simp only [decide_eq_true_eq]
  omega

/-- A new participant. -/
theorem classCount_add {room : Room} (room' : Room) {id : String} {participant' : Participant}
    (fresh : id ∉ room.participants)
    (participants : room'.participants = room.participants.insert id participant')
    (accessClass : ParticipantAccessClass) :
    room'.classCount accessClass =
      room.classCount accessClass + if participant'.accessClass = accessClass then 1 else 0 := by
  rw [classCount, classCount, participants, Keyed.count_insert,
    Keyed.count_erase_of_not_mem _ fresh]
  simp only [decide_eq_true_eq]

theorem rejoined_accessClass (room : Room) (participant : Participant) (identity : JoinIdentity)
    (creator : Bool) (now : Time) :
    (room.rejoined participant identity creator now).accessClass =
      if creator then .creator else participant.accessClass := by
  rw [rejoined, Participant.refresh_accessClass]
  cases creator <;> rfl

theorem newcomer_connections [Host] (room : Room) (participantID nickname : String)
    (identity : JoinIdentity) (accessClass : ParticipantAccessClass) (now : Time) :
    (Keyed.values (room.newcomer participantID nickname identity accessClass
      now).connections).length = 1 := by
  rw [newcomer, Participant.refresh_connections]
  rfl

theorem newcomer_accessClass [Host] (room : Room) (participantID nickname : String)
    (identity : JoinIdentity) (accessClass : ParticipantAccessClass) (now : Time) :
    (room.newcomer participantID nickname identity accessClass now).accessClass = accessClass :=
  Participant.refresh_accessClass _ _

/-- The place that a join without the capability finds. -/
theorem accessClassForJoin_ok {room : Room} {creator : Bool} {accessClass : ParticipantAccessClass}
    (access : room.accessClassForJoin creator = .ok accessClass) :
    accessClass = .creator ∧ room.writerSlotCount < room.options.maxWriters ∨
      accessClass = .viewer ∧ room.viewerSlotCount < room.options.maxViewers ∨
      accessClass = .collaborator ∧ room.writerSlotCount < room.options.maxWriters ∧
        (room.snapshot.creatorTokenHash ≠ [] → room.hasCreator = false →
          room.writerSlotCount < room.options.maxWriters - 1) := by
  unfold accessClassForJoin at access
  cases creator with
  | true =>
      simp only [if_true] at access
      split at access
      · cases access
      · cases access
        exact .inl ⟨rfl, by omega⟩
  | false =>
      simp only [Bool.false_eq_true, if_false, List.length_pos_iff] at access
      generalize limit : (if room.snapshot.creatorTokenHash ≠ [] ∧ room.hasCreator = false then
        room.options.maxWriters - 1 else room.options.maxWriters) = bound at access
      split at access
      case isTrue low =>
        cases access
        refine .inr (.inr ⟨rfl, ?_, fun hash absent => ?_⟩)
        · split at limit <;> omega
        · rw [if_pos ⟨hash, absent⟩] at limit
          omega
      case isFalse =>
        split at access
        · cases access
        · cases access
          exact .inr (.inl ⟨rfl, by omega⟩)

/-- A join keeps the room within its capacity. -/
theorem WithinCapacity.joined [Host] {room room' : Room} {identity : JoinIdentity}
    {creator : Bool} {now : Time} {session : Session} (within : room.WithinCapacity)
    (connected : 1 ≤ room.options.maxConnectionsPerParticipant)
    (joined : room.Joined identity creator now room' session) : room'.WithinCapacity := by
  have writersBefore := within.writers
  have viewersBefore := within.viewers
  rw [writerSlotCount_eq] at writersBefore
  rw [viewerSlotCount_eq] at viewersBefore
  cases joined with
  | again participantID participant known present free space writers =>
      let joined : Room := { room with
        participants := room.participants.insert participantID
          (room.rejoined participant identity creator now) }
      have replaced := classCount_replace joined present rfl
      have creators := replaced .creator
      have collaborators := replaced .collaborator
      have viewers := replaced .viewer
      rw [rejoined_accessClass] at creators collaborators viewers
      rw [writerSlotCount_eq] at writers
      -- only a viewer with the capability moves into another class
      have counts : (joined.classCount .creator : Int) + joined.classCount .collaborator ≤
            room.options.maxWriters ∧ joined.classCount .viewer ≤ room.classCount .viewer ∧
          joined.classCount .collaborator ≤ room.classCount .collaborator := by
        cases creator <;> cases kind : participant.accessClass <;>
          simp only [kind, if_true, Bool.false_eq_true, if_false, reduceCtorEq, forall_const]
            at creators collaborators viewers writers <;> omega
      constructor
      case writers =>
        rw [writerSlotCount_eq]
        exact counts.1
      case viewers => exact (Nat.cast_le.mpr counts.2.1).trans viewersBefore
      case reserved =>
          exact fun hash => (Nat.cast_le.mpr counts.2.2).trans_lt (within.reserved hash)
      case connections =>
        intro id next found
        rw [Keyed.lookup_insert_if] at found
        split at found
        case isTrue =>
          cases found
          rw [rejoined_connections, ← Keyed.count_true, Keyed.count_insert,
            Keyed.count_erase_of_not_mem _ free, Keyed.count_true]
          push_cast
          simp only [if_true]
          omega
        case isFalse => exact within.connections id next found
  | first participantID nickname accessClass space access named fresh =>
      let joined : Room := { room with
        participants := room.participants.insert participantID
          (room.newcomer participantID nickname identity accessClass now) }
      have added := classCount_add joined fresh rfl
      have creators := added .creator
      have collaborators := added .collaborator
      have viewers := added .viewer
      rw [newcomer_accessClass] at creators collaborators viewers
      have entered := accessClassForJoin_ok access
      rw [writerSlotCount_eq, viewerSlotCount_eq] at entered
      have counts : (joined.classCount .creator : Int) + joined.classCount .collaborator ≤
            room.options.maxWriters ∧
          (joined.classCount .viewer : Int) ≤ room.options.maxViewers ∧
          (room.snapshot.creatorTokenHash ≠ [] →
            (joined.classCount .collaborator : Int) < room.options.maxWriters) := by
        rcases entered with ⟨rfl, free⟩ | ⟨rfl, free⟩ | ⟨rfl, free, reserve⟩
        all_goals
          simp only [if_true, if_false, reduceCtorEq] at creators collaborators viewers
          refine ⟨by omega, by omega, fun hash => ?_⟩
          have reserved := within.reserved hash
        · omega
        · omega
        · cases present : room.hasCreator with
          | false =>
              have low := reserve hash present
              omega
          | true =>
              have creators := room.hasCreator_eq.mp present
              omega
      constructor
      case writers =>
        rw [writerSlotCount_eq]
        exact counts.1
      case viewers => exact counts.2.1
      case reserved => exact counts.2.2
      case connections =>
        intro id next found
        rw [Keyed.lookup_insert_if] at found
        split at found
        case isTrue =>
          cases found
          rw [newcomer_connections]
          exact connected
        case isFalse => exact within.connections id next found

end Room

/-! ## Options -/

theorem HubOptions.limits_of_validate {options : HubOptions} (valid : options.validate = .ok ()) :
    1 ≤ options.maxWriters ∧ 0 ≤ options.maxViewers ∧ 1 ≤ options.maxConnectionsPerParticipant ∧
      options.maxWriters + options.maxViewers = options.maxParticipants := by
  unfold validate at valid
  split at valid
  · cases valid
  · split at valid
    · cases valid
    · omega

namespace Stage

/-- In every reachable state the room is within its capacity. -/
theorem Reachable.withinCapacity [Host] {options : HubOptions} {stage : Stage}
    (reachable : Reachable options stage) :
    stage.authority.room.WithinCapacity ∧ stage.authority.room.options = options ∧
      options.validate = .ok () := by
  induction reachable with
  | loaded stage loaded =>
      cases loaded with
      | newRoom store snapshot faults authority valid load =>
          have vacant := Room.newRoom_vacant load
          obtain ⟨writers, viewers, _, _⟩ := HubOptions.limits_of_validate valid
          have empty (accessClass : ParticipantAccessClass) :
              authority.room.classCount accessClass = 0 := by
            rw [Room.classCount, vacant.participants]
            rfl
          refine ⟨?_, vacant.options, valid⟩
          constructor
          case writers =>
            rw [Room.writerSlotCount_eq, empty, empty, vacant.options]
            omega
          case viewers =>
            rw [Room.viewerSlotCount_eq, empty, vacant.options]
            omega
          case reserved =>
            intro _
            rw [empty, vacant.options]
            omega
          case connections =>
            intro id participant found
            rw [vacant.participants] at found
            cases found
  | step stage action reachable possible induction =>
      obtain ⟨within, equipped, valid⟩ := induction
      have rostered := reachable.rostered
      have move := Authority.perform_move rostered action
      unfold Stage.step
      generalize stage.authority.perform action = outcome at move ⊢
      cases move with
      | thins outcome thins =>
          exact ⟨within.continues thins.1, thins.1.options.trans equipped, valid⟩
      | joins identity capability candidate call isOpen sessions narrowed room' result joined =>
          have settled := stage.authority.room.narrowed_continues action.now narrowed
          have within' := within.continues settled
          have same := congrArg Room.options joined.rest.1
          have equipped' := settled.options.trans equipped
          have connected := (HubOptions.limits_of_validate valid).2.2.1
          rw [← equipped'] at connected
          exact ⟨within'.joined connected joined, same.trans equipped', valid⟩

end Stage

/-! ## The reserved place -/

namespace Room

/-- While the creator is away, there is a place for a writer. -/
theorem WithinCapacity.place {room : Room} (within : room.WithinCapacity)
    (hash : room.snapshot.creatorTokenHash ≠ []) (absent : room.hasCreator = false) :
    room.writerSlotCount < room.options.maxWriters := by
  have none : room.classCount .creator = 0 := by
    by_contra some
    have present := room.hasCreator_eq.mpr (Nat.pos_of_ne_zero some)
    rw [absent] at present
    cases present
  rw [writerSlotCount_eq, none]
  have reserved := within.reserved hash
  omega

theorem rejoin_admits {room : Room} (free : room.writerSlotCount < room.options.maxWriters)
    (participantID : String) (participant : Participant) (identity : JoinIdentity)
    (creator : Bool) (now : Time) :
    room.rejoin participantID participant identity creator now ≠ .error .participantLimit := by
  unfold rejoin
  split
  · simp
  · split
    · simp
    · split
      case isTrue full =>
        have := full.2.2
        omega
      case isFalse => simp

theorem bind_ne_error {α β : Type} {first : Except LiveError α} {next : α → Except LiveError β}
    {error : LiveError} (here : first ≠ .error error)
    (later : ∀ value, first = .ok value → next value ≠ .error error) :
    (first >>= next) ≠ .error error := by
  cases first with
  | error other => exact fun same => here (by cases same; rfl)
  | ok value => exact later value rfl

theorem require_ne_error {condition : Prop} [Decidable condition] {error other : LiveError}
    (different : error ≠ other) : require condition error ≠ .error other := by
  unfold require
  split
  · simp
  · simpa using different

/-- A malformed identity is refused as such. -/
theorem validate_ne_limit {identity : JoinIdentity} :
    identity.validate ≠ .error .participantLimit := by
  unfold JoinIdentity.validate validateOpaqueIdentifier validateNickname
  refine bind_ne_error (require_ne_error (by simp)) fun _ _ =>
    bind_ne_error (require_ne_error (by simp)) fun _ _ =>
      bind_ne_error (require_ne_error (by simp)) fun _ _ => ?_
  split
  · exact require_ne_error (by simp)
  · simp

theorem generateName_error [Host] {used : List String} {candidate : Nat → Option String}
    (attempts index : Nat) :
    generateName used candidate attempts index ≠ .error .participantLimit := by
  induction attempts generalizing index with
  | zero => simp [generateName]
  | succ attempts induction =>
      unfold generateName
      split
      · simp
      · split
        case h_1 error refused =>
          unfold validateNickname require at refused
          split at refused <;> cases refused
          simp
        case h_2 =>
          split
          · simp
          · exact induction (index + 1)

theorem joinNew_admits [Host] {room : Room}
    (free : room.writerSlotCount < room.options.maxWriters)
    (space : (room.participants.values.length : Int) < room.options.maxParticipants)
    (identity : JoinIdentity) (candidate : Nat → Option String) (now : Time) :
    room.joinNew identity true candidate now ≠ .error .participantLimit := by
  have access : room.accessClassForJoin true = .ok .creator := by
    unfold accessClassForJoin
    rw [if_pos rfl, if_neg (by omega)]
  have generated := @generateName_error _ room.names.keys candidate 8 0
  unfold joinNew
  rw [access, require, if_pos space]
  refine bind_ne_error (by simp) fun _ _ => bind_ne_error (by simp) fun _ _ =>
    bind_ne_error ?_ fun participantID _ => bind_ne_error ?_ fun _ _ => ?_
  · unfold participantIDForRoom validateOpaqueIdentifier
    exact bind_ne_error (require_ne_error (by simp)) fun _ _ =>
      bind_ne_error (require_ne_error (by simp)) fun _ _ => by simp
  · exact require_ne_error (by simp)
  · dsimp only
    split
    · exact bind_ne_error (by simp) fun _ _ => by simp
    · exact bind_ne_error generated fun _ _ => by simp

/-- While the creator is away, the capability always finds a place. -/
theorem WithinCapacity.admits [Host] {room : Room} (within : room.WithinCapacity)
    (limits : room.options.maxWriters + room.options.maxViewers = room.options.maxParticipants)
    (hash : room.snapshot.creatorTokenHash ≠ []) (absent : room.hasCreator = false)
    {capability : CreatorCapability} (matched : capability.matchesRoomHash room.snapshot.slug
      room.snapshot.creatorTokenHash = true) (identity : JoinIdentity)
    (candidate : Nat → Option String) (now : Time) :
    (room.join identity capability candidate now).2 ≠ .error .participantLimit := by
  have settled := room.settledAt_continues now
  have within' := within.continues settled
  have absent' : (room.settledAt now).hasCreator = false := by
    rw [← Bool.not_eq_true, hasCreator_eq] at absent ⊢
    have fewer := settled.classCount_le .creator
    omega
  have free := within'.place (settled.creatorTokenHash ▸ hash) absent'
  have viewers := within'.viewers
  have space : ((room.settledAt now).participants.values.length : Int) <
      (room.settledAt now).options.maxParticipants := by
    rw [participants_length]
    rw [settled.options] at viewers free ⊢
    omega
  have ends := room.join_outcome identity capability candidate now
  generalize room.join identity capability candidate now = outcome at ends ⊢
  cases ends with
  | past => simp
  | refused isOpen sessions within error cause =>
      rw [matched] at cause
      rcases cause with ⟨participantID, participant, failed⟩ | failed
      · intro limit
        cases limit
        exact rejoin_admits free participantID participant identity true now failed
      · intro limit
        cases limit
        let base : Room := { room.settledAt now with sessions }
        have free' : base.writerSlotCount < base.options.maxWriters := free
        have space' : (base.participants.values.length : Int) < base.options.maxParticipants :=
          space
        exact joinNew_admits free' space' identity candidate now failed
  | joined => simp

end Room

namespace Stage

/-- No class of participants exceeds its limit, and a join with the capability of a creator who is
away is never refused for lack of space. -/
theorem capacity_reserved [Host] {options : HubOptions} {stage : Stage}
    (reachable : Reachable options stage) :
    (stage.authority.room.writerSlotCount ≤ options.maxWriters ∧
      stage.authority.room.viewerSlotCount ≤ options.maxViewers ∧
      (stage.authority.room.participants.values.length : Int) ≤ options.maxParticipants ∧
      ∀ id participant, stage.authority.room.participants.lookup id = some participant →
        (participant.connections.values.length : Int) ≤ options.maxConnectionsPerParticipant) ∧
    (stage.authority.room.snapshot.creatorTokenHash ≠ [] →
      stage.authority.room.hasCreator = false →
      ∀ (identity : JoinIdentity) (capability : CreatorCapability)
        (candidate : Nat → Option String) (now : Time),
        capability.matchesRoomHash stage.authority.room.snapshot.slug
          stage.authority.room.snapshot.creatorTokenHash = true →
        (stage.authority.join identity capability candidate now).2 ≠
          .error .participantLimit) := by
  obtain ⟨within, equipped, valid⟩ := reachable.withinCapacity
  have limits := (HubOptions.limits_of_validate valid).2.2.2
  rw [← equipped] at limits ⊢
  have total := stage.authority.room.participants_length
  have writers := within.writers
  have viewers := within.viewers
  refine ⟨⟨writers, viewers, by omega, within.connections⟩, ?_⟩
  intro hash absent identity capability candidate now matched
  have admits := within.admits limits hash absent matched identity candidate now
  unfold Authority.join
  split
  case h_1 error refused =>
    intro limit
    cases limit
    exact Room.validate_ne_limit refused
  case h_2 =>
    intro limit
    generalize stage.authority.room.join identity capability candidate now = outcome at admits limit
    obtain ⟨room', result⟩ := outcome
    cases result with
    | error error =>
        cases limit
        exact admits rfl
    | ok result => cases limit

/-- The creator joins a room that a collaborator has entered first. -/
theorem capacity_reserved_small :
    ((@step sampleHost (smallStage defaultHubOptions)
      (smallJoin "ann" "page" [] 2)).authority.room.writerSlotCount ≤ 10) ∧
    (@Authority.join sampleHost (@step sampleHost (smallStage defaultHubOptions)
      (smallJoin "ann" "page" [] 2)).authority (smallIdentity "bob" "page") ⟨smallToken, true⟩
        (fun _ => none) (unixTime 3)).2 ≠ .error .participantLimit := by
  have reachable := @Reachable.step sampleHost defaultHubOptions _ (smallJoin "ann" "page" [] 2)
    (@Reachable.loaded sampleHost _ _ small_loaded) trivial
  have reserved := @capacity_reserved sampleHost _ _ reachable
  exact ⟨reserved.1.1, reserved.2 (by decide +kernel) (by decide +kernel)
    (smallIdentity "bob" "page") ⟨smallToken, true⟩ (fun _ => none) (unixTime 3)
    (by decide +kernel)⟩

end Stage

end Oxbin.Live
