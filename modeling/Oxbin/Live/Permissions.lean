import Mathlib.Data.List.Induction
import Oxbin.Live.Handles

/-!
# Who may change a room

Documents and tabs are changed by the creator, and by collaborators while the room is unlocked.
The modes of the room are changed by sessions whose join has presented the creator's capability.
-/

namespace Oxbin.Live

open Livecollab Storage

namespace Room

/-! ## Editors -/

/-- The participant may edit documents and tabs. -/
def Editor (room : Room) (participantID : String) : Prop :=
  ∃ participant, room.participants.lookup participantID = some participant ∧
    (participant.accessClass = .creator ∨
      participant.accessClass = .collaborator ∧ room.watchOnly = false)

theorem participantCanEdit_iff (accessClass : ParticipantAccessClass) (locked : Bool) :
    participantCanEdit accessClass locked = true ↔
      accessClass = .creator ∨ accessClass = .collaborator ∧ locked = false := by
  cases accessClass <;> cases locked <;> decide

theorem Rostered.editor {room : Room} (rostered : room.Rostered) {participantID : String}
    (allowed : room.canEdit participantID = true) : room.Editor participantID := by
  unfold canEdit at allowed
  split at allowed
  case h_1 => cases allowed
  case h_2 participant present =>
    rw [(rostered _ participant present).canEdit] at allowed
    exact ⟨participant, present, (participantCanEdit_iff _ _).mp allowed⟩

/-- Activity on connections makes nobody an editor. -/
theorem Touched.editor {room room' : Room} (touched : room.Touched room') {participantID : String}
    (editor : room'.Editor participantID) : room.Editor participantID := by
  obtain ⟨participant', present', allowed⟩ := editor
  have related := touched.participants participantID
  rw [present'] at related
  generalize found : room.participants.lookup participantID = before at related
  cases related with
  | @some participant _ same =>
      have equality := congrArg Room.watchOnly touched.shared
      have watchOnly : room'.watchOnly = room.watchOnly := equality
      exact ⟨participant, found, by rwa [same.accessClass, watchOnly] at allowed⟩

section Calls

variable {room : Room} {store : Store} {session : Session} {now : Time}

/-- Only an editor gets past the checks before an operation. -/
theorem Entry.editor {α : Type} {body : Room → Outcome α} {outcome : Outcome α}
    (entry : room.Entry store session now (fun room' => room'.canEdit session.participant = true)
      body outcome) {value : α} (accepted : outcome.2 = .ok value) :
    room.Editor session.participant := by
  cases entry with
  | past => cases accepted
  | gone => cases accepted
  | refused => cases accepted
  | admitted room' isOpen holds touched rostered allows =>
      exact touched.editor (rostered.editor allows)

/-- Without an editor an operation leaves the shared state alone. -/
theorem Entry.shared {α : Type} {body : Room → Outcome α} {outcome : Outcome α}
    (entry : room.Entry store session now (fun room' => room'.canEdit session.participant = true)
      body outcome) (bystander : ¬room.Editor session.participant) :
    outcome.1.room.shared = room.shared := by
  cases entry with
  | past => rfl
  | gone => rfl
  | refused room' isOpen holds touched => exact touched.shared
  | admitted room' isOpen holds touched rostered allows =>
      exact absurd (touched.editor (rostered.editor allows)) bystander

/-- A mode is changed by a live session of a creator only. -/
theorem ModeEntry.creator {change : Room → Room} {save : Except LiveError Store}
    {outcome : Outcome RoomState} (entry : room.ModeEntry store session now change save outcome) :
    outcome.1.room.shared = room.shared ∨ session.creator = true ∧
      room.Holds session.participant session.connectionID session.generation := by
  cases entry with
  | past => exact .inl rfl
  | gone => exact .inl rfl
  | refused room' isOpen holds touched => exact .inl touched.shared
  | unchanged room' isOpen holds touched => exact .inl touched.shared
  | changed room' isOpen holds touched rostered creator => exact .inr ⟨creator, holds⟩

end Calls

/-! ## Calls that leave the shared state alone -/

theorem disconnect_shared (room : Room) (participantID connectionID : String) (generation : Nat)
    (now : Time) :
    (room.disconnect participantID connectionID generation now).1.shared = room.shared := by
  unfold disconnect
  split
  · rfl
  · split
    · rfl
    · split <;> rfl

theorem rename_shared [Host] (room : Room) (participantID connectionID : String)
    (generation : Nat) (name : String) (now : Time) :
    (room.rename participantID connectionID generation name now).1.shared = room.shared := by
  have connected := room.ensureConnection_shared participantID connectionID generation now
  unfold rename
  split
  case h_1 room' error refused => rwa [refused] at connected
  case h_2 room' active =>
    rw [active] at connected
    split
    · exact connected
    · simp only
      split
      · exact connected
      · split
        · split
          · exact connected
          · exact (markConnectionActivity_shared _ _ _ _).trans connected
        · split
          · exact connected
          · exact (markConnectionActivity_shared _ _ _ _).trans connected

theorem updatePresence_shared (room : Room) (participantID connectionID : String)
    (generation : Nat) (update : PresenceUpdate) (now : Time) :
    (room.updatePresence participantID connectionID generation update now).1.shared =
      room.shared := by
  have connected := room.ensureConnection_shared participantID connectionID generation now
  unfold updatePresence
  split
  case h_1 room' error refused => rwa [refused] at connected
  case h_2 room' active =>
    rw [active] at connected
    split
    · exact connected
    · split
      · exact connected
      · split
        · exact connected
        · simp only
          split <;> exact connected

/-! ## Calls of a session -/

/-- The shared state is changed by editors and by live sessions of creators. -/
theorem request_shared [Host] {authority : Authority} (rostered : authority.room.Rostered)
    (session : Session) (now : Time) (fault : Bool) (request : Request) :
    (authority.request session now fault request).1.room.shared = authority.room.shared ∨
      authority.room.Editor session.participant ∨ session.creator = true ∧
        authority.room.Holds session.participant session.connectionID session.generation := by
  cases request with
  | submitDocument operation =>
      have entry := submitDocument_entry rostered authority.store session now fault operation
      by_cases editor : authority.room.Editor session.participant
      · exact .inr (.inl editor)
      · exact .inl (entry.shared editor)
  | applyMetadata operation generator =>
      have entry := applyMetadata_entry rostered authority.store session now fault operation
        generator
      by_cases editor : authority.room.Editor session.participant
      · exact .inr (.inl editor)
      · exact .inl (entry.shared editor)
  | updatePresence update => exact .inl (updatePresence_shared _ _ _ _ _ _)
  | rename name => exact .inl (rename_shared _ _ _ _ _ _)
  | heartbeat => exact .inl (ensureConnection_shared _ _ _ _ _)
  | disconnect => exact .inl (disconnect_shared _ _ _ _ _)
  | setWatchOnly enabled =>
      exact (setWatchOnly_entry rostered authority.store session now fault
        enabled).creator.imp_right .inr
  | setLayoutPreset preset =>
      exact (setLayoutPreset_entry rostered authority.store session now fault
        preset).creator.imp_right .inr

/-- The modes of the room are the same. -/
def SameModes (room room' : Room) : Prop :=
  room'.watchOnly = room.watchOnly ∧ room'.snapshot.layoutPreset = room.snapshot.layoutPreset

theorem sameModes_of_shared {room room' : Room} (shared : room'.shared = room.shared) :
    room.SameModes room' := by
  have equality := congrArg Room.watchOnly shared
  exact ⟨equality, congrArg RoomSnapshot.layoutPreset (snapshot_of_shared shared)⟩

theorem SameRoster.sameModes {room room' : Room} (same : room.SameRoster room') :
    room.SameModes room' := ⟨same.watchOnly, same.layoutPreset⟩

theorem SameModes.trans {first second third : Room} (before : first.SameModes second)
    (after : second.SameModes third) : first.SameModes third :=
  ⟨after.1.trans before.1, after.2.trans before.2⟩

theorem Entry.sameModes {α : Type} {room : Room} {store : Store} {session : Session} {now : Time}
    {allowed : Room → Prop} {body : Room → Outcome α} {outcome : Outcome α}
    (entry : room.Entry store session now allowed body outcome)
    (same : ∀ room' : Room, room'.SameModes (body room').1.room) :
    room.SameModes outcome.1.room := by
  cases entry with
  | past => exact ⟨rfl, rfl⟩
  | gone => exact ⟨rfl, rfl⟩
  | refused room' isOpen holds touched => exact sameModes_of_shared touched.shared
  | admitted room' isOpen holds touched =>
      exact (sameModes_of_shared touched.shared).trans (same room')

/-- The modes of the room are changed by live sessions of creators. -/
theorem request_modes [Host] {authority : Authority} (rostered : authority.room.Rostered)
    (session : Session) (now : Time) (fault : Bool) (request : Request) :
    authority.room.SameModes (authority.request session now fault request).1.room ∨
      session.creator = true ∧
        authority.room.Holds session.participant session.connectionID session.generation := by
  cases request with
  | submitDocument operation =>
      exact .inl ((submitDocument_entry rostered authority.store session now fault
        operation).sameModes fun room' =>
          (acceptDocument_sameRoster room' _ operation now fault).sameModes)
  | applyMetadata operation generator =>
      refine .inl ((applyMetadata_entry rostered authority.store session now fault operation
        generator).sameModes fun room' => ?_)
      rcases room'.acceptMetadata_roster authority.store operation generator now fault with
        ⟨_, same⟩ | ⟨_, same⟩
      · exact same.sameModes
      · exact (sameModes_of_shared (leaveDocumentAll_shared _ _ _)).trans same.sameModes
  | updatePresence update => exact .inl (sameModes_of_shared (updatePresence_shared _ _ _ _ _ _))
  | rename name => exact .inl (sameModes_of_shared (rename_shared _ _ _ _ _ _))
  | heartbeat => exact .inl (sameModes_of_shared (ensureConnection_shared _ _ _ _ _))
  | disconnect => exact .inl (sameModes_of_shared (disconnect_shared _ _ _ _ _))
  | setWatchOnly enabled =>
      exact (setWatchOnly_entry rostered authority.store session now fault
        enabled).creator.imp_left sameModes_of_shared
  | setLayoutPreset preset =>
      exact (setLayoutPreset_entry rostered authority.store session now fault
        preset).creator.imp_left sameModes_of_shared

theorem sweep_shared [Host] (room : Room) (now : Time) :
    (room.sweep now).1.shared = room.shared := by
  unfold sweep
  split
  · rfl
  · split
    · rfl
    · exact (room.settledAt_rest now).1

theorem shouldEvict_shared [Host] (room : Room) (now : Time) :
    (room.shouldEvict now).1.shared = room.shared := by
  unfold shouldEvict
  split
  · rfl
  · exact (room.pruneDisconnected_rest now).1

theorem shutdown_sameModes (room : Room) (store : Store) (now : Time) (fault : Bool) :
    room.SameModes (room.shutdown store now fault).1.room := by
  unfold shutdown
  simp only
  split
  · split <;> exact ⟨rfl, rfl⟩
  · exact ⟨rfl, rfl⟩

/-- A join leaves the shared state alone. -/
theorem join_shared [Host] (room : Room) (identity : JoinIdentity)
    (capability : CreatorCapability) (candidate : Nat → Option String) (now : Time) :
    (room.join identity capability candidate now).1.shared = room.shared := by
  have ends := room.join_outcome identity capability candidate now
  generalize room.join identity capability candidate now = outcome at ends ⊢
  cases ends with
  | past => rfl
  | refused => exact (room.settledAt_rest now).1
  | joined isOpen sessions within room' result joined =>
      exact joined.rest.1.trans (room.settledAt_rest now).1

end Room

/-- The modes of the room are changed by requests of live sessions of creators. -/
theorem Authority.perform_modes [Host] {authority : Authority}
    (rostered : authority.room.Rostered) (action : Action) :
    authority.room.SameModes (authority.perform action).1.room ∨
      ∃ session request, action.call = .request session request ∧ session.creator = true ∧
        authority.room.Holds session.participant session.connectionID session.generation := by
  have same : authority.room.SameModes authority.room := ⟨rfl, rfl⟩
  unfold perform
  split
  case h_1 identity capability candidate call =>
    unfold join
    split
    case h_1 => exact .inl same
    case h_2 => exact .inl (Room.sameModes_of_shared (Room.join_shared _ _ _ _ _))
  case h_2 session request call =>
    rcases Room.request_modes rostered session action.now action.fault request with same | creator
    · exact .inl same
    · exact .inr ⟨session, request, call, creator⟩
  case h_3 => exact .inl (Room.sameModes_of_shared (Room.sweep_shared _ _))
  case h_4 => exact .inl (Room.sameModes_of_shared (Room.shouldEvict_shared _ _))
  case h_5 => exact .inl (Room.shutdown_sameModes _ _ _ _)
  case h_6 => exact .inl same

/-! ## Creators -/

theorem Room.accessClassForJoin_false {room : Room} :
    room.accessClassForJoin false ≠ .ok .creator := by
  unfold accessClassForJoin
  simp only [Bool.false_eq_true, if_false]
  generalize (if room.snapshot.creatorTokenHash.length > 0 ∧ room.hasCreator = false then
    room.options.maxWriters - 1 else room.options.maxWriters) = limit
  split
  · simp
  · split <;> simp

/-- The class that a join gives to its participant. -/
theorem Room.Joined.accessClass [Host] {room room' : Room} (rostered : room.Rostered)
    {identity : JoinIdentity} {creator : Bool} {now : Time} {session : Session}
    (joined : room.Joined identity creator now room' session) {participant' : Participant}
    (present : room'.participants.lookup session.participant = some participant') :
    participant'.accessClass = .creator ↔ creator = true ∨
      ∃ participant, room.participants.lookup session.participant = some participant ∧
        participant.accessClass = .creator := by
  cases joined with
  | again participantID participant known found =>
      rw [(rostered _ participant found).id] at present ⊢
      rw [AList.lookup_insert] at present
      cases present
      rw [found]
      cases creator <;> simp [Room.rejoined, Room.addConnection]
  | first participantID nickname accessClass space access named fresh =>
      rw [AList.lookup_insert] at present
      cases present
      rw [AList.lookup_eq_none.mpr fresh]
      cases creator with
      | true => simp [Room.newcomer, Room.addConnection, Room.accessClassForJoin_creator access]
      | false =>
          have collaborates : accessClass ≠ .creator := by
            rintro rfl
            exact Room.accessClassForJoin_false access
          simp [Room.newcomer, Room.addConnection, collaborates]

/-- The action presents the capability of the creator. -/
def Action.Presents [Host] (action : Action) (room : Room) : Prop :=
  ∃ identity capability candidate, action.call = .join identity capability candidate ∧
    capability.matchesRoomHash room.snapshot.slug room.snapshot.creatorTokenHash = true

namespace Stage

/-- A join without the capability, of somebody who is no creator, revives a creator's session. -/
def Usurps [Host] (stage : Stage) (action : Action) : Prop :=
  ∃ session ∈ stage.issued, session.creator = true ∧ stage.Revives session action ∧
    ¬action.Presents stage.authority.room ∧
    ∀ participant, (stage.authority.room.settledAt action.now).participants.lookup
      session.participant = some participant → participant.accessClass ≠ .creator

/-- The live sessions of creators belong to creators, and every participant is told what it
may do. -/
structure Coherent (stage : Stage) : Prop where
  creators : ∀ session ∈ stage.issued, session.creator = true →
    stage.authority.room.Holds session.participant session.connectionID session.generation →
      ∃ participant, stage.authority.room.participants.lookup session.participant =
        some participant ∧ participant.accessClass = .creator
  advertised : ∀ id participant, stage.authority.room.participants.lookup id = some participant →
    participant.snapshot.canEdit =
      participantCanEdit participant.accessClass stage.authority.room.watchOnly

/-- Nothing but a usurpation gives a creator's session to somebody else. -/
theorem Coherent.step [Host] {options : HubOptions} {stage : Stage}
    (reachable : Reachable options stage) (coherent : stage.Coherent) {action : Action}
    (lawful : ¬stage.Usurps action) (session : Session)
    (issued : session ∈ (stage.step action).issued) (creator : session.creator = true)
    (holds : (stage.step action).authority.room.Holds session.participant session.connectionID
      session.generation) :
    ∃ participant, (stage.step action).authority.room.participants.lookup session.participant =
      some participant ∧ participant.accessClass = .creator := by
  have move := Authority.perform_move reachable.rostered action
  unfold Stage.step at issued holds ⊢
  unfold Usurps Revives at lawful
  generalize stage.authority.perform action = outcome at move issued holds lawful ⊢
  cases move with
  | thins outcome thins issues =>
      rw [issues, List.append_nil] at issued
      obtain ⟨participant, present, creator⟩ := coherent.creators session issued creator
        (thins.1.holds holds)
      obtain ⟨participant', _, present', _⟩ := holds
      obtain ⟨before, present'', same⟩ := thins.1.participants _ participant' present'
      cases present.symm.trans present''
      exact ⟨participant', present', same.accessClass.trans creator⟩
  | joins identity capability candidate call isOpen sessions narrowed room' result joined =>
      have settled := stage.authority.room.narrowed_continues action.now narrowed
      have rostered : Room.Rostered { stage.authority.room.settledAt action.now with
          sessions } := reachable.rostered.settledAt action.now
      obtain ⟨named, connection, generation, _⟩ :=
        joined.handle rostered (reachable.credentialed.continues settled)
      obtain ⟨presents, _, admission⟩ := joined.admission rostered
      have entered := (admission.holds_iff _ _ _).mp holds
      obtain ⟨participant', _, present', _⟩ := holds
      refine ⟨participant', present', ?_⟩
      rcases List.mem_append.mp issued with old | new
      · rcases entered with ⟨participant, connection', generation'⟩ | held
        · -- The join has reached the handle of an earlier session.
          rw [participant] at present'
          rw [joined.accessClass rostered present']
          by_contra neither
          rw [not_or] at neither
          refine lawful ⟨session, old, creator, ⟨identity, capability, candidate, call, ?_⟩, ?_, ?_⟩
          · rw [participant, connection', generation']
            exact ⟨settled.slug ▸ named, connection.symm, generation.symm, result, rfl⟩
          · rintro ⟨_, _, _, call', matched⟩
            cases call.symm.trans call'
            exact neither.1 matched
          · intro before present creates
            exact neither.2 ⟨before, participant ▸ present, creates⟩
        · obtain ⟨participant, present, creates⟩ := coherent.creators session old creator
            (settled.holds held)
          obtain ⟨between, _, present'', _⟩ := held
          obtain ⟨_, found, same⟩ := settled.participants _ between present''
          cases present.symm.trans found
          by_cases own : session.participant = result.session.participant
          · rw [own] at present' present''
            exact (joined.accessClass rostered present').mpr
              (.inr ⟨between, present'', same.accessClass.trans creates⟩)
          · rw [admission.participants, if_neg own] at present'
            cases present''.symm.trans present'
            exact same.accessClass.trans creates
      · cases List.mem_singleton.mp new
        exact (joined.accessClass rostered present').mpr (.inl (presents ▸ creator))

/-- A usurpation leaves a creator's session to somebody who is no creator. -/
theorem Usurps.not_coherent [Host] {options : HubOptions} {stage : Stage}
    (reachable : Reachable options stage) {action : Action} (usurps : stage.Usurps action) :
    ¬(stage.step action).Coherent := by
  obtain ⟨session, issued, creator, revives, absent, others⟩ := usurps
  intro coherent
  obtain ⟨participant', present', creates⟩ := coherent.creators session
    (List.mem_append_left _ issued) creator (revives.holds reachable).1
  obtain ⟨_, _, _, call, named, _, _, _, succeeds⟩ := revives
  have move := Authority.perform_move reachable.rostered action
  unfold Stage.step at present'
  generalize stage.authority.perform action = outcome at move succeeds present'
  cases move with
  | thins outcome thins issues =>
      rw [succeeds] at issues
      cases issues
  | joins identity capability candidate call' isOpen sessions narrowed room' result joined =>
      have settled := stage.authority.room.narrowed_continues action.now narrowed
      have rostered : Room.Rostered { stage.authority.room.settledAt action.now with
          sessions } := reachable.rostered.settledAt action.now
      have named' := (joined.handle rostered (reachable.credentialed.continues settled)).1
      cases call.symm.trans call'
      have participant := Except.ok.inj (named.symm.trans (settled.slug ▸ named'))
      rw [participant] at present' others
      rcases (joined.accessClass rostered present').mp creates with presents | ⟨other, found, same⟩
      · exact absent ⟨_, _, _, call, presents⟩
      · exact others other found same

/-- A join of the run has presented the capability and has returned the session. -/
def Presented [Host] (stage : Stage) (actions : List Action) (session : Session) : Prop :=
  ∃ before action after result, actions = before ++ action :: after ∧
    action.Presents (stage.run before).authority.room ∧
    ((stage.run before).authority.perform action).2 = .ok (.joined result) ∧
    result.session = session

/-- A creator's session comes from a join with the capability. -/
theorem presented_of_issued [Host] {options : HubOptions} {stage : Stage}
    (reachable : Reachable options stage) {actions : List Action}
    (possible : stage.Possible actions) {session : Session}
    (issued : session ∈ (stage.run actions).issued) (creator : session.creator = true) :
    session ∈ stage.issued ∨ stage.Presented actions session := by
  induction actions using List.reverseRecOn with
  | nil => exact .inl issued
  | append_singleton actions action induction =>
      obtain ⟨possible, _⟩ := possible_append.mp possible
      rw [run_append] at issued
      rcases List.mem_append.mp issued with old | new
      · rcases induction possible old with start | ⟨before, join, after, result, rfl, rest⟩
        · exact .inl start
        · exact .inr ⟨before, join, after ++ [action], result, by simp, rest⟩
      · have reached := reachable.run possible
        have move := Authority.perform_move reached.rostered action
        refine .inr ⟨actions, action, [], ?_⟩
        simp only [true_and, Action.Presents]
        change session ∈ Answer.session ((stage.run actions).authority.perform action).2 at new
        generalize (stage.run actions).authority.perform action = outcome at move new ⊢
        cases move with
        | thins outcome thins issues =>
            rw [issues] at new
            cases new
        | joins identity capability candidate call isOpen sessions narrowed room' result joined =>
            have rostered : Room.Rostered { (stage.run actions).authority.room.settledAt
                action.now with sessions } := reached.rostered.settledAt action.now
            cases List.mem_singleton.mp new
            exact ⟨result, ⟨identity, capability, candidate, call,
              (joined.admission rostered).1 ▸ creator⟩, rfl, rfl⟩

/-! ## Authority -/

end Stage

/-- The request is an operation on documents or tabs. -/
def Request.Edits : Request → Prop
  | .submitDocument _ => True
  | .applyMetadata _ _ => True
  | _ => False

/-- An accepted operation comes from an editor. -/
theorem Room.request_edits [Host] {authority : Authority} (rostered : authority.room.Rostered)
    {session : Session} {now : Time} {fault : Bool} {request : Request} (edits : request.Edits)
    {answer : Answer} (accepted : (authority.request session now fault request).2 = .ok answer) :
    authority.room.Editor session.participant := by
  cases request with
  | submitDocument operation =>
      have entry := submitDocument_entry rostered authority.store session now fault operation
      simp only [Authority.request] at accepted
      generalize authority.room.submitDocument authority.store session.participant
        session.connectionID session.generation operation now fault = outcome at entry accepted
      obtain ⟨_, result⟩ := outcome
      cases result with
      | error => cases accepted
      | ok => exact entry.editor rfl
  | applyMetadata operation generator =>
      have entry := applyMetadata_entry rostered authority.store session now fault operation
        generator
      simp only [Authority.request] at accepted
      generalize authority.room.applyMetadata authority.store session.participant
        session.connectionID session.generation operation generator now fault = outcome
        at entry accepted
      obtain ⟨_, result⟩ := outcome
      cases result with
      | error => cases accepted
      | ok => exact entry.editor rfl
  | _ => cases edits

namespace Stage

/-- What an action may do after the first actions of a run. -/
structure Authorised [Host] (stage : Stage) (before : List Action) (action : Action) : Prop where
  edits : ∀ session request answer, action.call = .request session request → request.Edits →
    ((stage.run before).authority.perform action).2 = .ok answer →
      (stage.run before).authority.room.Editor session.participant
  viewers : ∀ session request participant, action.call = .request session request →
    (stage.run before).authority.room.participants.lookup session.participant =
      some participant → participant.accessClass = .viewer →
        ((stage.run before).authority.perform action).1.room.shared =
          (stage.run before).authority.room.shared
  modes : (stage.run before).authority.room.SameModes
      ((stage.run before).authority.perform action).1.room ∨
    ∃ session request participant, action.call = .request session request ∧
      stage.Presented before session ∧
      (stage.run before).authority.room.participants.lookup session.participant =
        some participant ∧ participant.accessClass = .creator

theorem Coherent.authorised [Host] {options : HubOptions} {stage : Stage}
    (loaded : Loaded options stage) {before : List Action} (possible : stage.Possible before)
    (coherent : (stage.run before).Coherent) {action : Action}
    (possible' : action.Possible (stage.run before).issued) :
    stage.Authorised before action := by
  have start : Reachable options stage := .loaded stage loaded
  have reached := start.run possible
  have issued (session : Session) (request : Request)
      (call : action.call = .request session request) : session ∈ (stage.run before).issued := by
    unfold Action.Possible at possible'
    rw [call] at possible'
    exact possible'.1
  constructor
  case edits =>
    intro session request answer call edits accepted
    rw [Authority.perform, call] at accepted
    exact Room.request_edits reached.rostered edits accepted
  case viewers =>
    intro session request participant call present viewer
    rw [Authority.perform, call]
    rcases Room.request_shared reached.rostered session action.now action.fault request with
      same | ⟨other, present', class'⟩ | ⟨creator, holds⟩
    · exact same
    · cases present.symm.trans present'
      rw [viewer] at class'
      simp at class'
    · obtain ⟨other, present', class'⟩ := coherent.creators session (issued session request call)
        creator holds
      cases present.symm.trans present'
      cases viewer.symm.trans class'
  case modes =>
    rcases Authority.perform_modes reached.rostered action with
      same | ⟨session, request, call, creator, holds⟩
    · exact .inl same
    · have member := issued session request call
      obtain ⟨participant, present, class'⟩ := coherent.creators session member creator holds
      rcases presented_of_issued start possible member creator with none | presented
      · cases loaded with
        | newRoom => cases none
      · exact .inr ⟨session, request, participant, call, presented, present, class'⟩

theorem Reachable.coherent [Host] {options : HubOptions} {stage : Stage}
    (reachable : Reachable options stage) (coherent : stage.Coherent) {actions : List Action}
    (possible : stage.Possible actions)
    (lawful : ∀ before action after, actions = before ++ action :: after →
      ¬(stage.run before).Usurps action) : (stage.run actions).Coherent := by
  induction actions generalizing stage with
  | nil => exact coherent
  | cons action actions induction =>
      have reached := Reachable.step stage action reachable possible.1
      refine induction reached ⟨?_, ?_⟩ possible.2 fun before next after split =>
        lawful (action :: before) next after (by rw [split]; rfl)
      · exact coherent.step reachable (lawful [] action actions rfl)
      · exact fun id participant present => (reached.rostered id participant present).canEdit

/-- In a run whose creators are not usurped, and in no other, the room is changed by those only
who may change it, and the live sessions of creators belong to creators. -/
theorem edit_authority [Host] {options : HubOptions} {stage : Stage}
    (loaded : Loaded options stage) {actions : List Action} (possible : stage.Possible actions) :
    ((∀ before after, actions = before ++ after → (stage.run before).Coherent) ∧
      ∀ before action after, actions = before ++ action :: after →
        stage.Authorised before action) ↔
      ∀ before action after, actions = before ++ action :: after →
        ¬(stage.run before).Usurps action := by
  have start : Reachable options stage := .loaded stage loaded
  constructor
  · rintro ⟨coherent, _⟩ before action after rfl usurps
    obtain ⟨possible, _⟩ := possible_append.mp possible
    refine usurps.not_coherent (start.run possible) ?_
    have after' := coherent (before ++ [action]) after (by simp)
    rwa [run_append] at after'
  · intro lawful
    have coherent (before after : List Action) (split : actions = before ++ after) :
        (stage.run before).Coherent := by
      subst split
      refine start.coherent ⟨?_, ?_⟩ (possible_append.mp possible).1 fun first action rest split =>
        lawful first action (rest ++ after) (by rw [split]; simp)
      · cases loaded with
        | newRoom => exact fun _ none => by cases none
      · exact fun id participant present => (start.rostered id participant present).canEdit
    refine ⟨coherent, ?_⟩
    rintro before action after rfl
    obtain ⟨possible, first, _⟩ := possible_append.mp possible
    exact (coherent before (action :: after) rfl).authorised loaded possible first

/-- The creator of the small room joins it and leaves it, while a participant stays. -/
def smallReign : List Action :=
  [smallJoin "ann" "desk" [] 2, smallJoin "bob" "page" smallToken 2,
    ⟨.request (smallSession "bob" "page" 1 true) .disconnect, unixTime 3, false⟩]

/-- The creator is swept away and joins again without the capability. -/
def smallAbdication : List Action := [⟨.sweep, unixTime 40, false⟩, smallJoin "bob" "page" [] 41]

/-- A creator that returns as a collaborator locks the room by the session that it has left. -/
theorem edit_authority_usurped :
    let start := smallStage defaultHubOptions
    let usurped := @run sampleHost start (smallReign ++ smallAbdication)
    let session := smallSession "bob" "page" 1 true
    @Possible sampleHost start (smallReign ++ smallAbdication) ∧ session ∈ usurped.issued ∧
      usurped.authority.room.Holds "p-demo-bob" "page" 1 ∧
      (usurped.authority.room.participants.lookup "p-demo-bob").map Participant.accessClass =
        some .collaborator ∧
      usurped.authority.room.watchOnly = false ∧
      (@Authority.request sampleHost usurped.authority session (unixTime 42) false
        (.setWatchOnly true)).1.room.watchOnly = true := by
  refine ⟨⟨trivial, trivial, ⟨by decide +kernel, trivial⟩, trivial, trivial, trivial⟩, ?_⟩
  refine ⟨?_, ?_, ?_, ?_, ?_⟩
  all_goals decide +kernel

/-- The creator of the small room locks it. -/
theorem edit_authority_small :
    (@run sampleHost (smallStage defaultHubOptions) [smallJoin "bob" "page" smallToken 2,
      ⟨.request (smallSession "bob" "page" 1 true) (.setWatchOnly true), unixTime 3,
        false⟩]).Coherent := by
  have possible : @Possible sampleHost (smallStage defaultHubOptions)
      [smallJoin "bob" "page" smallToken 2,
        ⟨.request (smallSession "bob" "page" 1 true) (.setWatchOnly true), unixTime 3, false⟩] :=
    ⟨trivial, ⟨by decide +kernel, trivial⟩, trivial⟩
  refine ((@edit_authority sampleHost _ _ small_loaded _ possible).mpr ?_).1 _ [] rfl
  intro before action after split
  cases before with
  | nil =>
      cases split
      rintro ⟨_, none, _⟩
      cases none
  | cons _ before =>
      cases before with
      | nil =>
          cases split
          rintro ⟨_, _, _, ⟨_, _, _, call, _⟩, _⟩
          cases call
      | cons _ before => cases before <;> cases split

end Stage

end Oxbin.Live
