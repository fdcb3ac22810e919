import Oxbin.Data.Index
import Oxbin.Live.Display
import Oxbin.Live.Membership
import Oxbin.Live.Representation

/-!
# The coherence of a roster

A credential and a nickname belong to one participant each, the snapshots of the participants agree
with their connections, and these are in documents that exist.
-/

namespace Oxbin.Live

open Livecollab Storage

/-- The tab and the cursor of the connection are in documents that exist. -/
def Connection.Placed (documents : Keyed Document) (connection : Connection) : Prop :=
  connection.currentTab ∈ documents ∧
    ∀ cursor, connection.cursor = some cursor → cursor.documentID ∈ documents

namespace Participant

/-- So are those of all connections. -/
def Placed (documents : Keyed Document) (participant : Participant) : Prop :=
  ∀ id connection, participant.connections.lookup id = some connection →
    connection.Placed documents

/-- The participant has kept its labels and is in order. -/
structure Succeeds (documents : Keyed Document) (participant participant' : Participant) :
    Prop where
  sessionID : participant'.sessionID = participant.sessionID
  nickname : participant'.snapshot.nickname = participant.snapshot.nickname
  displayed : participant'.Displayed
  placed : participant'.Placed documents

/-- Refreshing brings a participant in order. -/
theorem Succeeds.refresh {documents : Keyed Document} {participant participant' : Participant}
    (watchOnly : Bool) (sessionID : participant'.sessionID = participant.sessionID)
    (nickname : participant'.snapshot.nickname = participant.snapshot.nickname)
    (keyed : ∀ id connection, participant'.connections.lookup id = some connection →
      connection.id = id) (placed : participant'.Placed documents) :
    participant.Succeeds documents (participant'.refresh watchOnly) where
  sessionID := (refresh_sessionID _ _).trans sessionID
  nickname := (refresh_nickname _ _).trans nickname
  displayed := displayed_refresh keyed watchOnly
  placed := by
    unfold Placed
    rw [refresh_connections]
    exact placed

theorem Placed.put {documents : Keyed Document} {participant : Participant}
    (placed : participant.Placed documents) {connection : Connection}
    (own : connection.Placed documents) : (participant.put connection).Placed documents := by
  intro id other found
  rw [lookup_put] at found
  split at found
  case isTrue =>
    cases found
    exact own
  case isFalse => exact placed id other found

theorem Placed.mono {documents documents' : Keyed Document} {participant : Participant}
    (placed : participant.Placed documents) (kept : ∀ id ∈ documents, id ∈ documents') :
    participant.Placed documents' := by
  intro id connection found
  obtain ⟨tab, cursor⟩ := placed id connection found
  exact ⟨kept _ tab, fun selection shown => kept _ (cursor selection shown)⟩

end Participant

namespace Room

/-- The roster of the room is coherent. -/
structure Coherent [Host] (room : Room) : Prop where
  sessions : room.sessions.Indexes room.participants Participant.sessionID
  names : room.names.Indexes room.participants fun participant =>
    nameKey participant.snapshot.nickname
  displayed : ∀ id participant, room.participants.lookup id = some participant →
    participant.Displayed
  placed : ∀ id participant, room.participants.lookup id = some participant →
    participant.Placed room.documents

variable [Host] {room room' : Room}

namespace Coherent

variable (coherent : room.Coherent)

include coherent

/-- Every participant may be succeeded by another one. -/
theorem succeed (sessions : room'.sessions = room.sessions) (names : room'.names = room.names)
    (present : ∀ id, (room'.participants.lookup id).isSome = (room.participants.lookup id).isSome)
    (succeeds : ∀ id participant participant', room.participants.lookup id = some participant →
      room'.participants.lookup id = some participant' →
      participant.Succeeds room'.documents participant') : room'.Coherent := by
  have labels {α : Type} (label : Participant → α) (same : ∀ participant participant',
      participant.Succeeds room'.documents participant' → label participant' = label participant)
      (id : String) : (room'.participants.lookup id).map label =
        (room.participants.lookup id).map label := by
    have present := present id
    have succeeds := succeeds id
    generalize room.participants.lookup id = before at present succeeds ⊢
    generalize room'.participants.lookup id = after at present succeeds ⊢
    cases before with
    | none =>
        cases after with
        | none => rfl
        | some => cases present
    | some participant =>
        cases after with
        | none => cases present
        | some participant' =>
            exact congrArg some (same participant participant' (succeeds _ _ rfl rfl))
  have known (id : String) (participant' : Participant)
      (found' : room'.participants.lookup id = some participant') :
      ∃ participant : Participant, participant.Succeeds room'.documents participant' := by
    have before := present id
    rw [found', Option.isSome_some, eq_comm, Option.isSome_iff_exists] at before
    obtain ⟨participant, found⟩ := before
    exact ⟨participant, succeeds id participant participant' found found'⟩
  constructor
  case sessions =>
    rw [sessions]
    exact coherent.sessions.congr (labels _ fun _ _ succeeds => succeeds.sessionID)
  case names =>
    rw [names]
    exact coherent.names.congr (labels _ fun _ _ succeeds => by rw [succeeds.nickname])
  case displayed =>
    intro id participant' found'
    obtain ⟨_, succeeds⟩ := known id participant' found'
    exact succeeds.displayed
  case placed =>
    intro id participant' found'
    obtain ⟨_, succeeds⟩ := known id participant' found'
    exact succeeds.placed

/-- Other parts of the room may change as long as no document is lost. -/
theorem of_roster (sessions : room'.sessions = room.sessions) (names : room'.names = room.names)
    (participants : room'.participants = room.participants)
    (documents : ∀ id ∈ room.documents, id ∈ room'.documents) : room'.Coherent := by
  refine coherent.succeed sessions names (fun id => by rw [participants]) ?_
  intro id participant participant' found found'
  rw [participants, found, Option.some.injEq] at found'
  subst found'
  exact ⟨rfl, rfl, coherent.displayed id participant found,
    (coherent.placed id participant found).mono documents⟩

/-- All participants may be changed. -/
theorem mapValues (change : Participant → Participant) (sessions : room'.sessions = room.sessions)
    (names : room'.names = room.names)
    (participants : room'.participants = Keyed.mapValues change room.participants)
    (succeeds : ∀ id participant, room.participants.lookup id = some participant →
      participant.Succeeds room'.documents (change participant)) : room'.Coherent := by
  refine coherent.succeed sessions names (fun id => ?_) ?_
  · rw [participants, Keyed.lookup_mapValues, Option.isSome_map]
  · intro id participant participant' found found'
    rw [participants, Keyed.lookup_mapValues, found, Option.map_some, Option.some.injEq] at found'
    subst found'
    exact succeeds id participant found

/-- One participant may be replaced. -/
theorem replace {id : String} {participant participant' : Participant}
    (found : room.participants.lookup id = some participant)
    (succeeds : participant.Succeeds room.documents participant')
    (sessions : room'.sessions = room.sessions) (names : room'.names = room.names)
    (documents : room'.documents = room.documents)
    (participants : room'.participants = room.participants.insert id participant') :
    room'.Coherent := by
  refine coherent.succeed sessions names (fun other => ?_) ?_
  · rw [participants, Keyed.lookup_insert_if]
    split
    case isTrue own => rw [own, found]; rfl
    case isFalse => rfl
  · intro other before after listed listed'
    rw [documents]
    rw [participants, Keyed.lookup_insert_if] at listed'
    split at listed'
    case isTrue own =>
      subst own
      cases found.symm.trans listed
      cases listed'
      exact succeeds
    case isFalse =>
      cases listed.symm.trans listed'
      exact ⟨rfl, rfl, coherent.displayed other before listed,
        coherent.placed other before listed⟩

/-! ## Live connections -/

theorem updateConnection {id : String} {participant : Participant}
    (found : room.participants.lookup id = some participant) (connection : Connection)
    (placed : connection.Placed room.documents) :
    (room.updateConnection id participant connection).Coherent := by
  refine coherent.replace found ?_ rfl rfl rfl rfl
  exact .refresh _ rfl rfl (Participant.keyed_insert connection (coherent.displayed id participant
    found).keyed) ((coherent.placed id participant found).put placed)

theorem ensureConnection (participantID connectionID : String) (generation : Nat) (now : Time) :
    (room.ensureConnection participantID connectionID generation now).1.Coherent := by
  unfold Room.ensureConnection
  by_cases isOpen : room.Open now
  · rw [ensureActive_open isOpen]
    simp only
    split
    case h_1 => exact coherent
    case h_2 participant present =>
      split
      case h_1 => exact coherent
      case h_2 connection found =>
        split
        case isTrue => exact coherent
        case isFalse =>
          have placed := coherent.placed _ participant present _ connection found
          exact coherent.updateConnection present { connection with lastSeenAt := now } placed
  · rw [ensureActive_closed isOpen]
    exact coherent.of_roster rfl rfl rfl fun _ => id

theorem markConnectionActivity (participantID connectionID : String) (now : Time) :
    (room.markConnectionActivity participantID connectionID now).Coherent := by
  unfold Room.markConnectionActivity
  split
  case h_1 => exact coherent
  case h_2 participant present =>
    split
    case h_1 => exact coherent
    case h_2 connection found =>
      have placed := coherent.placed _ participant present _ connection found
      exact coherent.updateConnection present
        { connection with lastSeenAt := now, lastActivityAt := now } placed

/-! ## Timeouts -/

theorem expireConnections (now : Time) : (room.expireConnections now).Coherent := by
  refine coherent.mapValues (expireParticipant room.options room.watchOnly now) rfl rfl rfl
    fun id participant found => ?_
  have displayed := coherent.displayed id participant found
  have placed := coherent.placed id participant found
  unfold expireParticipant
  simp only
  split
  case isTrue => exact ⟨rfl, rfl, displayed, placed⟩
  case isFalse =>
    split
    all_goals
      refine .refresh _ rfl rfl (fun id connection found => ?_) fun id connection found => ?_
      · exact displayed.keyed id connection (lookup_foldl_erase _ _ found)
      · exact placed id connection (lookup_foldl_erase _ _ found)

theorem removeParticipant (id : String) : (room.removeParticipant id).Coherent := by
  unfold Room.removeParticipant
  split
  case h_1 => exact coherent
  case h_2 participant found =>
    have kept (other : String) (participant' : Participant)
        (found' : (room.participants.erase id).lookup other = some participant') :
        room.participants.lookup other = some participant' := by
      rw [Keyed.lookup_erase_if] at found'
      split at found'
      case isTrue => cases found'
      case isFalse => exact found'
    exact {
      sessions := coherent.sessions.erase found
      names := coherent.names.erase found
      displayed := fun other participant' found' =>
        coherent.displayed other participant' (kept other participant' found')
      placed := fun other participant' found' =>
        coherent.placed other participant' (kept other participant' found') }

theorem pruneDisconnected (now : Time) : (room.pruneDisconnected now).1.Coherent := by
  have removed (ids : List String) : (ids.foldl Room.removeParticipant room).Coherent := by
    induction ids generalizing room with
    | nil => exact coherent
    | cons id ids induction => exact induction (coherent.removeParticipant id)
  exact removed _

theorem settledAt (now : Time) : (room.settledAt now).Coherent :=
  (coherent.expireConnections now).pruneDisconnected now

theorem close : room.close.Coherent := by
  refine coherent.mapValues (fun participant => Participant.refresh
    { participant with
      connections := ∅
      snapshot := { participant.snapshot with status := .offline } } room.watchOnly) rfl rfl rfl
    fun id participant found => ?_
  refine .refresh _ rfl rfl (fun id connection none => ?_) fun id connection none => ?_
  all_goals cases none

theorem disconnect (participantID connectionID : String) (generation : Nat) (now : Time) :
    (room.disconnect participantID connectionID generation now).1.Coherent := by
  unfold Room.disconnect
  split
  case h_1 => exact coherent
  case h_2 participant present =>
    split
    case h_1 => exact coherent
    case h_2 connection found =>
      split
      case isTrue => exact coherent
      case isFalse =>
        have displayed := coherent.displayed _ participant present
        have placed := coherent.placed _ participant present
        have erased (id : String) (connection : Connection)
            (found : (participant.connections.erase connectionID).lookup id = some connection) :
            participant.connections.lookup id = some connection := by
          rw [Keyed.lookup_erase_if] at found
          split at found
          case isTrue => cases found
          case isFalse => exact found
        simp only
        split
        all_goals
          refine coherent.replace present ?_ rfl rfl rfl rfl
          refine .refresh _ rfl rfl (fun id connection found => ?_) fun id connection found => ?_
          · exact displayed.keyed id connection (erased id connection found)
          · exact placed id connection (erased id connection found)

/-! ## Names and modes -/

/-- A participant may take a name that is free or its own. -/
theorem renamed {id name : String} {participant : Participant}
    (found : room.participants.lookup id = some participant)
    (unused : ∀ other, room.names.lookup (nameKey name) = some other → other = id) :
    Coherent { room with
      names := (room.names.erase (nameKey participant.snapshot.nickname)).insert (nameKey name) id
      participants := room.participants.insert id { participant with
        snapshot := { participant.snapshot with nickname := name } } } := by
  have listed (other : String) (participant' : Participant)
      (found' : (room.participants.insert id { participant with
        snapshot := { participant.snapshot with nickname := name } }).lookup other =
          some participant') : participant'.Displayed ∧ participant'.Placed room.documents := by
    rw [Keyed.lookup_insert_if] at found'
    split at found'
    case isTrue =>
      cases found'
      obtain ⟨keyed, count, status, sorted, cursors, foremost, vacant⟩ :=
        coherent.displayed id participant found
      exact ⟨⟨keyed, count, status, sorted, cursors, foremost, vacant⟩,
        coherent.placed id participant found⟩
    case isFalse =>
      exact ⟨coherent.displayed other participant' found',
        coherent.placed other participant' found'⟩
  constructor
  case sessions =>
    refine coherent.sessions.congr fun other => ?_
    rw [Keyed.lookup_insert_if]
    split
    case isTrue own =>
      rw [own, found]
      rfl
    case isFalse => rfl
  case names =>
    have relabelled := @Keyed.Indexes.relabel _ _ _ _ coherent.names id participant
      { participant with snapshot := { participant.snapshot with nickname := name } } found unused
    exact relabelled
  case displayed => exact fun other participant' found' => (listed other participant' found').1
  case placed => exact fun other participant' found' => (listed other participant' found').2

theorem rename (participantID connectionID : String) (generation : Nat) (name : String)
    (now : Time) :
    (room.rename participantID connectionID generation name now).1.Coherent := by
  have entered := coherent.ensureConnection participantID connectionID generation now
  unfold Room.rename
  generalize room.ensureConnection participantID connectionID generation now = outcome at entered ⊢
  obtain ⟨room', result⟩ := outcome
  cases result with
  | error => exact entered
  | ok =>
      simp only
      split
      case h_1 => exact entered
      case h_2 =>
        split
        case h_1 => exact entered
        case h_2 participant present =>
          have success (unused : ∀ other, room'.names.lookup (nameKey name) = some other →
              other = participantID) :=
            (entered.renamed present unused).markConnectionActivity participantID connectionID now
          split
          case h_1 owner taken =>
            split
            case isTrue => exact entered
            case isFalse owned =>
              refine success fun other named => ?_
              cases taken.symm.trans named
              simpa using owned
          case h_2 free =>
            split
            case isTrue => exact entered
            case isFalse =>
              refine success fun other named => ?_
              cases free.symm.trans named

theorem locked (enabled : Bool) : (room.locked enabled).Coherent := by
  refine coherent.mapValues (fun participant => participant.refresh enabled) rfl rfl rfl
    fun id participant found => ?_
  exact .refresh _ rfl rfl (coherent.displayed id participant found).keyed
    (coherent.placed id participant found)

end Coherent

/-! ## Joining -/

theorem generateName_unused {used : List String} {candidate : Nat → Option String}
    {attempts index : Nat} {name : String}
    (generated : generateName used candidate attempts index = .ok name) : nameKey name ∉ used := by
  induction attempts generalizing index with
  | zero => cases generated
  | succ attempts induction =>
      rw [generateName] at generated
      split at generated
      case h_1 => cases generated
      case h_2 =>
        split at generated
        case h_1 => cases generated
        case h_2 =>
          split at generated
          case isTrue unused =>
            cases generated
            exact unused
          case isFalse => exact induction generated

omit [Host]

theorem Listed.of_shared (listed : room.Listed) (shared : room'.shared = room.shared) :
    room'.Listed := by
  obtain ⟨nonempty, nodup, present⟩ := listed
  rw [← order_of_shared shared] at nonempty nodup
  exact ⟨nonempty, nodup, fun id => by
    rw [documents_of_shared shared, order_of_shared shared, present]⟩

/-- The first tab is a document. -/
theorem Listed.head_mem (listed : room.Listed) : room.order.headD "" ∈ room.documents := by
  rw [listed.present]
  cases order : room.order with
  | nil => exact absurd order listed.nonempty
  | cons => exact List.mem_cons_self

theorem addConnection_placed (listed : room.Listed) (participant : Participant)
    (identity : JoinIdentity) (now : Time) :
    (room.addConnection participant identity now).2.Placed room.documents := by
  refine ⟨?_, fun cursor shown => nomatch shown⟩
  change (if participant.snapshot.currentTab ∈ room.documents then participant.snapshot.currentTab
    else room.order.headD "") ∈ room.documents
  split
  case isTrue known => exact known
  case isFalse => exact listed.head_mem

theorem newcomer_succeeds [Host] (listed : room.Listed) (participantID nickname : String)
    (identity : JoinIdentity) (accessClass : ParticipantAccessClass) (now : Time) :
    (room.newcomer participantID nickname identity accessClass now).sessionID =
        identity.participantCredential ∧
      (room.newcomer participantID nickname identity accessClass now).snapshot.nickname = nickname ∧
      (room.newcomer participantID nickname identity accessClass now).Displayed ∧
      (room.newcomer participantID nickname identity accessClass now).Placed room.documents := by
  unfold newcomer
  set blank : Participant := {
    sessionID := identity.participantCredential, accessClass, connections := ∅
    nextGeneration := 0, disconnectedAt := zeroTime
    snapshot := {
      id := participantID, nickname, joinedAt := now, color := Host.participantColor participantID
      currentTab := room.order.headD "", cursor := none, cursors := [], status := .connected
      accessClass, canEdit := false, connectionCount := 1, lastSeenAt := now } }
  have nobody : blank.Placed room.documents := fun _ _ none => nomatch none
  have succeeds : blank.Succeeds room.documents
      ((room.addConnection blank identity now).1.refresh room.watchOnly) :=
    .refresh _ rfl rfl (Participant.keyed_insert _ fun _ _ none => nomatch none)
      (nobody.put (addConnection_placed listed blank identity now))
  exact ⟨succeeds.sessionID, succeeds.nickname, succeeds.displayed, succeeds.placed⟩

namespace Coherent

variable [Host] (coherent : room.Coherent) (listed : room.Listed)

include coherent listed

theorem rejoin {participantID : String} {participant : Participant} {identity : JoinIdentity}
    {creator : Bool} {now : Time} {result : JoinResult}
    (present : room.participants.lookup participantID = some participant)
    (joins : room.rejoin participantID participant identity creator now = .ok (room', result)) :
    room'.Coherent := by
  unfold Room.rejoin at joins
  split at joins
  case isTrue => cases joins
  case isFalse =>
    split at joins
    case isTrue => cases joins
    case isFalse =>
      split at joins
      case isTrue => cases joins
      case isFalse =>
        simp only [Except.ok.injEq, Prod.mk.injEq] at joins
        obtain ⟨rfl, _⟩ := joins
        have displayed := coherent.displayed _ participant present
        have placed := coherent.placed _ participant present
        have own := addConnection_placed listed participant identity now
        refine coherent.replace present (.refresh room.watchOnly ?_ ?_ ?_ ?_) rfl rfl rfl rfl
        · cases creator <;> rfl
        · cases creator <;> rfl
        · cases creator <;> exact Participant.keyed_insert _ displayed.keyed
        · cases creator <;> exact placed.put own

theorem joinNew {identity : JoinIdentity} {creator : Bool} {candidate : Nat → Option String}
    {now : Time} {result : JoinResult}
    (unknown : room.sessions.lookup identity.participantCredential = none)
    (joins : room.joinNew identity creator candidate now = .ok (room', result)) :
    room'.Coherent := by
  unfold Room.joinNew at joins
  simp only [bind_eq_ok, require_eq_ok, exists_const] at joins
  obtain ⟨_, accessClass, _, participantID, _, fresh, joins⟩ := joins
  obtain ⟨nickname, unused, rfl⟩ : ∃ nickname, nameKey nickname ∉ room.names ∧ room' = { room with
      participants := room.participants.insert participantID
        (room.newcomer participantID nickname identity accessClass now)
      sessions := room.sessions.insert identity.participantCredential participantID
      names := room.names.insert (nameKey nickname) participantID } := by
    split at joins
    case isTrue preferred =>
      simp only [bind_eq_ok, Except.ok.injEq, Prod.mk.injEq] at joins
      obtain ⟨nickname, rfl, rfl, _⟩ := joins
      exact ⟨_, preferred.2.1, rfl⟩
    case isFalse =>
      simp only [bind_eq_ok, Except.ok.injEq, Prod.mk.injEq] at joins
      obtain ⟨nickname, generated, rfl, _⟩ := joins
      exact ⟨nickname, generateName_unused generated, rfl⟩
  have absent := AList.lookup_eq_none.mpr fresh
  obtain ⟨sessionID, named, displayed, placed⟩ :=
    newcomer_succeeds listed participantID nickname identity accessClass now
  set newcomer := room.newcomer participantID nickname identity accessClass now
  have entered (id : String) (participant : Participant)
      (found : (room.participants.insert participantID newcomer).lookup id = some participant) :
      participant.Displayed ∧ participant.Placed room.documents := by
    rw [Keyed.lookup_insert_if] at found
    split at found
    case isTrue =>
      cases found
      exact ⟨displayed, placed⟩
    case isFalse =>
        exact ⟨coherent.displayed id participant found, coherent.placed id participant found⟩
  constructor
  case sessions =>
    have inserted := coherent.sessions.insert absent (sessionID ▸ unknown)
    rwa [sessionID] at inserted
  case names =>
    have inserted := @Keyed.Indexes.insert _ _ _ _ coherent.names participantID newcomer absent
      (by rw [named]; exact AList.lookup_eq_none.mpr unused)
    rwa [named] at inserted
  case displayed => exact fun id participant found => (entered id participant found).1
  case placed => exact fun id participant found => (entered id participant found).2

theorem join (identity : JoinIdentity) (capability : CreatorCapability)
    (candidate : Nat → Option String) (now : Time) :
    (room.join identity capability candidate now).1.Coherent := by
  unfold Room.join
  by_cases isOpen : room.Open now
  · rw [ensureActive_open isOpen]
    simp only
    rw [← Room.settledAt]
    have settled := coherent.settledAt now
    have listed' := listed.of_shared (room.settledAt_rest now).1
    cases known : room.settledAt now |>.sessions.lookup identity.participantCredential with
    | none =>
        simp only [Option.bind_eq_bind, Option.bind_none]
        have forgotten : Coherent { room.settledAt now with
            sessions := (room.settledAt now).sessions.erase identity.participantCredential } :=
          ⟨settled.sessions.forget known, settled.names, settled.displayed, settled.placed⟩
        split
        case h_1 => exact forgotten
        case h_2 room' result joins =>
          exact forgotten.joinNew (listed'.of_shared rfl)
            ((Keyed.lookup_erase_if _ _ _).trans (if_pos rfl)) joins
    | some participantID =>
        obtain ⟨participant, present, _⟩ := (settled.sessions _ _).mp known
        simp only [Option.bind_eq_bind, Option.bind_some, present]
        split
        case h_1 => exact settled
        case h_2 room' result joins => exact settled.rejoin listed' present joins
  · rw [ensureActive_closed isOpen]
    exact coherent.of_roster rfl rfl rfl fun _ => id

end Coherent

/-! ## Operations -/

section Documents

variable [Host]

/-- An edit keeps every document. -/
theorem acceptDocument_documents (room : Room) (store : Store) (operation : DocumentOperation)
    (now : Time) (fault : Bool) {id : String} (known : id ∈ room.documents) :
    id ∈ (room.acceptDocument store operation now fault).1.room.documents := by
  have ends := room.acceptDocument_outcome store operation now fault
  generalize room.acceptDocument store operation now fault = outcome at ends ⊢
  cases ends with
  | refused => exact known
  | repeated => exact known
  | accepted document changes content store' named fresh admitted =>
      rw [← AList.lookup_isSome] at known ⊢
      simp only [Room.accepted, committed_document_lookup, editDocument_lookup, Option.isSome_map]
      split
      case isTrue => rfl
      case isFalse => exact known

/-- An operation on the documents keeps every document but the one that it deletes. -/
theorem acceptMetadata_documents (room : Room) (store : Store) (operation : MetadataOperation)
    (generator : Nat → Option String) (now : Time) (fault : Bool) {id : String}
    (known : id ∈ room.documents) (other : room.Deletes operation → id ≠ operation.documentID) :
    id ∈ (room.acceptMetadata store operation generator now fault).1.room.documents := by
  have ends := room.acceptMetadata_outcome store operation generator now fault
  generalize room.acceptMetadata store operation generator now fault = outcome at ends ⊢
  cases ends with
  | refused room' shared => exact documents_of_shared shared ▸ known
  | repeated => exact known
  | accepted effect store' authority named fresh admitted change small saved result =>
      subst result
      rw [← AList.lookup_isSome] at known ⊢
      have kept : (effect.room.documents.lookup id).isSome := by
        cases change with
        | create =>
            rw [Keyed.lookup_insert_if]
            split
            case isTrue => rfl
            case isFalse => exact known
        | update =>
            rw [Keyed.lookup_insert_if]
            split
            case isTrue => rfl
            case isFalse => exact known
        | delete kind several found =>
            have different := other ⟨kind, named, fresh, admitted, several, found⟩
            change ((room.documents.erase operation.documentID).lookup id).isSome
            rw [AList.lookup_erase_ne different]
            exact known
        | reorder => exact known
      rwa [committed_metadata_lookup, Option.isSome_map, metadataChanged, syncSnapshot, positionAll,
        Keyed.lookup_mapKeyed, Option.isSome_map]

end Documents

/-- Where connections go when a document is deleted. -/
theorem leaveDocument_placed {documents : Keyed Document} {documentID fallbackTab : String}
    (fallback : fallbackTab ∈ documents) {connection : Connection}
    (placed : connection.Placed room.documents)
    (kept : ∀ id ∈ room.documents, id ≠ documentID → id ∈ documents) :
    (leaveDocument documentID fallbackTab connection).Placed documents := by
  obtain ⟨tab, cursor⟩ := placed
  constructor
  · change (if connection.currentTab = documentID then fallbackTab else connection.currentTab) ∈
      documents
    split
    case isTrue => exact fallback
    case isFalse elsewhere => exact kept _ tab elsewhere
  · intro selection shown
    simp only [leaveDocument] at shown
    split at shown
    case h_1 before present =>
      split at shown
      case isTrue => cases shown
      case isFalse elsewhere =>
        cases shown
        exact kept _ (cursor selection present) elsewhere
    case h_2 => cases shown

/-- The first of the remaining tabs is another document. -/
theorem Listed.fallback (listed : room.Listed) {documentID : String}
    (several : room.order.length ≠ 1) :
    (room.order.erase documentID).headD "" ∈ room.documents ∧
      (room.order.erase documentID).headD "" ≠ documentID := by
  have remains : room.order.erase documentID ≠ [] := by
    intro empty
    have positive := List.length_pos_iff.mpr listed.nonempty
    have length := congrArg List.length empty
    rw [List.length_erase, List.length_nil] at length
    split at length <;> omega
  have member : (room.order.erase documentID).headD "" ∈ room.order.erase documentID := by
    cases rest : room.order.erase documentID with
    | nil => exact absurd rest remains
    | cons => exact List.mem_cons_self
  obtain ⟨different, listed'⟩ := listed.nodup.mem_erase_iff.mp member
  exact ⟨(listed.present _).mpr listed', different⟩

namespace Coherent

variable [Host] (coherent : room.Coherent)

include coherent

/-- When a document is deleted, or its deletion is undone, everybody has left it. -/
theorem left (listed : room.Listed) {operation : MetadataOperation}
    (several : room.order.length ≠ 1) (same : (room.left operation).SameRoster room')
    (kept : ∀ id ∈ room.documents, id ≠ operation.documentID → id ∈ room'.documents) :
    room'.Coherent := by
  obtain ⟨fallback, different⟩ := @Listed.fallback _ listed operation.documentID several
  refine coherent.mapValues (fun participant => Participant.refresh { participant with
    connections := Keyed.mapValues (leaveDocument operation.documentID
      ((room.order.erase operation.documentID).headD "")) participant.connections } room.watchOnly)
    same.sessions same.names same.participants fun id participant found => ?_
  refine .refresh _ rfl rfl (fun id connection moved => ?_) fun id connection moved => ?_
  all_goals
    rw [Keyed.lookup_mapValues, Option.map_eq_some_iff] at moved
    obtain ⟨before, listed', rfl⟩ := moved
  · exact (coherent.displayed _ participant found).keyed id before listed'
  · exact leaveDocument_placed (kept _ fallback different)
      (coherent.placed _ participant found id before listed') kept

theorem submitDocument (store : Store) (participantID connectionID : String) (generation : Nat)
    (operation : DocumentOperation) (now : Time) (fault : Bool) :
    (room.submitDocument store participantID connectionID generation operation now
      fault).1.room.Coherent := by
  have entered := coherent.ensureConnection participantID connectionID generation now
  unfold Room.submitDocument
  generalize room.ensureConnection participantID connectionID generation now = outcome at entered ⊢
  obtain ⟨room', result⟩ := outcome
  cases result with
  | error => exact entered
  | ok =>
      have marked := entered.markConnectionActivity participantID connectionID now
      simp only
      split
      case isTrue => exact marked
      case isFalse =>
        have same := acceptDocument_sameRoster (room'.markConnectionActivity participantID
          connectionID now) store operation now fault
        exact marked.of_roster same.sessions same.names same.participants fun id known =>
          acceptDocument_documents _ _ _ _ _ known

theorem applyMetadata (listed : room.Listed) (store : Store)
    (participantID connectionID : String) (generation : Nat) (operation : MetadataOperation)
    (generator : Nat → Option String) (now : Time) (fault : Bool) :
    (room.applyMetadata store participantID connectionID generation operation generator now
      fault).1.room.Coherent := by
  have entered := coherent.ensureConnection participantID connectionID generation now
  have shared := room.ensureConnection_shared participantID connectionID generation now
  unfold Room.applyMetadata
  generalize room.ensureConnection participantID connectionID generation now = outcome
    at entered shared ⊢
  obtain ⟨room', result⟩ := outcome
  cases result with
  | error => exact entered
  | ok =>
      have marked := entered.markConnectionActivity participantID connectionID now
      have listed' := listed.of_shared
        ((room'.markConnectionActivity_shared participantID connectionID now).trans shared)
      simp only
      split
      case isTrue => exact marked
      case isFalse =>
        have documents (id : String) := @acceptMetadata_documents _
          (room'.markConnectionActivity participantID connectionID now) store operation generator
            now fault id
        rcases (room'.markConnectionActivity participantID connectionID now).acceptMetadata_roster
          store operation generator now fault with ⟨kept, same⟩ | ⟨deletes, same⟩
        · exact marked.of_roster same.sessions same.names same.participants fun id known =>
            documents id known fun deletes => absurd deletes kept
        · exact marked.left listed' deletes.several same fun id known different =>
            documents id known fun _ => different

theorem setWatchOnly (store : Store) (participantID connectionID : String) (generation : Nat)
    (creator enabled : Bool) (now : Time) (fault : Bool) :
    (room.setWatchOnly store participantID connectionID generation creator enabled now
      fault).1.room.Coherent := by
  have entered := coherent.ensureConnection participantID connectionID generation now
  unfold Room.setWatchOnly
  generalize room.ensureConnection participantID connectionID generation now = outcome at entered ⊢
  obtain ⟨room', result⟩ := outcome
  cases result with
  | error => exact entered
  | ok =>
      have marked := entered.markConnectionActivity participantID connectionID now
      simp only
      split
      case isTrue => exact marked
      case isFalse =>
        split
        case isTrue => exact marked
        case isFalse =>
          split
          case h_1 => exact marked
          case h_2 => exact marked.locked enabled

theorem setLayoutPreset (store : Store) (participantID connectionID : String) (generation : Nat)
    (creator : Bool) (preset : String) (now : Time) (fault : Bool) :
    (room.setLayoutPreset store participantID connectionID generation creator preset now
      fault).1.room.Coherent := by
  have entered := coherent.ensureConnection participantID connectionID generation now
  unfold Room.setLayoutPreset
  generalize room.ensureConnection participantID connectionID generation now = outcome at entered ⊢
  obtain ⟨room', result⟩ := outcome
  cases result with
  | error => exact entered
  | ok =>
      have marked := entered.markConnectionActivity participantID connectionID now
      simp only
      split
      case isTrue => exact entered
      case isFalse =>
        split
        case isTrue => exact entered
        case isFalse =>
          split
          case isTrue => exact marked
          case isFalse =>
            split
            case h_1 => exact marked
            case h_2 => exact marked.of_roster rfl rfl rfl fun _ => id

end Coherent

end Room

end Oxbin.Live
