import Oxbin.Httpapi.Peers

/-!
# Publishing

Connections come and go, operations are accepted and told to the peers, and the writers send what
has been told, all at once.  The publication lock of a room makes the peers hear of the operations
in the order in which the room has accepted them.
-/

namespace Oxbin.Httpapi

open Live Stage

/-- A peer, the revisions with which it has joined, and how the server reads what the client at the
other end shows, if they are the revisions of that. -/
structure Link where
  peer : LivePeer
  known : KnownRevisions
  view : Option View

/-- What is left to do for the goroutine that holds the publication lock. -/
inductive Publishing where
  | free
  /-- `broadcast` is about to list the peers. -/
  | announcing (event : Event)
  /-- Events that are about to be put into the queues of peers. -/
  | delivering (deliveries : List (Nat × Event))

/-- The events that are still coming for a peer. -/
def Publishing.pending (publishing : Publishing) (index : Nat) : List Event :=
  match publishing with
  | free => []
  | announcing event => [event]
  | delivering deliveries => (deliveries.filter fun delivery => delivery.1 == index).map Prod.snd

/-- A room with its peers, in the order in which they have joined. -/
structure World where
  stage : Stage
  links : List Link
  publishing : Publishing

namespace World

/-- Something happens to a peer. -/
def change (world : World) (index : Nat) (change : LivePeer → LivePeer) : World :=
  { world with links := world.links.modify index fun link =>
    { link with peer := change link.peer } }

/-- `list`. -/
def listed (world : World) : List Nat :=
  (List.range world.links.length).filter fun index =>
    match world.links[index]? with
    | some link => link.peer.listed
    | none => false

/-- The operation is one that `handleWireMessage` publishes for the peer. -/
def Publishes (peer : LivePeer) : Request → Prop
  | .submitDocument operation => operation.clientID = peer.clientID
  | .applyMetadata operation _ => operation.clientID = peer.clientID
  | _ => False

/-- The frames that a connection gets when it joins. -/
def greeting (result : JoinResult) (connectionID : String) (bridge : BridgeResult) : List Event :=
  .joined result connectionID ::
    if bridge.resync then [.resync]
    else bridge.metadataChanges.map .metadata ++ bridge.documentChanges.map .document

/-- A peer that joins.  It fetches the room again if it is told to. -/
def link (stage : Stage) (peer : LivePeer) (bridge : BridgeResult) (known : KnownRevisions)
    (view : Option View) : Link :=
  if bridge.resync then ⟨peer, stage.authority.room.view.known, some stage.authority.room.view⟩
  else ⟨peer, known, view⟩

@[simp] theorem link_peer (stage : Stage) (peer : LivePeer) (bridge : BridgeResult)
    (known : KnownRevisions) (view : Option View) :
    (link stage peer bridge known view).peer = peer := by
  unfold link
  split <;> rfl

/-- The `Heartbeat` of a session. -/
def heartbeat (session : Session) (now : Time) : Action := ⟨.request session .heartbeat, now, false⟩

/-- Everything that can happen to a room and its peers.  Calls that have nothing to publish need no
lock, and notices reach any peer at any time. -/
inductive Reached [Host] (options : HubOptions) (limit : Int) : World → Annals → Prop
  | start (stage : Stage) (annals : Annals) (lived : Lived options stage annals) :
      Reached options limit ⟨stage, [], .free⟩ annals
  | call (world : World) (annals : Annals) (action : Action)
      (reached : Reached options limit world annals)
      (possible : action.Possible world.stage.issued) (apart : world.stage.authority.Apart action)
      (silent : ∀ answer, (world.stage.authority.perform action).2 = .ok answer →
        answer.change = none) :
      Reached options limit { world with stage := world.stage.step action }
        (annals.log (world.stage.step action).authority.room)
  | reload (world : World) (annals : Annals) (snapshot : RoomSnapshot) (now : Time)
      (authority : Authority) (reached : Reached options limit world annals)
      (valid : options.validate = .ok ())
      (read : Storage.Store.getRoomSnapshot world.stage.authority.store
        world.stage.authority.room.snapshot.slug now false = .ok snapshot)
      (load : Room.newRoom world.stage.authority.store snapshot options .none =
        (authority.store, .ok authority.room)) :
      Reached options limit { world with stage := ⟨authority, []⟩ } (annals.log authority.room)
  /-- A peer's operation is accepted, or has been accepted before. -/
  | publish (world : World) (annals : Annals) (index : Nat) (link : Link) (request : Request)
      (now : Time) (fault : Bool) (answer : Answer) (event : Event)
      (reached : Reached options limit world annals) (free : world.publishing = .free)
      (found : world.links[index]? = some link) (publishes : Publishes link.peer request)
      (possible : Action.Possible world.stage.issued
        ⟨.request link.peer.session request, now, fault⟩)
      (answered : (world.stage.authority.perform
        ⟨.request link.peer.session request, now, fault⟩).2 = .ok answer)
      (made : operationEvent answer = some event) :
      Reached options limit
        ⟨world.stage.step ⟨.request link.peer.session request, now, fault⟩, world.links,
          if isDuplicate answer then .delivering [(index, event)] else .announcing event⟩
        (annals.log (world.stage.step
          ⟨.request link.peer.session request, now, fault⟩).authority.room)
  | list (world : World) (annals : Annals) (event : Event) (peers : List Nat)
      (reached : Reached options limit world annals)
      (announcing : world.publishing = .announcing event) (visits : peers.Perm world.listed) :
      Reached options limit
        { world with publishing := .delivering (peers.map fun index => (index, event)) } annals
  | deliver (world : World) (annals : Annals) (index : Nat) (event : Event)
      (later : List (Nat × Event)) (choosesDone : Bool)
      (reached : Reached options limit world annals)
      (delivering : world.publishing = .delivering ((index, event) :: later)) :
      Reached options limit
        { world.change index (LivePeer.enqueue limit event choosesDone) with
          publishing := .delivering later } annals
  | unlock (world : World) (annals : Annals) (reached : Reached options limit world annals)
      (delivered : world.publishing = .delivering []) :
      Reached options limit { world with publishing := .free } annals
  /-- A client joins with some revisions, which may be those of what it shows. -/
  | join (world : World) (annals : Annals) (identity : JoinIdentity)
      (capability : CreatorCapability) (candidate : Nat → Option String) (now : Time)
      (fault : Bool) (result : JoinResult) (known : KnownRevisions) (view : Option View)
      (later : Time) (bridge : BridgeResult) (stage : Stage)
      (reached : Reached options limit world annals)
      (free : world.publishing = .free)
      (joined : (world.stage.authority.perform ⟨.join identity capability candidate, now,
        fault⟩).2 = .ok (.joined result))
      (joins : stage = world.stage.step ⟨.join identity capability candidate, now, fault⟩)
      (behind : ∀ shown ∈ view, known = shown.known ∧ Behind options world.stage annals shown)
      (bridged : (stage.authority.room.bridge result.session.participant
        result.session.connectionID result.session.generation known later).2 = .ok bridge) :
      Reached options limit
        ⟨stage.step (heartbeat result.session later),
          world.links ++ [link stage { session := result.session, clientID := identity.clientID }
            bridge known view],
          .delivering ((greeting result identity.connectionID bridge).map fun event =>
            (world.links.length, event))⟩
        ((annals.log stage.authority.room).log
          (stage.step (heartbeat result.session later)).authority.room)
  | notice (world : World) (annals : Annals) (index : Nat) (data : Json) (choosesDone : Bool)
      (reached : Reached options limit world annals) :
      Reached options limit
        (world.change index (LivePeer.enqueue limit (.notice data) choosesDone)) annals
  | write (world : World) (annals : Annals) (index : Nat) (link : Link) (peer : LivePeer)
      (reached : Reached options limit world annals) (found : world.links[index]? = some link)
      (writes : link.peer.Writes peer) :
      Reached options limit (world.change index fun _ => peer) annals
  | stop (world : World) (annals : Annals) (index : Nat)
      (reached : Reached options limit world annals) :
      Reached options limit (world.change index LivePeer.stop) annals
  | expire (world : World) (annals : Annals) (index : Nat)
      (reached : Reached options limit world annals) :
      Reached options limit (world.change index LivePeer.closeAfter) annals
  | remove (world : World) (annals : Annals) (index : Nat)
      (reached : Reached options limit world annals) :
      Reached options limit (world.change index fun peer => { peer with listed := false }) annals

/-- What a peer has been sent and what is still coming. -/
def stream (world : World) (index : Nat) (link : Link) : List Event :=
  link.peer.sent ++ world.publishing.pending index

end World

/-! ## What a client can follow -/

/-- The events greet a client and count on from the revisions with which it has joined.  They lead
it from what it shows to what the room shows, so that it can come back wherever it is interrupted. -/
structure Follows [Host] (options : HubOptions) (stage : Stage) (annals : Annals) (link : Link)
    (events : List Event) : Prop where
  greeted : ∃ result connectionID later,
    events.filter Event.substantial = .joined result connectionID :: later
  counts : ∃ known, (events.filterMap Event.change).foldlM KnownRevisions.receive link.known =
    some known ∧ known.Covers stage.authority.room.view
  behind : ∀ view ∈ link.view, Behind options stage annals view
  leads : ∀ view ∈ link.view, Passage Screen.apply (Behind options stage annals) view
    (events.filterMap Event.change) stage.authority.room.view

section Follows

variable [Host] {options : HubOptions} {stage stage' : Stage} {annals annals' : Annals}
  {link : Link} {events events' : List Event}

theorem Follows.congr (follows : Follows options stage annals link events) {link' : Link}
    (known : link'.known = link.known) (view : link'.view = link.view)
    (changes : events'.filterMap Event.change = events.filterMap Event.change)
    (substance : events'.filter Event.substantial = events.filter Event.substantial) :
    Follows options stage annals link' events' where
  greeted := substance ▸ follows.greeted
  counts := by
    rw [changes, known]
    exact follows.counts
  behind := view ▸ follows.behind
  leads := by
    rw [changes, view]
    exact follows.leads

/-- The room goes on and shows what it showed. -/
theorem Follows.onward (follows : Follows options stage annals link events)
    (onward : Onward options stage annals stage' annals')
    (same : stage'.authority.room.view = stage.authority.room.view) :
    Follows options stage' annals' link events where
  greeted := follows.greeted
  counts := same ▸ follows.counts
  behind view shown := (follows.behind view shown).onward onward
  leads view shown :=
    same ▸ (follows.leads view shown).mono fun _ behind => behind.onward onward

theorem Follows.more (follows : Follows options stage annals link events) {event : Event}
    (silent : event.change = none) : Follows options stage annals link (events ++ [event]) where
  greeted := by
    obtain ⟨result, connectionID, later, greeted⟩ := follows.greeted
    rw [List.filter_append, greeted]
    exact ⟨result, connectionID, _, rfl⟩
  counts := by
    rw [List.filterMap_append, List.filterMap_cons_none silent, List.filterMap_nil, List.append_nil]
    exact follows.counts
  behind := follows.behind
  leads := by
    rw [List.filterMap_append, List.filterMap_cons_none silent, List.filterMap_nil, List.append_nil]
    exact follows.leads

/-- The room accepts an operation, and the client hears of it. -/
theorem Follows.told (follows : Follows options stage annals link events)
    (lived : Lived options stage' annals') (onward : Onward options stage annals stage' annals')
    {event : Event} {change : View.Change} (told : event.change = some change)
    (applied : stage.authority.room.view.apply change = .ok stage'.authority.room.view)
    (counts : ∀ known : KnownRevisions, known.Covers stage.authority.room.view →
      ∃ known', known.receive change = some known' ∧
        known'.Covers stage'.authority.room.view) :
    Follows options stage' annals' link (events ++ [event]) where
  greeted := by
    obtain ⟨result, connectionID, later, greeted⟩ := follows.greeted
    rw [List.filter_append, greeted]
    exact ⟨result, connectionID, _, rfl⟩
  counts := by
    obtain ⟨known, counted, covers⟩ := follows.counts
    obtain ⟨known', next, covers'⟩ := counts known covers
    rw [List.filterMap_append, List.filterMap_cons_some told, List.filterMap_nil,
      List.foldlM_append, counted, Option.bind_eq_bind, Option.bind_some, List.foldlM_cons, next]
    exact ⟨known', rfl, covers'⟩
  behind view shown := (follows.behind view shown).onward onward
  leads view shown := by
    rw [List.filterMap_append, List.filterMap_cons_some told, List.filterMap_nil]
    exact ((follows.leads view shown).mono fun _ behind => behind.onward onward).concat applied
      (behind_of_shows lived lived.recollects.shows)

end Follows

/-- The event of an operation says what the operation has changed. -/
theorem operation_told [Host] {options : HubOptions} {stage : Stage} {annals : Annals}
    (lived : Lived options stage annals) {action : Action}
    (possible : action.Possible stage.issued) {answer : Answer} {event : Event}
    (answered : (stage.authority.perform action).2 = .ok answer)
    (made : operationEvent answer = some event) :
    if isDuplicate answer then event.change = none ∧
      (stage.step action).authority.room.view = stage.authority.room.view
    else ∃ change, event.change = some change ∧
      stage.authority.room.view.apply change = .ok (stage.step action).authority.room.view ∧
      ∀ known : KnownRevisions, known.Covers stage.authority.room.view →
        ∃ known', known.receive change = some known' ∧
          known'.Covers (stage.step action).authority.room.view := by
  have same : event.change = answer.change := by
    cases answer <;> cases made <;> rfl
  have known : answer.change = none ↔ isDuplicate answer = true := by
    cases answer with
    | document accepted | metadata accepted =>
        unfold Answer.change isDuplicate
        simp only [ite_eq_left_iff, reduceCtorEq, imp_false, not_not]
    | _ => cases made
  cases lived.tells possible with
  | nothing view silent =>
      have none := silent answer answered
      rw [if_pos (known.mp none)]
      exact ⟨same.trans none, view⟩
  | change answer' change answered' told applied counts =>
      cases answered.symm.trans answered'
      rw [if_neg fun duplicate => by
        rw [known.mpr duplicate] at told
        cases told]
      exact ⟨change, same.trans told, applied, counts⟩

namespace World

/-! ## The invariant -/

theorem listed_of_live {world : World} {index : Nat} {link : Link}
    (found : world.links[index]? = some link) (live : link.peer.Live) : index ∈ world.listed := by
  obtain ⟨bound, _⟩ := List.getElem?_eq_some_iff.mp found
  refine List.mem_filter.mpr ⟨List.mem_range.mpr bound, ?_⟩
  rw [found]
  exact live.listed

/-- Every listed peer gets the event once. -/
theorem pending_of_list {world : World} {peers : List Nat} {index : Nat} (event : Event)
    (visits : peers.Perm world.listed) (member : index ∈ world.listed) :
    (Publishing.delivering (peers.map fun index => (index, event))).pending index = [event] := by
  have distinct : peers.Nodup := visits.nodup_iff.mpr (List.nodup_range.filter _)
  have once : peers.filter (fun other => other == index) = [index] := by
    rw [List.filter_beq, List.count_eq_one_of_mem distinct (visits.mem_iff.mpr member)]
    rfl
  unfold Publishing.pending
  simp only [List.filter_map, List.map_map]
  exact (congrArg (List.map fun _ => event) once : _)

/-- Every client whose peer has not been stopped can follow the room. -/
structure Served [Host] (options : HubOptions) (world : World) (annals : Annals) : Prop where
  lived : Lived options world.stage annals
  sound : ∀ (index : Nat) (link : Link), world.links[index]? = some link → link.peer.Sound
  follows : ∀ (index : Nat) (link : Link), world.links[index]? = some link → link.peer.Live →
    Follows options world.stage annals link (world.stream index link)

/-- A client that joins can follow what it is greeted with. -/
theorem follows_greeting [Host] {options : HubOptions} {stage : Stage} {annals : Annals}
    {known : KnownRevisions} {view : Option View} {session : Session} {later : Time}
    {bridge : BridgeResult} (result : JoinResult) (connectionID : String) (peer : LivePeer)
    (lived : Lived options stage annals)
    (behind : ∀ shown ∈ view, known = shown.known ∧ Behind options stage annals shown)
    (bridged : (stage.authority.room.bridge session.participant session.connectionID
      session.generation known later).2 = .ok bridge) :
    Follows options stage annals (link stage peer bridge known view)
      (greeting result connectionID bridge) := by
  have greeted : (greeting result connectionID bridge).filter Event.substantial =
      .joined result connectionID :: List.filter Event.substantial
        (if bridge.resync then [.resync]
          else bridge.metadataChanges.map .metadata ++ bridge.documentChanges.map .document) := rfl
  have changes : (greeting result connectionID bridge).filterMap Event.change =
      List.filterMap Event.change
        (if bridge.resync then [.resync]
          else bridge.metadataChanges.map .metadata ++ bridge.documentChanges.map .document) := rfl
  have formed := lived.settled.consistent.formed
  unfold link
  split at changes
  case isTrue resync =>
    rw [if_pos resync]
    have present := behind_of_shows lived lived.recollects.shows
    have distinct : (stage.authority.room.view.tabs.map Screen.Tab.id).Nodup :=
      formed.listed.map_id_view ▸ formed.listed.nodup
    refine ⟨⟨_, _, _, greeted⟩, ?_, ?_, ?_⟩
    · rw [changes]
      exact ⟨_, rfl, KnownRevisions.covers_known distinct⟩
    · rintro _ ⟨⟩
      exact present
    · rintro _ ⟨⟩
      rw [changes]
      rfl
  case isFalse bridges =>
    rw [if_neg bridges]
    have counts := lived.receive_bridge bridged (eq_false_of_ne_true bridges)
    obtain ⟨metadata, documents⟩ := lived.bridge_fresh bridged (eq_false_of_ne_true bridges)
    have same : (greeting result connectionID bridge).filterMap Event.change = bridge.changes := by
      rw [changes, List.filterMap_append, List.filterMap_map, List.filterMap_map,
        BridgeResult.changes]
      congr 1
      · rw [← List.filterMap_eq_map]
        refine List.filterMap_congr fun accepted member => ?_
        have fresh := metadata accepted member
        simp only [Function.comp_apply, Event.change, fresh, Bool.false_eq_true, if_false]
      · rw [← List.filterMap_eq_map]
        refine List.filterMap_congr fun accepted member => ?_
        have fresh := documents accepted member
        simp only [Function.comp_apply, Event.change, fresh, Bool.false_eq_true, if_false]
    refine ⟨⟨_, _, _, greeted⟩, same ▸ counts, fun shown member => (behind shown member).2,
      fun shown member => ?_⟩
    obtain ⟨rfl, behind'⟩ := behind shown member
    rw [same]
    exact behind'.bridge bridged (eq_false_of_ne_true bridges)

section Served

variable [Host] {options : HubOptions} {world : World} {annals annals' : Annals} {stage : Stage}

/-- The room goes on and shows what it showed. -/
theorem Served.onward (served : Served options world annals)
    (onward : Onward options world.stage annals stage annals')
    (same : stage.authority.room.view = world.stage.authority.room.view) :
    Served options { world with stage } annals' where
  lived := onward.lived served.lived
  sound := served.sound
  follows index link found live := (served.follows index link found live).onward onward same

/-- Something happens to one peer. -/
theorem Served.change (served : Served options world annals) {index : Nat}
    {change : LivePeer → LivePeer} {publishing : Publishing}
    (others : ∀ other, other ≠ index →
      publishing.pending other = world.publishing.pending other)
    (sound : ∀ link : Link, world.links[index]? = some link → (change link.peer).Sound)
    (keeps : ∀ link : Link, world.links[index]? = some link → (change link.peer).Live →
        link.peer.Live ∧
      let before := link.peer.sent ++ world.publishing.pending index
      let after := (change link.peer).sent ++ publishing.pending index
      after.filterMap Event.change = before.filterMap Event.change ∧
        after.filter Event.substantial = before.filter Event.substantial) :
    Served options { world.change index change with publishing } annals where
  lived := served.lived
  sound other link found := by
    change (world.links.modify index _)[other]? = some link at found
    rw [List.getElem?_modify, Option.map_eq_map, Option.map_eq_some_iff] at found
    obtain ⟨before, present, rfl⟩ := found
    by_cases own : index = other
    · subst own
      rw [if_pos rfl]
      exact sound before present
    · rw [if_neg own]
      exact served.sound other before present
  follows other link found live := by
    change (world.links.modify index _)[other]? = some link at found
    rw [List.getElem?_modify, Option.map_eq_map, Option.map_eq_some_iff] at found
    obtain ⟨before, present, rfl⟩ := found
    by_cases own : index = other
    · subst own
      rw [if_pos rfl] at live ⊢
      obtain ⟨live', changes, substance⟩ := keeps before present live
      exact (served.follows index before present live').congr rfl rfl changes substance
    · rw [if_neg own] at live ⊢
      have follows := served.follows other before present live
      unfold stream at follows ⊢
      rw [← others other (Ne.symm own)] at follows
      exact follows

/-- A step after which a peer either is no longer served or has been sent the same. -/
theorem Served.aside (served : Served options world annals) {index : Nat}
    {change : LivePeer → LivePeer}
    (sound : ∀ link : Link, world.links[index]? = some link → (change link.peer).Sound)
    (keeps : ∀ link : Link, world.links[index]? = some link → (change link.peer).Live →
        link.peer.Live ∧
      (change link.peer).sent = link.peer.sent) :
    Served options (world.change index change) annals := by
  refine served.change (fun _ _ => rfl) sound fun link found live => ?_
  obtain ⟨live', same⟩ := keeps link found live
  rw [same]
  exact ⟨live', rfl, rfl⟩

/-- An operation is accepted, or has been accepted before. -/
theorem Served.publish (served : Served options world annals) (free : world.publishing = .free)
    {index : Nat} {action : Action} {answer : Answer} {event : Event}
    (possible : action.Possible world.stage.issued) (apart : world.stage.authority.Apart action)
    (answered : (world.stage.authority.perform action).2 = .ok answer)
    (made : operationEvent answer = some event) :
    Served options ⟨world.stage.step action, world.links,
        if isDuplicate answer then .delivering [(index, event)] else .announcing event⟩
      (annals.log (world.stage.step action).authority.room) := by
  have onward : Onward options world.stage annals (world.stage.step action) _ :=
    .step world.stage annals action .now possible apart
  refine ⟨onward.lived served.lived, served.sound, fun other link found live => ?_⟩
  have follows := served.follows other link found live
  have told := operation_told served.lived possible answered made
  unfold stream at follows ⊢
  rw [free] at follows
  simp only [Publishing.pending, List.append_nil] at follows
  split at told
  case isTrue duplicate =>
    obtain ⟨silent, same⟩ := told
    rw [if_pos duplicate]
    by_cases own : index = other
    · simp only [Publishing.pending, own, beq_self_eq_true, List.filter_cons_of_pos,
        List.filter_nil, List.map_cons, List.map_nil]
      exact (follows.onward onward same).more silent
    · have apart : ((index, event).1 == other) = false := beq_false_of_ne own
      simp only [Publishing.pending, apart, List.filter_cons_of_neg, Bool.false_eq_true,
        not_false_eq_true, List.filter_nil, List.map_nil, List.append_nil]
      exact follows.onward onward same
  case isFalse fresh =>
    obtain ⟨change, told, applied, counts⟩ := told
    rw [if_neg fresh]
    exact follows.told (onward.lived served.lived) onward told applied counts

/-- A client joins. -/
theorem Served.join (served : Served options world annals) (free : world.publishing = .free)
    {action : Action} {result : JoinResult} {connectionID clientID : String}
    {known : KnownRevisions} {view : Option View} {later : Time} {bridge : BridgeResult}
    (possible : action.Possible world.stage.issued) (apart : world.stage.authority.Apart action)
    (joined : (world.stage.authority.perform action).2 = .ok (.joined result))
    (behind : ∀ shown ∈ view, known = shown.known ∧ Behind options world.stage annals shown)
    (bridged : ((world.stage.step action).authority.room.bridge result.session.participant
      result.session.connectionID result.session.generation known later).2 = .ok bridge) :
    Served options
      ⟨(world.stage.step action).step (heartbeat result.session later),
        world.links ++ [link (world.stage.step action) { session := result.session, clientID }
          bridge known view],
        .delivering ((greeting result connectionID bridge).map fun event =>
          (world.links.length, event))⟩
      ((annals.log (world.stage.step action).authority.room).log
        ((world.stage.step action).step (heartbeat result.session later)).authority.room) := by
  have onward : Onward options world.stage annals (world.stage.step action) _ :=
    .step world.stage annals action .now possible apart
  have lived := onward.lived served.lived
  have view' : (world.stage.step action).authority.room.view =
      world.stage.authority.room.view := served.lived.silent_view possible fun answer answered => by
    cases joined.symm.trans answered
    rfl
  have silent (answer : Answer) (answered : ((world.stage.step action).authority.perform
      (heartbeat result.session later)).2 = .ok answer) : answer.change = none :=
    Answer.change_of_stale (Answer.stale_map _ (fun _ => id) answer answered)
  have issued : result.session ∈ (world.stage.step action).issued := by
    have returned : (world.stage.step action).issued = world.stage.issued ++ [result.session] := by
      change world.stage.issued ++ Answer.session (world.stage.authority.perform action).2 = _
      rw [joined]
      rfl
    rw [returned]
    exact List.mem_append_right _ (List.mem_singleton_self _)
  have possible' : (heartbeat result.session later).Possible (world.stage.step action).issued :=
    ⟨issued, trivial⟩
  have next : Onward options (world.stage.step action)
      (annals.log (world.stage.step action).authority.room)
      ((world.stage.step action).step (heartbeat result.session later)) _ :=
    .step _ _ (heartbeat result.session later) .now possible' fun store call => nomatch call
  have view'' := lived.silent_view possible' silent
  refine ⟨next.lived lived, fun index link found => ?_, fun index link found live => ?_⟩
  · rcases getElem?_concat found with old | ⟨_, rfl⟩
    · exact served.sound index link old
    · rw [link_peer]
      exact fun _ => ⟨rfl, rfl⟩
  · rcases getElem?_concat found with old | ⟨rfl, rfl⟩
    · obtain ⟨bound, _⟩ := List.getElem?_eq_some_iff.mp old
      have follows := ((served.follows index link old live).onward onward view').onward next view''
      unfold stream at follows ⊢
      rw [free] at follows
      have skipped : (world.links.length == index) = false := beq_false_of_ne bound.ne'
      simp only [Publishing.pending, List.filter_map, Function.comp_def, skipped,
        List.filter_false, List.map_nil] at follows ⊢
      exact follows
    · have behind' (shown : View) (member : shown ∈ view) := (behind shown member).imp_right
        fun behind => behind.onward onward
      have follows := (follows_greeting result connectionID
        { session := result.session, clientID } lived behind' bridged).onward next view''
      unfold stream
      simp only [link_peer, LivePeer.sent, List.nil_append, Publishing.pending, List.filter_map,
        Function.comp_def, beq_self_eq_true, List.filter_true, List.map_map, List.map_id']
      exact follows

end Served

section Reached

variable [Host] {options : HubOptions} {limit : Int} {world : World} {annals : Annals}

theorem Reached.served (reached : Reached options limit world annals) :
    Served options world annals := by
  induction reached with
  | start stage annals lived =>
      exact ⟨lived, fun _ _ found => (nomatch found), fun _ _ found => (nomatch found)⟩
  | call world annals action reached possible apart silent served =>
      have onward : Onward options world.stage annals (world.stage.step action) _ :=
        .step world.stage annals action .now possible apart
      exact served.onward onward (served.lived.silent_view possible silent)
  | reload world annals snapshot now authority reached valid read load served =>
      have onward : Onward options world.stage annals ⟨authority, []⟩ _ :=
        .reload world.stage annals snapshot now authority .now valid read load
      exact served.onward onward (served.lived.reload_view read load)
  | publish world annals index link request now fault answer event reached free found publishes
      possible answered made served =>
      refine served.publish free possible (fun store call => ?_) answered made
      cases call
  | list world annals event peers reached announcing visits served =>
      refine ⟨served.lived, served.sound, fun index link found live => ?_⟩
      have follows := served.follows index link found live
      unfold stream at follows ⊢
      rw [announcing] at follows
      rw [pending_of_list event visits (listed_of_live found live)]
      exact follows
  | deliver world annals index event later choosesDone reached delivering served =>
      refine served.change (fun other apart => ?_)
        (fun link found => (served.sound _ _ found).enqueue)
        fun link found live => ?_
      · rw [delivering]
        have skipped : ((index, event).1 == other) = false := beq_false_of_ne (Ne.symm apart)
        simp only [Publishing.pending, List.filter_cons, skipped, Bool.false_eq_true, if_false]
      · obtain ⟨live', sent⟩ := LivePeer.enqueue_live (served.sound _ _ found) live
        rw [sent, delivering]
        simp only [Publishing.pending, List.filter_cons, beq_self_eq_true, if_true, List.map_cons,
          List.append_assoc, List.singleton_append]
        exact ⟨live', trivial, trivial⟩
  | unlock world annals reached delivered served =>
      refine ⟨served.lived, served.sound, fun index link found live => ?_⟩
      have follows := served.follows index link found live
      unfold stream at follows ⊢
      rw [delivered] at follows
      exact follows
  | join world annals identity capability candidate now fault result known view later bridge
      stage reached free joined joins behind bridged served =>
      subst joins
      exact served.join free trivial (fun store call => nomatch call) joined behind bridged
  | notice world annals index data choosesDone reached served =>
      refine served.change (fun _ _ => rfl) (fun link found => (served.sound _ _ found).enqueue)
        fun link found live => ?_
      obtain ⟨live', sent⟩ := LivePeer.enqueue_live (served.sound _ _ found) live
      rw [sent]
      have silent : [Event.notice data].filterMap Event.change = [] := rfl
      have slight : [Event.notice data].filter Event.substantial = [] := rfl
      simp only [List.filterMap_append, List.filter_append, silent, slight, List.append_nil]
      exact ⟨live', trivial, trivial⟩
  | write world annals index link peer reached found writes served =>
      refine served.aside (fun link' found' => ?_) fun link' found' live => ?_
      all_goals cases found.symm.trans found'
      · exact (served.sound _ _ found).writes writes
      · exact LivePeer.writes_live writes live
  | stop world annals index reached served =>
      exact served.aside (fun link found => (served.sound _ _ found).stop) fun link found live =>
        absurd live LivePeer.not_live_stop
  | expire world annals index reached served =>
      exact served.aside (fun link found => (served.sound _ _ found).closeAfter)
        fun link found live => absurd live LivePeer.not_live_closeAfter
  | remove world annals index reached served =>
      refine served.aside (fun link found => served.sound _ _ found) fun link found live => ?_
      cases live.listed

/-- Whatever happens to a room and its peers, a client whose peer has not been stopped is greeted
first.  If no change joins surrogates that are apart in what it shows, it can apply the events one
after the other, and shows the room once it has got all of them.  With what it has got at any
moment it can come back. -/
theorem peers_follow (reached : Reached options limit world annals) (index : Nat) (link : Link)
    (found : world.links[index]? = some link) (live : link.peer.Live) :
    (∃ result connectionID later, (world.stream index link).filter Event.substantial =
      .joined result connectionID :: later) ∧
    ∀ view ∈ link.view, ∀ screen : Screen (List UInt16), screen.Reads view →
      screen.Spared ((world.stream index link).filterMap Event.change) →
      (∃ shown, ((world.stream index link).filterMap Event.change).foldlM Screen.apply screen =
        .ok shown ∧ shown.Reads world.stage.authority.room.view) ∧
      ∀ received, received <+: link.peer.written → ∃ shown,
        (received.filterMap Event.change).foldlM Screen.apply screen = .ok shown ∧
        Recalls options world.stage annals shown := by
  have follows := reached.served.follows index link found live
  refine ⟨follows.greeted, fun view joined screen reads spared => ?_⟩
  obtain ⟨shown, passage, reads'⟩ := reads.passage spared (follows.leads view joined)
  refine ⟨⟨shown, passage.foldlM, reads'⟩, fun received short => ?_⟩
  obtain ⟨rest, written⟩ := short
  have parts : world.stream index link =
      received ++ (rest ++ link.peer.out ++ world.publishing.pending index) := by
    rw [stream, LivePeer.sent, ← written, List.append_assoc, List.append_assoc, List.append_assoc]
  rw [parts, List.filterMap_append] at passage
  obtain ⟨shown', applied, recalls, _⟩ :=
    passage.interrupt ⟨view, reads, follows.behind view joined⟩
  exact ⟨shown', applied, recalls⟩

end Reached

/-! ## Playing -/

/-- What can be played.  A client joins with the revisions that it knows, or with what the room
shows. -/
inductive Move where
  | join (identity : JoinIdentity) (token : List UInt8) (known : Option KnownRevisions) (now : Time)
  | submit (index : Nat) (operationID documentID : String) (baseVersion : Int) (changes : Json)
      (now : Time)
  | arrange (index : Nat) (operation : MetadataOperation) (generator : Nat → Option String)
      (now : Time)
  | list (peers : List Nat)
  | deliver
  | unlock
  | poll (index : Nat)
  | write (index : Nat)

/-- The result of a join. -/
def joinResult : Except LiveError Answer → Option JoinResult
  | .ok (.joined result) => some result
  | _ => none

theorem joinResult_eq_some {answer : Except LiveError Answer} {result : JoinResult}
    (found : joinResult answer = some result) : answer = .ok (.joined result) := by
  unfold joinResult at found
  split at found
  case h_1 => exact congrArg _ (congrArg _ (Option.some_inj.mp found))
  case h_2 => cases found

/-- A peer's operation is published. -/
def publish [Host] (world : World) (index : Nat) (request : Request) (now : Time) :
    Option World := do
  let link ← world.links[index]?
  let action : Action := ⟨.request link.peer.session request, now, false⟩
  let answer ← (world.stage.authority.perform action).2.toOption
  let event ← operationEvent answer
  if link.peer.session ∈ world.stage.issued then
    some ⟨world.stage.step action, world.links,
      if isDuplicate answer then .delivering [(index, event)] else .announcing event⟩
  else none

/-- The world after a move, where the move is possible. -/
def move [Host] (limit : Int) (world : World) : Move → Option World
  | .join identity token known now =>
      match world.publishing with
      | .free => do
          let action : Action := ⟨.join identity ⟨token, true⟩ fun _ => none, now, false⟩
          let result ← joinResult (world.stage.authority.perform action).2
          let stage := world.stage.step action
          let view := world.stage.authority.room.view
          let bridge ← (stage.authority.room.bridge result.session.participant
            result.session.connectionID result.session.generation (known.getD view.known)
            now).2.toOption
          some ⟨stage.step (heartbeat result.session now),
            world.links ++ [link stage
              { session := result.session, clientID := identity.clientID } bridge
              (known.getD view.known) (if known.isSome then none else some view)],
            .delivering ((greeting result identity.connectionID bridge).map fun event =>
              (world.links.length, event))⟩
      | _ => none
  | .submit index operationID documentID baseVersion changes now =>
      match world.publishing with
      | .free => do
          let link ← world.links[index]?
          let changes ← (Livecollab.parseChangeSetJSON changes).toOption
          world.publish index (.submitDocument
            { operationID, clientID := link.peer.clientID, documentID, baseVersion, changes }) now
      | _ => none
  | .arrange index operation generator now =>
      match world.publishing with
      | .free => do
          let link ← world.links[index]?
          world.publish index (.applyMetadata { operation with clientID := link.peer.clientID }
            generator) now
      | _ => none
  | .list peers =>
      match world.publishing with
      | .announcing event =>
          if peers.Perm world.listed then
            some { world with publishing := .delivering (peers.map fun index => (index, event)) }
          else none
      | _ => none
  | .deliver =>
      match world.publishing with
      | .delivering ((index, event) :: later) =>
          some { world.change index (LivePeer.enqueue limit event false) with
            publishing := .delivering later }
      | _ => none
  | .unlock =>
      match world.publishing with
      | .delivering [] => some { world with publishing := .free }
      | _ => none
  | .poll index => do
      let link ← world.links[index]?
      if link.peer.exited = false ∧ link.peer.polled = false ∧ link.peer.control = false then
        some (world.change index fun _ => { link.peer with polled := true })
      else none
  | .write index => do
      let link ← world.links[index]?
      let event ← link.peer.out.head?
      if link.peer.exited = false ∧ link.peer.polled = true then
        some (world.change index fun _ => { link.peer with
          out := link.peer.out.tail, polled := false, written := link.peer.written ++ [event] })
      else none

section Play

variable [Host] {options : HubOptions} {limit : Int} {world world' : World} {annals : Annals}

theorem Reached.published (reached : Reached options limit world annals)
    (free : world.publishing = .free) {index : Nat} {link : Link}
    (found : world.links[index]? = some link) {request : Request} {now : Time}
    (publishes : Publishes link.peer request)
    (possible : link.peer.session ∈ world.stage.issued →
      Action.Possible world.stage.issued ⟨.request link.peer.session request, now, false⟩)
    (published : world.publish index request now = some world') :
    ∃ annals', Reached options limit world' annals' := by
  simp only [World.publish, Option.bind_eq_bind, Option.bind_eq_some_iff] at published
  obtain ⟨link', found', answer, answered, event, made, published⟩ := published
  cases found.symm.trans found'
  obtain ⟨issued, equality⟩ := Option.ite_none_right_eq_some.mp published
  cases equality
  exact ⟨_, .publish world annals index link request now false answer event reached free found
    publishes (possible issued) (ok_of_toOption answered) made⟩

theorem Reached.moved (reached : Reached options limit world annals) {next : Move}
    (moved : world.move limit next = some world') :
    ∃ annals', Reached options limit world' annals' := by
  cases next with
  | join identity token known now =>
      rw [move] at moved
      split at moved
      case h_1 free =>
        simp only [Option.bind_eq_bind, Option.bind_eq_some_iff] at moved
        obtain ⟨result, joined, bridge, bridged, equality⟩ := moved
        cases equality
        have lived := reached.served.lived
        refine ⟨_, .join world annals identity ⟨token, true⟩ (fun _ => none) now false result _ _
          now bridge _ reached free (joinResult_eq_some joined) rfl (fun shown member => ?_)
          (ok_of_toOption bridged)⟩
        cases known with
        | some known => cases member
        | none =>
            cases member
            exact ⟨rfl, behind_of_shows lived lived.recollects.shows⟩
      case h_2 => cases moved
  | submit index operationID documentID baseVersion changes now =>
      rw [move] at moved
      split at moved
      case h_1 free =>
        simp only [Option.bind_eq_bind, Option.bind_eq_some_iff] at moved
        obtain ⟨link, found, parsed, parses, published⟩ := moved
        refine reached.published free found ?_ (fun issued => ?_) published
        · rfl
        · exact ⟨issued, changes, ok_of_toOption parses⟩
      case h_2 => cases moved
  | arrange index operation generator now =>
      rw [move] at moved
      split at moved
      case h_1 free =>
        simp only [Option.bind_eq_bind, Option.bind_eq_some_iff] at moved
        obtain ⟨link, found, published⟩ := moved
        refine reached.published free found ?_ (fun issued => ?_) published
        · rfl
        · exact ⟨issued, trivial⟩
      case h_2 => cases moved
  | list peers =>
      rw [move] at moved
      split at moved
      case h_1 event announcing =>
        obtain ⟨visits, equality⟩ := Option.ite_none_right_eq_some.mp moved
        cases equality
        exact ⟨annals, .list world annals event peers reached announcing visits⟩
      case h_2 => cases moved
  | deliver =>
      rw [move] at moved
      split at moved
      case h_1 index event later delivering =>
        cases moved
        exact ⟨annals, .deliver world annals index event later false reached delivering⟩
      case h_2 => cases moved
  | unlock =>
      rw [move] at moved
      split at moved
      case h_1 delivered =>
        cases moved
        exact ⟨annals, .unlock world annals reached delivered⟩
      case h_2 => cases moved
  | poll index =>
      simp only [move, Option.bind_eq_bind, Option.bind_eq_some_iff] at moved
      obtain ⟨link, found, moved⟩ := moved
      obtain ⟨⟨running, unpolled, empty⟩, equality⟩ := Option.ite_none_right_eq_some.mp moved
      cases equality
      exact ⟨annals, .write world annals index link _ reached found (.poll running unpolled empty)⟩
  | write index =>
      simp only [move, Option.bind_eq_bind, Option.bind_eq_some_iff] at moved
      obtain ⟨link, found, event, head, moved⟩ := moved
      obtain ⟨⟨running, polled⟩, equality⟩ := Option.ite_none_right_eq_some.mp moved
      cases equality
      obtain ⟨later, queued⟩ := List.head?_eq_some_iff.mp head
      have writes := LivePeer.Writes.write event later running polled queued
      rw [queued, List.tail_cons]
      exact ⟨annals, .write world annals index link _ reached found writes⟩

/-- Play some moves. -/
def play (limit : Int) (world : World) (moves : List Move) : Option World :=
  moves.foldlM (World.move limit) world

theorem Reached.played (reached : Reached options limit world annals) {moves : List Move}
    (played : world.play limit moves = some world') :
    ∃ annals', Reached options limit world' annals' := by
  induction moves generalizing world annals with
  | nil =>
      cases played
      exact ⟨annals, reached⟩
  | cons next moves induction =>
      rw [play, List.foldlM_cons] at played
      obtain ⟨middle, moved, rest⟩ := Option.bind_eq_some_iff.mp played
      obtain ⟨annals', reached'⟩ := reached.moved moved
      exact induction reached' rest

end Play

/-- The small room before anybody has joined. -/
def smallWorld : World := ⟨smallStage defaultHubOptions, [], .free⟩

theorem smallWorld_reached :
    ∃ annals, @Reached sampleHost defaultHubOptions 1048576 smallWorld annals :=
  ⟨_, @Reached.start sampleHost defaultHubOptions 1048576 _ _
    (@Led.created sampleHost _ (fun _ _ _ => True) _ rfl small_started)⟩

/-- A participant and the creator join.  The creator writes a letter behind the document, and the
participant, before hearing of it, one in front.  Then the creator creates a document, and another
participant joins who knows the room as it was at the start, and has been told only of this document
so far. -/
def smallBusiness : List Move :=
  [.join (smallIdentity "ann" "page") [] none (unixTime 2), .deliver, .unlock,
    .join (smallIdentity "bob" "desk") smallToken none (unixTime 3), .deliver, .unlock,
    .poll 0, .write 0,
    .submit 1 "op-1" "main" 0 (.arr [.num 2, .arr [.num 0, .str "c"]]) (unixTime 4),
    .list [1, 0], .deliver, .deliver, .unlock, .poll 0, .write 0,
    .submit 0 "op-2" "main" 0 (.arr [.arr [.num 0, .str "x"], .num 2]) (unixTime 5),
    .list [0, 1], .deliver, .deliver, .unlock,
    .arrange 1 (smallCreate "op-3") (fun _ => some "notes") (unixTime 6), .list [0, 1], .deliver,
    .deliver, .unlock,
    .join (smallIdentity "eve" "cell") [] (some smallWorld.stage.authority.room.view.known)
      (unixTime 7), .deliver, .deliver]

/-- The numbers of events that have been written, are queued, and are still coming. -/
def traffic (world : World) (index : Nat) : Option (Nat × Nat × Nat) :=
  (world.links[index]?).map fun link => (link.peer.written.length, link.peer.out.length,
    (world.publishing.pending index).length)

/-- The peers are alive.  Two clients have joined with what the room showed, and no change joins
surrogates for them. -/
def Attended (world : World) : Prop :=
  world.traffic 0 = some (2, 2, 0) ∧ world.traffic 1 = some (0, 4, 0) ∧
    world.traffic 2 = some (0, 2, 2) ∧
    ∀ index ∈ [0, 1, 2], ∀ link ∈ world.links[index]?, (link.peer.listed = true ∧
      link.peer.stopOnce = false) ∧ (link.view.isSome ↔ index < 2) ∧
      ∀ view ∈ link.view, (view.map Livecollab.utf16Units).Spared
        ((world.stream index link).filterMap Event.change)

instance : DecidablePred Attended := fun _ => inferInstanceAs (Decidable (_ ∧ _ ∧ _))

theorem smallBusiness_done :
    ∃ world, @play sampleHost 1048576 smallWorld smallBusiness = some world ∧ Attended world := by
  have done : (@play sampleHost 1048576 smallWorld smallBusiness).any
      (fun world => decide (Attended world)) = true := by
    decide +kernel
  obtain ⟨world, played, attended⟩ := Option.any_eq_true _ _ |>.mp done
  exact ⟨world, played, of_decide_eq_true attended⟩

theorem Attended.link {world : World} (attended : Attended world) {index : Nat}
    (member : index ∈ [0, 1, 2]) :
    ∃ link, world.links[index]? = some link ∧ link.peer.Live ∧ (link.view.isSome ↔ index < 2) ∧
      ∀ view ∈ link.view, (view.map Livecollab.utf16Units).Spared
        ((world.stream index link).filterMap Event.change) := by
  obtain ⟨first, second, third, each⟩ := attended
  have present : (world.traffic index).isSome = true := by
    rcases List.mem_cons.mp member with rfl | rest
    · rw [first]
      rfl
    · rcases List.mem_pair.mp rest with rfl | rfl
      · rw [second]
        rfl
      · rw [third]
        rfl
  rw [traffic, Option.isSome_map] at present
  obtain ⟨link, found⟩ := Option.isSome_iff_exists.mp present
  obtain ⟨⟨listed, running⟩, shows, spared⟩ := each index member link found
  exact ⟨link, found, ⟨listed, running⟩, shows, spared⟩

/-- Two clients come to show the room, and what they have got by now is enough to come back. -/
theorem peers_follow_small : ∃ world annals,
    @Reached sampleHost defaultHubOptions 1048576 world annals ∧ Attended world ∧
      ∀ index ∈ [0, 1], ∃ link view shown early, world.links[index]? = some link ∧
        link.view = some view ∧
        ((world.stream index link).filterMap Event.change).foldlM Screen.apply
          (view.map Livecollab.utf16Units) = .ok shown ∧
        shown.Reads world.stage.authority.room.view ∧
        (link.peer.written.filterMap Event.change).foldlM Screen.apply
          (view.map Livecollab.utf16Units) = .ok early ∧
        @Recalls sampleHost defaultHubOptions world.stage annals early := by
  obtain ⟨annals, start⟩ := smallWorld_reached
  obtain ⟨world, played, attended⟩ := smallBusiness_done
  obtain ⟨annals', reached⟩ := @Reached.played sampleHost _ _ _ _ _ start _ played
  refine ⟨world, annals', reached, attended, fun index member => ?_⟩
  have below : index < 2 := by
    rcases List.mem_pair.mp member with rfl | rfl
    · exact Nat.zero_lt_two
    · exact Nat.one_lt_two
  obtain ⟨link, found, live, shows, spared⟩ :=
    attended.link (List.mem_append_left [2] member)
  obtain ⟨view, joined⟩ := Option.isSome_iff_exists.mp (shows.mpr below)
  obtain ⟨_, follows⟩ := @peers_follow sampleHost _ _ _ _ reached index link found live
  obtain ⟨⟨shown, applied, reads⟩, interrupted⟩ :=
    follows view joined _ view.reads (spared view joined)
  obtain ⟨early, applied', recalls⟩ := interrupted _ (List.prefix_refl _)
  exact ⟨link, view, shown, early, found, joined, applied, reads, applied', recalls⟩

end World

end Oxbin.Httpapi
