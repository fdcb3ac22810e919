import Oxbin.Browser.Editing

/-!
# Editing together simulates the star protocol

For every document of the room there is a star whose log is the list of accepted edits and whose
peers are the copies in the browsers.  Each step of the room and its browsers is at most one step
of the star.
-/

namespace Oxbin.Browser

open Livecollab Live Transform

/-! ## Events under way -/

section Feeds

variable {documentID clientID : String} {first version : Int} {log : List (String × ChangeSet)}
  {events : List AcceptedDocumentOperation} {event : AcceptedDocumentOperation}

/-- The events under way bring a copy of the document from a version to the end of the log. -/
def Feeds (documentID : String) (first : Int) (log : List (String × ChangeSet)) :
    Int → List AcceptedDocumentOperation → Prop
  | version, [] => version = first + log.length
  | version, event :: events =>
      if event.documentID = documentID ∧ version < event.revision then
        event.revision = version + 1 ∧
          log[(version - first).toNat]? = some (event.clientID, event.changes) ∧
          Feeds documentID first log (version + 1) events
      else Feeds documentID first log version events

theorem Feeds.le (feeds : Feeds documentID first log version events) :
    version ≤ first + log.length := by
  induction events generalizing version with
  | nil => exact le_of_eq feeds
  | cons event events induction =>
      rw [Feeds] at feeds
      split at feeds
      · have := induction feeds.2.2
        omega
      · exact induction feeds

/-- A version is the end of the log if and only if no newer event of the document is under way. -/
theorem Feeds.ended_iff (feeds : Feeds documentID first log version events) :
    version = first + log.length ↔
      ∀ event ∈ events, event.documentID = documentID → event.revision ≤ version := by
  constructor
  · rintro rfl event member same
    induction events with
    | nil => cases member
    | cons head events induction =>
        rw [Feeds] at feeds
        split at feeds
        case isTrue new =>
          have := feeds.2.2.le
          omega
        case isFalse old =>
          rcases List.mem_cons.mp member with rfl | later
          · exact not_lt.mp fun newer => old ⟨same, newer⟩
          · exact induction feeds later
  · intro passed
    induction events with
    | nil => exact feeds
    | cons head events induction =>
        rw [Feeds, if_neg fun new => new.2.not_ge (passed head (by simp) new.1)] at feeds
        exact induction feeds fun event member => passed event (by simp [member])

/-- A copy at the end of the log needs none of the events. -/
theorem Feeds.skip (feeds : Feeds documentID first log version events) :
    Feeds documentID first log (first + log.length) events := by
  induction events generalizing version with
  | nil => exact rfl
  | cons event events induction =>
      have le := feeds.le
      rw [Feeds] at feeds ⊢
      split at feeds
      case isTrue new =>
        have := feeds.2.2.le
        rw [if_neg fun beyond => by omega]
        exact induction feeds.2.2
      case isFalse old =>
        rw [if_neg fun beyond => old ⟨beyond.1, by omega⟩]
        exact induction feeds

/-- An event that is not a new revision of the document changes nothing. -/
theorem Feeds.append_old (feeds : Feeds documentID first log version events)
    (old : event.documentID = documentID → event.revision ≤ first + log.length) :
    Feeds documentID first log version (events ++ [event]) := by
  induction events generalizing version with
  | nil =>
      rw [List.nil_append, Feeds, if_neg]
      · exact feeds
      · rintro ⟨same, newer⟩
        have := old same
        rw [Feeds] at feeds
        omega
  | cons head events induction =>
      rw [Feeds] at feeds
      rw [List.cons_append, Feeds]
      split at feeds
      case isTrue new =>
        rw [if_pos new]
        exact ⟨feeds.1, feeds.2.1, induction feeds.2.2⟩
      case isFalse older =>
        rw [if_neg older]
        exact induction feeds

/-- The event of a new entry of the log. -/
theorem Feeds.append_new (first_le : first ≤ version)
    (feeds : Feeds documentID first log version events) (same : event.documentID = documentID)
    (revision : event.revision = first + log.length + 1) :
    Feeds documentID first (log ++ [(event.clientID, event.changes)]) version
      (events ++ [event]) := by
  induction events generalizing version with
  | nil =>
      rw [Feeds] at feeds
      rw [List.nil_append, Feeds, if_pos ⟨same, by omega⟩]
      refine ⟨by omega, ?_, ?_⟩
      · rw [show (version - first).toNat = log.length by omega]
        simp
      · rw [Feeds, List.length_append]
        simp only [List.length_singleton]
        omega
  | cons head events induction =>
      rw [Feeds] at feeds
      rw [List.cons_append, Feeds]
      split at feeds
      case isTrue new =>
        rw [if_pos new]
        refine ⟨feeds.1, ?_, induction (by omega) feeds.2.2⟩
        have bound := (List.getElem?_eq_some_iff.mp feeds.2.1).1
        rw [List.getElem?_append_left bound, feeds.2.1]
      case isFalse older =>
        rw [if_neg older]
        exact induction first_le feeds

end Feeds

/-! ## The star of a document -/

/-- What a submission says about its message. -/
def Submission.Addressed (clientID documentID : String) (first : Int) :
    Submission → Prop
  | .sent operation => operation.clientID = clientID ∧ operation.documentID = documentID ∧
      first ≤ operation.baseVersion
  | .idle | .answered => True

/-- The version of a copy, or of the document where there is none. -/
def versionOf (document : Document) (tab : Option Tab) : Int :=
  tab.elim document.snapshot.currentRevision Tab.version

/-- A star has the copies of a document as its peers. -/
structure Copies (documentID : String) (first : Int) (document : Document)
    (browsers : Keyed Client) (star : Star (List UInt16) ChangeSet String) : Prop where
  peers : ∀ clientID, star.peers clientID =
    ((browsers.lookup clientID).bind fun browser => browser.tabs.lookup documentID).map
      (Tab.peer first)
  tabs : ∀ clientID browser tab, browsers.lookup clientID = some browser →
    browser.tabs.lookup documentID = some tab →
    first ≤ tab.version ∧ tab.submission.Addressed clientID documentID first
  inboxes : ∀ clientID browser, browsers.lookup clientID = some browser →
    Feeds documentID first star.log (versionOf document (browser.tabs.lookup documentID))
      browser.inbox

/-- A star mirrors a document of the room and its copies. -/
structure Mirrors (system : System) (documentID : String) (document : Document) (first : Int)
    (star : Star (List UInt16) ChangeSet String) : Prop where
  invariant : star.Invariant ChangeSet.system
  follows : document.Follows first star.start star.edits
  copies : Copies documentID first document system.browsers star

variable {system : System} {documentID clientID : String} {document : Document} {first : Int}
  {star : Star (List UInt16) ChangeSet String} {browser browser' : Client}

theorem Mirrors.current (mirrors : Mirrors system documentID document first star) :
    document.snapshot.currentRevision = first + star.log.length := by
  have current := mirrors.follows.current
  rwa [Star.edits, List.length_map] at current

/-- The room changes and the document keeps its text. -/
theorem Mirrors.keeps (mirrors : Mirrors system documentID document first star)
    {document' : Document} (same : document'.SameText document) (authority : Authority) :
    Mirrors { system with authority } documentID document' first star where
  invariant := mirrors.invariant
  follows := mirrors.follows.sameText same
  copies := {
    peers := mirrors.copies.peers
    tabs := mirrors.copies.tabs
    inboxes := by
      intro clientID browser present
      have feeds := mirrors.copies.inboxes clientID browser present
      unfold versionOf at feeds ⊢
      rwa [same.currentRevision] }

/-- One browser changes, and its copy of the document is a peer of the star. -/
theorem Copies.setBrowser {browsers : Keyed Client}
    (copies : Copies documentID first document browsers star)
    (clientID : String) (browser' : Client)
    (tabs : ∀ tab, browser'.tabs.lookup documentID = some tab →
      first ≤ tab.version ∧ tab.submission.Addressed clientID documentID first)
    (inbox : Feeds documentID first star.log
      (versionOf document (browser'.tabs.lookup documentID)) browser'.inbox) :
    Copies documentID first document (browsers.insert clientID browser') { star with
      peers := Function.update star.peers clientID
        ((browser'.tabs.lookup documentID).map (Tab.peer first)) } where
  peers := by
    intro other
    simp only [Function.update_apply, Keyed.lookup_insert_if]
    split
    · rfl
    · exact copies.peers other
  tabs := by
    intro other browser tab present found
    rw [Keyed.lookup_insert_if] at present
    split at present
    case isTrue same =>
      subst same
      cases present
      exact tabs tab found
    case isFalse => exact copies.tabs other browser tab present found
  inboxes := by
    intro other browser present
    rw [Keyed.lookup_insert_if] at present
    split at present
    case isTrue same =>
      subst same
      cases present
      exact inbox
    case isFalse => exact copies.inboxes other browser present

/-- An event under way does not change a copy. -/
theorem lookup_tab_enqueue (browsers : Keyed Client) (event : AcceptedDocumentOperation)
    (clientID documentID : String) :
    ((Keyed.mapValues (Client.enqueue event) browsers).lookup clientID).bind
        (fun browser => browser.tabs.lookup documentID) =
      (browsers.lookup clientID).bind fun browser => browser.tabs.lookup documentID := by
  rw [Keyed.lookup_mapValues]
  cases browsers.lookup clientID <;> rfl

theorem Copies.tabs_enqueue {browsers : Keyed Client}
    (copies : Copies documentID first document browsers star) (event : AcceptedDocumentOperation)
    (other : String) (browser : Client) (tab : Tab)
    (present : (Keyed.mapValues (Client.enqueue event) browsers).lookup other = some browser)
    (found : browser.tabs.lookup documentID = some tab) :
    first ≤ tab.version ∧ tab.submission.Addressed other documentID first := by
  rw [Keyed.lookup_mapValues, Option.map_eq_some_iff] at present
  obtain ⟨before, present, rfl⟩ := present
  exact copies.tabs other before tab present found

/-- An event that is not a new revision of the document is sent to every browser. -/
theorem Copies.broadcast_old {browsers : Keyed Client}
    (copies : Copies documentID first document browsers star) {event : AcceptedDocumentOperation}
    (old : event.documentID = documentID → event.revision ≤ first + star.log.length) :
    Copies documentID first document (Keyed.mapValues (Client.enqueue event) browsers) star where
  peers other := by rw [copies.peers, lookup_tab_enqueue]
  tabs := copies.tabs_enqueue event
  inboxes := by
    intro other browser present
    rw [Keyed.lookup_mapValues, Option.map_eq_some_iff] at present
    obtain ⟨before, present, rfl⟩ := present
    exact (copies.inboxes other before present).append_old old

/-- The event of a new entry of the log is sent to every browser. -/
theorem Copies.broadcast_new {browsers : Keyed Client}
    (copies : Copies documentID first document browsers star)
    (current : document.snapshot.currentRevision = first + star.log.length)
    {document' : Document} (event : AcceptedDocumentOperation)
    (same : event.documentID = documentID) (revision : event.revision = first + star.log.length + 1)
    (current' : document'.snapshot.currentRevision = event.revision) :
    Copies documentID first document' (Keyed.mapValues (Client.enqueue event) browsers)
      { star with log := star.log ++ [(event.clientID, event.changes)] } where
  peers other := by rw [copies.peers, lookup_tab_enqueue]
  tabs := copies.tabs_enqueue event
  inboxes := by
    intro other browser present
    rw [Keyed.lookup_mapValues, Option.map_eq_some_iff] at present
    obtain ⟨before, present, rfl⟩ := present
    have feeds := copies.inboxes other before present
    simp only [Client.enqueue]
    cases found : before.tabs.lookup documentID with
    | none =>
        rw [found] at feeds
        have first_le : first ≤ document.snapshot.currentRevision := by omega
        have fed := (Feeds.append_new first_le feeds same revision).skip
        rw [List.length_append] at fed
        simp only [versionOf, Option.elim, current', revision, List.length_singleton] at fed ⊢
        rwa [Nat.cast_add, Nat.cast_one, ← Int.add_assoc] at fed
    | some tab =>
        rw [found] at feeds
        exact Feeds.append_new (copies.tabs other before tab present found).1 feeds same revision

/-- A browser changes, and the star with its copy as a peer satisfies the invariant. -/
theorem Mirrors.setBrowser (mirrors : Mirrors system documentID document first star)
    (clientID : String) (browser' : Client) (invariant : Star.Invariant ChangeSet.system { star with
      peers := Function.update star.peers clientID
        ((browser'.tabs.lookup documentID).map (Tab.peer first)) })
    (tabs : ∀ tab, browser'.tabs.lookup documentID = some tab →
      first ≤ tab.version ∧ tab.submission.Addressed clientID documentID first)
    (inbox : Feeds documentID first star.log
      (versionOf document (browser'.tabs.lookup documentID)) browser'.inbox) :
    Mirrors (system.setBrowser clientID browser') documentID document first { star with
      peers := Function.update star.peers clientID
        ((browser'.tabs.lookup documentID).map (Tab.peer first)) } :=
  ⟨invariant, mirrors.follows, mirrors.copies.setBrowser clientID browser' tabs inbox⟩

/-- A change of a browser that leaves its copy of the document as it is. -/
theorem Mirrors.setBrowser_other (mirrors : Mirrors system documentID document first star)
    (present : system.browsers.lookup clientID = some browser)
    (same : browser'.tabs.lookup documentID = browser.tabs.lookup documentID)
    (inbox : Feeds documentID first star.log
      (versionOf document (browser.tabs.lookup documentID)) browser.inbox →
      Feeds documentID first star.log
        (versionOf document (browser.tabs.lookup documentID)) browser'.inbox) :
    Mirrors (system.setBrowser clientID browser') documentID document first star := by
  have unchanged : ({ star with
      peers := Function.update star.peers clientID
        ((browser'.tabs.lookup documentID).map (Tab.peer first)) } :
      Star (List UInt16) ChangeSet String) = star := by
    have peer := mirrors.copies.peers clientID
    rw [present, Option.bind_some, ← same] at peer
    rw [← peer, Function.update_eq_self]
  have changed := mirrors.setBrowser clientID browser'
    (by rw [unchanged]; exact mirrors.invariant)
    (by
      intro tab found
      exact mirrors.copies.tabs clientID browser tab present (same ▸ found))
    (by
      rw [same]
      exact inbox (mirrors.copies.inboxes clientID browser present))
  rwa [unchanged] at changed

/-- A browser's copy of the document takes a step of the star. -/
theorem Mirrors.setTab (mirrors : Mirrors system documentID document first star)
    (tab : Tab) (found : browser'.tabs.lookup documentID = some tab)
    (step : Star.Step ChangeSet.system star (star.setPeer clientID (tab.peer first)))
    (first_le : first ≤ tab.version)
    (addressed : tab.submission.Addressed clientID documentID first)
    (inbox : Feeds documentID first star.log tab.version browser'.inbox) :
    Mirrors (system.setBrowser clientID browser') documentID document first
      (star.setPeer clientID (tab.peer first)) := by
  have equality : star.setPeer clientID (tab.peer first) = { star with
      peers := Function.update star.peers clientID
        ((browser'.tabs.lookup documentID).map (Tab.peer first)) } := by
    rw [found]
    rfl
  rw [equality]
  refine mirrors.setBrowser clientID browser' ?_ ?_ ?_
  · rw [← equality]
    exact mirrors.invariant.step step
  · intro other same
    rw [found] at same
    cases same
    exact ⟨first_le, addressed⟩
  · rw [found]
    exact inbox

/-! ## The steps of a browser -/

section Steps

variable {tab : Tab}

theorem Mirrors.peer (mirrors : Mirrors system documentID document first star)
    (present : system.browsers.lookup clientID = some browser)
    (found : browser.tabs.lookup documentID = some tab) :
    star.peers clientID = some (tab.peer first) := by
  rw [mirrors.copies.peers, present, Option.bind_some, found]
  rfl

theorem Mirrors.feeds (mirrors : Mirrors system documentID document first star)
    (present : system.browsers.lookup clientID = some browser)
    (found : browser.tabs.lookup documentID = some tab) :
    Feeds documentID first star.log tab.version browser.inbox := by
  have feeds := mirrors.copies.inboxes clientID browser present
  rwa [found] at feeds

theorem Client.lookup_setTab (browser : Client) (documentID other : String) (tab : Tab) :
    (browser.setTab documentID tab).tabs.lookup other =
      if other = documentID then some tab else browser.tabs.lookup other :=
  Keyed.lookup_insert_if _ _ _ _

/-- What a browser does with an event. -/
theorem Client.receive_cases [Editor] {event : AcceptedDocumentOperation}
    (received : browser.receive clientID event = .ok browser') :
    browser.tabs.lookup event.documentID = none ∧ browser' = browser ∨
      ∃ tab tab', browser.tabs.lookup event.documentID = some tab ∧
        tab.applyDocumentEvent clientID event = .ok tab' ∧
        browser' = browser.setTab event.documentID tab' := by
  unfold Client.receive at received
  split at received
  case h_1 absent =>
    cases received
    exact .inl ⟨absent, rfl⟩
  case h_2 tab found =>
    cases applied : tab.applyDocumentEvent clientID event with
    | error error =>
        rw [applied] at received
        cases received
    | ok tab' =>
        rw [applied] at received
        cases received
        exact .inr ⟨tab, tab', found, applied, rfl⟩

theorem Mirrors.connect (mirrors : Mirrors system documentID document first star)
    (absent : clientID ∉ system.browsers) :
    Mirrors (system.setBrowser clientID ⟨∅, []⟩) documentID document first star := by
  have unchanged : ({ star with
      peers := Function.update star.peers clientID
        (((⟨∅, []⟩ : Client).tabs.lookup documentID).map (Tab.peer first)) } :
      Star (List UInt16) ChangeSet String) = star := by
    have none : star.peers clientID = none := by
      rw [mirrors.copies.peers, AList.lookup_eq_none.mpr absent]
      rfl
    rw [AList.lookup_empty, Option.map_none, ← none, Function.update_eq_self]
  have changed := mirrors.setBrowser clientID ⟨∅, []⟩
    (by rw [unchanged]; exact mirrors.invariant) (by simp) (by
      rw [AList.lookup_empty]
      exact mirrors.current)
  rwa [unchanged] at changed

theorem Mirrors.openTab [Editor] (mirrors : Mirrors system documentID document first star)
    (present : system.browsers.lookup clientID = some browser)
    (absent : browser.tabs.lookup documentID = none)
    (plain : CodeMirror.carriageReturn ∉ utf16Units document.snapshot.content) :
    ∃ star', Mirrors (system.setBrowser clientID
      (browser.setTab documentID (Tab.ofDocument document.snapshot))) documentID document first
        star' ∧ star'.start = star.start ∧ star'.edits = star.edits := by
  have current := mirrors.current
  have none : star.peers clientID = none := by
    rw [mirrors.copies.peers, present, Option.bind_some, absent]
    rfl
  have copy : (Tab.ofDocument document.snapshot).peer first = {
      version := star.log.length, synced := ChangeSet.system.run star.edits star.start
      text := ChangeSet.system.run star.edits star.start, pending := [], slot := .idle } := by
    rw [← mirrors.follows.content]
    simp only [Tab.peer, Tab.ofDocument, Tab.edits, Submission.slot, current,
      (Editor.create_eq_self_iff _).mpr plain]
    rw [show (first + (star.log.length : Int) - first).toNat = star.log.length by omega]
    rfl
  refine ⟨_, mirrors.setTab (Tab.ofDocument document.snapshot) ?_ ?_ ?_ trivial ?_, rfl, rfl⟩
  · rw [Client.lookup_setTab, if_pos rfl]
  · rw [copy]
    exact .join none
  · show first ≤ document.snapshot.currentRevision
    omega
  · have feeds := mirrors.copies.inboxes clientID browser present
    rwa [absent] at feeds

theorem Mirrors.edit (mirrors : Mirrors system documentID document first star)
    (present : system.browsers.lookup clientID = some browser)
    (found : browser.tabs.lookup documentID = some tab) {update : LocalUpdate}
    (fits : update.changes.Fits WholeRunes tab.text) :
    ∃ star', Mirrors (system.setBrowser clientID (browser.setTab documentID (tab.edit update)))
      documentID document first star' ∧ star'.start = star.start ∧ star'.edits = star.edits := by
  have known := mirrors.copies.tabs clientID browser tab present found
  have feeds := mirrors.feeds present found
  refine ⟨_, mirrors.setTab (tab.edit update) ?_ ?_ known.1 known.2 feeds, rfl, rfl⟩
  · rw [Client.lookup_setTab, if_pos rfl]
  · have valid : ChangeSet.system.Valid update.changes (tab.peer first).text := fits
    have step := Star.Step.edit (mirrors.peer present found) valid
    have copy : (tab.edit update).peer first = { tab.peer first with
        text := ChangeSet.system.act update.changes (tab.peer first).text
        pending := (tab.peer first).pending ++ [update.changes] } := by
      simp only [Tab.peer, Tab.edit, Tab.edits, List.map_append]
      rfl
    rw [copy]
    exact step

theorem Mirrors.submit (mirrors : Mirrors system documentID document first star)
    (present : system.browsers.lookup clientID = some browser)
    (found : browser.tabs.lookup documentID = some tab) (idle : tab.submission = .idle)
    {operation : DocumentOperation} (message : tab.message clientID documentID = some operation) :
    ∃ star', Mirrors (system.setBrowser clientID
      (browser.setTab documentID { tab with submission := .sent operation })) documentID document
        first star' ∧ star'.start = star.start ∧ star'.edits = star.edits := by
  have known := mirrors.copies.tabs clientID browser tab present found
  rw [Tab.message, Option.map_eq_some_iff] at message
  obtain ⟨update, head, rfl⟩ := message
  obtain ⟨rest, shape⟩ : ∃ rest, tab.pending = update :: rest := by
    cases pending : tab.pending with
    | nil => rw [pending] at head; cases head
    | cons other rest => rw [pending] at head; cases head; exact ⟨rest, rfl⟩
  have feeds := mirrors.feeds present found
  refine ⟨_, mirrors.setTab { tab with submission := .sent {
    operationID := update.operationID, clientID, documentID, baseVersion := tab.version
    changes := update.changes } } ?_ ?_ known.1 ⟨rfl, rfl, known.1⟩ feeds, rfl, rfl⟩
  · rw [Client.lookup_setTab, if_pos rfl]
  · have pending : (tab.peer first).pending =
        update.changes :: rest.map LocalUpdate.changes := by
      rw [Tab.peer, Tab.edits, shape]
      rfl
    exact .submit (mirrors.peer present found) (by rw [Tab.peer, idle]; rfl) pending

/-- The message of a browser is refused, or answered from the ledger. -/
theorem Mirrors.refuse (mirrors : Mirrors system documentID document first star)
    (present : system.browsers.lookup clientID = some browser)
    (found : browser.tabs.lookup documentID = some tab) {operation : DocumentOperation}
    (sent : tab.submission = .sent operation) (browser' : Client)
    (tabs : browser'.tabs.lookup documentID = some { tab with submission := .idle })
    (inbox : Feeds documentID first star.log tab.version browser'.inbox) :
    ∃ star', Mirrors (system.setBrowser clientID browser') documentID document first star' ∧
      star'.start = star.start ∧ star'.edits = star.edits := by
  have known := mirrors.copies.tabs clientID browser tab present found
  exact ⟨_, mirrors.setTab _ tabs
    (.refuse (mirrors.peer present found) (by rw [Tab.peer, sent]; rfl)) known.1 trivial inbox,
    rfl, rfl⟩

/-- The next event is received: nothing is missing before it. -/
theorem Mirrors.applies [Editor] (mirrors : Mirrors system documentID document first star)
    (present : system.browsers.lookup clientID = some browser)
    (found : browser.tabs.lookup documentID = some tab) {event : AcceptedDocumentOperation}
    {inbox : List AcceptedDocumentOperation} (next : browser.inbox = event :: inbox)
    (same : event.documentID = documentID) (newer : tab.version < event.revision) :
    ∃ tab', tab.applyDocumentEvent clientID event = .ok tab' ∧
      tab'.version = tab.version + 1 ∧
      tab'.submission.Addressed clientID documentID first ∧
      Feeds documentID first star.log tab'.version inbox ∧
      Star.Step ChangeSet.system star (star.setPeer clientID (tab'.peer first)) := by
  have known := mirrors.copies.tabs clientID browser tab present found
  have feeds := mirrors.feeds present found
  have peer := mirrors.peer present found
  have agrees := mirrors.invariant.peers clientID _ peer
  rw [next, Feeds, if_pos ⟨same, newer⟩] at feeds
  obtain ⟨revision, entry, feeds⟩ := feeds
  have valid : ChangeSet.system.Valid event.changes tab.synced := by
    have log := mirrors.invariant.log
    rw [Star.edits, ← List.take_append_drop ((tab.version - first).toNat + 1)
      (star.log.map Prod.snd), Star.take_of_next entry, Rebasing.validAll_append,
      Rebasing.validAll_append] at log
    have synced : tab.synced = _ := agrees.synced
    rw [synced]
    exact log.1.2.1
  obtain ⟨tab', applied, version, submission, receives⟩ :=
    Tab.applyDocumentEvent_next known.1 revision valid agrees.pending agrees.text
  refine ⟨tab', applied, version, ?_, version ▸ feeds, .deliver peer entry receives⟩
  rcases submission with idle | unchanged
  · rw [idle]
    trivial
  · rw [unchanged]
    exact known.2

theorem Mirrors.deliver [Editor] (mirrors : Mirrors system documentID document first star)
    (present : system.browsers.lookup clientID = some browser)
    {event : AcceptedDocumentOperation} {inbox : List AcceptedDocumentOperation}
    (next : browser.inbox = event :: inbox)
    (received : { browser with inbox }.receive clientID event = .ok browser') :
    ∃ star', Mirrors (system.setBrowser clientID browser') documentID document first star' ∧
      star'.start = star.start ∧ star'.edits = star.edits := by
  have feeds := mirrors.copies.inboxes clientID browser present
  rw [next] at feeds
  have passed (newer : event.documentID = documentID →
      ¬versionOf document (browser.tabs.lookup documentID) < event.revision)
      (unchanged : browser'.tabs.lookup documentID = browser.tabs.lookup documentID)
      (rest : browser'.inbox = inbox) :
      ∃ star', Mirrors (system.setBrowser clientID browser') documentID document first star' ∧
        star'.start = star.start ∧ star'.edits = star.edits := by
    refine ⟨star, mirrors.setBrowser_other present unchanged fun _ => ?_, rfl, rfl⟩
    rw [Feeds, if_neg fun new => newer new.1 new.2] at feeds
    rwa [rest]
  obtain ⟨absent, rfl⟩ | ⟨tab, tab', found, applied, rfl⟩ := Client.receive_cases received
  · refine passed (fun same newer => ?_) rfl rfl
    subst same
    have unopened : browser.tabs.lookup event.documentID = none := absent
    rw [Feeds, if_pos ⟨rfl, newer⟩, unopened] at feeds
    have beyond : document.snapshot.currentRevision + 1 ≤ first + star.log.length := feeds.2.2.le
    have current := mirrors.current
    omega
  · by_cases same : event.documentID = documentID
    · subst same
      by_cases newer : tab.version < event.revision
      · obtain ⟨next', applied', _, addressed, feeds', step⟩ :=
          mirrors.applies present found next rfl newer
        rw [applied] at applied'
        cases applied'
        have known := mirrors.copies.tabs clientID browser tab present found
        refine ⟨_, mirrors.setTab tab' ?_ step (by omega) addressed feeds', rfl, rfl⟩
        rw [Client.lookup_setTab, if_pos rfl]
      · rw [Tab.applyDocumentEvent, if_pos (not_lt.mp newer)] at applied
        cases applied
        refine passed (fun _ => ?_) ?_ rfl
        · rw [show browser.tabs.lookup event.documentID = some tab from found]
          exact newer
        · rw [Client.lookup_setTab, if_pos rfl]
          exact found.symm
    · refine passed (fun same' => absurd same' same) ?_ rfl
      rw [Client.lookup_setTab, if_neg (Ne.symm same)]

end Steps

/-! ## The steps of the room -/

section Handle

variable {tab : Tab}

/-- The star after the room has accepted the submission of a copy. -/
theorem Mirrors.accept (mirrors : Mirrors system documentID document first star)
    (present : system.browsers.lookup clientID = some browser)
    (found : browser.tabs.lookup documentID = some tab) {operation : DocumentOperation}
    (sent : tab.submission = .sent operation) {room : Room} {changes : ChangeSet}
    {content : String} (admitted : room.Admitted operation document changes content)
    (fingerprint : String) (now : Time) (store : Storage.Store) :
    ∃ document' star',
      (room.accepted operation fingerprint document changes content now).documents.lookup
        documentID = some document' ∧
      Mirrors
        (({ system with
            authority := ⟨room.accepted operation fingerprint document changes content now,
              store⟩ }.setBrowser clientID
          (browser.setTab documentID { tab with submission := .answered })).broadcast
          (Room.acceptedDocument operation document changes content))
        documentID document' first star' ∧
      star'.start = star.start ∧ star'.edits = star.edits ++ [changes] := by
  have known := mirrors.copies.tabs clientID browser tab present found
  rw [sent] at known
  obtain ⟨_, author, own, first_le⟩ := known
  have inFlight : (tab.peer first).slot =
      .inFlight (operation.baseVersion - first).toNat operation.changes := by
    rw [Tab.peer, sent]
    rfl
  have peer := mirrors.peer present found
  have agrees := mirrors.invariant.peers clientID _ peer
  obtain ⟨_, _, edit', _, moved, _, _, fits⟩ := agrees.submission mirrors.invariant.log inFlight
  have rebased := mirrors.follows.rebase first_le
    (Document.reaches_of_lengthAt admitted.baseLength) operation.changes
  rw [admitted.rebased] at rebased
  have equality : some changes = some edit' := rebased.trans moved
  cases equality
  obtain ⟨document', entry, lookup', content', current', history', step⟩ :=
    room.accepted_lookup_own operation fingerprint document changes content now
  rw [own] at lookup'
  have accept := Star.Step.accept peer inFlight moved
  have follows := mirrors.follows.accept fits admitted.applied content' current' history' step
  have current := mirrors.current
  have feeds := mirrors.feeds present found
  refine ⟨document', _, lookup', ⟨mirrors.invariant.step accept, ?_, ?_⟩, rfl, ?_⟩
  · have edits : star.edits ++ [changes] =
        (star.log ++ [(clientID, changes)]).map Prod.snd := by
      rw [List.map_append]
      rfl
    rw [edits] at follows
    exact follows
  · have copies := mirrors.copies.setBrowser clientID
      (browser.setTab documentID { tab with submission := .answered })
      (by
        intro other same
        rw [Client.lookup_setTab, if_pos rfl] at same
        cases same
        exact ⟨(mirrors.copies.tabs clientID browser tab present found).1, trivial⟩)
      (by
        rw [Client.lookup_setTab, if_pos rfl]
        exact feeds)
    have published := copies.broadcast_new current
      (Room.acceptedDocument operation document changes content) own
      (by rw [Room.acceptedDocument, current]) current'
    rw [Client.lookup_setTab, if_pos rfl] at published
    rw [show (Room.acceptedDocument operation document changes content).clientID = clientID
      from author] at published
    exact published
  · rw [Star.edits, Star.setPeer, List.map_append]
    rfl

/-- The other documents after the room has accepted a submission. -/
theorem Mirrors.accept_other (mirrors : Mirrors system documentID document first star)
    (tab : Tab)
    (present : system.browsers.lookup clientID = some browser) {operation : DocumentOperation}
    (different : documentID ≠ operation.documentID) {room : Room}
    (lookup : room.documents.lookup documentID = some document) (edited : Document)
    (changes : ChangeSet) (content : String) (fingerprint : String) (now : Time)
    (store : Storage.Store) :
    ∃ document',
      (room.accepted operation fingerprint edited changes content now).documents.lookup
        documentID = some document' ∧
      Mirrors
        (({ system with
            authority := ⟨room.accepted operation fingerprint edited changes content now,
              store⟩ }.setBrowser clientID
          (browser.setTab operation.documentID { tab with submission := .answered })).broadcast
          (Room.acceptedDocument operation edited changes content))
        documentID document' first star := by
  obtain ⟨document', lookup', same⟩ :=
    room.accepted_lookup_other operation fingerprint edited changes content now different lookup
  refine ⟨document', lookup', ?_⟩
  have kept := mirrors.keeps same
    ⟨room.accepted operation fingerprint edited changes content now, store⟩
  have unedited : (browser.setTab operation.documentID
      { tab with submission := .answered }).tabs.lookup documentID =
        browser.tabs.lookup documentID := by
    rw [Client.lookup_setTab, if_neg different]
  have changed := kept.setBrowser_other present unedited id
  exact ⟨changed.invariant, changed.follows, changed.copies.broadcast_old fun same =>
    absurd same.symm different⟩

/-- Handling a message is at most one step of every star. -/
theorem Mirrors.handle [Host] (mirrors : Mirrors system documentID document first star)
    {edited : String} (present : system.browsers.lookup clientID = some browser)
    (found : browser.tabs.lookup edited = some tab) {operation : DocumentOperation}
    (sent : tab.submission = .sent operation) (own : operation.documentID = edited)
    (lookup : system.document documentID = some document)
    (orderly : system.authority.room.Orderly) {room : Room}
    (shared : room.shared = system.authority.room.shared) {store : Storage.Store} {now : Time}
    {fault : Bool} {outcome : Outcome AcceptedDocumentOperation}
    (ends : Room.DocumentOutcome room store operation now fault outcome) :
    ∃ document' star',
      (system.answer clientID edited browser tab outcome).document documentID = some document' ∧
      Mirrors (system.answer clientID edited browser tab outcome) documentID document' first
        star' ∧
      star'.start = star.start ∧
      (star'.edits = star.edits ∨ ∃ edit, star'.edits = star.edits ++ [edit]) := by
  have documents := Room.documents_of_shared shared
  have ledger := Room.operations_of_shared shared
  have lookup' : room.documents.lookup documentID = some document := documents ▸ lookup
  have kept := mirrors.keeps (Document.SameText.refl document) ⟨room, store⟩
  -- The answer ends the submission and may put an old event into the inbox.
  have ended (browser' : Client)
      (tabs : browser'.tabs =
        (browser.setTab edited { tab with submission := .idle }).tabs)
      (inbox : ∀ version, Feeds documentID first star.log version browser.inbox →
        Feeds documentID first star.log version browser'.inbox) :
      ∃ star', Mirrors ({ system with authority := ⟨room, store⟩ }.setBrowser clientID browser')
        documentID document first star' ∧ star'.start = star.start ∧
        star'.edits = star.edits := by
    by_cases same : documentID = edited
    · subst same
      refine kept.refuse present found sent browser' ?_
        (inbox _ (mirrors.feeds present found))
      rw [tabs, Client.lookup_setTab, if_pos rfl]
    · refine ⟨star, kept.setBrowser_other present ?_ (inbox _), rfl, rfl⟩
      rw [tabs, Client.lookup_setTab, if_neg same]
  cases ends with
  | refused error =>
      obtain ⟨star', mirrors', start, edits⟩ := ended
        (browser.setTab edited { tab with submission := .idle }) rfl fun _ => id
      exact ⟨document, star', lookup', mirrors', start, .inl edits⟩
  | repeated accepted record =>
      obtain ⟨star', mirrors', start, edits⟩ := ended
        ((browser.setTab edited { tab with submission := .idle }).enqueue
          { accepted with duplicate := true }) rfl fun _ feeds => by
            refine feeds.append_old fun same => ?_
            have bound := orderly.ledger operation.operationID _ accepted document
              (ledger ▸ record) (same ▸ lookup)
            rwa [mirrors.current] at bound
      exact ⟨document, star', lookup', mirrors', start, .inl edits⟩
  | accepted edited' changes content store' named fresh admitted small saved =>
      have facts := Room.admitted_of_admitDocument admitted
      subst own
      by_cases same : documentID = operation.documentID
      · subst same
        have equality := facts.found.symm.trans lookup'
        cases equality
        obtain ⟨document', star', found', mirrors', start, edits⟩ :=
          mirrors.accept present found sent facts
            (Host.fingerprint (documentOperationJson operation)) now store'
        exact ⟨document', star', found', mirrors', start, .inr ⟨changes, edits⟩⟩
      · obtain ⟨document', found', mirrors'⟩ := mirrors.accept_other tab present same
          lookup' edited' changes content (Host.fingerprint (documentOperationJson operation)) now
          store'
        exact ⟨document', star, found', mirrors', rfl, .inl rfl⟩

end Handle

end Oxbin.Browser
