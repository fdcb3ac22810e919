import Mathlib.Data.List.Chain
import Oxbin.Browser.Simulation
import Oxbin.Live.Sessions

/-!
# Convergence of the browsers

The text that a browser has synchronised is the text that the server had at the browser's version,
and the browser shows its pending updates applied on top of it, in every run in which no document
holds a carriage return when an editor is opened on it.
-/

namespace Oxbin.Browser

open Livecollab Live Transform

/-- The texts that the server has had are those that the accepted edits have made. -/
def Archived (states : List System) (documentID : String) (first : Int) (start : List UInt16)
    (edits : List ChangeSet) : Prop :=
  ∀ version units, System.ServerText states documentID version units ↔
    ∃ count ≤ edits.length, version = first + count ∧
      units = ChangeSet.system.run (edits.take count) start

section Archived

variable {states : List System} {system : System} {documentID : String} {document : Document}
  {first : Int} {start : List UInt16} {edits : List ChangeSet}

theorem serverText_cons (found : system.document documentID = some document) (version : Int)
    (units : List UInt16) :
    System.ServerText (system :: states) documentID version units ↔
      (document.snapshot.currentRevision = version ∧ utf16Units document.snapshot.content = units) ∨
        System.ServerText states documentID version units := by
  simp only [System.ServerText, List.mem_cons, or_and_right, exists_or, exists_eq_left, found,
    Option.some.injEq, exists_eq_left']

/-- A document that has just appeared. -/
theorem Archived.init (found : system.document documentID = some document)
    (absent : ∀ earlier ∈ states, earlier.document documentID = none) :
    Archived (system :: states) documentID document.snapshot.currentRevision
      (utf16Units document.snapshot.content) [] := by
  intro version units
  rw [serverText_cons found]
  constructor
  · rintro (⟨rfl, rfl⟩ | ⟨earlier, member, document', found', _⟩)
    · exact ⟨0, le_rfl, by simp, rfl⟩
    · rw [absent earlier member] at found'
      cases found'
  · rintro ⟨count, le, rfl, rfl⟩
    obtain rfl := Nat.le_zero.mp le
    exact .inl ⟨by simp, rfl⟩

/-- The document is unchanged, or one more edit has been accepted. -/
theorem Archived.step (archived : Archived states documentID first start edits)
    {edits' : List ChangeSet} (grows : edits' = edits ∨ ∃ edit, edits' = edits ++ [edit])
    (found : system.document documentID = some document)
    (follows : document.Follows first start edits') :
    Archived (system :: states) documentID first start edits' := by
  intro version units
  rw [serverText_cons found, follows.current, follows.content, archived]
  rcases grows with rfl | ⟨edit, rfl⟩
  · constructor
    · rintro (⟨rfl, rfl⟩ | earlier)
      · exact ⟨edits'.length, le_rfl, rfl, by rw [List.take_length]⟩
      · exact earlier
    · exact .inr
  · constructor
    · rintro (⟨rfl, rfl⟩ | ⟨count, le, rfl, rfl⟩)
      · exact ⟨(edits ++ [edit]).length, le_rfl, rfl, by rw [List.take_length]⟩
      · refine ⟨count, ?_, rfl, by rw [List.take_append_of_le_length le]⟩
        rw [List.length_append]
        exact Nat.le_add_right_of_le le
    · rintro ⟨count, le, rfl, rfl⟩
      rcases Nat.lt_or_eq_of_le le with less | rfl
      · rw [List.length_append, List.length_singleton, Nat.lt_succ_iff] at less
        exact .inr ⟨count, less, rfl, by rw [List.take_append_of_le_length less]⟩
      · exact .inl ⟨rfl, by rw [List.take_length]⟩

end Archived

namespace System

/-- What holds in the newest state of a run. -/
structure Invariant (states : List System) (system : System) : Prop where
  orderly : system.authority.room.Orderly
  mirrored : ∀ documentID document, system.document documentID = some document →
    ∃ first star, Mirrors system documentID document first star ∧
      Archived states documentID first star.start star.edits
  opened : ∀ clientID documentID tab, system.tab clientID documentID = some tab →
    ∃ document, system.document documentID = some document
  kept : ∀ earlier ∈ states, ∀ documentID document, earlier.document documentID = some document →
    ∃ document', system.document documentID = some document'

variable {system system' : System} {past : List System}

theorem tab_eq {clientID documentID : String} {client : Client} {tab : Tab}
    (present : system.browsers.lookup clientID = some client)
    (found : client.tabs.lookup documentID = some tab) :
    system.tab clientID documentID = some tab := by
  rw [System.tab, present, Option.bind_some, found]

theorem tab_setBrowser (system : System) (clientID other documentID : String) (client : Client) :
    (system.setBrowser clientID client).tab other documentID =
      if other = clientID then client.tabs.lookup documentID
      else system.tab other documentID := by
  rw [System.tab, System.setBrowser, Keyed.lookup_insert_if]
  split <;> rfl

theorem Plain.opened [Editor] (plain : Plain system system') {clientID documentID : String}
    {client : Client} {document : Document}
    (present : system.browsers.lookup clientID = some client)
    (absent : client.tabs.lookup documentID = none)
    (found : system.document documentID = some document)
    (opens : system' = system.setBrowser clientID
      (client.setTab documentID (Tab.ofDocument document.snapshot))) :
    CodeMirror.carriageReturn ∉ utf16Units document.snapshot.content := by
  refine plain clientID documentID document ?_ ?_ found
  · rw [System.tab, present, Option.bind_some, absent]
  · rw [opens, tab_setBrowser, if_pos rfl, Client.lookup_setTab, if_pos rfl]
    rfl

/-- The message that a copy has sent is about its document. -/
theorem Invariant.addressed (invariant : Invariant (system :: past) system)
    {clientID documentID : String} {client : Client} {tab : Tab} {operation : DocumentOperation}
    (present : system.browsers.lookup clientID = some client)
    (found : client.tabs.lookup documentID = some tab) (sent : tab.submission = .sent operation) :
    operation.documentID = documentID := by
  obtain ⟨document, lookup⟩ := invariant.opened clientID documentID tab (tab_eq present found)
  obtain ⟨first, star, mirrors, _⟩ := invariant.mirrored documentID document lookup
  have known := (mirrors.copies.tabs clientID client tab present found).2
  rw [sent] at known
  exact known.2.1

/-- Every document of the room keeps its star through a step. -/
theorem Invariant.mirrors_step [Host] [Editor] (invariant : Invariant (system :: past) system)
    (step : Step system system') (plain : Plain system system') {documentID : String}
    {document : Document} {first : Int} {star : Star (List UInt16) ChangeSet String}
    (found : system.document documentID = some document)
    (mirrors : Mirrors system documentID document first star) :
    ∃ document' star', system'.document documentID = some document' ∧
      Mirrors system' documentID document' first star' ∧ star'.start = star.start ∧
      (star'.edits = star.edits ∨ ∃ edit, star'.edits = star.edits ++ [edit]) := by
  cases step with
  | connect absent => exact ⟨document, star, found, mirrors.connect absent, rfl, .inl rfl⟩
  | @openTab clientID edited client source present absent source_found =>
      by_cases same : documentID = edited
      · subst same
        cases found.symm.trans source_found
        obtain ⟨star', mirrors', start, edits⟩ := mirrors.openTab present absent
          (plain.opened present absent source_found rfl)
        exact ⟨document, star', found, mirrors', start, .inl edits⟩
      · exact ⟨document, star, found, mirrors.setBrowser_other present
          (by rw [Client.lookup_setTab, if_neg same]) id, rfl, .inl rfl⟩
  | @edit clientID edited client tab update present opened fits =>
      by_cases same : documentID = edited
      · subst same
        obtain ⟨star', mirrors', start, edits⟩ := mirrors.edit present opened fits
        exact ⟨document, star', found, mirrors', start, .inl edits⟩
      · exact ⟨document, star, found, mirrors.setBrowser_other present
          (by rw [Client.lookup_setTab, if_neg same]) id, rfl, .inl rfl⟩
  | @submit clientID edited client tab operation present opened idle message =>
      by_cases same : documentID = edited
      · subst same
        obtain ⟨star', mirrors', start, edits⟩ := mirrors.submit present opened idle message
        exact ⟨document, star', found, mirrors', start, .inl edits⟩
      · exact ⟨document, star, found, mirrors.setBrowser_other present
          (by rw [Client.lookup_setTab, if_neg same]) id, rfl, .inl rfl⟩
  | @handle clientID edited client tab operation present opened sent participantID connectionID
      generation now fault =>
      obtain ⟨room, shared, ends⟩ := system.authority.room.submitDocument_outcome
        system.authority.store participantID connectionID generation operation now fault
      exact mirrors.handle present opened sent (invariant.addressed present opened sent) found
        invariant.orderly shared ends
  | deliver present next received =>
      obtain ⟨star', mirrors', start, edits⟩ := mirrors.deliver present next received
      exact ⟨document, star', found, mirrors', start, .inl edits⟩
  | @environment authority keeps orderly created =>
      obtain ⟨document', found', same⟩ := keeps documentID document found
      exact ⟨document', star, found', mirrors.keeps same authority, rfl, .inl rfl⟩

/-- A document that the room has got in this step has no copies and no events. -/
theorem mirrors_init {documentID : String} {document : Document}
    (found : system.document documentID = some document) (orderly : system.authority.room.Orderly)
    (unopened : ∀ clientID client, system.browsers.lookup clientID = some client →
      client.tabs.lookup documentID = none)
    (unused : system.Unused documentID) :
    Mirrors system documentID document document.snapshot.currentRevision {
      start := utf16Units document.snapshot.content, log := [], peers := fun _ => none } where
  invariant := Star.invariant_init _ _
  follows := {
    current := (Int.add_zero _).symm
    content := rfl
    history := by
      refine ⟨document.history.map DocumentHistory.step, ?_, ?_⟩
      · intro step member
        obtain ⟨entry, recorded, rfl⟩ := List.mem_map.mp member
        exact orderly.histories documentID document found entry recorded
      · exact (List.append_nil _).symm ▸ List.suffix_rfl }
  copies := {
    peers := by
      intro clientID
      cases present : system.browsers.lookup clientID with
      | none => rfl
      | some client => rw [Option.bind_some, unopened clientID client present]; rfl
    tabs := by
      intro clientID client tab present opened
      rw [unopened clientID client present] at opened
      cases opened
    inboxes := by
      intro clientID client present
      rw [unopened clientID client present]
      have passed (events : List AcceptedDocumentOperation)
          (other : ∀ event ∈ events, event.documentID ≠ documentID) :
          Feeds documentID document.snapshot.currentRevision []
            document.snapshot.currentRevision events := by
        induction events with
        | nil => exact (Int.add_zero _).symm
        | cons event events induction =>
            rw [Feeds, if_neg fun new => other event (by simp) new.1]
            exact induction fun event member => other event (by simp [member])
      exact passed client.inbox (unused clientID client present) }

/-- No step takes a document away. -/
theorem Step.kept [Host] [Editor] (invariant : Invariant (system :: past) system)
    (step : Step system system') (plain : Plain system system')
    {documentID : String} {document : Document}
    (found : system.document documentID = some document) :
    ∃ document', system'.document documentID = some document' := by
  obtain ⟨first, star, mirrors, _⟩ := invariant.mirrored documentID document found
  obtain ⟨document', _, found', _⟩ := invariant.mirrors_step step plain found mirrors
  exact ⟨document', found'⟩

/-- Only the environment gives the room new documents. -/
theorem Step.created [Host] [Editor] (step : Step system system') {documentID : String}
    (absent : system.document documentID = none) :
    system'.document documentID = none ∨
      system'.browsers = system.browsers ∧ system.Unused documentID := by
  cases step with
  | connect => exact .inl absent
  | openTab => exact .inl absent
  | edit => exact .inl absent
  | submit => exact .inl absent
  | deliver => exact .inl absent
  | environment keeps orderly created =>
      exact (created documentID absent).imp_right fun unused => ⟨rfl, unused⟩
  | @handle clientID edited client tab operation present opened sent participantID connectionID
      generation now fault =>
      left
      obtain ⟨room, shared, ends⟩ := system.authority.room.submitDocument_outcome
        system.authority.store participantID connectionID generation operation now fault
      have documents := Room.documents_of_shared shared
      rw [document, answer_authority]
      exact ends.lookup_none (documents ▸ absent)

theorem Step.orderly [Host] [Editor] (step : Step system system')
    (orderly : system.authority.room.Orderly) : system'.authority.room.Orderly := by
  cases step with
  | connect => exact orderly
  | openTab => exact orderly
  | edit => exact orderly
  | submit => exact orderly
  | deliver => exact orderly
  | environment keeps orderly' => exact orderly'
  | @handle clientID edited client tab operation present opened sent participantID connectionID
      generation now fault =>
      obtain ⟨room, shared, ends⟩ := system.authority.room.submitDocument_outcome
        system.authority.store participantID connectionID generation operation now fault
      rw [answer_authority]
      exact ends.orderly (orderly.of_shared shared)

/-- Replacing a copy opens no document that was not open. -/
theorem opened_of_setTab (system : System) {clientID edited other documentID : String}
    {client client' : Client} {tab tab' opened : Tab}
    (present : system.browsers.lookup clientID = some client)
    (found : client.tabs.lookup edited = some tab)
    (tabs : client'.tabs = (client.setTab edited tab').tabs)
    (lookup : (system.setBrowser clientID client').tab other documentID = some opened) :
    ∃ before, system.tab other documentID = some before := by
  rw [tab_setBrowser] at lookup
  split at lookup
  case isTrue same =>
    subst same
    rw [tabs, Client.lookup_setTab] at lookup
    split at lookup
    case isTrue own => exact ⟨tab, own ▸ tab_eq present found⟩
    case isFalse => exact ⟨opened, tab_eq present lookup⟩
  case isFalse => exact ⟨opened, lookup⟩

/-- The answer of the room opens no document. -/
theorem opened_of_answer {clientID edited other documentID : String} {client : Client}
    {tab opened : Tab} {outcome : Outcome AcceptedDocumentOperation}
    (present : system.browsers.lookup clientID = some client)
    (found : client.tabs.lookup edited = some tab)
    (lookup : (system.answer clientID edited client tab outcome).tab other documentID =
      some opened) : ∃ before, system.tab other documentID = some before := by
  obtain ⟨authority, error | accepted⟩ := outcome
  · exact opened_of_setTab { system with authority } present found (by rfl) lookup
  · rw [answer] at lookup
    split at lookup
    · exact opened_of_setTab { system with authority } present found (by rfl) lookup
    · rw [System.tab, broadcast, lookup_tab_enqueue] at lookup
      exact opened_of_setTab { system with authority } present found (by rfl) lookup

/-- A copy that appears is a new editor on a document of the room. -/
theorem Step.opened [Host] [Editor] (step : Step system system')
    {clientID documentID : String} {tab : Tab}
    (lookup : system'.tab clientID documentID = some tab) :
    (∃ before, system.tab clientID documentID = some before) ∨
      ∃ document, system.document documentID = some document ∧
        tab = Tab.ofDocument document.snapshot := by
  cases step with
  | connect absent =>
      rw [tab_setBrowser] at lookup
      split at lookup
      · cases lookup
      · exact .inl ⟨tab, lookup⟩
  | @openTab other edited client document present absent found =>
      rw [tab_setBrowser] at lookup
      split at lookup
      case isTrue same =>
        subst same
        rw [Client.lookup_setTab] at lookup
        split at lookup
        case isTrue own => exact .inr ⟨document, own ▸ found, (Option.some.inj lookup).symm⟩
        case isFalse => exact .inl ⟨tab, tab_eq present lookup⟩
      case isFalse => exact .inl ⟨tab, lookup⟩
  | edit present found fits => exact .inl (opened_of_setTab system present found (by rfl) lookup)
  | submit present found idle message =>
      exact .inl (opened_of_setTab system present found (by rfl) lookup)
  | handle present found => exact .inl (opened_of_answer present found lookup)
  | environment => exact .inl ⟨tab, lookup⟩
  | @deliver other client client' event inbox present next received =>
      left
      obtain ⟨_, rfl⟩ | ⟨before, after, found, _, rfl⟩ := Client.receive_cases received
      · rw [tab_setBrowser] at lookup
        split at lookup
        case isTrue same => exact ⟨tab, same ▸ tab_eq present lookup⟩
        case isFalse => exact ⟨tab, lookup⟩
      · rw [tab_setBrowser] at lookup
        split at lookup
        case isTrue same =>
          subst same
          rw [Client.lookup_setTab] at lookup
          split at lookup
          case isTrue own => exact ⟨before, own ▸ tab_eq present found⟩
          case isFalse => exact ⟨tab, tab_eq present lookup⟩
        case isFalse => exact ⟨tab, lookup⟩

/-- A step keeps the invariant. -/
theorem Invariant.step [Host] [Editor] (invariant : Invariant (system :: past) system)
    (step : Step system system') (plain : Plain system system') :
    Invariant (system' :: system :: past) system' where
  orderly := step.orderly invariant.orderly
  mirrored := by
    intro documentID document' found'
    cases found : system.document documentID with
    | some document =>
        obtain ⟨first, star, mirrors, archived⟩ := invariant.mirrored documentID document found
        obtain ⟨document'', star', lookup, mirrors', start, grows⟩ :=
          invariant.mirrors_step step plain found mirrors
        cases found'.symm.trans lookup
        refine ⟨first, star', mirrors', ?_⟩
        have follows := mirrors'.follows
        rw [start] at follows ⊢
        exact archived.step grows found' follows
    | none =>
        obtain absent | ⟨same, unused⟩ := step.created found
        · rw [absent] at found'
          cases found'
        · refine ⟨_, _, mirrors_init found' (step.orderly invariant.orderly) ?_ ?_, ?_⟩
          · intro clientID client present
            rw [same] at present
            cases opened : client.tabs.lookup documentID with
            | none => rfl
            | some tab =>
                obtain ⟨document, lookup⟩ :=
                  invariant.opened clientID documentID tab (tab_eq present opened)
                rw [found] at lookup
                cases lookup
          · intro clientID client present
            exact unused clientID client (same ▸ present)
          · apply Archived.init found'
            intro earlier member
            cases before : earlier.document documentID with
            | none => rfl
            | some document =>
                obtain ⟨document', lookup⟩ :=
                  invariant.kept earlier member documentID document before
                rw [found] at lookup
                cases lookup
  opened := by
    intro clientID documentID tab lookup
    obtain ⟨document, found⟩ : ∃ document, system.document documentID = some document := by
      obtain ⟨before, opened⟩ | ⟨document, found, _⟩ := step.opened lookup
      · exact invariant.opened clientID documentID before opened
      · exact ⟨document, found⟩
    exact step.kept invariant plain found
  kept := by
    intro earlier member documentID document before
    rcases List.mem_cons.mp member with rfl | older
    · exact ⟨document, before⟩
    · obtain ⟨document', found⟩ := invariant.kept earlier older documentID document before
      exact step.kept invariant plain found

/-- The next event of a browser is not refused. -/
theorem Invariant.receives [Editor] (invariant : Invariant (system :: past) system)
    {clientID : String} {client : Client} (present : system.browsers.lookup clientID = some client)
    {event : AcceptedDocumentOperation} {inbox : List AcceptedDocumentOperation}
    (next : client.inbox = event :: inbox) :
    ∃ client', { client with inbox }.receive clientID event = .ok client' := by
  cases opened : client.tabs.lookup event.documentID with
  | none =>
      refine ⟨{ client with inbox }, ?_⟩
      rw [Client.receive, show ({ client with inbox } : Client).tabs.lookup event.documentID = none
        from opened]
  | some tab =>
      obtain ⟨tab', applied⟩ : ∃ tab', tab.applyDocumentEvent clientID event = .ok tab' := by
        by_cases newer : tab.version < event.revision
        · obtain ⟨document, found⟩ :=
            invariant.opened clientID event.documentID tab (tab_eq present opened)
          obtain ⟨first, star, mirrors, _⟩ := invariant.mirrored event.documentID document found
          obtain ⟨tab', applied, _⟩ := mirrors.applies present opened next rfl newer
          exact ⟨tab', applied⟩
        · exact ⟨tab, by rw [Tab.applyDocumentEvent, if_pos (not_lt.mp newer)]⟩
      refine ⟨({ client with inbox } : Client).setTab event.documentID tab', ?_⟩
      simp only [Client.receive, opened, applied]
      rfl

/-- The steps of a run open only documents without carriage returns. -/
def OpensPlain (states : List System) : Prop :=
  states.IsChain fun system' system => Plain system system'

/-- The invariant holds in every run whose steps open only documents without carriage returns. -/
theorem Run.invariant [Host] [Editor] {states : List System} (run : Run states)
    (plain : OpensPlain states) :
    ∃ system past, states = system :: past ∧ Invariant states system := by
  induction run with
  | @start authority orderly =>
      refine ⟨_, _, rfl, orderly, ?_, ?_, ?_⟩
      · intro documentID document found
        exact ⟨_, _, mirrors_init found orderly (by simp) (by simp [Unused]),
          Archived.init found (by simp)⟩
      · simp [System.tab]
      · intro earlier member documentID document found
        rw [List.mem_singleton.mp member] at found
        exact ⟨document, found⟩
  | @step system system' past run step induction =>
      obtain ⟨plain, rest⟩ := List.isChain_cons_cons.mp plain
      obtain ⟨_, _, equality, invariant⟩ := induction rest
      cases equality
      exact ⟨system', _, rfl, invariant.step step plain⟩

/-- A copy of a document agrees with the server: its synchronised text is what the server had at
its version, it shows its pending updates on top of that, it is up to date just when no newer event
of the document is under way, and then without pending updates it shows what the server has. -/
structure Agrees (states : List System) (system : System) (documentID : String) (client : Client)
    (tab : Tab) : Prop where
  synced : ∀ units, ServerText states documentID tab.version units ↔ units = tab.synced
  pending : ChangeSet.system.ValidAll tab.edits tab.synced
  text : tab.text = ChangeSet.system.run tab.edits tab.synced
  current : ∃ document, system.document documentID = some document ∧
    tab.version ≤ document.snapshot.currentRevision ∧
    (tab.version = document.snapshot.currentRevision ↔
      ∀ event ∈ client.inbox, event.documentID = documentID → event.revision ≤ tab.version) ∧
    (tab.version = document.snapshot.currentRevision → tab.pending = [] →
      tab.text = utf16Units document.snapshot.content)

/-- Every copy agrees with the server in the newest of some states, and no browser refuses the
event that it receives next. -/
def Converged [Editor] : List System → Prop
  | [] => True
  | system :: past => ∀ clientID client, system.browsers.lookup clientID = some client →
      (∀ documentID tab, client.tabs.lookup documentID = some tab →
        Agrees (system :: past) system documentID client tab) ∧
      ∀ event inbox, client.inbox = event :: inbox →
        ∃ client', { client with inbox }.receive clientID event = .ok client'

theorem Invariant.agrees (invariant : Invariant (system :: past) system)
    {clientID documentID : String} {client : Client} {tab : Tab}
    (present : system.browsers.lookup clientID = some client)
    (opened : client.tabs.lookup documentID = some tab) :
    Agrees (system :: past) system documentID client tab := by
  obtain ⟨document, found⟩ := invariant.opened clientID documentID tab (tab_eq present opened)
  obtain ⟨first, star, mirrors, archived⟩ := invariant.mirrored documentID document found
  have agrees := mirrors.invariant.peers clientID _ (mirrors.peer present opened)
  have known := mirrors.copies.tabs clientID client tab present opened
  have synced : tab.synced = ChangeSet.system.run (star.edits.take (tab.version - first).toNat)
    star.start := agrees.synced
  have text : tab.text = ChangeSet.system.run tab.edits tab.synced := agrees.text
  have current := mirrors.current
  have version_le : (tab.version - first).toNat ≤ star.log.length := agrees.version_le
  refine ⟨fun units => ?_, agrees.pending, text, document, found, by omega, ?_, ?_⟩
  · rw [archived, Star.edits, List.length_map]
    constructor
    · rintro ⟨count, le, version, rfl⟩
      rw [synced, Star.edits, version, show (first + (count : Int) - first).toNat = count by omega]
    · rintro rfl
      exact ⟨(tab.version - first).toNat, version_le, by omega, synced⟩
  · rw [current]
    exact (mirrors.feeds present opened).ended_iff
  · intro upToDate empty
    have none : tab.edits = [] := by rw [Tab.edits, empty]; rfl
    rw [text, none, Rebasing.run_nil, synced, mirrors.follows.content, List.take_of_length_le]
    rw [Star.edits, List.length_map]
    omega

theorem Invariant.converged [Editor] (invariant : Invariant (system :: past) system) :
    Converged (system :: past) := fun _ _ present =>
  ⟨fun _ _ opened => invariant.agrees present opened, fun _ _ next =>
    invariant.receives present next⟩

theorem Run.suffix [Host] [Editor] {states states' : List System} (run : Run states)
    (suffix : states' <:+ states) (nonempty : states' ≠ []) : Run states' := by
  induction run with
  | start orderly =>
      obtain rfl | empty := List.suffix_cons_iff.mp suffix
      · exact .start orderly
      · exact absurd (List.suffix_nil.mp empty) nonempty
  | step run step induction =>
      obtain rfl | earlier := List.suffix_cons_iff.mp suffix
      · exact .step run step
      · exact induction earlier

/-- Where a new editor shows what the server has, the document holds no carriage return. -/
theorem Step.plain [Host] [Editor] (step : Step system system')
    (converged : Converged (system' :: past)) : Plain system system' := by
  intro clientID documentID document absent appears found
  obtain ⟨tab, opened⟩ := Option.isSome_iff_exists.mp appears
  obtain ⟨before, lookup⟩ | ⟨source, found', rfl⟩ := step.opened opened
  · rw [absent] at lookup
    cases lookup
  · cases found.symm.trans found'
    obtain ⟨client, present, lookup⟩ := Option.bind_eq_some_iff.mp opened
    have text := ((converged clientID client present).1 documentID _ lookup).text
    exact (Editor.create_eq_self_iff _).mp text

/-- In a run every copy agrees with the server at every moment, and no event is refused, if and
only if every document holds no carriage return when a browser opens an editor on it. -/
theorem converges [Host] [Editor] {states : List System} (run : Run states) :
    (∀ states', states' <:+ states → Converged states') ↔ OpensPlain states := by
  constructor
  · intro converged
    induction run with
    | start => exact .singleton _
    | step run step induction =>
        refine List.isChain_cons_cons.mpr ⟨step.plain (converged _ List.suffix_rfl), ?_⟩
        exact induction fun states' suffix =>
          converged states' (suffix.trans (List.suffix_cons _ _))
  · intro plain states' suffix
    rcases states' with _ | ⟨system, past⟩
    · trivial
    · obtain ⟨_, _, equality, invariant⟩ := (run.suffix suffix (by simp)).invariant
        (plain.suffix suffix)
      cases equality
      exact invariant.converged

/-! ## Browsers on a small room -/

/-- What a browser or the room does next. -/
inductive Move where
  | connect (clientID : String)
  | openTab (clientID documentID : String)
  | edit (clientID documentID : String) (update : LocalUpdate)
  | submit (clientID documentID : String)
  | handle (clientID documentID : String) (participantID connectionID : String) (generation : Nat)
      (now : Time)
  | deliver (clientID : String)

/-- The state after a move, where the move is a step. -/
def move [Host] [Editor] (system : System) : Move → Option System
  | .connect clientID =>
      if clientID ∈ system.browsers then none else some (system.setBrowser clientID ⟨∅, []⟩)
  | .openTab clientID documentID => do
      let browser ← system.browsers.lookup clientID
      let document ← system.document documentID
      if browser.tabs.lookup documentID = none then
        system.setBrowser clientID (browser.setTab documentID (Tab.ofDocument document.snapshot))
      else none
  | .edit clientID documentID update => do
      let browser ← system.browsers.lookup clientID
      let tab ← browser.tabs.lookup documentID
      if update.changes.Fits WholeRunes tab.text then
        system.setBrowser clientID (browser.setTab documentID (tab.edit update))
      else none
  | .submit clientID documentID => do
      let browser ← system.browsers.lookup clientID
      let tab ← browser.tabs.lookup documentID
      let operation ← tab.message clientID documentID
      if tab.submission = .idle then
        system.setBrowser clientID
          (browser.setTab documentID { tab with submission := .sent operation })
      else none
  | .handle clientID documentID participantID connectionID generation now => do
      let browser ← system.browsers.lookup clientID
      let tab ← browser.tabs.lookup documentID
      let operation ← tab.message clientID documentID
      if tab.submission = .sent operation then
        system.answer clientID documentID browser tab
          (system.authority.room.submitDocument system.authority.store participantID connectionID
            generation operation now false)
      else none
  | .deliver clientID => do
      let browser ← system.browsers.lookup clientID
      let event ← browser.inbox.head?
      let browser' ← ({ browser with inbox := browser.inbox.tail }.receive clientID event).toOption
      system.setBrowser clientID browser'

theorem step_of_move [Host] [Editor] {next : Move} (moved : system.move next = some system') :
    Step system system' := by
  cases next with
  | connect clientID =>
      obtain ⟨absent, equality⟩ := Option.ite_none_left_eq_some.mp moved
      cases equality
      exact .connect absent
  | openTab clientID documentID =>
      simp only [move, Option.bind_eq_bind, Option.bind_eq_some_iff] at moved
      obtain ⟨browser, present, document, found, moved⟩ := moved
      obtain ⟨absent, equality⟩ := Option.ite_none_right_eq_some.mp moved
      cases equality
      exact .openTab present absent found
  | edit clientID documentID update =>
      simp only [move, Option.bind_eq_bind, Option.bind_eq_some_iff] at moved
      obtain ⟨browser, present, tab, found, moved⟩ := moved
      obtain ⟨fits, equality⟩ := Option.ite_none_right_eq_some.mp moved
      cases equality
      exact .edit present found fits
  | submit clientID documentID =>
      simp only [move, Option.bind_eq_bind, Option.bind_eq_some_iff] at moved
      obtain ⟨browser, present, tab, found, operation, message, moved⟩ := moved
      obtain ⟨idle, equality⟩ := Option.ite_none_right_eq_some.mp moved
      cases equality
      exact .submit present found idle message
  | handle clientID documentID participantID connectionID generation now =>
      simp only [move, Option.bind_eq_bind, Option.bind_eq_some_iff] at moved
      obtain ⟨browser, present, tab, found, operation, message, moved⟩ := moved
      obtain ⟨sent, equality⟩ := Option.ite_none_right_eq_some.mp moved
      cases equality
      exact .handle present found sent participantID connectionID generation now false
  | deliver clientID =>
      simp only [move, Option.bind_eq_bind, Option.bind_eq_some_iff] at moved
      obtain ⟨browser, present, event, head, browser', received, moved⟩ := moved
      cases moved
      obtain ⟨inbox, next⟩ := List.head?_eq_some_iff.mp head
      rw [next, List.tail_cons] at received
      exact .deliver present next (ok_of_toOption received)

/-- No document of the room holds a carriage return. -/
def Clean (system : System) : Prop :=
  ∀ entry ∈ system.authority.room.documents.entries,
    CodeMirror.carriageReturn ∉ utf16Units entry.2.snapshot.content

instance (system : System) : Decidable system.Clean :=
  inferInstanceAs (Decidable (∀ entry ∈ _, _))

theorem Clean.plain (clean : system.Clean) : Plain system system' :=
  fun _ _ document _ _ found => clean ⟨_, document⟩ (AList.mem_lookup_iff.mp found)

/-- The states of a run after some moves on rooms without carriage returns, the newest first. -/
def play [Host] [Editor] : List System → List Move → Option (List System)
  | states, [] => some states
  | [], _ :: _ => none
  | system :: past, next :: moves =>
      if system.Clean then
        (system.move next).bind fun system' => play (system' :: system :: past) moves
      else none

theorem Run.play [Host] [Editor] {states states' : List System}
    {moves : List Move} (run : Run states)
    (plain : OpensPlain states) (played : System.play states moves = some states') :
    Run states' ∧ OpensPlain states' := by
  induction moves generalizing states with
  | nil =>
      cases states <;> cases played <;> exact ⟨run, plain⟩
  | cons next moves induction =>
      rcases states with _ | ⟨system, past⟩
      · cases played
      · obtain ⟨clean, moved⟩ := Option.ite_none_right_eq_some.mp played
        obtain ⟨system', stepped, rest⟩ := Option.bind_eq_some_iff.mp moved
        exact induction (.step run (step_of_move stepped))
          (List.isChain_cons_cons.mpr ⟨clean.plain, plain⟩) rest

/-- A room whose documents have no histories and whose ledger is empty. -/
theorem orderly_of_new {room : Room}
    (histories : ∀ entry ∈ room.documents.entries, entry.2.history = [])
    (ledger : room.operations.entries = []) : room.Orderly where
  histories documentID document found entry member := by
    rw [histories ⟨documentID, document⟩ (AList.mem_lookup_iff.mp found)] at member
    cases member
  ledger operationID fingerprint accepted document recorded := by
    have member := AList.mem_lookup_iff.mp recorded
    rw [ledger] at member
    cases member

/-- The small room with two participants. -/
def smallCompany : Authority :=
  (@Stage.run sampleHost (smallStage defaultHubOptions)
    [smallJoin "ann" "page" [] 2, smallJoin "eve" "desk" [] 3]).authority

/-- Two browsers open the document and write into it at once, one in front of it and one behind it.
The room takes the changes one after the other, and each browser hears of both. -/
def smallMeeting : List Move :=
  [.connect "page", .connect "desk", .openTab "page" "main", .openTab "desk" "main",
    .edit "page" "main" ⟨"op-1", ⟨[⟨0, 1, "x"⟩, ⟨2, -1, ""⟩]⟩⟩,
    .edit "desk" "main" ⟨"op-2", ⟨[⟨2, -1, ""⟩, ⟨0, 1, "y"⟩]⟩⟩,
    .submit "page" "main", .handle "page" "main" "p-demo-ann" "page" 1 (unixTime 4),
    .submit "desk" "main", .handle "desk" "main" "p-demo-eve" "desk" 1 (unixTime 5),
    .deliver "page", .deliver "page", .deliver "desk", .deliver "desk"]

/-- What a browser shows of the document, with the numbers of its pending updates and of the events
under way to it. -/
def shows (system : System) (clientID : String) : Option (List UInt16 × Nat × Nat) := do
  let browser ← system.browsers.lookup clientID
  let tab ← browser.tabs.lookup "main"
  some (tab.text, tab.pending.length, browser.inbox.length)

/-- The room and both browsers have the same text, and nothing is under way. -/
def Together (content : String) (system : System) : Prop :=
  (system.document "main").map (fun document => document.snapshot.content) = some content ∧
    ∀ clientID ∈ ["page", "desk"], system.shows clientID = some (utf16Units content, 0, 0)

instance (content : String) : DecidablePred (Together content) := fun _ =>
  inferInstanceAs (Decidable (_ ∧ _))

theorem smallMeeting_done :
    ∃ states, @play sampleHost codeMirror [⟨smallCompany, ∅⟩] smallMeeting = some states ∧
      ∃ system ∈ states.head?, Together "xaby" system := by
  have done : (@play sampleHost codeMirror [⟨smallCompany, ∅⟩] smallMeeting).any (fun states =>
      states.head?.any fun system => decide (Together "xaby" system)) = true := by
    decide +kernel
  obtain ⟨states, played, shown⟩ := Option.any_eq_true _ _ |>.mp done
  obtain ⟨system, newest, together⟩ := Option.any_eq_true _ _ |>.mp shown
  exact ⟨states, played, system, newest, of_decide_eq_true together⟩

/-- After the meeting everybody shows both changes. -/
theorem converges_small : ∃ states,
    @play sampleHost codeMirror [⟨smallCompany, ∅⟩] smallMeeting = some states ∧
      (∃ system ∈ states.head?, Together "xaby" system) ∧
      ∀ states', states' <:+ states → @Converged codeMirror states' := by
  obtain ⟨states, played, shown⟩ := smallMeeting_done
  have orderly : smallCompany.room.Orderly :=
    orderly_of_new (by decide +kernel) (by decide +kernel)
  obtain ⟨run, plain⟩ := @Run.play sampleHost codeMirror _ _ _
    (@Run.start sampleHost codeMirror _ orderly) (.singleton _) played
  exact ⟨states, played, shown, (@converges sampleHost codeMirror _ run).mpr plain⟩

/-- A room that is created with a carriage return in its document. -/
def brokenSnapshot : RoomSnapshot :=
  { smallSnapshot with
    contentSize := 3
    documents := [{ smallDocument with content := "a\rb" }] }

theorem brokenSnapshot_loaded : ∃ store room,
    Storage.Store.createRoom ∅ brokenSnapshot false = .ok store ∧
      (Room.newRoom store brokenSnapshot defaultHubOptions .none).2 = .ok room ∧ room.Orderly ∧
      ∃ document, room.documents.lookup "main" = some document ∧
        document.snapshot.content = "a\rb" := by
  have done : (Storage.Store.createRoom ∅ brokenSnapshot false).toOption.any (fun store =>
      (Room.newRoom store brokenSnapshot defaultHubOptions .none).2.toOption.any fun room =>
        room.documents.entries.all (fun entry => entry.2.history = []) &&
          decide (room.operations.entries = []) &&
          (room.documents.lookup "main").any fun document =>
            decide (document.snapshot.content = "a\rb")) = true := by
    decide +kernel
  obtain ⟨store, created, done⟩ := Option.any_eq_true _ _ |>.mp done
  obtain ⟨room, loaded, done⟩ := Option.any_eq_true _ _ |>.mp done
  rw [Bool.and_eq_true, Bool.and_eq_true, List.all_eq_true] at done
  obtain ⟨⟨histories, ledger⟩, shown⟩ := done
  obtain ⟨document, found, content⟩ := Option.any_eq_true _ _ |>.mp shown
  exact ⟨store, room, ok_of_toOption created, ok_of_toOption loaded,
    orderly_of_new (fun entry member => of_decide_eq_true (histories entry member))
      (of_decide_eq_true ledger), document, found, of_decide_eq_true content⟩

/-- A browser that has just opened an editor on the document shows a line feed where the server has
a carriage return. -/
theorem converges_broken : ∃ store room states,
    Storage.Store.createRoom ∅ brokenSnapshot false = .ok store ∧
      (Room.newRoom store brokenSnapshot defaultHubOptions .none).2 = .ok room ∧
      @Run sampleHost codeMirror (states ++ [⟨⟨room, store⟩, ∅⟩]) ∧
      (∃ system ∈ states.head?, system.shows "page" = some (utf16Units "a\nb", 0, 0) ∧
        (system.document "main").map (fun document => document.snapshot.content) =
          some "a\rb") ∧
      ¬@Converged codeMirror (states ++ [⟨⟨room, store⟩, ∅⟩]) := by
  obtain ⟨store, room, created, loaded, orderly, document, found, content⟩ := brokenSnapshot_loaded
  let start : System := ⟨⟨room, store⟩, ∅⟩
  let connected := start.setBrowser "page" ⟨∅, []⟩
  let opened := connected.setBrowser "page"
    (Client.setTab ⟨∅, []⟩ "main" (@Tab.ofDocument codeMirror document.snapshot))
  have present : connected.browsers.lookup "page" = some ⟨∅, []⟩ := rfl
  have run : @Run sampleHost codeMirror [opened, connected, start] :=
    @Run.step sampleHost codeMirror _ _ _
      (@Run.step sampleHost codeMirror _ _ _ (@Run.start sampleHost codeMirror _ orderly)
        (@Step.connect sampleHost codeMirror start "page" (AList.notMem_empty _)))
      (@Step.openTab sampleHost codeMirror connected "page" "main" _ document present rfl found)
  have shown : opened.shows "page" = some (utf16Units "a\nb", 0, 0) := by
    have text : (@Tab.ofDocument codeMirror document.snapshot).text = utf16Units "a\nb" := by
      change CodeMirror.breakLines (utf16Units document.snapshot.content) = _
      rw [content]
      exact (by decide +kernel : CodeMirror.breakLines (utf16Units "a\rb") = utf16Units "a\nb")
    rw [← text]
    rfl
  refine ⟨store, room, [opened, connected], created, loaded, run, ⟨opened, rfl, shown, ?_⟩, ?_⟩
  · rw [← content]
    exact congrArg (Option.map _) found
  · intro converged
    have agrees := ((converged "page" _ rfl).1 "main" _ rfl).text
    have plain := CodeMirror.breakLines_eq_self_iff.mp agrees
    rw [content] at plain
    exact absurd plain (by decide +kernel)

end System

end Oxbin.Browser
