import Oxbin.Browser.Tab
import Oxbin.Live.History

/-!
# Editing together

One room and any number of browsers.  A browser edits its copies of the documents, submits the
first pending update of each of them, and receives the events that the room broadcasts in the
order in which they were sent.  Every document with its copies simulates the star protocol.
-/

namespace Oxbin.Browser

open Livecollab Live Transform

/-- A browser that is connected to the room. -/
structure Client where
  tabs : Keyed Tab
  /-- The events under way to the browser. -/
  inbox : List AcceptedDocumentOperation

/-- A room and the browsers that edit it, by their client IDs. -/
structure System where
  authority : Authority
  browsers : Keyed Client

namespace Client

/-- Replace the copy of a document. -/
def setTab (browser : Client) (documentID : String) (tab : Tab) : Client :=
  { browser with tabs := browser.tabs.insert documentID tab }

/-- Send an event to a browser. -/
def enqueue (event : AcceptedDocumentOperation) (browser : Client) : Client :=
  { browser with inbox := browser.inbox ++ [event] }

/-- `applyDocumentEvent`: a document without a copy is passed over. -/
def receive [Editor] (browser : Client) (clientID : String) (event : AcceptedDocumentOperation) :
    Except EventError Client :=
  match browser.tabs.lookup event.documentID with
  | none => .ok browser
  | some tab => (tab.applyDocumentEvent clientID event).map (browser.setTab event.documentID)

end Client

namespace System

/-- The documents of the room. -/
def document (system : System) (documentID : String) : Option Document :=
  system.authority.room.documents.lookup documentID

/-- The copy of a document in a browser. -/
def tab (system : System) (clientID documentID : String) : Option Tab :=
  (system.browsers.lookup clientID).bind fun browser => browser.tabs.lookup documentID

/-- Replace a browser. -/
def setBrowser (system : System) (clientID : String) (browser : Client) : System :=
  { system with browsers := system.browsers.insert clientID browser }

/-- Send an event to every browser. -/
def broadcast (system : System) (event : AcceptedDocumentOperation) : System :=
  { system with browsers := Keyed.mapValues (Client.enqueue event) system.browsers }

/-- No event under way names the document. -/
def Unused (system : System) (documentID : String) : Prop :=
  ∀ clientID client, system.browsers.lookup clientID = some client →
    ∀ event ∈ client.inbox, event.documentID ≠ documentID

/-- The part of `handleWireMessage` after `SubmitDocument`: a new revision is broadcast, a
repeated one is sent to its author, and an error ends the submission. -/
def answer (system : System) (clientID documentID : String) (browser : Client) (tab : Tab) :
    Outcome AcceptedDocumentOperation → System
  | (authority, .ok accepted) =>
      if accepted.duplicate = true then
        { system with authority }.setBrowser clientID
          ((browser.setTab documentID { tab with submission := .idle }).enqueue accepted)
      else
        ({ system with authority }.setBrowser clientID
          (browser.setTab documentID { tab with submission := .answered })).broadcast accepted
  | (authority, .error _) =>
      { system with authority }.setBrowser clientID
        (browser.setTab documentID { tab with submission := .idle })

theorem answer_authority (system : System) (clientID documentID : String) (browser : Client)
    (tab : Tab) (outcome : Outcome AcceptedDocumentOperation) :
    (system.answer clientID documentID browser tab outcome).authority = outcome.1 := by
  obtain ⟨authority, error | accepted⟩ := outcome
  · rfl
  · rw [answer]
    split <;> rfl

/-- The steps of the room and its browsers. -/
inductive Step [Host] [Editor] : System → System → Prop
  | connect {system : System} {clientID : String} (absent : clientID ∉ system.browsers) :
      Step system (system.setBrowser clientID ⟨∅, []⟩)
  /-- A browser opens an editor on a document. -/
  | openTab {system : System} {clientID documentID : String} {browser : Client}
      {document : Document} (present : system.browsers.lookup clientID = some browser)
      (absent : browser.tabs.lookup documentID = none)
      (found : system.document documentID = some document) :
      Step system (system.setBrowser clientID
        (browser.setTab documentID (Tab.ofDocument document.snapshot)))
  /-- The user of a browser edits a document. -/
  | edit {system : System} {clientID documentID : String} {browser : Client} {tab : Tab}
      {update : LocalUpdate} (present : system.browsers.lookup clientID = some browser)
      (found : browser.tabs.lookup documentID = some tab)
      (fits : update.changes.Fits WholeRunes tab.text) :
      Step system (system.setBrowser clientID (browser.setTab documentID (tab.edit update)))
  /-- A browser sends the first pending update of a document. -/
  | submit {system : System} {clientID documentID : String} {browser : Client} {tab : Tab}
      {operation : DocumentOperation} (present : system.browsers.lookup clientID = some browser)
      (found : browser.tabs.lookup documentID = some tab) (idle : tab.submission = .idle)
      (message : tab.message clientID documentID = some operation) :
      Step system (system.setBrowser clientID
        (browser.setTab documentID { tab with submission := .sent operation }))
  /-- The room handles a message. -/
  | handle {system : System} {clientID documentID : String} {browser : Client} {tab : Tab}
      {operation : DocumentOperation} (present : system.browsers.lookup clientID = some browser)
      (found : browser.tabs.lookup documentID = some tab)
      (sent : tab.submission = .sent operation) (participantID connectionID : String)
      (generation : Nat) (now : Time) (fault : Bool) :
      Step system (system.answer clientID documentID browser tab
        (system.authority.room.submitDocument system.authority.store participantID connectionID
          generation operation now fault))
  /-- A browser receives the next event. -/
  | deliver {system : System} {clientID : String} {browser browser' : Client}
      {event : AcceptedDocumentOperation} {inbox : List AcceptedDocumentOperation}
      (present : system.browsers.lookup clientID = some browser)
      (next : browser.inbox = event :: inbox)
      (received : { browser with inbox }.receive clientID event = .ok browser') :
      Step system (system.setBrowser clientID browser')
  /-- Anything else happens to the room and its store: modes, names and the order of the
  documents change, participants come and go, documents with new IDs are created. -/
  | environment {system : System} {authority : Authority}
      (keeps : system.authority.room.Keeps authority.room) (orderly : authority.room.Orderly)
      (created : ∀ documentID, system.document documentID = none →
        authority.room.documents.lookup documentID = none ∨ system.Unused documentID) :
      Step system { system with authority }

/-- The runs from a room without browsers, the newest state first. -/
inductive Run [Host] [Editor] : List System → Prop
  | start {authority : Authority} (orderly : authority.room.Orderly) : Run [⟨authority, ∅⟩]
  | step {system system' : System} {past : List System} (run : Run (system :: past))
      (step : Step system system') : Run (system' :: system :: past)

/-- A document that a browser opens in a step holds no carriage return. -/
def Plain (system system' : System) : Prop :=
  ∀ clientID documentID document, system.tab clientID documentID = none →
    (system'.tab clientID documentID).isSome → system.document documentID = some document →
    CodeMirror.carriageReturn ∉ utf16Units document.snapshot.content

/-- The text that the server has had at a revision of a document, in one of some states. -/
def ServerText (states : List System) (documentID : String) (version : Int)
    (units : List UInt16) : Prop :=
  ∃ system ∈ states, ∃ document, system.document documentID = some document ∧
    document.snapshot.currentRevision = version ∧ utf16Units document.snapshot.content = units

end System

end Oxbin.Browser
