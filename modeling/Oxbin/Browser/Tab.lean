import Oxbin.Browser.Editor
import Oxbin.Live.Contract
import Oxbin.Transform.Star

/-!
# A document in a browser

The collaboration state of one editor as `@codemirror/collab` keeps it, together with the text
that `live-room.tsx` keeps for the synchronised revision.  `ChangeSet.map` of the editor is `Map`
of the server, and applying a change set to the editor's document is the walk of `Apply`.
-/

namespace Oxbin.Browser

open Livecollab Live Transform

/-- The first pending update of a document on its way to the server and back. -/
inductive Submission where
  | idle
  /-- The message is under way to the server. -/
  | sent (operation : DocumentOperation)
  /-- The server has accepted the message and the event is under way to the browser. -/
  | answered
  deriving DecidableEq, Repr

/-- The state of a document in a browser. -/
structure Tab where
  /-- `getSyncedVersion`. -/
  version : Int
  /-- The entry of `syncedContentsRef`. -/
  synced : List UInt16
  /-- The document of the editor. -/
  text : List UInt16
  /-- `sendableUpdates`. -/
  pending : List LocalUpdate
  submission : Submission
  deriving DecidableEq, Repr

/-- Why a browser refuses an event. -/
inductive EventError where
  /-- The revision is not the next one. -/
  | gap
  | changes (error : CollabError)
  deriving DecidableEq, Repr

variable [Editor]

namespace Tab

/-- `getEditorState` for a document without an editor.  The editor that `makeLiveEditorState`
creates takes every line break for a `\n`. -/
def ofDocument (document : DocumentSnapshot) : Tab where
  version := document.currentRevision
  synced := utf16Units document.content
  text := Editor.create (utf16Units document.content)
  pending := []
  submission := .idle

/-- `receiveUpdates` for one update. -/
def receiveUpdates (tab : Tab) (own : Bool) (changes : ChangeSet) : Except CollabError Tab := do
  let (pending, changes) ← Editor.receiveUpdates tab.pending own changes
  match changes with
  | none => .ok { tab with version := tab.version + 1, pending, submission := .idle }
  | some changes => do
      let text ← Editor.apply changes tab.text
      .ok { tab with version := tab.version + 1, text, pending }

/-- `applyDocumentEvent` for the document of the event. -/
def applyDocumentEvent (tab : Tab) (clientID : String) (event : AcceptedDocumentOperation) :
    Except EventError Tab :=
  if event.revision ≤ tab.version then .ok tab
  else if event.revision ≠ tab.version + 1 then .error .gap
  else Except.mapError EventError.changes do
    let received ← tab.receiveUpdates (event.clientID = clientID) event.changes
    let synced ← Editor.apply event.changes tab.synced
    .ok { received with synced }

/-- The editor dispatches a transaction of its user. -/
def edit (tab : Tab) (update : LocalUpdate) : Tab :=
  { tab with text := update.changes.run tab.text, pending := tab.pending ++ [update] }

/-- The message of `flushChanges` for the first pending update. -/
def message (tab : Tab) (clientID documentID : String) : Option DocumentOperation :=
  tab.pending.head?.map fun update =>
    { operationID := update.operationID, clientID, documentID, baseVersion := tab.version
      changes := update.changes }

/-! ## The copy of a peer -/

/-- The change sets of the pending updates. -/
def edits (tab : Tab) : List ChangeSet := tab.pending.map LocalUpdate.changes

end Tab

/-- The slot of a submission, with revisions counted from `first`. -/
def Submission.slot (first : Int) : Submission → Slot ChangeSet
  | .idle => .idle
  | .sent operation => .inFlight (operation.baseVersion - first).toNat operation.changes
  | .answered => .accepted

namespace Tab

/-- The tab as a peer of the star protocol, with revisions counted from `first`. -/
def peer (first : Int) (tab : Tab) : Peer (List UInt16) ChangeSet where
  version := (tab.version - first).toNat
  synced := tab.synced
  text := tab.text
  pending := tab.edits
  slot := tab.submission.slot first

/-- The next event of a document is applied, and the tab receives it like a peer. -/
theorem applyDocumentEvent_next {tab : Tab} {clientID : String}
    {event : AcceptedDocumentOperation} {first : Int} (first_le : first ≤ tab.version)
    (next : event.revision = tab.version + 1)
    (valid : ChangeSet.system.Valid event.changes tab.synced)
    (pending : ChangeSet.system.ValidAll tab.edits tab.synced)
    (text : tab.text = ChangeSet.system.run tab.edits tab.synced) :
    ∃ tab', tab.applyDocumentEvent clientID event = .ok tab' ∧ tab'.version = tab.version + 1 ∧
      (tab'.submission = .idle ∨ tab'.submission = tab.submission) ∧
      Star.Receives ChangeSet.system clientID event.clientID event.changes (tab.peer first)
        (tab'.peer first) := by
  have version_eq : (tab.version + 1 - first).toNat = (tab.version - first).toNat + 1 := by omega
  have synced : Editor.apply event.changes tab.synced = .ok (event.changes.run tab.synced) :=
    Editor.apply_eq _ _ valid
  have apply_eq (received : Tab)
      (receives : tab.receiveUpdates (event.clientID = clientID) event.changes = .ok received) :
      tab.applyDocumentEvent clientID event =
        .ok { received with synced := event.changes.run tab.synced } := by
    rw [applyDocumentEvent, if_neg (by omega), if_neg (by omega), receives, synced]
    rfl
  by_cases own : event.clientID = clientID ∧ tab.pending ≠ []
  · obtain ⟨update, rest, shape⟩ := List.exists_cons_of_ne_nil own.2
    refine ⟨_, apply_eq { tab with
      version := tab.version + 1, pending := rest, submission := .idle } ?_, rfl, .inl rfl, ?_⟩
    · rw [receiveUpdates, shape, decide_eq_true own.1, Editor.receiveUpdates_own]
      rfl
    · have queue : (tab.peer first).pending =
          update.changes :: rest.map LocalUpdate.changes := by
        rw [peer, edits, shape]
        rfl
      have receives : Star.Receives ChangeSet.system clientID event.clientID event.changes
        (tab.peer first) _ := .own own.1 queue
      simp only [peer, version_eq] at receives ⊢
      exact receives
  · obtain ⟨queue, changes, rebased, _, fits, _⟩ :=
      ChangeSet.system.rebaseQueue_spec valid pending
    have foreign : decide (event.clientID = clientID) = true → tab.pending = [] := fun same =>
      of_not_not fun several => own ⟨of_decide_eq_true same, several⟩
    obtain ⟨pending', run, shape⟩ := Editor.receiveUpdates_foreign tab.pending _ event.changes
      changes queue foreign rebased
    rw [← text] at fits
    refine ⟨_, apply_eq { tab with
      version := tab.version + 1, text := changes.run tab.text, pending := pending' } ?_, rfl,
      .inr rfl, ?_⟩
    · rw [receiveUpdates, run]
      change (do
        let text ← Editor.apply changes tab.text
        Except.ok { tab with version := tab.version + 1, text, pending := pending' }) = _
      rw [Editor.apply_eq _ _ fits]
      rfl
    · have otherwise : event.clientID = clientID → (tab.peer first).pending = [] := by
        intro same
        by_contra several
        exact own ⟨same, fun empty => several (by rw [peer, edits, empty]; rfl)⟩
      have receives : Star.Receives ChangeSet.system clientID event.clientID event.changes
        (tab.peer first) _ := .foreign otherwise rebased
      simp only [peer, edits, shape, version_eq] at receives ⊢
      exact receives

end Tab

end Oxbin.Browser
