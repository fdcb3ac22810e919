import Oxbin.Browser.Decoding
import Oxbin.Browser.Workspace
import Oxbin.Data.Pairing
import Oxbin.Live.Screens

/-!
# A workspace that shows a view

The documents of a workspace carry the labels of the tabs, and its editors carry their texts as
synchronised texts.  The event of an accepted operation takes the workspace from one view to the
next, whatever its user has typed meanwhile.
-/

namespace Oxbin.Browser

open Livecollab Live Httpapi Transform

/-! ## One editor -/

namespace Tab

/-- The text of the editor is the synchronised text with the pending updates. -/
structure Coherent (tab : Tab) : Prop where
  pending : ChangeSet.system.ValidAll tab.edits tab.synced
  text : tab.text = ChangeSet.system.run tab.edits tab.synced

/-- An operation of the browser itself that comes back is its first pending update. -/
def Acknowledges (tab : Tab) (clientID authorID : String) (changes : ChangeSet) : Prop :=
  authorID = clientID → ∀ update ∈ tab.pending.head?, update.changes = changes

/-- The user edits the document. -/
theorem Coherent.edit {tab : Tab} (coherent : tab.Coherent) {update : LocalUpdate}
    (fits : update.changes.Fits WholeRunes tab.text) : (tab.edit update).Coherent where
  pending := by
    have edits : (tab.edit update).edits = tab.edits ++ [update.changes] :=
      List.map_append
    rw [edits, Rebasing.validAll_append]
    refine ⟨coherent.pending, ?_, trivial⟩
    change ChangeSet.system.Valid update.changes (ChangeSet.system.run tab.edits tab.synced)
    rw [← coherent.text]
    exact fits
  text := by
    have edits : (tab.edit update).edits = tab.edits ++ [update.changes] :=
      List.map_append
    rw [edits, Rebasing.run_append]
    change update.changes.run tab.text = _
    rw [coherent.text]
    rfl

/-- The next event of a document is applied. -/
theorem Coherent.applies [Editor] {tab : Tab} (coherent : tab.Coherent) {clientID : String}
    {event : AcceptedDocumentOperation} (next : event.revision = tab.version + 1)
    (fits : event.changes.Fits WholeRunes tab.synced)
    (own : tab.Acknowledges clientID event.clientID event.changes) :
    ∃ tab', tab.applyDocumentEvent clientID event = .ok tab' ∧ tab'.Coherent ∧
      tab'.version = event.revision ∧ tab'.synced = event.changes.run tab.synced := by
  obtain ⟨tab', applied, version, _, receives⟩ := applyDocumentEvent_next (le_refl tab.version)
    next fits coherent.pending coherent.text
  refine ⟨tab', applied, ?_⟩
  generalize shape : tab'.peer tab.version = peer at receives
  have edits : tab'.edits = peer.pending := by rw [← shape, Tab.peer]
  have text : tab'.text = peer.text := by rw [← shape, Tab.peer]
  have synced : tab'.synced = peer.synced := by rw [← shape, Tab.peer]
  cases receives with
  | own same queue =>
      have valid := coherent.pending
      have whole := coherent.text
      have queue' : tab.edits = _ := queue
      rw [queue'] at valid whole
      obtain ⟨update, head, changed⟩ : ∃ update ∈ tab.pending.head?, update.changes = _ := by
        have first := congrArg List.head? queue'
        rw [Tab.edits, List.head?_map] at first
        exact Option.map_eq_some_iff.mp first
      have acknowledged := changed.symm.trans (own same update head)
      subst acknowledged
      refine ⟨⟨?_, ?_⟩, version.trans next.symm, synced⟩
      · rw [edits, synced]
        exact valid.2
      · rw [text, edits, synced]
        exact whole
  | foreign other rebased =>
      obtain ⟨queue', changes', rebased', valid, _, meets, _⟩ :=
        ChangeSet.system.rebaseQueue_spec fits coherent.pending
      have same := Option.some_inj.mp (rebased'.symm.trans rebased)
      rw [Prod.mk.injEq] at same
      obtain ⟨rfl, rfl⟩ := same
      refine ⟨⟨?_, ?_⟩, version.trans next.symm, synced⟩
      · rw [edits, synced]
        exact valid
      · rw [text, edits, synced]
        change ChangeSet.system.act changes' tab.text = _
        rw [coherent.text]
        exact meets.symm

/-- The editor is a copy of the tab. -/
structure Copies (editor : Tab) (tab : View.Tab) : Prop where
  version : editor.version = tab.revision
  synced : editor.synced = utf16Units tab.content
  coherent : editor.Coherent

end Tab

/-! ## Edited tabs -/

section Edits

variable {view view' : View} {accepted : AcceptedDocumentOperation}

/-- The editor of an edited tab applies the event. -/
theorem Tab.Copies.applies [Editor] {editor : Tab}
    {tab tab' : View.Tab} (copies : editor.Copies tab)
    (edited : tab.edit accepted = .ok tab') (same : tab.id = accepted.documentID)
    (fits : accepted.changes.Fits WholeRunes (utf16Units tab.content)) {clientID : String}
    (event : AcceptedDocumentOperation) (revision : event.revision = accepted.revision)
    (changes : event.changes = bare accepted.changes)
    (own : editor.Acknowledges clientID event.clientID event.changes) :
    editor.version < event.revision ∧
      ∃ editor', editor.applyDocumentEvent clientID event = .ok editor' ∧ editor'.Copies tab' := by
  rcases Screen.Tab.edit_cases edited with ⟨apart, _⟩ | ⟨_, next, content, applied, rfl⟩
  · exact absurd same apart
  · rw [← copies.version, ← revision] at next
    have fits' : event.changes.Fits WholeRunes editor.synced := by
      rw [changes, copies.synced]
      exact bare_fits fits
    obtain ⟨editor', received, coherent, version, synced⟩ :=
      copies.coherent.applies next fits' own
    refine ⟨by omega, editor', received, version.trans revision, ?_, coherent⟩
    rw [synced, changes, copies.synced, bare_run]
    exact (fits.utf16Units_of_apply applied).symm

theorem map_id_edit {tabs tabs' : List View.Tab}
    (edits : List.Forall₂ (fun tab tab' => Screen.Tab.edit tab accepted = .ok tab') tabs tabs') :
    tabs'.map Screen.Tab.id = tabs.map Screen.Tab.id := by
  induction edits with
  | nil => rfl
  | cons edited _ induction =>
      rw [List.map_cons, List.map_cons, Screen.Tab.id_of_edit edited, induction]

end Edits

/-! ## The documents -/

/-- A document that no editor shows is the tab. -/
structure Fresh (document : LiveRoomDocument) (tab : View.Tab) : Prop where
  revision : document.revision = tab.revision
  content : document.content = tab.content
  plain : CodeMirror.carriageReturn ∉ utf16Units tab.content

/-- A new editor is a copy of the tab. -/
theorem Fresh.copies [Editor] {document : LiveRoomDocument} {tab : View.Tab}
    (fresh : Fresh document tab) :
    (Tab.ofRoomDocument document).Copies tab where
  version := fresh.revision
  synced := congrArg utf16Units fresh.content
  coherent := {
    pending := trivial
    text := by
      change Editor.create (utf16Units document.content) = utf16Units document.content
      rw [fresh.content]
      exact (Editor.create_eq_self_iff _).mpr fresh.plain }

/-- A document shows the tab. -/
structure Showing (editors : Keyed Tab) (document : LiveRoomDocument) (tab : View.Tab) : Prop where
  id : document.id = tab.id
  name : document.name = tab.name
  language : document.language = tab.language
  opened : ∀ editor, editors.lookup tab.id = some editor → editor.Copies tab
  unopened : editors.lookup tab.id = none → Fresh document tab

section Showing

variable {editors editors' : Keyed Tab} {document : LiveRoomDocument} {tab : View.Tab}
  {documents : List LiveRoomDocument} {tabs : List View.Tab}

theorem Showing.congr (showing : Showing editors document tab)
    (same : editors'.lookup tab.id = editors.lookup tab.id) : Showing editors' document tab where
  id := showing.id
  name := showing.name
  language := showing.language
  opened := same ▸ showing.opened
  unopened := same ▸ showing.unopened

/-- The place of a document does not matter. -/
theorem Showing.moved (showing : Showing editors document tab) (position : Int) :
    Showing editors { document with position } tab where
  id := showing.id
  name := showing.name
  language := showing.language
  opened := showing.opened
  unopened missing :=
    have fresh := showing.unopened missing
    ⟨fresh.revision, fresh.content, fresh.plain⟩

/-- A document and the tab that it shows are found together. -/
theorem find?_showing (showing : List.Forall₂ (Showing editors) documents tabs) (id : String) :
    (∀ tab ∈ tabs, tab.id ≠ id) ∧
        (documents.find? fun document => document.id == id) = none ∨
      ∃ document tab, (documents.find? fun document => document.id == id) = some document ∧
        tab ∈ tabs ∧ tab.id = id ∧ Showing editors document tab := by
  induction showing with
  | nil => exact .inl ⟨fun _ member => (nomatch member), rfl⟩
  | @cons document tab documents tabs shows _ induction =>
      by_cases here : tab.id = id
      · refine .inr ⟨document, tab, ?_, .head _, here, shows⟩
        rw [List.find?_cons, shows.id, here, beq_self_eq_true]
      · rw [List.find?_cons, shows.id, beq_false_of_ne here]
        rcases induction with ⟨absent, missing⟩ | ⟨found, shown, lookup, member, same, shows⟩
        · exact .inl ⟨List.forall_mem_cons.mpr ⟨here, absent⟩, missing⟩
        · exact .inr ⟨found, shown, lookup, .tail _ member, same, shows⟩

/-- A tab is edited, and its editor is a copy of the result. -/
theorem Showing.edited {editor : Tab} {accepted : AcceptedDocumentOperation} {tab' : View.Tab}
    (shown : Showing editors document tab) (edited : tab.edit accepted = .ok tab')
    (copies : tab.id = accepted.documentID → editor.Copies tab') {document' : LiveRoomDocument}
    (labels : document'.id = document.id ∧ document'.name = document.name ∧
      document'.language = document.language)
    (other : document.id ≠ accepted.documentID → document' = document) :
    Showing (editors.insert accepted.documentID editor) document' tab' := by
  rcases Screen.Tab.edit_cases edited with ⟨apart, rfl⟩ | ⟨same, _, content, _, rfl⟩
  · rw [other (shown.id ▸ apart)]
    exact shown.congr (AList.lookup_insert_ne apart)
  · have lookup : (editors.insert accepted.documentID editor).lookup tab.id = some editor := by
      rw [same, AList.lookup_insert]
    exact {
      id := labels.1.trans shown.id
      name := labels.2.1.trans shown.name
      language := labels.2.2.trans shown.language
      opened := by
        intro found present
        cases lookup.symm.trans present
        exact copies same
      unopened := fun absent => nomatch lookup.symm.trans absent }

theorem map_id_showing (showing : List.Forall₂ (Showing editors) documents tabs) :
    documents.map LiveRoomDocument.id = tabs.map Screen.Tab.id := by
  induction showing with
  | nil => rfl
  | cons shows _ induction => rw [List.map_cons, List.map_cons, shows.id, induction]

end Showing

/-! ## The workspace -/

namespace Workspace

/-- The workspace shows the view. -/
structure Shows (workspace : Workspace) (view : View) : Prop where
  revision : workspace.metadataRevision = view.metadataRevision
  documents : List.Forall₂ (Showing workspace.editors) workspace.documents view.tabs
  rendered : List.Forall₂ (Showing workspace.editors) workspace.rendered view.tabs
  editors : ∀ id ∈ workspace.editors, id ∈ view.tabs.map Screen.Tab.id
  distinct : (view.tabs.map Screen.Tab.id).Nodup

section Shows

variable {workspace : Workspace} {view : View}

/-- The editor of a tab is replaced by another copy of the tab. -/
theorem Shows.setEditor (shows : workspace.Shows view) {tab : View.Tab} (member : tab ∈ view.tabs)
    {editor : Tab} (copies : editor.Copies tab) :
    { workspace with editors := workspace.editors.insert tab.id editor }.Shows view := by
  have showing (document : LiveRoomDocument) (other : View.Tab) (present : other ∈ view.tabs)
      (shown : Showing workspace.editors document other) :
      Showing (workspace.editors.insert tab.id editor) document other := by
    by_cases same : other.id = tab.id
    · obtain rfl := List.inj_on_of_nodup_map shows.distinct present member same
      exact {
        id := shown.id
        name := shown.name
        language := shown.language
        opened := by
          intro found lookup
          rw [AList.lookup_insert] at lookup
          cases lookup
          exact copies
        unopened := by
          intro absent
          rw [AList.lookup_insert] at absent
          cases absent }
    · exact shown.congr (AList.lookup_insert_ne same)
  refine ⟨shows.revision, forall₂_imp shows.documents showing, forall₂_imp shows.rendered showing,
    fun id present => ?_, shows.distinct⟩
  rcases (AList.mem_insert _).mp present with rfl | present
  · exact List.mem_map.mpr ⟨tab, member, rfl⟩
  · exact shows.editors id present

/-- The editor of a document is a copy of its tab. -/
theorem Shows.getEditorState [Editor] (shows : workspace.Shows view) {document : LiveRoomDocument}
    {tab : View.Tab} (member : tab ∈ view.tabs)
    (shown : Showing workspace.editors document tab) :
    ∃ editors editor, workspace.getEditorState document = ({ workspace with editors }, editor) ∧
      { workspace with editors }.Shows view ∧ editor.Copies tab ∧
      (workspace.editors.lookup tab.id = some editor ∨ editor.pending = []) := by
  unfold Workspace.getEditorState
  cases lookup : workspace.editors.lookup document.id with
  | some editor =>
      have found := shown.id ▸ lookup
      exact ⟨workspace.editors, editor, rfl, shows, shown.opened editor found, .inl found⟩
  | none =>
      have copies := (shown.unopened (shown.id ▸ lookup)).copies
      refine ⟨_, _, rfl, ?_, copies, .inr rfl⟩
      rw [shown.id]
      exact shows.setEditor member copies

/-- An operation of the browser itself comes back to the editor of its document. -/
def Acknowledges (workspace : Workspace) (accepted : AcceptedDocumentOperation) : Prop :=
  ∀ editor, workspace.editors.lookup accepted.documentID = some editor →
    editor.Acknowledges workspace.clientID accepted.clientID (bare accepted.changes)

/-- The event of an accepted change. -/
theorem Shows.applyDocumentEvent [Editor] (shows : workspace.Shows view) {view' : View}
    {accepted : AcceptedDocumentOperation} (edited : view.edit accepted = .ok view')
    (fits : ∀ tab ∈ view.tabs, tab.id = accepted.documentID →
      accepted.changes.Fits WholeRunes (utf16Units tab.content))
    (own : workspace.Acknowledges accepted) :
    ∃ workspace', workspace.applyDocumentEvent accepted.operationID accepted.clientID
        accepted.documentID accepted.baseVersion accepted.revision
        (encodeChangeSet accepted.changes) = .ok (true, workspace') ∧ workspace'.Shows view' := by
  obtain ⟨formed, revision, edits⟩ := Screen.edit_ok edited
  have ids := map_id_edit edits
  unfold Workspace.applyDocumentEvent
  rw [Editor.fromJSON_encode _ formed]
  rcases find?_showing shows.documents accepted.documentID with
    ⟨absent, missing⟩ | ⟨document, tab, found, member, same, shown⟩
  · have unchanged {documents : List LiveRoomDocument}
        (showing : List.Forall₂ (Showing workspace.editors) documents view.tabs) :
        List.Forall₂ (Showing workspace.editors) documents view'.tabs := by
      refine forall₂_trans showing edits fun document tab member tab' shown edited => ?_
      rcases Screen.Tab.edit_cases edited with ⟨_, rfl⟩ | ⟨same, _⟩
      · exact shown
      · exact absurd same (absent tab member)
    exact ⟨workspace, by simp only [missing], shows.revision.trans revision.symm,
      unchanged shows.documents, unchanged shows.rendered, ids ▸ shows.editors,
      ids ▸ shows.distinct⟩
  · obtain ⟨editors, editor, created, shows, copies, origin⟩ := shows.getEditorState member shown
    have own' : editor.Acknowledges workspace.clientID accepted.clientID
        (bare accepted.changes) := by
      rcases origin with present | empty
      · exact own editor (same ▸ present)
      · intro _ update present
        rw [empty] at present
        cases present
    obtain ⟨tab', member', edited'⟩ := exists_forall₂ edits member
    obtain ⟨newer, editor', received, copies'⟩ := copies.applies edited' same
      (fits tab member same)
      { operationID := accepted.operationID, clientID := accepted.clientID
        documentID := accepted.documentID, baseVersion := accepted.baseVersion
        revision := accepted.revision, changes := bare accepted.changes
        document := "", duplicate := false } rfl rfl own'
    have copy (other other' : View.Tab) (present : other ∈ view.tabs)
        (edited : other.edit accepted = .ok other') (same' : other.id = accepted.documentID) :
        editor'.Copies other' := by
      obtain rfl := List.inj_on_of_nodup_map shows.distinct present member (same'.trans same.symm)
      cases edited.symm.trans edited'
      exact copies'
    refine ⟨_, by simp only [found, created, if_neg (not_le.mpr newer), received]; rfl, ?_⟩
    refine ⟨shows.revision.trans revision.symm, ?_, ?_, ?_, ids ▸ shows.distinct⟩
    · refine List.forall₂_map_left_iff.mpr (forall₂_trans shows.documents edits ?_)
      intro document tab member tab' shown edited
      refine shown.edited edited (copy tab tab' member edited) ?_ ?_
      · split <;> exact ⟨rfl, rfl, rfl⟩
      · exact fun other => if_neg other
    · refine forall₂_trans shows.rendered edits ?_
      intro document tab member tab' shown edited
      exact shown.edited edited (copy tab tab' member edited) ⟨rfl, rfl, rfl⟩ fun _ => rfl
    · intro id present
      rw [ids]
      rcases (AList.mem_insert _).mp present with rfl | present
      · exact List.mem_map.mpr ⟨tab, member, same⟩
      · exact shows.editors id present

end Shows

end Workspace

end Oxbin.Browser
