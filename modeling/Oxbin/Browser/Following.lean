import Oxbin.Browser.Arranging
import Oxbin.Httpapi.Publishing

/-!
# Browsers follow

What a peer is sent takes a browser from the view with which it has joined to the view of the room.
On the way its user may open and edit documents.
-/

namespace Oxbin.Browser

open Livecollab Live Httpapi Transform

/-! ## Other events -/

/-- The types of the events that change the documents. -/
def authorityTypes : List String :=
  ["changes", "document_created", "document_updated", "document_deleted", "document_reordered"]

/-- A message that does not change the documents. -/
def Silent (data : Json) : Prop :=
  ∀ type ∈ authorityTypes, string (data.get? "type") ≠ some type

/-- The event changes the documents. -/
def LiveWireEvent.authoritative : LiveWireEvent → Bool
  | .changes _ _ _ _ _ _ | .documentCreated _ _ _ _ | .documentUpdated _ _ _ _ _ _
  | .documentDeleted _ _ _ _ | .documentReordered _ _ _ _ => true
  | _ => false

theorem Silent.decode {data : Json} (silent : Silent data) {event : LiveWireEvent}
    (decoded : decodeLiveWireEvent data = some event) : event.authoritative = false := by
  obtain ⟨type, read, decoded⟩ := Option.bind_eq_some_iff.mp decoded
  split at decoded
  case h_1 =>
    simp only [Option.bind_eq_bind, Option.bind_eq_some_iff, Option.some.injEq] at decoded
    obtain ⟨_, _, _, _, _, _, _, _, _, _, _, _, _, _, _, _, _, _, rfl⟩ := decoded
    rfl
  case h_2 | h_3 | h_4 | h_5 | h_6 => exact absurd read (silent _ (by decide))
  case h_10 | h_12 | h_15 =>
    simp only [Option.bind_eq_bind, Option.bind_eq_some_iff, Option.some.injEq] at decoded
    obtain ⟨_, _, _, _, rfl⟩ := decoded
    rfl
  case h_16 => cases decoded
  all_goals
    obtain ⟨_, _, rfl⟩ := Option.map_eq_some_iff.mp decoded
    rfl

theorem silent_joined (result : JoinResult) (connectionID : String) :
    Silent (Httpapi.Event.joined result connectionID).data := by
  intro type member same
  have read : string ((Httpapi.Event.joined result connectionID).data.get? "type") = some "joined" ∨
      string ((Httpapi.Event.joined result connectionID).data.get? "type") = some "error" := by
    change string ((encodeLiveWireEvent (liveJoinedEvent result connectionID)).get? "type") = _ ∨
      string ((encodeLiveWireEvent (liveJoinedEvent result connectionID)).get? "type") = _
    cases encoded : liveJoinedEvent result connectionID with
    | none => exact .inr rfl
    | some data =>
        simp only [liveJoinedEvent, Option.bind_eq_bind, Option.bind_eq_some_iff,
          Option.some.injEq] at encoded
        obtain ⟨_, _, _, _, _, _, rfl⟩ := encoded
        exact .inl (by simp [encodeLiveWireEvent])
  rcases read with read | read <;> cases read.symm.trans same <;> exact absurd member (by decide)

theorem silent_resync : Silent Httpapi.Event.resync.data := by
  intro type member same
  have read : string (Httpapi.Event.resync.data.get? "type") = some "status" := rfl
  cases read.symm.trans same
  exact absurd member (by decide)

namespace Workspace

variable {workspace workspace' : Workspace} {view view' : View}

/-- The part of a workspace that views are compared with. -/
def shown (workspace : Workspace) :
    Int × List LiveRoomDocument × List LiveRoomDocument × Keyed Tab :=
  (workspace.metadataRevision, workspace.documents, workspace.rendered, workspace.editors)

theorem Shows.congr (shows : workspace.Shows view) (same : workspace'.shown = workspace.shown) :
    workspace'.Shows view := by
  obtain ⟨clientID, documents, rendered, editors, metadataRevision⟩ := workspace'
  cases same
  exact ⟨shows.revision, shows.documents, shows.rendered, shows.editors, shows.distinct⟩

theorem shown_replayPendingMetadata (workspace : Workspace) (sent : Bool) :
    (workspace.replayPendingMetadata sent).shown = workspace.shown := by
  unfold replayPendingMetadata
  split
  · rfl
  · split <;> rfl

theorem shown_recoverOperationError (workspace : Workspace) (code : String)
    (operationID status : Option String) :
    (workspace.recoverOperationError code operationID status).2.shown = workspace.shown := by
  simp only [recoverOperationError]
  split
  · rfl
  · split
    · rfl
    · split <;> rfl

/-- A message that does not change the documents. -/
theorem Shows.silent [Editor] (shows : workspace.Shows view) (sent : Bool) {data : Json}
    (silent : Silent data) :
    ∃ flag workspace', workspace.onMessage sent data = .ok (flag, workspace') ∧
      workspace'.Shows view := by
  unfold onMessage
  split
  case h_1 => exact ⟨true, workspace, rfl, shows⟩
  case h_2 event decoded =>
    have silent := silent.decode decoded
    cases event with
    | changes | documentCreated | documentUpdated | documentDeleted | documentReordered =>
        cases silent
    | joined =>
        exact ⟨true, _, rfl, shows.congr (shown_replayPendingMetadata _ sent)⟩
    | error code message operationID status =>
        simp only [handleEvent]
        split
        · exact ⟨true, _, rfl, shows.congr rfl⟩
        · exact ⟨_, _, rfl, shows.congr (shown_recoverOperationError _ _ _ _)⟩
    | status status => cases status <;> exact ⟨_, _, rfl, shows⟩
    | _ => exact ⟨true, workspace, rfl, shows⟩

/-! ## Changes of documents -/

/-- The numbers of an accepted change are integers for a browser, and the change cuts no character
of its document. -/
structure DocumentLegible (view : View) (accepted : AcceptedDocumentOperation) : Prop where
  base : Safe accepted.baseVersion
  revision : Safe accepted.revision
  fits : ∀ tab ∈ view.tabs, tab.id = accepted.documentID →
    accepted.changes.Fits WholeRunes (utf16Units tab.content)

/-- An accepted change that is sent again is one that the tabs have. -/
structure DocumentRepeated (view : View) (accepted : AcceptedDocumentOperation) : Prop where
  base : Safe accepted.baseVersion
  revision : Safe accepted.revision
  old : ∀ tab ∈ view.tabs, tab.id = accepted.documentID → accepted.revision ≤ tab.revision

/-- The message of an accepted change. -/
theorem Shows.hears_document [Editor] (shows : workspace.Shows view) (sent : Bool)
    {accepted : AcceptedDocumentOperation} (edited : view.edit accepted = .ok view')
    (legible : DocumentLegible view accepted) (own : workspace.Acknowledges accepted) :
    ∃ workspace', workspace.onMessage sent (documentWireEvent accepted) = .ok (true, workspace') ∧
      workspace'.Shows view' := by
  rw [onMessage, decode_documentWireEvent legible.base legible.revision]
  exact shows.applyDocumentEvent edited legible.fits own

/-- The message of a change that has been accepted before. -/
theorem Shows.document_repeated [Editor] (shows : workspace.Shows view) (sent : Bool)
    {accepted : AcceptedDocumentOperation} (repeated : DocumentRepeated view accepted) :
    ∃ flag workspace', workspace.onMessage sent (documentWireEvent accepted) =
      .ok (flag, workspace') ∧ workspace'.Shows view := by
  rw [onMessage, decode_documentWireEvent repeated.base repeated.revision]
  simp only [handleEvent, Workspace.applyDocumentEvent]
  cases read : Editor.fromJSON (encodeChangeSet accepted.changes) with
  | none => exact ⟨false, workspace, by simp only, shows⟩
  | some changes =>
      rcases find?_showing shows.documents accepted.documentID with
        ⟨_, missing⟩ | ⟨document, tab, found, member, same, shown⟩
      · exact ⟨true, workspace, by simp only [missing], shows⟩
      · obtain ⟨editors, editor, created, shows, copies, _⟩ := shows.getEditorState member shown
        have old : accepted.revision ≤ editor.version :=
          copies.version ▸ repeated.old tab member same
        exact ⟨true, settle { workspace with editors } accepted.operationID,
          by simp only [found, created, if_pos old], shows.congr rfl⟩

/-! ## Operations on the metadata -/

/-- An accepted operation on the metadata that is sent again is one that the tabs have. -/
structure MetadataRepeated (view : View) (accepted : AcceptedMetadataOperation) : Prop where
  revision : Safe accepted.revision
  announced : ∃ event, Announces accepted event
  old : accepted.revision < view.metadataRevision ∨
    accepted.revision = view.metadataRevision ∧
      if accepted.kind = "document_create" then accepted.documentID ∈ view.tabs.map Screen.Tab.id
      else Screen.arranged view.tabs accepted = some view.tabs

/-- The message of an operation on the metadata that has been accepted before. -/
theorem Shows.metadata_repeated [Editor] (shows : workspace.Shows view) (sent : Bool)
    {accepted : AcceptedMetadataOperation} (repeated : MetadataRepeated view accepted) :
    ∃ workspace', workspace.onMessage sent (metadataWireEvent accepted) =
      .ok (true, workspace') ∧ workspace'.Shows view := by
  have arranges {event : LiveWireEvent} (announces : Announces accepted event)
      {workspace' : Workspace} (applied : workspace.applyMetadataEvent accepted.operationID
        accepted.revision event = (true, workspace')) :
      workspace.onMessage sent (metadataWireEvent accepted) = .ok (true, workspace') := by
    rw [onMessage, decode_metadataWireEvent announces repeated.revision]
    cases announces <;> exact congrArg Except.ok applied
  obtain ⟨event, announces⟩ := repeated.announced
  rcases repeated.old with older | ⟨latest, idle⟩
  · have settles : workspace.applyMetadataEvent accepted.operationID accepted.revision event =
        (true, workspace.settle accepted.operationID) := by
      rw [applyMetadataEvent, shows.revision, if_pos older]
    exact ⟨_, arranges announces settles, shows.congr rfl⟩
  · obtain ⟨event, workspace', announces, done, arranged⟩ : ∃ event workspace',
        Announces accepted event ∧ workspace.arrange event = some workspace' ∧
          Arranged workspace' view.tabs := by
      split at idle
      case isTrue created =>
        cases announces with
        | create document kind found revision position =>
            have same := List.find?_some found
            have id : document.id = accepted.documentID := beq_iff_eq.mp same
            refine ⟨_, workspace, .create document kind found revision position, ?_, shows.arranged⟩
            have present : (workspace.documents.any fun other =>
                other.id == (roomDocument document).id) = true := by
              rw [← map_id_showing shows.documents] at idle
              obtain ⟨other, member, equal⟩ := List.mem_map.mp idle
              exact List.any_eq_true.mpr ⟨other, member, beq_iff_eq.mpr (equal.trans id.symm)⟩
            simp only [arrange, present, if_true]
        | update kind | delete kind | reorder kind =>
            exact absurd (kind.symm.trans created) (by decide)
      case isFalse other =>
          exact shows.announced idle ⟨repeated.revision, fun kind => absurd kind other⟩
    have current : workspace.applyMetadataEvent accepted.operationID accepted.revision event =
        (true, workspace'.finish accepted.operationID view.metadataRevision) := by
      rw [applyMetadataEvent, shows.revision, latest, if_neg (by omega), if_neg (by omega), done]
    exact ⟨_, arranges announces current, shows_finish arranged accepted.operationID⟩

/-! ## Events -/

/-- What a browser can make of an event, if it shows the view. -/
def Legible (view : View) : Httpapi.Event → Prop
  | .document accepted =>
      if accepted.duplicate then DocumentRepeated view accepted else DocumentLegible view accepted
  | .metadata accepted =>
      if accepted.duplicate then MetadataRepeated view accepted else MetadataLegible accepted
  | .notice data => Silent data
  | .joined _ _ | .resync => True

/-- The event of a peer is no operation of the browser itself, or it is its first pending one. -/
def Awaits (workspace : Workspace) : Httpapi.Event → Prop
  | .document accepted => workspace.Acknowledges accepted
  | _ => True

/-- A browser handles an event. -/
theorem Shows.hears [Editor] (shows : workspace.Shows view) (sent : Bool) {event : Httpapi.Event}
    (legible : Legible view event) (awaits : workspace.Awaits event)
    (applied : event.change.toList.foldlM Screen.apply view = .ok view') :
    ∃ flag workspace', workspace.onMessage sent event.data = .ok (flag, workspace') ∧
      workspace'.Shows view' ∧ (event.change.isSome → flag = true) := by
  have silent (same : event.change = none) (quiet : ∃ flag workspace',
      workspace.onMessage sent event.data = .ok (flag, workspace') ∧ workspace'.Shows view) :
      ∃ flag workspace', workspace.onMessage sent event.data = .ok (flag, workspace') ∧
        workspace'.Shows view' ∧ (event.change.isSome → flag = true) := by
    obtain ⟨flag, workspace', handled, shows⟩ := quiet
    rw [same] at applied ⊢
    cases applied
    exact ⟨flag, workspace', handled, shows, fun told => nomatch told⟩
  cases event with
  | joined result connectionID => exact silent rfl (shows.silent sent (silent_joined _ _))
  | resync => exact silent rfl (shows.silent sent silent_resync)
  | notice data => exact silent rfl (shows.silent sent legible)
  | document accepted =>
      cases duplicate : accepted.duplicate with
      | true =>
          simp only [Legible, duplicate, if_true] at legible
          refine silent ?_ (shows.document_repeated sent legible)
          simp only [Httpapi.Event.change, duplicate, if_true]
      | false =>
          simp only [Legible, duplicate, Bool.false_eq_true, if_false] at legible
          have told : (Httpapi.Event.document accepted).change = some (.document accepted) := by
            simp only [Httpapi.Event.change, duplicate, Bool.false_eq_true, if_false]
          have edited : view.edit accepted = .ok view' := by
            rw [told] at applied
            simpa [Screen.apply] using applied
          obtain ⟨workspace', handled, shows⟩ := shows.hears_document sent edited legible awaits
          exact ⟨true, workspace', handled, shows, fun _ => rfl⟩
  | metadata accepted =>
      cases duplicate : accepted.duplicate with
      | true =>
          simp only [Legible, duplicate, if_true] at legible
          obtain ⟨workspace', handled, shows⟩ := shows.metadata_repeated sent legible
          refine silent ?_ ⟨true, workspace', handled, shows⟩
          simp only [Httpapi.Event.change, duplicate, if_true]
      | false =>
          simp only [Legible, duplicate, Bool.false_eq_true, if_false] at legible
          have told : (Httpapi.Event.metadata accepted).change = some (.metadata accepted) := by
            simp only [Httpapi.Event.change, duplicate, Bool.false_eq_true, if_false]
          have arranged : view.arrange accepted = .ok view' := by
            rw [told] at applied
            simpa [Screen.apply] using applied
          obtain ⟨workspace', handled, shows⟩ := shows.hears_metadata sent arranged legible
          exact ⟨true, workspace', handled, shows, fun _ => rfl⟩

/-! ## Runs -/

/-- What happens in a browser between two messages. -/
inductive Acts [Editor] (workspace : Workspace) : Workspace → Prop
  | opens (document : LiveRoomDocument) (member : document ∈ workspace.documents) :
      Acts workspace (workspace.getEditorState document).1
  | edits (documentID : String) (editor : Tab) (update : LocalUpdate)
      (found : workspace.editors.lookup documentID = some editor)
      (fits : update.changes.Fits WholeRunes editor.text) :
      Acts workspace { workspace with
        editors := workspace.editors.insert documentID (editor.edit update) }
  | submits (documentID : String) (editor : Tab) (submission : Submission)
      (found : workspace.editors.lookup documentID = some editor) :
      Acts workspace { workspace with
        editors := workspace.editors.insert documentID { editor with submission } }
  | rerenders : Acts workspace workspace.rerender
  /-- Operations are begun, sent, given up or cleared away. -/
  | works (workspace' : Workspace) (client : workspace'.clientID = workspace.clientID)
      (same : workspace'.shown = workspace.shown) : Acts workspace workspace'

/-- A browser has handled the messages, and its user has been active at any time. -/
inductive Hears [Editor] (start : Workspace) : List Httpapi.Event → Workspace → Prop
  | start : Hears start [] start
  | acts (heard : List Httpapi.Event) (workspace workspace' : Workspace)
      (hears : Hears start heard workspace) (acts : workspace.Acts workspace') :
      Hears start heard workspace'
  | message (heard : List Httpapi.Event) (workspace workspace' : Workspace)
      (event : Httpapi.Event) (sent flag : Bool) (hears : Hears start heard workspace)
      (awaits : workspace.Awaits event)
      (handled : workspace.onMessage sent event.data = .ok (flag, workspace')) :
      Hears start (heard ++ [event]) workspace'

/-- The editor of a tab is a copy of it. -/
theorem Shows.copies (shows : workspace.Shows view) {documentID : String} {editor : Tab}
    (found : workspace.editors.lookup documentID = some editor) :
    ∃ tab ∈ view.tabs, tab.id = documentID ∧ editor.Copies tab := by
  have present : documentID ∈ workspace.editors := by
    rw [← AList.lookup_isSome, found]
    rfl
  obtain ⟨listed, member, same⟩ := List.mem_map.mp (shows.editors documentID present)
  rcases find?_showing shows.documents documentID with ⟨absent, _⟩ | ⟨_, tab, _, member, same,
    shown⟩
  · exact absurd same (absent listed member)
  · exact ⟨tab, member, same, shown.opened editor (same ▸ found)⟩

theorem Shows.acts [Editor] (shows : workspace.Shows view) (acts : workspace.Acts workspace') :
    workspace'.Shows view := by
  cases acts with
  | opens document member =>
      obtain ⟨tab, present, shown⟩ := exists_forall₂ shows.documents member
      obtain ⟨editors, editor, created, shows, _⟩ := shows.getEditorState present shown
      rw [created]
      exact shows
  | edits documentID editor update found fits =>
      obtain ⟨tab, member, rfl, copies⟩ := shows.copies found
      exact shows.setEditor member ⟨copies.version, copies.synced, copies.coherent.edit fits⟩
  | submits documentID editor submission found =>
      obtain ⟨tab, member, rfl, copies⟩ := shows.copies found
      exact shows.setEditor member ⟨copies.version, copies.synced, copies.coherent.pending,
        copies.coherent.text⟩
  | rerenders =>
      exact ⟨shows.revision, shows.rendered, shows.rendered, shows.editors, shows.distinct⟩
  | works workspace' client same => exact shows.congr same

/-- Each of the events can be understood by a browser that shows what the earlier ones have led
to. -/
def AllLegible : View → List Httpapi.Event → Prop
  | _, [] => True
  | view, event :: events => Legible view event ∧
      ∀ view' ∈ (event.change.toList.foldlM Screen.apply view).toOption, AllLegible view' events

theorem filterMap_concat (heard : List Httpapi.Event) (event : Httpapi.Event) :
    (heard ++ [event]).filterMap Httpapi.Event.change =
      heard.filterMap Httpapi.Event.change ++ event.change.toList := by
  rw [List.filterMap_append, List.filterMap_cons, List.filterMap_nil]
  cases event.change <;> rfl

/-- The next event can be understood. -/
theorem AllLegible.legible {events heard : List Httpapi.Event} {event : Httpapi.Event}
    (legible : AllLegible view events) (early : heard ++ [event] <+: events)
    (applied : (heard.filterMap Httpapi.Event.change).foldlM Screen.apply view = .ok view') :
    Legible view' event := by
  obtain ⟨rest, rfl⟩ := early
  induction heard generalizing view with
  | nil =>
      cases applied
      exact legible.1
  | cons first heard induction =>
      have changes : (first :: heard).filterMap Httpapi.Event.change =
          first.change.toList ++ heard.filterMap Httpapi.Event.change := by
        rw [List.filterMap_cons]
        cases first.change <;> rfl
      rw [changes, List.foldlM_append] at applied
      cases reached : first.change.toList.foldlM Screen.apply view with
      | error error =>
          rw [reached] at applied
          cases applied
      | ok middle =>
          rw [reached] at applied
          exact induction applied (legible.2 middle (by rw [reached]; rfl))

section Run

variable {kind : View → Prop} {start : Workspace} {last : View} {events heard : List Httpapi.Event}

/-- The next event of a run. -/
theorem next_event
    (leads : Passage Screen.apply kind view (events.filterMap Httpapi.Event.change) last)
    (holds : kind view) {event : Httpapi.Event} (early : heard ++ [event] <+: events)
    (applied : (heard.filterMap Httpapi.Event.change).foldlM Screen.apply view = .ok view') :
    ∃ view'', event.change.toList.foldlM Screen.apply view' = .ok view'' ∧ kind view'' ∧
      ((heard ++ [event]).filterMap Httpapi.Event.change).foldlM Screen.apply view =
        .ok view'' := by
  obtain ⟨rest, rfl⟩ := early
  rw [List.filterMap_append] at leads
  obtain ⟨view'', reached, holds, _⟩ := leads.interrupt holds
  refine ⟨view'', ?_, holds, reached⟩
  rw [filterMap_concat, List.foldlM_append, applied] at reached
  exact reached

/-- Whatever the user does, the browser shows what the events have led to. -/
theorem Hears.shows [Editor] (hears : Hears start heard workspace) (shows : start.Shows view)
    (leads : Passage Screen.apply kind view (events.filterMap Httpapi.Event.change) last)
    (holds : kind view) (legible : AllLegible view events) (early : heard <+: events) :
    ∃ view', (heard.filterMap Httpapi.Event.change).foldlM Screen.apply view = .ok view' ∧
      kind view' ∧ workspace.Shows view' := by
  induction hears with
  | start => exact ⟨view, rfl, holds, shows⟩
  | acts heard workspace workspace' hears acts induction =>
      obtain ⟨view', applied, holds, shows⟩ := induction early
      exact ⟨view', applied, holds, shows.acts acts⟩
  | message heard workspace workspace' event sent flag hears awaits handled induction =>
      obtain ⟨view', applied, _, shows⟩ := induction ((List.prefix_append _ _).trans early)
      obtain ⟨view'', next, holds, reached⟩ := next_event leads holds early applied
      obtain ⟨flag', following, handled', shows, _⟩ :=
        shows.hears sent (legible.legible early applied) awaits next
      cases handled.symm.trans handled'
      exact ⟨view'', reached, holds, shows⟩

/-- No event on the documents asks for a new snapshot. -/
theorem Hears.accepts [Editor] (hears : Hears start heard workspace) (shows : start.Shows view)
    (leads : Passage Screen.apply kind view (events.filterMap Httpapi.Event.change) last)
    (holds : kind view) (legible : AllLegible view events) {event : Httpapi.Event}
    (early : heard ++ [event] <+: events) (awaits : workspace.Awaits event)
    (told : event.change.isSome) (sent : Bool) :
    ∃ workspace', workspace.onMessage sent event.data = .ok (true, workspace') := by
  obtain ⟨view', applied, _, shows⟩ :=
    hears.shows shows leads holds legible ((List.prefix_append _ _).trans early)
  obtain ⟨view'', next, _, _⟩ := next_event leads holds early applied
  obtain ⟨flag, workspace', handled, _, accepted⟩ :=
    shows.hears sent (legible.legible early applied) awaits next
  exact ⟨workspace', accepted told ▸ handled⟩

end Run

/-! ## From the beginning -/

/-- The documents of a room are numbered by their places. -/
theorem normalize_state (room : Room) :
    normalizeLiveDocuments (room.state.documents.map roomDocument) =
      room.state.documents.map roomDocument := by
  have numbers : room.order.zipIdx.Pairwise fun left right => left.2 < right.2 := by
    rw [← List.pairwise_map, List.zipIdx_map_snd]
    exact List.pairwise_lt_range'
  refine List.mergeSort_of_pairwise (List.pairwise_map.mpr (List.pairwise_filterMap.mpr ?_))
  refine numbers.imp fun {left right} less first found second found' => ?_
  obtain ⟨_, _, rfl⟩ := Option.map_eq_some_iff.mp found
  obtain ⟨_, _, rfl⟩ := Option.map_eq_some_iff.mp found'
  exact decide_eq_true (Int.ofNat_le.mpr less.le)

/-- A browser that has just fetched the room shows it. -/
theorem mounted_shows {room : Room} (formed : room.Formed) (clientID : String)
    (plain : ∀ document ∈ room.state.documents,
      CodeMirror.carriageReturn ∉ utf16Units document.content) :
    (mounted clientID room.snapshot.metadataRevision
      (room.state.documents.map roomDocument)).Shows room.view := by
  have shown : List.Forall₂ (Showing ∅) (room.state.documents.map roomDocument) room.view.tabs := by
    rw [← formed.identified.state_tabs]
    refine List.forall₂_map_left_iff.mpr (List.forall₂_map_right_iff.mpr ?_)
    refine List.forall₂_same.mpr fun document member => ?_
    exact ⟨rfl, rfl, rfl, fun _ found => (nomatch found), fun _ =>
      ⟨rfl, rfl, plain document member⟩⟩
  rw [← normalize_state] at shown
  refine ⟨rfl, shown, shown, fun id present => ?_, ?_⟩
  · exact absurd present (AList.notMem_empty id)
  · rw [formed.listed.map_id_view]
    exact formed.order

section Follows

variable [Host] [Editor] {options : HubOptions} {limit : Int} {world : World} {annals : Annals}
  {start workspace : Workspace} {heard : List Httpapi.Event}

end Follows

/-! ## Playing -/

instance (data : Json) : Decidable (Silent data) :=
  inferInstanceAs (Decidable (∀ type ∈ authorityTypes, _))

instance (view : View) (accepted : AcceptedDocumentOperation) :
    Decidable (DocumentLegible view accepted) :=
  decidable_of_iff (Safe accepted.baseVersion ∧ Safe accepted.revision ∧
      ∀ tab ∈ view.tabs, tab.id = accepted.documentID →
        accepted.changes.Fits WholeRunes (utf16Units tab.content))
    ⟨fun ⟨base, revision, fits⟩ => ⟨base, revision, fits⟩,
      fun ⟨base, revision, fits⟩ => ⟨base, revision, fits⟩⟩

instance (view : View) (accepted : AcceptedDocumentOperation) :
    Decidable (DocumentRepeated view accepted) :=
  decidable_of_iff (Safe accepted.baseVersion ∧ Safe accepted.revision ∧
      ∀ tab ∈ view.tabs, tab.id = accepted.documentID → accepted.revision ≤ tab.revision)
    ⟨fun ⟨base, revision, old⟩ => ⟨base, revision, old⟩,
      fun ⟨base, revision, old⟩ => ⟨base, revision, old⟩⟩

instance (accepted : AcceptedMetadataOperation) : Decidable (MetadataLegible accepted) :=
  decidable_of_iff (Safe accepted.revision ∧ (accepted.kind = "document_create" →
      ∀ document ∈ accepted.state.documents, document.id = accepted.documentID →
        Safe document.revision ∧ Safe document.position ∧
          CodeMirror.carriageReturn ∉ utf16Units document.content))
    ⟨fun ⟨revision, created⟩ => ⟨revision, created⟩, fun ⟨revision, created⟩ => ⟨revision, created⟩⟩

instance (view : View) (accepted : AcceptedMetadataOperation) :
    Decidable (MetadataRepeated view accepted) :=
  decidable_of_iff (Safe accepted.revision ∧ (∃ event, Announces accepted event) ∧
      (accepted.revision < view.metadataRevision ∨ accepted.revision = view.metadataRevision ∧
        if accepted.kind = "document_create" then accepted.documentID ∈ view.tabs.map Screen.Tab.id
        else Screen.arranged view.tabs accepted = some view.tabs))
    ⟨fun ⟨revision, announced, old⟩ => ⟨revision, announced, old⟩,
      fun ⟨revision, announced, old⟩ => ⟨revision, announced, old⟩⟩

instance (view : View) : DecidablePred (Legible view)
  | .document accepted => inferInstanceAs (Decidable (if accepted.duplicate then _ else _))
  | .metadata accepted => inferInstanceAs (Decidable (if accepted.duplicate then _ else _))
  | .notice data => inferInstanceAs (Decidable (Silent data))
  | .joined _ _ | .resync => inferInstanceAs (Decidable True)

instance decidableAllLegible : (events : List Httpapi.Event) → (view : View) →
    Decidable (AllLegible view events)
  | [], _ => inferInstanceAs (Decidable True)
  | _ :: events, _ =>
      have := decidableAllLegible events
      inferInstanceAs (Decidable (_ ∧ ∀ view' ∈ Except.toOption _, _))

instance (tab : Tab) (clientID authorID : String) (changes : ChangeSet) :
    Decidable (tab.Acknowledges clientID authorID changes) :=
  inferInstanceAs (Decidable (_ → ∀ update ∈ tab.pending.head?, _))

instance (workspace : Workspace) : DecidablePred workspace.Awaits
  | .document accepted => inferInstanceAs (Decidable
      (∀ editor ∈ workspace.editors.lookup accepted.documentID, Tab.Acknowledges editor _ _ _))
  | .metadata _ | .notice _ | .joined _ _ | .resync => inferInstanceAs (Decidable True)

/-- A browser with the events that it has handled and those that are coming. -/
structure Listener where
  heard : List Httpapi.Event
  coming : List Httpapi.Event
  workspace : Workspace

/-- What can be played in a browser. -/
inductive Deed where
  | opens (documentID : String)
  | edits (documentID : String) (update : LocalUpdate)
  | submits (documentID : String)
  | hears

/-- The browser after a deed, where the deed is possible. -/
def Listener.perform [Editor] (listener : Listener) : Deed → Option Listener
  | .opens documentID => do
      let document ← listener.workspace.documents.find? fun other => other.id == documentID
      some { listener with workspace := (listener.workspace.getEditorState document).1 }
  | .edits documentID update => do
      let editor ← listener.workspace.editors.lookup documentID
      if update.changes.Fits WholeRunes editor.text then
        some { listener with workspace := { listener.workspace with
          editors := listener.workspace.editors.insert documentID (editor.edit update) } }
      else none
  | .submits documentID => do
      let editor ← listener.workspace.editors.lookup documentID
      let operation ← editor.message listener.workspace.clientID documentID
      some { listener with workspace := { listener.workspace with
        editors := listener.workspace.editors.insert documentID
          { editor with submission := .sent operation } } }
  | .hears => do
      let event ← listener.coming.head?
      let handled ← (listener.workspace.onMessage true event.data).toOption
      if listener.workspace.Awaits event then
        some ⟨listener.heard ++ [event], listener.coming.tail, handled.2⟩
      else none

/-- A browser has handled what it has heard, of some events. -/
structure Listener.Follows [Editor] (start : Workspace) (events : List Httpapi.Event)
    (listener : Listener) : Prop where
  hears : Hears start listener.heard listener.workspace
  events : listener.heard ++ listener.coming = events

theorem Listener.Follows.perform [Editor] {start : Workspace} {events : List Httpapi.Event}
    {listener listener' : Listener} (follows : listener.Follows start events) {deed : Deed}
    (performed : listener.perform deed = some listener') : listener'.Follows start events := by
  cases deed with
  | opens documentID =>
      simp only [Listener.perform, Option.bind_eq_bind, Option.bind_eq_some_iff] at performed
      obtain ⟨document, found, equality⟩ := performed
      cases equality
      exact ⟨.acts _ _ _ follows.hears (.opens document (List.mem_of_find?_eq_some found)),
        follows.events⟩
  | edits documentID update =>
      simp only [Listener.perform, Option.bind_eq_bind, Option.bind_eq_some_iff] at performed
      obtain ⟨editor, found, performed⟩ := performed
      obtain ⟨fits, equality⟩ := Option.ite_none_right_eq_some.mp performed
      cases equality
      exact ⟨.acts _ _ _ follows.hears (.edits documentID editor update found fits),
        follows.events⟩
  | submits documentID =>
      simp only [Listener.perform, Option.bind_eq_bind, Option.bind_eq_some_iff] at performed
      obtain ⟨editor, found, operation, _, equality⟩ := performed
      cases equality
      exact ⟨.acts _ _ _ follows.hears (.submits documentID editor (.sent operation) found),
        follows.events⟩
  | hears =>
      simp only [Listener.perform, Option.bind_eq_bind, Option.bind_eq_some_iff] at performed
      obtain ⟨event, head, ⟨flag, workspace⟩, handled, performed⟩ := performed
      obtain ⟨awaits, equality⟩ := Option.ite_none_right_eq_some.mp performed
      cases equality
      obtain ⟨later, coming⟩ := List.head?_eq_some_iff.mp head
      refine ⟨.message _ _ _ event true flag follows.hears awaits (ok_of_toOption handled), ?_⟩
      rw [← follows.events, coming, List.append_assoc]
      rfl

theorem Listener.Follows.performed [Editor] {start : Workspace} {events : List Httpapi.Event}
    {listener listener' : Listener} (follows : listener.Follows start events) {deeds : List Deed}
    (performed : deeds.foldlM Listener.perform listener = some listener') :
    listener'.Follows start events := by
  induction deeds generalizing listener with
  | nil =>
      cases performed
      exact follows
  | cons deed deeds induction =>
      rw [List.foldlM_cons] at performed
      obtain ⟨middle, first, rest⟩ := Option.bind_eq_some_iff.mp performed
      exact induction (follows.perform first) rest

/-- The participant of the small room with what is sent to the first peer. -/
def smallListener (world : World) (link : Link) : Listener :=
  ⟨[], world.stream 0 link, mounted "page" 0
    ((smallAuthority defaultHubOptions).room.state.documents.map roomDocument)⟩

/-- The participant writes in front of the document and behind it and submits the first update. -/
def smallDeeds : List Deed :=
  [.opens "main", .edits "main" ⟨"op-2", ⟨[⟨0, 1, "x"⟩, ⟨2, -1, ""⟩]⟩⟩,
    .edits "main" ⟨"op-4", ⟨[⟨3, -1, ""⟩, ⟨0, 1, "y"⟩]⟩⟩, .submits "main", .hears, .hears, .hears,
    .hears]

/-- The text of the document in a browser, with the number of the pending updates. -/
def typed (workspace : Workspace) : Option (List UInt16 × Nat) :=
  (workspace.editors.lookup "main").map fun editor => (editor.text, editor.pending.length)

/-- The participant can understand everything that its peer is sent. -/
def Tuned (world : World) (link : Link) : Prop :=
  (link.peer.listed = true ∧ link.peer.stopOnce = false) ∧
    link.view = some (smallAuthority defaultHubOptions).room.view ∧
    AllLegible (smallAuthority defaultHubOptions).room.view (world.stream 0 link)

instance (world : World) (link : Link) : Decidable (Tuned world link) :=
  inferInstanceAs (Decidable (_ ∧ _ ∧ _))

theorem smallDeeds_done : ∃ world link listener,
    @World.play sampleHost 1048576 World.smallWorld World.smallBusiness = some world ∧
      world.links[0]? = some link ∧ Tuned world link ∧
      smallDeeds.foldlM (@Listener.perform codeMirror) (smallListener world link) =
        some listener ∧
      listener.heard.length = 4 ∧ listener.coming.length = 0 ∧
      typed listener.workspace = some (utf16Units "xabcy", 1) := by
  have done : (@World.play sampleHost 1048576 World.smallWorld World.smallBusiness).any
      (fun world => (world.links[0]?).any fun link => decide (Tuned world link) &&
        (smallDeeds.foldlM (@Listener.perform codeMirror) (smallListener world link)).any
          fun listener => decide (listener.heard.length = 4 ∧ listener.coming.length = 0 ∧
            typed listener.workspace = some (utf16Units "xabcy", 1))) = true := by
    decide +kernel
  obtain ⟨world, played, done⟩ := Option.any_eq_true _ _ |>.mp done
  obtain ⟨link, found, done⟩ := Option.any_eq_true _ _ |>.mp done
  obtain ⟨tuned, done⟩ := Bool.and_eq_true_iff.mp done
  obtain ⟨listener, performed, done⟩ := Option.any_eq_true _ _ |>.mp done
  exact ⟨world, link, listener, played, found, of_decide_eq_true tuned, performed,
    of_decide_eq_true done⟩

end Workspace

end Oxbin.Browser
