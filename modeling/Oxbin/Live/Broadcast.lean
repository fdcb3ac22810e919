import Oxbin.Live.Return
import Oxbin.Live.Revisions

/-!
# What an accepted operation means to clients

The server tells clients of every operation that it accepts.  The operation leads from what the
room has shown to what it shows then; nothing else changes that.
-/

namespace Oxbin.Live

open Livecollab Storage

/-- An entry of a list with one more entry. -/
theorem getElem?_concat {α : Type} {values : List α} {last value : α} {index : Nat}
    (found : (values ++ [last])[index]? = some value) :
    values[index]? = some value ∨ index = values.length ∧ value = last := by
  rcases lt_trichotomy index values.length with below | rfl | above
  · rw [List.getElem?_append_left below] at found
    exact .inl found
  · rw [List.getElem?_concat_length] at found
    exact .inr ⟨rfl, (Option.some_inj.mp found).symm⟩
  · rw [List.getElem?_eq_none (by simp; omega)] at found
    cases found

/-- What an answer tells clients to change. -/
def Answer.change : Answer → Option View.Change
  | .document accepted => if accepted.duplicate then none else some (.document accepted)
  | .metadata accepted => if accepted.duplicate then none else some (.metadata accepted)
  | _ => none

theorem Answer.change_of_stale {answer : Answer} (stale : ¬answer.Fresh) :
    answer.change = none := by
  cases answer with
  | document accepted => exact if_pos (eq_true_of_ne_false stale)
  | metadata accepted => exact if_pos (eq_true_of_ne_false stale)
  | _ => rfl

namespace Room

/-- What becomes of the tabs, and what clients are told. -/
inductive Tells (room room' : Room) (result : Except LiveError Answer) : Prop
  | nothing (view : room'.view = room.view)
      (silent : ∀ answer, result = .ok answer → answer.change = none)
  | change (answer : Answer) (change : View.Change) (answered : result = .ok answer)
      (told : answer.change = some change) (applied : room.view.apply change = .ok room'.view)
      (counts : ∀ known : KnownRevisions, known.Covers room.view →
        ∃ known', known.receive change = some known' ∧ known'.Covers room'.view)

/-- An accepted change of a document edits its tab. -/
theorem Admitted.view {room : Room} {operation : DocumentOperation} {document : Document}
    {changes : ChangeSet} {content : String}
    (admitted : room.Admitted operation document changes content)
    (wellFormed : changes.WellFormed) (listed : room.Listed) (fingerprint : String) (now : Time) :
    room.view.edit (acceptedDocument operation document changes content) =
      .ok (room.accepted operation fingerprint document changes content now).view := by
  obtain ⟨documents, equality⟩ := committed_document_eq
    (room.editDocument operation.documentID document content
      (document.snapshot.currentRevision + 1) now)
    (documentChange (acceptedDocument operation document changes content) now) fingerprint
    (acceptedDocument operation document changes content) (utf16Len document.snapshot.content)
  have order : (room.accepted operation fingerprint document changes content now).order =
      room.order := by
    rw [accepted, equality]
    rfl
  have revision : (room.accepted operation fingerprint document changes content
      now).snapshot.metadataRevision = room.snapshot.metadataRevision := by
    rw [accepted, equality]
    rfl
  unfold Room.view
  rw [order, revision]
  refine Screen.edit_of_tabs wellFormed (View.forall₂_tabs fun id member => ?_)
  obtain ⟨tab, present⟩ := Option.isSome_iff_exists.mp
    (isSome_tab.mpr ((listed.present id).mpr member))
  refine ⟨tab, present, _, (admitted.tab fingerprint now id).trans (congrArg _ present), ?_⟩
  have named := id_of_tab present
  by_cases own : id = operation.documentID
  · subst own
    obtain ⟨_, found, rfl⟩ := Option.map_eq_some_iff.mp present
    cases admitted.found.symm.trans found
    simp only [if_true]
    exact Screen.Tab.edit_next rfl rfl admitted.applied
  · simp only [own, if_false]
    have other : tab.id ≠ operation.documentID := named ▸ own
    exact if_pos other

variable {room room' : Room} {result : Except LiveError Answer} {annals : Annals}

/-- An accepted operation on the metadata arranges the tabs. -/
theorem Arrangement.view {operation : MetadataOperation} {now : Time} {effect : MetadataEffect}
    (arrangement : room.Arrangement annals effect room')
    (change : room.MetadataChange operation now effect) (listed : room.Listed)
    (identified : room.Identified) (recollects : room.Recollects annals) :
    room.view.arrange { room.acceptedMetadata operation effect with state := room'.state } =
      .ok room'.view := by
  have current : room'.shown (annals.log room') (arrangedVersion operation effect room.current) =
      room'.shown (annals.log room') room'.current := by
    refine shown_congr_version fun id member => ?_
    rw [arrangement.order] at member
    rw [arrangement.current]
    rcases (change.rearranged listed).old_or_new member with ⟨old, other⟩ | ⟨kind, own, zero⟩
    · rw [arrangedVersion, if_neg other, current_of_text
        ((change.rearranged listed).text listed old member)]
    · rw [arrangedVersion, if_pos ⟨kind, own⟩, zero]
  rw [recollects.view_eq, arrangement.recollects.view_eq, ← current]
  exact arrangement.arrange change listed identified recollects room.current (.inr rfl)

theorem Progress.tells (progress : room.Progress result room') (listed : room.Listed)
    (identified : room.Identified) (recollects : room.Recollects annals) :
    room.Tells room' result := by
  cases progress with
  | still result room' same stale =>
      exact .nothing same.view fun answer answered => Answer.change_of_stale (stale answer answered)
  | edited before same operation document changes content admitted canonical fingerprint now =>
      have edited := admitted.view canonical.wellFormed (same.listed listed) fingerprint now
      rw [same.view] at edited
      refine .change _ _ rfl rfl edited fun known covers => covers.edit edited ?_
      rw [listed.map_id_view, ← same.order, ← (same.listed listed).present]
      exact AList.lookup_isSome.mp (admitted.found ▸ rfl)
  | arranged before same operation now effect change record fingerprint room' commits =>
      have identified' : before.Identified := identified.of_documents same.documents
      have arrangement := change.arrangement identified' (same.recollects recollects) record
        fingerprint
      rw [← commits] at arrangement
      refine .change _ _ rfl rfl ?_ fun known covers => ?_
      · rw [← same.view]
        exact arrangement.view change (same.listed listed) identified' (same.recollects recollects)
      · rw [← same.view] at covers
        exact covers.arrange (same.listed listed) change arrangement _

end Room

/-- A document that is created becomes the last tab. -/
theorem Screen.created_of_arrange {view view' : View} {accepted : AcceptedMetadataOperation}
    (arranged : view.arrange accepted = .ok view') (kind : accepted.kind = "document_create") :
    ∃ document, (accepted.state.documents.find? fun document =>
        document.id == accepted.documentID) = some document ∧
      view'.tabs = view.tabs ++ [document.tab] := by
  obtain ⟨_, _, found⟩ := Screen.arrange_ok arranged
  rw [Screen.arranged, kind] at found
  obtain ⟨_, created⟩ := Option.ite_none_left_eq_some.mp found
  obtain ⟨document, present, tabs⟩ := Option.map_eq_some_iff.mp created
  exact ⟨document, present, tabs.symm⟩

/-- The call submits an operation and is answered with its result. -/
inductive Authority.Submits [Host] (authority : Authority) (action : Action) : Answer → Prop
  | document (session : Session) (operation : DocumentOperation)
      (accepted : AcceptedDocumentOperation)
      (call : action.call = .request session (.submitDocument operation))
      (performed : (authority.room.submitDocument authority.store session.participant
        session.connectionID session.generation operation action.now action.fault).2 =
          .ok accepted) :
      Submits authority action (.document accepted)
  | metadata (session : Session) (operation : MetadataOperation)
      (generator : Nat → Option String) (accepted : AcceptedMetadataOperation)
      (call : action.call = .request session (.applyMetadata operation generator))
      (performed : (authority.room.applyMetadata authority.store session.participant
        session.connectionID session.generation operation generator action.now action.fault).2 =
          .ok accepted) :
      Submits authority action (.metadata accepted)
  | other (answer : Answer) (document : ∀ accepted, answer ≠ .document accepted)
      (metadata : ∀ accepted, answer ≠ .metadata accepted) : Submits authority action answer

/-- Only submissions are answered with accepted operations. -/
theorem Authority.submits_of_perform [Host] {authority : Authority} {action : Action}
    {answer : Answer} (answered : (authority.perform action).2 = .ok answer) :
    authority.Submits action answer := by
  have wrapped {α : Type} {result : Except LiveError α} {wrap : α → Answer}
      (answered : result.map wrap = .ok answer) : ∃ value, result = .ok value ∧
        answer = wrap value := by
    cases result with
    | error error => cases answered
    | ok value => exact ⟨value, rfl, (Except.ok.inj answered).symm⟩
  obtain ⟨call, now, fault⟩ := action
  cases call with
  | request session request =>
      cases request with
      | submitDocument operation =>
          obtain ⟨accepted, performed, rfl⟩ := wrapped answered
          exact .document session operation accepted rfl performed
      | applyMetadata operation generator =>
          obtain ⟨accepted, performed, rfl⟩ := wrapped answered
          exact .metadata session operation generator accepted rfl performed
      | _ =>
          obtain ⟨_, _, rfl⟩ := wrapped answered
          exact .other _ (fun _ => Answer.noConfusion) fun _ => Answer.noConfusion
  | join identity capability candidate =>
      change (authority.join identity capability candidate now).2 = _ at answered
      unfold join at answered
      split at answered
      case h_1 => cases answered
      case h_2 =>
        obtain ⟨_, _, rfl⟩ := wrapped answered
        exact .other _ (fun _ => Answer.noConfusion) fun _ => Answer.noConfusion
  | shutdown =>
      obtain ⟨_, _, rfl⟩ := wrapped answered
      exact .other _ (fun _ => Answer.noConfusion) fun _ => Answer.noConfusion
  | _ =>
      cases answered
      exact .other _ (fun _ => Answer.noConfusion) fun _ => Answer.noConfusion

namespace Stage

variable [Host] {options : HubOptions} {stage : Stage} {annals : Annals}

/-- Whatever is called, clients are told what they need to follow. -/
theorem Led.tells (lived : Lived options stage annals) {action : Action}
    (possible : action.Possible stage.issued) :
    stage.authority.room.Tells (stage.step action).authority.room
      (stage.authority.perform action).2 :=
  (Authority.perform_progress lived.settled.consistent.formed lived.settled.clean possible).tells
    lived.settled.consistent.formed.listed lived.settled.consistent.formed.identified
    lived.recollects

/-- The state in the answer to an accepted operation on the metadata is that of the room. -/
theorem state_of_metadata (stage : Stage) {action : Action} {accepted : AcceptedMetadataOperation}
    (answered : (stage.authority.perform action).2 = .ok (.metadata accepted))
    (fresh : accepted.duplicate = false) :
    accepted.state = (stage.step action).authority.room.state := by
  cases Authority.submits_of_perform answered with
  | other _ _ metadata => exact absurd rfl (metadata accepted)
  | metadata session operation generator _ call performed =>
      obtain ⟨before, _, ends⟩ := stage.authority.room.applyMetadata_outcome stage.authority.store
        session.participant session.connectionID session.generation operation generator action.now
        action.fault
      have step : (stage.step action).authority = (stage.authority.room.applyMetadata
          stage.authority.store session.participant session.connectionID session.generation
          operation generator action.now action.fault).1 := by
        rw [Stage.step, Authority.perform, call]
        rfl
      rw [step]
      generalize stage.authority.room.applyMetadata stage.authority.store session.participant
        session.connectionID session.generation operation generator action.now action.fault =
          outcome at performed ends
      cases ends with
      | refused => cases performed
      | repeated =>
          cases performed
          cases fresh
      | accepted effect store' authority =>
          cases performed
          rfl

/-- A document that has just been created is the last one, at revision 0. -/
theorem Led.created_document (lived : Lived options stage annals) {action : Action}
    (possible : action.Possible stage.issued) {accepted : AcceptedMetadataOperation}
    (answered : (stage.authority.perform action).2 = .ok (.metadata accepted))
    (fresh : accepted.duplicate = false) (kind : accepted.kind = "document_create") :
    ∃ document, (accepted.state.documents.find? fun document =>
        document.id == accepted.documentID) = some document ∧
      document.revision = 0 ∧ document.position = stage.authority.room.order.length := by
  have apart : stage.authority.Apart action := by
    intro store elsewhere
    cases Authority.submits_of_perform answered with
    | metadata session operation generator accepted call => cases call.symm.trans elsewhere
    | other _ _ metadata => exact absurd rfl (metadata accepted)
  have lived' := Led.step stage annals action lived possible apart trivial
  have formed := lived.settled.consistent.formed
  have formed' := lived'.settled.consistent.formed
  have state := stage.state_of_metadata answered fresh
  have told : (Answer.metadata accepted).change = some (.metadata accepted) := by
    rw [Answer.change, fresh]
    rfl
  cases lived.tells possible with
  | nothing view silent =>
      rw [silent _ answered] at told
      cases told
  | change answer change answered' told' applied counts =>
      cases answered.symm.trans answered'
      cases told.symm.trans told'
      obtain ⟨document, found, tabs⟩ := Screen.created_of_arrange applied kind
      have named : document.id = accepted.documentID := by
        simpa using List.find?_some found
      have member : document.tab ∈ (stage.step action).authority.room.view.tabs := by
        rw [tabs]
        exact List.mem_append_right _ (List.mem_singleton_self _)
      refine ⟨document, found, ?_, ?_⟩
      · obtain ⟨known, received, covers⟩ := counts _
          (KnownRevisions.covers_known (formed.listed.map_id_view ▸ formed.listed.nodup))
        rw [KnownRevisions.receive, if_pos kind] at received
        obtain ⟨_, equality⟩ := Option.ite_none_right_eq_some.mp received
        have covered : (stage.authority.room.view.known.documents.insert accepted.documentID
            0).lookup document.id = some document.revision := by
          have shown := covers.2 _ member
          rwa [← Option.some_inj.mp equality] at shown
        rw [named, AList.lookup_insert] at covered
        exact (Option.some_inj.mp covered).symm
      · have order : (stage.step action).authority.room.order =
            stage.authority.room.order ++ [document.id] := by
          rw [← formed'.listed.map_id_view, tabs, List.map_append, formed.listed.map_id_view]
          rfl
        have nodup := formed'.listed.nodup
        rw [order] at nodup
        obtain ⟨place, position, listed⟩ := formed'.identified.state_position
          (state ▸ List.mem_of_find?_eq_some found)
        rw [order] at listed
        rw [position]
        rcases getElem?_concat listed with early | ⟨last, _⟩
        · exact absurd (List.mem_singleton_self _)
            ((List.nodup_append.mp nodup).2.2 _ (List.mem_of_getElem? early) _ · rfl)
        · rw [last]

/-- A call that tells clients nothing leaves the view alone. -/
theorem Led.silent_view (lived : Lived options stage annals) {action : Action}
    (possible : action.Possible stage.issued)
    (silent : ∀ answer, (stage.authority.perform action).2 = .ok answer → answer.change = none) :
    (stage.step action).authority.room.view = stage.authority.room.view := by
  cases lived.tells possible with
  | nothing view => exact view
  | change answer change answered told =>
      rw [silent answer answered] at told
      cases told

/-- Whatever a client knows, `bridge` asks for a new snapshot or counts on to the present. -/
theorem Led.receive_bridge (lived : Lived options stage annals)
    {participantID connectionID : String} {generation : Nat} {known : KnownRevisions} {now : Time}
    {bridge : BridgeResult} (answered : (stage.authority.room.bridge participantID connectionID
      generation known now).2 = .ok bridge) (bridged : bridge.resync = false) :
    ∃ known', bridge.changes.foldlM KnownRevisions.receive known = some known' ∧
      known'.Covers stage.authority.room.view := by
  have formed := lived.settled.consistent.formed
  obtain ⟨room, same, rfl⟩ := Room.bridge_ok answered
  rw [← same.view]
  exact KnownRevisions.receive_bridge (same.listed formed.listed) (same.histories formed)
    (same.recollects lived.recollects) (lived.minuted.sameTabs same) bridged

/-- `bridge` returns no duplicates. -/
theorem Led.bridge_fresh (lived : Lived options stage annals)
    {participantID connectionID : String} {generation : Nat} {known : KnownRevisions} {now : Time}
    {bridge : BridgeResult} (answered : (stage.authority.room.bridge participantID connectionID
      generation known now).2 = .ok bridge) (bridged : bridge.resync = false) :
    (∀ accepted ∈ bridge.metadataChanges, accepted.duplicate = false) ∧
      ∀ accepted ∈ bridge.documentChanges, accepted.duplicate = false := by
  have formed := lived.settled.consistent.formed
  obtain ⟨room, same, rfl⟩ := Room.bridge_ok answered
  have minuted := lived.minuted.sameTabs same
  obtain ⟨⟨seen, history⟩, _⟩ := Room.bridge_spec (same.listed formed.listed)
    (same.histories formed) (same.recollects lived.recollects) minuted bridged
  refine ⟨fun accepted member => minuted.fresh accepted ?_, fun accepted member =>
    (room.documentChanges_spec known accepted member).1⟩
  rw [history]
  exact List.mem_append_right seen member

theorem Led.reload_view (lived : Lived options stage annals) {snapshot : RoomSnapshot} {now : Time}
    {store : Storage.Store} {room : Room}
    (read : Storage.Store.getRoomSnapshot stage.authority.store
      stage.authority.room.snapshot.slug now false = .ok snapshot)
    (load : Room.newRoom stage.authority.store snapshot options .none = (store, .ok room)) :
    room.view = stage.authority.room.view := by
  obtain ⟨tab, order, revision, _⟩ := lived.reloaded read load
  unfold Room.view
  rw [tab, order, revision]

end Stage

end Oxbin.Live
