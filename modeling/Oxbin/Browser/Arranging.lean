import Oxbin.Browser.Mirroring

/-!
# The order of the documents

An accepted operation on the metadata takes a workspace from the tabs of one view to those of the
next.
-/

namespace Oxbin.Browser

open Livecollab Live Httpapi

/-! ## Places -/

section Places

variable {order : List String}

/-- The places of an order count it. -/
theorem placeOf_getElem (distinct : order.Nodup) {index : Nat} (small : index < order.length) :
    Workspace.placeOf order order[index] = index := by
  have bound : order.length - 1 - index < order.reverse.length := by
    rw [List.length_reverse]
    omega
  have mirrored : order[index] = order.reverse[order.length - 1 - index] := by
    rw [List.getElem_reverse]
    congr 1
    omega
  rw [Workspace.placeOf, mirrored, (List.nodup_reverse.mpr distinct).idxOf_getElem _ bound]
  omega

theorem pairwise_placeOf (distinct : order.Nodup) :
    order.Pairwise fun left right =>
      Workspace.placeOf order left ≤ Workspace.placeOf order right := by
  rw [List.pairwise_iff_getElem]
  intro left right before small less
  rw [placeOf_getElem distinct, placeOf_getElem distinct]
  omega

theorem placeOf_injective {left right : String} (member : left ∈ order)
    (same : Workspace.placeOf order left = Workspace.placeOf order right) : left = right := by
  have found : left ∈ order.reverse := List.mem_reverse.mpr member
  refine (List.idxOf_inj found).mp ?_
  unfold Workspace.placeOf at same
  omega

theorem eraseDups_of_nodup {values : List String} (distinct : values.Nodup) :
    values.eraseDups = values := by
  induction values with
  | nil => rfl
  | cons value values induction =>
      obtain ⟨new, distinct⟩ := List.nodup_cons.mp distinct
      have kept : (values.filter fun other => !other == value) = values := by
        refine List.filter_eq_self.mpr fun other member => ?_
        have apart : other ≠ value := by
          rintro rfl
          exact new member
        rw [beq_false_of_ne apart]
        rfl
      rw [List.eraseDups_cons, kept, induction distinct]

end Places

/-! ## The documents after an operation -/

/-- The documents show the tabs, and the editors are among them. -/
structure Arranged (workspace : Workspace) (tabs : List View.Tab) : Prop where
  documents : List.Forall₂ (Showing workspace.editors) workspace.documents tabs
  editors : ∀ id ∈ workspace.editors, id ∈ tabs.map Screen.Tab.id
  distinct : (tabs.map Screen.Tab.id).Nodup

section Arranged

variable {workspace : Workspace} {tabs : List View.Tab}

/-- A created document. -/
theorem Arranged.create [Editor] (arranged : Arranged workspace tabs)
    (operationID clientID : String) (metadataRevision : Int) {document : DocumentState}
    (new : document.id ∉ tabs.map Screen.Tab.id)
    (plain : CodeMirror.carriageReturn ∉ utf16Units document.content) :
    ∃ editors documents, workspace.arrange (.documentCreated operationID clientID metadataRevision
        (roomDocument document)) = some { workspace with editors, documents } ∧
      Arranged { workspace with editors, documents } (tabs ++ [document.tab]) := by
  have missing : (workspace.documents.any fun other => other.id == document.id) = false := by
    refine List.any_eq_false.mpr fun other member same => new ?_
    rw [← map_id_showing arranged.documents, ← beq_iff_eq.mp same]
    exact List.mem_map_of_mem member
  have absent : workspace.editors.lookup document.id = none :=
    AList.lookup_eq_none.mpr fun present => new (arranged.editors _ present)
  refine ⟨_, _, by simp only [Workspace.arrange, roomDocument, missing, Bool.false_eq_true,
    if_false, Workspace.getEditorState, absent]; rfl, ?_, ?_, ?_⟩
  · refine List.rel_append (forall₂_imp arranged.documents ?_) (.cons ?_ .nil)
    · intro other tab member shown
      refine shown.congr (AList.lookup_insert_ne ?_)
      rintro same
      exact new (same ▸ List.mem_map_of_mem member)
    · have fresh : Fresh (roomDocument document) document.tab := ⟨rfl, rfl, plain⟩
      exact {
        id := rfl
        name := rfl
        language := rfl
        opened := by
          intro editor found
          cases (AList.lookup_insert _).symm.trans found
          exact fresh.copies
        unopened := fun missing =>
          (Option.some_ne_none _ ((AList.lookup_insert _).symm.trans missing)).elim }
  · intro id present
    rw [List.map_append]
    rcases (AList.mem_insert _).mp present with rfl | present
    · exact List.mem_append_right _ (.head _)
    · exact List.mem_append_left _ (arranged.editors id present)
  · rw [List.map_append]
    exact List.Nodup.append arranged.distinct (List.nodup_singleton _)
      (List.disjoint_singleton.mpr new)

/-- A document gets another name or language. -/
theorem Arranged.update (arranged : Arranged workspace tabs) (documentID name language : String) :
    Arranged { workspace with
      documents := workspace.documents.map fun document =>
        if document.id = documentID then { document with name, language } else document }
      (tabs.map fun tab => if tab.id = documentID then { tab with name, language } else tab) := by
  have ids : (tabs.map fun tab => if tab.id = documentID then { tab with name, language }
      else tab).map Screen.Tab.id = tabs.map Screen.Tab.id := by
    rw [List.map_map]
    refine List.map_congr_left fun tab _ => ?_
    rw [Function.comp_apply]
    split <;> rfl
  refine ⟨?_, ids ▸ arranged.editors, ids ▸ arranged.distinct⟩
  refine List.forall₂_map_left_iff.mpr (List.forall₂_map_right_iff.mpr ?_)
  refine forall₂_imp arranged.documents fun document tab _ shown => ?_
  by_cases same : tab.id = documentID
  · rw [if_pos (shown.id.trans same), if_pos same]
    exact {
      id := shown.id
      name := rfl
      language := rfl
      opened := fun editor found => ⟨(shown.opened editor found).version,
        (shown.opened editor found).synced, (shown.opened editor found).coherent⟩
      unopened := fun missing => ⟨(shown.unopened missing).revision,
        (shown.unopened missing).content, (shown.unopened missing).plain⟩ }
  · rw [if_neg fun here => same (shown.id.symm.trans here), if_neg same]
    exact shown

/-- The places of the documents do not matter. -/
theorem showing_numbered {editors : Keyed Tab} {documents : List LiveRoomDocument}
    (showing : List.Forall₂ (Showing editors) documents tabs) :
    List.Forall₂ (Showing editors) (Workspace.numbered documents) tabs := by
  unfold Workspace.numbered
  generalize 0 = first
  induction showing generalizing first with
  | nil => exact .nil
  | cons shown _ induction =>
      exact .cons (shown.moved _) (induction (first + 1))

/-- A document is deleted. -/
theorem Arranged.delete (arranged : Arranged workspace tabs) (documentID : String) :
    Arranged { workspace with
      editors := workspace.editors.erase documentID
      documents := Workspace.numbered (workspace.documents.filter fun document =>
        document.id ≠ documentID) }
      (tabs.filter fun tab => tab.id ≠ documentID) := by
  refine ⟨showing_numbered ?_, ?_, ?_⟩
  · have same (document : LiveRoomDocument) (tab : View.Tab)
        (shown : Showing workspace.editors document tab) :
        decide (document.id ≠ documentID) = true ↔ decide (tab.id ≠ documentID) = true := by
      rw [shown.id]
    have kept := List.rel_filter same arranged.documents
    refine forall₂_imp kept fun document tab member shown => shown.congr ?_
    exact AList.lookup_erase_ne (of_decide_eq_true (List.mem_filter.mp member).2)
  · intro id present
    obtain ⟨other, present⟩ := AList.mem_erase.mp present
    obtain ⟨tab, member, rfl⟩ := List.mem_map.mp (arranged.editors id present)
    exact List.mem_map_of_mem (List.mem_filter.mpr ⟨member, decide_eq_true other⟩)
  · exact arranged.distinct.sublist (List.filter_sublist.map _)

/-- Documents show the tabs that are found under their ids. -/
theorem showing_filterMap {editors : Keyed Tab} {documents : List LiveRoomDocument}
    {order : List String} {find : String → Option View.Tab}
    (ids : documents.map LiveRoomDocument.id = order)
    (showing : ∀ document ∈ documents, ∃ tab, find document.id = some tab ∧
      Showing editors document tab) :
    List.Forall₂ (Showing editors) documents (order.filterMap find) := by
  subst ids
  induction documents with
  | nil => exact .nil
  | cons document documents induction =>
      obtain ⟨tab, found, shown⟩ := showing document (.head _)
      rw [List.map_cons, List.filterMap_cons_some found]
      exact .cons shown (induction fun other member => showing other (.tail _ member))

/-- Sorting by the places of an order puts the documents into this order. -/
theorem map_id_mergeSort {documents : List LiveRoomDocument} {order : List String}
    (distinct : order.Nodup) (same : order.Perm (documents.map LiveRoomDocument.id)) :
    ((documents.map fun document =>
      { document with position := Workspace.placeOf order document.id }).mergeSort
        fun left right => left.position ≤ right.position).map LiveRoomDocument.id = order := by
  generalize placed_eq : documents.map (fun document =>
    { document with position := Workspace.placeOf order document.id }) = placed
  have ids : placed.map LiveRoomDocument.id = documents.map LiveRoomDocument.id := by
    rw [← placed_eq, List.map_map]
    rfl
  have position {document : LiveRoomDocument} (member : document ∈ placed) :
      document.position = Workspace.placeOf order document.id := by
    rw [← placed_eq] at member
    obtain ⟨_, _, rfl⟩ := List.mem_map.mp member
    rfl
  have sorting := List.mergeSort_perm placed fun left right => left.position ≤ right.position
  have trans (first second third : LiveRoomDocument)
      (before : decide (first.position ≤ second.position) = true)
      (after : decide (second.position ≤ third.position) = true) :
      decide (first.position ≤ third.position) = true :=
    decide_eq_true (le_trans (of_decide_eq_true before) (of_decide_eq_true after))
  have total (first second : LiveRoomDocument) :
      (decide (first.position ≤ second.position) || decide (second.position ≤ first.position)) =
        true := by
    simp only [Bool.or_eq_true, decide_eq_true_eq]
    exact le_total _ _
  have sorted := List.pairwise_mergeSort trans total placed
  have perm : ((placed.mergeSort fun left right => left.position ≤ right.position).map
      LiveRoomDocument.id).Perm order :=
    (sorting.map _).trans (ids ▸ same.symm)
  refine List.Perm.eq_of_pairwise ?_ ?_ (pairwise_placeOf distinct) perm
  · intro left right _ member before after
    exact (placeOf_injective member (le_antisymm after before)).symm
  · refine List.pairwise_map.mpr (sorted.imp_of_mem fun {left right} first second before => ?_)
    rw [← position (sorting.mem_iff.mp first), ← position (sorting.mem_iff.mp second)]
    exact of_decide_eq_true before

/-- The documents get another order. -/
theorem Arranged.reorder [Editor] (arranged : Arranged workspace tabs)
    (operationID clientID : String) (metadataRevision : Int) {order : List String}
    (same : order.Perm (tabs.map Screen.Tab.id)) :
    ∃ documents,
      workspace.arrange (.documentReordered operationID clientID metadataRevision order) =
        some { workspace with documents } ∧
      Arranged { workspace with documents }
        (order.filterMap fun id => tabs.find? fun tab => tab.id == id) := by
  have distinct : order.Nodup := same.nodup_iff.mpr arranged.distinct
  have ids := map_id_showing arranged.documents
  have length : order.eraseDups.length = workspace.documents.length := by
    rw [eraseDups_of_nodup distinct, same.length_eq, ← ids, List.length_map]
  have listed : ∀ document ∈ workspace.documents, document.id ∈ order := by
    intro document member
    refine same.mem_iff.mpr ?_
    rw [← ids]
    exact List.mem_map_of_mem member
  have find {tab : View.Tab} (member : tab ∈ tabs) {id : String} (equal : id = tab.id) :
      (tabs.find? fun other => other.id == id) = some tab := by
    subst equal
    cases found : tabs.find? fun other => other.id == tab.id with
    | none => exact absurd (beq_self_eq_true tab.id) (List.find?_eq_none.mp found tab member)
    | some other =>
        have equal := List.find?_some found
        rw [List.inj_on_of_nodup_map arranged.distinct (List.mem_of_find?_eq_some found) member
          (beq_iff_eq.mp equal)]
  have shown_ids :
      (order.filterMap fun id => tabs.find? fun tab => tab.id == id).map Screen.Tab.id =
      order := by
    refine View.map_id_tabs ?_ fun id member => ?_
    · intro id tab found
      have equal := List.find?_some found
      exact beq_iff_eq.mp equal
    · obtain ⟨tab, present, rfl⟩ := List.mem_map.mp (same.mem_iff.mp member)
      rw [find present rfl]
      rfl
  have sorts := map_id_mergeSort distinct (same.trans (.of_eq ids.symm))
  refine ⟨_, by
    rw [Workspace.arrange, if_neg (not_or.mpr ⟨not_not.mpr length, not_not.mpr listed⟩)],
    ?_, ?_, ?_⟩
  · refine showing_filterMap sorts fun document member => ?_
    obtain ⟨original, present, rfl⟩ := List.mem_map.mp ((List.mergeSort_perm _ _).mem_iff.mp member)
    obtain ⟨tab, kept, shown⟩ := exists_forall₂ arranged.documents present
    exact ⟨tab, find kept shown.id, shown.moved _⟩
  · rw [shown_ids]
    exact fun id present => same.mem_iff.mpr (arranged.editors id present)
  · rw [shown_ids]
    exact distinct

end Arranged

/-! ## The event of an operation -/

/-- The numbers of an accepted operation are integers for a browser, and the document that it
creates has no carriage return. -/
structure MetadataLegible (accepted : AcceptedMetadataOperation) : Prop where
  revision : Safe accepted.revision
  created : accepted.kind = "document_create" → ∀ document ∈ accepted.state.documents,
    document.id = accepted.documentID → Safe document.revision ∧ Safe document.position ∧
      CodeMirror.carriageReturn ∉ utf16Units document.content

namespace Workspace

variable {workspace : Workspace} {view view' : View} {accepted : AcceptedMetadataOperation}

theorem Shows.arranged (shows : workspace.Shows view) : Arranged workspace view.tabs :=
  ⟨shows.documents, shows.editors, shows.distinct⟩

/-- The last part of `applyMetadataEvent`. -/
theorem shows_finish (arranged : Arranged workspace view.tabs) (operationID : String) :
    (workspace.finish operationID view.metadataRevision).Shows view :=
  ⟨rfl, arranged.documents, arranged.documents, arranged.editors, arranged.distinct⟩

/-- The event of an accepted operation arranges the documents. -/
theorem Shows.announced [Editor] (shows : workspace.Shows view) {tabs : List View.Tab}
    (arranged : Screen.arranged view.tabs accepted = some tabs)
    (legible : MetadataLegible accepted) :
    ∃ event workspace', Announces accepted event ∧ workspace.arrange event = some workspace' ∧
      Arranged workspace' tabs := by
  unfold Screen.arranged at arranged
  split at arranged
  case h_1 kind =>
    split at arranged
    case isTrue => cases arranged
    case isFalse new =>
      obtain ⟨document, found, rfl⟩ := Option.map_eq_some_iff.mp arranged
      have same := List.find?_some found
      have id : document.id = accepted.documentID := beq_iff_eq.mp same
      obtain ⟨revision, position, plain⟩ :=
        legible.created kind document (List.mem_of_find?_eq_some found) id
      obtain ⟨editors, documents, created, arranged⟩ := shows.arranged.create accepted.operationID
        accepted.clientID accepted.revision (id ▸ new) plain
      exact ⟨_, _, .create document kind found revision position, created, arranged⟩
  case h_2 kind =>
    split at arranged
    case isTrue => cases arranged
    case isFalse named =>
      cases arranged
      obtain ⟨documentID, name, language⟩ := by simpa only [not_or] using named
      exact ⟨_, _, .update kind documentID name language, rfl,
        shows.arranged.update accepted.documentID accepted.name accepted.language⟩
  case h_3 kind =>
    split at arranged
    case isTrue => cases arranged
    case isFalse named =>
      cases arranged
      exact ⟨_, _, .delete kind named, rfl, shows.arranged.delete accepted.documentID⟩
  case h_4 kind =>
    split at arranged
    case isTrue => cases arranged
    case isFalse ordered =>
      cases arranged
      obtain ⟨listed, same⟩ := not_or.mp ordered
      obtain ⟨documents, reordered, arranged⟩ := shows.arranged.reorder accepted.operationID
        accepted.clientID accepted.revision (not_not.mp same)
      exact ⟨_, _, .reorder kind listed, reordered, arranged⟩
  case h_5 => cases arranged

/-- The message of an accepted operation on the metadata. -/
theorem Shows.hears_metadata [Editor] (shows : workspace.Shows view) (sent : Bool)
    (applied : view.arrange accepted = .ok view') (legible : MetadataLegible accepted) :
    ∃ workspace', workspace.onMessage sent (metadataWireEvent accepted) = .ok (true, workspace') ∧
      workspace'.Shows view' := by
  unfold Screen.arrange at applied
  split at applied
  case isTrue => cases applied
  case isFalse next =>
    have next := not_ne_iff.mp next
    cases arranged : Screen.arranged view.tabs accepted with
    | none =>
        rw [arranged] at applied
        cases applied
    | some tabs =>
        rw [arranged] at applied
        cases applied
        obtain ⟨event, workspace', announces, done, arranged⟩ := shows.announced arranged legible
        have current : workspace.applyMetadataEvent accepted.operationID accepted.revision event =
            (true, workspace'.finish accepted.operationID accepted.revision) := by
          rw [applyMetadataEvent, shows.revision, if_neg (by omega), if_neg (by omega), done]
        refine ⟨_, ?_, @shows_finish workspace' ⟨accepted.revision, tabs⟩ arranged
          accepted.operationID⟩
        rw [onMessage, decode_metadataWireEvent announces legible.revision]
        cases announces <;> exact congrArg Except.ok current

end Workspace

end Oxbin.Browser
