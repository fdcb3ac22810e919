import Oxbin.Live.Representation
import Oxbin.Live.Views

/-!
# Tabs with earlier texts

A tab may lag behind its document.  It has one of the texts that the document has had.  An accepted
operation on the metadata arranges such tabs as it arranges the documents.
-/

namespace Oxbin.Live

open Livecollab Storage

namespace Room

/-! ## One tab -/

/-- The tab of a document with the text of a revision. -/
def past (room : Room) (annals : Annals) (version : String → Int) (id : String) :
    Option View.Tab :=
  (room.tab id).map fun tab =>
    { tab with content := annals id (version id), revision := version id }

/-- The tabs of the documents with the texts of some revisions. -/
def shown (room : Room) (annals : Annals) (version : String → Int) : List View.Tab :=
  room.order.filterMap (room.past annals version)

/-- The revisions of the documents. -/
def current (room : Room) (id : String) : Int := ((room.tab id).map Screen.Tab.revision).getD 0

/-- The tabs of the room, some of which lag behind. -/
def Shows (room : Room) (annals : Annals) (view : View) : Prop :=
  ∃ version, (∀ id ∈ room.order, version id ≤ room.current id) ∧
    view = ⟨room.snapshot.metadataRevision, room.shown annals version⟩

section Past

variable {room : Room} {annals : Annals} {version : String → Int} {id : String}

theorem id_of_past {tab : View.Tab} (found : room.past annals version id = some tab) :
    tab.id = id := by
  obtain ⟨tab, present, rfl⟩ := Option.map_eq_some_iff.mp found
  have named := id_of_tab present
  exact named

theorem isSome_past : (room.past annals version id).isSome ↔ id ∈ room.documents := by
  rw [past, Option.isSome_map, isSome_tab]

theorem shown_congr {room' : Room} (tab : room'.tab = room.tab) (order : room'.order = room.order)
    (annals : Annals) (version : String → Int) :
    room'.shown annals version = room.shown annals version := by
  unfold shown past
  rw [tab, order]

theorem shown_congr_version {version' : String → Int}
    (same : ∀ id ∈ room.order, version' id = version id) :
    room.shown annals version' = room.shown annals version := by
  refine List.filterMap_congr fun id member => ?_
  rw [past, same id member, past]

theorem current_of_lookup {document : Document}
    (found : room.documents.lookup id = some document) :
    room.current id = document.snapshot.currentRevision := by
  unfold current tab
  rw [found]
  rfl

/-- The tabs with the latest texts. -/
theorem Recollects.past_current (recollects : room.Recollects annals) (id : String) :
    room.past annals room.current id = room.tab id := by
  unfold past
  cases found : room.documents.lookup id with
  | none => simp only [tab, found, Option.map_none]
  | some document =>
      rw [current_of_lookup found]
      simp only [tab, found, Option.map_some, (recollects id document found).content]

theorem Recollects.view_eq (recollects : room.Recollects annals) :
    room.view = ⟨room.snapshot.metadataRevision, room.shown annals room.current⟩ := by
  have same : room.past annals room.current = room.tab := funext recollects.past_current
  rw [view, shown, same]

/-- The text of a tab and its revision. -/
def text (room : Room) (id : String) : Option (Int × String) :=
  (room.tab id).map fun tab => (tab.revision, tab.content)

/-- What is written down about a document whose text stays. -/
theorem Recollects.log_kept (recollects : room.Recollects annals) {room' : Room}
    (same : room'.text id = room.text id) : annals.log room' id = annals id := by
  funext version
  cases found : room'.documents.lookup id with
  | none => rw [Annals.log, found]
  | some document' =>
      rw [log_of_lookup found]
      simp only [text, tab, found, Option.map_some] at same
      obtain ⟨tab, present, equality⟩ := Option.map_eq_some_iff.mp same.symm
      obtain ⟨document, found', rfl⟩ := Option.map_eq_some_iff.mp present
      injection equality with revision content
      simp only at revision content
      split
      case isTrue current =>
        rw [current, ← content, ← revision]
        exact (recollects id document found').content
      case isFalse => rfl

/-- What is written down about the revisions that a document had before. -/
theorem log_older {room' : Room} {version : Int} (older : version < room'.current id) :
    annals.log room' id version = annals id version := by
  cases found : room'.documents.lookup id with
  | none => rw [Annals.log, found]
  | some document' =>
      rw [current_of_lookup found] at older
      rw [log_of_lookup found, if_neg older.ne]

theorem current_of_text {room' : Room} (same : room'.text id = room.text id) :
    room'.current id = room.current id := by
  have through (room : Room) : room.current id = ((room.text id).map Prod.fst).getD 0 := by
    rw [text, Option.map_map]
    rfl
  rw [through, same, through]

theorem Recollects.shows (recollects : room.Recollects annals) : room.Shows annals room.view :=
  ⟨room.current, fun _ _ => le_rfl, recollects.view_eq⟩

theorem Listed.map_id_shown (listed : room.Listed) :
    (room.shown annals version).map Screen.Tab.id = room.order :=
  View.map_id_tabs (fun _ _ => id_of_past) fun id member =>
    isSome_past.mpr ((listed.present id).mpr member)

theorem Listed.find?_shown (listed : room.Listed) (member : id ∈ room.order) :
    ((room.shown annals version).find? fun tab => tab.id == id) = room.past annals version id :=
  View.find?_tabs (fun _ _ => id_of_past) member
    (isSome_past.mpr ((listed.present id).mpr member))

end Past

/-! ## Operations on the metadata -/

/-- Synchronising leaves the tabs alone. -/
theorem tab_sync (room : Room) : room.syncSnapshot.tab = room.tab := by
  funext id
  have lookup : room.syncSnapshot.documents.lookup id =
      (room.documents.lookup id).map (positioned room.order id) := Keyed.lookup_mapKeyed _ _ _
  unfold tab
  rw [lookup, Option.map_map]
  congr 1
  funext document
  rw [Function.comp_apply]
  unfold positioned
  split <;> rfl

/-- So does a commit. -/
theorem Commits.tab {changed final : Room} {operationID : String} {record : LedgerRecord}
    (commits : changed.Commits operationID record final) : final.tab = changed.tab := by
  have through (room : Room) (id : String) : room.tab id =
      ((room.documents.lookup id).map Document.snapshot).map fun snapshot =>
        ({ id, name := snapshot.name, language := snapshot.language
           content := snapshot.content, revision := snapshot.currentRevision } : View.Tab) := by
    rw [Option.map_map]
    rfl
  funext id
  rw [through, commits.documents, Option.map_map, Room.tab]
  congr 1
  funext document
  unfold saved positioned
  rw [Function.comp_apply]
  split <;> rfl

/-- The shared state of a room determines its tabs. -/
theorem tab_of_authority {room room' : Room} (same : room'.authority = room.authority) :
    room'.tab = room.tab := by
  have through (room : Room) (id : String) : room.tab id =
      (room.authority.document id).map fun document =>
        ({ id, name := document.name, language := document.language
           content := document.content, revision := document.revision } : View.Tab) := by
    change _ = ((room.documents.lookup id).map Document.authority).map _
    rw [Option.map_map]
    rfl
  funext id
  rw [through, same, through]

theorem arrange_next {view : View} {accepted : AcceptedMetadataOperation}
    (next : accepted.revision = view.metadataRevision + 1) {tabs : List View.Tab}
    (arranged : Screen.arranged view.tabs accepted = some tabs) :
    view.arrange accepted = .ok ⟨accepted.revision, tabs⟩ := by
  unfold Screen.arrange
  rw [if_neg (not_not.mpr next), arranged]

/-- The tabs after an accepted change of a document. -/
theorem Admitted.tab {room : Room} {operation : DocumentOperation} {document : Document}
    {changes : ChangeSet} {content : String}
    (admitted : room.Admitted operation document changes content) (fingerprint : String)
    (now : Time) (id : String) :
    (room.accepted operation fingerprint document changes content now).tab id =
      (room.tab id).map fun tab =>
        if id = operation.documentID then { tab with content, revision := tab.revision + 1 }
        else tab := by
  rw [accepted, (commits_document _ _ _ _ _).tab, editDocument, tab_sync, Room.tab, Room.tab,
    Keyed.lookup_insert_if]
  by_cases own : id = operation.documentID
  · subst own
    rw [if_pos rfl, admitted.found]
    simp only [Option.map_some, if_true]
  · simp only [own, if_false, Option.map_id']

section Metadata

variable {room : Room} {operation : MetadataOperation} {now : Time} {effect : MetadataEffect}

theorem metadataChanged_tab (room : Room) (effect : MetadataEffect) :
    (room.metadataChanged effect).tab = effect.room.tab := tab_sync _

theorem Identified.of_documents {room room' : Room} (identified : room.Identified)
    (documents : room'.documents = room.documents) : room'.Identified where
  keyed := documents ▸ identified.keyed
  named := documents ▸ identified.named

theorem Identified.sync {room : Room} (identified : room.Identified) :
    room.syncSnapshot.Identified := by
  have lookup (id : String) : room.syncSnapshot.documents.lookup id =
      (room.documents.lookup id).map (positioned room.order id) := Keyed.lookup_mapKeyed _ _ _
  constructor
  case keyed =>
    intro id document found
    rw [lookup] at found
    obtain ⟨before, present, rfl⟩ := Option.map_eq_some_iff.mp found
    have same := identified.keyed id before present
    unfold positioned
    split <;> exact same
  case named =>
    intro id member
    rw [← AList.lookup_isSome, lookup, Option.isSome_map, AList.lookup_isSome] at member
    exact identified.named id member

theorem Commits.identified {changed final : Room} {operationID : String} {record : LedgerRecord}
    (commits : changed.Commits operationID record final) (identified : changed.Identified) :
    final.Identified := by
  constructor
  case keyed =>
    intro id document found
    have documents := commits.documents id
    rw [found, Option.map_some] at documents
    obtain ⟨before, present, equality⟩ := Option.map_eq_some_iff.mp documents.symm
    have same := identified.keyed id before present
    rw [← equality]
    unfold saved positioned
    split <;> exact same
  case named =>
    intro id member
    have documents := congrArg Option.isSome (commits.documents id)
    rw [Option.isSome_map, Option.isSome_map, AList.lookup_isSome.mpr member] at documents
    exact identified.named id (AList.lookup_isSome.mp documents.symm)

theorem MetadataChange.identified (change : room.MetadataChange operation now effect)
    (identified : room.Identified) : effect.room.Identified := by
  constructor
  case keyed =>
    intro id document found
    cases change with
    | create documentID =>
        rw [Keyed.lookup_insert_if] at found
        split at found
        case isTrue same =>
          cases found
          exact same.symm
        case isFalse => exact identified.keyed id document found
    | update before kind present =>
        rw [Keyed.lookup_insert_if] at found
        split at found
        case isTrue same =>
          cases found
          exact (identified.keyed _ before present).trans same.symm
        case isFalse => exact identified.keyed id document found
    | delete =>
        have lookup := Keyed.lookup_erase_if room.documents id operation.documentID
        rw [show (room.documents.erase operation.documentID).lookup id = some document from found]
          at lookup
        split at lookup
        case isTrue => cases lookup
        case isFalse => exact identified.keyed id document lookup.symm
    | reorder => exact identified.keyed id document found
  case named =>
    intro id member
    cases change with
    | create documentID kind space name language content fits valid =>
        rcases (AList.mem_insert _).mp member with rfl | old
        · exact (require_eq_ok.mp valid).1
        · exact identified.named id old
    | update before kind present =>
        rcases (AList.mem_insert _).mp member with rfl | old
        · exact identified.named _ (AList.lookup_isSome.mp (by rw [present]; rfl))
        · exact identified.named id old
    | delete => exact identified.named id (AList.mem_erase.mp member).2
    | reorder => exact identified.named id member

/-- The tabs after an operation on the metadata. -/
inductive Rearranged (room : Room) (operation : MetadataOperation) (effect : MetadataEffect) : Prop
  | created (kind : operation.kind = "document_create") (fresh : effect.documentID ∉ room.order)
      (order : effect.room.order = room.order ++ [effect.documentID])
      (revision : effect.room.current effect.documentID = 0)
      (own : effect.documentID ∈ effect.room.documents)
      (others : ∀ id, id ≠ effect.documentID → effect.room.tab id = room.tab id)
  | updated (kind : operation.kind = "document_update")
      (member : effect.documentID ∈ room.order) (name : effect.name ≠ "")
      (language : effect.language ≠ "") (order : effect.room.order = room.order)
      (own : effect.room.tab effect.documentID = (room.tab effect.documentID).map fun tab =>
        { tab with name := effect.name, language := effect.language })
      (others : ∀ id, id ≠ effect.documentID → effect.room.tab id = room.tab id)
  | deleted (kind : operation.kind = "document_delete")
      (member : effect.documentID ∈ room.order)
      (order : effect.room.order = room.order.erase effect.documentID)
      (others : ∀ id, id ≠ effect.documentID → effect.room.tab id = room.tab id)
  | reordered (kind : operation.kind = "document_reorder")
      (order : effect.room.order = effect.order) (some : effect.order ≠ [])
      (same : effect.order.Perm room.order) (tabs : effect.room.tab = room.tab)

theorem MetadataChange.rearranged (change : room.MetadataChange operation now effect)
    (listed : room.Listed) : room.Rearranged operation effect := by
  cases change with
  | create documentID kind space name language content fits valid fresh =>
      refine .created kind (mt (listed.present documentID).mpr fresh) rfl ?_ ?_ fun id other => ?_
      · unfold current tab
        rw [AList.lookup_insert]
        rfl
      · exact (AList.mem_insert _).mpr (.inl rfl)
      · rw [tab, AList.lookup_insert_ne other, tab]
  | update document kind found name language =>
      have member : operation.documentID ∈ room.documents :=
        AList.lookup_isSome.mp (by rw [found]; rfl)
      refine .updated kind ((listed.present _).mp member) (require_eq_ok.mp name).1
        (require_eq_ok.mp language).1 rfl ?_ fun id other => ?_
      · simp only [tab, AList.lookup_insert, found, Option.map_some]
      · rw [tab, AList.lookup_insert_ne other, tab]
  | delete kind several found =>
      refine .deleted kind ((listed.present _).mp found) rfl fun id other => ?_
      have kept : (room.documents.erase operation.documentID).lookup id =
          room.documents.lookup id := AList.lookup_erase_ne other
      exact congrArg (fun found : Option Document => found.map _) kept
  | reorder kind valid complete known =>
      obtain ⟨distinct, nonempty⟩ := nodup_of_validateDocumentOrder valid
      exact .reordered kind rfl nonempty (listed.perm_order distinct complete known) rfl

/-- The documents after an operation on the metadata are the old ones and the new one. -/
theorem Rearranged.old_or_new (rearranged : room.Rearranged operation effect) {id : String}
    (member : id ∈ effect.room.order) :
    id ∈ room.order ∧ ¬(operation.kind = "document_create" ∧ id = effect.documentID) ∨
      operation.kind = "document_create" ∧ id = effect.documentID ∧
        effect.room.current id = 0 := by
  cases rearranged with
  | created kind fresh order revision own others =>
      rw [order] at member
      rcases List.mem_append.mp member with old | new
      · exact .inl ⟨old, fun created => fresh (created.2 ▸ old)⟩
      · cases List.mem_singleton.mp new
        exact .inr ⟨kind, rfl, revision⟩
  | updated kind own name language order => exact .inl ⟨order ▸ member, by simp [kind]⟩
  | deleted kind own order =>
      rw [order] at member
      exact .inl ⟨List.mem_of_mem_erase member, by simp [kind]⟩
  | reordered kind order nonempty same =>
      rw [order] at member
      exact .inl ⟨same.subset member, by simp [kind]⟩

/-- An operation on the metadata keeps the texts of the documents that it keeps. -/
theorem Rearranged.text (rearranged : room.Rearranged operation effect) (listed : room.Listed)
    {id : String} (member : id ∈ room.order) (member' : id ∈ effect.room.order) :
    effect.room.text id = room.text id := by
  have through (same : effect.room.tab id = room.tab id) : effect.room.text id = room.text id := by
    rw [Room.text, same, Room.text]
  cases rearranged with
  | created kind fresh order revision own others =>
      exact through (others id fun same => fresh (same ▸ member))
  | updated kind own' name language order own others =>
      by_cases here : id = effect.documentID
      · subst here
        rw [Room.text, own, Option.map_map, Room.text]
        rfl
      · exact through (others id here)
  | deleted kind own order others =>
      rw [order] at member'
      exact through (others id (listed.nodup.mem_erase_iff.mp member').1)
  | reordered kind order nonempty same tabs => exact through (congrFun tabs id)

/-- The revisions of the tabs after an operation on the metadata: a new document begins with 0. -/
def arrangedVersion (operation : MetadataOperation) (effect : MetadataEffect)
    (version : String → Int) (id : String) : Int :=
  if operation.kind = "document_create" ∧ id = effect.documentID then 0 else version id

/-- The new document in a state that lists it. -/
theorem Rearranged.state_find (rearranged : room.Rearranged operation effect)
    (kind : operation.kind = "document_create") {final : Room} (identified : final.Identified)
    (tab : final.tab = effect.room.tab) (order : final.order = effect.room.order) {annals : Annals}
    (current : effect.room.past annals effect.room.current = effect.room.tab)
    (version : String → Int) :
    ((final.state.documents.find? fun document => document.id == effect.documentID).map
      DocumentState.tab) =
      effect.room.past annals (arrangedVersion operation effect version) effect.documentID := by
  cases rearranged with
  | created _ fresh order' zero own others =>
      have member : effect.documentID ∈ final.order := by
        rw [order, order']
        exact List.mem_append_right _ (List.mem_singleton_self _)
      have present : effect.documentID ∈ final.documents := by
        rw [← isSome_tab, tab, isSome_tab]
        exact own
      rw [identified.state_find member present, tab, ← current, past, past, zero]
      simp only [arrangedVersion, kind, true_and, if_true]
  | updated other => simp [kind] at other
  | deleted other => simp [kind] at other
  | reordered other => simp [kind] at other

/-- An operation arranges the tabs as it arranges the documents. -/
theorem Rearranged.arranged (rearranged : room.Rearranged operation effect) (listed : room.Listed)
    (named : ∀ id ∈ room.order, id ≠ "")
    {annals annals' : Annals} {version : String → Int}
    (kept : ∀ id ∈ room.order, id ∈ effect.room.order →
      annals' id (version id) = annals id (version id))
    {state : RoomState}
    (created : operation.kind = "document_create" →
      ((state.documents.find? fun document => document.id == effect.documentID).map
        DocumentState.tab) =
        effect.room.past annals' (arrangedVersion operation effect version) effect.documentID) :
    Screen.arranged (room.shown annals version)
        { room.acceptedMetadata operation effect with state } =
      some (effect.room.shown annals' (arrangedVersion operation effect version)) := by
  -- tabs of the other documents
  have other {id : String} (member : id ∈ room.order) (member' : id ∈ effect.room.order)
      (same : effect.room.tab id = room.tab id)
      (old : arrangedVersion operation effect version id = version id) :
      effect.room.past annals' (arrangedVersion operation effect version) id =
        room.past annals version id := by
    rw [past, same, old, kept id member member', past]
  have unchanged (kind : operation.kind ≠ "document_create") (id : String) :
      arrangedVersion operation effect version id = version id := if_neg fun both => kind both.1
  unfold Screen.arranged
  cases rearranged with
  | created kind fresh order revision own others =>
      simp only [acceptedMetadata, kind]
      have present : (effect.room.past annals' (arrangedVersion operation effect version)
          effect.documentID).isSome := by
        rw [past, Option.isSome_map]
        exact isSome_tab.mpr own
      have found := created kind
      rw [← found, Option.isSome_map] at present
      obtain ⟨document, found'⟩ := Option.isSome_iff_exists.mp present
      rw [found', Option.map_some] at found
      have old {id : String} (member : id ∈ room.order) : id ≠ effect.documentID :=
        fun same => fresh (same ▸ member)
      rw [if_neg (listed.map_id_shown ▸ fresh), found', Option.map_some, Option.some_inj,
        shown, shown, order, List.filterMap_append, List.filterMap_cons_some found.symm,
        List.filterMap_nil]
      congr 1
      refine List.filterMap_congr fun id member => (other member ?_ (others id (old member))
        (if_neg fun both => old member both.2)).symm
      rw [order]
      exact List.mem_append_left _ member
  | updated kind member name language order own others =>
      simp only [acceptedMetadata, kind]
      have old := unchanged (by simp [kind])
      rw [if_neg (by simp [named _ member, name, language]), Option.some_inj, shown, shown, order,
        List.map_filterMap]
      refine List.filterMap_congr fun id member => ?_
      by_cases here : id = effect.documentID
      · subst here
        rw [past, past, own, old, kept _ member (order ▸ member), Option.map_map, Option.map_map]
        cases found : room.tab effect.documentID with
        | none => rfl
        | some tab =>
            simp only [Option.map_some, Function.comp_apply]
            rw [if_pos (id_of_tab found)]
      · rw [other member (order ▸ member) (others id here) (old id)]
        cases found : room.past annals version id with
        | none => rfl
        | some tab => rw [Option.map_some, if_neg (id_of_past found ▸ here)]
  | deleted kind member order others =>
      simp only [acceptedMetadata, kind]
      have old := unchanged (by simp [kind])
      rw [if_neg (named _ member), Option.some_inj, shown, shown, order,
        listed.nodup.erase_eq_filter, List.filter_filterMap,
        List.filterMap_filter]
      refine List.filterMap_congr fun id member => ?_
      by_cases here : id = effect.documentID
      · subst here
        rw [bne_self_eq_false]
        cases found : room.past annals version effect.documentID with
        | none => rfl
        | some tab =>
            exact Option.filter_some_neg (by simp [id_of_past found])
      · have erased : id ∈ effect.room.order := by
          rw [order]
          exact (List.mem_erase_of_ne here).mpr member
        rw [other member erased (others id here) (old id)]
        simp only [bne_iff_ne, ne_eq, here, not_false_eq_true, if_true]
        cases found : room.past annals version id with
        | none => rfl
        | some tab =>
            exact Option.filter_some_pos (by simp [id_of_past found, here])
  | reordered kind order nonempty same tabs =>
      simp only [acceptedMetadata, kind]
      have old := unchanged (by simp [kind])
      rw [if_neg (by simp [nonempty, listed.map_id_shown, same]), Option.some_inj,
        shown.eq_def effect.room, order]
      refine List.filterMap_congr fun id member => ?_
      rw [listed.find?_shown (same.subset member)]
      exact (other (same.subset member) (order ▸ member) (congrFun tabs id) (old id)).symm

/-- The tabs of a room after it has committed an operation on the metadata. -/
structure Arrangement (room : Room) (annals : Annals) (effect : MetadataEffect) (final : Room) :
    Prop where
  identified : final.Identified
  recollects : final.Recollects (annals.log final)
  tab : final.tab = effect.room.tab
  order : final.order = effect.room.order
  metadataRevision : final.snapshot.metadataRevision = room.snapshot.metadataRevision + 1

theorem MetadataChange.arrangement (change : room.MetadataChange operation now effect)
    (identified : room.Identified) {annals : Annals} (recollects : room.Recollects annals)
    (record : ChangeRecord) (fingerprint : String) :
    room.Arrangement annals effect ((room.metadataChanged effect).committed record fingerprint
      (.metadata (room.acceptedMetadata operation effect)) 0) := by
  have commits := commits_metadata (room.metadataChanged effect) record fingerprint
    (room.acceptedMetadata operation effect) 0
  constructor
  case identified =>
    exact commits.identified (Identified.sync ((change.identified identified).of_documents rfl))
  case recollects => exact recollects.carries (change.committed_carries record fingerprint _)
  case tab => exact commits.tab.trans (metadataChanged_tab room effect)
  case order => exact commits.order
  case metadataRevision =>
    rw [commits.snapshot]
    rfl

variable {annals : Annals} {final : Room}

theorem Arrangement.current (arrangement : room.Arrangement annals effect final) (id : String) :
    final.current id = effect.room.current id := by
  rw [Room.current, arrangement.tab, Room.current]

theorem Arrangement.text (arrangement : room.Arrangement annals effect final)
    (change : room.MetadataChange operation now effect) (listed : room.Listed) {id : String}
    (member : id ∈ room.order) (member' : id ∈ effect.room.order) :
    final.text id = room.text id := by
  rw [Room.text, arrangement.tab]
  exact (change.rearranged listed).text listed member member'

/-- The accepted operation arranges the tabs, with either of the states that list them. -/
theorem Arrangement.arrange (arrangement : room.Arrangement annals effect final)
    (change : room.MetadataChange operation now effect) (listed : room.Listed)
    (identified : room.Identified) (recollects : room.Recollects annals)
    (version : String → Int) {state : RoomState}
    (either : state = (room.metadataChanged effect).state ∨ state = final.state) :
    Screen.arrange ⟨room.snapshot.metadataRevision, room.shown annals version⟩
        { room.acceptedMetadata operation effect with state } =
      .ok ⟨final.snapshot.metadataRevision,
        final.shown (annals.log final) (arrangedVersion operation effect version)⟩ := by
  have rearranged := change.rearranged listed
  have known : effect.room.past (annals.log final) effect.room.current = effect.room.tab := by
    have past := funext arrangement.recollects.past_current
    unfold Room.past Room.current at past ⊢
    rw [arrangement.tab] at past
    exact past
  have created (kind : operation.kind = "document_create") :
      ((state.documents.find? fun document => document.id == effect.documentID).map
        DocumentState.tab) = effect.room.past (annals.log final)
          (arrangedVersion operation effect version) effect.documentID := by
    rcases either with rfl | rfl
    · exact rearranged.state_find kind
        (Identified.sync ((change.identified identified).of_documents rfl))
        (metadataChanged_tab room effect) rfl known version
    · exact rearranged.state_find kind arrangement.identified arrangement.tab arrangement.order
        known version
  have arranged := rearranged.arranged listed
    (fun id member => identified.named id ((listed.present id).mpr member))
      (fun id member member' =>
      congrFun (recollects.log_kept (arrangement.text change listed member member')) _) created
  rw [arrangement.metadataRevision, shown_congr arrangement.tab arrangement.order]
  exact arrange_next rfl arranged

end Metadata

end Room

end Oxbin.Live
