import Oxbin.Live.Bridge
import Oxbin.Live.Listing

/-!
# What clients show

A client shows the tabs of a room.  It applies what the server has accepted, one revision after
the other; what `bridge` has returned arrives as the operations on the metadata, followed by the
changes of the documents.
-/

namespace Oxbin.Live

open Livecollab

/-- A tab as clients show it, with a text of some kind. -/
structure Screen.Tab (α : Type) where
  id : String
  name : String
  language : String
  content : α
  revision : Int
  deriving DecidableEq, Repr

/-- What a client shows of a room. -/
structure Screen (α : Type) where
  metadataRevision : Int
  tabs : List (Screen.Tab α)
  deriving DecidableEq, Repr

/-- What a client shows, with the texts as the server has them. -/
abbrev View := Screen String

abbrev View.Tab := Screen.Tab String

/-- A kind of text: how it is read from what the server sends, and how it is edited. -/
class Content (α : Type) where
  read : String → α
  edit : ChangeSet → α → Except CollabError α

/-- The server edits strings. -/
instance : Content String := ⟨id, ChangeSet.apply⟩

/-- A browser edits code units. -/
instance : Content (List UInt16) := ⟨utf16Units, ChangeSet.applyUnits⟩

/-- An operation that the server has accepted. -/
inductive View.Change where
  | metadata (accepted : AcceptedMetadataOperation)
  | document (accepted : AcceptedDocumentOperation)

/-- What `bridge` has returned, in the order in which it is sent. -/
def BridgeResult.changes (bridge : BridgeResult) : List View.Change :=
  bridge.metadataChanges.map .metadata ++ bridge.documentChanges.map .document

/-- The tab of a document in the state of a room. -/
def DocumentState.tab (document : DocumentState) : View.Tab where
  id := document.id
  name := document.name
  language := document.language
  content := document.content
  revision := document.revision

section Screens

variable {α β : Type}

/-- Apply an accepted change if it is one of the tab. -/
def Screen.Tab.edit [Content α] (tab : Screen.Tab α) (accepted : AcceptedDocumentOperation) :
    Except CollabError (Screen.Tab α) :=
  if tab.id ≠ accepted.documentID then .ok tab
  else if accepted.revision ≠ tab.revision + 1 then .error .revisionConflict
  else (Content.edit accepted.changes tab.content).map fun content =>
    { tab with content, revision := accepted.revision }

/-- A tab with its text read in another way. -/
def Screen.Tab.map (read : α → β) (tab : Screen.Tab α) : Screen.Tab β :=
  { tab with content := read tab.content }

namespace Screen

/-- The tabs after an accepted operation on the metadata, if the operation says what its kind
needs. -/
def arranged [Content α] (tabs : List (Tab α)) (accepted : AcceptedMetadataOperation) :
    Option (List (Tab α)) :=
  match accepted.kind with
  | "document_create" =>
      if accepted.documentID ∈ tabs.map Screen.Tab.id then none
      else (accepted.state.documents.find? fun document =>
        document.id == accepted.documentID).map fun document =>
          tabs ++ [document.tab.map Content.read]
  | "document_update" =>
      if accepted.documentID = "" ∨ accepted.name = "" ∨ accepted.language = "" then none
      else some <| tabs.map fun tab =>
        if tab.id = accepted.documentID then
          { tab with name := accepted.name, language := accepted.language }
        else tab
  | "document_delete" =>
      if accepted.documentID = "" then none
      else some <| tabs.filter fun tab => tab.id ≠ accepted.documentID
  | "document_reorder" =>
      if accepted.order = [] ∨ ¬accepted.order.Perm (tabs.map Screen.Tab.id) then none
      else some <| accepted.order.filterMap fun id => tabs.find? fun tab => tab.id == id
  | _ => none

/-- Apply an accepted operation on the metadata. -/
def arrange [Content α] (screen : Screen α) (accepted : AcceptedMetadataOperation) :
    Except CollabError (Screen α) :=
  if accepted.revision ≠ screen.metadataRevision + 1 then .error .revisionConflict
  else match arranged screen.tabs accepted with
    | none => .error (.invalidChangeSet .malformed)
    | some tabs => .ok ⟨accepted.revision, tabs⟩

/-- Apply an accepted change of a document. -/
def edit [Content α] (screen : Screen α) (accepted : AcceptedDocumentOperation) :
    Except CollabError (Screen α) :=
  if accepted.changes.WellFormed then
    (screen.tabs.mapM fun tab : Tab α => tab.edit accepted).map fun tabs => { screen with tabs }
  else .error (.invalidChangeSet .malformed)

/-- Apply what has been accepted. -/
def apply [Content α] (screen : Screen α) : View.Change → Except CollabError (Screen α)
  | .metadata accepted => screen.arrange accepted
  | .document accepted => screen.edit accepted

/-- The revisions with which a client joins. -/
def known (screen : Screen α) : KnownRevisions where
  metadata := screen.metadataRevision
  documents := (screen.tabs.map fun tab => (⟨tab.id, tab.revision⟩ : Sigma fun _ => Int)).toAList

end Screen

end Screens

namespace Room

/-- The tab of a document of the room. -/
def tab (room : Room) (id : String) : Option View.Tab :=
  (room.documents.lookup id).map fun document =>
    { id, name := document.snapshot.name, language := document.snapshot.language
      content := document.snapshot.content, revision := document.snapshot.currentRevision }

/-- What a client shows that has received everything. -/
def view (room : Room) : View where
  metadataRevision := room.snapshot.metadataRevision
  tabs := room.order.filterMap room.tab

end Room

/-! ## Lists of tabs -/

namespace View

section Tabs

variable {order : List String} {tab : String → Option View.Tab}

/-- Tabs are listed under their ids. -/
theorem map_id_tabs (named : ∀ id shown, tab id = some shown → shown.id = id)
    (present : ∀ id ∈ order, (tab id).isSome) :
    (order.filterMap tab).map Screen.Tab.id = order := by
  induction order with
  | nil => rfl
  | cons id order induction =>
      obtain ⟨shown, found⟩ := Option.isSome_iff_exists.mp (present id List.mem_cons_self)
      rw [List.filterMap_cons_some found, List.map_cons, named id shown found,
        induction fun other member => present other (.tail _ member)]

/-- A tab is found under its id. -/
theorem find?_tabs (named : ∀ id shown, tab id = some shown → shown.id = id) {id : String}
    (member : id ∈ order) (present : (tab id).isSome) :
    ((order.filterMap tab).find? fun shown => shown.id == id) = tab id := by
  obtain ⟨shown, found⟩ := Option.isSome_iff_exists.mp present
  induction order with
  | nil => cases member
  | cons first order induction =>
      by_cases here : first = id
      · subst here
        rw [List.filterMap_cons_some found, List.find?_cons, named first shown found,
          beq_self_eq_true, found]
      · have later := induction (List.mem_of_ne_of_mem (Ne.symm here) member)
        cases other : tab first with
        | none => rw [List.filterMap_cons_none other, later]
        | some tab' =>
            rw [List.filterMap_cons_some other, List.find?_cons, named first tab' other,
              beq_false_of_ne here, later]

end Tabs

/-- The revision that a client sends for a tab. -/
theorem known_lookup {view : View} (distinct : (view.tabs.map Screen.Tab.id).Nodup) {tab : View.Tab}
    (member : tab ∈ view.tabs) : view.known.documents.lookup tab.id = some tab.revision := by
  have keys : (view.tabs.map fun tab =>
      (⟨tab.id, tab.revision⟩ : Sigma fun _ : String => Int)).NodupKeys := by
    unfold List.NodupKeys List.keys
    rw [List.map_map]
    exact distinct
  unfold Screen.known AList.lookup List.toAList
  rw [List.dlookup_dedupKeys]
  exact List.mem_dlookup keys (List.mem_map.mpr ⟨tab, member, rfl⟩)

end View

namespace Room

section Shown

variable {room : Room}

theorem id_of_tab {id : String} {tab : View.Tab} (found : room.tab id = some tab) :
    tab.id = id := by
  obtain ⟨document, _, rfl⟩ := Option.map_eq_some_iff.mp found
  rfl

theorem isSome_tab {id : String} : (room.tab id).isSome ↔ id ∈ room.documents := by
  rw [tab, Option.isSome_map, AList.lookup_isSome]

/-- A room shows the documents that it lists. -/
theorem Listed.map_id_view (listed : room.Listed) : room.view.tabs.map Screen.Tab.id = room.order :=
  View.map_id_tabs (fun _ _ => id_of_tab) fun id member =>
    isSome_tab.mpr ((listed.present id).mpr member)

/-- The documents have their keys as ids, which are not empty. -/
structure Identified (room : Room) : Prop where
  keyed : ∀ id document, room.documents.lookup id = some document → document.snapshot.id = id
  named : ∀ id ∈ room.documents, id ≠ ""

theorem Formed.identified (formed : room.Formed) : room.Identified where
  keyed id document found := (formed.documents id document found).keyed
  named id member := by
    obtain ⟨document, found⟩ := Option.isSome_iff_exists.mp (AList.lookup_isSome.mpr member)
    obtain ⟨keyed, valid, _⟩ := formed.documents id document found
    rw [← keyed]
    exact (require_eq_ok.mp valid.id).1

/-- The state that the server sends shows the room. -/
theorem Identified.state_tabs (identified : room.Identified) :
    room.state.documents.map DocumentState.tab = room.view.tabs := by
  have documents : room.state.documents.map DocumentState.tab =
      room.order.zipIdx.filterMap fun entry => room.tab entry.1 := by
    rw [state, List.map_filterMap]
    refine List.filterMap_congr fun entry _ => ?_
    rw [Option.map_map, tab]
    cases found : room.documents.lookup entry.1 with
    | none => rfl
    | some document =>
        rw [Option.map_some, Option.map_some, ← identified.keyed _ document found]
        rfl
  have numbered : (room.order.zipIdx.map Prod.fst).filterMap room.tab =
      room.order.zipIdx.filterMap fun entry => room.tab entry.1 := List.filterMap_map
  rw [documents, ← numbered, List.zipIdx_map_fst]
  rfl

/-- A document of the state that the server sends. -/
theorem Identified.state_find (identified : room.Identified) {id : String}
    (member : id ∈ room.order) (present : id ∈ room.documents) :
    ((room.state.documents.find? fun document => document.id == id).map DocumentState.tab) =
      room.tab id := by
  have found := List.find?_map (p := fun shown : View.Tab => shown.id == id)
    (f := DocumentState.tab) (l := room.state.documents)
  rw [identified.state_tabs, Room.view, View.find?_tabs (fun _ _ => id_of_tab) member
    (isSome_tab.mpr present)] at found
  exact found.symm

/-- The position of a document in the state that the server sends is its place in the order. -/
theorem Identified.state_position (identified : room.Identified) {document : DocumentState}
    (member : document ∈ room.state.documents) :
    ∃ place : Nat, document.position = place ∧ room.order[place]? = some document.id := by
  obtain ⟨⟨id, place⟩, listed, shown⟩ := List.mem_filterMap.mp member
  obtain ⟨document', found, rfl⟩ := Option.map_eq_some_iff.mp shown
  refine ⟨place, rfl, ?_⟩
  rw [show document'.snapshot.id = id from identified.keyed id document' found]
  exact List.mk_mem_zipIdx_iff_getElem?.mp listed

end Shown

end Room

end Oxbin.Live
