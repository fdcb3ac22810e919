import Oxbin.Live.Bridging

/-!
# Counting revisions

A client counts the revisions of the operations that it is sent, for the metadata and for each
document.  What `bridge` returns counts on from the revisions with which the client has joined.
-/

namespace Oxbin.Live

open Livecollab

namespace KnownRevisions

/-- The revisions after an operation, if it is the next one of its kind.  A document that is created
begins with revision 0. -/
def receive (known : KnownRevisions) : View.Change → Option KnownRevisions
  | .metadata accepted =>
      if accepted.revision = known.metadata + 1 then
        some ⟨accepted.revision, if accepted.kind = "document_create" then
          known.documents.insert accepted.documentID 0 else known.documents⟩
      else none
  | .document accepted =>
      if known.documents.lookup accepted.documentID = some (accepted.revision - 1) then
        some { known with
          documents := known.documents.insert accepted.documentID accepted.revision }
      else none

/-- The revisions are those of a view. -/
def Covers (known : KnownRevisions) (view : View) : Prop :=
  known.metadata = view.metadataRevision ∧
    ∀ tab ∈ view.tabs, known.documents.lookup tab.id = some tab.revision

theorem covers_known {view : View} (distinct : (view.tabs.map Screen.Tab.id).Nodup) :
    view.known.Covers view :=
  ⟨rfl, fun _ member => View.known_lookup distinct member⟩

section Step

variable {known : KnownRevisions} {view view' : View}

/-- A change of a document that a view shows is the next one. -/
theorem Covers.edit (covers : known.Covers view) {accepted : AcceptedDocumentOperation}
    (edited : view.edit accepted = .ok view')
    (shown : accepted.documentID ∈ view.tabs.map Screen.Tab.id) :
    ∃ known', known.receive (.document accepted) = some known' ∧ known'.Covers view' := by
  obtain ⟨_, metadata, tabs⟩ := Screen.edit_ok edited
  obtain ⟨tab, member, own⟩ := List.mem_map.mp shown
  have next : known.documents.lookup accepted.documentID = some (accepted.revision - 1) := by
    obtain ⟨tab', _, changed⟩ := exists_forall₂ tabs member
    rcases Screen.Tab.edit_cases changed with ⟨other, _⟩ | ⟨_, revision, _⟩
    · exact absurd own other
    · rw [← own, covers.2 tab member, revision, Int.add_sub_cancel]
  refine ⟨_, if_pos next, covers.1.trans metadata.symm, fun tab' member' => ?_⟩
  obtain ⟨tab, member, changed⟩ := exists_forall₂ tabs.flip member'
  rcases Screen.Tab.edit_cases changed with ⟨other, rfl⟩ | ⟨own, _, _, _, rfl⟩
  · exact (AList.lookup_insert_ne other).trans (covers.2 tab' member)
  · rw [← own]
    exact AList.lookup_insert _

end Step

section Rooms

variable {known : KnownRevisions} {room final : Room} {annals : Annals}

theorem covers_of_current (metadata : known.metadata = room.snapshot.metadataRevision)
    (documents : ∀ id ∈ room.order, known.documents.lookup id = some (room.current id)) :
    known.Covers room.view := by
  refine ⟨metadata, fun tab member => ?_⟩
  obtain ⟨id, listed, found⟩ := List.mem_filterMap.mp member
  rw [Room.id_of_tab found, documents id listed, Room.current, found]
  rfl

theorem Covers.current (covers : known.Covers room.view) (listed : room.Listed) {id : String}
    (member : id ∈ room.order) : known.documents.lookup id = some (room.current id) := by
  obtain ⟨tab, found⟩ := Option.isSome_iff_exists.mp
    (Room.isSome_tab.mpr ((listed.present id).mpr member))
  have covered := covers.2 tab (List.mem_filterMap.mpr ⟨id, member, found⟩)
  rw [Room.id_of_tab found] at covered
  rw [covered, Room.current, found]
  rfl

/-- An accepted operation on the metadata is the next one. -/
theorem Covers.arrange (covers : known.Covers room.view) (listed : room.Listed)
    {operation : MetadataOperation} {now : Time} {effect : Room.MetadataEffect}
    (change : room.MetadataChange operation now effect)
    (arrangement : room.Arrangement annals effect final) (state : RoomState) :
    ∃ known', known.receive (.metadata { room.acceptedMetadata operation effect with state }) =
      some known' ∧ known'.Covers final.view := by
  have next : room.snapshot.metadataRevision + 1 = known.metadata + 1 := by
    rw [covers.1]
    rfl
  have documents (id : String) (member : id ∈ final.order) :
      (if operation.kind = "document_create" then known.documents.insert effect.documentID 0
        else known.documents).lookup id = some (final.current id) := by
    rw [arrangement.order] at member
    rw [arrangement.current]
    rcases (change.rearranged listed).old_or_new member with ⟨old, other⟩ | ⟨kind, own, zero⟩
    · rw [Room.current_of_text ((change.rearranged listed).text listed old member),
        ← covers.current listed old]
      split
      case isTrue created => exact AList.lookup_insert_ne fun own => other ⟨created, own⟩
      case isFalse => rfl
    · rw [if_pos kind, zero, own]
      exact AList.lookup_insert _
  exact ⟨_, if_pos next, covers_of_current arrangement.metadataRevision.symm documents⟩

end Rooms

/-! ## What `bridge` returns -/

section Bridge

variable {known : KnownRevisions} {room : Room} {annals : Annals}

/-- The operations on the metadata count as the first loop of `bridge` does. -/
theorem receive_metadata {log : List AcceptedMetadataOperation}
    (numbered : NumberedFrom known.metadata log) {bound : Int} (reached : bound ≤ known.metadata)
    {scan : Room.BridgeScan} (same : scan.knownDocuments = known.documents) :
    (log.map View.Change.metadata).foldlM receive known = some ⟨known.metadata + log.length,
      (log.foldl (Room.scanMetadata bound) scan).knownDocuments⟩ := by
  induction log generalizing known scan with
  | nil =>
      rw [List.length_nil, Nat.cast_zero, Int.add_zero, List.foldl_nil, same]
      rfl
  | cons accepted log induction =>
      obtain ⟨revision, rest⟩ := numbered
      have newer : bound < accepted.revision := by omega
      rw [List.map_cons, List.foldlM_cons, receive, if_pos revision, Option.bind_eq_bind,
        Option.bind_some, List.foldl_cons]
      have later := @induction ⟨accepted.revision, if accepted.kind = "document_create" then
        known.documents.insert accepted.documentID 0 else known.documents⟩
        (revision ▸ rest) newer.le (Room.scanMetadata bound scan accepted) ?_
      · rw [later, List.length_cons]
        congr 2
        push_cast
        omega
      · unfold Room.scanMetadata
        rw [if_neg (by omega)]
        simp only
        split
        case h_1 kind => rw [if_pos kind, same]
        case h_2 kind => rw [if_neg (by simp [kind]), same]
        case h_3 other _ => rw [if_neg other, same]

/-- Changes that lead documents on count their revisions on. -/
theorem receive_documents {changes : List AcceptedDocumentOperation}
    {version last : String → Int} (retraces : room.Retraces annals version changes last)
    (within : ∀ accepted ∈ changes, accepted.documentID ∈ room.order)
    (starts : ∀ id ∈ room.order, known.documents.lookup id = some (version id)) :
    ∃ known', (changes.map View.Change.document).foldlM receive known = some known' ∧
      known'.metadata = known.metadata ∧
      ∀ id ∈ room.order, known'.documents.lookup id = some (last id) := by
  induction retraces generalizing known with
  | done => exact ⟨known, rfl, rfl, starts⟩
  | change version last accepted later wellFormed next below applied _ induction =>
      have first : known.documents.lookup accepted.documentID = some (accepted.revision - 1) := by
        rw [starts _ (within accepted List.mem_cons_self), next, Int.add_sub_cancel]
      rw [List.map_cons, List.foldlM_cons, receive, if_pos first, Option.bind_eq_bind,
        Option.bind_some]
      refine induction (fun other member => within other (.tail _ member)) fun id member => ?_
      by_cases own : id = accepted.documentID
      · rw [own, Function.update_self]
        exact AList.lookup_insert _
      · rw [Function.update_of_ne own, ← starts id member]
        exact AList.lookup_insert_ne own

/-- Whatever a client knows, `bridge` asks for a new snapshot or counts on to the present. -/
theorem receive_bridge (listed : room.Listed)
    (histories : ∀ id document, room.documents.lookup id = some document →
      HistoryFormed document.history) (recollects : room.Recollects annals) (minuted : room.Minuted)
    (bridged : (room.bridgeKnown known).resync = false) :
    ∃ known', (room.bridgeKnown known).changes.foldlM receive known = some known' ∧
      known'.Covers room.view := by
  obtain ⟨_, numbered, counted, version, last, scanned, retraces, arrived⟩ :=
    room.bridge_spec listed histories recollects minuted bridged
  have metadata := receive_metadata numbered le_rfl
    (show (Room.startScan known.documents).knownDocuments = known.documents from rfl)
  rw [BridgeResult.changes, List.foldlM_append, metadata]
  obtain ⟨known', received, kept, documents⟩ := @receive_documents ⟨_, _⟩ _ _ _ _ _ retraces
    (fun accepted member => (room.documentChanges_spec known accepted member).2) scanned
  refine ⟨known', received, covers_of_current (kept.trans counted) fun id member => ?_⟩
  rw [documents id member, arrived id member]

end Bridge

end KnownRevisions

end Oxbin.Live
