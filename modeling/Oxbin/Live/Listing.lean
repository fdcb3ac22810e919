import Oxbin.Live.Stored

/-!
# The documents of a room and their order

The order of a room lists its documents.  The operations keep it so, and the size of the room is
the sum over the order.
-/

namespace Oxbin.Live

open Livecollab Storage

namespace Room

/-- The order lists the documents, each once, and there are some. -/
structure Listed (room : Room) : Prop where
  nonempty : room.order ≠ []
  nodup : room.order.Nodup
  present : ∀ id, id ∈ room.documents ↔ id ∈ room.order

section Size

variable {room : Room}

theorem Formed.listed (formed : room.Formed) : room.Listed :=
  ⟨formed.nonempty, formed.order, formed.present⟩

theorem Listed.perm_keys (listed : room.Listed) : room.documents.keys.Perm room.order := by
  rw [List.perm_ext_iff_of_nodup room.documents.keys_nodup listed.nodup]
  intro id
  rw [← listed.present]
  exact AList.mem_keys.symm

/-- The size of the room with another content for a document. -/
theorem Listed.contentSizeWith_eq (listed : room.Listed) {documentID : String}
    (named : documentID ≠ "") (content : String) : room.contentSizeWith documentID content =
      (room.order.map fun id => ((room.documents.lookup id).map fun document =>
        if id = documentID then byteLen content
        else byteLen document.snapshot.content).getD 0).sum := by
  rw [contentSizeWith, if_neg named]
  exact Keyed.sum_entries (fun id document =>
    if id = documentID then byteLen content else byteLen document.snapshot.content) room.documents
      listed.perm_keys

/-- The size of the room with another document. -/
theorem Listed.contentSizeWith_new (listed : room.Listed) (content : String) :
    room.contentSizeWith "" content = room.bytes + byteLen content := by
  have sum := Keyed.sum_entries (fun _ document => byteLen document.snapshot.content)
    room.documents listed.perm_keys
  have total : room.documents.total (fun document => byteLen document.snapshot.content) =
      room.bytes := by
    rw [Keyed.total, Keyed.values, List.map_map]
    exact sum
  rw [contentSizeWith, if_pos rfl, total]

theorem bytesOf_nonneg (room : Room) (id : String) : 0 ≤ room.bytesOf id := by
  unfold bytesOf
  cases room.documents.lookup id with
  | none => exact le_rfl
  | some document => exact Int.natCast_nonneg _

theorem bytesOf_sync (room : Room) (id : String) :
    room.syncSnapshot.bytesOf id = room.bytesOf id := by
  have lookup : room.syncSnapshot.documents.lookup id =
      (room.documents.lookup id).map (positioned room.order id) := Keyed.lookup_mapKeyed _ _ _
  rw [bytesOf, lookup, Option.map_map, bytesOf]
  congr 2
  funext document
  exact congrArg byteLen (Document.positioned_sameText room.order id document).content

theorem bytes_sync (room : Room) : room.syncSnapshot.bytes = room.bytes :=
  congrArg List.sum (List.map_congr_left fun id _ => room.bytesOf_sync id)

theorem Listed.sync (listed : room.Listed) : room.syncSnapshot.Listed where
  nonempty := listed.nonempty
  nodup := listed.nodup
  present id := (Keyed.mem_mapKeyed _ _ _).trans (listed.present id)

end Size

/-! ## Document operations -/

section Document

variable {room : Room} {operation : DocumentOperation} {document : Document} {changes : ChangeSet}
  {content : String}

theorem Listed.edited (listed : room.Listed) {documentID : String}
    (found : room.documents.lookup documentID = some document) (document' : Document) :
    Listed { room with documents := room.documents.insert documentID document' } where
  nonempty := listed.nonempty
  nodup := listed.nodup
  present id := by
    rw [AList.mem_insert, ← listed.present]
    constructor
    · rintro (rfl | old)
      · exact mem_documents_iff.mpr ⟨document, found⟩
      · exact old
    · exact .inr

/-- The edited documents fit into the room. -/
theorem Admitted.size (admitted : room.Admitted operation document changes content)
    (listed : room.Listed) {document' : Document}
    (content' : document'.snapshot.content = content) :
    bytes { room with documents := room.documents.insert operation.documentID document' } ≤
      room.options.maxBytes := by
  have named : operation.documentID ≠ "" := by
    have valid := admitted.valid
    rw [validateDocumentID, require_eq_ok] at valid
    exact valid.1
  have fits := admitted.fits
  rw [listed.contentSizeWith_eq named] at fits
  refine le_trans (le_of_eq ?_) fits
  refine congrArg List.sum (List.map_congr_left fun id listed => ?_)
  rw [bytesOf, Keyed.lookup_insert_if]
  by_cases same : id = operation.documentID
  · subst same
    rw [if_pos rfl, admitted.found]
    simp [content']
  · rw [if_neg same]
    simp [same]

end Document

/-! ## Metadata operations -/

section Metadata

variable {room : Room} {operation : MetadataOperation} {now : Time} {effect : MetadataEffect}

theorem nodup_of_validateDistinctIDs {ids seen : List String}
    (valid : validateDistinctIDs seen ids = .ok ()) : ids.Nodup ∧ ∀ id ∈ ids, id ∉ seen := by
  induction ids generalizing seen with
  | nil => exact ⟨.nil, by simp⟩
  | cons id ids induction =>
      unfold validateDistinctIDs at valid
      simp only [bind_eq_ok, require_eq_ok, exists_const] at valid
      obtain ⟨_, _, fresh, rest⟩ := valid
      obtain ⟨distinct, unseen⟩ := induction rest
      refine ⟨List.nodup_cons.mpr ⟨fun member => unseen id member (by simp), distinct⟩, ?_⟩
      intro other member
      rcases List.mem_cons.mp member with rfl | later
      · exact fresh
      · exact fun old => unseen other later (by simp [old])

theorem nodup_of_validateDocumentOrder {ids : List String} {maxTabs : Int}
    (valid : validateDocumentOrder ids maxTabs = .ok ()) : ids.Nodup ∧ ids ≠ [] := by
  unfold validateDocumentOrder at valid
  rw [require_bind_eq_ok] at valid
  exact ⟨(nodup_of_validateDistinctIDs valid.2).1, valid.1.2.1⟩

/-- As many distinct documents as the order lists are a permutation of it. -/
theorem Listed.perm_order {order : List String} (listed : room.Listed) (nodup : order.Nodup)
    (complete : order.length = room.order.length) (known : ∀ id ∈ order, id ∈ room.documents) :
    order.Perm room.order := by
  have subset : order ⊆ room.order := fun id member => (listed.present id).mp (known id member)
  exact (List.subperm_of_subset nodup subset).perm_of_length_le complete.ge

/-- Every operation on the metadata keeps the order a list of the documents. -/
theorem MetadataChange.listed (change : room.MetadataChange operation now effect)
    (listed : room.Listed) : effect.room.Listed := by
  cases change with
  | create documentID kind space name language content fits valid fresh =>
      have absent : documentID ∉ room.order := mt (listed.present documentID).mpr fresh
      constructor
      case nonempty => simp
      case nodup =>
        refine listed.nodup.append (List.nodup_singleton _) ?_
        rwa [List.disjoint_singleton]
      case present =>
        intro id
        rw [AList.mem_insert, listed.present, List.mem_append, List.mem_singleton, or_comm]
  | update document kind found name language => exact listed.edited found _
  | delete kind several found =>
      have member := (listed.present operation.documentID).mp found
      constructor
      case nonempty =>
        intro empty
        have length := List.length_erase_of_mem member
        have positive := List.length_pos_iff.mpr listed.nonempty
        rw [show room.order.erase operation.documentID = [] from empty, List.length_nil] at length
        omega
      case nodup => exact listed.nodup.erase _
      case present =>
        intro id
        change id ∈ room.documents.erase operation.documentID ↔
          id ∈ room.order.erase operation.documentID
        rw [listed.nodup.mem_erase_iff, ← listed.present, AList.mem_erase]
  | reorder kind valid complete known =>
      obtain ⟨nodup, nonempty⟩ := nodup_of_validateDocumentOrder valid
      have perm := listed.perm_order nodup complete known
      exact ⟨nonempty, nodup, fun id => (listed.present id).trans perm.mem_iff.symm⟩

/-- The documents still fit into the room after a change of the metadata. -/
theorem MetadataChange.size (change : room.MetadataChange operation now effect)
    (listed : room.Listed) (size : room.bytes ≤ room.options.maxBytes) :
    effect.room.bytes ≤ room.options.maxBytes := by
  cases change with
  | create documentID kind space name language content fits valid fresh =>
      have absent : documentID ∉ room.order := mt (listed.present documentID).mpr fresh
      rw [listed.contentSizeWith_new] at fits
      refine le_trans (le_of_eq ?_) fits
      rw [bytes, List.map_append, List.sum_append, bytes]
      congr 1
      · refine congrArg List.sum (List.map_congr_left fun id member => ?_)
        have other : id ≠ documentID := fun same => absent (same ▸ member)
        rw [bytesOf, Keyed.lookup_insert_if, if_neg other, bytesOf]
      · rw [List.map_singleton, List.sum_singleton, bytesOf, Keyed.lookup_insert_if, if_pos rfl]
        rfl
  | update document kind found name language =>
      refine le_trans (le_of_eq ?_) size
      refine congrArg List.sum (List.map_congr_left fun id _ => ?_)
      rw [bytesOf, Keyed.lookup_insert_if, bytesOf]
      split
      case isTrue same =>
        rw [same, found]
        rfl
      case isFalse => rfl
  | delete kind several found =>
      refine le_trans ?_ size
      have member := (listed.present operation.documentID).mp found
      have parts := ((List.perm_cons_erase member).map room.bytesOf).sum_eq
      rw [List.map_cons, List.sum_cons] at parts
      have kept : ((room.order.erase operation.documentID).map room.bytesOf).sum ≤ room.bytes := by
        have := room.bytesOf_nonneg operation.documentID
        rw [bytes, parts]
        omega
      refine le_trans (le_of_eq ?_) kept
      refine congrArg List.sum (List.map_congr_left fun id member => ?_)
      have other := ((listed.nodup.mem_erase_iff).mp member).1
      have erased : (room.documents.erase operation.documentID).lookup id =
          room.documents.lookup id := AList.lookup_erase_ne other
      exact congrArg (fun found : Option Document => (found.map fun document =>
        byteLen document.snapshot.content).getD 0) erased
  | reorder kind valid complete known =>
      obtain ⟨nodup, _⟩ := nodup_of_validateDocumentOrder valid
      exact (((listed.perm_order nodup complete known).map room.bytesOf).sum_eq).le.trans size

end Metadata

end Room

end Oxbin.Live
