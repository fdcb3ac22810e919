import Oxbin.Live.Listing
import Oxbin.Live.Saving

/-!
# What operations do to a well-formed room

Every operation leaves a well-formed room, before and after its commit.
-/

namespace Oxbin.Live

open Livecollab Storage Storage.Tables

namespace Room

/-- Positions do not matter for the shape of a room. -/
theorem Formed.sync {room : Room} (formed : room.Formed) : room.syncSnapshot.Formed := by
  have lookup (id : String) : room.syncSnapshot.documents.lookup id =
      (room.documents.lookup id).map (positioned room.order id) := Keyed.lookup_mapKeyed _ _ _
  constructor
  case slug => exact formed.slug
  case nonempty => exact formed.nonempty
  case order => exact formed.order
  case present =>
    intro id
    rw [← AList.lookup_isSome, lookup, Option.isSome_map, AList.lookup_isSome]
    exact formed.present id
  case documents =>
    intro id document found
    rw [lookup, Option.map_eq_some_iff] at found
    obtain ⟨before, found', rfl⟩ := found
    obtain ⟨keyed, ⟨id', name, language⟩, history⟩ := formed.documents id before found'
    unfold positioned
    split
    · exact ⟨keyed, ⟨id', name, language⟩, history⟩
    · exact ⟨keyed, ⟨id', name, language⟩, history⟩
  case size =>
    rw [bytes_sync]
    exact formed.size
  case operationOrder => exact formed.operationOrder
  case recorded => exact formed.recorded
  case retained => exact formed.retained

/-! ## Document operations -/

section Document

variable {room : Room} {operation : DocumentOperation} {document : Document} {changes : ChangeSet}
  {content : String}

/-- The change set of an accepted operation can be written and read back. -/
theorem Admitted.canonical (admitted : room.Admitted operation document changes content)
    (formed : room.Formed) (canonical : operation.changes.Canonical) : changes.Canonical := by
  have history := (formed.documents _ document admitted.found).history
  obtain ⟨wellFormed, plain⟩ := rebase_formed history canonical.wellFormed canonical.plainSet
    admitted.rebased
  apply wellFormed.canonical plain
  rw [ChangeSet.oldLen_of_apply admitted.applied]
  calc utf16Len document.snapshot.content ≤ byteLen document.snapshot.content := utf16Len_le _
    _ ≤ room.options.maxBytes := formed.bytes_le admitted.found
    _ < intLimit := room.options.maxBytes_small

/-- The edited room is well formed. -/
theorem Admitted.edited_formed (admitted : room.Admitted operation document changes content)
    (formed : room.Formed) (revision : Int) (now : Time) :
    (room.editDocument operation.documentID document content revision now).Formed := by
  have listed := formed.listed.edited admitted.found { document with
    snapshot := { document.snapshot with
      content, currentRevision := revision, updatedAt := now } }
  apply Formed.sync
  constructor
  case slug => exact formed.slug
  case nonempty => exact formed.nonempty
  case order => exact formed.order
  case present => exact listed.present
  case documents =>
    intro id edited found
    rw [Keyed.lookup_insert_if] at found
    split at found
    case isTrue same =>
      cases found
      obtain ⟨keyed, ⟨id', name, language⟩, history⟩ :=
        formed.documents _ document admitted.found
      exact ⟨same ▸ keyed, ⟨id', name, language⟩, history⟩
    case isFalse => exact formed.documents id edited found
  case size => exact admitted.size formed.listed rfl
  case operationOrder => exact formed.operationOrder
  case recorded => exact formed.recorded
  case retained => exact formed.retained

end Document

/-! ## Metadata operations -/

section Metadata

variable {room : Room} {operation : MetadataOperation} {now : Time} {effect : MetadataEffect}

/-- An operation on the metadata changes nothing but the documents and their order. -/
theorem MetadataChange.rest (change : room.MetadataChange operation now effect) :
    { effect.room with documents := room.documents, order := room.order }.shared = room.shared := by
  cases change <;> rfl

/-- The documents are well formed after a change of the metadata. -/
theorem MetadataChange.documents_formed (change : room.MetadataChange operation now effect)
    (formed : room.Formed) {id : String} {document : Document}
    (found : effect.room.documents.lookup id = some document) : document.Formed id := by
  cases change with
  | create documentID kind space name language content fits valid fresh =>
      rw [Keyed.lookup_insert_if] at found
      split at found
      case isTrue same =>
        cases found
        exact ⟨same.symm, ⟨valid, name, language⟩, by simp [HistoryFormed]⟩
      case isFalse => exact formed.documents id document found
  | update before kind present name language =>
      rw [Keyed.lookup_insert_if] at found
      split at found
      case isTrue same =>
        cases found
        obtain ⟨keyed, ⟨id', _, _⟩, history⟩ := formed.documents _ before present
        exact ⟨same ▸ keyed, ⟨id', name, language⟩, history⟩
      case isFalse => exact formed.documents id document found
  | delete kind several present =>
      have lookup := Keyed.lookup_erase_if room.documents id operation.documentID
      rw [show (room.documents.erase operation.documentID).lookup id = some document from found]
        at lookup
      split at lookup
      case isTrue => cases lookup
      case isFalse => exact formed.documents id document lookup.symm
  | reorder kind valid complete known => exact formed.documents id document found

/-- The changed room is well formed. -/
theorem MetadataChange.changed_formed (change : room.MetadataChange operation now effect)
    (formed : room.Formed) : (room.metadataChanged effect).Formed := by
  have field {α : Type} (read : Room → α) := congrArg read change.rest
  have slug := field fun room => room.snapshot.slug
  have operations := field Room.operations
  have operationOrder := field Room.operationOrder
  have options := field Room.options
  have listed := change.listed formed.listed
  simp only [shared] at slug operations operationOrder options
  apply Formed.sync
  constructor
  case slug =>
    simp only [slug]
    exact formed.slug
  case nonempty => exact listed.nonempty
  case order => exact listed.nodup
  case present => exact listed.present
  case documents => exact fun id document found => change.documents_formed formed found
  case size =>
      exact (change.size formed.listed formed.size).trans (congrArg HubOptions.maxBytes options).ge
  case operationOrder =>
    simp only [operationOrder]
    exact formed.operationOrder
  case recorded =>
    simp only [operations, operationOrder]
    exact formed.recorded
  case retained =>
    simp only [operationOrder, options]
    exact formed.retained

end Metadata

end Room

end Oxbin.Live
