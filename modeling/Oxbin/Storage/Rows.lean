import Oxbin.Storage.LiveStore

/-!
# Rows of documents

The rows of one room are distinguished by their document IDs.  Updating a row and synchronising
all rows with a snapshot are described by the row that is found for an ID.
-/

namespace Oxbin.Storage

open Live

namespace Tables

/-- The row with a document ID. -/
def rowOf (rows : List DocumentRow) (documentID : String) : Option DocumentRow :=
  rows.find? fun row => row.documentID == documentID

/-- The document IDs of rows. -/
def rowIDs (rows : List DocumentRow) : List String := rows.map DocumentRow.documentID

/-- The document of a snapshot with an ID. -/
def documentOf (documents : List DocumentSnapshot) (documentID : String) :
    Option DocumentSnapshot :=
  documents.find? fun document => document.id == documentID

section Rows

variable {rows : List DocumentRow} {documents : List DocumentSnapshot} {documentID : String}

theorem rowOf_cons (row : DocumentRow) (rows : List DocumentRow) (documentID : String) :
    rowOf (row :: rows) documentID =
      if row.documentID = documentID then some row else rowOf rows documentID := by
  by_cases same : row.documentID = documentID <;> simp [rowOf, same]

theorem documentOf_cons (document : DocumentSnapshot) (documents : List DocumentSnapshot)
    (documentID : String) : documentOf (document :: documents) documentID =
      if document.id = documentID then some document else documentOf documents documentID := by
  by_cases same : document.id = documentID <;> simp [documentOf, same]

theorem rowOf_append (left right : List DocumentRow) (documentID : String) :
    rowOf (left ++ right) documentID = (rowOf left documentID).or (rowOf right documentID) :=
  List.find?_append

theorem documentID_of_rowOf {row : DocumentRow} (found : rowOf rows documentID = some row) :
    row.documentID = documentID := by
  have same := List.find?_some found
  simpa using same

theorem id_of_documentOf {document : DocumentSnapshot}
    (found : documentOf documents documentID = some document) : document.id = documentID := by
  have same := List.find?_some found
  simpa using same

theorem rowOf_eq_none : rowOf rows documentID = none ↔ documentID ∉ rowIDs rows := by
  simp [rowOf, rowIDs]

theorem documentOf_eq_none :
    documentOf documents documentID = none ↔ documentID ∉ documents.map DocumentSnapshot.id := by
  simp [documentOf]

/-- Every row is found by its ID. -/
theorem rowOf_of_mem (nodup : (rowIDs rows).Nodup) {row : DocumentRow} (member : row ∈ rows) :
    rowOf rows row.documentID = some row := by
  induction rows with
  | nil => cases member
  | cons first rows induction =>
      rw [rowIDs, List.map_cons, List.nodup_cons] at nodup
      rw [rowOf_cons]
      rcases List.mem_cons.mp member with rfl | later
      · rw [if_pos rfl]
      · rw [if_neg, induction nodup.2 later]
        intro same
        apply nodup.1
        rw [same]
        exact List.mem_map_of_mem later

theorem documentOf_of_mem (nodup : (documents.map DocumentSnapshot.id).Nodup)
    {document : DocumentSnapshot} (member : document ∈ documents) :
    documentOf documents document.id = some document := by
  induction documents with
  | nil => cases member
  | cons first documents induction =>
      rw [List.map_cons, List.nodup_cons] at nodup
      rw [documentOf_cons]
      rcases List.mem_cons.mp member with rfl | later
      · rw [if_pos rfl]
      · rw [if_neg, induction nodup.2 later]
        intro same
        apply nodup.1
        rw [same]
        exact List.mem_map_of_mem later

/-! ## Updates -/

@[simp] theorem documentRow_documentID (document : DocumentSnapshot) :
    (documentRow document).documentID = document.id := rfl

theorem rowIDs_updateDocument (rows : List DocumentRow) (document : DocumentSnapshot) :
    rowIDs (updateDocument rows document) = rowIDs rows := by
  rw [rowIDs, updateDocument, List.map_map]
  apply List.map_congr_left
  intro row _
  by_cases same : row.documentID = document.id <;> simp [same]

theorem rowOf_updateDocument (rows : List DocumentRow) (document : DocumentSnapshot)
    (documentID : String) : rowOf (updateDocument rows document) documentID =
      if documentID = document.id then (rowOf rows documentID).map fun _ => documentRow document
      else rowOf rows documentID := by
  induction rows with
  | nil => simp [updateDocument, rowOf]
  | cons row rows induction =>
      rw [updateDocument, List.map_cons, rowOf_cons, ← updateDocument, induction, rowOf_cons]
      by_cases own : row.documentID = document.id
      · rw [if_pos own, documentRow_documentID, own]
        by_cases same : document.id = documentID
        · simp [same]
        · simp [same]
      · rw [if_neg own]
        by_cases same : row.documentID = documentID
        · rw [if_pos same, if_pos same, if_neg fun edited => own (same.trans edited)]
        · rw [if_neg same, if_neg same]

/-- One step of the loop of `syncDocuments`. -/
def syncDocument (existing : List String) (rows : List DocumentRow)
    (document : DocumentSnapshot) : List DocumentRow :=
  if document.id ∈ existing then updateDocument rows document
  else rows ++ [documentRow document]

/-- A step of `syncDocuments` keeps the rows distinct and adds the ID of its document. -/
theorem rowIDs_syncDocument {existing : List String} {document : DocumentSnapshot}
    (nodup : (rowIDs rows).Nodup)
    (known : document.id ∈ existing ↔ document.id ∈ rowIDs rows) :
    (rowIDs (syncDocument existing rows document)).Nodup ∧
      ∀ documentID, documentID ∈ rowIDs (syncDocument existing rows document) ↔
        documentID = document.id ∨ documentID ∈ rowIDs rows := by
  unfold syncDocument
  split
  case isTrue old =>
    rw [rowIDs_updateDocument]
    refine ⟨nodup, fun documentID => ⟨.inr, ?_⟩⟩
    rintro (rfl | member)
    · exact known.mp old
    · exact member
  case isFalse new =>
    have appended : rowIDs (rows ++ [documentRow document]) = rowIDs rows ++ [document.id] := by
      simp [rowIDs]
    rw [appended]
    refine ⟨nodup.append (List.nodup_singleton _) ?_, fun documentID => ?_⟩
    · rw [List.disjoint_singleton]
      exact mt known.mpr new
    · rw [List.mem_append, List.mem_singleton, or_comm]

/-- What is known of the documents that remain after a step. -/
theorem known_syncDocument {existing : List String} {document : DocumentSnapshot}
    (nodup : (rowIDs rows).Nodup)
    (distinct : ((document :: documents).map DocumentSnapshot.id).Nodup)
    (known : ∀ other ∈ document :: documents, other.id ∈ existing ↔ other.id ∈ rowIDs rows) :
    ∀ other ∈ documents,
      other.id ∈ existing ↔ other.id ∈ rowIDs (syncDocument existing rows document) := by
  rw [List.map_cons, List.nodup_cons] at distinct
  intro other member
  have different : other.id ≠ document.id := by
    intro same
    apply distinct.1
    rw [← same]
    exact List.mem_map_of_mem member
  rw [known other (by simp [member]), (rowIDs_syncDocument nodup (known document (by simp))).2]
  simp [different]

/-- The loop of `syncDocuments`: every document of the snapshot gets its row, the other rows
stay. -/
theorem syncDocument_fold (existing : List String) (nodup : (rowIDs rows).Nodup)
    (distinct : (documents.map DocumentSnapshot.id).Nodup)
    (known : ∀ document ∈ documents, document.id ∈ existing ↔ document.id ∈ rowIDs rows) :
    (rowIDs (documents.foldl (syncDocument existing) rows)).Nodup ∧
      ∀ documentID, rowOf (documents.foldl (syncDocument existing) rows) documentID =
        ((documentOf documents documentID).map documentRow).or (rowOf rows documentID) := by
  induction documents generalizing rows with
  | nil => exact ⟨nodup, fun _ => rfl⟩
  | cons document documents induction =>
      have step_ids := rowIDs_syncDocument nodup (known document (by simp))
      have later := known_syncDocument nodup distinct known
      rw [List.map_cons, List.nodup_cons] at distinct
      have step_row (documentID : String) :
          rowOf (syncDocument existing rows document) documentID =
            if documentID = document.id then some (documentRow document)
            else rowOf rows documentID := by
        have existing_iff := known document (by simp)
        unfold syncDocument
        split
        case isTrue old =>
          rw [rowOf_updateDocument]
          split
          case isTrue same =>
            subst same
            obtain ⟨row, found⟩ := Option.ne_none_iff_exists'.mp
              (mt rowOf_eq_none.mp (not_not.mpr (existing_iff.mp old)))
            rw [found]
            rfl
          case isFalse => rfl
        case isFalse new =>
          rw [rowOf_append, rowOf_cons, documentRow_documentID]
          split
          case isTrue same =>
            subst same
            rw [rowOf_eq_none.mpr (mt existing_iff.mpr new), if_pos rfl]
            rfl
          case isFalse other =>
            rw [if_neg (Ne.symm other)]
            exact Option.or_none
      obtain ⟨nodup', rows'⟩ := induction step_ids.1 distinct.2 later
      refine ⟨nodup', fun documentID => ?_⟩
      rw [List.foldl_cons, rows', step_row, documentOf_cons]
      by_cases same : document.id = documentID
      · subst same
        rw [if_pos rfl, if_pos rfl, documentOf_eq_none.mpr distinct.1]
        rfl
      · rw [if_neg (Ne.symm same), if_neg same]

theorem rowOf_filter (keep : DocumentRow → Bool) (nodup : (rowIDs rows).Nodup) :
    rowOf (rows.filter keep) documentID = (rowOf rows documentID).filter keep := by
  induction rows with
  | nil => rfl
  | cons row rows induction =>
      rw [rowIDs, List.map_cons, List.nodup_cons] at nodup
      have tail := induction nodup.2
      rw [List.filter_cons, rowOf_cons]
      by_cases same : row.documentID = documentID
      · rw [if_pos same]
        split
        case isTrue kept => rw [rowOf_cons, if_pos same, Option.filter_some, if_pos kept]
        case isFalse dropped =>
          rw [Option.filter_some, if_neg dropped, tail,
            rowOf_eq_none.mpr (same ▸ nodup.1)]
          rfl
      · rw [if_neg same]
        split
        · rw [rowOf_cons, if_neg same, tail]
        · exact tail

/-- After `syncDocuments` the rows are those of the snapshot. -/
theorem syncDocuments_spec (nodup : (rowIDs rows).Nodup)
    (distinct : (documents.map DocumentSnapshot.id).Nodup) :
    (rowIDs (syncDocuments rows documents)).Nodup ∧
      ∀ documentID, rowOf (syncDocuments rows documents) documentID =
        (documentOf documents documentID).map documentRow := by
  obtain ⟨written, found⟩ := syncDocument_fold (rowIDs rows) nodup distinct fun _ _ => Iff.rfl
  have equality : syncDocuments rows documents =
      (documents.foldl (syncDocument (rowIDs rows)) rows).filter fun row =>
        decide (row.documentID ∈ documents.map DocumentSnapshot.id) := rfl
  rw [equality]
  constructor
  · exact written.sublist (List.filter_sublist.map _)
  · intro documentID
    rw [rowOf_filter _ written, found]
    cases lookup : documentOf documents documentID with
    | none =>
        have absent := documentOf_eq_none.mp lookup
        cases old : rowOf rows documentID with
        | none => rfl
        | some row =>
            rw [Option.map_none, Option.none_or, Option.filter_some, if_neg]
            rw [documentID_of_rowOf old]
            simpa using absent
    | some document =>
        have same := id_of_documentOf lookup
        rw [Option.map_some, Option.some_or, Option.filter_some, if_pos]
        rw [documentRow_documentID, decide_eq_true_eq, same]
        by_contra absent
        rw [documentOf_eq_none.mpr absent] at lookup
        cases lookup

/-! ## The order of the rows -/

theorem pairwise_idxOf {order : List String} (nodup : order.Nodup) :
    order.Pairwise fun left right => order.idxOf left ≤ order.idxOf right := by
  rw [List.pairwise_iff_getElem]
  intro i j first second less
  rw [nodup.idxOf_getElem i first, nodup.idxOf_getElem j second]
  exact less.le

/-- Rows with their places in an order as positions are read in that order. -/
theorem sorted_rowIDs {order : List String} (nodup : order.Nodup)
    (same : (rowIDs rows).Perm order)
    (positions : ∀ row ∈ rows, row.position = order.idxOf row.documentID) :
    rowIDs (rows.insertionSort fun left right => left.position ≤ right.position) = order := by
  have total : Std.Total fun left right : DocumentRow => left.position ≤ right.position :=
    ⟨fun left right => le_total left.position right.position⟩
  have trans : IsTrans DocumentRow fun left right => left.position ≤ right.position :=
    ⟨fun _ _ _ => le_trans⟩
  have sorted := List.pairwise_insertionSort
    (fun left right : DocumentRow => left.position ≤ right.position) rows
  have perm := (List.perm_insertionSort
    (fun left right : DocumentRow => left.position ≤ right.position) rows)
  have places : (rowIDs (rows.insertionSort fun left right =>
      left.position ≤ right.position)).Pairwise fun left right =>
        order.idxOf left ≤ order.idxOf right := by
    rw [rowIDs, List.pairwise_map]
    refine sorted.imp_of_mem fun left right le => ?_
    rw [positions _ (perm.mem_iff.mp left), positions _ (perm.mem_iff.mp right)] at le
    exact Int.ofNat_le.mp le
  have reordered : (rowIDs (rows.insertionSort fun left right =>
      left.position ≤ right.position)).Perm order := (perm.map _).trans same
  refine List.Perm.eq_of_pairwise ?_ places (pairwise_idxOf nodup) reordered
  intro left right member _ below above
  exact (List.idxOf_inj (reordered.mem_iff.mp member)).mp (Nat.le_antisymm below above)

end Rows

end Tables

end Oxbin.Storage
