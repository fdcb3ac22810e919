import Oxbin.Live.Creation

/-!
# What the store can recover

A document is recovered by replaying the changes after its snapshot revision on its stored
content.  The contents that the documents have had are written down beside the store; what a
recovery yields is compared with them.
-/

namespace Oxbin.Storage

open Live Live.Room Livecollab Tables

/-- The contents that documents have had, by room, document and revision, and the revision of the
metadata that the rows of a room reflect. -/
structure Truth where
  content : String → String → Int → String
  metadata : String → Int

namespace Truth

/-- Write down the contents of documents at their current revisions. -/
def enter (truth : Truth) (slug : String) (documents : List DocumentSnapshot) : Truth :=
  { truth with
    content := fun slug' id version =>
      match documentOf documents id with
      | none => truth.content slug' id version
      | some document =>
          if slug' = slug ∧ version = document.currentRevision then document.content
          else truth.content slug' id version }

/-- Write down the revision of the metadata that the rows reflect. -/
def reflect (truth : Truth) (slug : String) (revision : Int) : Truth :=
  { truth with metadata := fun slug' => if slug' = slug then revision else truth.metadata slug' }

/-- The content to which a change leads. -/
def after (truth : Truth) (slug : String) (change : ChangeRecord) : Except LiveError String := do
  let changes ← decodeDocumentChange change.payload
  (changes.apply (truth.content slug change.streamID (change.revision - 1))).mapError
    LiveError.collab

/-- Write down the content to which a change of a document leads. -/
def append (truth : Truth) (slug : String) (change : ChangeRecord) : Truth :=
  match change.streamKind, truth.after slug change with
  | .document, .ok content =>
      { truth with
        content := fun slug' id version =>
          if slug' = slug ∧ id = change.streamID ∧ version = change.revision then content
          else truth.content slug' id version }
  | _, _ => truth

/-- Every change of a document is valid for the content at its base revision. -/
def Valid (slug : String) : Truth → List ChangeRecord → Prop
  | _, [] => True
  | truth, change :: changes =>
      (change.streamKind = .document → ∃ content, truth.after slug change = .ok content) ∧
        Valid slug (truth.append slug change) changes

end Truth

/-! ## Calls -/

/-- The calls that write the revisions of a room. -/
inductive Write where
  | createRoom (snapshot : RoomSnapshot)
  | appendChanges (slug : String) (changes : List ChangeRecord)
  | commitChange (commit : ChangeCommit)
  | saveSnapshot (snapshot : RoomSnapshot)
  | compactChanges (slug : String) (streamKind : StreamKind) (streamID : String)
      (throughRevision : Int)

/-- The snapshot carries the true contents of the documents that are stored. -/
def Honest (store : Store) (truth : Truth) (snapshot : RoomSnapshot) : Prop :=
  ∀ tables, store.lookup snapshot.slug = some tables → ∀ document ∈ snapshot.documents,
    document.id ∈ rowIDs tables.documents →
    document.content = truth.content snapshot.slug document.id document.currentRevision

/-- A call that succeeds, and what it adds to the truth. -/
inductive Step (store : Store) (truth : Truth) : Write → Store → Truth → Prop
  | createRoom (snapshot : RoomSnapshot) (fault : Bool) (store' : Store)
      (created : Store.createRoom store snapshot fault = .ok store') :
      Step store truth (.createRoom snapshot) store'
        ((truth.enter snapshot.slug snapshot.documents).reflect snapshot.slug
          snapshot.metadataSnapshotRevision)
  | appendChanges (slug : String) (changes : List ChangeRecord) (now : Time) (fault : Bool)
      (store' : Store) (appended : Store.appendChanges store slug changes now fault = .ok store')
      (valid : truth.Valid slug changes) :
      Step store truth (.appendChanges slug changes) store'
        (changes.foldl (fun truth change => truth.append slug change) truth)
  | commitDocument (commit : ChangeCommit) (now : Time) (fault : Bool) (store' : Store)
      (kind : commit.change.streamKind = .document)
      (committed : Store.commitChange store commit now fault = .ok store')
      (document : DocumentSnapshot)
      (listed : documentOf commit.snapshot.documents commit.change.streamID = some document) :
      Step store truth (.commitChange commit) store'
        (truth.enter commit.snapshot.slug [document])
  | commitMetadata (commit : ChangeCommit) (now : Time) (fault : Bool) (store' : Store)
      (kind : commit.change.streamKind = .metadata)
      (committed : Store.commitChange store commit now fault = .ok store')
      (honest : Honest store truth commit.snapshot) :
      Step store truth (.commitChange commit) store'
        ((truth.enter commit.snapshot.slug commit.snapshot.documents).reflect commit.snapshot.slug
          commit.snapshot.metadataSnapshotRevision)
  | saveSnapshot (snapshot : RoomSnapshot) (now : Time) (fault : Bool) (store' : Store)
      (saved : Store.saveSnapshot store snapshot now fault = .ok store')
      (honest : Honest store truth snapshot) :
      Step store truth (.saveSnapshot snapshot) store'
        ((truth.enter snapshot.slug snapshot.documents).reflect snapshot.slug
          snapshot.metadataSnapshotRevision)
  | compactChanges (slug : String) (streamKind : StreamKind) (streamID : String)
      (throughRevision : Int) (now : Time) (fault : Bool) (store' : Store)
      (compacted : Store.compactChanges store slug streamKind streamID throughRevision now fault =
        .ok store') :
      Step store truth (.compactChanges slug streamKind streamID throughRevision) store' truth

/-- The documents are stored at their current revisions. -/
def Settled (documents : List DocumentSnapshot) : Prop :=
  ∀ document ∈ documents, document.snapshotRevision = document.currentRevision

/-- The compaction goes up to the snapshot of its stream. -/
def Within (tables : Tables) (streamKind : StreamKind) (streamID : String)
    (throughRevision : Int) : Prop :=
  match streamKind with
  | .metadata => throughRevision ≤ tables.room.metadataSnapshotRevision
  | .document => ∀ row, rowOf tables.documents streamID = some row →
      throughRevision ≤ row.snapshotRevision

/-- The call keeps to what `CommitChange` checks of a document: it stores a content as the snapshot
of its own revision, and it compacts up to the snapshot. -/
def Write.Sound (store : Store) : Write → Prop
  | .createRoom snapshot | .saveSnapshot snapshot => Settled snapshot.documents
  | .appendChanges _ _ => True
  | .commitChange commit =>
      commit.change.streamKind = .metadata → Settled commit.snapshot.documents
  | .compactChanges slug streamKind streamID throughRevision =>
      ∀ tables, store.lookup slug = some tables →
        Within tables streamKind streamID throughRevision

/-- The stores that sound calls reach, with the contents that their documents have had. -/
inductive Reached : Store → Truth → Prop
  | empty (truth : Truth) : Reached ∅ truth
  | step (store store' : Store) (truth truth' : Truth) (write : Write)
      (reached : Reached store truth)
      (sound : write.Sound store) (step : Step store truth write store' truth') :
      Reached store' truth'

/-! ## Recovery -/

/-- The stored changes after the snapshot revision of a document. -/
def pending (changes : List ChangeRow) (id : String) (snapshotRevision currentRevision : Int) :
    List ChangeRow :=
  changes.filter fun change => change.inStream .document id &&
    (decide (snapshotRevision < change.revision) && decide (change.revision ≤ currentRevision))

/-- The document of a row before its replay. -/
def unreplayed (row : DocumentRow) : Document where
  snapshot := { row.snapshot with currentRevision := row.snapshotRevision }
  history := []
  historyBytes := 0
  compactedRevision := row.snapshotRevision

/-- The replay of a document row, as the hub does it. -/
def recover (options : HubOptions) (changes : List ChangeRow) (row : DocumentRow) :
    Except LiveError Document :=
  (((pending changes row.documentID row.snapshotRevision row.currentRevision).insertionSort
    fun left right => left.revision ≤ right.revision).map ChangeRow.record).foldlM
      (Room.applyPersistedDocument options) (unreplayed row)

/-- Changes lead from text to text. -/
def Leads (texts : Int → String) : Int → List ChangeRow → Prop
  | _, [] => True
  | version, change :: changes =>
      (change.revision = version + 1 ∧ ∃ changeSet, decodeDocumentChange change.payload =
          .ok changeSet ∧ changeSet.apply (texts version) = .ok (texts (version + 1))) ∧
        Leads texts (version + 1) changes

/-- The row can be recovered from the changes. -/
structure Recovers (texts : Int → String) (changes : List ChangeRow) (id : String)
    (row : DocumentRow) : Prop where
  content : row.content = texts row.snapshotRevision
  leads : Leads texts row.snapshotRevision
    (pending changes id row.snapshotRevision row.currentRevision)
  arrives : row.snapshotRevision +
    (pending changes id row.snapshotRevision row.currentRevision).length = row.currentRevision

/-- The rows of a room can be recovered. -/
structure Recoverable (truth : Truth) (slug : String) (tables : Tables) : Prop where
  distinct : (rowIDs tables.documents).Nodup
  rows : ∀ id row, rowOf tables.documents id = some row →
    Recovers (truth.content slug id) tables.changes id row
  metadata : tables.room.metadataSnapshotRevision = truth.metadata slug

section Leads

variable {texts texts' : Int → String} {version : Int} {changes : List ChangeRow}

theorem Leads.congr (leads : Leads texts version changes)
    (same : ∀ other, version ≤ other → other ≤ version + changes.length →
      texts' other = texts other) : Leads texts' version changes := by
  induction changes generalizing version with
  | nil => trivial
  | cons change changes induction =>
      obtain ⟨⟨revision, changeSet, decoded, applied⟩, rest⟩ := leads
      rw [List.length_cons, Nat.cast_add, Nat.cast_one] at same
      refine ⟨⟨revision, changeSet, decoded, ?_⟩, induction rest fun other above below =>
        same other (by omega) (by omega)⟩
      rw [same version le_rfl (by omega), same (version + 1) (by omega) (by omega), applied]

theorem Leads.append {later : List ChangeRow} (leads : Leads texts version changes)
    (rest : Leads texts (version + changes.length) later) :
    Leads texts version (changes ++ later) := by
  induction changes generalizing version with
  | nil => simpa using rest
  | cons change changes induction =>
      refine ⟨leads.1, induction leads.2 ?_⟩
      rw [List.length_cons, Nat.cast_add, Nat.cast_one] at rest
      rwa [show version + 1 + changes.length = version + (changes.length + 1) by omega]

/-- Changes that lead somewhere are in order. -/
theorem Leads.sorted (leads : Leads texts version changes) :
    (∀ change ∈ changes, version < change.revision) ∧
      changes.Pairwise fun left right => left.revision ≤ right.revision := by
  induction changes generalizing version with
  | nil => exact ⟨by simp, .nil⟩
  | cons change changes induction =>
      obtain ⟨⟨revision, _⟩, rest⟩ := leads
      obtain ⟨above, sorted⟩ := induction rest
      refine ⟨fun other member => ?_, .cons (fun other member => ?_) sorted⟩
      · rcases List.mem_cons.mp member with rfl | later
        · omega
        · have := above other later
          omega
      · have := above other member
        omega

/-- The hub's replay of changes that lead to a text. -/
theorem Leads.replay (options : HubOptions) (leads : Leads texts version changes)
    {document : Document} (content : document.snapshot.content = texts version)
    (current : document.snapshot.currentRevision = version) :
    ∃ final, (changes.map ChangeRow.record).foldlM (Room.applyPersistedDocument options) document =
        .ok final ∧ final.snapshot.content = texts (version + changes.length) ∧
      final.snapshot.currentRevision = version + changes.length := by
  induction changes generalizing version document with
  | nil => exact ⟨document, rfl, by simpa using content, by simpa using current⟩
  | cons change changes induction =>
      obtain ⟨⟨revision, changeSet, decoded, applied⟩, rest⟩ := leads
      have step : ∃ next, Room.applyPersistedDocument options document change.record = .ok next ∧
          next.snapshot.content = texts (version + 1) ∧
          next.snapshot.currentRevision = version + 1 := by
        unfold Room.applyPersistedDocument
        rw [ChangeRow.record, decoded, content, current]
        simp only [bind, Except.bind, require, revision, if_true, applied]
        exact ⟨_, rfl, rfl, rfl⟩
      obtain ⟨next, applies, content', current'⟩ := step
      obtain ⟨final, fold, content'', current''⟩ := induction rest content' current'
      rw [List.length_cons, Nat.cast_add, Nat.cast_one,
        show version + (changes.length + 1) = version + 1 + changes.length by omega]
      refine ⟨final, ?_, content'', current''⟩
      rw [List.map_cons, List.foldlM_cons, applies]
      exact fold

end Leads

/-- A row that recovers is recovered. -/
theorem Recovers.recover {texts : Int → String} {changes : List ChangeRow} {row : DocumentRow}
    (recovers : Recovers texts changes row.documentID row) (options : HubOptions) :
    ∃ final, recover options changes row = .ok final ∧
      final.snapshot.content = texts row.currentRevision ∧
      final.snapshot.currentRevision = row.currentRevision := by
  have sorted := recovers.leads.sorted.2.insertionSort_eq
  have start : (unreplayed row).snapshot.content = texts row.snapshotRevision := recovers.content
  have replayed := recovers.leads.replay options start rfl
  rw [recovers.arrives] at replayed
  unfold Storage.recover
  rwa [sorted]

/-! ## Pending changes -/

section Pending

variable {changes : List ChangeRow} {id : String} {snapshotRevision currentRevision : Int}

theorem pending_settled (changes : List ChangeRow) (id : String) (revision : Int) :
    pending changes id revision revision = [] := by
  rw [pending, List.filter_eq_nil_iff]
  intro change _ within
  simp only [Bool.and_eq_true, decide_eq_true_eq] at within
  omega

/-- A new change that does not belong to the document is not pending. -/
theorem pending_append_other {change : ChangeRow} (other : change.inStream .document id = false) :
    pending (changes ++ [change]) id snapshotRevision currentRevision =
      pending changes id snapshotRevision currentRevision := by
  rw [pending, List.filter_append, List.filter_cons_of_neg (by simp [other]), List.filter_nil,
    List.append_nil]
  rfl

/-- The next change of the document is pending after the others. -/
theorem pending_append_next {change : ChangeRow} (own : change.inStream .document id = true)
    (next : change.revision = currentRevision + 1) (behind : snapshotRevision ≤ currentRevision)
    (fresh : ∀ row ∈ changes, row.inStream .document id = true → row.revision ≠ change.revision) :
    pending (changes ++ [change]) id snapshotRevision (currentRevision + 1) =
      pending changes id snapshotRevision currentRevision ++ [change] := by
  rw [pending, List.filter_append, List.filter_cons_of_pos (by
    simp only [own, Bool.true_and, Bool.and_eq_true, decide_eq_true_eq]
    omega), List.filter_nil, pending]
  congr 1
  refine List.filter_congr fun row member => ?_
  by_cases stream : row.inStream .document id = true
  · have other := fresh row member stream
    rw [next] at other
    rw [stream, Bool.true_and, Bool.true_and]
    congr 1
    rw [decide_eq_decide]
    omega
  · rw [Bool.not_eq_true] at stream
    rw [stream, Bool.false_and, Bool.false_and]

/-- Deleting changes that the document does not wait for leaves the pending ones. -/
theorem pending_filter {keep : ChangeRow → Bool}
    (keeps : ∀ row ∈ changes, row.inStream .document id = true →
      snapshotRevision < row.revision → keep row = true) :
    pending (changes.filter keep) id snapshotRevision currentRevision =
      pending changes id snapshotRevision currentRevision := by
  rw [pending, List.filter_filter, pending]
  refine List.filter_congr fun row member => ?_
  by_cases stream : row.inStream .document id = true
  · by_cases above : snapshotRevision < row.revision
    · rw [keeps row member stream above, Bool.and_true]
    · simp [above]
  · simp [stream]

/-- A document that is stored at its current revision waits for nothing. -/
theorem Recovers.settled {texts : Int → String} {row : DocumentRow} (changes : List ChangeRow)
    (id : String) (settled : row.snapshotRevision = row.currentRevision)
    (content : row.content = texts row.currentRevision) : Recovers texts changes id row where
  content := settled ▸ content
  leads := by
    rw [settled, pending_settled]
    trivial
  arrives := by
    rw [settled, pending_settled]
    exact Int.add_zero _

theorem Recovers.behind {texts : Int → String} {row : DocumentRow}
    (recovers : Recovers texts changes id row) : row.snapshotRevision ≤ row.currentRevision := by
  have arrives := recovers.arrives
  omega

/-- What is pending decides what is recovered. -/
theorem Recovers.congr {texts : Int → String} {changes' : List ChangeRow} {row row' : DocumentRow}
    (recovers : Recovers texts changes id row) (content : row'.content = row.content)
    (snapshot : row'.snapshotRevision = row.snapshotRevision)
    (current : row'.currentRevision = row.currentRevision)
    (same : pending changes' id row.snapshotRevision row.currentRevision =
      pending changes id row.snapshotRevision row.currentRevision) :
    Recovers texts changes' id row' where
  content := by
    rw [content, snapshot]
    exact recovers.content
  leads := by
    rw [snapshot, current, same]
    exact recovers.leads
  arrives := by
    rw [snapshot, current, same]
    exact recovers.arrives

/-- The next change of a document can be recovered as well. -/
theorem Recovers.next {texts texts' : Int → String} {row : DocumentRow} {change : ChangeRow}
    {changeSet : ChangeSet} (recovers : Recovers texts changes id row)
    (own : change.inStream .document id = true) (next : change.revision = row.currentRevision + 1)
    (fresh : ∀ other ∈ changes, other.inStream .document id = true →
      other.revision ≠ change.revision)
    (decoded : decodeDocumentChange change.payload = .ok changeSet)
    (applied : changeSet.apply (texts row.currentRevision) = .ok (texts' change.revision))
    (older : ∀ version, version ≤ row.currentRevision → texts' version = texts version) :
    Recovers texts' (changes ++ [change]) id { row with currentRevision := change.revision } where
  content := by
    rw [older _ recovers.behind]
    exact recovers.content
  leads := by
    simp only [next]
    rw [pending_append_next own next recovers.behind fresh]
    have arrives := recovers.arrives
    refine (recovers.leads.congr fun version _ below => older version (by omega)).append ?_
    rw [arrives]
    refine ⟨⟨next, changeSet, decoded, ?_⟩, trivial⟩
    rw [older _ le_rfl, applied, next]
  arrives := by
    have arrives := recovers.arrives
    simp only [next]
    rw [pending_append_next own next recovers.behind fresh, List.length_append,
      List.length_singleton, Nat.cast_add, Nat.cast_one]
    omega

end Pending

/-! ## The rows of one room -/

section Rooms

variable {truth truth' : Truth} {slug : String} {tables tables' : Tables}

theorem Recoverable.congr (recoverable : Recoverable truth slug tables)
    (content : ∀ id version, truth'.content slug id version = truth.content slug id version)
    (metadata : truth'.metadata slug = truth.metadata slug) :
    Recoverable truth' slug tables where
  distinct := recoverable.distinct
  rows id row found := by
    have same : truth'.content slug id = truth.content slug id := funext (content id)
    rw [same]
    exact recoverable.rows id row found
  metadata := recoverable.metadata.trans metadata.symm

theorem Truth.enter_own (truth : Truth) (slug : String) {documents : List DocumentSnapshot}
    {id : String} {document : DocumentSnapshot} (listed : documentOf documents id = some document) :
    (truth.enter slug documents).content slug id document.currentRevision = document.content := by
  simp [Truth.enter, listed]

theorem Truth.enter_other (truth : Truth) {slug other : String} (different : other ≠ slug)
    (documents : List DocumentSnapshot) (id : String) (version : Int) :
    (truth.enter slug documents).content other id version = truth.content other id version := by
  simp only [Truth.enter]
  split
  · rfl
  · exact if_neg fun same => different same.1

/-- Rows that have been written from a settled snapshot can be recovered. -/
theorem recoverable_written {snapshot prepared : RoomSnapshot}
    (preparation : Prepared snapshot prepared) (settled : Settled snapshot.documents)
    (distinct : (rowIDs tables.documents).Nodup)
    (rows : ∀ id, rowOf tables.documents id =
      (documentOf prepared.documents id).map documentRow)
    (metadata : tables.room.metadataSnapshotRevision = snapshot.metadataSnapshotRevision)
    (truth : Truth) :
    Recoverable ((truth.enter snapshot.slug snapshot.documents).reflect snapshot.slug
      snapshot.metadataSnapshotRevision) snapshot.slug tables where
  distinct := distinct
  rows id row found := by
    obtain ⟨_, equality⟩ := preparation.equality
    rw [rows, congrArg RoomSnapshot.documents equality, documentOf, List.find?_map,
      Option.map_map, Option.map_eq_some_iff] at found
    obtain ⟨document, listed, rfl⟩ := found
    have own := truth.enter_own snapshot.slug (show documentOf snapshot.documents id = some document
      from listed)
    exact .settled _ _ (settled document (List.mem_of_find?_eq_some listed)) own.symm
  metadata := by
    rw [metadata, Truth.reflect]
    exact (if_pos rfl).symm

/-- Deleting changes up to the snapshot of their stream leaves the rows recoverable. -/
theorem Recoverable.deleteChanges (recoverable : Recoverable truth slug tables)
    {streamKind : StreamKind} {streamID : String} {through : Int}
    (within : streamKind = .document → ∀ row, rowOf tables.documents streamID = some row →
      through ≤ row.snapshotRevision) :
    Recoverable truth slug (tables.deleteChanges streamKind streamID through) where
  distinct := recoverable.distinct
  metadata := recoverable.metadata
  rows id row found := by
    refine (recoverable.rows id row found).congr rfl rfl rfl
      (pending_filter fun change _ stream above => ?_)
    rw [Bool.not_eq_true', Bool.and_eq_false_iff, decide_eq_false_iff_not]
    by_cases same : change.inStream streamKind streamID = true
    · right
      simp only [ChangeRow.inStream, decide_eq_true_eq] at stream same
      have own : streamKind = .document := same.1.symm.trans stream.1
      have name : streamID = id := same.2.symm.trans stream.2
      have := within own row (name ▸ found)
      omega
    · exact .inl (Bool.not_eq_true _ ▸ same)

theorem insertChange_fresh {change : ChangeRecord}
    (inserted : tables.insertChange change = .ok tables') :
    ∀ row ∈ tables.changes, row.inStream change.streamKind change.streamID = true →
      row.revision ≠ change.revision := by
  unfold Tables.insertChange at inserted
  split at inserted
  case isTrue => cases inserted
  case isFalse unknown =>
    intro row member stream same
    refine unknown (List.any_eq_true.mpr ⟨row, member, ?_⟩)
    rw [stream, Bool.true_and, decide_eq_true_eq, same]

/-- The rows after an edit of the row of one document. -/
theorem rowOf_map_own (rows : List DocumentRow) (streamID : String)
    (edit : DocumentRow → DocumentRow) (named : ∀ row, (edit row).documentID = row.documentID)
    (id : String) :
    rowOf (rows.map fun row => if row.documentID = streamID then edit row else row) id =
      if id = streamID then (rowOf rows id).map edit else rowOf rows id := by
  induction rows with
  | nil => simp [rowOf]
  | cons row rows induction =>
      rw [List.map_cons, rowOf_cons, rowOf_cons, induction]
      by_cases own : row.documentID = streamID
      · subst own
        by_cases same : row.documentID = id
        · simp [same, named]
        · simp [same, named]
      · by_cases same : row.documentID = id
        · subst same
          simp [own]
        · simp [own, same]

theorem rowIDs_map_own (rows : List DocumentRow) (streamID : String)
    (edit : DocumentRow → DocumentRow) (named : ∀ row, (edit row).documentID = row.documentID) :
    rowIDs (rows.map fun row => if row.documentID = streamID then edit row else row) =
      rowIDs rows := by
  rw [rowIDs, List.map_map]
  refine List.map_congr_left fun row _ => ?_
  rw [Function.comp_apply]
  split
  · exact named row
  · rfl

/-- An appended change of a document leaves the rows recoverable. -/
theorem Recoverable.appendDocument (recoverable : Recoverable truth slug tables)
    {change : ChangeRecord} (kind : change.streamKind = .document) {content : String}
    (valid : truth.after slug change = .ok content) {row : DocumentRow}
    (stored : rowOf tables.documents change.streamID = some row)
    (next : change.revision = row.currentRevision + 1)
    (fresh : ∀ other ∈ tables.changes, other.inStream .document change.streamID = true →
      other.revision ≠ change.revision) :
    Recoverable (truth.append slug change) slug { tables with
      changes := tables.changes ++ [changeRow change]
      documents := tables.documents.map fun row =>
        if row.documentID = change.streamID then { row with currentRevision := change.revision }
        else row } where
  distinct := by
    have same := rowIDs_map_own tables.documents change.streamID
      (fun row => { row with currentRevision := change.revision }) fun _ => rfl
    rw [same]
    exact recoverable.distinct
  metadata := by
    have same : (truth.append slug change).metadata = truth.metadata := by
      unfold Truth.append
      split <;> rfl
    rw [same]
    exact recoverable.metadata
  rows id row' found := by
    have entered : truth.append slug change = { truth with
        content := fun slug' id version =>
          if slug' = slug ∧ id = change.streamID ∧ version = change.revision then content
          else truth.content slug' id version } := by
      rw [Truth.append, kind, valid]
    have edited := rowOf_map_own tables.documents change.streamID
      (fun row => { row with currentRevision := change.revision }) (fun _ => rfl) id
    rw [edited] at found
    split at found
    case isTrue same =>
      subst same
      rw [stored, Option.map_some, Option.some_inj] at found
      subst found
      unfold Truth.after at valid
      rw [bind_eq_ok] at valid
      obtain ⟨changeSet, decoded, applied⟩ := valid
      rw [next, Int.add_sub_cancel] at applied
      have result : changeSet.apply (truth.content slug change.streamID row.currentRevision) =
          .ok content := by
        cases outcome :
          changeSet.apply (truth.content slug change.streamID row.currentRevision) with
        | error error =>
            rw [outcome] at applied
            cases applied
        | ok content' =>
            rw [outcome] at applied
            cases applied
            rfl
      refine (recoverable.rows change.streamID row stored).next (by
        simp [ChangeRow.inStream, changeRow, kind]) next fresh decoded ?_ fun version below => ?_
      · rw [result, entered]
        simp [changeRow]
      · rw [entered]
        exact if_neg fun impossible => by omega
    case isFalse different =>
      have other : (changeRow change).inStream .document id = false := by
        simp [ChangeRow.inStream, changeRow, kind, Ne.symm different]
      have recovers := recoverable.rows id row' found
      have content : (truth.append slug change).content slug id = truth.content slug id := by
        funext version
        rw [entered]
        exact if_neg fun impossible => different impossible.2.1
      rw [content]
      exact recovers.congr rfl rfl rfl (pending_append_other other)

/-- An appended change leaves the rows recoverable. -/
theorem Recoverable.appendChange (recoverable : Recoverable truth slug tables)
    {change : ChangeRecord} (appended : Store.appendChange tables change = .ok tables')
    (valid : change.streamKind = .document → ∃ content, truth.after slug change = .ok content) :
    Recoverable (truth.append slug change) slug tables' ∧ tables.changes <+: tables'.changes := by
  unfold Store.appendChange at appended
  split at appended
  case h_1 => cases appended
  case h_2 revision known =>
    simp only [bind_eq_ok, require_eq_ok, exists_const] at appended
    obtain ⟨next, inserted, insertion, appended⟩ := appended
    have fresh := insertChange_fresh insertion
    rw [insertChange_ok insertion] at appended
    cases kind : change.streamKind with
    | metadata =>
        rw [kind] at appended
        cases appended
        have same : truth.append slug change = truth := by rw [Truth.append, kind]
        rw [same]
        refine ⟨⟨recoverable.distinct, fun id row found => ?_, recoverable.metadata⟩, ⟨_, rfl⟩⟩
        exact (recoverable.rows id row found).congr rfl rfl rfl (pending_append_other (by
          simp [ChangeRow.inStream, changeRow, kind]))
    | document =>
        rw [kind] at appended known fresh
        cases appended
        obtain ⟨content, valid⟩ := valid kind
        obtain ⟨row, stored, current⟩ := Option.map_eq_some_iff.mp known
        refine ⟨recoverable.appendDocument kind valid stored (by rw [next, current]) fresh,
          ⟨_, rfl⟩⟩

end Rooms

/-! ## The calls -/

/-- The change is reflected by the rows: by the snapshot of its document, or by the revision of the
metadata that the rows reflect. -/
def Reflected (truth : Truth) (slug : String) (tables : Tables) (change : ChangeRow) : Prop :=
  match change.streamKind with
  | .metadata => change.revision ≤ truth.metadata slug
  | .document => ∀ row, rowOf tables.documents change.streamID = some row →
      change.revision ≤ row.snapshotRevision

theorem reflected_document {truth : Truth} {slug : String} {tables : Tables} {change : ChangeRow}
    (kind : change.streamKind = .document) : Reflected truth slug tables change ↔
      ∀ row, rowOf tables.documents change.streamID = some row →
        change.revision ≤ row.snapshotRevision := by
  rw [Reflected, kind]

theorem reflected_metadata {truth : Truth} {slug : String} {tables : Tables} {change : ChangeRow}
    (kind : change.streamKind = .metadata) : Reflected truth slug tables change ↔
      change.revision ≤ truth.metadata slug := by
  rw [Reflected, kind]

/-- The rows of every room can be recovered. -/
def AllRecoverable (store : Store) (truth : Truth) : Prop :=
  ∀ slug tables, store.lookup slug = some tables → Recoverable truth slug tables

/-- The call has written one room, and it has discarded no change that its rows do not reflect. -/
structure Turns (store : Store) (truth : Truth) (store' : Store) (truth' : Truth) (slug : String)
    (tables' : Tables) : Prop where
  result : store' = store.insert slug tables'
  content : ∀ other, other ≠ slug → ∀ id version,
    truth'.content other id version = truth.content other id version
  metadata : ∀ other, other ≠ slug → truth'.metadata other = truth.metadata other
  recoverable : Recoverable truth' slug tables'
  reflected : ∀ tables, store.lookup slug = some tables → ∀ change ∈ tables.changes,
    change ∉ tables'.changes → Reflected truth' slug tables' change

theorem Turns.all {store store' : Store} {truth truth' : Truth} {slug : String} {tables' : Tables}
    (turns : Turns store truth store' truth' slug tables') (all : AllRecoverable store truth) :
    AllRecoverable store' truth' := by
  intro other tables found
  rw [turns.result, Keyed.lookup_insert_if] at found
  split at found
  case isTrue same =>
    cases found
    exact same ▸ turns.recoverable
  case isFalse different =>
    exact (all other tables found).congr (turns.content other different)
      (turns.metadata other different)

section Calls

variable {store store' : Store} {truth : Truth} {now : Time} {fault : Bool}

theorem turns_createRoom {snapshot : RoomSnapshot}
    (created : Store.createRoom store snapshot fault = .ok store')
    (settled : Settled snapshot.documents) :
    ∃ tables', Turns store truth store' ((truth.enter snapshot.slug snapshot.documents).reflect
      snapshot.slug snapshot.metadataSnapshotRevision) snapshot.slug tables' := by
  have absent : store.lookup snapshot.slug = none := by
    unfold Store.createRoom at created
    simp only [bind_eq_ok, require_eq_ok, exists_const] at created
    obtain ⟨prepared, prepares, _, _, fresh, _⟩ := created
    obtain ⟨_, equality⟩ := (prepared_of_prepareRoomSnapshot prepares).equality
    rw [congrArg RoomSnapshot.slug equality] at fresh
    exact AList.lookup_eq_none.mpr fresh
  obtain ⟨prepared, preparation, _, result⟩ := createRoom_ok created
  refine ⟨_, result, fun other different => truth.enter_other different _,
    fun other different => if_neg different, recoverable_written preparation settled ?_
      (fun id => rowOf_map_documentRow _ id) ?_ truth, fun tables found => ?_⟩
  · rw [created_distinct preparation]
    exact preparation.distinct
  · obtain ⟨_, equality⟩ := preparation.equality
    rw [createdTables, equality]
  · rw [absent] at found
    cases found

theorem turns_saveSnapshot {snapshot : RoomSnapshot}
    (saves : Store.saveSnapshot store snapshot now fault = .ok store')
    (settled : Settled snapshot.documents) :
    ∃ tables', Turns store truth store' ((truth.enter snapshot.slug snapshot.documents).reflect
      snapshot.slug snapshot.metadataSnapshotRevision) snapshot.slug tables' := by
  unfold Store.saveSnapshot at saves
  simp only [bind_eq_ok, require_eq_ok, exists_const] at saves
  obtain ⟨prepared, prepares, _, tables, active, _, _, _, equality⟩ := saves
  have preparation := prepared_of_prepareRoomSnapshot prepares
  obtain ⟨_, prepared'⟩ := preparation.equality
  have slug : prepared.slug = snapshot.slug := by rw [prepared']
  rw [slug] at active equality
  obtain ⟨found, _⟩ := active_eq_ok.mp active
  cases equality
  refine ⟨_, rfl, fun other different => truth.enter_other different _,
    fun other different => if_neg different, recoverable_written preparation settled ?_
      (fun id => rowOf_map_documentRow _ id)
      (congrArg RoomSnapshot.metadataSnapshotRevision prepared') truth,
    fun tables' found' change member kept => ?_⟩
  · rw [rowIDs, List.map_map, congrArg RoomSnapshot.documents prepared']
    exact (map_id_timed _ _).symm ▸ preparation.distinct
  · cases found.symm.trans found'
    exact absurd member kept

/-! ### Compaction -/

theorem mem_of_not_mem_deleteChanges {tables : Tables} {streamKind : StreamKind}
    {streamID : String} {through : Int} {change : ChangeRow} (member : change ∈ tables.changes)
    (gone : change ∉ (tables.deleteChanges streamKind streamID through).changes) :
    change.streamKind = streamKind ∧ change.streamID = streamID ∧ change.revision ≤ through := by
  rw [Tables.deleteChanges, List.mem_filter, not_and] at gone
  have deleted := gone member
  simp only [Bool.not_eq_true', Bool.and_eq_false_iff, not_or, Bool.not_eq_false,
    decide_eq_true_eq, ChangeRow.inStream] at deleted
  exact ⟨deleted.1.1, deleted.1.2, deleted.2⟩

/-- The rows after `CompactChanges` has raised a snapshot revision. -/
def raised (tables : Tables) (streamKind : StreamKind) (streamID : String)
    (throughRevision : Int) : Tables :=
  match streamKind with
  | .metadata =>
      { tables with room := { tables.room with
        metadataSnapshotRevision := max tables.room.metadataSnapshotRevision throughRevision } }
  | .document =>
      { tables with documents := tables.documents.map fun row =>
        if row.documentID = streamID then
          { row with snapshotRevision := max row.snapshotRevision throughRevision }
        else row }

section Raised

variable {slug streamID : String} {tables : Tables} {streamKind : StreamKind}
  {throughRevision : Int}

theorem rowOf_raised (within : Within tables streamKind streamID throughRevision) (id : String) :
    rowOf (raised tables streamKind streamID throughRevision).documents id =
      rowOf tables.documents id := by
  cases streamKind with
  | metadata => rfl
  | document =>
      have rows := rowOf_map_own tables.documents streamID
        (fun row => { row with snapshotRevision := max row.snapshotRevision throughRevision })
        (fun _ => rfl) id
      refine rows.trans ?_
      split
      case isTrue own =>
        cases stored : rowOf tables.documents id with
        | none => rfl
        | some row => rw [Option.map_some, max_eq_left (within row (own ▸ stored))]
      case isFalse => rfl

theorem Recoverable.raised (recoverable : Recoverable truth slug tables)
    (within : Within tables streamKind streamID throughRevision) :
    Recoverable truth slug (raised tables streamKind streamID throughRevision) := by
  cases streamKind with
  | metadata =>
      have same : max tables.room.metadataSnapshotRevision throughRevision =
        tables.room.metadataSnapshotRevision := max_eq_left within
      exact ⟨recoverable.distinct, recoverable.rows, same.trans recoverable.metadata⟩
  | document =>
      refine ⟨?_, fun id row stored => ?_, recoverable.metadata⟩
      · have ids := rowIDs_map_own tables.documents streamID (fun row => { row with
          snapshotRevision := max row.snapshotRevision throughRevision }) fun _ => rfl
        exact ids.symm ▸ recoverable.distinct
      · exact recoverable.rows id row ((rowOf_raised within id).symm.trans stored)

theorem changes_raised : (raised tables streamKind streamID throughRevision).changes =
    tables.changes := by
  cases streamKind <;> rfl

end Raised

theorem compactChanges_ok {slug streamID : String} {streamKind : StreamKind} {throughRevision : Int}
    (compacts : Store.compactChanges store slug streamKind streamID throughRevision now fault =
      .ok store') :
    ∃ tables, store.lookup slug = some tables ∧ store' = store.insert slug
      ((raised tables streamKind streamID throughRevision).deleteChanges streamKind streamID
        throughRevision) := by
  unfold Store.compactChanges at compacts
  simp only [bind_eq_ok, require_eq_ok, exists_const] at compacts
  obtain ⟨_, _, _, _, tables, active, compacts⟩ := compacts
  obtain ⟨found, _⟩ := active_eq_ok.mp active
  refine ⟨tables, found, ?_⟩
  split at compacts
  case h_1 => cases compacts
  case h_2 revision known =>
    rw [require_bind_eq_ok] at compacts
    obtain ⟨_, equality⟩ := compacts
    cases equality
    rfl

theorem turns_compactChanges {slug streamID : String} {streamKind : StreamKind}
    {throughRevision : Int}
    (compacts : Store.compactChanges store slug streamKind streamID throughRevision now fault =
      .ok store') (all : AllRecoverable store truth)
    (sound : Write.Sound store (.compactChanges slug streamKind streamID throughRevision)) :
    ∃ tables', Turns store truth store' truth slug tables' := by
  obtain ⟨tables, found, result⟩ := compactChanges_ok compacts
  have recoverable := all slug tables found
  have within : Within tables streamKind streamID throughRevision := sound tables found
  have rows := rowOf_raised within
  refine ⟨_, result, fun _ _ _ _ => rfl, fun _ _ => rfl, (recoverable.raised within).deleteChanges
    fun kind row stored => ?_, fun tables' found' change member gone => ?_⟩
  · subst kind
    exact within row ((rows streamID).symm.trans stored)
  · cases found.symm.trans found'
    obtain ⟨kind, stream, below⟩ := mem_of_not_mem_deleteChanges (changes_raised.symm ▸ member) gone
    unfold Reflected
    rw [kind, stream]
    cases streamKind with
    | metadata => exact (below.trans within).trans recoverable.metadata.le
    | document =>
        exact fun row stored => below.trans (within row ((rows streamID).symm.trans stored))

/-! ### Appended changes -/

/-- The same change at another time. -/
def Timed (change change' : ChangeRecord) : Prop := ∃ createdAt, change' = { change with createdAt }

theorem mapM_prepareChange {changes changes' : List ChangeRecord}
    (prepared : changes.mapM (fun change => prepareChange change now) = .ok changes') :
    List.Forall₂ Timed changes changes' := by
  induction changes generalizing changes' with
  | nil =>
      cases prepared
      exact .nil
  | cons change changes induction =>
      rw [List.mapM_cons] at prepared
      simp only [bind_eq_ok] at prepared
      obtain ⟨change', prepares, rest, later, equality⟩ := prepared
      cases equality
      obtain ⟨_, _, timed⟩ := prepareChange_ok prepares
      exact .cons timed (induction later)

theorem Recoverable.appendChanges {slug : String} {changes changes' : List ChangeRecord}
    (timed : List.Forall₂ Timed changes changes') {truth : Truth} {tables tables' : Tables}
    (recoverable : Recoverable truth slug tables) (valid : truth.Valid slug changes)
    (appended : changes'.foldlM Store.appendChange tables = .ok tables') :
    Recoverable (changes.foldl (fun truth change => truth.append slug change) truth) slug tables' ∧
      tables.changes <+: tables'.changes := by
  induction timed generalizing truth tables with
  | nil =>
      cases appended
      exact ⟨recoverable, List.prefix_rfl⟩
  | @cons change change' changes changes' timed later induction =>
      rw [List.foldlM_cons, bind_eq_ok] at appended
      obtain ⟨middle, first, rest⟩ := appended
      obtain ⟨createdAt, rfl⟩ := timed
      obtain ⟨recoverable', initial⟩ := recoverable.appendChange first valid.1
      obtain ⟨recoverable'', further⟩ := induction recoverable' valid.2 rest
      exact ⟨recoverable'', initial.trans further⟩

theorem Truth.append_other (truth : Truth) {slug other : String} (different : other ≠ slug)
    (changes : List ChangeRecord) :
    (∀ id version, (changes.foldl (fun truth change => truth.append slug change)
        truth).content other id version = truth.content other id version) ∧
      (changes.foldl (fun truth change => truth.append slug change) truth).metadata =
        truth.metadata := by
  induction changes generalizing truth with
  | nil => exact ⟨fun _ _ => rfl, rfl⟩
  | cons change changes induction =>
      obtain ⟨content, metadata⟩ := induction (truth.append slug change)
      have first : (∀ id version, (truth.append slug change).content other id version =
          truth.content other id version) ∧
          (truth.append slug change).metadata = truth.metadata := by
        unfold Truth.append
        split
        · exact ⟨fun _ _ => if_neg fun same => different same.1, rfl⟩
        · exact ⟨fun _ _ => rfl, rfl⟩
      exact ⟨fun id version => (content id version).trans (first.1 id version),
        metadata.trans first.2⟩

theorem turns_appendChanges {slug : String} {changes : List ChangeRecord}
    (appends : Store.appendChanges store slug changes now fault = .ok store')
    (valid : truth.Valid slug changes) (all : AllRecoverable store truth) :
    ∃ tables', Turns store truth store'
      (changes.foldl (fun truth change => truth.append slug change) truth) slug tables' := by
  unfold Store.appendChanges at appends
  simp only [bind_eq_ok, require_eq_ok, exists_const] at appends
  obtain ⟨_, changes', prepared, _, tables, active, _, tables', appended, equality⟩ := appends
  obtain ⟨found, _⟩ := active_eq_ok.mp active
  cases equality
  obtain ⟨recoverable, longer⟩ :=
    (all slug tables found).appendChanges (mapM_prepareChange prepared) valid appended
  refine ⟨_, rfl, fun other different => (truth.append_other different changes).1,
    fun other different => congrFun (truth.append_other different changes).2 other, recoverable,
    fun tables' found' change member gone => ?_⟩
  cases found.symm.trans found'
  exact absurd (longer.subset member) gone

/-! ### Commits -/

/-- `CommitChange` compacts at most up to the change that it commits. -/
theorem commitChange_within {commit : ChangeCommit}
    (commits : Store.commitChange store commit now fault = .ok store') :
    commit.compactThrough ≤ commit.change.revision := by
  unfold Store.commitChange at commits
  rw [bind_eq_ok] at commits
  obtain ⟨prepared, prepares, commits⟩ := commits
  cases checked : prepareChange commit.change now with
  | error error =>
      rw [checked] at commits
      cases commits
  | ok change =>
      rw [checked] at commits
      simp only [bind_eq_ok, require_eq_ok, exists_const] at commits
      obtain ⟨_, _, limits, _⟩ := commits
      exact limits.2.1

theorem commitDocument_revisions {tables written : Tables} {snapshot : RoomSnapshot}
    {change : ChangeRecord} (committed : tables.commitDocument snapshot change = .ok written)
    {document : DocumentSnapshot} (listed : documentOf snapshot.documents change.streamID =
      some document) :
    document.currentRevision = change.revision ∧ document.snapshotRevision = change.revision := by
  unfold Tables.commitDocument at committed
  rw [show (snapshot.documents.find? fun document => document.id == change.streamID) =
    some document from listed] at committed
  simp only [require_bind_eq_ok] at committed
  exact ⟨committed.1.1, committed.1.2.1⟩

theorem Recoverable.pruneOperations {truth : Truth} {slug : String} {tables : Tables}
    (recoverable : Recoverable truth slug tables) (retain : Int) :
    Recoverable truth slug (tables.pruneOperations retain) :=
  ⟨recoverable.distinct, recoverable.rows, recoverable.metadata⟩

/-- A commit writes rows, and it may compact the stream of its change. -/
theorem turns_commit {commit : ChangeCommit} {prepared : RoomSnapshot} {tables written : Tables}
    {change : ChangeRecord} {operation : OperationRecord} {truth' : Truth}
    (writes : Writes store commit now prepared tables change operation written store')
    (limit : commit.compactThrough ≤ commit.change.revision)
    (content : ∀ other, other ≠ commit.snapshot.slug → ∀ id version,
      truth'.content other id version = truth.content other id version)
    (metadata : ∀ other, other ≠ commit.snapshot.slug →
      truth'.metadata other = truth.metadata other)
    (recoverable : Recoverable truth' commit.snapshot.slug written)
    (changes : written.changes = tables.changes ++ [changeRow change])
    (reflects : Reflected truth' commit.snapshot.slug written (changeRow change)) :
    Turns store truth store' truth' commit.snapshot.slug (Tables.pruneOperations
      (if 0 < commit.compactThrough then
        written.deleteChanges change.streamKind change.streamID commit.compactThrough
      else written) commit.retainOperations) := by
  obtain ⟨createdAt, rfl⟩ := writes.changed
  refine ⟨writes.result, content, metadata, .pruneOperations ?_ _, fun tables' found' other member
    gone => ?_⟩
  · split
    case isTrue =>
      exact recoverable.deleteChanges fun kind row stored =>
        limit.trans ((reflected_document kind).mp reflects row stored)
    case isFalse => exact recoverable
  · cases writes.found.symm.trans found'
    have kept : other ∈ written.changes := changes ▸ List.mem_append_left _ member
    split at gone
    case isTrue compacts =>
      obtain ⟨kind, stream, below⟩ := mem_of_not_mem_deleteChanges kept gone
      rw [if_pos compacts]
      cases own : commit.change.streamKind with
      | metadata =>
          have reached := (reflected_metadata own).mp reflects
          exact (reflected_metadata (kind.trans own)).mpr ((below.trans limit).trans reached)
      | document =>
          have reached := (reflected_document own).mp reflects
          refine (reflected_document (kind.trans own)).mpr fun row stored => ?_
          rw [stream] at stored
          exact (below.trans limit).trans (reached row stored)
    case isFalse => exact absurd kept gone

theorem turns_commitDocument {commit : ChangeCommit} (all : AllRecoverable store truth)
    (commits : Store.commitChange store commit now fault = .ok store')
    (kind : commit.change.streamKind = .document) {document : DocumentSnapshot}
    (listed : documentOf commit.snapshot.documents commit.change.streamID = some document) :
    ∃ tables', Turns store truth store' (truth.enter commit.snapshot.slug [document])
      commit.snapshot.slug tables' := by
  obtain ⟨prepared, tables, change, operation, written, writes⟩ := writes_of_commitChange commits
  obtain ⟨timedDocument, row, listed', stored, next, room, documents, changes, _⟩ :=
    writes.document kind
  have recoverable := all _ _ writes.found
  obtain ⟨_, equality⟩ := writes.preparation.equality
  have timely : timedDocument = timed commit.snapshot.createdAt document := by
    rw [congrArg RoomSnapshot.documents equality, documentOf, List.find?_map] at listed'
    have same := congrArg (Option.map (timed commit.snapshot.createdAt)) listed
    exact Option.some_inj.mp (listed'.symm.trans same)
  subst timely
  have named : document.id = commit.change.streamID := id_of_documentOf listed
  obtain ⟨createdAt, changed⟩ := writes.changed
  have branch := writes.branch
  rw [Tables.commitStream, changed, kind] at branch
  obtain ⟨current, settled⟩ := commitDocument_revisions branch listed'
  have rows (id : String) : rowOf written.documents id = if id = document.id then
      (rowOf tables.documents id).map fun _ =>
        documentRow (timed commit.snapshot.createdAt document)
      else rowOf tables.documents id := by
    rw [documents]
    exact rowOf_updateDocument _ _ _
  have found (id : String) : documentOf [document] id = if document.id = id then some document
      else none := documentOf_cons document [] id
  refine ⟨_, turns_commit writes (commitChange_within commits)
    (fun other different => truth.enter_other different _) (fun _ _ => rfl) ?_ changes ?_⟩
  · constructor
    case distinct =>
      rw [documents, rowIDs_updateDocument]
      exact recoverable.distinct
    case metadata =>
      rw [room]
      exact recoverable.metadata
    case rows =>
      intro id row' stored'
      rw [rows] at stored'
      split at stored'
      case isTrue own =>
        obtain ⟨before, _, rfl⟩ := Option.map_eq_some_iff.mp stored'
        have entered := truth.enter_own commit.snapshot.slug ((found id).trans (if_pos own.symm))
        exact .settled _ _ (settled.trans current.symm) entered.symm
      case isFalse different =>
        have content :
            (truth.enter commit.snapshot.slug [document]).content commit.snapshot.slug id =
            truth.content commit.snapshot.slug id := by
          funext version
          have absent := (found id).trans (if_neg (Ne.symm different))
          simp only [Truth.enter, absent]
        rw [content, changes]
        have other : (changeRow change).inStream .document id = false := by
          rw [changed]
          simp [ChangeRow.inStream, changeRow, ← named, Ne.symm different]
        exact (recoverable.rows id row' stored').congr rfl rfl rfl (pending_append_other other)
  · rw [changed]
    simp only [Reflected, changeRow, kind]
    intro row' stored'
    rw [rows, if_pos named.symm] at stored'
    obtain ⟨before, _, rfl⟩ := Option.map_eq_some_iff.mp stored'
    exact settled.ge

theorem turns_commitMetadata {commit : ChangeCommit} (all : AllRecoverable store truth)
    (commits : Store.commitChange store commit now fault = .ok store')
    (kind : commit.change.streamKind = .metadata) (settled : Settled commit.snapshot.documents) :
    ∃ tables', Turns store truth store' ((truth.enter commit.snapshot.slug
      commit.snapshot.documents).reflect commit.snapshot.slug
        commit.snapshot.metadataSnapshotRevision) commit.snapshot.slug tables' := by
  obtain ⟨prepared, tables, change, operation, written, writes⟩ := writes_of_commitChange commits
  obtain ⟨room, documents, changes, _⟩ := writes.metadata kind
  have recoverable := all _ _ writes.found
  obtain ⟨layoutPreset, equality⟩ := writes.preparation.equality
  obtain ⟨createdAt, changed⟩ := writes.changed
  have branch := writes.branch
  rw [Tables.commitStream, changed, kind] at branch
  obtain ⟨revision, saved, _⟩ := commitMetadata_ok branch
  have snapshotRevision : prepared.metadataSnapshotRevision =
    commit.snapshot.metadataSnapshotRevision := by rw [equality]
  have distinct : (prepared.documents.map DocumentSnapshot.id).Nodup := by
    rw [equality]
    exact (map_id_timed _ _).symm ▸ writes.preparation.distinct
  obtain ⟨nodup, rows⟩ := syncDocuments_spec recoverable.distinct distinct
  refine ⟨_, turns_commit writes (commitChange_within commits)
    (fun other different => truth.enter_other different _) (fun other different => if_neg different)
      (recoverable_written writes.preparation settled (documents ▸ nodup)
        (fun id => by rw [documents, rows]) ?_ truth) changes ?_⟩
  · rw [room]
    exact saved.symm.trans snapshotRevision
  · rw [changed]
    simp only [Reflected, changeRow, kind, Truth.reflect, if_true]
    rw [← snapshotRevision, saved]
    exact revision.le

/-! ### Runs -/

/-- Every sound call leaves all rooms recoverable. -/
theorem Step.turns {write : Write} {truth' : Truth} (step : Step store truth write store' truth')
    (sound : write.Sound store) (all : AllRecoverable store truth) :
    ∃ slug tables', Turns store truth store' truth' slug tables' := by
  cases step with
  | createRoom snapshot fault store' created => exact ⟨_, turns_createRoom created sound⟩
  | appendChanges slug changes now fault store' appended valid =>
      exact ⟨_, turns_appendChanges appended valid all⟩
  | commitDocument commit now fault store' kind committed document listed =>
      exact ⟨_, turns_commitDocument all committed kind listed⟩
  | commitMetadata commit now fault store' kind committed honest =>
      exact ⟨_, turns_commitMetadata all committed kind (sound kind)⟩
  | saveSnapshot snapshot now fault store' saved honest => exact ⟨_, turns_saveSnapshot saved sound⟩
  | compactChanges slug streamKind streamID throughRevision now fault store' compacted =>
      exact ⟨_, turns_compactChanges compacted all sound⟩

theorem Reached.recoverable (reached : Reached store truth) : AllRecoverable store truth := by
  induction reached with
  | empty => exact fun slug tables found => by cases found
  | step store store' truth truth' write reached sound step all =>
      obtain ⟨slug, tables', turns⟩ := step.turns sound all
      exact turns.all all

/-- After every sequence of sound calls each document is recovered from its row and the changes that
are stored for it, and no sound call discards a change that the rows do not reflect. -/
theorem store_recoverable (reached : Reached store truth) :
    (∀ options slug tables, store.lookup slug = some tables →
      ∀ id row, rowOf tables.documents id = some row →
        row.content = truth.content slug id row.snapshotRevision ∧
        ∃ final, recover options tables.changes row = .ok final ∧
          final.snapshot.content = truth.content slug id row.currentRevision ∧
          final.snapshot.currentRevision = row.currentRevision) ∧
    ∀ write store' truth', write.Sound store → Step store truth write store' truth' →
      ∀ slug tables tables', store.lookup slug = some tables → store'.lookup slug = some tables' →
        ∀ change ∈ tables.changes, change ∉ tables'.changes →
          Reflected truth' slug tables' change := by
  have all := reached.recoverable
  constructor
  · intro options slug tables found id row stored
    have recovers := (all slug tables found).rows id row stored
    have named := documentID_of_rowOf stored
    subst named
    exact ⟨recovers.content, recovers.recover options⟩
  · intro write store' truth' sound step slug tables tables' found found' change member gone
    obtain ⟨written, tables'', turns⟩ := step.turns sound all
    rw [turns.result, Keyed.lookup_insert_if] at found'
    split at found'
    case isTrue same =>
      subst same
      cases found'
      exact turns.reflected tables found change member gone
    case isFalse =>
      cases found.symm.trans found'
      exact absurd member gone

end Calls

/-! ### A small room -/

/-- The truth about the small room. -/
def smallTruth : Truth :=
  ((⟨fun _ _ _ => "", fun _ => 0⟩ : Truth).enter "demo" smallSnapshot.documents).reflect "demo" 0

theorem small_reached : Reached smallStore smallTruth :=
  .step ∅ smallStore _ _ (.createRoom smallSnapshot) (.empty ⟨fun _ _ _ => "", fun _ => 0⟩)
    (fun _ member => List.mem_singleton.mp member ▸ rfl)
    (.createRoom smallSnapshot false smallStore small_created)

/-- The first change of the small document. -/
def smallChange : ChangeRecord := smallLetter 1

/-- The tables of the small room after the change. -/
def smallChanged : Tables where
  room := {
    slug := "demo", passwordHash := "", creatorTokenHash := smallSnapshot.creatorTokenHash
    locked := false, layoutPreset := "single", contentSize := 2, metadataRevision := 0
    metadataSnapshotRevision := 0, expiresAt := 100, createdAt := 1 }
  documents := [{ documentRow smallDocument with currentRevision := 1 }]
  changes := [changeRow smallChange]
  operations := []

/-- The tables of the small room after the compaction. -/
def smallCompacted : Tables := { smallChanged with
  documents := [{ documentRow smallDocument with currentRevision := 1, snapshotRevision := 1 }]
  changes := [] }

theorem small_after : smallTruth.after "demo" smallChange = .ok "abc" := by
  decide +kernel

/-- A commit of the second change. -/
def letterCommit : ChangeCommit where
  snapshot := { smallSnapshot with
    contentSize := 4
    documents := [{ smallDocument with
      content := "abcc", currentRevision := 2, snapshotRevision := 2 }] }
  change := smallLetter 2
  compactThrough := 0
  operation := {
    operationID := "o", clientID := "c", fingerprint := String.ofList (List.replicate 64 'a')
    streamKind := .document, streamID := "main", baseRevision := 1, revision := 2
    operationKind := "push_changes", resultPayload := (smallLetter 2).payload
    createdAt := unixTime 2 }
  retainOperations := 32

/-- The small store after an appended change. -/
def smallAppended : Store := smallStore.insert "demo" smallChanged

/-- The small store after a second change has been committed. -/
def smallCommitted : Store :=
  ((Store.commitChange smallAppended letterCommit (unixTime 2) false).toOption).getD ∅

/-- The small store after both changes have been compacted. -/
def smallShortened : Store :=
  ((Store.compactChanges smallCommitted "demo" .document "main" 2 (unixTime 2)
    false).toOption).getD ∅

/-- The small store after a third change has been appended. -/
def smallResumed : Store :=
  ((Store.appendChanges smallShortened "demo" [smallLetter 3] (unixTime 2) false).toOption).getD ∅

theorem smallCommitted_within : Write.Sound smallCommitted
    (.compactChanges "demo" .document "main" 2) := by
  have snapshots : ((smallCommitted.lookup "demo").bind fun tables =>
      (rowOf tables.documents "main").map DocumentRow.snapshotRevision) = some 2 := by
    decide +kernel
  intro tables found row stored
  rw [found, Option.bind_some, stored, Option.map_some, Option.some_inj] at snapshots
  exact snapshots.ge

/-- The row of the document after the third change, with the revisions of the stored changes. -/
theorem smallResumed_row : ((smallResumed.lookup "demo").bind fun tables =>
    (rowOf tables.documents "main").map fun row =>
      ((row.content, row.snapshotRevision, row.currentRevision),
        tables.changes.map ChangeRow.revision)) = some (("abcc", 2, 3), [3]) := by
  decide +kernel

/-- The small document is recovered after an appended change, a commit, a compaction and another
appended change. -/
theorem store_recoverable_small : ∃ (truth : Truth) (tables : Tables) (row : DocumentRow)
    (final : Document), Reached smallResumed truth ∧ smallResumed.lookup "demo" = some tables ∧
      rowOf tables.documents "main" = some row ∧ row.content = "abcc" ∧
      tables.changes.map ChangeRow.revision = [3] ∧
      recover defaultHubOptions tables.changes row = .ok final ∧
      final.snapshot.content = "abccc" := by
  have appended := Reached.step _ _ _ _ (.appendChanges "demo" [smallChange]) small_reached trivial
    (.appendChanges "demo" [smallChange] (unixTime 2) false smallAppended rfl
      ⟨fun _ => ⟨"abc", small_after⟩, trivial⟩)
  have committed := Reached.step _ _ _ _ (.commitChange letterCommit) appended
    (fun kind => absurd kind (by decide))
    (.commitDocument letterCommit (unixTime 2) false smallCommitted rfl
      (ok_getD (by decide +kernel) ∅) _ rfl)
  have shortened := Reached.step _ _ _ _ (.compactChanges "demo" .document "main" 2) committed
    smallCommitted_within
      (.compactChanges "demo" .document "main" 2 (unixTime 2) false smallShortened
      (ok_getD (by decide +kernel) ∅))
  have resumed := Reached.step _ _ _ _ (.appendChanges "demo" [smallLetter 3]) shortened trivial
    (.appendChanges "demo" [smallLetter 3] (unixTime 2) false smallResumed
      (ok_getD (by decide +kernel) ∅) ⟨fun _ => ⟨"abccc", by decide +kernel⟩, trivial⟩)
  obtain ⟨tables, found, mapped⟩ := Option.bind_eq_some_iff.mp smallResumed_row
  obtain ⟨row, stored, same⟩ := Option.map_eq_some_iff.mp mapped
  rw [Prod.mk.injEq, Prod.mk.injEq, Prod.mk.injEq] at same
  obtain ⟨⟨content, _, current⟩, changes⟩ := same
  obtain ⟨_, final, recovered, text, _⟩ :=
    (store_recoverable resumed).1 defaultHubOptions "demo" tables found "main" row stored
  rw [current] at text
  exact ⟨_, tables, row, final, resumed, found, stored, content, changes, recovered, text.trans
    (by decide +kernel)⟩

/-- A compaction past the snapshot of a document discards a change that its content lacks. -/
theorem store_recoverable_lost : ∃ store store' truth,
    Step smallStore smallTruth (.appendChanges "demo" [smallChange]) store truth ∧
    Step store truth (.compactChanges "demo" .document "main" 1) store' truth ∧
    ∃ tables row, store'.lookup "demo" = some tables ∧ rowOf tables.documents "main" = some row ∧
      row.currentRevision = 1 ∧ row.snapshotRevision = 1 ∧ tables.changes = [] ∧
      row.content = "ab" ∧ truth.content "demo" "main" 1 = "abc" :=
  ⟨smallStore.insert "demo" smallChanged,
    (smallStore.insert "demo" smallChanged).insert "demo" smallCompacted, _,
    .appendChanges "demo" [smallChange] (unixTime 2) false _ rfl
      ⟨fun _ => ⟨"abc", small_after⟩, trivial⟩,
    .compactChanges "demo" .document "main" 1 (unixTime 2) false _ rfl,
    smallCompacted, _, rfl, rfl, rfl, rfl, rfl, rfl, by decide +kernel⟩

end Oxbin.Storage
