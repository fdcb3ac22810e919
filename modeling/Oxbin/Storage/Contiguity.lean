import Oxbin.Data.Spans
import Oxbin.Storage.Recovery

/-!
# The history of a stream

The changes of a stream are numbered, appended at its current revision and deleted from the oldest
one on.  What is stored of a stream is therefore a range of revisions that ends at the current one,
and a reader finds either every change after the revision that it has, or that some are gone.
-/

namespace Oxbin.Storage

open Live Live.Room Tables

/-! ## Ranges of revisions -/

/-- The stored changes of a stream. -/
def streamChanges (tables : Tables) (streamKind : StreamKind) (streamID : String) :
    List ChangeRow :=
  tables.changes.filter (ChangeRow.inStream streamKind streamID)

/-- The revisions of the stored changes of a stream. -/
def revisions (tables : Tables) (streamKind : StreamKind) (streamID : String) : List Int :=
  (streamChanges tables streamKind streamID).map ChangeRow.revision

/-- The stored changes of every stream are a range of revisions, and it ends at the current revision
of the stream. -/
def Contiguous (tables : Tables) : Prop :=
  ∀ streamKind streamID, validateStream streamKind streamID = .ok () →
    ∃ low high, Spans low high (revisions tables streamKind streamID) ∧
      ∀ current, Store.currentRevision? tables streamKind streamID = some current → high = current

/-- The room has the document. -/
def Has (store : Store) (slug documentID : String) : Prop :=
  ∃ tables, store.lookup slug = some tables ∧ documentID ∈ rowIDs tables.documents

/-! ## Calls -/

/-- A call and its answer. -/
def Write.call (store : Store) (now : Time) (fault : Bool) : Write → Except LiveError Store
  | .createRoom snapshot => Store.createRoom store snapshot fault
  | .appendChanges slug changes => Store.appendChanges store slug changes now fault
  | .commitChange commit => Store.commitChange store commit now fault
  | .saveSnapshot snapshot => Store.saveSnapshot store snapshot now fault
  | .compactChanges slug streamKind streamID throughRevision =>
      Store.compactChanges store slug streamKind streamID throughRevision now fault

/-- A commit to the metadata carries the stored current revision of every document of which changes
are stored.  `SaveSnapshot` and commits to a document check this of their documents. -/
def Write.KeepsRevisions (store : Store) : Write → Prop
  | .commitChange commit => commit.change.streamKind = .metadata →
      ∀ tables, store.lookup commit.snapshot.slug = some tables →
        ∀ document ∈ commit.snapshot.documents, ∀ row,
          rowOf tables.documents document.id = some row →
            revisions tables .document document.id = [] ∨
              document.currentRevision = row.currentRevision
  | _ => True

/-- The stores of a run of successful calls, the latest first.  A document that a room gains was not
in it at any earlier time. -/
inductive Calls (admits : Store → Write → Prop) : List Store → Prop
  | empty : Calls admits [∅]
  | call (store next : Store) (earlier : List Store) (write : Write) (now : Time) (fault : Bool)
      (calls : Calls admits (store :: earlier)) (admitted : admits store write)
      (returned : write.call store now fault = .ok next)
      (fresh : ∀ slug id, Has next slug id → ¬ Has store slug id →
        ∀ past ∈ earlier, ¬ Has past slug id) :
      Calls admits (next :: store :: earlier)

/-! ## Writes to the rows of a room -/

section Rows

variable {tables tables' : Tables}

/-- The stream is where it was, or nothing of it is stored. -/
def Carried (tables tables' : Tables) (streamKind : StreamKind) (streamID : String) : Prop :=
  ∀ current, Store.currentRevision? tables' streamKind streamID = some current →
    Store.currentRevision? tables streamKind streamID = some current ∨
      revisions tables streamKind streamID = []

theorem metadataStreamID_of_validateStream {streamID : String}
    (valid : validateStream .metadata streamID = .ok ()) : streamID = metadataStreamID :=
  require_eq_ok.mp valid

theorem revisions_congr (same : tables'.changes = tables.changes) (streamKind : StreamKind)
    (streamID : String) :
    revisions tables' streamKind streamID = revisions tables streamKind streamID := by
  rw [revisions, streamChanges, same]
  rfl

/-- The range of a stream that is carried on. -/
theorem Contiguous.carried (contiguous : Contiguous tables) {streamKind : StreamKind}
    {streamID : String} (valid : validateStream streamKind streamID = .ok ())
    (carried : Carried tables tables' streamKind streamID) :
    ∃ low high, Spans low high (revisions tables streamKind streamID) ∧
      ∀ current, Store.currentRevision? tables' streamKind streamID = some current →
        high = current := by
  obtain ⟨low, high, spans, latest⟩ := contiguous streamKind streamID valid
  cases known : Store.currentRevision? tables' streamKind streamID with
  | none => exact ⟨low, high, spans, fun current impossible => by cases impossible⟩
  | some revision =>
      rcases carried revision known with same | empty
      · refine ⟨low, high, spans, fun current equality => ?_⟩
        cases equality
        exact latest revision same
      · refine ⟨revision, revision, empty ▸ .nil revision, fun current equality => ?_⟩
        exact Option.some_inj.mp equality

/-- Rows are written, but no changes. -/
theorem Contiguous.congr (contiguous : Contiguous tables) (same : tables'.changes = tables.changes)
    (carried : ∀ streamKind streamID, validateStream streamKind streamID = .ok () →
      Carried tables tables' streamKind streamID) : Contiguous tables' := by
  intro streamKind streamID valid
  rw [revisions_congr same]
  exact contiguous.carried valid (carried streamKind streamID valid)

/-- The stream of a change advances to its revision. -/
theorem Contiguous.append (contiguous : Contiguous tables) {change : ChangeRecord} {revision : Int}
    (valid : validateStream change.streamKind change.streamID = .ok ())
    (before : Store.currentRevision? tables change.streamKind change.streamID = some revision)
    (next : change.revision = revision + 1)
    (changes : tables'.changes = tables.changes ++ [changeRow change])
    (after : Store.currentRevision? tables' change.streamKind change.streamID =
      some change.revision)
    (carried : ∀ streamKind streamID, validateStream streamKind streamID = .ok () →
      ¬ (change.streamKind = streamKind ∧ change.streamID = streamID) →
        Carried tables tables' streamKind streamID) : Contiguous tables' := by
  intro streamKind streamID valid'
  have listed : revisions tables' streamKind streamID = revisions tables streamKind streamID ++
      if change.streamKind = streamKind ∧ change.streamID = streamID then [change.revision]
      else [] := by
    rw [revisions, streamChanges, changes, List.filter_append, List.map_append, revisions,
      streamChanges, List.filter_singleton]
    congr 1
    by_cases own : change.streamKind = streamKind ∧ change.streamID = streamID
    · simp [ChangeRow.inStream, changeRow, own]
    · simp [ChangeRow.inStream, changeRow, own]
  rw [listed]
  by_cases own : change.streamKind = streamKind ∧ change.streamID = streamID
  · rw [if_pos own]
    obtain ⟨rfl, rfl⟩ := own
    obtain ⟨low, high, spans, latest⟩ := contiguous _ _ valid
    cases latest revision before
    refine ⟨low, revision + 1, next ▸ spans.next, fun current known => ?_⟩
    rw [after, next] at known
    exact Option.some_inj.mp known
  · rw [if_neg own, List.append_nil]
    exact contiguous.carried valid' (carried streamKind streamID valid' own)

/-- The oldest changes of a stream are deleted. -/
theorem Contiguous.deleteChanges (contiguous : Contiguous tables) {streamKind : StreamKind}
    {streamID : String} {through revision : Int}
    (known : Store.currentRevision? tables streamKind streamID = some revision)
    (within : through ≤ revision) :
    Contiguous (tables.deleteChanges streamKind streamID through) := by
  intro streamKind' streamID' valid
  have current : Store.currentRevision? (tables.deleteChanges streamKind streamID through) =
      Store.currentRevision? tables := rfl
  rw [current]
  obtain ⟨low, high, spans, latest⟩ := contiguous streamKind' streamID' valid
  by_cases own : streamKind = streamKind' ∧ streamID = streamID'
  · obtain ⟨rfl, rfl⟩ := own
    have listed : revisions (tables.deleteChanges streamKind streamID through) streamKind streamID =
        (revisions tables streamKind streamID).filter fun number => through < number := by
      rw [revisions, streamChanges, Tables.deleteChanges, List.filter_filter, revisions,
        streamChanges, List.filter_map, List.filter_filter]
      congr 1
      refine List.filter_congr fun row _ => ?_
      have kept : (!decide (row.revision ≤ through)) = decide (through < row.revision) := by
        rw [← decide_not, decide_eq_decide, Int.not_le]
      cases row.inStream streamKind streamID with
      | true => simpa using kept
      | false => simp
    rw [listed]
    exact ⟨_, high, spans.drop (latest revision known ▸ within), latest⟩
  · have listed : revisions (tables.deleteChanges streamKind streamID through) streamKind'
        streamID' = revisions tables streamKind' streamID' := by
      rw [revisions, streamChanges, Tables.deleteChanges, List.filter_filter]
      refine congrArg _ (List.filter_congr fun row _ => ?_)
      cases other : row.inStream streamKind' streamID' with
      | false => simp
      | true =>
          have different : row.inStream streamKind streamID = false := by
            simp only [ChangeRow.inStream, decide_eq_true_eq, decide_eq_false_iff_not] at other ⊢
            rintro ⟨rfl, rfl⟩
            exact own other
          simp [different]
    rw [listed]
    exact ⟨low, high, spans, latest⟩

end Rows

/-! ## What a call leaves -/

/-- The rooms of a store with distinct documents and contiguous streams. -/
def AllContiguous (store : Store) : Prop :=
  ∀ slug tables, store.lookup slug = some tables →
    (rowIDs tables.documents).Nodup ∧ Contiguous tables

/-- Nothing is stored of the stream of a document that the room gains. -/
def GainsEmpty (store next : Store) : Prop :=
  ∀ slug id, Has next slug id → ¬ Has store slug id →
    ∀ tables, store.lookup slug = some tables → revisions tables .document id = []

/-- The room that a call writes: its changes are old, or of documents that were there. -/
structure Leaves (store : Store) (slug : String) (tables' : Tables) : Prop where
  distinct : (rowIDs tables'.documents).Nodup
  contiguous : Contiguous tables'
  known : ∀ row ∈ tables'.changes, row.streamKind = .document →
    ∃ tables, store.lookup slug = some tables ∧
      (row ∈ tables.changes ∨ row.streamID ∈ rowIDs tables.documents)

section Calls

variable {store next : Store} {now : Time} {fault : Bool} {slug : String} {tables tables' : Tables}

/-- Documents that keep their revisions or have no stored changes are carried on. -/
theorem carried_documents (found : store.lookup slug = some tables)
    (gains : GainsEmpty store (store.insert slug tables'))
    (keeps : ∀ id row row', rowOf tables.documents id = some row →
      rowOf tables'.documents id = some row' →
        revisions tables .document id = [] ∨ row'.currentRevision = row.currentRevision)
    (streamID : String) : Carried tables tables' .document streamID := by
  intro current after
  obtain ⟨row', stored', rfl⟩ := Option.map_eq_some_iff.mp after
  cases stored : rowOf tables.documents streamID with
  | some row =>
      refine (keeps streamID row row' stored stored').symm.imp_left fun same => ?_
      exact Option.map_eq_some_iff.mpr ⟨row, stored, same.symm⟩
  | none =>
      right
      refine gains slug streamID ⟨tables', AList.lookup_insert store, ?_⟩ ?_ tables found
      · by_contra absent
        cases (rowOf_eq_none.mpr absent).symm.trans stored'
      · rintro ⟨other, found', member⟩
        cases found.symm.trans found'
        exact rowOf_eq_none.mp stored member

/-! ### Rooms that are created or replaced -/

theorem leaves_createRoom {snapshot : RoomSnapshot}
    (created : Store.createRoom store snapshot fault = .ok next) :
    ∃ tables', next = store.insert snapshot.slug tables' ∧ Leaves store snapshot.slug tables' := by
  obtain ⟨prepared, preparation, _, result⟩ := createRoom_ok created
  refine ⟨_, result, ?_, ?_, ?_⟩
  · rw [created_distinct preparation]
    exact preparation.distinct
  · intro streamKind streamID _
    cases known : Store.currentRevision? (createdTables prepared) streamKind streamID with
    | none => exact ⟨0, 0, .nil 0, fun current impossible => by cases impossible⟩
    | some revision => exact ⟨revision, revision, .nil revision, fun _ => Option.some_inj.mp⟩
  · intro row member
    cases member

theorem leaves_saveSnapshot {snapshot : RoomSnapshot} (all : AllContiguous store)
    (saves : Store.saveSnapshot store snapshot now fault = .ok next)
    (gains : GainsEmpty store next) :
    ∃ tables', next = store.insert snapshot.slug tables' ∧ Leaves store snapshot.slug tables' := by
  unfold Store.saveSnapshot at saves
  simp only [bind_eq_ok, require_eq_ok, exists_const] at saves
  obtain ⟨prepared, prepares, _, tables, active, ⟨metadata, _⟩, _, agrees, equality⟩ := saves
  have preparation := prepared_of_prepareRoomSnapshot prepares
  obtain ⟨_, prepared'⟩ := preparation.equality
  have slug : prepared.slug = snapshot.slug := by rw [prepared']
  rw [slug] at active equality
  obtain ⟨found, _⟩ := active_eq_ok.mp active
  obtain ⟨_, contiguous⟩ := all _ _ found
  have distinct : (prepared.documents.map DocumentSnapshot.id).Nodup := by
    rw [prepared']
    exact (map_id_timed _ _).symm ▸ preparation.distinct
  cases equality
  refine ⟨_, rfl, ?_, contiguous.congr rfl ?_, ?_⟩
  · rw [rowIDs, List.map_map]
    exact distinct
  · intro streamKind streamID _
    cases streamKind with
    | metadata => exact fun current after => .inl ((congrArg some metadata).trans after)
    | document =>
        refine carried_documents found gains (fun id row row' stored stored' => .inr ?_) streamID
        rw [rowOf_map_documentRow, Option.map_eq_some_iff] at stored'
        obtain ⟨document, listed, rfl⟩ := stored'
        have named := id_of_documentOf listed
        exact (agrees document (List.mem_of_find?_eq_some listed) row (named ▸ stored)).1.symm
  · exact fun row member _ => ⟨tables, found, .inl member⟩

/-! ### Changes that are appended -/

theorem Contiguous.appendChange {change : ChangeRecord} (contiguous : Contiguous tables)
    (valid : validateStream change.streamKind change.streamID = .ok ())
    (appended : Store.appendChange tables change = .ok tables') :
    Contiguous tables' ∧ rowIDs tables'.documents = rowIDs tables.documents ∧
      tables'.changes = tables.changes ++ [changeRow change] ∧
      (change.streamKind = .document → change.streamID ∈ rowIDs tables.documents) := by
  unfold Store.appendChange at appended
  split at appended
  case h_1 => cases appended
  case h_2 revision known =>
    simp only [bind_eq_ok, require_eq_ok, exists_const] at appended
    obtain ⟨following, inserted, insertion, appended⟩ := appended
    rw [insertChange_ok insertion] at appended
    cases kind : change.streamKind with
    | metadata =>
        rw [kind] at appended
        cases appended
        refine ⟨contiguous.append valid known following rfl ?_ ?_, rfl, rfl, fun other =>
          by cases other⟩
        · rw [kind]
          rfl
        · intro streamKind streamID valid' other
          cases streamKind with
          | document => exact fun current after => .inl after
          | metadata =>
              rw [kind] at valid
              have first := metadataStreamID_of_validateStream valid
              have second := metadataStreamID_of_validateStream valid'
              exact absurd ⟨kind, first.trans second.symm⟩ other
    | document =>
        rw [kind] at appended
        cases appended
        have rows := rowOf_map_own tables.documents change.streamID
          (fun row => { row with currentRevision := change.revision }) fun _ => rfl
        refine ⟨contiguous.append valid known following rfl ?_ ?_,
          rowIDs_map_own _ _ _ fun _ => rfl, rfl, fun _ => ?_⟩
        · rw [kind] at known ⊢
          obtain ⟨row, stored, _⟩ := Option.map_eq_some_iff.mp known
          have own := (rows change.streamID).trans (if_pos rfl)
          rw [show rowOf tables.documents change.streamID = some row from stored] at own
          exact congrArg (Option.map DocumentRow.currentRevision) own
        · intro streamKind streamID _ other current after
          left
          cases streamKind with
          | metadata => exact after
          | document =>
              have different := (rows streamID).trans (if_neg fun same => other ⟨kind, same.symm⟩)
              exact (congrArg (Option.map DocumentRow.currentRevision) different).symm.trans after
        · rw [kind] at known
          obtain ⟨row, stored, _⟩ := Option.map_eq_some_iff.mp known
          by_contra absent
          cases (rowOf_eq_none.mpr absent).symm.trans stored

theorem Contiguous.appendChanges {changes : List ChangeRecord} (contiguous : Contiguous tables)
    (valid : ∀ change ∈ changes, validateStream change.streamKind change.streamID = .ok ())
    (appended : changes.foldlM Store.appendChange tables = .ok tables') :
    Contiguous tables' ∧ rowIDs tables'.documents = rowIDs tables.documents ∧
      ∀ row ∈ tables'.changes, row.streamKind = .document →
        row ∈ tables.changes ∨ row.streamID ∈ rowIDs tables.documents := by
  induction changes generalizing tables with
  | nil =>
      cases appended
      exact ⟨contiguous, rfl, fun _ member _ => .inl member⟩
  | cons change changes induction =>
      rw [List.foldlM_cons, bind_eq_ok] at appended
      obtain ⟨middle, first, rest⟩ := appended
      obtain ⟨contiguous', ids, appended', own⟩ :=
        contiguous.appendChange (valid change List.mem_cons_self) first
      obtain ⟨contiguous'', ids', known⟩ :=
        induction contiguous' (fun other later => valid other (List.mem_cons_of_mem _ later)) rest
      refine ⟨contiguous'', ids'.trans ids, fun row member kind => ?_⟩
      rcases known row member kind with old | listed
      · rw [appended', List.mem_append, List.mem_singleton] at old
        rcases old with old | rfl
        · exact .inl old
        · exact .inr (own kind)
      · exact .inr (ids ▸ listed)

theorem valid_of_mapM_prepareChange {changes changes' : List ChangeRecord}
    (prepared : changes.mapM (fun change => prepareChange change now) = .ok changes') :
    ∀ change ∈ changes', validateStream change.streamKind change.streamID = .ok () := by
  induction changes generalizing changes' with
  | nil =>
      cases prepared
      exact fun _ impossible => by cases impossible
  | cons change changes induction =>
      rw [List.mapM_cons] at prepared
      simp only [bind_eq_ok] at prepared
      obtain ⟨change', prepares, rest, later, equality⟩ := prepared
      cases equality
      obtain ⟨stream, _, _, rfl⟩ := prepareChange_ok prepares
      intro other member
      rcases List.mem_cons.mp member with rfl | tail
      · exact stream
      · exact induction later other tail

theorem leaves_appendChanges {slug : String} {changes : List ChangeRecord}
    (all : AllContiguous store)
    (appends : Store.appendChanges store slug changes now fault = .ok next) :
    ∃ tables', next = store.insert slug tables' ∧ Leaves store slug tables' := by
  unfold Store.appendChanges at appends
  simp only [bind_eq_ok, require_eq_ok, exists_const] at appends
  obtain ⟨_, changes', prepared, _, tables, active, _, tables', appended, equality⟩ := appends
  obtain ⟨found, _⟩ := active_eq_ok.mp active
  obtain ⟨distinct, contiguous⟩ := all _ _ found
  obtain ⟨contiguous', ids, known⟩ :=
    contiguous.appendChanges (valid_of_mapM_prepareChange prepared) appended
  cases equality
  refine ⟨tables', rfl, ids ▸ distinct, contiguous', fun row member kind => ?_⟩
  exact ⟨tables, found, known row member kind⟩

/-! ### Compaction -/

theorem currentRevision?_raised {streamKind : StreamKind} {streamID : String}
    {throughRevision : Int} : Store.currentRevision?
      (raised tables streamKind streamID throughRevision) = Store.currentRevision? tables := by
  funext streamKind' streamID'
  cases streamKind' with
  | metadata => cases streamKind <;> rfl
  | document =>
      cases streamKind with
      | metadata => rfl
      | document =>
          have rows := rowOf_map_own tables.documents streamID
            (fun row => { row with snapshotRevision := max row.snapshotRevision throughRevision })
            (fun _ => rfl) streamID'
          refine (congrArg (Option.map DocumentRow.currentRevision) rows).trans ?_
          split
          · rw [Option.map_map]
            rfl
          · rfl

theorem leaves_compactChanges {streamKind : StreamKind} {streamID : String} {throughRevision : Int}
    (all : AllContiguous store)
    (compacts : Store.compactChanges store slug streamKind streamID throughRevision now fault =
      .ok next) :
    ∃ tables', next = store.insert slug tables' ∧ Leaves store slug tables' := by
  unfold Store.compactChanges at compacts
  simp only [bind_eq_ok, require_eq_ok, exists_const] at compacts
  obtain ⟨_, _, _, _, tables, active, compacts⟩ := compacts
  obtain ⟨found, _⟩ := active_eq_ok.mp active
  obtain ⟨distinct, contiguous⟩ := all _ _ found
  split at compacts
  case h_1 => cases compacts
  case h_2 revision known =>
    rw [require_bind_eq_ok] at compacts
    obtain ⟨within, equality⟩ := compacts
    have raises : Contiguous (raised tables streamKind streamID throughRevision) :=
      contiguous.congr changes_raised fun _ _ _ current after =>
        .inl (currentRevision?_raised ▸ after)
    have known' : Store.currentRevision? (raised tables streamKind streamID throughRevision)
        streamKind streamID = some revision := by rw [currentRevision?_raised, known]
    cases equality
    refine ⟨(raised tables streamKind streamID throughRevision).deleteChanges streamKind streamID
      throughRevision, rfl, ?_, raises.deleteChanges known' within, fun row member _ => ?_⟩
    · cases streamKind with
      | metadata => exact distinct
      | document =>
          have ids := rowIDs_map_own tables.documents streamID (fun row => { row with
            snapshotRevision := max row.snapshotRevision throughRevision }) fun _ => rfl
          exact ids.symm ▸ distinct
    · refine ⟨tables, found, .inl ?_⟩
      exact changes_raised ▸ (List.mem_filter.mp member).1

/-! ### Commits -/

theorem commitMetadata_revision {written : Tables} {snapshot : RoomSnapshot}
    {change : ChangeRecord} (committed : tables.commitMetadata snapshot change = .ok written) :
    change.revision = snapshot.metadataRevision ∧
      tables.room.metadataRevision + 1 = change.revision := by
  unfold Tables.commitMetadata at committed
  rw [require_bind_eq_ok] at committed
  exact ⟨committed.1.1, committed.1.2.2⟩

/-- The compaction and the pruning at the end of a commit. -/
theorem Leaves.compact {commit : ChangeCommit} {change : ChangeRecord} {written : Tables}
    (leaves : Leaves store slug written)
    (known : Store.currentRevision? written change.streamKind change.streamID =
      some change.revision)
    (within : commit.compactThrough ≤ change.revision) :
    Leaves store slug (Tables.pruneOperations
      (if 0 < commit.compactThrough then
        written.deleteChanges change.streamKind change.streamID commit.compactThrough
      else written) commit.retainOperations) := by
  split
  case isTrue =>
    refine ⟨leaves.distinct, leaves.contiguous.deleteChanges known within, fun row member kind =>
      ?_⟩
    exact leaves.known row (List.mem_filter.mp member).1 kind
  case isFalse => exact ⟨leaves.distinct, leaves.contiguous, leaves.known⟩

/-- The committed change is the change of the commit at some time. -/
theorem Writes.stream_eq {commit : ChangeCommit} {prepared : RoomSnapshot} {written : Tables}
    {change : ChangeRecord} {operation : OperationRecord}
    (writes : Writes store commit now prepared tables change operation written next) :
    change.streamKind = commit.change.streamKind ∧ change.streamID = commit.change.streamID ∧
      change.revision = commit.change.revision ∧
      validateStream change.streamKind change.streamID = .ok () := by
  obtain ⟨createdAt, equality⟩ := writes.changed
  rw [equality]
  exact ⟨rfl, rfl, rfl, writes.stream⟩

theorem leaves_commitDocument {commit : ChangeCommit} (all : AllContiguous store)
    (commits : Store.commitChange store commit now fault = .ok next)
    (kind : commit.change.streamKind = .document) :
    ∃ tables', next = store.insert commit.snapshot.slug tables' ∧
      Leaves store commit.snapshot.slug tables' := by
  obtain ⟨prepared, tables, change, operation, written, writes⟩ := writes_of_commitChange commits
  obtain ⟨document, row, listed, stored, following, room, documents, changes, _⟩ :=
    writes.document kind
  obtain ⟨distinct, contiguous⟩ := all _ _ writes.found
  have limit := commitChange_within commits
  obtain ⟨sameKind, sameID, sameRevision, valid⟩ := writes.stream_eq
  rw [← sameRevision] at limit following
  rw [← sameID] at listed
  rw [← sameKind] at kind
  have branch := writes.branch
  rw [Tables.commitStream, kind] at branch
  obtain ⟨current, _⟩ := commitDocument_revisions branch listed
  have named : document.id = change.streamID := id_of_documentOf listed
  have rows (id : String) : rowOf written.documents id = if id = document.id then
      (rowOf tables.documents id).map fun _ => documentRow document
      else rowOf tables.documents id := by
    rw [documents]
    exact rowOf_updateDocument _ _ _
  have before : Store.currentRevision? tables change.streamKind change.streamID =
      some row.currentRevision := by
    rw [kind, ← named]
    exact congrArg (Option.map DocumentRow.currentRevision) stored
  have after : Store.currentRevision? written change.streamKind change.streamID =
      some change.revision := by
    rw [kind, ← named, ← current]
    refine (congrArg (Option.map DocumentRow.currentRevision) (rows document.id)).trans ?_
    rw [if_pos rfl, stored]
    rfl
  refine ⟨_, writes.result, .compact ⟨?_, ?_, ?_⟩ after limit⟩
  · rw [documents, rowIDs_updateDocument]
    exact distinct
  · refine contiguous.append valid before following.symm changes after
      fun streamKind streamID _ other current known => .inl ?_
    cases streamKind with
    | metadata =>
        have revision : written.room.metadataRevision = tables.room.metadataRevision := by rw [room]
        exact (congrArg some revision.symm).trans known
    | document =>
        have different := (rows streamID).trans (if_neg fun same =>
          other ⟨kind, named.symm.trans same.symm⟩)
        exact (congrArg (Option.map DocumentRow.currentRevision) different).symm.trans known
  · intro row' member _
    refine ⟨tables, writes.found, ?_⟩
    rw [changes, List.mem_append, List.mem_singleton] at member
    refine member.imp_right fun latest => ?_
    rw [latest]
    by_contra absent
    rw [show (changeRow change).streamID = document.id from named.symm] at absent
    cases (rowOf_eq_none.mpr absent).symm.trans stored

theorem leaves_commitMetadata {commit : ChangeCommit} (all : AllContiguous store)
    (commits : Store.commitChange store commit now fault = .ok next)
    (kind : commit.change.streamKind = .metadata) (gains : GainsEmpty store next)
    (keeps : Write.KeepsRevisions store (.commitChange commit)) :
    ∃ tables', next = store.insert commit.snapshot.slug tables' ∧
      Leaves store commit.snapshot.slug tables' := by
  obtain ⟨prepared, tables, change, operation, written, writes⟩ := writes_of_commitChange commits
  obtain ⟨room, documents, changes, _⟩ := writes.metadata kind
  obtain ⟨distinct, contiguous⟩ := all _ _ writes.found
  have limit := commitChange_within commits
  obtain ⟨_, equality⟩ := writes.preparation.equality
  obtain ⟨sameKind, _, sameRevision, valid⟩ := writes.stream_eq
  have kind' := sameKind.trans kind
  rw [← sameRevision] at limit
  have branch := writes.branch
  rw [Tables.commitStream, kind'] at branch
  obtain ⟨revision, following⟩ := commitMetadata_revision branch
  have distinct' : (prepared.documents.map DocumentSnapshot.id).Nodup := by
    rw [equality]
    exact (map_id_timed _ _).symm ▸ writes.preparation.distinct
  obtain ⟨nodup, rows⟩ := syncDocuments_spec distinct distinct'
  have after : Store.currentRevision? written change.streamKind change.streamID =
      some change.revision := by
    rw [kind', revision]
    exact congrArg (fun room : RoomRow => some room.metadataRevision) room
  have result := writes.result
  refine ⟨_, result, .compact ⟨documents ▸ nodup, ?_, ?_⟩ after limit⟩
  · have before : Store.currentRevision? tables change.streamKind change.streamID =
        some tables.room.metadataRevision := by
      rw [kind']
      rfl
    refine contiguous.append valid before following.symm changes after
      fun streamKind streamID valid' other => ?_
    cases streamKind with
    | metadata =>
        rw [kind'] at valid
        have first := metadataStreamID_of_validateStream valid
        exact absurd ⟨kind', first.trans (metadataStreamID_of_validateStream valid').symm⟩ other
    | document =>
        have insertion : GainsEmpty store (store.insert commit.snapshot.slug written) := by
          intro slug id
          refine fun has => gains slug id ?_
          obtain ⟨tables', found', member⟩ := has
          rw [result]
          rw [Keyed.lookup_insert_if] at found'
          rw [Has, Keyed.lookup_insert_if]
          split at found'
          case isTrue same =>
            cases found'
            refine ⟨_, if_pos same, ?_⟩
            split <;> exact member
          case isFalse different => exact ⟨tables', (if_neg different).trans found', member⟩
        refine carried_documents writes.found insertion (fun id row row' stored stored' => ?_)
          streamID
        rw [documents, rows, equality, documentOf, List.find?_map, Option.map_map,
          Option.map_eq_some_iff] at stored'
        obtain ⟨document, listed, rfl⟩ := stored'
        have named : document.id = id := id_of_documentOf listed
        have kept := keeps kind tables writes.found document (List.mem_of_find?_eq_some listed) row
          (named ▸ stored)
        exact named ▸ kept
  · intro row member own
    refine ⟨tables, writes.found, ?_⟩
    rw [changes, List.mem_append, List.mem_singleton] at member
    refine member.imp_right fun latest => ?_
    rw [latest] at own
    cases own.symm.trans kind'

/-! ### Runs -/

/-- Every call leaves contiguous streams in the room that it writes. -/
theorem leaves_call {write : Write} (all : AllContiguous store)
    (returned : write.call store now fault = .ok next) (gains : GainsEmpty store next)
    (keeps : write.KeepsRevisions store) :
    ∃ slug tables', next = store.insert slug tables' ∧ Leaves store slug tables' := by
  cases write with
  | createRoom snapshot => exact ⟨_, leaves_createRoom returned⟩
  | appendChanges slug changes => exact ⟨_, leaves_appendChanges all returned⟩
  | commitChange commit =>
      cases kind : commit.change.streamKind with
      | document => exact ⟨_, leaves_commitDocument all returned kind⟩
      | metadata => exact ⟨_, leaves_commitMetadata all returned kind gains keeps⟩
  | saveSnapshot snapshot => exact ⟨_, leaves_saveSnapshot all returned gains⟩
  | compactChanges slug streamKind streamID throughRevision =>
      exact ⟨_, leaves_compactChanges all returned⟩

/-- The streams are contiguous, and every stored change is of a document that the room has had. -/
theorem Calls.contiguous {stores : List Store} (calls : Calls Write.KeepsRevisions stores) :
    ∀ store ∈ stores.head?, AllContiguous store ∧
      ∀ slug tables, store.lookup slug = some tables → ∀ row ∈ tables.changes,
        row.streamKind = .document → ∃ past ∈ stores, Has past slug row.streamID := by
  induction calls with
  | empty =>
      rintro store ⟨⟩
      refine ⟨fun slug tables found => ?_, fun slug tables found => ?_⟩
      · cases found
      · cases found
  | call store next earlier write now fault calls admitted returned fresh induction =>
      rintro after ⟨⟩
      obtain ⟨all, known⟩ := induction store rfl
      have gains : GainsEmpty store next := by
        intro slug id has lacks tables found
        by_contra stored
        obtain ⟨revision, listed⟩ := List.exists_mem_of_ne_nil _ stored
        obtain ⟨row, member, _⟩ := List.mem_map.mp listed
        obtain ⟨member, stream⟩ := List.mem_filter.mp member
        simp only [ChangeRow.inStream, decide_eq_true_eq] at stream
        obtain ⟨past, before, has'⟩ := known slug tables found row member stream.1
        rw [stream.2] at has'
        rcases List.mem_cons.mp before with rfl | before
        · exact lacks has'
        · exact fresh slug id has lacks past before has'
      obtain ⟨slug, tables', rfl, leaves⟩ := leaves_call all returned gains admitted
      constructor
      · intro other tables found
        rw [Keyed.lookup_insert_if] at found
        split at found
        case isTrue same =>
          cases found
          exact ⟨leaves.distinct, leaves.contiguous⟩
        case isFalse different => exact all other tables found
      · intro other tables found row member kind
        have older : ∀ tables, store.lookup other = some tables → row ∈ tables.changes →
            ∃ past ∈ store.insert slug tables' :: store :: earlier,
              Has past other row.streamID := by
          intro tables found member
          obtain ⟨past, before, has⟩ := known other tables found row member kind
          exact ⟨past, List.mem_cons_of_mem _ before, has⟩
        rw [Keyed.lookup_insert_if] at found
        split at found
        case isTrue same =>
          cases found
          obtain ⟨before, found', old | listed⟩ := leaves.known row member kind
          · exact older before (same ▸ found') old
          · exact ⟨store, by simp, before, same ▸ found', listed⟩
        case isFalse different => exact older tables found member

/-! ### Reading -/

/-- Every change after a revision is stored. -/
def Retained (tables : Tables) (streamKind : StreamKind) (streamID : String)
    (since current : Int) : Prop :=
  ∀ revision, since < revision → revision ≤ current →
    revision ∈ revisions tables streamKind streamID

/-- `LoadChangesSince` returns the changes after a revision in order if all of them are stored, and
otherwise that the history is compacted. -/
structure ReadsOn (store : Store) (slug : String) (tables : Tables) (streamKind : StreamKind)
    (streamID : String) (since current : Int) (now : Time) : Prop where
  retained : Retained tables streamKind streamID since current →
    ∃ records, Store.loadChangesSince store slug streamKind streamID since now false =
        .ok records ∧
      records.map ChangeRecord.revision = Int.range (since + 1) (current + 1) ∧
      ∀ record ∈ records, ∃ row ∈ streamChanges tables streamKind streamID, row.record = record
  compacted : ¬ Retained tables streamKind streamID since current →
    Store.loadChangesSince store slug streamKind streamID since now false =
      .error .historyCompacted

theorem Contiguous.reads (contiguous : Contiguous tables) (found : store.lookup slug = some tables)
    (alive : unix now < tables.room.expiresAt) {streamKind : StreamKind} {streamID : String}
    (valid : validateStream streamKind streamID = .ok ()) {current : Int}
    (known : Store.currentRevision? tables streamKind streamID = some current) {since : Int}
    (nonnegative : 0 ≤ since) (within : since ≤ current) :
    ReadsOn store slug tables streamKind streamID since current now := by
  obtain ⟨low, high, spans, latest⟩ := contiguous streamKind streamID valid
  cases latest current known
  have loaded : Store.loadChangesSince store slug streamKind streamID since now false = (do
      require (((revisions tables streamKind streamID).min?).getD (current + 1) - 1 ≤ since)
        .historyCompacted
      .ok ((((streamChanges tables streamKind streamID).filter fun row =>
        since < row.revision).insertionSort fun left right =>
          left.revision ≤ right.revision).map ChangeRow.record)) := by
    unfold Store.loadChangesSince
    rw [valid, active_eq_ok.mpr ⟨found, alive⟩]
    simp only [bind, Except.bind, require, nonnegative, if_true, known]
    rfl
  rw [spans.minimum] at loaded
  have boundary : Retained tables streamKind streamID since current ↔ low ≤ since := by
    constructor
    · intro retained
      by_contra before
      have ordered := spans.ordered
      have gone := (spans.mem _).mp (retained (since + 1) (by omega) (by omega))
      omega
    · exact fun above revision after until' => (spans.mem _).mpr ⟨by omega, until'⟩
  constructor
  · intro retained
    have above := boundary.mp retained
    rw [require, if_pos (by omega)] at loaded
    refine ⟨_, loaded, ?_, ?_⟩
    · rw [List.map_map]
      exact spans.sorted above rfl
    · intro record member
      obtain ⟨row, listed, rfl⟩ := List.mem_map.mp member
      rw [List.mem_insertionSort] at listed
      exact ⟨row, (List.mem_filter.mp listed).1, rfl⟩
  · intro gone
    have below := mt boundary.mpr gone
    rw [require, if_neg (by omega)] at loaded
    exact loaded

end Calls

/-- In every run of successful calls whose commits to the metadata keep the revisions of the
documents with stored changes, what is stored of a stream is a range that ends at its current
revision, and reading its history leaves nothing out. -/
theorem history_contiguous {store : Store} {earlier : List Store}
    (calls : Calls Write.KeepsRevisions (store :: earlier)) {slug : String} {tables : Tables}
    (found : store.lookup slug = some tables) :
    Contiguous tables ∧ ∀ streamKind streamID, validateStream streamKind streamID = .ok () →
      ∀ current, Store.currentRevision? tables streamKind streamID = some current →
        ∀ now since, unix now < tables.room.expiresAt → 0 ≤ since → since ≤ current →
          ReadsOn store slug tables streamKind streamID since current now := by
  have contiguous := ((calls.contiguous store rfl).1 slug tables found).2
  refine ⟨contiguous, fun streamKind streamID valid current known now since alive => ?_⟩
  exact contiguous.reads found alive valid known

theorem small_calls {admits : Store → Write → Prop}
    (first : admits ∅ (.createRoom smallSnapshot))
    (second : admits smallStore (.appendChanges "demo" [smallChange])) :
    Calls admits [smallAppended, smallStore, ∅] := by
  refine .call smallStore smallAppended [∅] (.appendChanges "demo" [smallChange]) (unixTime 2) false
    (.call ∅ smallStore [] (.createRoom smallSnapshot) 0 false .empty first small_created ?_) second
    rfl ?_
  · intro slug id _ _ past impossible
    cases impossible
  · intro slug id _ _ past member
    rw [List.mem_singleton.mp member]
    rintro ⟨tables, found, _⟩
    cases found

/-- The small document is all that the store has. -/
def OnlySmall (store : Store) : Prop :=
  store.keys = ["demo"] ∧ (store.lookup "demo").map (fun tables => rowIDs tables.documents) =
    some ["main"]

instance (store : Store) : Decidable (OnlySmall store) := inferInstanceAs (Decidable (_ ∧ _))

theorem OnlySmall.has_iff {store : Store} (only : OnlySmall store) {slug documentID : String} :
    Has store slug documentID ↔ slug = "demo" ∧ documentID = "main" := by
  obtain ⟨tables, found, rows⟩ := Option.map_eq_some_iff.mp only.2
  constructor
  · rintro ⟨tables', found', member⟩
    have listed : slug ∈ store.keys := AList.mem_keys.mp (AList.lookup_isSome.mp (by simp [found']))
    rw [only.1, List.mem_singleton] at listed
    subst listed
    cases found.symm.trans found'
    rw [rows, List.mem_singleton] at member
    exact ⟨rfl, member⟩
  · rintro ⟨rfl, rfl⟩
    exact ⟨tables, found, by rw [rows]; exact List.mem_singleton_self _⟩

/-- A call that leaves the document as the only one is taken after such calls. -/
theorem Calls.small {admits : Store → Write → Prop} {store next : Store} {earlier : List Store}
    (calls : Calls admits (store :: earlier)) (write : Write) (admitted : admits store write)
    (returned : write.call store (unixTime 2) false = .ok next) (only : OnlySmall store)
    (only' : OnlySmall next) : Calls admits (next :: store :: earlier) :=
  .call store next earlier write (unixTime 2) false calls admitted returned
    fun _ _ has lacks => absurd (only.has_iff.mpr (only'.has_iff.mp has)) lacks

/-- A reader finds the changes after the second revision of the small document, and is told that
those after the first one have been compacted. -/
theorem history_contiguous_small : ∃ tables, smallResumed.lookup "demo" = some tables ∧
    Contiguous tables ∧ ReadsOn smallResumed "demo" tables .document "main" 2 3 (unixTime 2) ∧
      ReadsOn smallResumed "demo" tables .document "main" 1 3 (unixTime 2) := by
  have appended : Calls Write.KeepsRevisions [smallAppended, smallStore, ∅] :=
    small_calls trivial trivial
  have committed := @Calls.small _ _ smallCommitted _ appended (.commitChange letterCommit)
    (fun kind => absurd kind (by decide)) (ok_getD (by decide +kernel) ∅) (by decide +kernel)
    (by decide +kernel)
  have shortened := @Calls.small _ _ smallShortened _ committed
    (.compactChanges "demo" .document "main" 2) trivial (ok_getD (by decide +kernel) ∅)
    (by decide +kernel) (by decide +kernel)
  have resumed := @Calls.small _ _ smallResumed _ shortened (.appendChanges "demo" [smallLetter 3])
    trivial (ok_getD (by decide +kernel) ∅) (by decide +kernel) (by decide +kernel)
  have known : ((smallResumed.lookup "demo").map fun tables =>
      (Store.currentRevision? tables .document "main", tables.room.expiresAt)) =
        some (some 3, 100) := by decide +kernel
  obtain ⟨tables, found, same⟩ := Option.map_eq_some_iff.mp known
  rw [Prod.mk.injEq] at same
  obtain ⟨contiguous, reads⟩ := history_contiguous resumed found
  have reads (since : Int) := reads .document "main" (by decide) 3 same.1 (unixTime 2) since
    (by rw [same.2]; decide)
  exact ⟨tables, found, contiguous, reads 2 (by decide) (by decide), reads 1 (by decide)
    (by decide)⟩

/-- A commit to the metadata whose snapshot puts the document four revisions ahead. -/
def aheadCommit : ChangeCommit where
  snapshot := { smallSnapshot with
    metadataRevision := 1, metadataSnapshotRevision := 1
    documents := [{ smallDocument with currentRevision := 5 }] }
  change := {
    streamKind := .metadata, streamID := metadataStreamID, revision := 1
    kind := "document_update", payload := .obj [], createdAt := unixTime 2 }
  compactThrough := 0
  operation := {
    operationID := "o", clientID := "c", fingerprint := String.ofList (List.replicate 64 'a')
    streamKind := .metadata, streamID := metadataStreamID, baseRevision := 0, revision := 1
    operationKind := "document_update", resultPayload := .obj [], createdAt := unixTime 2 }
  retainOperations := 32

/-- The tables after the commit. -/
def aheadTables : Tables := { smallChanged with
  room := { smallChanged.room with metadataRevision := 1, metadataSnapshotRevision := 1 }
  documents := [{ documentRow smallDocument with currentRevision := 5 }]
  changes := [changeRow smallChange, changeRow aheadCommit.change]
  operations := [operationRow aheadCommit.operation] }

theorem ahead_committed : Store.commitChange smallAppended aheadCommit (unixTime 2) false =
    .ok (smallAppended.insert "demo" aheadTables) := by
  have prepared : prepareRoomSnapshot aheadCommit.snapshot = .ok aheadCommit.snapshot := by
    decide +kernel
  have change : prepareChange aheadCommit.change (unixTime 2) = .ok aheadCommit.change := rfl
  have operation : prepareOperation aheadCommit.operation aheadCommit.change (unixTime 2) =
      .ok aheadCommit.operation := rfl
  unfold Store.commitChange
  rw [prepared, change]
  simp only [bind, Except.bind]
  rw [operation]
  rfl

theorem ahead_calls : Calls (fun _ _ => True)
    [smallAppended.insert "demo" aheadTables, smallAppended, smallStore, ∅] := by
  refine .call smallAppended _ _ (.commitChange aheadCommit) (unixTime 2) false
    (small_calls trivial trivial) trivial ahead_committed ?_
  rintro slug id ⟨tables, found, member⟩ lacks
  refine absurd ?_ lacks
  rw [Keyed.lookup_insert_if] at found
  split at found
  case isTrue same =>
    subst same
    cases found
    exact ⟨smallChanged, AList.lookup_insert _, member⟩
  case isFalse => exact ⟨tables, found, member⟩

/-- Nothing keeps a commit to the metadata from moving the revision of a document with stored
changes; its history then has a gap, and a reader is not told. -/
theorem history_gap : ∃ store earlier tables,
    Calls (fun _ _ => True) (store :: earlier) ∧ store.lookup "demo" = some tables ∧
    ¬ Contiguous tables ∧ Store.currentRevision? tables .document "main" = some 5 ∧
    ¬ Retained tables .document "main" 1 5 ∧
    Store.loadChangesSince store "demo" .document "main" 1 (unixTime 2) false = .ok [] := by
  have gap : ¬ Retained aheadTables .document "main" 1 5 := fun retained =>
    absurd (retained 5 (by decide) (by decide)) (by decide)
  refine ⟨_, _, aheadTables, ahead_calls, AList.lookup_insert _, fun contiguous => ?_, rfl, gap,
    rfl⟩
  obtain ⟨low, high, spans, latest⟩ := contiguous .document "main" (by decide)
  cases latest 5 rfl
  have first : (1 : Int) ∈ revisions aheadTables .document "main" := by decide
  have above := ((spans.mem 1).mp first).1
  exact absurd ((spans.mem 5).mpr ⟨by omega, le_rfl⟩) (by decide)

end Oxbin.Storage
