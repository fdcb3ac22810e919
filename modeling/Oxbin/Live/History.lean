import Oxbin.Live.Committed
import Oxbin.Livecollab.Rebasing

/-!
# The history of a document

A document is followed from a revision on: the edits since then make its content, and its history
is an end of the steps that they took.  From the history `submitDocument` and `bridge` read off
the edits that are newer than a revision.
-/

namespace Oxbin.Live

open Livecollab Transform

/-- The part of a history entry that rebasing and bridging read. -/
structure HistoryStep where
  revision : Int
  baseVersion : Int
  beforeLen : Int
  changes : ChangeSet

/-- The step that a history entry records. -/
def DocumentHistory.step (entry : DocumentHistory) : HistoryStep where
  revision := entry.revision
  baseVersion := entry.baseVersion
  beforeLen := entry.beforeLen
  changes := entry.changes

/-- The steps that edits take from a revision of a document on. -/
def stepsOf : Int → List UInt16 → List ChangeSet → List HistoryStep
  | _, _, [] => []
  | first, units, edit :: edits =>
      ⟨first + 1, first, units.length, edit⟩ :: stepsOf (first + 1) (edit.run units) edits

section Steps

variable {first version : Int} {units : List UInt16} {edits : List ChangeSet}

theorem stepsOf_append (first : Int) (units : List UInt16) (edits later : List ChangeSet) :
    stepsOf first units (edits ++ later) = stepsOf first units edits ++
      stepsOf (first + edits.length) (ChangeSet.system.run edits units) later := by
  induction edits generalizing first units with
  | nil => simp [stepsOf]
  | cons edit edits induction =>
      rw [List.cons_append, stepsOf, stepsOf, induction, List.cons_append, List.length_cons,
        Nat.cast_add, Nat.cast_one, Int.add_assoc, Int.add_comm 1]
      rfl

theorem map_changes_stepsOf (first : Int) (units : List UInt16) (edits : List ChangeSet) :
    (stepsOf first units edits).map HistoryStep.changes = edits := by
  induction edits generalizing first units with
  | nil => rfl
  | cons edit edits induction => rw [stepsOf, List.map_cons, induction]

/-- Where the steps of a document lie. -/
theorem revision_of_mem_stepsOf {step : HistoryStep} (member : step ∈ stepsOf first units edits) :
    step.revision = step.baseVersion + 1 ∧ first ≤ step.baseVersion ∧
      step.revision ≤ first + edits.length ∧
      step.beforeLen =
        (ChangeSet.system.run (edits.take (step.baseVersion - first).toNat) units).length := by
  induction edits generalizing first units with
  | nil => cases member
  | cons edit edits induction =>
      rw [List.length_cons, Nat.cast_add, Nat.cast_one]
      rcases List.mem_cons.mp member with rfl | later
      · refine ⟨rfl, le_rfl, by simp only; omega, ?_⟩
        simp
      · obtain ⟨revision, above, below, length⟩ := induction later
        refine ⟨revision, by omega, by omega, ?_⟩
        rw [length, show (step.baseVersion - first).toNat =
          (step.baseVersion - (first + 1)).toNat + 1 by omega]
        rfl

/-- The steps after a revision. -/
theorem filter_stepsOf (units : List UInt16) (edits : List ChangeSet) (first_le : first ≤ version) :
    (stepsOf first units edits).filter (fun step => decide (version < step.revision)) =
      (stepsOf first units edits).drop (version - first).toNat := by
  induction edits generalizing first units with
  | nil => simp [stepsOf]
  | cons edit edits induction =>
      rw [stepsOf]
      by_cases start : first = version
      · subst start
        rw [Int.sub_self, Int.toNat_zero, List.drop_zero, List.filter_eq_self]
        intro step member
        rw [← stepsOf] at member
        have := revision_of_mem_stepsOf member
        exact decide_eq_true (by omega)
      · rw [show (version - first).toNat = (version - (first + 1)).toNat + 1 by omega,
          List.drop_succ_cons, ← induction (edit.run units) (by omega), List.filter_cons_of_neg]
        simp only [decide_eq_true_eq]
        omega

/-- A step ends before every later one begins. -/
theorem pairwise_stepsOf (first : Int) (units : List UInt16) (edits : List ChangeSet) :
    (stepsOf first units edits).Pairwise fun earlier later =>
      earlier.revision ≤ later.baseVersion := by
  induction edits generalizing first units with
  | nil => exact .nil
  | cons edit edits induction =>
      refine .cons (fun later member => ?_) (induction _ _)
      exact (revision_of_mem_stepsOf member).2.1

end Steps

/-! ## Following a document -/

/-- The entry belongs to the time before a revision. -/
def HistoryStep.Before (first : Int) (step : HistoryStep) : Prop :=
  step.revision ≤ first ∧ step.baseVersion < first

/-- The edits since a revision have made the document what it is. -/
structure Document.Follows (first : Int) (units : List UInt16) (edits : List ChangeSet)
    (document : Document) : Prop where
  current : document.snapshot.currentRevision = first + edits.length
  content : utf16Units document.snapshot.content = ChangeSet.system.run edits units
  history : ∃ older : List HistoryStep, (∀ step ∈ older, step.Before first) ∧
    document.history.map DocumentHistory.step <:+ older ++ stepsOf first units edits

namespace Document

variable {first version : Int} {units : List UInt16} {edits : List ChangeSet} {document : Document}

theorem Follows.sameText {document' : Document} (follows : document.Follows first units edits)
    (same : document'.SameText document) : document'.Follows first units edits where
  current := same.currentRevision.trans follows.current
  content := (congrArg utf16Units same.content).trans follows.content
  history := by
    rw [same.history]
    exact follows.history

/-- The history reaches back to a revision. -/
def Reaches (document : Document) (version : Int) : Prop :=
  version = document.snapshot.currentRevision ∨
    ∃ entry ∈ document.history, entry.baseVersion ≤ version

/-- A history that reaches back to a revision contains all steps after it. -/
theorem Follows.newer (follows : document.Follows first units edits) (first_le : first ≤ version)
    (reaches : document.Reaches version) :
    (document.history.map DocumentHistory.step).filter
        (fun step => decide (version < step.revision)) =
      (stepsOf first units edits).drop (version - first).toNat := by
  obtain ⟨older, before, dropped, split⟩ := follows.history
  have older_none : older.filter (fun step => decide (version < step.revision)) = [] := by
    rw [List.filter_eq_nil_iff]
    intro step member
    have := (before step member).1
    simp only [decide_eq_true_eq]
    omega
  have dropped_none : dropped.filter (fun step => decide (version < step.revision)) = [] := by
    rw [List.filter_eq_nil_iff]
    intro step member
    have located : step ∈ older ++ stepsOf first units edits :=
      split ▸ List.mem_append_left _ member
    simp only [decide_eq_true_eq, not_lt]
    rcases List.mem_append.mp located with old | new
    · exact (before step old).1.trans first_le
    · rcases reaches with rfl | ⟨entry, retained, base_le⟩
      · rw [follows.current]
        exact (revision_of_mem_stepsOf new).2.2.1
      · have ordered : (older ++ stepsOf first units edits).Pairwise fun earlier later =>
            earlier.revision ≤ max first later.baseVersion := by
          rw [List.pairwise_append]
          refine ⟨?_, (pairwise_stepsOf first units edits).imp fun le =>
            le.trans (le_max_right _ _),
            fun step member _ _ => (before step member).1.trans (le_max_left _ _)⟩
          exact List.pairwise_of_forall_mem_list fun step member _ _ =>
            (before step member).1.trans (le_max_left _ _)
        rw [← split, List.pairwise_append] at ordered
        have bound := ordered.2.2 step member _ (List.mem_map_of_mem retained)
        exact bound.trans (max_le first_le base_le)
  have whole := filter_stepsOf units edits first_le
  rw [← whole, ← List.nil_append (List.filter _ (stepsOf first units edits)), ← older_none,
    ← List.filter_append, ← split, List.filter_append, dropped_none, List.nil_append]

/-- A version with a known length is retained. -/
theorem reaches_of_lengthAt {length : Int} (known : document.lengthAt version = some length) :
    document.Reaches version := by
  unfold lengthAt at known
  split at known
  case isTrue current => exact .inl current
  case isFalse =>
    rw [Option.map_eq_some_iff] at known
    obtain ⟨entry, found, _⟩ := known
    refine .inr ⟨entry, List.mem_of_find?_eq_some found, ?_⟩
    have := List.find?_some found
    simp only [beq_iff_eq] at this
    exact this.le

/-- `lengthAt` returns the length that the document had. -/
theorem Follows.lengthAt (follows : document.Follows first units edits) (first_le : first ≤ version)
    {length : Int} (known : document.lengthAt version = some length) :
    length = (ChangeSet.system.run (edits.take (version - first).toNat) units).length := by
  unfold Document.lengthAt at known
  split at known
  case isTrue current =>
    cases known
    rw [current, follows.current, utf16Len, follows.content, List.take_of_length_le (by omega)]
  case isFalse =>
    rw [Option.map_eq_some_iff] at known
    obtain ⟨entry, found, rfl⟩ := known
    have base : entry.baseVersion = version := by
      have := List.find?_some found
      simpa using this
    obtain ⟨older, before, suffix⟩ := follows.history
    have located := suffix.subset (List.mem_map_of_mem (List.mem_of_find?_eq_some found))
    rcases List.mem_append.mp located with old | new
    · have : entry.baseVersion < first := (before _ old).2
      omega
    · rw [← base]
      exact (revision_of_mem_stepsOf new).2.2.2

end Document

/-! ## Rebasing over the history -/

theorem rebase_eq (version : Int) (history : List DocumentHistory) (changes : ChangeSet) :
    (Room.rebase version history changes).toOption = ChangeSet.system.belowAll changes
      (((history.map DocumentHistory.step).filter
        (fun step => decide (version < step.revision))).map HistoryStep.changes) := by
  induction history generalizing changes with
  | nil => rfl
  | cons entry history induction =>
      rw [Room.rebase, List.map_cons]
      split
      case isTrue newer =>
        have kept : decide (version < entry.step.revision) = true := decide_eq_true newer
        rw [List.filter_cons, if_pos kept, List.map_cons, Rebasing.belowAll_cons]
        have below : ChangeSet.system.below changes entry.step.changes =
          (changes.map entry.changes false).toOption := rfl
        rw [below]
        cases changes.map entry.changes false with
        | error error => rfl
        | ok changes => exact induction changes
      case isFalse older =>
        have left : ¬decide (version < entry.step.revision) = true := mt of_decide_eq_true older
        rw [List.filter_cons, if_neg left]
        exact induction changes

/-- The server rebases an edit over everything that its author has not seen. -/
theorem Document.Follows.rebase {document : Document} {first version : Int} {units : List UInt16}
    {edits : List ChangeSet} (follows : document.Follows first units edits)
    (first_le : first ≤ version) (reaches : document.Reaches version) (changes : ChangeSet) :
    (Room.rebase version document.history changes).toOption =
      ChangeSet.system.belowAll changes (edits.drop (version - first).toNat) := by
  rw [rebase_eq, follows.newer first_le reaches, List.map_drop, map_changes_stepsOf]

/-- An accepted edit continues the history. -/
theorem Document.Follows.accept {document document' : Document} {first : Int} {units : List UInt16}
    {edits : List ChangeSet} {changes : ChangeSet} {content : String} {entry : DocumentHistory}
    (follows : document.Follows first units edits)
    (valid : changes.Fits WholeRunes (ChangeSet.system.run edits units))
    (applied : changes.apply document.snapshot.content = .ok content)
    (content' : document'.snapshot.content = content)
    (current' : document'.snapshot.currentRevision = document.snapshot.currentRevision + 1)
    (history' : document'.history <:+ document.history ++ [entry])
    (step : entry.step = ⟨document.snapshot.currentRevision + 1, document.snapshot.currentRevision,
      utf16Len document.snapshot.content, changes⟩) :
    document'.Follows first units (edits ++ [changes]) where
  current := by
    rw [current', follows.current, List.length_append, List.length_singleton, Nat.cast_add,
      Nat.cast_one, Int.add_assoc]
  content := by
    rw [← follows.content] at valid
    rw [content', valid.utf16Units_of_apply applied, follows.content, Rebasing.run_append]
    rfl
  history := by
    obtain ⟨older, before, suffix⟩ := follows.history
    refine ⟨older, before, (history'.map DocumentHistory.step).trans ?_⟩
    have last : stepsOf (first + edits.length) (ChangeSet.system.run edits units) [changes] =
        [entry.step] := by
      rw [step, follows.current, utf16Len, follows.content]
      rfl
    rw [List.map_append, stepsOf_append, last, ← List.append_assoc]
    obtain ⟨dropped, split⟩ := suffix
    exact ⟨dropped, by rw [← split, List.append_assoc]; rfl⟩

/-! ## An accepted edit -/

namespace Room

theorem editDocument_lookup (room : Room) (documentID : String) (document : Document)
    (content : String) (revision : Int) (now : Time) (other : String) :
    (room.editDocument documentID document content revision now).documents.lookup other =
      (if other = documentID then
        some { document with
          snapshot := { document.snapshot with
            content, currentRevision := revision, updatedAt := now } }
        else room.documents.lookup other).map (positioned room.order other) := by
  simp only [editDocument, syncSnapshot, positionAll, Keyed.lookup_mapKeyed,
    Keyed.lookup_insert_if]

section Accepted

variable (room : Room) (operation : DocumentOperation) (fingerprint : String)
  (document : Document) (changes : ChangeSet) (content : String) (now : Time)

/-- The edited document after an accepted document operation. -/
theorem accepted_lookup_own :
    ∃ document' entry, (room.accepted operation fingerprint document changes content
        now).documents.lookup operation.documentID = some document' ∧
      document'.snapshot.content = content ∧
      document'.snapshot.currentRevision = document.snapshot.currentRevision + 1 ∧
      document'.history <:+ document.history ++ [entry] ∧
      entry.step = ⟨document.snapshot.currentRevision + 1, document.snapshot.currentRevision,
        utf16Len document.snapshot.content, changes⟩ := by
  have own : operation.documentID =
    (acceptedDocument operation document changes content).documentID := rfl
  rw [accepted, committed_document_lookup, editDocument_lookup, if_pos rfl, Option.map_some,
    Option.map_some, if_pos own]
  refine ⟨_, historyEntry (acceptedDocument operation document changes content)
    (utf16Len document.snapshot.content) (encodeDocumentChange changes).size, rfl, ?_, ?_, ?_, ?_⟩
  · rw [Document.recorded_snapshot, (saved_sameText _ _ _).content,
      (Document.positioned_sameText _ _ _).content]
  · rw [Document.recorded_snapshot, (saved_sameText _ _ _).currentRevision,
      (Document.positioned_sameText _ _ _).currentRevision]
  · refine (Document.recorded_history _ _ _ _).trans ?_
    rw [(saved_sameText _ _ _).history, (Document.positioned_sameText _ _ _).history]
    exact List.suffix_rfl
  · rw [DocumentHistory.step, historyEntry, acceptedDocument, Int.add_sub_cancel]

/-- Every other document keeps its text. -/
theorem accepted_lookup_other {documentID : String} {other : Document}
    (different : documentID ≠ operation.documentID)
    (found : room.documents.lookup documentID = some other) :
    ∃ other', (room.accepted operation fingerprint document changes content
        now).documents.lookup documentID = some other' ∧ other'.SameText other := by
  have unedited : documentID ≠
    (acceptedDocument operation document changes content).documentID := different
  rw [accepted, committed_document_lookup, editDocument_lookup, if_neg different, found,
    Option.map_some, Option.map_some, if_neg unedited]
  exact ⟨_, rfl, (saved_sameText _ _ _).trans (Document.positioned_sameText _ _ _)⟩

/-- A document after an accepted document operation is the edited one or an old one. -/
theorem accepted_lookup_cases {documentID : String} {document' : Document}
    (lookup : (room.accepted operation fingerprint document changes content
      now).documents.lookup documentID = some document') :
    documentID = operation.documentID ∨
      ∃ other, room.documents.lookup documentID = some other ∧ document'.SameText other := by
  by_cases own : documentID = operation.documentID
  · exact .inl own
  · right
    cases found : room.documents.lookup documentID with
    | none =>
        rw [accepted, committed_document_lookup, editDocument_lookup, if_neg own, found] at lookup
        cases lookup
    | some other =>
        obtain ⟨other', lookup', same⟩ :=
          room.accepted_lookup_other operation fingerprint document changes content now own found
        cases lookup.symm.trans lookup'
        exact ⟨other, rfl, same⟩

end Accepted

/-- The histories reach back, and the ledger names no revision that is still to come. -/
structure Orderly (room : Room) : Prop where
  histories : ∀ documentID document, room.documents.lookup documentID = some document →
    ∀ entry ∈ document.history, entry.step.Before document.snapshot.currentRevision
  ledger : ∀ operationID fingerprint accepted document,
    room.operations.lookup operationID = some ⟨fingerprint, .document accepted⟩ →
    room.documents.lookup accepted.documentID = some document →
    accepted.revision ≤ document.snapshot.currentRevision

/-- A room that has become another one without an edit of a document that it had. -/
def Keeps (room room' : Room) : Prop :=
  ∀ documentID document, room.documents.lookup documentID = some document →
    ∃ document', room'.documents.lookup documentID = some document' ∧ document'.SameText document

theorem Orderly.of_shared {room room' : Room} (orderly : room.Orderly)
    (shared : room'.shared = room.shared) : room'.Orderly where
  histories := documents_of_shared shared ▸ orderly.histories
  ledger := documents_of_shared shared ▸ operations_of_shared shared ▸ orderly.ledger

/-- An accepted document operation keeps the room orderly. -/
theorem Orderly.accepted {room : Room} (orderly : room.Orderly) {operation : DocumentOperation}
    {document : Document} (found : room.documents.lookup operation.documentID = some document)
    (fingerprint : String) (changes : ChangeSet) (content : String) (now : Time) :
    (room.accepted operation fingerprint document changes content now).Orderly := by
  obtain ⟨own, entry, lookup, _, current, history, step⟩ :=
    room.accepted_lookup_own operation fingerprint document changes content now
  constructor
  · intro documentID document' lookup' recorded member
    obtain rfl | ⟨other, found', same⟩ :=
      room.accepted_lookup_cases operation fingerprint document changes content now lookup'
    · cases lookup.symm.trans lookup'
      rw [current]
      rcases List.mem_append.mp (history.subset member) with old | new
      · obtain ⟨revision, base⟩ := orderly.histories _ document found recorded old
        exact ⟨by omega, by omega⟩
      · rw [List.mem_singleton.mp new, step]
        exact ⟨le_rfl, by simp only; omega⟩
    · rw [same.history] at member
      rw [same.currentRevision]
      exact orderly.histories documentID other found' recorded member
  · intro operationID fingerprint' accepted' document' recorded lookup'
    obtain ⟨documents, equality⟩ := (room.editDocument operation.documentID document content
      (document.snapshot.currentRevision + 1) now).committed_document_eq
        (documentChange (acceptedDocument operation document changes content) now) fingerprint
        (acceptedDocument operation document changes content) (utf16Len document.snapshot.content)
    rw [Room.accepted, equality] at recorded
    rcases lookup_of_pruneRecords recorded with new | old
    · cases new
      cases lookup.symm.trans lookup'
      exact current.ge
    · obtain own' | ⟨other, found', same⟩ :=
        room.accepted_lookup_cases operation fingerprint document changes content now lookup'
      · rw [own'] at lookup'
        cases lookup.symm.trans lookup'
        have bound := orderly.ledger operationID fingerprint' accepted' document old
          (own' ▸ found)
        omega
      · rw [same.currentRevision]
        exact orderly.ledger operationID fingerprint' accepted' other old found'

/-- A document operation creates no document. -/
theorem DocumentOutcome.lookup_none [Host] {room : Room} {store : Storage.Store}
    {operation : DocumentOperation} {now : Time} {fault : Bool}
    {outcome : Outcome AcceptedDocumentOperation}
    (ends : DocumentOutcome room store operation now fault outcome) {documentID : String}
    (absent : room.documents.lookup documentID = none) :
    outcome.1.room.documents.lookup documentID = none := by
  cases ends with
  | refused => exact absent
  | repeated => exact absent
  | accepted document changes content store' named fresh admitted =>
      have found := (admitted_of_admitDocument admitted).found
      rw [Option.eq_none_iff_forall_ne_some]
      intro document' lookup
      obtain rfl | ⟨other, found', _⟩ := room.accepted_lookup_cases operation _ document changes
        content now lookup
      · rw [found] at absent
        cases absent
      · rw [found'] at absent
        cases absent

/-- The room stays orderly when it handles a document operation. -/
theorem DocumentOutcome.orderly [Host] {room : Room} {store : Storage.Store}
    {operation : DocumentOperation} {now : Time} {fault : Bool}
    {outcome : Outcome AcceptedDocumentOperation} (orderly : room.Orderly)
    (ends : DocumentOutcome room store operation now fault outcome) :
    outcome.1.room.Orderly := by
  cases ends with
  | refused => exact orderly
  | repeated => exact orderly
  | accepted document changes content store' named fresh admitted =>
      exact orderly.accepted (admitted_of_admitDocument admitted).found _ _ _ _

end Room

end Oxbin.Live
