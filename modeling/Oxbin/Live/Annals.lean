import Oxbin.Live.Listing
import Oxbin.Live.Saving

/-!
# The texts behind a history

A document drops the oldest entries of its history.  The annals keep every text that it has had,
so that the entries which are left can be compared with what they stand for.
-/

namespace Oxbin.Live

open Livecollab Storage

/-- The text that a document had at each revision. -/
abbrev Texts : Type := Int → String

/-- The texts of all documents. -/
abbrev Annals : Type := String → Texts

/-- Enter the documents of a room. -/
def Annals.log (annals : Annals) (room : Room) : Annals := fun id version =>
  match room.documents.lookup id with
  | none => annals id version
  | some document =>
      if version = document.snapshot.currentRevision then document.snapshot.content
      else annals id version

/-! ## Histories -/

/-- The entries of a history, from a revision on, lead from text to text. -/
def RetainedFrom (texts : Texts) : Int → List DocumentHistory → Prop
  | _, [] => True
  | version, entry :: history =>
      (entry.baseVersion = version ∧ entry.revision = version + 1 ∧
        entry.beforeLen = utf16Len (texts version) ∧
        entry.changes.apply (texts version) = .ok (texts (version + 1))) ∧
      RetainedFrom texts (version + 1) history

section Retained

variable {texts texts' : Texts} {version : Int} {history : List DocumentHistory}

theorem RetainedFrom.congr (retained : RetainedFrom texts version history)
    (same : ∀ other, version ≤ other → other ≤ version + history.length →
      texts' other = texts other) : RetainedFrom texts' version history := by
  induction history generalizing version with
  | nil => trivial
  | cons entry history induction =>
      obtain ⟨⟨base, revision, length, applied⟩, rest⟩ := retained
      rw [List.length_cons, Nat.cast_add, Nat.cast_one] at same
      refine ⟨⟨base, revision, ?_, ?_⟩, induction rest fun other above below =>
        same other (by omega) (by omega)⟩
      · rw [same version le_rfl (by omega), length]
      · rw [same version le_rfl (by omega), same (version + 1) (by omega) (by omega), applied]

theorem RetainedFrom.append (retained : RetainedFrom texts version history)
    {later : List DocumentHistory} (rest : RetainedFrom texts (version + history.length) later) :
    RetainedFrom texts version (history ++ later) := by
  induction history generalizing version with
  | nil => simpa using rest
  | cons entry history induction =>
      refine ⟨retained.1, induction retained.2 ?_⟩
      rw [List.length_cons, Nat.cast_add, Nat.cast_one] at rest
      rwa [show version + 1 + history.length = version + (history.length + 1) by omega]

theorem RetainedFrom.drop (retained : RetainedFrom texts version history) (count : Nat) :
    RetainedFrom texts (version + count) (history.drop count) := by
  induction count generalizing version history with
  | zero => simpa using retained
  | succ count induction =>
      cases history with
      | nil => trivial
      | cons entry history =>
          have rest := induction retained.2
          rwa [Nat.cast_add, Nat.cast_one, Int.add_comm _ 1, ← Int.add_assoc]

/-- The entry for a revision. -/
theorem RetainedFrom.find (retained : RetainedFrom texts version history) {wanted : Int}
    (above : version ≤ wanted) (below : wanted < version + history.length) :
    (history.find? fun entry => entry.baseVersion == wanted).map DocumentHistory.beforeLen =
      some (utf16Len (texts wanted) : Int) := by
  induction history generalizing version with
  | nil =>
      rw [List.length_nil] at below
      omega
  | cons entry history induction =>
      obtain ⟨⟨base, _, length, _⟩, rest⟩ := retained
      rw [List.length_cons, Nat.cast_add, Nat.cast_one] at below
      rw [List.find?_cons, base]
      by_cases here : version = wanted
      · rw [here, beq_self_eq_true, Option.map_some, length, here]
      · rw [beq_false_of_ne here]
        exact induction rest (by omega) (by omega)

/-- Every entry starts from the length of its text. -/
theorem RetainedFrom.lengths (retained : RetainedFrom texts version history)
    {entry : DocumentHistory} (member : entry ∈ history) :
    entry.beforeLen = utf16Len (texts entry.baseVersion) ∧
      entry.changes.oldLen = utf16Len (texts entry.baseVersion) := by
  induction history generalizing version with
  | nil => cases member
  | cons first history induction =>
      obtain ⟨⟨base, _, length, applied⟩, rest⟩ := retained
      rcases List.mem_cons.mp member with rfl | later
      · rw [base]
        exact ⟨length, ChangeSet.oldLen_of_apply applied⟩
      · exact induction rest later

end Retained

/-- The document has the text of its revision, and its history leads there from the revision
through which it has been compacted. -/
structure Document.Recalls (texts : Texts) (document : Document) : Prop where
  content : document.snapshot.content = texts document.snapshot.currentRevision
  retained : RetainedFrom texts document.compactedRevision document.history
  current : document.compactedRevision + document.history.length =
    document.snapshot.currentRevision
  bytes : document.historyBytes = (document.history.map DocumentHistory.bytes).sum

namespace Document

variable {texts : Texts} {document : Document}

/-- `lengthAt` answers for every revision that the history reaches. -/
theorem Recalls.lengthAt (recalls : document.Recalls texts) {version : Int}
    (above : document.compactedRevision ≤ version)
    (below : version ≤ document.snapshot.currentRevision) :
    document.lengthAt version = some (utf16Len (texts version) : Int) := by
  unfold Document.lengthAt
  split
  case isTrue current => rw [current, recalls.content]
  case isFalse older =>
    have current := recalls.current
    exact recalls.retained.find above (by omega)

/-- A document without a history. -/
theorem Recalls.blank {document : Document} (content : document.snapshot.content =
      texts document.snapshot.currentRevision) (history : document.history = [])
    (bytes : document.historyBytes = 0)
    (compacted : document.compactedRevision = document.snapshot.currentRevision) :
    document.Recalls texts where
  content := content
  retained := by
    rw [history]
    trivial
  current := by simp [history, compacted]
  bytes := by simp [history, bytes]

theorem pruneRows_sum {α : Type} (size : α → Int) (maxRows maxBytes : Int) (rows : List α) :
    (pruneRows size maxRows maxBytes rows (rows.map size).sum).2 =
      ((pruneRows size maxRows maxBytes rows (rows.map size).sum).1.map size).sum := by
  induction rows with
  | nil => rfl
  | cons row rows induction =>
      rw [pruneRows]
      split
      · rw [List.map_cons, List.sum_cons, add_sub_cancel_left]
        exact induction
      · rfl

/-- Pruning drops the oldest entries. -/
theorem Recalls.pruneHistory (recalls : document.Recalls texts) (maxRows maxBytes : Int) :
    (document.pruneHistory maxRows maxBytes).Recalls texts := by
  obtain ⟨count, dropped⟩ := Room.pruneRows_eq_drop DocumentHistory.bytes maxRows maxBytes
    document.history document.historyBytes
  have kept := recalls.retained.drop count
  have current := recalls.current
  have sum := pruneRows_sum DocumentHistory.bytes maxRows maxBytes document.history
  rw [← recalls.bytes] at sum
  unfold Document.pruneHistory
  simp only [dropped] at sum ⊢
  have length := List.length_drop (i := count) (l := document.history)
  constructor
  case content => exact recalls.content
  case bytes => exact sum
  case retained =>
    simp only
    cases rest : document.history.drop count with
    | nil => trivial
    | cons oldest history =>
        rw [rest] at kept
        change RetainedFrom texts oldest.baseVersion (oldest :: history)
        rw [kept.1.1]
        exact kept
  case current =>
    simp only
    cases rest : document.history.drop count with
    | nil => simp
    | cons oldest history =>
        rw [rest] at kept length
        change oldest.baseVersion + ((oldest :: history).length : Int) = _
        rw [kept.1.1, length]
        rw [List.length_cons] at length
        omega

/-- An accepted change continues the history. -/
theorem Recalls.addHistory (recalls : document.Recalls texts) (entry : DocumentHistory)
    {content : String} (updatedAt : Time)
    (base : entry.baseVersion = document.snapshot.currentRevision)
    (revision : entry.revision = document.snapshot.currentRevision + 1)
    (length : entry.beforeLen = utf16Len document.snapshot.content)
    (applied : entry.changes.apply document.snapshot.content = .ok content)
    (written : texts (document.snapshot.currentRevision + 1) = content) :
    Recalls texts { document.addHistory entry with
      snapshot := { document.snapshot with
        content, currentRevision := document.snapshot.currentRevision + 1, updatedAt } } where
  content := written.symm
  retained := by
    refine recalls.retained.append ?_
    rw [recalls.current]
    refine ⟨⟨base, revision, ?_, ?_⟩, trivial⟩
    · rw [length, recalls.content]
    · rw [← recalls.content, applied, written]
  current := by
    have current := recalls.current
    simp only [Document.addHistory, List.length_append, List.length_singleton, Nat.cast_add,
      Nat.cast_one]
    omega
  bytes := by
    simp only [Document.addHistory, List.map_append, List.sum_append, List.map_singleton,
      List.sum_singleton, recalls.bytes]

/-- Texts of other revisions do not matter. -/
theorem Recalls.congr (recalls : document.Recalls texts) {texts' : Texts}
    (same : ∀ version, version ≤ document.snapshot.currentRevision →
      texts' version = texts version) : document.Recalls texts' where
  content := recalls.content.trans (same _ le_rfl).symm
  retained := by
    refine recalls.retained.congr fun version _ below => same version ?_
    rw [← recalls.current]
    exact below
  current := recalls.current
  bytes := recalls.bytes

/-- The documents have the same text and the same history. -/
structure SameRecord (left right : Document) : Prop where
  text : left.SameText right
  historyBytes : left.historyBytes = right.historyBytes
  compactedRevision : left.compactedRevision = right.compactedRevision

theorem SameRecord.refl (document : Document) : document.SameRecord document :=
  ⟨.refl document, rfl, rfl⟩

theorem SameRecord.trans {first second third : Document} (left : first.SameRecord second)
    (right : second.SameRecord third) : first.SameRecord third where
  text := left.text.trans right.text
  historyBytes := left.historyBytes.trans right.historyBytes
  compactedRevision := left.compactedRevision.trans right.compactedRevision

theorem SameRecord.addHistory {left right : Document} (same : left.SameRecord right)
    (entry : DocumentHistory) : (left.addHistory entry).SameRecord (right.addHistory entry) where
  text := ⟨same.text.content, same.text.currentRevision, by
    unfold Document.addHistory
    rw [same.text.history]⟩
  historyBytes := by
    unfold Document.addHistory
    rw [same.historyBytes]
  compactedRevision := same.compactedRevision

theorem Recalls.sameRecord (recalls : document.Recalls texts) {document' : Document}
    (same : document'.SameRecord document) : document'.Recalls texts where
  content := by
    rw [same.text.content, same.text.currentRevision]
    exact recalls.content
  retained := by
    rw [same.text.history, same.compactedRevision]
    exact recalls.retained
  current := by
    rw [same.text.history, same.compactedRevision, same.text.currentRevision]
    exact recalls.current
  bytes := by
    rw [same.text.history, same.historyBytes]
    exact recalls.bytes

theorem positioned_sameRecord (order : List String) (id : String) (document : Document) :
    (Room.positioned order id document).SameRecord document := by
  refine ⟨positioned_sameText order id document, ?_, ?_⟩
  all_goals
    unfold Room.positioned
    split <;> rfl

theorem saved_sameRecord (order : List String) (id : String) (document : Document) :
    (Room.saved order id document).SameRecord document :=
  ⟨Room.saved_sameText order id document, (positioned_sameRecord order id document).historyBytes,
    (positioned_sameRecord order id document).compactedRevision⟩

/-- Compacting through the current revision forgets the history. -/
theorem Recalls.recorded {options : HubOptions} {entry : DocumentHistory} {compactThrough : Int}
    (recalls : (document.addHistory entry).Recalls texts)
    (through : 0 < compactThrough → compactThrough = document.snapshot.currentRevision) :
    (document.recorded options entry compactThrough).Recalls texts := by
  have pruned := recalls.pruneHistory options.maxHistoryRows options.maxHistoryBytes
  unfold Document.recorded
  simp only
  split
  case isTrue compacts => exact .blank pruned.content rfl rfl (through compacts)
  case isFalse => exact pruned

end Document

end Oxbin.Live
