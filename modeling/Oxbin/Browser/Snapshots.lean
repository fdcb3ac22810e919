import Oxbin.CodeMirror.Mapping
import Oxbin.CodeMirror.Text
import Oxbin.Transform.Diff

/-!
# Snapshots that a browser catches up with

A browser that missed events fetches the whole room.  `live-collab.ts` turns the difference
between the text that the browser has synchronised and the text of the snapshot into one change
set, and pads it with empty ones up to the revision of the snapshot.
-/

namespace Oxbin.Browser

open CodeMirror Transform

/-- `ChangeSet.of` for one replacement by a string, in a document of a length; the replacement is
refused if it does not lie in the document. -/
def replaceRange (start stop : Nat) (insert : List UInt16) (length : Nat) :
    Option (ChangeSet UInt16) :=
  if start > stop ∨ stop > length then none
  else
    let text := breakLines insert
    if start = stop ∧ text = [] then some (addSection ⟨[]⟩ length (-1) [])
    else
      let kept := addSection ⟨[]⟩ start (-1) []
      let changed := addSection kept (stop - start : Nat) text.length text
      some (addSection changed (length - stop : Nat) (-1) [])

/-- `applyLiveChanges`. -/
def applyLiveChanges (content : List UInt16) (changes : ChangeSet UInt16) : Option (List UInt16) :=
  changes.apply (joinLines (splitFeeds content))

/-- `diffLiveDocuments`. -/
def diffLiveDocuments (before after : List UInt16) : Option (ChangeSet UInt16) :=
  if before = after then some (.empty before.length)
  else
    let front := commonPrefix before after
    let back := commonSuffix (before.drop front) (after.drop front)
    replaceRange front (before.length - back) ((after.take (after.length - back)).drop front)
      before.length

/-- An `Update` of the collaboration extension. -/
structure Update (α : Type) where
  clientID : String
  changes : ChangeSet α
  deriving DecidableEq

/-- The updates applied one after another; each has to start at the length of the text. -/
def replay {α : Type} (updates : List (Update α)) (text : List α) : Option (List α) :=
  updates.foldlM (fun text update => update.changes.apply text) text

/-- `liveSnapshotUpdates`. -/
def liveSnapshotUpdates (changes : ChangeSet UInt16) (revision currentRevision : Int) :
    List (Update UInt16) :=
  let count := revision - currentRevision
  if count ≤ 0 then []
  else
    ⟨"snapshot-resync", changes⟩ :: (List.range (count.toNat - 1)).map fun index =>
      ⟨s!"snapshot-resync-{index + 1}", .empty changes.newLength.toNat⟩

/-! ## One replacement -/

/-- `ChangeSet.of` writes the lines of the inserted string. -/
theorem replaceRange_spec (front old back insert : List UInt16) :
    ∃ changes, replaceRange front.length (front.length + old.length) insert
        (front ++ old ++ back).length = some changes ∧ changes.Fits (front ++ old ++ back) ∧
      changes.run (front ++ old ++ back) = front ++ breakLines insert ++ back := by
  have inside : ¬(front.length > front.length + old.length ∨
      front.length + old.length > (front ++ old ++ back).length) := by
    rw [List.length_append, List.length_append]
    omega
  rw [replaceRange, if_neg inside]
  dsimp only
  split
  case isTrue nothing =>
    obtain ⟨same, blank⟩ := nothing
    obtain rfl : old = [] := List.length_eq_zero_iff.mp (by omega)
    obtain ⟨fits, writes⟩ := ChangeSet.addSection_spec (@ChangeSet.fits_nil UInt16)
      (front ++ [] ++ back) [] (.inl rfl)
    refine ⟨_, rfl, fits, writes.trans ?_⟩
    rw [blank]
    simp [ChangeSet.run, ChangeSet.atoms]
  case isFalse =>
    obtain ⟨fits, writes⟩ := ChangeSet.addSection_spec (@ChangeSet.fits_nil UInt16) front []
      (.inl rfl)
    obtain ⟨fits', writes'⟩ := ChangeSet.addSection_spec fits old (breakLines insert) (.inr rfl)
    obtain ⟨fits'', writes''⟩ := ChangeSet.addSection_spec fits' back [] (.inl rfl)
    have old_length : front.length + old.length - front.length = old.length := by omega
    have back_length :
        (front ++ old ++ back).length - (front.length + old.length) = back.length := by
      rw [List.length_append, List.length_append]
      omega
    rw [old_length, back_length]
    refine ⟨_, rfl, fits'', ?_⟩
    rw [List.nil_append] at writes writes' writes''
    rw [writes'', writes', writes]
    simp [ChangeSet.run, ChangeSet.atoms]

/-- The diff of two texts fits the first, and writes the second with its line breaks changed
where the two differ. -/
theorem diffLiveDocuments_spec (before after : List UInt16) :
    ∃ changes front old new back, diffLiveDocuments before after = some changes ∧
      Difference before after front old new back ∧ changes.Fits before ∧
      changes.run before = front ++ breakLines new ++ back := by
  by_cases same : before = after
  · subst same
    have fits := ChangeSet.fits_empty before
    refine ⟨_, before, [], [], [], if_pos rfl, ⟨⟨by simp, by simp⟩, ?_, ?_⟩, fits, ?_⟩
    · exact fun front inside _ => inside.length_le
    · exact fun back inside _ => inside.length_le
    · rw [ChangeSet.run_of_isEmpty fits (ChangeSet.isEmpty_empty _)]
      simp
  · have cut := difference_of_common before after
    have front_le := commonPrefix_le before after
    have back_le := commonSuffix_le (before.drop (commonPrefix before after))
      (after.drop (commonPrefix before after))
    rw [List.length_drop, List.length_drop] at back_le
    have front_length : (before.take (commonPrefix before after)).length =
        commonPrefix before after := by
      rw [List.length_take, min_eq_left front_le.1]
    obtain ⟨changes, made, fits, writes⟩ := replaceRange_spec _ _ _
      ((after.take (after.length - commonSuffix (before.drop (commonPrefix before after))
        (after.drop (commonPrefix before after)))).drop (commonPrefix before after))
    rw [← cut.before_eq] at made fits writes
    have stop : before.length - commonSuffix (before.drop (commonPrefix before after))
        (after.drop (commonPrefix before after)) = commonPrefix before after +
        ((before.take (before.length - commonSuffix (before.drop (commonPrefix before after))
          (after.drop (commonPrefix before after)))).drop (commonPrefix before after)).length := by
      rw [List.length_drop, List.length_take]
      omega
    refine ⟨changes, _, _, _, _, ?_, cut, fits, writes⟩
    rw [diffLiveDocuments, if_neg same, ← made, front_length, ← stop]

/-! ## Exact diffs -/

theorem applyLiveChanges_eq {content : List UInt16} {changes : ChangeSet UInt16}
    (fits : changes.Fits content) :
    applyLiveChanges content changes = some (changes.run content) := by
  rw [applyLiveChanges, joinLines_splitFeeds, fits.apply_eq]

/-- The padding of a snapshot leaves the text alone. -/
theorem replay_padding (text : List UInt16) (names : List String) :
    replay (names.map fun name => ⟨name, .empty text.length⟩) text = some text := by
  induction names with
  | nil => rfl
  | cons name names induction =>
      have fits := ChangeSet.fits_empty text
      rw [List.map_cons, replay, List.foldlM_cons, fits.apply_eq,
        ChangeSet.run_of_isEmpty fits (ChangeSet.isEmpty_empty _)]
      exact induction

/-- The updates of a snapshot advance one revision each, and the first of them makes the
change. -/
theorem liveSnapshotUpdates_spec {changes : ChangeSet UInt16} {text : List UInt16}
    (fits : changes.Fits text) {revision currentRevision : Int}
    (behind : currentRevision < revision) :
    ((liveSnapshotUpdates changes revision currentRevision).length : Int) =
        revision - currentRevision ∧
      replay (liveSnapshotUpdates changes revision currentRevision) text =
        some (changes.run text) := by
  rw [liveSnapshotUpdates, if_neg (by omega)]
  constructor
  · rw [List.length_cons, List.length_map, List.length_range]
    omega
  · have padding := replay_padding (changes.run text)
      ((List.range ((revision - currentRevision).toNat - 1)).map fun index =>
        s!"snapshot-resync-{index + 1}")
    have length_eq : changes.newLength.toNat = (changes.run text).length := by
      rw [← fits.length_run, Int.toNat_natCast]
    rw [List.map_map] at padding
    rw [replay, List.foldlM_cons, fits.apply_eq, length_eq]
    exact padding

/-- For all texts and revisions, the diff turns the first text into the second and its updates
lead from one to the other, if and only if the second arises from the first by replacing one
stretch with a text without `\r`. -/
theorem snapshot_diff_exact (before after : List UInt16) {current revision : Int}
    (behind : current < revision) :
    (∃ changes, diffLiveDocuments before after = some changes ∧
      applyLiveChanges before changes = some after ∧
      ((liveSnapshotUpdates changes revision current).length : Int) = revision - current ∧
      replay (liveSnapshotUpdates changes revision current) before = some after) ↔
    ∃ front old new back, Replacement before after front old new back ∧ carriageReturn ∉ new := by
  obtain ⟨changes, front, old, new, back, made, difference, fits, writes⟩ :=
    diffLiveDocuments_spec before after
  obtain ⟨length_eq, replayed⟩ := liveSnapshotUpdates_spec fits behind
  have exact_iff : changes.run before = after ↔ carriageReturn ∉ new := by
    rw [writes, difference.after_eq, List.append_left_inj, List.append_right_inj]
    exact breakLines_eq_self_iff
  constructor
  · rintro ⟨changes', made', applied, _⟩
    rw [made] at made'
    cases made'
    rw [applyLiveChanges_eq fits, Option.some.injEq] at applied
    exact ⟨front, old, new, back, difference.toReplacement, exact_iff.mp applied⟩
  · rintro ⟨front', old', new', back', replacement, clean⟩
    have same := exact_iff.mpr fun member => clean
      (difference.mem_of_replacement replacement member)
    rw [same] at replayed
    exact ⟨changes, made, by rw [applyLiveChanges_eq fits, same], length_eq, replayed⟩

theorem snapshot_diff_exact_insertion :
    (∃ changes, diffLiveDocuments [97, 98] [97, 99, 98] = some changes ∧
      applyLiveChanges [97, 98] changes = some [97, 99, 98] ∧
      ((liveSnapshotUpdates changes 5 3).length : Int) = 5 - 3 ∧
      replay (liveSnapshotUpdates changes 5 3) [97, 98] = some [97, 99, 98]) ↔
    ∃ front old new back, Replacement [97, 98] [97, 99, 98] front old new back ∧
      carriageReturn ∉ new :=
  snapshot_diff_exact [97, 98] [97, 99, 98] (by decide)

/-- A `\r` of the snapshot arrives as a `\n`. -/
theorem snapshot_diff_inexact :
    ∃ changes, diffLiveDocuments [97] [97, carriageReturn] = some changes ∧
      applyLiveChanges [97] changes = some [97, lineFeed] ∧
      replay (liveSnapshotUpdates changes 1 0) [97] = some [97, lineFeed] ∧
      ([97, lineFeed] : List UInt16) ≠ [97, carriageReturn] :=
  ⟨⟨[⟨1, -1, []⟩, ⟨0, 1, [lineFeed]⟩]⟩, by decide, by decide, by decide, by decide⟩

end Oxbin.Browser
