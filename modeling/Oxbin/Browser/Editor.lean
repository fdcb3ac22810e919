import Oxbin.Browser.Wire
import Oxbin.CodeMirror.Text
import Oxbin.Live.Validation
import Oxbin.Livecollab.Encoding
import Oxbin.Livecollab.Rebasing

/-!
# The editor

The browser edits documents with CodeMirror and its extension for collaboration.  What the browser
relies on is assumed of an editor; the model of CodeMirror below is one.
-/

namespace Oxbin.Browser

open Livecollab Live Transform

/-- An update that the editor has made and the server has not acknowledged.  Its origin carries
the operation ID that `flushChanges` gives to the transaction. -/
structure LocalUpdate where
  operationID : String
  changes : ChangeSet
  deriving DecidableEq, Repr

/-! ## Change sets as the editor reads them -/

/-- A section as the editor reads it. -/
def bareSection (sect : Section) : Section :=
  if sect.newLen < 0 then ⟨sect.oldLen, -1, ""⟩ else sect

/-- A change set as the editor reads it. -/
def bare (set : ChangeSet) : ChangeSet := ⟨set.sections.map bareSection⟩

section Bare

variable {set : ChangeSet} {units : List UInt16}

theorem bareSection_atoms (sect : Section) : (bareSection sect).atoms = sect.atoms := by
  unfold bareSection
  split
  case isTrue kept =>
    have unchanged : sect.changed = false := decide_eq_false (not_le.mpr kept)
    simp only [Section.atoms, unchanged, Bool.false_eq_true, if_false]
    rfl
  case isFalse => rfl

theorem bare_run (set : ChangeSet) (units : List UInt16) :
    (bare set).run units = set.run units := by
  unfold ChangeSet.run atomsOf bare
  rw [List.flatMap_map]
  simp only [bareSection_atoms]

theorem bare_fits (fits : set.Fits WholeRunes units) : (bare set).Fits WholeRunes units where
  formed sect member := by
    obtain ⟨original, present, rfl⟩ := List.mem_map.mp member
    unfold bareSection
    split
    case isTrue kept =>
      rcases fits.formed original present with ⟨_, positive⟩ | ⟨_, length⟩
      · exact .inl ⟨rfl, positive⟩
      · exact absurd (utf16Len_nonneg original.insert) (by omega)
    case isFalse => exact fits.formed original present
  cuts := by
    have lengths : lengthsOf (bare set).sections = lengthsOf set.sections := by
      unfold lengthsOf bare
      rw [List.map_map]
      refine List.map_congr_left fun sect _ => ?_
      rw [Function.comp_apply, bareSection]
      split <;> rfl
    rw [lengths]
    exact fits.cuts

end Bare

/-! ## What is assumed -/

/-- The functions of the editor that the browser calls, and what it relies on. -/
class Editor where
  /-- The text of the state that `EditorState.create` makes of a string. -/
  create : List UInt16 → List UInt16
  /-- `ChangeSet.fromJSON`. -/
  fromJSON : Json → Option ChangeSet
  /-- `ChangeSet.apply`. -/
  apply : ChangeSet → List UInt16 → Except CollabError (List UInt16)
  /-- What `receiveUpdates` makes of the pending updates when it gets a change of the editor itself
  or of somebody else: the updates that stay pending, and what it does to the text. -/
  receiveUpdates : List LocalUpdate → Bool → ChangeSet →
    Except CollabError (List LocalUpdate × Option ChangeSet)
  /-- The text is the string if no line of it ends in a carriage return, and only then. -/
  create_eq_self_iff (content : List UInt16) :
    create content = content ↔ CodeMirror.carriageReturn ∉ content
  /-- Change sets are read as they have been written. -/
  fromJSON_encode (set : ChangeSet) (formed : set.WellFormed) :
    fromJSON (encodeChangeSet set) = some (bare set)
  /-- A change set that fits is applied section by section. -/
  apply_eq (set : ChangeSet) (units : List UInt16) (fits : set.Fits WholeRunes units) :
    apply set units = .ok (set.run units)
  /-- The first pending update is confirmed when it comes back. -/
  receiveUpdates_own (update : LocalUpdate) (pending : List LocalUpdate) (changes : ChangeSet) :
    receiveUpdates (update :: pending) true changes = .ok (pending, none)
  /-- The pending updates and a change of somebody else are mapped over each other. -/
  receiveUpdates_foreign (pending : List LocalUpdate) (own : Bool) (changes changes' : ChangeSet)
    (queue : List ChangeSet) (foreign : own = true → pending = [])
    (rebased : ChangeSet.system.rebaseQueue changes (pending.map LocalUpdate.changes) =
      some (queue, changes')) :
    ∃ pending', receiveUpdates pending own changes = .ok (pending', some changes') ∧
      pending'.map LocalUpdate.changes = queue

/-! ## CodeMirror -/

/-- One part of `ChangeSet.fromJSON`. -/
def sectionFromJSON : Json → Option Section
  | .num length => some ⟨length, -1, ""⟩
  | .arr (.num length :: lines) =>
      (lines.mapM fun line => string (some line)).map fun lines =>
        let insert := joinLines lines
        ⟨length, utf16Len insert, insert⟩
  | _ => none

/-- `ChangeSet.fromJSON` of the editor. -/
def fromJSON : Json → Option ChangeSet
  | .arr parts => (parts.mapM sectionFromJSON).map ChangeSet.mk
  | _ => none

theorem sectionFromJSON_encode {sect : Section} (proper : sect.Proper) :
    sectionFromJSON (if sect.newLen < 0 then .num sect.oldLen
      else .arr (.num sect.oldLen :: (splitLines sect.insert).map .str)) =
        some (bareSection sect) := by
  unfold bareSection
  split
  case isTrue => rfl
  case isFalse changed =>
    rcases proper with ⟨unchanged, _⟩ | ⟨_, length⟩
    · omega
    · have read := mapM_string (splitLines sect.insert)
      simp only [sectionFromJSON, List.mapM_map, read, Option.map_some, joinLines_splitLines]
      rw [← length]

/-- The editor reads the sections that the server has written. -/
theorem fromJSON_encode {set : ChangeSet} (formed : set.WellFormed) :
    fromJSON (encodeChangeSet set) = some (bare set) := by
  obtain ⟨sections⟩ := set
  have read : (sections.map fun sect =>
      if sect.newLen < 0 then Json.num sect.oldLen
      else .arr (.num sect.oldLen :: (splitLines sect.insert).map .str)).mapM sectionFromJSON =
        some (sections.map bareSection) := by
    induction sections with
    | nil => rfl
    | cons sect sections induction =>
        have tail := induction fun other member => formed other (.tail _ member)
        rw [List.map_cons, List.mapM_cons, sectionFromJSON_encode (formed sect (.head _)), tail]
        rfl
  rw [encodeChangeSet, fromJSON, read]
  rfl

/-- The loop of `receiveUpdates` over the pending updates, for one change of somebody else. -/
def rebasePending : ChangeSet → List LocalUpdate → Except CollabError (List LocalUpdate × ChangeSet)
  | changes, [] => .ok ([], changes)
  | changes, update :: pending => do
      let updateChanges ← update.changes.map changes false
      let changes' ← changes.map update.changes true
      let (pending', changes'') ← rebasePending changes' pending
      .ok ({ update with changes := updateChanges } :: pending', changes'')

/-- `receiveUpdates` for one update. -/
def receiveUpdates (pending : List LocalUpdate) (own : Bool) (changes : ChangeSet) :
    Except CollabError (List LocalUpdate × Option ChangeSet) :=
  match own, pending with
  | true, _ :: pending => .ok (pending, none)
  | _, pending => (rebasePending changes pending).map fun rebased => (rebased.1, some rebased.2)

/-- `receiveUpdates` rebases the pending updates as the star protocol does. -/
theorem rebasePending_eq {changes changes' : ChangeSet} {pending : List LocalUpdate}
    {queue : List ChangeSet}
    (rebased : ChangeSet.system.rebaseQueue changes (pending.map LocalUpdate.changes) =
      some (queue, changes')) :
    ∃ pending', rebasePending changes pending = .ok (pending', changes') ∧
      pending'.map LocalUpdate.changes = queue := by
  induction pending generalizing changes queue with
  | nil =>
      cases rebased
      exact ⟨[], rfl, rfl⟩
  | cons update pending induction =>
      simp only [List.map_cons, Rebasing.rebaseQueue, Option.bind_eq_bind,
        Option.bind_eq_some_iff] at rebased
      obtain ⟨ours, below, theirs, above, ⟨queue', last⟩, rest, equality⟩ := rebased
      cases equality
      obtain ⟨pending', run, shape⟩ := induction rest
      refine ⟨{ update with changes := ours } :: pending', ?_, ?_⟩
      · simp only [rebasePending, ok_of_toOption below, ok_of_toOption above, run, bind,
          Except.bind]
      · rw [List.map_cons, shape]

theorem receiveUpdates_foreign {pending : List LocalUpdate} {own : Bool}
    {changes changes' : ChangeSet} {queue : List ChangeSet} (foreign : own = true → pending = [])
    (rebased : ChangeSet.system.rebaseQueue changes (pending.map LocalUpdate.changes) =
      some (queue, changes')) :
    ∃ pending', receiveUpdates pending own changes = .ok (pending', some changes') ∧
      pending'.map LocalUpdate.changes = queue := by
  obtain ⟨pending', run, shape⟩ := rebasePending_eq rebased
  refine ⟨pending', ?_, shape⟩
  unfold receiveUpdates
  split
  case h_1 => cases foreign rfl
  case h_2 =>
    rw [run]
    rfl

/-- CodeMirror satisfies the assumptions. -/
abbrev codeMirror : Editor where
  create := CodeMirror.breakLines
  fromJSON := fromJSON
  apply := ChangeSet.applyUnits
  receiveUpdates := receiveUpdates
  create_eq_self_iff _ := CodeMirror.breakLines_eq_self_iff
  fromJSON_encode _ := fromJSON_encode
  apply_eq _ _ := ChangeSet.Fits.applyUnits_eq
  receiveUpdates_own _ _ _ := rfl
  receiveUpdates_foreign _ _ _ _ _ := receiveUpdates_foreign

end Oxbin.Browser
