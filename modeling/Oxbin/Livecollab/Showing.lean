import Oxbin.Livecollab.Machine

/-!
# What the browsers show

The server applies an edit in 64-bit arithmetic to the code units of a string, and decodes the
result.  The browsers apply it to the code units that they have, and refuse an edit that does not
cover their text exactly.
-/

namespace Oxbin.Livecollab

open Transform

/-- `applyLiveChanges`, on the code units of the content. -/
def applyLiveChanges (content : List UInt16) (changes : ChangeSet) :
    Except CollabError (List UInt16) := changes.applyUnits content

/-- The content of the server after edits. -/
def serverContent (content : String) (edits : List ChangeSet) : Except CollabError String :=
  edits.foldlM (fun content edit => edit.apply64 content) content

/-- The content of the browsers after edits. -/
def browserContent (content : List UInt16) (edits : List ChangeSet) :
    Except CollabError (List UInt16) := edits.foldlM applyLiveChanges content

/-- The browsers show what the server has after edits. -/
def ShowsServer (content : String) (units : List UInt16) (edits : List ChangeSet) : Prop :=
  (browserContent units edits).map (fun units => String.ofList (decode units)) =
    serverContent content edits

/-- Every edit of a sequence has the length of the text before it, without wrapping around, and
joins no surrogate that was alone in that text. -/
def KeepsApart (units : List UInt16) : List ChangeSet → Prop
  | [] => True
  | edit :: edits =>
      edit.oldLen = units.length ∧ ¬edit.Rejoins units ∧ KeepsApart (edit.run units) edits

/-! ## One edit -/

namespace ChangeSet

variable {set : ChangeSet} {input : List UInt16}

/-- What the server has applied, it would have applied without wrapping around as well, if the set
has the length of the document. -/
theorem WellFormed.applyUnits64_eq (formed : set.WellFormed) {output : List UInt16}
    (covers : set.oldLen = input.length) (applied : set.applyUnits64 input = .ok output) :
    output = set.run input := by
  have length : set.oldLen64 = set.oldLen := by
    unfold applyUnits64 at applied
    split at applied
    case isTrue => cases applied
    case isFalse same => exact (not_not.mp same).trans covers.symm
  have small : set.oldLen < intLimit := by
    rw [← length, oldLen64_eq]
    exact (wrap_range _).2
  have walk := @Nonneg.applySections64_eq input set.sections formed.nonneg 0 0 [] le_rfl
    (by rwa [Int.zero_add])
  have whole := formed.applyUnits_eq covers
  unfold applyUnits64 at applied
  unfold applyUnits at whole
  rw [if_neg (by rw [length, covers]; simp), walk] at applied
  rw [if_neg (by rw [covers]; simp)] at whole
  split at applied
  case isTrue => cases applied
  case isFalse =>
    split at whole
    case isTrue => cases whole
    case isFalse => exact Except.ok.inj (applied.symm.trans whole)

end ChangeSet

/-! ## Sequences of edits -/

/-- After texts that show the same, the browsers show what the server has as long as every edit
covers their text and rejoins no pair. -/
theorem showsServer_iff {units : List UInt16} {edits : List ChangeSet} {final : String}
    (formed : ∀ edit ∈ edits, edit.WellFormed)
    (accepted : serverContent (String.ofList (decode units)) edits = .ok final) :
    (∀ before, before <+: edits → ShowsServer (String.ofList (decode units)) units before) ↔
      KeepsApart units edits := by
  induction edits generalizing units with
  | nil =>
      refine iff_of_true (fun before isPrefix => ?_) trivial
      rw [List.prefix_nil.mp isPrefix]
      rfl
  | cons edit edits induction =>
      have editFormed := formed edit (by simp)
      rw [serverContent, List.foldlM_cons] at accepted
      have kept : utf16Units (String.ofList (decode units)) = mend units := by
        rw [utf16Units, String.toList_ofList]
        rfl
      obtain ⟨output, applied⟩ : ∃ output, edit.applyUnits64 (mend units) = .ok output := by
        rw [← kept]
        cases applied : edit.applyUnits64 (utf16Units (String.ofList (decode units))) with
        | error error =>
            rw [ChangeSet.apply64, applied] at accepted
            cases accepted
        | ok output => exact ⟨output, rfl⟩
      have served : edit.apply64 (String.ofList (decode units)) =
          .ok (String.ofList (decode output)) := by
        rw [ChangeSet.apply64, kept, applied]
      by_cases starts : edit.oldLen = units.length
      case neg =>
        refine iff_of_false (fun shows => ?_) fun apart => starts apart.1
        have first := shows [edit] ⟨edits, rfl⟩
        unfold ShowsServer browserContent serverContent at first
        rw [List.foldlM_cons, List.foldlM_cons, served, applyLiveChanges, ChangeSet.applyUnits,
          if_pos starts] at first
        cases first
      have written := editFormed.applyUnits64_eq (by rw [starts, length_mend]) applied
      subst written
      have shown : applyLiveChanges units edit = .ok (edit.run units) :=
        editFormed.applyUnits_eq starts
      have step : decode (edit.run (mend units)) = decode (edit.run units) ↔ ¬edit.Rejoins units :=
        mend_eq_iff.symm.trans (edit.mend_run units)
      have later (before : List ChangeSet)
          (same : decode (edit.run (mend units)) = decode (edit.run units)) :
          ShowsServer (String.ofList (decode units)) units (edit :: before) ↔
            ShowsServer (String.ofList (decode (edit.run units))) (edit.run units) before := by
        unfold ShowsServer browserContent serverContent
        rw [List.foldlM_cons, List.foldlM_cons, served, shown, same]
        rfl
      rw [served] at accepted
      constructor
      · intro shows
        have first := shows [edit] ⟨edits, rfl⟩
        unfold ShowsServer browserContent serverContent at first
        rw [List.foldlM_cons, List.foldlM_cons, served, shown] at first
        have same : decode (edit.run (mend units)) = decode (edit.run units) := by
          have strings := Except.ok.inj first
          exact (String.ofList_inj.mp strings).symm
        rw [same] at accepted
        have rest := induction (fun other member => formed other (by simp [member])) accepted
        refine ⟨starts, step.mp same, rest.mp fun before isPrefix => ?_⟩
        exact (later before same).mp (shows (edit :: before) (List.cons_prefix_cons.mpr
          ⟨rfl, isPrefix⟩))
      · rintro ⟨_, apart, rest⟩ before isPrefix
        have same := step.mpr apart
        cases before with
        | nil => rfl
        | cons first before =>
            obtain ⟨rfl, tail⟩ := List.cons_prefix_cons.mp isPrefix
            rw [same] at accepted
            have shows := induction (fun other member => formed other (by simp [member])) accepted
            exact (later before same).mpr (shows.mpr rest before tail)

/-- For every document and all edits that the server accepts on it, the browsers show at every
revision what the server has, if and only if no length wraps around and no edit rejoins a surrogate
pair. -/
theorem browsers_show_server {document final : String} {edits : List ChangeSet}
    (formed : ∀ edit ∈ edits, edit.WellFormed)
    (accepted : serverContent document edits = .ok final) :
    (∀ before, before <+: edits → ShowsServer document (utf16Units document) before) ↔
      KeepsApart (utf16Units document) edits := by
  have whole : String.ofList (decode (utf16Units document)) = document := by
    rw [utf16Units, decode_encode, String.ofList_toList]
  rw [← whole] at accepted
  have shows := showsServer_iff formed accepted
  rwa [whole] at shows

/-- Write a letter between the halves of a surrogate pair. -/
def partPair : ChangeSet := ⟨[⟨1, -1, ""⟩, ⟨0, 1, "x"⟩, ⟨1, -1, ""⟩]⟩

/-- Delete the letter again. -/
def joinPair : ChangeSet := ⟨[⟨1, -1, ""⟩, ⟨1, 0, ""⟩, ⟨1, -1, ""⟩]⟩

theorem browsers_show_server_parted : ShowsServer "😀" (utf16Units "😀") [partPair] :=
  (@browsers_show_server "😀" "\uFFFDx\uFFFD" [partPair] (by decide) (by decide +kernel)).mpr
    ⟨by decide +kernel, by decide +kernel, trivial⟩ [partPair] (List.prefix_refl _)

/-- The server has lost the character that the browsers have put together again. -/
theorem browsers_show_server_joined :
    parseChangeSetJSON (.arr [.num 1, .arr [.num 0, .str "x"], .num 1]) = .ok partPair ∧
      parseChangeSetJSON (.arr [.num 1, .arr [.num 1], .num 1]) = .ok joinPair ∧
      serverContent "😀" [partPair, joinPair] = .ok "\uFFFD\uFFFD" ∧
      (browserContent (utf16Units "😀") [partPair, joinPair]).map
        (fun units => String.ofList (decode units)) = .ok "😀" := by
  refine ⟨?_, ?_, ?_, ?_⟩
  all_goals decide +kernel

/-- Write two letters in place of stretches whose lengths add up to two less than two to the
sixty-four. -/
def wrapAround : ChangeSet :=
  ⟨[⟨1, -1, ""⟩, ⟨9223372036854775807, 1, "x"⟩, ⟨9223372036854775807, 1, "y"⟩, ⟨2, 0, ""⟩]⟩

/-- The server accepts an edit that the browsers refuse. -/
theorem browsers_show_server_wrapped :
    parseChangeSetJSON (.arr [.num 1, .arr [.num 9223372036854775807, .str "x"],
        .arr [.num 9223372036854775807, .str "y"], .arr [.num 2]]) = .ok wrapAround ∧
      wrapAround.validateForDocument64 "a" = .ok () ∧
      serverContent "a" [wrapAround] = .ok "axy" ∧
      (browserContent (utf16Units "a") [wrapAround]).toOption = none := by
  refine ⟨?_, ?_, ?_, ?_⟩
  all_goals decide +kernel

end Oxbin.Livecollab
