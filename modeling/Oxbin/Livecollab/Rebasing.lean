import Oxbin.Livecollab.Convergence
import Oxbin.Transform.Rebase

/-!
# Change sets as edits of code units

Change sets that do not split surrogate pairs are a rebasing system on the code units of whole
strings, with the two directions of `Map`.
-/

namespace Oxbin.Livecollab

open Transform

namespace ChangeSet

/-- The document after a fitting set is a whole string again. -/
theorem Fits.whole_run {set : ChangeSet} {units : List UInt16} (fits : set.Fits WholeRunes units) :
    WholeRunes (set.run units) := by
  obtain ⟨result, _, fits', _⟩ := map_spec cuttable_wholeRunes wholeRunes_utf16Units fits fits false
  exact fits'.cuts.admissible cuttable_wholeRunes

theorem Fits.applyUnits_eq {set : ChangeSet} {units : List UInt16}
    (fits : set.Fits WholeRunes units) : set.applyUnits units = .ok (set.run units) :=
  fits.formed.applyUnits_eq fits.oldLen_eq

/-- `Apply` loses nothing to its decoding step. -/
theorem Fits.utf16Units_of_apply {set : ChangeSet} {document result : String}
    (fits : set.Fits WholeRunes (utf16Units document)) (applied : set.apply document = .ok result) :
    utf16Units result = set.run (utf16Units document) := by
  rw [apply, fits.applyUnits_eq] at applied
  cases applied
  rw [utf16Units, String.toList_ofList, fits.whole_run.encode_decode]

/-- Change sets of whole strings, rebased by `Map`. -/
def system : Rebasing (List UInt16) ChangeSet where
  Valid set units := set.Fits WholeRunes units
  act set units := set.run units
  below ours theirs := (ours.map theirs false).toOption
  above theirs ours := (theirs.map ours true).toOption
  square := by
    intro ours theirs units fits fits'
    obtain ⟨ours', mapped, valid, woven⟩ :=
      map_spec cuttable_wholeRunes wholeRunes_utf16Units fits fits' false
    obtain ⟨theirs', mapped', valid', woven'⟩ :=
      map_spec cuttable_wholeRunes wholeRunes_utf16Units fits' fits true
    refine ⟨ours', theirs', ?_, ?_, valid, valid', ?_⟩
    · rw [mapped]
      rfl
    · rw [mapped']
      rfl
    · rw [woven, woven', weave_symm]
      rfl

end ChangeSet

end Oxbin.Livecollab
