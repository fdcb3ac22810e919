import Oxbin.CodeMirror.Painting
import Oxbin.Transform.Labels
import Oxbin.Transform.Rebase

/-!
# Mapping change sets of the editor

`ChangeSet.map` returns a change set for the text that the other set leaves, and it writes the
weave of both.  So the editor's change sets are a rebasing system over every alphabet, mapping
does not depend on what the letters are, and mapping over an empty set changes nothing.
-/

namespace Oxbin.CodeMirror

open Transform

variable {α β : Type}

/-! ## Painted texts -/

/-- The code unit of a painted letter. -/
def shade (colour : α → Bool) (letter : α) : UInt16 := if colour letter then 97 else 98

theorem utf16Units_paintWord (colour : α → Bool) (word : List α) :
    Livecollab.utf16Units (paintWord colour word) = word.map (shade colour) := by
  rw [Livecollab.utf16Units, paintWord, String.toList_ofList]
  induction word with
  | nil => rfl
  | cons letter word induction =>
      rw [List.map_cons, List.map_cons, Livecollab.encode_cons, induction, shade]
      cases colour letter <;> rfl

/-- Words that agree under every colouring are equal. -/
theorem eq_of_shade {left right : List α}
    (agree : ∀ colour : α → Bool, left.map (shade colour) = right.map (shade colour)) :
    left = right := by
  classical
  refine List.ext_getElem? fun index => ?_
  have letters (colour : α → Bool) :
      left[index]?.map (shade colour) = right[index]?.map (shade colour) := by
    rw [← List.getElem?_map, ← List.getElem?_map, agree]
  cases found : left[index]? with
  | none =>
      have none_eq := letters fun _ => true
      rw [found, Option.map_none] at none_eq
      exact (Option.map_eq_none_iff.mp none_eq.symm).symm
  | some letter =>
      have some_eq := letters fun other => decide (other = letter)
      rw [found, Option.map_some] at some_eq
      obtain ⟨other, found', same⟩ := Option.map_eq_some_iff.mp some_eq.symm
      have painted : other = letter := by
        by_contra different
        simp [shade, different] at same
      rw [found', painted]

theorem map_change (name : α → β) (rank : Int) (word : List α) (count : Nat) :
    (change rank word count).map (Atom.map name) = change rank (word.map name) count := by
  by_cases empty : word = []
  · simp [empty, Atom.map]
  · simp [change, empty, Atom.map]

namespace ChangeSet

variable {set other : ChangeSet α} {text : List α}

theorem atomsOf_paint (colour : α → Bool) (set : ChangeSet α) :
    Livecollab.atomsOf (set.paint colour).sections =
      set.atoms.map (Atom.map (shade colour)) := by
  have section_eq (sect : Section α) :
      (sect.paint colour).atoms = sect.atoms.map (Atom.map (shade colour)) := by
    rw [Livecollab.Section.atoms, Section.atoms, apply_ite (List.map _), map_change,
      List.map_replicate]
    rw [show (sect.paint colour).insert = paintWord colour sect.insert from rfl,
      utf16Units_paintWord]
    rfl
  rw [Livecollab.atomsOf, atoms, paint, List.flatMap_map, List.map_flatMap]
  exact congrArg (set.sections.flatMap ·) (funext section_eq)

theorem atoms_rename (name : α → β) (set : ChangeSet α) :
    (set.rename name).atoms = set.atoms.map (Atom.map name) := by
  rw [atoms, atoms, rename, List.flatMap_map, List.map_flatMap]
  refine congrArg (set.sections.flatMap ·) (funext fun sect => ?_)
  rw [Section.atoms, Section.atoms, apply_ite (List.map _), map_change, List.map_replicate]
  rfl

/-- Renaming the letters of the set and of the text renames the result. -/
theorem run_rename (name : α → β) (set : ChangeSet α) (text : List α) :
    (set.rename name).run (text.map name) = (set.run text).map name := by
  rw [run, atoms_rename, walk_map]
  rfl

theorem run_paint (colour : α → Bool) (set : ChangeSet α) (text : List α) :
    (set.paint colour).run (text.map (shade colour)) = (set.run text).map (shade colour) := by
  rw [Livecollab.ChangeSet.run, atomsOf_paint, walk_map]
  rfl

theorem wellFormed_paint (colour : α → Bool) : (set.paint colour).WellFormed ↔ set.WellFormed := by
  have length_eq (sect : Section α) :
      Livecollab.utf16Len (sect.paint colour).insert = sect.insert.length := by
    rw [Livecollab.utf16Len,
      show (sect.paint colour).insert = paintWord colour sect.insert from rfl,
      utf16Units_paintWord, List.length_map]
  have proper_iff (sect : Section α) : (sect.paint colour).Proper ↔ sect.Proper := by
    rw [Livecollab.Section.Proper, length_eq]
    rfl
  simp only [Livecollab.ChangeSet.WellFormed, WellFormed, paint, List.forall_mem_map, proper_iff]

theorem oldLen_paint (colour : α → Bool) (set : ChangeSet α) :
    (set.paint colour).oldLen = set.length := by
  simp only [Livecollab.ChangeSet.oldLen, length, paint, List.map_map]
  rfl

theorem newLen_paint (colour : α → Bool) (set : ChangeSet α) :
    (set.paint colour).newLen = set.newLength := by
  simp only [Livecollab.ChangeSet.newLen, newLength, paint, List.map_map]
  rfl

theorem fits_paint (colour : α → Bool) :
    (set.paint colour).Fits (fun _ => True) (text.map (shade colour)) ↔ set.Fits text := by
  constructor
  · intro fits
    refine ⟨(wellFormed_paint colour).mp fits.formed, ?_⟩
    rw [← oldLen_paint colour, fits.oldLen_eq, List.length_map]
  · intro fits
    have formed := (wellFormed_paint colour).mpr fits.formed
    refine ⟨formed, .of_length ?_⟩
    have total := formed.sum_lengths
    rw [oldLen_paint, fits.length_eq] at total
    rw [List.length_map]
    omega

/-- Sets that agree under every colouring are equal. -/
theorem eq_of_paint {left right : ChangeSet α}
    (agree : ∀ colour, left.paint colour = right.paint colour) : left = right := by
  have sections_eq (colour : α → Bool) :
      left.sections.map (Section.paint colour) = right.sections.map (Section.paint colour) :=
    congrArg Livecollab.ChangeSet.sections (agree colour)
  refine ChangeSet.ext (List.ext_getElem? fun index => ?_)
  have section_eq (colour : α → Bool) :
      left.sections[index]?.map (Section.paint colour) =
        right.sections[index]?.map (Section.paint colour) := by
    rw [← List.getElem?_map, ← List.getElem?_map, sections_eq]
  cases found : left.sections[index]? with
  | none =>
      have none_eq := section_eq fun _ => true
      rw [found, Option.map_none] at none_eq
      exact (Option.map_eq_none_iff.mp none_eq.symm).symm
  | some sect =>
      have paint_eq (colour : α → Bool) : ∃ other, right.sections[index]? = some other ∧
          other.paint colour = sect.paint colour := by
        have some_eq := section_eq colour
        rw [found, Option.map_some] at some_eq
        exact Option.map_eq_some_iff.mp some_eq.symm
      obtain ⟨other, found', same⟩ := paint_eq fun _ => true
      have insert_eq : other.insert = sect.insert := by
        refine eq_of_shade fun colour => ?_
        obtain ⟨other', found'', painted⟩ := paint_eq colour
        rw [found', Option.some.injEq] at found''
        subst found''
        have words := congrArg (fun sect => Livecollab.utf16Units sect.insert) painted
        exact (utf16Units_paintWord colour _).symm.trans
          (words.trans (utf16Units_paintWord colour _))
      obtain ⟨oldLen, newLen, insert⟩ := other
      obtain ⟨oldLen', newLen', insert'⟩ := sect
      cases insert_eq
      cases congrArg Livecollab.Section.oldLen same
      cases congrArg Livecollab.Section.newLen same
      exact found'.symm

/-! ## One change set -/

/-- The number of letters that a fitting set reads. -/
theorem Fits.width_eq (fits : set.Fits text) : width set.atoms = text.length := by
  have painted := ((fits_paint fun _ => true).mpr fits).cuts.length_eq
  rw [List.length_map, ← Livecollab.width_atomsOf, atomsOf_paint] at painted
  rw [painted]
  induction set.atoms with
  | nil => rfl
  | cons atom atoms induction => cases atom <;> simp [width, Atom.map, induction]

theorem Fits.apply_eq (fits : set.Fits text) : set.apply text = some (set.run text) :=
  if_pos fits.length_eq

/-- The length of the text after a set. -/
theorem Fits.length_run (fits : set.Fits text) : ((set.run text).length : Int) = set.newLength := by
  have painted := (fits_paint fun _ => true).mpr fits
  have length := painted.formed.length_run painted.oldLen_eq
  rwa [run_paint, List.length_map, newLen_paint] at length

theorem fits_rename (name : α → β) : (set.rename name).Fits (text.map name) ↔ set.Fits text := by
  have formed : (set.rename name).WellFormed ↔ set.WellFormed := by
    simp only [WellFormed, rename, List.forall_mem_map, Section.Proper, List.length_map]
  have length_eq : (set.rename name).length = set.length := by
    simp only [length, rename, List.map_map]
    rfl
  constructor
  · intro fits
    exact ⟨formed.mp fits.formed, by rw [← length_eq, fits.length_eq, List.length_map]⟩
  · intro fits
    exact ⟨formed.mpr fits.formed, by rw [length_eq, fits.length_eq, List.length_map]⟩

/-- `addSection` extends the edit by the section that it is given. -/
theorem addSection_spec (fits : set.Fits text) (piece insert : List α) {newLength : Int}
    (lengths : newLength = -1 ∨ newLength = insert.length) :
    (addSection set piece.length newLength insert).Fits (text ++ piece) ∧
      (addSection set piece.length newLength insert).run (text ++ piece) =
        set.run text ++ if 0 ≤ newLength then insert else piece := by
  have painted (colour : α → Bool) :
      ((addSection set piece.length newLength insert).paint colour).Fits (fun _ => True)
          ((text ++ piece).map (shade colour)) ∧
        ((addSection set piece.length newLength insert).run (text ++ piece)).map (shade colour) =
          (set.run text ++ if 0 ≤ newLength then insert else piece).map (shade colour) := by
    have fitsColour := (fits_paint colour).mpr fits
    have builds : Livecollab.Builds (fun _ => True) (set.paint colour).sections
        (text.map (shade colour)) ((set.run text).map (shade colour)) :=
      ⟨fitsColour.formed, fitsColour.cuts, run_paint colour set text⟩
    have insert_length : Livecollab.utf16Len (paintWord colour insert) = insert.length := by
      rw [Livecollab.utf16Len, utf16Units_paintWord, List.length_map]
    have extended : Livecollab.Builds (fun _ => True)
        (Livecollab.addSection (set.paint colour) piece.length newLength (paintWord colour insert)
          false).sections (text.map (shade colour) ++ piece.map (shade colour))
        ((set.run text).map (shade colour) ++ Livecollab.emitted newLength
          (paintWord colour insert) (piece.map (shade colour))) :=
      builds.addSection .trivial ⟨⟩ (by rw [List.length_map]) (by rw [insert_length]; exact lengths)
    rw [← paint_addSection, ← List.map_append] at extended
    refine ⟨⟨extended.proper, extended.cuts⟩,
      (run_paint colour _ _).symm.trans (extended.writes.trans ?_)⟩
    rw [List.map_append, apply_ite (List.map (shade colour)), Livecollab.emitted,
      utf16Units_paintWord]
  exact ⟨(fits_paint fun _ => true).mp (painted fun _ => true).1,
    eq_of_shade fun colour => (painted colour).2⟩

/-! ## Empty change sets -/

theorem fits_nil : (⟨[]⟩ : ChangeSet α).Fits [] :=
  ⟨fun _ member => absurd member List.not_mem_nil, rfl⟩


theorem fits_empty (text : List α) : (empty text.length).Fits text := by
  unfold empty
  split
  case isTrue zero =>
    refine ⟨fun sect member => absurd member List.not_mem_nil, ?_⟩
    rw [zero]
    rfl
  case isFalse nonzero =>
    refine ⟨fun sect member => ?_, by simp [length]⟩
    cases List.mem_singleton.mp member
    have positive : (0 : Int) < text.length := by omega
    exact .inl ⟨rfl, positive⟩

theorem isEmpty_empty (length : Nat) : (empty length : ChangeSet α).isEmpty = true := by
  unfold empty
  split <;> rfl

/-- An empty set that fits keeps every letter. -/
theorem atoms_of_isEmpty (fits : set.Fits text) (isEmpty : set.isEmpty = true) :
    set.atoms = List.replicate text.length .keep := by
  obtain ⟨sections⟩ := set
  have length_eq := fits.length_eq
  match sections, isEmpty with
  | [], _ =>
      have zero : text.length = 0 := by simpa [length] using length_eq.symm
      rw [zero]
      rfl
  | [sect], negative =>
      have unchanged : sect.changed = false :=
        decide_eq_false (not_le.mpr (of_decide_eq_true negative))
      have oldLen_eq : sect.oldLen.toNat = text.length := by
        simp only [length, List.map_cons, List.map_nil, List.sum_cons, List.sum_nil,
          add_zero] at length_eq
        omega
      simp only [atoms, List.flatMap_cons, List.flatMap_nil, List.append_nil, Section.atoms,
        unchanged, Bool.false_eq_true, if_false, oldLen_eq]

theorem run_of_isEmpty (fits : set.Fits text) (isEmpty : set.isEmpty = true) :
    set.run text = text := by
  have kept := walk_keeps text [] []
  rw [List.append_nil, List.append_nil, walk_nil, List.append_nil] at kept
  rw [run, atoms_of_isEmpty fits isEmpty, kept]

/-! ## Mapping -/

/-- `mapSet` succeeds for sets of one text, as `Map` does for painted ones. -/
theorem mapSet_paint (fits : set.Fits text) (fits' : other.Fits text) (before : Bool) :
    ∃ result, set.mapSet other before = some result ∧ ∀ colour colour',
      (set.paint colour).map (other.paint colour') before = .ok (result.paint colour) := by
  have lengths : set.length = other.length := by rw [fits.length_eq, fits'.length_eq]
  have painted (colour colour' : α → Bool) :
      ∃ result, (set.paint colour).map (other.paint colour') before = .ok result := by
    have textColours := (fits_paint colour).mpr fits
    have formed' := (wellFormed_paint colour').mpr fits'.formed
    have fitsColours : (other.paint colour').Fits (fun _ => True) (text.map (shade colour)) := by
      refine ⟨formed', .of_length ?_⟩
      have total := formed'.sum_lengths
      rw [oldLen_paint, fits'.length_eq] at total
      rw [List.length_map]
      omega
    obtain ⟨result, mapped, _⟩ :=
      Livecollab.ChangeSet.map_spec .trivial (fun _ => ⟨⟩) textColours fitsColours before
    exact ⟨result, mapped⟩
  have commutes (colour colour' : α → Bool) := paint_mapSet colour colour' set other before lengths
  cases mapped : set.mapSet other before with
  | none =>
      obtain ⟨result, found⟩ := painted (fun _ => true) fun _ => true
      have commuted := commutes (fun _ => true) fun _ => true
      rw [mapped, found] at commuted
      cases commuted
  | some result =>
      refine ⟨result, rfl, fun colour colour' => ?_⟩
      obtain ⟨result', found⟩ := painted colour colour'
      have commuted := commutes colour colour'
      rw [mapped, found] at commuted
      rw [found, ← Option.some.inj commuted]

/-- `ChangeSet.map` returns a change set for the text that the other set leaves; it writes the
weave of both sets. -/
theorem map_spec (fits : set.Fits text) (fits' : other.Fits text) (before : Bool) :
    ∃ result, set.map other before = some result ∧ result.Fits (other.run text) ∧
      result.run (other.run text) = weave before set.atoms other.atoms text := by
  by_cases isEmpty : other.isEmpty = true
  · refine ⟨set, if_pos isEmpty, ?_, ?_⟩
    · rw [run_of_isEmpty fits' isEmpty]
      exact fits
    · rw [run_of_isEmpty fits' isEmpty, atoms_of_isEmpty fits' isEmpty,
        weave_keep_all _ _ _ fits.width_eq]
      rfl
  · obtain ⟨result, mapped, painted⟩ := mapSet_paint fits fits' before
    have spec (colour : α → Bool) := Livecollab.ChangeSet.map_spec .trivial (fun _ => ⟨⟩)
      ((fits_paint colour).mpr fits) ((fits_paint colour).mpr fits') before
    have result_spec (colour : α → Bool) :
        (result.paint colour).Fits (fun _ => True) ((other.run text).map (shade colour)) ∧
          (result.run (other.run text)).map (shade colour) =
            (weave before set.atoms other.atoms text).map (shade colour) := by
      obtain ⟨result', mapped', fitsResult, writes⟩ := spec colour
      rw [painted colour colour] at mapped'
      cases mapped'
      rw [run_paint] at fitsResult writes
      rw [run_paint, atomsOf_paint, atomsOf_paint, weave_map] at writes
      exact ⟨fitsResult, writes⟩
    refine ⟨result, (if_neg isEmpty).trans mapped, ?_, ?_⟩
    · exact (fits_paint fun _ => true).mp (result_spec fun _ => true).1
    · exact eq_of_shade fun colour => (result_spec colour).2

/-- Mapping does not depend on what the letters are, and not at all on those of the other set. -/
theorem map_rename (name name' : α → β) (fits : set.Fits text) (fits' : other.Fits text)
    (before : Bool) :
    (set.rename name).map (other.rename name') before =
      (set.map other before).map (rename name) := by
  have isEmpty_eq : (other.rename name').isEmpty = other.isEmpty := by
    obtain ⟨sections⟩ := other
    match sections with
    | [] | [_] | _ :: _ :: _ => rfl
  rw [map, map, isEmpty_eq]
  split
  case isTrue => rfl
  case isFalse =>
    have paint_rename (name : α → β) (colour : β → Bool) (set : ChangeSet α) :
        (set.rename name).paint colour = set.paint (fun letter => colour (name letter)) := by
      simp only [paint, rename, List.map_map, Livecollab.ChangeSet.mk.injEq]
      refine List.map_congr_left fun sect _ => ?_
      simp only [Function.comp_apply, Section.paint, paintWord, List.map_map]
      rfl
    have fitsName : (other.rename name').Fits (text.map name) := by
      refine ⟨((fits_rename name').mpr fits').formed, ?_⟩
      rw [((fits_rename name').mpr fits').length_eq, List.length_map, List.length_map]
    obtain ⟨result, mapped, painted⟩ := mapSet_paint fits fits' before
    obtain ⟨renamed, mapped', painted'⟩ :=
      mapSet_paint ((fits_rename name).mpr fits) fitsName before
    rw [mapped, mapped', Option.map_some, Option.some.injEq]
    refine eq_of_paint fun colour => ?_
    have left := painted' colour fun _ => true
    have right := painted (fun letter => colour (name letter)) fun _ => true
    rw [paint_rename, paint_rename] at left
    rw [right] at left
    rw [paint_rename]
    exact (Except.ok.inj left).symm

/-- Change sets of the editor, rebased by `ChangeSet.map`. -/
def system (α : Type) : Rebasing (List α) (ChangeSet α) where
  Valid set text := set.Fits text
  act set text := set.run text
  below ours theirs := ours.map theirs false
  above theirs ours := theirs.map ours true
  square := by
    intro ours theirs text fits fits'
    obtain ⟨ours', mapped, valid, woven⟩ := map_spec fits fits' false
    obtain ⟨theirs', mapped', valid', woven'⟩ := map_spec fits' fits true
    refine ⟨ours', theirs', mapped, mapped', valid, valid', ?_⟩
    rw [woven, woven', weave_symm]
    rfl

end ChangeSet

end Oxbin.CodeMirror
