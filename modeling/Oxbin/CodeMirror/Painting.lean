import Oxbin.CodeMirror.ChangeSet

/-!
# Painting an alphabet

A colouring sends every letter to one of two characters.  A painted change set is one of the
server, and painting commutes with mapping.  Two words that agree under every colouring are
equal, so what is known of `Map` holds of `mapSet` over every alphabet.
-/

namespace Oxbin.CodeMirror

open Transform

universe u

variable {α : Type u}

/-- The character of a colour. -/
def ink (colour : Bool) : Char := if colour then 'a' else 'b'

/-- A painted word. -/
def paintWord (colour : α → Bool) (word : List α) : String :=
  String.ofList (word.map fun letter => ink (colour letter))

/-- A painted section. -/
def Section.paint (colour : α → Bool) (sect : Section α) : Livecollab.Section :=
  ⟨sect.oldLen, sect.newLen, paintWord colour sect.insert⟩

/-- A painted change set. -/
def ChangeSet.paint (colour : α → Bool) (set : ChangeSet α) : Livecollab.ChangeSet :=
  ⟨set.sections.map (Section.paint colour)⟩

/-- A painted iterator. -/
def SectionIter.paint (colour : α → Bool) (iter : SectionIter α) : Livecollab.SectionIter :=
  ⟨iter.set.paint colour, iter.index, iter.old, iter.new, iter.offset⟩

/-- The painted variables of the main loop; both sets have their own colours. -/
def MapState.paint (colour colour' : α → Bool) (state : MapState α) : Livecollab.MapState :=
  ⟨state.a.paint colour, state.b.paint colour', state.inserted, state.result.paint colour⟩

variable (colour colour' : α → Bool)

@[simp] theorem paintWord_nil : paintWord colour [] = "" := rfl

theorem paintWord_append (left right : List α) :
    paintWord colour (left ++ right) = paintWord colour left ++ paintWord colour right := by
  simp only [paintWord, List.map_append, String.ofList_append]

/-! ## The steps of mapping -/

theorem paint_addSection (set : ChangeSet α) (oldLength newLength : Int) (insert : List α) :
    (addSection set oldLength newLength insert).paint colour =
      Livecollab.addSection (set.paint colour) oldLength newLength (paintWord colour insert)
        false := by
  unfold addSection Livecollab.addSection
  split
  case isTrue => rfl
  case isFalse =>
    have last_eq : (set.paint colour).sections.getLast? =
        set.sections.getLast?.map (Section.paint colour) := List.getLast?_map
    rw [last_eq]
    cases set.sections.getLast? with
    | none => rfl
    | some last =>
        simp only [Option.map_some, Section.paint, Bool.false_eq_true, if_false]
        split
        · simp [ChangeSet.paint, Section.paint, List.map_dropLast]
        · split
          · simp [ChangeSet.paint, Section.paint, List.map_dropLast, paintWord_append]
          · simp [ChangeSet.paint, Section.paint]

theorem SectionIter.paint_next (iter : SectionIter α) :
    iter.next.paint colour = (iter.paint colour).next := by
  have section_eq : (iter.paint colour).set.sections[(iter.paint colour).index]? =
      iter.set.sections[iter.index]?.map (Section.paint colour) := List.getElem?_map
  unfold next Livecollab.SectionIter.next
  rw [section_eq]
  cases iter.set.sections[iter.index]? <;> rfl

theorem SectionIter.paint_ofSet (set : ChangeSet α) :
    (ofSet set).paint colour = .ofSet (set.paint colour) :=
  paint_next colour _

theorem SectionIter.paint_forward (iter : SectionIter α) (length : Int) :
    (iter.forward length).paint colour = (iter.paint colour).forward length := by
  unfold forward Livecollab.SectionIter.forward
  rw [apply_ite (SectionIter.paint colour), paint_next]
  rfl

theorem SectionIter.paint_text (iter : SectionIter α) :
    paintWord colour iter.text = (iter.paint colour).text := by
  have section_eq : (iter.paint colour).set.sections[(iter.paint colour).index - 1]? =
      iter.set.sections[iter.index - 1]?.map (Section.paint colour) := List.getElem?_map
  unfold text Livecollab.SectionIter.text
  rw [section_eq, apply_ite (paintWord colour)]
  cases iter.set.sections[iter.index - 1]? <;> rfl

theorem paint_coverChange (fuel : Nat) (length : Int) (state : MapState α) :
    (coverChange fuel length state).map (MapState.paint colour colour') =
      Livecollab.coverChange fuel length (state.paint colour colour') := by
  induction fuel generalizing length state with
  | zero => rfl
  | succ fuel induction =>
      have aOld : (state.paint colour colour').a.old = state.a.old := rfl
      have aNew : (state.paint colour colour').a.new = state.a.new := rfl
      have aIndex : (state.paint colour colour').a.index = state.a.index := rfl
      have inserted : (state.paint colour colour').inserted = state.inserted := rfl
      simp only [coverChange, Livecollab.coverChange, aOld, aNew, aIndex, inserted]
      split
      case isTrue =>
        rw [induction]
        split
        case isTrue =>
          have newLength : (state.paint colour colour').a.newLength = state.a.newLength := rfl
          rw [newLength]
          simp only [MapState.paint, paint_addSection, SectionIter.paint_text,
            SectionIter.paint_forward]
        case isFalse =>
          simp only [MapState.paint, SectionIter.paint_forward]
      case isFalse => rfl

theorem paint_reachChange (fuel : Nat) (b : SectionIter α) (length left : Int) :
    (reachChange fuel b length left).map (fun found => (found.1.paint colour', found.2)) =
      Livecollab.reachChange fuel (b.paint colour') length left := by
  induction fuel generalizing b length left with
  | zero => rfl
  | succ fuel induction =>
      have new_eq : (b.paint colour').new = b.new := rfl
      have old_eq : (b.paint colour').old = b.old := rfl
      rw [reachChange, Livecollab.reachChange, new_eq, old_eq]
      by_cases positive : 0 < left
      · rw [if_pos positive, if_pos positive]
        by_cases kept : b.new = -1
        · rw [if_pos kept, if_pos kept, induction, SectionIter.paint_forward]
        · rw [if_neg kept, if_neg kept]
          by_cases short : b.new = 0 ∧ b.old < left
          · rw [if_pos short, if_pos short, induction, SectionIter.paint_next]
          · rw [if_neg short, if_neg short]
            rfl
      · rw [if_neg positive, if_neg positive]
        rfl

theorem paint_mapLoop (before : Bool) (fuel : Nat) (state : MapState α) :
    (mapLoop before fuel state).map (ChangeSet.paint colour) =
      (Livecollab.mapLoop before fuel (state.paint colour colour')).toOption := by
  induction fuel generalizing state with
  | zero => rfl
  | succ fuel induction =>
      have aDone : (state.paint colour colour').a.done ↔ state.a.done := Iff.rfl
      have bDone : (state.paint colour colour').b.done ↔ state.b.done := Iff.rfl
      have aOld : (state.paint colour colour').a.old = state.a.old := rfl
      have bOld : (state.paint colour colour').b.old = state.b.old := rfl
      have aNew : (state.paint colour colour').a.new = state.a.new := rfl
      have bNew : (state.paint colour colour').b.new = state.b.new := rfl
      have aIndex : (state.paint colour colour').a.index = state.a.index := rfl
      have aOffset : (state.paint colour colour').a.offset = state.a.offset := rfl
      have inserted : (state.paint colour colour').inserted = state.inserted := rfl
      simp only [mapLoop, Livecollab.mapLoop, aDone, bDone, aOld, bOld, aNew, bNew, aIndex, aOffset,
        inserted]
      split
      case isTrue => rfl
      split
      case isTrue =>
        rw [induction]
        simp only [MapState.paint, SectionIter.paint_forward, paint_addSection, paintWord_nil]
      split
      case isTrue =>
        have covered := paint_coverChange colour colour' fuel state.b.old
          { state with result := addSection state.result state.b.newLength (-1) [] }
        simp only [MapState.paint, paint_addSection, paintWord_nil] at covered
        have newLength : (state.paint colour colour').b.newLength = state.b.newLength := rfl
        rw [newLength]
        simp only [MapState.paint]
        rw [← covered]
        cases coverChange fuel state.b.old
            { state with result := addSection state.result state.b.newLength (-1) [] } with
        | none => rfl
        | some state' =>
            simp only [Option.map_some]
            rw [induction]
            simp only [MapState.paint, SectionIter.paint_next]
      split
      case isTrue =>
        have reached := paint_reachChange colour' fuel state.b 0 state.a.old
        have newLength : (state.paint colour colour').a.newLength = state.a.newLength := rfl
        rw [newLength]
        simp only [MapState.paint]
        rw [← reached]
        cases reachChange fuel state.b 0 state.a.old with
        | none => rfl
        | some found =>
            obtain ⟨b, length, left⟩ := found
            simp only [Option.map_some]
            rw [induction]
            simp only [MapState.paint, SectionIter.paint_forward,
              apply_ite (ChangeSet.paint colour),
              paint_addSection, paintWord_nil, SectionIter.paint_text]
      split
      case isTrue => rfl
      case isFalse => rfl

/-- Painting commutes with mapping, whatever the colours of the other set. -/
theorem ChangeSet.paint_mapSet (set other : ChangeSet α) (before : Bool)
    (lengths : set.length = other.length) :
    (set.mapSet other before).map (paint colour) =
      ((set.paint colour).map (other.paint colour') before).toOption := by
  have oldLen_eq (colour : α → Bool) (set : ChangeSet α) :
      (set.paint colour).oldLen = set.length := by
    simp only [Livecollab.ChangeSet.oldLen, length, paint, List.map_map]
    rfl
  have fuel : Livecollab.mapFuel (set.paint colour) (other.paint colour') =
      2 * (set.sections.length + other.sections.length) + 3 := by
    simp only [Livecollab.mapFuel, paint, List.length_map]
  rw [mapSet, paint_mapLoop colour colour', Livecollab.ChangeSet.map, if_neg, fuel, MapState.paint,
    SectionIter.paint_ofSet, SectionIter.paint_ofSet]
  · rfl
  · rw [oldLen_eq, oldLen_eq, lengths]
    simp

end Oxbin.CodeMirror
