import Oxbin.Livecollab.ChangeSet

/-!
# Positions and selections

How `internal/livecollab/changes.go` carries positions and selections over a change set.
-/

namespace Oxbin.Livecollab

/-- The loop of `MapPos`. -/
def mapPosSections (position assoc : Int) : Int → Int → List Section → Int
  | _, positionB, [] => positionB
  | positionA, positionB, sect :: sections =>
      let endA := positionA + sect.oldLen
      if sect.changed = false then
        if endA > position then positionB + position - positionA
        else mapPosSections position assoc endA (positionB + sect.oldLen) sections
      else if endA > position ∨ endA = position ∧ assoc < 0 ∧ sect.oldLen = 0 then
        if position = positionA ∨ assoc < 0 then positionB else positionB + sect.newLen
      else mapPosSections position assoc endA (positionB + sect.newLen) sections

/-- `ChangeSet.MapPos`; a position outside the document has no image. -/
def ChangeSet.mapPos (set : ChangeSet) (position assoc : Int) : Option Int :=
  if position < 0 ∨ position > set.oldLen then none
  else some (mapPosSections position assoc 0 0 set.sections)

/-- `SelectionRange`. -/
structure SelectionRange where
  anchor : Int
  head : Int
  deriving DecidableEq, Repr

/-- `SelectionRange.Map`. -/
def SelectionRange.map (selection : SelectionRange) (changes : ChangeSet) :
    Option SelectionRange :=
  if selection.anchor = selection.head then do
    let position ← changes.mapPos selection.anchor (-1)
    some ⟨position, position⟩
  else do
    let start ← changes.mapPos (min selection.anchor selection.head) 1
    let finish ← changes.mapPos (max selection.anchor selection.head) (-1)
    if selection.anchor ≤ selection.head then some ⟨start, finish⟩ else some ⟨finish, start⟩

end Oxbin.Livecollab
