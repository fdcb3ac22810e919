import Oxbin.Livecollab.Utf16

/-!
# Change sets

The server's counterpart of the editor's `ChangeSet`: a document is edited section by section,
an unchanged section having `newLen = -1`.  Positions and lengths are UTF-16 offsets.  The
definitions follow `internal/livecollab/changes.go` statement by statement; the two unbounded
loops of `Map` carry a fuel argument, and `mapFuel` is shown elsewhere to be enough.
-/

namespace Oxbin.Livecollab

/-- One section of a change set: `newLen = -1` keeps `oldLen` units, otherwise they are
replaced by `insert`. -/
structure Section where
  oldLen : Int
  newLen : Int
  insert : String
  deriving DecidableEq, Repr

/-- Why a change set is invalid. -/
inductive InvalidReason where
  /-- The set starts at another length than the document has. -/
  | startsAt (oldLen documentLen : Int)
  | negativeLength (index : Nat)
  | unchangedInsert (index : Nat)
  | insertedLength (index : Nat)
  | insertedBytes (size limit : Int)
  | negativeLimit
  | sectionExceeds (index : Nat)
  | notCovered
  | cannotMap (oldLen otherOldLen : Int)
  | mismatchedLengths
  | mismatchedSets
  | rootNotArray
  | sectionNotArray (index : Nat)
  | sectionLength (index : Nat)
  | sectionLine (index line : Nat)
  | malformed
  | trailing
  deriving DecidableEq, Repr

/-- Outcomes of the package other than a value.  The last two are not error values of the
program: a slice or capacity out of range, and a loop that does not end. -/
inductive CollabError where
  | invalidChangeSet (reason : InvalidReason)
  | revisionConflict
  | duplicateOperation
  | panic
  | diverges
  deriving DecidableEq, Repr

/-- `Section.changed`. -/
def Section.changed (sect : Section) : Bool := decide (0 ≤ sect.newLen)

/-- A list of sections in document order. -/
structure ChangeSet where
  sections : List Section
  deriving DecidableEq, Repr

namespace ChangeSet

/-- `ChangeSet.OldLen`. -/
def oldLen (set : ChangeSet) : Int := (set.sections.map Section.oldLen).sum

/-- `ChangeSet.NewLen`. -/
def newLen (set : ChangeSet) : Int :=
  (set.sections.map fun sect => if sect.changed then sect.newLen else sect.oldLen).sum

/-- `ChangeSet.InsertedBytes`. -/
def insertedBytes (set : ChangeSet) : Int :=
  (set.sections.map fun sect => if sect.changed then (sect.insert.utf8ByteSize : Int) else 0).sum

/-- `ChangeSet.ValidateInsertedBytes`. -/
def validateInsertedBytes (set : ChangeSet) (maxBytes : Int) : Except CollabError Unit :=
  if maxBytes < 0 then .error (.invalidChangeSet .negativeLimit)
  else if set.insertedBytes > maxBytes then
    .error (.invalidChangeSet (.insertedBytes set.insertedBytes maxBytes))
  else .ok ()

/-- The section checks of `ValidateForDocument`, from section `index` on. -/
def validateSections : Nat → List Section → Except CollabError Unit
  | _, [] => .ok ()
  | index, sect :: sections =>
      if sect.oldLen < 0 ∨ sect.newLen < -1 then
        .error (.invalidChangeSet (.negativeLength index))
      else if !sect.changed ∧ sect.insert ≠ "" then
        .error (.invalidChangeSet (.unchangedInsert index))
      else if sect.changed ∧ sect.newLen ≠ utf16Len sect.insert then
        .error (.invalidChangeSet (.insertedLength index))
      else validateSections (index + 1) sections

/-- `ChangeSet.ValidateForDocument`, for a document of the given UTF-16 length. -/
def validateForLength (set : ChangeSet) (documentLen : Int) : Except CollabError Unit :=
  if set.oldLen ≠ documentLen then
    .error (.invalidChangeSet (.startsAt set.oldLen documentLen))
  else validateSections 0 set.sections

/-! ## Apply -/

/-- The section walk of `Apply`: the position reached and the units written. -/
def applySections (input : List UInt16) :
    List Section → Nat → Int → List UInt16 → Except CollabError (Int × List UInt16)
  | [], _, position, output => .ok (position, output)
  | sect :: sections, index, position, output =>
      let stop := position + sect.oldLen
      if stop > input.length then .error (.invalidChangeSet (.sectionExceeds index))
      else if sect.changed then
        applySections input sections (index + 1) stop (output ++ utf16Units sect.insert)
      else if 0 ≤ position ∧ position ≤ stop then
        applySections input sections (index + 1) stop
          (output ++ (input.drop position.toNat).take (stop - position).toNat)
      else .error .panic

/-- `ChangeSet.Apply` before its final `utf16.Decode`. -/
def applyUnits (set : ChangeSet) (input : List UInt16) : Except CollabError (List UInt16) :=
  if set.oldLen ≠ input.length then
    .error (.invalidChangeSet (.startsAt set.oldLen input.length))
  else if set.newLen < 0 then .error .panic
  else
    match applySections input set.sections 0 0 [] with
    | .error error => .error error
    | .ok (position, output) =>
        if position ≠ input.length then .error (.invalidChangeSet .notCovered)
        else .ok output

/-- `ChangeSet.Apply`. -/
def apply (set : ChangeSet) (document : String) : Except CollabError String :=
  match set.applyUnits (utf16Units document) with
  | .error error => .error error
  | .ok output => .ok (String.ofList (decode output))

end ChangeSet

/-! ## Section iterators -/

/-- `addSection`. -/
def addSection (set : ChangeSet) (oldLength newLength : Int) (insert : String)
    (forceJoin : Bool) : ChangeSet :=
  if oldLength = 0 ∧ newLength ≤ 0 then set
  else
    match set.sections.getLast? with
    | none => ⟨[⟨oldLength, newLength, insert⟩]⟩
    | some last =>
        let front := set.sections.dropLast
        if newLength ≤ 0 ∧ newLength = last.newLen then
          ⟨front ++ [{ last with oldLen := last.oldLen + oldLength }]⟩
        else if oldLength = 0 ∧ last.oldLen = 0 then
          ⟨front ++ [{ last with
            newLen := last.newLen + newLength, insert := last.insert ++ insert }]⟩
        else if forceJoin then
          ⟨front ++ [⟨last.oldLen + oldLength, last.newLen + newLength, last.insert ++ insert⟩]⟩
        else ⟨set.sections ++ [⟨oldLength, newLength, insert⟩]⟩

/-- `sectionIter`: `index` is one past the current section, of which `offset` units are read. -/
structure SectionIter where
  set : ChangeSet
  index : Nat
  old : Int
  new : Int
  offset : Int
  deriving DecidableEq, Repr

namespace SectionIter

/-- `sectionIter.next`. -/
def next (iter : SectionIter) : SectionIter :=
  match iter.set.sections[iter.index]? with
  | none => { iter with old := 0, new := -2, offset := 0 }
  | some sect =>
      { iter with index := iter.index + 1, old := sect.oldLen, new := sect.newLen, offset := 0 }

/-- `newSectionIter`. -/
def ofSet (set : ChangeSet) : SectionIter :=
  next { set, index := 0, old := 0, new := 0, offset := 0 }

/-- `sectionIter.done`. -/
def done (iter : SectionIter) : Prop := iter.new = -2

instance (iter : SectionIter) : Decidable iter.done := inferInstanceAs (Decidable (_ = _))

/-- `sectionIter.newLength`. -/
def newLength (iter : SectionIter) : Int := if iter.new < 0 then iter.old else iter.new

/-- `sectionIter.text`. -/
def text (iter : SectionIter) : String :=
  if iter.done ∨ iter.new < 0 then ""
  else
    match iter.set.sections[iter.index - 1]? with
    | none => ""
    | some sect => sect.insert

/-- `sectionIter.forward`. -/
def forward (iter : SectionIter) (length : Int) : SectionIter :=
  if length = iter.old then iter.next
  else { iter with old := iter.old - length, offset := iter.offset + length }

end SectionIter

/-! ## Map -/

/-- The variables of the main loop of `Map`. -/
structure MapState where
  a : SectionIter
  b : SectionIter
  inserted : Int
  result : ChangeSet
  deriving DecidableEq, Repr

/-- The inner loop that skips `length` units of the mapped set, all replaced by one change of
the other set, and emits the insertions found under it. -/
def coverChange : Nat → Int → MapState → Option MapState
  | 0, _, _ => none
  | fuel + 1, length, state =>
      if 0 < length then
        let piece := min state.a.old length
        let state :=
          if 0 ≤ state.a.new ∧ state.inserted < state.a.index ∧ state.a.old ≤ piece then
            { state with
              result := addSection state.result 0 state.a.newLength state.a.text false
              inserted := state.a.index }
          else state
        coverChange fuel (length - piece) { state with a := state.a.forward piece }
      else some state

/-- The inner loop that advances the other set under a change of the mapped set up to the next
change that is not a short deletion: the other iterator, the kept `length` and what is `left`. -/
def reachChange : Nat → SectionIter → Int → Int → Option (SectionIter × Int × Int)
  | 0, _, _, _ => none
  | fuel + 1, b, length, left =>
      if 0 < left then
        if b.new = -1 then
          let piece := min left b.old
          reachChange fuel (b.forward piece) (length + piece) (left - piece)
        else if b.new = 0 ∧ b.old < left then reachChange fuel b.next length (left - b.old)
        else some (b, length, left)
      else some (b, length, left)

/-- The main loop of `Map`. -/
def mapLoop (before : Bool) : Nat → MapState → Except CollabError ChangeSet
  | 0, _ => .error .diverges
  | fuel + 1, state =>
      let a := state.a
      let b := state.b
      if a.done ∧ 0 < b.old ∨ b.done ∧ 0 < a.old then
        .error (.invalidChangeSet .mismatchedLengths)
      else if a.new = -1 ∧ b.new = -1 then
        let length := min a.old b.old
        mapLoop before fuel
          { state with
            a := a.forward length
            b := b.forward length
            result := addSection state.result length (-1) "" false }
      else if 0 ≤ b.new ∧ (a.new < 0 ∨ state.inserted = a.index ∨
          a.offset = 0 ∧ (b.old < a.old ∨ b.old = a.old ∧ !before)) then
        match coverChange fuel b.old
            { state with result := addSection state.result b.newLength (-1) "" false } with
        | none => .error .diverges
        | some state => mapLoop before fuel { state with b := state.b.next }
      else if 0 ≤ a.new then
        match reachChange fuel b 0 a.old with
        | none => .error .diverges
        | some (b, length, left) =>
            let result :=
              if state.inserted < a.index then
                addSection state.result length a.newLength a.text false
              else addSection state.result length 0 "" false
            mapLoop before fuel
              { a := a.forward (a.old - left), b, inserted := a.index, result }
      else if a.done ∧ b.done then .ok state.result
      else .error (.invalidChangeSet .mismatchedSets)

/-- Iterations that are enough for the loops of `Map`. -/
def mapFuel (set other : ChangeSet) : Nat :=
  2 * (set.sections.length + other.sections.length) + 3

/-- `ChangeSet.Map`. -/
def ChangeSet.map (set other : ChangeSet) (before : Bool) : Except CollabError ChangeSet :=
  if set.oldLen ≠ other.oldLen then
    .error (.invalidChangeSet (.cannotMap set.oldLen other.oldLen))
  else
    mapLoop before (mapFuel set other)
      { a := .ofSet set, b := .ofSet other, inserted := -1, result := ⟨[]⟩ }

end Oxbin.Livecollab
