import Oxbin.Livecollab.Convergence

/-!
# Change sets of the editor

The editor's documents are JavaScript strings, whose code units need not form characters, and a
diff of two of them may well cut a surrogate pair.  Its change sets are therefore modelled over
an arbitrary alphabet.  `Map` of the server follows the editor's `ChangeSet.map`, and so does
`mapSet` here; painting the letters of an alphabet with two characters turns every run of
`mapSet` into a run of `Map`.
-/

namespace Oxbin.CodeMirror

open Transform

universe u v

variable {α : Type u} {β : Type v}

/-- One section of a change set: `newLen = -1` keeps `oldLen` letters, otherwise they are
replaced by `insert`. -/
structure Section (α : Type u) where
  oldLen : Int
  newLen : Int
  insert : List α
  deriving DecidableEq, Repr

/-- A list of sections in document order. -/
@[ext]
structure ChangeSet (α : Type u) where
  sections : List (Section α)
  deriving DecidableEq, Repr

/-- `Section.changed` of the server. -/
def Section.changed (sect : Section α) : Bool := decide (0 ≤ sect.newLen)

/-- The sections that the editor builds: a kept one is not empty, and the length of a replaced
one is that of its text. -/
def Section.Proper (sect : Section α) : Prop :=
  sect.newLen = -1 ∧ 0 < sect.oldLen ∨ 0 ≤ sect.oldLen ∧ sect.newLen = sect.insert.length

instance (sect : Section α) : Decidable sect.Proper := inferInstanceAs (Decidable (_ ∨ _))

namespace ChangeSet

/-- `ChangeSet.length`. -/
def length (set : ChangeSet α) : Int := (set.sections.map Section.oldLen).sum

/-- `ChangeSet.newLength`. -/
def newLength (set : ChangeSet α) : Int :=
  (set.sections.map fun sect => if sect.changed then sect.newLen else sect.oldLen).sum

/-- Every section of the set is proper. -/
def WellFormed (set : ChangeSet α) : Prop := ∀ sect ∈ set.sections, sect.Proper

instance (set : ChangeSet α) : Decidable set.WellFormed :=
  inferInstanceAs (Decidable (∀ sect ∈ set.sections, sect.Proper))

/-- `ChangeSet.empty` for a length: nothing changes. -/
def empty (length : Nat) : ChangeSet α := if length = 0 then ⟨[]⟩ else ⟨[⟨length, -1, []⟩]⟩

/-- The property `empty` of a change set. -/
def isEmpty (set : ChangeSet α) : Bool :=
  match set.sections with
  | [] => true
  | [sect] => decide (sect.newLen < 0)
  | _ => false

end ChangeSet

/-! ## Mapping -/

/-- `addSection`, together with `addInsert`. -/
def addSection (set : ChangeSet α) (oldLength newLength : Int) (insert : List α) : ChangeSet α :=
  if oldLength = 0 ∧ newLength ≤ 0 then set
  else
    match set.sections.getLast? with
    | none => ⟨[⟨oldLength, newLength, insert⟩]⟩
    | some last =>
        let front := set.sections.dropLast
        if newLength ≤ 0 ∧ newLength = last.newLen then
          ⟨front ++ [{ last with oldLen := last.oldLen + oldLength }]⟩
        else if oldLength = 0 ∧ last.oldLen = 0 then
          ⟨front ++ [{ last with
            newLen := last.newLen + newLength, insert := last.insert ++ insert }]⟩
        else ⟨set.sections ++ [⟨oldLength, newLength, insert⟩]⟩

/-- `SectionIter`: `index` is one past the current section, of which `offset` letters are read. -/
structure SectionIter (α : Type u) where
  set : ChangeSet α
  index : Nat
  old : Int
  new : Int
  offset : Int

namespace SectionIter

/-- `SectionIter.next`. -/
def next (iter : SectionIter α) : SectionIter α :=
  match iter.set.sections[iter.index]? with
  | none => { iter with old := 0, new := -2, offset := 0 }
  | some sect =>
      { iter with index := iter.index + 1, old := sect.oldLen, new := sect.newLen, offset := 0 }

/-- A new `SectionIter`. -/
def ofSet (set : ChangeSet α) : SectionIter α :=
  next { set, index := 0, old := 0, new := 0, offset := 0 }

/-- `SectionIter.done`. -/
def done (iter : SectionIter α) : Prop := iter.new = -2

instance (iter : SectionIter α) : Decidable iter.done := inferInstanceAs (Decidable (_ = _))

/-- `SectionIter.len2`. -/
def newLength (iter : SectionIter α) : Int := if iter.new < 0 then iter.old else iter.new

/-- `SectionIter.text`. -/
def text (iter : SectionIter α) : List α :=
  if iter.done ∨ iter.new < 0 then []
  else
    match iter.set.sections[iter.index - 1]? with
    | none => []
    | some sect => sect.insert

/-- `SectionIter.forward`. -/
def forward (iter : SectionIter α) (length : Int) : SectionIter α :=
  if length = iter.old then iter.next
  else { iter with old := iter.old - length, offset := iter.offset + length }

end SectionIter

/-- The variables of the main loop of `mapSet`. -/
structure MapState (α : Type u) where
  a : SectionIter α
  b : SectionIter α
  inserted : Int
  result : ChangeSet α

/-- The inner loop that skips `length` letters of the mapped set, all replaced by one change of
the other set, and emits the insertions found under it. -/
def coverChange : Nat → Int → MapState α → Option (MapState α)
  | 0, _, _ => none
  | fuel + 1, length, state =>
      if 0 < length then
        let piece := min state.a.old length
        let state :=
          if 0 ≤ state.a.new ∧ state.inserted < state.a.index ∧ state.a.old ≤ piece then
            { state with
              result := addSection state.result 0 state.a.newLength state.a.text
              inserted := state.a.index }
          else state
        coverChange fuel (length - piece) { state with a := state.a.forward piece }
      else some state

/-- The inner loop that advances the other set under a change of the mapped set. -/
def reachChange : Nat → SectionIter α → Int → Int → Option (SectionIter α × Int × Int)
  | 0, _, _, _ => none
  | fuel + 1, b, length, left =>
      if 0 < left then
        if b.new = -1 then
          let piece := min left b.old
          reachChange fuel (b.forward piece) (length + piece) (left - piece)
        else if b.new = 0 ∧ b.old < left then reachChange fuel b.next length (left - b.old)
        else some (b, length, left)
      else some (b, length, left)

/-- The main loop of `mapSet`; `none` stands for a thrown error. -/
def mapLoop (before : Bool) : Nat → MapState α → Option (ChangeSet α)
  | 0, _ => none
  | fuel + 1, state =>
      let a := state.a
      let b := state.b
      if a.done ∧ 0 < b.old ∨ b.done ∧ 0 < a.old then none
      else if a.new = -1 ∧ b.new = -1 then
        let length := min a.old b.old
        mapLoop before fuel
          { state with
            a := a.forward length
            b := b.forward length
            result := addSection state.result length (-1) [] }
      else if 0 ≤ b.new ∧ (a.new < 0 ∨ state.inserted = a.index ∨
          a.offset = 0 ∧ (b.old < a.old ∨ b.old = a.old ∧ !before)) then
        match coverChange fuel b.old
            { state with result := addSection state.result b.newLength (-1) [] } with
        | none => none
        | some state => mapLoop before fuel { state with b := state.b.next }
      else if 0 ≤ a.new then
        match reachChange fuel b 0 a.old with
        | none => none
        | some (b, length, left) =>
            let result :=
              if state.inserted < a.index then addSection state.result length a.newLength a.text
              else addSection state.result length 0 []
            mapLoop before fuel
              { a := a.forward (a.old - left), b, inserted := a.index, result }
      else if a.done ∧ b.done then some state.result
      else none

namespace ChangeSet

/-- `mapSet`. -/
def mapSet (set other : ChangeSet α) (before : Bool) : Option (ChangeSet α) :=
  mapLoop before (2 * (set.sections.length + other.sections.length) + 3)
    { a := .ofSet set, b := .ofSet other, inserted := -1, result := ⟨[]⟩ }

/-- `ChangeSet.map`, and `mapDesc`, which leaves the inserted texts out. -/
def map (set other : ChangeSet α) (before : Bool) : Option (ChangeSet α) :=
  if other.isEmpty then some set else set.mapSet other before

end ChangeSet

/-! ## What a change set does to a text -/

/-- The edit performed by one section. -/
def Section.atoms (sect : Section α) : List (Atom α) :=
  if sect.changed then change sect.oldLen sect.insert sect.oldLen.toNat
  else List.replicate sect.oldLen.toNat .keep

namespace ChangeSet

/-- The edit performed by a change set. -/
def atoms (set : ChangeSet α) : List (Atom α) := set.sections.flatMap Section.atoms

/-- The text after a change set that fits it. -/
def run (set : ChangeSet α) (text : List α) : List α := walk set.atoms text

/-- `ChangeSet.apply`: only texts of the right length are changed. -/
def apply (set : ChangeSet α) (text : List α) : Option (List α) :=
  if set.length = text.length then some (set.run text) else none

/-- A well-formed change set that starts at the length of the text. -/
structure Fits (set : ChangeSet α) (text : List α) : Prop where
  formed : set.WellFormed
  length_eq : set.length = text.length

/-- The same change set over another alphabet. -/
def rename (name : α → β) (set : ChangeSet α) : ChangeSet β :=
  ⟨set.sections.map fun sect => ⟨sect.oldLen, sect.newLen, sect.insert.map name⟩⟩

end ChangeSet

end Oxbin.CodeMirror
