import Oxbin.Livecollab.Parsing
import Oxbin.Livecollab.Selections
import Oxbin.Livecollab.Surrogates

/-!
# Change sets in 64-bit arithmetic

The lengths of a change set come from a message and are only bounded one by one.  Their sums wrap
around, which the other files leave out; here the sums are those of the program.
-/

namespace Oxbin.Livecollab

/-- The value of an `int` after an operation. -/
def wrap (value : Int) : Int := Int.bmod value (2 ^ 64)

theorem wrap_range (value : Int) : -intLimit ≤ wrap value ∧ wrap value < intLimit := by
  have lower := @Int.le_bmod value (2 ^ 64) (by decide)
  have upper := @Int.bmod_lt value (2 ^ 64) (by decide)
  unfold wrap intLimit
  omega

theorem wrap_eq {value : Int} (lower : -intLimit ≤ value) (upper : value < intLimit) :
    wrap value = value := by
  unfold intLimit at lower upper
  unfold wrap
  exact Int.bmod_eq_of_le (by omega) (by omega)

@[simp] theorem wrap_zero : wrap 0 = 0 := by decide

@[simp] theorem wrap_add (left right : Int) : wrap (wrap left + right) = wrap (left + right) :=
  Int.bmod_add_bmod

/-- A kept range that ends behind its start has not wrapped around. -/
theorem wrap_add_of_le {position length : Int} (start : 0 ≤ wrap position) (nonneg : 0 ≤ length)
    (small : length < intLimit) (ordered : wrap position ≤ wrap (position + length)) :
    wrap (position + length) = wrap position + length := by
  have bound := (wrap_range position).2
  rw [← wrap_add] at ordered ⊢
  unfold intLimit at *
  generalize wrap position = start' at *
  unfold wrap at *
  rw [Int.bmod_def] at *
  omega

namespace ChangeSet

/-- `ChangeSet.OldLen`. -/
def oldLen64 (set : ChangeSet) : Int :=
  set.sections.foldl (fun length sect => wrap (length + sect.oldLen)) 0

/-- `ChangeSet.NewLen`. -/
def newLen64 (set : ChangeSet) : Int :=
  set.sections.foldl
    (fun length sect => wrap (length + if sect.changed then sect.newLen else sect.oldLen)) 0

/-- `ChangeSet.ValidateForDocument`. -/
def validateForDocument64 (set : ChangeSet) (document : String) : Except CollabError Unit :=
  if set.oldLen64 ≠ utf16Len document then
    .error (.invalidChangeSet (.startsAt set.oldLen64 (utf16Len document)))
  else validateSections 0 set.sections

/-- The section walk of `Apply`. -/
def applySections64 (input : List UInt16) :
    List Section → Nat → Int → List UInt16 → Except CollabError (Int × List UInt16)
  | [], _, position, output => .ok (position, output)
  | sect :: sections, index, position, output =>
      let stop := wrap (position + sect.oldLen)
      if stop > input.length then .error (.invalidChangeSet (.sectionExceeds index))
      else if sect.changed then
        applySections64 input sections (index + 1) stop (output ++ utf16Units sect.insert)
      else if 0 ≤ position ∧ position ≤ stop then
        applySections64 input sections (index + 1) stop
          (output ++ (input.drop position.toNat).take (stop - position).toNat)
      else .error .panic

/-- `ChangeSet.Apply` before its final `utf16.Decode`. -/
def applyUnits64 (set : ChangeSet) (input : List UInt16) : Except CollabError (List UInt16) :=
  if set.oldLen64 ≠ input.length then
    .error (.invalidChangeSet (.startsAt set.oldLen64 input.length))
  else if set.newLen64 < 0 then .error .panic
  else
    match applySections64 input set.sections 0 0 [] with
    | .error error => .error error
    | .ok (position, output) =>
        if position ≠ input.length then .error (.invalidChangeSet .notCovered)
        else .ok output

/-- `ChangeSet.Apply`. -/
def apply64 (set : ChangeSet) (document : String) : Except CollabError String :=
  match set.applyUnits64 (utf16Units document) with
  | .error error => .error error
  | .ok output => .ok (String.ofList (decode output))

theorem foldl_wrap (sections : List Section) (measure : Section → Int) (start : Int) :
    sections.foldl (fun length sect => wrap (length + measure sect)) (wrap start) =
      wrap (start + (sections.map measure).sum) := by
  induction sections generalizing start with
  | nil => rw [List.foldl_nil, List.map_nil, List.sum_nil, Int.add_zero]
  | cons sect sections induction =>
      rw [List.foldl_cons, wrap_add, induction, List.map_cons, List.sum_cons, Int.add_assoc]

theorem oldLen64_eq (set : ChangeSet) : set.oldLen64 = wrap set.oldLen := by
  have folded := foldl_wrap set.sections Section.oldLen 0
  rwa [wrap_zero, Int.zero_add] at folded

theorem newLen64_eq (set : ChangeSet) : set.newLen64 = wrap set.newLen := by
  have folded := foldl_wrap set.sections
    (fun sect => if sect.changed then sect.newLen else sect.oldLen) 0
  rwa [wrap_zero, Int.zero_add] at folded

/-! ## Safe application -/

/-- In 64-bit arithmetic no section ends behind the document, and every kept section lies inside
it.  The sections begin at the given exact position. -/
def Inside (length : Int) : Int → List Section → Prop
  | _, [] => True
  | position, sect :: sections =>
      wrap (position + sect.oldLen) ≤ length ∧
      (sect.changed = false →
        0 ≤ wrap position ∧ wrap position ≤ wrap (position + sect.oldLen)) ∧
      Inside length (position + sect.oldLen) sections

instance (length position : Int) (sections : List Section) :
    Decidable (Inside length position sections) := by
  induction sections generalizing position with
  | nil => exact .isTrue trivial
  | cons sect sections induction =>
      have := induction (position + sect.oldLen)
      exact inferInstanceAs (Decidable (_ ∧ _ ∧ _))

/-- The units that the sections announce. -/
def announced (sections : List Section) : Int :=
  (sections.map fun sect => if sect.changed then sect.newLen else sect.oldLen).sum

section Walk

variable {input : List UInt16} {sections : List Section} {index : Nat} {position : Int}
  {output : List UInt16}

/-- A walk that succeeds has stayed inside the document. -/
theorem inside_of_walk {final : Int × List UInt16}
    (walked : applySections64 input sections index (wrap position) output = .ok final) :
    Inside input.length position sections := by
  induction sections generalizing index position output with
  | nil => trivial
  | cons sect sections induction =>
      rw [applySections64] at walked
      simp only [wrap_add] at walked
      split at walked
      case isTrue => cases walked
      case isFalse fits =>
        split at walked
        case isTrue changed =>
          exact ⟨not_lt.mp fits, fun kept => by simp [changed] at kept, induction walked⟩
        case isFalse =>
          split at walked
          case isTrue ordered => exact ⟨not_lt.mp fits, fun _ => ordered, induction walked⟩
          case isFalse => cases walked

/-- A walk that stays inside the document succeeds and writes the announced units. -/
theorem walk_of_inside (canonical : ∀ sect ∈ sections, sect.Canonical)
    (inside : Inside input.length position sections) :
    ∃ written, applySections64 input sections index (wrap position) output =
        .ok (wrap (position + (sections.map Section.oldLen).sum), output ++ written) ∧
      (written.length : Int) = announced sections := by
  induction sections generalizing index position output with
  | nil => exact ⟨[], by simp [applySections64], by simp [announced]⟩
  | cons sect sections induction =>
      obtain ⟨fits, ordered, inside⟩ := inside
      have own := canonical sect (by simp)
      have total : position + sect.oldLen + (sections.map Section.oldLen).sum =
          position + ((sect :: sections).map Section.oldLen).sum := by
        rw [List.map_cons, List.sum_cons, Int.add_assoc]
      have rest (output : List UInt16) := @induction (index + 1) (position + sect.oldLen) output
        (fun other member => canonical other (by simp [member])) inside
      rw [applySections64]
      simp only [wrap_add]
      rw [if_neg (not_lt.mpr fits)]
      cases changed : sect.changed with
      | true =>
          obtain ⟨written, walked, length⟩ := rest (output ++ utf16Units sect.insert)
          have inserted : sect.newLen = utf16Len sect.insert := by
            rcases own.proper with ⟨kept, _⟩ | ⟨_, inserted⟩
            · simp [Section.changed, kept] at changed
            · exact inserted
          refine ⟨utf16Units sect.insert ++ written, ?_, ?_⟩
          · rw [if_pos rfl, walked, total, List.append_assoc]
          · rw [List.length_append, Nat.cast_add, length]
            simp [announced, changed, inserted, utf16Len]
      | false =>
          have ordered := ordered changed
          have stop := wrap_add_of_le ordered.1 own.proper.oldLen_nonneg own.small ordered.2
          obtain ⟨written, walked, length⟩ := rest (output ++
            (input.drop (wrap position).toNat).take (wrap (position + sect.oldLen) -
              wrap position).toNat)
          refine ⟨(input.drop (wrap position).toNat).take (wrap (position + sect.oldLen) -
            wrap position).toNat ++ written, ?_, ?_⟩
          · rw [if_neg (by decide), if_pos ordered, walked, total, List.append_assoc]
          · have nonneg := own.proper.oldLen_nonneg
            rw [List.length_append, Nat.cast_add, length, List.length_take, List.length_drop]
            simp only [announced, List.map_cons, List.sum_cons, changed]
            rw [if_neg (by decide)]
            omega

end Walk

/-- Applying the set returns a text, and what it writes is what it has made room for. -/
structure AppliesSafely (set : ChangeSet) (document : String) : Prop where
  succeeds : ∃ output, set.applyUnits64 (utf16Units document) = .ok output ∧
    set.newLen64 = output.length
  capacity : 0 ≤ set.newLen64
  result : ∃ text, set.apply64 document = .ok text ∧ utf16Len text = set.newLen64

/-- A parsed change set that is valid for a document can be applied safely if and only if its
sections stay inside the document and the new length fits into an `int`. -/
theorem applies_safely_iff {data : List UInt8} {set : ChangeSet} {document : String}
    (parsed : parseChangeSetBytes data = .ok set)
    (valid : set.validateForDocument64 document = .ok ()) :
    set.AppliesSafely document ↔
      Inside (utf16Len document) 0 set.sections ∧ announced set.sections < intLimit := by
  obtain ⟨parts, _, sections⟩ := parseChangeSetBytes_iff.mp parsed
  have canonical := parseSections_canonical sections
  have length : set.oldLen64 = utf16Len document := by
    unfold validateForDocument64 at valid
    split at valid
    case isTrue => cases valid
    case isFalse same => exact not_not.mp same
  have capacity : set.newLen64 = wrap (announced set.sections) := newLen64_eq set
  constructor
  · rintro ⟨⟨output, applied, written⟩, _, _⟩
    unfold applyUnits64 at applied
    split at applied
    case isTrue => cases applied
    case isFalse =>
      split at applied
      case isTrue => cases applied
      case isFalse =>
        split at applied
        case h_1 => cases applied
        case h_2 position units walked =>
          have inside := @inside_of_walk _ _ _ 0 _ _ walked
          obtain ⟨units', walked', count⟩ := @walk_of_inside _ _ 0 0 [] canonical inside
          rw [wrap_zero, walked] at walked'
          cases walked'
          split at applied
          case isTrue => cases applied
          case isFalse =>
            cases applied
            refine ⟨inside, ?_⟩
            rw [List.nil_append, count, capacity] at written
            exact written ▸ (wrap_range _).2
  · rintro ⟨inside, small⟩
    obtain ⟨units, walked, count⟩ := @walk_of_inside (utf16Units document) _ 0 0 [] canonical inside
    have fits : set.newLen64 = units.length := by
      rw [capacity, wrap_eq ?_ small, count]
      unfold intLimit
      omega
    have reached : wrap (0 + (set.sections.map Section.oldLen).sum) =
      (utf16Units document).length := by
      rw [Int.zero_add]
      exact (oldLen64_eq set).symm.trans length
    have applied : set.applyUnits64 (utf16Units document) = .ok units := by
      rw [wrap_zero, List.nil_append, reached] at walked
      have same : set.oldLen64 = (utf16Units document).length := length
      unfold applyUnits64
      rw [if_neg (not_not.mpr same), if_neg (by omega), walked]
      simp
    have text : set.apply64 document = .ok (String.ofList (decode units)) := by
      unfold apply64
      rw [applied]
    refine ⟨⟨units, applied, fits⟩, by omega, _, text, ?_⟩
    rw [fits, utf16Len, utf16Units, String.toList_ofList]
    exact congrArg Nat.cast (length_mend units)

/-! ## Sums that do not wrap around -/

section Fitting

variable {set : ChangeSet}

theorem Nonneg.oldLen64_eq (nonneg : set.Nonneg) (fits : set.oldLen < intLimit) :
    set.oldLen64 = set.oldLen := by
  have := nonneg.oldLen_nonneg
  rw [ChangeSet.oldLen64_eq]
  exact wrap_eq (by unfold intLimit; omega) fits

theorem Nonneg.newLen64_eq (nonneg : set.Nonneg) (fits : set.newLen < intLimit) :
    set.newLen64 = set.newLen := by
  have := nonneg.newLen_nonneg
  rw [ChangeSet.newLen64_eq]
  exact wrap_eq (by unfold intLimit; omega) fits

theorem Nonneg.applySections64_eq {input : List UInt16} {sections : List Section}
    (nonneg : Nonneg ⟨sections⟩) {index : Nat} {position : Int} {output : List UInt16}
    (start : 0 ≤ position) (fits : position + oldLen ⟨sections⟩ < intLimit) :
    applySections64 input sections index position output =
      applySections input sections index position output := by
  induction sections generalizing index position output with
  | nil => rfl
  | cons sect sections induction =>
      have own := nonneg sect List.mem_cons_self
      have rest := nonneg.tail.oldLen_nonneg
      have total : oldLen ⟨sect :: sections⟩ = sect.oldLen + oldLen ⟨sections⟩ := rfl
      have stop : wrap (position + sect.oldLen) = position + sect.oldLen :=
        wrap_eq (by unfold intLimit; omega) (by omega)
      have later (output : List UInt16) := @induction nonneg.tail (index + 1)
        (position + sect.oldLen) output (by omega) (by omega)
      rw [applySections64, applySections]
      simp only [stop, later]

/-- Where the lengths of a set do not wrap around, `Apply` is what the other files say. -/
theorem Nonneg.apply64_eq (nonneg : set.Nonneg) (fits : set.oldLen < intLimit)
    (fits' : set.newLen < intLimit) (document : String) :
    set.apply64 document = set.apply document := by
  have walk := @Nonneg.applySections64_eq (utf16Units document) set.sections nonneg 0 0 [] le_rfl
    (by rwa [Int.zero_add])
  unfold apply64 apply applyUnits64 applyUnits
  rewrite [nonneg.oldLen64_eq fits, nonneg.newLen64_eq fits', walk]
  rfl

end Fitting

/-! ## Examples -/

/-- The text `[1,9223372036854775807,9223372036854775807,2]`. -/
def wrappingText : List UInt8 :=
  Utf8.encode "[1,9223372036854775807,9223372036854775807,2]".toList

/-- The sections of the text; their exact length is one more than two to the sixty-four. -/
def wrappingSet : ChangeSet :=
  ⟨[⟨1, -1, ""⟩, ⟨9223372036854775807, -1, ""⟩, ⟨9223372036854775807, -1, ""⟩, ⟨2, -1, ""⟩]⟩

/-- The set is valid for a document of one unit, and applying it slices out of range. -/
theorem applies_safely_wrapped :
    parseChangeSetBytes wrappingText = .ok wrappingSet ∧
      wrappingSet.validateForDocument64 "a" = .ok () ∧
      wrappingSet.apply64 "a" = .error .panic ∧ ¬wrappingSet.AppliesSafely "a" := by
  have panics : wrappingSet.apply64 "a" = .error .panic := by decide
  refine ⟨by decide +kernel, by decide, panics, fun safely => ?_⟩
  obtain ⟨text, applied, _⟩ := safely.result
  cases panics.symm.trans applied

/-- A letter of a document with a surrogate pair is replaced by two others. -/
theorem applies_safely_small :
    parseChangeSetBytes (Utf8.encode "[1,[1,\"xy\"],2]".toList) =
        .ok ⟨[⟨1, -1, ""⟩, ⟨1, 2, "xy"⟩, ⟨2, -1, ""⟩]⟩ ∧
      AppliesSafely ⟨[⟨1, -1, ""⟩, ⟨1, 2, "xy"⟩, ⟨2, -1, ""⟩]⟩ "ab😀" := by
  have parsed : parseChangeSetBytes (Utf8.encode "[1,[1,\"xy\"],2]".toList) =
      .ok ⟨[⟨1, -1, ""⟩, ⟨1, 2, "xy"⟩, ⟨2, -1, ""⟩]⟩ := by decide +kernel
  exact ⟨parsed, (applies_safely_iff parsed (by decide +kernel)).mpr (by decide +kernel)⟩

end ChangeSet

end Oxbin.Livecollab
