import Oxbin.Livecollab.Canonical

/-!
# Surrogates that an edit leaves alone

The server keeps a document as a string of scalar values, the browsers keep it as code units.  An
edit may cut a surrogate pair in two: `Apply` then decodes each half to U+FFFD, while the browsers
keep the halves.  Both sides show the same text until an edit joins two halves again.
-/

namespace Oxbin.Livecollab

open Transform

/-- The code unit is a scalar value of its own. -/
abbrev Plain (unit : UInt16) : Prop := unit.toNat < 0xD800 ∨ 0xE000 ≤ unit.toNat

/-- A code unit that is not plain forms a surrogate pair with the next one. -/
abbrev Paired (unit next : UInt16) : Prop :=
  unit.toNat < 0xDC00 ∧ 0xDC00 ≤ next.toNat ∧ next.toNat < 0xE000

/-- The code unit of U+FFFD. -/
def replacementUnit : UInt16 := 0xFFFD

/-! ## What the server keeps -/

/-- The code units that the server keeps: lone surrogates have become U+FFFD. -/
def mend (units : List UInt16) : List UInt16 := encode (decode units)

theorem mend_eq_iff {left right : List UInt16} :
    mend left = mend right ↔ decode left = decode right := by
  constructor
  · intro equality
    have decoded := congrArg decode equality
    rwa [mend, mend, decode_encode, decode_encode] at decoded
  · exact congrArg encode

theorem toNat_ofNat {value : Nat} (valid : value.isValidChar) :
    (Char.ofNat value).toNat = value := by
  rw [Char.ofNat, dif_pos valid]
  rfl

theorem encodeRune_plain {unit : UInt16} (plain : Plain unit) :
    encodeRune (Char.ofNat unit.toNat) = [unit] := by
  have bound := unit.toNat_lt
  have valid : unit.toNat.isValidChar := by
    rcases plain with low | high
    · exact .inl low
    · exact .inr ⟨by omega, by omega⟩
  have toNat := toNat_ofNat valid
  rw [encodeRune_small (by rw [toNat]; omega), toNat, UInt16.ofNat_toNat]

theorem encodeRune_surrogates {high low : Nat} (high_lt : high < 0x400) (low_lt : low < 0x400) :
    encodeRune (Char.ofNat (0x10000 + high * 0x400 + low)) =
      [.ofNat (0xD800 + high), .ofNat (0xDC00 + low)] := by
  have valid : (0x10000 + high * 0x400 + low).isValidChar := .inr ⟨by omega, by omega⟩
  have toNat := toNat_ofNat valid
  have quotient : (0x10000 + high * 0x400 + low - 0x10000) / 0x400 = high := by omega
  have remainder : (0x10000 + high * 0x400 + low - 0x10000) % 0x400 = low := by omega
  rw [encodeRune_large (by rw [toNat]; omega), toNat, quotient, remainder]

theorem encodeRune_pair {unit next : UInt16} (surrogate : ¬Plain unit)
    (paired : Paired unit next) : encodeRune (Char.ofNat
      (0x10000 + (unit.toNat - 0xD800) * 0x400 + (next.toNat - 0xDC00))) = [unit, next] := by
  obtain ⟨high, low, below⟩ := paired
  rw [Plain, not_or] at surrogate
  rw [encodeRune_surrogates (by omega) (by omega), Nat.add_sub_cancel' (by omega),
    Nat.add_sub_cancel' low, UInt16.ofNat_toNat, UInt16.ofNat_toNat]

theorem mend_plain {unit : UInt16} (plain : Plain unit) (units : List UInt16) :
    mend (unit :: units) = unit :: mend units := by
  have decoded : decode (unit :: units) = Char.ofNat unit.toNat :: decode units := by
    cases units with
    | nil => simp [decode, plain]
    | cons next units => rw [decode, if_pos plain]
  rw [mend, decoded, encode_cons, encodeRune_plain plain]
  rfl

theorem mend_pair {unit next : UInt16} (surrogate : ¬Plain unit) (paired : Paired unit next)
    (units : List UInt16) : mend (unit :: next :: units) = unit :: next :: mend units := by
  rw [mend, decode, if_neg surrogate, if_pos paired, encode_cons, encodeRune_pair surrogate paired]
  rfl

theorem mend_alone {unit : UInt16} {units : List UInt16} (surrogate : ¬Plain unit)
    (apart : ∀ next ∈ units.head?, ¬Paired unit next) :
    mend (unit :: units) = replacementUnit :: mend units := by
  have decoded : decode (unit :: units) = replacementChar :: decode units := by
    cases units with
    | nil => simp [decode, surrogate]
    | cons next units => rw [decode, if_neg surrogate, if_neg (apart next rfl)]
  rw [mend, decoded, encode_cons]
  rfl

/-! ## Marks -/

/-- The code units, each with a mark that says whether it is a lone surrogate. -/
def marked : List UInt16 → List (UInt16 × Bool)
  | [] => []
  | [unit] => [(unit, !decide (Plain unit))]
  | unit :: next :: units =>
      if Plain unit then (unit, false) :: marked (next :: units)
      else if Paired unit next then (unit, false) :: (next, false) :: marked units
      else (unit, true) :: marked (next :: units)

/-- What the server keeps of a marked code unit. -/
def kept (unit : UInt16 × Bool) : UInt16 := if unit.2 then replacementUnit else unit.1

/-- Some surrogate pair has a marked half. -/
def rejoined : List (UInt16 × Bool) → Bool
  | [] | [_] => false
  | unit :: next :: units =>
      if Plain unit.1 then rejoined (next :: units)
      else if Paired unit.1 next.1 then unit.2 || next.2 || rejoined units
      else rejoined (next :: units)

theorem map_fst_marked (units : List UInt16) : (marked units).map Prod.fst = units := by
  fun_induction marked units <;> simp_all

theorem map_kept_marked (units : List UInt16) : (marked units).map kept = mend units := by
  fun_induction marked units with
  | case1 => rfl
  | case2 unit =>
      by_cases plain : Plain unit
      · rw [mend_plain plain]
        simp [kept, plain, mend, decode]
      · rw [mend_alone plain (by simp)]
        simp [kept, plain, mend, decode]
  | case3 unit next units plain induction =>
      rw [mend_plain plain, List.map_cons, induction]
      rfl
  | case4 unit next units surrogate paired induction =>
      rw [mend_pair surrogate paired, List.map_cons, List.map_cons, induction]
      rfl
  | case5 unit next units surrogate apart induction =>
      rw [mend_alone surrogate (by simpa using apart), List.map_cons, induction]
      rfl

/-- Only surrogates are marked. -/
def Sparing (units : List (UInt16 × Bool)) : Prop := ∀ unit ∈ units, unit.2 = true → ¬Plain unit.1

theorem sparing_marked (units : List UInt16) : Sparing (marked units) := by
  fun_induction marked units <;> simp_all [Sparing]

theorem plain_replacementUnit : Plain replacementUnit := by decide

theorem kept_of_plain {unit : UInt16 × Bool} (spared : unit.2 = true → ¬Plain unit.1)
    (plain : Plain unit.1) : kept unit = unit.1 := by
  have unmarked : unit.2 = false := by
    rw [← Bool.not_eq_true]
    exact fun mark => spared mark plain
  simp [kept, unmarked]

/-- A lone surrogate stays alone when the server replaces its neighbours. -/
theorem mend_kept_alone {unit : UInt16 × Bool} {units : List (UInt16 × Bool)}
    (surrogate : ¬Plain unit.1) (apart : ∀ next ∈ units.head?, ¬Paired unit.1 next.1) :
    mend ((unit :: units).map kept) = replacementUnit :: mend (units.map kept) := by
  rw [List.map_cons]
  cases mark : unit.2 with
  | true =>
      have replaced : kept unit = replacementUnit := by simp [kept, mark]
      rw [replaced, mend_plain plain_replacementUnit]
  | false =>
      have same : kept unit = unit.1 := by simp [kept, mark]
      rw [same]
      refine mend_alone surrogate fun next member => ?_
      rw [List.head?_map, Option.mem_def, Option.map_eq_some_iff] at member
      obtain ⟨before, member, rfl⟩ := member
      unfold kept
      split
      · exact fun paired => absurd paired.2.2 (by decide)
      · exact apart before member

/-- What the server keeps is what it would keep of the unmarked units, unless a pair has been
rejoined. -/
theorem mend_kept {units : List (UInt16 × Bool)} (sparing : Sparing units) :
    mend (units.map kept) = mend (units.map Prod.fst) ↔ rejoined units = false := by
  have alone {unit : UInt16 × Bool} {units : List (UInt16 × Bool)} (surrogate : ¬Plain unit.1)
      (apart : ∀ next ∈ units.head?, ¬Paired unit.1 next.1) :
      mend ((unit :: units).map Prod.fst) = replacementUnit :: mend (units.map Prod.fst) := by
    rw [List.map_cons]
    refine mend_alone surrogate fun next member => ?_
    rw [List.head?_map, Option.mem_def, Option.map_eq_some_iff] at member
    obtain ⟨before, member, rfl⟩ := member
    exact apart before member
  fun_induction rejoined units with
  | case1 => simp
  | case2 unit =>
      refine iff_of_true ?_ rfl
      by_cases plain : Plain unit.1
      · rw [List.map_cons, List.map_cons, kept_of_plain (sparing unit (by simp)) plain]
        rfl
      · rw [mend_kept_alone plain (by simp), alone plain (by simp)]
        rfl
  | case3 unit next units plain induction =>
      have whole : mend ((unit :: next :: units).map Prod.fst) =
        unit.1 :: mend ((next :: units).map Prod.fst) := mend_plain plain _
      rw [whole, List.map_cons, kept_of_plain (sparing unit (by simp)) plain, mend_plain plain,
        List.cons_eq_cons, and_iff_right rfl]
      exact induction fun other member => sparing other (by simp [List.mem_cons.mp member])
  | case4 unit next units surrogate paired induction =>
      have rest : mend (units.map kept) = mend (units.map Prod.fst) ↔ rejoined units = false :=
        induction fun other member => sparing other (by simp [member])
      have whole : mend ((unit :: next :: units).map Prod.fst) =
        unit.1 :: next.1 :: mend (units.map Prod.fst) := mend_pair surrogate paired _
      have broken : unit.1 ≠ replacementUnit := fun same => surrogate (same ▸ plain_replacementUnit)
      rw [whole, Bool.or_eq_false_iff, Bool.or_eq_false_iff, ← rest, List.map_cons, List.map_cons]
      cases mark : unit.2 with
      | true =>
          have replaced : kept unit = replacementUnit := by simp [kept, mark]
          rw [replaced, mend_plain plain_replacementUnit]
          exact iff_of_false (fun equality => broken (List.cons_eq_cons.mp equality).1.symm)
            (by simp)
      | false =>
          have same : kept unit = unit.1 := by simp [kept, mark]
          rw [same]
          cases mark' : next.2 with
          | true =>
              have replaced : kept next = replacementUnit := by simp [kept, mark']
              rw [replaced, mend_alone surrogate fun other member paired => ?_]
              · exact iff_of_false (fun equality => broken (List.cons_eq_cons.mp equality).1.symm)
                  (by simp)
              · cases member
                exact absurd paired.2.2 (by decide)
          | false =>
              have same' : kept next = next.1 := by simp [kept, mark']
              rw [same', mend_pair surrogate paired]
              simp
  | case5 unit next units surrogate apart induction =>
      have lone : ∀ other ∈ (next :: units).head?, ¬Paired unit.1 other.1 := by simpa using apart
      rw [mend_kept_alone surrogate lone, alone surrogate lone, List.cons_eq_cons,
        and_iff_right rfl]
      exact induction fun other member => sparing other (by simp [List.mem_cons.mp member])

theorem length_mend (units : List UInt16) : (mend units).length = units.length := by
  have length := congrArg List.length (map_fst_marked units)
  rw [List.length_map] at length
  rw [← map_kept_marked, List.length_map, length]

/-! ## One edit -/

namespace ChangeSet

/-- The edit of marked units; what it inserts is unmarked. -/
def runMarked (set : ChangeSet) (units : List (UInt16 × Bool)) : List (UInt16 × Bool) :=
  walk ((atomsOf set.sections).map (Atom.map fun unit => (unit, false))) units

/-- Forgetting the marks in any way that leaves unmarked units alone commutes with the edit. -/
theorem map_runMarked (set : ChangeSet) (units : List (UInt16 × Bool))
    {forget : UInt16 × Bool → UInt16} (unmarked : ∀ unit, forget (unit, false) = unit) :
    (set.runMarked units).map forget = set.run (units.map forget) := by
  have atoms : ((atomsOf set.sections).map (Atom.map fun unit => (unit, false))).map
      (Atom.map forget) = atomsOf set.sections := by
    rw [List.map_map]
    refine List.map_id'' (fun atom => ?_) _
    cases atom with
    | keep => rfl
    | drop => rfl
    | text rank word =>
        simp only [Function.comp_apply, Atom.map, List.map_map]
        congr 1
        exact List.map_id'' unmarked word
  rw [runMarked, ← walk_map, atoms]
  rfl

theorem sparing_runMarked (set : ChangeSet) {units : List (UInt16 × Bool)}
    (sparing : Sparing units) : Sparing (set.runMarked units) := by
  intro unit member mark
  rcases mem_walk member with old | ⟨rank, word, written, new⟩
  · exact sparing unit old mark
  · obtain ⟨atom, _, equality⟩ := List.mem_map.mp written
    cases atom with
    | keep => cases equality
    | drop => cases equality
    | text rank' word' =>
        cases equality
        obtain ⟨inserted, _, rfl⟩ := List.mem_map.mp new
        cases mark

/-- The edit joins a surrogate that was alone in the text with another one. -/
def Rejoins (set : ChangeSet) (units : List UInt16) : Prop :=
  rejoined (set.runMarked (marked units)) = true

instance (set : ChangeSet) (units : List UInt16) : Decidable (set.Rejoins units) :=
  inferInstanceAs (Decidable (_ = true))

/-- An edit of what the server keeps agrees with the edit of the text as long as it does not
rejoin a pair. -/
theorem mend_run (set : ChangeSet) (units : List UInt16) :
    mend (set.run (mend units)) = mend (set.run units) ↔ ¬set.Rejoins units := by
  have agree := mend_kept (set.sparing_runMarked (sparing_marked units))
  rw [set.map_runMarked _ fun unit => rfl, set.map_runMarked _ fun unit => rfl, map_kept_marked,
    map_fst_marked] at agree
  rw [agree, Rejoins, Bool.not_eq_true]

end ChangeSet

end Oxbin.Livecollab
