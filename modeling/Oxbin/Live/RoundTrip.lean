import Oxbin.Live.Payload
import Oxbin.Livecollab.MachineMap

/-!
# Writing and reading change sets

The hub writes a change set into the store, the transport writes it to the browsers, and the parser
reads both.  The bytes give the set back if and only if its sections are some that the parser itself
returns, which `Map` can only spoil by an overflow.
-/

namespace Oxbin.Live

open Livecollab

/-- `encodeLiveChangeSet`. -/
def encodeLiveChangeSet (changes : ChangeSet) : Json :=
  .arr <| changes.sections.map fun sect =>
    if sect.newLen < 0 then .num sect.oldLen
    else .arr (.num sect.oldLen :: (splitLines sect.insert).map .str)

/-- The member `changes` of a persisted payload, as bytes. -/
def unwrapChanges (payload : List UInt8) : Option (List UInt8) :=
  ((Json.parse (Utf8.decode payload)).bind (Json.get? "changes")).map Json.bytes

/-- What the store, the broadcasts and the replay rely on. -/
structure RoundTrips (set : ChangeSet) : Prop where
  same : (encodeLiveChangeSet set).bytes = (encodeChangeSet set).bytes
  parsed : parseChangeSetBytes (encodeChangeSet set).bytes = .ok set
  unwrapped : unwrapChanges (encodeDocumentChange set).bytes = some (encodeChangeSet set).bytes
  idempotent : ∀ again, parseChangeSetBytes (encodeChangeSet set).bytes = .ok again →
    (encodeChangeSet again).bytes = (encodeChangeSet set).bytes

theorem writable_encodeChangeSet (set : ChangeSet) (depth : Nat) :
    Json.Writable (depth + 2) (encodeChangeSet set) := by
  intro part member
  obtain ⟨sect, _, rfl⟩ := List.mem_map.mp member
  split
  case isTrue => trivial
  case isFalse =>
    intro value present
    rcases List.mem_cons.mp present with rfl | line
    · cases depth <;> trivial
    · obtain ⟨text, _, rfl⟩ := List.mem_map.mp line
      cases depth <;> trivial

/-- The parser reads the bytes of a value as the value. -/
theorem documentText_bytes {value : Json} (writable : Json.Writable Json.maxDepth value) :
    Json.DocumentText value (Utf8.decode value.bytes) :=
  Json.parse_iff.mp (Json.parse_bytes writable)

/-- The bytes of a canonical set are parsed as the set. -/
theorem parse_encodeChangeSet {set : ChangeSet} (canonical : set.Canonical) :
    parseChangeSetBytes (encodeChangeSet set).bytes = .ok set := by
  have read := parseChangeSetJSON_encodeChangeSet canonical
  have document := documentText_bytes (writable_encodeChangeSet set 9998)
  rw [encodeChangeSet] at read document
  rw [parseChangeSetJSON] at read
  refine parseChangeSetBytes_iff.mpr ⟨_, document, ?_⟩
  cases sections : parseSections 0 (set.sections.map fun sect =>
      if sect.newLen < 0 then .num sect.oldLen
      else .arr (.num sect.oldLen :: (splitLines sect.insert).map .str)) with
  | error error =>
      rw [sections] at read
      cases read
  | ok sections' =>
      rw [sections] at read
      cases read
      rfl

theorem canonical_of_parseChangeSetBytes {data : List UInt8} {set : ChangeSet}
    (parsed : parseChangeSetBytes data = .ok set) : set.Canonical := by
  obtain ⟨parts, _, sections⟩ := parseChangeSetBytes_iff.mp parsed
  exact parseSections_canonical sections

theorem unwrap_encodeDocumentChange (set : ChangeSet) :
    unwrapChanges (encodeDocumentChange set).bytes = some (encodeChangeSet set).bytes := by
  have writable : Json.Writable (9997 + 3) (encodeDocumentChange set) := by
    intro member present
    cases List.mem_singleton.mp present
    exact writable_encodeChangeSet set 9997
  unfold unwrapChanges
  rw [Json.parse_bytes writable]
  rfl

/-- A set makes the round trip if and only if the parser could have returned it. -/
theorem roundTrips_iff (set : ChangeSet) : RoundTrips set ↔ set.Canonical := by
  constructor
  · exact fun trip => canonical_of_parseChangeSetBytes trip.parsed
  · intro canonical
    have parsed := parse_encodeChangeSet canonical
    refine ⟨rfl, parsed, unwrap_encodeDocumentChange set, fun again read => ?_⟩
    cases parsed.symm.trans read
    rfl

/-! ## Parsed and mapped sets -/

/-- The sets that the parser returns, and those that `Map` makes of them when the exact lengths of
its results fit into an `int`. -/
inductive Obtained : ChangeSet → Prop
  | parsed {data : List UInt8} {set : ChangeSet} (read : parseChangeSetBytes data = .ok set) :
      Obtained set
  | mapped {set other result exact : ChangeSet} {before : Bool} (first : Obtained set)
      (second : Obtained other) (made : set.map64 other before = .ok result)
      (sums : set.map other before = .ok exact) (fits : exact.Bounded) : Obtained result

theorem Obtained.canonical {set : ChangeSet} (obtained : Obtained set) : set.Canonical := by
  induction obtained with
  | parsed read => exact canonical_of_parseChangeSetBytes read
  | mapped first second made sums fits canonical canonical' =>
      rw [ChangeSet.map64_eq canonical canonical' sums fits] at made
      cases made
      exact (canonical.wellFormed.map canonical'.wellFormed sums).canonical
        (ChangeSet.map_plain sums) fits.1

/-- A change set makes the round trip if and only if its sections are canonical, and so are the
sections of every set that the parser returns or that `Map` makes of them without an overflow. -/
theorem encoding_round_trips (set : ChangeSet) :
    (RoundTrips set ↔ set.Canonical) ∧ (Obtained set → set.Canonical) :=
  ⟨roundTrips_iff set, fun obtained => obtained.canonical⟩

/-- A set that keeps two ranges of the greatest length. -/
def longSet : ChangeSet := ⟨[⟨9223372036854775807, -1, ""⟩, ⟨9223372036854775807, -1, ""⟩]⟩

/-- `Map` joins the two ranges to one of the length `-2`, which the parser refuses. -/
theorem encoding_round_trips_overflow :
    parseChangeSetBytes (encodeChangeSet longSet).bytes = .ok longSet ∧
      longSet.map64 longSet false = .ok ⟨[⟨-2, -1, ""⟩]⟩ ∧ ¬RoundTrips ⟨[⟨-2, -1, ""⟩]⟩ := by
  refine ⟨parse_encodeChangeSet (by decide), by decide, fun trip => ?_⟩
  have canonical := canonical_of_parseChangeSetBytes trip.parsed
  revert canonical
  decide

end Oxbin.Live
