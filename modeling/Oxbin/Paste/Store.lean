import Mathlib.Data.List.Sort
import Oxbin.Paste.Payload

/-!
# The table of pastes

The statements of `internal/storage/sqlite/store.go` on the table `pastes`.  A statement takes
effect as a whole or not at all.
-/

namespace Oxbin.Paste

open Live (Time unix unixTime)

/-- `NewPaste` and `NewEncryptedPaste` without the slug. -/
structure NewPaste where
  content : Content
  burnAfterRead : Bool
  contentSize : Int
  expiresAt : Time
  createdAt : Time
  deriving DecidableEq

/-- `Paste`, as the store returns it. -/
structure StoredPaste where
  slug : String
  payload : PlaintextPayload
  envelope : Option CiphertextEnvelope
  isEncrypted : Bool
  cryptoVersion : Int
  burnAfterRead : Bool
  contentSize : Int
  expiresAt : Time
  createdAt : Time
  deriving DecidableEq

/-- A row of the table. -/
structure Row where
  slug : String
  payload : String
  isEncrypted : Bool
  cryptoVersion : Option Int
  burnAfterRead : Bool
  contentSize : Int
  expiresAt : Int
  createdAt : Int
  deriving DecidableEq

/-- The row that is inserted for a paste. -/
def rowOf (slug : String) (new : NewPaste) : Row where
  slug := slug
  payload := String.ofList new.content.json.text
  isEncrypted := match new.content with
    | .plaintext _ => false
    | .encrypted _ => true
  cryptoVersion := match new.content with
    | .plaintext _ => none
    | .encrypted envelope => some envelope.version
  burnAfterRead := new.burnAfterRead
  contentSize := new.contentSize
  expiresAt := unix new.expiresAt
  createdAt := unix new.createdAt

/-- The paste that `Create` and `CreateEncrypted` return. -/
def pasteOf (slug : String) (new : NewPaste) : StoredPaste where
  slug := slug
  payload := match new.content with
    | .plaintext payload => payload
    | .encrypted _ => ⟨0, "", "", ""⟩
  envelope := match new.content with
    | .plaintext _ => none
    | .encrypted envelope => some envelope
  isEncrypted := match new.content with
    | .plaintext _ => false
    | .encrypted _ => true
  cryptoVersion := match new.content with
    | .plaintext _ => 0
    | .encrypted envelope => envelope.version
  burnAfterRead := new.burnAfterRead
  contentSize := new.contentSize
  expiresAt := unixTime (unix new.expiresAt)
  createdAt := unixTime (unix new.createdAt)

/-- The table `pastes`; the slug is its primary key. -/
structure Table where
  rows : List Row
  unique : (rows.map Row.slug).Nodup

namespace Table

/-- The table of a new database. -/
def empty : Table := ⟨[], List.nodup_nil⟩

/-- The row of a slug. -/
def row? (table : Table) (slug : String) : Option Row :=
  table.rows.find? fun row => row.slug == slug

/-- The rows for which a condition holds. -/
def keep (table : Table) (condition : Row → Bool) : Table where
  rows := table.rows.filter condition
  unique := table.unique.sublist (List.filter_sublist.map Row.slug)

/-- `INSERT INTO pastes`. -/
def insert (table : Table) (row : Row) : Except PasteError Table :=
  if fresh : row.slug ∉ table.rows.map Row.slug then
    .ok {
      rows := table.rows ++ [row]
      unique := by
        rw [List.map_append, List.nodup_append]
        refine ⟨table.unique, List.nodup_singleton _, ?_⟩
        intro slug listed other single same
        rw [List.map_singleton, List.mem_singleton] at single
        subst same
        exact fresh (single ▸ listed) }
  else .error .slugCollision

/-- `Create` and `CreateEncrypted`. -/
def create (table : Table) (slug : String) (new : NewPaste) :
    Except PasteError (StoredPaste × Table) :=
  (table.insert (rowOf slug new)).map fun table => (pasteOf slug new, table)

end Table

/-- `scanPaste`. -/
def scanPaste (row : Row) : Except PasteError StoredPaste :=
  match row.isEncrypted, row.cryptoVersion with
  | true, some version =>
      match (Json.parse row.payload.toList).bind (decodeEnvelope false) with
      | none => .error .storage
      | some envelope => .ok {
          slug := row.slug
          payload := ⟨0, "", "", ""⟩
          envelope := some envelope
          isEncrypted := true
          cryptoVersion := version
          burnAfterRead := row.burnAfterRead
          contentSize := row.contentSize
          expiresAt := unixTime row.expiresAt
          createdAt := unixTime row.createdAt }
  | false, none =>
      match (Json.parse row.payload.toList).bind (decodePlaintext false) with
      | none => .error .storage
      | some payload => .ok {
          slug := row.slug
          payload := payload
          envelope := none
          isEncrypted := false
          cryptoVersion := 0
          burnAfterRead := row.burnAfterRead
          contentSize := row.contentSize
          expiresAt := unixTime row.expiresAt
          createdAt := unixTime row.createdAt }
  | _, _ => .error .storage

namespace Table

/-- `GetActive`. -/
def getActive (table : Table) (slug : String) (now : Time) : Except PasteError StoredPaste :=
  match table.rows.find? fun row => row.slug = slug ∧ row.expiresAt > unix now with
  | none => .error .notFound
  | some row => scanPaste row

/-- The rows that `ConsumeActive` deletes. -/
def consumable (slug : String) (now : Time) (row : Row) : Bool :=
  row.slug = slug ∧ row.burnAfterRead = true ∧ row.expiresAt > unix now

/-- `ConsumeActive`: its answer, and the table after it. -/
def consumeActive (table : Table) (slug : String) (now : Time) :
    Except PasteError StoredPaste × Table :=
  (match table.rows.find? (consumable slug now) with
    | none => .error .notFound
    | some row => scanPaste row,
   table.keep fun row => !consumable slug now row)

/-- The rows that a batch of the cleanup selects: the expired ones that expired first. -/
def expired (table : Table) (now : Time) (limit : Nat) : List Row :=
  ((table.rows.filter fun row => row.expiresAt ≤ unix now).mergeSort fun row other =>
    row.expiresAt ≤ other.expiresAt).take limit

/-- `DeleteExpiredBatch`: the number of deleted rows, and the table after it. -/
def deleteExpiredBatch (table : Table) (now : Time) (limit : Nat) :
    Except PasteError Nat × Table :=
  if limit < 1 then (.error .storage, table)
  else (.ok (table.expired now limit).length, table.keep fun row => row ∉ table.expired now limit)

/-! ## What the statements do -/

theorem row?_eq_some {table : Table} {slug : String} {row : Row} :
    table.row? slug = some row ↔ row ∈ table.rows ∧ row.slug = slug := by
  constructor
  · intro found
    exact ⟨List.mem_of_find?_eq_some found, by simpa using List.find?_some found⟩
  · rintro ⟨member, rfl⟩
    obtain ⟨rows, unique⟩ := table
    unfold row?
    induction rows with
    | nil => cases member
    | cons head rows induction =>
        rw [List.map_cons, List.nodup_cons] at unique
        rcases List.mem_cons.mp member with rfl | later
        · simp
        · have other : head.slug ≠ row.slug := by
            intro same
            exact unique.1 (same ▸ List.mem_map_of_mem later)
          rw [List.find?_cons_of_neg (by simpa using other)]
          exact induction unique.2 later

/-- A select by the slug and a condition finds the row of the slug, if it satisfies it. -/
theorem find?_eq_some {table : Table} {slug : String} {condition : Row → Bool} {row : Row}
    (named : ∀ row, condition row = true → row.slug = slug) :
    table.rows.find? condition = some row ↔ table.row? slug = some row ∧ condition row = true := by
  constructor
  · intro found
    have holds := List.find?_some found
    exact ⟨row?_eq_some.mpr ⟨List.mem_of_find?_eq_some found, named row holds⟩, holds⟩
  · rintro ⟨found, holds⟩
    obtain ⟨other, first⟩ : ∃ other, table.rows.find? condition = some other := by
      rw [← Option.isSome_iff_exists, List.find?_isSome]
      exact ⟨row, (row?_eq_some.mp found).1, holds⟩
    have otherRow := row?_eq_some.mpr
      ⟨List.mem_of_find?_eq_some first, named other (List.find?_some first)⟩
    rw [first, ← otherRow, found]

theorem row?_keep {table : Table} {slug : String} {condition : Row → Bool} {row : Row} :
    (table.keep condition).row? slug = some row ↔
      table.row? slug = some row ∧ condition row = true := by
  rw [row?_eq_some, row?_eq_some]
  unfold keep
  rw [List.mem_filter]
  tauto

theorem insert_ok {table table' : Table} {row : Row} (inserted : table.insert row = .ok table')
    (slug : String) : table'.row? slug =
      if slug = row.slug then some row else table.row? slug := by
  unfold insert at inserted
  split at inserted
  next fresh =>
    cases inserted
    unfold row?
    rw [List.find?_append]
    split
    next same =>
      subst same
      have missing : table.rows.find? (fun other => other.slug == row.slug) = none := by
        rw [List.find?_eq_none]
        intro other member
        simp only [beq_iff_eq]
        intro same
        exact fresh (same ▸ List.mem_map_of_mem member)
      rw [missing]
      simp
    next other =>
      have differs : ¬(row.slug == slug) = true := by simpa using Ne.symm other
      simp [differs]
  next => cases inserted

theorem getActive_ok {table : Table} {slug : String} {now : Time} {paste : StoredPaste}
    (got : table.getActive slug now = .ok paste) :
    ∃ row, table.row? slug = some row ∧ unix now < row.expiresAt ∧ scanPaste row = .ok paste := by
  unfold getActive at got
  split at got
  next => cases got
  next row found =>
    obtain ⟨present, holds⟩ :=
      (find?_eq_some fun row holds => (of_decide_eq_true holds).1).mp found
    exact ⟨row, present, (of_decide_eq_true holds).2, got⟩

theorem consumeActive_ok {table : Table} {slug : String} {now : Time} {paste : StoredPaste}
    (consumed : (table.consumeActive slug now).1 = .ok paste) :
    ∃ row, table.row? slug = some row ∧ row.burnAfterRead = true ∧ unix now < row.expiresAt ∧
      scanPaste row = .ok paste := by
  unfold consumeActive at consumed
  dsimp only at consumed
  split at consumed
  next => cases consumed
  next row found =>
    obtain ⟨present, holds⟩ :=
      (find?_eq_some fun row holds => (of_decide_eq_true holds).1).mp found
    obtain ⟨-, burn, active⟩ := of_decide_eq_true holds
    exact ⟨row, present, burn, active, consumed⟩

/-- A batch of the cleanup selects expired rows only. -/
theorem expired_of_mem {table : Table} {now : Time} {limit : Nat} {row : Row}
    (selected : row ∈ table.expired now limit) : row.expiresAt ≤ unix now := by
  have member := List.mem_mergeSort.mp (List.mem_of_mem_take selected)
  simpa using (List.mem_filter.mp member).2

/-- A batch of the cleanup leaves what has not expired. -/
theorem deleteExpiredBatch_row? {table : Table} {now : Time} {limit : Nat} {slug : String}
    {row : Row} (active : unix now < row.expiresAt) :
    (table.deleteExpiredBatch now limit).2.row? slug = some row ↔
      table.row? slug = some row := by
  unfold deleteExpiredBatch
  split
  next => rfl
  next =>
    rw [row?_keep, and_iff_left]
    simp only [decide_eq_true_eq]
    intro selected
    have past := expired_of_mem selected
    omega

end Table

/-- The row of a checked paste is scanned as that paste. -/
theorem scanPaste_rowOf {new : NewPaste} (checked : new.content.version = 1) (slug : String) :
    scanPaste (rowOf slug new) = .ok (pasteOf slug new) := by
  obtain ⟨content, burn, size, expiresAt, createdAt⟩ := new
  have parsed := Content.parse_json content
  cases content with
  | plaintext payload =>
      have decoded : decodePlaintext false payload.json = some payload :=
        decodePlaintext_json checked false
      simp only [Content.json] at parsed
      simp only [scanPaste, rowOf, pasteOf, Content.json, String.toList_ofList, parsed,
        Option.bind_some, decoded]
  | encrypted envelope =>
      have decoded : decodeEnvelope false envelope.json = some envelope :=
        decodeEnvelope_json checked false
      simp only [Content.json] at parsed
      simp only [scanPaste, rowOf, pasteOf, Content.json, String.toList_ofList, parsed,
        Option.bind_some, decoded]

end Oxbin.Paste
