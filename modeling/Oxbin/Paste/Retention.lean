import Mathlib.Data.List.Induction
import Oxbin.Paste.Secrecy

/-!
# Pastes stay until they are taken

A paste that is stored stays in the table until a `consume` takes it or a cleanup pass finds it
expired.  As long as it stays the statements find it, and the endpoints answer with it.
-/

namespace Oxbin.Paste

open Live (Time unix unixTime)

/-! ## What takes a paste out of the table -/

/-- The next statement of the task deletes the paste if it takes effect: a `consume` before the
expiry of a paste that burns after reading, or a batch of a cleanup pass after it. -/
def Task.deletes (slug : String) (new : NewPaste) : Task → Prop
  | .consume called now =>
      called = slug ∧ new.burnAfterRead = true ∧ unix now < unix new.expiresAt
  | .cleanup now _ => unix new.expiresAt ≤ unix now
  | .create .. | .get .. | .raw .. => False

instance (slug : String) (new : NewPaste) : DecidablePred (Task.deletes slug new)
  | .consume .. => inferInstanceAs (Decidable (_ ∧ _))
  | .cleanup .. => inferInstanceAs (Decidable (_ ≤ _))
  | .create .. | .get .. | .raw .. => inferInstanceAs (Decidable False)

/-- The event runs such a statement. -/
def Removes (system : System) (slug : String) (new : NewPaste) : Event → Prop
  | .execute index surroundings => surroundings.delivery ≠ .failed ∧
      ∃ task ∈ system.tasks[index]?, task.deletes slug new
  | .arrive .. | .cleanup .. | .abandon .. => False

instance (system : System) (slug : String) (new : NewPaste) :
    DecidablePred (Removes system slug new)
  | .execute .. => inferInstanceAs (Decidable (_ ∧ _))
  | .arrive .. | .cleanup .. | .abandon .. => inferInstanceAs (Decidable False)

/-- An event of the run has deleted the paste that was stored at a position of the record. -/
def Removed (options : Options) (events : List Event) (origin : Nat) (slug : String)
    (new : NewPaste) : Prop :=
  ∃ count, count < events.length ∧ origin < (run options (events.take count)).history.length ∧
    ∃ event ∈ events[count]?, Removes (run options (events.take count)) slug new event

instance (options : Options) (events : List Event) (origin : Nat) (slug : String)
    (new : NewPaste) : Decidable (Removed options events origin slug new) :=
  inferInstanceAs (Decidable (∃ count, count < _ ∧ _))

theorem run_concat (options : Options) (events : List Event) (event : Event) :
    run options (events ++ [event]) = (run options events).step options event :=
  List.foldl_concat ..

theorem Removed.concat {options : Options} {events : List Event} {origin : Nat} {slug : String}
    {new : NewPaste} (removed : Removed options events origin slug new) (event : Event) :
    Removed options (events ++ [event]) origin slug new := by
  obtain ⟨count, small, recorded, earlier, there, removes⟩ := removed
  refine ⟨count, ?_, ?_, earlier, ?_, ?_⟩
  · rw [List.length_append]
    exact Nat.lt_add_right _ small
  · rwa [List.take_append_of_le_length small.le]
  · rwa [List.getElem?_append_left small]
  · rwa [List.take_append_of_le_length small.le]

theorem removed_last {options : Options} {events : List Event} {origin : Nat} {slug : String}
    {new : NewPaste} (recorded : origin < (run options events).history.length) {event : Event}
    (removes : Removes (run options events) slug new event) :
    Removed options (events ++ [event]) origin slug new := by
  refine ⟨events.length, by simp, ?_, event, List.getElem?_concat_length, ?_⟩
  · rwa [List.take_left]
  · rwa [List.take_left]

/-! ## Rows stay -/

namespace Table

theorem create_ok {table table' : Table} {slug : String} {new : NewPaste} {paste : StoredPaste}
    (created : table.create slug new = .ok (paste, table')) :
    paste = pasteOf slug new ∧ table.row? slug = none ∧
      ∀ other, table'.row? other = if other = slug then some (rowOf slug new)
        else table.row? other := by
  unfold create at created
  cases inserted : table.insert (rowOf slug new) with
  | error => rw [inserted] at created; cases created
  | ok after =>
      rw [inserted] at created
      cases created
      refine ⟨rfl, ?_, insert_ok inserted⟩
      unfold insert at inserted
      split at inserted
      case isTrue fresh =>
        unfold row?
        rw [List.find?_eq_none]
        intro row member named
        rw [beq_iff_eq] at named
        exact fresh (List.mem_map.mpr ⟨row, member, named⟩)
      case isFalse => cases inserted

/-- A fresh slug is stored. -/
theorem create_fresh {table : Table} {slug : String} (fresh : table.row? slug = none)
    (new : NewPaste) : ∃ table', table.create slug new = .ok (pasteOf slug new, table') := by
  have absent : (rowOf slug new).slug ∉ table.rows.map Row.slug := by
    intro listed
    obtain ⟨row, member, named⟩ := List.mem_map.mp listed
    have present : table.row? slug = some row := row?_eq_some.mpr ⟨member, named⟩
    rw [fresh] at present
    cases present
  exact ⟨_, congrArg (Except.map _) (dif_pos absent)⟩

end Table

section Statements

variable {options : Options} {table : Table} {slug : String} {new : NewPaste}

/-- An attempt to insert a paste leaves the rows of the other slugs, and what it records as stored
is in the table. -/
theorem insertAttempt_rows (other : NewPaste) (now : Time) (attempt : Nat)
    (surroundings : Surroundings) :
    (table.row? slug = some (rowOf slug new) →
      (insertAttempt options table other now attempt surroundings).table.row? slug =
        some (rowOf slug new)) ∧
    (.stored slug new ∈ (insertAttempt options table other now attempt surroundings).entries →
      (insertAttempt options table other now attempt surroundings).table.row? slug =
        some (rowOf slug new)) := by
  have written {paste : StoredPaste} {table' : Table} {generated : String} {answer : Entry}
      (created : table.create generated other = .ok (paste, table'))
      (answered : ∀ slug new, answer ≠ .stored slug new) :
      (table.row? slug = some (rowOf slug new) → table'.row? slug = some (rowOf slug new)) ∧
        (.stored slug new ∈ [.stored generated other, answer] →
          table'.row? slug = some (rowOf slug new)) := by
    obtain ⟨_, fresh, rows⟩ := Table.create_ok created
    rw [rows]
    constructor
    · intro present
      rw [if_neg, present]
      rintro rfl
      rw [fresh] at present
      cases present
    · intro recorded
      rcases List.mem_cons.mp recorded with same | last
      · cases same
        rw [if_pos rfl]
      · exact absurd (List.mem_singleton.mp last).symm (answered slug new)
  unfold insertAttempt
  split
  next => exact ⟨id, by simp⟩
  next =>
    split
    next => exact ⟨id, by simp⟩
    next generated _ =>
      split
      next => exact ⟨id, by simp⟩
      next => exact ⟨id, by simp⟩
      next _ created => exact written created (by simp)
      next =>
        split
        next => exact ⟨id, by simp⟩
        next => exact ⟨id, by simp⟩
      next => exact ⟨id, by simp⟩
      next _ created => exact written created (by simp)

/-- A batch of the cleanup or a `consume` leaves the row that it does not delete. -/
theorem row?_after {delivery : Delivery} {table' : Table}
    (present : table.row? slug = some (rowOf slug new))
    (left : delivery ≠ .failed → table'.row? slug = some (rowOf slug new)) :
    (delivery.after table table').row? slug = some (rowOf slug new) := by
  cases delivery with
  | failed => exact present
  | done => exact left (by simp)
  | lost => exact left (by simp)

/-- A statement that does not delete a paste leaves its row. -/
theorem execute_row? {system : System} {task : Task} {index : Nat} {surroundings : Surroundings}
    (inFlight : system.tasks[index]? = some task)
    (present : system.table.row? slug = some (rowOf slug new))
    (left : ¬Removes system slug new (.execute index surroundings)) :
    (execute options system.table task surroundings).table.row? slug = some (rowOf slug new) := by
  cases task with
  | create other now attempt =>
      exact (insertAttempt_rows other now attempt surroundings).1 present
  | get | raw => exact present
  | consume called now =>
      refine row?_after present fun ran => Table.row?_keep.mpr ⟨present, ?_⟩
      rw [Bool.not_eq_true', Table.consumable, decide_eq_false_iff_not, unix_normalizeTime]
      rintro ⟨rfl, burns, active⟩
      exact left ⟨ran, _, inFlight, rfl, burns, active⟩
  | cleanup now batch =>
      refine row?_after present fun ran => (Table.deleteExpiredBatch_row? ?_).mpr present
      by_contra expired
      exact left ⟨ran, _, inFlight, not_lt.mp expired⟩

/-- What a statement records as stored is in the table. -/
theorem execute_stored {task : Task} {surroundings : Surroundings}
    (recorded : .stored slug new ∈ (execute options table task surroundings).entries) :
    (execute options table task surroundings).table.row? slug = some (rowOf slug new) := by
  cases task with
  | create other now attempt =>
      exact (insertAttempt_rows other now attempt surroundings).2 recorded
  | get | raw | consume | cleanup => simp [execute] at recorded

end Statements

/-- What an event adds to the record: what it records as stored is in the table. -/
theorem step_history (options : Options) (system : System) (event : Event) :
    ∃ entries, (system.step options event).history = system.history ++ entries ∧
      ∀ slug new, .stored slug new ∈ entries →
        (system.step options event).table.row? slug = some (rowOf slug new) := by
  cases event with
  | arrive request permits now =>
      rw [System.step]
      split
      · exact ⟨_, rfl, by simp⟩
      · exact ⟨[], (List.append_nil _).symm, by simp⟩
  | cleanup => exact ⟨[], (List.append_nil _).symm, by simp⟩
  | execute index surroundings =>
      rw [System.step]
      split
      · exact ⟨[], (List.append_nil _).symm, by simp⟩
      · exact ⟨_, rfl, fun _ _ recorded => execute_stored recorded⟩
  | abandon => exact ⟨[], (List.append_nil _).symm, by simp⟩

/-- An event that does not delete a paste leaves its row. -/
theorem step_row? {options : Options} {system : System} {slug : String} {new : NewPaste}
    (present : system.table.row? slug = some (rowOf slug new)) {event : Event}
    (left : ¬Removes system slug new event) :
    (system.step options event).table.row? slug = some (rowOf slug new) := by
  cases event with
  | arrive request permits now =>
      rw [System.step]
      split <;> exact present
  | cleanup => exact present
  | execute index surroundings =>
      rw [System.step]
      split
      · exact present
      · next task inFlight => exact execute_row? inFlight present left
  | abandon => exact present

/-- In every run, the paste that was stored last under a slug is in the table unless a statement
has deleted it. -/
theorem row?_or_removed (options : Options) (events : List Event) {origin : Nat} {slug : String}
    {new : NewPaste}
    (since : Since (run options events).history (run options events).history.length origin slug
      new) :
    (run options events).table.row? slug = some (rowOf slug new) ∨
      Removed options events origin slug new := by
  induction events using List.reverseRecOn with
  | nil => cases since.stored
  | append_singleton events event induction =>
      rw [run_concat] at since ⊢
      obtain ⟨entries, grown, stored⟩ := step_history options (run options events) event
      rcases Nat.lt_or_ge origin (run options events).history.length with old | recent
      · have earlier : Since (run options events).history (run options events).history.length
            origin slug new := by
          refine ⟨old, ?_, fun position other after before => ?_⟩
          · have there := since.stored
            rwa [grown, List.getElem?_append_left old] at there
          · have unstored := since.last position other after (by
              rw [grown, List.length_append]
              omega)
            rwa [grown, List.getElem?_append_left before] at unstored
        rcases induction earlier with present | removed
        · by_cases removes : Removes (run options events) slug new event
          · exact .inr (removed_last old removes)
          · exact .inl (step_row? present removes)
        · exact .inr (removed.concat event)
      · have there := since.stored
        rw [grown, List.getElem?_append_right recent] at there
        exact .inl (stored slug new (List.mem_of_getElem? there))

/-! ## What is found -/

/-- A statement whose effect is known, in a request that is not cancelled. -/
def Surroundings.settled (generated : Option String) : Surroundings := ⟨false, generated, .done⟩

/-- The statements find a paste before its expiry, and the endpoints answer with its content: `get`
and `raw` if it does not burn after reading, `consume` if it does. -/
structure Served (options : Options) (system : System) (slug : String) (new : NewPaste) : Prop where
  getActive : ∀ now, unix now < unix new.expiresAt →
    system.table.getActive slug now = .ok (pasteOf slug new)
  consumeActive : new.burnAfterRead = true → ∀ now, unix now < unix new.expiresAt →
    (system.table.consumeActive slug now).1 = .ok (pasteOf slug new)
  get : ∀ index now permits, system.tasks[index]? = some (.get slug now permits) →
    unix now < unix new.expiresAt → permits.read = true → new.burnAfterRead = false →
    (system.step options (.execute index (.settled none))).history = system.history ++
      [.answered (.get slug) now (.ofPaste (pasteOf slug new))]
  raw : ∀ index now permits payload, system.tasks[index]? = some (.raw slug now permits) →
    unix now < unix new.expiresAt → permits.read = true → new.burnAfterRead = false →
    new.content = .plaintext payload →
    (system.step options (.execute index (.settled none))).history = system.history ++
      [.answered (.raw slug) now (.text payload.content)]
  consume : ∀ index now, system.tasks[index]? = some (.consume slug now) →
    unix now < unix new.expiresAt → new.burnAfterRead = true →
    (system.step options (.execute index (.settled none))).history = system.history ++
      [.answered (.consume slug) now (.ofPaste (pasteOf slug new))]

/-- A select by the slug finds the row before its expiry. -/
theorem Table.getActive_of_row? {table : Table} {slug : String} {new : NewPaste}
    (present : table.row? slug = some (rowOf slug new)) (checked : new.content.version = 1)
    {now : Time} (active : unix now < unix new.expiresAt) :
    table.getActive slug now = .ok (pasteOf slug new) := by
  have named (row : Row) (holds : decide (row.slug = slug ∧ row.expiresAt > unix now) = true) :
      row.slug = slug := (of_decide_eq_true holds).1
  have selected : (rowOf slug new).slug = slug ∧ (rowOf slug new).expiresAt > unix now :=
    ⟨rfl, active⟩
  rw [getActive, (find?_eq_some named).mpr ⟨present, decide_eq_true selected⟩]
  exact scanPaste_rowOf checked slug

theorem Table.consumeActive_of_row? {table : Table} {slug : String} {new : NewPaste}
    (present : table.row? slug = some (rowOf slug new)) (checked : new.content.version = 1)
    (burns : new.burnAfterRead = true) {now : Time} (active : unix now < unix new.expiresAt) :
    (table.consumeActive slug now).1 = .ok (pasteOf slug new) := by
  have named (row : Row) (holds : consumable slug now row = true) : row.slug = slug :=
    (of_decide_eq_true holds).1
  have selected : consumable slug now (rowOf slug new) = true :=
    decide_eq_true ⟨rfl, burns, active⟩
  simp only [consumeActive, (find?_eq_some named).mpr ⟨present, selected⟩]
  exact scanPaste_rowOf checked slug

theorem served_of_row? (options : Options) {system : System} {slug : String} {new : NewPaste}
    (present : system.table.row? slug = some (rowOf slug new))
    (checked : new.content.version = 1) : Served options system slug new where
  getActive now active := Table.getActive_of_row? present checked active
  consumeActive burns now active := Table.consumeActive_of_row? present checked burns active
  get index now permits inFlight active read lasting := by
    have got : system.table.getActive slug (normalizeTime now) = .ok (pasteOf slug new) :=
      Table.getActive_of_row? present checked (by rwa [unix_normalizeTime])
    have burns : (pasteOf slug new).burnAfterRead = false := lasting
    simp only [System.step, inFlight, execute, Surroundings.settled, Delivery.result, got,
      getResponse, read, burns]
    rfl
  raw index now permits payload inFlight active read lasting plain := by
    have got : system.table.getActive slug (normalizeTime now) = .ok (pasteOf slug new) :=
      Table.getActive_of_row? present checked (by rwa [unix_normalizeTime])
    have burns : (pasteOf slug new).burnAfterRead = false := lasting
    have text : (pasteOf slug new).payload = payload ∧
        (pasteOf slug new).isEncrypted = false := by
      rw [pasteOf, plain]
      exact ⟨rfl, rfl⟩
    simp only [System.step, inFlight, execute, Surroundings.settled, Delivery.result, got,
      rawResponse, read, burns, text.1, text.2]
    rfl
  consume index now inFlight active burns := by
    have got : (system.table.consumeActive slug (normalizeTime now)).1 =
        .ok (pasteOf slug new) :=
      Table.consumeActive_of_row? present checked burns (by rwa [unix_normalizeTime])
    simp only [System.step, inFlight, execute, Surroundings.settled, Delivery.result, got,
      consumeResponse]

/-- A creation stores its paste under a slug that is not in use. -/
theorem execute_create (options : Options) (system : System) {slug : String} {new : NewPaste}
    {index attempt : Nat} {now : Time}
    (inFlight : system.tasks[index]? = some (.create new now attempt))
    (fresh : system.table.row? slug = none) :
    (system.step options (.execute index (.settled (some slug)))).history = system.history ++
      [.stored slug new, .answered .create now
        (.created slug (options.pasteURL slug) (unixTime (unix new.expiresAt)))] := by
  obtain ⟨table', created⟩ := Table.create_fresh fresh new
  simp only [System.step, inFlight, execute, insertAttempt, Surroundings.settled, created]
  rfl

end Oxbin.Paste
