import Oxbin.Paste.Requests

/-!
# Pastes that burn after reading

Over every run, whatever the order of requests, cleanup passes and their statements: the content of
such a paste is returned at most once, by a `consume` before its expiry.  The paste that an answer
is about is the last one that was stored under its slug; slugs are used again.
-/

namespace Oxbin.Paste

open Live (Time unix unixTime)

/-! ## Answers and the pastes they are about -/

/-- The slug that an endpoint is called for. -/
def Endpoint.slug? : Endpoint → Option String
  | .create => none
  | .get slug | .raw slug | .consume slug => some slug

/-- The response carries the content of a paste. -/
def Response.discloses : Response → Bool
  | .paste _ => true
  | .text _ => true
  | _ => false

/-- The response returns this content. -/
def Response.Returns : Response → Content → Prop
  | .paste response, .plaintext payload =>
      response.payload = some payload ∧ response.envelope = none
  | .paste response, .encrypted envelope =>
      response.payload = none ∧ response.envelope = some envelope
  | .text shown, .plaintext payload => shown = payload.content
  | _, _ => False

/-- At a position of the record content was returned for a slug. -/
def Discloses (history : List Entry) (answer : Nat) (slug : String) : Prop :=
  ∃ endpoint now response, history[answer]? = some (.answered endpoint now response) ∧
    endpoint.slug? = some slug ∧ response.discloses = true

/-- The last paste that was stored under a slug before a position. -/
structure Since (history : List Entry) (answer origin : Nat) (slug : String) (new : NewPaste) :
    Prop where
  before : origin < answer
  stored : history[origin]? = some (.stored slug new)
  last : ∀ position other, origin < position → position < answer →
    history[position]? ≠ some (.stored slug other)

/-- What holds of the record of a run. -/
structure Secrecy (history : List Entry) : Prop where
  disclosed : ∀ answer endpoint now response,
    history[answer]? = some (.answered endpoint now response) → response.discloses = true →
    ∃ origin slug new, Since history answer origin slug new ∧ endpoint.slug? = some slug ∧
      response.Returns new.content ∧ unix now < unix new.expiresAt ∧
      (new.burnAfterRead = true ↔ endpoint = .consume slug)
  confirmed : ∀ answer endpoint now isEncrypted,
    history[answer]? = some (.answered endpoint now (.burnConfirmation isEncrypted)) →
    ∃ origin slug new, Since history answer origin slug new ∧ endpoint = .get slug ∧
      unix now < unix new.expiresAt ∧ new.burnAfterRead = true
  once : ∀ origin slug new first second, new.burnAfterRead = true →
    Since history first origin slug new → Discloses history first slug →
    Since history second origin slug new → Discloses history second slug → first = second

theorem Since.unique {history : List Entry} {answer origin origin' : Nat} {slug : String}
    {new new' : NewPaste} (since : Since history answer origin slug new)
    (since' : Since history answer origin' slug new') : origin = origin' ∧ new = new' := by
  rcases Nat.lt_trichotomy origin origin' with earlier | rfl | later
  · exact absurd since'.stored (since.last _ _ earlier since'.before)
  · have same := since.stored.symm.trans since'.stored
    cases same
    exact ⟨rfl, rfl⟩
  · exact absurd since.stored (since'.last _ _ later since.before)

/-- A paste is the last one of its slug where no later entry stores another one. -/
theorem since_of_drop {history : List Entry} {answer origin : Nat} {slug : String} {new : NewPaste}
    (stored : history[origin]? = some (.stored slug new)) (before : origin < answer)
    (last : ∀ other, .stored slug other ∉ history.drop (origin + 1)) :
    Since history answer origin slug new where
  before := before
  stored := stored
  last position other after _ found := by
    refine last other (List.mem_of_getElem? (i := position - (origin + 1)) ?_)
    rwa [List.getElem?_drop, Nat.add_sub_cancel' after]

/-- An earlier position sees the same entries before and after more are recorded. -/
theorem since_append {history : List Entry} {entries : List Entry} {answer origin : Nat}
    {slug : String} {new : NewPaste} (within : answer ≤ history.length) :
    Since (history ++ entries) answer origin slug new ↔ Since history answer origin slug new := by
  constructor
  · rintro ⟨before, stored, last⟩
    rw [List.getElem?_append_left (by omega)] at stored
    refine ⟨before, stored, fun position other after earlier => ?_⟩
    have unstored := last position other after earlier
    rwa [List.getElem?_append_left (by omega)] at unstored
  · rintro ⟨before, stored, last⟩
    refine ⟨before, ?_, fun position other after earlier => ?_⟩
    · rwa [List.getElem?_append_left (by omega)]
    · rw [List.getElem?_append_left (by omega)]
      exact last position other after earlier

/-! ## The invariant -/

/-- The entry neither stores a paste under the slug nor returns the content of a `consume`. -/
def Entry.leaves (slug : String) : Entry → Prop
  | .stored other _ => other ≠ slug
  | .answered endpoint _ response => endpoint = .consume slug → response.discloses = false

/-- A paste was stored under the slug, and nothing happened to it since. -/
structure Held (history : List Entry) (origin : Nat) (slug : String) (new : NewPaste) : Prop where
  stored : history[origin]? = some (.stored slug new)
  untouched : ∀ position entry, origin < position → history[position]? = some entry →
    entry.leaves slug

/-- Every row of the table is a paste on record that was not returned by a `consume`. -/
def Standing (table : Table) (history : List Entry) : Prop :=
  ∀ slug row, table.row? slug = some row → ∃ origin new, Held history origin slug new ∧
    row = rowOf slug new ∧ new.content.version = 1

/-- The task carries a checked paste. -/
def Task.Checked : Task → Prop
  | .create new _ _ => new.content.version = 1
  | _ => True

/-- What has to hold of an entry when it is recorded. -/
def Justified (history : List Entry) : Entry → Prop
  | .stored _ _ => True
  | .answered endpoint now response =>
      (response.discloses = true → ∃ origin slug new, Held history origin slug new ∧
        endpoint.slug? = some slug ∧ response.Returns new.content ∧
        unix now < unix new.expiresAt ∧ (new.burnAfterRead = true ↔ endpoint = .consume slug)) ∧
      ∀ isEncrypted, response = .burnConfirmation isEncrypted →
        ∃ origin slug new, Held history origin slug new ∧ endpoint = .get slug ∧
          unix now < unix new.expiresAt ∧ new.burnAfterRead = true

theorem Held.since {history : List Entry} {origin : Nat} {slug : String} {new : NewPaste}
    (held : Held history origin slug new) :
    Since history history.length origin slug new where
  before := (List.getElem?_eq_some_iff.mp held.stored).1
  stored := held.stored
  last position _ after _ stored := held.untouched position _ after stored rfl

theorem Held.append {history : List Entry} {origin : Nat} {slug : String} {new : NewPaste}
    (held : Held history origin slug new) {entry : Entry} (leaves : entry.leaves slug) :
    Held (history ++ [entry]) origin slug new where
  stored := by
    rw [List.getElem?_append_left held.since.before, held.stored]
  untouched position other after found := by
    rcases Nat.lt_or_ge position history.length with earlier | later
    · rw [List.getElem?_append_left earlier] at found
      exact held.untouched position other after found
    · rw [List.getElem?_append_right later] at found
      have single : other ∈ [entry] := List.mem_of_getElem? found
      rw [List.mem_singleton.mp single]
      exact leaves

theorem present_concat {history : List Entry} {entry found : Entry} {position : Nat}
    (present : (history ++ [entry])[position]? = some found) :
    position < history.length ∧ history[position]? = some found ∨
      position = history.length ∧ found = entry := by
  have bound := (List.getElem?_eq_some_iff.mp present).1
  rw [List.length_append, List.length_singleton] at bound
  rcases Nat.lt_or_eq_of_le (Nat.le_of_lt_succ bound) with earlier | rfl
  · rw [List.getElem?_append_left earlier] at present
    exact .inl ⟨earlier, present⟩
  · rw [List.getElem?_concat_length] at present
    cases present
    exact .inr ⟨rfl, rfl⟩

theorem discloses_concat {history : List Entry} {entry : Entry} {answer : Nat} {slug : String}
    (discloses : Discloses (history ++ [entry]) answer slug) :
    answer < history.length ∧ Discloses history answer slug ∨ answer = history.length ∧
      ∃ endpoint now response, entry = .answered endpoint now response ∧
        endpoint.slug? = some slug ∧ response.discloses = true := by
  obtain ⟨endpoint, now, response, answered, rest⟩ := discloses
  rcases present_concat answered with ⟨earlier, answered⟩ | ⟨final, rfl⟩
  · exact .inl ⟨earlier, endpoint, now, response, answered, rest⟩
  · exact .inr ⟨final, endpoint, now, response, rfl, rest⟩

/-- The content of a paste that burns and still stands was not returned yet. -/
theorem Held.undisclosed {history : List Entry} {origin answer : Nat} {slug : String}
    {new : NewPaste} (held : Held history origin slug new) (secrecy : Secrecy history)
    (burns : new.burnAfterRead = true) (since : Since history answer origin slug new) :
    ¬Discloses history answer slug := by
  rintro ⟨endpoint, now, response, answered, names, discloses⟩
  obtain ⟨origin', slug', new', since', names', -, -, consume⟩ :=
    secrecy.disclosed answer endpoint now response answered discloses
  cases names.symm.trans names'
  obtain ⟨rfl, rfl⟩ := since'.unique since
  have leaves := held.untouched answer _ since.before answered (consume.mp burns)
  rw [discloses] at leaves
  cases leaves

/-- Appending a justified entry keeps the record as it should be. -/
theorem Secrecy.append {history : List Entry} (secrecy : Secrecy history) {entry : Entry}
    (justified : Justified history entry) : Secrecy (history ++ [entry]) where
  disclosed := by
    intro answer endpoint now response answered discloses
    rcases present_concat answered with ⟨earlier, answered⟩ | ⟨rfl, rfl⟩
    · obtain ⟨origin, slug, new, since, rest⟩ :=
        secrecy.disclosed answer endpoint now response answered discloses
      exact ⟨origin, slug, new, (since_append earlier.le).mpr since, rest⟩
    · obtain ⟨origin, slug, new, held, rest⟩ := justified.1 discloses
      exact ⟨origin, slug, new, (since_append le_rfl).mpr held.since, rest⟩
  confirmed := by
    intro answer endpoint now isEncrypted answered
    rcases present_concat answered with ⟨earlier, answered⟩ | ⟨rfl, rfl⟩
    · obtain ⟨origin, slug, new, since, rest⟩ :=
        secrecy.confirmed answer endpoint now isEncrypted answered
      exact ⟨origin, slug, new, (since_append earlier.le).mpr since, rest⟩
    · obtain ⟨origin, slug, new, held, rest⟩ := justified.2 isEncrypted rfl
      exact ⟨origin, slug, new, (since_append le_rfl).mpr held.since, rest⟩
  once := by
    intro origin slug new first second burns since discloses since' discloses'
    -- When the last entry returns the content, no earlier one did.
    have final {earlier : Nat} {endpoint : Endpoint} {now : Time} {response : Response}
        (last : entry = .answered endpoint now response) (names : endpoint.slug? = some slug)
        (returned : response.discloses = true)
        (sinceLast : Since (history ++ [entry]) history.length origin slug new)
        (before : earlier < history.length)
        (since : Since (history ++ [entry]) earlier origin slug new) :
        ¬Discloses history earlier slug := by
      subst last
      obtain ⟨origin', slug', new', held, names', -⟩ := justified.1 returned
      cases names.symm.trans names'
      obtain ⟨rfl, rfl⟩ := held.since.unique ((since_append le_rfl).mp sinceLast)
      exact held.undisclosed secrecy burns ((since_append before.le).mp since)
    rcases discloses_concat discloses with ⟨before, old⟩ | ⟨rfl, _, _, _, last, names, returned⟩ <;>
      rcases discloses_concat discloses' with
        ⟨before', old'⟩ | ⟨rfl, _, _, _, last', names', returned'⟩
    · exact secrecy.once origin slug new first second burns ((since_append before.le).mp since) old
        ((since_append before'.le).mp since') old'
    · exact absurd old (final last' names' returned' since' before since)
    · exact absurd old' (final last names returned since before' since')
    · rfl

/-! ## Statements keep the invariant -/

theorem standing_empty : Standing Table.empty [] := by
  intro slug row found
  cases found

theorem secrecy_nil : Secrecy [] where
  disclosed answer endpoint now response answered := by cases answered
  confirmed answer endpoint now isEncrypted answered := by cases answered
  once origin slug new first second _ since := by cases since.stored

theorem Standing.append {table : Table} {history : List Entry} (standing : Standing table history)
    {entry : Entry} (leaves : ∀ slug, entry.leaves slug) : Standing table (history ++ [entry]) := by
  intro slug row found
  obtain ⟨origin, new, held, rest⟩ := standing slug row found
  exact ⟨origin, new, held.append (leaves slug), rest⟩

theorem Standing.keep {table : Table} {history : List Entry} (standing : Standing table history)
    (condition : Row → Bool) : Standing (table.keep condition) history := by
  intro slug row found
  exact standing slug row (Table.row?_keep.mp found).1

/-- A stored paste stands. -/
theorem Standing.create {table table' : Table} {history : List Entry}
    (standing : Standing table history) {slug : String} {new : NewPaste} {paste : StoredPaste}
    (created : table.create slug new = .ok (paste, table'))
    (checked : new.content.version = 1) :
    Standing table' (history ++ [.stored slug new]) := by
  intro other row found
  have inserted : table.insert (rowOf slug new) = .ok table' := by
    rw [Table.create] at created
    cases step : table.insert (rowOf slug new) with
    | error => rw [step] at created; cases created
    | ok after => rw [step] at created; cases created; rfl
  rw [Table.insert_ok inserted] at found
  split at found
  next same =>
    cases found
    cases same
    refine ⟨history.length, new, ⟨List.getElem?_concat_length .., ?_⟩, rfl, checked⟩
    intro position entry after present
    rcases present_concat present with ⟨earlier, -⟩ | ⟨rfl, -⟩ <;> omega
  next differs =>
    obtain ⟨origin, new', held, rest⟩ := standing other row found
    exact ⟨origin, new', held.append fun same => differs same.symm, rest⟩

/-- After a `consume` that returned content no row of its slug is left. -/
theorem Standing.consume {table : Table} {history : List Entry} (standing : Standing table history)
    {slug : String} {now : Time} {response : Response} {paste : StoredPaste} {at_ : Time}
    (consumed : (table.consumeActive slug at_).1 = .ok paste) :
    Standing (table.consumeActive slug at_).2
      (history ++ [.answered (.consume slug) now response]) := by
  intro other row found
  obtain ⟨present, left⟩ := Table.row?_keep.mp found
  obtain ⟨origin, new, held, rest⟩ := standing other row present
  refine ⟨origin, new, held.append ?_, rest⟩
  intro same
  cases same
  obtain ⟨row', present', burns, active, -⟩ := Table.consumeActive_ok consumed
  cases present.symm.trans present'
  have gone : Table.consumable slug at_ row = true :=
    decide_eq_true ⟨(Table.row?_eq_some.mp present).2, burns, active⟩
  rw [gone] at left
  cases left

/-! ## Answers are justified -/

/-- The response says nothing about a paste. -/
def Response.Silent (response : Response) : Prop :=
  response.discloses = false ∧ ∀ isEncrypted, response ≠ .burnConfirmation isEncrypted

theorem Response.silent_error (status : Nat) (code message : String) :
    (Response.error status code message).Silent := ⟨rfl, by simp⟩

theorem Response.silent_ofRequestError (error : PasteError) :
    (Response.ofRequestError error).Silent := by
  cases error <;> exact silent_error ..

theorem Response.silent_ofMiss (permitted : Bool) : (Response.ofMiss permitted).Silent := by
  cases permitted <;> exact silent_error ..

theorem Response.silent_ofGetError (permitted : Bool) (error : PasteError) :
    (Response.ofGetError permitted error).Silent := by
  rw [ofGetError]
  split
  · exact silent_ofMiss permitted
  · exact silent_error ..

theorem Response.returns_ofPaste (slug : String) (new : NewPaste) :
    (Response.ofPaste (pasteOf slug new)).Returns new.content := by
  obtain ⟨content, burn, size, expiresAt, createdAt⟩ := new
  cases content <;> exact ⟨rfl, rfl⟩

theorem Justified.of_silent {history : List Entry} {endpoint : Endpoint} {now : Time}
    {response : Response} (silent : response.Silent) :
    Justified history (.answered endpoint now response) := by
  refine ⟨fun discloses => ?_, fun isEncrypted same => absurd same (silent.2 isEncrypted)⟩
  rw [silent.1] at discloses
  cases discloses

theorem unix_normalizeTime (now : Time) : unix (normalizeTime now) = unix now := by
  unfold normalizeTime unix unixTime
  omega

theorem Delivery.result_ok {α : Type} {delivery : Delivery} {result : Except PasteError α}
    {value : α} (delivered : delivery.result result = .ok value) :
    delivery = .done ∧ result = .ok value := by
  cases delivery with
  | done => exact ⟨rfl, delivered⟩
  | failed => cases delivered
  | lost => cases delivered

/-- A row that a select finds is a paste that stands, and is scanned as that paste. -/
theorem Standing.scanned {table : Table} {history : List Entry} (standing : Standing table history)
    {slug : String} {row : Row} {paste : StoredPaste} (found : table.row? slug = some row)
    (scanned : scanPaste row = .ok paste) : ∃ origin new, Held history origin slug new ∧
      row = rowOf slug new ∧ paste = pasteOf slug new := by
  obtain ⟨origin, new, held, rfl, checked⟩ := standing slug row found
  rw [scanPaste_rowOf checked] at scanned
  cases scanned
  exact ⟨origin, new, held, rfl, rfl⟩

theorem Standing.justified_get {table : Table} {history : List Entry}
    (standing : Standing table history) (slug : String) (now : Time) (permits : Permits)
    (delivery : Delivery) : Justified history (.answered (.get slug) now
      (getResponse (delivery.result (table.getActive slug (normalizeTime now))) permits)) := by
  cases got : delivery.result (table.getActive slug (normalizeTime now)) with
  | error error => exact .of_silent (Response.silent_ofGetError _ _)
  | ok paste =>
      obtain ⟨row, found, active, scanned⟩ := Table.getActive_ok (Delivery.result_ok got).2
      obtain ⟨origin, new, held, rfl, rfl⟩ := standing.scanned found scanned
      rw [unix_normalizeTime] at active
      cases read : permits.read with
      | false =>
          simp only [getResponse, read]
          exact .of_silent (Response.silent_error ..)
      | true =>
          cases burns : new.burnAfterRead with
          | true =>
              simp only [getResponse, read, pasteOf, burns]
              exact ⟨fun discloses => (by cases discloses),
                fun _ _ => ⟨origin, slug, new, held, rfl, active, burns⟩⟩
          | false =>
              have shown := Response.returns_ofPaste slug new
              have burnsNot : (pasteOf slug new).burnAfterRead = false := burns
              simp only [getResponse, read, burnsNot]
              exact ⟨fun _ => ⟨origin, slug, new, held, rfl, shown, active, by simp [burns]⟩,
                fun _ same => (by cases same)⟩

theorem Standing.justified_raw {table : Table} {history : List Entry}
    (standing : Standing table history) (slug : String) (now : Time) (permits : Permits)
    (delivery : Delivery) : Justified history (.answered (.raw slug) now
      (rawResponse (delivery.result (table.getActive slug (normalizeTime now))) permits)) := by
  cases got : delivery.result (table.getActive slug (normalizeTime now)) with
  | error error => exact .of_silent (Response.silent_ofGetError _ _)
  | ok paste =>
      obtain ⟨row, found, active, scanned⟩ := Table.getActive_ok (Delivery.result_ok got).2
      obtain ⟨origin, new, held, rfl, rfl⟩ := standing.scanned found scanned
      rw [unix_normalizeTime] at active
      rw [rawResponse]
      split
      next => exact .of_silent (Response.silent_error ..)
      next shown =>
        rw [Bool.or_eq_true, not_or, Bool.not_eq_true, Bool.not_eq_true] at shown
        split
        next => exact .of_silent (Response.silent_error ..)
        next =>
          refine ⟨fun _ => ⟨origin, slug, new, held, rfl, ?_, active, ?_⟩,
            fun _ same => (by cases same)⟩
          · obtain ⟨content, burn, size, expiresAt, createdAt⟩ := new
            cases content with
            | plaintext payload => rfl
            | encrypted envelope => cases shown.1
          · have burns : new.burnAfterRead = false := shown.2
            simp [burns]

theorem Standing.justified_consume {table : Table} {history : List Entry}
    (standing : Standing table history) (slug : String) (now : Time) (delivery : Delivery) :
    Justified history (.answered (.consume slug) now (consumeResponse
      (delivery.result (table.consumeActive slug (normalizeTime now)).1))) := by
  cases got : delivery.result (table.consumeActive slug (normalizeTime now)).1 with
  | error error =>
      cases error <;> exact .of_silent (Response.silent_error ..)
  | ok paste =>
      obtain ⟨row, found, burns, active, scanned⟩ :=
        Table.consumeActive_ok (Delivery.result_ok got).2
      obtain ⟨origin, new, held, rfl, rfl⟩ := standing.scanned found scanned
      rw [unix_normalizeTime] at active
      exact ⟨fun _ => ⟨origin, slug, new, held, rfl, Response.returns_ofPaste slug new, active,
        ⟨fun _ => rfl, fun _ => burns⟩⟩, fun _ same => (by cases same)⟩

/-! ## Runs -/

/-- The invariant of a run. -/
structure Kept (system : System) : Prop where
  standing : Standing system.table system.history
  secrecy : Secrecy system.history
  checked : ∀ task ∈ system.tasks, task.Checked

/-- What a statement of a task leaves. -/
structure Progress.Sound (progress : Progress) (history : List Entry) : Prop where
  standing : Standing progress.table (history ++ progress.entries)
  secrecy : Secrecy (history ++ progress.entries)
  checked : ∀ next ∈ progress.next, next.Checked

theorem leaves_of_endpoint {endpoint : Endpoint} (other : ∀ slug, endpoint ≠ .consume slug)
    (now : Time) (response : Response) (slug : String) :
    Entry.leaves slug (.answered endpoint now response) :=
  fun same => absurd same (other slug)

/-- A statement that only answers, and does not answer a `consume`. -/
theorem sound_answer {table : Table} {history : List Entry} {endpoint : Endpoint} {now : Time}
    {response : Response} (standing : Standing table history) (secrecy : Secrecy history)
    (other : ∀ slug, endpoint ≠ .consume slug)
    (justified : Justified history (.answered endpoint now response)) :
    Progress.Sound ⟨table, [.answered endpoint now response], none⟩ history where
  standing := standing.append (leaves_of_endpoint other now response)
  secrecy := secrecy.append justified
  checked next present := by cases present

theorem sound_stored {table table' : Table} {history : List Entry} {slug : String}
    {new : NewPaste} {paste : StoredPaste} {now : Time} {response : Response}
    (standing : Standing table history) (secrecy : Secrecy history)
    (checked : new.content.version = 1) (created : table.create slug new = .ok (paste, table'))
    (silent : response.Silent) :
    Progress.Sound ⟨table', [.stored slug new, .answered .create now response], none⟩ history := by
  have stands := standing.create created checked
  have secret : Secrecy (history ++ [.stored slug new]) := secrecy.append trivial
  have answered : Progress.Sound ⟨table', [.answered .create now response], none⟩
      (history ++ [.stored slug new]) :=
    sound_answer stands secret (by simp) (.of_silent silent)
  refine ⟨?_, ?_, answered.checked⟩
  · simpa using answered.standing
  · simpa using answered.secrecy

theorem sound_insertAttempt (options : Options) {table : Table} {history : List Entry}
    (standing : Standing table history) (secrecy : Secrecy history) {new : NewPaste}
    (checked : new.content.version = 1) (now : Time) (attempt : Nat)
    (surroundings : Surroundings) :
    (insertAttempt options table new now attempt surroundings).Sound history := by
  have fails (error : PasteError) :
      Progress.Sound ⟨table, [.answered .create now (.ofRequestError error)], none⟩ history :=
    sound_answer standing secrecy (by simp) (.of_silent (Response.silent_ofRequestError error))
  rw [insertAttempt]
  split
  next => exact fails .storage
  next =>
    split
    next => exact fails .storage
    next slug generated =>
      cases delivery : surroundings.delivery with
      | failed => exact fails .storage
      | lost =>
          cases created : table.create slug new with
          | error error => exact fails .storage
          | ok result =>
              exact sound_stored standing secrecy checked created
                (Response.silent_ofRequestError .storage)
      | done =>
          cases created : table.create slug new with
          | error error =>
              cases error
              case slugCollision =>
                dsimp only
                split
                next =>
                  refine ⟨by simpa using standing, by simpa using secrecy, ?_⟩
                  rintro next ⟨⟩
                  exact checked
                next => exact fails .attemptsExhausted
              all_goals exact fails _
          | ok result =>
              exact sound_stored standing secrecy checked created ⟨rfl, by simp⟩

theorem sound_execute (options : Options) {table : Table} {history : List Entry}
    (standing : Standing table history) (secrecy : Secrecy history) {task : Task}
    (checked : task.Checked) (surroundings : Surroundings) :
    (execute options table task surroundings).Sound history := by
  cases task with
  | create new now attempt =>
      exact sound_insertAttempt options standing secrecy checked now attempt surroundings
  | get slug now permits =>
      exact sound_answer standing secrecy (by simp)
        (standing.justified_get slug now permits surroundings.delivery)
  | raw slug now permits =>
      exact sound_answer standing secrecy (by simp)
        (standing.justified_raw slug now permits surroundings.delivery)
  | consume slug now =>
      refine ⟨?_, secrecy.append (standing.justified_consume slug now surroundings.delivery),
        fun next present => (by cases present)⟩
      cases consumed : surroundings.delivery.result
          (table.consumeActive slug (normalizeTime now)).1 with
      | ok paste =>
          obtain ⟨done, found⟩ := Delivery.result_ok consumed
          simp only [execute, done]
          exact standing.consume found
      | error error =>
          have silent : (consumeResponse (.error error)).Silent := by
            cases error <;> exact Response.silent_error ..
          have stands : Standing (surroundings.delivery.after table
              (table.consumeActive slug (normalizeTime now)).2) history := by
            cases surroundings.delivery
            case failed => exact standing
            all_goals exact standing.keep _
          simp only [execute, consumed]
          exact stands.append fun _ _ => silent.1
  | cleanup now batch =>
      have stands : Standing (surroundings.delivery.after table
          (table.deleteExpiredBatch now options.batchSize).2) history := by
        have deleted : Standing (table.deleteExpiredBatch now options.batchSize).2 history := by
          rw [Table.deleteExpiredBatch]
          split
          next => exact standing
          next => exact standing.keep _
        cases surroundings.delivery
        case failed => exact standing
        all_goals exact deleted
      refine ⟨by simpa [execute] using stands, by simpa [execute] using secrecy, ?_⟩
      intro next present
      simp only [execute] at present
      split at present
      next => cases present
      next =>
        split at present
        next => cases present
        next =>
          split at present
          next => cases present; trivial
          next => cases present

theorem bind_eq_ok {α β : Type} {first : Except PasteError α} {next : α → Except PasteError β}
    {value : β} : (first >>= next) = .ok value ↔ ∃ middle, first = .ok middle ∧
      next middle = .ok value := by
  cases first <;> simp [bind, Except.bind]

theorem version_of_createPlaintext {options : Options} {payload : PlaintextPayload}
    {expiry : String} {burn : Bool} {now : Time} {new : NewPaste}
    (created : createPlaintext options payload expiry burn now = .ok new) :
    new.content.version = 1 := by
  simp only [createPlaintext, bind_eq_ok] at created
  obtain ⟨_, valid, _, _, same⟩ := created
  cases same
  exact version_of_validatePlaintext valid

theorem version_of_createEncrypted {options : Options} {envelope : CiphertextEnvelope}
    {expiry : String} {burn : Bool} {now : Time} {new : NewPaste}
    (created : createEncrypted options envelope expiry burn now = .ok new) :
    new.content.version = 1 := by
  simp only [createEncrypted, bind_eq_ok] at created
  obtain ⟨_, _, _, valid, _, _, same⟩ := created
  cases same
  exact version_of_validateCiphertextEnvelope valid

theorem version_of_createPaste {options : Options} {request : CreatePasteRequest} {now : Time}
    {new : NewPaste} (created : createPaste options request now = .ok new) :
    new.content.version = 1 := by
  rw [createPaste] at created
  split at created
  next =>
    split at created
    next => cases created
    next =>
      obtain ⟨_, _, created⟩ := bind_eq_ok.mp created
      exact version_of_createPlaintext created
  next =>
    split at created
    next =>
      simp only [bind_eq_ok] at created
      obtain ⟨_, _, _, _, _, _, created⟩ := created
      exact version_of_createEncrypted created
    next => cases created

/-- A handler that answers at once says nothing about a paste; otherwise its paste is checked. -/
theorem arrive_spec (options : Options) (request : Request) (permits : Permits) (now : Time) :
    match arrive options request permits now with
    | .inl response => response.Silent
    | .inr task => task.Checked := by
  cases request with
  | create body =>
      rw [arrive]
      cases options.creationEnabled with
      | false => exact Response.silent_error ..
      | true =>
          cases permits.create with
          | false => exact Response.silent_error ..
          | true =>
              simp only [Bool.not_true, Bool.false_eq_true, if_false]
              cases created : body.bind fun request => createPaste options request now with
              | error error => exact Response.silent_ofRequestError error
              | ok new =>
                  cases body with
                  | error error => cases created
                  | ok request => exact version_of_createPaste created
  | get slug =>
      rw [arrive]
      cases validSlug slug with
      | false => exact Response.silent_ofMiss _
      | true => trivial
  | raw slug =>
      rw [arrive]
      cases validSlug slug with
      | false => exact Response.silent_ofMiss _
      | true => trivial
  | consume slug =>
      rw [arrive]
      cases validSlug slug with
      | false => exact Response.silent_error ..
      | true =>
          cases permits.consume && permits.consumeSlug with
          | false => exact Response.silent_error ..
          | true => trivial

theorem Kept.step {options : Options} {system : System} (kept : Kept system) (event : Event) :
    Kept (system.step options event) := by
  cases event with
  | arrive request permits now =>
      have spec := arrive_spec options request permits now
      rw [System.step]
      cases arrived : arrive options request permits now with
      | inl response =>
          rw [arrived] at spec
          exact ⟨kept.standing.append fun _ _ => spec.1, kept.secrecy.append (.of_silent spec),
            kept.checked⟩
      | inr task =>
          rw [arrived] at spec
          refine ⟨kept.standing, kept.secrecy, fun other member => ?_⟩
          rcases List.mem_append.mp member with old | single
          · exact kept.checked other old
          · rw [List.mem_singleton.mp single]
            exact spec
  | cleanup now =>
      refine ⟨kept.standing, kept.secrecy, fun other member => ?_⟩
      rcases List.mem_append.mp member with old | single
      · exact kept.checked other old
      · rw [List.mem_singleton.mp single]
        trivial
  | execute index surroundings =>
      rw [System.step]
      cases inFlight : system.tasks[index]? with
      | none => exact kept
      | some task =>
          have sound := sound_execute options kept.standing kept.secrecy
            (kept.checked task (List.mem_of_getElem? inFlight)) surroundings
          refine ⟨sound.standing, sound.secrecy, fun other member => ?_⟩
          cases next : (execute options system.table task surroundings).next with
          | none =>
              simp only [next] at member
              exact kept.checked other (List.mem_of_mem_eraseIdx member)
          | some rest =>
              simp only [next] at member
              rcases List.mem_or_eq_of_mem_set member with old | rfl
              · exact kept.checked other old
              · exact sound.checked other next
  | abandon index =>
      exact ⟨kept.standing, kept.secrecy, fun other member =>
        kept.checked other (List.mem_of_mem_eraseIdx member)⟩

theorem run_kept (options : Options) (events : List Event) : Kept (run options events) :=
  List.foldlRecOn events _ ⟨standing_empty, secrecy_nil, by simp⟩
    fun _ kept event _ => kept.step event

/-- A batch of the cleanup does not change what a read at its time returns. -/
theorem getActive_deleteExpiredBatch (table : Table) (now : Time) (limit : Nat) (slug : String) :
    (table.deleteExpiredBatch now limit).2.getActive slug now = table.getActive slug now := by
  have named (row : Row) (holds : decide (row.slug = slug ∧ row.expiresAt > unix now) = true) :
      row.slug = slug := (of_decide_eq_true holds).1
  have same : ((table.deleteExpiredBatch now limit).2.rows.find? fun row =>
        row.slug = slug ∧ row.expiresAt > unix now) =
      table.rows.find? fun row => row.slug = slug ∧ row.expiresAt > unix now := by
    apply Option.ext
    intro row
    rw [Table.find?_eq_some named, Table.find?_eq_some named, and_congr_left_iff]
    intro holds
    exact Table.deleteExpiredBatch_row? (of_decide_eq_true holds).2
  rw [Table.getActive, same, Table.getActive]

/-- In every run, with requests, cleanup passes and their statements in any order and at any times:
the record keeps the secrecy of pastes that burn after reading, no `consume` deletes another paste,
and no batch of the cleanup changes what a read at its time returns. -/
theorem burn_after_read (options : Options) (events : List Event) :
    Secrecy (run options events).history ∧
      (∀ index surroundings slug now,
        (run options events).tasks[index]? = some (.consume slug now) →
        ∀ row ∈ (run options events).table.rows, row.burnAfterRead = false →
          row ∈ ((run options events).step options (.execute index surroundings)).table.rows) ∧
      ∀ index surroundings now batch,
        (run options events).tasks[index]? = some (.cleanup now batch) →
        ∀ slug, ((run options events).step options
            (.execute index surroundings)).table.getActive slug now =
          (run options events).table.getActive slug now := by
  refine ⟨(run_kept options events).secrecy, ?_, ?_⟩
  · intro index surroundings slug now inFlight row member lasting
    have kept : row ∈ ((run options events).table.consumeActive slug (normalizeTime now)).2.rows :=
      List.mem_filter.mpr ⟨member, by simp [Table.consumable, lasting]⟩
    simp only [System.step, inFlight, execute]
    cases surroundings.delivery
    case failed => exact member
    all_goals exact kept
  · intro index surroundings now batch inFlight slug
    simp only [System.step, inFlight, execute]
    cases surroundings.delivery
    case failed => rfl
    all_goals exact getActive_deleteExpiredBatch _ now _ slug

end Oxbin.Paste
