import Oxbin.Paste.Store

/-!
# Requests for pastes

The handlers of `internal/httpapi/pastes.go` over the service of `internal/paste/service.go`, and
the passes of `internal/cleanup/worker.go`.  A request is in flight from its arrival to its answer;
between two of its statements those of other requests may run.
-/

namespace Oxbin.Paste

open Live (Time unix unixTime byteLen)

/-! ## The service -/

/-- `normalizeTime`. -/
def normalizeTime (value : Time) : Time := unixTime (unix value)

/-- `ExpiryPolicy`, with what `NewExpiryPolicy` checks. -/
structure ExpiryPolicy where
  allowed : Keyed Int
  nonempty : allowed.keys ≠ []
  named : "" ∉ allowed.keys
  bounded : ∀ entry ∈ allowed.entries, 0 < entry.2 ∧ entry.2 ≤ 72 * 3600000000000

/-- `DefaultExpiryPolicy`. -/
def defaultExpiryPolicy : ExpiryPolicy where
  allowed := ⟨[⟨"1h", 3600000000000⟩, ⟨"24h", 24 * 3600000000000⟩, ⟨"72h", 72 * 3600000000000⟩],
    by simp [List.NodupKeys, List.keys]⟩
  nonempty := by decide
  named := by decide
  bounded := by decide

/-- `ExpiryPolicy.ExpiresAt`. -/
def ExpiryPolicy.expiresAt (policy : ExpiryPolicy) (identifier : String) (now : Time) :
    Except PasteError Time :=
  match policy.allowed.lookup identifier with
  | none => .error .invalidExpiry
  | some duration => .ok (normalizeTime now + duration)

/-- The configuration of the API, the service and the worker. -/
structure Options where
  creationEnabled : Bool
  pasteURL : String → String
  expiries : ExpiryPolicy
  contentLimit : Int
  batchSize : Nat
  maxBatches : Nat
  contentLimit_range : 1 ≤ contentLimit ∧ contentLimit ≤ maxContentBytes
  batches_pos : 1 ≤ batchSize ∧ 1 ≤ maxBatches

/-- `CreatePlaintext`, up to the insertion. -/
def createPlaintext (options : Options) (payload : PlaintextPayload) (expiry : String)
    (burnAfterRead : Bool) (now : Time) : Except PasteError NewPaste := do
  validatePlaintext payload options.contentLimit
  let createdAt := normalizeTime now
  let expiresAt ← options.expiries.expiresAt expiry createdAt
  .ok {
    content := .plaintext payload
    burnAfterRead := burnAfterRead
    contentSize := byteLen payload.content
    expiresAt := expiresAt
    createdAt := createdAt }

/-- `CreateEncrypted`, up to the insertion. -/
def createEncrypted (options : Options) (envelope : CiphertextEnvelope) (expiry : String)
    (burnAfterRead : Bool) (now : Time) : Except PasteError NewPaste := do
  let limit ← encryptedPayloadLimit options.contentLimit
  let contentSize ← validateCiphertextEnvelope envelope limit
  let createdAt := normalizeTime now
  let expiresAt ← options.expiries.expiresAt expiry createdAt
  .ok {
    content := .encrypted envelope
    burnAfterRead := burnAfterRead
    contentSize := contentSize
    expiresAt := expiresAt
    createdAt := createdAt }

/-! ## The API -/

/-- `createPasteRequest`; the payload is the raw message. -/
structure CreatePasteRequest where
  mode : String
  payload : List UInt8
  expiry : String
  burnAfterRead : Bool

/-- `pasteResponse`. -/
structure PasteResponse where
  slug : String
  payload : Option PlaintextPayload
  envelope : Option CiphertextEnvelope
  isEncrypted : Bool
  cryptoVersion : Option Int
  burnAfterRead : Bool
  expiresAt : Time
  createdAt : Time
  deriving DecidableEq

/-- What the API answers. -/
inductive Response where
  | created (slug url : String) (expiresAt : Time)
  | burnConfirmation (isEncrypted : Bool)
  | paste (response : PasteResponse)
  | text (content : String)
  | error (status : Nat) (code message : String)
  deriving DecidableEq

namespace Response

def notFound : Response := .error 404 "not_found" "Not found"
def rateLimited : Response := .error 429 "rate_limited" "Too many requests"
def unavailable : Response :=
  .error 503 "service_unavailable" "Service is temporarily unavailable"

/-- `writeRequestError`. -/
def ofRequestError : PasteError → Response
  | .payloadTooLarge => .error 413 "payload_too_large" "Paste is too large"
  | .invalidPayload | .invalidExpiry => .error 400 "invalid_request" "Invalid paste request"
  | _ => unavailable

/-- `writeMiss`; `permitted` is the answer of the limiter of misses. -/
def ofMiss (permitted : Bool) : Response := if permitted then notFound else rateLimited

/-- `writeGetError`. -/
def ofGetError (permitted : Bool) (error : PasteError) : Response :=
  if error = .notFound then ofMiss permitted else unavailable

/-- `responseForPaste`. -/
def ofPaste (result : StoredPaste) : Response :=
  .paste {
    slug := result.slug
    payload := if result.isEncrypted then none else some result.payload
    envelope := if result.isEncrypted then result.envelope else none
    isEncrypted := result.isEncrypted
    cryptoVersion := if result.isEncrypted then some result.cryptoVersion else none
    burnAfterRead := result.burnAfterRead
    expiresAt := result.expiresAt
    createdAt := result.createdAt }

end Response

/-- `decodePayload`. -/
def decodePayload {α : Type} (decode : Bool → Json → Option α) (raw : List UInt8) :
    Except PasteError α :=
  match (Json.parse (Utf8.decode raw)).bind (decode true) with
  | none => .error .invalidPayload
  | some payload => .ok payload

/-- `createPaste`, up to the insertion. -/
def createPaste (options : Options) (request : CreatePasteRequest) (now : Time) :
    Except PasteError NewPaste :=
  if request.mode = "plaintext" then
    if options.contentLimit + 4096 < request.payload.length then .error .payloadTooLarge
    else do
      let payload ← decodePayload decodePlaintext request.payload
      createPlaintext options payload request.expiry request.burnAfterRead now
  else if request.mode = "encrypted" then do
    let envelope ← decodePayload decodeEnvelope request.payload
    let limit ← encryptedPayloadLimit options.contentLimit
    let _ ← validateCiphertextEnvelope envelope limit
    createEncrypted options envelope request.expiry request.burnAfterRead now
  else .error .invalidPayload

/-- `validSlug`: the pattern `^[a-z]{1,128}$`. -/
def validSlug (value : String) : Bool :=
  value.toList ≠ [] ∧ value.toList.length ≤ 128 ∧
    value.toList.all fun rune => 'a' ≤ rune ∧ rune ≤ 'z'

/-- The endpoints. -/
inductive Endpoint where
  | create
  | get (slug : String)
  | raw (slug : String)
  | consume (slug : String)
  deriving DecidableEq

/-- A request; the body of a creation is what `decodeJSON` makes of it. -/
inductive Request where
  | create (body : Except PasteError CreatePasteRequest)
  | get (slug : String)
  | raw (slug : String)
  | consume (slug : String)

/-- The endpoint of a request. -/
def Request.endpoint : Request → Endpoint
  | .create _ => .create
  | .get slug => .get slug
  | .raw slug => .raw slug
  | .consume slug => .consume slug

/-- What the rate limiter answers in the course of a request. -/
structure Permits where
  create : Bool
  read : Bool
  miss : Bool
  consume : Bool
  consumeSlug : Bool

/-! ## Requests in flight -/

/-- A request or a cleanup pass before its next statement, with the time that it read. -/
inductive Task where
  | create (new : NewPaste) (now : Time) (attempt : Nat)
  | get (slug : String) (now : Time) (permits : Permits)
  | raw (slug : String) (now : Time) (permits : Permits)
  | consume (slug : String) (now : Time)
  | cleanup (now : Time) (batch : Nat)

/-- What is on record about a run: the pastes that were stored and the answers that were given. -/
inductive Entry where
  | stored (slug : String) (new : NewPaste)
  | answered (endpoint : Endpoint) (now : Time) (response : Response)
  deriving DecidableEq

/-- A handler up to its first statement. -/
def arrive (options : Options) (request : Request) (permits : Permits) (now : Time) :
    Response ⊕ Task :=
  match request with
  | .create body =>
      if !options.creationEnabled then .inl .unavailable
      else if !permits.create then .inl .rateLimited
      else
        match body.bind fun request => createPaste options request now with
        | .error error => .inl (.ofRequestError error)
        | .ok new => .inr (.create new now 1)
  | .get slug =>
      if validSlug slug then .inr (.get slug now permits) else .inl (.ofMiss permits.miss)
  | .raw slug =>
      if validSlug slug then .inr (.raw slug now permits) else .inl (.ofMiss permits.miss)
  | .consume slug =>
      if validSlug slug then
        if permits.consume && permits.consumeSlug then .inr (.consume slug now)
        else .inl .rateLimited
      else .inl .notFound

/-- Whether a statement runs, fails without effect, or takes effect with its result lost. -/
inductive Delivery where
  | done
  | failed
  | lost
  deriving DecidableEq

/-- What a statement meets: whether the request is cancelled, the next slug of the generator, and
what becomes of the statement. -/
structure Surroundings where
  cancelled : Bool
  generated : Option String
  delivery : Delivery

/-- `slug.DefaultMaxAttempts`. -/
def defaultMaxAttempts : Nat := 8

/-- The table after a statement, the new entries of the record, and the rest of the task. -/
structure Progress where
  table : Table
  entries : List Entry
  next : Option Task

/-- An attempt of `InsertWithRetry`, and the answer of `create` after the last one. -/
def insertAttempt (options : Options) (table : Table) (new : NewPaste) (now : Time)
    (attempt : Nat) (surroundings : Surroundings) : Progress :=
  let fails : Progress := ⟨table, [.answered .create now (.ofRequestError .storage)], none⟩
  if surroundings.cancelled then fails
  else
    match surroundings.generated with
    | none => fails
    | some slug =>
        match surroundings.delivery, table.create slug new with
        | .failed, _ => fails
        | .lost, .error _ => fails
        | .lost, .ok (_, table) =>
            ⟨table, [.stored slug new, .answered .create now (.ofRequestError .storage)], none⟩
        | .done, .error .slugCollision =>
            if attempt < defaultMaxAttempts then ⟨table, [], some (.create new now (attempt + 1))⟩
            else ⟨table, [.answered .create now (.ofRequestError .attemptsExhausted)], none⟩
        | .done, .error error => ⟨table, [.answered .create now (.ofRequestError error)], none⟩
        | .done, .ok (created, table) =>
            ⟨table, [.stored slug new, .answered .create now
              (.created created.slug (options.pasteURL created.slug) created.expiresAt)], none⟩

/-- What a statement answers. -/
def Delivery.result {α : Type} (delivery : Delivery) (result : Except PasteError α) :
    Except PasteError α :=
  match delivery with
  | .done => result
  | .failed | .lost => .error .storage

/-- The table after a statement. -/
def Delivery.after (delivery : Delivery) (before after : Table) : Table :=
  match delivery with
  | .failed => before
  | .done | .lost => after

/-- The answer of `get`. -/
def getResponse (result : Except PasteError StoredPaste) (permits : Permits) : Response :=
  match result with
  | .error error => .ofGetError permits.miss error
  | .ok result =>
      if !permits.read then .rateLimited
      else if result.burnAfterRead then .burnConfirmation result.isEncrypted
      else .ofPaste result

/-- The answer of `raw`. -/
def rawResponse (result : Except PasteError StoredPaste) (permits : Permits) : Response :=
  match result with
  | .error error => .ofGetError permits.miss error
  | .ok result =>
      if result.isEncrypted || result.burnAfterRead then .notFound
      else if !permits.read then .rateLimited
      else .text result.payload.content

/-- The answer of `consume`. -/
def consumeResponse (result : Except PasteError StoredPaste) : Response :=
  match result with
  | .error .notFound => .notFound
  | .error _ => .unavailable
  | .ok result => .ofPaste result

/-- The next statement of a task. -/
def execute (options : Options) (table : Table) (task : Task) (surroundings : Surroundings) :
    Progress :=
  let delivery := surroundings.delivery
  match task with
  | .create new now attempt => insertAttempt options table new now attempt surroundings
  | .get slug now permits =>
      let result := delivery.result (table.getActive slug (normalizeTime now))
      ⟨table, [.answered (.get slug) now (getResponse result permits)], none⟩
  | .raw slug now permits =>
      let result := delivery.result (table.getActive slug (normalizeTime now))
      ⟨table, [.answered (.raw slug) now (rawResponse result permits)], none⟩
  | .consume slug now =>
      let consumed := table.consumeActive slug (normalizeTime now)
      ⟨delivery.after table consumed.2,
        [.answered (.consume slug) now (consumeResponse (delivery.result consumed.1))], none⟩
  | .cleanup now batch =>
      let deleted := table.deleteExpiredBatch now options.batchSize
      ⟨delivery.after table deleted.2, [],
        match delivery.result deleted.1 with
        | .error _ => none
        | .ok count =>
            if count < options.batchSize then none
            else if batch + 1 < options.maxBatches then some (.cleanup now (batch + 1))
            else none⟩

/-! ## Runs -/

/-- The database, the tasks in flight, and the record of the run, oldest entry first. -/
structure System where
  table : Table
  tasks : List Task
  history : List Entry

/-- What happens next: a request arrives, a cleanup pass begins, a task in flight runs its next
statement, or it goes away, as all do when the process stops. -/
inductive Event where
  | arrive (request : Request) (permits : Permits) (now : Time)
  | cleanup (now : Time)
  | execute (index : Nat) (surroundings : Surroundings)
  | abandon (index : Nat)

/-- One event. -/
def System.step (options : Options) (system : System) : Event → System
  | .arrive request permits now =>
      match Paste.arrive options request permits now with
      | .inl response =>
          { system with history := system.history ++ [.answered request.endpoint now response] }
      | .inr task => { system with tasks := system.tasks ++ [task] }
  | .cleanup now => { system with tasks := system.tasks ++ [.cleanup now 0] }
  | .execute index surroundings =>
      match system.tasks[index]? with
      | none => system
      | some task =>
          let progress := Paste.execute options system.table task surroundings
          { table := progress.table
            tasks := match progress.next with
              | none => system.tasks.eraseIdx index
              | some next => system.tasks.set index next
            history := system.history ++ progress.entries }
  | .abandon index => { system with tasks := system.tasks.eraseIdx index }

/-- A run from the empty database. -/
def run (options : Options) (events : List Event) : System :=
  events.foldl (System.step options) ⟨Table.empty, [], []⟩

end Oxbin.Paste
