import Oxbin.Live.Contract

/-!
# Validation

The validators of `internal/live/validation.go` and `internal/live/identity.go`.  A Lean string
is valid UTF-8, so the checks for that are left out.
-/

namespace Oxbin.Live

/-- Check a condition. -/
def require (condition : Prop) [Decidable condition] (error : LiveError) : Except LiveError Unit :=
  if condition then .ok () else .error error

@[simp] theorem require_eq_ok {condition : Prop} [Decidable condition] {error : LiveError}
    {value : Unit} : require condition error = .ok value ↔ condition := by
  simp [require]

theorem ok_of_any {α ε : Type} {result : Except ε α} {holds : α → Bool}
    (some : result.toOption.any holds = true) :
    ∃ value, result = .ok value ∧ holds value = true := by
  cases result with
  | ok value => exact ⟨value, rfl, some⟩
  | error error => cases some

theorem ok_of_toOption {α ε : Type} {result : Except ε α} {value : α}
    (found : result.toOption = some value) : result = .ok value := by
  cases result with
  | error error => cases found
  | ok other => exact congrArg Except.ok (Option.some_inj.mp found)

theorem ok_getD {α ε : Type} {result : Except ε α} (succeeds : result.toOption.isSome = true)
    (default : α) : result = .ok (result.toOption.getD default) := by
  cases result with
  | error error => cases succeeds
  | ok value => rfl

/-- A loop that may fail keeps what each of its steps keeps. -/
theorem foldlM_preserves {α β ε : Type} {step : α → β → Except ε α} (holds : α → Prop)
    (preserves : ∀ state item next, step state item = .ok next → holds state → holds next)
    {items : List β} {state final : α} (fold : items.foldlM step state = .ok final)
    (start : holds state) : holds final := by
  induction items generalizing state with
  | nil =>
      cases fold
      exact start
  | cons item items induction =>
      rw [List.foldlM_cons] at fold
      cases next : step state item with
      | error error =>
          rw [next] at fold
          cases fold
      | ok middle =>
          rw [next] at fold
          exact induction fold (preserves state item middle next start)

/-- `unicode.IsSpace`. -/
def isSpace (rune : Char) : Bool :=
  let code := rune.toNat
  (9 ≤ code ∧ code ≤ 13) ∨ code = 0x20 ∨ code = 0x85 ∨ code = 0xA0 ∨ code = 0x1680 ∨
    (0x2000 ≤ code ∧ code ≤ 0x200A) ∨ code = 0x2028 ∨ code = 0x2029 ∨ code = 0x202F ∨
    code = 0x205F ∨ code = 0x3000

/-- `unicode.IsControl`. -/
def isControl (rune : Char) : Bool :=
  rune.toNat < 0x20 ∨ (0x7F ≤ rune.toNat ∧ rune.toNat < 0xA0)

/-- `strings.TrimSpace` on characters. -/
def trimSpace (runes : List Char) : List Char :=
  ((runes.dropWhile isSpace).reverse.dropWhile isSpace).reverse

/-- `strings.TrimSpace(value) == value`. -/
def Trimmed (value : String) : Prop := trimSpace value.toList = value.toList

instance (value : String) : Decidable (Trimmed value) := inferInstanceAs (Decidable (_ = _))

/-- `NameKey`. -/
def nameKey [Host] (value : String) : String :=
  Host.toLower (String.ofList (trimSpace value.toList))

/-- The labels that `validateLabel` admits. -/
def LabelValid (maxBytes : Int) (value : String) : Prop :=
  value ≠ "" ∧ byteLen value ≤ maxBytes ∧ Trimmed value ∧
    value.toList.all fun rune => !isControl rune

instance (maxBytes : Int) (value : String) : Decidable (LabelValid maxBytes value) :=
  inferInstanceAs (Decidable (_ ∧ _))

/-- `ValidateNickname`. -/
def validateNickname (value : String) : Except LiveError Unit :=
  require (LabelValid 32 value) .invalidNickname

/-- `ValidateTabName`. -/
def validateTabName (value : String) : Except LiveError Unit :=
  require (LabelValid 64 value) .invalidTabName

/-- `languageIDs`. -/
def languageIDs : List String :=
  ["plaintext", "javascript", "typescript", "html", "python", "go", "c", "cpp", "java", "rust"]

/-- `ValidateLanguageID`. -/
def validateLanguageID (value : String) : Except LiveError Unit :=
  require (value ≠ "" ∧ byteLen value ≤ 64 ∧ value ∈ languageIDs) .invalidLanguage

/-- The characters of a document ID. -/
def documentIDChar (rune : Char) : Bool :=
  ('a' ≤ rune ∧ rune ≤ 'z') ∨ ('0' ≤ rune ∧ rune ≤ '9') ∨ rune = '-' ∨ rune = '_'

/-- `ValidateDocumentID`. -/
def validateDocumentID (value : String) : Except LiveError Unit :=
  require (value ≠ "" ∧ byteLen value ≤ 64 ∧ value.toList.all documentIDChar ∧
    value.toList.head? ≠ some '-') .invalidDocumentID

/-- `ValidateDocumentContent`. -/
def validateDocumentContent (value : String) (maxBytes : Int) : Except LiveError Unit :=
  require (0 ≤ maxBytes ∧ byteLen value ≤ maxBytes) .invalidContent

/-- `operationKinds`. -/
def operationKinds : List String :=
  ["join", "push_changes", "document_create", "document_update", "document_delete",
    "document_reorder", "presence", "participant_rename", "ack"]

/-- `ValidateRoomOperation`. -/
def validateRoomOperation (kind : String) : Except LiveError Unit :=
  require (kind ∈ operationKinds) .invalidOperation

/-- The loop of `ValidateDocumentOrder`. -/
def validateDistinctIDs : List String → List String → Except LiveError Unit
  | _, [] => .ok ()
  | seen, id :: ids => do
      validateDocumentID id
      require (id ∉ seen) .invalidOperation
      validateDistinctIDs (id :: seen) ids

/-- `ValidateDocumentOrder`. -/
def validateDocumentOrder (ids : List String) (maxTabs : Int) : Except LiveError Unit := do
  require (1 ≤ maxTabs ∧ ids ≠ [] ∧ (ids.length : Int) ≤ maxTabs) .invalidOperation
  validateDistinctIDs [] ids

/-- `ValidLayoutPreset`. -/
def validLayoutPreset (preset : String) : Bool :=
  preset ∈ ["single", "columns", "rows", "three", "grid"]

/-- The characters of an opaque identifier. -/
def opaqueChar (rune : Char) : Bool :=
  ('a' ≤ rune ∧ rune ≤ 'z') ∨ ('A' ≤ rune ∧ rune ≤ 'Z') ∨ ('0' ≤ rune ∧ rune ≤ '9') ∨
    rune = '-' ∨ rune = '_'

/-- `validateOpaqueIdentifier`. -/
def validateOpaqueIdentifier (value : String) (maxBytes : Int) (sentinel : LiveError) :
    Except LiveError Unit :=
  require (value ≠ "" ∧ byteLen value ≤ maxBytes ∧ value.toList.all opaqueChar)
    sentinel

/-- `JoinIdentity`. -/
structure JoinIdentity where
  participantCredential : String
  connectionID : String
  clientID : String
  preferredName : String
  preferredNameSet : Bool
  deriving DecidableEq, Repr

/-- `JoinIdentity.Validate`. -/
def JoinIdentity.validate (identity : JoinIdentity) : Except LiveError Unit := do
  validateOpaqueIdentifier identity.participantCredential 128 .invalidParticipantCredential
  validateOpaqueIdentifier identity.connectionID 128 .invalidConnectionID
  validateOpaqueIdentifier identity.clientID 128 .invalidClientID
  if identity.preferredNameSet then validateNickname identity.preferredName else .ok ()

/-- `ParticipantIDForRoom`. -/
def participantIDForRoom [Host] (slug credential : String) : Except LiveError String := do
  require (slug ≠ "") .invalidParticipantCredential
  validateOpaqueIdentifier credential 128 .invalidParticipantCredential
  .ok (Host.participantID slug credential)

end Oxbin.Live
