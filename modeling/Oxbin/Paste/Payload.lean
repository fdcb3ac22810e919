import Oxbin.Data.JsonWriting
import Oxbin.Live.Contract

/-!
# Payloads of pastes

The two kinds of content of `internal/paste/paste.go`, their checks, and their JSON: as requests
bring it and as the column `payload` keeps it.
-/

namespace Oxbin.Paste

open Live (byteLen)

/-- `PlaintextPayload`. -/
structure PlaintextPayload where
  version : Int
  title : String
  language : String
  content : String
  deriving DecidableEq

/-- `CiphertextEnvelope`. -/
structure CiphertextEnvelope where
  version : Int
  algorithm : String
  iv : String
  ciphertext : String
  deriving DecidableEq

/-- The errors of `paste.go`, and those that other packages return. -/
inductive PasteError where
  | invalidPayload
  | payloadTooLarge
  | invalidExpiry
  | notFound
  | slugCollision
  | attemptsExhausted
  | limit
  | slug
  | storage
  deriving DecidableEq, Repr

def plaintextVersion : Int := 1
def maxContentBytes : Int := 1048576
def maxTitleBytes : Int := 200
def maxLanguageBytes : Int := 64
def cryptoVersion : Int := 1
def cryptoAlgorithm : String := "A256GCM"
def aesGCMIVBytes : Nat := 12
def aesGCMTagBytes : Nat := 16
def maxEnvelopeBytes : Int := maxContentBytes + 4096

/-! ## Checks -/

/-- `ValidatePlaintext`; strings that the decoder returns are valid UTF-8. -/
def validatePlaintext (payload : PlaintextPayload) (limit : Int) : Except PasteError Unit :=
  if payload.version ≠ plaintextVersion then .error .invalidPayload
  else if limit < 1 ∨ maxContentBytes < limit then .error .limit
  else if limit < byteLen payload.content then .error .payloadTooLarge
  else if maxTitleBytes < byteLen payload.title then .error .invalidPayload
  else if maxLanguageBytes < byteLen payload.language then .error .invalidPayload
  else if payload.content = "" then .error .invalidPayload
  else .ok ()

/-- The value of a character of the URL alphabet. -/
def sextet (rune : Char) : Option Nat :=
  if 'A' ≤ rune ∧ rune ≤ 'Z' then some (rune.toNat - 'A'.toNat)
  else if 'a' ≤ rune ∧ rune ≤ 'z' then some (rune.toNat - 'a'.toNat + 26)
  else if '0' ≤ rune ∧ rune ≤ '9' then some (rune.toNat - '0'.toNat + 52)
  else if rune = '-' then some 62
  else if rune = '_' then some 63
  else none

/-- The bytes of groups of four characters; the bits that a last shorter group leaves over are
zero. -/
def decodeSextets : List Nat → Option (List Nat)
  | [] => some []
  | [_] => none
  | [a, b] => if b % 16 = 0 then some [a * 4 + b / 16] else none
  | [a, b, c] => if c % 4 = 0 then some [a * 4 + b / 16, b % 16 * 16 + c / 4] else none
  | a :: b :: c :: d :: sextets =>
      (decodeSextets sextets).map fun bytes =>
        (a * 4 + b / 16) :: (b % 16 * 16 + c / 4) :: (c % 4 * 64 + d) :: bytes

/-- `decodeBase64url`.  The decoder passes over line breaks, but the comparison with the encoded
bytes does not. -/
def decodeBase64url (value : String) : Option (List Nat) :=
  if value = "" then none else (value.toList.mapM sextet).bind decodeSextets

/-- `ValidateCiphertextEnvelope`: the size of the ciphertext. -/
def validateCiphertextEnvelope (envelope : CiphertextEnvelope) (limit : Int) :
    Except PasteError Int :=
  if envelope.version ≠ cryptoVersion ∨ envelope.algorithm ≠ cryptoAlgorithm then
    .error .invalidPayload
  else if limit < 1 ∨ maxEnvelopeBytes < limit then .error .limit
  else
    match decodeBase64url envelope.iv with
    | none => .error .invalidPayload
    | some iv =>
        if iv.length ≠ aesGCMIVBytes then .error .invalidPayload
        else
          match decodeBase64url envelope.ciphertext with
          | none => .error .invalidPayload
          | some ciphertext =>
              if ciphertext.length < aesGCMTagBytes then .error .invalidPayload
              else if limit < ciphertext.length then .error .payloadTooLarge
              else .ok ciphertext.length

/-- `EncryptedPayloadLimit`. -/
def encryptedPayloadLimit (limit : Int) : Except PasteError Int :=
  if limit < 1 ∨ maxContentBytes < limit then .error .limit else .ok (limit + 4096)

theorem version_of_validatePlaintext {payload : PlaintextPayload} {limit : Int}
    (valid : validatePlaintext payload limit = .ok ()) : payload.version = plaintextVersion := by
  by_contra other
  rw [validatePlaintext, if_pos other] at valid
  cases valid

theorem version_of_validateCiphertextEnvelope {envelope : CiphertextEnvelope} {limit size : Int}
    (valid : validateCiphertextEnvelope envelope limit = .ok size) :
    envelope.version = cryptoVersion := by
  by_contra other
  rw [validateCiphertextEnvelope, if_pos (.inl other)] at valid
  cases valid

/-! ## Structures of `encoding/json` -/

/-- What `encoding/json` compares the names of members by; two letters outside of ASCII fold to
letters of ASCII. -/
def foldRune (rune : Char) : Char :=
  if rune = '\u017f' then 's' else if rune = '\u212a' then 'k' else rune.toLower

/-- The field that a member is for. -/
def fieldNamed (fields : List String) (name : String) : Option String :=
  fields.find? fun field => field.toList.map foldRune == name.toList.map foldRune

/-- Decode a value into a string field. -/
def decodeString (old : String) : Json → Option String
  | .null => some old
  | .str value => some value
  | _ => none

/-- Decode a value into an `int` field. -/
def decodeInt (old : Int) : Json → Option Int
  | .null => some old
  | .num value => if -2 ^ 63 ≤ value ∧ value < 2 ^ 63 then some value else none
  | _ => none

/-- Decode a value into a structure.  A member with an unknown name is an error after
`DisallowUnknownFields` and has no effect otherwise. -/
def decodeStruct {α : Type} (fields : List String) (assign : String → Json → α → Option α)
    (strict : Bool) (zero : α) : Json → Option α
  | .null => some zero
  | .obj members => members.foldlM (fun decoded (name, value) =>
      match fieldNamed fields name with
      | none => if strict then none else some decoded
      | some field => assign field value decoded) zero
  | _ => none

/-- The fields of a `PlaintextPayload`. -/
def PlaintextPayload.assign (field : String) (value : Json) (payload : PlaintextPayload) :
    Option PlaintextPayload :=
  match field with
  | "version" => (decodeInt payload.version value).map ({ payload with version := · })
  | "title" => (decodeString payload.title value).map ({ payload with title := · })
  | "language" => (decodeString payload.language value).map ({ payload with language := · })
  | "content" => (decodeString payload.content value).map ({ payload with content := · })
  | _ => none

/-- The fields of a `CiphertextEnvelope`. -/
def CiphertextEnvelope.assign (field : String) (value : Json) (envelope : CiphertextEnvelope) :
    Option CiphertextEnvelope :=
  match field with
  | "version" => (decodeInt envelope.version value).map ({ envelope with version := · })
  | "algorithm" => (decodeString envelope.algorithm value).map ({ envelope with algorithm := · })
  | "iv" => (decodeString envelope.iv value).map ({ envelope with iv := · })
  | "ciphertext" =>
      (decodeString envelope.ciphertext value).map ({ envelope with ciphertext := · })
  | _ => none

/-- Decode a `PlaintextPayload`. -/
def decodePlaintext (strict : Bool) : Json → Option PlaintextPayload :=
  decodeStruct ["version", "title", "language", "content"] PlaintextPayload.assign strict
    ⟨0, "", "", ""⟩

/-- Decode a `CiphertextEnvelope`. -/
def decodeEnvelope (strict : Bool) : Json → Option CiphertextEnvelope :=
  decodeStruct ["version", "algorithm", "iv", "ciphertext"] CiphertextEnvelope.assign strict
    ⟨0, "", "", ""⟩

/-- `json.Marshal` of a `PlaintextPayload`. -/
def PlaintextPayload.json (payload : PlaintextPayload) : Json :=
  .obj [("version", .num payload.version), ("title", .str payload.title),
    ("language", .str payload.language), ("content", .str payload.content)]

/-- `json.Marshal` of a `CiphertextEnvelope`. -/
def CiphertextEnvelope.json (envelope : CiphertextEnvelope) : Json :=
  .obj [("version", .num envelope.version), ("algorithm", .str envelope.algorithm),
    ("iv", .str envelope.iv), ("ciphertext", .str envelope.ciphertext)]

/-! ## Content -/

/-- The content of a paste. -/
inductive Content where
  | plaintext (payload : PlaintextPayload)
  | encrypted (envelope : CiphertextEnvelope)
  deriving DecidableEq

namespace Content

/-- The JSON of the column `payload`. -/
def json : Content → Json
  | .plaintext payload => payload.json
  | .encrypted envelope => envelope.json

/-- The version that the content carries. -/
def version : Content → Int
  | .plaintext payload => payload.version
  | .encrypted envelope => envelope.version

/-- The text of the column is the text of a JSON document. -/
theorem parse_json (content : Content) : Json.parse content.json.text = some content.json := by
  apply Json.parse_text
  cases content <;> simp [json, PlaintextPayload.json, CiphertextEnvelope.json, Json.Writable,
    Json.maxDepth]

end Content

theorem decodePlaintext_json {payload : PlaintextPayload}
    (ranged : payload.version = plaintextVersion) (strict : Bool) :
    decodePlaintext strict payload.json = some payload := by
  have field (name : String) (known : name ∈ ["version", "title", "language", "content"]) :
      fieldNamed ["version", "title", "language", "content"] name = some name := by
    revert name
    decide
  obtain ⟨version, title, language, content⟩ := payload
  subst ranged
  simp [decodePlaintext, decodeStruct, PlaintextPayload.json, PlaintextPayload.assign, decodeInt,
    decodeString, field, plaintextVersion]

theorem decodeEnvelope_json {envelope : CiphertextEnvelope}
    (ranged : envelope.version = cryptoVersion) (strict : Bool) :
    decodeEnvelope strict envelope.json = some envelope := by
  have field (name : String) (known : name ∈ ["version", "algorithm", "iv", "ciphertext"]) :
      fieldNamed ["version", "algorithm", "iv", "ciphertext"] name = some name := by
    revert name
    decide
  obtain ⟨version, algorithm, iv, ciphertext⟩ := envelope
  subst ranged
  simp [decodeEnvelope, decodeStruct, CiphertextEnvelope.json, CiphertextEnvelope.assign,
    decodeInt, decodeString, field, cryptoVersion]

end Oxbin.Paste
