import Oxbin.Browser.Stringify
import Oxbin.Paste.Requests

/-!
# Bodies of requests

How a request to create a paste crosses the wire: what `api.ts` sends, and what `decodeJSON` of
`internal/httpapi/pastes.go` makes of it, whose payload keeps its own text.
-/

namespace Oxbin.Browser

open Livecollab (utf16Units)
open Paste (CiphertextEnvelope)

/-! ## The browser -/

/-- The object of an envelope. -/
def envelopeValue (envelope : CiphertextEnvelope) : JsValue :=
  .object [("version", .number envelope.version),
    ("algorithm", .string (utf16Units envelope.algorithm)),
    ("iv", .string (utf16Units envelope.iv)),
    ("ciphertext", .string (utf16Units envelope.ciphertext))]

/-- The object that `createPlaintextPaste` and `createEncryptedPaste` send. -/
def createRequest (mode : String) (payload : JsValue) (expiry : String) (burnAfterRead : Bool) :
    JsValue :=
  .object [("mode", .string (utf16Units mode)), ("payload", payload),
    ("expiry", .string (utf16Units expiry)), ("burn_after_read", .boolean burnAfterRead)]

/-- `Lifetime` of `create.ts`. -/
inductive Lifetime where
  | once
  | oneHour
  | day
  | threeDays
  deriving DecidableEq

/-- `lifetimeRequest`. -/
def lifetimeRequest : Lifetime → String × Bool
  | .once => ("72h", true)
  | .oneHour => ("1h", false)
  | .day => ("24h", false)
  | .threeDays => ("72h", false)

end Oxbin.Browser

namespace Oxbin.Paste

open Browser (JsValue stringify createRequest)
open Live (Time byteLen)
open Livecollab (utf16Units)

/-! ## The server -/

/-- `requestMetadataAllowance`. -/
def requestMetadataAllowance : Int := 4096

/-- `encryptedRequestLimit`. -/
def encryptedRequestLimit (options : Options) : Int :=
  (options.contentLimit + 4096 + 2) / 3 * 4 + requestMetadataAllowance

/-- The body of a request: the text of a JSON object. -/
structure Body where
  text : List Char
  isObject : ∃ members, Json.ValueText Json.maxDepth (.obj members) text

/-- The bytes of a body. -/
def Body.length (body : Body) : Int := (Utf8.encode body.text).length

/-- Decode a value into a `bool` field. -/
def decodeBool (old : Bool) : Json → Option Bool
  | .null => some old
  | .bool value => some value
  | _ => none

/-- The fields of a `createPasteRequest`. -/
def CreatePasteRequest.assign (field : String) (value : Json) (raw : List Char)
    (request : CreatePasteRequest) : Option CreatePasteRequest :=
  match field with
  | "mode" => (decodeString request.mode value).map ({ request with mode := · })
  | "payload" => some { request with payload := Utf8.encode raw }
  | "expiry" => (decodeString request.expiry value).map ({ request with expiry := · })
  | "burn_after_read" =>
      (decodeBool request.burnAfterRead value).map ({ request with burnAfterRead := · })
  | _ => none

/-- Decode a `createPasteRequest`, with `DisallowUnknownFields`. -/
def decodeRequest (text : List Char) : Option CreatePasteRequest :=
  (Json.parseFields text).bind fun fields => fields.foldlM (fun request (name, value, raw) =>
    match fieldNamed ["mode", "payload", "expiry", "burn_after_read"] name with
    | none => none
    | some field => request.assign field value raw) ⟨"", [], "", false⟩

/-- `decodeJSON`.  A body beyond the limit ends for the decoder inside of its object; the error
`errRequestTooLarge` is answered as `ErrPayloadTooLarge` is. -/
def decodeJSON (limit : Int) (body : Body) : Except PasteError CreatePasteRequest :=
  if limit < body.length then .error .payloadTooLarge
  else
    match decodeRequest body.text with
    | none => .error .invalidPayload
    | some request => .ok request

/-- `create`, from the body up to the insertion. -/
def createFromBody (options : Options) (body : Body) (now : Time) : Except PasteError NewPaste :=
  (decodeJSON (encryptedRequestLimit options) body).bind fun request =>
    createPaste options request now

/-! ## Across the wire -/

section Wire

variable {mode expiry : String} {payload : JsValue} {burnAfterRead : Bool}

theorem writable_createRequest (flat : payload.Writable 1) :
    (createRequest mode payload expiry burnAfterRead).Writable Json.maxDepth := by
  have two : (createRequest mode payload expiry burnAfterRead).Writable 2 := by
    intro member present
    simp only [List.mem_cons, List.not_mem_nil, or_false] at present
    rcases present with rfl | rfl | rfl | rfl
    · trivial
    · exact flat
    · trivial
    · trivial
  exact two.mono (by decide)

/-- The body of a request of the browser. -/
def bodyOf (mode : String) (payload : JsValue) (flat : payload.Writable 1) (expiry : String)
    (burnAfterRead : Bool) : Body where
  text := stringify (createRequest mode payload expiry burnAfterRead)
  isObject := ⟨_, Browser.valueText_stringify (writable_createRequest flat)⟩

/-- The server decodes a request of the browser, and keeps the text of the payload. -/
theorem decodeRequest_createRequest (flat : payload.Writable 1) :
    decodeRequest (stringify (createRequest mode payload expiry burnAfterRead)) =
      some ⟨mode, Utf8.encode (stringify payload), expiry, burnAfterRead⟩ := by
  have field (name : String)
      (known : name ∈ ["mode", "payload", "expiry", "burn_after_read"]) :
      fieldNamed ["mode", "payload", "expiry", "burn_after_read"] name = some name := by
    revert name
    decide
  have shallow : (createRequest mode payload expiry burnAfterRead).Writable Json.maxDepth :=
    writable_createRequest flat
  rw [createRequest] at shallow
  rw [decodeRequest, createRequest, Browser.parseFields_stringify shallow]
  simp [field, CreatePasteRequest.assign, decodeString, decodeBool, JsValue.json, utf16Units]

end Wire

end Oxbin.Paste
