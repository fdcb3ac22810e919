import Oxbin.Paste.Bodies
import Oxbin.Paste.RoundTrip

/-!
# The limit on the size of pastes

The limit counts the bytes of the content, but the server also limits the JSON that carries it.
-/

namespace Oxbin.Browser

open Livecollab (decode utf16Units)

/-! ## The size of a request -/

/-- The bytes of a payload in JSON: those of its strings, of their escapes, and of the rest. -/
def PlaintextPayload.written (payload : PlaintextPayload) : Nat :=
  utf8Bytes payload.title + growth payload.title + utf8Bytes payload.language +
    growth payload.language + utf8Bytes payload.content + growth payload.content + 51

theorem size_payload {payload : PlaintextPayload} (first : payload.version = 1) :
    payload.value.size = payload.written := by
  have one : (JsValue.number 1).size = 1 := by decide
  rw [PlaintextPayload.value, first, PlaintextPayload.written,
    size_object (List.cons_ne_nil _ _) (by simp; decide)]
  simp [one, size_string]
  omega

theorem plainText_encodeBase64url (bytes : List UInt8) :
    plainText (encodeBase64url bytes) = true := by
  have letters : Paste.urlAlphabet.all (fun rune =>
      decide (0x20 ≤ rune.toNat ∧ rune.toNat < 0x80 ∧ rune ≠ '"' ∧ rune ≠ '\\')) = true := by decide
  rw [plainText, List.all_eq_true]
  exact fun rune member => List.all_eq_true.mp letters rune (mem_urlAlphabet member)

theorem length_encodeBase64url (bytes : List UInt8) :
    (encodeBase64url bytes).toList.length = (4 * bytes.length + 2) / 3 := by
  rw [encodeBase64url_eq, Paste.encodeToString, String.toList_ofList, List.length_map,
    Base64.length_sextets]

/-- The envelope takes four bytes for three of the ciphertext, and less than a hundred more. -/
theorem size_envelope {iv ciphertext : List UInt8} (short : iv.length = 12) :
    (envelopeValue {
      version := 1
      algorithm := "A256GCM"
      iv := encodeBase64url iv
      ciphertext := encodeBase64url ciphertext }).size =
        (4 * ciphertext.length + 2) / 3 + 75 := by
  have one : (JsValue.number 1).size = 1 := by decide
  have algorithm : (JsValue.string (utf16Units "A256GCM")).size = 9 := size_plainText (by decide)
  rw [envelopeValue, size_object (List.cons_ne_nil _ _) (by simp; decide)]
  simp [one, algorithm, size_plainText (plainText_encodeBase64url _), length_encodeBase64url, short]
  omega

/-- The request adds less than a hundred bytes to its payload. -/
theorem size_createRequest {mode : String} (known : mode = "plaintext" ∨ mode = "encrypted")
    (payload : JsValue) (lifetime : Lifetime) : ((createRequest mode payload
      (lifetimeRequest lifetime).1 (lifetimeRequest lifetime).2).size :
          Int) ≤ payload.size + 100 := by
  have expiry : (JsValue.string (utf16Units (lifetimeRequest lifetime).1)).size ≤ 5 := by
    rw [size_plainText (by cases lifetime <;> decide)]
    cases lifetime <;> decide
  have burn : (JsValue.boolean (lifetimeRequest lifetime).2).size ≤ 5 := by
    rw [size_boolean]
    split <;> omega
  have mode_size : (JsValue.string (utf16Units mode)).size = 11 := by
    rcases known with rfl | rfl <;> exact size_plainText (by decide)
  rw [createRequest, size_object (List.cons_ne_nil _ _) (by simp; decide)]
  simp [mode_size]
  omega

end Oxbin.Browser

namespace Oxbin.Paste

open Browser (utf8Bytes growth codePoints createRequest stringify lifetimeRequest encodeBase64url
  encryptPayload envelopeValue)
open Livecollab (decode)
open Live (Time byteLen)

/-! ## Payloads within the limits -/

/-- The payload that the server decodes. -/
def received (payload : Browser.PlaintextPayload) : PlaintextPayload where
  version := payload.version
  title := String.ofList (decode payload.title)
  language := String.ofList (decode payload.language)
  content := String.ofList (decode payload.content)

/-- A payload with a valid title and language, and content of at most the limit. -/
structure Admissible (options : Options) (payload : Browser.PlaintextPayload) : Prop where
  version : payload.version = 1
  title : (utf8Bytes payload.title : Int) ≤ maxTitleBytes
  language : (utf8Bytes payload.language : Int) ≤ maxLanguageBytes
  nonempty : payload.content ≠ []
  content : (utf8Bytes payload.content : Int) ≤ options.contentLimit

theorem byteLen_ofList (value : List UInt16) :
    byteLen (String.ofList (decode value)) = utf8Bytes value := by
  rw [byteLen, utf8Bytes, String.utf8ByteSize, String.toByteArray_ofList, List.utf8Encode,
    List.size_toByteArray, Utf8.encode]

theorem received_nonempty {value : List UInt16} (nonempty : value ≠ []) :
    String.ofList (decode value) ≠ "" := by
  intro empty
  have points : (codePoints value).map Browser.CodePoint.read = [] := by
    rw [← Browser.decode_eq]
    exact String.ofList_injective empty
  apply nonempty
  cases value with
  | nil => rfl
  | cons unit units =>
      have none := List.map_eq_nil_iff.mp points
      revert none
      fun_cases codePoints (unit :: units) <;> simp

theorem validatePlaintext_received {options : Options} {payload : Browser.PlaintextPayload}
    (admissible : Admissible options payload) :
    validatePlaintext (received payload) options.contentLimit = .ok () := by
  have range := options.contentLimit_range
  have version : (received payload).version = plaintextVersion := admissible.version
  have content : ¬options.contentLimit < byteLen (received payload).content := by
    rw [received, byteLen_ofList]
    exact not_lt.mpr admissible.content
  have title : ¬maxTitleBytes < byteLen (received payload).title := by
    rw [received, byteLen_ofList]
    exact not_lt.mpr admissible.title
  have language : ¬maxLanguageBytes < byteLen (received payload).language := by
    rw [received, byteLen_ofList]
    exact not_lt.mpr admissible.language
  rw [validatePlaintext, if_neg (not_not.mpr version), if_neg (by omega), if_neg content,
    if_neg title, if_neg language, received, if_neg (received_nonempty admissible.nonempty)]

theorem flat_payload (payload : Browser.PlaintextPayload) : payload.value.Writable 1 := by
  intro member present
  simp only [List.mem_cons, List.not_mem_nil, or_false] at present
  rcases present with rfl | rfl | rfl | rfl <;> trivial

theorem flat_envelope (envelope : CiphertextEnvelope) : (envelopeValue envelope).Writable 1 := by
  intro member present
  simp only [List.mem_cons, List.not_mem_nil, or_false] at present
  rcases present with rfl | rfl | rfl | rfl <;> trivial

/-- The request of `createPlaintextPaste`. -/
def plaintextBody (payload : Browser.PlaintextPayload) (lifetime : Browser.Lifetime) : Body :=
  bodyOf "plaintext" payload.value (flat_payload payload) (lifetimeRequest lifetime).1
    (lifetimeRequest lifetime).2

/-- The request of `createEncryptedPaste`. -/
def encryptedBody (envelope : CiphertextEnvelope) (lifetime : Browser.Lifetime) : Body :=
  bodyOf "encrypted" (envelopeValue envelope) (flat_envelope envelope) (lifetimeRequest lifetime).1
    (lifetimeRequest lifetime).2

/-- The body is too large, or its request is handled. -/
theorem createFromBody_bodyOf (options : Options) (mode : String) {payload : Browser.JsValue}
    (flat : payload.Writable 1) (expiry : String) (burn : Bool) (now : Time) :
    createFromBody options (bodyOf mode payload flat expiry burn) now =
      if encryptedRequestLimit options < (bodyOf mode payload flat expiry burn).length then
        .error .payloadTooLarge
      else createPaste options ⟨mode, Utf8.encode (stringify payload), expiry, burn⟩ now := by
  rw [createFromBody, decodeJSON]
  split
  · rfl
  · rw [bodyOf, decodeRequest_createRequest flat]
    rfl

/-- The limit on the body leaves room around the payload. -/
theorem length_bodyOf {options : Options} {mode : String}
    (known : mode = "plaintext" ∨ mode = "encrypted") {payload : Browser.JsValue}
    (flat : payload.Writable 1) {lifetime : Browser.Lifetime}
    (fits : (payload.size : Int) ≤ (options.contentLimit + 4096 + 2) / 3 * 4 + 3000) :
    ¬encryptedRequestLimit options < (bodyOf mode payload flat (lifetimeRequest lifetime).1
      (lifetimeRequest lifetime).2).length := by
  have request := Browser.size_createRequest known payload lifetime
  rw [encryptedRequestLimit, requestMetadataAllowance]
  show ¬_ < ((createRequest _ _ _ _).size : Int)
  omega

theorem expiresAt_cases (policy : ExpiryPolicy) (identifier : String) (now : Time) :
    (∃ time, policy.expiresAt identifier now = .ok time) ∨
      policy.expiresAt identifier now = .error .invalidExpiry := by
  rw [ExpiryPolicy.expiresAt]
  cases policy.allowed.lookup identifier with
  | none => exact .inr rfl
  | some duration => exact .inl ⟨_, rfl⟩

/-! ## Plaintext -/

theorem createPaste_plaintext {options : Options} {payload : Browser.PlaintextPayload}
    (admissible : Admissible options payload) (lifetime : Browser.Lifetime) (now : Time) :
    createPaste options ⟨"plaintext", Utf8.encode (stringify payload.value),
        (lifetimeRequest lifetime).1, (lifetimeRequest lifetime).2⟩ now = .error .payloadTooLarge ↔
      options.contentLimit + 4096 < payload.written := by
  have size : ((Utf8.encode (stringify payload.value)).length : Int) = payload.written := by
    exact_mod_cast Browser.size_payload admissible.version
  have decoded : decodePayload decodePlaintext (Utf8.encode (stringify payload.value)) =
      .ok (received payload) := by
    rw [decodePayload, Utf8.decode_encode,
      Browser.parse_stringify ((flat_payload payload).mono (by decide))]
    have version : (received payload).version = plaintextVersion := admissible.version
    have read : decodePlaintext true payload.value.json = some (received payload) :=
      decodePlaintext_json version true
    simp only [Option.bind_some, read]
  rw [createPaste, if_pos rfl, size]
  by_cases large : options.contentLimit + 4096 < payload.written
  · rw [if_pos large]
    exact iff_of_true rfl large
  · rw [if_neg large, decoded]
    refine iff_of_false ?_ large
    show createPlaintext _ _ _ _ _ ≠ _
    rw [createPlaintext, validatePlaintext_received admissible]
    dsimp only [bind, Except.bind]
    obtain ⟨time, expires⟩ | expires := expiresAt_cases options.expiries
      (lifetimeRequest lifetime).1 (normalizeTime now)
    · rw [expires]
      simp
    · rw [expires]
      simp

/-- The plaintext of a payload is too large exactly if its JSON is. -/
theorem createFromBody_plaintext {options : Options} {payload : Browser.PlaintextPayload}
    (admissible : Admissible options payload) (lifetime : Browser.Lifetime) (now : Time) :
    createFromBody options (plaintextBody payload lifetime) now = .error .payloadTooLarge ↔
      options.contentLimit + 4096 < payload.written := by
  have size := Browser.size_payload admissible.version
  have range := options.contentLimit_range
  have decided := createPaste_plaintext admissible lifetime now
  rw [plaintextBody, createFromBody_bodyOf]
  by_cases large : options.contentLimit + 4096 < payload.written
  · refine iff_of_true ?_ large
    split
    · rfl
    · exact decided.mpr large
  · rw [if_neg (length_bodyOf (.inl rfl) _ (by omega))]
    exact decided

/-! ## Encrypted pastes -/

theorem createPaste_encrypted {options : Options} {iv ciphertext : List UInt8}
    (short : iv.length = 12) (tagged : 16 ≤ ciphertext.length) (expiry : String) (burn : Bool)
    (now : Time) :
    createPaste options ⟨"encrypted", Utf8.encode (stringify (envelopeValue {
        version := 1
        algorithm := "A256GCM"
        iv := encodeBase64url iv
        ciphertext := encodeBase64url ciphertext })), expiry, burn⟩ now =
          .error .payloadTooLarge ↔ options.contentLimit + 4096 < ciphertext.length := by
  have range := options.contentLimit_range
  generalize envelope_eq : CiphertextEnvelope.mk 1 "A256GCM" (encodeBase64url iv)
    (encodeBase64url ciphertext) = envelope
  have version : envelope.version = cryptoVersion := by rw [← envelope_eq]; rfl
  have json_eq : (envelopeValue envelope).json = envelope.json := by
    simp [envelopeValue, Browser.JsValue.json, Browser.jsonMembers, CiphertextEnvelope.json,
      Livecollab.utf16Units]
  have decoded : decodePayload decodeEnvelope (Utf8.encode (stringify (envelopeValue envelope))) =
      .ok envelope := by
    rw [decodePayload, Utf8.decode_encode,
      Browser.parse_stringify ((flat_envelope envelope).mono (by decide)), json_eq]
    simp only [Option.bind_some, decodeEnvelope_json version true]
  have limit : encryptedPayloadLimit options.contentLimit = .ok (options.contentLimit + 4096) := by
    rw [encryptedPayloadLimit, if_neg (by omega)]
  have validated : validateCiphertextEnvelope envelope (options.contentLimit + 4096) =
      if options.contentLimit + 4096 < ciphertext.length then .error .payloadTooLarge
      else .ok ciphertext.length := by
    rw [← envelope_eq]
    exact validateCiphertextEnvelope_eq short tagged (by rw [maxEnvelopeBytes]; omega)
  rw [createPaste, if_neg (show ¬"encrypted" = "plaintext" by decide), if_pos rfl, decoded]
  dsimp only [bind, Except.bind]
  rw [limit]
  dsimp only
  rw [validated]
  by_cases large : options.contentLimit + 4096 < ciphertext.length
  · rw [if_pos large]
    exact iff_of_true rfl large
  · refine iff_of_false ?_ large
    rw [if_neg large, createEncrypted, limit]
    dsimp only [bind, Except.bind]
    rw [validated, if_neg large]
    dsimp only
    obtain ⟨time, expires⟩ | expires := expiresAt_cases options.expiries expiry (normalizeTime now)
    · rw [expires]
      simp
    · rw [expires]
      simp

section Encrypted

variable {Url : Type} {web : Browser.Web Url} {options : Options}
  {payload : Browser.PlaintextPayload}

/-- An encrypted payload is too large exactly if its JSON and the tag are. -/
theorem createFromBody_encrypted
    (writes : web.stringify = fun value => Utf8.encode (stringify value))
    (tag : ∀ key iv plaintext, (web.encrypt key iv plaintext).length = plaintext.length + 16)
    (first : payload.version = 1) {rawKey iv : List UInt8} (short : iv.length = 12)
    {encrypted : Browser.EncryptedPaste}
    (built : encryptPayload web payload rawKey iv = some encrypted) (lifetime : Browser.Lifetime)
    (now : Time) :
    createFromBody options (encryptedBody encrypted.envelope lifetime) now =
        .error .payloadTooLarge ↔ options.contentLimit + 4096 < payload.written + 16 := by
  obtain ⟨_, rfl⟩ := encryptPayload_eq built
  have size : (web.encrypt rawKey iv (web.stringify payload.value)).length =
      payload.written + 16 := by
    rw [tag, writes, ← Browser.size_payload first]
    rfl
  have tagged : 16 ≤ (web.encrypt rawKey iv (web.stringify payload.value)).length := by omega
  have decided := @createPaste_encrypted options iv _ short tagged (lifetimeRequest lifetime).1
    (lifetimeRequest lifetime).2 now
  have envelope := @Browser.size_envelope iv
    (web.encrypt rawKey iv (web.stringify payload.value)) short
  rw [size] at decided envelope
  rw [encryptedBody, createFromBody_bodyOf]
  by_cases large : options.contentLimit + 4096 < payload.written + 16
  · refine iff_of_true ?_ large
    split
    · rfl
    · exact decided.mpr large
  · rw [if_neg (length_bodyOf (.inr rfl) _ (by rw [envelope]; omega))]
    exact decided

end Encrypted

/-- A payload within the limits is not rejected as too large exactly if its JSON is at most 4096
bytes longer than the limit, and 4080 bytes if it is encrypted. -/
theorem not_too_large_iff {Url : Type} (web : Browser.Web Url)
    (writes : web.stringify = fun value => Utf8.encode (stringify value))
    (tag : ∀ key iv plaintext, (web.encrypt key iv plaintext).length = plaintext.length + 16)
    (options : Options) (payload : Browser.PlaintextPayload)
    (admissible : Admissible options payload) (lifetime : Browser.Lifetime) (now : Time) :
    (createFromBody options (plaintextBody payload lifetime) now ≠ .error .payloadTooLarge ↔
      (payload.written : Int) ≤ options.contentLimit + 4096) ∧
    ∀ rawKey iv encrypted, iv.length = 12 →
      encryptPayload web payload rawKey iv = some encrypted →
      (createFromBody options (encryptedBody encrypted.envelope lifetime) now ≠
          .error .payloadTooLarge ↔
        (payload.written : Int) ≤ options.contentLimit + 4080) := by
  constructor
  · rw [Ne, createFromBody_plaintext admissible, not_lt]
  · intro rawKey iv encrypted short built
    rw [Ne, createFromBody_encrypted writes tag admissible.version short built]
    omega

/-! ## Line breaks -/

/-- A browser that writes JSON and appends a tag. -/
def writingWeb : Browser.Web (List Char × List Char) :=
  { plainWeb with stringify := fun value => Utf8.encode (stringify value) }

/-- The default limit of 1 MiB. -/
def defaultOptions : Options :=
  { plainOptions with
    contentLimit := maxContentBytes
    contentLimit_range := by decide }

/-- A payload of line breaks only. -/
def lineBreaks (count : Nat) : Browser.PlaintextPayload :=
  ⟨1, [], [], Livecollab.encode (List.replicate count '\n')⟩

theorem utf8Bytes_lineBreaks (count : Nat) :
    utf8Bytes (lineBreaks count).content = count ∧ growth (lineBreaks count).content = count := by
  have points : codePoints (lineBreaks count).content =
      List.replicate count (.scalar '\n') := by
    rw [lineBreaks, Browser.codePoints_of_low, List.map_replicate]
    intro rune member
    rw [List.eq_of_mem_replicate member]
    decide
  constructor
  · rw [utf8Bytes, Browser.length_encode, Browser.decode_eq, points, List.map_replicate,
      List.map_replicate, List.sum_replicate_nat]
    exact Nat.mul_one count
  · rw [growth, points, List.map_replicate, List.sum_replicate_nat]
    exact Nat.mul_one count

theorem written_lineBreaks (count : Nat) : (lineBreaks count).written = 2 * count + 51 := by
  have sizes := utf8Bytes_lineBreaks count
  rw [Browser.PlaintextPayload.written, sizes.1, sizes.2]
  show 0 + 0 + 0 + 0 + count + count + 51 = _
  omega

theorem admissible_lineBreaks {options : Options} {count : Nat} (positive : count ≠ 0)
    (fits : (count : Int) ≤ options.contentLimit) : Admissible options (lineBreaks count) where
  version := rfl
  title := show (0 : Int) ≤ 200 by decide
  language := show (0 : Int) ≤ 64 by decide
  nonempty := by
    intro empty
    have decoded := Livecollab.decode_encode (List.replicate count '\n')
    rw [show Livecollab.encode (List.replicate count '\n') = [] from empty] at decoded
    exact positive (List.replicate_eq_nil_iff _ |>.mp decoded.symm)
  content := by
    rw [(utf8Bytes_lineBreaks count).1]
    exact fits

theorem not_too_large_iff_lineBreaks :
    createFromBody plainOptions (plaintextBody (lineBreaks 4) .day) 0 ≠ .error .payloadTooLarge ∧
    ∃ encrypted, encryptPayload writingWeb (lineBreaks 4) (List.replicate 32 7)
        (List.replicate 12 9) = some encrypted ∧
      createFromBody plainOptions (encryptedBody encrypted.envelope .day) 0 ≠
        .error .payloadTooLarge := by
  have small : ((lineBreaks 4).written : Int) ≤ plainOptions.contentLimit + 4080 := by
    rw [written_lineBreaks]
    decide
  obtain ⟨plaintext, encrypted⟩ := not_too_large_iff writingWeb rfl
    (fun _ _ _ => by simp [writingWeb, plainWeb]) plainOptions (lineBreaks 4)
    (admissible_lineBreaks (by decide) (by decide)) .day 0
  exact ⟨plaintext.mpr (by omega), _, rfl, (encrypted _ _ _ (by decide) rfl).mpr small⟩

/-- 1 MiB of line breaks is within the default limit, and rejected as too large. -/
theorem lineBreaks_too_large : Admissible defaultOptions (lineBreaks 1048576) ∧
    createFromBody defaultOptions (plaintextBody (lineBreaks 1048576) .day) 0 =
      .error .payloadTooLarge := by
  have admissible : Admissible defaultOptions (lineBreaks 1048576) :=
    admissible_lineBreaks (by decide) (by decide)
  refine ⟨admissible, (createFromBody_plaintext admissible .day 0).mpr ?_⟩
  rw [written_lineBreaks]
  decide

end Oxbin.Paste
