import Mathlib.Data.List.Infix
import Oxbin.Paste.Base64

/-!
# Encryption in the browser

`crypto.ts` builds the envelope of an encrypted paste and the link that carries its key.  The
cipher, the JSON of the browser and its URLs are parameters; base64url is the browser's own way
over binary strings and padded base64.
-/

namespace Oxbin.Browser

open Paste (CiphertextEnvelope letter urlAlphabet encodeToString)

/-- The alphabet of `btoa` and `atob`. -/
def base64Alphabet : List Char := urlAlphabet.take 62 ++ ['+', '/']

/-- The binary string that `encodeBase64url` puts together in chunks; a character of it is a
byte. -/
def binaryString (bytes : List UInt8) : List UInt8 :=
  if bytes = [] then []
  else bytes.take 0x8000 ++ binaryString (bytes.drop 0x8000)
  termination_by bytes.length
  decreasing_by
    rw [List.length_drop]
    have := List.length_pos_iff.mpr ‹bytes ≠ []›
    omega

/-- `btoa`. -/
def btoa (binary : List UInt8) : List Char :=
  (Base64.sextets binary).map (base64Alphabet.getD · '=') ++
    List.replicate ((3 - binary.length % 3) % 3) '='

/-- The padding that `atob` removes. -/
def stripPadding (encoded : List Char) : List Char :=
  if encoded.length % 4 = 0 then
    match encoded.reverse with
    | '=' :: '=' :: reversed => reversed.reverse
    | '=' :: reversed => reversed.reverse
    | _ => encoded
  else encoded

/-- The spaces that `atob` removes. -/
def asciiSpace (rune : Char) : Bool :=
  rune = '\t' ∨ rune = '\n' ∨ rune = '\x0c' ∨ rune = '\r' ∨ rune = ' '

/-- `atob`; `none` stands for a thrown error. -/
def atob (encoded : List Char) : Option (List UInt8) :=
  let stripped := stripPadding (encoded.filter fun rune => !asciiSpace rune)
  if stripped.length % 4 = 1 then none
  else
    (stripped.mapM fun rune =>
      if rune ∈ base64Alphabet then some (base64Alphabet.idxOf rune) else none).map Base64.bytes

/-- `replaceAll` for single characters. -/
def replaceAll (old new : Char) (value : List Char) : List Char :=
  value.map fun rune => if rune = old then new else rune

/-- `encodeBase64url`. -/
def encodeBase64url (bytes : List UInt8) : String :=
  String.ofList <| (replaceAll '/' '_' (replaceAll '+' '-' (btoa (binaryString bytes)))).filter
    fun rune => rune ≠ '='

/-- `decodeBase64url`. -/
def decodeBase64url (value : String) : Option (List UInt8) :=
  let runes := value.toList
  if ¬(runes.all fun rune => rune ∈ urlAlphabet) ∨ runes.length % 4 = 1 then none
  else
    let base64 := replaceAll '_' '/' (replaceAll '-' '+' runes)
    atob (base64 ++ List.replicate ((runes.length + 3) / 4 * 4 - runes.length) '=')

/-! ## Payloads -/

/-- A JavaScript value.  Its numbers stand for safe integers. -/
inductive JsValue where
  | null
  | boolean (value : Bool)
  | number (value : Int)
  | string (value : List UInt16)
  | array (values : List JsValue)
  | object (members : List (String × JsValue))
  | other

/-- A property of an object. -/
def JsValue.property (name : String) : JsValue → Option JsValue
  | .object members => members.lookup name
  | _ => none

/-- `PlaintextPayload` of `crypto.ts`. -/
structure PlaintextPayload where
  version : Int
  title : List UInt16
  language : List UInt16
  content : List UInt16
  deriving DecidableEq

/-- The object of a payload. -/
def PlaintextPayload.value (payload : PlaintextPayload) : JsValue :=
  .object [("version", .number payload.version), ("title", .string payload.title),
    ("language", .string payload.language), ("content", .string payload.content)]

/-- `assertPlaintextPayload`: the value as a payload. -/
def assertPlaintextPayload (value : JsValue) : Option PlaintextPayload :=
  match value.property "version", value.property "title", value.property "language",
    value.property "content" with
  | some (.number version), some (.string title), some (.string language),
      some (.string content) =>
      if version ≠ 1 ∨ content = [] then none else some ⟨version, title, language, content⟩
  | _, _, _, _ => none

/-- What `crypto.ts` takes from the browser: AES-GCM, the bytes of the JSON of a value and back,
and URLs.  `none` stands for a thrown error. -/
structure Web (Url : Type) where
  encrypt : (key iv plaintext : List UInt8) → List UInt8
  decrypt : (key iv ciphertext : List UInt8) → Option (List UInt8)
  /-- `TextEncoder.encode` of `JSON.stringify`. -/
  stringify : JsValue → List UInt8
  /-- `JSON.parse` of `TextDecoder.decode`. -/
  parse : List UInt8 → Option JsValue
  url : String → Option Url
  protocol : Url → String
  hash : Url → String
  setHash : Url → String → Url
  href : Url → String

/-- `EncryptedPaste`. -/
structure EncryptedPaste where
  envelope : CiphertextEnvelope
  key : String
  deriving DecidableEq

section Web

variable {Url : Type} (web : Web Url)

/-- `encryptPayload`, with the key and the IV that it generates. -/
def encryptPayload (payload : PlaintextPayload) (rawKey iv : List UInt8) :
    Option EncryptedPaste := do
  let _ ← assertPlaintextPayload payload.value
  let plaintext := web.stringify payload.value
  let ciphertext := web.encrypt rawKey iv plaintext
  some {
    envelope := {
      version := 1
      algorithm := "A256GCM"
      iv := encodeBase64url iv
      ciphertext := encodeBase64url ciphertext }
    key := encodeBase64url rawKey }

/-- `assertEnvelope`. -/
def assertEnvelope (envelope : CiphertextEnvelope) : Option Unit := do
  if envelope.version ≠ 1 ∨ envelope.algorithm ≠ "A256GCM" then none
  let iv ← decodeBase64url envelope.iv
  if iv.length ≠ 12 then none
  let ciphertext ← decodeBase64url envelope.ciphertext
  if ciphertext.length < 16 then none
  some ()

/-- `decryptPayload`. -/
def decryptPayload (envelope : CiphertextEnvelope) (encodedKey : String) :
    Option PlaintextPayload := do
  assertEnvelope envelope
  let rawKey ← decodeBase64url encodedKey
  if rawKey.length ≠ 32 then none
  let iv ← decodeBase64url envelope.iv
  let ciphertext ← decodeBase64url envelope.ciphertext
  let plaintext ← web.decrypt rawKey iv ciphertext
  let value ← web.parse plaintext
  assertPlaintextPayload value

/-- The characters that `trim` removes. -/
def jsSpace (rune : Char) : Bool :=
  rune ∈ ['\t', '\n', '\x0b', '\x0c', '\r', ' ', '\u00a0', '\u1680', '\u2028', '\u2029', '\u202f',
    '\u205f', '\u3000', '\ufeff'] ∨ '\u2000' ≤ rune ∧ rune ≤ '\u200a'

/-- `trim`. -/
def trim (value : List Char) : List Char :=
  ((value.dropWhile jsSpace).reverse.dropWhile jsSpace).reverse

/-- `keyFromFragmentOrURL`. -/
def keyFromFragmentOrURL (input : String) : Option String := do
  let value := trim input.toList
  let key ←
    if [':', '/', '/'] <:+: value then
      (web.url (String.ofList value)).map fun url => String.ofList ((web.hash url).toList.drop 1)
    else if value.head? = some '#' then some (String.ofList (value.drop 1))
    else some (String.ofList value)
  let decoded ← decodeBase64url key
  if decoded.length ≠ 32 then none
  some key

/-- `withKeyFragment`. -/
def withKeyFragment (url encodedKey : String) : Option String := do
  let key ← keyFromFragmentOrURL web encodedKey
  let shareURL ← web.url url
  some (web.href (web.setHash shareURL key))

/-- What `crypto.ts` relies on in the browser. -/
structure Web.Standard : Prop where
  /-- Decryption inverts encryption under the same key and IV. -/
  decrypt_encrypt : ∀ key iv plaintext : List UInt8, key.length = 32 → iv.length = 12 →
    web.decrypt key iv (web.encrypt key iv plaintext) = some plaintext
  /-- A ciphertext ends with a tag of sixteen bytes. -/
  length_encrypt : ∀ key iv plaintext : List UInt8,
    (web.encrypt key iv plaintext).length = plaintext.length + 16
  /-- Parsing inverts writing. -/
  parse_stringify : ∀ payload : PlaintextPayload,
    web.parse (web.stringify payload.value) = some payload.value
  /-- An `http` or `https` URL is written as printable ASCII that begins with its protocol, and
  read back with the fragment that was set. -/
  fragment : ∀ url parsed fragment, web.url url = some parsed →
    web.protocol parsed ∈ ["http:", "https:"] → fragment ≠ "" →
    (∀ rune ∈ fragment.toList, rune ∈ urlAlphabet) →
    let shared := web.href (web.setHash parsed fragment)
    (∀ rune ∈ shared.toList, '!' ≤ rune ∧ rune ≤ '~') ∧
      (web.protocol parsed).toList ++ ['/', '/'] <+: shared.toList ∧
      ∃ reread, web.url shared = some reread ∧ web.hash reread = "#" ++ fragment

end Web

/-! ## Base64url -/

theorem binaryString_eq (bytes : List UInt8) : binaryString bytes = bytes := by
  fun_induction binaryString bytes with
  | case1 => rfl
  | case2 bytes nonempty induction => rw [induction, List.take_append_drop]

/-- The browser's encoding is that of the server. -/
theorem encodeBase64url_eq (bytes : List UInt8) : encodeBase64url bytes = encodeToString bytes := by
  have swapped : ∀ value < 64, ((if (if base64Alphabet.getD value '=' = '+' then '-'
      else base64Alphabet.getD value '=') = '/' then '_'
      else (if base64Alphabet.getD value '=' = '+' then '-' else base64Alphabet.getD value '=')) =
        letter value) ∧ letter value ≠ '=' := by decide
  rw [encodeBase64url, encodeToString, binaryString_eq, btoa]
  simp only [replaceAll, List.map_append, List.filter_append, List.map_map]
  congr 1
  have letters : ((Base64.sextets bytes).map ((fun rune => if rune = '/' then '_' else rune) ∘
      (fun rune => if rune = '+' then '-' else rune) ∘ (base64Alphabet.getD · '='))) =
        (Base64.sextets bytes).map letter :=
    List.map_congr_left fun value member => (swapped value (Base64.sextets_lt bytes value member)).1
  have kept : ((Base64.sextets bytes).map letter).filter (fun rune => rune ≠ '=') =
      (Base64.sextets bytes).map letter := by
    rw [List.filter_eq_self]
    intro rune member
    obtain ⟨value, listed, rfl⟩ := List.mem_map.mp member
    exact decide_eq_true (swapped value (Base64.sextets_lt bytes value listed)).2
  rw [letters, kept]
  simp

/-- The letters of an encoding are those of the alphabet. -/
theorem mem_urlAlphabet {bytes : List UInt8} {rune : Char}
    (member : rune ∈ (encodeBase64url bytes).toList) : rune ∈ urlAlphabet := by
  have listed : ∀ value < 64, letter value ∈ urlAlphabet := by decide
  rw [encodeBase64url_eq, encodeToString, String.toList_ofList] at member
  obtain ⟨value, sextet, rfl⟩ := List.mem_map.mp member
  exact listed value (Base64.sextets_lt bytes value sextet)

theorem stripPadding_append {letters : List Char} (count : Nat) (few : count ≤ 2)
    (whole : (letters.length + count) % 4 = 0) (last : letters.getLast? ≠ some '=') :
    stripPadding (letters ++ List.replicate count '=') = letters := by
  unfold stripPadding
  rw [if_pos (by simpa using whole), List.reverse_append, List.reverse_replicate]
  have head : letters.reverse.head? ≠ some '=' := by rwa [List.head?_reverse]
  match count, few with
  | 0, _ =>
      cases reversed : letters.reverse with
      | nil => simp
      | cons rune rest =>
          rw [reversed, List.head?_cons] at head
          have other : rune ≠ '=' := fun same => head (congrArg some same)
          simp [other]
  | 1, _ =>
      cases reversed : letters.reverse with
      | nil =>
          have empty : letters = [] := List.reverse_eq_nil_iff.mp reversed
          simp [empty]
      | cons rune rest =>
          rw [reversed, List.head?_cons] at head
          have other : rune ≠ '=' := fun same => head (congrArg some same)
          have shape : letters = (rune :: rest).reverse := by rw [← reversed, List.reverse_reverse]
          simp [other, shape]
  | 2, _ => simp [List.replicate]

/-- Decoding inverts encoding, whatever the length of the last group. -/
theorem decodeBase64url_encodeBase64url (bytes : List UInt8) :
    decodeBase64url (encodeBase64url bytes) = some bytes := by
  have known : ∀ value < 64, (if (if letter value = '-' then '+' else letter value) = '_' then '/'
      else (if letter value = '-' then '+' else letter value)) = base64Alphabet.getD value '=' ∧
        base64Alphabet.getD value '=' ∈ base64Alphabet ∧
        base64Alphabet.idxOf (base64Alphabet.getD value '=') = value ∧
        base64Alphabet.getD value '=' ≠ '=' ∧
        asciiSpace (base64Alphabet.getD value '=') = false := by decide
  have small := Base64.sextets_lt bytes
  have runes_eq : (encodeBase64url bytes).toList = (Base64.sextets bytes).map letter := by
    rw [encodeBase64url_eq, encodeToString, String.toList_ofList]
  have remainder := Base64.length_sextets_mod bytes
  have inside : ¬(¬((encodeBase64url bytes).toList.all fun rune => rune ∈ urlAlphabet) ∨
      (encodeBase64url bytes).toList.length % 4 = 1) := by
    rw [not_or, not_not, List.all_eq_true]
    refine ⟨fun rune member => decide_eq_true (mem_urlAlphabet member), ?_⟩
    rw [runes_eq, List.length_map]
    exact remainder
  have standard : replaceAll '_' '/' (replaceAll '-' '+' ((Base64.sextets bytes).map letter)) =
      (Base64.sextets bytes).map (base64Alphabet.getD · '=') := by
    simp only [replaceAll, List.map_map]
    exact List.map_congr_left fun value member => (known value (small value member)).1
  have visible (count : Nat) : ((Base64.sextets bytes).map (base64Alphabet.getD · '=') ++
      List.replicate count '=').filter (fun rune => !asciiSpace rune) =
        (Base64.sextets bytes).map (base64Alphabet.getD · '=') ++ List.replicate count '=' := by
    rw [List.filter_eq_self]
    intro rune member
    rcases List.mem_append.mp member with listed | padding
    · obtain ⟨value, sextet, rfl⟩ := List.mem_map.mp listed
      rw [(known value (small value sextet)).2.2.2.2]
      rfl
    · rw [List.eq_of_mem_replicate padding]
      decide
  have last : ((Base64.sextets bytes).map (base64Alphabet.getD · '=')).getLast? ≠ some '=' := by
    intro pad
    obtain ⟨value, sextet, same⟩ := List.mem_map.mp (List.mem_of_getLast? pad)
    exact (known value (small value sextet)).2.2.2.1 same
  have read : ((Base64.sextets bytes).map (base64Alphabet.getD · '=')).mapM (fun rune =>
      if rune ∈ base64Alphabet then some (base64Alphabet.idxOf rune) else none) =
        some (Base64.sextets bytes) := by
    have each {values : List Nat} (bound : ∀ value ∈ values, value < 64) :
        (values.map (base64Alphabet.getD · '=')).mapM (fun rune =>
          if rune ∈ base64Alphabet then some (base64Alphabet.idxOf rune) else none) =
            some values := by
      induction values with
      | nil => rfl
      | cons value values induction =>
          have facts := known value (bound value List.mem_cons_self)
          have rest := induction fun other member => bound other (List.mem_cons_of_mem _ member)
          rw [List.map_cons, List.mapM_cons, rest, if_pos facts.2.1, facts.2.2.1]
          rfl
    exact each small
  unfold decodeBase64url
  simp only [if_neg inside]
  rw [runes_eq, standard, List.length_map, atob]
  simp only [visible]
  rw [stripPadding_append _ (by omega) (by rw [List.length_map]; omega) last, List.length_map,
    if_neg remainder, read, Option.map_some, Base64.bytes_sextets]

end Oxbin.Browser
