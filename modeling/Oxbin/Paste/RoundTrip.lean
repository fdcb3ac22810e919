import Oxbin.Browser.Crypto
import Oxbin.Live.Validation
import Oxbin.Livecollab.Surrogates
import Oxbin.Paste.Retention

/-!
# Pastes come back as they were created

A paste is written to a column as JSON, read back and answered; an encrypted one crosses the
base64url of the browser and that of the server.  Whatever is returned under a slug is the content
of the paste that was last stored under it, and the browser that has the link gets its payload back.
-/

namespace Oxbin.Paste

open Live (Time unix unixTime)
open Browser (Web encryptPayload decryptPayload encodeBase64url withKeyFragment
  keyFromFragmentOrURL)

/-- The paste that a statement returns has this content. -/
def StoredPaste.Carries (paste : StoredPaste) : Content → Prop
  | .plaintext payload => paste.payload = payload ∧ paste.isEncrypted = false
  | .encrypted envelope => paste.envelope = some envelope ∧ paste.isEncrypted = true

/-- After a run, the store and the API return this content for a paste.  A creation stores it under
a slug that is not in use; from then on it is served until a statement deletes it; and every
statement that finds it, and every answer that carries content, carries this content, as long as no
other paste is stored under the slug. -/
structure ComesBack (options : Options) (events : List Event) (new : NewPaste)
    (content : Content) : Prop where
  stored : ∀ index now attempt slug,
    (run options events).tasks[index]? = some (.create new now attempt) →
    (run options events).table.row? slug = none →
    ((run options events).step options (.execute index (.settled (some slug)))).history =
      (run options events).history ++ [.stored slug new, .answered .create now
        (.created slug (options.pasteURL slug) (unixTime (unix new.expiresAt)))]
  served : ∀ origin slug,
    Since (run options events).history (run options events).history.length origin slug new →
    Removed options events origin slug new ∨ Served options (run options events) slug new
  carries : ∀ slug, (pasteOf slug new).Carries content ∧
    (Response.ofPaste (pasteOf slug new)).Returns content
  answered : ∀ origin slug answer endpoint now response,
    Since (run options events).history answer origin slug new →
    (run options events).history[answer]? = some (.answered endpoint now response) →
    endpoint.slug? = some slug → response.discloses = true → response.Returns content
  found : ∀ origin slug now paste,
    Since (run options events).history (run options events).history.length origin slug new →
    (run options events).table.getActive slug now = .ok paste ∨
      ((run options events).table.consumeActive slug now).1 = .ok paste →
    paste.Carries content

theorem carries_pasteOf (slug : String) (new : NewPaste) :
    (pasteOf slug new).Carries new.content := by
  unfold pasteOf
  cases new.content with
  | plaintext payload => exact ⟨rfl, rfl⟩
  | encrypted envelope => exact ⟨rfl, rfl⟩

theorem comesBack_run (options : Options) (events : List Event) {new : NewPaste}
    (checked : new.content.version = 1) : ComesBack options events new new.content := by
  have kept := run_kept options events
  constructor
  · intro index now attempt slug inFlight fresh
    exact execute_create options _ inFlight fresh
  · intro origin slug since
    exact (row?_or_removed options events since).symm.imp_right fun present =>
      served_of_row? options present checked
  · exact fun slug => ⟨carries_pasteOf slug new, Response.returns_ofPaste slug new⟩
  · intro origin slug answer endpoint now response since answered called disclosed
    obtain ⟨origin', slug', new', since', called', returns, _⟩ :=
      kept.secrecy.disclosed answer endpoint now response answered disclosed
    rw [called, Option.some.injEq] at called'
    subst called'
    obtain ⟨_, rfl⟩ := since.unique since'
    exact returns
  · intro origin slug now paste since found
    have row_eq : ∃ row, (run options events).table.row? slug = some row ∧
        scanPaste row = .ok paste := by
      rcases found with got | consumed
      · obtain ⟨row, present, _, scanned⟩ := Table.getActive_ok got
        exact ⟨row, present, scanned⟩
      · obtain ⟨row, present, _, _, scanned⟩ := Table.consumeActive_ok consumed
        exact ⟨row, present, scanned⟩
    obtain ⟨row, present, scanned⟩ := row_eq
    obtain ⟨origin', new', held, _, rfl⟩ := kept.standing.scanned present scanned
    obtain ⟨_, rfl⟩ := since.unique held.since
    exact carries_pasteOf slug new

theorem content_of_createPlaintext {options : Options} {payload : PlaintextPayload}
    {expiry : String} {burn : Bool} {now : Time} {new : NewPaste}
    (created : createPlaintext options payload expiry burn now = .ok new) :
    new.content = .plaintext payload := by
  simp only [createPlaintext, bind_eq_ok] at created
  obtain ⟨_, _, _, _, same⟩ := created
  cases same
  rfl

theorem content_of_createEncrypted {options : Options} {envelope : CiphertextEnvelope}
    {expiry : String} {burn : Bool} {now : Time} {new : NewPaste}
    (created : createEncrypted options envelope expiry burn now = .ok new) :
    new.content = .encrypted envelope := by
  simp only [createEncrypted, bind_eq_ok] at created
  obtain ⟨_, _, _, _, _, _, same⟩ := created
  cases same
  rfl

/-! ## Base64url -/

/-- The server decodes exactly the non-empty strings that the browser produces, and to the bytes
that the browser decodes them to. -/
theorem decodeBase64urlStrict_iff (value : String) (decoded : List Nat) :
    decodeBase64urlStrict value = some decoded ↔ value ≠ "" ∧ ∃ bytes : List UInt8,
      encodeBase64url bytes = value ∧ Browser.decodeBase64url value = some bytes ∧
      decoded = bytes.map UInt8.toNat := by
  rw [decodeBase64urlStrict_eq, decodeBase64url_eq_some]
  constructor
  · rintro ⟨bytes, nonempty, rfl, rfl⟩
    refine ⟨encodeToString_ne_empty nonempty, bytes, Browser.encodeBase64url_eq bytes, ?_, rfl⟩
    rw [← Browser.encodeBase64url_eq, Browser.decodeBase64url_encodeBase64url]
  · rintro ⟨nonempty, bytes, rfl, _, rfl⟩
    refine ⟨bytes, ?_, (Browser.encodeBase64url_eq bytes).symm, rfl⟩
    rintro rfl
    exact nonempty (by rw [Browser.encodeBase64url_eq]; rfl)

/-- The server reads an encoding of the browser as its bytes. -/
theorem decodeBase64url_encodeBase64url {bytes : List UInt8} (nonempty : bytes ≠ []) :
    decodeBase64url (encodeBase64url bytes) = some (bytes.map UInt8.toNat) :=
  decodeBase64url_eq_some.mpr ⟨bytes, nonempty, (Browser.encodeBase64url_eq bytes).symm, rfl⟩

/-! ## Encrypted pastes -/

section Encrypted

variable {Url : Type} {web : Web Url} {payload : Browser.PlaintextPayload}
  {rawKey iv : List UInt8} {encrypted : Browser.EncryptedPaste}

theorem encryptPayload_eq (built : encryptPayload web payload rawKey iv = some encrypted) :
    (Browser.assertPlaintextPayload payload.value).isSome ∧ encrypted = {
      envelope := {
        version := 1
        algorithm := "A256GCM"
        iv := encodeBase64url iv
        ciphertext := encodeBase64url (web.encrypt rawKey iv (web.stringify payload.value)) }
      key := encodeBase64url rawKey } := by
  simp only [encryptPayload, Option.bind_eq_bind, Option.bind_eq_some_iff,
    Option.some.injEq] at built
  obtain ⟨_, accepted, rfl⟩ := built
  exact ⟨by rw [accepted]; rfl, rfl⟩

/-- The server checks nothing of the envelope of the browser but the size of its ciphertext. -/
theorem validateCiphertextEnvelope_eq {iv ciphertext : List UInt8} (short : iv.length = 12)
    (tagged : 16 ≤ ciphertext.length) {limit : Int} (legal : 1 ≤ limit ∧ limit ≤ maxEnvelopeBytes) :
    validateCiphertextEnvelope {
      version := 1
      algorithm := "A256GCM"
      iv := encodeBase64url iv
      ciphertext := encodeBase64url ciphertext } limit =
        if limit < ciphertext.length then .error .payloadTooLarge else .ok ciphertext.length := by
  have ivNonempty : iv ≠ [] := fun empty => by rw [empty] at short; cases short
  have ciphertextNonempty : ciphertext ≠ [] := by
    rintro rfl
    simp at tagged
  have known : ¬((1 : Int) ≠ cryptoVersion ∨ "A256GCM" ≠ cryptoAlgorithm) := by decide
  have whole : ¬ciphertext.length < aesGCMTagBytes := not_lt.mpr tagged
  unfold validateCiphertextEnvelope
  simp only [decodeBase64url_encodeBase64url ivNonempty,
    decodeBase64url_encodeBase64url ciphertextNonempty, List.length_map, if_neg known, short]
  rw [if_neg (by omega), if_neg (by decide), if_neg whole]

/-- The server accepts the envelope of the browser if its ciphertext fits. -/
theorem validate_encryptPayload (standard : web.Standard) (short : iv.length = 12)
    (built : encryptPayload web payload rawKey iv = some encrypted) {limit : Int}
    (legal : 1 ≤ limit ∧ limit ≤ maxEnvelopeBytes)
    (fits : ((web.encrypt rawKey iv (web.stringify payload.value)).length : Int) ≤ limit) :
    validateCiphertextEnvelope encrypted.envelope limit =
      .ok ((web.encrypt rawKey iv (web.stringify payload.value)).length : Int) := by
  obtain ⟨_, rfl⟩ := encryptPayload_eq built
  have tag := standard.length_encrypt rawKey iv (web.stringify payload.value)
  rw [validateCiphertextEnvelope_eq short (by omega) legal, if_neg (by omega)]

/-- The browser decrypts its envelope with its key. -/
theorem decryptPayload_encryptPayload (standard : web.Standard) (long : rawKey.length = 32)
    (short : iv.length = 12) (built : encryptPayload web payload rawKey iv = some encrypted) :
    decryptPayload web encrypted.envelope encrypted.key = some payload := by
  obtain ⟨accepted, rfl⟩ := encryptPayload_eq built
  have tag := standard.length_encrypt rawKey iv (web.stringify payload.value)
  have whole : ¬(web.encrypt rawKey iv (web.stringify payload.value)).length < 16 := by omega
  have same : Browser.assertPlaintextPayload payload.value = some payload := by
    obtain ⟨version, title, language, content⟩ := payload
    have read : Browser.assertPlaintextPayload
        (Browser.PlaintextPayload.value ⟨version, title, language, content⟩) =
          if version ≠ 1 ∨ content = [] then none
          else some ⟨version, title, language, content⟩ := rfl
    rw [read] at accepted ⊢
    split at accepted
    case isTrue => cases accepted
    case isFalse valid => rw [if_neg valid]
  have checked : Browser.assertEnvelope {
      version := 1
      algorithm := "A256GCM"
      iv := encodeBase64url iv
      ciphertext := encodeBase64url (web.encrypt rawKey iv (web.stringify payload.value)) } =
        some () := by
    simp [Browser.assertEnvelope, Browser.decodeBase64url_encodeBase64url, short, whole]
  unfold decryptPayload
  simp [checked, Browser.decodeBase64url_encodeBase64url, long,
    standard.decrypt_encrypt _ _ _ long short, standard.parse_stringify, same]

/-! ## Links -/

theorem trim_eq_self {value : List Char} (printable : ∀ rune ∈ value, '!' ≤ rune ∧ rune ≤ '~') :
    Browser.trim value = value := by
  have visible {rune : Char} (range : '!' ≤ rune ∧ rune ≤ '~') : Browser.jsSpace rune = false := by
    have first : 33 ≤ rune.toNat := range.1
    have last : rune.toNat ≤ 126 := range.2
    rw [Browser.jsSpace, decide_eq_false_iff_not]
    rintro (listed | ⟨low, _⟩)
    · have codes : ['\t', '\n', '\x0b', '\x0c', '\r', ' ', '\u00a0', '\u1680', '\u2028',
          '\u2029', '\u202f', '\u205f', '\u3000', '\ufeff'].all (fun space =>
            decide (space.toNat < 33 ∨ 126 < space.toNat)) = true := by decide
      have code := of_decide_eq_true (List.all_eq_true.mp codes rune listed)
      omega
    · have code : 0x2000 ≤ rune.toNat := low
      omega
  have kept {word : List Char} (printable : ∀ rune ∈ word, '!' ≤ rune ∧ rune ≤ '~') :
      word.dropWhile Browser.jsSpace = word := by
    cases word with
    | nil => rfl
    | cons rune word =>
        rw [List.dropWhile_cons_of_neg (by simp [visible (printable rune List.mem_cons_self)])]
  rw [Browser.trim, kept printable, kept fun rune member =>
    printable rune (List.mem_reverse.mp member),
    List.reverse_reverse]

theorem printable_urlAlphabet {rune : Char} (member : rune ∈ urlAlphabet) :
    ('!' ≤ rune ∧ rune ≤ '~') ∧ rune ≠ '#' ∧ rune ≠ ':' := by
  have letters : urlAlphabet.all (fun rune =>
      decide (('!' ≤ rune ∧ rune ≤ '~') ∧ rune ≠ '#' ∧ rune ≠ ':')) = true := by decide
  exact of_decide_eq_true (List.all_eq_true.mp letters rune member)

theorem printable_encodeBase64url {bytes : List UInt8} {rune : Char}
    (member : rune ∈ (encodeBase64url bytes).toList) :
    ('!' ≤ rune ∧ rune ≤ '~') ∧ rune ≠ '#' ∧ rune ≠ ':' :=
  printable_urlAlphabet (Browser.mem_urlAlphabet member)

/-- A key is a key fragment of its own. -/
theorem keyFromFragmentOrURL_key (web : Web Url) (long : rawKey.length = 32) :
    keyFromFragmentOrURL web (encodeBase64url rawKey) = some (encodeBase64url rawKey) := by
  have trimmed : Browser.trim (encodeBase64url rawKey).toList = (encodeBase64url rawKey).toList :=
    trim_eq_self fun rune member => (printable_encodeBase64url member).1
  have relative : ¬[':', '/', '/'] <:+: (encodeBase64url rawKey).toList := by
    intro inside
    exact (printable_encodeBase64url (inside.subset List.mem_cons_self)).2.2 rfl
  have unmarked : (encodeBase64url rawKey).toList.head? ≠ some '#' := fun mark =>
    (printable_encodeBase64url (List.mem_of_head? mark)).2.1 rfl
  unfold keyFromFragmentOrURL
  simp [trimmed, relative, unmarked, Browser.decodeBase64url_encodeBase64url, long]

/-- The key is found in the link that carries it. -/
theorem keyFromFragmentOrURL_withKeyFragment (standard : web.Standard)
    (long : rawKey.length = 32) {url : String} {parsed : Url} (valid : web.url url = some parsed)
    (http : web.protocol parsed ∈ ["http:", "https:"]) :
    ∃ shared, withKeyFragment web url (encodeBase64url rawKey) = some shared ∧
      keyFromFragmentOrURL web shared = some (encodeBase64url rawKey) := by
  have nonempty : encodeBase64url rawKey ≠ "" := by
    rw [Browser.encodeBase64url_eq]
    refine encodeToString_ne_empty fun empty => ?_
    rw [empty] at long
    cases long
  obtain ⟨printable, begins, reread, valid', hash⟩ := standard.fragment url parsed
    (encodeBase64url rawKey) valid http nonempty fun rune member => Browser.mem_urlAlphabet member
  have absolute : [':', '/', '/'] <:+:
      (web.href (web.setHash parsed (encodeBase64url rawKey))).toList := by
    obtain ⟨rest, whole⟩ := begins
    rw [← whole]
    simp only [List.mem_cons, List.not_mem_nil, or_false] at http
    rcases http with same | same
    · rw [same]
      exact ⟨['h', 't', 't', 'p'], rest, rfl⟩
    · rw [same]
      exact ⟨['h', 't', 't', 'p', 's'], rest, rfl⟩
  refine ⟨web.href (web.setHash parsed (encodeBase64url rawKey)), ?_, ?_⟩
  · unfold withKeyFragment
    simp [keyFromFragmentOrURL_key web long, valid]
  · have key_eq : String.ofList ((web.hash reread).toList.drop 1) = encodeBase64url rawKey := by
      rw [hash, String.toList_append]
      exact String.ofList_toList
    unfold keyFromFragmentOrURL
    simp only [trim_eq_self printable, absolute, if_true, String.ofList_toList, valid',
      Option.map_some, key_eq, Option.bind_eq_bind, Option.bind_some,
      Browser.decodeBase64url_encodeBase64url, long]
    simp

end Encrypted

/-! ## The round trip -/

/-- Whatever happens in a run, plaintext and envelopes are stored, are found until a statement
deletes them, and come back as they were created; the envelope that the browser makes of a payload
is accepted if its ciphertext fits, and the key in its link decrypts it to that payload; and both
sides agree on base64url. -/
theorem pastes_come_back {Url : Type} (web : Web Url) (standard : web.Standard) (options : Options)
    (events : List Event) :
    (∀ payload expiry burn now new, createPlaintext options payload expiry burn now = .ok new →
      ComesBack options events new (.plaintext payload)) ∧
    (∀ envelope expiry burn now new, createEncrypted options envelope expiry burn now = .ok new →
      ComesBack options events new (.encrypted envelope)) ∧
    (∀ payload rawKey iv encrypted, rawKey.length = 32 → iv.length = 12 →
      encryptPayload web payload rawKey iv = some encrypted →
      (∀ limit, 1 ≤ limit ∧ limit ≤ maxEnvelopeBytes →
        ((web.encrypt rawKey iv (web.stringify payload.value)).length : Int) ≤ limit →
        validateCiphertextEnvelope encrypted.envelope limit =
          .ok ((web.encrypt rawKey iv (web.stringify payload.value)).length : Int)) ∧
      ∀ url parsed, web.url url = some parsed → web.protocol parsed ∈ ["http:", "https:"] →
        ∃ shared key, withKeyFragment web url encrypted.key = some shared ∧
          keyFromFragmentOrURL web shared = some key ∧
          decryptPayload web encrypted.envelope key = some payload) ∧
    ∀ value decoded, decodeBase64urlStrict value = some decoded ↔ value ≠ "" ∧
      ∃ bytes : List UInt8, encodeBase64url bytes = value ∧
        Browser.decodeBase64url value = some bytes ∧ decoded = bytes.map UInt8.toNat := by
  refine ⟨?_, ?_, ?_, decodeBase64urlStrict_iff⟩
  · intro payload expiry burn now new created
    rw [← content_of_createPlaintext created]
    exact comesBack_run options events (version_of_createPlaintext created)
  · intro envelope expiry burn now new created
    rw [← content_of_createEncrypted created]
    exact comesBack_run options events (version_of_createEncrypted created)
  · intro payload rawKey iv encrypted long short built
    refine ⟨fun limit legal fits => validate_encryptPayload standard short built legal fits,
      fun url parsed valid http => ?_⟩
    have key_eq : encrypted.key = encodeBase64url rawKey := by
      obtain ⟨_, rfl⟩ := encryptPayload_eq built
      rfl
    obtain ⟨shared, made, found⟩ :=
      keyFromFragmentOrURL_withKeyFragment standard long valid http
    have decrypted := decryptPayload_encryptPayload standard long short built
    rw [key_eq] at decrypted ⊢
    exact ⟨shared, _, made, found, decrypted⟩

/-! ## A browser without secrets -/

/-- A character for every code unit; surrogates get characters of the last plane. -/
def unitRune (unit : UInt16) : Char :=
  if unit.toNat < 0xD800 ∨ 0xE000 ≤ unit.toNat then Char.ofNat unit.toNat
  else Char.ofNat (0x100000 + unit.toNat)

/-- The code unit of such a character. -/
def runeUnit (rune : Char) : UInt16 := .ofNat (rune.toNat % 0x10000)

theorem runeUnit_unitRune (unit : UInt16) : runeUnit (unitRune unit) = unit := by
  have bound := unit.toNat_lt
  have whole : unit.toNat % 0x10000 = unit.toNat := Nat.mod_eq_of_lt bound
  unfold runeUnit unitRune
  split
  case isTrue plain =>
    have valid : unit.toNat.isValidChar := by
      rcases plain with low | high
      · exact .inl low
      · exact .inr ⟨by omega, by omega⟩
    rw [Livecollab.toNat_ofNat valid, whole, UInt16.ofNat_toNat]
  case isFalse surrogate =>
    have valid : (0x100000 + unit.toNat).isValidChar := .inr ⟨by omega, by omega⟩
    rw [Livecollab.toNat_ofNat valid, show (0x100000 + unit.toNat) % 0x10000 = unit.toNat by omega,
      UInt16.ofNat_toNat]

/-- The JSON of a payload. -/
def plainJson (payload : Browser.PlaintextPayload) : Json :=
  .obj [("version", .num payload.version),
    ("title", .str (String.ofList (payload.title.map unitRune))),
    ("language", .str (String.ofList (payload.language.map unitRune))),
    ("content", .str (String.ofList (payload.content.map unitRune)))]

/-- A browser whose cipher only appends a tag, and whose URLs are a part before the first `#` and
one after it. -/
def plainWeb : Web (List Char × List Char) where
  encrypt _ _ plaintext := plaintext ++ List.replicate 16 0
  decrypt _ _ ciphertext := some (ciphertext.take (ciphertext.length - 16))
  stringify value :=
    match value with
    | .object [(_, .number version), (_, .string title), (_, .string language),
        (_, .string content)] => Utf8.encode (plainJson ⟨version, title, language, content⟩).text
    | _ => []
  parse bytes :=
    match Json.parse (Utf8.decode bytes) with
    | some (.obj [(_, .num version), (_, .str title), (_, .str language), (_, .str content)]) =>
        some (Browser.PlaintextPayload.value ⟨version, title.toList.map runeUnit,
          language.toList.map runeUnit, content.toList.map runeUnit⟩)
    | _ => none
  url value :=
    if ['h', 't', 't', 'p', ':', '/', '/'] <+: value.toList ∧
        value.toList.all fun rune => '!' ≤ rune ∧ rune ≤ '~' then
      some (value.toList.takeWhile fun rune => rune ≠ '#',
        (value.toList.dropWhile fun rune => rune ≠ '#').drop 1)
    else none
  protocol _ := "http:"
  hash parsed := if parsed.2 = [] then "" else "#" ++ String.ofList parsed.2
  setHash parsed fragment := (parsed.1, fragment.toList)
  href parsed := String.ofList (parsed.1 ++ if parsed.2 = [] then [] else '#' :: parsed.2)

theorem plainWeb_standard : plainWeb.Standard where
  decrypt_encrypt key iv plaintext _ _ := by simp [plainWeb]
  length_encrypt key iv plaintext := by simp [plainWeb]
  parse_stringify payload := by
    have parsed : Json.parse (plainJson payload).text = some (plainJson payload) :=
      Json.parse_text (by simp [plainJson, Json.Writable, Json.maxDepth])
    have units (word : List UInt16) :
        (String.ofList (word.map unitRune)).toList.map runeUnit = word := by
      simp [Function.comp_def, runeUnit_unitRune]
    have read : plainWeb.parse (plainWeb.stringify payload.value) =
        match Json.parse (Utf8.decode (Utf8.encode (plainJson payload).text)) with
        | some (.obj [(_, .num version), (_, .str title), (_, .str language), (_, .str content)]) =>
            some (Browser.PlaintextPayload.value ⟨version, title.toList.map runeUnit,
              language.toList.map runeUnit, content.toList.map runeUnit⟩)
        | _ => none := rfl
    rw [read, Utf8.decode_encode, parsed, plainJson]
    simp only [units]
  fragment url parsed fragment valid _ nonempty letters := by
    have filled : fragment.toList ≠ [] := fun empty => nonempty (String.toList_eq_nil_iff.mp empty)
    simp only [plainWeb, List.all_eq_true, decide_eq_true_eq] at valid ⊢
    split at valid
    case isFalse => cases valid
    case isTrue absolute =>
      obtain ⟨⟨rest, begins⟩, printable⟩ := absolute
      cases valid
      have kept : url.toList.takeWhile (fun rune => rune ≠ '#') =
          ['h', 't', 't', 'p', ':', '/', '/'] ++ rest.takeWhile fun rune => rune ≠ '#' := by
        rw [← begins]
        rfl
      have unmarked : ∀ rune ∈ url.toList.takeWhile (fun rune => rune ≠ '#'),
          decide (rune ≠ '#') = true := by
        intro rune member
        have other := List.mem_takeWhile_imp member
        exact other
      have shared_printable : ∀ rune ∈ url.toList.takeWhile (fun rune => rune ≠ '#') ++
          '#' :: fragment.toList, '!' ≤ rune ∧ rune ≤ '~' := by
        intro rune member
        rcases List.mem_append.mp member with front | back
        · exact printable rune ((List.takeWhile_prefix _).subset front)
        · rcases List.mem_cons.mp back with rfl | back
          · decide
          · exact (printable_urlAlphabet (letters rune back)).1
      have shared_begins : ['h', 't', 't', 'p', ':', '/', '/'] <+:
          url.toList.takeWhile (fun rune => rune ≠ '#') ++ '#' :: fragment.toList := by
        rw [kept, List.append_assoc]
        exact List.prefix_append _ _
      simp only [if_neg filled, String.toList_ofList]
      refine ⟨shared_printable, shared_begins, _, if_pos ⟨shared_begins, shared_printable⟩, ?_⟩
      have marked : (url.toList.takeWhile (fun rune => rune ≠ '#') ++
          '#' :: fragment.toList).dropWhile (fun rune => rune ≠ '#') = '#' :: fragment.toList := by
        rw [List.dropWhile_append_of_pos unmarked]
        rfl
      simp only [marked, List.drop_succ_cons, List.drop_zero, if_neg filled, String.ofList_toList]

/-- A configuration with the default expiries. -/
def plainOptions : Options where
  creationEnabled := true
  pasteURL slug := "http://localhost:8080/" ++ slug
  expiries := defaultExpiryPolicy
  contentLimit := 1024
  batchSize := 1
  maxBatches := 1
  contentLimit_range := by decide
  batches_pos := by decide

/-- A plaintext payload with a line break of two units. -/
def sharedPayload : PlaintextPayload := ⟨1, "notes", "go", "a\r\nb"⟩

/-- The envelope that the browser makes of a payload. -/
def sharedEnvelope : CiphertextEnvelope where
  version := 1
  algorithm := "A256GCM"
  iv := encodeBase64url (List.replicate 12 9)
  ciphertext := encodeBase64url (plainWeb.encrypt (List.replicate 32 7) (List.replicate 12 9)
    (plainWeb.stringify (Browser.PlaintextPayload.value ⟨1, [], [], [97]⟩)))

/-- A request that is let through. -/
def Request.permitted (request : Request) (second : Int) : List Event :=
  [.arrive request ⟨true, true, true, true, true⟩ (unixTime second), .execute 0 (.settled none)]

/-- A creation that is let through, with the slug that is generated for it. -/
def permittedCreation (mode : String) (content : Content) (expiry : String) (burnAfterRead : Bool)
    (slug : String) (second : Int) : List Event :=
  [.arrive (.create (.ok ⟨mode, Utf8.encode content.json.text, expiry, burnAfterRead⟩))
    ⟨true, true, true, true, true⟩ (unixTime second), .execute 0 (.settled (some slug))]

/-- A paste is created, got, and read as text; an encrypted one is created, survives a cleanup pass,
and is consumed. -/
def sharedEvents : List Event :=
  permittedCreation "plaintext" (.plaintext sharedPayload) "1h" false "abc" 1 ++
    (Request.get "abc").permitted 2 ++ (Request.raw "abc").permitted 3 ++
    permittedCreation "encrypted" (.encrypted sharedEnvelope) "24h" true "def" 4 ++
    [.cleanup (unixTime 5), .execute 0 (.settled none)] ++ (Request.consume "def").permitted 6

/-- The pastes that the two creations store. -/
def sharedPaste : NewPaste :=
  ⟨.plaintext sharedPayload, false, 4, unixTime 3601, unixTime 1⟩

def sharedSecret : NewPaste :=
  ⟨.encrypted sharedEnvelope, true, 68, unixTime (24 * 3600 + 4), unixTime 4⟩

/-- What is on record after these events. -/
def sharedHistory : List Entry :=
  [.stored "abc" sharedPaste,
    .answered .create (unixTime 1)
      (.created "abc" "http://localhost:8080/abc" (unixTime 3601)),
    .answered (.get "abc") (unixTime 2) (.ofPaste (pasteOf "abc" sharedPaste)),
    .answered (.raw "abc") (unixTime 3) (.text "a\r\nb"),
    .stored "def" sharedSecret,
    .answered .create (unixTime 4)
      (.created "def" "http://localhost:8080/def" (unixTime (24 * 3600 + 4))),
    .answered (.consume "def") (unixTime 6) (.ofPaste (pasteOf "def" sharedSecret))]

theorem sharedEvents_done : (run plainOptions sharedEvents).history = sharedHistory := by
  decide +kernel

/-- A paste is got and read unchanged and is still served at the end; an encrypted one is consumed
unchanged, and the key of its link decrypts it. -/
theorem pastes_come_back_shared :
    (run plainOptions sharedEvents).history = sharedHistory ∧
      (Response.ofPaste (pasteOf "abc" sharedPaste)).Returns (.plaintext sharedPayload) ∧
      (Response.text "a\r\nb").Returns (.plaintext sharedPayload) ∧
      Served plainOptions (run plainOptions sharedEvents) "abc" sharedPaste ∧
      (Response.ofPaste (pasteOf "def" sharedSecret)).Returns (.encrypted sharedEnvelope) ∧
      ∃ encrypted shared key,
        encryptPayload plainWeb ⟨1, [], [], [97]⟩ (List.replicate 32 7) (List.replicate 12 9) =
          some encrypted ∧ encrypted.envelope = sharedEnvelope ∧
        withKeyFragment plainWeb "http://localhost:8080/def" encrypted.key = some shared ∧
        keyFromFragmentOrURL plainWeb shared = some key ∧
        decryptPayload plainWeb encrypted.envelope key = some ⟨1, [], [], [97]⟩ := by
  obtain ⟨plain, secret, encrypts, _⟩ :=
    pastes_come_back plainWeb plainWeb_standard plainOptions sharedEvents
  have shared := plain sharedPayload "1h" false (unixTime 1) sharedPaste
    (Live.ok_of_toOption (by decide +kernel))
  have hidden := secret sharedEnvelope "24h" true (unixTime 4) sharedSecret
    (Live.ok_of_toOption (by decide +kernel))
  have first (answer : Nat) (after : 0 < answer) :
      Since (run plainOptions sharedEvents).history answer 0 "abc" sharedPaste := by
    rw [sharedEvents_done]
    exact since_of_drop rfl after (by simp [sharedHistory])
  have second : Since (run plainOptions sharedEvents).history 6 4 "def" sharedSecret := by
    rw [sharedEvents_done]
    exact since_of_drop rfl (by decide) (by simp [sharedHistory])
  have kept : ¬Removed plainOptions sharedEvents 0 "abc" sharedPaste := by decide +kernel
  obtain ⟨_, link⟩ := encrypts ⟨1, [], [], [97]⟩ (List.replicate 32 7) (List.replicate 12 9) _
    (by decide) (by decide) rfl
  obtain ⟨url, key, made, found, decrypted⟩ :=
    link "http://localhost:8080/def" ("http://localhost:8080/def".toList, []) (by decide)
      (by decide)
  refine ⟨sharedEvents_done, ?_, ?_, ?_, ?_, _, url, key, rfl, rfl, made, found, decrypted⟩
  · exact shared.answered 0 "abc" 2 _ _ _ (first 2 (by decide)) (by rw [sharedEvents_done]; rfl)
      rfl rfl
  · exact shared.answered 0 "abc" 3 _ _ _ (first 3 (by decide)) (by rw [sharedEvents_done]; rfl)
      rfl rfl
  · refine (shared.served 0 "abc" (first _ ?_)).resolve_left kept
    rw [sharedEvents_done]
    decide
  · exact hidden.answered 4 "def" 6 _ _ _ second (by rw [sharedEvents_done]; rfl) rfl rfl

end Oxbin.Paste
