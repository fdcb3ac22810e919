import Oxbin.Httpapi.Passwords
import Oxbin.Live.Credentials
import Oxbin.Paste.Base64
import Oxbin.Paste.Requests

/-!
# Creating and opening live rooms

The handlers of `internal/httpapi/live.go` up to the point at which a connection joins its room,
with the access sessions of `live_session.go` and the creator credentials of
`internal/live/creator.go`.  Statements of the database and calls on the sessions are atomic, and
those of several requests interleave.
-/

namespace Oxbin.Httpapi

open Live Storage
open Paste (validSlug)

/-! ## Sessions -/

def liveSessionLifetime : Int := 15 * 60 * 1000000000
def liveMaxSessions : Nat := 10000

/-- `liveSessionRecord`. -/
structure LiveSessionRecord where
  slug : String
  expires : Time
  deriving DecidableEq

/-- The records of `liveSessionStore`. -/
abbrev LiveSessions := Keyed LiveSessionRecord

namespace LiveSessions

/-- `pruneExpiredLocked`. -/
def pruneExpired (records : LiveSessions) (now : Time) : LiveSessions where
  entries := records.entries.filter fun entry => now < entry.2.expires
  nodupKeys := records.nodupKeys.sublist List.filter_sublist

/-- `put`, with its token.  When all places are taken, the first record that the loop visits gives
way; `visited` says which one that is. -/
def put (records : LiveSessions) (token slug : String) (expires now : Time) (visited : Nat) :
    LiveSessions :=
  let records := records.pruneExpired now
  let records :=
    if liveMaxSessions ≤ records.keys.length then
      records.erase (records.keys.getD (visited % records.keys.length) "")
    else records
  records.insert token ⟨slug, expires⟩

/-- `get`: whether the token opens the room. -/
def get (records : LiveSessions) (token slug : String) (now : Time) : LiveSessions × Bool :=
  if token = "" then (records, false)
  else
    match records.lookup token with
    | none => (records, false)
    | some record =>
        if record.slug = slug ∧ now < record.expires then (records, true)
        else if record.expires ≤ now then (records.erase token, false)
        else (records, false)

end LiveSessions

/-! ## Creators -/

def creatorTokenBytes : Nat := 32

/-- `CookieValue`. -/
def cookieValue (capability : CreatorCapability) : String :=
  if capability.valid then Paste.encodeToString capability.token else ""

/-- `HashForRoom`. -/
def hashForRoom [Host] (capability : CreatorCapability) (slug : String) : List UInt8 :=
  if capability.valid = false ∨ slug = "" then [] else Host.creatorHash capability.token slug

/-- `ParseCreatorCapability`. -/
def parseCreatorCapability (value : String) : Option CreatorCapability :=
  match Base64.decode Paste.sextet value.toList with
  | none => none
  | some decoded =>
      if decoded.length ≠ creatorTokenBytes ∨ Paste.encodeToString decoded ≠ value then none
      else some ⟨decoded, true⟩

/-- `creatorCapability`. -/
def creatorCapability [Host] (cookie : Option String) (snapshot : RoomSnapshot) (now : Time) :
    Option CreatorCapability :=
  if snapshot.expiresAt ≤ now then none
  else
    match cookie.bind parseCreatorCapability with
    | none => none
    | some capability =>
        if capability.matchesRoomHash snapshot.slug snapshot.creatorTokenHash then some capability
        else none

/-! ## Requests and answers -/

/-- What the handlers use of the configuration. -/
structure LiveConfig where
  creationEnabled : Bool
  liveMaxBytes : Int
  liveMaxTabs : Int
  liveMaxWriters : Int
  liveMaxViewers : Int
  liveMaxParticipants : Int
  liveRoomLifetime : Int
  liveRoomURL : String → String

/-- `liveCreateDocument`. -/
structure LiveCreateDocument where
  name : String
  language : String
  content : String

/-- `liveCreateRequest`. -/
structure LiveCreateRequest where
  password : String
  documents : List LiveCreateDocument

/-- The cookies of a request. -/
structure LiveCookies where
  session : Option String
  creator : Option String

/-- The errors of `decodeJSON`. -/
inductive RequestError where
  | tooLarge
  | malformed

/-- A request, with its body as `decodeJSON` reads it. -/
inductive LiveRequest where
  | create (body : Except RequestError LiveCreateRequest)
  | bootstrap (slug clientID : String) (cookies : LiveCookies)
  | unlock (slug : String) (body : Except RequestError String)
  | websocket (slug : String) (originAllowed : Bool) (cookies : LiveCookies)

/-- `liveDocumentResponse`. -/
structure LiveDocumentResponse where
  id : String
  name : String
  language : String
  content : String
  position : Int
  revision : Int
  snapshotRevision : Int

/-- `liveRoomResponse` of a snapshot. -/
structure LiveRoomResponse where
  slug : String
  expiresAt : Time
  passwordRequired : Bool
  metadataRevision : Int
  metadataSnapshotRevision : Int
  maxBytes : Int
  maxDocumentBytes : Int
  maxTabs : Int
  maxWriters : Int
  maxViewers : Int
  maxParticipants : Int
  roomLifetimeSeconds : Int
  creator : Bool
  locked : Bool
  documents : List LiveDocumentResponse
  acceptedOperationIDs : List String

/-- An answer, with the cookies that it sets; the last one is that of a connection that has been
accepted. -/
inductive LiveResponse where
  | created (slug url : String) (expiresAt : Time) (passwordRequired : Bool)
      (session creator : Option String)
  | room (response : LiveRoomResponse) (session : Option String)
  | error (status : Nat) (code message : String)
  | accepted (creator : Option CreatorCapability)

namespace LiveResponse

def notFound : LiveResponse := .error 404 "not_found" "Not found"
def rateLimited : LiveResponse := .error 429 "rate_limited" "Too many requests"
def unavailable : LiveResponse :=
  .error 503 "service_unavailable" "Live sharing is temporarily unavailable"
def invalidRequest : LiveResponse := .error 400 "invalid_request" "Invalid live room request"
def contentTooLarge : LiveResponse :=
  .error 413 "message_too_large" "Live room content is too large"
def invalidPassword : LiveResponse := .error 401 "invalid_password" "Invalid password"
def passwordRequired : LiveResponse := .error 401 "password_required" "Password required"
def forbidden : LiveResponse :=
  .error 403 "forbidden" "WebSocket connection is not allowed"
def connectionLimit : LiveResponse :=
  .error 429 "connection_limit_reached" "Too many live connections"

/-- `writeRequestError`. -/
def ofRequestError : RequestError → LiveResponse
  | .tooLarge => .error 413 "message_too_large" "Live room message is too large"
  | .malformed => invalidRequest

/-- `writeStoreError`. -/
def ofStoreError : LiveError → LiveResponse
  | .roomNotFound | .roomExpired => notFound
  | .roomLimit => .error 413 "room_limit_reached" "Live room limit reached"
  | _ => .error 503 "service_unavailable" "Service is temporarily unavailable"

/-- The answer has a snapshot of a room, or opens a connection to it. -/
def discloses : LiveResponse → Bool
  | .room _ _ | .accepted _ => true
  | _ => false

/-- The answer treats the request as that of the creator. -/
def honours : LiveResponse → Bool
  | .room response _ => response.creator
  | .accepted creator => creator.isSome
  | _ => false

end LiveResponse

/-- `responseForLiveSnapshot`. -/
def responseForLiveSnapshot (config : LiveConfig) (snapshot : RoomSnapshot) : LiveRoomResponse where
  slug := snapshot.slug
  expiresAt := snapshot.expiresAt
  passwordRequired := false
  metadataRevision := snapshot.metadataRevision
  metadataSnapshotRevision := snapshot.metadataSnapshotRevision
  maxBytes := config.liveMaxBytes
  maxDocumentBytes := config.liveMaxBytes
  maxTabs := config.liveMaxTabs
  maxWriters := config.liveMaxWriters
  maxViewers := config.liveMaxViewers
  maxParticipants := config.liveMaxParticipants
  roomLifetimeSeconds := config.liveRoomLifetime.tdiv 1000000000
  creator := false
  locked := snapshot.locked
  documents := snapshot.documents.map fun document => {
    id := document.id, name := document.name, language := document.language
    content := document.content, position := document.position
    revision := document.currentRevision, snapshotRevision := document.snapshotRevision }
  acceptedOperationIDs := []

/-! ## Creating a room -/

/-- What the handlers take from their surroundings: the limiter's answers, a slot for hashing,
random bytes, and the failures of the database. -/
structure Provision where
  permits : Bool
  slot : Bool
  salt : Option (List UInt8)
  creatorToken : Option (List UInt8)
  documentIDs : Nat → Nat → Option String
  fault : Bool

/-- `newLiveDocumentID`; the candidates are the random bytes in hexadecimal digits. -/
def newLiveDocumentID (used : List String) (candidate : Nat → Option String) : Option String :=
  let rec go : Nat → Nat → Option String
    | 0, _ => none
    | attempts + 1, attempt =>
        match candidate attempt with
        | none => none
        | some digits => if "doc-" ++ digits ∈ used then go attempts (attempt + 1)
            else some ("doc-" ++ digits)
  go 8 0

/-- The document loop of `create`. -/
def createDocuments (maxBytes : Int) (candidates : Nat → Nat → Option String) (now : Time) :
    List LiveCreateDocument → Nat → List String → Int →
      Except LiveResponse (List DocumentSnapshot × Int)
  | [], _, _, size => .ok ([], size)
  | input :: inputs, index, used, size =>
      if validateTabName input.name ≠ .ok () ∨ validateLanguageID input.language ≠ .ok () then
        .error .invalidRequest
      else if validateDocumentContent input.content maxBytes ≠ .ok () then
        if maxBytes < byteLen input.content then .error .contentTooLarge
        else .error .invalidRequest
      else if maxBytes < size + byteLen input.content then .error .contentTooLarge
      else
        match if index = 0 then some "main" else newLiveDocumentID used (candidates index) with
        | none => .error .unavailable
        | some id => do
            let (documents, size) ← createDocuments maxBytes candidates now inputs (index + 1)
              (id :: used) (size + byteLen input.content)
            .ok ({ id, name := input.name, language := input.language, content := input.content
                   position := index, currentRevision := 0, snapshotRevision := 0
                   updatedAt := now } :: documents, size)

/-- A room that is about to be created, before it has a slug. -/
structure NewRoom where
  password : String
  salt : List UInt8
  creator : CreatorCapability
  expiresAt : Time
  createdAt : Time
  contentSize : Int
  documents : List DocumentSnapshot

/-- The snapshot that `slugInsertRoom` inserts. -/
def NewRoom.snapshot [Host] [Argon2] (new : NewRoom) (slug : String) : RoomSnapshot where
  slug := slug
  passwordHash := hashPassword new.password new.salt
  creatorTokenHash := hashForRoom new.creator slug
  locked := false
  layoutPreset := ""
  contentSize := new.contentSize
  metadataRevision := 0
  metadataSnapshotRevision := 0
  expiresAt := new.expiresAt
  createdAt := new.createdAt
  documents := new.documents

/-- `create`, up to the insertion. -/
def prepareRoom (config : LiveConfig) (provision : Provision) (now : Time)
    (body : Except RequestError LiveCreateRequest) : Except LiveResponse NewRoom :=
  if config.creationEnabled = false then .error .unavailable
  else if provision.permits = false then .error .rateLimited
  else
    match body with
    | .error error => .error (.ofRequestError error)
    | .ok request =>
        if livePasswordMaxBytes < byteLen request.password then .error .invalidRequest
        else if request.documents.length < 1 ∨
            config.liveMaxTabs < request.documents.length then .error .invalidRequest
        else do
          let (documents, contentSize) ← createDocuments config.liveMaxBytes provision.documentIDs
            now request.documents 0 [] 0
          if request.password ≠ "" ∧ provision.slot = false then .error .rateLimited
          else
            match if request.password = "" then some [] else provision.salt with
            | none => .error .invalidRequest
            | some salt =>
                match provision.creatorToken with
                | none => .error .unavailable
                | some token =>
                    .ok {
                      password := request.password, salt, creator := ⟨token, true⟩
                      expiresAt := now + config.liveRoomLifetime, createdAt := now
                      contentSize, documents }

/-! ## Handlers in flight -/

/-- A request before its next statement. -/
inductive LiveTask where
  | creating (body : Except RequestError LiveCreateRequest) (new : NewRoom) (attempt : Nat)
  | created (body : Except RequestError LiveCreateRequest) (new : NewRoom) (slug : String)
  | bootstrapped (slug clientID : String) (cookies : LiveCookies) (now : Time)
      (snapshot : RoomSnapshot) (operations : List OperationRecord)
  | unlocked (slug password : String) (read : Time) (snapshot : RoomSnapshot)
  | connecting (slug : String) (cookies : LiveCookies) (read : Time) (snapshot : RoomSnapshot)

/-- What is on record about a run: the rooms that were stored, the sessions that were granted, for a
password or to the creator, and the answers, with the times of the read and of the check. -/
inductive LiveEntry where
  | stored (slug : String) (new : NewRoom)
  | granted (token slug : String) (password : Option String) (now : Time)
  | answered (request : LiveRequest) (read now : Time) (response : LiveResponse)

/-- The database, the sessions, the requests in flight, and the record of the run, oldest entry
first. -/
structure LiveSystem where
  store : Store
  sessions : LiveSessions
  tasks : List LiveTask
  history : List LiveEntry

/-- A request or the rest of one: its answer or what comes next. -/
structure LiveProgress where
  system : LiveSystem
  next : Option LiveTask

namespace LiveSystem

/-- Enter into the record. -/
def record (system : LiveSystem) (entries : List LiveEntry) : LiveSystem :=
  { system with history := system.history ++ entries }

/-- Answer a request. -/
def answer (system : LiveSystem) (request : LiveRequest) (read now : Time)
    (response : LiveResponse) : LiveProgress :=
  ⟨system.record [.answered request read now response], none⟩

/-- `setSessionCookie`: the cookie, if there are random bytes for a token. -/
def setSessionCookie (system : LiveSystem) (token : Option (List UInt8)) (slug : String)
    (password : Option String) (now clock : Time) (visited : Nat) : LiveSystem × Option String :=
  match token with
  | none => (system, none)
  | some bytes =>
      let token := Paste.encodeToString bytes
      ({ system with
          sessions := system.sessions.put token slug (now + liveSessionLifetime) clock visited
          history := system.history ++ [.granted token slug password now] }, some token)

/-- A handler up to its first statement, and that statement. -/
def arrive [Host] [Argon2] (config : LiveConfig) (system : LiveSystem) (request : LiveRequest)
    (provision : Provision) (now : Time) : LiveProgress :=
  match request with
  | .create body =>
      match prepareRoom config provision now body with
      | .error response => system.answer request now now response
      | .ok new => ⟨system, some (.creating body new 0)⟩
  | .bootstrap slug clientID cookies =>
      if validSlug slug = false then system.answer request now now .notFound
      else if provision.permits = false then system.answer request now now .rateLimited
      else
        let read :=
          if clientID = "" then
            (Store.getRoomSnapshot system.store slug now provision.fault).map fun snapshot =>
              (snapshot, [])
          else
            Store.getRoomSnapshotWithClientOperations system.store slug clientID 64 now
              provision.fault
        match read with
        | .error .invalidChange =>
            system.answer request now now
              (.error 400 "invalid_request" "Invalid live client ID")
        | .error error => system.answer request now now (.ofStoreError error)
        | .ok (snapshot, operations) =>
            ⟨system, some (.bootstrapped slug clientID cookies now snapshot operations)⟩
  | .unlock slug body =>
      if validSlug slug = false then system.answer request now now .notFound
      else if provision.permits = false then system.answer request now now .rateLimited
      else
        match body with
        | .error error => system.answer request now now (.ofRequestError error)
        | .ok password =>
            if livePasswordMaxBytes < byteLen password then
              system.answer request now now .invalidPassword
            else
              match Store.getRoomSnapshot system.store slug now provision.fault with
              | .error error => system.answer request now now (.ofStoreError error)
              | .ok snapshot =>
                  if snapshot.passwordHash = "" then
                    ⟨system, some (.unlocked slug password now snapshot)⟩
                  else
                    match verifyPassword provision.slot password snapshot.passwordHash with
                    | .error .busy => system.answer request now now .rateLimited
                    | .error .invalidHash | .ok false =>
                        system.answer request now now .invalidPassword
                    | .ok true => ⟨system, some (.unlocked slug password now snapshot)⟩
  | .websocket slug originAllowed cookies =>
      if validSlug slug = false ∨ originAllowed = false then
        system.answer request now now .forbidden
      else if provision.permits = false then system.answer request now now .rateLimited
      else
        match Store.getRoomSnapshot system.store slug now provision.fault with
        | .error error => system.answer request now now (.ofStoreError error)
        | .ok snapshot => ⟨system, some (.connecting slug cookies now snapshot)⟩

/-- What a statement meets: the generator's next slug, the failures of the database, random bytes
for a token, what the clock says, a place in the map of sessions, and whether there is room for
another connection. -/
structure Circumstances where
  generated : Option String
  fault : Bool
  token : Option (List UInt8)
  now : Time
  clock : Time
  visited : Nat
  reserved : Bool

/-- The session that a cookie stands for. -/
def session (system : LiveSystem) (cookies : LiveCookies) (slug : String) (now : Time) :
    LiveSystem × Bool :=
  match cookies.session with
  | none => (system, false)
  | some token =>
      let (sessions, opens) := system.sessions.get token slug now
      ({ system with sessions }, opens)

/-- The next statement of a request, and the rest of the handler where that was the last one. -/
def execute [Host] [Argon2] (config : LiveConfig) (system : LiveSystem) (task : LiveTask)
    (circumstances : Circumstances) : LiveProgress :=
  match task with
  | .creating body new attempt =>
      let fails (error : LiveError) : LiveProgress :=
        system.answer (.create body) new.createdAt new.createdAt (.ofStoreError error)
      match circumstances.generated with
      | none => fails .database
      | some slug =>
          match Store.createRoom system.store (new.snapshot slug) circumstances.fault with
          | .ok store =>
              ⟨{ system with store, history := system.history ++ [.stored slug new] },
                some (.created body new slug)⟩
          | .error .roomSlugCollision =>
              if attempt + 1 < 8 then ⟨system, some (.creating body new (attempt + 1))⟩
              else fails .roomSlugCollision
          | .error error => fails error
  | .created body new slug =>
      let (system, session) := system.setSessionCookie circumstances.token slug none new.createdAt
        circumstances.clock circumstances.visited
      let creator :=
        if cookieValue new.creator = "" ∨ new.expiresAt ≤ circumstances.now then none
        else some (cookieValue new.creator)
      system.answer (.create body) new.createdAt circumstances.now
        (.created slug (config.liveRoomURL slug) new.expiresAt
          (hashPassword new.password new.salt ≠ "") session creator)
  | .bootstrapped slug clientID cookies now snapshot operations =>
      let request := .bootstrap slug clientID cookies
      let (checked, opens) :=
        if snapshot.passwordHash = "" then (system, true) else system.session cookies slug now
      if opens = false then checked.answer request now now .passwordRequired
      else
        checked.answer request now now (.room { responseForLiveSnapshot config snapshot with
          acceptedOperationIDs := operations.map OperationRecord.operationID
          creator := (creatorCapability cookies.creator snapshot now).isSome } none)
  | .unlocked slug password read snapshot =>
      let (system, session) :=
        if snapshot.passwordHash = "" then (system, none)
        else system.setSessionCookie circumstances.token slug (some password) circumstances.now
          circumstances.clock circumstances.visited
      system.answer (.unlock slug (.ok password)) read circumstances.now
        (.room (responseForLiveSnapshot config snapshot) session)
  | .connecting slug cookies read snapshot =>
      let request := .websocket slug true cookies
      let (checked, opens) := system.session cookies slug circumstances.now
      if snapshot.passwordHash ≠ "" ∧ opens = false then
        checked.answer request read circumstances.now .passwordRequired
      else if circumstances.reserved = false then
        checked.answer request read circumstances.now .connectionLimit
      else
        checked.answer request read circumstances.now
          (.accepted (creatorCapability cookies.creator snapshot circumstances.clock))

/-! ## Runs -/

/-- What happens next: a request arrives, goes on or is abandoned, a room that is loaded makes a
call, a room is loaded, the cleanup deletes rooms, or the program starts again. -/
inductive Occurrence where
  | arrive (request : LiveRequest) (provision : Provision) (now : Time)
  | execute (index : Nat) (circumstances : Circumstances)
  | abandon (index : Nat)
  | call (room : Room) (action : Action) (own : ∀ store, action.call ≠ .elsewhere store)
  | load (snapshot : RoomSnapshot) (options : HubOptions) (faults : LoadFaults)
  | cleanup (now : Time) (limit : Nat)
  | restart

/-- One step. -/
def step [Host] [Argon2] (config : LiveConfig) (system : LiveSystem) : Occurrence → LiveSystem
  | .arrive request provision now =>
      let progress := system.arrive config request provision now
      { progress.system with tasks := system.tasks ++ progress.next.toList }
  | .execute index circumstances =>
      match system.tasks[index]? with
      | none => system
      | some task =>
          let progress := system.execute config task circumstances
          { progress.system with
            tasks := match progress.next with
              | none => system.tasks.eraseIdx index
              | some next => system.tasks.set index next }
  | .abandon index => { system with tasks := system.tasks.eraseIdx index }
  | .call room action _ =>
      { system with store := (Authority.perform ⟨room, system.store⟩ action).1.store }
  | .load snapshot options faults =>
      { system with store := (Room.newRoom system.store snapshot options faults).1 }
  | .cleanup now limit =>
      match Store.deleteExpiredRooms system.store now limit with
      | .error _ => system
      | .ok (store, _) => { system with store }
  | .restart => { system with sessions := ∅, tasks := [] }

/-- A run from the empty database. -/
def run [Host] [Argon2] (config : LiveConfig) (occurrences : List Occurrence) : LiveSystem :=
  occurrences.foldl (step config) ⟨∅, ∅, [], []⟩

end LiveSystem

end Oxbin.Httpapi
