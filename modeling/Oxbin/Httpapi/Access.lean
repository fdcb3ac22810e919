import Oxbin.Httpapi.Rooms
import Oxbin.Live.Creation
import Oxbin.Live.Reload

/-!
# Who gets into a live room

Over every run, whatever the order of the requests, their statements, the calls on rooms, cleanup
passes and restarts: a room is shown, or a connection to it accepted, only before the room expires,
and only to somebody who knows its password or has a session that was granted for it.
-/

namespace Oxbin.Httpapi

open Live Storage

/-! ## What a request has to show -/

/-- The slug and the cookies that come with a request. -/
def LiveRequest.slug? : LiveRequest → Option String
  | .create _ => none
  | .bootstrap slug _ _ | .unlock slug _ | .websocket slug _ _ => some slug

def LiveRequest.cookies : LiveRequest → LiveCookies
  | .create _ | .unlock _ _ => ⟨none, none⟩
  | .bootstrap _ _ cookies | .websocket _ _ cookies => cookies

/-- A room was created under the slug before a position of the record. -/
def CreatedBefore (history : List LiveEntry) (position : Nat) (slug : String)
    (new : NewRoom) : Prop :=
  ∃ origin < position, history[origin]? = some (.stored slug new)

/-- The password has the key of the password that the room was created with. -/
def Unlocks [Argon2] (new : NewRoom) (password : String) : Prop :=
  passwordKey password new.salt = passwordKey new.password new.salt

/-- Before a position a token was granted, to the creator of a room of the slug or for its password,
that has not expired. -/
def Entitled [Argon2] (history : List LiveEntry) (position : Nat) (slug token : String)
    (expires : Time) : Prop :=
  ∃ grant < position, ∃ password time new,
    history[grant]? = some (.granted token slug password time) ∧
    expires = time + liveSessionLifetime ∧ CreatedBefore history grant slug new ∧
    ∀ given ∈ password, Unlocks new given

/-- What opens a room to a request: no password is set, or the request has the password, or it has a
session that has not expired. -/
def Opens [Argon2] (history : List LiveEntry) (position : Nat) (slug : String) (new : NewRoom)
    (request : LiveRequest) (now : Time) : Prop :=
  new.password = "" ∨ (∃ given, request = .unlock slug (.ok given) ∧ Unlocks new given) ∨
    ∃ token expires, request.cookies.session = some token ∧
      Entitled history position slug token expires ∧ now < expires

/-- What justifies an answer that discloses a room. -/
def Justified [Host] [Argon2] (history : List LiveEntry) (position : Nat) (request : LiveRequest)
    (read now : Time) (response : LiveResponse) : Prop :=
  ∃ slug new, request.slug? = some slug ∧ CreatedBefore history position slug new ∧
    unix read < unix new.expiresAt ∧ Opens history position slug new request now ∧
    (response.honours = true → ∃ token,
      request.cookies.creator = some (Paste.encodeToString token) ∧
      Host.creatorHash token slug = Host.creatorHash new.creator.token slug)

/-! ## A longer record -/

section Longer

variable {history : List LiveEntry} {entries : List LiveEntry} {position position' : Nat}
  {slug token : String}

theorem getElem?_longer {entry : LiveEntry} (found : history[position]? = some entry) :
    (history ++ entries)[position]? = some entry := by
  rw [List.getElem?_append_left (List.getElem?_eq_some_iff.mp found).1, found]

theorem CreatedBefore.longer {new : NewRoom} (created : CreatedBefore history position slug new)
    (later : position ≤ position') : CreatedBefore (history ++ entries) position' slug new := by
  obtain ⟨origin, before, stored⟩ := created
  exact ⟨origin, before.trans_le later, getElem?_longer stored⟩

theorem Entitled.longer [Argon2] {expires : Time}
    (entitled : Entitled history position slug token expires) (later : position ≤ position') :
    Entitled (history ++ entries) position' slug token expires := by
  obtain ⟨grant, before, password, time, new, granted, until_, created, unlocks⟩ := entitled
  exact ⟨grant, before.trans_le later, password, time, new, getElem?_longer granted, until_,
    created.longer le_rfl, unlocks⟩

theorem Justified.longer [Host] [Argon2] {request : LiveRequest} {read now : Time}
    {response : LiveResponse} (justified : Justified history position request read now response) :
    Justified (history ++ entries) position request read now response := by
  obtain ⟨slug, new, named, created, alive, entry, honours⟩ := justified
  refine ⟨slug, new, named, created.longer le_rfl, alive, ?_, honours⟩
  refine entry.imp_right (Or.imp_right ?_)
  rintro ⟨token, expires, cookie, entitled, fresh⟩
  exact ⟨token, expires, cookie, entitled.longer le_rfl, fresh⟩

end Longer

/-! ## Sessions -/

namespace LiveSessions

variable {records : LiveSessions} {token slug : String} {expires now : Time}

theorem lookup_of_pruneExpired {record : LiveSessionRecord}
    (found : (records.pruneExpired now).lookup token = some record) :
    records.lookup token = some record := by
  have listed := AList.mem_lookup_iff.mp (Option.mem_def.mpr found)
  exact AList.mem_lookup_iff.mpr (List.mem_filter.mp listed).1

theorem length_pruneExpired : (records.pruneExpired now).keys.length ≤ records.keys.length := by
  simp only [AList.keys, List.keys, List.length_map]
  exact List.length_filter_le _ _

theorem length_erase_le (token : String) :
    (records.erase token).keys.length ≤ records.keys.length := by
  rw [AList.keys_erase]
  exact List.length_erase_le

/-- A record after `put` is the new one or an old one. -/
theorem lookup_of_put {visited : Nat} {other : String} {record : LiveSessionRecord}
    (found : (records.put token slug expires now visited).lookup other = some record) :
    other = token ∧ record = ⟨slug, expires⟩ ∨ records.lookup other = some record := by
  simp only [put] at found
  by_cases same : other = token
  · rw [same, AList.lookup_insert] at found
    exact .inl ⟨same, (Option.some.inj found).symm⟩
  · rw [AList.lookup_insert_ne same] at found
    refine .inr (@lookup_of_pruneExpired _ _ now _ ?_)
    split at found
    · by_cases gone : other = (records.pruneExpired now).keys.getD
          (visited % (records.pruneExpired now).keys.length) ""
      · rw [gone, AList.lookup_erase] at found
        cases found
      · rwa [AList.lookup_erase_ne gone] at found
    · exact found

/-- `put` keeps to the places. -/
theorem length_put (bounded : records.keys.length ≤ liveMaxSessions) (visited : Nat) :
    (records.put token slug expires now visited).keys.length ≤ liveMaxSessions := by
  have pruned := (@length_pruneExpired records now).trans bounded
  simp only [put]
  rw [AList.keys_insert, List.length_cons]
  split
  case isTrue full =>
    have positive : 0 < (records.pruneExpired now).keys.length :=
      lt_of_lt_of_le (by decide) full
    have inside := Nat.mod_lt visited positive
    rw [AList.keys_erase]
    refine (Nat.succ_le_succ List.length_erase_le).trans ?_
    rw [List.length_erase_of_mem]
    · omega
    · rw [List.getD_eq_getElem?_getD, List.getElem?_eq_getElem inside]
      exact List.getElem_mem inside
  case isFalse space =>
    have shorter : ((records.pruneExpired now).keys.erase token).length ≤
        (records.pruneExpired now).keys.length := List.length_erase_le
    omega

theorem lookup_of_get {other : String} {record : LiveSessionRecord}
    (found : (records.get token slug now).1.lookup other = some record) :
    records.lookup other = some record := by
  unfold get at found
  split at found
  · exact found
  · split at found
    · exact found
    · split at found
      · exact found
      · split at found
        · by_cases gone : other = token
          · rw [gone, AList.lookup_erase] at found
            cases found
          · rwa [AList.lookup_erase_ne gone] at found
        · exact found

theorem length_get : (records.get token slug now).1.keys.length ≤ records.keys.length := by
  unfold get
  split
  · exact le_rfl
  · split
    · exact le_rfl
    · split
      · exact le_rfl
      · split
        · exact length_erase_le token
        · exact le_rfl

/-- A token opens the room that it was granted for, in time. -/
theorem get_opens (opens : (records.get token slug now).2 = true) :
    ∃ record, records.lookup token = some record ∧ record.slug = slug ∧ now < record.expires := by
  unfold get at opens
  split at opens
  · cases opens
  · split at opens
    · cases opens
    · split at opens
      case isTrue record found fits => exact ⟨record, found, fits⟩
      case isFalse =>
        split at opens
        · cases opens
        · cases opens

end LiveSessions

/-! ## The invariant -/

/-- The credential of a room that was created under a slug. -/
def NewRoom.credential [Host] [Argon2] (new : NewRoom) (slug : String) : Credential where
  slug := slug
  passwordHash := hashPassword new.password new.salt
  creatorTokenHash := hashForRoom new.creator slug
  expiresAt := unix new.expiresAt

/-- The snapshot was read, in time, from a room that was created under the slug. -/
structure ReadFrom [Host] [Argon2] (history : List LiveEntry) (slug : String) (read : Time)
    (snapshot : RoomSnapshot) (new : NewRoom) : Prop where
  created : CreatedBefore history history.length slug new
  alive : unix read < unix new.expiresAt
  named : snapshot.slug = slug
  passwordHash : snapshot.passwordHash = hashPassword new.password new.salt
  creatorTokenHash : snapshot.creatorTokenHash = hashForRoom new.creator slug

theorem ReadFrom.longer [Host] [Argon2] {history entries : List LiveEntry} {slug : String}
    {read : Time} {snapshot : RoomSnapshot} {new : NewRoom}
    (reads : ReadFrom history slug read snapshot new) :
    ReadFrom (history ++ entries) slug read snapshot new where
  created := reads.created.longer (by simp)
  alive := reads.alive
  named := reads.named
  passwordHash := reads.passwordHash
  creatorTokenHash := reads.creatorTokenHash

/-- What a request in flight has found out. -/
def LiveTask.Sound [Host] [Argon2] (history : List LiveEntry) : LiveTask → Prop
  | .creating _ _ _ => True
  | .created _ new slug => CreatedBefore history history.length slug new
  | .bootstrapped slug _ _ read snapshot _ | .connecting slug _ read snapshot =>
      ∃ new, ReadFrom history slug read snapshot new
  | .unlocked slug password read snapshot =>
      ∃ new, ReadFrom history slug read snapshot new ∧ (new.password = "" ∨ Unlocks new password)

theorem LiveTask.Sound.longer [Host] [Argon2] {history entries : List LiveEntry} {task : LiveTask}
    (sound : task.Sound history) : task.Sound (history ++ entries) := by
  cases task with
  | creating => trivial
  | created body new slug => exact CreatedBefore.longer sound (by simp)
  | bootstrapped slug clientID cookies read snapshot operations =>
      obtain ⟨new, reads⟩ := sound
      exact ⟨new, reads.longer⟩
  | unlocked slug password read snapshot =>
      obtain ⟨new, reads, opens⟩ := sound
      exact ⟨new, reads.longer, opens⟩
  | connecting slug cookies read snapshot =>
      obtain ⟨new, reads⟩ := sound
      exact ⟨new, reads.longer⟩

namespace LiveSystem

/-- The rooms of the database and the sessions are on record, and what has been disclosed was
justified. -/
structure Guarded [Host] [Argon2] (system : LiveSystem) : Prop where
  store : ∀ slug credential, system.store.credential slug = some credential →
    ∃ new, CreatedBefore system.history system.history.length slug new ∧
      credential = new.credential slug
  sessions : ∀ token record, system.sessions.lookup token = some record →
    Entitled system.history system.history.length record.slug token record.expires
  bounded : system.sessions.keys.length ≤ liveMaxSessions
  answers : ∀ answer request read now response,
    system.history[answer]? = some (.answered request read now response) →
    response.discloses = true → Justified system.history answer request read now response

/-- What one part of a handler leaves behind. -/
structure Advances [Host] [Argon2] (system : LiveSystem) (progress : LiveProgress) : Prop where
  guarded : progress.system.Guarded
  tasks : progress.system.tasks = system.tasks
  longer : ∃ entries, progress.system.history = system.history ++ entries
  next : ∀ task ∈ progress.next, task.Sound progress.system.history

section Guarded

variable [Host] [Argon2] {config : LiveConfig} {system : LiveSystem}

theorem Guarded.record (guarded : system.Guarded) {entry : LiveEntry}
    (justified : ∀ request read now response, entry = .answered request read now response →
      response.discloses = true →
      Justified system.history system.history.length request read now response) :
    (system.record [entry]).Guarded where
  store slug credential found := by
    obtain ⟨new, created, same⟩ := guarded.store slug credential found
    exact ⟨new, created.longer (by simp [LiveSystem.record]), same⟩
  sessions token record found :=
    (guarded.sessions token record found).longer (by simp [LiveSystem.record])
  bounded := guarded.bounded
  answers answer request read now response found discloses := by
    rw [LiveSystem.record, List.getElem?_append] at found
    split at found
    case isTrue =>
      exact (guarded.answers answer request read now response found discloses).longer
    case isFalse beyond =>
      rw [List.getElem?_singleton] at found
      split at found
      case isTrue first =>
        have position : answer = system.history.length := by omega
        rw [position]
        exact (justified request read now response (Option.some.inj found) discloses).longer
      case isFalse => cases found

/-- Sessions may be dropped. -/
theorem Guarded.drop (guarded : system.Guarded) {sessions : LiveSessions}
    (old : ∀ token record, sessions.lookup token = some record →
      system.sessions.lookup token = some record)
    (bounded : sessions.keys.length ≤ liveMaxSessions) : Guarded { system with sessions } where
  store := guarded.store
  sessions token record found := guarded.sessions token record (old token record found)
  bounded := bounded
  answers := guarded.answers

/-- The database may change, but not the credentials of its rooms. -/
theorem Guarded.keep (guarded : system.Guarded) {store : Store}
    (same : ∀ slug, store.credential slug = none ∨
      store.credential slug = system.store.credential slug) : Guarded { system with store } where
  store slug credential found := by
    rcases same slug with none | equal
    · cases none.symm.trans found
    · exact guarded.store slug credential (equal.symm.trans found)
  sessions := guarded.sessions
  bounded := guarded.bounded
  answers := guarded.answers

theorem Guarded.answer (guarded : system.Guarded) {request : LiveRequest} {read now : Time}
    {response : LiveResponse} (justified : response.discloses = true →
      Justified system.history system.history.length request read now response) :
    system.Advances (system.answer request read now response) where
  guarded := guarded.record fun request' read' now' response' same discloses => by
    cases same
    exact justified discloses
  tasks := rfl
  longer := ⟨_, rfl⟩
  next task none := nomatch none

theorem Guarded.refuse (guarded : system.Guarded) {request : LiveRequest} {read now : Time}
    {response : LiveResponse} (refuses : response.discloses = false) :
    system.Advances (system.answer request read now response) :=
  guarded.answer fun discloses => nomatch refuses.symm.trans discloses

/-- The handler goes on. -/
theorem Guarded.goOn (guarded : system.Guarded) {task : LiveTask}
    (sound : task.Sound system.history) : system.Advances ⟨system, some task⟩ where
  guarded := guarded
  tasks := rfl
  longer := ⟨[], (List.append_nil _).symm⟩
  next other same := by
    cases same
    exact sound

/-- A part of a handler after another one. -/
theorem Advances.after {system' : LiveSystem} {progress : LiveProgress}
    (advances : system'.Advances progress) (tasks : system'.tasks = system.tasks)
    (longer : ∃ entries, system'.history = system.history ++ entries) :
    system.Advances progress where
  guarded := advances.guarded
  tasks := advances.tasks.trans tasks
  longer := by
    obtain ⟨entries, first⟩ := longer
    obtain ⟨entries', second⟩ := advances.longer
    exact ⟨entries ++ entries', by rw [second, first, List.append_assoc]⟩
  next := advances.next

/-! ## Reading a room -/

theorem Guarded.readFrom (guarded : system.Guarded) {slug : String} {now : Time} {tables : Tables}
    (found : system.store.lookup slug = some tables) (alive : unix now < tables.room.expiresAt) :
    ∃ new, ReadFrom system.history slug now (Store.snapshotOf tables) new := by
  have credential : system.store.credential slug = some tables.credential := by
    rw [Store.credential, found, Option.map_some]
  obtain ⟨new, created, same⟩ := guarded.store slug _ credential
  refine ⟨new, created, ?_, congrArg Credential.slug same, congrArg Credential.passwordHash same,
    congrArg Credential.creatorTokenHash same⟩
  exact alive.trans_eq (congrArg Credential.expiresAt same)

theorem Guarded.getRoomSnapshot (guarded : system.Guarded) {slug : String} {now : Time}
    {fault : Bool} {snapshot : RoomSnapshot}
    (read : Store.getRoomSnapshot system.store slug now fault = .ok snapshot) :
    ∃ new, ReadFrom system.history slug now snapshot new := by
  obtain ⟨tables, found, alive, rfl⟩ := Room.getRoomSnapshot_ok read
  exact guarded.readFrom found alive

theorem Guarded.getRoomSnapshotWithClientOperations (guarded : system.Guarded)
    {slug clientID : String} {limit : Int} {now : Time} {fault : Bool} {snapshot : RoomSnapshot}
    {operations : List OperationRecord}
    (read : Store.getRoomSnapshotWithClientOperations system.store slug clientID limit now fault =
      .ok (snapshot, operations)) : ∃ new, ReadFrom system.history slug now snapshot new := by
  unfold Store.getRoomSnapshotWithClientOperations at read
  simp only [Room.bind_eq_ok, require_eq_ok, exists_const] at read
  obtain ⟨_, _, read⟩ := read
  cases active : Tables.active system.store slug now with
  | error error =>
      rw [active] at read
      cases read
  | ok tables =>
      rw [active] at read
      cases read
      obtain ⟨found, alive⟩ := active_eq_ok.mp active
      exact guarded.readFrom found alive

/-! ## What has been shown -/

omit [Host] in
/-- A password that the check admits has the right key. -/
theorem unlocks_of_verify {new : NewRoom} {slot : Bool} {given : String}
    (protected_ : hashPassword new.password new.salt ≠ "")
    (verified : verifyPassword slot given (hashPassword new.password new.salt) = .ok true) :
    Unlocks new given := by
  have free : slot = true := by
    by_contra busy
    rw [verifyPassword, if_pos (Bool.eq_false_iff.mpr busy)] at verified
    cases verified
  have set : new.password ≠ "" := by
    intro empty
    rw [hashPassword, if_pos empty] at protected_
    exact protected_ rfl
  rw [free] at verified
  exact ((verifyPassword_hashPassword set).mp verified).2.2

omit [Host] in
/-- Only an empty password has an empty hash. -/
theorem password_of_hash {new : NewRoom} (empty : hashPassword new.password new.salt = "") :
    new.password = "" := by
  by_contra set
  have fields := splitOn_hashPassword set new.salt
  rw [empty] at fields
  cases fields

/-- A creator's cookie has a token with the right digest. -/
theorem honoured {history : List LiveEntry} {slug : String} {read now : Time}
    {snapshot : RoomSnapshot} {new : NewRoom} (reads : ReadFrom history slug read snapshot new)
    {cookie : Option String} {capability : CreatorCapability}
    (honours : creatorCapability cookie snapshot now = some capability) :
    ∃ token, cookie = some (Paste.encodeToString token) ∧
      Host.creatorHash token slug = Host.creatorHash new.creator.token slug := by
  unfold creatorCapability at honours
  split at honours
  · cases honours
  · split at honours
    · cases honours
    · split at honours
      case isTrue parsed found matched =>
        obtain ⟨value, present, parse⟩ := Option.bind_eq_some_iff.mp found
        unfold parseCreatorCapability at parse
        split at parse
        · cases parse
        · split at parse
          · cases parse
          case isFalse token _ exact_ =>
            cases parse
            obtain ⟨_, named, _, long, same⟩ := of_decide_eq_true matched
            refine ⟨token, by rw [present, not_not.mp (not_or.mp exact_).2], ?_⟩
            rw [reads.named] at same
            rw [same, reads.creatorTokenHash, hashForRoom]
            rw [reads.creatorTokenHash, hashForRoom] at long
            split
            case isTrue invalid =>
              rw [if_pos invalid] at long
              cases long
            case isFalse => rfl
      · cases honours

/-- A snapshot that was read in time justifies the answer, given what opens the room. -/
theorem justified_of_readFrom {history : List LiveEntry} {request : LiveRequest} {slug : String}
    {read now : Time} {snapshot : RoomSnapshot} {new : NewRoom} {response : LiveResponse}
    (reads : ReadFrom history slug read snapshot new) (named : request.slug? = some slug)
    (opens : Opens history history.length slug new request now)
    (honours : response.honours = true → ∃ token,
      request.cookies.creator = some (Paste.encodeToString token) ∧
      Host.creatorHash token slug = Host.creatorHash new.creator.token slug) :
    Justified history history.length request read now response :=
  ⟨slug, new, named, reads.created, reads.alive, opens, honours⟩

/-- A session that opens the room was granted for it. -/
theorem Guarded.session (guarded : system.Guarded) (cookies : LiveCookies) (slug : String)
    (now : Time) :
    (system.session cookies slug now).1.Guarded ∧
      (system.session cookies slug now).1.tasks = system.tasks ∧
      (system.session cookies slug now).1.history = system.history ∧
      ((system.session cookies slug now).2 = true → ∃ token expires, cookies.session = some token ∧
        Entitled system.history system.history.length slug token expires ∧ now < expires) := by
  unfold LiveSystem.session
  split
  case h_1 => exact ⟨guarded, rfl, rfl, fun opens => nomatch opens⟩
  case h_2 token cookie =>
    refine ⟨guarded.drop (fun _ _ => LiveSessions.lookup_of_get) ?_, rfl, rfl, fun opens => ?_⟩
    · exact LiveSessions.length_get.trans guarded.bounded
    · obtain ⟨record, found, rfl, fresh⟩ := LiveSessions.get_opens opens
      exact ⟨token, record.expires, cookie, guarded.sessions token record found, fresh⟩

/-- A session is granted for a room on record. -/
theorem Guarded.setSessionCookie (guarded : system.Guarded) {slug : String} {new : NewRoom}
    (created : CreatedBefore system.history system.history.length slug new)
    (password : Option String) (unlocks : ∀ given ∈ password, Unlocks new given)
    (token : Option (List UInt8)) (now clock : Time) (visited : Nat) :
    (system.setSessionCookie token slug password now clock visited).1.Guarded ∧
      (system.setSessionCookie token slug password now clock visited).1.tasks = system.tasks ∧
      ∃ entries, (system.setSessionCookie token slug password now clock visited).1.history =
        system.history ++ entries := by
  unfold LiveSystem.setSessionCookie
  split
  case h_1 => exact ⟨guarded, rfl, [], (List.append_nil _).symm⟩
  case h_2 bytes =>
    refine ⟨?_, rfl, _, rfl⟩
    have recorded : (system.record
        [.granted (Paste.encodeToString bytes) slug password now]).Guarded :=
      guarded.record fun _ _ _ _ same => nomatch same
    exact {
      store := recorded.store
      sessions := by
        intro other record found
        rcases LiveSessions.lookup_of_put found with ⟨rfl, rfl⟩ | old
        · refine ⟨system.history.length, by simp, password, now, new, ?_, rfl,
            created.longer le_rfl, unlocks⟩
          simp
        · exact recorded.sessions other record old
      bounded := LiveSessions.length_put guarded.bounded visited
      answers := recorded.answers }

/-! ## Handlers -/

omit [Host] [Argon2] in
theorem discloses_ofRequestError (error : RequestError) :
    (LiveResponse.ofRequestError error).discloses = false := by
  cases error <;> rfl

omit [Host] [Argon2] in
theorem discloses_ofStoreError (error : LiveError) :
    (LiveResponse.ofStoreError error).discloses = false := by
  unfold LiveResponse.ofStoreError
  split <;> rfl

omit [Host] [Argon2] in
theorem discloses_createDocuments {maxBytes : Int} {candidates : Nat → Nat → Option String}
    {now : Time} {inputs : List LiveCreateDocument} {index : Nat} {used : List String} {size : Int}
    {response : LiveResponse}
    (refused : createDocuments maxBytes candidates now inputs index used size = .error response) :
    response.discloses = false := by
  induction inputs generalizing index used size with
  | nil => cases refused
  | cons input inputs induction =>
      rw [createDocuments] at refused
      split at refused
      · cases refused
        rfl
      split at refused
      · split at refused <;> cases refused <;> rfl
      split at refused
      · cases refused
        rfl
      split at refused
      case h_1 =>
        cases refused
        rfl
      case h_2 id named =>
        cases rest : createDocuments maxBytes candidates now inputs (index + 1) (id :: used)
            (size + byteLen input.content) with
        | error response' =>
            rw [rest] at refused
            cases refused
            exact induction rest
        | ok value =>
            rw [rest] at refused
            cases refused

omit [Host] [Argon2] in
theorem discloses_prepareRoom {provision : Provision} {now : Time}
    {body : Except RequestError LiveCreateRequest} {response : LiveResponse}
    (refused : prepareRoom config provision now body = .error response) :
    response.discloses = false := by
  unfold prepareRoom at refused
  split at refused
  · cases refused
    rfl
  split at refused
  · cases refused
    rfl
  split at refused
  case h_1 error =>
    cases refused
    exact discloses_ofRequestError error
  case h_2 request =>
    split at refused
    · cases refused
      rfl
    split at refused
    · cases refused
      rfl
    cases built : createDocuments config.liveMaxBytes provision.documentIDs now request.documents 0
        [] 0 with
    | error response' =>
        rw [built] at refused
        cases refused
        exact discloses_createDocuments built
    | ok value =>
        rw [built] at refused
        simp only [bind, Except.bind] at refused
        repeat' split at refused
        all_goals cases refused
        all_goals rfl

theorem Guarded.arrive (guarded : system.Guarded) (request : LiveRequest) (provision : Provision)
    (now : Time) : system.Advances (system.arrive config request provision now) := by
  cases request with
  | create body =>
      simp only [LiveSystem.arrive]
      split
      case h_1 response refused => exact guarded.refuse (discloses_prepareRoom refused)
      case h_2 new prepared => exact guarded.goOn trivial
  | bootstrap slug clientID cookies =>
      simp only [LiveSystem.arrive]
      split
      · exact guarded.refuse rfl
      split
      · exact guarded.refuse rfl
      split
      case h_1 => exact guarded.refuse rfl
      case h_2 error _ _ => exact guarded.refuse (discloses_ofStoreError error)
      case h_3 snapshot operations read =>
        refine guarded.goOn ?_
        split at read
        · cases found : Store.getRoomSnapshot system.store slug now provision.fault with
          | error error =>
              rw [found] at read
              cases read
          | ok snapshot =>
              rw [found] at read
              cases read
              exact guarded.getRoomSnapshot found
        · exact guarded.getRoomSnapshotWithClientOperations read
  | unlock slug body =>
      simp only [LiveSystem.arrive]
      split
      · exact guarded.refuse rfl
      split
      · exact guarded.refuse rfl
      split
      case h_1 error => exact guarded.refuse (discloses_ofRequestError error)
      case h_2 password =>
        split
        · exact guarded.refuse rfl
        split
        case h_1 error _ => exact guarded.refuse (discloses_ofStoreError error)
        case h_2 snapshot read =>
          obtain ⟨new, reads⟩ := guarded.getRoomSnapshot read
          have empty := reads.passwordHash
          split
          case isTrue unprotected =>
            rw [unprotected] at empty
            exact guarded.goOn ⟨new, reads, .inl (password_of_hash empty.symm)⟩
          case isFalse protected_ =>
            split
            case h_1 => exact guarded.refuse rfl
            case h_2 => exact guarded.refuse rfl
            case h_3 => exact guarded.refuse rfl
            case h_4 verified =>
              rw [empty] at verified protected_
              exact guarded.goOn ⟨new, reads, .inr (unlocks_of_verify protected_ verified)⟩
  | websocket slug originAllowed cookies =>
      simp only [LiveSystem.arrive]
      split
      · exact guarded.refuse rfl
      split
      · exact guarded.refuse rfl
      split
      case h_1 error _ => exact guarded.refuse (discloses_ofStoreError error)
      case h_2 snapshot read => exact guarded.goOn (guarded.getRoomSnapshot read)

/-- A room that is created is on record. -/
theorem Guarded.createRoom (guarded : system.Guarded) {slug : String} {new : NewRoom}
    {fault : Bool} {store : Store}
    (created : Store.createRoom system.store (new.snapshot slug) fault = .ok store) :
    Guarded { system with store, history := system.history ++ [.stored slug new] } := by
  have recorded : (system.record [.stored slug new]).Guarded :=
    guarded.record fun _ _ _ _ same => nomatch same
  obtain ⟨prepared, preparation, _, result⟩ := Room.createRoom_ok created
  obtain ⟨layoutPreset, equality⟩ := preparation.equality
  exact {
    store := by
      intro other credential found
      rw [result, Store.credential] at found
      by_cases same : other = slug
      · rw [same]
        rw [same, show (new.snapshot slug).slug = slug from rfl, AList.lookup_insert] at found
        cases found
        refine ⟨new, ⟨system.history.length, by simp, by simp⟩, ?_⟩
        rw [equality]
        rfl
      · rw [show (new.snapshot slug).slug = slug from rfl, AList.lookup_insert_ne same] at found
        exact recorded.store other credential found
    sessions := recorded.sessions
    bounded := recorded.bounded
    answers := recorded.answers }

theorem Guarded.execute (guarded : system.Guarded) {task : LiveTask}
    (sound : task.Sound system.history) (circumstances : Circumstances) :
    system.Advances (system.execute config task circumstances) := by
  cases task with
  | creating body new attempt =>
      simp only [LiveSystem.execute]
      split
      case h_1 => exact guarded.refuse (discloses_ofStoreError _)
      case h_2 slug generated =>
        split
        case h_1 store created =>
          exact {
            guarded := guarded.createRoom created
            tasks := rfl
            longer := ⟨_, rfl⟩
            next := fun task same => by
              cases same
              exact ⟨system.history.length, by simp, by simp⟩ }
        case h_2 =>
          split
          · exact guarded.goOn trivial
          · exact guarded.refuse (discloses_ofStoreError _)
        case h_3 error _ _ => exact guarded.refuse (discloses_ofStoreError error)
  | created body new slug =>
      obtain ⟨guarded', tasks, longer⟩ := guarded.setSessionCookie sound none
        (fun _ none => by cases none)
        circumstances.token new.createdAt circumstances.clock circumstances.visited
      simp only [LiveSystem.execute]
      exact (guarded'.refuse rfl).after tasks longer
  | bootstrapped slug clientID cookies now snapshot operations =>
      obtain ⟨new, reads⟩ := sound
      have creator : (creatorCapability cookies.creator snapshot now).isSome = true → ∃ token,
          cookies.creator = some (Paste.encodeToString token) ∧
          Host.creatorHash token slug = Host.creatorHash new.creator.token slug := fun some =>
        honoured reads (Option.some_get some).symm
      simp only [LiveSystem.execute]
      by_cases unprotected : snapshot.passwordHash = ""
      · rw [if_pos unprotected]
        have open_ : new.password = "" :=
          password_of_hash (reads.passwordHash.symm.trans unprotected)
        exact guarded.answer fun _ => justified_of_readFrom reads rfl (.inl open_) creator
      · rw [if_neg unprotected]
        obtain ⟨guarded', tasks, same, opens⟩ := guarded.session cookies slug now
        split
        case isTrue => exact (guarded'.refuse rfl).after tasks ⟨[], by rw [same, List.append_nil]⟩
        case isFalse opened =>
          refine (guarded'.answer fun _ => ?_).after tasks ⟨[], by rw [same, List.append_nil]⟩
          rw [same]
          exact justified_of_readFrom reads rfl
            (.inr (.inr (opens (Bool.of_not_eq_false opened)))) creator
  | unlocked slug password read snapshot =>
      obtain ⟨new, reads, opens⟩ := sound
      have given (history : List LiveEntry) : Opens history history.length slug new
          (.unlock slug (.ok password)) circumstances.now :=
        opens.imp_right fun unlocks => .inl ⟨password, rfl, unlocks⟩
      simp only [LiveSystem.execute]
      by_cases unprotected : snapshot.passwordHash = ""
      · rw [if_pos unprotected]
        exact guarded.answer fun _ => justified_of_readFrom reads rfl (given _) fun none =>
          absurd none Bool.false_ne_true
      · rw [if_neg unprotected]
        have unlocks : Unlocks new password := opens.resolve_left fun open_ => unprotected <| by
          rw [reads.passwordHash, hashPassword, if_pos open_]
        obtain ⟨guarded', tasks, entries, longer⟩ := guarded.setSessionCookie reads.created
          (some password) (fun given same => Option.some.inj same ▸ unlocks)
          circumstances.token circumstances.now circumstances.clock circumstances.visited
        refine (guarded'.answer fun _ => ?_).after tasks ⟨entries, longer⟩
        rw [longer]
        exact justified_of_readFrom reads.longer rfl (given _) fun none =>
          absurd none Bool.false_ne_true
  | connecting slug cookies read snapshot =>
      obtain ⟨new, reads⟩ := sound
      obtain ⟨guarded', tasks, same, opens⟩ := guarded.session cookies slug circumstances.now
      have longer : ∃ entries, (system.session cookies slug circumstances.now).1.history =
          system.history ++ entries := ⟨[], by rw [same, List.append_nil]⟩
      simp only [LiveSystem.execute]
      split
      case isTrue => exact (guarded'.refuse rfl).after tasks longer
      case isFalse opened =>
        split
        · exact (guarded'.refuse rfl).after tasks longer
        · refine (guarded'.answer fun _ => ?_).after tasks longer
          rw [same]
          refine justified_of_readFrom reads rfl ?_ fun some =>
            honoured reads (Option.some_get some).symm
          by_cases unprotected : snapshot.passwordHash = ""
          · exact .inl (password_of_hash (reads.passwordHash.symm.trans unprotected))
          · refine .inr (.inr (opens ?_))
            by_contra shut
            exact opened ⟨unprotected, Bool.eq_false_iff.mpr shut⟩

/-! ## Runs -/

/-- The system is guarded, and so are its requests in flight. -/
structure Sound [Host] [Argon2] (system : LiveSystem) : Prop where
  guarded : system.Guarded
  tasks : ∀ task ∈ system.tasks, task.Sound system.history

/-- A handler advances, among the tasks that are left. -/
theorem Sound.advance (sound : system.Sound) {progress : LiveProgress}
    (advances : system.Advances progress) {tasks : List LiveTask}
    (left : ∀ task ∈ tasks, task ∈ system.tasks ∨ task ∈ progress.next) :
    Sound { progress.system with tasks } where
  guarded := ⟨advances.guarded.store, advances.guarded.sessions, advances.guarded.bounded,
    advances.guarded.answers⟩
  tasks task member := by
    rcases left task member with old | new
    · obtain ⟨entries, longer⟩ := advances.longer
      change task.Sound progress.system.history
      rw [longer]
      exact (sound.tasks task old).longer
    · exact advances.next task new

theorem Sound.step (sound : system.Sound) (occurrence : Occurrence) :
    (system.step config occurrence).Sound := by
  cases occurrence with
  | arrive request provision now =>
      refine sound.advance (sound.guarded.arrive request provision now) fun task member => ?_
      exact (List.mem_append.mp member).imp_right Option.mem_toList.mp
  | execute index circumstances =>
      unfold LiveSystem.step
      simp only
      split
      case h_1 => exact sound
      case h_2 task found =>
        have advances := @Guarded.execute _ _ config _ sound.guarded _
          (sound.tasks task (List.mem_of_getElem? found)) circumstances
        refine sound.advance advances fun other member => ?_
        split at member
        case h_1 => exact .inl (List.mem_of_mem_eraseIdx member)
        case h_2 next goesOn =>
          rcases List.mem_or_eq_of_mem_set member with old | new
          · exact .inl old
          · exact .inr (new ▸ goesOn)
  | abandon index =>
      exact ⟨⟨sound.guarded.store, sound.guarded.sessions, sound.guarded.bounded,
        sound.guarded.answers⟩, fun task member =>
          sound.tasks task (List.mem_of_mem_eraseIdx member)⟩
  | call room action own =>
      exact ⟨sound.guarded.keep fun slug =>
        .inr (@Authority.perform_credential _ ⟨room, system.store⟩ action own slug), sound.tasks⟩
  | load snapshot options faults =>
      exact ⟨sound.guarded.keep fun slug => .inr (Room.newRoom_credential rfl slug), sound.tasks⟩
  | cleanup now limit =>
      unfold LiveSystem.step
      simp only
      split
      case h_1 => exact sound
      case h_2 store count deleted =>
        exact ⟨sound.guarded.keep fun slug => (Store.credential_deleteExpiredRooms deleted).1,
          sound.tasks⟩
  | restart =>
      exact ⟨⟨sound.guarded.store, fun _ _ none => (nomatch none), Nat.zero_le _,
        sound.guarded.answers⟩, fun _ none => (nomatch none)⟩

theorem sound_run (occurrences : List Occurrence) : (run config occurrences).Sound := by
  have steps : ∀ system : LiveSystem, system.Sound →
      (occurrences.foldl (LiveSystem.step config) system).Sound := by
    induction occurrences with
    | nil => exact fun _ sound => sound
    | cons occurrence occurrences induction =>
        exact fun system sound => induction _ (sound.step occurrence)
  exact steps _ ⟨⟨fun _ _ none => (nomatch none), fun _ _ none => (nomatch none), Nat.zero_le _,
    fun _ _ _ _ _ none => (nomatch none)⟩, fun _ none => (nomatch none)⟩

/-- However the requests and their statements interleave, with calls on rooms, cleanup passes and
restarts in between: a room is shown, or a connection to it accepted, only to a request for a room
that was created under its slug and had not expired when it was read; and then no password is
set, or the request has the password, or a session of at most a quarter of an hour that was granted
for it.
Nobody is taken for the creator without a token of the same digest. -/
theorem rooms_guarded (config : LiveConfig) (occurrences : List Occurrence) :
    (run config occurrences).sessions.keys.length ≤ liveMaxSessions ∧
      ∀ answer request read now response,
        (run config occurrences).history[answer]? = some (.answered request read now response) →
        response.discloses = true →
        Justified (run config occurrences).history answer request read now response :=
  have sound := @sound_run _ _ config occurrences
  ⟨sound.guarded.bounded, sound.guarded.answers⟩

end Guarded

/-! ## A small run -/

/-- A digest and a key derivation for concrete runs. -/
abbrev digestHost : Host :=
  { sampleHost with creatorHash := fun token slug => (slug.toUTF8.toList ++ token).take 32 }

abbrev sampleArgon2 : Argon2 where
  idKey password salt _ _ _ keyLen :=
    (password.toUTF8.toList ++ salt ++ List.replicate keyLen 0).take keyLen

def smallConfig : LiveConfig where
  creationEnabled := true
  liveMaxBytes := 1048576
  liveMaxTabs := 8
  liveMaxWriters := 10
  liveMaxViewers := 100
  liveMaxParticipants := 110
  liveRoomLifetime := 3600 * 1000000000
  liveRoomURL slug := "https://example.com/live/" ++ slug

def smallProvision : Provision where
  permits := true
  slot := true
  salt := some (List.replicate 16 7)
  creatorToken := some (List.replicate 32 1)
  documentIDs _ _ := none
  fault := false

def smallCircumstances (second : Int) : Circumstances where
  generated := some "demo"
  fault := false
  token := some (List.replicate 32 9)
  now := unixTime second
  clock := unixTime second
  visited := 0
  reserved := true

/-- A room is created with a password, unlocked with it, and fetched with the session. -/
def smallVisits : List Occurrence :=
  [.arrive (.create (.ok ⟨"sesame", [⟨"notes", "plaintext", "hi"⟩]⟩)) smallProvision (unixTime 1),
    .execute 0 (smallCircumstances 1), .execute 0 (smallCircumstances 2),
    .arrive (.unlock "demo" (.ok "sesame")) smallProvision (unixTime 3),
    .execute 0 (smallCircumstances 4),
    .arrive (.bootstrap "demo" "" ⟨some (Paste.encodeToString (List.replicate 32 9)), none⟩)
      smallProvision (unixTime 5),
    .execute 0 (smallCircumstances 6)]

theorem rooms_guarded_small :
    let history := (@run digestHost sampleArgon2 smallConfig smallVisits).history
    ∃ request read now response, history[5]? = some (.answered request read now response) ∧
      response.discloses = true ∧
      @Justified digestHost sampleArgon2 history 5 request read now response := by
  intro history
  have shown : (history[5]?.map fun entry : LiveEntry => match entry with
      | .answered _ _ _ response => response.discloses
      | _ => false) = some true := by decide +kernel
  obtain ⟨entry, found, discloses⟩ := Option.map_eq_some_iff.mp shown
  cases entry with
  | answered request read now response =>
      exact ⟨request, read, now, response, found, discloses,
        (@rooms_guarded digestHost sampleArgon2 smallConfig smallVisits).2 5 request read now
          response found discloses⟩
  | _ => cases discloses

end LiveSystem

end Oxbin.Httpapi
