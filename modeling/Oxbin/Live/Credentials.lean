import Oxbin.Storage.Replacement

/-!
# What opens a room

The row of a room has the hashes of its password and of the token of its creator, and says until
when the room lives.  They are written when the room is created, and nothing changes them
afterwards.
-/

namespace Oxbin.Storage

open Live Live.Room

/-- The columns of a room that decide who gets in. -/
structure Credential where
  slug : String
  passwordHash : String
  creatorTokenHash : List UInt8
  expiresAt : Int

/-- The credential in the row of a room. -/
def Tables.credential (tables : Tables) : Credential where
  slug := tables.room.slug
  passwordHash := tables.room.passwordHash
  creatorTokenHash := tables.room.creatorTokenHash
  expiresAt := tables.room.expiresAt

namespace Store

/-- The credential of the room with a slug. -/
def credential (store : Store) (slug : String) : Option Credential :=
  (store.lookup slug).map Tables.credential

/-- The rows of `live_rooms` that `DeleteExpiredRooms` selects, by slug: the expired ones, those
that expired first before the others. -/
def expiredRooms (store : Store) (now : Time) (limit : Nat) : List String :=
  (((store.entries.filter fun entry => entry.2.room.expiresAt ≤ unix now).mergeSort
    fun entry other => entry.2.room.expiresAt < other.2.room.expiresAt ∨
      entry.2.room.expiresAt = other.2.room.expiresAt ∧ entry.1 ≤ other.1).map Sigma.fst).take limit

/-- `DeleteExpiredRooms`; the rows that belong to a room go with it. -/
def deleteExpiredRooms (store : Store) (now : Time) (limit : Nat) :
    Except LiveError (Store × Nat) :=
  if limit = 0 then .error .database
  else .ok ((store.expiredRooms now limit).foldl (fun store slug => store.erase slug) store,
    (store.expiredRooms now limit).length)

section Credentials

variable {store store' : Store} {slug : String} {now : Time} {fault : Bool}

theorem credential_insert {tables tables' : Tables} (found : store.lookup slug = some tables)
    (same : tables'.credential = tables.credential) (other : String) :
    credential (store.insert slug tables') other = credential store other := by
  rw [credential, credential]
  by_cases own : other = slug
  · rw [own, AList.lookup_insert, found, Option.map_some, Option.map_some, same]
  · rw [AList.lookup_insert_ne own]

theorem credential_commitStream {tables tables' : Tables} {snapshot : RoomSnapshot}
    {change : ChangeRecord} (committed : tables.commitStream snapshot change = .ok tables') :
    tables'.credential = tables.credential := by
  unfold Tables.commitStream at committed
  split at committed
  · obtain ⟨_, _, _, _, _, _, rfl⟩ := commitDocument_ok committed
    rfl
  · obtain ⟨_, _, _, rfl⟩ := commitMetadata_ok committed
    rfl

theorem credential_commitChange {commit : ChangeCommit}
    (saved : Store.commitChange store commit now fault = .ok store') (other : String) :
    credential store' other = credential store other := by
  obtain ⟨prepared, tables, change, operation, written, writes⟩ := writes_of_commitChange saved
  rw [writes.result]
  refine credential_insert writes.found ?_ other
  have same := credential_commitStream writes.branch
  split <;> exact same

theorem credential_saveSnapshot {snapshot : RoomSnapshot}
    (saved : Store.saveSnapshot store snapshot now fault = .ok store') (other : String) :
    credential store' other = credential store other := by
  obtain ⟨prepared, tables, _, found, rfl⟩ := saveSnapshot_replaced saved
  refine credential_insert found ?_ other
  rfl

theorem credential_setRoomLocked {locked : Bool}
    (saved : Store.setRoomLocked store slug locked now fault = .ok store') (other : String) :
    credential store' other = credential store other := by
  unfold Store.setRoomLocked at saved
  simp only [bind_eq_ok, require_eq_ok, exists_const] at saved
  obtain ⟨_, tables, active, equality⟩ := saved
  cases equality
  refine credential_insert (active_eq_ok.mp active).1 ?_ other
  rfl

theorem credential_setRoomLayoutPreset {preset : String}
    (saved : Store.setRoomLayoutPreset store slug preset now fault = .ok store') (other : String) :
    credential store' other = credential store other := by
  unfold Store.setRoomLayoutPreset at saved
  simp only [bind_eq_ok, require_eq_ok, exists_const] at saved
  obtain ⟨_, _, tables, active, equality⟩ := saved
  cases equality
  refine credential_insert (active_eq_ok.mp active).1 ?_ other
  rfl

theorem lookup_foldl_erase (slugs : List String) (store : Store) (slug : String) :
    (slugs.foldl (fun store slug => store.erase slug) store).lookup slug =
      if slug ∈ slugs then none else store.lookup slug := by
  induction slugs generalizing store with
  | nil => rfl
  | cons first slugs induction =>
      rw [List.foldl_cons, induction]
      by_cases same : slug = first
      · rw [same, AList.lookup_erase, ite_self, if_pos List.mem_cons_self]
      · rw [AList.lookup_erase_ne same]
        simp only [List.mem_cons, same, false_or]

/-- The cleanup leaves the rooms that have not expired, and brings back none. -/
theorem credential_deleteExpiredRooms {limit count : Nat}
    (deleted : store.deleteExpiredRooms now limit = .ok (store', count)) :
    (store'.credential slug = none ∨ store'.credential slug = store.credential slug) ∧
      ∀ tables, store.lookup slug = some tables → unix now < tables.room.expiresAt →
        store'.lookup slug = some tables := by
  unfold deleteExpiredRooms at deleted
  split at deleted
  · cases deleted
  · cases deleted
    rw [credential, lookup_foldl_erase]
    refine ⟨?_, fun tables found alive => ?_⟩
    · split
      · exact .inl rfl
      · exact .inr rfl
    · rw [if_neg, found]
      intro selected
      obtain ⟨entry, listed, rfl⟩ := List.mem_map.mp (List.mem_of_mem_take selected)
      obtain ⟨member, past⟩ := List.mem_filter.mp (List.mem_mergeSort.mp listed)
      rw [AList.mem_lookup_iff.mpr member, Option.some.injEq] at found
      have past := of_decide_eq_true past
      rw [found] at past
      omega

end Credentials

end Store

end Oxbin.Storage

namespace Oxbin.Live

open Storage

section Calls

variable {room : Room} {store : Store} {now : Time} {fault : Bool}

theorem Room.DocumentOutcome.credential [Host] {operation : DocumentOperation}
    {outcome : Outcome AcceptedDocumentOperation}
    (ends : DocumentOutcome room store operation now fault outcome) (slug : String) :
    outcome.1.store.credential slug = store.credential slug := by
  cases ends with
  | refused | repeated => rfl
  | accepted document changes content store' named fresh admitted small saved =>
      exact Store.credential_commitChange saved slug

theorem Room.MetadataOutcome.credential [Host] {operation : MetadataOperation}
    {outcome : Outcome AcceptedMetadataOperation}
    (ends : MetadataOutcome room store operation now fault outcome) (slug : String) :
    outcome.1.store.credential slug = store.credential slug := by
  cases ends with
  | refused | repeated => rfl
  | accepted effect store' authority named fresh admitted change small saved result =>
      rw [result]
      exact Store.credential_commitChange saved slug

theorem Room.ModeOutcome.credential {change : Room → Room} {save : Except LiveError Store}
    {outcome : Outcome RoomState} (ends : ModeOutcome room store change save outcome)
    {slug : String}
    (saves : ∀ store', save = .ok store' → store'.credential slug = store.credential slug) :
    outcome.1.store.credential slug = store.credential slug := by
  cases ends with
  | refused | unchanged => rfl
  | changed room' shared store' saved => exact saves store' saved

/-- Loading a room changes no credential. -/
theorem Room.newRoom_credential {store' : Store} {snapshot : RoomSnapshot} {options : HubOptions}
    {faults : LoadFaults} {result : Except LiveError Room}
    (loaded : newRoom store snapshot options faults = (store', result)) (slug : String) :
    store'.credential slug = store.credential slug := by
  unfold newRoom at loaded
  simp only at loaded
  split at loaded
  · cases loaded
    rfl
  · split at loaded
    · split at loaded
      · cases loaded
        rfl
      · simp only [Prod.mk.injEq] at loaded
        rw [← loaded.1]
        exact Store.credential_saveSnapshot ‹_› slug
    · cases loaded
      rfl

variable [Host] {authority : Authority}

theorem Authority.request_credential (session : Session) (request : Request) (slug : String) :
    (authority.request session now fault request).1.store.credential slug =
      authority.store.credential slug := by
  cases request with
  | submitDocument operation =>
      obtain ⟨_, _, ends⟩ := Room.submitDocument_outcome authority.room authority.store
        session.participant session.connectionID session.generation operation now fault
      exact ends.credential slug
  | applyMetadata operation generator =>
      obtain ⟨_, _, ends⟩ := Room.applyMetadata_outcome authority.room authority.store
        session.participant session.connectionID session.generation operation generator now fault
      exact ends.credential slug
  | setWatchOnly enabled =>
      exact (Room.setWatchOnly_outcome authority.room authority.store session.participant
        session.connectionID session.generation session.creator enabled now fault).credential
          fun _ saved => Store.credential_setRoomLocked saved slug
  | setLayoutPreset preset =>
      exact (Room.setLayoutPreset_outcome authority.room authority.store session.participant
        session.connectionID session.generation session.creator preset now fault).credential
          fun _ saved => Store.credential_setRoomLayoutPreset saved slug
  | updatePresence | rename | heartbeat | disconnect => rfl

/-- No call on a room changes a credential. -/
theorem Authority.perform_credential {action : Action}
    (own : ∀ store, action.call ≠ .elsewhere store) (slug : String) :
    (authority.perform action).1.store.credential slug = authority.store.credential slug := by
  unfold perform
  split
  case h_1 =>
    unfold join
    split <;> rfl
  case h_2 session request call => exact request_credential session request slug
  case h_3 => rfl
  case h_4 => rfl
  case h_5 =>
    unfold Room.shutdown
    simp only
    split
    · split
      · rfl
      · exact Store.credential_saveSnapshot ‹_› slug
    · rfl
  case h_6 store call => exact absurd call (own store)

end Calls

end Oxbin.Live
