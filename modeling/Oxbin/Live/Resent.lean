import Oxbin.Live.Broadcast

/-!
# Operations that are sent again

A client that does not know whether an operation has been accepted sends it again.  The ledger
answers for the operations that have been accepted last, in memory as well as after a restart.
-/

namespace Oxbin.Live

open Livecollab Storage

/-- What the ledger remembers of an accepted operation. -/
def Answer.retained (fingerprint : String) : Answer → Option RetainedRecord
  | .document accepted => some (LedgerRecord.retained ⟨fingerprint, .document accepted⟩)
  | .metadata accepted => some (LedgerRecord.retained ⟨fingerprint, .metadata accepted⟩)
  | _ => none

/-- The ID of an operation and its fingerprint. -/
def Request.entry [Host] : Request → Option (String × String)
  | .submitDocument operation =>
      some (operation.operationID, Host.fingerprint (documentOperationJson operation))
  | .applyMetadata operation _ =>
      some (operation.operationID, Host.fingerprint (metadataOperationJson operation))
  | _ => none

/-- The ID and the fingerprint of the operation that a call submits. -/
def Call.entry [Host] : Call → Option (String × String)
  | .request _ submitted => submitted.entry
  | _ => none

/-- The other request submits the same operation. -/
def Request.Resends : Request → Request → Prop
  | .submitDocument operation, .submitDocument again => again = operation
  | .applyMetadata operation _, .applyMetadata again _ => again = operation
  | _, _ => False

theorem Request.Resends.entry [Host] {request again : Request} (resends : request.Resends again) :
    again.entry = request.entry := by
  cases request <;> cases again <;> first | exact resends.elim | cases resends; rfl

theorem Answer.Fresh.change {answer : Answer} (fresh : answer.Fresh) : answer.change.isSome := by
  cases answer with
  | document accepted =>
      change accepted.duplicate = false at fresh
      rw [Answer.change, fresh]
      rfl
  | metadata accepted =>
      change accepted.duplicate = false at fresh
      rw [Answer.change, fresh]
      rfl
  | _ => cases fresh

namespace Room

/-- What a call does to the ledger, with its result. -/
inductive Books (room : Room) (entry : Option (String × String))
    (result : Except LiveError Answer) (room' : Room) : Prop
  | kept (order : room'.operationOrder = room.operationOrder)
      (operations : room'.operations = room.operations)
      (silent : ∀ answer, result = .ok answer → answer.change = none)
  | entered (operationID : String) (record : LedgerRecord) (answer : Answer)
      (own : entry = some (operationID, record.fingerprint))
      (fresh : room.operations.lookup operationID = none)
      (order : room'.operationOrder = (pruneRecords (ledgerLimit room.options)
        (room.operationOrder ++ [operationID]) (room.operations.insert operationID record)).1)
      (operations : room'.operations = (pruneRecords (ledgerLimit room.options)
        (room.operationOrder ++ [operationID]) (room.operations.insert operationID record)).2)
      (answered : result = .ok answer) (told : answer.change.isSome)
      (retained : answer.retained record.fingerprint = some record.retained)

variable {room room' : Room} {entry : Option (String × String)}
  {result : Except LiveError Answer}

theorem Books.idle (shared : room'.shared = room.shared)
    (stale : ∀ answer, result = .ok answer → ¬answer.Fresh) : room.Books entry result room' := by
  have field {α : Type} (read : Room → α) : read room'.shared = read room.shared :=
    congrArg read shared
  exact .kept (field Room.operationOrder) (field Room.operations) fun answer answered =>
    Answer.change_of_stale (stale answer answered)

theorem Books.of_shared {before : Room} (books : before.Books entry result room')
    (shared : before.shared = room.shared) : room.Books entry result room' := by
  have field {α : Type} (read : Room → α) : read before.shared = read room.shared :=
    congrArg read shared
  have order : before.operationOrder = room.operationOrder := field Room.operationOrder
  have operations : before.operations = room.operations := field Room.operations
  have options : before.options = room.options := field Room.options
  cases books with
  | kept order' operations' silent =>
      exact .kept (order'.trans order) (operations'.trans operations) silent
  | entered operationID record answer own fresh order' operations' answered told retained =>
      rw [order, operations, options] at order' operations'
      rw [operations] at fresh
      exact .entered operationID record answer own fresh order' operations' answered told retained

theorem DocumentOutcome.books [Host] {store : Store} {operation : DocumentOperation} {now : Time}
    {fault : Bool} {outcome : Outcome AcceptedDocumentOperation}
    (ends : DocumentOutcome room store operation now fault outcome) :
    room.Books (some (operation.operationID, Host.fingerprint (documentOperationJson operation)))
      (outcome.2.map .document) outcome.1.room := by
  cases ends with
  | refused error => exact .idle rfl fun _ answered => nomatch answered
  | repeated accepted record =>
      refine .idle rfl fun answer answered fresh => ?_
      cases answered
      cases fresh
  | accepted document changes content store' named fresh =>
      have commits := commits_document (room.editDocument operation.documentID document content
        (document.snapshot.currentRevision + 1) now)
        (documentChange (acceptedDocument operation document changes content) now)
        (Host.fingerprint (documentOperationJson operation))
        (acceptedDocument operation document changes content) (utf16Len document.snapshot.content)
      exact .entered operation.operationID _ _ rfl fresh commits.operationOrder commits.operations
        rfl rfl rfl

theorem MetadataOutcome.books [Host] {store : Store} {operation : MetadataOperation} {now : Time}
    {fault : Bool} {outcome : Outcome AcceptedMetadataOperation}
    (ends : MetadataOutcome room store operation now fault outcome) :
    room.Books (some (operation.operationID, Host.fingerprint (metadataOperationJson operation)))
      (outcome.2.map .metadata) outcome.1.room := by
  cases ends with
  | refused room' shared error => exact .idle shared fun _ answered => nomatch answered
  | repeated accepted record =>
      refine .idle rfl fun answer answered fresh => ?_
      cases answered
      cases fresh
  | accepted effect store' authority named fresh admitted change small saved result =>
      subst result
      have commits := commits_metadata (room.metadataChanged effect)
        (room.metadataChange operation effect now)
        (Host.fingerprint (metadataOperationJson operation))
          (room.acceptedMetadata operation effect) 0
      have rest {α : Type} (read : Room → α) := congrArg read change.rest
      have order := commits.operationOrder
      have operations := commits.operations
      have order' : (room.metadataChanged effect).operationOrder = room.operationOrder :=
        rest Room.operationOrder
      have operations' : (room.metadataChanged effect).operations = room.operations :=
        rest Room.operations
      have options : (room.metadataChanged effect).options = room.options := rest Room.options
      rw [order', operations', options] at order operations
      exact .entered operation.operationID _ _ rfl fresh order operations rfl rfl rfl

theorem ModeOutcome.books {store : Store} {change : Room → Room} {save : Except LiveError Store}
    {outcome : Outcome RoomState} (ends : ModeOutcome room store change save outcome)
    (order : ∀ room : Room, (change room).operationOrder = room.operationOrder)
    (operations : ∀ room : Room, (change room).operations = room.operations) :
    room.Books entry (outcome.2.map .state) outcome.1.room := by
  cases ends with
  | refused room' shared error => exact .idle shared fun _ answered => nomatch answered
  | unchanged room' shared =>
      refine .idle shared fun answer answered fresh => ?_
      cases answered
      exact fresh
  | changed room' shared store' saved =>
      refine Books.of_shared
        (.kept (order room') (operations room') fun answer answered => ?_) shared
      cases answered
      rfl

end Room

namespace Authority

theorem request_books [Host] (authority : Authority) (session : Session) (now : Time)
    (fault : Bool) (request : Request) :
    authority.room.Books request.entry (authority.request session now fault request).2
      (authority.request session now fault request).1.room := by
  cases request with
  | submitDocument operation =>
      obtain ⟨before, shared, ends⟩ := authority.room.submitDocument_outcome authority.store
        session.participant session.connectionID session.generation operation now fault
      exact ends.books.of_shared shared
  | applyMetadata operation generator =>
      obtain ⟨before, shared, ends⟩ := authority.room.applyMetadata_outcome authority.store
        session.participant session.connectionID session.generation operation generator now fault
      exact ends.books.of_shared shared
  | updatePresence update =>
      exact .idle (Room.updatePresence_shared _ _ _ _ _ _) (Answer.stale_map _ fun _ => id)
  | rename name =>
      exact .idle (Room.rename_shared _ _ _ _ _ _) (Answer.stale_map _ fun _ => id)
  | heartbeat =>
      exact .idle (Room.ensureConnection_shared _ _ _ _ _) (Answer.stale_map _ fun _ => id)
  | disconnect =>
      exact .idle (Room.disconnect_shared _ _ _ _ _) (Answer.stale_map _ fun _ => id)
  | setWatchOnly enabled =>
      exact (authority.room.setWatchOnly_outcome authority.store session.participant
        session.connectionID session.generation session.creator enabled now fault).books
          (fun _ => rfl) fun _ => rfl
  | setLayoutPreset preset =>
      exact (authority.room.setLayoutPreset_outcome authority.store session.participant
        session.connectionID session.generation session.creator preset now fault).books
          (fun _ => rfl) fun _ => rfl

/-- Every call on a room that has nothing to save. -/
theorem perform_books [Host] {authority : Authority} (clean : authority.room.dirty = false)
    (action : Action) :
    authority.room.Books action.call.entry (authority.perform action).2
      (authority.perform action).1.room := by
  obtain ⟨call, now, fault⟩ := action
  cases call with
  | request session request => exact request_books authority session now fault request
  | join identity capability candidate =>
      change authority.room.Books none (authority.join identity capability candidate now).2
        (authority.join identity capability candidate now).1.room
      unfold join
      split
      case h_1 => exact .idle rfl fun _ answered => nomatch answered
      case h_2 => exact .idle (Room.join_shared _ _ _ _ _) (Answer.stale_map _ fun _ => id)
  | sweep =>
      refine .idle (Room.sweep_shared _ _) fun answer answered fresh => ?_
      cases answered
      exact fresh
  | shouldEvict =>
      refine .idle (Room.shouldEvict_shared _ _) fun answer answered fresh => ?_
      cases answered
      exact fresh
  | shutdown =>
      change authority.room.Books none
        ((authority.room.shutdown authority.store now fault).2.map fun () => Answer.done)
        (authority.room.shutdown authority.store now fault).1.room
      rw [shutdown_clean clean]
      exact .kept rfl rfl fun answer answered =>
        Answer.change_of_stale (Answer.stale_map _ (fun _ => id) answer answered)
  | elsewhere store =>
      refine .idle rfl fun answer answered fresh => ?_
      cases answered
      exact fresh

end Authority

/-! ## Retained operations -/

namespace AuthorityState

/-- The ledger remembers the operation, and a number of operations that have been accepted since. -/
def Keeps (state : AuthorityState) (operationID : String) (record : RetainedRecord)
    (count : Nat) : Prop :=
  state.operation operationID = some record ∧
    ∃ older newer, state.operationOrder = older ++ operationID :: newer ∧ newer.length = count

end AuthorityState

namespace Room

variable {room room' : Room} {entry : Option (String × String)}
  {result : Except LiveError Answer} {operationID : String} {record : RetainedRecord} {count : Nat}

/-- An operation that has just been accepted. -/
theorem Formed.keeps_new (formed : room.Formed) {entered : LedgerRecord}
    (fresh : room.operations.lookup operationID = none)
    (order : room'.operationOrder = (pruneRecords (ledgerLimit room.options)
      (room.operationOrder ++ [operationID]) (room.operations.insert operationID entered)).1)
    (operations : room'.operations = (pruneRecords (ledgerLimit room.options)
      (room.operationOrder ++ [operationID]) (room.operations.insert operationID entered)).2) :
    room'.authority.Keeps operationID entered.retained 0 := by
  have limit := ledgerLimit_pos room.options
  have absent : operationID ∉ room.operationOrder := by
    rw [← formed.recorded, ← AList.lookup_eq_none]
    exact fresh
  have few : (room.operationOrder ++ [operationID]).length - ledgerLimit room.options ≤
      room.operationOrder.length := by
    rw [List.length_append, List.length_singleton]
    omega
  constructor
  · have dropped : operationID ∉ (room.operationOrder ++ [operationID]).take
        ((room.operationOrder ++ [operationID]).length - ledgerLimit room.options) := by
      rw [List.take_append_of_le_length few]
      exact fun member => absent (List.mem_of_mem_take member)
    change (room'.operations.lookup operationID).map LedgerRecord.retained = _
    rw [operations, pruneRecords_lookup, if_neg dropped, AList.lookup_insert]
    rfl
  · refine ⟨room.operationOrder.drop ((room.operationOrder ++ [operationID]).length -
      ledgerLimit room.options), [], ?_, rfl⟩
    change room'.operationOrder = _
    rw [order, pruneRecords_order, List.drop_append_of_le_length few]

/-- Another operation is accepted. -/
theorem Books.keeps (books : room.Books entry result room') (formed : room.Formed)
    (keeps : room.authority.Keeps operationID record count)
    (few : count + (if (result.toOption.bind Answer.change).isSome then 1 else 0) <
      ledgerLimit room.options) :
    room'.authority.Keeps operationID record
      (count + if (result.toOption.bind Answer.change).isSome then 1 else 0) := by
  obtain ⟨remembered, older, newer, order, length⟩ := keeps
  change (room.operations.lookup operationID).map LedgerRecord.retained = some record at remembered
  change room.operationOrder = _ at order
  cases books with
  | kept order' operations' silent =>
      have none : result.toOption.bind Answer.change = none := by
        cases result with
        | error error => rfl
        | ok answer => exact silent answer rfl
      rw [none]
      refine ⟨?_, older, newer, ?_, length⟩
      · change (room'.operations.lookup operationID).map LedgerRecord.retained = some record
        rw [operations', remembered]
      · change room'.operationOrder = _
        rw [order', order]
  | entered newID entered answer own fresh order' operations' answered told retained =>
      have counted : (result.toOption.bind Answer.change).isSome = true := by
        rw [answered]
        exact told
      rw [if_pos counted] at few ⊢
      have apart : operationID ≠ newID := by
        rintro rfl
        rw [fresh] at remembered
        cases remembered
      have nodup := formed.operationOrder
      rw [order, List.nodup_middle, List.nodup_cons] at nodup
      have kept : (room.operationOrder ++ [newID]).length - ledgerLimit room.options ≤
          older.length := by
        have most : newer.length + 1 < ledgerLimit room.options := by omega
        simp only [order, List.length_append, List.length_cons, List.length_nil]
        omega
      have parts : room.operationOrder ++ [newID] =
          older ++ (operationID :: (newer ++ [newID])) := by
        rw [order, List.append_assoc]
        rfl
      rw [parts] at kept
      constructor
      · have dropped : operationID ∉ (room.operationOrder ++ [newID]).take
            ((room.operationOrder ++ [newID]).length - ledgerLimit room.options) := by
          rw [parts, List.take_append_of_le_length kept]
          exact fun member => nodup.1 (List.mem_append_left _ (List.mem_of_mem_take member))
        change (room'.operations.lookup operationID).map LedgerRecord.retained = _
        rw [operations', pruneRecords_lookup, if_neg dropped, AList.lookup_insert_ne apart]
        exact remembered
      · refine ⟨older.drop ((room.operationOrder ++ [newID]).length - ledgerLimit room.options),
          newer ++ [newID], ?_, by rw [List.length_append, length, List.length_singleton]⟩
        change room'.operationOrder = _
        rw [order', pruneRecords_order, parts, List.drop_append_of_le_length kept]

end Room

namespace Stage

/-- Later moments in the life of a room, with the number of operations accepted in between. -/
inductive After [Host] (options : HubOptions) (earlier : Stage) (texts : Annals) :
    Nat → Stage → Annals → Prop
  | now : After options earlier texts 0 earlier texts
  | step (count : Nat) (stage : Stage) (annals : Annals) (action : Action)
      (after : After options earlier texts count stage annals)
      (possible : action.Possible stage.issued) (apart : stage.authority.Apart action) :
      After options earlier texts
        (count + if ((stage.authority.perform action).2.toOption.bind Answer.change).isSome then 1
          else 0)
        (stage.step action) (annals.log (stage.step action).authority.room)
  | reload (count : Nat) (stage : Stage) (annals : Annals) (snapshot : RoomSnapshot) (now : Time)
      (authority : Authority) (after : After options earlier texts count stage annals)
      (valid : options.validate = .ok ())
      (read : Storage.Store.getRoomSnapshot stage.authority.store
        stage.authority.room.snapshot.slug now false = .ok snapshot)
      (load : Room.newRoom stage.authority.store snapshot options .none =
        (authority.store, .ok authority.room)) :
      After options earlier texts count ⟨authority, []⟩ (annals.log authority.room)

section After

variable [Host] {options : HubOptions} {stage later : Stage} {annals annals' : Annals} {count : Nat}

theorem After.onward (after : After options stage annals count later annals') :
    Onward options stage annals later annals' := by
  induction after with
  | now => exact .now
  | step count stage' annals' action after possible apart onward =>
      exact .step stage' annals' action onward possible apart
  | reload count stage' annals' snapshot now authority after valid read load onward =>
      exact .reload stage' annals' snapshot now authority onward valid read load

/-- The ledger remembers an operation until enough others have been accepted. -/
theorem After.keeps (after : After options stage annals count later annals')
    (lived : Lived options stage annals) {operationID : String} {record : RetainedRecord}
    (keeps : stage.authority.room.authority.Keeps operationID record 0)
    (few : count < Room.ledgerLimit options) :
    later.authority.room.authority.Keeps operationID record count := by
  induction after with
  | now => exact keeps
  | step count stage' annals' action after possible apart induction =>
      have lived' := after.onward.lived lived
      have books := Authority.perform_books lived'.settled.clean action
      rw [← lived'.settled.options] at few
      refine books.keeps lived'.settled.consistent.formed (induction ?_) few
      rw [← lived'.settled.options]
      omega
  | reload count stage' annals' snapshot now authority after valid read load induction =>
      have lived' := after.onward.lived lived
      obtain ⟨⟨formed, tables, found, stored⟩, same, _⟩ := lived'.settled
      rw [← same] at load
      rw [stored.loaded_authority formed found read load]
      exact induction few

end After

end Stage

/-! ## Sending it again -/

namespace Room

/-- The call has left the room and the store alone, and an answer that it gives is the one that the
ledger remembers. -/
structure Repeats (room : Room) (store : Store) (fingerprint : String) (record : RetainedRecord)
    (outcome : Outcome Answer) : Prop where
  shared : outcome.1.room.shared = room.shared
  store : outcome.1.store = store
  answer : ∀ answer, outcome.2 = .ok answer →
    ¬answer.Fresh ∧ answer.retained fingerprint = some record

variable {room before : Room} {store : Store} {record : RetainedRecord} {now : Time} {fault : Bool}

theorem remembers_of_shared {operationID : String} (shared : before.shared = room.shared)
    (remembered : room.authority.operation operationID = some record) :
    before.authority.operation operationID = some record := by
  have field : before.shared.operations = room.shared.operations := congrArg Room.operations shared
  have operations : before.operations = room.operations := field
  change (before.operations.lookup operationID).map LedgerRecord.retained = _
  rw [operations]
  exact remembered

theorem DocumentOutcome.repeats [Host] {operation : DocumentOperation}
    {outcome : Outcome AcceptedDocumentOperation}
    (ends : DocumentOutcome before store operation now fault outcome)
    (shared : before.shared = room.shared)
    (remembered : room.authority.operation operation.operationID = some record) :
    room.Repeats store (Host.fingerprint (documentOperationJson operation)) record
      (outcome.1, outcome.2.map Answer.document) := by
  have remembered' : (before.operations.lookup operation.operationID).map LedgerRecord.retained =
      some record := remembers_of_shared shared remembered
  cases ends with
  | refused error => exact ⟨shared, rfl, fun _ answered => nomatch answered⟩
  | repeated accepted found =>
      refine ⟨shared, rfl, fun answer answered => ?_⟩
      cases answered
      rw [found, Option.map_some] at remembered'
      exact ⟨Bool.noConfusion, remembered'⟩
  | accepted document changes content store' named fresh =>
      rw [fresh] at remembered'
      cases remembered'

theorem MetadataOutcome.repeats [Host] {operation : MetadataOperation}
    {outcome : Outcome AcceptedMetadataOperation}
    (ends : MetadataOutcome before store operation now fault outcome)
    (shared : before.shared = room.shared)
    (remembered : room.authority.operation operation.operationID = some record) :
    room.Repeats store (Host.fingerprint (metadataOperationJson operation)) record
      (outcome.1, outcome.2.map Answer.metadata) := by
  have remembered' : (before.operations.lookup operation.operationID).map LedgerRecord.retained =
      some record := remembers_of_shared shared remembered
  cases ends with
  | refused room' shared' error =>
      exact ⟨shared'.trans shared, rfl, fun _ answered => nomatch answered⟩
  | repeated accepted found =>
      refine ⟨shared, rfl, fun answer answered => ?_⟩
      cases answered
      rw [found, Option.map_some] at remembered'
      exact ⟨Bool.noConfusion, remembered'⟩
  | accepted effect store' authority named fresh =>
      rw [fresh] at remembered'
      cases remembered'

end Room

namespace Authority

variable [Host] {authority : Authority} {again : Request}

/-- An operation that the ledger remembers is sent again. -/
theorem request_repeats {operationID fingerprint : String} {record : RetainedRecord}
    (own : again.entry = some (operationID, fingerprint))
    (remembered : authority.room.authority.operation operationID = some record) (session : Session)
    (now : Time) (fault : Bool) :
    authority.room.Repeats authority.store fingerprint record
      (authority.request session now fault again) := by
  cases again with
  | submitDocument operation =>
      cases own
      obtain ⟨before, shared, ends⟩ := authority.room.submitDocument_outcome authority.store
        session.participant session.connectionID session.generation operation now fault
      exact ends.repeats shared remembered
  | applyMetadata operation generator =>
      cases own
      obtain ⟨before, shared, ends⟩ := authority.room.applyMetadata_outcome authority.store
        session.participant session.connectionID session.generation operation generator now fault
      exact ends.repeats shared remembered
  | _ => cases own

end Authority

namespace Stage

section Resent

variable [Host] {options : HubOptions} {stage later : Stage} {annals annals' : Annals} {count : Nat}

/-- A fresh answer is remembered. -/
theorem Led.remembers (lived : Lived options stage annals) {session : Session} {request : Request}
    {now : Time} {fault : Bool} {answer : Answer}
    (accepted : (stage.authority.request session now fault request).2 = .ok answer)
    (told : answer.change.isSome) :
    ∃ operationID fingerprint record, request.entry = some (operationID, fingerprint) ∧
      answer.retained fingerprint = some record ∧
      (stage.authority.request session now fault request).1.room.authority.Keeps operationID
        record 0 := by
  cases Authority.request_books stage.authority session now fault request with
  | kept order operations silent =>
      rw [silent answer accepted] at told
      cases told
  | entered operationID record answer' own fresh order operations answered told' retained =>
      cases accepted.symm.trans answered
      exact ⟨operationID, record.fingerprint, record.retained, own, retained,
        lived.settled.consistent.formed.keeps_new fresh order operations⟩

/-- An operation that has been accepted is sent again, through any handle, before as many others
have been accepted as the ledger remembers: maybe after a restart of the server. -/
theorem resent_once (lived : Lived options stage annals) {session : Session} {request : Request}
    {now : Time} {fault : Bool} {answer : Answer}
    (possible : Action.Possible stage.issued ⟨.request session request, now, fault⟩)
    (accepted : (stage.authority.perform ⟨.request session request, now, fault⟩).2 = .ok answer)
    (fresh : answer.Fresh)
    (after : After options (stage.step ⟨.request session request, now, fault⟩)
      (annals.log (stage.step ⟨.request session request, now, fault⟩).authority.room) count later
      annals')
    (few : count < Room.ledgerLimit options) {again : Request} (resends : request.Resends again)
    (session' : Session) (now' : Time) (fault' : Bool) :
    ∃ operationID fingerprint record, request.entry = some (operationID, fingerprint) ∧
      answer.retained fingerprint = some record ∧
      later.authority.room.Repeats later.authority.store fingerprint record
        (later.authority.perform ⟨.request session' again, now', fault'⟩) := by
  obtain ⟨operationID, fingerprint, record, own, retained, keeps⟩ :=
    lived.remembers accepted fresh.change
  have lived' := Led.step stage annals ⟨.request session request, now, fault⟩ lived possible
    (fun _ call => nomatch call) trivial
  have kept := after.keeps lived' keeps few
  exact ⟨operationID, fingerprint, record, own, retained,
    Authority.request_repeats (resends.entry.trans own) kept.1 session' now' fault'⟩

end Resent

/-- A participant sends again what it has just written. -/
theorem resent_once_small :
    let written := (@run sampleHost (smallStage defaultHubOptions)
      [smallJoin "ann" "page" [] 2, smallWriting]).authority
    let outcome := @Authority.perform sampleHost written ⟨smallWriting.call, unixTime 4, false⟩
    outcome.1.room.shared = written.room.shared ∧ outcome.1.store = written.store ∧
      ∀ answer, outcome.2 = .ok answer → ¬answer.Fresh := by
  have created := @Led.created sampleHost _ (fun _ _ _ => True) _ rfl small_started
  have joined := @Led.step sampleHost _ _ _ _ (smallJoin "ann" "page" [] 2) created trivial
    (fun _ call => nomatch call) trivial
  have possible : smallWriting.Possible (@step sampleHost (smallStage defaultHubOptions)
      (smallJoin "ann" "page" [] 2)).issued :=
    ⟨by decide +kernel, .arr [.num 2, .arr [.num 0, .str "c"]], by decide +kernel⟩
  have told : ((@Authority.perform sampleHost (@step sampleHost (smallStage defaultHubOptions)
      (smallJoin "ann" "page" [] 2)).authority smallWriting).2.toOption.bind
        Answer.change).isSome = true := by decide +kernel
  obtain ⟨change, told⟩ := Option.isSome_iff_exists.mp told
  obtain ⟨answer, answered, told⟩ := Option.bind_eq_some_iff.mp told
  have fresh : answer.Fresh := by
    by_contra stale
    rw [Answer.change_of_stale stale] at told
    cases told
  have accepted {result : Except LiveError Answer} (found : result.toOption = some answer) :
      result = .ok answer := by
    cases result with
    | error error => cases found
    | ok value => exact congrArg Except.ok (Option.some_inj.mp found)
  obtain ⟨_, _, _, _, _, repeats⟩ := @resent_once sampleHost _ _ _ _ _ _ joined _ _ _ _ _ possible
    (accepted answered) fresh (@After.now sampleHost _ _ _) (by decide)
    (.submitDocument ⟨"op", "ann", "main", 0, ⟨[⟨2, -1, ""⟩, ⟨0, 1, "c"⟩]⟩⟩) rfl
    (smallSession "ann" "page" 1 false) (unixTime 4) false
  exact ⟨repeats.shared, repeats.store, fun answer answered => (repeats.answer answer answered).1⟩

end Stage

end Oxbin.Live
