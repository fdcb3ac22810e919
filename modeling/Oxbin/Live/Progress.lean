import Oxbin.Live.Life
import Oxbin.Live.Views

/-!
# What a call does to the tabs

A call on a room leaves its tabs alone, edits one of them, or arranges them.  The history of the
metadata is numbered all along, and ends at the revision of the metadata.
-/

namespace Oxbin.Live

open Livecollab Storage

/-! ## The metadata history -/

/-- The operations have made the revisions after a revision, one after the other. -/
def NumberedFrom : Int → List AcceptedMetadataOperation → Prop
  | _, [] => True
  | revision, accepted :: history =>
      accepted.revision = revision + 1 ∧ NumberedFrom (revision + 1) history

section Numbered

variable {revision : Int} {history : List AcceptedMetadataOperation}

theorem NumberedFrom.append (numbered : NumberedFrom revision history)
    {later : List AcceptedMetadataOperation}
    (rest : NumberedFrom (revision + history.length) later) :
    NumberedFrom revision (history ++ later) := by
  induction history generalizing revision with
  | nil => simpa using rest
  | cons accepted history induction =>
      refine ⟨numbered.1, induction numbered.2 ?_⟩
      rw [List.length_cons, Nat.cast_add, Nat.cast_one] at rest
      rwa [show revision + 1 + history.length = revision + (history.length + 1) by omega]

theorem NumberedFrom.drop (numbered : NumberedFrom revision history) (count : Nat) :
    NumberedFrom (revision + count) (history.drop count) := by
  induction count generalizing revision history with
  | zero => simpa using numbered
  | succ count induction =>
      cases history with
      | nil => trivial
      | cons accepted history =>
          have rest := induction numbered.2
          rwa [Nat.cast_add, Nat.cast_one, Int.add_comm _ 1, ← Int.add_assoc]

theorem NumberedFrom.of_append {later : List AcceptedMetadataOperation}
    (numbered : NumberedFrom revision (history ++ later)) : NumberedFrom revision history := by
  induction history generalizing revision with
  | nil => trivial
  | cons accepted history induction => exact ⟨numbered.1, induction numbered.2⟩

/-- Where the revisions of the operations lie. -/
theorem NumberedFrom.range (numbered : NumberedFrom revision history)
    {accepted : AcceptedMetadataOperation} (member : accepted ∈ history) :
    revision < accepted.revision ∧ accepted.revision ≤ revision + history.length := by
  induction history generalizing revision with
  | nil => cases member
  | cons first history induction =>
      rw [List.length_cons, Nat.cast_add, Nat.cast_one]
      rcases List.mem_cons.mp member with rfl | later
      · have own := numbered.1
        omega
      · have rest := induction numbered.2 later
        omega

end Numbered

namespace Room

/-- The metadata history of a room leads from the revision through which it has been compacted to
the present one. -/
structure Minuted (room : Room) : Prop where
  numbered : NumberedFrom room.metadataCompactedRevision room.metadataHistory
  current : room.metadataCompactedRevision + room.metadataHistory.length =
    room.snapshot.metadataRevision
  sizes : room.metadataHistorySizes.length = room.metadataHistory.length
  fresh : ∀ accepted ∈ room.metadataHistory, accepted.duplicate = false

/-- What has happened since a revision that has not been compacted away. -/
theorem Minuted.since {room : Room} (minuted : room.Minuted) {revision : Int}
    (reaches : room.metadataCompactedRevision ≤ revision)
    (below : revision ≤ room.snapshot.metadataRevision) :
    ∃ seen log, room.metadataHistory = seen ++ log ∧
      (∀ accepted ∈ seen, accepted.revision ≤ revision) ∧ NumberedFrom revision log ∧
      revision + log.length = room.snapshot.metadataRevision := by
  obtain ⟨count, reached⟩ := Int.le.dest reaches
  have current := minuted.current
  have numbered := minuted.numbered
  have short : count ≤ room.metadataHistory.length := by omega
  refine ⟨_, _, (List.take_append_drop count _).symm, fun accepted member => ?_, ?_, ?_⟩
  · rw [← List.take_append_drop count room.metadataHistory] at numbered
    have range := (numbered.of_append.range member).2
    rw [List.length_take_of_le short, reached] at range
    exact range
  · have later := numbered.drop count
    rwa [reached] at later
  · rw [List.length_drop]
    omega

theorem Minuted.of_shared {room room' : Room} (minuted : room.Minuted)
    (shared : room'.shared = room.shared) : room'.Minuted := by
  have shape (room : Room) : room.Minuted ↔ room.shared.Minuted :=
    ⟨fun minuted => { minuted with }, fun minuted => { minuted with }⟩
  rw [shape, shared, ← shape]
  exact minuted

/-- The revision through which a history has been compacted that begins like this. -/
def compactedBefore (revision : Int) : List AcceptedMetadataOperation → Int
  | [] => revision
  | oldest :: _ => oldest.revision - 1

/-- Pruning drops the oldest operations. -/
theorem Minuted.prune {room : Room} (minuted : room.Minuted) :
    room.pruneMetadataHistory.Minuted ∧
      room.pruneMetadataHistory.metadataHistory <:+ room.metadataHistory := by
  obtain ⟨count, dropped⟩ := pruneRows_eq_drop Prod.snd room.options.maxHistoryRows
    room.options.maxHistoryBytes (room.metadataHistory.zip room.metadataHistorySizes)
    room.metadataHistoryBytes
  have history : room.pruneMetadataHistory.metadataHistory = room.metadataHistory.drop count := by
    simp only [pruneMetadataHistory, dropped, List.map_drop]
    rw [List.map_fst_zip minuted.sizes.ge]
  have sizes : room.pruneMetadataHistory.metadataHistorySizes =
      room.metadataHistorySizes.drop count := by
    simp only [pruneMetadataHistory, dropped, List.map_drop]
    rw [List.map_snd_zip minuted.sizes.le]
  have revision : room.pruneMetadataHistory.snapshot = room.snapshot := rfl
  have compacted : room.pruneMetadataHistory.metadataCompactedRevision =
      compactedBefore room.snapshot.metadataRevision
        room.pruneMetadataHistory.metadataHistory := rfl
  have kept := minuted.numbered.drop count
  have current := minuted.current
  have length := List.length_drop (i := count) (l := room.metadataHistory)
  rw [history] at compacted
  refine ⟨⟨?_, ?_, ?_, ?_⟩, history ▸ List.drop_suffix _ _⟩
  · rw [history, compacted]
    cases rest : room.metadataHistory.drop count with
    | nil => trivial
    | cons oldest rest' =>
        rw [rest] at kept
        have first := kept.1
        refine ⟨by simp only [compactedBefore]; omega, ?_⟩
        simpa only [compactedBefore, first, Int.add_sub_cancel] using kept.2
  · rw [history, compacted, revision]
    cases rest : room.metadataHistory.drop count with
    | nil => simp [compactedBefore]
    | cons oldest rest' =>
        rw [rest] at kept length
        have first := kept.1
        have short : count < room.metadataHistory.length := by
          rw [List.length_cons] at length
          omega
        simp only [compactedBefore]
        omega
  · rw [history, sizes, List.length_drop, List.length_drop, minuted.sizes]
  · rw [history]
    exact fun accepted member => minuted.fresh accepted (List.mem_of_mem_drop member)

theorem compactThrough_metadata (changed : Room) (accepted : AcceptedMetadataOperation)
    (payloadBytes : Int) (compacts : 0 < changed.compactThrough (.metadata accepted) payloadBytes) :
    changed.compactThrough (.metadata accepted) payloadBytes = accepted.revision := by
  unfold compactThrough at compacts ⊢
  simp only at compacts ⊢
  split at compacts
  case isTrue full => rw [if_pos full]
  case isFalse => omega

/-- A committed operation on the metadata ends the history. -/
theorem committed_minuted {room changed : Room} (minuted : room.Minuted)
    (compacted : changed.metadataCompactedRevision = room.metadataCompactedRevision)
    (history : changed.metadataHistory = room.metadataHistory)
    (sizes : changed.metadataHistorySizes = room.metadataHistorySizes)
    (next : changed.snapshot.metadataRevision = room.snapshot.metadataRevision + 1)
    (change : ChangeRecord) (fingerprint : String) {accepted : AcceptedMetadataOperation}
    (own : accepted.revision = room.snapshot.metadataRevision + 1)
    (fresh : accepted.duplicate = false) (beforeLength : Int) :
    (changed.committed change fingerprint (.metadata accepted) beforeLength).Minuted ∧
      (changed.committed change fingerprint (.metadata accepted) beforeLength).metadataHistory <:+
        room.metadataHistory ++ [accepted] := by
  let recorded : Room := { changed with
    snapshot := changed.durableSnapshot.2
    metadataHistory := changed.metadataHistory ++ [accepted]
    metadataHistorySizes := changed.metadataHistorySizes ++ [change.payload.size]
    metadataHistoryBytes := changed.metadataHistoryBytes + change.payload.size }
  have appended : recorded.Minuted := by
    constructor
    case numbered =>
      change NumberedFrom changed.metadataCompactedRevision (changed.metadataHistory ++ [accepted])
      rw [compacted, history]
      refine minuted.numbered.append ⟨?_, trivial⟩
      rw [minuted.current, own]
    case current =>
      change changed.metadataCompactedRevision + ((changed.metadataHistory ++ [accepted]).length) =
        changed.snapshot.metadataRevision
      have current := minuted.current
      rw [compacted, history, next, List.length_append, List.length_singleton]
      omega
    case sizes =>
      change (changed.metadataHistorySizes ++ [change.payload.size]).length =
        (changed.metadataHistory ++ [accepted]).length
      rw [sizes, history, List.length_append, List.length_append, minuted.sizes]
      rfl
    case fresh =>
      intro other member
      change other ∈ changed.metadataHistory ++ [accepted] at member
      rw [history] at member
      rcases List.mem_append.mp member with old | own
      · exact minuted.fresh other old
      · exact List.mem_singleton.mp own ▸ fresh
  obtain ⟨pruned, suffix⟩ := appended.prune
  have through := compactThrough_metadata changed accepted change.payload.size
  unfold committed recordCommitted recordMetadataOperation
  simp only [pruneOperationRecords_eq]
  split
  case isTrue compacts =>
    refine ⟨⟨trivial, ?_, rfl, List.forall_mem_nil _⟩, List.nil_suffix⟩
    change changed.compactThrough (.metadata accepted) change.payload.size + 0 =
      changed.snapshot.metadataRevision
    rw [through compacts, own, next, Int.add_zero]
  case isFalse =>
    refine ⟨⟨pruned.numbered, pruned.current, pruned.sizes, pruned.fresh⟩, ?_⟩
    rw [← history]
    exact suffix

theorem MetadataChange.minuted {room : Room} {operation : MetadataOperation} {now : Time}
    {effect : MetadataEffect} (change : room.MetadataChange operation now effect)
    (minuted : room.Minuted) (record : ChangeRecord) (fingerprint : String) :
    ((room.metadataChanged effect).committed record fingerprint
        (.metadata (room.acceptedMetadata operation effect)) 0).Minuted ∧
      ((room.metadataChanged effect).committed record fingerprint
        (.metadata (room.acceptedMetadata operation effect)) 0).metadataHistory <:+
          room.metadataHistory ++ [room.acceptedMetadata operation effect] := by
  have rest {α : Type} (read : Room → α) := congrArg read change.rest
  have compacted : (room.metadataChanged effect).metadataCompactedRevision =
    room.metadataCompactedRevision := rest Room.metadataCompactedRevision
  have history : (room.metadataChanged effect).metadataHistory = room.metadataHistory :=
    rest Room.metadataHistory
  have sizes : (room.metadataChanged effect).metadataHistorySizes = room.metadataHistorySizes :=
    rest Room.metadataHistorySizes
  have own : (room.acceptedMetadata operation effect).revision =
    room.snapshot.metadataRevision + 1 := rfl
  exact committed_minuted minuted compacted history sizes rfl record fingerprint own rfl 0

/-! ## Calls -/

/-- The tabs and the history of the metadata are the same. -/
structure SameTabs (room room' : Room) : Prop where
  documents : room'.documents = room.documents
  order : room'.order = room.order
  metadataRevision : room'.snapshot.metadataRevision = room.snapshot.metadataRevision
  metadataCompactedRevision : room'.metadataCompactedRevision = room.metadataCompactedRevision
  metadataHistory : room'.metadataHistory = room.metadataHistory
  metadataHistorySizes : room'.metadataHistorySizes = room.metadataHistorySizes

theorem SameTabs.refl (room : Room) : room.SameTabs room := ⟨rfl, rfl, rfl, rfl, rfl, rfl⟩

theorem SameTabs.trans {first second third : Room} (left : first.SameTabs second)
    (right : second.SameTabs third) : first.SameTabs third where
  documents := right.documents.trans left.documents
  order := right.order.trans left.order
  metadataRevision := right.metadataRevision.trans left.metadataRevision
  metadataCompactedRevision :=
    right.metadataCompactedRevision.trans left.metadataCompactedRevision
  metadataHistory := right.metadataHistory.trans left.metadataHistory
  metadataHistorySizes := right.metadataHistorySizes.trans left.metadataHistorySizes

theorem sameTabs_of_shared {room room' : Room} (shared : room'.shared = room.shared) :
    room.SameTabs room' := by
  have field {α : Type} (read : Room → α) : read room'.shared = read room.shared :=
    congrArg read shared
  exact ⟨field Room.documents, field Room.order, field fun room => room.snapshot.metadataRevision,
    field Room.metadataCompactedRevision, field Room.metadataHistory,
    field Room.metadataHistorySizes⟩

theorem SameTabs.view {room room' : Room} (same : room.SameTabs room') :
    room'.view = room.view := by
  have tab : room'.tab = room.tab := by
    funext id
    unfold tab
    rw [same.documents]
  unfold Room.view
  rw [same.metadataRevision, same.order, tab]

theorem Minuted.sameTabs {room room' : Room} (minuted : room.Minuted)
    (same : room.SameTabs room') : room'.Minuted where
  numbered := by
    rw [same.metadataCompactedRevision, same.metadataHistory]
    exact minuted.numbered
  current := by
    rw [same.metadataCompactedRevision, same.metadataHistory, same.metadataRevision]
    exact minuted.current
  sizes := by
    rw [same.metadataHistorySizes, same.metadataHistory]
    exact minuted.sizes
  fresh := by
    rw [same.metadataHistory]
    exact minuted.fresh

end Room

/-- The answer reports an operation that has just been accepted. -/
def Answer.Fresh : Answer → Prop
  | .document accepted => accepted.duplicate = false
  | .metadata accepted => accepted.duplicate = false
  | _ => False

theorem Answer.stale_map {α : Type} (result : Except LiveError α) {wrap : α → Answer}
    (stale : ∀ value, ¬(wrap value).Fresh) :
    ∀ answer, result.map wrap = .ok answer → ¬answer.Fresh := by
  intro answer answered
  cases result with
  | error error => cases answered
  | ok value =>
      cases answered
      exact stale value

namespace Room

/-- What a call does to the tabs, with its result. -/
inductive Progress (room : Room) : Except LiveError Answer → Room → Prop
  | still (result : Except LiveError Answer) (room' : Room) (same : room.SameTabs room')
      (stale : ∀ answer, result = .ok answer → ¬answer.Fresh) : Progress room result room'
  | edited (before : Room) (same : room.SameTabs before) (operation : DocumentOperation)
      (document : Document) (changes : ChangeSet) (content : String)
      (admitted : before.Admitted operation document changes content)
      (canonical : changes.Canonical) (fingerprint : String) (now : Time) :
      Progress room (.ok (.document (acceptedDocument operation document changes content)))
        (before.accepted operation fingerprint document changes content now)
  | arranged (before : Room) (same : room.SameTabs before) (operation : MetadataOperation)
      (now : Time) (effect : MetadataEffect) (change : before.MetadataChange operation now effect)
      (record : ChangeRecord) (fingerprint : String) (room' : Room)
      (commits : room' = (before.metadataChanged effect).committed record fingerprint
        (.metadata (before.acceptedMetadata operation effect)) 0) :
      Progress room
        (.ok (.metadata { before.acceptedMetadata operation effect with state := room'.state }))
        room'

theorem Progress.idle {room room' : Room} (shared : room'.shared = room.shared)
    {result : Except LiveError Answer}
    (stale : ∀ answer, result = .ok answer → ¬answer.Fresh) : room.Progress result room' :=
  .still result room' (sameTabs_of_shared shared) stale

/-- No call breaks the numbering of the history of the metadata. -/
theorem Progress.minuted {room room' : Room} {result : Except LiveError Answer}
    (progress : room.Progress result room') (minuted : room.Minuted) : room'.Minuted := by
  cases progress with
  | still result room' same stale => exact minuted.sameTabs same
  | edited before same operation document changes content admitted canonical fingerprint now =>
      have kept := minuted.sameTabs same
      obtain ⟨documents, equality⟩ := committed_document_eq
        (before.editDocument operation.documentID document content
          (document.snapshot.currentRevision + 1) now)
        (documentChange (acceptedDocument operation document changes content) now) fingerprint
        (acceptedDocument operation document changes content)
        (utf16Len document.snapshot.content)
      rw [accepted, equality]
      exact ⟨kept.numbered, kept.current, kept.sizes, kept.fresh⟩
  | arranged before same operation now effect change record fingerprint room' commits =>
      rw [commits]
      exact (change.minuted (minuted.sameTabs same) record fingerprint).1

theorem DocumentOutcome.progress [Host] {room before : Room} {store : Store}
    {operation : DocumentOperation} {now : Time} {fault : Bool}
    {outcome : Outcome AcceptedDocumentOperation} (shared : before.shared = room.shared)
    (formed : room.Formed) (canonical : operation.changes.Canonical)
    (ends : DocumentOutcome before store operation now fault outcome) :
    room.Progress (outcome.2.map .document) outcome.1.room := by
  have same := sameTabs_of_shared shared
  cases ends with
  | refused error => exact .still _ _ same fun _ answered => nomatch answered
  | repeated accepted record =>
      refine .still _ _ same fun answer answered fresh => ?_
      cases answered
      cases fresh
  | accepted document changes content store' named fresh admitted small saved =>
      have admitted := admitted_of_admitDocument admitted
      exact .edited before same operation document changes content admitted
        (admitted.canonical (formed.of_shared shared) canonical) _ now

theorem MetadataOutcome.progress [Host] {room before : Room} {store : Store}
    {operation : MetadataOperation} {now : Time} {fault : Bool}
    {outcome : Outcome AcceptedMetadataOperation} (same : room.SameTabs before)
    (ends : MetadataOutcome before store operation now fault outcome) :
    room.Progress (outcome.2.map .metadata) outcome.1.room := by
  cases ends with
  | refused room' shared error =>
      exact .still _ _ (same.trans (sameTabs_of_shared shared)) fun _ answered => nomatch answered
  | repeated accepted record =>
      refine .still _ _ same fun answer answered fresh => ?_
      cases answered
      cases fresh
  | accepted effect store' authority named fresh admitted change small saved result =>
      subst result
      exact .arranged before same operation now effect change _ _ _ rfl

theorem ModeOutcome.progress {room : Room} {store : Store} {change : Room → Room}
    {save : Except LiveError Store} {outcome : Outcome RoomState}
    (ends : ModeOutcome room store change save outcome)
    (tabs : ∀ room : Room, room.SameTabs (change room)) :
    room.Progress (outcome.2.map .state) outcome.1.room := by
  cases ends with
  | refused room' shared error => exact .idle shared fun _ answered => nomatch answered
  | unchanged room' shared =>
      refine .idle shared fun answer answered fresh => ?_
      cases answered
      exact fresh
  | changed room' shared store' saved =>
      refine .still _ _ ((sameTabs_of_shared shared).trans (tabs room'))
        fun answer answered fresh => ?_
      cases answered
      exact fresh

end Room

namespace Authority

theorem request_progress [Host] {authority : Authority} (formed : authority.room.Formed)
    {issued : List Session} {session : Session} {now : Time} {fault : Bool} {request : Request}
    (possible : Action.Possible issued ⟨.request session request, now, fault⟩) :
    authority.room.Progress (authority.request session now fault request).2
      (authority.request session now fault request).1.room := by
  cases request with
  | submitDocument operation =>
      obtain ⟨before, shared, ends⟩ := authority.room.submitDocument_outcome authority.store
        session.participant session.connectionID session.generation operation now fault
      obtain ⟨_, json, parsed⟩ := possible
      exact ends.progress shared formed (canonical_of_parseChangeSetJSON parsed)
  | applyMetadata operation generator =>
      obtain ⟨before, shared, ends⟩ := authority.room.applyMetadata_outcome authority.store
        session.participant session.connectionID session.generation operation generator now fault
      exact ends.progress (Room.sameTabs_of_shared shared)
  | updatePresence update =>
      exact .idle (Room.updatePresence_shared _ _ _ _ _ _) (Answer.stale_map _ fun _ => id)
  | rename name =>
      exact .idle (Room.rename_shared _ _ _ _ _ _) (Answer.stale_map _ fun _ => id)
  | heartbeat =>
      exact .idle (Room.ensureConnection_shared _ _ _ _ _) (Answer.stale_map _ fun _ => id)
  | disconnect =>
      exact .idle (Room.disconnect_shared _ _ _ _ _) (Answer.stale_map _ fun _ => id)
  | setWatchOnly enabled =>
      exact (authority.room.setWatchOnly_outcome authority.store session.participant
        session.connectionID session.generation session.creator enabled now fault).progress
          fun _ => ⟨rfl, rfl, rfl, rfl, rfl, rfl⟩
  | setLayoutPreset preset =>
      exact (authority.room.setLayoutPreset_outcome authority.store session.participant
        session.connectionID session.generation session.creator preset now fault).progress
          fun _ => ⟨rfl, rfl, rfl, rfl, rfl, rfl⟩

/-- Every call on a room that has nothing to save. -/
theorem perform_progress [Host] {authority : Authority} (formed : authority.room.Formed)
    (clean : authority.room.dirty = false) {issued : List Session} {action : Action}
    (possible : action.Possible issued) :
    authority.room.Progress (authority.perform action).2 (authority.perform action).1.room := by
  obtain ⟨call, now, fault⟩ := action
  cases call with
  | join identity capability candidate =>
      change authority.room.Progress (authority.join identity capability candidate now).2
        (authority.join identity capability candidate now).1.room
      unfold join
      split
      case h_1 => exact .idle rfl fun _ answered => nomatch answered
      case h_2 =>
        exact .idle (Room.join_shared _ _ _ _ _) (Answer.stale_map _ fun _ => id)
  | request session request => exact request_progress formed possible
  | sweep =>
      refine .idle (Room.sweep_shared _ _) fun answer answered fresh => ?_
      cases answered
      exact fresh
  | shouldEvict =>
      refine .idle (Room.shouldEvict_shared _ _) fun answer answered fresh => ?_
      cases answered
      exact fresh
  | shutdown =>
      change authority.room.Progress
        ((authority.room.shutdown authority.store now fault).2.map fun () => Answer.done)
        (authority.room.shutdown authority.store now fault).1.room
      rw [shutdown_clean clean]
      exact .still _ _ ⟨rfl, rfl, rfl, rfl, rfl, rfl⟩ (Answer.stale_map _ fun _ => id)
  | elsewhere store =>
      refine .idle rfl fun answer answered fresh => ?_
      cases answered
      exact fresh

end Authority

end Oxbin.Live
