import Oxbin.Live.Resent

/-!
# What the ledger remembers

Every operation on the metadata that a room has accepted names what its kind needs.  The ledger
remembers it so, in memory as well as in the store.
-/

namespace Oxbin.Live

open Storage

/-- The operation on the metadata names what its kind needs. -/
def PersistedMetadataChange.Complete (change : PersistedMetadataChange) : Prop :=
  change.kind = "document_create" ∨
  change.kind = "document_update" ∧ change.documentID ≠ "" ∧ change.name ≠ "" ∧
    change.language ≠ "" ∨
  change.kind = "document_delete" ∧ change.documentID ≠ "" ∨
  change.kind = "document_reorder" ∧ change.order ≠ []

/-- The part of an accepted operation on the metadata that is stored. -/
def AcceptedMetadataOperation.persisted (accepted : AcceptedMetadataOperation) :
    PersistedMetadataChange where
  kind := accepted.kind
  documentID := accepted.documentID
  name := accepted.name
  language := accepted.language
  content := accepted.content
  order := accepted.order

/-- The operation names what its kind needs. -/
def RetainedRecord.Complete (record : RetainedRecord) : Prop :=
  ∀ change, record.change = .metadata change → change.Complete

/-- All operations in the ledger name what their kinds need. -/
def AuthorityState.Complete (state : AuthorityState) : Prop :=
  ∀ operationID record, state.operation operationID = some record → record.Complete

/-- What arranges the tabs of clients is complete. -/
theorem Screen.complete_of_arrange {view view' : View} {accepted : AcceptedMetadataOperation}
    (arranged : view.arrange accepted = .ok view') : accepted.persisted.Complete := by
  obtain ⟨_, _, found⟩ := Screen.arrange_ok arranged
  unfold Screen.arranged at found
  split at found
  case h_1 kind => exact .inl kind
  case h_2 kind =>
    obtain ⟨named, _⟩ := Option.ite_none_left_eq_some.mp found
    rw [not_or, not_or] at named
    exact .inr (.inl ⟨kind, named⟩)
  case h_3 kind =>
    obtain ⟨named, _⟩ := Option.ite_none_left_eq_some.mp found
    exact .inr (.inr (.inl ⟨kind, named⟩))
  case h_4 kind =>
    obtain ⟨named, _⟩ := Option.ite_none_left_eq_some.mp found
    exact .inr (.inr (.inr ⟨kind, (not_or.mp named).1⟩))
  case h_5 => cases found

namespace Room

variable {room room' : Room} {entry : Option (String × String)}
  {result : Except LiveError Answer}

/-- What holds of the operations in the ledger and of one that is told to clients goes on to hold of
the operations in the ledger. -/
theorem Books.forall_operation {holds : RetainedRecord → Prop}
    (books : room.Books entry result room')
    (old : ∀ id record, room.authority.operation id = some record → holds record)
    (new : ∀ answer fingerprint record, result = .ok answer → answer.change.isSome →
      answer.retained fingerprint = some record → holds record) :
    ∀ id record, room'.authority.operation id = some record → holds record := by
  intro id record found
  change (room'.operations.lookup id).map LedgerRecord.retained = some record at found
  cases books with
  | kept order operations silent =>
      rw [operations] at found
      exact old id record found
  | entered operationID entered answer own fresh order operations answered told retained =>
      rw [operations, pruneRecords_lookup] at found
      split at found
      case isTrue => cases found
      case isFalse =>
        rw [Keyed.lookup_insert_if] at found
        split at found
        case isTrue =>
          cases found
          exact new answer _ _ answered told retained
        case isFalse => exact old id record found

end Room

namespace Stage

variable [Host] {options : HubOptions} {stage : Stage} {annals : Annals}

/-- An operation that a room accepts names what its kind needs. -/
theorem Led.complete_told (lived : Lived options stage annals) {action : Action}
    (possible : action.Possible stage.issued) {accepted : AcceptedMetadataOperation}
    (answered : (stage.authority.perform action).2 = .ok (.metadata accepted))
    (fresh : accepted.duplicate = false) : accepted.persisted.Complete := by
  have told : (Answer.metadata accepted).change = some (.metadata accepted) := by
    rw [Answer.change, fresh]
    rfl
  cases lived.tells possible with
  | nothing view silent =>
      rw [silent _ answered] at told
      cases told
  | change answer change answered' told' applied counts =>
      cases answered.symm.trans answered'
      cases told.symm.trans told'
      exact Screen.complete_of_arrange applied

/-- In the whole life of a room the ledger is complete. -/
theorem Led.complete (lived : Lived options stage annals) :
    stage.authority.room.authority.Complete := by
  induction lived with
  | created authority valid started =>
      obtain ⟨room, store, prepared, formed, stored, found, load⟩ := started.stored
      obtain ⟨documents, operations, _, recorded, _, built⟩ := stored.newRoom_eq formed found
      have same := Except.ok.inj (congrArg Prod.snd (load.symm.trans built))
      intro id record present
      rw [same] at present
      have listed : id ∈ operations := by
        obtain ⟨entered, lookup, _⟩ := Option.map_eq_some_iff.mp present
        exact AList.lookup_isSome.mp (Option.isSome_of_eq_some lookup)
      exact absurd ((recorded id).mp listed) List.not_mem_nil
  | step stage annals action led possible apart admitted complete =>
      refine (Authority.perform_books led.settled.clean action).forall_operation complete
        fun answer fingerprint record answered told retained => ?_
      cases answer with
      | document accepted =>
          cases retained
          exact fun change kind => nomatch kind
      | metadata accepted =>
          cases retained
          rintro change ⟨⟩
          refine Led.complete_told led possible answered ?_
          cases repeats : accepted.duplicate with
          | false => rfl
          | true =>
              rw [Answer.change, repeats] at told
              cases told
      | _ => cases retained
  | reload stage annals snapshot now authority led valid read load complete =>
      obtain ⟨⟨formed, tables, found, stored⟩, same, _⟩ := led.settled
      rw [← same] at load
      rw [stored.loaded_authority formed found read load]
      exact complete

end Stage

end Oxbin.Live
