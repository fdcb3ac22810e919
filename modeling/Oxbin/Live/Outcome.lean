import Oxbin.Live.Authority

/-!
# What an operation does to the shared state

An operation on the shared state is refused, is answered from the ledger, or is accepted.  In the
first two cases only the roster may have changed; in the last one the room and the store are
known exactly.
-/

namespace Oxbin.Live

open Livecollab Storage

namespace Room

/-- The room without its roster. -/
def shared (room : Room) : Room :=
  { room with participants := ∅, sessions := ∅, names := ∅, closed := false }

theorem documents_of_shared {room room' : Room} (shared : room.shared = room'.shared) :
    room.documents = room'.documents := by
  have equality := congrArg Room.documents shared
  exact equality

theorem operations_of_shared {room room' : Room} (shared : room.shared = room'.shared) :
    room.operations = room'.operations := by
  have equality := congrArg Room.operations shared
  exact equality

theorem order_of_shared {room room' : Room} (shared : room.shared = room'.shared) :
    room.order = room'.order := by
  have equality := congrArg Room.order shared
  exact equality

/-! ## Changes of the roster -/

@[simp] theorem refreshParticipant_shared (room : Room) (id : String) (participant : Participant) :
    (room.refreshParticipant id participant).shared = room.shared := rfl

@[simp] theorem updateConnection_shared (room : Room) (participantID : String)
    (participant : Participant) (connection : Connection) :
    (room.updateConnection participantID participant connection).shared = room.shared := rfl

@[simp] theorem leaveDocumentAll_shared (room : Room) (documentID fallbackTab : String) :
    (room.leaveDocumentAll documentID fallbackTab).shared = room.shared := rfl

theorem ensureActive_shared (room : Room) (now : Time) :
    (room.ensureActive now).1.shared = room.shared := by
  unfold ensureActive
  split <;> rfl

theorem ensureConnection_shared (room : Room) (participantID connectionID : String)
    (generation : Nat) (now : Time) :
    (room.ensureConnection participantID connectionID generation now).1.shared = room.shared := by
  have active := room.ensureActive_shared now
  unfold ensureConnection
  split
  case h_1 refused => rwa [refused] at active
  case h_2 accepted =>
    rw [accepted] at active
    split
    · exact active
    · split
      · exact active
      · split
        · exact active
        · exact active

theorem markConnectionActivity_shared (room : Room) (participantID connectionID : String)
    (now : Time) :
    (room.markConnectionActivity participantID connectionID now).shared = room.shared := by
  unfold markConnectionActivity
  split
  · rfl
  · split <;> rfl

/-! ## Pruning -/

theorem pruneRows_eq_drop {α : Type} (size : α → Int) (maxRows maxBytes : Int) (rows : List α)
    (bytes : Int) : ∃ count, (pruneRows size maxRows maxBytes rows bytes).1 = rows.drop count := by
  induction rows generalizing bytes with
  | nil => exact ⟨0, rfl⟩
  | cons row rows induction =>
      rw [pruneRows]
      split
      · obtain ⟨count, equality⟩ := induction (bytes - size row)
        exact ⟨count + 1, equality⟩
      · exact ⟨0, rfl⟩

theorem pruneRecords_order (maxRecords : Nat) (order : List String)
    (operations : Keyed LedgerRecord) :
    (pruneRecords maxRecords order operations).1 = order.drop (order.length - maxRecords) := by
  induction order generalizing operations with
  | nil => simp [pruneRecords]
  | cons id order induction =>
      rw [pruneRecords]
      split
      case isTrue many =>
        rw [induction, List.length_cons,
          show order.length + 1 - maxRecords = order.length - maxRecords + 1 by
            rw [List.length_cons] at many
            omega, List.drop_succ_cons]
      case isFalse few => rw [show (id :: order).length - maxRecords = 0 by omega, List.drop_zero]

theorem pruneRecords_lookup (maxRecords : Nat) (order : List String)
    (operations : Keyed LedgerRecord) (id : String) :
    (pruneRecords maxRecords order operations).2.lookup id =
      if id ∈ order.take (order.length - maxRecords) then none else operations.lookup id := by
  induction order generalizing operations with
  | nil => simp [pruneRecords]
  | cons oldest order induction =>
      rw [pruneRecords]
      split
      case isTrue many =>
        rw [induction, List.length_cons,
          show order.length + 1 - maxRecords = order.length - maxRecords + 1 by
            rw [List.length_cons] at many
            omega, List.take_succ_cons, Keyed.lookup_erase_if]
        by_cases same : id = oldest <;> simp [same]
      case isFalse few => rw [show (oldest :: order).length - maxRecords = 0 by omega]; simp

/-- The number of operations that the ledger retains. -/
def ledgerLimit (options : HubOptions) : Nat := (operationRecordLimit options).toNat

theorem operationRecordLimit_eq (options : HubOptions) :
    operationRecordLimit options = ledgerLimit options := by
  have limit : 32 ≤ operationRecordLimit options := by
    simp only [operationRecordLimit]
    split <;> omega
  exact (Int.toNat_of_nonneg (by omega)).symm

theorem ledgerLimit_pos (options : HubOptions) : 0 < ledgerLimit options := by
  have limit : 32 ≤ operationRecordLimit options := by
    simp only [operationRecordLimit]
    split <;> omega
  unfold ledgerLimit
  omega

theorem pruneOperationRecords_eq (room : Room) :
    room.pruneOperationRecords = { room with
      operationOrder := (pruneRecords (ledgerLimit room.options) room.operationOrder
        room.operations).1
      operations := (pruneRecords (ledgerLimit room.options) room.operationOrder
        room.operations).2 } := by
  rw [← operationRecordLimit_eq]
  rfl

/-! ## Document operations -/

/-- The event of an accepted document operation. -/
def acceptedDocument (operation : DocumentOperation) (document : Document) (changes : ChangeSet)
    (content : String) : AcceptedDocumentOperation where
  operationID := operation.operationID
  clientID := operation.clientID
  documentID := operation.documentID
  baseVersion := operation.baseVersion
  revision := document.snapshot.currentRevision + 1
  changes := changes
  document := content
  duplicate := false

/-- The change record of an accepted document operation. -/
def documentChange (accepted : AcceptedDocumentOperation) (now : Time) : ChangeRecord where
  streamKind := .document
  streamID := accepted.documentID
  revision := accepted.revision
  kind := "push_changes"
  payload := encodeDocumentChange accepted.changes
  createdAt := now

/-- The commit of an accepted operation on a room that it has changed. -/
def commitOf (changed : Room) (change : ChangeRecord) (fingerprint : String)
    (result : OperationResult) (backup : Room) : ChangeCommit where
  snapshot := changed.durableSnapshot.2
  change := change
  operation := operationRecord change fingerprint result backup
  compactThrough := changed.compactThrough result change.payload.size
  retainOperations := operationRecordLimit changed.options

/-- The room after a successful commit. -/
def committed (changed : Room) (change : ChangeRecord) (fingerprint : String)
    (result : OperationResult) (beforeLength : Int) : Room :=
  changed.durableSnapshot.1.recordCommitted changed.durableSnapshot.2 fingerprint result
    beforeLength change.payload.size (changed.compactThrough result change.payload.size)

/-- The room after an accepted document operation. -/
def accepted (room : Room) (operation : DocumentOperation) (fingerprint : String)
    (document : Document) (changes : ChangeSet) (content : String) (now : Time) : Room :=
  (room.editDocument operation.documentID document content
    (document.snapshot.currentRevision + 1) now).committed
      (documentChange (acceptedDocument operation document changes content) now) fingerprint
      (.document (acceptedDocument operation document changes content))
      (utf16Len document.snapshot.content)

/-- The three ways in which a document operation ends. -/
inductive DocumentOutcome [Host] (room : Room) (store : Store) (operation : DocumentOperation)
    (now : Time) (fault : Bool) : Outcome AcceptedDocumentOperation → Prop
  /-- Nothing has changed. -/
  | refused (error : LiveError) : DocumentOutcome room store operation now fault
      (⟨room, store⟩, .error error)
  /-- The ledger knows the operation. -/
  | repeated (accepted : AcceptedDocumentOperation)
      (record : room.operations.lookup operation.operationID =
        some ⟨Host.fingerprint (documentOperationJson operation), .document accepted⟩) :
      DocumentOutcome room store operation now fault
        (⟨room, store⟩, .ok { accepted with duplicate := true })
  /-- The operation is committed as a new revision. -/
  | accepted (document : Document) (changes : ChangeSet) (content : String) (store' : Store)
      (named : ensureOperationIDs operation.operationID operation.clientID = .ok ())
      (fresh : room.operations.lookup operation.operationID = none)
      (admitted : room.admitDocument operation = .ok (document, changes, content))
      (small : (encodeDocumentChange changes).size ≤ room.options.maxMessageBytes)
      (saved : Storage.Store.commitChange store
        ((room.editDocument operation.documentID document content
          (document.snapshot.currentRevision + 1) now).commitOf
            (documentChange (acceptedDocument operation document changes content) now)
            (Host.fingerprint (documentOperationJson operation))
            (.document (acceptedDocument operation document changes content)) room)
        now fault = .ok store') :
      DocumentOutcome room store operation now fault
        (⟨room.accepted operation (Host.fingerprint (documentOperationJson operation)) document
            changes content now, store'⟩,
          .ok (acceptedDocument operation document changes content))

theorem acceptDocument_outcome [Host] (room : Room) (store : Store)
    (operation : DocumentOperation) (now : Time) (fault : Bool) :
    DocumentOutcome room store operation now fault
      (room.acceptDocument store operation now fault) := by
  unfold acceptDocument
  split
  case h_1 => exact .refused _
  case h_2 named =>
    simp only
    split
    case h_1 record found =>
      split
      case h_1 accepted kind =>
        split
        · exact .refused _
        · refine .repeated accepted ?_
          rw [found]
          obtain ⟨fingerprint, result⟩ := record
          simp_all
      case h_2 => exact .refused _
    case h_2 fresh =>
      split
      case h_1 => exact .refused _
      case h_2 document changes content admitted =>
        unfold commitDocument
        simp only
        split
        · exact .refused _
        case isFalse small =>
          unfold appendAndSave
          simp only
          split
          case h_1 failed =>
            split at failed
            · cases failed
              exact .refused _
            · cases failed
          case h_2 succeeded =>
            split at succeeded
            case h_1 => cases succeeded
            case h_2 store' saved =>
              cases succeeded
              exact .accepted document changes content store' named fresh admitted (by omega) saved

/-- The facts behind an admitted document operation. -/
structure Admitted (room : Room) (operation : DocumentOperation) (document : Document)
    (changes : ChangeSet) (content : String) : Prop where
  valid : validateDocumentID operation.documentID = .ok ()
  found : room.documents.lookup operation.documentID = some document
  retained : document.compactedRevision ≤ operation.baseVersion
  current : operation.baseVersion ≤ document.snapshot.currentRevision
  baseLength : document.lengthAt operation.baseVersion = some operation.changes.oldLen
  sections : operation.changes.validateForLength operation.changes.oldLen = .ok ()
  rebased : rebase operation.baseVersion document.history operation.changes = .ok changes
  applied : changes.apply document.snapshot.content = .ok content
  fits : room.contentSizeWith operation.documentID content ≤ room.options.maxBytes

theorem require_bind_eq_ok {α : Type} {condition : Prop} [Decidable condition] {error : LiveError}
    {next : Unit → Except LiveError α} {value : α} :
    (require condition error >>= next) = .ok value ↔ condition ∧ next () = .ok value := by
  by_cases holds : condition <;> simp [require, holds, bind, Except.bind]

theorem admitted_of_admitDocument {room : Room} {operation : DocumentOperation}
    {document : Document} {changes : ChangeSet} {content : String}
    (admitted : room.admitDocument operation = .ok (document, changes, content)) :
    room.Admitted operation document changes content := by
  unfold admitDocument at admitted
  rw [require_bind_eq_ok] at admitted
  obtain ⟨valid, admitted⟩ := admitted
  split at admitted
  case h_1 => cases admitted
  case h_2 document' found =>
    simp only [require_bind_eq_ok] at admitted
    obtain ⟨retained, current, admitted⟩ := admitted
    split at admitted
    case h_1 => cases admitted
    case h_2 baseLength length =>
      simp only [require_bind_eq_ok] at admitted
      obtain ⟨_, _, rfl, admitted⟩ := admitted
      split at admitted
      case h_1 => cases admitted
      case h_2 sections =>
        split at admitted
        case h_1 => cases admitted
        case h_2 changes' rebased =>
          split at admitted
          case h_1 => cases admitted
          case h_2 content' applied =>
            rw [require_bind_eq_ok] at admitted
            obtain ⟨fits, equality⟩ := admitted
            cases equality
            exact ⟨valid, found, retained, current, length, sections, rebased, applied, fits⟩

/-- `submitDocument` first touches the roster and then behaves like `acceptDocument`. -/
theorem submitDocument_outcome [Host] (room : Room) (store : Store)
    (participantID connectionID : String) (generation : Nat) (operation : DocumentOperation)
    (now : Time) (fault : Bool) :
    ∃ room', room'.shared = room.shared ∧
      DocumentOutcome room' store operation now fault
        (room.submitDocument store participantID connectionID generation operation now fault) := by
  have connected := room.ensureConnection_shared participantID connectionID generation now
  unfold submitDocument
  split
  case h_1 room' error refused =>
    rw [refused] at connected
    exact ⟨room', connected, .refused error⟩
  case h_2 room' active =>
    rw [active] at connected
    have marked := room'.markConnectionActivity_shared participantID connectionID now
    simp only
    split
    · exact ⟨_, marked.trans connected, .refused _⟩
    · exact ⟨_, marked.trans connected, acceptDocument_outcome _ _ _ _ _⟩

/-! ## Metadata operations -/

/-- The four metadata operations that the hub carries out. -/
inductive MetadataChange (room : Room) (operation : MetadataOperation) (now : Time) :
    MetadataEffect → Prop
  | create (documentID : String) (kind : operation.kind = "document_create")
      (space : (room.order.length : Int) < room.options.maxTabs)
      (name : validateTabName operation.name = .ok ())
      (language : validateLanguageID operation.language = .ok ())
      (content : validateDocumentContent operation.content room.options.maxMessageBytes = .ok ())
      (fits : room.contentSizeWith "" operation.content ≤ room.options.maxBytes)
      (valid : validateDocumentID documentID = .ok ()) (fresh : documentID ∉ room.documents) :
      MetadataChange room operation now {
        room := { room with
          documents := room.documents.insert documentID {
            snapshot := {
              id := documentID, name := operation.name, language := operation.language
              content := operation.content, position := room.order.length, currentRevision := 0
              snapshotRevision := 0, updatedAt := now }
            history := [], historyBytes := 0, compactedRevision := 0 }
          order := room.order ++ [documentID] }
        documentID, name := operation.name, language := operation.language
        content := operation.content, order := [] }
  | update (document : Document) (kind : operation.kind = "document_update")
      (found : room.documents.lookup operation.documentID = some document)
      (name : validateTabName operation.name = .ok ())
      (language : validateLanguageID operation.language = .ok ()) :
      MetadataChange room operation now {
        room := { room with
          documents := room.documents.insert operation.documentID { document with
            snapshot := { document.snapshot with
              name := operation.name, language := operation.language, updatedAt := now } } }
        documentID := operation.documentID, name := operation.name
        language := operation.language, content := "", order := [] }
  | delete (kind : operation.kind = "document_delete") (several : room.order.length ≠ 1)
      (found : operation.documentID ∈ room.documents) :
      MetadataChange room operation now {
        room := ({ room with
          documents := room.documents.erase operation.documentID
          order := room.order.erase operation.documentID } : Room).leaveDocumentAll
            operation.documentID ((room.order.erase operation.documentID).headD "")
        documentID := operation.documentID, name := "", language := "", content := "", order := [] }
  | reorder (kind : operation.kind = "document_reorder")
      (valid : validateDocumentOrder operation.order room.options.maxTabs = .ok ())
      (complete : operation.order.length = room.order.length)
      (known : ∀ id ∈ operation.order, id ∈ room.documents) :
      MetadataChange room operation now {
        room := { room with order := operation.order }
        documentID := "", name := "", language := "", content := "", order := operation.order }

theorem newDocumentID_fresh {room : Room} {generator : Nat → Option String}
    {attempts index : Nat} {documentID : String}
    (generated : room.newDocumentID generator attempts index = .ok documentID) :
    validateDocumentID documentID = .ok () ∧ documentID ∉ room.documents := by
  induction attempts generalizing index with
  | zero => cases generated
  | succ attempts induction =>
      rw [newDocumentID] at generated
      split at generated
      case h_1 => cases generated
      case h_2 id _ =>
        split at generated
        case isTrue unused =>
          cases generated
          exact unused
        case isFalse => exact induction generated

theorem bind_eq_ok {α β : Type} {first : Except LiveError α} {next : α → Except LiveError β}
    {value : β} : (first >>= next) = .ok value ↔ ∃ middle, first = .ok middle ∧
      next middle = .ok value := by
  cases first <;> simp [bind, Except.bind]

theorem metadataChange_of_metadataEffect {room : Room} {operation : MetadataOperation}
    {generator : Nat → Option String} {now : Time} {effect : MetadataEffect}
    (performed : room.metadataEffect operation generator now = .ok effect) :
    room.MetadataChange operation now effect := by
  unfold metadataEffect at performed
  split at performed
  case h_1 kind =>
    simp only [bind_eq_ok] at performed
    obtain ⟨⟨⟩, space, ⟨⟩, name, ⟨⟩, language, ⟨⟩, content, ⟨⟩, fits, documentID, generated,
      equality⟩ := performed
    obtain ⟨valid, fresh⟩ := newDocumentID_fresh generated
    cases equality
    exact .create documentID kind (require_eq_ok.mp space) name language
      (require_eq_ok.mp content) (require_eq_ok.mp fits) valid fresh
  case h_2 kind =>
    split at performed
    case h_1 => cases performed
    case h_2 document found =>
      simp only [bind_eq_ok] at performed
      obtain ⟨_, name, _, language, equality⟩ := performed
      cases equality
      exact .update document kind found name language
  case h_3 kind =>
    simp only [require_bind_eq_ok] at performed
    obtain ⟨several, found, equality⟩ := performed
    cases equality
    exact .delete kind several found
  case h_4 kind =>
    simp only [require_bind_eq_ok] at performed
    obtain ⟨⟨valid, complete⟩, known, equality⟩ := performed
    cases equality
    exact .reorder kind valid complete fun id member => (known id member).1
  case h_5 => cases performed

/-- The room that a metadata operation has changed, before it is committed. -/
def metadataChanged (room : Room) (effect : MetadataEffect) : Room :=
  Room.syncSnapshot { effect.room with
    snapshot := { effect.room.snapshot with
      metadataRevision := room.snapshot.metadataRevision + 1 } }

theorem MetadataChange.restore_shared {room : Room} {operation : MetadataOperation} {now : Time}
    {effect : MetadataEffect} (change : room.MetadataChange operation now effect) :
    ((room.metadataChanged effect).restore room).shared = room.shared := by
  cases change <;> rfl

theorem MetadataChange.restore_durable_shared {room : Room} {operation : MetadataOperation}
    {now : Time} {effect : MetadataEffect} (change : room.MetadataChange operation now effect) :
    ((room.metadataChanged effect).durableSnapshot.1.restore room).shared = room.shared := by
  cases change <;> rfl

/-- The persisted form of a metadata operation. -/
def persistedMetadata (operation : MetadataOperation) (effect : MetadataEffect) :
    PersistedMetadataChange where
  kind := operation.kind
  documentID := effect.documentID
  name := effect.name
  language := effect.language
  content := effect.content
  order := effect.order

/-- The event of an accepted metadata operation, as the histories keep it. -/
def acceptedMetadata (room : Room) (operation : MetadataOperation) (effect : MetadataEffect) :
    AcceptedMetadataOperation where
  operationID := operation.operationID
  clientID := operation.clientID
  kind := operation.kind
  documentID := effect.documentID
  revision := room.snapshot.metadataRevision + 1
  name := effect.name
  language := effect.language
  content := effect.content
  order := effect.order
  state := (room.metadataChanged effect).state
  duplicate := false

/-- The change record of an accepted metadata operation. -/
def metadataChange (room : Room) (operation : MetadataOperation) (effect : MetadataEffect)
    (now : Time) : ChangeRecord where
  streamKind := .metadata
  streamID := metadataStreamID
  revision := room.snapshot.metadataRevision + 1
  kind := operation.kind
  payload := (persistedMetadata operation effect).payload
  createdAt := now

/-- The three ways in which a metadata operation ends. -/
inductive MetadataOutcome [Host] (room : Room) (store : Store) (operation : MetadataOperation)
    (now : Time) (fault : Bool) : Outcome AcceptedMetadataOperation → Prop
  /-- Only the roster may have changed. -/
  | refused (room' : Room) (shared : room'.shared = room.shared) (error : LiveError) :
      MetadataOutcome room store operation now fault (⟨room', store⟩, .error error)
  /-- The ledger knows the operation. -/
  | repeated (accepted : AcceptedMetadataOperation)
      (record : room.operations.lookup operation.operationID =
        some ⟨Host.fingerprint (metadataOperationJson operation), .metadata accepted⟩) :
      MetadataOutcome room store operation now fault
        (⟨room, store⟩, .ok { accepted with duplicate := true })
  /-- The operation is committed as a new revision. -/
  | accepted (effect : MetadataEffect) (store' : Store) (authority : Authority)
      (named : ensureOperationIDs operation.operationID operation.clientID = .ok ())
      (fresh : room.operations.lookup operation.operationID = none)
      (admitted : room.admitMetadata operation = .ok ())
      (change : room.MetadataChange operation now effect)
      (small : (persistedMetadata operation effect).payload.size ≤ room.options.maxMessageBytes)
      (saved : Storage.Store.commitChange store
        ((room.metadataChanged effect).commitOf (room.metadataChange operation effect now)
          (Host.fingerprint (metadataOperationJson operation))
          (.metadata (room.acceptedMetadata operation effect)) room) now fault = .ok store')
      (result : authority = ⟨(room.metadataChanged effect).committed
        (room.metadataChange operation effect now)
        (Host.fingerprint (metadataOperationJson operation))
        (.metadata (room.acceptedMetadata operation effect)) 0, store'⟩) :
      MetadataOutcome room store operation now fault
        (authority, .ok { room.acceptedMetadata operation effect with
          state := authority.room.state })

theorem acceptMetadata_outcome [Host] (room : Room) (store : Store)
    (operation : MetadataOperation) (generator : Nat → Option String) (now : Time)
    (fault : Bool) :
    MetadataOutcome room store operation now fault
      (room.acceptMetadata store operation generator now fault) := by
  unfold acceptMetadata
  split
  case h_1 => exact .refused room rfl _
  case h_2 named =>
    simp only
    split
    case h_1 record found =>
      split
      case h_1 accepted kind =>
        split
        · exact .refused room rfl _
        · refine .repeated accepted ?_
          rw [found]
          obtain ⟨fingerprint, result⟩ := record
          simp_all
      case h_2 => exact .refused room rfl _
    case h_2 fresh =>
      split
      case h_1 => exact .refused room rfl _
      case h_2 admitted =>
        split
        case h_1 => exact .refused room rfl _
        case h_2 effect performed =>
          have change := metadataChange_of_metadataEffect performed
          unfold commitMetadata
          simp only
          split
          · exact .refused _ change.restore_shared _
          case isFalse small =>
            unfold appendAndSave
            simp only
            split
            case h_1 failed =>
              split at failed
              · cases failed
                exact .refused _ change.restore_durable_shared _
              · cases failed
            case h_2 succeeded =>
              split at succeeded
              case h_1 => cases succeeded
              case h_2 store' saved =>
                cases succeeded
                exact .accepted effect store' _ named fresh admitted change (by
                  unfold persistedMetadata; omega) saved rfl

/-- `applyMetadata` first touches the roster and then behaves like `acceptMetadata`. -/
theorem applyMetadata_outcome [Host] (room : Room) (store : Store)
    (participantID connectionID : String) (generation : Nat) (operation : MetadataOperation)
    (generator : Nat → Option String) (now : Time) (fault : Bool) :
    ∃ room', room'.shared = room.shared ∧
      MetadataOutcome room' store operation now fault
        (room.applyMetadata store participantID connectionID generation operation generator now
          fault) := by
  have connected := room.ensureConnection_shared participantID connectionID generation now
  unfold applyMetadata
  split
  case h_1 room' error refused =>
    rw [refused] at connected
    exact ⟨room', connected, .refused room' rfl error⟩
  case h_2 room' active =>
    rw [active] at connected
    have marked := room'.markConnectionActivity_shared participantID connectionID now
    simp only
    split
    · exact ⟨_, marked.trans connected, .refused _ rfl _⟩
    · exact ⟨_, marked.trans connected, acceptMetadata_outcome _ _ _ _ _ _⟩

/-! ## Modes -/

/-- The room with its lock set. -/
def locked (room : Room) (enabled : Bool) : Room :=
  { room with
    watchOnly := enabled
    snapshot := { room.snapshot with locked := enabled }
    participants := Keyed.mapValues (fun participant => participant.refresh enabled)
      room.participants }

/-- The room with another layout. -/
def laidOut (room : Room) (preset : String) : Room :=
  { room with snapshot := { room.snapshot with layoutPreset := preset } }

/-- The three ways in which a change of a mode ends. -/
inductive ModeOutcome (room : Room) (store : Store) (change : Room → Room)
    (save : Except LiveError Store) : Outcome RoomState → Prop
  /-- Only the roster may have changed. -/
  | refused (room' : Room) (shared : room'.shared = room.shared) (error : LiveError) :
      ModeOutcome room store change save (⟨room', store⟩, .error error)
  /-- The room is in the mode already. -/
  | unchanged (room' : Room) (shared : room'.shared = room.shared) :
      ModeOutcome room store change save (⟨room', store⟩, .ok room'.state)
  /-- The mode is set in the store and in the room. -/
  | changed (room' : Room) (shared : room'.shared = room.shared) (store' : Store)
      (saved : save = .ok store') :
      ModeOutcome room store change save (⟨change room', store'⟩, .ok (change room').state)

theorem snapshot_of_shared {room room' : Room} (shared : room.shared = room'.shared) :
    room.snapshot = room'.snapshot := by
  have equality := congrArg Room.snapshot shared
  exact equality

theorem setWatchOnly_outcome (room : Room) (store : Store) (participantID connectionID : String)
    (generation : Nat) (creator enabled : Bool) (now : Time) (fault : Bool) :
    ModeOutcome room store (fun room => room.locked enabled)
      (Storage.Store.setRoomLocked store room.snapshot.slug enabled now fault)
      (room.setWatchOnly store participantID connectionID generation creator enabled
        now fault) := by
  have connected := room.ensureConnection_shared participantID connectionID generation now
  unfold setWatchOnly
  split
  case h_1 room' error refused =>
    rw [refused] at connected
    exact .refused room' connected error
  case h_2 room' active =>
    rw [active] at connected
    have marked := room'.markConnectionActivity_shared participantID connectionID now
    have current := marked.trans connected
    simp only
    split
    · exact .refused _ current _
    · split
      · exact .unchanged _ current
      · split
        case h_1 => exact .refused _ current _
        case h_2 store' saved =>
          rw [snapshot_of_shared current] at saved
          exact .changed _ current store' saved

theorem setLayoutPreset_outcome (room : Room) (store : Store)
    (participantID connectionID : String) (generation : Nat) (creator : Bool) (preset : String)
    (now : Time) (fault : Bool) :
    ModeOutcome room store (fun room => room.laidOut preset)
      (Storage.Store.setRoomLayoutPreset store room.snapshot.slug preset now fault)
      (room.setLayoutPreset store participantID connectionID generation creator preset now
        fault) := by
  have connected := room.ensureConnection_shared participantID connectionID generation now
  unfold setLayoutPreset
  split
  case h_1 room' error refused =>
    rw [refused] at connected
    exact .refused room' connected error
  case h_2 room' active =>
    rw [active] at connected
    have marked := room'.markConnectionActivity_shared participantID connectionID now
    have current := marked.trans connected
    split
    · exact .refused _ connected _
    · split
      · exact .refused _ connected _
      · simp only
        split
        · exact .unchanged _ current
        · split
          case h_1 => exact .refused _ current _
          case h_2 store' saved =>
            rw [snapshot_of_shared current] at saved
            exact .changed _ current store' saved

end Room

end Oxbin.Live
