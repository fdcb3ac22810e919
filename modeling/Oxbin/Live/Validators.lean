import Oxbin.Live.Acceptance
import Oxbin.Live.Restart

/-!
# Two layers of validation

The hub checks an operation before it builds a commit, and the store checks the commit again.  The
two agree but for three things: the store wants IDs without space around them, a room that was not
created at the zero time, and a stream without a change at the next revision.
-/

namespace Oxbin.Live

open Livecollab Storage Storage.Tables

namespace Room

/-! ## The snapshot of a commit -/

section Durable

variable {changed : Room}

theorem ids_orderedFrom {documents : Keyed Document} {order : List String} {start : Nat}
    (present : ∀ id ∈ order, ∃ document, documents.lookup id = some document ∧
      document.snapshot.id = id) :
    (orderedFrom documents order start).map DocumentSnapshot.id = order := by
  induction order generalizing start with
  | nil => rfl
  | cons id order induction =>
      obtain ⟨document, lookup, keyed⟩ := present id (by simp)
      rw [orderedFrom_cons, lookup, Option.map_some, Option.toList_some, List.singleton_append,
        List.map_cons, induction fun other member => present other (by simp [member])]
      exact congrArg (· :: order) keyed

/-- The documents of the durable snapshot are those of the room in their order. -/
theorem Formed.ids_durable (formed : changed.Formed) :
    changed.durableSnapshot.2.documents.map DocumentSnapshot.id = changed.order := by
  rw [documents_durable, List.map_map]
  refine (ids_orderedFrom fun id listed => ?_)
  obtain ⟨document, lookup⟩ := mem_documents_iff.mp ((formed.present id).mpr listed)
  exact ⟨document, lookup, (formed.documents id document lookup).keyed⟩

/-- A document of the durable snapshot. -/
theorem Formed.mem_durable (formed : changed.Formed) {document : DocumentSnapshot}
    (member : document ∈ changed.durableSnapshot.2.documents) :
    document.id ∈ changed.order ∧ ∃ source, changed.documents.lookup document.id = some source ∧
      document = (saved changed.order document.id source).snapshot := by
  have ids := formed.ids_durable
  have listed : document.id ∈ changed.order := ids ▸ List.mem_map_of_mem member
  have found := documentOf_of_mem (ids ▸ formed.order) member
  rw [documentOf_durable formed, Option.map_eq_some_iff] at found
  obtain ⟨source, lookup, equality⟩ := found
  exact ⟨listed, source, lookup, equality.symm⟩

theorem saved_revisions (order : List String) (id : String) (document : Document) :
    (saved order id document).snapshot.currentRevision = document.snapshot.currentRevision ∧
      (saved order id document).snapshot.snapshotRevision = document.snapshot.currentRevision := by
  unfold saved positioned
  split <;> exact ⟨rfl, rfl⟩

theorem saved_position {order : List String} {id : String} (listed : id ∈ order)
    (document : Document) :
    (saved order id document).snapshot.position = order.idxOf id := by
  unfold saved positioned
  rw [if_pos listed]
  rfl

/-- The durable snapshot passes `prepareRoomSnapshot` in all but the time of creation. -/
theorem Formed.preparable (formed : changed.Formed)
    (preset : validLayoutPreset changed.snapshot.layoutPreset = true)
    (creator : changed.snapshot.creatorTokenHash = [] ∨
      changed.snapshot.creatorTokenHash.length = 32)
    (metadataRevision : 0 ≤ changed.snapshot.metadataRevision)
    (numbered : ∀ id document, changed.documents.lookup id = some document → document.Numbered)
    (expires : changed.snapshot.expiresAt ≠ zeroTime ∧
      changed.snapshot.expiresAt > changed.snapshot.createdAt) :
    Preparable changed.durableSnapshot.2 where
  preset := preset
  slug := formed.slug
  metadata := ⟨metadataRevision, le_rfl⟩
  creator := creator
  expires := expires
  nonempty none := by
    have ids := formed.ids_durable
    rw [none] at ids
    exact formed.nonempty ids.symm
  valid document member := by
    obtain ⟨_, source, lookup, equality⟩ := formed.mem_durable member
    obtain ⟨sameID, sameName, sameLanguage, _⟩ :=
      saved_snapshot changed.order document.id source
    rw [← equality] at sameID sameName sameLanguage
    obtain ⟨_, valid, _⟩ := formed.documents document.id source lookup
    exact ⟨sameID ▸ valid.id, sameName ▸ valid.name, sameLanguage ▸ valid.language⟩
  distinct := formed.ids_durable ▸ formed.order
  places document member := by
    obtain ⟨listed, source, _, equality⟩ := formed.mem_durable member
    have position := saved_position listed source
    rw [← equality] at position
    rw [formed.ids_durable]
    exact position
  revisions document member := by
    obtain ⟨_, source, lookup, equality⟩ := formed.mem_durable member
    obtain ⟨current, settled⟩ := saved_revisions changed.order document.id source
    rw [← equality] at current settled
    have counted := (numbered _ source lookup).current
    rw [settled, current]
    exact ⟨counted, le_rfl⟩
  fits := by
    rw [bytes_durable formed]
    have small := changed.options.maxBytes_small
    have size := formed.size
    unfold intLimit at small
    unfold maxInt64
    omega

end Durable

/-! ## Commits of accepted operations -/

/-- The commit that `appendAndSave` builds for an operation that the hub's own checks accept. -/
inductive Submission [Host] (room : Room) (now : Time) : ChangeCommit → Prop
  | document (operation : DocumentOperation) (document : Document) (changes : ChangeSet)
      (content : String)
      (named : ensureOperationIDs operation.operationID operation.clientID = .ok ())
      (fresh : room.operations.lookup operation.operationID = none)
      (admitted : room.admitDocument operation = .ok (document, changes, content))
      (small : (encodeDocumentChange changes).size ≤ room.options.maxMessageBytes) :
      Submission room now
        ((room.editDocument operation.documentID document content
          (document.snapshot.currentRevision + 1) now).commitOf
            (documentChange (acceptedDocument operation document changes content) now)
            (Host.fingerprint (documentOperationJson operation))
            (.document (acceptedDocument operation document changes content)) room)
  | metadata (operation : MetadataOperation) (generator : Nat → Option String)
      (effect : MetadataEffect)
      (named : ensureOperationIDs operation.operationID operation.clientID = .ok ())
      (fresh : room.operations.lookup operation.operationID = none)
      (admitted : room.admitMetadata operation = .ok ())
      (performed : room.metadataEffect operation generator now = .ok effect)
      (small : (persistedMetadata operation effect).payload.size ≤ room.options.maxMessageBytes) :
      Submission room now
        ((room.metadataChanged effect).commitOf (room.metadataChange operation effect now)
          (Host.fingerprint (metadataOperationJson operation))
          (.metadata (room.acceptedMetadata operation effect)) room)

/-- The validators of the store accept the commit, which is refused at most for a fault of the
database or for the expiry of the room. -/
structure Passes (store : Store) (commit : ChangeCommit) : Prop where
  snapshot : ∃ prepared, prepareRoomSnapshot commit.snapshot = .ok prepared
  records : ∀ now, ∃ change operation, prepareChange commit.change now = .ok change ∧
    prepareOperation commit.operation change now = .ok operation
  refused : ∀ now fault error, Storage.Store.commitChange store commit now fault = .error error →
    fault = true ∨ ∀ tables, store.lookup commit.snapshot.slug = some tables →
      tables.room.expiresAt ≤ unix now

/-- What the hub does not check. -/
structure Storable (store : Store) (commit : ChangeCommit) : Prop where
  operationID : Trimmed commit.operation.operationID
  clientID : Trimmed commit.operation.clientID
  created : commit.snapshot.createdAt ≠ zeroTime
  vacant : commit.change.streamKind = .document →
    ∀ tables, store.lookup commit.snapshot.slug = some tables → Unrecorded tables commit.change

/-- The facts behind the commit of an accepted operation. -/
structure Handed (tables : Tables) (commit : ChangeCommit) : Prop where
  preparable : Preparable commit.snapshot
  stream : validateStream commit.change.streamKind commit.change.streamID = .ok ()
  revision : 0 < commit.change.revision
  kind : validateRoomOperation commit.change.kind = .ok ()
  payload : commit.change.payload.text ≠ []
  limits : 0 ≤ commit.compactThrough ∧ commit.compactThrough ≤ commit.change.revision ∧
    1 ≤ commit.retainOperations
  named : ensureOperationIDs commit.operation.operationID commit.operation.clientID = .ok ()
  digest : byteLen commit.operation.fingerprint = 64 ∧ isHex commit.operation.fingerprint = true
  base : 0 ≤ commit.operation.baseRevision
  same : commit.operation.revision = commit.change.revision ∧
    commit.operation.streamKind = commit.change.streamKind ∧
    commit.operation.streamID = commit.change.streamID ∧
    commit.operation.operationKind = commit.change.kind ∧
    commit.operation.resultPayload.text = commit.change.payload.text
  expiresAt : tables.room.expiresAt = unix commit.snapshot.expiresAt
  fresh : ∀ row ∈ tables.operations, row.operationID ≠ commit.operation.operationID
  committable : ∀ prepared, prepareRoomSnapshot commit.snapshot = .ok prepared →
    Committable tables prepared commit.change
  metadata : commit.change.streamKind = .metadata → Unrecorded tables commit.change

section Handed

variable {store : Store} {tables : Tables} {commit : ChangeCommit}

/-- While the room is active, the commit succeeds if and only if its stream has no change at its
revision. -/
theorem Handed.commitChange_iff (handed : Handed tables commit)
    (found : store.lookup commit.snapshot.slug = some tables)
    (operationID : Trimmed commit.operation.operationID)
    (clientID : Trimmed commit.operation.clientID) (created : commit.snapshot.createdAt ≠ zeroTime)
    {now : Time} (alive : unix now < tables.room.expiresAt) :
    (∃ store', Storage.Store.commitChange store commit now false = .ok store') ↔
      Unrecorded tables commit.change := by
  obtain ⟨prepared, prepares⟩ := handed.preparable.prepares created
  have named := handed.named
  rw [ensureOperationIDs, require_eq_ok] at named
  obtain ⟨createdAt, change⟩ := prepareChange_total now handed.stream handed.revision handed.kind
    handed.payload
  obtain ⟨createdAt', operation⟩ := @prepareOperation_total commit.operation
    { commit.change with createdAt } now ⟨named.1, operationID, named.2.1⟩
    ⟨named.2.2.1, clientID, named.2.2.2⟩ handed.digest handed.base handed.same
  obtain ⟨_, equality⟩ := (prepared_of_prepareRoomSnapshot prepares).equality
  have slug : prepared.slug = commit.snapshot.slug := by rw [equality]
  have expiresAt : prepared.expiresAt = commit.snapshot.expiresAt := by rw [equality]
  have committable := handed.committable prepared prepares
  have decided := Storage.commitChange_iff prepares change handed.limits operation
    (active_eq_ok.mpr ⟨slug ▸ found, alive⟩) (expiresAt ▸ handed.expiresAt) handed.fresh
    ⟨committable.document, committable.metadata⟩
  exact decided

theorem Handed.passes (handed : Handed tables commit)
    (found : store.lookup commit.snapshot.slug = some tables)
    (storable : Storable store commit) : Passes store commit where
  snapshot := handed.preparable.prepares storable.created
  records now := by
    have named := handed.named
    rw [ensureOperationIDs, require_eq_ok] at named
    obtain ⟨createdAt, change⟩ := prepareChange_total now handed.stream handed.revision handed.kind
      handed.payload
    obtain ⟨createdAt', operation⟩ := @prepareOperation_total commit.operation
      { commit.change with createdAt } now ⟨named.1, storable.operationID, named.2.1⟩
      ⟨named.2.2.1, storable.clientID, named.2.2.2⟩ handed.digest handed.base handed.same
    exact ⟨_, _, change, operation⟩
  refused now fault error refuses := by
    cases fault with
    | true => exact .inl rfl
    | false =>
        refine .inr fun tables' found' => ?_
        cases found.symm.trans found'
        by_contra alive
        have vacant : Unrecorded tables commit.change := by
          cases kind : commit.change.streamKind with
          | document => exact storable.vacant kind tables found
          | metadata => exact handed.metadata kind
        obtain ⟨store', succeeds⟩ := (handed.commitChange_iff found storable.operationID
          storable.clientID storable.created (not_le.mp alive)).mpr vacant
        cases refuses.symm.trans succeeds

/-- The validators of the store refuse IDs with space around them. -/
theorem Passes.trimmed (passes : Passes store commit) :
    Trimmed commit.operation.operationID ∧ Trimmed commit.operation.clientID := by
  obtain ⟨change, operation, _, recorded⟩ := passes.records 0
  unfold prepareOperation at recorded
  simp only [bind_eq_ok, require_eq_ok, exists_const] at recorded
  obtain ⟨⟨_, operationID, _⟩, ⟨_, clientID, _⟩, _⟩ := recorded
  exact ⟨operationID, clientID⟩

theorem Handed.storable (handed : Handed tables commit)
    (found : store.lookup commit.snapshot.slug = some tables) (passes : Passes store commit) :
    Storable store commit := by
  obtain ⟨prepared, prepares⟩ := passes.snapshot
  have created := (prepared_of_prepareRoomSnapshot prepares).expires.1
  obtain ⟨operationID, clientID⟩ := passes.trimmed
  refine ⟨operationID, clientID, created, fun _ tables' found' => ?_⟩
  cases found.symm.trans found'
  have alive : unix (unixTime (tables.room.expiresAt - 1)) < tables.room.expiresAt := by
    rw [unix_unixTime]
    omega
  refine (handed.commitChange_iff found operationID clientID created alive).mp ?_
  cases committed : Storage.Store.commitChange store commit
      (unixTime (tables.room.expiresAt - 1)) false with
  | ok store' => exact ⟨store', rfl⟩
  | error error =>
      rcases passes.refused _ _ _ committed with impossible | expired
      · cases impossible
      · exact absurd (expired tables found) (not_le.mpr alive)

end Handed

/-! ## The facts of a submission -/

section Submitted

variable {room : Room} {store : Store} {tables : Tables}

theorem payload_text (members : List (String × Json)) : (Json.obj members).text ≠ [] := by
  simp [Json.text]

theorem compactThrough_cases (changed : Room) (result : OperationResult)
    (payloadBytes revision : Int) (positive : 0 < revision)
    (own : (∃ accepted, result = .document accepted ∧ accepted.revision = revision) ∨
      ∃ accepted, result = .metadata accepted ∧ accepted.revision = revision) :
    0 ≤ changed.compactThrough result payloadBytes ∧
      changed.compactThrough result payloadBytes ≤ revision := by
  rcases own with ⟨accepted, rfl, rfl⟩ | ⟨accepted, rfl, rfl⟩
  · unfold compactThrough
    simp only
    split
    · omega
    · split <;> omega
  · unfold compactThrough
    simp only
    split <;> omega

theorem operationRecordLimit_pos (options : HubOptions) : 1 ≤ operationRecordLimit options := by
  have positive := ledgerLimit_pos options
  rw [operationRecordLimit_eq]
  omega

/-- The row of a document has its revision. -/
theorem Stored.row_revision (stored : room.Stored tables) (formed : room.Formed) {id : String}
    {document : Document} (known : room.documents.lookup id = some document) :
    ∃ row, rowOf tables.documents id = some row ∧
      row.currentRevision = document.snapshot.currentRevision := by
  have listed := (formed.present id).mp (mem_documents_iff.mpr ⟨document, known⟩)
  have rows := stored.rows id
  rw [known, Option.map_some, rowFor_eq listed, Option.map_eq_some_iff] at rows
  obtain ⟨row, found, equality⟩ := rows
  exact ⟨row, found, congrArg DocumentRow.currentRevision equality⟩

/-- The rows of the ledger do not hold an operation that the room does not know. -/
theorem Stored.unknown (stored : room.Stored tables) (formed : room.Formed) {operationID : String}
    (fresh : room.operations.lookup operationID = none) :
    ∀ row ∈ tables.operations, row.operationID ≠ operationID := by
  rintro row member rfl
  have listed : row.operationID ∈ room.operationOrder :=
    stored.ledgerOrder ▸ List.mem_map_of_mem member
  rw [← formed.recorded, ← AList.lookup_isSome, fresh] at listed
  cases listed

/-- The lifetime of the room in memory is that of its row. -/
theorem Registered.lifetime (registered : room.Registered store) (stored : room.Stored tables)
    (found : store.lookup room.snapshot.slug = some tables) :
    room.snapshot.expiresAt ≠ zeroTime ∧ room.snapshot.expiresAt > room.snapshot.createdAt := by
  obtain ⟨_, created, expires, _⟩ := registered.rows tables found
  obtain ⟨before, present⟩ := stored.lifetime
  refine ⟨expires ▸ present, ?_⟩
  rw [← created, ← expires]
  exact Int.mul_lt_mul_of_pos_right before (by decide)

/-- A document operation has the facts of a commit. -/
theorem Submission.handed_document [Host] {operation : DocumentOperation} {document : Document}
    {changes : ChangeSet} {content : String} {now : Time}
    (digest : ∀ json, byteLen (Host.fingerprint json) = 64 ∧
      isHex (Host.fingerprint json) = true)
    (formed : room.Formed) (stored : room.Stored tables) (registered : room.Registered store)
    (found : store.lookup room.snapshot.slug = some tables)
    (named : ensureOperationIDs operation.operationID operation.clientID = .ok ())
    (fresh : room.operations.lookup operation.operationID = none)
    (admitted : room.Admitted operation document changes content) :
    Handed tables ((room.editDocument operation.documentID document content
      (document.snapshot.currentRevision + 1) now).commitOf
        (documentChange (acceptedDocument operation document changes content) now)
        (Host.fingerprint (documentOperationJson operation))
        (.document (acceptedDocument operation document changes content)) room) := by
  have edited := admitted.edited_formed formed (document.snapshot.currentRevision + 1) now
  have numbered := registered.documents _ document admitted.found
  have next : 0 < document.snapshot.currentRevision + 1 := by
    have counted := numbered.current
    omega
  have base : 0 ≤ operation.baseVersion := by
    rcases Document.reaches_of_lengthAt admitted.baseLength with current | ⟨entry, member, below⟩
    · exact current ▸ numbered.current
    · exact (numbered.history entry member).trans below
  obtain ⟨compacts, through⟩ := compactThrough_cases
    (room.editDocument operation.documentID document content
      (document.snapshot.currentRevision + 1) now)
    (.document (acceptedDocument operation document changes content))
    (encodeDocumentChange changes).size _ next (.inl ⟨_, rfl, rfl⟩)
  constructor
  case preparable =>
    refine edited.preparable registered.preset registered.creator registered.metadataRevision
      (fun id other lookup => ?_) (registered.lifetime stored found)
    rw [editDocument_lookup, Option.map_eq_some_iff] at lookup
    obtain ⟨before, present, rfl⟩ := lookup
    refine Document.Numbered.sameText ?_ (Document.positioned_sameText _ _ _)
    split at present
    case isTrue =>
      cases present
      exact ⟨next.le, numbered.history⟩
    case isFalse => exact registered.documents id before present
  case stream => exact require_eq_ok.mpr admitted.valid
  case revision => exact next
  case kind => exact require_eq_ok.mpr (by decide : "push_changes" ∈ operationKinds)
  case payload => exact payload_text _
  case limits =>
    exact ⟨compacts, through, operationRecordLimit_pos _⟩
  case named => exact named
  case digest => exact digest _
  case base => exact base
  case same => exact ⟨rfl, rfl, rfl, rfl, rfl⟩
  case expiresAt => exact stored.expiresAt
  case fresh => exact stored.unknown formed fresh
  case committable =>
    intro prepared prepares
    refine ⟨fun _ => ?_, fun impossible => by cases impossible⟩
    have preparation := prepared_of_prepareRoomSnapshot prepares
    have listed := preparation.documentOf_eq operation.documentID
    have durable := documentOf_durable edited operation.documentID
    rw [editDocument_lookup, if_pos rfl, Option.map_some, Option.map_some] at durable
    rw [commitOf, durable, Option.map_some] at listed
    obtain ⟨row, present, revision⟩ := stored.row_revision formed admitted.found
    obtain ⟨current, settled⟩ := saved_revisions room.order operation.documentID
      (positioned room.order operation.documentID { document with
        snapshot := { document.snapshot with
          content, currentRevision := document.snapshot.currentRevision + 1, updatedAt := now } })
    have same := Document.positioned_sameText room.order operation.documentID { document with
      snapshot := { document.snapshot with
        content, currentRevision := document.snapshot.currentRevision + 1, updatedAt := now } }
    obtain ⟨_, equality⟩ := preparation.equality
    refine ⟨_, row, listed, current.trans same.currentRevision,
      settled.trans same.currentRevision, ?_, ?_, ?_⟩
    · rw [equality]
      exact stored.metadataRevision
    · rw [id_of_documentOf listed]
      exact present
    · rw [revision]
      rfl
  case metadata => exact fun impossible => by cases impossible

/-- A metadata operation has the facts of a commit. -/
theorem Submission.handed_metadata [Host] {operation : MetadataOperation} {effect : MetadataEffect}
    {now : Time}
    (digest : ∀ json, byteLen (Host.fingerprint json) = 64 ∧
      isHex (Host.fingerprint json) = true)
    (formed : room.Formed) (stored : room.Stored tables) (registered : room.Registered store)
    (found : store.lookup room.snapshot.slug = some tables)
    (named : ensureOperationIDs operation.operationID operation.clientID = .ok ())
    (fresh : room.operations.lookup operation.operationID = none)
    (admitted : room.admitMetadata operation = .ok ())
    (change : room.MetadataChange operation now effect) :
    Handed tables ((room.metadataChanged effect).commitOf
      (room.metadataChange operation effect now)
      (Host.fingerprint (metadataOperationJson operation))
      (.metadata (room.acceptedMetadata operation effect)) room) := by
  have changed := change.changed_formed formed
  have settings := change.snapshot_changed
  have counted := registered.metadataRevision
  have next : 0 < room.snapshot.metadataRevision + 1 := by omega
  have revision : (room.metadataChanged effect).snapshot.metadataRevision =
    room.snapshot.metadataRevision + 1 := rfl
  have expiresAt : (room.metadataChanged effect).snapshot.expiresAt = room.snapshot.expiresAt := by
    rw [settings]
  obtain ⟨compacts, through⟩ := compactThrough_cases (room.metadataChanged effect)
    (.metadata (room.acceptedMetadata operation effect))
    (persistedMetadata operation effect).payload.size _ next (.inr ⟨_, rfl, rfl⟩)
  unfold admitMetadata at admitted
  simp only [bind_eq_ok, require_eq_ok, exists_const] at admitted
  obtain ⟨_, _, kind, _⟩ := admitted
  constructor
  case preparable =>
    refine changed.preparable ?_ ?_ (revision ▸ next.le) (fun id document lookup => ?_) ?_
    · rw [settings]
      exact registered.preset
    · rw [settings]
      exact registered.creator
    · rw [metadataChanged, syncSnapshot, positionAll, Keyed.lookup_mapKeyed,
        Option.map_eq_some_iff] at lookup
      obtain ⟨before, present, rfl⟩ := lookup
      exact (change.documents_numbered registered.documents present).sameText
        (Document.positioned_sameText _ _ _)
    · rw [settings]
      exact registered.lifetime stored found
  case stream => exact require_eq_ok.mpr rfl
  case revision => exact next
  case kind => exact kind
  case payload => exact payload_text _
  case limits => exact ⟨compacts, through, operationRecordLimit_pos _⟩
  case named => exact named
  case digest => exact digest _
  case base => exact counted
  case same => exact ⟨rfl, rfl, rfl, rfl, rfl⟩
  case expiresAt => exact stored.expiresAt.trans (congrArg unix expiresAt.symm)
  case fresh => exact stored.unknown formed fresh
  case committable =>
    intro prepared prepares
    refine ⟨fun impossible => (by cases impossible), fun _ => ?_⟩
    obtain ⟨_, equality⟩ := (prepared_of_prepareRoomSnapshot prepares).equality
    rw [equality]
    refine ⟨rfl, rfl, ?_⟩
    rw [stored.metadataRevision]
    rfl
  case metadata =>
    intro _ row member stream same
    obtain ⟨_, _, _, changes⟩ := registered.rows tables found
    have bounded := changes row member (by
      unfold ChangeRow.inStream at stream
      simp only [decide_eq_true_eq] at stream
      exact stream.1)
    have equal : row.revision = room.snapshot.metadataRevision + 1 := same
    omega

end Submitted

/-- Every submission to a reachable room has the facts of a commit. -/
theorem Submission.handed [Host] {room : Room} {store : Store} {now : Time} {commit : ChangeCommit}
    (digest : ∀ json, byteLen (Host.fingerprint json) = 64 ∧
      isHex (Host.fingerprint json) = true)
    (consistent : room.Consistent store) (registered : room.Registered store)
    (submission : Submission room now commit) :
    ∃ tables, store.lookup commit.snapshot.slug = some tables ∧ Handed tables commit := by
  obtain ⟨formed, tables, found, stored⟩ := consistent
  cases submission with
  | document operation document changes content named fresh admitted small =>
      exact ⟨tables, found, Submission.handed_document digest formed stored registered found named
        fresh (admitted_of_admitDocument admitted)⟩
  | metadata operation generator effect named fresh admitted performed small =>
      have change := metadataChange_of_metadataEffect performed
      refine ⟨tables, ?_, Submission.handed_metadata digest formed stored registered found named
        fresh admitted change⟩
      rw [commitOf, durableSnapshot]
      have slug := congrArg RoomSnapshot.slug change.snapshot_changed
      exact (congrArg store.lookup slug).trans found

end Room

namespace Authority

theorem Started.registered {options : HubOptions} {authority : Authority}
    (started : Started options authority) : authority.room.Registered authority.store := by
  cases started with
  | created store created snapshot loaded fault now authority create read load =>
      exact Room.Registered.created create read load

/-- In every reachable state of a room, the store accepts the commit of an operation that the hub
accepts if and only if its IDs are trimmed, the room was not created at the zero time and its stream
has no change at the next revision. -/
theorem validators_agree [Host] {options : HubOptions} {start authority : Authority}
    {events : List Event} (started : Started options start) (run : Run start events authority)
    (digest : ∀ json, byteLen (Host.fingerprint json) = 64 ∧
      isHex (Host.fingerprint json) = true) {now : Time} {commit : ChangeCommit}
    (submission : Room.Submission authority.room now commit) :
    Room.Passes authority.store commit ↔ Room.Storable authority.store commit := by
  obtain ⟨consistent, _⟩ := started.consistent
  obtain ⟨tables, found, handed⟩ := submission.handed digest (run.consistent consistent)
    (run.registered consistent started.registered)
  exact ⟨handed.storable found, handed.passes found⟩

/-- An edit of the small room. -/
def smallEdit (operationID : String) : DocumentOperation :=
  ⟨operationID, "ann", "main", 0, ⟨[⟨2, -1, ""⟩, ⟨0, 1, "c"⟩]⟩⟩

/-- The digest of the edit `op`. -/
def editDigest : String := "d0250465f26b43f8037e4a19392067e8f96551689ddffa863d490cab3ba1f0a5"

/-- A host that knows the digest of one operation. -/
abbrev digestHost : Host := { sampleHost with fingerprint := fun _ => editDigest }

/-- The hub accepts the edit under every ID. -/
theorem small_submission (host : Host) (operationID : String)
    (named : Room.ensureOperationIDs operationID "ann" = .ok ())
    (admitted : (smallAuthority defaultHubOptions).room.admitDocument (smallEdit operationID) =
      .ok (⟨smallDocument, [], 0, 0⟩, ⟨[⟨2, -1, ""⟩, ⟨0, 1, "c"⟩]⟩, "abc")) :
    ∃ commit, @Room.Submission host (smallAuthority defaultHubOptions).room (unixTime 4) commit ∧
      commit.operation.operationID = operationID ∧ commit.operation.clientID = "ann" ∧
      commit.snapshot.slug = "demo" ∧ commit.snapshot.createdAt ≠ zeroTime :=
  ⟨_, @Room.Submission.document host _ _ (smallEdit operationID) ⟨smallDocument, [], 0, 0⟩
    ⟨[⟨2, -1, ""⟩, ⟨0, 1, "c"⟩]⟩ "abc" named rfl admitted (by decide +kernel), rfl, rfl, rfl,
    (by decide : smallSnapshot.createdAt ≠ zeroTime)⟩

/-- The creator of the small room has written once. -/
def smallWritten : Stage := @Stage.run digestHost (smallStage defaultHubOptions)
  [smallJoin "bob" "page" smallToken 2,
    Stage.smallRequest (.submitDocument (smallAppend "op-1" 0 2)) 3 false]

theorem smallWritten_run : ∃ events,
    @Run digestHost (smallAuthority defaultHubOptions) events smallWritten.authority := by
  obtain ⟨events, run⟩ := @Run.actions digestHost _ [] (smallStage defaultHubOptions)
    (@Run.nil digestHost _) [smallJoin "bob" "page" smallToken 2,
      Stage.smallRequest (.submitDocument (smallAppend "op-1" 0 2)) 3 false]
    ⟨trivial, ⟨by decide +kernel, Stage.parse_smallAppend _ _ (.inl rfl)⟩, trivial⟩
    (by simp [smallJoin, Stage.smallRequest])
  exact ⟨_, run⟩

/-- Where the room and its tables are then, and that the next edit is admitted. -/
theorem smallWritten_facts :
    ((smallWritten.authority.room.admitDocument (smallAppend "op" 1 3)).toOption.map
        fun admitted => (admitted.1.snapshot.currentRevision, admitted.2.2,
          decide ((encodeDocumentChange admitted.2.1).size ≤
            smallWritten.authority.room.options.maxMessageBytes))) = some (1, "abcc", true) ∧
      smallWritten.authority.room.operations.lookup "op" = none ∧
      smallWritten.authority.room.snapshot.slug = "demo" ∧
      smallWritten.authority.room.snapshot.createdAt ≠ zeroTime ∧
      (smallWritten.authority.store.lookup "demo").map (fun tables =>
        tables.changes.map ChangeRow.revision) = some [1] := by
  decide +kernel

/-- The hub accepts a second edit. -/
theorem smallWritten_submission : ∃ commit, @Room.Submission digestHost
    smallWritten.authority.room (unixTime 4) commit ∧ commit.operation.operationID = "op" ∧
      commit.operation.clientID = "page" ∧ commit.snapshot.slug = "demo" ∧
      commit.snapshot.createdAt ≠ zeroTime ∧ commit.change.revision = 2 := by
  obtain ⟨answer, fresh, slug, created, _⟩ := smallWritten_facts
  obtain ⟨⟨document, changes, content⟩, admits, facts⟩ := Option.map_eq_some_iff.mp answer
  rw [Prod.mk.injEq, Prod.mk.injEq] at facts
  obtain ⟨revision, _, small⟩ := facts
  have submission := @Room.Submission.document digestHost _ (unixTime 4) (smallAppend "op" 1 3)
    document changes content (by decide) fresh (ok_of_toOption admits) (of_decide_eq_true small)
  have next : document.snapshot.currentRevision + 1 = 2 := by
    rw [show document.snapshot.currentRevision = 1 from revision]
    decide
  exact ⟨_, submission, rfl, rfl, slug, created, next⟩

/-- After a first edit, the store accepts the commit of a second one without space in its IDs. -/
theorem validators_agree_small : ∃ commit, @Room.Submission digestHost
    smallWritten.authority.room (unixTime 4) commit ∧ commit.change.revision = 2 ∧
      Room.Passes smallWritten.authority.store commit := by
  obtain ⟨commit, submission, operationID, clientID, slug, created, next⟩ := smallWritten_submission
  obtain ⟨_, _, _, _, rows⟩ := smallWritten_facts
  obtain ⟨events, run⟩ := smallWritten_run
  have digest : byteLen editDigest = 64 ∧ isHex editDigest = true := by decide
  refine ⟨commit, submission, next, (@validators_agree digestHost _ _ _ _ small_started run
    (fun _ => digest) _ _ submission).mpr ⟨?_, ?_, created, ?_⟩⟩
  · rw [operationID]
    decide
  · rw [clientID]
    decide
  · intro _ tables found row member _
    obtain ⟨tables', found', revisions⟩ := Option.map_eq_some_iff.mp rows
    rw [slug] at found
    cases found'.symm.trans found
    have first : row.revision ∈ tables.changes.map ChangeRow.revision := List.mem_map_of_mem member
    rw [revisions, List.mem_singleton] at first
    rw [first, next]
    decide

/-- The store refuses an operation ID that begins with a space. -/
theorem validators_agree_padded :
    ∃ commit, @Room.Submission sampleHost (smallAuthority defaultHubOptions).room (unixTime 4)
        commit ∧ ¬ Room.Passes smallStore commit := by
  obtain ⟨commit, submission, operationID, _⟩ := small_submission sampleHost " op" (by decide)
    (by decide +kernel)
  refine ⟨commit, submission, fun passes => ?_⟩
  have trimmed := passes.trimmed.1
  rw [operationID] at trimmed
  revert trimmed
  decide

end Authority

end Oxbin.Live
