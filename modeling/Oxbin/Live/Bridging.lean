import Oxbin.Live.Progress
import Oxbin.Live.Screens
import Oxbin.Live.Tabs

/-!
# Bridges are complete

What has happened to a room since a client saw it is a list of operations on the metadata, and
changes that lead its documents from text to text.  `bridge` returns all of them, if the histories
reach back to what the client has seen.
-/

namespace Oxbin.Live

open Livecollab Storage

/-! ## Changes of documents -/

section Retained

variable {texts : Texts} {first version : Int} {history : List DocumentHistory}

theorem RetainedFrom.newer_of_mem (retained : RetainedFrom texts first history)
    {entry : DocumentHistory} (member : entry ∈ history) : first < entry.revision := by
  induction history generalizing first with
  | nil => cases member
  | cons oldest history induction =>
      rcases List.mem_cons.mp member with rfl | later
      · have revision := retained.1.2.1
        omega
      · have rest := induction retained.2 later
        omega

/-- The entries after a revision lead on from it. -/
theorem RetainedFrom.newer (retained : RetainedFrom texts first history) (above : first ≤ version)
    (below : version ≤ first + history.length) :
    RetainedFrom texts version (history.filter fun entry => version < entry.revision) ∧
      version + (history.filter fun entry => version < entry.revision).length =
        first + history.length := by
  induction history generalizing first with
  | nil =>
      rw [List.length_nil, Nat.cast_zero] at below ⊢
      exact ⟨trivial, by rw [List.filter_nil, List.length_nil, Nat.cast_zero]; omega⟩
  | cons entry history induction =>
      by_cases here : version = first
      · have whole : (entry :: history).filter (fun entry => decide (version < entry.revision)) =
            entry :: history :=
          List.filter_eq_self.mpr fun other member =>
            decide_eq_true (here ▸ retained.newer_of_mem member)
        rw [whole, here]
        exact ⟨retained, rfl⟩
      · have revision := retained.1.2.1
        rw [List.length_cons, Nat.cast_add, Nat.cast_one] at below ⊢
        rw [List.filter_cons_of_neg (by
          rw [decide_eq_true_eq]
          omega)]
        obtain ⟨rest, length⟩ := induction retained.2 (by omega) (by omega)
        exact ⟨rest, by omega⟩

end Retained

/-- The event that a bridge makes of an entry. -/
def DocumentHistory.bridged (documentID : String) (entry : DocumentHistory) :
    AcceptedDocumentOperation where
  operationID := entry.operationID
  clientID := entry.clientID
  documentID := documentID
  baseVersion := entry.baseVersion
  revision := entry.revision
  changes := entry.changes
  document := ""
  duplicate := false

namespace View

theorem forall₂_tabs {order : List String} {left right : String → Option Tab}
    {related : Tab → Tab → Prop}
    (each : ∀ id ∈ order, ∃ tab ∈ left id, ∃ tab' ∈ right id, related tab tab') :
    List.Forall₂ related (order.filterMap left) (order.filterMap right) := by
  induction order with
  | nil => exact .nil
  | cons id order induction =>
      obtain ⟨tab, found, tab', found', relates⟩ := each id List.mem_cons_self
      rw [List.filterMap_cons_some found, List.filterMap_cons_some found']
      exact .cons relates (induction fun other member => each other (.tail _ member))

end View

namespace Room

/-- Changes that lead the documents from revisions to later ones, text by text. -/
inductive Retraces (room : Room) (annals : Annals) :
    (String → Int) → List AcceptedDocumentOperation → (String → Int) → Prop
  | done (version : String → Int) : Retraces room annals version [] version
  | change (version last : String → Int) (accepted : AcceptedDocumentOperation)
      (later : List AcceptedDocumentOperation)
      (wellFormed : accepted.changes.WellFormed)
      (next : accepted.revision = version accepted.documentID + 1)
      (known : accepted.revision ≤ room.current accepted.documentID)
      (applied : accepted.changes.apply
          (annals accepted.documentID (version accepted.documentID)) =
        .ok (annals accepted.documentID accepted.revision))
      (rest : Retraces room annals
        (Function.update version accepted.documentID accepted.revision) later last) :
      Retraces room annals version (accepted :: later) last

section Retraces

variable {room : Room} {annals : Annals} {version middle last : String → Int}
  {changes later : List AcceptedDocumentOperation}

theorem Retraces.append (retraces : room.Retraces annals version changes middle)
    (rest : room.Retraces annals middle later last) :
    room.Retraces annals version (changes ++ later) last := by
  induction retraces with
  | done => exact rest
  | change version last accepted later wellFormed next known applied _ induction =>
      exact .change _ _ accepted _ wellFormed next known applied (induction rest)

/-- A history leads a document from text to text. -/
theorem retraces_history {id : String} {history : List DocumentHistory}
    (formed : HistoryFormed history) (retained : RetainedFrom (annals id) (version id) history)
    (known : version id + history.length ≤ room.current id) :
    room.Retraces annals version (history.map (DocumentHistory.bridged id))
      (Function.update version id (version id + history.length)) := by
  induction history generalizing version with
  | nil =>
      rw [List.length_nil, Nat.cast_zero, Int.add_zero, Function.update_eq_self]
      exact .done version
  | cons entry history induction =>
      obtain ⟨⟨_, revision, _, applied⟩, rest⟩ := retained
      rw [List.length_cons, Nat.cast_add, Nat.cast_one] at known ⊢
      have later := @induction (Function.update version id (version id + 1))
        (fun other member => formed other (.tail _ member))
      rw [Function.update_self, Function.update_idem,
        show version id + 1 + (history.length : Int) = version id + (history.length + 1) by omega]
        at later
      refine .change version _ (entry.bridged id) _ (formed entry List.mem_cons_self) revision
        ?_ ?_ ?_
      · change entry.revision ≤ room.current id
        omega
      · change _ = Except.ok (annals id entry.revision)
        rw [revision]
        exact applied
      · change room.Retraces annals (Function.update version id entry.revision) _ _
        rw [revision]
        exact later rest known

/-- The histories of several documents, one after the other. -/
theorem retraces_flatMap {ids : List String} (distinct : ids.Nodup)
    {changes : String → List AcceptedDocumentOperation}
    (each : ∀ id ∈ ids, ∀ start : String → Int, start id = version id →
      room.Retraces annals start (changes id) (Function.update start id (last id)))
    (start : String → Int) (same : ∀ id ∈ ids, start id = version id) :
    room.Retraces annals start (ids.flatMap changes)
      fun id => if id ∈ ids then last id else start id := by
  induction ids generalizing start with
  | nil =>
      simp only [List.not_mem_nil, if_false]
      exact .done start
  | cons id ids induction =>
      rw [List.nodup_cons] at distinct
      rw [List.flatMap_cons]
      have first := each id List.mem_cons_self start (same id List.mem_cons_self)
      have same' (other : String) (member : other ∈ ids) :
          Function.update start id (last id) other = version other := by
        have apart : other ≠ id := fun equal => distinct.1 (equal ▸ member)
        rw [Function.update_of_ne apart]
        exact same other (.tail _ member)
      have later := induction distinct.2 (fun other member => each other (.tail _ member)) _ same'
      convert first.append later using 2 with other
      by_cases here : other = id
      · subst here
        rw [if_pos List.mem_cons_self, if_neg distinct.1, Function.update_self]
      · rw [Function.update_of_ne here]
        simp only [List.mem_cons, here, false_or]

/-- The tabs follow the changes. -/
theorem Retraces.leads (retraces : room.Retraces annals version changes last)
    (listed : room.Listed) (older : ∀ id ∈ room.order, version id ≤ room.current id) :
    Passage Screen.apply (room.Shows annals)
      ⟨room.snapshot.metadataRevision, room.shown annals version⟩ (changes.map .document)
      ⟨room.snapshot.metadataRevision, room.shown annals last⟩ := by
  induction retraces with
  | done => rfl
  | change version last accepted later wellFormed next known applied _ induction =>
      have older' (id : String) (member : id ∈ room.order) :
          Function.update version accepted.documentID accepted.revision id ≤ room.current id := by
        by_cases own : id = accepted.documentID
        · rw [own, Function.update_self]
          exact known
        · rw [Function.update_of_ne own]
          exact older id member
      refine ⟨_, Screen.edit_of_tabs wellFormed (View.forall₂_tabs fun id member => ?_),
        ⟨_, older', rfl⟩, induction older'⟩
      obtain ⟨tab, present⟩ := Option.isSome_iff_exists.mp
        (isSome_tab.mpr ((listed.present id).mpr member))
      refine ⟨_, congrArg (Option.map _) present, _, congrArg (Option.map _) present, ?_⟩
      have named := id_of_tab present
      by_cases own : id = accepted.documentID
      · subst own
        rw [Function.update_self]
        exact Screen.Tab.edit_next named.symm next applied
      · rw [Function.update_of_ne own]
        have other : tab.id ≠ accepted.documentID := named ▸ own
        exact if_pos other

end Retraces

end Room

/-! ## The scan of the metadata -/

namespace Room

section Scan

variable {known : Int} {log : List AcceptedMetadataOperation}

theorem scanMetadata_changes (scan : BridgeScan) {accepted : AcceptedMetadataOperation}
    (newer : known < accepted.revision) :
    (scanMetadata known scan accepted).metadataChanges = scan.metadataChanges ++ [accepted] := by
  unfold scanMetadata
  rw [if_neg (by omega)]
  simp only
  split <;> rfl

theorem scanMetadata_lookup (scan : BridgeScan) {accepted : AcceptedMetadataOperation}
    (newer : known < accepted.revision) (id : String) :
    (scanMetadata known scan accepted).knownDocuments.lookup id =
      if accepted.kind = "document_create" ∧ id = accepted.documentID then some 0
      else scan.knownDocuments.lookup id := by
  unfold scanMetadata
  rw [if_neg (by omega)]
  simp only
  split
  case h_1 kind => simp only [kind, true_and, Keyed.lookup_insert_if]
  case h_2 kind => rw [if_neg (by simp [kind])]
  case h_3 other _ => rw [if_neg fun created => other created.1]

theorem foldl_scanMetadata_old (older : ∀ accepted ∈ log, accepted.revision ≤ known)
    (scan : BridgeScan) : log.foldl (scanMetadata known) scan = scan := by
  induction log with
  | nil => rfl
  | cons accepted log induction =>
      have skipped : scanMetadata known scan accepted = scan :=
        if_pos (older accepted List.mem_cons_self)
      rw [List.foldl_cons, skipped]
      exact induction fun other member => older other (.tail _ member)

theorem foldl_scanMetadata_changes (newer : ∀ accepted ∈ log, known < accepted.revision)
    (scan : BridgeScan) :
    (log.foldl (scanMetadata known) scan).metadataChanges = scan.metadataChanges ++ log := by
  induction log generalizing scan with
  | nil => exact (List.append_nil _).symm
  | cons accepted log induction =>
      rw [List.foldl_cons, induction fun other member => newer other (.tail _ member),
        scanMetadata_changes scan (newer accepted List.mem_cons_self), List.append_assoc]
      rfl

end Scan

/-! ## Since a client saw the room -/

/-- The scan with which the first loop of `bridge` begins. -/
def startScan (knownDocuments : Keyed Int) : BridgeScan :=
  { metadataChanges := [], knownDocuments, deleted := [] }

/-- What has happened to a room since a client saw it: the operations on the metadata, and the
revisions in which the client has the documents. -/
structure Since (old : View) (room : Room) (annals : Annals)
    (log : List AcceptedMetadataOperation) (version : String → Int) : Prop where
  arranges : log.foldlM Screen.arrange old =
    .ok ⟨room.snapshot.metadataRevision, room.shown annals version⟩
  older : ∀ id ∈ room.order, version id ≤ room.current id
  scanned : ∀ id ∈ room.order, (log.foldl (scanMetadata old.metadataRevision)
    (startScan old.known.documents)).knownDocuments.lookup id = some (version id)
  recent : ∃ earlier, (∀ accepted ∈ earlier, accepted.revision ≤ old.metadataRevision) ∧
    room.metadataHistory <:+ earlier ++ log
  numbered : NumberedFrom old.metadataRevision log
  counted : old.metadataRevision + log.length = room.snapshot.metadataRevision

section Since

variable {old : View} {room room' : Room} {annals : Annals}
  {log : List AcceptedMetadataOperation} {version : String → Int}

/-- A client that has the tabs of the present. -/
theorem Since.start (listed : room.Listed) (minuted : room.Minuted)
    (older : ∀ id ∈ room.order, version id ≤ room.current id) :
    Since ⟨room.snapshot.metadataRevision, room.shown annals version⟩ room annals [] version where
  arranges := rfl
  older := older
  scanned id member := by
    have distinct : ((room.shown annals version).map Screen.Tab.id).Nodup :=
      listed.map_id_shown ▸ listed.nodup
    obtain ⟨tab, found⟩ := Option.isSome_iff_exists.mp
      (isSome_tab.mpr ((listed.present id).mpr member))
    have past := congrArg (Option.map fun tab : View.Tab =>
      { tab with content := annals id (version id), revision := version id }) found
    have known := @View.known_lookup ⟨room.snapshot.metadataRevision, room.shown annals version⟩
      distinct _ (List.mem_filterMap.mpr ⟨id, member, past⟩)
    rw [id_of_past past] at known
    exact known
  recent := by
    refine ⟨room.metadataHistory, fun accepted member => ?_, ?_⟩
    · have range := (minuted.numbered.range member).2
      rw [minuted.current] at range
      exact range
    · exact ⟨[], (List.append_nil _).symm⟩
  numbered := trivial
  counted := Int.add_zero _

/-- The room has the same tabs, and a part of the history of the metadata. -/
theorem Since.kept (since : Since old room annals log version) (tab : room'.tab = room.tab)
    (order : room'.order = room.order)
    (revision : room'.snapshot.metadataRevision = room.snapshot.metadataRevision)
    (history : room'.metadataHistory <:+ room.metadataHistory) :
    Since old room' annals log version where
  arranges := by
    rw [since.arranges, revision, shown_congr tab order]
  older id member := by
    rw [current, tab]
    exact since.older id (order ▸ member)
  scanned id member := since.scanned id (order ▸ member)
  recent := by
    obtain ⟨earlier, seen, recent⟩ := since.recent
    exact ⟨earlier, seen, history.trans recent⟩
  numbered := since.numbered
  counted := since.counted.trans revision.symm

/-- A document has been edited. -/
theorem Since.edited (since : Since old room annals log version)
    (recollects : room.Recollects annals) {operation : DocumentOperation} {document : Document}
    {changes : ChangeSet} {content : String}
    (admitted : room.Admitted operation document changes content) (fingerprint : String)
    (now : Time) :
    Since old (room.accepted operation fingerprint document changes content now)
      (annals.log (room.accepted operation fingerprint document changes content now)) log
      version := by
  obtain ⟨documents, equality⟩ := committed_document_eq
    (room.editDocument operation.documentID document content
      (document.snapshot.currentRevision + 1) now)
    (documentChange (acceptedDocument operation document changes content) now) fingerprint
    (acceptedDocument operation document changes content) (utf16Len document.snapshot.content)
  have tab := admitted.tab fingerprint now
  have lookup := current_of_lookup admitted.found
  have current (id : String) :
      (room.accepted operation fingerprint document changes content now).current id =
        room.current id + if id = operation.documentID then 1 else 0 := by
    unfold Room.current
    rw [tab]
    by_cases own : id = operation.documentID
    · subst own
      simp only [Room.tab, admitted.found, Option.map_some, if_true, Option.getD_some]
    · simp only [own, if_false, Option.map_id', add_zero]
  have older {id : String} (member : id ∈ room.order) :
      annals.log (room.accepted operation fingerprint document changes content now) id
        (version id) = annals id (version id) := by
    have below := since.older id member
    by_cases own : id = operation.documentID
    · refine log_older ?_
      rw [current, if_pos own]
      omega
    · refine congrFun (recollects.log_kept ?_) _
      rw [text, tab, text]
      simp only [own, if_false, Option.map_id']
  have order : (room.accepted operation fingerprint document changes content now).order =
      room.order := by
    rw [accepted, equality]
    rfl
  constructor
  case arranges =>
    rw [since.arranges, shown, shown, order]
    congr 2
    · rw [accepted, equality]
      rfl
    · refine List.filterMap_congr fun id member => ?_
      rw [past, past, tab, older member, Option.map_map]
      congr 1
      funext tab
      rw [Function.comp_apply]
      split <;> rfl
  case older =>
    intro id member
    rw [order] at member
    have below := since.older id member
    rw [current]
    split <;> omega
  case scanned => exact fun id member => since.scanned id (order ▸ member)
  case recent =>
    rw [accepted, equality]
    exact since.recent
  case numbered => exact since.numbered
  case counted =>
    rw [accepted, equality]
    exact since.counted

/-- The tabs have been arranged. -/
theorem Since.arranged (since : Since old room annals log version) (listed : room.Listed)
    (identified : room.Identified) (recollects : room.Recollects annals) (minuted : room.Minuted)
    {operation : MetadataOperation} {now : Time} {effect : MetadataEffect}
    (change : room.MetadataChange operation now effect) (record : ChangeRecord)
    (fingerprint : String) (commits : room' = (room.metadataChanged effect).committed record
      fingerprint (.metadata (room.acceptedMetadata operation effect)) 0) :
    Since old room' (annals.log room') (log ++ [room.acceptedMetadata operation effect])
      (arrangedVersion operation effect version) := by
  have rearranged := change.rearranged listed
  have arrangement := change.arrangement identified recollects record fingerprint
  rw [← commits] at arrangement
  have newer : old.metadataRevision <
      (room.acceptedMetadata operation effect).revision := by
    have counted := since.counted
    change _ < room.snapshot.metadataRevision + 1
    omega
  constructor
  case arranges =>
    rw [List.foldlM_append, since.arranges]
    change Screen.arrange _ _ >>= _ = _
    have next := arrangement.arrange change listed identified recollects version (.inl rfl)
    change Screen.arrange _ (room.acceptedMetadata operation effect) = _ at next
    rw [next]
    rfl
  case older =>
    intro id member
    rw [arrangement.order] at member
    rw [arrangement.current]
    rcases rearranged.old_or_new member with ⟨old, other⟩ | ⟨kind, own, zero⟩
    · rw [arrangedVersion, if_neg other, current_of_text (rearranged.text listed old member)]
      exact since.older id old
    · rw [arrangedVersion, if_pos ⟨kind, own⟩, zero]
  case scanned =>
    intro id member
    rw [arrangement.order] at member
    rw [List.foldl_append, List.foldl_cons, List.foldl_nil, scanMetadata_lookup _ newer]
    rcases rearranged.old_or_new member with ⟨old, other⟩ | ⟨kind, own, zero⟩
    · have same : arrangedVersion operation effect version id = version id := if_neg other
      rw [same]
      exact (if_neg other).trans (since.scanned id old)
    · have first : arrangedVersion operation effect version id = 0 := if_pos ⟨kind, own⟩
      rw [first]
      exact if_pos (And.intro kind own)
  case recent =>
    obtain ⟨earlier, seen, recent⟩ := since.recent
    obtain ⟨dropped, history⟩ := recent
    refine ⟨earlier, seen, ?_⟩
    rw [commits]
    refine (change.minuted minuted record fingerprint).2.trans ⟨dropped, ?_⟩
    rw [← List.append_assoc, history, List.append_assoc]
  case numbered =>
    refine since.numbered.append ⟨?_, trivial⟩
    rw [since.counted]
    rfl
  case counted =>
    rw [arrangement.metadataRevision, ← since.counted, List.length_append, List.length_singleton]
    omega

/-- The history of the metadata ends with what has happened, if it reaches back far enough. -/
theorem Since.history (since : Since old room annals log version) (minuted : room.Minuted)
    (reaches : room.metadataCompactedRevision ≤ old.metadataRevision) :
    ∃ seen, room.metadataHistory = seen ++ log ∧
      ∀ accepted ∈ seen, accepted.revision ≤ old.metadataRevision := by
  obtain ⟨earlier, older, dropped, recent⟩ := since.recent
  have longer : log.length ≤ room.metadataHistory.length := by
    have counted := since.counted
    have current := minuted.current
    omega
  obtain ⟨seen, history⟩ := List.suffix_of_suffix_length_le (List.suffix_append earlier log)
    ⟨dropped, recent⟩ longer
  refine ⟨seen, history.symm, fun accepted member => older accepted ?_⟩
  rw [← history, ← List.append_assoc] at recent
  rw [← List.append_cancel_right recent]
  exact List.mem_append_right _ member

/-- The changes of a document that `bridge` returns. -/
def bridgedPart (room : Room) (known : Keyed Int) (id : String) :
    List AcceptedDocumentOperation :=
  match room.documents.lookup id, known.lookup id with
  | some document, some version => documentChangesSince id document version
  | _, _ => []

/-- What `bridge` returns for any known revisions: the operations on the metadata since then, and
the changes that lead each document from the known revision to the present one. -/
theorem bridge_spec (listed : room.Listed)
    (histories : ∀ id document, room.documents.lookup id = some document →
      HistoryFormed document.history) (recollects : room.Recollects annals) (minuted : room.Minuted)
    {known : KnownRevisions} (bridged : (room.bridgeKnown known).resync = false) :
    let log := (room.bridgeKnown known).metadataChanges
    (∃ seen, room.metadataHistory = seen ++ log) ∧ NumberedFrom known.metadata log ∧
      known.metadata + log.length = room.snapshot.metadataRevision ∧
      ∃ version last : String → Int,
        (∀ id ∈ room.order, (log.foldl (scanMetadata known.metadata)
          (startScan known.documents)).knownDocuments.lookup id = some (version id)) ∧
        room.Retraces annals version (room.bridgeKnown known).documentChanges last ∧
        ∀ id ∈ room.order, last id = room.current id := by
  unfold bridgeKnown at bridged ⊢
  split at bridged
  case isTrue => cases bridged
  case isFalse within =>
    rw [if_neg within]
    obtain ⟨seen, log, history, older, numbered, counted⟩ := minuted.since
      (not_lt.mp (not_or.mp within).1) (not_lt.mp (not_or.mp within).2)
    have newer (accepted : AcceptedMetadataOperation) (member : accepted ∈ log) :
        known.metadata < accepted.revision := (numbered.range member).1
    have scan : room.metadataHistory.foldl (scanMetadata known.metadata)
        { metadataChanges := [], knownDocuments := known.documents, deleted := [] } =
        log.foldl (scanMetadata known.metadata) (startScan known.documents) := by
      have skipped := foldl_scanMetadata_old older (startScan known.documents)
      rw [history, List.foldl_append]
      exact congrArg (fun scan => log.foldl (scanMetadata known.metadata) scan) skipped
    have changes : (log.foldl (scanMetadata known.metadata)
        (startScan known.documents)).metadataChanges = log :=
      foldl_scanMetadata_changes newer _
    simp only [scan] at bridged ⊢
    split at bridged
    case isTrue => cases bridged
    case isFalse bridgeable =>
      rw [if_neg bridgeable]
      split at bridged
      case isTrue => cases bridged
      case isFalse present =>
        rw [if_neg present]
        simp only [changes]
        refine ⟨⟨seen, history⟩, numbered, counted, ?_⟩
        generalize (log.foldl (scanMetadata known.metadata)
          (startScan known.documents)).knownDocuments = documents at bridgeable ⊢
        have each (id : String) (member : id ∈ room.order) (start : String → Int)
            (same : start id = (documents.lookup id).getD 0) : room.Retraces annals start
              (room.bridgedPart documents id) (Function.update start id (room.current id)) := by
          obtain ⟨document, found, version, lookup, retained, below⟩ :=
            not_not.mp bridgeable id member
          have lookup' : documents.lookup id = some version := lookup
          rw [lookup', Option.getD_some] at same
          have recalls := recollects id document found
          obtain ⟨newer, length⟩ := recalls.retained.newer retained (recalls.current ▸ below)
          rw [recalls.current, ← current_of_lookup found, ← same] at length
          rw [bridgedPart, found, lookup']
          rw [← same] at newer
          have formed (bound : Int) : HistoryFormed
              (document.history.filter fun entry => bound < entry.revision) :=
            fun entry member => histories id document found entry (List.mem_of_mem_filter member)
          have history := retraces_history (formed _) newer length.le
          rw [length, same] at history
          exact history
        refine ⟨fun id => (documents.lookup id).getD 0, _, fun id member => ?_,
          retraces_flatMap listed.nodup each _ fun _ _ => rfl, fun id member => if_pos member⟩
        obtain ⟨_, _, version, lookup, _⟩ := not_not.mp bridgeable id member
        have lookup' : documents.lookup id = some version := lookup
        simp only [lookup', Option.getD_some]

/-- `bridge` returns what has happened. -/
theorem Since.bridge (since : Since old room annals log version) (listed : room.Listed)
    (histories : ∀ id document, room.documents.lookup id = some document →
      HistoryFormed document.history) (recollects : room.Recollects annals) (minuted : room.Minuted)
    (bridged : (room.bridgeKnown old.known).resync = false) :
    (room.bridgeKnown old.known).metadataChanges = log ∧
      Passage Screen.apply (room.Shows annals)
        ⟨room.snapshot.metadataRevision, room.shown annals version⟩
        ((room.bridgeKnown old.known).documentChanges.map .document) room.view := by
  obtain ⟨⟨seen, history⟩, numbered, counted, version', last, scanned, retraces, arrived⟩ :=
    bridge_spec listed histories recollects minuted bridged
  have reaches : room.metadataCompactedRevision ≤ old.metadataRevision := by
    have current := minuted.current
    rw [history, List.length_append, Nat.cast_add] at current
    change old.metadataRevision + _ = _ at counted
    omega
  obtain ⟨seen', history', _⟩ := since.history minuted reaches
  have same : (room.bridgeKnown old.known).metadataChanges = log := by
    refine List.append_inj_right' (history.symm.trans history') ?_
    have counted' := since.counted
    change old.metadataRevision + _ = _ at counted
    omega
  rw [same] at scanned
  have versions (id : String) (member : id ∈ room.order) : version' id = version id :=
    Option.some_inj.mp ((scanned id member).symm.trans (since.scanned id member))
  have leads := retraces.leads listed fun id member =>
    (versions id member).symm ▸ since.older id member
  rw [shown_congr_version versions, shown_congr_version arrived, ← recollects.view_eq] at leads
  exact ⟨same, leads⟩

/-- The changes of documents that `bridge` returns are no duplicates, and those documents exist. -/
theorem documentChanges_spec (room : Room) (known : KnownRevisions) :
    ∀ accepted ∈ (room.bridgeKnown known).documentChanges,
      accepted.duplicate = false ∧ accepted.documentID ∈ room.order := by
  intro accepted member
  unfold bridgeKnown at member
  split at member
  case isTrue => cases member
  case isFalse =>
    simp only at member
    split at member
    case isTrue => cases member
    case isFalse =>
      split at member
      case isTrue => cases member
      case isFalse =>
        obtain ⟨id, listed, part⟩ := List.mem_flatMap.mp member
        split at part
        case h_1 =>
          obtain ⟨entry, _, rfl⟩ := List.mem_map.mp part
          exact ⟨rfl, listed⟩
        case h_2 => cases part

end Since

end Room

end Oxbin.Live
