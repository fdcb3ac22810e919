import Oxbin.Live.Bridging
import Oxbin.Live.Cursors

/-!
# Coming back to a room

A client leaves a room and comes back later, while other clients go on, and while the room may be
evicted and loaded again.  Unless it is asked to fetch the room again, what `bridge` returns leads
it to what the room shows now.
-/

namespace Oxbin.Live

open Livecollab Storage Storage.Tables

namespace Room

section Since

variable {old : View} {room room' : Room} {annals : Annals}
  {log : List AcceptedMetadataOperation} {version : String → Int}
  {result : Except LiveError Answer}

theorem SameTabs.tab (same : room.SameTabs room') : room'.tab = room.tab := by
  funext id
  rw [Room.tab, same.documents, Room.tab]

theorem SameTabs.listed (same : room.SameTabs room') (listed : room.Listed) : room'.Listed where
  nonempty := same.order ▸ listed.nonempty
  nodup := same.order ▸ listed.nodup
  present id := by
    rw [same.documents, same.order]
    exact listed.present id

theorem SameTabs.histories (same : room.SameTabs room') (formed : room.Formed) (id : String)
    (document : Document) (found : room'.documents.lookup id = some document) :
    HistoryFormed document.history :=
  (formed.documents id document (same.documents ▸ found)).history

theorem SameTabs.log_eq (same : room.SameTabs room') (recollects : room.Recollects annals) :
    annals.log room' = annals := by
  funext id
  exact recollects.log_kept (congrArg (Option.map _) (congrFun same.tab id))

theorem SameTabs.recollects (same : room.SameTabs room') (recollects : room.Recollects annals) :
    room'.Recollects annals := by
  unfold Recollects
  rw [same.documents]
  exact recollects

/-- `bridge` reads the tabs of the room. -/
theorem bridge_ok {participantID connectionID : String} {generation : Nat} {known : KnownRevisions}
    {now : Time} {bridge : BridgeResult}
    (answered : (room.bridge participantID connectionID generation known now).2 = .ok bridge) :
    ∃ room', room.SameTabs room' ∧ bridge = room'.bridgeKnown known := by
  have shared := room.ensureConnection_shared participantID connectionID generation now
  unfold Room.bridge at answered
  generalize room.ensureConnection participantID connectionID generation now = ensured
    at answered shared
  obtain ⟨room', _ | ⟨⟩⟩ := ensured
  case error => cases answered
  case ok =>
    cases answered
    exact ⟨room', sameTabs_of_shared shared, rfl⟩

theorem Since.still (since : Since old room annals log version) (same : room.SameTabs room') :
    Since old room' annals log version :=
  since.kept same.tab same.order same.metadataRevision (same.metadataHistory ▸ List.suffix_rfl)

/-- Whatever a call does, it is known what has happened since. -/
theorem Since.progress (since : Since old room annals log version) (listed : room.Listed)
    (identified : room.Identified) (recollects : room.Recollects annals) (minuted : room.Minuted)
    (progress : room.Progress result room') :
    ∃ log' version', Since old room' (annals.log room') log' version' ∧
      (log' = log ∨ ∃ accepted, log' = log ++ [accepted]) := by
  cases progress with
  | still result room' same stale =>
      rw [same.log_eq recollects]
      exact ⟨log, version, since.still same, .inl rfl⟩
  | edited before same operation document changes content admitted canonical fingerprint now =>
      exact ⟨log, version,
        (since.still same).edited (same.recollects recollects) admitted fingerprint now, .inl rfl⟩
  | arranged before same operation now effect change record fingerprint room' commits =>
      have identified' : before.Identified := identified.of_documents same.documents
      exact ⟨_, _, (since.still same).arranged (same.listed listed) identified'
        (same.recollects recollects) (minuted.sameTabs same) change record fingerprint commits,
        .inr ⟨_, rfl⟩⟩

end Since

/-- A room that is loaded from its tables shows what it showed, without a history. -/
theorem Stored.loaded_tabs {room room' : Room} {tables : Tables} {store store' : Store}
    (stored : room.Stored tables) (formed : room.Formed)
    (found : store.lookup room.snapshot.slug = some tables)
    (load : newRoom store (Storage.Store.snapshotOf tables) room.options .none =
      (store', .ok room')) :
    room'.Minuted ∧ room'.metadataHistory = [] ∧
      room'.snapshot.metadataRevision = room.snapshot.metadataRevision := by
  obtain ⟨documents, operations, loaded, _, _, equality⟩ := stored.newRoom_eq formed found
  rw [load] at equality
  cases equality
  have revision : (Storage.Store.snapshotOf tables).metadataRevision =
      room.snapshot.metadataRevision := stored.metadataRevision
  have compacted : (Storage.Store.snapshotOf tables).metadataSnapshotRevision =
      room.snapshot.metadataRevision := stored.metadataSnapshotRevision
  refine ⟨⟨trivial, ?_, rfl, List.forall_mem_nil _⟩, rfl, revision⟩
  exact (Int.add_zero _).trans (compacted.trans revision.symm)

/-- A room that is loaded from its tables is the room that it was. -/
theorem Stored.loaded_authority {room room' : Room} {tables : Tables} {store store' : Store}
    (stored : room.Stored tables) (formed : room.Formed)
    (found : store.lookup room.snapshot.slug = some tables) {now : Time} {snapshot : RoomSnapshot}
    (read : Storage.Store.getRoomSnapshot store room.snapshot.slug now false = .ok snapshot)
    (load : newRoom store snapshot room.options .none = (store', .ok room')) :
    room'.authority = room.authority := by
  obtain ⟨tables', found', alive, rfl⟩ := getRoomSnapshot_ok read
  cases found.symm.trans found'
  obtain ⟨snapshot, room'', read', load', formed', stored', _⟩ :=
    stored.reload formed found (stored.expiresAt ▸ alive)
  obtain ⟨tables'', found'', _, rfl⟩ := getRoomSnapshot_ok read'
  cases found.symm.trans found''
  rw [load] at load'
  cases load'
  exact stored'.authority_eq stored formed' formed

end Room

namespace Authority

theorem Started.minuted {options : HubOptions} {authority : Authority}
    (started : Started options authority) : authority.room.Minuted := by
  obtain ⟨room, store, prepared, formed, stored, found, load⟩ := started.stored
  exact (stored.loaded_tabs formed found load).1

end Authority

namespace Stage

/-- A stage in the life of a room, and the texts that its documents have had, with a later one. -/
inductive Onward [Host] (options : HubOptions) (earlier : Stage) (texts : Annals) :
    Stage → Annals → Prop
  | now : Onward options earlier texts earlier texts
  | step (stage : Stage) (annals : Annals) (action : Action)
      (onward : Onward options earlier texts stage annals)
      (possible : action.Possible stage.issued) (apart : stage.authority.Apart action) :
      Onward options earlier texts (stage.step action)
        (annals.log (stage.step action).authority.room)
  | reload (stage : Stage) (annals : Annals) (snapshot : RoomSnapshot) (now : Time)
      (authority : Authority) (onward : Onward options earlier texts stage annals)
      (valid : options.validate = .ok ())
      (read : Storage.Store.getRoomSnapshot stage.authority.store
        stage.authority.room.snapshot.slug now false = .ok snapshot)
      (load : Room.newRoom stage.authority.store snapshot options .none =
        (authority.store, .ok authority.room)) :
      Onward options earlier texts ⟨authority, []⟩ (annals.log authority.room)

section Onward

variable [Host] {options : HubOptions} {stage later : Stage} {annals annals' : Annals}

theorem Led.minuted (lived : Lived options stage annals) : stage.authority.room.Minuted := by
  induction lived with
  | created authority valid started => exact started.minuted
  | step stage annals action led possible apart admitted minuted =>
      exact (Authority.perform_progress led.settled.consistent.formed led.settled.clean
        possible).minuted minuted
  | reload stage annals snapshot now authority led valid read load =>
      obtain ⟨⟨formed, tables, found, stored⟩, same, _⟩ := led.settled
      obtain ⟨tables', found', _, rfl⟩ := Room.getRoomSnapshot_ok read
      cases found.symm.trans found'
      rw [← same] at load
      exact (stored.loaded_tabs formed found load).1

/-- A room that is loaded again shows what it showed, without a history. -/
theorem Led.reloaded (lived : Lived options stage annals) {snapshot : RoomSnapshot} {now : Time}
    {store : Storage.Store} {room : Room}
    (read : Storage.Store.getRoomSnapshot stage.authority.store
      stage.authority.room.snapshot.slug now false = .ok snapshot)
    (load : Room.newRoom stage.authority.store snapshot options .none = (store, .ok room)) :
    room.tab = stage.authority.room.tab ∧ room.order = stage.authority.room.order ∧
      room.snapshot.metadataRevision = stage.authority.room.snapshot.metadataRevision ∧
      room.metadataHistory = [] := by
  obtain ⟨⟨formed, tables, found, stored⟩, same, _⟩ := lived.settled
  rw [← same] at load
  have authority := stored.loaded_authority formed found read load
  obtain ⟨tables', found', _, rfl⟩ := Room.getRoomSnapshot_ok read
  cases found.symm.trans found'
  obtain ⟨_, empty, revision⟩ := stored.loaded_tabs formed found load
  exact ⟨Room.tab_of_authority authority, congrArg AuthorityState.order authority, revision, empty⟩

/-- The life of a room goes on. -/
theorem Onward.lived (onward : Onward options stage annals later annals')
    (lived : Lived options stage annals) : Lived options later annals' := by
  induction onward with
  | now => exact lived
  | step stage annals action onward possible apart lived' =>
      exact .step stage annals action lived' possible apart trivial
  | reload stage annals snapshot now authority onward valid read load lived' =>
      exact .reload stage annals snapshot now authority lived' valid read load

/-- Any calls on the room are part of its life. -/
theorem Onward.run {actions : List Action} (possible : stage.Possible actions)
    (own : ∀ action ∈ actions, ∀ store, action.call ≠ .elsewhere store) (annals : Annals) :
    ∃ annals', Onward options stage annals (stage.run actions) annals' := by
  induction actions using List.reverseRecOn generalizing annals with
  | nil => exact ⟨annals, .now⟩
  | append_singleton actions action induction =>
      obtain ⟨earlier, last⟩ := possible_append.mp possible
      obtain ⟨annals', onward⟩ := induction earlier (fun other member =>
        own other (List.mem_append_left _ member)) annals
      have apart : (stage.run actions).authority.Apart action := fun store call =>
        absurd call (own action (List.mem_append_right _ List.mem_cons_self) store)
      rw [run_append]
      exact ⟨_, .step _ annals' action onward last.1 apart⟩

theorem Onward.trans {middle : Stage} {texts : Annals}
    (onward : Onward options stage annals middle texts)
    (later' : Onward options middle texts later annals') :
    Onward options stage annals later annals' := by
  induction later' with
  | now => exact onward
  | step stage' annals' action _ possible apart induction =>
      exact .step stage' annals' action induction possible apart
  | reload stage' annals' snapshot now authority _ valid read load induction =>
      exact .reload stage' annals' snapshot now authority induction valid read load

end Onward

/-- The view is one of an earlier moment, or of the present one. -/
def Behind [Host] (options : HubOptions) (stage : Stage) (annals : Annals) (view : View) : Prop :=
  ∃ earlier texts, Lived options earlier texts ∧ Onward options earlier texts stage annals ∧
    earlier.authority.room.Shows texts view

section Behind

variable [Host] {options : HubOptions} {stage later : Stage} {annals annals' : Annals} {view : View}

theorem Behind.onward (behind : Behind options stage annals view)
    (onward : Onward options stage annals later annals') : Behind options later annals' view := by
  obtain ⟨earlier, texts, lived, before, shows⟩ := behind
  exact ⟨earlier, texts, lived, before.trans onward, shows⟩

theorem Behind.lived (behind : Behind options stage annals view) : Lived options stage annals := by
  obtain ⟨earlier, texts, lived, before, shows⟩ := behind
  exact before.lived lived

/-- Whatever the room shows now. -/
theorem behind_of_shows (lived : Lived options stage annals)
    (shows : stage.authority.room.Shows annals view) : Behind options stage annals view :=
  ⟨stage, annals, lived, .now, shows⟩

/-- Between any two of the operations, the view is one of an earlier moment. -/
def Interruptible (options : HubOptions) (stage : Stage) (annals : Annals) (view : View)
    (log : List AcceptedMetadataOperation) : Prop :=
  ∀ early, early <+: log → ∃ view', early.foldlM Screen.arrange view = .ok view' ∧
    Behind options stage annals view'

theorem Interruptible.onward {log : List AcceptedMetadataOperation}
    (along : Interruptible options stage annals view log)
    (onward : Onward options stage annals later annals') :
    Interruptible options later annals' view log := by
  intro early short
  obtain ⟨view', applied, behind⟩ := along early short
  exact ⟨view', applied, behind.onward onward⟩

/-- What has happened since an earlier moment, and the views between the operations. -/
structure Recounts (options : HubOptions) (stage : Stage) (annals : Annals) (view : View)
    (log : List AcceptedMetadataOperation) (version : String → Int) : Prop where
  since : Room.Since view stage.authority.room annals log version
  along : Interruptible options stage annals view log

/-- It is known what has happened. -/
theorem Behind.recounts (behind : Behind options stage annals view) :
    ∃ log version, Recounts options stage annals view log version := by
  obtain ⟨earlier, texts, lived, onward, version, older, rfl⟩ := behind
  induction onward with
  | now =>
      have shows : earlier.authority.room.Shows texts _ := ⟨version, older, rfl⟩
      refine ⟨[], version, Room.Since.start lived.settled.consistent.formed.listed lived.minuted
        older, fun early short => ?_⟩
      cases List.prefix_nil.mp short
      exact ⟨_, rfl, behind_of_shows lived shows⟩
  | step stage annals action onward possible apart recounts =>
      obtain ⟨log, version', since, along⟩ := recounts
      have lived' := onward.lived lived
      have formed := lived'.settled.consistent.formed
      obtain ⟨log', version'', since', grown⟩ := since.progress formed.listed formed.identified
        lived'.recollects lived'.minuted
        (Authority.perform_progress formed lived'.settled.clean possible)
      have next : Onward options stage annals (stage.step action) _ :=
        .step stage annals action .now possible apart
      have along' := along.onward next
      refine ⟨log', version'', since', fun early short => ?_⟩
      rcases grown with rfl | ⟨accepted, rfl⟩
      · exact along' early short
      · rcases List.prefix_concat_iff.mp short with rfl | short
        · exact ⟨_, since'.arranges, behind_of_shows (next.lived lived')
            ⟨version'', since'.older, rfl⟩⟩
        · exact along' early short
  | reload stage annals snapshot now authority onward valid read load recounts =>
      obtain ⟨log, version', since, along⟩ := recounts
      have lived' := onward.lived lived
      have next : Onward options stage annals ⟨authority, []⟩ _ :=
        .reload stage annals snapshot now authority .now valid read load
      obtain ⟨tab, order, revision, empty⟩ := lived'.reloaded read load
      have texts : annals.log authority.room = annals := funext fun id =>
        lived'.recollects.log_kept (congrArg (Option.map _) (congrFun tab id))
      refine ⟨log, version', ?_, along.onward next⟩
      rw [texts]
      exact since.kept tab order revision (empty ▸ List.nil_suffix)

/-- The operations on the metadata lead on, from view to view. -/
theorem Recounts.leads {log : List AcceptedMetadataOperation} {version : String → Int}
    (recounts : Recounts options stage annals view log version) :
    Passage Screen.apply (Behind options stage annals) view (log.map .metadata)
      ⟨stage.authority.room.snapshot.metadataRevision,
        stage.authority.room.shown annals version⟩ := by
  have arranges := recounts.since.arranges
  have along := recounts.along
  clear recounts
  induction log generalizing view with
  | nil => exact Except.ok.inj arranges
  | cons accepted log induction =>
      obtain ⟨next, applied, behind⟩ := along [accepted] ⟨log, rfl⟩
      have first : view.arrange accepted = .ok next := by
        rw [List.foldlM_cons] at applied
        cases arranged : view.arrange accepted with
        | error error =>
            rw [arranged] at applied
            cases applied
        | ok next' =>
            rw [arranged] at applied
            exact applied
      rw [List.foldlM_cons, first] at arranges
      refine ⟨next, first, behind, induction arranges fun early short => ?_⟩
      have longer := along (accepted :: early) (List.prefix_cons_inj accepted |>.mpr short)
      rwa [List.foldlM_cons, first] at longer

/-- What `bridge` returns for the revisions of a view leads from there to what the room shows. -/
theorem Behind.bridge (behind : Behind options stage annals view)
    {participantID connectionID : String} {generation : Nat} {now : Time} {bridge : BridgeResult}
    (answered : (stage.authority.room.bridge participantID connectionID generation view.known
      now).2 = .ok bridge) (bridged : bridge.resync = false) :
    Passage Screen.apply (Behind options stage annals) view bridge.changes
      stage.authority.room.view := by
  have lived := behind.lived
  obtain ⟨log, version, recounts⟩ := behind.recounts
  obtain ⟨room, same, rfl⟩ := Room.bridge_ok answered
  obtain ⟨changes, leads⟩ := (recounts.since.still same).bridge
    (same.listed lived.settled.consistent.formed.listed)
    (same.histories lived.settled.consistent.formed) (same.recollects lived.recollects)
    (lived.minuted.sameTabs same) bridged
  have shows (view : View) (shows : room.Shows annals view) :
      stage.authority.room.Shows annals view := by
    obtain ⟨version, older, rfl⟩ := shows
    have current : room.current = stage.authority.room.current := by
      unfold Room.current
      rw [same.tab]
    rw [same.order, current] at older
    refine ⟨version, older, ?_⟩
    rw [same.metadataRevision, Room.shown_congr same.tab same.order]
  rw [BridgeResult.changes, changes]
  refine recounts.leads.append ?_
  rw [same.metadataRevision, Room.shown_congr same.tab same.order, same.view] at leads
  exact leads.mono fun view held => behind_of_shows lived (shows view held)

/-- What a browser shows is read as the view of an earlier moment, or of the present one. -/
def Recalls (options : HubOptions) (stage : Stage) (annals : Annals)
    (screen : Screen (List UInt16)) : Prop :=
  ∃ view, screen.Reads view ∧ Behind options stage annals view

/-- Unless `bridge` asks for a new snapshot, what it returns leads a browser from what it showed
when it left to what the room shows, if no change joins surrogates that are apart in the browser.
Wherever the browser is interrupted, it can come back again. -/
theorem bridge_complete {screen : Screen (List UInt16)}
    (recalls : Recalls options stage annals screen) (participantID connectionID : String)
    (generation : Nat) (now : Time) (bridge : BridgeResult)
    (answered : (stage.authority.room.bridge participantID connectionID generation screen.known
      now).2 = .ok bridge) (bridged : bridge.resync = false)
    (spared : screen.Spared bridge.changes) :
    ∃ shown, Passage Screen.apply (Recalls options stage annals) screen bridge.changes shown ∧
      shown.Reads stage.authority.room.view := by
  obtain ⟨view, reads, behind⟩ := recalls
  have known : view.known = screen.known := by
    rw [← reads, Screen.known_map]
  exact reads.passage spared (behind.bridge (known ▸ answered) bridged)

end Behind

/-! ## Examples -/

/-- The small room while the document is edited twice and another one is created. -/
abbrev smallAbsence : Room :=
  (@run sampleHost (smallStage defaultHubOptions) (smallWork.take 4)).authority.room

theorem smallAbsence_onward : ∃ texts, @Onward sampleHost defaultHubOptions
    (smallStage defaultHubOptions)
    (Annals.log (fun _ _ => "") (smallAuthority defaultHubOptions).room)
    (@run sampleHost (smallStage defaultHubOptions) (smallWork.take 4)) texts := by
  have possible : @Possible sampleHost (smallStage defaultHubOptions) (smallWork.take 4) := by
    refine ⟨trivial, ⟨?_, parse_smallAppend _ _ (.inl rfl)⟩,
      ⟨?_, parse_smallAppend _ _ (.inl rfl)⟩, ⟨?_, trivial⟩, trivial⟩
    all_goals decide +kernel
  have own : ∀ action ∈ smallWork.take 4, ∀ store, action.call ≠ .elsewhere store := by
    simp [smallWork, smallJoin, smallRequest]
  exact @Onward.run sampleHost defaultHubOptions _ _ possible own _

theorem smallAbsence_bridge :
    let view := (smallStage defaultHubOptions).authority.room.view
    ∃ bridge, (smallAbsence.bridge "p-demo-bob" "page" 1 view.known (unixTime 6)).2 = .ok bridge ∧
      bridge.resync = false ∧ bridge.changes.length = 3 ∧
      (view.map utf16Units).Spared bridge.changes := by
  intro view
  have answers : (smallAbsence.bridge "p-demo-bob" "page" 1 view.known
      (unixTime 6)).2.toOption.any
      (fun bridge => decide (bridge.resync = false ∧ bridge.changes.length = 3 ∧
        (view.map utf16Units).Spared bridge.changes)) = true := by
    decide +kernel
  obtain ⟨bridge, answered, facts⟩ := ok_of_any answers
  exact ⟨bridge, answered, of_decide_eq_true facts⟩

/-- The document of the small room gets another name. -/
def smallRename : ChangeRecord where
  streamKind := .metadata
  streamID := metadataStreamID
  revision := 1
  kind := "document_update"
  payload := .obj [("kind", .str "document_update"), ("document_id", .str "main"),
    ("name", .str "notes"), ("language", .str "plaintext")]
  createdAt := unixTime 2

/-- A browser is away while the document is edited twice and another one is created. -/
theorem bridge_complete_small :
    let screen := (smallStage defaultHubOptions).authority.room.view.map utf16Units
    let room := (@run sampleHost (smallStage defaultHubOptions) (smallWork.take 4)).authority.room
    ∃ bridge shown,
      (room.bridge "p-demo-bob" "page" 1 screen.known (unixTime 6)).2 = .ok bridge ∧
      bridge.changes.length = 3 ∧ bridge.changes.foldlM Screen.apply screen = .ok shown ∧
      shown.Reads room.view := by
  intro screen room
  have created := @Led.created sampleHost _ (fun _ _ _ => True) _ rfl small_started
  obtain ⟨texts, onward⟩ := smallAbsence_onward
  obtain ⟨bridge, answered, bridged, long, spared⟩ := smallAbsence_bridge
  have behind := @behind_of_shows sampleHost _ _ _ _ created
    (Room.Recollects.shows (@Led.recollects sampleHost _ _ _ _ created))
  obtain ⟨shown, passage, reads⟩ := @bridge_complete sampleHost _ _ _ screen
    ⟨_, View.reads _, @Behind.onward sampleHost _ _ _ _ _ _ behind onward⟩ "p-demo-bob" "page" 1
    (unixTime 6) bridge answered bridged spared
  exact ⟨bridge, shown, answered, long, passage.foldlM, reads⟩

end Stage

end Oxbin.Live
