import Oxbin.Live.Life
import Oxbin.Live.Presence
import Oxbin.Livecollab.Selections

/-!
# Cursors of older revisions

A client sends its cursor with the revision that it has seen.  The server carries it over the
changes that it has accepted since.
-/

namespace Oxbin.Live

open Livecollab Storage

namespace Room

/-- `mapSelection` carries the selections of the document into the result. -/
theorem mapSelection_spec {set : ChangeSet} (formed : set.WellFormed) (selection : SelectionRange) :
    (selection.Within set.oldLen ∧ ∃ mapped, mapSelection selection set = some mapped ∧
      mapped.Within set.newLen) ∨
    ¬selection.Within set.oldLen ∧ mapSelection selection set = none := by
  by_cases empty : selection.anchor = selection.head
  · obtain ⟨anchor, head⟩ := selection
    cases empty
    rw [mapSelection, if_pos rfl]
    rcases formed.nonneg.mapPos_spec anchor 1 with
      ⟨low, high, mapped, carried, bounds⟩ | ⟨out, lost⟩
    · rw [carried]
      exact .inl ⟨⟨⟨low, high⟩, low, high⟩, _, rfl, bounds, bounds⟩
    · rw [lost]
      exact .inr ⟨fun within => out within.1, rfl⟩
  · rw [mapSelection, if_neg empty]
    exact selection.map_spec formed.nonneg

/-- The changes since a revision carry exactly the selections of its text, and into the last
text. -/
theorem mapPresence_within {texts : Texts} {version revision : Int}
    {history : List DocumentHistory} (retained : RetainedFrom texts version history)
    (formed : HistoryFormed history) (below : revision ≤ version + history.length)
    (selection : SelectionRange) :
    (∃ mapped, mapPresence revision history selection = some mapped ∧
      mapped.Within (utf16Len (texts (version + history.length)))) ↔
      selection.Within (utf16Len (texts (max version revision))) := by
  induction history generalizing version selection with
  | nil =>
      rw [List.length_nil, Nat.cast_zero, Int.add_zero] at below
      rw [List.length_nil, Nat.cast_zero, Int.add_zero, max_eq_left below]
      simp [mapPresence]
  | cons entry history induction =>
      obtain ⟨⟨_, follows, _, applied⟩, rest⟩ := retained
      have entryFormed := formed entry List.mem_cons_self
      have restFormed : HistoryFormed history := fun other member => formed other (.tail _ member)
      rw [List.length_cons, Nat.cast_add, Nat.cast_one, Int.add_comm (history.length : Int),
        ← Int.add_assoc] at below
      have carried := fun selection => induction rest restFormed below selection
      rw [List.length_cons, Nat.cast_add, Nat.cast_one, Int.add_comm (history.length : Int),
        ← Int.add_assoc, mapPresence, follows]
      by_cases newer : version + 1 > revision
      · rw [if_pos newer, max_eq_left (by omega), ← ChangeSet.oldLen_of_apply applied]
        rw [max_eq_left (by omega), ← entryFormed.newLen_of_apply applied] at carried
        rcases mapSelection_spec entryFormed selection with
          ⟨within, mapped, moved, lands⟩ | ⟨out, lost⟩
        · rw [moved, Option.bind_some]
          exact iff_of_true ((carried mapped).mpr lands) within
        · rw [lost, Option.bind_none]
          refine iff_of_false ?_ out
          rintro ⟨_, image, _⟩
          cases image
      · rw [if_neg newer, carried, max_eq_right (by omega), max_eq_right (by omega)]

/-- There are no changes since the latest revision. -/
theorem mapPresence_latest {texts : Texts} {version revision : Int}
    {history : List DocumentHistory} (retained : RetainedFrom texts version history)
    (latest : version + history.length ≤ revision) (selection : SelectionRange) :
    mapPresence revision history selection = some selection := by
  induction history generalizing version with
  | nil => rfl
  | cons entry history induction =>
      obtain ⟨⟨_, follows, _⟩, rest⟩ := retained
      rw [List.length_cons, Nat.cast_add, Nat.cast_one] at latest
      rw [mapPresence, follows, if_neg (by omega)]
      exact induction rest (by omega)

section Cursor

variable {room : Room} {texts : Texts} {document : Document} {update : PresenceUpdate}

/-- A cursor is accepted exactly when it was in the text that its client has seen, and is then in
the text that there is. -/
theorem presenceCursor_spec (named : update.documentID ≠ "")
    (found : room.documents.lookup update.documentID = some document)
    (recalls : document.Recalls texts) (formed : HistoryFormed document.history)
    (above : document.compactedRevision ≤ update.revision)
    (below : update.revision ≤ document.snapshot.currentRevision) :
    ((⟨update.anchor, update.head⟩ : SelectionRange).Within (utf16Len (texts update.revision)) ∧
      ∃ mapped : SelectionRange, room.presenceCursor update = .ok (some ⟨update.documentID,
        document.snapshot.currentRevision, mapped.anchor, mapped.head⟩) ∧
        mapped.Within (utf16Len document.snapshot.content)) ∨
    ¬(⟨update.anchor, update.head⟩ : SelectionRange).Within (utf16Len (texts update.revision)) ∧
      room.presenceCursor update = .error .invalidPresence := by
  have current := recalls.current
  have carried := mapPresence_within recalls.retained formed
    (show update.revision ≤ _ by omega) ⟨update.anchor, update.head⟩
  rw [current, ← recalls.content, max_eq_right above] at carried
  have mapped : (if update.revision = document.snapshot.currentRevision then
      some (⟨update.anchor, update.head⟩ : SelectionRange)
      else mapPresence update.revision document.history ⟨update.anchor, update.head⟩) =
        mapPresence update.revision document.history ⟨update.anchor, update.head⟩ := by
    split
    case isTrue latest => exact (mapPresence_latest recalls.retained (by omega) _).symm
    case isFalse => rfl
  unfold presenceCursor
  rw [if_neg named, found]
  simp only [mapped]
  rw [if_neg (by omega)]
  cases image : mapPresence update.revision document.history ⟨update.anchor, update.head⟩ with
  | none =>
      rw [image] at carried
      refine .inr ⟨fun within => ?_, rfl⟩
      obtain ⟨_, image, _⟩ := carried.mpr within
      cases image
  | some selection =>
      rw [image] at carried
      simp only [Option.some.injEq, exists_eq_left'] at carried
      rw [← carried]
      by_cases within : selection.Within (utf16Len document.snapshot.content)
      · have inside := within
        unfold SelectionRange.Within at inside
        dsimp only
        rw [if_neg (by omega)]
        exact .inl ⟨within, selection, rfl, within⟩
      · have outside := within
        unfold SelectionRange.Within at outside
        dsimp only
        rw [if_pos (by omega)]
        exact .inr ⟨within, rfl⟩

end Cursor

theorem presenceCursor_congr {room room' : Room} (documents : room'.documents = room.documents)
    (update : PresenceUpdate) : room'.presenceCursor update = room.presenceCursor update := by
  unfold presenceCursor
  rw [documents]

/-- The room is open, the connection is live and the tab that the update names exists. -/
structure Hears (room : Room) (participantID connectionID : String) (generation : Nat)
    (update : PresenceUpdate) (now : Time) : Prop where
  isOpen : room.Open now
  holds : room.Holds participantID connectionID generation
  tab : update.currentTab = "" ∨ update.currentTab ∈ room.documents

section Updates

variable {room : Room} {participantID connectionID : String} {generation : Nat}
  {update : PresenceUpdate} {now : Time}

/-- An update with a cursor that is accepted stores it. -/
theorem updatePresence_accepted (rostered : room.Rostered)
    (hears : room.Hears participantID connectionID generation update now)
    {cursor : CursorSelection} (accepted : room.presenceCursor update = .ok (some cursor)) :
    ∃ snapshot tab,
      (room.updatePresence participantID connectionID generation update now).2 = .ok snapshot ∧
      (room.updatePresence participantID connectionID generation update now).1.place participantID
        connectionID = some (tab, some cursor) := by
  have entry := updatePresence_entry rostered participantID connectionID generation update now
  generalize room.updatePresence participantID connectionID generation update now = outcome
    at entry ⊢
  cases entry with
  | past past => exact absurd hears.isOpen past
  | gone gone => exact absurd hears.holds gone
  | untabbed room' _ _ touched _ absent =>
      rw [documents_of_shared touched.shared] at absent
      exact (hears.tab.elim absent.1 absent.2).elim
  | refused room' _ _ touched _ _ _ _ _ _ error refused =>
      rw [presenceCursor_congr (documents_of_shared touched.shared), accepted] at refused
      cases refused
  | accepted room' _ _ touched rostered' participant connection present found _ cursor' accepted'
      participant' same =>
      rw [presenceCursor_congr (documents_of_shared touched.shared), accepted] at accepted'
      cases accepted'
      have keyed := (rostered' _ participant present).connections _ connection found
      refine ⟨_, (visit update connection).currentTab, rfl, ?_⟩
      rw [place, Keyed.lookup_insert_if, if_pos rfl, Option.bind_some, same,
        Participant.refresh_connections, Keyed.lookup_insert_if, visit_id, keyed, if_pos rfl]
      rfl

/-- An update with a cursor that is refused fails. -/
theorem updatePresence_refused (rostered : room.Rostered) {error : LiveError}
    (refused : room.presenceCursor update = .error error) :
    (∃ error',
      (room.updatePresence participantID connectionID generation update now).2 = .error error') ∧
    (room.Hears participantID connectionID generation update now →
      (room.updatePresence participantID connectionID generation update now).2 = .error error) := by
  have entry := updatePresence_entry rostered participantID connectionID generation update now
  generalize room.updatePresence participantID connectionID generation update now = outcome
    at entry ⊢
  cases entry with
  | past past => exact ⟨⟨_, rfl⟩, fun hears => absurd hears.isOpen past⟩
  | gone gone => exact ⟨⟨_, rfl⟩, fun hears => absurd hears.holds gone⟩
  | untabbed room' _ _ touched _ absent =>
      rw [documents_of_shared touched.shared] at absent
      exact ⟨⟨_, rfl⟩, fun hears => (hears.tab.elim absent.1 absent.2).elim⟩
  | refused room' _ _ touched _ _ _ _ _ _ error' refused' =>
      rw [presenceCursor_congr (documents_of_shared touched.shared), refused] at refused'
      cases refused'
      exact ⟨⟨_, rfl⟩, fun _ => rfl⟩
  | accepted room' _ _ touched _ _ _ _ _ _ _ accepted =>
      rw [presenceCursor_congr (documents_of_shared touched.shared), refused] at accepted
      cases accepted

end Updates

end Room

namespace Stage

/-- A cursor in the text of a revision that the document still reaches is carried into the text
that the document has, and every other cursor is rejected. -/
theorem presence_rebased [Host] {options : HubOptions} {stage : Stage} {annals : Annals}
    (lived : Lived options stage annals) {update : PresenceUpdate} {document : Document}
    (found : stage.authority.room.documents.lookup update.documentID = some document)
    (above : document.compactedRevision ≤ update.revision)
    (below : update.revision ≤ document.snapshot.currentRevision)
    (participantID connectionID : String) (generation : Nat) (now : Time) :
    let outcome := stage.authority.room.updatePresence participantID connectionID generation update
      now
    let within := (⟨update.anchor, update.head⟩ : SelectionRange).Within
      (utf16Len (annals update.documentID update.revision))
    let hears := stage.authority.room.Hears participantID connectionID generation update now
    (within → hears → ∃ snapshot tab anchor head, outcome.2 = .ok snapshot ∧
      outcome.1.place participantID connectionID = some (tab, some ⟨update.documentID,
        document.snapshot.currentRevision, anchor, head⟩) ∧
      (0 ≤ anchor ∧ anchor ≤ utf16Len document.snapshot.content) ∧
      0 ≤ head ∧ head ≤ utf16Len document.snapshot.content) ∧
    (¬within → (∃ error, outcome.2 = .error error) ∧
      (hears → outcome.2 = .error .invalidPresence)) := by
  have rostered := lived.reachable.rostered
  have recalls := lived.recollects _ document found
  have formed := lived.settled.consistent.formed.documents _ document found
  have named : update.documentID ≠ "" := by
    rw [← formed.keyed]
    exact (require_eq_ok.mp formed.valid.id).1
  rcases Room.presenceCursor_spec named found recalls formed.history above below with
    ⟨within, mapped, accepted, lands⟩ | ⟨out, refused⟩
  · refine ⟨fun _ hears => ?_, fun out => absurd within out⟩
    obtain ⟨snapshot, tab, answered, stored⟩ := Room.updatePresence_accepted rostered hears accepted
    exact ⟨snapshot, tab, mapped.anchor, mapped.head, answered, stored, lands⟩
  · exact ⟨fun within => absurd within out, fun _ => Room.updatePresence_refused rostered refused⟩

/-- A participant writes at the end of the document of the small room. -/
def smallWriting : Action where
  call := .request (smallSession "ann" "page" 1 false) (.submitDocument
    ⟨"op", "ann", "main", 0, ⟨[⟨2, -1, ""⟩, ⟨0, 1, "c"⟩]⟩⟩)
  now := unixTime 3
  fault := false

/-- A cursor at the end of the document as it was. -/
def lateUpdate : PresenceUpdate where
  currentTab := ""
  documentID := "main"
  revision := 0
  anchor := 2
  head := 2

/-- A participant writes behind its cursor. -/
theorem presence_rebased_small :
    let written := (@run sampleHost (smallStage defaultHubOptions)
      [smallJoin "ann" "page" [] 2, smallWriting]).authority.room
    let outcome := written.updatePresence "p-demo-ann" "page" 1 lateUpdate (unixTime 4)
    ∃ snapshot tab anchor head, outcome.2 = .ok snapshot ∧
      outcome.1.place "p-demo-ann" "page" = some (tab, some ⟨"main", 1, anchor, head⟩) ∧
      (0 ≤ anchor ∧ anchor ≤ utf16Len "abc") ∧ 0 ≤ head ∧ head ≤ utf16Len "abc" := by
  have created := @Led.created sampleHost _ (fun _ _ _ => True) _ rfl small_started
  have joined := @Led.step sampleHost _ _ _ _ (smallJoin "ann" "page" [] 2) created trivial
    (fun _ call => nomatch call) trivial
  have possible : smallWriting.Possible (@step sampleHost (smallStage defaultHubOptions)
      (smallJoin "ann" "page" [] 2)).issued :=
    ⟨by decide +kernel, .arr [.num 2, .arr [.num 0, .str "c"]], by decide +kernel⟩
  have lived := @Led.step sampleHost _ _ _ _ _ joined possible (fun _ call => nomatch call) trivial
  have written : ((@run sampleHost (smallStage defaultHubOptions)
      [smallJoin "ann" "page" [] 2, smallWriting]).authority.room.documents.lookup "main").map
        (fun document => (document.compactedRevision, document.snapshot.currentRevision,
          document.snapshot.content)) = some (0, 1, "abc") := by decide +kernel
  obtain ⟨document, found, same⟩ := Option.map_eq_some_iff.mp written
  rw [Prod.mk.injEq, Prod.mk.injEq] at same
  obtain ⟨compacted, revision, content⟩ := same
  have carried := (@presence_rebased sampleHost _ _ _ lived lateUpdate document found
    compacted.le (revision ▸ by decide) "p-demo-ann" "page" 1 (unixTime 4)).1 (by decide +kernel)
      ⟨⟨by decide +kernel, by decide +kernel⟩, by decide +kernel, .inl rfl⟩
  rw [revision, content] at carried
  exact carried

end Stage

end Oxbin.Live
