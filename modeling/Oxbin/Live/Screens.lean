import Oxbin.Data.Pairing
import Oxbin.Data.Passage
import Oxbin.Live.Views
import Oxbin.Livecollab.Surrogates

/-!
# What browsers show

A browser keeps the code units of a text where the server keeps a string.  What it shows is read as
what the server has, and stays so as long as no change joins two halves of a surrogate pair that
were apart.
-/

namespace Oxbin.Live

open Livecollab

namespace Screen

variable {α β : Type}

/-! ## Edits -/

section Edits

variable [Content α] {accepted : AcceptedDocumentOperation}

theorem Tab.edit_next {tab : Tab α} {content : α} (own : accepted.documentID = tab.id)
    (next : accepted.revision = tab.revision + 1)
    (applied : Content.edit accepted.changes tab.content = .ok content) :
    tab.edit accepted = .ok { tab with content, revision := accepted.revision } := by
  unfold Tab.edit
  rw [if_neg (not_not.mpr own.symm), if_neg (not_not.mpr next), applied]
  rfl

/-- What a change does to a tab. -/
theorem Tab.edit_cases {tab tab' : Tab α} (edited : tab.edit accepted = .ok tab') :
    tab.id ≠ accepted.documentID ∧ tab' = tab ∨
      tab.id = accepted.documentID ∧ accepted.revision = tab.revision + 1 ∧
        ∃ content, Content.edit accepted.changes tab.content = .ok content ∧
          tab' = { tab with content, revision := accepted.revision } := by
  unfold Tab.edit at edited
  split at edited
  case isTrue other =>
    cases edited
    exact .inl ⟨other, rfl⟩
  case isFalse same =>
    split at edited
    case isTrue => cases edited
    case isFalse next =>
      cases applied : Content.edit accepted.changes tab.content with
      | error error =>
          rw [applied] at edited
          cases edited
      | ok content =>
          rw [applied] at edited
          cases edited
          exact .inr ⟨not_ne_iff.mp same, not_ne_iff.mp next, content, rfl, rfl⟩

theorem Tab.id_of_edit {tab tab' : Tab α} (edited : tab.edit accepted = .ok tab') :
    tab'.id = tab.id := by
  rcases Tab.edit_cases edited with ⟨_, rfl⟩ | ⟨_, _, _, _, rfl⟩ <;> rfl

/-- A change can be applied to every tab by itself. -/
theorem edit_of_tabs {tabs tabs' : List (Tab α)} {revision : Int}
    (wellFormed : accepted.changes.WellFormed)
    (each : List.Forall₂ (fun tab tab' => Tab.edit tab accepted = .ok tab') tabs tabs') :
    Screen.edit ⟨revision, tabs⟩ accepted = .ok ⟨revision, tabs'⟩ := by
  have edited : (tabs.mapM fun tab => tab.edit accepted) = .ok tabs' := by
    induction each with
    | nil => rfl
    | cons first _ induction =>
        rw [List.mapM_cons, first, induction]
        rfl
  rw [Screen.edit, if_pos wellFormed, edited]
  rfl

/-- What an operation on the metadata does to the tabs. -/
theorem arrange_ok {screen screen' : Screen α} {accepted : AcceptedMetadataOperation}
    (arranges : screen.arrange accepted = .ok screen') :
    accepted.revision = screen.metadataRevision + 1 ∧
      screen'.metadataRevision = accepted.revision ∧
      arranged screen.tabs accepted = some screen'.tabs := by
  unfold arrange at arranges
  split at arranges
  case isTrue => cases arranges
  case isFalse next =>
    split at arranges
    case h_1 => cases arranges
    case h_2 tabs found =>
      cases arranges
      exact ⟨not_not.mp next, rfl, found⟩

/-- What a change does to the tabs. -/
theorem edit_ok {screen screen' : Screen α} (edited : screen.edit accepted = .ok screen') :
    accepted.changes.WellFormed ∧ screen'.metadataRevision = screen.metadataRevision ∧
      List.Forall₂ (fun tab tab' => Tab.edit tab accepted = .ok tab') screen.tabs
        screen'.tabs := by
  unfold Screen.edit at edited
  split at edited
  case isTrue formed =>
    cases changed : screen.tabs.mapM fun tab : Tab α => tab.edit accepted with
    | error error =>
        rw [changed] at edited
        cases edited
    | ok tabs =>
        rw [changed] at edited
        cases edited
        exact ⟨formed, rfl, forall₂_of_mapM changed⟩
  case isFalse => cases edited

end Edits

/-! ## Reading the texts in another way -/

/-- A screen with its texts read in another way. -/
def map (read : α → β) (screen : Screen α) : Screen β :=
  ⟨screen.metadataRevision, screen.tabs.map (Tab.map read)⟩

theorem known_map (read : α → β) (screen : Screen α) : (screen.map read).known = screen.known := by
  unfold known map
  rw [List.map_map]
  rfl

section Map

variable [Content α] [Content β] {read : α → β}

/-- An operation on the metadata does not look at the texts. -/
theorem arranged_map (faithful : ∀ content, read (Content.read content) = Content.read content)
    (tabs : List (Tab α)) (accepted : AcceptedMetadataOperation) :
    arranged (tabs.map (Tab.map read)) accepted =
      (arranged tabs accepted).map (List.map (Tab.map read)) := by
  have ids : (tabs.map (Tab.map read)).map Tab.id = tabs.map Tab.id := by
    rw [List.map_map]
    rfl
  have fresh (document : DocumentState) :
      (document.tab.map Content.read : Tab β) = (document.tab.map Content.read).map read :=
    congrArg (fun content => { document.tab with content }) (faithful _).symm
  unfold arranged
  rw [ids]
  split
  · split
    · rfl
    · rw [Option.map_map]
      refine congrArg (fun make => Option.map make _) (funext fun document => ?_)
      rw [Function.comp_apply, List.map_append, fresh document]
      rfl
  · split
    · rfl
    · rw [Option.map_some, List.map_map, List.map_map]
      refine congrArg some (List.map_congr_left fun tab _ => ?_)
      rw [Function.comp_apply, Function.comp_apply]
      split
      case isTrue own => rw [if_pos (show tab.id = accepted.documentID from own)]; rfl
      case isFalse other => rw [if_neg (show tab.id ≠ accepted.documentID from other)]
  · split
    · rfl
    · rw [Option.map_some, List.filter_map]
      rfl
  · split
    · rfl
    · rw [Option.map_some, List.map_filterMap]
      refine congrArg some (List.filterMap_congr fun id _ => ?_)
      exact List.find?_map
  · rfl

theorem arrange_map (faithful : ∀ content, read (Content.read content) = Content.read content)
    (screen : Screen α) (accepted : AcceptedMetadataOperation) :
    (screen.map read).arrange accepted = (screen.arrange accepted).map (map read) := by
  have arranged_eq : arranged (screen.map read).tabs accepted =
      (arranged screen.tabs accepted).map (List.map (Tab.map read)) :=
    arranged_map faithful screen.tabs accepted
  have revision : (screen.map read).metadataRevision = screen.metadataRevision := rfl
  unfold arrange
  rw [arranged_eq, revision]
  split
  · rfl
  · cases arranged screen.tabs accepted <;> rfl

end Map

/-! ## Browsers and the server -/

/-- The server's reading of code units: lone surrogates become replacement characters. -/
def readText (units : List UInt16) : String := String.ofList (decode units)

theorem readText_utf16Units (content : String) : readText (utf16Units content) = content := by
  rw [readText, utf16Units, decode_encode, String.ofList_toList]

/-- What the browser shows is read as a view. -/
def Reads (screen : Screen (List UInt16)) (view : View) : Prop := screen.map readText = view

/-- The change joins no surrogates that are apart in the tab that it is for. -/
def Spares (screen : Screen (List UInt16)) : View.Change → Prop
  | .metadata _ => True
  | .document accepted => ∀ tab ∈ screen.tabs, tab.id = accepted.documentID →
      ¬accepted.changes.Rejoins tab.content

/-- No change joins surrogates that are apart when it is applied. -/
def Spared : Screen (List UInt16) → List View.Change → Prop
  | _, [] => True
  | screen, change :: changes => screen.Spares change ∧
      ∀ screen' ∈ (screen.apply change).toOption, Spared screen' changes

instance (screen : Screen (List UInt16)) : DecidablePred screen.Spares
  | .metadata _ => inferInstanceAs (Decidable True)
  | .document _ => inferInstanceAs (Decidable (∀ tab ∈ screen.tabs, _ → _))

instance decidableSpared : (changes : List View.Change) → (screen : Screen (List UInt16)) →
    Decidable (Spared screen changes)
  | [], _ => inferInstanceAs (Decidable True)
  | change :: changes, screen =>
      have := decidableSpared changes
      inferInstanceAs (Decidable (_ ∧ ∀ screen' ∈ (screen.apply change).toOption, _))

/-- A tab of the browser follows that of the server. -/
theorem Tab.edit_reads {tab : Tab (List UInt16)} {accepted : AcceptedDocumentOperation}
    (formed : accepted.changes.WellFormed)
    (spares : tab.id = accepted.documentID → ¬accepted.changes.Rejoins tab.content)
    {shown : View.Tab} (edited : (tab.map readText).edit accepted = .ok shown) :
    ∃ tab', tab.edit accepted = .ok tab' ∧ tab'.map readText = shown := by
  obtain ⟨other, rfl⟩ | ⟨own, next, content, applied, rfl⟩ := Tab.edit_cases edited
  · exact ⟨tab, if_pos other, rfl⟩
  · have mended : utf16Units (readText tab.content) = mend tab.content := by
      rw [readText, utf16Units, String.toList_ofList]
      rfl
    obtain ⟨units, written, rfl⟩ : ∃ units,
        accepted.changes.applyUnits (mend tab.content) = .ok units ∧ readText units = content := by
      change accepted.changes.apply (readText tab.content) = .ok content at applied
      rw [ChangeSet.apply, mended] at applied
      cases written : accepted.changes.applyUnits (mend tab.content) with
      | error error =>
          rw [written] at applied
          cases applied
      | ok units =>
          rw [written] at applied
          cases applied
          exact ⟨units, rfl, rfl⟩
    have covers : accepted.changes.oldLen = tab.content.length := by
      by_contra different
      rw [ChangeSet.applyUnits, length_mend, if_pos different] at written
      cases written
    rw [formed.applyUnits_eq (by rw [covers, length_mend])] at written
    cases written
    refine ⟨_, Tab.edit_next own.symm next (formed.applyUnits_eq covers), ?_⟩
    have same := mend_eq_iff.mp ((accepted.changes.mend_run tab.content).mpr (spares own))
    exact congrArg (fun content => (⟨tab.id, tab.name, tab.language, content,
      accepted.revision⟩ : View.Tab)) (congrArg String.ofList same.symm)

theorem tabs_edit_reads {tabs : List (Tab (List UInt16))} {shown : List View.Tab}
    {accepted : AcceptedDocumentOperation} (formed : accepted.changes.WellFormed)
    (spares : ∀ tab ∈ tabs, tab.id = accepted.documentID → ¬accepted.changes.Rejoins tab.content)
    (each : List.Forall₂ (fun tab tab' => (Tab.map readText tab).edit accepted = .ok tab') tabs
      shown) :
    ∃ tabs', List.Forall₂ (fun tab tab' => Tab.edit tab accepted = .ok tab') tabs tabs' ∧
      tabs'.map (Tab.map readText) = shown := by
  induction each with
  | nil => exact ⟨[], .nil, rfl⟩
  | @cons tab _ _ _ edited _ induction =>
      obtain ⟨tab', edited', rfl⟩ := Tab.edit_reads formed (spares tab List.mem_cons_self) edited
      obtain ⟨tabs', each', rfl⟩ := induction fun other member => spares other (.tail _ member)
      exact ⟨tab' :: tabs', .cons edited' each', rfl⟩

/-- A change that spares what the browser shows leads it to what is read as the view after it. -/
theorem Reads.apply {screen : Screen (List UInt16)} {view view' : View} {change : View.Change}
    (reads : screen.Reads view) (spares : screen.Spares change)
    (applied : view.apply change = .ok view') :
    ∃ screen', screen.apply change = .ok screen' ∧ screen'.Reads view' := by
  subst reads
  cases change with
  | metadata accepted =>
      rw [Screen.apply, arrange_map readText_utf16Units] at applied
      cases arranged : screen.arrange accepted with
      | error error =>
          rw [arranged] at applied
          cases applied
      | ok screen' =>
          rw [arranged] at applied
          exact ⟨screen', arranged, Except.ok.inj applied⟩
  | document accepted =>
      obtain ⟨formed, revision, each⟩ := edit_ok applied
      have tabs : (screen.map readText).tabs = screen.tabs.map (Tab.map readText) := rfl
      rw [tabs, List.forall₂_map_left_iff] at each
      obtain ⟨tabs', each', shown⟩ := tabs_edit_reads formed spares each
      refine ⟨⟨screen.metadataRevision, tabs'⟩, edit_of_tabs formed each', ?_⟩
      rw [Reads, map, shown]
      exact congrArg (Screen.mk · _) revision.symm

/-- The browser follows the views of a passage. -/
theorem Reads.passage {screen : Screen (List UInt16)} {view last : View} {kind : View → Prop}
    {changes : List View.Change} (reads : screen.Reads view) (spared : screen.Spared changes)
    (leads : Passage Screen.apply kind view changes last) :
    ∃ shown, Passage Screen.apply (fun screen => ∃ view, screen.Reads view ∧ kind view) screen
      changes shown ∧ shown.Reads last := by
  induction changes generalizing screen view with
  | nil => exact ⟨screen, rfl, leads ▸ reads⟩
  | cons change changes induction =>
      obtain ⟨view', applied, holds, leads⟩ := leads
      obtain ⟨screen', applied', reads'⟩ := reads.apply spared.1 applied
      obtain ⟨shown, passage, reads''⟩ :=
        induction reads' (spared.2 screen' (by rw [applied']; rfl)) leads
      exact ⟨shown, ⟨screen', applied', ⟨view', reads', holds⟩, passage⟩, reads''⟩

end Screen

/-- A browser that has just read what the server has shows it. -/
theorem View.reads (view : View) : (view.map utf16Units).Reads view := by
  obtain ⟨revision, tabs⟩ := view
  have read (tab : View.Tab) : (tab.map utf16Units).map Screen.readText = tab :=
    congrArg (fun content => { tab with content }) (Screen.readText_utf16Units _)
  rw [Screen.Reads, Screen.map, Screen.map, List.map_map]
  exact congrArg (Screen.mk revision) (List.map_id'' read tabs)

end Oxbin.Live
