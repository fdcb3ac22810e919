import Oxbin.Browser.Snapshots

/-!
# Reconciling an edit that was accepted unseen

A browser may learn from a snapshot that its first pending update was accepted.  It then applies
that update to the synchronised text itself, takes the difference to the snapshot for the edits of
others, and rebases its later updates over the difference.
-/

namespace Oxbin.Browser

open CodeMirror Transform

variable {α β : Type}

/-- `rebaseUpdates` over one change of somebody else. -/
def rebaseUpdates : List (Update α) → ChangeSet α → Option (List (Update α))
  | [], _ => some []
  | update :: updates, changes => do
      let updateChanges ← update.changes.map changes false
      let changes ← changes.map update.changes true
      let rebased ← rebaseUpdates updates changes
      some ({ update with changes := updateChanges } :: rebased)

/-- `rebaseAfterAcceptedSnapshot`; `none` stands for `undefined`. -/
def rebaseAfterAcceptedSnapshot (syncedContent snapshotContent : List UInt16) :
    List (Update UInt16) → Option (List (Update UInt16))
  | [] => some []
  | accepted :: later => do
      let afterAccepted ← applyLiveChanges syncedContent accepted.changes
      let authority ← diffLiveDocuments afterAccepted snapshotContent
      rebaseUpdates later authority

/-- Every update fits the text that the earlier ones leave. -/
def Chain : List (Update α) → List α → Prop
  | [], _ => True
  | update :: updates, text => update.changes.Fits text ∧ Chain updates (update.changes.run text)

/-- The text after a chain of updates. -/
def outcome (updates : List (Update α)) (text : List α) : List α :=
  updates.foldl (fun text update => update.changes.run text) text

/-- The same update over another alphabet. -/
def Update.rename (name : α → β) (update : Update α) : Update β where
  clientID := update.clientID
  changes := update.changes.rename name

/-- Letters without a label. -/
def unlabelled (text : List α) : List (α × Bool) := text.map fun letter => (letter, false)

/-! ## Chains -/

theorem validAll_iff {updates : List (Update α)} {text : List α} :
    (ChangeSet.system α).ValidAll (updates.map Update.changes) text ↔ Chain updates text := by
  induction updates generalizing text with
  | nil => exact Iff.rfl
  | cons update updates induction => exact and_congr_right fun _ => induction

/-- `rebaseUpdates` rebases the queue of a rebasing system. -/
theorem rebaseUpdates_eq {updates : List (Update α)} {changes changes' : ChangeSet α}
    {queue : List (ChangeSet α)} (rebased : (ChangeSet.system α).rebaseQueue changes
      (updates.map Update.changes) = some (queue, changes')) :
    ∃ updates', rebaseUpdates updates changes = some updates' ∧
      updates'.map Update.changes = queue := by
  induction updates generalizing changes queue with
  | nil =>
      cases rebased
      exact ⟨[], rfl, rfl⟩
  | cons update updates induction =>
      simp only [List.map_cons, Rebasing.rebaseQueue, Option.bind_eq_bind,
        Option.bind_eq_some_iff] at rebased
      obtain ⟨ours, below, theirs, above, ⟨queue', last⟩, rest, equality⟩ := rebased
      cases equality
      obtain ⟨updates', run, shape⟩ := induction rest
      refine ⟨{ update with changes := ours } :: updates', ?_, ?_⟩
      · have below' : update.changes.map changes false = some ours := below
        have above' : changes.map update.changes true = some theirs := above
        simp only [rebaseUpdates, below', above', run, Option.bind_eq_bind, Option.bind_some]
      · rw [List.map_cons, shape]

/-- Later updates can be rebased over every change of their text, and then form a chain again. -/
theorem rebaseUpdates_spec {updates : List (Update α)} {changes : ChangeSet α} {text : List α}
    (fits : changes.Fits text) (chain : Chain updates text) :
    ∃ rebased, rebaseUpdates updates changes = some rebased ∧
      rebased.length = updates.length ∧ Chain rebased (changes.run text) := by
  obtain ⟨queue, last, run, valid, _, _, _, length⟩ :=
    (ChangeSet.system α).rebaseQueue_spec fits (validAll_iff.mpr chain)
  obtain ⟨rebased, run', rfl⟩ := rebaseUpdates_eq run
  refine ⟨rebased, run', ?_, validAll_iff.mp valid⟩
  rwa [List.length_map, List.length_map] at length

/-! ## A snapshot without further edits -/

/-- A set that keeps all of a text, in at most one section. -/
def Idle (set : ChangeSet α) : Prop :=
  set = ⟨[]⟩ ∨ ∃ length, set = ⟨[⟨length, -1, []⟩]⟩

theorem Idle.isEmpty {set : ChangeSet α} (idle : Idle set) : set.isEmpty = true := by
  rcases idle with rfl | ⟨length, rfl⟩ <;> rfl

theorem idle_empty (length : Nat) : Idle (ChangeSet.empty length : ChangeSet α) := by
  unfold ChangeSet.empty
  split
  · exact .inl rfl
  · exact .inr ⟨length, rfl⟩

theorem Idle.addSection {set : ChangeSet α} (idle : Idle set) (length : Int) :
    Idle (addSection set length (-1) []) := by
  unfold CodeMirror.addSection
  split
  case isTrue => exact idle
  case isFalse =>
    rcases idle with rfl | ⟨length', rfl⟩
    · exact .inr ⟨length, rfl⟩
    · exact .inr ⟨length' + length, rfl⟩

/-- The iterator reads a set that keeps all of its text. -/
structure Keeps (iter : SectionIter α) : Prop where
  new_neg : iter.new < 0
  sections_neg : ∀ sect ∈ iter.set.sections, sect.newLen < 0

theorem Keeps.next {iter : SectionIter α} (keeps : ∀ sect ∈ iter.set.sections, sect.newLen < 0) :
    Keeps iter.next := by
  unfold SectionIter.next
  cases found : iter.set.sections[iter.index]? with
  | none => exact ⟨show (-2 : Int) < 0 by decide, keeps⟩
  | some sect => exact ⟨keeps sect (List.mem_of_getElem? found), keeps⟩

theorem Keeps.forward {iter : SectionIter α} (keeps : Keeps iter) (length : Int) :
    Keeps (iter.forward length) := by
  unfold SectionIter.forward
  split
  · exact .next keeps.sections_neg
  · exact ⟨keeps.new_neg, keeps.sections_neg⟩

theorem Keeps.coverChange {fuel : Nat} {length : Int} {state state' : MapState α}
    (keeps : Keeps state.a) (covered : coverChange fuel length state = some state') :
    Keeps state'.a ∧ state'.result = state.result := by
  induction fuel generalizing length state with
  | zero => cases covered
  | succ fuel induction =>
      have silent : ¬(0 ≤ state.a.new ∧ state.inserted < state.a.index ∧
          state.a.old ≤ min state.a.old length) := fun read =>
            absurd keeps.new_neg (not_lt.mpr read.1)
      simp only [CodeMirror.coverChange, if_neg silent] at covered
      split at covered
      case isTrue =>
        exact @induction _ { state with a := state.a.forward (min state.a.old length) }
          (keeps.forward _) covered
      case isFalse =>
        cases covered
        exact ⟨keeps, rfl⟩

theorem Idle.mapLoop {before : Bool} {fuel : Nat} {state : MapState α} {result : ChangeSet α}
    (idle : Idle state.result) (keeps : Keeps state.a)
    (mapped : mapLoop before fuel state = some result) : Idle result := by
  induction fuel generalizing state with
  | zero => cases mapped
  | succ fuel induction =>
      have unchanged : ¬0 ≤ state.a.new := not_le.mpr keeps.new_neg
      simp only [CodeMirror.mapLoop, if_neg unchanged] at mapped
      split at mapped
      case isTrue => cases mapped
      split at mapped
      case isTrue => exact induction (idle.addSection _) (keeps.forward _) mapped
      split at mapped
      case isTrue =>
        split at mapped
        case h_1 => cases mapped
        case h_2 state' covered =>
          obtain ⟨keeps', result_eq⟩ : Keeps state'.a ∧
              state'.result = CodeMirror.addSection state.result state.b.newLength (-1) [] := by
            refine Keeps.coverChange ?_ covered
            exact keeps
          refine induction ?_ ?_ mapped
          · rw [result_eq]
            exact idle.addSection _
          · exact keeps'
      split at mapped
      case isTrue =>
        cases mapped
        exact idle
      case isFalse => cases mapped

theorem Idle.map {set other result : ChangeSet α} {before : Bool} (idle : Idle set)
    (mapped : set.map other before = some result) : Idle result := by
  unfold ChangeSet.map at mapped
  split at mapped
  case isTrue =>
    cases mapped
    exact idle
  case isFalse =>
    refine Idle.mapLoop (.inl rfl) (.next fun sect member => ?_) mapped
    rcases idle with rfl | ⟨length, rfl⟩
    · cases member
    · cases List.mem_singleton.mp member
      exact show (-1 : Int) < 0 by decide

/-- Updates rebased over a change that keeps the whole text are left as they are. -/
theorem Idle.rebaseUpdates {updates : List (Update α)} {changes : ChangeSet α} {text : List α}
    (idle : Idle changes) (fits : changes.Fits text) (chain : Chain updates text) :
    rebaseUpdates updates changes = some updates := by
  induction updates generalizing changes text with
  | nil => rfl
  | cons update updates induction =>
      obtain ⟨first, rest⟩ := chain
      have kept : update.changes.map changes false = some update.changes := if_pos idle.isEmpty
      obtain ⟨changes', mapped, fits', _⟩ := ChangeSet.map_spec fits first true
      simp only [Browser.rebaseUpdates, kept, mapped, induction (idle.map mapped) fits' rest,
        Option.bind_eq_bind, Option.bind_some]

/-! ## Unsent text -/

theorem rename_rename {γ : Type} (name : α → β) (name' : β → γ) (set : ChangeSet α) :
    (set.rename name).rename name' = set.rename fun letter => name' (name letter) := by
  simp only [ChangeSet.rename, List.map_map, Function.comp_def]

theorem rename_id (set : ChangeSet α) : (set.rename fun letter => letter) = set := by
  refine ChangeSet.ext ?_
  refine (List.map_congr_left fun sect _ => ?_).trans (List.map_id _)
  rw [List.map_id']
  rfl

/-- Drop the label of a letter. -/
def blank (letter : α × Bool) : α × Bool := (letter.1, false)

/-- A set that stays the same without labels writes no labelled letter. -/
theorem unlabelled_of_rename {set : ChangeSet (α × Bool)} (plain : set.rename blank = set) :
    Unlabelled Prod.snd set.atoms := by
  intro rank word member
  rw [← plain, ChangeSet.atoms_rename] at member
  obtain ⟨atom, _, equality⟩ := List.mem_map.mp member
  cases atom with
  | keep => cases equality
  | drop => cases equality
  | text rank' word' =>
      cases equality
      rw [List.filter_eq_nil_iff]
      intro letter written
      obtain ⟨letter', _, rfl⟩ := List.mem_map.mp written
      simp [blank]

/-- The change of others spares the labelled letters. -/
structure Foreign (changes : ChangeSet (α × Bool)) (text : List (α × Bool)) : Prop where
  fits : changes.Fits text
  plain : changes.rename blank = changes
  filter_eq : (changes.run text).filter Prod.snd = text.filter Prod.snd

theorem Foreign.spares {changes : ChangeSet (α × Bool)} {text : List (α × Bool)}
    (foreign : Foreign changes text) : Spares Prod.snd changes.atoms text :=
  ⟨unlabelled_of_rename foreign.plain, foreign.fits.width_eq, foreign.filter_eq⟩

/-- Mapped over an update, the change of others still spares the labelled letters. -/
theorem Foreign.map {changes changes' update : ChangeSet (α × Bool)} {text : List (α × Bool)}
    (foreign : Foreign changes text) (fits : update.Fits text)
    (mapped : changes.map update true = some changes') : Foreign changes' (update.run text) := by
  obtain ⟨result, mapped', fits', writes⟩ := ChangeSet.map_spec foreign.fits fits true
  rw [mapped] at mapped'
  cases mapped'
  refine ⟨fits', ?_, ?_⟩
  · have renamed := ChangeSet.map_rename blank (fun letter => letter) foreign.fits fits true
    rw [foreign.plain, rename_id, mapped, Option.map_some] at renamed
    exact (Option.some.inj renamed).symm
  · rw [writes]
    exact foreign.spares.filter_weave true fits.width_eq

/-- Rebased over a change of others, updates leave the labelled letters that they left before. -/
theorem Foreign.rebaseUpdates {updates : List (Update (α × Bool))}
    {changes : ChangeSet (α × Bool)} {text : List (α × Bool)} (foreign : Foreign changes text)
    (chain : Chain updates text) :
    ∃ rebased, rebaseUpdates updates changes = some rebased ∧
      (outcome rebased (changes.run text)).filter Prod.snd =
        (outcome updates text).filter Prod.snd := by
  induction updates generalizing changes text with
  | nil => exact ⟨[], rfl, foreign.filter_eq⟩
  | cons update updates induction =>
      obtain ⟨fits, rest⟩ := chain
      obtain ⟨ours, below, _, writes⟩ := ChangeSet.map_spec fits foreign.fits false
      obtain ⟨theirs, above, _, writes'⟩ := ChangeSet.map_spec foreign.fits fits true
      obtain ⟨rebased, run, filter_eq⟩ := induction (foreign.map fits above) rest
      refine ⟨{ update with changes := ours } :: rebased, ?_, ?_⟩
      · simp only [Browser.rebaseUpdates, below, above, run, Option.bind_eq_bind, Option.bind_some]
      · have meet : ours.run (changes.run text) = theirs.run (update.changes.run text) := by
          rw [writes, writes', weave_symm]
          rfl
        rw [outcome, List.foldl_cons, meet]
        exact filter_eq

theorem chain_rename (name : α → β) {updates : List (Update α)} {text : List α} :
    Chain (updates.map (Update.rename name)) (text.map name) ↔ Chain updates text := by
  induction updates generalizing text with
  | nil => exact Iff.rfl
  | cons update updates induction =>
      rw [List.map_cons, Chain, Chain, Update.rename, ChangeSet.fits_rename, ChangeSet.run_rename,
        induction]

/-- Rebasing does not depend on what the letters are. -/
theorem rebaseUpdates_rename (name : α → β) {updates : List (Update α)} {changes : ChangeSet α}
    {text : List α} (fits : changes.Fits text) (chain : Chain updates text) :
    rebaseUpdates (updates.map (Update.rename name)) (changes.rename name) =
      (rebaseUpdates updates changes).map (List.map (Update.rename name)) := by
  induction updates generalizing changes text with
  | nil => rfl
  | cons update updates induction =>
      obtain ⟨first, rest⟩ := chain
      obtain ⟨ours, below, _⟩ := ChangeSet.map_spec first fits false
      obtain ⟨theirs, above, fits', _⟩ := ChangeSet.map_spec fits first true
      have below' := ChangeSet.map_rename name name first fits false
      have above' := ChangeSet.map_rename name name fits first true
      have later := induction fits' rest
      rw [below, Option.map_some] at below'
      rw [above, Option.map_some] at above'
      simp only [List.map_cons, rebaseUpdates, Update.rename, below, below', above, above',
        Option.bind_eq_bind, Option.bind_some]
      rw [later]
      cases rebaseUpdates updates theirs <;> rfl

/-! ## Reconciling -/

/-- For every synchronised text, chain of pending updates and snapshot: the later updates are
rebased to as many updates, a chain from the snapshot.  If the snapshot is the result of the
accepted update, they are unchanged and lead to the text of the browser.  In any case, whichever
letters of the later updates are labelled, the labelled letters that these updates leave are those
of the replayed text. -/
theorem accepted_edit_reconciled {synced snapshot : List UInt16} {accepted : Update UInt16}
    {later : List (Update UInt16)} (chain : Chain (accepted :: later) synced)
    (clean : carriageReturn ∉ snapshot) :
    ∃ authority rebased,
      diffLiveDocuments (accepted.changes.run synced) snapshot = some authority ∧
      rebaseAfterAcceptedSnapshot synced snapshot (accepted :: later) = some rebased ∧
      rebased.length = later.length ∧ Chain rebased snapshot ∧
      (accepted.changes.apply synced = some snapshot →
        rebased = later ∧ replay rebased snapshot = replay (accepted :: later) synced) ∧
      ∀ labelled : List (Update (UInt16 × Bool)), labelled.map (Update.rename Prod.fst) = later →
        ∃ labelled', rebaseUpdates labelled (authority.rename fun unit => (unit, false)) =
            some labelled' ∧ labelled'.map (Update.rename Prod.fst) = rebased ∧
          (outcome labelled' (unlabelled snapshot)).filter Prod.snd =
            (outcome labelled (unlabelled (accepted.changes.run synced))).filter Prod.snd := by
  obtain ⟨first, rest⟩ := chain
  obtain ⟨authority, front, old, new, back, made, difference, fits, writes⟩ :=
    diffLiveDocuments_spec (accepted.changes.run synced) snapshot
  have exact_eq : authority.run (accepted.changes.run synced) = snapshot := by
    rw [writes, breakLines_eq_self_iff.mpr, ← difference.after_eq]
    intro member
    exact clean (by rw [difference.after_eq]; simp [member])
  obtain ⟨rebased, run, length_eq, chain'⟩ := rebaseUpdates_spec fits rest
  rw [exact_eq] at chain'
  refine ⟨authority, rebased, made, ?_, length_eq, chain', fun same => ?_, fun labelled forget =>
    ?_⟩
  · rw [rebaseAfterAcceptedSnapshot, applyLiveChanges_eq first]
    simp only [made, Option.bind_eq_bind, Option.bind_some, run]
  · rw [first.apply_eq, Option.some.injEq] at same
    rw [diffLiveDocuments, if_pos same, Option.some.injEq] at made
    subst made
    rw [(idle_empty _).rebaseUpdates fits rest, Option.some.injEq] at run
    subst run
    refine ⟨rfl, ?_⟩
    rw [replay, replay, List.foldlM_cons, first.apply_eq, same]
    rfl
  · have fits' : (authority.rename fun unit => (unit, false)).Fits
        (unlabelled (accepted.changes.run synced)) := (ChangeSet.fits_rename _).mpr fits
    have run_eq : (authority.rename fun unit => (unit, false)).run
        (unlabelled (accepted.changes.run synced)) = unlabelled snapshot := by
      rw [unlabelled, ChangeSet.run_rename, exact_eq]
      rfl
    have silent (text : List UInt16) : (unlabelled text).filter Prod.snd = [] := by
      simp [unlabelled]
    have forget_text : (unlabelled (accepted.changes.run synced)).map Prod.fst =
        accepted.changes.run synced := by
      simp [unlabelled, Function.comp_def]
    have forget_set : (authority.rename fun unit => (unit, false)).rename Prod.fst = authority := by
      rw [rename_rename]
      exact rename_id authority
    have foreign : Foreign (authority.rename fun unit => (unit, false))
        (unlabelled (accepted.changes.run synced)) := by
      refine ⟨fits', rename_rename _ _ _, ?_⟩
      rw [run_eq, silent, silent]
    have chainLabelled : Chain labelled (unlabelled (accepted.changes.run synced)) := by
      rw [← chain_rename Prod.fst, forget, forget_text]
      exact rest
    obtain ⟨labelled', run', filter_eq⟩ := foreign.rebaseUpdates chainLabelled
    rw [run_eq] at filter_eq
    refine ⟨labelled', run', ?_, filter_eq⟩
    have forgotten := rebaseUpdates_rename Prod.fst fits' chainLabelled
    rw [forget, forget_set, run, run', Option.map_some, Option.some.injEq] at forgotten
    exact forgotten.symm

/-- Two letters are written one after the other, and somebody else writes between them. -/
theorem accepted_edit_reconciled_small :
    ∃ rebased, rebaseAfterAcceptedSnapshot [97] [97, 98, 99]
        [⟨"ann", ⟨[⟨1, -1, []⟩, ⟨0, 1, [98]⟩]⟩⟩, ⟨"ann", ⟨[⟨2, -1, []⟩, ⟨0, 1, [100]⟩]⟩⟩] =
          some rebased ∧ rebased.length = 1 ∧ Chain rebased [97, 98, 99] := by
  have chain : Chain [⟨"ann", ⟨[⟨1, -1, []⟩, ⟨0, 1, [98]⟩]⟩⟩,
      ⟨"ann", ⟨[⟨2, -1, []⟩, ⟨0, 1, [100]⟩]⟩⟩] ([97] : List UInt16) :=
    ⟨⟨by decide, by decide⟩, ⟨by decide, by decide⟩, trivial⟩
  obtain ⟨_, rebased, _, run, length_eq, chain', _⟩ :=
    @accepted_edit_reconciled [97] [97, 98, 99] _ _ chain (by decide)
  exact ⟨rebased, run, length_eq, chain'⟩

end Oxbin.Browser
