import Oxbin.Transform.Rebase

/-!
# The star protocol

One authority keeps the log of accepted edits of a document.  A peer edits its own copy at once,
submits its first pending edit with the version that it knows, and receives the log in order.  The
authority rebases a submission over the part of the log that its author had not seen; the author
meanwhile rebases its pending edits over the same part.  Both compute the same edit.
-/

namespace Oxbin.Transform

universe u v w

/-- The submission of a peer. -/
inductive Slot (Edit : Type v) where
  | idle
  /-- The edit was submitted at a version and the authority has not decided on it. -/
  | inFlight (base : Nat) (edit : Edit)
  /-- The edit is in the log and the peer has not received it. -/
  | accepted

/-- The copy of one peer. -/
structure Peer (Doc : Type u) (Edit : Type v) where
  /-- The length of the received part of the log. -/
  version : Nat
  /-- The document that the received part of the log makes. -/
  synced : Doc
  /-- The document that the peer shows. -/
  text : Doc
  /-- The own edits that are not acknowledged. -/
  pending : List Edit
  slot : Slot Edit

/-- The authority and its peers. -/
structure Star (Doc : Type u) (Edit : Type v) (Client : Type w) where
  start : Doc
  log : List (Client × Edit)
  peers : Client → Option (Peer Doc Edit)

namespace Star

open Rebasing

variable {Doc : Type u} {Edit : Type v} {Client : Type w}

/-- The accepted edits. -/
def edits (star : Star Doc Edit Client) : List Edit := star.log.map Prod.snd

/-- Replace the copy of a peer. -/
def setPeer [DecidableEq Client] (star : Star Doc Edit Client) (client : Client)
    (peer : Peer Doc Edit) : Star Doc Edit Client :=
  { star with peers := Function.update star.peers client (some peer) }

/-- A peer receives an edit: its own one acknowledges the first pending edit, every other one is
rebased over the pending edits. -/
inductive Receives (system : Rebasing Doc Edit) (client author : Client) (edit : Edit) :
    Peer Doc Edit → Peer Doc Edit → Prop
  | own {peer : Peer Doc Edit} {first : Edit} {rest : List Edit} (same : author = client)
      (pending : peer.pending = first :: rest) :
      Receives system client author edit peer {
        version := peer.version + 1, synced := system.act edit peer.synced
        text := peer.text, pending := rest, slot := .idle }
  | foreign {peer : Peer Doc Edit} {queue : List Edit} {edit' : Edit}
      (other : author = client → peer.pending = [])
      (rebased : system.rebaseQueue edit peer.pending = some (queue, edit')) :
      Receives system client author edit peer {
        version := peer.version + 1, synced := system.act edit peer.synced
        text := system.act edit' peer.text, pending := queue, slot := peer.slot }

theorem peers_setPeer [DecidableEq Client] (star : Star Doc Edit Client) (client other : Client)
    (peer : Peer Doc Edit) : (star.setPeer client peer).peers other =
      if other = client then some peer else star.peers other := by
  simp [setPeer, Function.update_apply]

/-- The steps of the protocol. -/
inductive Step [DecidableEq Client] (system : Rebasing Doc Edit) :
    Star Doc Edit Client → Star Doc Edit Client → Prop
  /-- A peer copies the current document. -/
  | join {star : Star Doc Edit Client} {client : Client} (absent : star.peers client = none) :
      Step system star (star.setPeer client {
        version := star.log.length, synced := system.run star.edits star.start
        text := system.run star.edits star.start, pending := [], slot := .idle })
  /-- A peer edits its own copy. -/
  | edit {star : Star Doc Edit Client} {client : Client} {peer : Peer Doc Edit} {edit : Edit}
      (present : star.peers client = some peer) (valid : system.Valid edit peer.text) :
      Step system star (star.setPeer client { peer with
        text := system.act edit peer.text, pending := peer.pending ++ [edit] })
  /-- A peer submits its first pending edit. -/
  | submit {star : Star Doc Edit Client} {client : Client} {peer : Peer Doc Edit} {first : Edit}
      {rest : List Edit} (present : star.peers client = some peer) (idle : peer.slot = .idle)
      (pending : peer.pending = first :: rest) :
      Step system star (star.setPeer client { peer with slot := .inFlight peer.version first })
  /-- The authority accepts a submission. -/
  | accept {star : Star Doc Edit Client} {client : Client} {peer : Peer Doc Edit} {base : Nat}
      {edit edit' : Edit} (present : star.peers client = some peer)
      (inFlight : peer.slot = .inFlight base edit)
      (rebased : system.belowAll edit (star.edits.drop base) = some edit') :
      Step system star ({ star with log := star.log ++ [(client, edit')] }.setPeer client
        { peer with slot := .accepted })
  /-- The authority refuses a submission. -/
  | refuse {star : Star Doc Edit Client} {client : Client} {peer : Peer Doc Edit} {base : Nat}
      {edit : Edit} (present : star.peers client = some peer)
      (inFlight : peer.slot = .inFlight base edit) :
      Step system star (star.setPeer client { peer with slot := .idle })
  /-- A peer receives the next edit of the log. -/
  | deliver {star : Star Doc Edit Client} {client author : Client} {peer peer' : Peer Doc Edit}
      {edit : Edit} (present : star.peers client = some peer)
      (next : star.log[peer.version]? = some (author, edit))
      (receives : Receives system client author edit peer peer') :
      Step system star (star.setPeer client peer')

/-- The stars that a protocol run reaches from a star without peers. -/
inductive Reachable [DecidableEq Client] (system : Rebasing Doc Edit) (start : Doc) :
    Star Doc Edit Client → Prop
  | init : Reachable system start { start, log := [], peers := fun _ => none }
  | step {star star' : Star Doc Edit Client} (reachable : Reachable system start star)
      (step : Step system star star') : Reachable system start star'

/-! ## The invariant -/

/-- No entry is by the client. -/
def Foreign (client : Client) (log : List (Client × Edit)) : Prop :=
  ∀ entry ∈ log, entry.1 ≠ client

/-- What the slot of a peer says about the log and the pending edits. -/
inductive SlotAgrees (system : Rebasing Doc Edit) (log : List (Client × Edit))
    (client : Client) (peer : Peer Doc Edit) : Prop
  | idle (slot : peer.slot = .idle) (foreign : Foreign client (log.drop peer.version))
  | inFlight (base : Nat) (edit first : Edit) (rest : List Edit)
      (slot : peer.slot = .inFlight base edit) (base_le : base ≤ peer.version)
      (foreign : Foreign client (log.drop base)) (pending : peer.pending = first :: rest)
      (rebased : system.belowAll edit (((log.map Prod.snd).take peer.version).drop base) =
        some first)
  | accepted (before after : List (Client × Edit)) (edit first : Edit) (rest : List Edit)
      (slot : peer.slot = .accepted)
      (remaining : log.drop peer.version = before ++ (client, edit) :: after)
      (foreignBefore : Foreign client before) (foreignAfter : Foreign client after)
      (pending : peer.pending = first :: rest)
      (rebased : system.belowAll first (before.map Prod.snd) = some edit)

/-- The copy of a peer agrees with the log. -/
structure PeerAgrees (system : Rebasing Doc Edit) (start : Doc) (log : List (Client × Edit))
    (client : Client) (peer : Peer Doc Edit) : Prop where
  version_le : peer.version ≤ log.length
  synced : peer.synced = system.run ((log.map Prod.snd).take peer.version) start
  pending : system.ValidAll peer.pending peer.synced
  text : peer.text = system.run peer.pending peer.synced
  slot : SlotAgrees system log client peer

/-- The log is a sequence of edits of the start document and every peer agrees with it. -/
structure Invariant (system : Rebasing Doc Edit) (star : Star Doc Edit Client) : Prop where
  log : system.ValidAll star.edits star.start
  peers : ∀ client peer, star.peers client = some peer →
    PeerAgrees system star.start star.log client peer

variable {system : Rebasing Doc Edit} {start : Doc} {log : List (Client × Edit)}
  {client author : Client} {peer : Peer Doc Edit}

@[simp] theorem foreign_nil : Foreign client ([] : List (Client × Edit)) := by
  simp [Foreign]

theorem foreign_cons {entry : Client × Edit} :
    Foreign client (entry :: log) ↔ entry.1 ≠ client ∧ Foreign client log :=
  List.forall_mem_cons

theorem foreign_append {left right : List (Client × Edit)} :
    Foreign client (left ++ right) ↔ Foreign client left ∧ Foreign client right :=
  List.forall_mem_append

theorem Foreign.drop_of_le {base version : Nat} (foreign : Foreign client (log.drop base))
    (base_le : base ≤ version) : Foreign client (log.drop version) := by
  intro entry member
  apply foreign entry
  rw [← Nat.add_sub_cancel' base_le, ← List.drop_drop] at member
  exact List.mem_of_mem_drop member

/-- The invariant about one peer that changes and a log that may grow. -/
theorem Invariant.setPeer [DecidableEq Client] {star : Star Doc Edit Client}
    (invariant : Invariant system star)
    (agrees : PeerAgrees system star.start star.log client peer) :
    Invariant system (star.setPeer client peer) where
  log := invariant.log
  peers other peer' present := by
    rw [peers_setPeer] at present
    split at present
    case isTrue same =>
      cases same
      cases present
      exact agrees
    case isFalse => exact invariant.peers other peer' present

/-! ## A peer and a longer log -/

/-- The entry of another client changes nothing for a peer that has not received it. -/
theorem PeerAgrees.append (agrees : PeerAgrees system start log client peer)
    {edit : Edit} (other : author ≠ client) :
    PeerAgrees system start (log ++ [(author, edit)]) client peer where
  version_le := by
    rw [List.length_append]
    exact Nat.le_add_right_of_le agrees.version_le
  synced := by
    rw [agrees.synced, List.map_append, List.take_append_of_le_length]
    simpa using agrees.version_le
  pending := agrees.pending
  text := agrees.text
  slot := by
    have last : Foreign client [(author, edit)] := foreign_cons.mpr ⟨other, foreign_nil⟩
    cases agrees.slot with
    | idle slot foreign =>
        refine .idle slot ?_
        rw [List.drop_append_of_le_length agrees.version_le]
        exact foreign_append.mpr ⟨foreign, last⟩
    | inFlight base submitted first rest slot base_le foreign pending rebased =>
        refine .inFlight base submitted first rest slot base_le ?_ pending ?_
        · rw [List.drop_append_of_le_length (Nat.le_trans base_le agrees.version_le)]
          exact foreign_append.mpr ⟨foreign, last⟩
        · rw [List.map_append, List.take_append_of_le_length, rebased]
          simpa using agrees.version_le
    | accepted before after own first rest slot remaining foreignBefore foreignAfter pending
        rebased =>
        refine .accepted before (after ++ [(author, edit)]) own first rest slot ?_ foreignBefore
          (foreign_append.mpr ⟨foreignAfter, last⟩) pending rebased
        rw [List.drop_append_of_le_length agrees.version_le, remaining, List.append_assoc]
        rfl

/-- The authority computes the rebased submission, and it fits the current document. -/
theorem PeerAgrees.submission (agrees : PeerAgrees system start log client peer)
    (valid : system.ValidAll (log.map Prod.snd) start) {base : Nat} {edit : Edit}
    (inFlight : peer.slot = .inFlight base edit) :
    ∃ first rest edit', peer.pending = first :: rest ∧
      system.belowAll edit ((log.map Prod.snd).drop base) = some edit' ∧
      system.belowAll first ((log.map Prod.snd).drop peer.version) = some edit' ∧
      Foreign client (log.drop peer.version) ∧
      system.Valid edit' (system.run (log.map Prod.snd) start) := by
  cases agrees.slot with
  | idle slot => rw [inFlight] at slot; cases slot
  | accepted _ _ _ _ _ slot => rw [inFlight] at slot; cases slot
  | inFlight base' submitted first rest slot base_le foreign pending rebased =>
      rw [inFlight] at slot
      cases slot
      have parts := List.take_append_drop peer.version (log.map Prod.snd)
      have validParts := valid
      rw [← parts, validAll_append, ← agrees.synced] at validParts
      have firstValid := agrees.pending
      rw [pending] at firstValid
      obtain ⟨edit', moved, fits⟩ := system.belowAll_spec firstValid.1 validParts.2
      refine ⟨first, rest, edit', pending, ?_, moved, foreign.drop_of_le base_le, ?_⟩
      · rw [← parts, List.drop_append_of_le_length, belowAll_append, rebased]
        · exact moved
        · rw [List.length_take, List.length_map]
          exact Nat.le_min.mpr ⟨base_le, Nat.le_trans base_le agrees.version_le⟩
      · rw [← parts, run_append, ← agrees.synced]
        exact fits

/-! ## A peer that receives an edit -/

/-- The part of the log that a peer has not received, after the next entry. -/
theorem drop_of_next {version : Nat} {entry : Client × Edit}
    (next : log[version]? = some entry) : log.drop version = entry :: log.drop (version + 1) := by
  obtain ⟨bound, rfl⟩ := List.getElem?_eq_some_iff.mp next
  exact List.drop_eq_getElem_cons bound

theorem take_of_next {version : Nat} {edit : Edit} (next : log[version]? = some (author, edit)) :
    (log.map Prod.snd).take (version + 1) = (log.map Prod.snd).take version ++ [edit] := by
  rw [List.take_add_one, List.getElem?_map, next]
  rfl

/-- The next entry of the log is the own edit of a peer exactly if the peer waits for it and no
other entry comes first. -/
theorem SlotAgrees.next (agrees : SlotAgrees system log client peer) {edit : Edit}
    (next : log[peer.version]? = some (author, edit)) :
    author ≠ client ∨
      ∃ rest, peer.pending = edit :: rest ∧ Foreign client (log.drop (peer.version + 1)) := by
  have remaining := drop_of_next next
  cases agrees with
  | idle slot foreign =>
      rw [remaining, foreign_cons] at foreign
      exact .inl foreign.1
  | inFlight base submitted first rest slot base_le foreign pending rebased =>
      have later := foreign.drop_of_le base_le
      rw [remaining, foreign_cons] at later
      exact .inl later.1
  | accepted before after own first rest slot split foreignBefore foreignAfter pending rebased =>
      rw [remaining] at split
      cases before with
      | nil =>
          cases split
          cases rebased
          exact .inr ⟨rest, pending, foreignAfter⟩
      | cons entry before =>
          obtain ⟨rfl, _⟩ := List.cons.inj split
          exact .inl (foreign_cons.mp foreignBefore).1

/-- The slot of a peer after an edit of another client. -/
theorem SlotAgrees.receive (agrees : SlotAgrees system log client peer) {edit : Edit}
    {synced text : Doc} {queue : List Edit} (next : log[peer.version]? = some (author, edit))
    (version_le : peer.version ≤ log.length) (other : author ≠ client)
    (head : queue.head? = peer.pending.head?.bind (system.below · edit))
    (length : queue.length = peer.pending.length) :
    SlotAgrees system log client
      { version := peer.version + 1, synced, text, pending := queue, slot := peer.slot } := by
  have remaining := drop_of_next next
  have moves {first : Edit} {rest : List Edit} (pending : peer.pending = first :: rest) :
      ∃ first' rest', queue = first' :: rest' ∧ system.below first edit = some first' := by
    rw [pending] at length
    obtain ⟨first', rest', shape⟩ := List.exists_cons_of_length_eq_add_one length
    refine ⟨first', rest', shape, ?_⟩
    rw [shape, pending] at head
    exact head.symm
  cases agrees with
  | idle slot foreign =>
      rw [remaining, foreign_cons] at foreign
      exact .idle slot foreign.2
  | inFlight base submitted first rest slot base_le foreign pending rebased =>
      obtain ⟨first', rest', shape, moved⟩ := moves pending
      refine .inFlight base submitted first' rest' slot (Nat.le_succ_of_le base_le) foreign
        shape ?_
      rw [take_of_next next, List.drop_append_of_le_length, belowAll_append, rebased]
      · rw [Option.bind_some, belowAll_cons, moved]
        rfl
      · rw [List.length_take, List.length_map]
        exact Nat.le_min.mpr ⟨base_le, Nat.le_trans base_le version_le⟩
  | accepted before after own first rest slot split foreignBefore foreignAfter pending rebased =>
      obtain ⟨first', rest', shape, moved⟩ := moves pending
      rw [remaining] at split
      cases before with
      | nil =>
          cases split
          exact absurd rfl other
      | cons entry before =>
          obtain ⟨rfl, later⟩ := List.cons.inj split
          refine .accepted before after own first' rest' slot later
            (foreign_cons.mp foreignBefore).2 foreignAfter shape ?_
          rw [List.map_cons, belowAll_cons, moved] at rebased
          exact rebased

/-- A peer that receives the next entry of the log still agrees with it. -/
theorem PeerAgrees.receive (agrees : PeerAgrees system start log client peer)
    (valid : system.ValidAll (log.map Prod.snd) start) {edit : Edit} {peer' : Peer Doc Edit}
    (next : log[peer.version]? = some (author, edit))
    (receives : Receives system client author edit peer peer') :
    PeerAgrees system start log client peer' := by
  have version_le : peer.version + 1 ≤ log.length := (List.getElem?_eq_some_iff.mp next).1
  have synced : system.act edit peer.synced =
      system.run ((log.map Prod.snd).take (peer.version + 1)) start := by
    rw [take_of_next next, run_append, ← agrees.synced]
    rfl
  cases receives with
  | @own first rest same pending =>
      obtain other | ⟨rest', pending', foreign⟩ := agrees.slot.next next
      · exact absurd same other
      · rw [pending] at pending'
        cases pending'
        have queue := agrees.pending
        rw [pending] at queue
        refine ⟨version_le, synced, queue.2, ?_, .idle rfl foreign⟩
        rw [agrees.text, pending]
        rfl
  | @foreign queue edit' otherwise rebased =>
      have other : author ≠ client := by
        obtain other | ⟨rest, pending, _⟩ := agrees.slot.next next
        · exact other
        · intro same
          rw [otherwise same] at pending
          cases pending
      have fits : system.Valid edit peer.synced := by
        rw [← List.take_append_drop (peer.version + 1) (log.map Prod.snd), take_of_next next,
          validAll_append, validAll_append, ← agrees.synced] at valid
        exact valid.1.2.1
      obtain ⟨queue', edit'', equation, validQueue, _, meet, head, length⟩ :=
        system.rebaseQueue_spec fits agrees.pending
      rw [rebased] at equation
      cases equation
      refine ⟨version_le, synced, validQueue, ?_, ?_⟩
      · rw [meet, agrees.text]
      · exact agrees.slot.receive next (Nat.le_of_succ_le version_le) other head length

/-! ## Every step -/

/-- The invariant holds without peers. -/
theorem invariant_init (system : Rebasing Doc Edit) (start : Doc) :
    Invariant system ({ start, log := [], peers := fun _ => none } : Star Doc Edit Client) where
  log := ⟨⟩
  peers := by simp

theorem SlotAgrees.append_pending (agrees : SlotAgrees system log client peer) (edit : Edit)
    (text : Doc) : SlotAgrees system log client
      { peer with text, pending := peer.pending ++ [edit] } := by
  cases agrees with
  | idle slot foreign => exact .idle slot foreign
  | inFlight base submitted first rest slot base_le foreign pending rebased =>
      exact .inFlight base submitted first (rest ++ [edit]) slot base_le foreign
        (by simp [pending]) rebased
  | accepted before after own first rest slot split foreignBefore foreignAfter pending rebased =>
      exact .accepted before after own first (rest ++ [edit]) slot split foreignBefore
        foreignAfter (by simp [pending]) rebased

/-- A peer whose slot is idle or in flight has not a single entry in the rest of the log. -/
theorem SlotAgrees.foreign (agrees : SlotAgrees system log client peer)
    (open_ : peer.slot ≠ .accepted) : Foreign client (log.drop peer.version) := by
  cases agrees with
  | idle _ foreign => exact foreign
  | inFlight base _ _ _ _ base_le foreign => exact foreign.drop_of_le base_le
  | accepted _ _ _ _ _ slot => exact absurd slot open_

/-- Every step preserves the invariant. -/
theorem Invariant.step [DecidableEq Client] {star star' : Star Doc Edit Client}
    (invariant : Invariant system star)
    (step : Step system star star') : Invariant system star' := by
  cases step with
  | @join client absent =>
      apply invariant.setPeer
      refine ⟨(Nat.le_refl _), ?_, ⟨⟩, rfl, .idle rfl ?_⟩
      · rw [List.take_of_length_le (by simp)]
        rfl
      · simp
  | @edit client peer edit present valid =>
      have agrees := invariant.peers client peer present
      apply invariant.setPeer
      refine ⟨agrees.version_le, agrees.synced, ?_, ?_, agrees.slot.append_pending edit _⟩
      · rw [agrees.text] at valid
        exact (validAll_append system).mpr ⟨agrees.pending, valid, ⟨⟩⟩
      · rw [agrees.text, run_append]
        rfl
  | @submit client peer first rest present idle pending =>
      have agrees := invariant.peers client peer present
      apply invariant.setPeer
      refine ⟨agrees.version_le, agrees.synced, agrees.pending, agrees.text, ?_⟩
      refine .inFlight peer.version first first rest rfl (Nat.le_refl _) ?_ pending ?_
      · exact agrees.slot.foreign (by simp [idle])
      · simp
  | @accept client peer base edit edit' present inFlight rebased =>
      have agrees := invariant.peers client peer present
      obtain ⟨first, rest, edit'', pending, moved, own, foreign, fits⟩ :=
        agrees.submission invariant.log inFlight
      rw [show star.log.map Prod.snd = star.edits from rfl, rebased] at moved
      cases moved
      refine ⟨?_, fun other peer' present' => ?_⟩
      · show system.ValidAll ((star.log ++ [(client, edit')]).map Prod.snd) star.start
        rw [List.map_append, validAll_append]
        exact ⟨invariant.log, fits, ⟨⟩⟩
      · rw [peers_setPeer] at present'
        split at present'
        case isTrue same =>
          cases same
          cases present'
          refine ⟨?_, ?_, agrees.pending, agrees.text, ?_⟩
          · exact Nat.le_trans agrees.version_le (by simp [Star.setPeer])
          · show peer.synced = system.run
              (((star.log ++ [(client, edit')]).map Prod.snd).take peer.version) star.start
            rw [agrees.synced, List.map_append, List.take_append_of_le_length]
            simpa using agrees.version_le
          · refine .accepted (star.log.drop peer.version) [] edit' first rest rfl ?_ foreign
              foreign_nil pending ?_
            · exact List.drop_append_of_le_length agrees.version_le
            · rw [List.map_drop]
              exact own
        case isFalse different =>
          exact (invariant.peers other peer' present').append (Ne.symm different)
  | @refuse client peer base edit present inFlight =>
      have agrees := invariant.peers client peer present
      apply invariant.setPeer
      exact ⟨agrees.version_le, agrees.synced, agrees.pending, agrees.text,
        .idle rfl (agrees.slot.foreign (by simp [inFlight]))⟩
  | @deliver client author peer peer' edit present next receives =>
      have agrees := invariant.peers client peer present
      exact invariant.setPeer (agrees.receive invariant.log next receives)

/-- The invariant holds in every run. -/
theorem Reachable.invariant [DecidableEq Client] {star : Star Doc Edit Client}
    (reachable : Reachable system start star) : Invariant system star := by
  induction reachable with
  | init => exact invariant_init system start
  | step _ step induction => exact induction.step step

end Star

end Oxbin.Transform
