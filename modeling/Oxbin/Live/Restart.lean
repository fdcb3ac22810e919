import Oxbin.Live.Creation
import Oxbin.Live.Permissions

/-!
# Restarting a room

A room that is discarded at any moment and loaded again is the room that it was: its documents,
revisions, modes and operation ledger are those that memory held.
-/

namespace Oxbin.Live

open Livecollab Storage

namespace Authority

theorem Started.consistent {options : HubOptions} {authority : Authority}
    (started : Started options authority) :
    authority.room.Consistent authority.store ∧ authority.room.options = options := by
  cases started with
  | created store created snapshot loaded fault now authority create read load =>
      exact Room.Consistent.created create read load

/-- A method of a session takes a step of the room. -/
theorem request_step [Host] {authority : Authority} {issued : List Session} {session : Session}
    {request : Request} {now : Time} {fault : Bool}
    (possible : Action.Possible issued ⟨.request session request, now, fault⟩) :
    ∃ event, Step authority event (authority.request session now fault request).1 := by
  cases request with
  | submitDocument operation =>
      obtain ⟨json, parsed⟩ := possible.2
      exact ⟨_, .document authority _ _ _ operation json parsed now fault⟩
  | applyMetadata operation generator =>
      exact ⟨_, .metadata authority _ _ _ operation generator now fault⟩
  | updatePresence update =>
      exact ⟨_, .roster authority _ (Room.updatePresence_shared _ _ _ _ _ _)⟩
  | rename name => exact ⟨_, .roster authority _ (Room.rename_shared _ _ _ _ _ _)⟩
  | heartbeat => exact ⟨_, .roster authority _ (Room.ensureConnection_shared _ _ _ _ _)⟩
  | disconnect => exact ⟨_, .roster authority _ (Room.disconnect_shared _ _ _ _ _)⟩
  | setWatchOnly enabled => exact ⟨_, .watchOnly authority _ _ _ _ enabled now fault⟩
  | setLayoutPreset preset => exact ⟨_, .layoutPreset authority _ _ _ _ preset now fault⟩

theorem join_step [Host] (authority : Authority) (identity : JoinIdentity)
    (capability : CreatorCapability) (candidate : Nat → Option String) (now : Time) :
    ∃ event, Step authority event (authority.join identity capability candidate now).1 := by
  unfold join
  split
  case h_1 => exact ⟨_, .roster authority authority.room rfl⟩
  case h_2 => exact ⟨_, .roster authority _ (Room.join_shared _ _ _ _ _)⟩

/-- Joins and methods of sessions take a run of the room on. -/
theorem Run.actions [Host] {start : Authority} {events : List Event} {stage : Stage}
    (run : Run start events stage.authority) {actions : List Action}
    (possible : stage.Possible actions)
    (called : ∀ action ∈ actions, (∃ session request, action.call = .request session request) ∨
      ∃ identity capability candidate, action.call = .join identity capability candidate) :
    ∃ later, Run start (events ++ later) (stage.run actions).authority := by
  induction actions generalizing events stage with
  | nil => exact ⟨[], by rwa [List.append_nil]⟩
  | cons action actions induction =>
      obtain ⟨event, step⟩ : ∃ event, Step stage.authority event
          (stage.authority.perform action).1 := by
        obtain ⟨call, now, fault⟩ := action
        rcases called _ List.mem_cons_self with ⟨session, request, same⟩ |
          ⟨identity, capability, candidate, same⟩
        · cases same
          exact request_step possible.1
        · cases same
          exact stage.authority.join_step identity capability candidate now
      obtain ⟨later, run⟩ := @induction (events ++ [event]) (stage.step action)
        (.snoc events stage.authority event _ run step) possible.2 fun other member =>
          called other (.tail _ member)
      refine ⟨event :: later, ?_⟩
      rwa [List.append_assoc, List.singleton_append] at run

/-- Loading the room from the store gives the authority state that memory holds. -/
theorem restart_refines [Host] {options : HubOptions} {start authority : Authority}
    {events : List Event} (started : Started options start) (run : Run start events authority)
    {now : Time} (alive : unix now < unix authority.room.snapshot.expiresAt) :
    ∃ snapshot room', Storage.Store.getRoomSnapshot authority.store
        authority.room.snapshot.slug now false = .ok snapshot ∧
      Room.newRoom authority.store snapshot options .none = (authority.store, .ok room') ∧
      room'.authority = authority.room.authority := by
  obtain ⟨consistent, same⟩ := started.consistent
  have options' := run.options consistent
  obtain ⟨formed, tables, found, stored⟩ := run.consistent consistent
  obtain ⟨snapshot, room', read, loaded, formed', stored', _⟩ := stored.reload formed found alive
  rw [options', same] at loaded
  exact ⟨snapshot, room', read, loaded, stored'.authority_eq stored formed' formed⟩

/-- What the work in the small room has led to. -/
theorem smallWork_done :
    let worked := (@Stage.run sampleHost (smallStage smallOptions) Stage.smallWork).authority
    (((worked.room.documents.lookup "main").map fun document =>
          (document.snapshot.content, document.snapshot.currentRevision,
            document.compactedRevision)) = some ("abcc", 2, 2) ∧
        worked.room.order = ["main", "notes"] ∧ worked.room.snapshot.layoutPreset = "columns" ∧
        worked.room.watchOnly = true ∧ worked.room.operationOrder = ["op-1", "op-2", "op-3"]) ∧
      worked.room.snapshot.slug = "demo" ∧ unix worked.room.snapshot.expiresAt = 100 := by
  decide +kernel

/-- The small room at work: its text, its documents, its mode and its ledger survive a restart. -/
theorem restart_refines_small :
    let worked := (@Stage.run sampleHost (smallStage smallOptions) Stage.smallWork).authority
    (((worked.room.documents.lookup "main").map fun document =>
          (document.snapshot.content, document.snapshot.currentRevision,
            document.compactedRevision)) = some ("abcc", 2, 2) ∧
        worked.room.order = ["main", "notes"] ∧ worked.room.snapshot.layoutPreset = "columns" ∧
        worked.room.watchOnly = true ∧ worked.room.operationOrder = ["op-1", "op-2", "op-3"]) ∧
      ∃ snapshot room', Storage.Store.getRoomSnapshot worked.store "demo" (unixTime 9) false =
          .ok snapshot ∧
        Room.newRoom worked.store snapshot smallOptions .none = (worked.store, .ok room') ∧
        room'.authority = worked.room.authority := by
  obtain ⟨done, slug, expiresAt⟩ := smallWork_done
  obtain ⟨events, run⟩ := @Run.actions sampleHost _ [] (smallStage smallOptions)
    (@Run.nil sampleHost _) _ Stage.smallWork_possible (by simp [Stage.smallWork, smallJoin,
      Stage.smallRequest])
  have restarts := @restart_refines sampleHost _ _ _ _ smallWork_started run (unixTime 9) (by
    rw [expiresAt]
    decide)
  rw [slug] at restarts
  exact ⟨done, restarts⟩

end Authority

end Oxbin.Live
