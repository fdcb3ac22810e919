import Oxbin.Live.Handles
import Oxbin.Live.Hub

/-!
# Who owns a slug

The sessions that `JoinWithIdentity` has returned belong to the room object that the hub has under
the slug.  A shutdown takes the object out of the hub before it closes it.
-/

namespace Oxbin.Live.Hub

open Livecollab Storage

section Owner

variable [Host] {options : HubOptions} {hub : Hub} {object : Nat} {room : Room}

omit [Host] in
/-- Somebody is in an open room that has one of its connections. -/
theorem inside_of_holds (isOpen : room.closed = false) {session : Session}
    (holds : room.Holds session.participant session.connectionID session.generation) :
    ¬room.Deserted := by
  obtain ⟨participant, connection, present, found, generation⟩ := holds
  rintro (closed | empty)
  · exact Bool.noConfusion (isOpen.symm.trans closed)
  · cases (empty session.participant).symm.trans present

/-- Once a shutdown has begun, somebody is only in rooms that it is about to close. -/
theorem Reached.draining (reached : Reached options hub) (closed : hub.closed = true)
    (present : hub.objects[object]? = some room) (inside : ¬room.Deserted) :
    hub.Draining object := by
  rcases reached.safe.keeps present inside with ⟨slug, found⟩ | draining
  · rw [reached.sound.cleared closed] at found
    cases found
  · exact draining

end Owner

/-! ## A small hub -/

/-- Ann is about to join the small room, which the hub has loaded. -/
def smallLoaded : Hub where
  store := smallStore
  objects := [(smallAuthority defaultHubOptions).room]
  rooms := (∅ : Keyed Nat).insert "demo" 0
  closed := false
  tasks := [.joining "demo" 0 (smallIdentity "ann" "page") ⟨[], true⟩ (fun _ => none) (unixTime 2)]

/-- Ann has joined the small room. -/
def smallEntered : Hub :=
  (@act sampleHost smallLoaded 0 (smallAuthority defaultHubOptions).room
    (smallJoin "ann" "page" [] 2)).goOn 0 .returned

theorem smallEntered_reached : @Reached sampleHost defaultHubOptions smallEntered := by
  have loaded : @Step sampleHost defaultHubOptions ⟨smallStore, [], ∅, false, []⟩ none
      smallLoaded :=
    @Step.load sampleHost _ _ "demo" (smallIdentity "ann" "page") ⟨[], true⟩ (fun _ => none)
      (unixTime 2) false smallSnapshot .none smallStore (smallAuthority defaultHubOptions).room rfl
      (by decide +kernel) (by decide +kernel) rfl rfl rfl rfl
  have entered : @Step sampleHost defaultHubOptions smallLoaded (some 0) smallEntered := by
    have answered : admits (@Authority.perform sampleHost ⟨(smallAuthority defaultHubOptions).room,
        smallLoaded.store⟩ (smallJoin "ann" "page" [] 2)).2 = true := by decide +kernel
    have step := @Step.enter sampleHost defaultHubOptions smallLoaded 0 "demo" 0
      (smallIdentity "ann" "page") ⟨[], true⟩ (fun _ => none) (unixTime 2)
      (smallAuthority defaultHubOptions).room rfl rfl (smallJoin "ann" "page" [] 2) rfl _ rfl
    rwa [if_pos answered, afterJoin_of_admits answered] at step
  have kept : smallLoaded.Keeps 0 := by
    refine ⟨.inl ⟨"demo", rfl⟩, ?_⟩
    rintro ⟨task, member, doomed⟩
    rw [List.mem_singleton.mp member] at doomed
    cases doomed
  have reached := @Reached.step sampleHost _ _ _ _
    (@Reached.newHub sampleHost defaultHubOptions smallStore) loaded (by nofun)
  exact @Reached.step sampleHost _ _ _ _ reached entered
    fun object entering => Option.some.inj entering ▸ kept

/-- A shutdown has begun while Ann is in the room. -/
def smallClosing : Hub :=
  { smallEntered with
    closed := true, rooms := ∅, tasks := smallEntered.tasks ++ [.closing (unixTime 3) [0]] }

theorem smallClosing_reached : @Reached sampleHost defaultHubOptions smallClosing := by
  have step : @Step sampleHost defaultHubOptions smallEntered none smallClosing :=
    @Step.shutdown sampleHost _ _ (unixTime 3) [0] rfl (by decide +kernel)
  exact @Reached.step sampleHost _ _ _ _ smallEntered_reached step (by nofun)

end Oxbin.Live.Hub
