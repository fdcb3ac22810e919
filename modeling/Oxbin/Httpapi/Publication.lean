import Mathlib.Logic.Relation
import Oxbin.Data.Processes

/-!
# The publication registry

`livePublicationRegistry` of `internal/httpapi/live_publication.go` keeps one mutex for each room
that some call of `lock` uses.  The statements of the calls and of the unlock functions that they
return interleave in any order; a statement that takes a mutex waits until the mutex is free.
-/

namespace Oxbin.Httpapi

/-- `livePublicationRoom`; `mu` is the call that holds the mutex. -/
structure PublicationRoom where
  mu : Option Nat := none
  refs : Int := 0

/-- A call of `lock`, continued by its unlock function: the statement that comes next, with the
variables in scope. -/
inductive PublicationCall where
  /-- `registry.mu.Lock()` of `lock`. -/
  | enter (slug : String)
  /-- The lookup of the room, and its creation if there is none. -/
  | find (slug : String)
  /-- `room.refs++`. -/
  | retain (slug : String) (room : Nat)
  /-- `registry.mu.Unlock()` of `lock`. -/
  | leave (slug : String) (room : Nat)
  /-- `room.mu.Lock()`. -/
  | wait (slug : String) (room : Nat)
  /-- The call has returned, and `room.mu.Unlock()` is the first statement of the unlock
  function. -/
  | hold (slug : String) (room : Nat)
  /-- `registry.mu.Lock()` of the unlock function. -/
  | reenter (slug : String) (room : Nat)
  /-- `room.refs--`. -/
  | release (slug : String) (room : Nat)
  /-- The deletion of a room without references. -/
  | clear (slug : String) (room : Nat)
  /-- `registry.mu.Unlock()` of the unlock function. -/
  | exit
  | done
  deriving DecidableEq

/-- `livePublicationRegistry`, with the memory of the rooms and the calls made so far.  Rooms are
known by their address, and `next` is the next free one. -/
structure PublicationRegistry where
  mu : Option Nat
  rooms : String → Option Nat
  heap : Nat → PublicationRoom
  next : Nat
  calls : List PublicationCall

namespace PublicationCall

/-- The call is between locking and unlocking `registry.mu`. -/
def guards : PublicationCall → Bool
  | find _ | retain _ _ | release _ _ | leave _ _ | clear _ _ | exit => true
  | _ => false

/-- The slug of the call and the room that it found or made there, as long as it relies on it. -/
def entry : PublicationCall → Option (String × Nat)
  | retain slug room | leave slug room | wait slug room | hold slug room | reenter slug room
  | release slug room | clear slug room => some (slug, room)
  | _ => none

/-- The room that counts the call in its references. -/
def counted : PublicationCall → Option Nat
  | leave _ room | wait _ room | hold _ room | reenter _ room | release _ room => some room
  | _ => none

/-- The room whose mutex the call holds. -/
def held : PublicationCall → Option Nat
  | hold _ room => some room
  | _ => none

end PublicationCall

namespace PublicationRegistry

/-- `newLivePublicationRegistry`. -/
def new : PublicationRegistry where
  mu := none
  rooms := fun _ => none
  heap := fun _ => {}
  next := 0
  calls := []

variable (registry : PublicationRegistry) (index : Nat)

/-- Somebody calls `lock`. -/
def lock (slug : String) : PublicationRegistry :=
  { registry with calls := registry.calls ++ [.enter slug] }

/-- The call goes on to another statement. -/
def goto (call : PublicationCall) : PublicationRegistry :=
  { registry with calls := registry.calls.set index call }

/-- Change a room in memory. -/
def modify (room : Nat) (change : PublicationRoom → PublicationRoom) : PublicationRegistry :=
  { registry with heap := Function.update registry.heap room (change (registry.heap room)) }

/-- A new room for a slug. -/
def create (slug : String) : PublicationRegistry :=
  { registry with
    rooms := Function.update registry.rooms slug (some registry.next)
    heap := Function.update registry.heap registry.next {}
    next := registry.next + 1 }

/-- The next statement of a call; none if the mutex that it takes is not free. -/
def advance : Option PublicationRegistry :=
  match registry.calls[index]? with
  | none | some .done => none
  | some (.enter slug) =>
      if registry.mu = none then
        some ({ registry with mu := some index }.goto index (.find slug))
      else none
  | some (.find slug) =>
      match registry.rooms slug with
      | some room => some (registry.goto index (.retain slug room))
      | none => some ((registry.create slug).goto index (.retain slug registry.next))
  | some (.retain slug room) =>
      some ((registry.modify room fun entry => { entry with refs := entry.refs + 1 }).goto index
        (.leave slug room))
  | some (.leave slug room) => some ({ registry with mu := none }.goto index (.wait slug room))
  | some (.wait slug room) =>
      if (registry.heap room).mu = none then
        some ((registry.modify room fun entry => { entry with mu := some index }).goto index
          (.hold slug room))
      else none
  | some (.hold slug room) =>
      some ((registry.modify room fun entry => { entry with mu := none }).goto index
        (.reenter slug room))
  | some (.reenter slug room) =>
      if registry.mu = none then
        some ({ registry with mu := some index }.goto index (.release slug room))
      else none
  | some (.release slug room) =>
      some ((registry.modify room fun entry => { entry with refs := entry.refs - 1 }).goto index
        (.clear slug room))
  | some (.clear slug room) =>
      if (registry.heap room).refs = 0 then
        some ({ registry with rooms := Function.update registry.rooms slug none }.goto index .exit)
      else some (registry.goto index .exit)
  | some .exit => some ({ registry with mu := none }.goto index .done)

/-! ## The invariant -/

theorem heap_modify (room other : Nat) (change : PublicationRoom → PublicationRoom) :
    (registry.modify room change).heap other =
      if other = room then change (registry.heap room) else registry.heap other :=
  Function.update_apply _ _ _ _

/-- What holds between the registry and its calls after any number of statements. -/
structure Sound : Prop where
  /-- The registry is locked by the call inside of it. -/
  guarded : Owned registry.mu registry.calls fun call => call.guards = true
  /-- A room is locked by the call that holds it. -/
  held : ∀ room, Owned (registry.heap room).mu registry.calls fun call => call.held = some room
  /-- A room counts the calls that rely on it. -/
  counted : ∀ room, Counts (registry.heap room).refs registry.calls fun call =>
    call.counted = some room
  /-- The rooms of the registry are those that some call uses. -/
  listed : Lists registry.rooms registry.calls PublicationCall.entry
  /-- A room is made once and for one slug. -/
  fresh : ∀ slug room, registry.rooms slug = some room → room < registry.next
  single : ∀ slug slug' room, registry.rooms slug = some room → registry.rooms slug' = some room →
    slug = slug'

theorem sound_new : new.Sound where
  guarded := .of_outside fun _ member => nomatch member
  held _ := .of_outside fun _ member => nomatch member
  counted _ := rfl
  listed := .nil
  fresh _ _ listed := nomatch listed
  single _ _ _ listed := nomatch listed

namespace Sound

variable {registry index} {registry' : PublicationRegistry} {before after : PublicationCall}

/-- A new call has no part in the registry yet. -/
theorem lock (sound : registry.Sound) (slug : String) : (registry.lock slug).Sound where
  guarded := sound.guarded.push (by simp [PublicationCall.guards])
  held room := (sound.held room).push (by simp [PublicationCall.held])
  counted room := (sound.counted room).push (by simp [PublicationCall.counted])
  listed := sound.listed.push rfl
  fresh := sound.fresh
  single := sound.single

/-- A call uses a room of the registry. -/
theorem rooms_of_entry (sound : registry.Sound) (found : registry.calls[index]? = some before)
    {slug : String} {room : Nat} (uses : before.entry = some (slug, room)) :
    registry.rooms slug = some room :=
  (sound.listed slug room).mpr ⟨index, before, found, uses⟩

/-- A statement that leaves the count of a room as it is. -/
theorem counted_keep (sound : registry.Sound) (found : registry.calls[index]? = some before)
    {room : Nat} (same : after.counted = some room ↔ before.counted = some room) :
    Counts (registry.heap room).refs (registry.calls.set index after) fun call =>
      call.counted = some room := by
  have counts := @Counts.set _ _ _ _ after _ _ (sound.counted room) found
  simp only [same] at counts
  rwa [Int.add_sub_cancel] at counts

/-- A statement that locks or unlocks the registry. -/
theorem relock (sound : registry.Sound) (found : registry.calls[index]? = some before)
    {mu : Option Nat} (guarded : Owned mu (registry.calls.set index after) fun call =>
      call.guards = true)
    (held : after.held = before.held) (counted : after.counted = before.counted)
    (entry : after.entry = before.entry) :
    ({ registry with mu := mu }.goto index after).Sound where
  guarded := guarded
  held room := (sound.held room).keep found (by rw [held])
  counted room := sound.counted_keep found (by rw [counted])
  listed := sound.listed.keep found entry
  fresh := sound.fresh
  single := sound.single

/-- A statement that locks, unlocks or counts a room. -/
theorem rework (sound : registry.Sound) (found : registry.calls[index]? = some before)
    {room : Nat} {change : PublicationRoom → PublicationRoom}
    (guards : after.guards = before.guards) (entry : after.entry = before.entry)
    (held : Owned (change (registry.heap room)).mu (registry.calls.set index after) fun call =>
      call.held = some room)
    (counted : Counts (change (registry.heap room)).refs (registry.calls.set index after)
      fun call => call.counted = some room)
    (elsewhere : ∀ other, other ≠ room → (after.held = some other ↔ before.held = some other) ∧
      (after.counted = some other ↔ before.counted = some other)) :
    ((registry.modify room change).goto index after).Sound where
  guarded := sound.guarded.keep found (by rw [guards])
  held other := by
    rw [goto, heap_modify]
    split
    case isTrue same => exact same ▸ held
    case isFalse apart => exact (sound.held other).keep found (elsewhere other apart).1
  counted other := by
    rw [goto, heap_modify]
    split
    case isTrue same => exact same ▸ counted
    case isFalse apart => exact sound.counted_keep found (elsewhere other apart).2
  listed := sound.listed.keep found entry
  fresh := sound.fresh
  single := sound.single

/-- A call that relies on a room is inside of the registry or counted by the room. -/
theorem guards_or_counted {slug : String} {room : Nat}
    (uses : before.entry = some (slug, room)) :
    before.guards = true ∨ before.counted = some room := by
  cases before <;> simp_all [PublicationCall.entry, PublicationCall.guards, PublicationCall.counted]

/-- A counted call relies on the room. -/
theorem entry_of_counted {room : Nat} (counted : before.counted = some room) :
    ∃ slug, before.entry = some (slug, room) := by
  cases before <;> simp_all [PublicationCall.entry, PublicationCall.counted]

/-- The lookup of a room. -/
theorem find (sound : registry.Sound) {slug : String}
    (found : registry.calls[index]? = some (.find slug)) {room : Nat}
    (known : registry.rooms slug = some room) :
    (registry.goto index (.retain slug room)).Sound where
  guarded := sound.guarded.keep found Iff.rfl
  held other := (sound.held other).keep found Iff.rfl
  counted other := sound.counted_keep found (by simp [PublicationCall.counted])
  listed := sound.listed.join found rfl rfl known
  fresh := sound.fresh
  single := sound.single

/-- The creation of a room: no call relies on its address yet. -/
theorem create (sound : registry.Sound) {slug : String}
    (found : registry.calls[index]? = some (.find slug)) (unknown : registry.rooms slug = none) :
    ((registry.create slug).goto index (.retain slug registry.next)).Sound := by
  have unlisted {other : String} : registry.rooms other ≠ some registry.next := fun listed =>
    Nat.lt_irrefl _ (sound.fresh other _ listed)
  have unused {call : PublicationCall} (member : call ∈ registry.calls)
      (slug' : String) : call.entry ≠ some (slug', registry.next) := by
    intro uses
    obtain ⟨place, found'⟩ := List.mem_iff_getElem?.mp member
    exact unlisted (sound.rooms_of_entry found' uses)
  have heap_eq (room : Nat) : ((registry.create slug).goto index (.retain slug registry.next)).heap
      room = if room = registry.next then {} else registry.heap room :=
    Function.update_apply _ _ _ _
  have rooms_eq (other : String) : ((registry.create slug).goto index
      (.retain slug registry.next)).rooms other =
        if other = slug then some registry.next else registry.rooms other :=
    Function.update_apply _ _ _ _
  constructor
  case guarded => exact sound.guarded.keep found Iff.rfl
  case held =>
    intro room
    rw [heap_eq]
    split
    case isTrue same =>
      refine Owned.keep (.of_outside fun call member held => ?_) found Iff.rfl
      obtain ⟨slug', uses⟩ : ∃ slug', call.entry = some (slug', room) := by
        cases call <;> simp_all [PublicationCall.held, PublicationCall.entry]
      exact unused member slug' (same ▸ uses)
    case isFalse => exact (sound.held room).keep found Iff.rfl
  case counted =>
    intro room
    rw [heap_eq]
    split
    case isTrue same =>
      refine .of_uncounted fun call member => decide_eq_false fun counted => ?_
      rcases List.mem_or_eq_of_mem_set member with old | rfl
      · obtain ⟨slug', uses⟩ := entry_of_counted counted
        exact unused old slug' (same ▸ uses)
      · cases counted
    case isFalse => exact sound.counted_keep found (by simp [PublicationCall.counted])
  case listed => exact sound.listed.add found rfl rfl unknown
  case fresh =>
    intro other room listed
    rw [rooms_eq] at listed
    split at listed
    case isTrue => cases listed; exact Nat.lt_succ_self _
    case isFalse => exact Nat.lt_succ_of_lt (sound.fresh other room listed)
  case single =>
    intro left right room listed listed'
    rw [rooms_eq] at listed listed'
    split at listed <;> split at listed'
    case isTrue.isTrue same same' => rw [same, same']
    case isTrue.isFalse => cases listed; exact absurd listed' unlisted
    case isFalse.isTrue => cases listed'; exact absurd listed unlisted
    case isFalse.isFalse => exact sound.single left right room listed listed'

/-- The deletion of a room in an unlock function: the room is deleted exactly if no other call
relies on it. -/
theorem clear (sound : registry.Sound) {slug : String} {room : Nat}
    (found : registry.calls[index]? = some (.clear slug room)) :
    (if (registry.heap room).refs = 0 then
      { registry with rooms := Function.update registry.rooms slug none }.goto index .exit
    else registry.goto index .exit).Sound := by
  have guarded : Owned registry.mu (registry.calls.set index .exit) fun call =>
      call.guards = true := sound.guarded.keep found Iff.rfl
  have held (other : Nat) : Owned (registry.heap other).mu (registry.calls.set index .exit)
      fun call => call.held = some other := (sound.held other).keep found Iff.rfl
  have counted (other : Nat) : Counts (registry.heap other).refs (registry.calls.set index .exit)
      fun call => call.counted = some other :=
    sound.counted_keep found (by simp [PublicationCall.counted])
  have refs_eq := sound.counted room
  split
  case isTrue unreferenced =>
    rw [unreferenced] at refs_eq
    have listed_before {other : String} {room' : Nat}
        (listed : Function.update registry.rooms slug none other = some room') :
        registry.rooms other = some room' := by
      rw [Function.update_apply] at listed
      split at listed
      · cases listed
      · exact listed
    refine ⟨guarded, held, counted, sound.listed.remove found rfl rfl ?_,
      fun other room' listed => sound.fresh other room' (listed_before listed),
      fun left right room' listed listed' =>
        sound.single left right room' (listed_before listed) (listed_before listed')⟩
    intro other apart call found' uses
    rcases guards_or_counted uses with guards | counted
    · exact apart (sound.guarded.eq_of_inside found' guards found rfl)
    · have uncounted := List.countP_eq_zero.mp (Int.ofNat_eq_zero.mp refs_eq.symm) call
        (List.mem_of_getElem? found')
      exact uncounted (decide_eq_true counted)
  case isFalse referenced =>
    refine ⟨guarded, held, counted, sound.listed.leave found rfl rfl ?_, sound.fresh, sound.single⟩
    have positive : 0 < registry.calls.countP fun call => call.counted = some room := by
      rw [Nat.pos_iff_ne_zero]
      intro zero
      exact referenced (by rw [refs_eq, zero]; rfl)
    obtain ⟨call, member, counts⟩ := List.countP_pos_iff.mp positive
    obtain ⟨other, found'⟩ := List.mem_iff_getElem?.mp member
    obtain ⟨slug', uses⟩ := entry_of_counted (of_decide_eq_true counts)
    refine ⟨other, ?_, call, found', ?_⟩
    · rintro rfl
      rw [found] at found'
      cases found'
      simp [PublicationCall.counted] at counts
    · rw [uses, sound.single slug' slug room (sound.rooms_of_entry found' uses)
        (sound.rooms_of_entry found rfl)]

/-- Every statement of every call keeps the invariant. -/
theorem advance (sound : registry.Sound) (moved : registry.advance index = some registry') :
    registry'.Sound := by
  rw [PublicationRegistry.advance.eq_def] at moved
  split at moved
  case h_1 | h_2 => cases moved
  case h_3 slug found =>
    split at moved <;> cases moved
    case isTrue free =>
      exact sound.relock found ((free ▸ sound.guarded).take found rfl) rfl rfl rfl
  case h_4 slug found =>
    split at moved <;> cases moved
    case h_1 room known => exact sound.find found known
    case h_2 unknown => exact sound.create found unknown
  case h_5 slug room found =>
    cases moved
    refine sound.rework found rfl rfl ((sound.held room).keep found Iff.rfl) ?_ fun other apart =>
      ⟨Iff.rfl, ?_⟩
    · simpa [PublicationCall.counted] using
        @Counts.set _ _ _ _ (.leave slug room) _ _ (sound.counted room) found
    · simp [PublicationCall.counted, Ne.symm apart]
  case h_6 slug room found =>
    cases moved
    exact sound.relock found (sound.guarded.free found rfl (by simp [PublicationCall.guards])) rfl
      rfl rfl
  case h_7 slug room found =>
    split at moved <;> cases moved
    case isTrue free =>
      refine sound.rework found rfl rfl ((free ▸ sound.held room).take found rfl)
        (sound.counted_keep found Iff.rfl) fun other apart => ⟨?_, Iff.rfl⟩
      simp [PublicationCall.held, Ne.symm apart]
  case h_8 slug room found =>
    cases moved
    refine sound.rework found rfl rfl
      ((sound.held room).free found rfl (by simp [PublicationCall.held]))
      (sound.counted_keep found Iff.rfl) fun other apart => ⟨?_, Iff.rfl⟩
    simp [PublicationCall.held, Ne.symm apart]
  case h_9 slug room found =>
    split at moved <;> cases moved
    case isTrue free =>
      exact sound.relock found ((free ▸ sound.guarded).take found rfl) rfl rfl rfl
  case h_10 slug room found =>
    cases moved
    refine sound.rework found rfl rfl ((sound.held room).keep found Iff.rfl) ?_ fun other apart =>
      ⟨Iff.rfl, ?_⟩
    · simpa [PublicationCall.counted] using
        @Counts.set _ _ _ _ (.clear slug room) _ _ (sound.counted room) found
    · simp [PublicationCall.counted, Ne.symm apart]
  case h_11 slug room found =>
    have cleared := sound.clear found
    split at cleared <;> rename_i refs <;> simp only [refs, if_true, if_false] at moved <;>
      cases moved <;> exact cleared
  case h_12 found =>
    cases moved
    exact sound.relock found (sound.guarded.free found rfl (by simp [PublicationCall.guards])) rfl
      rfl rfl

end Sound

/-! ## Runs -/

/-- Somebody calls `lock`, or a call runs its next statement. -/
inductive Step : PublicationRegistry → PublicationRegistry → Prop where
  | lock (registry : PublicationRegistry) (slug : String) : Step registry (registry.lock slug)
  | advance {registry registry' : PublicationRegistry} (index : Nat)
      (moved : registry.advance index = some registry') : Step registry registry'

/-- What calls of `lock` make of a new registry. -/
def Reachable : PublicationRegistry → Prop := Relation.ReflTransGen Step new

theorem Reachable.sound {registry : PublicationRegistry} (reachable : registry.Reachable) :
    registry.Sound := by
  induction reachable with
  | refl => exact sound_new
  | tail _ step sound =>
      cases step with
      | lock slug => exact sound.lock slug
      | advance index moved => exact sound.advance moved

/-- The call has got the lock of the slug and has not called its unlock function. -/
def Holds (slug : String) (room : Nat) : Prop := registry.calls[index]? = some (.hold slug room)

/-- The call is at the lock of the slug. -/
def Waits (slug : String) (room : Nat) : Prop := registry.calls[index]? = some (.wait slug room)

/-- The next statement of a call takes a mutex that another call holds. -/
def Blocks (blocker : Nat) : Prop :=
  match registry.calls[index]? with
  | some (.enter _) | some (.reenter _ _) => registry.mu = some blocker
  | some (.wait _ room) => (registry.heap room).mu = some blocker
  | _ => False

variable {registry index}

/-- Calls that are not blocked go on until they are done. -/
theorem advance_isSome_iff {call : PublicationCall} (found : registry.calls[index]? = some call) :
    (registry.advance index).isSome = true ↔
      call ≠ .done ∧ ∀ blocker, ¬registry.Blocks index blocker := by
  have free_iff {mu : Option Nat} : mu = none ↔ ∀ blocker, mu ≠ some blocker :=
    Option.eq_none_iff_forall_ne_some
  unfold advance Blocks
  cases call with
  | find slug => simp only [found]; split <;> simp
  | clear slug room => simp only [found]; split <;> simp
  | enter slug | reenter slug room | wait slug room =>
      simp only [found, ← free_iff]
      split <;> simp_all
  | _ => simp [found]

/-- A call inside of the registry is never blocked. -/
theorem advance_of_guards {call : PublicationCall} (found : registry.calls[index]? = some call)
    (guards : call.guards = true) : (registry.advance index).isSome = true := by
  rw [advance_isSome_iff found]
  unfold Blocks
  rw [found]
  cases call <;> simp_all [PublicationCall.guards]

/-- Whoever blocks a call is inside of the registry, where it is not blocked itself, or holds the
lock of the slug that the call waits for. -/
theorem Sound.blocker (sound : registry.Sound) {blocker : Nat}
    (blocks : registry.Blocks index blocker) :
    registry.mu = some blocker ∧ (registry.advance blocker).isSome = true ∨
      ∃ slug room, registry.Holds blocker slug room ∧ registry.Waits index slug room := by
  have inside (taken : registry.mu = some blocker) :
      registry.mu = some blocker ∧ (registry.advance blocker).isSome = true := by
    obtain ⟨call, found, guards⟩ := (sound.guarded blocker).mp taken
    exact ⟨taken, advance_of_guards found guards⟩
  unfold Blocks at blocks
  split at blocks
  · exact .inl (inside blocks)
  · exact .inl (inside blocks)
  · rename_i slug room found
    obtain ⟨call, found', held⟩ := (sound.held room blocker).mp blocks
    cases call with
    | hold slug' room' =>
        cases held
        have same := sound.single slug' slug room (sound.rooms_of_entry found' rfl)
          (sound.rooms_of_entry found rfl)
        exact .inr ⟨slug, room, same ▸ found', found⟩
    | _ => cases held
  · exact blocks.elim

/-- Statements of the given calls, one after another. -/
def play (indices : List Nat) (registry : PublicationRegistry) : Option PublicationRegistry :=
  indices.foldlM (fun registry index => registry.advance index) registry

theorem Reachable.play {registry registry' : PublicationRegistry} (reachable : registry.Reachable)
    {indices : List Nat} (played : play indices registry = some registry') :
    registry'.Reachable := by
  induction indices generalizing registry with
  | nil => cases played; exact reachable
  | cons index indices induction =>
      obtain ⟨next, moved, rest⟩ := Option.bind_eq_some_iff.mp played
      exact induction (reachable.tail (.advance index moved)) rest

/-- However the statements of the calls interleave: a slug has at most one holder; a waiter and a
holder of a slug share the room that the registry has for it; a call is blocked by a holder of its
own slug only, apart from a call inside of the registry, which is never blocked; and when all calls
are done, the registry has no rooms. -/
theorem publications_ordered {registry : PublicationRegistry} (reachable : registry.Reachable) :
    (∀ slug left room right room', registry.Holds left slug room →
      registry.Holds right slug room' → left = right) ∧
    (∀ slug waiter room holder room', registry.Waits waiter slug room →
      registry.Holds holder slug room' → room = room' ∧ registry.rooms slug = some room) ∧
    (∀ blocked blocker, registry.Blocks blocked blocker →
      registry.mu = some blocker ∧ (registry.advance blocker).isSome = true ∨
        ∃ slug room, registry.Holds blocker slug room ∧ registry.Waits blocked slug room) ∧
    (∀ blocked blocker slug room, registry.Holds blocker slug room →
      registry.Blocks blocked blocker → registry.Waits blocked slug room) ∧
    ((∀ call ∈ registry.calls, call = .done) → registry.rooms = fun _ => none) := by
  have sound := reachable.sound
  refine ⟨?_, ?_, fun blocked blocker => sound.blocker, ?_, ?_⟩
  · intro slug left room right room' holds holds'
    have same : some room = some room' :=
      (sound.rooms_of_entry holds rfl).symm.trans (sound.rooms_of_entry holds' rfl)
    cases same
    exact (sound.held room).eq_of_inside holds rfl holds' rfl
  · intro slug waiter room holder room' waits holds
    have listed := sound.rooms_of_entry waits rfl
    have same : some room = some room' :=
      listed.symm.trans (sound.rooms_of_entry holds rfl)
    exact ⟨Option.some.inj same, listed⟩
  · intro blocked blocker slug room holds blocks
    rcases sound.blocker blocks with ⟨taken, _⟩ | ⟨slug', room', holds', waits⟩
    · obtain ⟨call, found, guards⟩ := (sound.guarded blocker).mp taken
      rw [Holds.eq_def] at holds
      rw [holds] at found
      cases found
      cases guards
    · have same : some (PublicationCall.hold slug room) = some (.hold slug' room') :=
        holds.symm.trans holds'
      cases same
      exact waits
  · intro finished
    funext slug
    rw [Option.eq_none_iff_forall_ne_some]
    intro room listed
    obtain ⟨index, call, found, uses⟩ := (sound.listed slug room).mp listed
    rw [finished call (List.mem_of_getElem? found)] at uses
    cases uses

/-- The first of two calls for one slug holds the lock, and a third call holds that of another. -/
theorem publications_ordered_three :
    ∃ registry, play [0, 0, 0, 0, 0, 1, 1, 1, 1, 2, 2, 2, 2, 2]
        (((new.lock "calm").lock "calm").lock "quiet") = some registry ∧
      registry.calls = [.hold "calm" 0, .wait "calm" 0, .hold "quiet" 1] ∧
      registry.rooms "calm" = some 0 ∧ ¬registry.Blocks 1 2 := by
  have start : (((new.lock "calm").lock "calm").lock "quiet").Reachable :=
    ((Relation.ReflTransGen.refl.tail (.lock _ _)).tail (.lock _ _)).tail (.lock _ _)
  obtain ⟨registry, played, calls⟩ :
      ∃ registry, play [0, 0, 0, 0, 0, 1, 1, 1, 1, 2, 2, 2, 2, 2]
          (((new.lock "calm").lock "calm").lock "quiet") = some registry ∧
        registry.calls = [.hold "calm" 0, .wait "calm" 0, .hold "quiet" 1] := ⟨_, rfl, rfl⟩
  have first : registry.Holds 0 "calm" 0 := by rw [Holds, calls]; rfl
  have second : registry.Waits 1 "calm" 0 := by rw [Waits, calls]; rfl
  have third : registry.Holds 2 "quiet" 1 := by rw [Holds, calls]; rfl
  obtain ⟨_, shared, _, apart, _⟩ := publications_ordered (start.play played)
  refine ⟨registry, played, calls, (shared "calm" 1 0 0 0 second first).2, fun blocks => ?_⟩
  have same : some (PublicationCall.wait "calm" 0) = some (.wait "quiet" 1) :=
    second.symm.trans (apart 1 2 "quiet" 1 third blocks)
  exact absurd same (by decide)

end PublicationRegistry

end Oxbin.Httpapi
