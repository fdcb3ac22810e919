import Mathlib.Data.Prod.Lex
import Mathlib.Data.String.Basic
import Oxbin.Live.Turnover

/-!
# What a participant shows

The snapshot of a participant sums up its connections, and shows where the most recently active
one is.
-/

namespace Oxbin.Live

/-! ## The foremost connection -/

namespace Connection

/-- The connection is at least as recent as the other one: by its last activity, then by its
generation, and then by its ID. -/
def Leads (connection other : Connection) : Prop :=
  other.lastActivityAt < connection.lastActivityAt ∨
    other.lastActivityAt = connection.lastActivityAt ∧
      (other.generation < connection.generation ∨
        other.generation = connection.generation ∧ connection.id ≤ other.id)

/-- What connections are compared by. -/
def rank (connection : Connection) : Time ×ₗ Nat ×ₗ OrderDual String :=
  toLex (connection.lastActivityAt, toLex (connection.generation, OrderDual.toDual connection.id))

theorem leads_iff {connection other : Connection} :
    connection.Leads other ↔ other.rank ≤ connection.rank := by
  simp only [Leads, rank, Prod.Lex.toLex_le_toLex, OrderDual.toDual_le_toDual]

theorem Leads.refl (connection : Connection) : connection.Leads connection :=
  leads_iff.mpr le_rfl

theorem Leads.trans {first second third : Connection} (before : first.Leads second)
    (after : second.Leads third) : first.Leads third :=
  leads_iff.mpr ((leads_iff.mp after).trans (leads_iff.mp before))

/-- Connections that lead each other have the same ID. -/
theorem Leads.id_eq {connection other : Connection} (left : connection.Leads other)
    (right : other.Leads connection) : connection.id = other.id := by
  have same := le_antisymm (leads_iff.mp right) (leads_iff.mp left)
  simp only [rank, EmbeddingLike.apply_eq_iff_eq, Prod.mk.injEq] at same
  exact same.2.2

theorem latest_eq (best candidate : Connection) :
    latest lastActivityAt best candidate =
      if best.rank < candidate.rank then candidate else best := by
  refine if_congr ?_ rfl rfl
  simp only [rank, Prod.Lex.toLex_lt_toLex, OrderDual.toDual_lt_toDual, eq_comm, gt_iff_lt,
    and_or_left]

/-- The latest connection of a list leads all of them. -/
theorem foldl_latest (others : List Connection) (first : Connection) :
    others.foldl (latest lastActivityAt) first ∈ first :: others ∧
      ∀ connection ∈ first :: others,
        (others.foldl (latest lastActivityAt) first).Leads connection := by
  induction others generalizing first with
  | nil =>
      refine ⟨List.mem_singleton_self first, fun connection member => ?_⟩
      rw [List.mem_singleton.mp member]
      exact .refl first
  | cons next others induction =>
      obtain ⟨member, leads⟩ := induction (latest lastActivityAt first next)
      have better : (latest lastActivityAt first next).Leads first ∧
          (latest lastActivityAt first next).Leads next := by
        rw [latest_eq, leads_iff, leads_iff]
        split
        case isTrue less => exact ⟨less.le, le_rfl⟩
        case isFalse most => exact ⟨le_rfl, not_lt.mp most⟩
      have chosen : latest lastActivityAt first next = first ∨
          latest lastActivityAt first next = next := by
        rw [latest_eq]
        split
        · exact .inr rfl
        · exact .inl rfl
      rw [List.foldl_cons]
      have best := leads _ List.mem_cons_self
      refine ⟨?_, fun connection listed => ?_⟩
      · rcases List.mem_cons.mp member with same | listed
        · rw [same]
          rcases chosen with kept | taken
          · rw [kept]
            exact List.mem_cons_self
          · rw [taken]
            exact List.mem_cons_of_mem _ List.mem_cons_self
        · exact .tail _ (.tail _ listed)
      · rcases List.mem_cons.mp listed with rfl | listed
        · exact best.trans better.1
        · rcases List.mem_cons.mp listed with rfl | listed
          · exact best.trans better.2
          · exact leads connection (.tail _ listed)

end Connection

namespace Participant

/-- The connection is the most recently active one of the participant. -/
def Foremost (participant : Participant) (connection : Connection) : Prop :=
  participant.connections.lookup connection.id = some connection ∧
    ∀ id other, participant.connections.lookup id = some other → connection.Leads other

/-- The snapshot of the participant agrees with its connections. -/
structure Displayed (participant : Participant) : Prop where
  keyed : ∀ id connection, participant.connections.lookup id = some connection →
    connection.id = id
  count : participant.snapshot.connectionCount = participant.connections.values.length
  status : participant.snapshot.status = .connected ↔ participant.connections.values ≠ []
  sorted : participant.snapshot.cursors.Pairwise fun left right =>
    left.connectionID < right.connectionID
  cursors : ∀ id selection, ⟨id, selection⟩ ∈ participant.snapshot.cursors ↔
    ∃ connection, participant.connections.lookup id = some connection ∧
      connection.cursor = some selection
  foremost : ∀ connection, participant.Foremost connection →
    participant.snapshot.currentTab = connection.currentTab ∧
      participant.snapshot.cursor = connection.cursor
  vacant : participant.connections.values = [] → participant.snapshot.cursor = none

section Refresh

variable {connections : Keyed Connection} (keyed : ∀ id connection,
  connections.lookup id = some connection → connection.id = id)

include keyed

theorem mem_values_iff {connection : Connection} :
    connection ∈ connections.values ↔ connections.lookup connection.id = some connection := by
  constructor
  · intro member
    obtain ⟨⟨id, _⟩, listed, rfl⟩ := List.mem_map.mp member
    have found := AList.mem_lookup_iff.mpr listed
    rw [keyed id _ found]
    exact found
  · intro found
    exact List.mem_map.mpr ⟨_, AList.mem_lookup_iff.mp found, rfl⟩

theorem values_ids : connections.values.map Connection.id = connections.keys := by
  rw [Keyed.values, List.map_map, AList.keys, List.keys]
  refine List.map_congr_left fun entry listed => ?_
  exact keyed entry.1 entry.2 (AList.mem_lookup_iff.mpr listed)

/-- The cursors of the connections have different IDs. -/
theorem cursors_nodup : ((connections.values.filterMap fun connection =>
    connection.cursor.map fun selection => (⟨connection.id, selection⟩ : ConnectionCursor)).map
      ConnectionCursor.connectionID).Nodup := by
  have sub (values : List Connection) : ((values.filterMap fun connection =>
      connection.cursor.map fun selection => (⟨connection.id, selection⟩ : ConnectionCursor)).map
        ConnectionCursor.connectionID).Sublist (values.map Connection.id) := by
    induction values with
    | nil => exact .slnil
    | cons connection values induction =>
        cases cursor : connection.cursor with
        | none =>
            rw [List.filterMap_cons_none (by rw [cursor]; rfl), List.map_cons]
            exact induction.cons _
        | some selection =>
            rw [List.filterMap_cons_some (by rw [cursor]; rfl), List.map_cons, List.map_cons]
            exact induction.cons_cons _
  have distinct : (connections.values.map Connection.id).Nodup := by
    rw [values_ids keyed]
    exact connections.nodupKeys
  exact distinct.sublist (sub connections.values)

/-- They are shown in the order of these IDs. -/
theorem cursors_sorted :
    ((connections.values.filterMap fun connection => connection.cursor.map fun selection =>
      (⟨connection.id, selection⟩ : ConnectionCursor)).insertionSort
        fun left right => left.connectionID ≤ right.connectionID).Pairwise
          fun left right => left.connectionID < right.connectionID := by
  have total : Std.Total fun left right : ConnectionCursor =>
      left.connectionID ≤ right.connectionID := ⟨fun left right => le_total _ _⟩
  have transitive : IsTrans ConnectionCursor fun left right =>
      left.connectionID ≤ right.connectionID := ⟨fun _ _ _ => le_trans⟩
  have distinct := cursors_nodup keyed
  generalize connections.values.filterMap (fun connection => connection.cursor.map fun selection =>
    (⟨connection.id, selection⟩ : ConnectionCursor)) = cursors at distinct ⊢
  have ordered := List.pairwise_insertionSort (fun left right : ConnectionCursor =>
    left.connectionID ≤ right.connectionID) cursors
  have perm := (List.perm_insertionSort (fun left right : ConnectionCursor =>
    left.connectionID ≤ right.connectionID) cursors).map ConnectionCursor.connectionID
  have apart := List.pairwise_map.mp (perm.nodup_iff.mpr distinct)
  exact (ordered.and apart).imp fun both => lt_of_le_of_ne both.1 both.2

end Refresh

/-- The latest of the connections is the foremost one. -/
theorem foremost_latest {participant : Participant} (keyed : ∀ id connection,
      participant.connections.lookup id = some connection → connection.id = id)
    {first : Connection} {others : List Connection}
    (values : participant.connections.values = first :: others) :
    participant.Foremost (others.foldl (latest Connection.lastActivityAt) first) := by
  obtain ⟨member, leads⟩ := Connection.foldl_latest others first
  rw [← values] at member leads
  refine ⟨(mem_values_iff keyed).mp member, fun id other found => leads other ?_⟩
  rw [mem_values_iff keyed, keyed id other found]
  exact found

theorem Foremost.unique {participant : Participant} {left right : Connection}
    (foremost : participant.Foremost left) (foremost' : participant.Foremost right) :
    left = right := by
  have same := (foremost.2 _ right foremost'.1).id_eq (foremost'.2 _ left foremost.1)
  have found := foremost.1
  rw [same, foremost'.1] at found
  exact (Option.some.inj found).symm

theorem foremost_refresh (participant : Participant) (watchOnly : Bool) (connection : Connection) :
    (participant.refresh watchOnly).Foremost connection ↔ participant.Foremost connection := by
  unfold Foremost
  rw [refresh_connections]

/-- What is shown of a participant without connections. -/
theorem refresh_vacant {participant : Participant} (watchOnly : Bool)
    (values : participant.connections.values = []) :
    (participant.refresh watchOnly).snapshot.connectionCount = 0 ∧
      (participant.refresh watchOnly).snapshot.status ≠ .connected ∧
      (participant.refresh watchOnly).snapshot.cursors = [] ∧
      (participant.refresh watchOnly).snapshot.cursor = none := by
  unfold refresh
  simp only [values, List.length_nil, true_and, and_true]
  split <;> simp

/-- What is shown of a participant with connections. -/
theorem refresh_connected {participant : Participant} (watchOnly : Bool) {first : Connection}
    {others : List Connection} (values : participant.connections.values = first :: others) :
    let snapshot := (participant.refresh watchOnly).snapshot
    let foremost := others.foldl (latest Connection.lastActivityAt) first
    snapshot.connectionCount = participant.connections.values.length ∧
      snapshot.status = .connected ∧
      snapshot.cursors = (participant.connections.values.filterMap fun connection =>
        connection.cursor.map fun selection => ⟨connection.id, selection⟩).insertionSort
          (fun left right => left.connectionID ≤ right.connectionID) ∧
      snapshot.currentTab = foremost.currentTab ∧ snapshot.cursor = foremost.cursor := by
  unfold refresh
  rw [values]
  exact ⟨rfl, rfl, rfl, rfl, rfl⟩

/-- Refreshing makes the snapshot agree. -/
theorem displayed_refresh {participant : Participant} (keyed : ∀ id connection,
      participant.connections.lookup id = some connection → connection.id = id)
    (watchOnly : Bool) : (participant.refresh watchOnly).Displayed := by
  have sorted := cursors_sorted keyed
  have listed (connection : Connection) := @mem_values_iff _ keyed connection
  cases values : participant.connections.values with
  | nil =>
      rw [values] at listed
      have absent (id : String) (connection : Connection) :
          participant.connections.lookup id ≠ some connection := fun found =>
        nomatch (listed connection).mpr (keyed id connection found ▸ found)
      obtain ⟨count, status, cursors, cursor⟩ := refresh_vacant watchOnly values
      constructor
      case keyed =>
        rw [refresh_connections]
        exact keyed
      case count => rw [count, refresh_connections, values, List.length_nil]
      case status =>
        rw [refresh_connections]
        exact iff_of_false status fun nonempty => nonempty values
      case sorted =>
        rw [cursors]
        exact .nil
      case cursors =>
        intro id selection
        rw [cursors, refresh_connections]
        exact iff_of_false List.not_mem_nil fun ⟨connection, found, _⟩ => absent id connection found
      case foremost =>
        rintro connection ⟨found, _⟩
        rw [refresh_connections] at found
        exact absurd found (absent _ connection)
      case vacant => exact fun _ => cursor
  | cons first others =>
      have foremost := foremost_latest keyed values
      obtain ⟨count, status, cursors, currentTab, cursor⟩ := refresh_connected watchOnly values
      constructor
      case keyed =>
        rw [refresh_connections]
        exact keyed
      case count => rw [count, refresh_connections]
      case status =>
        rw [refresh_connections, values]
        exact iff_of_true status (List.cons_ne_nil _ _)
      case sorted =>
        rw [cursors]
        exact sorted
      case cursors =>
        intro id selection
        rw [cursors, refresh_connections, List.mem_insertionSort, List.mem_filterMap]
        constructor
        · rintro ⟨connection, member, shown⟩
          obtain ⟨_, present, same⟩ := Option.map_eq_some_iff.mp shown
          cases same
          exact ⟨connection, (listed connection).mp member, present⟩
        · rintro ⟨connection, found, present⟩
          have same := keyed id connection found
          refine ⟨connection, (listed connection).mpr (same ▸ found), ?_⟩
          rw [present, Option.map_some, same]
      case foremost =>
        intro connection foremost'
        rw [foremost_refresh] at foremost'
        rw [currentTab, cursor, foremost.unique foremost']
        exact ⟨rfl, rfl⟩
      case vacant =>
        rw [refresh_connections, values]
        exact fun none => nomatch none

/-! ## Connections that are changed -/

/-- The participant after a connection has been changed, without being refreshed. -/
def put (participant : Participant) (connection : Connection) : Participant :=
  { participant with connections := participant.connections.insert connection.id connection }

theorem lookup_put (participant : Participant) (connection : Connection) (id : String) :
    (participant.put connection).connections.lookup id =
      if id = connection.id then some connection else participant.connections.lookup id :=
  Keyed.lookup_insert_if _ _ _ _

section Put

variable {participant : Participant} {connection connection' : Connection}
  (found : participant.connections.lookup connection'.id = some connection)
  (same : connection'.rank = connection.rank)

include found same

/-- A change that is no activity does not change which connections lead. -/
theorem leads_put (leader : Connection) :
    (∀ id other, (participant.put connection').connections.lookup id = some other →
      leader.Leads other) ↔
    ∀ id other, participant.connections.lookup id = some other → leader.Leads other := by
  have swap : leader.Leads connection' ↔ leader.Leads connection := by
    rw [Connection.leads_iff, Connection.leads_iff, same]
  constructor
  · intro leads id other listed
    by_cases own : id = connection'.id
    · subst own
      cases found.symm.trans listed
      exact swap.mp (leads _ connection' (by rw [lookup_put, if_pos rfl]))
    · exact leads id other (by rwa [lookup_put, if_neg own])
  · intro leads id other listed
    rw [lookup_put] at listed
    split at listed
    case isTrue own =>
      cases listed
      exact swap.mpr (leads _ connection found)
    case isFalse => exact leads id other listed

theorem foremost_put (keyed : connection.id = connection'.id) :
    (participant.put connection').Foremost connection' ↔ participant.Foremost connection := by
  unfold Foremost
  rw [leads_put found same, lookup_put, if_pos rfl, keyed]
  simp only [found, Connection.leads_iff, same, true_and]

theorem foremost_put_other {other : Connection} (different : other.id ≠ connection'.id) :
    (participant.put connection').Foremost other ↔ participant.Foremost other := by
  unfold Foremost
  rw [leads_put found same, lookup_put, if_neg different]

end Put

/-- When a connection moves to a tab, the snapshot still agrees exactly when the connection was in
that tab or is not the foremost one. -/
theorem displayed_put_iff {participant : Participant} (displayed : participant.Displayed)
    {connection : Connection}
    (found : participant.connections.lookup connection.id = some connection) (tab : String) :
    (participant.put { connection with currentTab := tab }).Displayed ↔
      tab = connection.currentTab ∨ ¬participant.Foremost connection := by
  have self :=
    @foremost_put participant connection { connection with currentTab := tab } found rfl rfl
  constructor
  · intro displayed'
    by_contra neither
    rw [not_or, not_not] at neither
    have shown := displayed'.foremost _ (self.mpr neither.2)
    exact neither.1 (shown.1.symm.trans (displayed.foremost connection neither.2).1)
  · intro stays
    have length :
        (participant.put { connection with currentTab := tab }).connections.values.length =
        participant.connections.values.length := Keyed.length_values_insert _ found
    have vacant : (participant.put { connection with currentTab := tab }).connections.values = [] ↔
        participant.connections.values = [] := by
      rw [← List.length_eq_zero_iff, length, List.length_eq_zero_iff]
    constructor
    case keyed => exact keyed_insert { connection with currentTab := tab } displayed.keyed
    case count => exact displayed.count.trans length.symm
    case status => exact displayed.status.trans (not_congr vacant).symm
    case sorted => exact displayed.sorted
    case cursors =>
      intro id selection
      refine (displayed.cursors id selection).trans ?_
      rw [lookup_put]
      split
      case isTrue own =>
        have own : id = connection.id := own
        subst own
        simp [found]
      case isFalse => rfl
    case foremost =>
      intro other foremost
      by_cases own : other.id = connection.id
      · have present := foremost.1
        rw [lookup_put, if_pos own, Option.some.injEq] at present
        subst present
        rw [self] at foremost
        obtain ⟨shownTab, shownCursor⟩ := displayed.foremost connection foremost
        exact ⟨shownTab.trans (stays.resolve_right (not_not.mpr foremost)).symm, shownCursor⟩
      · rw [@foremost_put_other participant connection { connection with currentTab := tab }
          found rfl other own] at foremost
        exact displayed.foremost other foremost
    case vacant => exact fun none => displayed.vacant (vacant.mp none)

end Participant

end Oxbin.Live
