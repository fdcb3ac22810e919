import Mathlib.Data.List.Basic

/-!
# Statements in a transaction

A connection to a database executes statements one after the other.  Each of them may find the
database at fault.  What a transaction writes is seen by others when it is committed, and never
when it is rolled back.
-/

namespace Oxbin

/-- A connection: the state that is committed, and the state as an open transaction sees it. -/
structure Connection (State : Type) where
  committed : State
  transaction : Option State
  statements : Nat

/-- What is done over a connection. -/
def Execution (State Error α : Type) : Type :=
  Connection State → Except Error α × Connection State

namespace Execution

variable {State Error α β : Type}

instance : Monad (Execution State Error) where
  pure value := fun connection => (.ok value, connection)
  bind first next := fun connection =>
    match first connection with
    | (.ok value, connection) => next value connection
    | (.error error, connection) => (.error error, connection)

/-- A check outside of the database. -/
def check (checked : Except Error α) : Execution State Error α :=
  fun connection => (checked, connection)

/-- Count a statement, and execute it unless the database is at fault. -/
def attempt (faults : Nat → Option Error) (statement : Execution State Error α) :
    Execution State Error α :=
  fun connection =>
    let counted := { connection with statements := connection.statements + 1 }
    match faults connection.statements with
    | some fault => (.error fault, counted)
    | none => statement counted

/-- Execute a statement in the open transaction; a statement that fails writes nothing. -/
def execute (faults : Nat → Option Error) (statement : State → Except Error (α × State)) :
    Execution State Error α :=
  attempt faults fun connection =>
    match statement (connection.transaction.getD connection.committed) with
    | .ok (value, written) => (.ok value, { connection with transaction := some written })
    | .error error => (.error error, connection)

/-- Open a transaction. -/
def begin (faults : Nat → Option Error) : Execution State Error Unit :=
  attempt faults fun connection =>
    (.ok (), { connection with transaction := some connection.committed })

/-- Commit the open transaction. -/
def commit (faults : Nat → Option Error) : Execution State Error Unit :=
  fun connection =>
    let closed := { connection with transaction := none, statements := connection.statements + 1 }
    match faults connection.statements with
    | some fault => (.error fault, closed)
    | none => (.ok (), { closed with
        committed := connection.transaction.getD connection.committed })

/-- Roll the open transaction back. -/
def rollback (error : Error) : Execution State Error α :=
  fun connection => (.error error, { connection with transaction := none })

/-- Execute in a transaction: every error rolls it back. -/
def transact (faults : Nat → Option Error) (body : Execution State Error α) :
    Execution State Error α := do
  begin faults
  let value ← fun connection =>
    match body connection with
    | (.ok value, connection) => (.ok value, connection)
    | (.error error, connection) => rollback error connection
  commit faults
  return value

/-! ## Refinement -/

/-- In an open transaction the execution leaves the committed state alone, and unless a statement
finds the database at fault it does to the transaction's state what `outcome` says. -/
def Refines (faults : Nat → Option Error) (execution : Execution State Error α) (working : State)
    (outcome : Except Error State) : Prop :=
  ∀ committed statements, ∃ result working' statements',
    execution ⟨committed, some working, statements⟩ =
        (result, ⟨committed, some working', statements'⟩) ∧
      ((∃ statement fault, faults statement = some fault ∧ result = .error fault) ∨
        (result.map fun _ => working') = outcome)

section Rules

variable {faults : Nat → Option Error} {working : State} {γ : Type}

theorem refines_pure (value : α) :
    Refines faults (pure value : Execution State Error α) working (.ok working) :=
  fun _ statements => ⟨.ok value, working, statements, rfl, .inr rfl⟩

theorem refines_error (error : Error) (next : α → Execution State Error β) :
    Refines faults (check (.error error) >>= next) working (.error error) :=
  fun _ statements => ⟨.error error, working, statements, rfl, .inr rfl⟩

/-- A check that fails ends the execution. -/
theorem refines_check {checked : Except Error α} {next : α → Execution State Error β}
    {rest : α → Except Error State}
    (continues : ∀ value, checked = .ok value → Refines faults (next value) working (rest value)) :
    Refines faults (check checked >>= next) working (checked >>= rest) := by
  intro committed statements
  cases checked with
  | error error => exact ⟨.error error, working, statements, rfl, .inr rfl⟩
  | ok value => exact continues value rfl committed statements

/-- A statement does what `computed` says, seen through `write`. -/
theorem refines_execute {statement : State → Except Error (α × State)} {computed : Except Error γ}
    {write : γ → α × State} {next : α → Execution State Error β} {rest : γ → Except Error State}
    (effect : statement working = computed.map write)
    (continues : ∀ value, computed = .ok value →
      Refines faults (next (write value).1) (write value).2 (rest value)) :
    Refines faults (execute faults statement >>= next) working (computed >>= rest) := by
  intro committed statements
  cases fault : faults statements with
  | some error =>
      refine ⟨.error error, working, statements + 1, ?_, .inl ⟨statements, error, fault, rfl⟩⟩
      simp only [bind, execute, attempt, fault]
  | none =>
      cases computed with
      | error error =>
          refine ⟨.error error, working, statements + 1, ?_, .inr rfl⟩
          simp only [bind, execute, attempt, fault, Option.getD_some, effect, Except.map]
      | ok value =>
          obtain ⟨result, working', statements', runs, holds⟩ :=
            continues value rfl committed (statements + 1)
          refine ⟨result, working', statements', ?_, holds⟩
          rw [← runs]
          simp only [bind, execute, attempt, fault, Option.getD_some, effect, Except.map]

/-- A failed statement ends the execution. -/
theorem refines_failure {statement : State → Except Error (α × State)} {error : Error}
    {next : α → Execution State Error β} (effect : statement working = .error error) :
    Refines faults (execute faults statement >>= next) working (.error error) :=
  @refines_execute _ _ _ _ _ _ _ _ (.error error) (fun value => value) next
    (fun _ => .error error) effect fun _ impossible => by cases impossible

/-- A statement that cannot fail of itself. -/
theorem refines_write {statement : State → Except Error (α × State)} {value : α} {written : State}
    {next : α → Execution State Error β} {outcome : Except Error State}
    (effect : statement working = .ok (value, written))
    (continues : Refines faults (next value) written outcome) :
    Refines faults (execute faults statement >>= next) working outcome :=
  @refines_execute _ _ _ _ _ _ _ _ (.ok ()) (fun _ => (value, written)) _ _ effect
    fun _ _ => continues

protected theorem bind_pure (execution : Execution State Error α) :
    execution >>= pure = execution := by
  funext connection
  change (match execution connection with
    | (.ok value, connection) => (.ok value, connection)
    | (.error error, connection) => (.error error, connection)) = execution connection
  rcases execution connection with ⟨_ | value, connection'⟩
  · rfl
  · rfl

/-- The last statement. -/
theorem refines_last {statement : State → Except Error (α × State)} {value : α} {written : State}
    (effect : statement working = .ok (value, written)) :
    Refines faults (execute faults statement) working (.ok written) := by
  have last := @refines_write _ _ _ _ faults _ _ _ _ _ _ effect (refines_pure value)
  rwa [Execution.bind_pure] at last

protected theorem bind_assoc (first : Execution State Error α) (next : α → Execution State Error β)
    (last : β → Execution State Error γ) :
    (first >>= next) >>= last = first >>= fun value => next value >>= last := by
  funext connection
  change (match (match first connection with
    | (.ok value, connection) => next value connection
    | (.error error, connection) => (.error error, connection)) with
    | (.ok value, connection) => last value connection
    | (.error error, connection) => (.error error, connection)) = match first connection with
    | (.ok value, connection) => (next value >>= last) connection
    | (.error error, connection) => (.error error, connection)
  rcases first connection with ⟨_ | value, connection'⟩
  · rfl
  · rfl

/-- A loop of statements that cannot fail of themselves.  `state` sees what the loop changes, and
`holds` is the invariant of the loop. -/
theorem refines_forM {statement : β → State → Except Error (Unit × State)} (state : γ → State)
    {write : γ → β → γ} (holds : List β → γ → Prop) {items : List β} {value : γ}
    {next : Unit → Execution State Error α} {outcome : Except Error State}
    (effect : ∀ item items value, holds (item :: items) value →
      statement item (state value) = .ok ((), state (write value item)) ∧
        holds items (write value item))
    (start : holds items value)
    (continues : Refines faults (next ()) (state (items.foldl write value)) outcome) :
    Refines faults ((items.forM fun item => execute faults (statement item)) >>= next)
      (state value) outcome := by
  induction items generalizing value with
  | nil => exact continues
  | cons item items induction =>
      obtain ⟨writes, keeps⟩ := effect item items value start
      have unrolled : ((item :: items).forM fun item => execute faults (statement item)) =
          execute faults (statement item) >>= fun _ =>
            items.forM fun item => execute faults (statement item) := rfl
      rw [unrolled, Execution.bind_assoc]
      exact refines_write writes (induction keeps continues)

/-- How an execution ends that has found a committed state.  It leaves nothing open.  It fails and
changes nothing, or it commits the outcome; and it fails of the database's faults alone. -/
structure Settled (faults : Nat → Option Error) (committed : State)
    (outcome : Except Error State) (ended : Except Error α × Connection State) : Prop where
  closed : ended.2.transaction = none
  commits : ∀ value, ended.1 = .ok value → outcome = .ok ended.2.committed
  unchanged : ∀ error, ended.1 = .error error → ended.2.committed = committed
  faultless : (∀ statement, faults statement = none) →
    (ended.1.map fun _ => ended.2.committed) = outcome

theorem settled_error {committed : State} {outcome : Except Error State} {error : Error}
    {statements : Nat}
    (faultless : (∀ statement, faults statement = none) → outcome = .error error) :
    Settled faults committed outcome
      ((.error error, ⟨committed, none, statements⟩) : Except Error α × Connection State) where
  closed := rfl
  commits value impossible := by cases impossible
  unchanged _ _ := rfl
  faultless none := (faultless none).symm

/-- A check before the transaction. -/
theorem settled_check {checked : Except Error α} {next : α → Execution State Error β}
    {rest : α → Except Error State} {committed : State} {statements : Nat}
    (continues : ∀ value, checked = .ok value →
      Settled faults committed (rest value) (next value ⟨committed, none, statements⟩)) :
    Settled faults committed (checked >>= rest)
      ((check checked >>= next) ⟨committed, none, statements⟩) := by
  cases checked with
  | error error => exact settled_error fun _ => rfl
  | ok value => exact continues value rfl

/-- A transaction is atomic. -/
theorem settled_transact {body : Execution State Error α} {committed : State}
    {outcome : Except Error State} (refines : Refines faults body committed outcome)
    (statements : Nat) :
    Settled faults committed outcome (transact faults body ⟨committed, none, statements⟩) := by
  cases opening : faults statements with
  | some fault =>
      have ended : transact faults body ⟨committed, none, statements⟩ =
          (.error fault, ⟨committed, none, statements + 1⟩) := by
        simp only [transact, begin, bind, attempt, opening]
      rw [ended]
      refine settled_error fun faultless => ?_
      cases opening.symm.trans (faultless statements)
  | none =>
      obtain ⟨result, working, statements', runs, holds⟩ := refines committed (statements + 1)
      cases result with
      | error error =>
          have ended : transact faults body ⟨committed, none, statements⟩ =
              (.error error, ⟨committed, none, statements'⟩) := by
            simp only [transact, begin, bind, attempt, opening, runs, rollback]
          rw [ended]
          refine settled_error fun faultless => ?_
          rcases holds with ⟨statement, fault, faulty, _⟩ | holds
          · cases faulty.symm.trans (faultless statement)
          · exact holds.symm
      | ok value =>
          have computed : outcome = .ok working := by
            rcases holds with ⟨_, _, _, impossible⟩ | holds
            · cases impossible
            · exact holds.symm
          cases closing : faults statements' with
          | some fault =>
              have ended : transact faults body ⟨committed, none, statements⟩ =
                  (.error fault, ⟨committed, none, statements' + 1⟩) := by
                simp only [transact, begin, bind, attempt, opening, runs, commit, closing]
              rw [ended]
              refine settled_error fun faultless => ?_
              cases closing.symm.trans (faultless statements')
          | none =>
              have ended : transact faults body ⟨committed, none, statements⟩ =
                  (.ok value, ⟨working, none, statements' + 1⟩) := by
                simp only [transact, begin, bind, attempt, opening, runs, commit, closing,
                  Option.getD_some, pure]
              rw [ended]
              exact {
                closed := rfl
                commits := fun _ _ => computed
                unchanged := fun _ impossible => by cases impossible
                faultless := fun _ => computed.symm }

end Rules

end Execution

end Oxbin
