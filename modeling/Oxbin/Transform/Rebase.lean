import Mathlib.Data.List.Basic

/-!
# Rebasing concurrent edits

Two edits of one document can be carried out in either order if each of them can be rebased over
the other.  From this square follow the rebasing of one edit over a sequence of edits, and of a
queue of edits over one concurrent edit.
-/

namespace Oxbin.Transform

universe u v

/-- Edits of documents with two rebasing functions that complete every pair of concurrent edits
to a square. -/
structure Rebasing (Doc : Type u) (Edit : Type v) where
  /-- The edit fits the document. -/
  Valid : Edit → Doc → Prop
  /-- The document after the edit. -/
  act : Edit → Doc → Doc
  /-- An edit rebased over one that was accepted before it. -/
  below : Edit → Edit → Option Edit
  /-- An accepted edit rebased over one that is not accepted yet. -/
  above : Edit → Edit → Option Edit
  square : ∀ {ours theirs : Edit} {doc : Doc}, Valid ours doc → Valid theirs doc →
    ∃ ours' theirs', below ours theirs = some ours' ∧ above theirs ours = some theirs' ∧
      Valid ours' (act theirs doc) ∧ Valid theirs' (act ours doc) ∧
      act ours' (act theirs doc) = act theirs' (act ours doc)

namespace Rebasing

variable {Doc : Type u} {Edit : Type v} (system : Rebasing Doc Edit)

/-- The document after a sequence of edits. -/
def run (edits : List Edit) (doc : Doc) : Doc :=
  edits.foldl (fun doc edit => system.act edit doc) doc

/-- Every edit of the sequence fits the document that the earlier ones leave. -/
def ValidAll : List Edit → Doc → Prop
  | [], _ => True
  | edit :: edits, doc => system.Valid edit doc ∧ ValidAll edits (system.act edit doc)

/-- An edit rebased over a sequence of accepted edits. -/
def belowAll (edit : Edit) (accepted : List Edit) : Option Edit :=
  accepted.foldlM system.below edit

/-- A queue of edits rebased over an accepted edit, and that edit rebased over the queue. -/
def rebaseQueue : Edit → List Edit → Option (List Edit × Edit)
  | theirs, [] => some ([], theirs)
  | theirs, ours :: queue => do
      let ours' ← system.below ours theirs
      let theirs' ← system.above theirs ours
      let (queue', theirs'') ← rebaseQueue theirs' queue
      some (ours' :: queue', theirs'')

@[simp] theorem run_nil (doc : Doc) : system.run [] doc = doc := rfl

@[simp] theorem run_cons (edit : Edit) (edits : List Edit) (doc : Doc) :
    system.run (edit :: edits) doc = system.run edits (system.act edit doc) := rfl

theorem run_append (left right : List Edit) (doc : Doc) :
    system.run (left ++ right) doc = system.run right (system.run left doc) := by
  simp [run]

@[simp] theorem validAll_nil (doc : Doc) : system.ValidAll [] doc := ⟨⟩

theorem validAll_append {left right : List Edit} {doc : Doc} :
    system.ValidAll (left ++ right) doc ↔
      system.ValidAll left doc ∧ system.ValidAll right (system.run left doc) := by
  induction left generalizing doc with
  | nil => simp [ValidAll]
  | cons edit left induction =>
      rw [List.cons_append, ValidAll, ValidAll, run_cons, induction, and_assoc]

@[simp] theorem belowAll_nil (edit : Edit) : system.belowAll edit [] = some edit := rfl

theorem belowAll_cons (edit accepted : Edit) (rest : List Edit) :
    system.belowAll edit (accepted :: rest) =
      (system.below edit accepted).bind fun edit => system.belowAll edit rest := by
  rw [belowAll, List.foldlM_cons]
  rfl

theorem belowAll_append (edit : Edit) (left right : List Edit) :
    system.belowAll edit (left ++ right) =
      (system.belowAll edit left).bind fun edit => system.belowAll edit right := by
  rw [belowAll, List.foldlM_append]
  rfl

/-- An edit can be rebased over every sequence of edits of its document. -/
theorem belowAll_spec {edit : Edit} {accepted : List Edit} {doc : Doc}
    (valid : system.Valid edit doc) (validAll : system.ValidAll accepted doc) :
    ∃ edit', system.belowAll edit accepted = some edit' ∧
      system.Valid edit' (system.run accepted doc) := by
  induction accepted generalizing edit doc with
  | nil => exact ⟨edit, rfl, valid⟩
  | cons first accepted induction =>
      obtain ⟨moved, _, below, _, validMoved, _⟩ := system.square valid validAll.1
      obtain ⟨edit', rest, validRest⟩ := induction validMoved validAll.2
      refine ⟨edit', ?_, validRest⟩
      rw [belowAll_cons, below, Option.bind_some, rest]

/-- A queue can be rebased over every edit of its document, and both orders meet. -/
theorem rebaseQueue_spec {theirs : Edit} {queue : List Edit} {doc : Doc}
    (valid : system.Valid theirs doc) (validAll : system.ValidAll queue doc) :
    ∃ queue' theirs', system.rebaseQueue theirs queue = some (queue', theirs') ∧
      system.ValidAll queue' (system.act theirs doc) ∧
      system.Valid theirs' (system.run queue doc) ∧
      system.run queue' (system.act theirs doc) = system.act theirs' (system.run queue doc) ∧
      queue'.head? = queue.head?.bind (system.below · theirs) ∧
      queue'.length = queue.length := by
  induction queue generalizing theirs doc with
  | nil => exact ⟨[], theirs, rfl, ⟨⟩, valid, rfl, rfl, rfl⟩
  | cons ours queue induction =>
      obtain ⟨ours', theirs', below, above, validOurs, validTheirs, meet⟩ :=
        system.square validAll.1 valid
      obtain ⟨queue', theirs'', rest, validQueue, validLast, meetQueue, _, length⟩ :=
        induction validTheirs validAll.2
      refine ⟨ours' :: queue', theirs'', ?_, ⟨validOurs, meet ▸ validQueue⟩, validLast, ?_, ?_, ?_⟩
      · simp [rebaseQueue, below, above, rest]
      · rw [run_cons, run_cons, meet, meetQueue]
      · simp [below]
      · rw [List.length_cons, List.length_cons, length]

end Rebasing

end Oxbin.Transform
