import Oxbin.Live.Load
import Oxbin.Live.Outcome
import Oxbin.Livecollab.Canonical

/-!
# Payloads of the store

What `appendAndSave` writes into the ledger and the history is read back unchanged when a room
is loaded.
-/

namespace Oxbin.Live

open Livecollab Storage

/-- The payload of an accepted document operation. -/
theorem decodeDocumentChange_encode {changes : ChangeSet} (canonical : changes.Canonical) :
    decodeDocumentChange (encodeDocumentChange changes) = .ok changes := by
  have read : (encodeDocumentChange changes).get? "changes" = some (encodeChangeSet changes) := rfl
  unfold decodeDocumentChange
  rw [read]
  simp only [encodeDocumentChange, isObject, Bool.true_eq_false, if_false,
    parseChangeSetJSON_encodeChangeSet canonical]
  rfl

section Fields

/-- An `omitempty` field of an object. -/
def optionalField (name value : String) : List (String × Json) :=
  if value = "" then [] else [(name, .str value)]

theorem find?_reverse_optionalField (key name value : String) :
    (optionalField name value).reverse.find? (fun member => member.1 == key) =
      if name = key ∧ value ≠ "" then some (name, .str value) else none := by
  by_cases empty : value = ""
  · simp [optionalField, empty]
  · by_cases same : name = key <;> simp [optionalField, empty, same]

theorem stringsOf_str (values : List String) : stringsOf (values.map .str) = .ok values := by
  induction values with
  | nil => rfl
  | cons value values induction => rw [List.map_cons, stringsOf, induction]; rfl

variable (persisted : PersistedMetadataChange)

theorem payload_eq : persisted.payload =
    .obj (("kind", .str persisted.kind) :: optionalField "document_id" persisted.documentID ++
      optionalField "name" persisted.name ++ optionalField "language" persisted.language ++
      optionalField "content" persisted.content ++
      if persisted.order = [] then [] else [("order", .arr (persisted.order.map .str))]) := rfl

/-- What is found under a name in the payload. -/
theorem payload_get? (key : String) : persisted.payload.get? key =
    ((((((if persisted.order = [] then []
              else [("order", Json.arr (persisted.order.map .str))]).reverse.find?
            fun member => member.1 == key).or
          (if "content" = key ∧ persisted.content ≠ "" then
            some ("content", .str persisted.content) else none)).or
        (if "language" = key ∧ persisted.language ≠ "" then
          some ("language", .str persisted.language) else none)).or
      (if "name" = key ∧ persisted.name ≠ "" then
        some ("name", .str persisted.name) else none)).or
      ((if "document_id" = key ∧ persisted.documentID ≠ "" then
          some ("document_id", .str persisted.documentID) else none).or
        (if "kind" = key then some ("kind", .str persisted.kind) else none))).map Prod.snd := by
  rw [payload_eq]
  simp only [Json.get?, List.cons_append, List.reverse_append, List.reverse_cons,
    List.find?_append, find?_reverse_optionalField]
  by_cases kind : "kind" = key <;> simp [kind, Option.or_assoc]

theorem stringField_payload (value : String) (name : String)
    (read : persisted.payload.get? name = if value = "" then none else some (.str value)) :
    stringField name persisted.payload = .ok value := by
  unfold stringField
  rw [read]
  by_cases empty : value = "" <;> simp [empty]

/-- The payload of an accepted metadata operation. -/
theorem decodeMetadataChange_payload : decodeMetadataChange persisted.payload = .ok persisted := by
  have kind : stringField "kind" persisted.payload = .ok persisted.kind := by
    unfold stringField
    rw [payload_get?]
    by_cases none : persisted.order = [] <;> simp [none]
  have documentID : stringField "document_id" persisted.payload = .ok persisted.documentID := by
    apply stringField_payload
    rw [payload_get?]
    by_cases none : persisted.order = [] <;>
      by_cases empty : persisted.documentID = "" <;> simp [none, empty]
  have name : stringField "name" persisted.payload = .ok persisted.name := by
    apply stringField_payload
    rw [payload_get?]
    by_cases none : persisted.order = [] <;>
      by_cases empty : persisted.name = "" <;> simp [none, empty]
  have language : stringField "language" persisted.payload = .ok persisted.language := by
    apply stringField_payload
    rw [payload_get?]
    by_cases none : persisted.order = [] <;>
      by_cases empty : persisted.language = "" <;> simp [none, empty]
  have content : stringField "content" persisted.payload = .ok persisted.content := by
    apply stringField_payload
    rw [payload_get?]
    by_cases none : persisted.order = [] <;>
      by_cases empty : persisted.content = "" <;> simp [none, empty]
  have order : stringsField "order" persisted.payload = .ok persisted.order := by
    unfold stringsField
    rw [payload_get?]
    by_cases none : persisted.order = [] <;> simp [none, stringsOf_str]
  have object : isObject persisted.payload = true := rfl
  unfold decodeMetadataChange
  rw [kind, documentID, name, language, content, order, object]
  rfl

end Fields

/-! ## Rebased change sets -/

/-- The change sets of a history are well formed. -/
def HistoryFormed (history : List DocumentHistory) : Prop :=
  ∀ entry ∈ history, entry.changes.WellFormed

theorem Room.rebase_formed {baseVersion : Int} {history : List DocumentHistory}
    {changes rebased : ChangeSet} (formed : HistoryFormed history)
    (changesFormed : changes.WellFormed) (plain : changes.Plain)
    (equality : rebase baseVersion history changes = .ok rebased) :
    rebased.WellFormed ∧ rebased.Plain := by
  induction history generalizing changes with
  | nil =>
      cases equality
      exact ⟨changesFormed, plain⟩
  | cons entry history induction =>
      have tail : HistoryFormed history := fun other member => formed other (by simp [member])
      rw [rebase] at equality
      split at equality
      case isTrue =>
        split at equality
        case h_1 => cases equality
        case h_2 mapped =>
          exact induction tail (changesFormed.map (formed entry (by simp)) mapped)
            (ChangeSet.map_plain mapped) equality
      case isFalse => exact induction tail changesFormed plain equality

end Oxbin.Live
