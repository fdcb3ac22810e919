import Mathlib.Data.List.Forall2

/-!
# Lists that are related element by element
-/

namespace Oxbin

variable {α β γ ε : Type}

/-- Two relations between lists make a third one. -/
theorem forall₂_trans {first : α → β → Prop} {second : β → γ → Prop}
    {third : α → γ → Prop} {xs : List α} {ys : List β} {zs : List γ}
    (left : List.Forall₂ first xs ys) (right : List.Forall₂ second ys zs)
    (both : ∀ x, ∀ y ∈ ys, ∀ z, first x y → second y z → third x z) :
    List.Forall₂ third xs zs := by
  induction left generalizing zs with
  | nil =>
      cases right
      exact .nil
  | @cons x y xs ys head _ induction =>
      cases right with
      | cons head' tail' =>
          exact .cons (both x y (.head _) _ head head')
            (induction tail' fun x y member => both x y (.tail _ member))

theorem forall₂_imp {relation relation' : α → β → Prop} {xs : List α} {ys : List β}
    (related : List.Forall₂ relation xs ys)
    (implies : ∀ x, ∀ y ∈ ys, relation x y → relation' x y) : List.Forall₂ relation' xs ys := by
  refine forall₂_trans related (List.forall₂_same.mpr fun _ _ => rfl) ?_
  rintro x y member _ holds rfl
  exact implies x y member holds

/-- What a list is related to has an element for each of its elements. -/
theorem exists_forall₂ {relation : α → β → Prop} {xs : List α} {ys : List β}
    (related : List.Forall₂ relation xs ys) {x : α} (member : x ∈ xs) :
    ∃ y ∈ ys, relation x y := by
  induction related with
  | nil => cases member
  | @cons _ y _ _ head _ induction =>
      cases member with
      | head => exact ⟨y, .head _, head⟩
      | tail _ member =>
          obtain ⟨y, member, relates⟩ := induction member
          exact ⟨y, .tail _ member, relates⟩

theorem forall₂_of_mapM {change : α → Except ε β} {values : List α}
    {results : List β} (changed : values.mapM change = .ok results) :
    List.Forall₂ (fun value result => change value = .ok result) values results := by
  induction values generalizing results with
  | nil =>
      cases changed
      exact .nil
  | cons value values induction =>
      rw [List.mapM_cons] at changed
      cases first : change value with
      | error error =>
          rw [first] at changed
          cases changed
      | ok result =>
          cases rest : values.mapM change with
          | error error =>
              rw [first, rest] at changed
              cases changed
          | ok results =>
              rw [first, rest] at changed
              cases changed
              exact .cons first (induction rest)

end Oxbin
