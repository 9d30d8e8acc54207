import Mathlib.Data.List.Induction

/-!
# Histories

What becomes of a thing in the course of many events is often decided by the last event that
concerns it, and what is never taken back by the first one. Whether an event does may depend on the
events before it, as a request may be granted or refused.

* `History.Last` — the last event of a history that has a property, with the events before it;
  `History.Never` — there is none.
* `History.foldl_eq_or` — what events leave where it is was brought about by the first that could.
* `History.decided` — what the other events leave as it is was made by the last event that has the
  property, or it is as it was in the beginning.
-/

set_option autoImplicit false

namespace OpNet
namespace History

variable {α β : Type} {P : List α → α → Prop}

/-- **The first event decides**: what events bring about where it is not, and leave where it is. -/
theorem foldl_eq_or {σ : Type} {step : σ → α → σ} (f : σ → Option β) (g : α → Option β)
    (h : ∀ s a, f (step s a) = (f s).or (g a)) (s : σ) (history : List α) :
    f (history.foldl step s) = (f s).or (history.findSome? g) := by
  induction history generalizing s with
  | nil => rw [List.foldl_nil, List.findSome?_nil, Option.or_none]
  | cons a history ih =>
    rw [List.foldl_cons, ih, h, Option.or_assoc, List.findSome?_cons]
    cases g a <;> rfl

/-- The last event of a history that has a property, and the events before it. -/
inductive Last (P : List α → α → Prop) : List α → List α → α → Prop
  | here {history : List α} {a : α} (h : P history a) : Last P (history ++ [a]) history a
  | earlier {history before : List α} {a b : α} (h : Last P history before a)
      (hb : ¬P history b) : Last P (history ++ [b]) before a

/-- No event of a history has the property. -/
inductive Never (P : List α → α → Prop) : List α → Prop
  | nil : Never P []
  | concat {history : List α} {a : α} (h : Never P history) (ha : ¬P history a) :
      Never P (history ++ [a])

theorem never_or_exists_last (P : List α → α → Prop) (history : List α) :
    Never P history ∨ ∃ before a, Last P history before a := by
  induction history using List.reverseRecOn with
  | nil => exact .inl .nil
  | append_singleton history a ih =>
    by_cases ha : P history a
    · exact .inr ⟨history, a, .here ha⟩
    · rcases ih with hnever | ⟨before, b, hlast⟩
      · exact .inl (hnever.concat ha)
      · exact .inr ⟨before, b, hlast.earlier ha⟩

/-- The last event has the property, and the history starts with it and those before it. -/
theorem Last.holds {history before : List α} {a : α} (h : Last P history before a) :
    P before a ∧ before ++ [a] <+: history := by
  induction h with
  | here h => exact ⟨h, List.prefix_rfl⟩
  | earlier _ _ ih => exact ⟨ih.1, ih.2.trans (List.prefix_append _ _)⟩

/-- **The last event decides**: what the events without the property leave as it is. -/
theorem decided (f : List α → β)
    (hframe : ∀ history a, ¬P history a → f (history ++ [a]) = f history)
    (history : List α) : (Never P history ∧ f history = f []) ∨
      ∃ before a, Last P history before a ∧ f history = f (before ++ [a]) := by
  rcases never_or_exists_last P history with hnever | ⟨before, a, hlast⟩
  · refine .inl ⟨hnever, ?_⟩
    induction hnever with
    | nil => rfl
    | concat _ ha ih => rw [hframe _ _ ha, ih]
  · refine .inr ⟨before, a, hlast, ?_⟩
    induction hlast with
    | here => rfl
    | earlier _ hb ih => rw [hframe _ _ hb, ih]

end History
end OpNet
