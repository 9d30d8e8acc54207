/-!
# Ascending lists of indices

Sets of operators and chains are written as strictly increasing lists of their indices.

* `Ascending.insert`, `Ascending.ofList` — build such a list.
* `Ascending.mem_insert`, `Ascending.mem_ofList` — what is in it.
* `Ascending.pairwise_insert`, `Ascending.pairwise_ofList` — it is strictly increasing.
-/

set_option autoImplicit false

namespace OpNet
namespace Ascending

/-- Puts an index at its place, unless it is there already. -/
def insert (a : Nat) : List Nat → List Nat
  | [] => [a]
  | b :: bs => if a < b then a :: b :: bs else if a = b then b :: bs else b :: insert a bs

/-- The indices of a list in increasing order, without repetitions. -/
def ofList (as : List Nat) : List Nat := as.foldr insert []

@[simp] theorem mem_insert {a b : Nat} {bs : List Nat} : a ∈ insert b bs ↔ a = b ∨ a ∈ bs := by
  induction bs with
  | nil => simp [insert]
  | cons c cs ih =>
    rw [insert]
    split
    · simp
    · split
      · next h => simp [h]
      · simp only [List.mem_cons, ih]
        constructor <;> rintro (h | h | h) <;> simp [h]

@[simp] theorem mem_ofList {a : Nat} {as : List Nat} : a ∈ ofList as ↔ a ∈ as := by
  induction as with
  | nil => simp [ofList]
  | cons b bs ih =>
    have h : ofList (b :: bs) = insert b (ofList bs) := rfl
    rw [h, mem_insert, ih, List.mem_cons]

theorem pairwise_insert {a : Nat} {bs : List Nat} (h : bs.Pairwise (· < ·)) :
    (insert a bs).Pairwise (· < ·) := by
  induction bs with
  | nil => simp [insert]
  | cons b bs ih =>
    obtain ⟨hb, hbs⟩ := List.pairwise_cons.1 h
    rw [insert]
    split
    · next hab =>
      refine List.pairwise_cons.2 ⟨fun c hc => ?_, h⟩
      rcases List.mem_cons.1 hc with rfl | hc
      · exact hab
      · exact Nat.lt_trans hab (hb c hc)
    · split
      · exact h
      · refine List.pairwise_cons.2 ⟨fun c hc => ?_, ih hbs⟩
        rcases mem_insert.1 hc with rfl | hc
        · omega
        · exact hb c hc

/-- The list is strictly increasing. -/
theorem pairwise_ofList (as : List Nat) : (ofList as).Pairwise (· < ·) := by
  induction as with
  | nil => exact List.Pairwise.nil
  | cons a as ih => exact pairwise_insert ih

end Ascending
end OpNet
