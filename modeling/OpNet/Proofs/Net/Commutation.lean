import OpNet.Proofs.Net.Replay
import OpNet.Proofs.Operator.Local

/-!
# The order of executions

Local operators can be executed in any order that keeps those that touch the same blob in the order
of the list: the outcome of every execution, the operators and the values come out the same.

* `Clash` — one of two operators writes a blob that the other one names.
* `Causal` — an order in which an operator comes after all earlier ones that it clashes with.
* `Causal.value?_replay` — what a blob holds after such an order is what it holds after its last
  writer in the order of the list.
* `Causal.execute_congr` — every execution goes as it does in the order of the list, and
  `Causal.replay_eq` — in the end everything is the same.
-/

set_option autoImplicit false

namespace OpNet

variable {σ : Type}

/-! ## Orders -/

/-- The operator at a position writes a blob. -/
def WritesTo (ops : List (Operator σ)) (i : Nat) (b : BlobId) : Prop :=
  ∃ op, ops[i]? = some op ∧ b ∈ op.binding.outputs

/-- The operator at a position reads or writes a blob. -/
def Touches (ops : List (Operator σ)) (i : Nat) (b : BlobId) : Prop :=
  ∃ op, ops[i]? = some op ∧ b ∈ op.blobs

/-- One of the operators at two positions writes a blob that the other one reads or writes. -/
def Clash (ops : List (Operator σ)) (i j : Nat) : Prop :=
  ∃ b, WritesTo ops i b ∧ Touches ops j b ∨ Touches ops i b ∧ WritesTo ops j b

/-- An order of execution in which no operator comes twice, and each comes after all operators
before it in the list that it clashes with. -/
inductive Causal (ops : List (Operator σ)) : List Nat → Prop
  | nil : Causal ops []
  | snoc {order : List Nat} {i : Nat} (h : Causal ops order) (hi : i < ops.length)
      (hnew : i ∉ order) (hearlier : ∀ j < i, Clash ops j i → j ∈ order) :
      Causal ops (order ++ [i])

/-- Of the operators that write a blob, those that have been executed are the ones before a position
of the list. -/
def WrittenUpTo (ops : List (Operator σ)) (order : List Nat) (m : Nat) (b : BlobId) : Prop :=
  ∀ i, WritesTo ops i b → (i ∈ order ↔ i < m)

section Orders

variable {ops : List (Operator σ)} {order : List Nat} {i j m : Nat} {b : BlobId}

theorem WritesTo.touches (h : WritesTo ops i b) : Touches ops i b := by
  obtain ⟨op, hop, hb⟩ := h
  exact ⟨op, hop, List.mem_append_right _ hb⟩

theorem Causal.mem_of_clash (h : Causal ops order) (hij : i < j) (hclash : Clash ops i j)
    (hj : j ∈ order) : i ∈ order := by
  induction h with
  | nil => cases hj
  | @snoc order k h hk hnew hearlier ih =>
    rcases List.mem_append.1 hj with hj | hj
    · exact List.mem_append_left _ (ih hj)
    · obtain rfl := List.mem_singleton.1 hj
      exact List.mem_append_left _ (hearlier i hij hclash)

/-- The order of the list is causal, also when operators are left out that the others do not clash
with. -/
theorem causal_of_pairwise (hrise : order.Pairwise (· < ·)) (hlt : ∀ i ∈ order, i < ops.length)
    (hclosed : ∀ i ∈ order, ∀ j < i, Clash ops j i → j ∈ order) : Causal ops order := by
  induction order using List.reverseRecOn with
  | nil => exact .nil
  | append_singleton order i ih =>
    obtain ⟨hrise, -, hlast⟩ := List.pairwise_append.1 hrise
    have hbelow : ∀ j ∈ order, j < i := fun j hj => hlast j hj i (List.mem_singleton_self i)
    have hle : ∀ k ∈ order ++ [i], k ≤ i := by
      intro k hk
      rcases List.mem_append.1 hk with hk | hk
      · exact Nat.le_of_lt (hbelow k hk)
      · exact Nat.le_of_eq (List.mem_singleton.1 hk)
    have hearlier : ∀ k ∈ order ++ [i], ∀ j < k, Clash ops j k → j ∈ order := by
      intro k hk j hjk hclash
      refine (List.mem_append.1 (hclosed k hk j hjk hclash)).resolve_right fun hj => ?_
      rw [List.mem_singleton.1 hj] at hjk
      exact Nat.not_lt.2 (hle k hk) hjk
    refine .snoc (ih hrise (fun j hj => hlt j (by simp [hj])) fun k hk => ?_) (hlt i (by simp))
      (fun hi => Nat.lt_irrefl i (hbelow i hi)) (hearlier i (by simp))
    exact hearlier k (List.mem_append_left _ hk)

theorem causal_range {k : Nat} (hk : k ≤ ops.length) : Causal ops (List.range k) :=
  causal_of_pairwise List.pairwise_lt_range
    (fun _ hi => Nat.lt_of_lt_of_le (List.mem_range.1 hi) hk)
    fun _ hi _ hji _ => List.mem_range.2 (Nat.lt_trans hji (List.mem_range.1 hi))

/-- When it is an operator's turn, what it touches was written by the operators before it, and by
all of them. -/
theorem Causal.writtenUpTo (h : Causal ops order) (hnew : i ∉ order)
    (hearlier : ∀ j < i, Clash ops j i → j ∈ order) (hb : Touches ops i b) :
    WrittenUpTo ops order i b := by
  intro j hj
  constructor
  · intro hmem
    rcases Nat.lt_trichotomy j i with hlt | rfl | hlt
    · exact hlt
    · exact absurd hmem hnew
    · exact absurd (h.mem_of_clash hlt ⟨b, .inr ⟨hb, hj⟩⟩ hmem) hnew
  · exact fun hlt => hearlier j hlt ⟨b, .inl ⟨hj, hb⟩⟩

end Orders

/-! ## Executions in the order of the list -/

section Replay

variable {mode : Mode} {ops : List (Operator σ)} {heap : Heap} {order : List Nat} {i m : Nat}
  {b : BlobId}

variable (hlocal : ∀ op ∈ ops, op.Local)
include hlocal

/-- An execution changes no value but those of the outputs. -/
theorem value?_replay_concat (hnew : i ∉ order) (hb : ¬WritesTo ops i b) :
    (replay mode ops heap (order ++ [i])).2.value? b = (replay mode ops heap order).2.value? b := by
  cases hop : ops[i]? with
  | none =>
    rw [replay_concat, executeAt, (replay_of_not_mem hnew).trans hop]
  | some op =>
    rw [replay_concat_of_not_mem hop hnew]
    exact (hlocal op (List.mem_of_getElem? hop)).value?_execute _ _ fun hmem => hb ⟨op, hop, hmem⟩

/-- What a blob holds changes only with its writers. -/
theorem value?_replay_range {k : Nat} (hkm : k ≤ m)
    (hnone : ∀ j, k ≤ j → j < m → ¬WritesTo ops j b) :
    (replay mode ops heap (List.range m)).2.value? b =
      (replay mode ops heap (List.range k)).2.value? b := by
  induction m, hkm using Nat.le_induction with
  | base => rfl
  | succ m hkm ih =>
    rw [List.range_succ, value?_replay_concat hlocal (by simp) (hnone m hkm (Nat.lt_succ_self m))]
    exact ih fun j hkj hjm => hnone j hkj (Nat.lt_succ_of_lt hjm)

end Replay

/-! ## Executions in a causal order -/

section Causal

variable (mode : Mode) {ops : List (Operator σ)} {heap heap' : Heap} {order : List Nat}
  {i m : Nat} {b : BlobId} {op : Operator σ}
variable (hlocal : ∀ op ∈ ops, op.Local) (hsame : ∀ b, heap.value? b = heap'.value? b)
include hlocal hsame

/-- **What a blob holds.** By induction on the order. An operator that writes the blob finds what it
touches as it would in the order of the list, and so leaves what it would leave there. -/
theorem Causal.value?_replay (h : Causal ops order) (hb : WrittenUpTo ops order m b) :
    (replay mode ops heap order).2.value? b =
      (replay mode ops heap' (List.range m)).2.value? b := by
  induction h generalizing m b with
  | nil =>
    rw [value?_replay_range hlocal (Nat.zero_le m) fun j _ hjm hj => by simpa using (hb j hj).2 hjm]
    exact hsame b
  | @snoc order i h hi hnew hearlier ih =>
    have hop : ops[i]? = some ops[i] := List.getElem?_eq_getElem hi
    by_cases hw : WritesTo ops i b
    · have him : i < m := (hb i hw).1 (by simp)
      have hnone : ∀ j, i + 1 ≤ j → j < m → ¬WritesTo ops j b := by
        intro j hij hjm hj
        have hmem : j ∈ order := by
          rcases List.mem_append.1 ((hb j hj).2 hjm) with hmem | hmem
          · exact hmem
          · have := List.mem_singleton.1 hmem
            omega
        exact hnew (h.mem_of_clash hij ⟨b, .inl ⟨hw, hj.touches⟩⟩ hmem)
      have hagree : ∀ b ∈ ops[i].blobs, (replay mode ops heap order).2.value? b =
          (replay mode ops heap' (List.range i)).2.value? b := fun b hb =>
        ih (h.writtenUpTo hnew hearlier ⟨ops[i], hop, hb⟩)
      have hout : b ∈ ops[i].binding.outputs := by
        obtain ⟨op, hop', hmem⟩ := hw
        rwa [Option.some.inj (hop.symm.trans hop')]
      rw [value?_replay_range hlocal him hnone, List.range_succ,
        replay_concat_of_not_mem hop hnew, replay_concat_of_not_mem hop (by simp)]
      exact ((hlocal _ (List.getElem_mem hi)).execute_congr mode hagree).2.2 b hout
    · rw [value?_replay_concat hlocal hnew hw]
      refine ih fun j hj => ?_
      have hne : j ≠ i := fun hji => hw (hji ▸ hj)
      rw [← hb j hj, List.mem_append, List.mem_singleton, or_iff_left hne]

/-- **An execution goes as it does in the order of the list.** -/
theorem Causal.execute_congr (h : Causal ops order) (hop : ops[i]? = some op) (hnew : i ∉ order)
    (hearlier : ∀ j < i, Clash ops j i → j ∈ order) :
    (op.execute mode (replay mode ops heap order).2).op =
        (op.execute mode (replay mode ops heap' (List.range i)).2).op ∧
      (op.execute mode (replay mode ops heap order).2).outcome =
        (op.execute mode (replay mode ops heap' (List.range i)).2).outcome := by
  have hagree := (hlocal op (List.mem_of_getElem? hop)).execute_congr mode fun b hb =>
    h.value?_replay mode hlocal hsame (h.writtenUpTo hnew hearlier ⟨op, hop, hb⟩)
  exact ⟨hagree.1, hagree.2.1⟩

/-- An operator is left as it is in the order of the list. -/
theorem Causal.getElem?_replay (h : Causal ops order) (hi : i ∈ order) :
    (replay mode ops heap order).1[i]? =
      (replay mode ops heap' (List.range (i + 1))).1[i]? := by
  induction h with
  | nil => cases hi
  | @snoc order j h hj hnew hearlier ih =>
    rcases List.mem_append.1 hi with hi | hi
    · have hne : i ≠ j := fun hij => hnew (hij ▸ hi)
      rw [replay_concat, executeAt_of_ne _ _ hne, ih hi]
    · obtain rfl := List.mem_singleton.1 hi
      have hop : ops[i]? = some ops[i] := List.getElem?_eq_getElem hj
      rw [List.range_succ, replay_concat_of_not_mem hop hnew,
        replay_concat_of_not_mem hop (by simp),
        (h.execute_congr mode hlocal hsame hop hnew hearlier).1]
      simp [length_replay, hj]

/-- **In the end everything is the same** as after the order of the list. -/
theorem Causal.replay_eq (h : Causal ops order) (hall : ∀ i < ops.length, i ∈ order) :
    (replay mode ops heap order).1 = (replay mode ops heap' (List.range ops.length)).1 ∧
      ∀ b, (replay mode ops heap order).2.value? b =
        (replay mode ops heap' (List.range ops.length)).2.value? b := by
  refine ⟨List.ext_getElem? fun i => ?_, fun b => h.value?_replay mode hlocal hsame fun i hi => ?_⟩
  · by_cases hi : i < ops.length
    · rw [h.getElem?_replay mode hlocal hsame (hall i hi),
        (causal_range (Nat.le_refl _)).getElem?_replay mode hlocal (fun _ => rfl)
          (List.mem_range.2 hi)]
    · rw [List.getElem?_eq_none (by rw [length_replay]; omega),
        List.getElem?_eq_none (by rw [length_replay]; omega)]
  · obtain ⟨op, hop, -⟩ := hi
    have hlt := (List.getElem?_eq_some_iff.1 hop).1
    exact iff_of_true (hall i hlt) hlt

end Causal

end OpNet
