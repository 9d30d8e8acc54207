import Mathlib.Data.List.Induction
import Mathlib.Logic.Relation
import OpNet.Graph.Dependency

/-!
# What the pass over the definitions finds

`dependencies` makes one pass over the definitions and keeps no history: of every blob it remembers
the last writer and the readers since. This file says what its edges are in terms of the definitions
alone, and that what was forgotten was not needed.

* `WaitsFor ops j i` — one of the three rules puts operator `i` before operator `j`.
* `Tracks` — the invariant of the pass: the frontier knows the last writers and the readers since,
  and the nodes so far have the edges that the rules give.
* `edge_dependencies_iff` — the edges of the graph are exactly those of the rules.
* `reaches_of_conflicts` — two operators in conflict are on a path, however far apart they are: if
  the rules do not link them, they link the later one to a writer in between.
* `reaches_dependencies_iff` — the paths order what is in conflict, directly or through others, and
  nothing else.
-/

set_option autoImplicit false

namespace OpNet

/-! ## Readers and writers -/

/-- Operator `i` reads a blob. -/
def Reads (ops : List OperatorDef) (i : Nat) (blob : String) : Prop :=
  ∃ op, ops[i]? = some op ∧ blob ∈ op.inputs

/-- Operator `i` writes a blob. -/
def Writes (ops : List OperatorDef) (i : Nat) (blob : String) : Prop :=
  ∃ op, ops[i]? = some op ∧ blob ∈ op.outputs

/-- Of the operators before `j`, operator `i` is the last to write a blob. -/
def LastWriter (ops : List OperatorDef) (blob : String) (j i : Nat) : Prop :=
  i < j ∧ Writes ops i blob ∧ ∀ k, i < k → k < j → ¬Writes ops k blob

/-- Before `j`, operator `i` reads a blob that neither it nor an operator after it writes. -/
def ReadSince (ops : List OperatorDef) (blob : String) (j i : Nat) : Prop :=
  i < j ∧ Reads ops i blob ∧ ∀ k, i ≤ k → k < j → ¬Writes ops k blob

/-- Operator `j` uses a blob that `i` was the last to write, or writes one that `i` has read since
it was last written. -/
def WaitsFor (ops : List OperatorDef) (j i : Nat) : Prop :=
  ∃ blob, (Reads ops j blob ∨ Writes ops j blob) ∧ LastWriter ops blob j i ∨
    Writes ops j blob ∧ ReadSince ops blob j i

theorem WaitsFor.lt {ops : List OperatorDef} {i j : Nat} (h : WaitsFor ops j i) : i < j := by
  obtain ⟨blob, ⟨-, h⟩ | ⟨-, h⟩⟩ := h
  · exact h.1
  · exact h.1

theorem WaitsFor.lt_length {ops : List OperatorDef} {i j : Nat} (h : WaitsFor ops j i) :
    j < ops.length := by
  obtain ⟨blob, ⟨⟨op, h, -⟩ | ⟨op, h, -⟩, -⟩ | ⟨⟨op, h, -⟩, -⟩⟩ := h <;>
    exact (List.getElem?_eq_some_iff.1 h).1

theorem conflicts_iff {ops : List OperatorDef} {i j : Nat} :
    Conflicts ops i j ↔ i < j ∧ ∃ blob, Writes ops i blob ∧ (Reads ops j blob ∨ Writes ops j blob) ∨
      Reads ops i blob ∧ Writes ops j blob := by
  constructor
  · rintro ⟨hij, a, b, ha, hb, ⟨blob, hout, hin | hout'⟩ | ⟨blob, hin, hout⟩⟩
    · exact ⟨hij, blob, .inl ⟨⟨a, ha, hout⟩, .inl ⟨b, hb, hin⟩⟩⟩
    · exact ⟨hij, blob, .inl ⟨⟨a, ha, hout⟩, .inr ⟨b, hb, hout'⟩⟩⟩
    · exact ⟨hij, blob, .inr ⟨⟨a, ha, hin⟩, ⟨b, hb, hout⟩⟩⟩
  · rintro ⟨hij, blob,
      ⟨⟨a, ha, hout⟩, ⟨b, hb, hin⟩ | ⟨b, hb, hout'⟩⟩ | ⟨⟨a, ha, hin⟩, ⟨b, hb, hout⟩⟩⟩
    · exact ⟨hij, a, b, ha, hb, .inl ⟨blob, hout, .inl hin⟩⟩
    · exact ⟨hij, a, b, ha, hb, .inl ⟨blob, hout, .inr hout'⟩⟩
    · exact ⟨hij, a, b, ha, hb, .inr ⟨blob, hin, hout⟩⟩

/-! ### One more operator -/

section Snoc

variable {ops : List OperatorDef} {op : OperatorDef} {blob : String} {i j : Nat}

theorem writes_append_of_lt (h : i < ops.length) :
    Writes (ops ++ [op]) i blob ↔ Writes ops i blob := by
  rw [Writes, Writes, List.getElem?_append_left h]

theorem reads_append_of_lt (h : i < ops.length) :
    Reads (ops ++ [op]) i blob ↔ Reads ops i blob := by
  rw [Reads, Reads, List.getElem?_append_left h]

theorem writes_append_length : Writes (ops ++ [op]) ops.length blob ↔ blob ∈ op.outputs := by
  simp [Writes]

theorem reads_append_length : Reads (ops ++ [op]) ops.length blob ↔ blob ∈ op.inputs := by
  simp [Reads]

theorem lastWriter_append_of_le (h : j ≤ ops.length) :
    LastWriter (ops ++ [op]) blob j i ↔ LastWriter ops blob j i := by
  constructor
  · rintro ⟨hij, hw, hlast⟩
    refine ⟨hij, (writes_append_of_lt (by omega)).1 hw, fun k hik hkj hk => hlast k hik hkj ?_⟩
    exact (writes_append_of_lt (by omega)).2 hk
  · rintro ⟨hij, hw, hlast⟩
    refine ⟨hij, (writes_append_of_lt (by omega)).2 hw, fun k hik hkj hk => hlast k hik hkj ?_⟩
    exact (writes_append_of_lt (by omega)).1 hk

theorem readSince_append_of_le (h : j ≤ ops.length) :
    ReadSince (ops ++ [op]) blob j i ↔ ReadSince ops blob j i := by
  constructor
  · rintro ⟨hij, hr, hsince⟩
    refine ⟨hij, (reads_append_of_lt (by omega)).1 hr, fun k hik hkj hk => hsince k hik hkj ?_⟩
    exact (writes_append_of_lt (by omega)).2 hk
  · rintro ⟨hij, hr, hsince⟩
    refine ⟨hij, (reads_append_of_lt (by omega)).2 hr, fun k hik hkj hk => hsince k hik hkj ?_⟩
    exact (writes_append_of_lt (by omega)).1 hk

theorem waitsFor_append_of_lt (h : j < ops.length) :
    WaitsFor (ops ++ [op]) j i ↔ WaitsFor ops j i := by
  simp only [WaitsFor, reads_append_of_lt h, writes_append_of_lt h,
    lastWriter_append_of_le (Nat.le_of_lt h), readSince_append_of_le (Nat.le_of_lt h)]

theorem waitsFor_append_length : WaitsFor (ops ++ [op]) ops.length i ↔
    ∃ blob, (blob ∈ op.inputs ∨ blob ∈ op.outputs) ∧ LastWriter ops blob ops.length i ∨
      blob ∈ op.outputs ∧ ReadSince ops blob ops.length i := by
  simp only [WaitsFor, reads_append_length, writes_append_length,
    lastWriter_append_of_le (Nat.le_refl ops.length),
    readSince_append_of_le (Nat.le_refl ops.length)]

/-- A further operator waits for others, and no other waits for it. -/
theorem waitsFor_append_iff : WaitsFor (ops ++ [op]) j i ↔
    WaitsFor ops j i ∨ j = ops.length ∧ WaitsFor (ops ++ [op]) ops.length i := by
  constructor
  · intro h
    have hlen := h.lt_length
    rw [List.length_append, List.length_singleton] at hlen
    rcases Nat.lt_succ_iff_lt_or_eq.1 hlen with hlt | rfl
    · exact .inl ((waitsFor_append_of_lt hlt).1 h)
    · exact .inr ⟨rfl, h⟩
  · rintro (h | ⟨rfl, h⟩)
    · exact (waitsFor_append_of_lt h.lt_length).2 h
    · exact h

/-- A further operator becomes the last writer of what it writes. -/
theorem lastWriter_append_succ : LastWriter (ops ++ [op]) blob (ops.length + 1) i ↔
    if blob ∈ op.outputs then i = ops.length else LastWriter ops blob ops.length i := by
  split
  · next hout =>
    constructor
    · rintro ⟨hi, -, hlast⟩
      by_contra hne
      exact hlast ops.length (by omega) (by omega) (writes_append_length.2 hout)
    · rintro rfl
      exact ⟨by omega, writes_append_length.2 hout, fun k _ _ => by omega⟩
  · next hout =>
    have hold : LastWriter (ops ++ [op]) blob ops.length i ↔ LastWriter ops blob ops.length i :=
      lastWriter_append_of_le (Nat.le_refl _)
    rw [← hold]
    constructor
    · rintro ⟨hi, hw, hlast⟩
      have hne : i ≠ ops.length := by
        rintro rfl
        exact hout (writes_append_length.1 hw)
      exact ⟨by omega, hw, fun k hik hk => hlast k hik (by omega)⟩
    · rintro ⟨hi, hw, hlast⟩
      refine ⟨by omega, hw, fun k hik hk => ?_⟩
      rcases Nat.lt_succ_iff_lt_or_eq.1 hk with hk | rfl
      · exact hlast k hik hk
      · exact fun hk => hout (writes_append_length.1 hk)

/-- A further operator is a reader of what it reads, unless it writes it as well; what it writes has
no readers any more. -/
theorem readSince_append_succ : ReadSince (ops ++ [op]) blob (ops.length + 1) i ↔
    blob ∉ op.outputs ∧ (ReadSince ops blob ops.length i ∨ i = ops.length ∧ blob ∈ op.inputs) := by
  constructor
  · rintro ⟨hi, hr, hsince⟩
    refine ⟨fun hout => hsince ops.length (by omega) (by omega) (writes_append_length.2 hout), ?_⟩
    rcases Nat.lt_succ_iff_lt_or_eq.1 hi with hlt | rfl
    · refine .inl ((readSince_append_of_le (Nat.le_refl _)).1 ⟨hlt, hr, fun k hik hk => ?_⟩)
      exact hsince k hik (by omega)
    · exact .inr ⟨rfl, reads_append_length.1 hr⟩
  · rintro ⟨hout, hread | ⟨rfl, hin⟩⟩
    · have hold : ReadSince (ops ++ [op]) blob ops.length i :=
        (readSince_append_of_le (Nat.le_refl _)).2 hread
      obtain ⟨hi, hr, hsince⟩ := hold
      refine ⟨by omega, hr, fun k hik hk => ?_⟩
      rcases Nat.lt_succ_iff_lt_or_eq.1 hk with hk | rfl
      · exact hsince k hik hk
      · exact fun hk => hout (writes_append_length.1 hk)
    · refine ⟨by omega, reads_append_length.2 hin, fun k hik hk => ?_⟩
      obtain rfl : k = ops.length := by omega
      exact fun hk => hout (writes_append_length.1 hk)

end Snoc

/-! ## The frontier -/

namespace Frontier

theorem writer?_foldl_read (idx : Nat) (blobs : List String) (f : Frontier) (blob : String) :
    (blobs.foldl (read idx) f).writer? blob = f.writer? blob := by
  induction blobs generalizing f with
  | nil => rfl
  | cons b bs ih => rw [List.foldl_cons, ih, writer?_read]

theorem mem_readersOf_foldl_read (idx : Nat) (blobs : List String) (f : Frontier) (blob : String)
    (i : Nat) : i ∈ (blobs.foldl (read idx) f).readersOf blob ↔
      i ∈ f.readersOf blob ∨ i = idx ∧ blob ∈ blobs := by
  induction blobs generalizing f with
  | nil => simp
  | cons b bs ih =>
    rw [List.foldl_cons, ih, readersOf_read]
    by_cases hb : blob = b
    · simp [hb]
      tauto
    · simp [hb]

theorem writer?_foldl_write (idx : Nat) (blobs : List String) (f : Frontier) (blob : String) :
    (blobs.foldl (write idx) f).writer? blob =
      if blob ∈ blobs then some idx else f.writer? blob := by
  induction blobs generalizing f with
  | nil => simp
  | cons b bs ih =>
    rw [List.foldl_cons, ih, writer?_write]
    by_cases hb : blob = b <;> simp [hb]

theorem readersOf_foldl_write (idx : Nat) (blobs : List String) (f : Frontier) (blob : String) :
    (blobs.foldl (write idx) f).readersOf blob = if blob ∈ blobs then [] else f.readersOf blob := by
  induction blobs generalizing f with
  | nil => simp
  | cons b bs ih =>
    rw [List.foldl_cons, ih, readersOf_write]
    by_cases hb : blob = b <;> simp [hb]

theorem writer?_advance (f : Frontier) (idx : Nat) (op : OperatorDef) (blob : String) :
    (f.advance idx op).writer? blob = if blob ∈ op.outputs then some idx else f.writer? blob := by
  rw [advance, writer?_foldl_write, writer?_foldl_read]

theorem mem_readersOf_advance (f : Frontier) (idx : Nat) (op : OperatorDef) (blob : String)
    (i : Nat) : i ∈ (f.advance idx op).readersOf blob ↔
      blob ∉ op.outputs ∧ (i ∈ f.readersOf blob ∨ i = idx ∧ blob ∈ op.inputs) := by
  rw [advance, readersOf_foldl_write]
  split
  · next h => simp [h]
  · next h => simp [h, mem_readersOf_foldl_read]

theorem mem_parents (f : Frontier) (op : OperatorDef) (i : Nat) : i ∈ f.parents op ↔
    ∃ blob, (blob ∈ op.inputs ∨ blob ∈ op.outputs) ∧ f.writer? blob = some i ∨
      blob ∈ op.outputs ∧ i ∈ f.readersOf blob := by
  simp only [parents, Ascending.mem_ofList, List.mem_append, List.mem_filterMap, List.mem_flatMap,
    Option.mem_toList]
  constructor
  · rintro (⟨blob, hin, hw⟩ | ⟨blob, hout, hw | hr⟩)
    · exact ⟨blob, .inl ⟨.inl hin, hw⟩⟩
    · exact ⟨blob, .inl ⟨.inr hout, hw⟩⟩
    · exact ⟨blob, .inr ⟨hout, hr⟩⟩
  · rintro ⟨blob, ⟨hin | hout, hw⟩ | ⟨hout, hr⟩⟩
    · exact .inl ⟨blob, hin, hw⟩
    · exact .inr ⟨blob, hout, .inl hw⟩
    · exact .inr ⟨blob, hout, .inr hr⟩

end Frontier

/-! ## The invariant of the pass -/

/-- What the pass knows after the operators `ops`. -/
structure Tracks (ops : List OperatorDef) (s : Inference) : Prop where
  length_nodes : s.nodes.length = ops.length
  writer?_iff : ∀ blob i, s.frontier.writer? blob = some i ↔ LastWriter ops blob ops.length i
  mem_readersOf : ∀ blob i, i ∈ s.frontier.readersOf blob ↔ ReadSince ops blob ops.length i
  mem_parents : ∀ {j node}, s.nodes[j]? = some node → ∀ i, i ∈ node.parents ↔ WaitsFor ops j i
  mem_children : ∀ {i node}, s.nodes[i]? = some node → ∀ j, j ∈ node.children ↔ WaitsFor ops j i

namespace Inference

theorem ofOps_append (ops : List OperatorDef) (op : OperatorDef) :
    ofOps (ops ++ [op]) = (ofOps ops).add op := by
  rw [ofOps, ofOps, List.foldl_append, List.foldl_cons, List.foldl_nil]

theorem length_link (child : Nat) (parents : List Nat) (nodes : List Node) :
    (link child parents nodes).length = nodes.length := by
  simp [link]

/-- Linking gives the parents one more child and leaves everything else as it was. -/
theorem getElem?_link (child : Nat) (parents : List Nat) (nodes : List Node) (i : Nat) :
    (link child parents nodes)[i]? = nodes[i]?.map fun node =>
      if i ∈ parents then { node with children := node.children ++ [child] } else node := by
  simp [link, List.getElem?_mapIdx]

theorem tracks_empty : Tracks [] {} where
  length_nodes := rfl
  writer?_iff blob i := by simp [LastWriter]
  mem_readersOf blob i := by simp [ReadSince]
  mem_parents h := by simp at h
  mem_children h := by simp at h

theorem tracks_add {ops : List OperatorDef} {s : Inference} (h : Tracks ops s) (op : OperatorDef) :
    Tracks (ops ++ [op]) (s.add op) := by
  have hparents : ∀ i, i ∈ s.frontier.parents op ↔ WaitsFor (ops ++ [op]) ops.length i := by
    intro i
    simp only [Frontier.mem_parents, waitsFor_append_length, h.writer?_iff, h.mem_readersOf]
  have hnode : ∀ {j node}, (s.add op).nodes[j]? = some node →
      (j < ops.length ∧ ∃ old, s.nodes[j]? = some old ∧ node.parents = old.parents ∧
        ∀ c, c ∈ node.children ↔ c ∈ old.children ∨ c = ops.length ∧ j ∈ s.frontier.parents op) ∨
      j = ops.length ∧ node = { parents := s.frontier.parents op } := by
    intro j node hj
    simp only [add, List.getElem?_append, length_link, getElem?_link, h.length_nodes] at hj
    split at hj
    · next hlt =>
      obtain ⟨old, hold, rfl⟩ := Option.map_eq_some_iff.1 hj
      refine .inl ⟨hlt, old, hold, ?_⟩
      split
      · next hmem => simp [hmem]
      · next hmem => simp [hmem]
    · next hle =>
      obtain ⟨hlt, rfl⟩ := List.getElem?_eq_some_iff.1 hj
      rw [List.length_singleton] at hlt
      exact .inr ⟨by omega, by simp⟩
  refine ⟨?_, fun blob i => ?_, fun blob i => ?_, fun {j node} hj i => ?_, fun {i node} hi j => ?_⟩
  · simp [add, length_link, h.length_nodes]
  · simp only [add, Frontier.writer?_advance, List.length_append, List.length_singleton,
      lastWriter_append_succ, h.length_nodes]
    split
    · simp [eq_comm]
    · exact h.writer?_iff blob i
  · simp only [add, Frontier.mem_readersOf_advance, List.length_append, List.length_singleton,
      readSince_append_succ, h.length_nodes, h.mem_readersOf]
  · rcases hnode hj with ⟨hlt, old, hold, hpar, -⟩ | ⟨rfl, rfl⟩
    · rw [hpar, waitsFor_append_of_lt hlt, h.mem_parents hold]
    · exact hparents i
  · rcases hnode hi with ⟨hlt, old, hold, -, hch⟩ | ⟨rfl, rfl⟩
    · rw [hch, h.mem_children hold, hparents]
      exact waitsFor_append_iff.symm
    · refine iff_of_false List.not_mem_nil fun hw => ?_
      have hlt := hw.lt
      have hlen := hw.lt_length
      rw [List.length_append, List.length_singleton] at hlen
      omega

theorem tracks_ofOps (ops : List OperatorDef) : Tracks ops (ofOps ops) := by
  induction ops using List.reverseRecOn with
  | nil => exact tracks_empty
  | append_singleton ops op ih =>
    rw [ofOps_append]
    exact tracks_add ih op

end Inference

/-! ## The edges -/

theorem length_dependencies (ops : List OperatorDef) : (dependencies ops).length = ops.length :=
  (Inference.tracks_ofOps ops).length_nodes

/-- An operator has a node. -/
theorem exists_node_of_lt {ops : List OperatorDef} {i : Nat} (h : i < ops.length) :
    ∃ node, (dependencies ops)[i]? = some node := by
  rw [← length_dependencies ops] at h
  exact ⟨_, List.getElem?_eq_getElem h⟩

theorem mem_parents_iff {ops : List OperatorDef} {j : Nat} {node : Node}
    (h : (dependencies ops)[j]? = some node) (i : Nat) : i ∈ node.parents ↔ WaitsFor ops j i :=
  (Inference.tracks_ofOps ops).mem_parents h i

/-- **The edges are those of the three rules.** -/
theorem edge_dependencies_iff {ops : List OperatorDef} {i j : Nat} :
    Edge (dependencies ops) i j ↔ WaitsFor ops j i := by
  constructor
  · rintro ⟨node, hnode, hj⟩
    exact ((Inference.tracks_ofOps ops).mem_children hnode j).1 hj
  · intro h
    obtain ⟨node, hnode⟩ := exists_node_of_lt (Nat.lt_trans h.lt h.lt_length)
    exact ⟨node, hnode, ((Inference.tracks_ofOps ops).mem_children hnode j).2 h⟩

/-- The second writer of a blob waits for the first one and for the reader in between. -/
example : dependencies [{ opType := "A", outputs := ["x"] },
    { opType := "B", inputs := ["x"], outputs := ["y"] }, { opType := "C", outputs := ["x"] }] =
      [⟨[], [1, 2]⟩, ⟨[0], [2]⟩, ⟨[0, 1], []⟩] := by cbv

/-- Parents and children are two views of the same edges. -/
theorem edge_iff_mem_parents {ops : List OperatorDef} {i j : Nat} {node : Node}
    (h : (dependencies ops)[j]? = some node) : Edge (dependencies ops) i j ↔ i ∈ node.parents := by
  rw [edge_dependencies_iff, mem_parents_iff h]

/-! ## Conflicts are ordered -/

theorem exists_lastWriter {ops : List OperatorDef} {blob : String} {i j : Nat} (hij : i < j)
    (h : Writes ops i blob) : ∃ w, i ≤ w ∧ LastWriter ops blob j w := by
  induction j with
  | zero => omega
  | succ j ih =>
    by_cases hj : Writes ops j blob
    · exact ⟨j, by omega, by omega, hj, fun k _ _ => by omega⟩
    · have hne : i ≠ j := fun hi => hj (hi ▸ h)
      obtain ⟨w, hiw, hwj, hw, hlast⟩ := ih (by omega)
      refine ⟨w, hiw, by omega, hw, fun k hwk hk => ?_⟩
      rcases Nat.lt_succ_iff_lt_or_eq.1 hk with hk | rfl
      · exact hlast k hwk hk
      · exact hj

/-- A later operator that uses what an earlier one has written, or writes what it has read, waits
for it or for a writer in between that conflicts with the earlier one. -/
theorem exists_waitsFor_of_conflicts {ops : List OperatorDef} {i j : Nat} (h : Conflicts ops i j) :
    ∃ w, WaitsFor ops j w ∧ (w = i ∨ Conflicts ops i w) := by
  obtain ⟨hij, blob, ⟨hi, hj⟩ | ⟨hi, hj⟩⟩ := conflicts_iff.1 h
  · obtain ⟨w, hiw, hw⟩ := exists_lastWriter hij hi
    refine ⟨w, ⟨blob, .inl ⟨hj, hw⟩⟩, ?_⟩
    rcases Nat.eq_or_lt_of_le hiw with rfl | hlt
    · exact .inl rfl
    · exact .inr (conflicts_iff.2 ⟨hlt, blob, .inl ⟨hi, .inr hw.2.1⟩⟩)
  · by_cases hsince : ∀ k, i ≤ k → k < j → ¬Writes ops k blob
    · exact ⟨i, ⟨blob, .inr ⟨hj, hij, hi, hsince⟩⟩, .inl rfl⟩
    · push Not at hsince
      obtain ⟨k, hik, hkj, hk⟩ := hsince
      obtain ⟨w, hkw, hw⟩ := exists_lastWriter hkj hk
      refine ⟨w, ⟨blob, .inl ⟨.inr hj, hw⟩⟩, ?_⟩
      rcases Nat.eq_or_lt_of_le (Nat.le_trans hik hkw) with rfl | hlt
      · exact .inl rfl
      · exact .inr (conflicts_iff.2 ⟨hlt, blob, .inr ⟨hi, hw.2.1⟩⟩)

/-- **Conflicts are ordered.** Of two operators in conflict the later one is reached from the
earlier one. -/
theorem reaches_of_conflicts {ops : List OperatorDef} {i j : Nat} (h : Conflicts ops i j) :
    Reaches (dependencies ops) i j := by
  induction j using Nat.strongRecOn with
  | ind j ih =>
    obtain ⟨w, hw, rfl | hiw⟩ := exists_waitsFor_of_conflicts h
    · exact .single (edge_dependencies_iff.2 hw)
    · exact .tail (ih w hw.lt hiw) (edge_dependencies_iff.2 hw)

/-- An operator is in conflict with what it waits for. -/
theorem WaitsFor.conflicts {ops : List OperatorDef} {i j : Nat} (h : WaitsFor ops j i) :
    Conflicts ops i j := by
  refine conflicts_iff.2 ⟨h.lt, ?_⟩
  obtain ⟨blob, ⟨huse, hwriter⟩ | ⟨hwrite, hreader⟩⟩ := h
  · exact ⟨blob, .inl ⟨hwriter.2.1, huse⟩⟩
  · exact ⟨blob, .inr ⟨hreader.2.1, hwrite⟩⟩

/-- **The graph orders exactly what is in conflict**, directly or through others, although no edge
leads past the next writer of its blob. -/
theorem reaches_dependencies_iff {ops : List OperatorDef} {i j : Nat} :
    Reaches (dependencies ops) i j ↔ Relation.TransGen (Conflicts ops) i j := by
  constructor
  · exact Relation.TransGen.mono (fun _ _ he => (edge_dependencies_iff.1 he).conflicts) i j
  · exact Relation.TransGen.lift' id (fun _ _ => reaches_of_conflicts) i j

end OpNet
