import Mathlib.Algebra.Order.Ring.Rat
import Mathlib.Data.List.Induction
import StorageAtlas.DeviceNode.Index

/-!
The index keeps, of all nodes with one number and kind, the one that was modified
last, and of several such ones the one that was seen last.
-/

namespace StorageAtlas.NodeIndex

/-- None of the nodes before `n` is newer, and all after it are older. -/
def IsNewest (nodes : List DeviceNode) (n : DeviceNode) : Prop :=
  ∃ before after, nodes = before ++ n :: after ∧
    (∀ m ∈ before, m.modifiedAt ≤ n.modifiedAt) ∧ ∀ m ∈ after, m.modifiedAt < n.modifiedAt

theorem IsNewest.mem {nodes : List DeviceNode} {n : DeviceNode} (h : IsNewest nodes n) :
    n ∈ nodes := by
  obtain ⟨before, after, rfl, -, -⟩ := h
  simp

theorem IsNewest.le {nodes : List DeviceNode} {n m : DeviceNode} (h : IsNewest nodes n)
    (hm : m ∈ nodes) : m.modifiedAt ≤ n.modifiedAt := by
  obtain ⟨before, after, rfl, hbefore, hafter⟩ := h
  rcases List.mem_append.1 hm with hm | hm
  · exact hbefore m hm
  · rcases List.mem_cons.1 hm with rfl | hm
    · exact le_refl _
    · exact le_of_lt (hafter m hm)

/-- One more node, seen last, is the newest of all unless the newest so far is newer. -/
theorem IsNewest.newer {nodes : List DeviceNode} {held : DeviceNode} (h : IsNewest nodes held)
    (node : DeviceNode) : ∃ n, newer (some held) node = some n ∧ IsNewest (nodes ++ [node]) n := by
  by_cases hle : held.modifiedAt ≤ node.modifiedAt
  · refine ⟨node, by simp [NodeIndex.newer, hle], nodes, [], rfl, ?_, by simp⟩
    intro m hm
    exact le_trans (h.le hm) hle
  · refine ⟨held, by simp [NodeIndex.newer, hle], ?_⟩
    obtain ⟨before, after, rfl, hbefore, hafter⟩ := h
    refine ⟨before, after ++ [node], by simp, hbefore, ?_⟩
    intro m hm
    rcases List.mem_append.1 hm with hm | hm
    · exact hafter m hm
    · rw [List.mem_singleton.1 hm]
      exact lt_of_not_ge hle

/-- Any nodes but none have a newest one, and going through them finds it. -/
theorem exists_foldl_newer {nodes : List DeviceNode} (h : nodes ≠ []) :
    ∃ n, nodes.foldl newer none = some n ∧ IsNewest nodes n := by
  induction nodes using List.reverseRecOn with
  | nil => exact absurd rfl h
  | append_singleton init node ih =>
    rw [List.foldl_append]
    cases init with
    | nil => exact ⟨node, rfl, [], [], rfl, by simp, by simp⟩
    | cons first rest =>
      obtain ⟨held, hheld, hnewest⟩ := ih (by simp)
      rw [hheld]
      exact hnewest.newer node

theorem answersTo_iff {number : DeviceNumber} {kind : DeviceKind} {n : DeviceNode} :
    answersTo number kind n = true ↔ n.number = number ∧ n.kind = kind := by
  simp [answersTo]

/-- A number is resolved to the newest of the nodes that have it. -/
theorem isNewest_of_newest {index : NodeIndex} {number : DeviceNumber} {kind : DeviceKind}
    {n : DeviceNode} (h : index.newest number kind = some n) :
    IsNewest (index.nodes.filter (answersTo number kind)) n := by
  have hne : index.nodes.filter (answersTo number kind) ≠ [] := by
    intro hnil
    rw [newest, hnil] at h
    cases h
  obtain ⟨n', hn', hnewest⟩ := exists_foldl_newer hne
  rw [newest, hn', Option.some.injEq] at h
  exact h ▸ hnewest

theorem newest_isSome {index : NodeIndex} {n : DeviceNode} (h : n ∈ index.nodes) :
    (index.newest n.number n.kind).isSome = true := by
  have hmem : n ∈ index.nodes.filter (answersTo n.number n.kind) :=
    List.mem_filter.2 ⟨h, answersTo_iff.2 ⟨rfl, rfl⟩⟩
  obtain ⟨n', hn', -⟩ := exists_foldl_newer (List.ne_nil_of_mem hmem)
  rw [newest, hn']
  rfl

end StorageAtlas.NodeIndex
