import StorageAtlas.Proofs.DeviceNode.Untied

/-!
What a number is resolved to. A table that takes in one node after the other, each in
the place of the one with its number and kind unless that is newer, holds in the end
the last of the newest nodes in each place. Other numbers and kinds have no part in it,
nor has the order of the nodes where their times differ.
-/

namespace StorageAtlas.NodeIndex

variable {index : NodeIndex} {number : DeviceNumber} {kind : DeviceKind}
  {nodes after : List DeviceNode} {n m : DeviceNode}

/-! ## The last of the newest nodes -/

theorem newer_of_le {held : Option DeviceNode} (h : ∀ m ∈ held, m.modifiedAt ≤ n.modifiedAt) :
    newer held n = some n := by
  cases held with
  | none => rfl
  | some m => exact if_pos (h m rfl)

theorem foldl_newer_of_lt (h : ∀ m ∈ after, m.modifiedAt < n.modifiedAt) :
    after.foldl newer (some n) = some n := by
  induction after with
  | nil => rfl
  | cons m rest ih =>
    have hm : m.modifiedAt < n.modifiedAt := h m List.mem_cons_self
    have hstays : newer (some n) m = some n := if_neg (not_le_of_gt hm)
    rw [List.foldl_cons, hstays]
    exact ih fun other hother => h other (List.mem_cons_of_mem m hother)

theorem mem_of_foldl_newer (h : nodes.foldl newer none = some m) : m ∈ nodes := by
  have hne : nodes ≠ [] := by
    rintro rfl
    cases h
  obtain ⟨n, hn, hnewest⟩ := exists_foldl_newer hne
  rw [hn, Option.some.injEq] at h
  exact h ▸ hnewest.mem

theorem foldl_newer_of_isNewest (h : IsNewest nodes n) : nodes.foldl newer none = some n := by
  obtain ⟨before, after, rfl, hbefore, hafter⟩ := h
  rw [List.foldl_append, List.foldl_cons,
    newer_of_le fun m hm => hbefore m (mem_of_foldl_newer hm), foldl_newer_of_lt hafter]

theorem newest_eq_some_iff :
    index.newest number kind = some n ↔
      IsNewest (index.nodes.filter (answersTo number kind)) n :=
  ⟨isNewest_of_newest, foldl_newer_of_isNewest⟩

/-- A node with the number and kind, behind no newer one and before older ones only. -/
def IsLast (index : NodeIndex) (number : DeviceNumber) (kind : DeviceKind) (n : DeviceNode) :
    Prop :=
  ∃ before after, index.nodes = before ++ n :: after ∧ (n.number = number ∧ n.kind = kind) ∧
    (∀ m ∈ before, m.number = number → m.kind = kind → m.modifiedAt ≤ n.modifiedAt) ∧
    ∀ m ∈ after, m.number = number → m.kind = kind → m.modifiedAt < n.modifiedAt

theorem isNewest_filter_iff :
    IsNewest (index.nodes.filter (answersTo number kind)) n ↔ index.IsLast number kind n := by
  constructor
  · rintro ⟨kept, kept', hfilter, hbefore, hafter⟩
    obtain ⟨before, rest, hnodes, rfl, hrest⟩ := List.filter_eq_append_iff.1 hfilter
    obtain ⟨between, after, rfl, hbetween, hn, rfl⟩ := List.filter_eq_cons_iff.1 hrest
    refine ⟨before ++ between, after, by simp [hnodes], answersTo_iff.1 hn, ?_, ?_⟩
    · intro m hm hnumber hkind
      have hanswers := answersTo_iff.2 ⟨hnumber, hkind⟩
      rcases List.mem_append.1 hm with hm | hm
      · exact hbefore m (List.mem_filter.2 ⟨hm, hanswers⟩)
      · exact absurd hanswers (hbetween m hm)
    · intro m hm hnumber hkind
      exact hafter m (List.mem_filter.2 ⟨hm, answersTo_iff.2 ⟨hnumber, hkind⟩⟩)
  · rintro ⟨before, after, hnodes, hn, hbefore, hafter⟩
    refine ⟨before.filter (answersTo number kind), after.filter (answersTo number kind), ?_, ?_, ?_⟩
    · rw [hnodes, List.filter_append, List.filter_cons_of_pos (answersTo_iff.2 hn)]
    · intro m hm
      obtain ⟨hmem, hanswers⟩ := List.mem_filter.1 hm
      obtain ⟨hnumber, hkind⟩ := answersTo_iff.1 hanswers
      exact hbefore m hmem hnumber hkind
    · intro m hm
      obtain ⟨hmem, hanswers⟩ := List.mem_filter.1 hm
      obtain ⟨hnumber, hkind⟩ := answersTo_iff.1 hanswers
      exact hafter m hmem hnumber hkind

theorem newest_eq_none_iff_forall :
    index.newest number kind = none ↔
      ∀ n ∈ index.nodes, ¬ (n.number = number ∧ n.kind = kind) := by
  rw [newest_eq_none_iff, List.filter_eq_nil_iff]
  simp only [answersTo_iff]

/-! ## The table -/

/-- One node at most for each number and kind. -/
abbrev Table := DeviceNumber → DeviceKind → Option DeviceNode

/-- Puts a node into the place for its number and kind, unless a newer one is there. -/
def enter (table : Table) (n : DeviceNode) : Table := fun number kind =>
  if answersTo number kind n then newer (table number kind) n else table number kind

def tableOf (nodes : List DeviceNode) : Table := nodes.foldl enter fun _ _ => none

/-- To enter nodes one after the other is to keep the newer one in each place by itself. -/
theorem foldl_enter (table : Table) (nodes : List DeviceNode) :
    nodes.foldl enter table number kind =
      (nodes.filter (answersTo number kind)).foldl newer (table number kind) := by
  induction nodes generalizing table with
  | nil => rfl
  | cons n rest ih =>
    rw [List.foldl_cons, ih, enter]
    by_cases hn : answersTo number kind n = true
    · rw [if_pos hn, List.filter_cons_of_pos hn, List.foldl_cons]
    · rw [if_neg hn, List.filter_cons_of_neg hn]

theorem newest_eq_tableOf : index.newest number kind = tableOf index.nodes number kind := by
  rw [newest, tableOf, foldl_enter]

/-- A number and kind are resolved to nothing exactly if no node has them, and else to the node that
the table ends with in their place: none before it is newer and all after it are older. Two indexes
with the same nodes in another order agree where no two nodes with the number and kind have one
time, and two with the same nodes for them agree whatever else they hold. -/
theorem resolve_isLast (index : NodeIndex) (number : DeviceNumber) (kind : DeviceKind) :
    (index.resolve number kind = none ↔
      ∀ n ∈ index.nodes, ¬ (n.number = number ∧ n.kind = kind)) ∧
    (∀ path, index.resolve number kind = some path ↔
      ∃ n, index.IsLast number kind n ∧ n.path = path) ∧
    index.resolve number kind = (tableOf index.nodes number kind).map DeviceNode.path ∧
    (∀ other : NodeIndex, index.nodes.Perm other.nodes →
      ((index.nodes.filter (answersTo number kind)).map DeviceNode.modifiedAt).Nodup →
        index.resolve number kind = other.resolve number kind) ∧
    ∀ other : NodeIndex,
      index.nodes.filter (answersTo number kind) = other.nodes.filter (answersTo number kind) →
        index.resolve number kind = other.resolve number kind := by
  refine ⟨?_, fun path => ?_, ?_, fun other hperm htimes => ?_, fun other hsame => ?_⟩
  · rw [resolve, Option.map_eq_none_iff, newest_eq_none_iff_forall]
  · rw [resolve, Option.map_eq_some_iff]
    simp only [newest_eq_some_iff, isNewest_filter_iff]
  · rw [resolve, newest_eq_tableOf]
  · rw [resolve, resolve, newest_eq_of_perm htimes hperm]
  · rw [resolve, resolve, newest, newest, hsame]

end StorageAtlas.NodeIndex
