import StorageAtlas.Proofs.DeviceNode.Newest
import StorageAtlas.Proofs.Tree.Entries

/-!
The index of a device directory holds the special files that stand directly in
it, so a number is resolved exactly if one of them has it, and to the newest.
-/

namespace StorageAtlas

namespace Tree

/-- Is this a special file directly in a directory, with its own name behind the directory's? -/
def HoldsNode (t : Tree) (directory : Text) (n : DeviceNode) : Prop :=
  ∃ place name, t.find directory = .ok place ∧ t.isDirectory place = true ∧
    t.node? (name :: place) = some (.device n.kind n.number n.modifiedAt) ∧
    n.path = PathText.join directory name

/-- The path is that of a special file in the directory, of which none with the same kind and
number was modified later. Where names are proper the path leads to the file without a link. -/
def NewestNode (t : Tree) (directory : Text) (kind : DeviceKind) (number : DeviceNumber)
    (path : Text) : Prop :=
  ∃ n, t.HoldsNode directory n ∧ n.kind = kind ∧ n.number = number ∧ n.path = path ∧
    (∀ m, t.HoldsNode directory m → m.kind = kind → m.number = number →
      m.modifiedAt ≤ n.modifiedAt) ∧
    (t.NamesFiles → t.nodeAt path false = .ok (.device kind number n.modifiedAt))

theorem HoldsNode.nodeAt {t : Tree} {directory : Text} {n : DeviceNode}
    (h : t.HoldsNode directory n) (hnames : t.NamesFiles) :
    t.nodeAt n.path false = .ok (.device n.kind n.number n.modifiedAt) := by
  obtain ⟨place, name, hfind, hdir, hnode, hpath⟩ := h
  rw [hpath]
  refine nodeAt_join (isFileName_of_namesFiles hnames hnode) hdir hnode ?_ hfind
  intro target hlink
  cases hlink

end Tree

namespace NodeIndex

theorem nodeOf_eq_some_iff {t : Tree} {directory : Text} {place : Path} {name : Text}
    {n : DeviceNode} : nodeOf t directory place name = some n ↔
      t.node? (name :: place) = some (.device n.kind n.number n.modifiedAt) ∧
        n.path = PathText.join directory name := by
  unfold nodeOf
  constructor
  · intro h
    split at h
    · rename_i kind number modifiedAt hnode
      cases h
      exact ⟨hnode, rfl⟩
    · cases h
  · rintro ⟨hnode, hpath⟩
    rw [hnode, ← hpath]

/-- Of a directory that can be listed, the index holds the special files and nothing else. -/
theorem mem_build_iff {t : Tree} {directory : Text} {n : DeviceNode} :
    n ∈ (build t directory).nodes ↔
      (∃ names, t.list directory = .ok names) ∧ t.HoldsNode directory n := by
  cases hlist : t.list directory with
  | error e => simp [build, scan, hlist, empty]
  | ok names =>
    obtain ⟨place, hfind, hdir, rfl⟩ := Tree.list_eq_ok hlist
    simp only [build, scan, hlist, hfind, List.mem_filterMap, nodeOf_eq_some_iff]
    constructor
    · rintro ⟨name, -, hnode, hpath⟩
      exact ⟨⟨_, rfl⟩, place, name, hfind, hdir, hnode, hpath⟩
    · rintro ⟨-, place', name, hfind', -, hnode, hpath⟩
      obtain rfl : place = place' := Except.ok.inj (hfind.symm.trans hfind')
      refine ⟨name, ?_, hnode, hpath⟩
      rw [Tree.mem_children_iff, hnode]
      rfl

theorem newestNode_of_resolve {t : Tree} {directory path : Text} {number : DeviceNumber}
    {kind : DeviceKind} (h : (build t directory).resolve number kind = some path) :
    t.NewestNode directory kind number path := by
  obtain ⟨n, hn, rfl⟩ := Option.map_eq_some_iff.1 h
  have hnewest := isNewest_of_newest hn
  obtain ⟨hmem, hanswers⟩ := List.mem_filter.1 hnewest.mem
  obtain ⟨rfl, rfl⟩ := answersTo_iff.1 hanswers
  obtain ⟨hlist, hholds⟩ := mem_build_iff.1 hmem
  refine ⟨n, hholds, rfl, rfl, rfl, ?_, hholds.nodeAt⟩
  intro m hm hkind hnumber
  have hm' : m ∈ (build t directory).nodes := mem_build_iff.2 ⟨hlist, hm⟩
  exact hnewest.le (List.mem_filter.2 ⟨hm', answersTo_iff.2 ⟨hnumber, hkind⟩⟩)

theorem resolve_isSome {t : Tree} {directory : Text} {names : List Text} {n : DeviceNode}
    (hlist : t.list directory = .ok names) (h : t.HoldsNode directory n) :
    ((build t directory).resolve n.number n.kind).isSome = true := by
  rw [resolve, Option.isSome_map]
  exact newest_isSome (mem_build_iff.2 ⟨⟨names, hlist⟩, h⟩)

end NodeIndex
end StorageAtlas
