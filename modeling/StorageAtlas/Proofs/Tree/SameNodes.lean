import StorageAtlas.Proofs.Text.Order
import StorageAtlas.Proofs.Tree.Distinct
import StorageAtlas.Proofs.Tree.Entries
import StorageAtlas.Sorting

/-!
Trees that hold the same nodes and may list them in different orders. Every path
leads to the same place in both, so all that is read from files, links and
special files is the same, and a directory has the same names in both, of which
only the order can differ.
-/

namespace StorageAtlas

theorem Text.le_antisymm {a b : Text} (hab : le a b = true) (hba : le b a = true) : a = b :=
  PartialOrder.le_antisymm a b ((le_iff a b).1 hab) ((le_iff b a).1 hba)

/-- Names in ascending order do not show the order in which they were listed. -/
theorem Text.sortBy_le_eq_of_perm {names names' : List Text} (h : names.Perm names') :
    sortBy le names = sortBy le names' :=
  sortBy_eq_of_perm le_total le_trans (fun _ _ _ _ => le_antisymm) h

namespace Tree

/-- Two trees with the same node at every place. -/
structure SameNodes (t u : Tree) : Prop where
  node? : t.node? = u.node?

variable {t u : Tree}

theorem lookup_eq_some_iff_mem {entries : List (Path × Node)} (h : (entries.map Prod.fst).Nodup)
    {path : Path} {node : Node} :
    entries.lookup path = some node ↔ (path, node) ∈ entries := by
  constructor
  · intro hlookup
    obtain ⟨before, after, rfl, -⟩ := List.lookup_eq_some_iff.1 hlookup
    exact List.mem_append_right _ List.mem_cons_self
  · intro hmem
    obtain ⟨before, after, rfl⟩ := List.append_of_mem hmem
    refine List.lookup_eq_some_iff.2 ⟨before, after, rfl, fun e he => ?_⟩
    rw [List.map_append, List.map_cons, List.nodup_append] at h
    have hne := h.2.2 e.1 (List.mem_map_of_mem he) path List.mem_cons_self
    simpa using Ne.symm hne

/-- Putting the same nodes in another order makes no other tree of it. -/
theorem sameNodes_of_perm (h : t.entries.Perm u.entries) : t.SameNodes u := by
  constructor
  funext path
  cases path with
  | nil => rfl
  | cons name parent =>
    show t.entries.lookup (name :: parent) = u.entries.lookup (name :: parent)
    refine Option.ext fun node => ?_
    rw [lookup_eq_some_iff_mem t.distinct, lookup_eq_some_iff_mem u.distinct, h.mem_iff]

/-! ## Paths -/

namespace SameNodes

theorem isDirectory (h : t.SameNodes u) : t.isDirectory = u.isDirectory := by
  funext path
  rw [Tree.isDirectory, Tree.isDirectory, h.node?]

theorem walkWith (h : t.SameNodes u) (follow : Bool)
    {onLink onLink' : Path → List Text → Except LookupError Path} (honLink : onLink = onLink') :
    t.walkWith follow onLink = u.walkWith follow onLink' := by
  subst honLink
  funext here parts
  induction parts generalizing here with
  | nil => rw [Tree.walkWith, Tree.walkWith]
  | cons part rest ih =>
    rw [Tree.walkWith, Tree.walkWith, h.isDirectory, h.node?]
    simp only [ih]

theorem walk (h : t.SameNodes u) (follow : Bool) (links : Nat) :
    t.walk follow links = u.walk follow links := by
  induction links with
  | zero => exact h.walkWith follow rfl
  | succ links ih => exact h.walkWith follow ih

theorem find (h : t.SameNodes u) : @Tree.find t = @Tree.find u := by
  funext path follow
  rw [Tree.find, Tree.find, h.walk]

theorem nodeAt (h : t.SameNodes u) : @Tree.nodeAt t = @Tree.nodeAt u := by
  funext path follow
  rw [Tree.nodeAt, Tree.nodeAt, h.find, h.node?]

/-! ## Names -/

theorem children_perm (h : t.SameNodes u) (place : Path) :
    (t.children place).Perm (u.children place) := by
  refine (List.perm_ext_iff_of_nodup (t.nodup_children place) (u.nodup_children place)).2 ?_
  intro name
  rw [mem_children_iff, mem_children_iff, h.node?]

theorem mem_names_iff (h : t.SameNodes u) (name : Text) : name ∈ t.names ↔ name ∈ u.names := by
  simp only [Tree.mem_names_iff, (h.children_perm _).mem_iff]

/-- A directory can be listed in both trees or in neither, and for the same cause. -/
theorem list_cases (h : t.SameNodes u) (path : Text) :
    (∃ e, t.list path = .error e ∧ u.list path = .error e) ∨
      ∃ names names', t.list path = .ok names ∧ u.list path = .ok names' ∧ names.Perm names' := by
  rw [Tree.list, Tree.list, h.find, h.node?]
  cases u.find path with
  | error e => exact .inl ⟨e, rfl, rfl⟩
  | ok place =>
    simp only
    split
    · exact .inr ⟨_, _, rfl, rfl, h.children_perm place⟩
    · exact .inl ⟨_, rfl, rfl⟩
    · exact .inl ⟨_, rfl, rfl⟩

end SameNodes
end Tree

/-! ## Attributes -/

namespace AttributeTree

/-- Two attribute trees with the same root in trees with the same nodes. -/
structure SameNodes (s s' : AttributeTree) : Prop where
  tree : s.tree.SameNodes s'.tree
  root : s.root = s'.root

theorem sameNodes_mounted {t u : Tree} (h : t.SameNodes u) (root : Text) :
    (mounted t root).SameNodes (mounted u root) := ⟨h, rfl⟩

namespace SameNodes

variable {s s' : AttributeTree}

theorem under (h : s.SameNodes s') : s.under = s'.under := by
  funext parts
  rw [AttributeTree.under, AttributeTree.under, h.root]

theorem classPath (h : s.SameNodes s') : s.classPath = s'.classPath := by
  funext family parts
  rw [AttributeTree.classPath, AttributeTree.classPath, h.under]

theorem readBytes (h : s.SameNodes s') :
    @AttributeTree.readBytes s = @AttributeTree.readBytes s' := by
  funext directory name limit
  simp only [AttributeTree.readBytes, Tree.readFile, h.tree.nodeAt]

theorem read (h : s.SameNodes s') : @AttributeTree.read s = @AttributeTree.read s' := by
  funext directory name encoding
  simp only [AttributeTree.read, h.readBytes]

theorem readMany (h : s.SameNodes s') : s.readMany = s'.readMany := by
  funext directory names
  simp only [AttributeTree.readMany, h.read]

theorem readEvent (h : s.SameNodes s') :
    @AttributeTree.readEvent s = @AttributeTree.readEvent s' := by
  funext directory key name
  simp only [AttributeTree.readEvent, h.readBytes]

theorem readInt (h : s.SameNodes s') : @AttributeTree.readInt s = @AttributeTree.readInt s' := by
  funext directory name base
  simp only [AttributeTree.readInt, h.read]

theorem deviceNumber (h : s.SameNodes s') : s.deviceNumber = s'.deviceNumber := by
  funext directory
  simp only [AttributeTree.deviceNumber, h.read, h.readEvent]

theorem isDir (h : s.SameNodes s') : s.isDir = s'.isDir := by
  funext path
  simp only [AttributeTree.isDir, Tree.isDir, h.tree.nodeAt]

theorem has (h : s.SameNodes s') : s.has = s'.has := by
  funext path
  simp only [AttributeTree.has, Tree.exists?, h.tree.find]

theorem isLink (h : s.SameNodes s') : s.isLink = s'.isLink := by
  funext path
  simp only [AttributeTree.isLink, Tree.isLink, h.tree.nodeAt]

theorem realPath (h : s.SameNodes s') : s.realPath = s'.realPath := by
  funext path
  simp only [AttributeTree.realPath, Tree.realPath, h.tree.find]

theorem readLink (h : s.SameNodes s') : s.readLink = s'.readLink := by
  funext path
  simp only [AttributeTree.readLink, Tree.readLink, h.tree.nodeAt]

theorem entries_perm (h : s.SameNodes s') (directory : Text) :
    (s.entries directory).Perm (s'.entries directory) := by
  unfold entries AttributeTree.list
  rcases h.tree.list_cases directory with ⟨e, he, he'⟩ | ⟨names, names', hn, hn', hperm⟩
  · rw [he, he']
  · rw [hn, hn']
    exact hperm

/-- Of the names in a directory, those of a kind in ascending order. -/
theorem sortBy_filter_entries (h : s.SameNodes s') (p : Text → Bool) (directory : Text) :
    sortBy Text.le ((s.entries directory).filter p) =
      sortBy Text.le ((s'.entries directory).filter p) :=
  Text.sortBy_le_eq_of_perm ((h.entries_perm directory).filter p)

end SameNodes
end AttributeTree
end StorageAtlas
