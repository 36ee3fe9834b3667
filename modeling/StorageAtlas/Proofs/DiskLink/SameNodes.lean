import StorageAtlas.DiskLink.Wwn
import StorageAtlas.Proofs.DiskLink.Reach
import StorageAtlas.Proofs.Tree.SameNodes

/-!
Disk identifiers in trees that hold the same nodes. Links and holders are looked
at in the order of their names, so nothing shows in which order they were listed.
-/

namespace StorageAtlas.DiskLinks

/-- Two look-ups with the same directories and depth in trees with the same nodes. -/
structure SameNodes (d d' : DiskLinks) : Prop where
  sysfs : d.sysfs.SameNodes d'.sysfs
  deviceDir : d.deviceDir = d'.deviceDir
  holderDepth : d.holderDepth = d'.holderDepth

variable {d d' : DiskLinks}

theorem names_eq_sortNames (d : DiskLinks) : d.names = sortNames (d.sysfs.entries d.directory) := by
  unfold names AttributeTree.entries AttributeTree.list
  cases d.sysfs.tree.list d.directory with
  | error e => rfl
  | ok names => rfl

/-- Only whether a node was visited counts for a walk, not the order of those that were not. -/
theorem walk_congr_unvisited {withoutType : Bool} {unvisited unvisited' : List Text}
    {stack : List (Text × Int)} (h : ∀ node, node ∈ unvisited ↔ node ∈ unvisited') :
    d.walk withoutType unvisited stack = d.walk withoutType unvisited' stack := by
  fun_induction visits d unvisited stack generalizing unvisited' with
  | case1 unvisited => rw [walk, walk]
  | case2 unvisited node depth stack hmem ih =>
    rw [walk_cons, walk_cons, if_pos hmem, if_pos ((h node).1 hmem)]
    congr 1
    apply ih
    intro other
    rw [mem_without, mem_without, h other]
  | case3 unvisited node depth stack hmem ih =>
    rw [walk_cons, walk_cons, if_neg hmem, if_neg fun hn => hmem ((h node).2 hn)]
    exact ih h

namespace SameNodes

theorem directory (h : d.SameNodes d') : d.directory = d'.directory := by
  rw [DiskLinks.directory, DiskLinks.directory, h.deviceDir]

theorem names (h : d.SameNodes d') : d.names = d'.names := by
  rw [names_eq_sortNames, names_eq_sortNames, h.directory]
  exact Text.sortBy_le_eq_of_perm (h.sysfs.entries_perm _)

theorem lookup (h : d.SameNodes d') : @DiskLinks.lookup d = @DiskLinks.lookup d' := by
  funext start node priority
  simp only [DiskLinks.lookup, identsOf, Tree.deviceNumber, h.sysfs.tree.nodeAt, h.names,
    h.directory]

theorem ownId (h : d.SameNodes d') : d.ownId = d'.ownId := by
  funext withoutType node
  simp only [DiskLinks.ownId, h.lookup]

theorem holders (h : d.SameNodes d') : d.holders = d'.holders := by
  funext node
  simp only [DiskLinks.holders, h.sysfs.classPath, h.deviceDir, sortNames,
    Text.sortBy_le_eq_of_perm (h.sysfs.entries_perm _)]

theorem walk (h : d.SameNodes d') : d.walk = d'.walk := by
  funext withoutType unvisited stack
  -- the visits go down the same stacks as the walk, and their step has both its outcomes in it
  fun_induction visits d unvisited stack with
  | case1 unvisited => rw [DiskLinks.walk, DiskLinks.walk]
  | case2 unvisited node depth stack hmem ih =>
    have hpush : d.pushHolders node depth stack = d'.pushHolders node depth stack := by
      rw [pushHolders, pushHolders, h.holders, h.holderDepth]
    rw [walk_cons, walk_cons, if_pos hmem, if_pos hmem, ih, h.ownId, hpush]
  | case3 unvisited node depth stack hmem ih =>
    rw [walk_cons, walk_cons, if_neg hmem, if_neg hmem, ih]

theorem mem_reach_iff (h : d.SameNodes d') {start node : Text} :
    node ∈ d.reach start ↔ node ∈ d'.reach start := by
  simp only [reach, List.mem_cons, List.mem_map, h.sysfs.tree.mem_names_iff, h.deviceDir]

theorem scsiId (h : d.SameNodes d') : @DiskLinks.scsiId d = @DiskLinks.scsiId d' := by
  funext start withoutType
  rw [DiskLinks.scsiId, DiskLinks.scsiId, h.walk]
  exact walk_congr_unvisited fun node => h.mem_reach_iff

theorem wwnMap (h : d.SameNodes d') : d.wwnMap = d'.wwnMap := by
  have hof : d.wwnOf = d'.wwnOf := by
    funext source name
    simp only [wwnOf, h.sysfs.readLink, h.directory]
  funext source
  rw [DiskLinks.wwnMap, DiskLinks.wwnMap, h.names, hof]

end SameNodes
end StorageAtlas.DiskLinks
