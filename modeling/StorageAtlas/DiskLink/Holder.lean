import StorageAtlas.DiskLink.Basic

/-!
The identifier of a disk, or of what holds it: a disk without a link of its own
takes over the first identifier found on a walk through its holders. The walk
goes in depth first, visits no node twice and follows a bounded number of
holders in a row.
-/

namespace StorageAtlas.DiskLinks

/-- The type character goes unless nothing else is left. -/
def dropType (ident : Text) : Text := if 1 < ident.length then ident.drop 1 else ident

def nonempty (t : Option Text) : Option Text := t.filter fun t => !t.isEmpty

/-- The identifier in the links of a node itself; an empty one does not count. -/
def ownId (d : DiskLinks) (withoutType : Bool) (node : Text) : Option Text :=
  match nonempty (d.lookup "scsi-" node scsiPriority) with
  | some ident => some (if withoutType then dropType ident else ident)
  | none =>
    (nonempty (d.lookup "dm-uuid-mpath-" node)).or (nonempty (d.lookup "usb-" node))

/-- The nodes of the disks that hold a disk, in ascending order of their names. -/
def holders (d : DiskLinks) (node : Text) : List Text :=
  let directory := d.sysfs.classPath "block" [PathText.baseName node, "holders"]
  (sortNames (d.sysfs.entries directory)).map (PathText.join d.deviceDir)

def without (node : Text) (nodes : List Text) : List Text := nodes.filter (· ≠ node)

theorem length_without_lt {node : Text} {nodes : List Text} (h : node ∈ nodes) :
    (without node nodes).length < nodes.length :=
  List.length_filter_lt_length_iff_exists.2 ⟨node, h, by simp⟩

/-- Takes nodes from a stack, each with the number of holders that led to it. A node that is not
among the unvisited ones is passed over. -/
def walk (d : DiskLinks) (withoutType : Bool) (unvisited : List Text) :
    List (Text × Int) → Option Text
  | [] => none
  | (node, depth) :: stack =>
    if _h : node ∈ unvisited then
      match d.ownId withoutType node with
      | some ident => some ident
      | none =>
        let rest := without node unvisited
        if d.holderDepth ≤ depth then walk d withoutType rest stack
        else walk d withoutType rest ((d.holders node).map (·, depth + 1) ++ stack)
    else walk d withoutType unvisited stack
termination_by stack => (unvisited.length, stack.length)
decreasing_by
  · exact .left _ _ (length_without_lt ‹_›)
  · exact .left _ _ (length_without_lt ‹_›)
  · exact .right _ (Nat.lt_succ_self _)

/-- Every node that a walk can come to: the first one, and one for each name in the tree. -/
def reach (d : DiskLinks) (node : Text) : List Text :=
  node :: d.sysfs.tree.names.map (PathText.join d.deviceDir)

/-- The identifier of a disk or of the first of its holders that has one. -/
def scsiId (d : DiskLinks) (node : Text) (withoutType : Bool := false) : Option Text :=
  d.walk withoutType (d.reach node) [(node, 0)]

end StorageAtlas.DiskLinks
