import StorageAtlas.AttributeTree
import StorageAtlas.Sorting

/-!
Disk identifiers in the names of links: the directory `disk/by-id` holds a link
to each disk for each of its identifiers. A link answers for a disk when both
lead to the same device number.
-/

namespace StorageAtlas

/-- Where disks and their links are looked up. -/
structure DiskLinks where
  sysfs : AttributeTree
  deviceDir : Text
  /-- How many holders in a row are followed. -/
  holderDepth : Int := 8

namespace DiskLinks

def directory (d : DiskLinks) : Text := PathText.joinAll d.deviceDir ["disk", "by-id"]

def sortNames (names : List Text) : List Text := sortBy Text.le names

/-- The names of the links in ascending order; none if the directory cannot be listed. -/
def names (d : DiskLinks) : List Text :=
  match d.sysfs.tree.list d.directory with
  | .ok names => sortNames names
  | .error _ => []

/-- Preferred first characters of an identifier, best first. -/
def scsiPriority : Text := "328S10"

/-- The place of an identifier's first character among the preferred ones. -/
def rank (priority ident : Text) : Nat :=
  match ident with
  | [] => priority.length
  | c :: _ => priority.idxOf c

/-- The identifier with the best rank, the first of equals. One of the best rank, or any where
nothing is preferred, ends the search. -/
def pick (priority : Text) : Option Text → List Text → Option Text
  | best, [] => best
  | best, ident :: rest =>
    if priority.isEmpty || ident.head? = priority.head? then some ident
    else match best with
      | none => pick priority (some ident) rest
      | some b =>
        if rank priority ident < rank priority b then pick priority (some ident) rest
        else pick priority (some b) rest

/-- What follows `start` in the names of the links that lead to the device number, in ascending
order of the names. -/
def identsOf (d : DiskLinks) (start : Text) (number : DeviceNumber) : List Text :=
  d.names.filterMap fun name =>
    if start.isPrefixOf name then
      match d.sysfs.tree.deviceNumber (PathText.join d.directory name) with
      | .ok n => if n = number then some (name.drop start.length) else none
      | .error _ => none
    else none

/-- The identifier of a node among the links whose names begin with `start`. -/
def lookup (d : DiskLinks) (start node : Text) (priority : Text := []) : Option Text :=
  match d.sysfs.tree.deviceNumber node with
  | .ok number => pick priority none (d.identsOf start number)
  | .error _ => none

end DiskLinks
end StorageAtlas
