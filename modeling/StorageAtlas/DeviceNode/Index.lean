import StorageAtlas.AttributeTree
import StorageAtlas.Log

/-!
The special files of a device directory, found by their numbers. Of several
with one number the last modified counts, and of equals the one listed last.
-/

namespace StorageAtlas

structure DeviceNode where
  number : DeviceNumber
  kind : DeviceKind
  path : Text
  modifiedAt : Rat

/-- Special files in the order in which they were seen. -/
structure NodeIndex where
  nodes : List DeviceNode

namespace NodeIndex

def empty : NodeIndex := ⟨[]⟩

def size (index : NodeIndex) : Nat := index.nodes.length

/-- The later of two nodes of one number, the second of which was seen later. -/
def newer (held : Option DeviceNode) (node : DeviceNode) : Option DeviceNode :=
  match held with
  | some h => if h.modifiedAt ≤ node.modifiedAt then some node else some h
  | none => some node

def answersTo (number : DeviceNumber) (kind : DeviceKind) (node : DeviceNode) : Bool :=
  node.number = number && node.kind = kind

def newest (index : NodeIndex) (number : DeviceNumber) (kind : DeviceKind) : Option DeviceNode :=
  (index.nodes.filter (answersTo number kind)).foldl newer none

def resolve (index : NodeIndex) (number : DeviceNumber) (kind : DeviceKind) : Option Text :=
  (index.newest number kind).map DeviceNode.path

/-- The node for the number that a directory of the attribute tree gives. -/
def resolveIn (index : NodeIndex) (s : AttributeTree) (directory : Text) (kind : DeviceKind) :
    Option Text :=
  (s.deviceNumber directory).bind fun number => index.resolve number kind

/-- The special file of one name in a directory; links are not followed. -/
def nodeOf (t : Tree) (directory : Text) (place : Path) (name : Text) : Option DeviceNode :=
  match t.node? (name :: place) with
  | some (.device kind number modifiedAt) =>
    some ⟨number, kind, PathText.join directory name, modifiedAt⟩
  | _ => none

/-- The special files directly in a directory, or why it cannot be listed. -/
def scan (t : Tree) (directory : Text) : Except LookupError NodeIndex :=
  match t.list directory, t.find directory with
  | .ok names, .ok place => .ok ⟨names.filterMap (nodeOf t directory place)⟩
  | .error e, _ => .error e
  | _, .error e => .error e

def build (t : Tree) (directory : Text) : NodeIndex :=
  match scan t directory with
  | .ok index => index
  | .error _ => empty

/-- The warning about a directory that cannot be listed. -/
def buildLog (t : Tree) (directory : Text) : List LogLine :=
  match scan t directory with
  | .ok _ => []
  | .error e =>
    [.warning ("Unable to scan device directory " ++ directory ++ ": " ++ e.message directory)]

end NodeIndex
end StorageAtlas
