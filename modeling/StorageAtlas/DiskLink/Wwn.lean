import StorageAtlas.DiskLink.Basic

/-!
World wide names taken from the names of links, by the name of the disk that
the link points at. There are two ways to take them, each with a map of its own.
-/

namespace StorageAtlas

inductive WwnSource where
  /-- Links whose name begins with the transport's word and a type character. -/
  | scsiLinks
  /-- Links that are named for the world wide name itself. -/
  | wwnLinks
  deriving DecidableEq, Repr

/-- No look-up for zero, the links of the names for numbers above one. -/
def WwnSource.ofMode (mode : Int) : Option WwnSource :=
  if mode = 0 then none else if 1 < mode then some .wwnLinks else some .scsiLinks

/-- World wide names by disk name; the first one for a disk counts. -/
abbrev WwnMap := List (Text × Text)

def WwnMap.find? (wwns : WwnMap) (disk : Text) : Option Text := wwns.lookup (PathText.baseName disk)

namespace DiskLinks

/-- The types of an identifier that is a world wide name. -/
def isWwnType (c : Char) : Bool := c = '3' || c = '2' || c = '8'

/-- The world wide name in the name of a link. -/
def wwnInName? (source : WwnSource) (name : Text) : Option Text :=
  if Text.holds "part" name then none
  else match source with
    | .wwnLinks => if Text.startsWith name "wwn-" then some (name.drop 4) else none
    | .scsiLinks =>
      if Text.startsWith name "scsi-" then
        match name.drop 5 with
        | c :: tail => if isWwnType c then some ("0x" ++ tail) else none
        | [] => none
      else none

/-- The disk that a link points at, and the world wide name in the link's own name. -/
def wwnOf (d : DiskLinks) (source : WwnSource) (name : Text) : Option (Text × Text) := do
  let wwn ← wwnInName? source name
  let target ← d.sysfs.readLink (PathText.join d.directory name)
  if target.isEmpty then none else some (PathText.baseName target, wwn)

def wwnMap (d : DiskLinks) (source : WwnSource) : WwnMap := d.names.filterMap (d.wwnOf source)

end DiskLinks

/-- The maps as they were when each was first asked for. -/
structure WwnSnapshots where
  scsiLinks : Option WwnMap := none
  wwnLinks : Option WwnMap := none

namespace WwnSnapshots

def held (w : WwnSnapshots) : WwnSource → Option WwnMap
  | .scsiLinks => w.scsiLinks
  | .wwnLinks => w.wwnLinks

def hold (w : WwnSnapshots) (source : WwnSource) (wwns : WwnMap) : WwnSnapshots :=
  match source with
  | .scsiLinks => { w with scsiLinks := some wwns }
  | .wwnLinks => { w with wwnLinks := some wwns }

/-- The map that is held, or else the one of the links as they are now. -/
def current (w : WwnSnapshots) (d : DiskLinks) (source : WwnSource) : WwnMap :=
  (w.held source).getD (d.wwnMap source)

/-- The world wide name of a disk; the map that answers is held from now on. -/
def find (w : WwnSnapshots) (d : DiskLinks) (source : WwnSource) (disk : Text) :
    Option Text × WwnSnapshots :=
  let wwns := w.current d source
  (wwns.find? disk, w.hold source wwns)

end WwnSnapshots
end StorageAtlas
