import StorageAtlas.Listing.View

/-!
Sessions: several listings with the same roots while the tree may change in
between. The node index and the map of world wide names are made when they are
first needed and stay as they were then; all else is read anew each time.
-/

namespace StorageAtlas

inductive Subject where
  | units
  | namespaces
  | hosts
  | controllers
  deriving DecidableEq, Repr

structure Listing where
  records : Except ValueFault (List Record)
  log : List LogLine

/-- The roots are paths of the file system, without null characters. -/
structure Session where
  sysfsRoot : Text
  deviceDir : Text
  holderDepth : Int
  options : ListingOptions
  index : Option NodeIndex := none
  wwns : WwnSnapshots := {}

namespace Session

def linksIn (s : Session) (t : Tree) : DiskLinks :=
  ⟨AttributeTree.mounted t s.sysfsRoot, s.deviceDir, s.holderDepth⟩

def wwnMapIn (s : Session) (t : Tree) : WwnMap :=
  match s.options.wwnSource with
  | some source => s.wwns.current (s.linksIn t) source
  | none => []

/-- What the session sees of a tree. -/
def view (s : Session) (t : Tree) : View where
  sysfs := .mounted t s.sysfsRoot
  links := s.linksIn t
  index := s.index.getD (.build t s.deviceDir)
  wwns := s.wwnMapIn t
  options := s.options

/-- The attempts that are made: none after the first that fails. -/
def made : List Attempt → List Attempt
  | [] => []
  | a :: rest =>
    match a.record with
    | .ok _ => a :: made rest
    | .error _ => [a]

/-- Holds the index and the map for later, if the attempts made use of them. -/
def hold (s : Session) (t : Tree) (attempts : List Attempt) : Session :=
  let v := s.view t
  let index := if (made attempts).any Attempt.consultsIndex then some v.index else s.index
  let asked := (made attempts).any fun a =>
    match a.record with
    | .ok r => v.wantsWwn r
    | .error _ => false
  let wwns := match s.options.wwnSource with
    | some source => if asked then s.wwns.hold source v.wwns else s.wwns
    | none => s.wwns
  { s with index, wwns }

/-- The warning of a scan that happens now. -/
def scanLog (s : Session) (t : Tree) (attempts : List Attempt) : List LogLine :=
  if s.index.isNone && (made attempts).any Attempt.consultsIndex then
    NodeIndex.buildLog t s.deviceDir
  else []

def attempts (v : View) (f : AddressFilter) : Subject → List Attempt
  | .units => v.unitAttempts f
  | .namespaces => v.allNamespaceAttempts f
  | .hosts => v.hostAttempts f
  | .controllers => v.controllerAttempts f

def openingLog (v : View) : Subject → List LogLine
  | .units => v.unitsLog
  | .namespaces | .controllers => v.controllersLog
  | .hosts => v.hostsLog

/-- Namespaces are put into order at the end, all else is in order from the start. -/
def arrange : Subject → List Record → List Record
  | .namespaces, records => sortBy View.recordLe records
  | _, records => records

def list (s : Session) (t : Tree) (what : Subject) (f : AddressFilter := {}) : Listing × Session :=
  let v := s.view t
  let attempts := attempts v f what
  let records := (View.recordsOf attempts).map (arrange what)
  (⟨records, openingLog v what ++ s.scanLog t attempts⟩, s.hold t attempts)

end Session
end StorageAtlas
