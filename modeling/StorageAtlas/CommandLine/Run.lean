import StorageAtlas.CommandLine.Options
import StorageAtlas.Listing.Session
import StorageAtlas.Report.Listing
import StorageAtlas.Settings.Configuration

/-!
A run of the program: from the arguments and the surroundings to what is
printed and logged.
-/

namespace StorageAtlas

structure Outcome where
  exit : Nat
  output : Text := []
  log : List LogLine := []
  deriving DecidableEq, Repr

namespace Session

/-- Lists several kinds one after the other. -/
def listAll (s : Session) (t : Tree) (f : AddressFilter) :
    List Subject → Except ValueFault (List Record) × List LogLine
  | [] => (.ok [], [])
  | what :: rest =>
    let (listing, next) := s.list t what f
    match listing.records with
    | .error e => (.error e, listing.log)
    | .ok records =>
      let (more, log) := next.listAll t f rest
      (more.map (records ++ ·), listing.log ++ log)

end Session

namespace Invocation

def wantsHosts (inv : Invocation) : Bool := inv.hosts || inv.controllers

/-- A text that is given and not empty, or else another. -/
def given (t : Option Text) (other : Text) : Text :=
  match t with
  | some (c :: r) => c :: r
  | _ => other

/-- The options go before the settings of file and environment. -/
def applyTo (inv : Invocation) (s : Settings) : Settings :=
  { s with
    sysfsRoot := given inv.sysfsRoot s.sysfsRoot
    deviceRoot := given inv.deviceRoot s.deviceRoot
    lunLevel := if inv.lunHex = 0 then s.lunLevel else min inv.lunHex 2
    identityLevel := if inv.identity = 0 then s.identityLevel else inv.identity
    noNvme := s.noNvme || inv.noNvme
    sizeUnits := if 1 < inv.size then "binary" else s.sizeUnits }

def reportOptions (inv : Invocation) (s : Settings) : ReportOptions where
  brief := inv.brief
  transport := inv.transport
  identity := s.identityLevel ≠ 0
  kernelName := inv.kernelName
  number := inv.number
  generic := inv.generic
  wwn := inv.wwn ≠ 0
  scsiId := inv.scsiId ≠ 0
  size := inv.size ≠ 0
  lunFormat := if s.lunLevel ≤ 0 then .decimal else if s.lunLevel = 1 then .hex else .fullHex
  sizeScale := if s.sizeUnits = "binary" then .binary else .decimal

/-- A session with the roots and limits of the settings. -/
def session (inv : Invocation) (s : Settings) : Session where
  sysfsRoot := s.sysfsRoot
  deviceDir := s.deviceRoot
  holderDepth := s.holderDepth
  options :=
    { wantTag := 4 ≤ s.identityLevel
      wwnSource := WwnSource.ofMode inv.wwn
      scsiIdForm := ScsiIdForm.ofMode inv.scsiId }

/-- What is listed: units and namespaces, or hosts and controllers. -/
def subjects (inv : Invocation) (s : Settings) (f : AddressFilter) : List Subject :=
  let nvme : Subject := if inv.wantsHosts then .controllers else .namespaces
  let scsi : Subject := if inv.wantsHosts then .hosts else .units
  (if f.isNvme || inv.controllers then [] else [scsi]) ++ (if s.noNvme then [] else [nvme])

/-- The lines of a report in tables; nothing is printed where nothing is found. -/
def reportLines (inv : Invocation) (o : ReportOptions) (records : List Record) :
    Except ValueFault (List Text) := do
  if records.isEmpty then return []
  let table ← Report.tableLines o inv.wantsHosts records
  let details ← if inv.long then Report.allDetailLines o inv.wantsHosts records else .ok []
  return table ++ details

def emptyLog (inv : Invocation) (records : List Record) : List LogLine :=
  if records.isEmpty && !inv.json then
    [.info (if inv.wantsHosts then "No hosts found" else "No devices found")]
  else []

/-- A quiet run leaves out what is for information only, unless it is to be verbose. -/
def visible (inv : Invocation) (log : List LogLine) : List LogLine :=
  if inv.quiet && !inv.verbose then log.filter fun line => line.severity ≠ .info else log

def unlines (lines : List Text) : Text := lines.flatMap fun line => line ++ ['\n']

def configFile (inv : Invocation) : Except ValueFault Text :=
  match inv.config with
  | some file => .ok file
  | none => .error .noFileName

/-- Lists and prints what a filter selects. -/
def answer (inv : Invocation) (around : Surroundings) (f : AddressFilter) :
    Except ValueFault Outcome := do
  let file ← inv.configFile
  let loaded ← Configuration.load around file
  let settings := inv.applyTo loaded.settings
  let session := inv.session settings
  let (listed, log) := session.listAll around.tree f (inv.subjects settings f)
  let records ← listed
  let lines ← if inv.json then .ok [Report.document records]
    else inv.reportLines (inv.reportOptions settings) records
  .ok ⟨0, unlines lines, inv.visible (loaded.log ++ log ++ inv.emptyLog records)⟩

/-- The log of a filter that cannot be read. -/
def filterLog (e : FilterError) : List LogLine :=
  .error ("Bad address filter: " ++ e.message) ::
    match e.hint with
    | some hint => [.error hint]
    | none => []

/-- Arguments that are refused end a run with 2, a bad filter with 1. -/
def run (around : Surroundings) (args : List Text) : Except ValueFault Outcome :=
  match parse args with
  | none => .ok { exit := 2 }
  | some inv =>
    if inv.help then .ok { exit := 0 }
    else match AddressFilter.parse inv.filter with
      | .error e => .ok { exit := 1, log := filterLog e }
      | .ok f => inv.answer around f

end Invocation
end StorageAtlas
