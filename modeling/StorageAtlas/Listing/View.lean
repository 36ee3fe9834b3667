import StorageAtlas.Address.Filter
import StorageAtlas.DeviceNode.Index
import StorageAtlas.DiskLink.Holder
import StorageAtlas.DiskLink.Wwn
import StorageAtlas.Identification.Source
import StorageAtlas.Listing.Record
import StorageAtlas.Listing.Selection
import StorageAtlas.Transport.Classification

/-!
Listings of what an attribute tree shows at one moment. A view holds all that
the records are made from, so every listing is a function of the view and the
filter.
-/

namespace StorageAtlas

inductive ScsiIdForm where
  | full
  | withoutType
  deriving DecidableEq, Repr

/-- No look-up for zero, identifiers without the type character for numbers above one. -/
def ScsiIdForm.ofMode (mode : Int) : Option ScsiIdForm :=
  if mode = 0 then none else if 1 < mode then some .withoutType else some .full

structure ListingOptions where
  wantTag : Bool := false
  wwnSource : Option WwnSource := none
  scsiIdForm : Option ScsiIdForm := none
  deriving DecidableEq, Repr

structure View where
  sysfs : AttributeTree
  links : DiskLinks
  index : NodeIndex
  wwns : WwnMap
  options : ListingOptions

/-- A record on its way: whether the node index was consulted for it, and what came of it. -/
structure Attempt where
  consultsIndex : Bool
  record : Except ValueFault Record

namespace View

def unitAttributes : List Text :=
  ["type", "vendor", "model", "rev", "state", "queue_depth", "scsi_level", "device_blocked",
    "timeout", "queue_type", "iocounterbits", "iodone_cnt", "ioerr_cnt", "iorequest_cnt"]

def blockAttributes : List Text := ["size", "queue/logical_block_size", "integrity/format"]

def diskAttributes : List Text := ["protection_type", "protection_mode"]

def hostAttributes : List Text :=
  ["proc_name", "active_mode", "can_queue", "cmd_per_lun", "host_busy", "nr_hw_queues",
    "sg_tablesize", "state", "unique_id", "use_blk_mq"]

def controllerAttributes : List Text :=
  ["cntlid", "model", "serial", "firmware_rev", "state", "subsysnqn", "transport", "address",
    "device/current_link_width", "device/current_link_speed"]

def namespaceAttributes : List Text :=
  ["wwid", "size", "nsid", "capability", "ext_range", "hidden", "range", "removable",
    "queue/logical_block_size"]

def nodePath (v : View) (name : Text) : Text := PathText.join v.links.deviceDir name

/-! ## Entries of a device -/

/-- Where an entry leads; a real directory stands for the first name in it. -/
def entryTarget (v : View) (directory name : Text) : Option Text :=
  let path := PathText.join directory name
  if v.sysfs.isDir path && !v.sysfs.isLink path then
    match DiskLinks.sortNames (v.sysfs.entries path) with
    | [] => none
    | child :: _ => v.sysfs.realPath (PathText.join path child)
  else v.sysfs.realPath path

/-- The first entry of a kind that is a directory or leads to one. -/
def entry? (v : View) (directory : Text) (p : Text → Bool) : Option Text :=
  (DiskLinks.sortNames (v.sysfs.entries directory)).find? fun name =>
    p name && v.sysfs.isDir (PathText.join directory name)

def findEntry (v : View) (directory : Text) (p : Text → Bool) : Option Text :=
  (v.entry? directory p).bind (v.entryTarget directory)

/-- The directory of a unit's node and the kind of the node: a block device if there is one. -/
def nodeDirectory (v : View) (directory : Text) : Option (Text × DeviceKind) :=
  match v.findEntry directory Selection.isBlock with
  | some node => some (node, .block)
  | none => (v.findEntry directory Selection.isPrimaryNode).map fun node => (node, .char)

/-- Fills in what the directory of a node tells. -/
def withNode (v : View) (r : Record) (directory : Text) (kind : DeviceKind) : Record :=
  let number := v.sysfs.deviceNumber directory
  { r with
    deviceKind := some kind
    kernelName := some (v.nodePath (PathText.baseName directory))
    number := number
    deviceNode := number.bind fun n => v.index.resolve n kind
    attributes :=
      if kind = .block then r.attributes.update (v.sysfs.readMany directory blockAttributes)
      else r.attributes }

def withNodeOf (v : View) (r : Record) : Record :=
  match v.nodeDirectory r.directory with
  | some (directory, kind) => v.withNode r directory kind
  | none => r

def withGeneric (v : View) (r : Record) : Record :=
  { r with
    genericNode := (v.findEntry r.directory Selection.isGenericNode).bind fun directory =>
      v.index.resolveIn v.sysfs directory .char }

def withDisk (v : View) (r : Record) : Record :=
  match v.findEntry r.directory Selection.isDisk with
  | some directory =>
    { r with attributes := r.attributes.update (v.sysfs.readMany directory diskAttributes) }
  | none => r

/-- Is a world wide name looked up for a record? -/
def wantsWwn (v : View) (r : Record) : Bool :=
  v.options.wwnSource.isSome && r.deviceKind = some .block && r.kernelName.any (!·.isEmpty)

def wwnFor (v : View) (r : Record) : Option Text :=
  if v.wantsWwn r then r.kernelName.bind v.wwns.find? else none

def scsiIdFor (v : View) (r : Record) : Option Text :=
  match v.options.scsiIdForm, r.deviceNode with
  | some form, some (c :: node) => v.links.scsiId (c :: node) (form = .withoutType)
  | _, _ => none

/-! ## Units -/

def unitsDir (v : View) : Text := v.sysfs.under ["bus", "scsi", "devices"]

/-- The units of the bus with their addresses, in the order of listing. -/
def allUnits (v : View) : List (Address × Text) :=
  (Selection.units (v.sysfs.entries v.unitsDir)).filterMap fun name =>
    match Address.parse name with
    | .ok a => if a.isNvme then none else some (a, name)
    | .error _ => none

/-- The units that a filter selects, in the order of their addresses. -/
def units (v : View) (f : AddressFilter) : List (Address × Text) :=
  sortBy (fun a b => a.1.le b.1) (v.allUnits.filter fun (a, _) => f.selects a)

def unitRecord (v : View) (a : Address) (name : Text) : Except ValueFault Record := do
  let directory := PathText.join v.unitsDir name
  let bare : Record :=
    { address := a
      name := name
      directory := directory
      attributes := v.sysfs.readMany directory unitAttributes }
  let r := v.withDisk (v.withGeneric (v.withNodeOf bare))
  let transport ← Transport.ofDevice v.sysfs a name
  .ok { r with
    identity := v.sysfs.identity name v.options.wantTag
    transport := some transport
    wwn := v.wwnFor r
    scsiId := v.scsiIdFor r }

/-- Is the node index consulted for a unit? A generic entry is enough, a node needs a number. -/
def unitConsults (v : View) (name : Text) : Bool :=
  let directory := PathText.join v.unitsDir name
  (v.findEntry directory Selection.isGenericNode).isSome ||
    (v.nodeDirectory directory).any fun (node, _) => (v.sysfs.deviceNumber node).isSome

def unitAttempts (v : View) (f : AddressFilter) : List Attempt :=
  (v.units f).map fun (a, name) => ⟨v.unitConsults name, v.unitRecord a name⟩

/-- What is to be said about a directory that cannot be listed. -/
def absentLog (v : View) (directory what : Text) : List LogLine :=
  match v.sysfs.list directory with
  | some _ => []
  | none =>
    [.info ("No " ++ what ++ " devices found at " ++ directory ++ ", module may not be loaded")]

def unitsLog (v : View) : List LogLine :=
  v.absentLog v.unitsDir "SCSI" ++
    (Selection.units (v.sysfs.entries v.unitsDir)).filterMap fun name =>
      match Address.parse name with
      | .ok _ => none
      | .error e => some (.warning ("Skipping SCSI entry " ++ name ++ ": " ++ e.message))

/-! ## Controllers and namespaces -/

def controllersDir (v : View) : Text := v.sysfs.classPath "nvme" []

/-- The controllers that a filter selects by their number, in the order of the numbers. -/
def controllers (v : View) (f : AddressFilter) : List (Text × Nat) :=
  sortBy (fun a b => a.2 ≤ b.2) ((Selection.controllers (v.sysfs.entries v.controllersDir)).filter
    fun (_, minor) => f.allows (some Address.nvmeHost) (some minor))

def controllersLog (v : View) : List LogLine := v.absentLog v.controllersDir "NVMe"

/-- The id of a controller, zero where it gives none. -/
def controllerId (v : View) (directory : Text) : Int :=
  (v.sysfs.readInt directory "cntlid").getD 0

/-- What a namespace shows of its controller, under the names that units use. -/
def inherited : List (Text × Text) :=
  [("model", "model"), ("serial", "serial"), ("firmware_rev", "rev")]

def inheritedNames : List Text := inherited.map Prod.fst

/-- What every namespace shows, under the names that units use. -/
def namespaceBase : List (Text × Text) := [("type", "0"), ("vendor", "NVMe")]

def namespaceValues (v : View) (controller directory : Text) : Attributes :=
  let own := v.sysfs.readMany controller inheritedNames
  let passedOn := inherited.filterMap fun (name, shown) =>
    (own.get? name).map fun value => (shown, value)
  (OrderedMap.ofList (namespaceBase ++ passedOn)).update
    (v.sysfs.readMany directory namespaceAttributes)

def namespaceRecord (v : View) (a : Address) (name controller : Text) : Record :=
  let directory := PathText.join controller name
  let values := v.namespaceValues controller directory
  let bare : Record :=
    { address := a
      name := name
      directory := directory
      transport := some (Transport.Controller.ofDirectory v.sysfs controller)
      identity := Selection.namespaceIdentity (values.get? "wwid") v.options.wantTag
      attributes := values }
  { v.withNode bare directory .block with kernelName := some (v.nodePath name) }

/-- The namespaces below a controller that a filter selects, with their addresses. -/
def namespacesOf (v : View) (f : AddressFilter) (controller : Text) : List (Address × Text) :=
  let id := v.controllerId controller
  (Selection.namespaces (v.sysfs.entries controller)).filterMap fun (name, minor, nsid) =>
    if f.allows (some Address.nvmeHost) (some minor) (some id) (some nsid) then
      some (Address.nvme minor id nsid, name)
    else none

/-- The records of the namespaces below one controller. The controller itself has to pass the
filter as well, with its own number. -/
def namespaceAttempts (v : View) (f : AddressFilter) (controller : Text × Nat) : List Attempt :=
  let directory := PathText.join v.controllersDir controller.1
  let id := v.controllerId directory
  if f.allows (some Address.nvmeHost) (some controller.2) (some id) then
    (v.namespacesOf f directory).map fun (a, name) =>
      ⟨(v.sysfs.deviceNumber (PathText.join directory name)).isSome,
        .ok (v.namespaceRecord a name directory)⟩
  else []

def controllerRecord (v : View) (name : Text) (minor : Nat) : Record :=
  let directory := PathText.join v.controllersDir name
  let values := v.sysfs.readMany directory controllerAttributes
  let id := ((values.get? "cntlid").bind (Text.integer? 10)).getD 0
  let number := v.sysfs.deviceNumber directory
  { address := Address.nvme minor id 0
    name := name
    directory := directory
    deviceKind := some .char
    kernelName := some (v.nodePath name)
    number := number
    deviceNode := number.bind fun n => v.index.resolve n .char
    transport := some (Transport.Controller.ofDirectory v.sysfs directory)
    attributes := values }

def controllerAttempts (v : View) (f : AddressFilter) : List Attempt :=
  (v.controllers f).map fun (name, minor) =>
    let r := v.controllerRecord name minor
    ⟨r.number.isSome, .ok r⟩

/-! ## Hosts -/

def hostsDir (v : View) : Text := v.sysfs.classPath "scsi_host" []

/-- By number, and by name where two names have one number. -/
def hostLe (a b : Nat × Text) : Bool := a.1 < b.1 || (a.1 = b.1 && Text.le a.2 b.2)

def hosts (v : View) (f : AddressFilter) : List (Nat × Text) :=
  sortBy hostLe ((v.sysfs.entries v.hostsDir).filterMap fun name =>
    match Selection.hostNumber? name with
    | some host => if f.allows (some host) then some (host, name) else none
    | none => none)

def hostsLog (v : View) : List LogLine := v.absentLog v.hostsDir "SCSI host"

def hostRecord (v : View) (host : Nat) (name : Text) : Except ValueFault Record := do
  let directory := PathText.join v.hostsDir name
  let transport ← Transport.ofHost v.sysfs name
  .ok
    { address := Address.ofLun host 0 0 0
      name := name
      directory := directory
      transport := some transport
      attributes := v.sysfs.readMany directory hostAttributes }

def hostAttempts (v : View) (f : AddressFilter) : List Attempt :=
  (v.hosts f).map fun (host, name) => ⟨false, v.hostRecord host name⟩

/-! ## Listings -/

def recordsOf (attempts : List Attempt) : Except ValueFault (List Record) :=
  attempts.mapM Attempt.record

def recordLe (a b : Record) : Bool := a.address.le b.address

def listUnits (v : View) (f : AddressFilter := {}) : Except ValueFault (List Record) :=
  recordsOf (v.unitAttempts f)

def allNamespaceAttempts (v : View) (f : AddressFilter) : List Attempt :=
  (v.controllers f).flatMap (v.namespaceAttempts f)

def listNamespaces (v : View) (f : AddressFilter := {}) : Except ValueFault (List Record) :=
  (recordsOf (v.allNamespaceAttempts f)).map (sortBy recordLe)

def listHosts (v : View) (f : AddressFilter := {}) : Except ValueFault (List Record) :=
  recordsOf (v.hostAttempts f)

def listControllers (v : View) (f : AddressFilter := {}) : Except ValueFault (List Record) :=
  recordsOf (v.controllerAttempts f)

end View
end StorageAtlas
