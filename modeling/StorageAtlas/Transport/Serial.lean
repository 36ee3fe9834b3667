import StorageAtlas.Sorting
import StorageAtlas.Transport.Basic

/-!
Serial attached SCSI: the present layout of classes with ports and phys, and
the older one below the host.
-/

namespace StorageAtlas.Transport.Serial

def phyAttributes : List Text :=
  ["device_type", "initiator_port_protocols", "invalid_dword_count", "loss_of_dword_sync_count",
    "minimum_linkrate", "minimum_linkrate_hw", "maximum_linkrate", "maximum_linkrate_hw",
    "negotiated_linkrate", "phy_identifier", "phy_reset_problem_count",
    "running_disparity_error_count", "sas_address", "target_port_protocols"]

def deviceAttributes : List Text :=
  ["bay_identifier", "enclosure_identifier", "initiator_port_protocols", "phy_identifier",
    "sas_address", "scsi_target_id", "target_port_protocols"]

def endDeviceAttributes : List Text :=
  ["initiator_response_timeout", "I_T_nexus_loss_timeout", "ready_led_meaning", "tlr_enabled",
    "tlr_supported"]

/-- The address of a device that has none. -/
def nullAddress : Text := "0x0000000000000000"

/-- The number after the last colon, if digits stand there. -/
def phyNumber? (name : Text) : Except ValueFault (Option Int) :=
  if name.contains ':' && Text.isDigits (Text.afterLast ':' name) then
    match Text.integer? 10 (Text.afterLast ':' name) with
    | some n => .ok (some n)
    | none => .error .notANumeral
  else .ok none

/-- The first of the names with the least number. -/
def leastNumbered : List (Text × Option Int) → Option (Text × Int)
  | [] => none
  | (_, none) :: rest => leastNumbered rest
  | (name, some n) :: rest =>
    match leastNumbered rest with
    | some (other, m) => if m < n then some (other, m) else some (name, n)
    | none => some (name, n)

/-- The phy with the lowest number, or the first phy where none has a number. -/
def lowestPhy (names : List Text) : Except ValueFault (Option Text) := do
  let phys := names.filter fun name => Text.startsWith name "phy"
  let numbered ← phys.mapM fun name => (phyNumber? name).map fun n => (name, n)
  match leastNumbered numbered with
  | some (name, _) => .ok (some name)
  | none => .ok phys.head?

def sorted (p : Text → Bool) (names : List Text) : List Text := sortBy Text.le (names.filter p)

def isPhy (name : Text) : Bool := Text.startsWith name "phy"

def isPort (name : Text) : Bool := Text.startsWith name "port-"

def ofPhy (s : AttributeTree) (phy start : Text) : Attributes :=
  (s.readMany (s.classPath "sas_phy" [phy]) phyAttributes).prepend start

/-- The number of a port's phys, their names and the attributes of the lowest. -/
def ofPort (s : AttributeTree) (hostDevice port : Text) : Except ValueFault Attributes := do
  let phys := sorted isPhy (s.entries (PathText.join hostDevice port))
  match ← lowestPhy phys with
  | none => .ok .empty
  | some lowest =>
    let start := port ++ "."
    let count := match s.read (s.classPath "sas_port" [port]) "num_phys" with
      | some n => [(start ++ "num_phys", n)]
      | none => []
    let named := OrderedMap.ofList (count ++ [(start ++ "phys", Text.join " " phys)])
    .ok (named.update (ofPhy s lowest start))

def ofPorts (s : AttributeTree) (hostDevice : Text) :
    List Text → Attributes → Except ValueFault Attributes
  | [], found => .ok found
  | port :: rest, found => do
    let values ← ofPort s hostDevice port
    ofPorts s hostDevice rest (found.update values)

/-- The attributes of all ports of a host, or of all its phys where it has no ports. -/
def hostPorts (s : AttributeTree) (host : Text) : Except ValueFault Attributes :=
  let hostDevice := s.classPath "scsi_host" [host, "device"]
  let names := s.entries hostDevice
  match sorted isPort names with
  | [] =>
    let phys := sorted isPhy names
    .ok (phys.foldl (fun found phy => found.update (ofPhy s phy (phy ++ "."))) .empty)
  | ports => ofPorts s hostDevice ports .empty

def hostProbe (s : AttributeTree) (host : Text) : Finding := do
  let directory := s.classPath "sas_host" [host]
  if s.has directory then
    let attributes ← hostPorts s host
    let address := match ← lowestPhy (s.entries (PathText.join directory "device")) with
      | some phy => (s.read (s.classPath "sas_phy" [phy]) "sas_address").getD []
      | none => []
    Finding.found .sas ("sas:" ++ address) attributes
  else Finding.absent

/-- The entry of a device in its enclosure. -/
def enclosureEntry (s : AttributeTree) (endDevice : Text) (a : Address) (device : Text) :
    Option Text :=
  let directory := s.classPath "sas_end_device" [endDevice, "device", a.targetName, device]
  (sorted (fun name => Text.startsWith name "enclosure_device") (s.entries directory)).head?

def deviceProbe (s : AttributeTree) (a : Address) (device : Text) : Finding :=
  if s.has (s.classPath "sas_host" [a.hostName]) then
    match s.portPlace device with
    | none => .found .sas "sas:"
    | some place =>
      let endDevice := PathText.baseName place
      let directory := s.classPath "sas_device" [endDevice]
      let address := match s.read directory "sas_address" with
        | some (c :: r) => c :: r
        | _ => nullAddress
      let enclosure := match enclosureEntry s endDevice a device with
        | some entry => [("enclosure_device", entry)]
        | none => []
      let attributes := (OrderedMap.ofList [("end_device", endDevice)])
        |>.update (s.readMany directory deviceAttributes)
        |>.update (s.readMany (s.deviceDir device) ["vendor", "model"])
        |>.putAll enclosure
        |>.update (s.readMany (s.classPath "sas_end_device" [endDevice]) endDeviceAttributes)
      .found .sas ("sas:" ++ address) attributes
  else .absent

def probe : Probe := ⟨hostProbe, deviceProbe⟩

namespace Older

def adapterAttributes : List Text := ["device_name", "ha_name", "version_descriptor"]

def adapterPhyAttributes : List Text :=
  ["class", "enabled", "id", "iproto", "linkrate", "oob_mode", "role", "sas_addr", "tproto",
    "type"]

def unitAttributes : List Text :=
  ["device_name", "dev_type", "iproto", "iresp_timeout", "itnl_timeout", "linkrate",
    "max_linkrate", "max_pathways", "min_linkrate", "pathways", "ready_led_meaning", "rl_wlun",
    "sas_addr", "tproto", "transport_layer_retries"]

def hostProbe (s : AttributeTree) (host : Text) : Finding :=
  let adapter := PathText.joinAll (s.classPath "scsi_host" [host]) ["device", "sas", "ha"]
  if s.isDir adapter then
    let own := s.readMany adapter adapterAttributes
    let phy := s.readMany (PathText.joinAll adapter ["phys", "0"]) adapterPhyAttributes
    let attributes := own.update (phy.prepend "phy0.")
    .found .sasClass ("sas:" ++ (attributes.get? "device_name").getD []) attributes
  else .absent

def deviceProbe (s : AttributeTree) (_a : Address) (device : Text) : Finding :=
  let directory := s.under ["bus", "scsi", "devices", device, "sas_device"]
  if s.isDir directory then
    let attributes := s.readMany directory unitAttributes
    .found .sasClass ("sas:" ++ (attributes.get? "sas_addr").getD []) attributes
  else .absent

def probe : Probe := ⟨hostProbe, deviceProbe⟩

end Older
end StorageAtlas.Transport.Serial
