import StorageAtlas.Transport.Basic

/-!
Fibre Channel, and Fibre Channel over Ethernet: the host's symbolic name tells
them apart.
-/

namespace StorageAtlas.Transport.FibreChannel

def hostAttributes : List Text :=
  ["active_fc4s", "supported_fc4s", "fabric_name", "maxframe_size", "max_npiv_vports",
    "npiv_vports_inuse", "node_name", "port_name", "port_id", "port_state", "port_type", "speed",
    "supported_speeds", "supported_classes", "tgtid_bind_type"]

def portAttributes : List Text :=
  ["node_name", "port_name", "port_id", "port_state", "roles", "scsi_target_id",
    "supported_classes", "fast_io_fail_tmo", "dev_loss_tmo"]

def kindOf (s : AttributeTree) (hostDir : Text) : TransportKind :=
  if Text.holds " over " ((s.read hostDir "symbolic_name").getD []) then .fcoe else .fc

def portSummary (s : AttributeTree) (kind : TransportKind) (directory : Text) : Text :=
  let start := kind.name ++ ":"
  match s.read directory "port_name" with
  | none => start
  | some name => start ++ name ++ "," ++ (s.read directory "port_id").getD []

def hostProbe (s : AttributeTree) (host : Text) : Finding :=
  let directory := s.classPath "fc_host" [host]
  if s.isDir directory then
    let kind := kindOf s directory
    .found kind (portSummary s kind directory) (s.readMany directory hostAttributes)
  else .absent

/-- The attributes of a remote port stand below its own place, or else in the class of ports. -/
def remotePort (s : AttributeTree) (place : Text) : Attributes :=
  let port := PathText.baseName place
  let below := PathText.joinAll place ["fc_remote_ports", port]
  let directory := if s.isDir below then below else s.classPath "fc_remote_ports" [port]
  (OrderedMap.ofList [("rport", port)]).update (s.readMany directory portAttributes)

def deviceProbe (s : AttributeTree) (a : Address) (device : Text) : Finding :=
  let hostDir := s.classPath "fc_host" [a.hostName]
  if s.isDir hostDir then
    let kind := kindOf s hostDir
    let summary := portSummary s kind (s.classPath "fc_transport" [a.targetName])
    let own := s.readMany (s.deviceDir device) ["vendor", "model"]
    .found kind summary <|
      match s.portPlace device with
      | some place => own.update (remotePort s place)
      | none => own
  else .absent

def probe : Probe := ⟨hostProbe, deviceProbe⟩

end StorageAtlas.Transport.FibreChannel
