import StorageAtlas.Transport.Basic

/-!
SCSI over remote direct memory access. A port is named by the last half of its
global identifier.
-/

namespace StorageAtlas.Transport.Rdma

/-- The length of the network part of an identifier. -/
def networkLength : Nat := 20

def ownPart? (identifier : Text) : Option Text :=
  if networkLength < identifier.length then some (identifier.drop networkLength) else none

/-- The local port of a host, empty where it is not known. Its adapter is found by the text of an
attribute, which need not be the part of a path. -/
def localPort (s : AttributeTree) (host : Text) : Except ValueFault Text :=
  let directory := s.classPath "scsi_host" [host]
  match s.readInt directory "local_ib_port", s.read directory "local_ib_device" with
  | some port, some (c :: r) =>
    (PathText.part (c :: r)).map fun adapter =>
      let gids := s.classPath "infiniband" [adapter, "ports", Text.signed port, "gids"]
      ((s.read gids "0").bind ownPart?).getD []
  | _, _ => .ok []

def remotePortNames : List Text := ["orig_dgid", "dgid"]

def remotePorts (s : AttributeTree) (host : Text) : Attributes :=
  let directory := s.classPath "scsi_host" [host]
  .ofList (remotePortNames.filterMap fun name =>
    ((s.read directory name).bind ownPart?).map fun port => (name, port))

def hostProbe (s : AttributeTree) (host : Text) : Finding :=
  if s.isDir (s.classPath "srp_host" [host]) then do
    let port ← localPort s host
    Finding.found .srp ("srp:" ++ port) (remotePorts s host)
  else .absent

def deviceProbe (s : AttributeTree) (a : Address) (_device : Text) : Finding :=
  hostProbe s a.hostName

def probe : Probe := ⟨hostProbe, deviceProbe⟩

end StorageAtlas.Transport.Rdma
