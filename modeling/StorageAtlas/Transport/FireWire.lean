import StorageAtlas.Transport.Basic

/-!
Storage on a FireWire bus: the link to the host's device leads past the bus
adapter, which has an identifier.
-/

namespace StorageAtlas.Transport.FireWire

/-- The part of a link up to the bus adapter; something has to follow the adapter. -/
def adapterPart? (link : Text) : Option Text := do
  let start ← Text.find? "/fw-host" link
  let stop ← Text.find? "/" (link.drop (start + 1))
  some (link.take (start + 1 + stop))

/-- The length of an identifier with its hexadecimal tag. -/
def guidLength : Nat := 18

def hostProbe (s : AttributeTree) (host : Text) : Finding :=
  let hostDir := s.classPath "scsi_host" [host]
  let guid := do
    let link ← s.readLink (PathText.join hostDir "device")
    let part ← adapterPart? link
    let guid ← s.read (PathText.join hostDir part) "host_id/guid"
    if guid.length = guidLength then some guid else none
  match guid with
  | some guid => .found .sbp ("sbp:" ++ guid.drop 2) (.ofList [("guid", guid)])
  | none => .absent

def deviceProbe (s : AttributeTree) (_a : Address) (device : Text) : Finding :=
  match s.read (s.under ["bus", "scsi", "devices", device]) "ieee1394_id" with
  | some id => .found .sbp ("sbp:" ++ id ++ ":") (.ofList [("ieee1394_id", id)])
  | none => .absent

def probe : Probe := ⟨hostProbe, deviceProbe⟩

end StorageAtlas.Transport.FireWire
