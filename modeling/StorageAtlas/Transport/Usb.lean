import StorageAtlas.Transport.Basic

/-!
Storage on the universal serial bus: the place of a host names the interface.
-/

namespace StorageAtlas.Transport.Usb

/-- The interface on the way to a host: the name before the first host. It is empty where no host
follows, and there is none where the way does not pass the bus. -/
def interface? (place : Text) : Option Text :=
  if Text.holds "usb" place then
    match Text.find? "/host" place with
    | some (n + 1) => some (Text.afterLast '/' (place.take (n + 1)))
    | _ => some []
  else none

def probeAt (s : AttributeTree) (path : Text) : Finding :=
  match (s.realPath path).bind interface? with
  | some name => .found .usb ("usb:" ++ name) (.ofList [("device_name", name)])
  | none => .absent

def hostProbe (s : AttributeTree) (host : Text) : Finding :=
  probeAt s (s.classPath "scsi_host" [host])

def deviceProbe (s : AttributeTree) (_a : Address) (device : Text) : Finding :=
  probeAt s (s.classPath "scsi_device" [device])

def probe : Probe := ⟨hostProbe, deviceProbe⟩

end StorageAtlas.Transport.Usb
