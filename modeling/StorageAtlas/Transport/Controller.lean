import StorageAtlas.Transport.Basic

/-!
Transports of NVMe controllers: on the local bus, or over a fabric with the
address of the other side.
-/

namespace StorageAtlas.Transport.Controller

def linkAttributes : List Text :=
  ["current_link_speed", "current_link_width", "max_link_speed", "max_link_width"]

/-- A value that is there and not empty, or a question mark. -/
def orUnknown : Option Text → Text
  | some (c :: r) => c :: r
  | _ => "?"

def onBus (s : AttributeTree) (controller : Text) : Transport :=
  let directory := PathText.join controller "device"
  let vendor := orUnknown (s.read directory "subsystem_vendor")
  let device := orUnknown (s.read directory "subsystem_device")
  let own := OrderedMap.ofList [("subsystem_vendor", vendor), ("subsystem_device", device)]
  { kind := .pcie
    summary := "pcie " ++ vendor ++ ":" ++ device
    attributes := own.update (s.readMany directory linkAttributes) }

def onFabric (s : AttributeTree) (controller transport : Text) : Transport :=
  match s.read controller "address" with
  | some (c :: r) =>
    { kind := .nvmeFabrics
      summary := transport ++ ":" ++ (c :: r)
      attributes := .ofList [("transport", transport), ("address", c :: r)] }
  | _ =>
    { kind := .nvmeFabrics
      summary := transport ++ ":"
      attributes := .ofList [("transport", transport)] }

/-- The transport that a controller names; one that names none is unknown. -/
def ofDirectory (s : AttributeTree) (controller : Text) : Transport :=
  match s.read controller "transport" with
  | none => {}
  | some name =>
    if Text.trim name = "pcie" then onBus s controller
    else onFabric s controller (Text.trim name)

end StorageAtlas.Transport.Controller
