import StorageAtlas.Address.Basic
import StorageAtlas.DeviceType
import StorageAtlas.Identification.Identity
import StorageAtlas.Transport.Basic

/-!
One unit, namespace, host or controller of a listing, with everything that is
known about it.
-/

namespace StorageAtlas

structure Record where
  address : Address
  /-- The name of the entry in the attribute tree. -/
  name : Text
  directory : Text
  deviceNode : Option Text := none
  /-- The node as the kernel names it, whether it exists or not. -/
  kernelName : Option Text := none
  deviceKind : Option DeviceKind := none
  number : Option DeviceNumber := none
  genericNode : Option Text := none
  identity : Option Identity := none
  transport : Option Transport := none
  wwn : Option Text := none
  scsiId : Option Text := none
  attributes : Attributes := .empty
  deriving DecidableEq, Repr

namespace Record

def valueOr (r : Record) (name default : Text) : Text := (r.attributes.get? name).getD default

/-- The short name of the device type; every namespace is a disk. -/
def deviceType (r : Record) : Text :=
  if r.address.isNvme then "disk"
  else DeviceType.shortName (DeviceType.code? (r.attributes.get? "type"))

end Record
end StorageAtlas
