import StorageAtlas.AttributeTree
import StorageAtlas.Identification.Identity

/-!
The identification page of a device in the attribute tree.
-/

namespace StorageAtlas.AttributeTree

/-- No more of a page is read. -/
def pageLimit : Int := 512

def identificationPage (s : AttributeTree) (device : Text) : Option Bytes :=
  s.readBytes (s.classPath "scsi_device" [device, "device"]) "vpd_pg83" pageLimit

/-- The identity that a device's page gives; none if there is no page to read. -/
def identity (s : AttributeTree) (device : Text) (wantTag : Bool := false)
    (capacity : Option Int := none) : Option Identity :=
  (s.identificationPage device).map fun page => Identity.ofPage page wantTag capacity

end StorageAtlas.AttributeTree
