import StorageAtlas.Address.Basic
import StorageAtlas.AttributeTree

/-!
What is known about the transport of a host or device, and the places in the
attribute tree where all protocols look. A probe answers for one protocol and
says nothing about a host that does not use it.
-/

namespace StorageAtlas

inductive TransportKind where
  | spi
  | fc
  | fcoe
  | sas
  | sasClass
  | sbp
  | iscsi
  | srp
  | usb
  | ata
  | sata
  | pcie
  | nvmeFabrics
  | unknown
  deriving DecidableEq, Repr

def TransportKind.name : TransportKind → Text
  | spi => "spi"
  | fc => "fc"
  | fcoe => "fcoe"
  | sas => "sas"
  | sasClass => "sas_class"
  | sbp => "sbp"
  | iscsi => "iscsi"
  | srp => "srp"
  | usb => "usb"
  | ata => "ata"
  | sata => "sata"
  | pcie => "pcie"
  | nvmeFabrics => "nvme_fabrics"
  | unknown => "unknown"

structure Transport where
  kind : TransportKind := .unknown
  summary : Text := []
  attributes : Attributes := .empty
  deriving DecidableEq, Repr

def Transport.isKnown (t : Transport) : Bool := t.kind ≠ .unknown

/-- What a probe finds: a transport, or nothing where the protocol is not in use. A number that
cannot be read ends the probing, and so does a path that cannot be one. -/
abbrev Finding := Except ValueFault (Option Transport)

namespace Finding

def absent : Finding := .ok none

def found (kind : TransportKind) (summary : Text) (attributes : Attributes := .empty) : Finding :=
  .ok (some { kind, summary, attributes })

end Finding

/-- How a protocol is recognised on a host, by its name, and on a device, by address and name. -/
structure Probe where
  host : AttributeTree → Text → Finding
  device : AttributeTree → Address → Text → Finding

namespace Address

def hostName (a : Address) : Text := "host" ++ Text.signed a.host

def targetName (a : Address) : Text :=
  "target" ++ Text.signed a.host ++ ":" ++ Text.signed a.channel ++ ":" ++ Text.signed a.target

end Address

namespace AttributeTree

def deviceDir (s : AttributeTree) (device : Text) : Text :=
  s.classPath "scsi_device" [device, "device"]

/-- The place of a device in the tree of buses. -/
def devicePlace (s : AttributeTree) (device : Text) : Option Text := s.realPath (s.deviceDir device)

/-- The place two levels above a device. -/
def portPlace (s : AttributeTree) (device : Text) : Option Text :=
  (s.devicePlace device).map fun place => PathText.parent (PathText.parent place)

end AttributeTree
end StorageAtlas
