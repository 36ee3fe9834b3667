import StorageAtlas.Identification.Source
import StorageAtlas.Transport.Basic

/-!
ATA and SATA disks: the name of the host's driver tells, and the summary
carries the identity of the unit.
-/

namespace StorageAtlas.Transport.Ata

def kindOfDriver? (driver : Text) : Option TransportKind :=
  if driver = "ahci" ∨ Text.startsWith driver "sata" then some .sata
  else if Text.holds "ata" driver then some .ata
  else none

def kindOfHost? (s : AttributeTree) (host : Text) : Option TransportKind :=
  (s.read (s.classPath "scsi_host" [host]) "proc_name").bind kindOfDriver?

def hostProbe (s : AttributeTree) (host : Text) : Finding :=
  match kindOfHost? s host with
  | some kind => .found kind (kind.name ++ ":")
  | none => .absent

def deviceProbe (s : AttributeTree) (a : Address) (device : Text) : Finding :=
  match kindOfHost? s a.hostName with
  | some kind =>
    let unit := ((s.identity device).map Identity.text).getD []
    .found kind (kind.name ++ ":" ++ unit)
  | none => .absent

def probe : Probe := ⟨hostProbe, deviceProbe⟩

end StorageAtlas.Transport.Ata
