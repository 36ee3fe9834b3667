import StorageAtlas.Transport.Ata
import StorageAtlas.Transport.Controller
import StorageAtlas.Transport.FibreChannel
import StorageAtlas.Transport.FireWire
import StorageAtlas.Transport.Iscsi
import StorageAtlas.Transport.Parallel
import StorageAtlas.Transport.Rdma
import StorageAtlas.Transport.Serial
import StorageAtlas.Transport.Usb

/-!
Which transport a host or device uses: the protocols are asked in a fixed order
and the first that answers counts. Devices are asked for serial SCSI first.
-/

namespace StorageAtlas.Transport

def hostProbes : List Probe :=
  [Parallel.probe, FibreChannel.probe, Rdma.probe, Serial.probe, Serial.Older.probe,
    FireWire.probe, Iscsi.probe, Usb.probe, Ata.probe]

def deviceProbes : List Probe :=
  [Serial.probe, Parallel.probe, FibreChannel.probe, Rdma.probe, Serial.Older.probe,
    FireWire.probe, Iscsi.probe, Usb.probe, Ata.probe]

/-- The first transport that is found; unknown if there is none. -/
def firstFound : List Finding → Except ValueFault Transport
  | [] => .ok {}
  | .error e :: _ => .error e
  | .ok (some t) :: _ => .ok t
  | .ok none :: rest => firstFound rest

def ofHost (s : AttributeTree) (host : Text) : Except ValueFault Transport :=
  firstFound (hostProbes.map fun p => p.host s host)

def ofDevice (s : AttributeTree) (a : Address) (device : Text) : Except ValueFault Transport :=
  firstFound (deviceProbes.map fun p => p.device s a device)

theorem firstFound_append_of_absent {before : List Finding} (h : ∀ x ∈ before, x = .absent)
    (after : List Finding) : firstFound (before ++ after) = firstFound after := by
  induction before with
  | nil => rfl
  | cons x rest ih =>
    obtain ⟨rfl, hrest⟩ := List.forall_mem_cons.1 h
    exact ih hrest

theorem firstFound_append_of_found {before : List Finding} (h : ∃ x ∈ before, x ≠ .absent)
    (after : List Finding) : firstFound (before ++ after) = firstFound before := by
  induction before with
  | nil =>
    obtain ⟨x, hmem, -⟩ := h
    cases hmem
  | cons x rest ih =>
    rcases x with e | (_ | t)
    · rfl
    · obtain ⟨y, hmem, hy⟩ := h
      rcases List.mem_cons.1 hmem with rfl | hmem
      · exact absurd rfl hy
      · exact ih ⟨y, hmem, hy⟩
    · rfl

end StorageAtlas.Transport
