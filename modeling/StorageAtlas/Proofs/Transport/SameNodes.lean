import StorageAtlas.Proofs.Tree.SameNodes
import StorageAtlas.Transport.Classification

/-!
Transports of devices in trees that hold the same nodes. Two protocols list
directories for a device, the enclosures of serial SCSI and the sessions of
iSCSI, and both put the names into order first.
-/

namespace StorageAtlas

namespace AttributeTree.SameNodes

variable {s s' : AttributeTree}

theorem deviceDir (h : s.SameNodes s') : s.deviceDir = s'.deviceDir := by
  funext device
  simp only [AttributeTree.deviceDir, h.classPath]

theorem portPlace (h : s.SameNodes s') : s.portPlace = s'.portPlace := by
  funext device
  simp only [AttributeTree.portPlace, devicePlace, h.realPath, h.deviceDir]

theorem identity (h : s.SameNodes s') : @AttributeTree.identity s = @AttributeTree.identity s' := by
  funext device wantTag capacity
  simp only [AttributeTree.identity, identificationPage, h.readBytes, h.classPath]

end AttributeTree.SameNodes

namespace Transport

variable {s s' : AttributeTree}

namespace Serial

theorem enclosureEntry_eq (h : s.SameNodes s') : enclosureEntry s = enclosureEntry s' := by
  funext endDevice a device
  unfold enclosureEntry sorted
  rw [h.classPath]
  exact congrArg List.head? (h.sortBy_filter_entries _ _)

theorem deviceProbe_eq (h : s.SameNodes s') : deviceProbe s = deviceProbe s' := by
  funext a device
  unfold deviceProbe
  rw [h.has, h.classPath, h.portPlace, h.read, enclosureEntry_eq h, h.readMany, h.deviceDir]

theorem Older.deviceProbe_eq (h : s.SameNodes s') : deviceProbe s = deviceProbe s' := by
  funext a device
  unfold Older.deviceProbe
  rw [h.isDir, h.under, h.readMany]

end Serial

theorem Parallel.deviceProbe_eq (h : s.SameNodes s') : deviceProbe s = deviceProbe s' := by
  funext a device
  unfold deviceProbe
  rw [h.isDir, h.classPath, h.readMany]

theorem FibreChannel.deviceProbe_eq (h : s.SameNodes s') : deviceProbe s = deviceProbe s' := by
  funext a device
  unfold deviceProbe kindOf portSummary remotePort
  rw [h.isDir, h.classPath, h.read, h.readMany, h.portPlace, h.deviceDir]

theorem Rdma.deviceProbe_eq (h : s.SameNodes s') : deviceProbe s = deviceProbe s' := by
  funext a device
  unfold deviceProbe hostProbe localPort remotePorts
  rw [h.isDir, h.classPath, h.read, h.readInt]

theorem FireWire.deviceProbe_eq (h : s.SameNodes s') : deviceProbe s = deviceProbe s' := by
  funext a device
  unfold deviceProbe
  rw [h.read, h.under]

theorem Iscsi.sessions_eq (h : s.SameNodes s') : sessions s = sessions s' := by
  funext a
  unfold sessions
  rw [h.classPath, h.isDir]
  simp only [Text.sortBy_le_eq_of_perm (h.entries_perm _)]

theorem Iscsi.deviceProbe_eq (h : s.SameNodes s') : deviceProbe s = deviceProbe s' := by
  funext a device
  unfold deviceProbe ofSession
  rw [h.isDir, h.classPath, sessions_eq h, h.readMany]

theorem Usb.deviceProbe_eq (h : s.SameNodes s') : deviceProbe s = deviceProbe s' := by
  funext a device
  unfold deviceProbe probeAt
  rw [h.realPath, h.classPath]

theorem Ata.deviceProbe_eq (h : s.SameNodes s') : deviceProbe s = deviceProbe s' := by
  funext a device
  unfold deviceProbe kindOfHost?
  rw [h.read, h.classPath, h.identity]

/-- No protocol tells for a device in which order anything was listed. -/
theorem device_eq_of_mem_deviceProbes (h : s.SameNodes s') {p : Probe} (hp : p ∈ deviceProbes) :
    p.device s = p.device s' := by
  simp only [deviceProbes, List.mem_cons, List.not_mem_nil, or_false] at hp
  rcases hp with rfl | rfl | rfl | rfl | rfl | rfl | rfl | rfl | rfl
  · exact Serial.deviceProbe_eq h
  · exact Parallel.deviceProbe_eq h
  · exact FibreChannel.deviceProbe_eq h
  · exact Rdma.deviceProbe_eq h
  · exact Serial.Older.deviceProbe_eq h
  · exact FireWire.deviceProbe_eq h
  · exact Iscsi.deviceProbe_eq h
  · exact Usb.deviceProbe_eq h
  · exact Ata.deviceProbe_eq h

theorem ofDevice_eq (h : s.SameNodes s') : ofDevice s = ofDevice s' := by
  funext a device
  rw [ofDevice, ofDevice]
  refine congrArg firstFound (List.map_congr_left fun p hp => ?_)
  rw [device_eq_of_mem_deviceProbes h hp]

end Transport
end StorageAtlas
