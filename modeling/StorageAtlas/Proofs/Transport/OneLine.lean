import StorageAtlas.Proofs.AttributeTree.OneLine
import StorageAtlas.Proofs.Listing.AtaSummary

/-!
Summaries on one line. All protocols but ATA make theirs from attributes, numbers and,
on the universal serial bus, a name on the way to the device. Only the summary of an ATA
disk takes over the identity of the unit.
-/

namespace StorageAtlas

open Text (OneLine)

namespace Transport

variable {s : AttributeTree} {name : Text}

/-! ## The parts of summaries -/

theorem oneLine_readD (s : AttributeTree) (directory name : Text) :
    OneLine ((s.read directory name).getD []) :=
  .getD fun _ => AttributeTree.oneLine_read

theorem FibreChannel.oneLine_portSummary {kind : TransportKind} (hkind : OneLine kind.name)
    (directory : Text) : OneLine (portSummary s kind directory) := by
  unfold portSummary
  split
  · exact Text.oneLine_append.2 ⟨hkind, by decide⟩
  · rename_i port hport
    simp only [Text.oneLine_append]
    exact ⟨⟨⟨⟨hkind, by decide⟩, AttributeTree.oneLine_read hport⟩, by decide⟩, oneLine_readD _ _ _⟩

theorem Rdma.oneLine_localPort {host port : Text} (h : localPort s host = .ok port) :
    OneLine port := by
  unfold localPort at h
  simp only at h
  split at h
  · obtain ⟨adapter, -, rfl⟩ := exists_of_map_eq_ok h
    refine .getD fun port hport => ?_
    obtain ⟨identifier, hidentifier, hpart⟩ := Option.bind_eq_some_iff.1 hport
    unfold ownPart? at hpart
    split at hpart
    · cases hpart
      exact (AttributeTree.oneLine_read hidentifier).of_subset (List.drop_subset _ _)
    · cases hpart
  · cases h
    decide

theorem Iscsi.oneLine_tagged (n : Int) : OneLine (tagged n) := by
  unfold tagged
  split
  all_goals exact Text.oneLine_append.2 ⟨by decide, Text.oneLine_hexadecimal _⟩

theorem Iscsi.oneLine_portName {attributes : Attributes} (h : attributes.All OneLine) :
    OneLine ((portName? attributes).getD []) := by
  refine .getD fun port hport => ?_
  simp only [portName?, Option.bind_eq_bind, Option.bind_eq_some_iff] at hport
  obtain ⟨group, -, target, htarget, hport⟩ := hport
  cases hport
  simp only [Text.oneLine_append]
  exact ⟨⟨h.get? htarget, by decide⟩, oneLine_tagged group⟩

theorem Usb.oneLine_interface {place : Text} (hplace : OneLine place)
    (h : interface? place = some name) : OneLine name := by
  unfold interface? at h
  split at h
  · split at h
    · cases h
      exact (hplace.of_subset (List.take_subset _ _)).of_subset (Text.afterLast_subset _ _)
    · cases h
      decide
  · cases h

theorem Ata.isAta_of_kindOfDriver {driver : Text} {kind : TransportKind}
    (h : kindOfDriver? driver = some kind) : kind = .ata ∨ kind = .sata := by
  unfold kindOfDriver? at h
  split at h
  · exact .inr (Option.some.inj h).symm
  · split at h
    · exact .inl (Option.some.inj h).symm
    · cases h

theorem Ata.isAta_deviceProbe (s : AttributeTree) (a : Address) (device : Text) :
    (deviceProbe s a device).Only IsAta := by
  unfold deviceProbe
  split
  · rename_i kind hkind
    obtain ⟨driver, -, hdriver⟩ := Option.bind_eq_some_iff.1 hkind
    exact .found (isAta_of_kindOfDriver hdriver)
  · exact .absent

/-! ## Summaries -/

theorem Serial.oneLine_deviceProbe (a : Address) (device : Text) :
    (deviceProbe s a device).Only fun t => OneLine t.summary := by
  refine .either ?_ .absent
  split
  · exact .found (by decide)
  · refine .found (Text.oneLine_append.2 ⟨by decide, ?_⟩)
    split
    · exact AttributeTree.oneLine_read ‹_›
    · decide

theorem Parallel.oneLine_deviceProbe (a : Address) (device : Text) :
    (deviceProbe s a device).Only fun t => OneLine t.summary :=
  .either (.found (Text.oneLine_append.2 ⟨by decide, Text.oneLine_signed _⟩)) .absent

theorem FibreChannel.oneLine_deviceProbe (a : Address) (device : Text) :
    (deviceProbe s a device).Only fun t => OneLine t.summary := by
  refine .either (.found (oneLine_portSummary ?_ _)) .absent
  unfold kindOf
  split
  · decide
  · decide

theorem Rdma.oneLine_deviceProbe (a : Address) (device : Text) :
    (deviceProbe s a device).Only fun t => OneLine t.summary :=
  .either (.bind fun _ hport => .found (Text.oneLine_append.2 ⟨by decide, oneLine_localPort hport⟩))
    .absent

theorem Serial.Older.oneLine_deviceProbe (a : Address) (device : Text) :
    (deviceProbe s a device).Only fun t => OneLine t.summary := by
  refine .either (.found (Text.oneLine_append.2 ⟨by decide, .getD fun address h => ?_⟩)) .absent
  exact (AttributeTree.oneLine_readMany s _ _).get? h

theorem FireWire.oneLine_deviceProbe (a : Address) (device : Text) :
    (deviceProbe s a device).Only fun t => OneLine t.summary := by
  unfold deviceProbe
  split
  · rename_i id hid
    refine .found ?_
    simp only [Text.oneLine_append]
    exact ⟨⟨by decide, AttributeTree.oneLine_read hid⟩, by decide⟩
  · exact .absent

theorem Iscsi.oneLine_deviceProbe (a : Address) (device : Text) :
    (deviceProbe s a device).Only fun t => OneLine t.summary := by
  refine .either (.bind fun numbers _ => ?_) .absent
  split
  · refine .found (oneLine_portName (OrderedMap.All.update ?_ ?_))
    · exact OrderedMap.all_ofList (List.forall_mem_singleton.2 (Text.oneLine_signed _))
    · exact AttributeTree.oneLine_readMany _ _ _
  · exact .found (by decide)

theorem Usb.oneLine_deviceProbe (hnames : s.tree.NamesOneLine) (a : Address) (device : Text) :
    (deviceProbe s a device).Only fun t => OneLine t.summary := by
  unfold deviceProbe probeAt
  split
  · rename_i interface hinterface
    obtain ⟨place, hplace, hname⟩ := Option.bind_eq_some_iff.1 hinterface
    have hline := oneLine_interface (AttributeTree.oneLine_realPath hnames hplace) hname
    exact .found (Text.oneLine_append.2 ⟨by decide, hline⟩)
  · exact .absent

/-- The summary of a protocol other than ATA. -/
theorem oneLine_of_mem (hnames : s.tree.NamesOneLine) {p : Probe} (hp : p ∈ probesBeforeAta)
    (a : Address) (device : Text) : (p.device s a device).Only fun t => OneLine t.summary := by
  simp only [probesBeforeAta, List.mem_cons, List.not_mem_nil, or_false] at hp
  rcases hp with rfl | rfl | rfl | rfl | rfl | rfl | rfl | rfl
  · exact Serial.oneLine_deviceProbe a device
  · exact Parallel.oneLine_deviceProbe a device
  · exact FibreChannel.oneLine_deviceProbe a device
  · exact Rdma.oneLine_deviceProbe a device
  · exact Serial.Older.oneLine_deviceProbe a device
  · exact FireWire.oneLine_deviceProbe a device
  · exact Iscsi.oneLine_deviceProbe a device
  · exact Usb.oneLine_deviceProbe hnames a device

/-- In a tree whose names are on one line, the summaries of all disks are but those of ATA. -/
theorem oneLine_summary_of_ofDevice (hnames : s.tree.NamesOneLine) {a : Address} {device : Text}
    {t : Transport} (h : ofDevice s a device = .ok t) (hata : ¬ t.IsAta) : OneLine t.summary := by
  revert hata
  apply Finding.Only.of_firstFound _ _ h
  · intro x hx
    obtain ⟨p, hp, rfl⟩ := List.mem_map.1 hx
    rw [deviceProbes_eq_append, List.mem_append] at hp
    rcases hp with hp | hp
    · intro u hu _
      exact oneLine_of_mem hnames hp a device u hu
    · obtain rfl := List.mem_singleton.1 hp
      intro u hu hata
      exact absurd (Ata.isAta_deviceProbe s a device u hu) hata
  · intro _
    decide

theorem Controller.oneLine_orUnknown {value : Option Text} (h : ∀ t, value = some t → OneLine t) :
    OneLine (orUnknown value) := by
  unfold orUnknown
  split
  · exact h _ rfl
  · decide

theorem Controller.oneLine_summary (s : AttributeTree) (controller : Text) :
    OneLine (ofDirectory s controller).summary := by
  have hread : ∀ directory name, OneLine (orUnknown (s.read directory name)) :=
    fun _ _ => oneLine_orUnknown fun _ => AttributeTree.oneLine_read
  unfold ofDirectory
  split
  · decide
  · rename_i name hname
    have htrim := (AttributeTree.oneLine_read hname).of_subset (Text.trim_subset name)
    split
    · simp only [onBus, Text.oneLine_append]
      exact ⟨⟨⟨by decide, hread _ _⟩, by decide⟩, hread _ _⟩
    · unfold onFabric
      split
      · rename_i c r haddress
        simp only [Text.oneLine_append]
        exact ⟨⟨htrim, by decide⟩, AttributeTree.oneLine_read haddress⟩
      · exact Text.oneLine_append.2 ⟨htrim, by decide⟩

theorem Controller.not_isAta_ofDirectory (s : AttributeTree) (controller : Text) :
    ¬ (ofDirectory s controller).IsAta := by
  unfold ofDirectory
  split
  · simp [IsAta]
  · split
    · simp [onBus, IsAta]
    · unfold onFabric
      split <;> simp [IsAta]

end Transport
end StorageAtlas
