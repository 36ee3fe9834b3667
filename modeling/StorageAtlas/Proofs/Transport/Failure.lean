import StorageAtlas.Proofs.Failure
import StorageAtlas.Proofs.Text.Numeral
import StorageAtlas.Transport.Classification

/-!
When the transport of a host or device cannot be told. Two of the protocols read
numbers from names without a way out: serial SCSI the numbers of a host's phys, and
SCSI over IP the numbers of sessions. They fail if they are reached and such a number
consists of digit signs that are no numeral. A third one, over remote direct memory
access, opens a path that it makes from an attribute, and fails if that text cannot
stand in a path.
-/

namespace StorageAtlas.Transport

/-! ## Phys -/

namespace Serial

/-- Is it the name of a phy whose number looks like a numeral and is none? -/
def isMisnumbered (name : Text) : Bool :=
  isPhy name && name.contains ':' && Text.isFalseNumeral (Text.afterLast ':' name)

/-- Has a host a misnumbered phy, of its own or in a port? -/
def HasMisnumbered (s : AttributeTree) (host : Text) : Prop :=
  (∃ port ∈ s.entries (s.classPath "scsi_host" [host, "device"]), isPort port = true ∧
    ∃ name ∈ s.entries (PathText.join (s.classPath "scsi_host" [host, "device"]) port),
      isMisnumbered name = true) ∨
  ∃ name ∈ s.entries (PathText.join (s.classPath "sas_host" [host]) "device"),
    isMisnumbered name = true

theorem phyNumber?_failsIff (name : Text) : FailsIff (phyNumber? name)
    ((name.contains ':' && Text.isFalseNumeral (Text.afterLast ':' name)) = true) := by
  unfold phyNumber?
  split
  · rename_i hnumber
    obtain ⟨hcolon, hdigits⟩ := Bool.and_eq_true_iff.1 hnumber
    rw [hcolon, Bool.true_and]
    refine (FailsIff.ofOption ?_ ?_).congr (Text.integer?_eq_none_iff hdigits)
    · intro n hn
      rw [hn]
      exact .ok _
    · intro hn
      rw [hn]
  · rename_i hnumber
    refine (FailsIff.ok _).congr ⟨False.elim, fun h => hnumber ?_⟩
    simp only [Text.isFalseNumeral, Bool.and_eq_true] at h ⊢
    exact ⟨h.1, h.2.1⟩

theorem lowestPhy_failsIff (names : List Text) :
    FailsIff (lowestPhy names) (∃ name ∈ names, isMisnumbered name = true) := by
  unfold lowestPhy
  have hnumbers := FailsIff.mapM (l := names.filter fun name => Text.startsWith name "phy")
    fun name _ => (phyNumber?_failsIff name).map fun n => (name, n)
  refine (hnumbers.bind_ok fun numbered => ?_).congr ?_
  · split
    · exact .ok _
    · exact .ok _
  · simp [isMisnumbered, isPhy, and_assoc]

theorem mem_sorted {p : Text → Bool} {names : List Text} {name : Text} :
    name ∈ sorted p names ↔ name ∈ names ∧ p name = true := by
  rw [sorted, mem_sortBy, List.mem_filter]

theorem ofPort_failsIff (s : AttributeTree) (hostDevice port : Text) :
    FailsIff (ofPort s hostDevice port)
      (∃ name ∈ s.entries (PathText.join hostDevice port), isMisnumbered name = true) := by
  unfold ofPort
  refine ((lowestPhy_failsIff _).bind_ok fun lowest => ?_).congr ?_
  · split
    · exact .ok _
    · exact .ok _
  · refine exists_congr fun name => ?_
    rw [mem_sorted, and_assoc, and_congr_right_iff]
    intro _
    simp only [isMisnumbered, Bool.and_eq_true]
    exact ⟨fun h => h.2, fun h => ⟨h.1.1, h⟩⟩

theorem ofPorts_failsIff (s : AttributeTree) (hostDevice : Text) (ports : List Text)
    (found : Attributes) : FailsIff (ofPorts s hostDevice ports found)
      (∃ port ∈ ports, ∃ name ∈ s.entries (PathText.join hostDevice port),
        isMisnumbered name = true) := by
  induction ports generalizing found with
  | nil => exact (FailsIff.ok _).congr (by simp)
  | cons port rest ih =>
    unfold ofPorts
    refine ((ofPort_failsIff s hostDevice port).bind fun values => ih _).congr ?_
    simp only [List.mem_cons, exists_eq_or_imp]

theorem hostPorts_failsIff (s : AttributeTree) (host : Text) : FailsIff (hostPorts s host)
    (∃ port ∈ s.entries (s.classPath "scsi_host" [host, "device"]), isPort port = true ∧
      ∃ name ∈ s.entries (PathText.join (s.classPath "scsi_host" [host, "device"]) port),
        isMisnumbered name = true) := by
  unfold hostPorts
  simp only
  split
  · rename_i hports
    refine (FailsIff.ok _).congr ⟨False.elim, ?_⟩
    rintro ⟨port, hmem, hport, -⟩
    have hsorted := mem_sorted.2 ⟨hmem, hport⟩
    rw [hports] at hsorted
    cases hsorted
  · refine (ofPorts_failsIff s _ _ _).congr (exists_congr fun port => ?_)
    rw [mem_sorted, and_assoc]

theorem hostProbe_failsIff (s : AttributeTree) (host : Text) : FailsIff (hostProbe s host)
    (s.has (s.classPath "sas_host" [host]) = true ∧ HasMisnumbered s host) := by
  unfold hostProbe
  refine FailsIff.ite ?_ (.ok none)
  refine (hostPorts_failsIff s host).bind fun attributes => ?_
  exact (lowestPhy_failsIff _).bind_ok fun lowest => .ok _

end Serial

/-! ## Sessions -/

namespace Iscsi

/-- Is it the name of a session whose number looks like a numeral and is none? -/
def isMisnumbered (name : Text) : Bool :=
  Text.startsWith name "session" && Text.isFalseNumeral (name.drop 7)

/-- Is the target of an address in a misnumbered session? -/
def HasMisnumbered (s : AttributeTree) (a : Address) : Prop :=
  ∃ name ∈ s.entries (s.classPath "iscsi_host" [a.hostName, "device"]), isMisnumbered name = true ∧
    s.isDir (PathText.joinAll (s.classPath "iscsi_host" [a.hostName, "device"])
      [name, a.targetName]) = true

theorem readNumber_failsIff {digits : Text} (h : Text.isDigits digits = true) :
    FailsIff (readNumber digits) (Text.isFalseNumeral digits = true) := by
  refine (FailsIff.ofOption ?_ ?_).congr (Text.integer?_eq_none_iff h)
  · intro n hn
    rw [readNumber, hn]
    exact .ok _
  · intro hn
    rw [readNumber, hn]

theorem sessionDigits?_eq_some_iff {name digits : Text} : sessionDigits? name = some digits ↔
    Text.startsWith name "session" = true ∧ Text.isDigits digits = true ∧ name.drop 7 = digits := by
  unfold sessionDigits?
  constructor
  · intro h
    obtain ⟨hname, hdrop⟩ := Option.ite_none_right_eq_some.1 h
    obtain rfl := Option.some.inj hdrop
    obtain ⟨hstart, hdigits⟩ := Bool.and_eq_true_iff.1 hname
    exact ⟨hstart, hdigits, rfl⟩
  · rintro ⟨hstart, hdigits, rfl⟩
    rw [hstart, hdigits]
    rfl

theorem sessions_failsIff (s : AttributeTree) (a : Address) :
    FailsIff (sessions s a) (HasMisnumbered s a) := by
  unfold sessions
  refine (FailsIff.mapM (r := fun digits => Text.isFalseNumeral digits = true) ?_).congr ?_
  · intro digits hmem
    obtain ⟨name, -, hname⟩ := List.mem_filterMap.1 hmem
    exact readNumber_failsIff (sessionDigits?_eq_some_iff.1 hname).2.1
  · constructor
    · rintro ⟨digits, hmem, hfalse⟩
      obtain ⟨name, hname, hdigits⟩ := List.mem_filterMap.1 hmem
      obtain ⟨hname, hsession⟩ := List.mem_filter.1 hname
      obtain ⟨hstart, -, rfl⟩ := sessionDigits?_eq_some_iff.1 hdigits
      refine ⟨name, mem_sortBy.1 hname, ?_, (Bool.and_eq_true_iff.1 hsession).2⟩
      rw [isMisnumbered, hstart, hfalse]
      rfl
    · rintro ⟨name, hname, hfalse, hdir⟩
      obtain ⟨hstart, hfalse⟩ := Bool.and_eq_true_iff.1 hfalse
      have hdigits : sessionDigits? name = some (name.drop 7) :=
        sessionDigits?_eq_some_iff.2 ⟨hstart, (Bool.and_eq_true_iff.1 hfalse).1, rfl⟩
      refine ⟨name.drop 7, List.mem_filterMap.2 ⟨name, ?_, hdigits⟩, hfalse⟩
      refine List.mem_filter.2 ⟨mem_sortBy.2 hname, ?_⟩
      rw [hdigits, hdir]
      rfl

theorem deviceProbe_failsIff (s : AttributeTree) (a : Address) (device : Text) :
    FailsIff (deviceProbe s a device)
      (s.isDir (s.classPath "iscsi_host" [a.hostName, "device"]) = true ∧ HasMisnumbered s a) := by
  unfold deviceProbe
  refine FailsIff.ite ((sessions_failsIff s a).bind_ok fun numbers => ?_) (.ok none)
  split
  · exact .ok _
  · exact .ok _

end Iscsi

/-! ## Adapters -/

namespace Rdma

/-- Has a host a port on an adapter whose name cannot be a part of a path? -/
def HasNullAdapter (s : AttributeTree) (host : Text) : Prop :=
  (s.readInt (s.classPath "scsi_host" [host]) "local_ib_port").isSome = true ∧
    ∃ adapter, s.read (s.classPath "scsi_host" [host]) "local_ib_device" = some adapter ∧
      '\x00' ∈ adapter

theorem part_failsIff (t : Text) : FailsIff (PathText.part t) ('\x00' ∈ t) := by
  unfold PathText.part
  split
  · rename_i h
    exact .error (.inr rfl) (List.contains_iff_mem.1 h)
  · rename_i h
    exact (FailsIff.ok t).congr ⟨False.elim, fun hmem => h (List.contains_iff_mem.2 hmem)⟩

theorem localPort_failsIff (s : AttributeTree) (host : Text) :
    FailsIff (localPort s host) (HasNullAdapter s host) := by
  unfold localPort
  simp only
  split
  · rename_i port c r hport hadapter
    refine ((part_failsIff (c :: r)).map _).congr ⟨fun hnull => ?_, ?_⟩
    · exact ⟨Option.isSome_of_eq_some hport, c :: r, hadapter, hnull⟩
    · rintro ⟨-, adapter, hother, hnull⟩
      rwa [← Option.some.inj (hother.symm.trans hadapter)]
  · rename_i hnone
    refine (FailsIff.ok _).congr ⟨False.elim, ?_⟩
    rintro ⟨hport, adapter, hadapter, hnull⟩
    obtain ⟨port, hport⟩ := Option.isSome_iff_exists.1 hport
    cases adapter with
    | nil => cases hnull
    | cons c r => exact hnone port c r hport hadapter

theorem hostProbe_failsIff (s : AttributeTree) (host : Text) : FailsIff (hostProbe s host)
    (s.isDir (s.classPath "srp_host" [host]) = true ∧ HasNullAdapter s host) :=
  FailsIff.ite ((localPort_failsIff s host).bind_ok fun _ => .ok _) (.ok none)

theorem hostProbe_eq_absent_iff (s : AttributeTree) (host : Text) :
    hostProbe s host = .ok none ↔ s.isDir (s.classPath "srp_host" [host]) = false := by
  unfold hostProbe
  cases s.isDir (s.classPath "srp_host" [host]) with
  | false => exact ⟨fun _ => rfl, fun _ => rfl⟩
  | true =>
    refine ⟨fun h => ?_, fun h => by cases h⟩
    obtain ⟨port, -, hport⟩ := bind_eq_ok_iff.1 h
    cases hport

end Rdma

/-! ## The other protocols -/

/-- On a host only the probes for serial SCSI and for remote direct memory access can fail. -/
theorem host_answers {p : Probe} (hp : p ∈ [Parallel.probe, FibreChannel.probe,
    Serial.Older.probe, FireWire.probe, Iscsi.probe, Usb.probe, Ata.probe])
    (s : AttributeTree) (host : Text) : FailsIff (p.host s host) False := by
  simp only [List.mem_cons, List.not_mem_nil, or_false] at hp
  rcases hp with rfl | rfl | rfl | rfl | rfl | rfl | rfl
  · exact FailsIff.either (.ok _) (.ok _)
  · exact FailsIff.either (.ok _) (.ok _)
  · exact FailsIff.either (.ok _) (.ok _)
  · show FailsIff (FireWire.hostProbe s host) False
    unfold FireWire.hostProbe
    simp only
    split <;> exact .ok _
  · exact FailsIff.either (.ok _) (.ok _)
  · show FailsIff (Usb.probeAt s _) False
    unfold Usb.probeAt
    split <;> exact .ok _
  · show FailsIff (Ata.hostProbe s host) False
    unfold Ata.hostProbe
    split <;> exact .ok _

/-- On a device only the probes for SCSI over IP and for remote direct memory access can fail. -/
theorem device_answers {p : Probe} (hp : p ∈ [Serial.probe, Parallel.probe, FibreChannel.probe,
    Serial.Older.probe, FireWire.probe, Usb.probe, Ata.probe])
    (s : AttributeTree) (a : Address) (device : Text) : FailsIff (p.device s a device) False := by
  simp only [List.mem_cons, List.not_mem_nil, or_false] at hp
  rcases hp with rfl | rfl | rfl | rfl | rfl | rfl | rfl
  · refine FailsIff.either ?_ (.ok _)
    split <;> exact .ok _
  · exact FailsIff.either (.ok _) (.ok _)
  · exact FailsIff.either (.ok _) (.ok _)
  · exact FailsIff.either (.ok _) (.ok _)
  · show FailsIff (FireWire.deviceProbe s a device) False
    unfold FireWire.deviceProbe
    split <;> exact .ok _
  · show FailsIff (Usb.probeAt s _) False
    unfold Usb.probeAt
    split <;> exact .ok _
  · show FailsIff (Ata.deviceProbe s a device) False
    unfold Ata.deviceProbe
    split <;> exact .ok _

theorem absent_iff {c : Bool} {x : Finding} (hx : x ≠ .ok none) :
    (if c then x else Finding.absent) = .ok none ↔ c = false := by
  cases c with
  | false => exact ⟨fun _ => rfl, fun _ => rfl⟩
  | true => exact ⟨fun h => absurd h hx, fun h => by cases h⟩

theorem serial_absent_iff (s : AttributeTree) (a : Address) (device : Text) :
    Serial.deviceProbe s a device = .ok none ↔
      s.has (s.classPath "sas_host" [a.hostName]) = false := by
  refine absent_iff ?_
  split <;> nofun

theorem fireWire_absent_iff (s : AttributeTree) (a : Address) (device : Text) :
    FireWire.deviceProbe s a device = .ok none ↔
      s.read (s.under ["bus", "scsi", "devices", device]) "ieee1394_id" = none := by
  unfold FireWire.deviceProbe
  cases s.read (s.under ["bus", "scsi", "devices", device]) "ieee1394_id" with
  | none => exact ⟨fun _ => rfl, fun _ => rfl⟩
  | some id => exact ⟨nofun, nofun⟩

/-! ## Classification -/

/-- A classification fails if its first probe does, or if this one finds nothing and the rest
fails. -/
theorem firstFound_cons_failsIff {x : Finding} {rest : List Finding} {p q : Prop}
    (hx : FailsIff x p) (hrest : FailsIff (firstFound rest) q) :
    FailsIff (firstFound (x :: rest)) (p ∨ x = .ok none ∧ q) := by
  cases hvalue : x with
  | error e => exact .error (hx.fault e hvalue) (.inl (hx.of_eq_error hvalue))
  | ok found =>
    have hp := hx.not_of_eq_ok hvalue
    cases found with
    | none => exact hrest.congr ⟨fun hq => .inr ⟨rfl, hq⟩, fun h => (h.resolve_left hp).2⟩
    | some t =>
      refine (FailsIff.ok _).congr ⟨False.elim, fun h => ?_⟩
      cases (h.resolve_left hp).1

/-- A classification by probes that cannot fail does not fail. -/
theorem firstFound_answers {found : List Finding} (h : ∀ y ∈ found, FailsIff y False) :
    FailsIff (firstFound found) False := by
  induction found with
  | nil => exact .ok _
  | cons y rest ih =>
    obtain ⟨hy, hrest⟩ := List.forall_mem_cons.1 h
    exact (firstFound_cons_failsIff hy (ih hrest)).congr (by simp)

/-- A classification that begins with probes that cannot fail comes to the rest if none of them finds
anything. -/
theorem firstFound_append_failsIff {before rest : List Finding} {q : Prop}
    (hbefore : ∀ y ∈ before, FailsIff y False) (hrest : FailsIff (firstFound rest) q) :
    FailsIff (firstFound (before ++ rest)) ((∀ y ∈ before, y = .ok none) ∧ q) := by
  induction before with
  | nil => exact hrest.congr (by simp)
  | cons y more ih =>
    obtain ⟨hy, hmore⟩ := List.forall_mem_cons.1 hbefore
    exact (firstFound_cons_failsIff hy (ih hmore)).congr (by simp [and_assoc])

/-- Is a host classified by its adapter, if at all, and the name of that none for a path? Or is it
classified as serial SCSI, if at all, and has it a misnumbered phy? -/
inductive HostStops (s : AttributeTree) (host : Text) : Prop where
  | adapter (parallel : s.isDir (s.classPath "spi_host" [host]) = false)
      (fibreChannel : s.isDir (s.classPath "fc_host" [host]) = false)
      (rdma : s.isDir (s.classPath "srp_host" [host]) = true)
      (nullAdapter : Rdma.HasNullAdapter s host)
  | phy (parallel : s.isDir (s.classPath "spi_host" [host]) = false)
      (fibreChannel : s.isDir (s.classPath "fc_host" [host]) = false)
      (rdma : s.isDir (s.classPath "srp_host" [host]) = false)
      (serial : s.has (s.classPath "sas_host" [host]) = true)
      (misnumbered : Serial.HasMisnumbered s host)

/-- Is a device classified by the adapter of its host, if at all, and the name of that none for a
path? Or is it classified as SCSI over IP, if at all, and its target in a misnumbered session? -/
inductive DeviceStops (s : AttributeTree) (a : Address) (device : Text) : Prop where
  | adapter (serial : s.has (s.classPath "sas_host" [a.hostName]) = false)
      (parallel : s.isDir (s.classPath "spi_host" [a.hostName]) = false)
      (fibreChannel : s.isDir (s.classPath "fc_host" [a.hostName]) = false)
      (rdma : s.isDir (s.classPath "srp_host" [a.hostName]) = true)
      (nullAdapter : Rdma.HasNullAdapter s a.hostName)
  | session (serial : s.has (s.classPath "sas_host" [a.hostName]) = false)
      (parallel : s.isDir (s.classPath "spi_host" [a.hostName]) = false)
      (fibreChannel : s.isDir (s.classPath "fc_host" [a.hostName]) = false)
      (rdma : s.isDir (s.classPath "srp_host" [a.hostName]) = false)
      (older : s.isDir (s.under ["bus", "scsi", "devices", device, "sas_device"]) = false)
      (fireWire : s.read (s.under ["bus", "scsi", "devices", device]) "ieee1394_id" = none)
      (iscsi : s.isDir (s.classPath "iscsi_host" [a.hostName, "device"]) = true)
      (misnumbered : Iscsi.HasMisnumbered s a)

theorem ofHost_failsIff (s : AttributeTree) (host : Text) :
    FailsIff (ofHost s host) (HostStops s host) := by
  let answer (p : Probe) : Finding := p.host s host
  have hbefore : ∀ y ∈ [Parallel.probe, FibreChannel.probe].map answer, FailsIff y False := by
    refine List.forall_mem_map.2 fun p hp => host_answers ?_ s host
    exact List.mem_append_left _ hp
  have hafter : ∀ y ∈ [Serial.Older.probe, FireWire.probe, Iscsi.probe, Usb.probe,
      Ata.probe].map answer, FailsIff y False := by
    refine List.forall_mem_map.2 fun p hp => host_answers ?_ s host
    exact List.mem_append_right [Parallel.probe, FibreChannel.probe] hp
  have hserial := firstFound_cons_failsIff (Serial.hostProbe_failsIff s host)
    (firstFound_answers hafter)
  have hrdma := firstFound_cons_failsIff (Rdma.hostProbe_failsIff s host) hserial
  refine (firstFound_append_failsIff hbefore hrdma).congr ?_
  have hparallel : answer Parallel.probe = .ok none ↔ _ := absent_iff nofun
  have hfibreChannel : answer FibreChannel.probe = .ok none ↔ _ := absent_iff nofun
  simp only [List.map_cons, List.map_nil, List.forall_mem_cons, List.not_mem_nil, false_imp_iff,
    implies_true, and_true, and_false, or_false, hparallel, hfibreChannel,
    Rdma.hostProbe_eq_absent_iff]
  constructor
  · rintro ⟨⟨h₁, h₂⟩, ⟨h₃, h₄⟩ | ⟨h₃, h₄, h₅⟩⟩
    · exact .adapter h₁ h₂ h₃ h₄
    · exact .phy h₁ h₂ h₃ h₄ h₅
  · rintro (⟨h₁, h₂, h₃, h₄⟩ | ⟨h₁, h₂, h₃, h₄, h₅⟩)
    · exact ⟨⟨h₁, h₂⟩, .inl ⟨h₃, h₄⟩⟩
    · exact ⟨⟨h₁, h₂⟩, .inr ⟨h₃, h₄, h₅⟩⟩

theorem ofDevice_failsIff (s : AttributeTree) (a : Address) (device : Text) :
    FailsIff (ofDevice s a device) (DeviceStops s a device) := by
  let answer (p : Probe) : Finding := p.device s a device
  have hbefore : ∀ y ∈ [Serial.probe, Parallel.probe, FibreChannel.probe].map answer,
      FailsIff y False := by
    refine List.forall_mem_map.2 fun p hp => device_answers ?_ s a device
    exact List.mem_append_left _ hp
  have hbetween : ∀ y ∈ [Serial.Older.probe, FireWire.probe].map answer, FailsIff y False := by
    refine List.forall_mem_map.2 fun p hp => device_answers ?_ s a device
    refine List.mem_append_right [Serial.probe, Parallel.probe, FibreChannel.probe] ?_
    exact List.mem_append_left _ hp
  have hafter : ∀ y ∈ [Usb.probe, Ata.probe].map answer, FailsIff y False := by
    refine List.forall_mem_map.2 fun p hp => device_answers ?_ s a device
    exact List.mem_append_right [Serial.probe, Parallel.probe, FibreChannel.probe,
      Serial.Older.probe, FireWire.probe] hp
  have hiscsi := firstFound_append_failsIff hbetween
    (firstFound_cons_failsIff (Iscsi.deviceProbe_failsIff s a device) (firstFound_answers hafter))
  have hrdma := firstFound_cons_failsIff (Rdma.hostProbe_failsIff s a.hostName) hiscsi
  refine (firstFound_append_failsIff hbefore hrdma).congr ?_
  have hserial : answer Serial.probe = .ok none ↔ _ := serial_absent_iff s a device
  have hparallel : answer Parallel.probe = .ok none ↔ _ := absent_iff nofun
  have hfibreChannel : answer FibreChannel.probe = .ok none ↔ _ := absent_iff nofun
  have holder : answer Serial.Older.probe = .ok none ↔ _ := absent_iff nofun
  have hfireWire : answer FireWire.probe = .ok none ↔ _ := fireWire_absent_iff s a device
  simp only [List.map_cons, List.map_nil, List.forall_mem_cons, List.not_mem_nil, false_imp_iff,
    implies_true, and_true, and_false, or_false, hserial, hparallel, hfibreChannel, holder,
    hfireWire, Rdma.hostProbe_eq_absent_iff]
  constructor
  · rintro ⟨⟨h₁, h₂, h₃⟩, ⟨h₄, h₅⟩ | ⟨h₄, ⟨h₅, h₆⟩, h₇, h₈⟩⟩
    · exact .adapter h₁ h₂ h₃ h₄ h₅
    · exact .session h₁ h₂ h₃ h₄ h₅ h₆ h₇ h₈
  · rintro (⟨h₁, h₂, h₃, h₄, h₅⟩ | ⟨h₁, h₂, h₃, h₄, h₅, h₆, h₇, h₈⟩)
    · exact ⟨⟨h₁, h₂, h₃⟩, .inl ⟨h₄, h₅⟩⟩
    · exact ⟨⟨h₁, h₂, h₃⟩, .inr ⟨h₄, ⟨h₅, h₆⟩, h₇, h₈⟩⟩

end StorageAtlas.Transport
