import StorageAtlas.Proofs.Transport.Failure

/-!
Hosts with an entry in a class of their own. Four protocols keep one for each of
their hosts, and hosts and devices are asked for these four before anything else
is looked at, though not in the same order. So where one class has an entry, the
host and its devices have one kind of transport, whatever else a tree holds.
-/

namespace StorageAtlas

theorem AttributeTree.isDir_eq_false {s : AttributeTree} {path : Text} (h : s.has path = false) :
    s.isDir path = false := by
  refine Bool.eq_false_iff.2 fun hdir => ?_
  exact Bool.false_ne_true (h.symm.trans (Tree.exists?_of_isDir hdir))

/-! ## Findings of one kind -/

/-- Is something of a given kind found, unless the search fails? -/
def Finding.IsOf (x : Finding) (kind : TransportKind) : Prop :=
  ∀ found, x = .ok found → ∃ t : Transport, found = some t ∧ t.kind = kind

namespace Finding.IsOf

theorem found (kind : TransportKind) (summary : Text) (attributes : Attributes) :
    IsOf (.found kind summary attributes) kind := by
  rintro _ ⟨⟩
  exact ⟨_, rfl, rfl⟩

theorem ite {p : Prop} [Decidable p] (hp : p) {x y : Finding} {kind : TransportKind}
    (h : x.IsOf kind) : IsOf (if p then x else y) kind := by
  rw [if_pos hp]
  exact h

theorem bind {α : Type} (x : Except ValueFault α) {f : α → Finding} {kind : TransportKind}
    (h : ∀ a, IsOf (f a) kind) : IsOf (x >>= f) kind := by
  cases x with
  | error e => nofun
  | ok a => exact h a

theorem ne_absent {x : Finding} {kind : TransportKind} (h : x.IsOf kind) : x ≠ .absent := by
  rintro rfl
  obtain ⟨t, ht, -⟩ := h none rfl
  cases ht

theorem kind_of_firstFound {x : Finding} {kind : TransportKind} (h : x.IsOf kind) {t : Transport}
    (ht : Transport.firstFound [x] = .ok t) : t.kind = kind := by
  rcases x with e | found
  · cases ht
  · obtain ⟨u, rfl, hu⟩ := h found rfl
    obtain rfl := Except.ok.inj ht
    exact hu

end Finding.IsOf

namespace Transport

/-- Where all but one of some protocols find nothing, what that one finds counts. -/
theorem firstFound_of_only {α : Type} {ask : α → Finding} {c : α} {asked : List α}
    (hmem : c ∈ asked) (hfound : ask c ≠ .absent) (hother : ∀ d, d ≠ c → ask d = .absent)
    (rest : List Finding) : firstFound (asked.map ask ++ rest) = firstFound [ask c] := by
  obtain ⟨before, after, rfl, hbefore⟩ := List.eq_append_cons_of_mem hmem
  have habsent : ∀ x ∈ before.map ask, x = .absent := by
    refine List.forall_mem_map.2 fun d hd => hother d ?_
    rintro rfl
    exact hbefore hd
  calc firstFound ((before ++ c :: after).map ask ++ rest)
      = firstFound (before.map ask ++ ([ask c] ++ (after.map ask ++ rest))) := by simp
    _ = firstFound ([ask c] ++ (after.map ask ++ rest)) := firstFound_append_of_absent habsent _
    _ = firstFound [ask c] :=
      firstFound_append_of_found ⟨ask c, List.mem_singleton_self _, hfound⟩ _

/-- A protocol that keeps a class of its hosts. -/
inductive HostClass where
  | parallel
  | fibreChannel
  | rdma
  | serial
  deriving DecidableEq, Repr

namespace HostClass

def name : HostClass → Text
  | parallel => "spi_host"
  | fibreChannel => "fc_host"
  | rdma => "srp_host"
  | serial => "sas_host"

def probe : HostClass → Probe
  | parallel => Parallel.probe
  | fibreChannel => FibreChannel.probe
  | rdma => Rdma.probe
  | serial => Serial.probe

/-- The kinds of transport that hosts of a class have. -/
def kinds : HostClass → List TransportKind
  | parallel => [.spi]
  | fibreChannel => [.fc, .fcoe]
  | rdma => [.srp]
  | serial => [.sas]

/-- The kind of transport that a host has in its class. -/
def kindOf (s : AttributeTree) (host : Text) : HostClass → TransportKind
  | parallel => .spi
  | fibreChannel => FibreChannel.kindOf s (s.classPath "fc_host" [host])
  | rdma => .srp
  | serial => .sas

variable {s : AttributeTree} {host device : Text} {a : Address} {c : HostClass}

theorem kindOf_mem_kinds (s : AttributeTree) (host : Text) (c : HostClass) :
    c.kindOf s host ∈ c.kinds := by
  cases c with
  | fibreChannel =>
    simp only [kindOf, FibreChannel.kindOf, kinds]
    split <;> simp
  | _ => exact List.mem_singleton_self _

theorem host_absent (h : s.has (s.classPath c.name [host]) = false) :
    c.probe.host s host = .absent := by
  have hdir := AttributeTree.isDir_eq_false h
  cases c with
  | parallel => exact if_neg (Bool.eq_false_iff.1 hdir)
  | fibreChannel => exact if_neg (Bool.eq_false_iff.1 hdir)
  | rdma => exact if_neg (Bool.eq_false_iff.1 hdir)
  | serial => exact if_neg (Bool.eq_false_iff.1 h)

theorem device_absent (h : s.has (s.classPath c.name [a.hostName]) = false) :
    c.probe.device s a device = .absent := by
  have hdir := AttributeTree.isDir_eq_false h
  cases c with
  | parallel => exact if_neg (Bool.eq_false_iff.1 hdir)
  | fibreChannel => exact if_neg (Bool.eq_false_iff.1 hdir)
  | rdma => exact if_neg (Bool.eq_false_iff.1 hdir)
  | serial => exact if_neg (Bool.eq_false_iff.1 h)

theorem host_isOf (h : s.isDir (s.classPath c.name [host]) = true) :
    (c.probe.host s host).IsOf (c.kindOf s host) := by
  cases c with
  | parallel => exact .ite h (.found _ _ _)
  | fibreChannel => exact .ite h (.found _ _ _)
  | rdma => exact .ite h (.bind _ fun port => .found _ _ _)
  | serial =>
    refine .ite (Tree.exists?_of_isDir h) ?_
    exact .bind _ fun attributes => .bind _ fun phy => .found _ _ _

theorem device_isOf (h : s.isDir (s.classPath c.name [a.hostName]) = true) :
    (c.probe.device s a device).IsOf (c.kindOf s a.hostName) := by
  cases c with
  | parallel => exact .ite h (.found _ _ _)
  | fibreChannel => exact .ite h (.found _ _ _)
  | rdma => exact .ite h (.bind _ fun port => .found _ _ _)
  | serial =>
    refine .ite (Tree.exists?_of_isDir h) ?_
    split <;> exact .found _ _ _

/-- The classes in the order in which hosts are asked for them. -/
def hostOrder : List HostClass := [parallel, fibreChannel, rdma, serial]

/-- The classes in the order in which devices are asked for them. -/
def deviceOrder : List HostClass := [serial, parallel, fibreChannel, rdma]

theorem mem_hostOrder (c : HostClass) : c ∈ hostOrder := by cases c <;> decide

theorem mem_deviceOrder (c : HostClass) : c ∈ deviceOrder := by cases c <;> decide

/-- The protocols without such a class. -/
def otherProbes : List Probe :=
  [Serial.Older.probe, FireWire.probe, Iscsi.probe, Usb.probe, Ata.probe]

theorem ofHost_eq_of_only (hdir : s.isDir (s.classPath c.name [host]) = true)
    (honly : ∀ d : HostClass, d ≠ c → s.has (s.classPath d.name [host]) = false) :
    ofHost s host = firstFound [c.probe.host s host] := by
  have hask : ofHost s host = firstFound (hostOrder.map (fun d => d.probe.host s host) ++
      otherProbes.map fun p => p.host s host) := rfl
  rw [hask]
  exact firstFound_of_only (mem_hostOrder c) (host_isOf hdir).ne_absent
    (fun d hd => host_absent (honly d hd)) _

theorem ofDevice_eq_of_only (hdir : s.isDir (s.classPath c.name [a.hostName]) = true)
    (honly : ∀ d : HostClass, d ≠ c → s.has (s.classPath d.name [a.hostName]) = false) :
    ofDevice s a device = firstFound [c.probe.device s a device] := by
  have hask : ofDevice s a device = firstFound
      (deviceOrder.map (fun d => d.probe.device s a device) ++
        otherProbes.map fun p => p.device s a device) := rfl
  rw [hask]
  exact firstFound_of_only (mem_deviceOrder c) (device_isOf hdir).ne_absent
    (fun d hd => device_absent (honly d hd)) _

/-- Only the name of an adapter and the numbers of phys can keep such a host from being classified. -/
theorem ofHost_failsIff_of_only (hdir : s.isDir (s.classPath c.name [host]) = true)
    (honly : ∀ d : HostClass, d ≠ c → s.has (s.classPath d.name [host]) = false) :
    FailsIff (ofHost s host) (c = .rdma ∧ Rdma.HasNullAdapter s host ∨
      c = .serial ∧ Serial.HasMisnumbered s host) := by
  have habsent : ∀ d : HostClass, d ≠ c → s.isDir (s.classPath d.name [host]) = false :=
    fun d hd => AttributeTree.isDir_eq_false (honly d hd)
  refine (ofHost_failsIff s host).congr ⟨?_, ?_⟩
  · rintro (⟨-, -, hrdma, hadapter⟩ | ⟨-, -, -, hserial, hmisnumbered⟩)
    · refine .inl ⟨by_contra fun hne => ?_, hadapter⟩
      exact Bool.false_ne_true ((habsent .rdma (Ne.symm hne)).symm.trans hrdma)
    · refine .inr ⟨by_contra fun hne => ?_, hmisnumbered⟩
      exact Bool.false_ne_true ((honly .serial (Ne.symm hne)).symm.trans hserial)
  · rintro (⟨rfl, hadapter⟩ | ⟨rfl, hmisnumbered⟩)
    · exact .adapter (habsent .parallel (by decide)) (habsent .fibreChannel (by decide)) hdir hadapter
    · exact .phy (habsent .parallel (by decide)) (habsent .fibreChannel (by decide))
        (habsent .rdma (by decide)) (Tree.exists?_of_isDir hdir) hmisnumbered

/-- Only the name of an adapter can keep a device on such a host from being classified. -/
theorem ofDevice_failsIff_of_only (hdir : s.isDir (s.classPath c.name [a.hostName]) = true)
    (honly : ∀ d : HostClass, d ≠ c → s.has (s.classPath d.name [a.hostName]) = false)
    (device : Text) :
    FailsIff (ofDevice s a device) (c = .rdma ∧ Rdma.HasNullAdapter s a.hostName) := by
  rw [ofDevice_eq_of_only hdir honly]
  have hprobe : FailsIff (c.probe.device s a device)
      (c = .rdma ∧ Rdma.HasNullAdapter s a.hostName) := by
    cases c with
    | rdma =>
      refine (Rdma.hostProbe_failsIff s a.hostName).congr (and_congr_left fun _ => ?_)
      exact iff_of_true hdir rfl
    | parallel | fibreChannel | serial =>
      refine (device_answers ?_ s a device).congr (by simp)
      simp [probe]
  have hrest : FailsIff (firstFound []) False := .ok _
  exact (firstFound_cons_failsIff hprobe hrest).congr (by simp)

end HostClass

/-- A host with an entry in one of the four classes, which is a directory, has the same kind of
transport as each device on it, and one of those that belong to the class. Both can be classified
unless the name of an adapter cannot stand in a path or, for the host, a phy is misnumbered. -/
theorem classified_alike_of_onlyClass (s : AttributeTree) (h : Nat) (c : HostClass)
    (hdir : s.isDir (s.classPath c.name ["host" ++ Text.decimal h]) = true)
    (honly : ∀ d : HostClass, d ≠ c →
      s.has (s.classPath d.name ["host" ++ Text.decimal h]) = false)
    (a : Address) (ha : a.host = h) (device : Text) :
    (∀ t u, ofHost s ("host" ++ Text.decimal h) = .ok t → ofDevice s a device = .ok u →
      u.kind ∈ c.kinds ∧ t.kind = u.kind) ∧
    FailsIff (ofHost s ("host" ++ Text.decimal h))
      (c = .rdma ∧ Rdma.HasNullAdapter s ("host" ++ Text.decimal h) ∨
        c = .serial ∧ Serial.HasMisnumbered s ("host" ++ Text.decimal h)) ∧
    FailsIff (ofDevice s a device)
      (c = .rdma ∧ Rdma.HasNullAdapter s ("host" ++ Text.decimal h)) := by
  have hname : a.hostName = "host" ++ Text.decimal h := by
    rw [Address.hostName, ha]
    rfl
  rw [← hname] at hdir honly ⊢
  refine ⟨fun t u ht hu => ?_, HostClass.ofHost_failsIff_of_only hdir honly,
    HostClass.ofDevice_failsIff_of_only hdir honly device⟩
  rw [HostClass.ofHost_eq_of_only hdir honly] at ht
  rw [HostClass.ofDevice_eq_of_only hdir honly] at hu
  have hhost := (HostClass.host_isOf hdir).kind_of_firstFound ht
  have hdevice := Finding.IsOf.kind_of_firstFound (HostClass.device_isOf hdir) hu
  exact ⟨hdevice ▸ HostClass.kindOf_mem_kinds s a.hostName c, hhost.trans hdevice.symm⟩

/-- A host of Fibre Channel over Ethernet, with an entry of SCSI over IP and the driver of an ATA
host as well. -/
def mixedHost : Tree :=
  [("fc_host/host3/symbolic_name", Node.file (Utf8.encode "fnic over eth0")),
    ("iscsi_host/host3/device", .directory true),
    ("scsi_host/host3/proc_name", .file (Utf8.encode "ahci"))].foldl
    (fun t (name, node) => t.put (Path.ofText ("/sys/class/" ++ name)) node) {}

theorem classified_alike_mixedHost :
    let s := AttributeTree.mounted mixedHost "/sys"
    s.isDir (s.classPath "fc_host" ["host" ++ Text.decimal 3]) = true ∧
    s.isDir (s.classPath "iscsi_host" ["host" ++ Text.decimal 3]) = true ∧
    ∃ t u, ofHost s ("host" ++ Text.decimal 3) = .ok t ∧
      ofDevice s (Address.ofLun 3 0 0 1) "3:0:0:1" = .ok u ∧ u.kind ∈ [.fc, .fcoe] ∧
      t.kind = u.kind := by
  intro s
  have hdir : s.isDir (s.classPath "fc_host" ["host" ++ Text.decimal 3]) = true := by
    decide +kernel
  have honly : ∀ d : HostClass, d ≠ .fibreChannel →
      s.has (s.classPath d.name ["host" ++ Text.decimal 3]) = false := by
    intro d hd
    cases d with
    | fibreChannel => exact absurd rfl hd
    | parallel => decide +kernel
    | rdma => decide +kernel
    | serial => decide +kernel
  obtain ⟨halike, hhost, hdevice⟩ := classified_alike_of_onlyClass s 3 .fibreChannel hdir honly
    (Address.ofLun 3 0 0 1) rfl "3:0:0:1"
  obtain ⟨t, ht⟩ := hhost.exists_ok_iff.2 (by simp)
  obtain ⟨u, hu⟩ := hdevice.exists_ok_iff.2 (by simp)
  exact ⟨hdir, by decide +kernel, t, u, ht, hu, halike t u ht hu⟩

end Transport
end StorageAtlas
