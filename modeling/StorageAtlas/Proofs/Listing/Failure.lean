import StorageAtlas.Proofs.Listing.Namespaces
import StorageAtlas.Proofs.Listing.Runs
import StorageAtlas.Proofs.Transport.Failure

/-!
When a listing fails. Nothing in a tree stops a listing of namespaces or
controllers. Units and hosts are not listed if the transport of one that is
selected cannot be told: for a number that is no numeral, or for an adapter whose
name is none for a path.
-/

namespace StorageAtlas

namespace View

/-- Is there one among the units or hosts selected whose transport cannot be told? -/
def Stops (v : View) (f : AddressFilter) : Subject → Prop
  | .units => ∃ u ∈ v.units f, Transport.DeviceStops v.sysfs u.1 u.2
  | .hosts => ∃ u ∈ v.hosts f, Transport.HostStops v.sysfs u.2
  | .namespaces | .controllers => False

theorem recordsOf_failsIff {α : Type} {consults : α → Bool} {record : α → Except ValueFault Record}
    {l : List α} {p : α → Prop} (h : ∀ x, FailsIff (record x) (p x)) :
    FailsIff (recordsOf (l.map fun x => ⟨consults x, record x⟩)) (∃ x ∈ l, p x) := by
  rw [recordsOf, List.mapM_map]
  exact .mapM fun x _ => h x

theorem unitRecord_failsIff (v : View) (a : Address) (name : Text) :
    FailsIff (v.unitRecord a name) (Transport.DeviceStops v.sysfs a name) :=
  (Transport.ofDevice_failsIff v.sysfs a name).bind_ok fun _ => .ok _

theorem hostRecord_failsIff (v : View) (host : Nat) (name : Text) :
    FailsIff (v.hostRecord host name) (Transport.HostStops v.sysfs name) :=
  (Transport.ofHost_failsIff v.sysfs name).bind_ok fun _ => .ok _

theorem listed_failsIff (v : View) (f : AddressFilter) (what : Subject) :
    FailsIff (v.listed f what) (v.Stops f what) := by
  cases what with
  | units =>
    rw [listed_units]
    exact recordsOf_failsIff fun u => v.unitRecord_failsIff u.1 u.2
  | namespaces =>
    rw [listed_namespaces, listNamespaces_eq]
    exact .ok _
  | hosts =>
    rw [listed_hosts]
    exact recordsOf_failsIff fun u => v.hostRecord_failsIff u.1 u.2
  | controllers =>
    have hrecords : v.listControllers f = _ :=
      recordsOf_map _ (fun c : Text × Nat => v.controllerRecord c.1 c.2) (v.controllers f)
    rw [listed_controllers, hrecords]
    exact .ok _

end View

namespace Session

/-- A listing fails exactly if it stops at one of the units or hosts, and only because of a number
that is no numeral or of a text that is no part of a path. Otherwise it gives its records. -/
theorem list_failsIff (s : Session) (t : Tree) (earlier : List (Subject × AddressFilter))
    (what : Subject) (f : AddressFilter) :
    FailsIff ((s.after t earlier).list t what f).1.records ((s.view t).Stops f what) := by
  rw [records_after]
  exact (s.view t).listed_failsIff f what

/-- Names with decimal digits only and adapters without null characters, as the kernel writes them,
stop no listing. -/
theorem list_of_plainDigits (s : Session) (t : Tree) (earlier : List (Subject × AddressFilter))
    (what : Subject) (f : AddressFilter)
    (h : ∀ directory, ∀ name ∈ (s.view t).sysfs.entries directory,
      Text.hasPlainDigits name = true)
    (hadapters : ∀ directory adapter,
      (s.view t).sysfs.read directory "local_ib_device" = some adapter → '\x00' ∉ adapter) :
    ∃ records, ((s.after t earlier).list t what f).1.records = .ok records := by
  rw [records_after, ((s.view t).listed_failsIff f what).exists_ok_iff]
  have hphy : ∀ directory, ∀ name ∈ (s.view t).sysfs.entries directory,
      Transport.Serial.isMisnumbered name = true → False := by
    intro directory name hname hphy
    have hfalse := (Bool.and_eq_true_iff.1 hphy).2
    rw [Text.isFalseNumeral_of_subset (h directory name hname) (Text.afterLast_subset ':' name)]
      at hfalse
    cases hfalse
  have hadapter : ∀ host, ¬ Transport.Rdma.HasNullAdapter (s.view t).sysfs host := by
    rintro host ⟨-, adapter, hread, hnull⟩
    exact hadapters _ adapter hread hnull
  cases what with
  | units =>
    rintro ⟨u, -, hstops⟩
    cases hstops with
    | adapter _ _ _ _ hnull => exact hadapter _ hnull
    | session _ _ _ _ _ _ _ hmisnumbered =>
      obtain ⟨name, hname, hsession, -⟩ := hmisnumbered
      have hfalse := (Bool.and_eq_true_iff.1 hsession).2
      rw [Text.isFalseNumeral_of_subset (h _ name hname) (List.drop_subset 7 name)] at hfalse
      cases hfalse
  | namespaces => exact id
  | hosts =>
    rintro ⟨u, -, hstops⟩
    cases hstops with
    | adapter _ _ _ hnull => exact hadapter _ hnull
    | phy _ _ _ _ hmisnumbered =>
      rcases hmisnumbered with ⟨port, -, -, name, hname, hphyName⟩ | ⟨name, hname, hphyName⟩
      · exact hphy _ name hname hphyName
      · exact hphy _ name hname hphyName
  | controllers => exact id

/-- A host with two phys, of which one is numbered with a superscript. -/
def superscriptPhy : Tree :=
  [("scsi_host/host0", Node.directory true), ("sas_host/host0/device/phy-0:²", .directory true),
    ("sas_host/host0/device/phy-0:1", .directory true),
    ("sas_phy/phy-0:1/sas_address", .file (Utf8.encode "0x5000"))].foldl
    (fun t (name, node) => t.put (Path.ofText ("/sys/class/" ++ name)) node) {}

/-- One name keeps all hosts from being listed, though the phy that it names is not the lowest. -/
theorem list_superscriptPhy :
    (usual.list superscriptPhy .hosts).1.records = .error .notANumeral := by
  decide +kernel

end Session
end StorageAtlas
