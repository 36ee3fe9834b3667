import StorageAtlas.Proofs.Listing.HostNumber

/-!
The order of a run. Units and namespaces come in the order of their addresses,
hosts and controllers in the order of their numbers, and each is one that the
filter selects. The two families are listed one after the other, so that what
holds of each listing holds of the run because the family is compared first.
-/

namespace StorageAtlas

/-- What a run of any kind owes to its filter and its settings: no family comes before its turn or
where it is not wanted. -/
structure FamiliesInOrder (f : AddressFilter) (noNvme : Bool) (records : List Record) : Prop where
  scsiFirst : records.Pairwise fun r q => q.address.isNvme = false → r.address.isNvme = false
  scsiWanted : f.isNvme = true → ∀ r ∈ records, r.address.isNvme = true
  nvmeWanted : ∀ r ∈ records, r.address.isNvme = true →
    noNvme = false ∧ ∀ host, f.host = some host → host = Address.nvmeHost

/-- A run of units and namespaces. -/
structure DevicesInOrder (f : AddressFilter) (noNvme : Bool) (records : List Record) : Prop
    extends FamiliesInOrder f noNvme records where
  ascending : records.Pairwise fun r q => r.address.sortKey ≤ q.address.sortKey
  selected : ∀ r ∈ records, f.selects r.address = true

/-- A run of hosts, and of controllers behind them. Their names hold the numbers that are
compared. -/
structure HostsInOrder (f : AddressFilter) (noNvme : Bool) (hosts controllers : List Record) : Prop
    extends FamiliesInOrder f noNvme (hosts ++ controllers) where
  hostsAscending : hosts.Pairwise fun r q => r.address.host ≤ q.address.host
  hostsSelected : ∀ r ∈ hosts, r.address.isNvme = false ∧
    f.allows (some r.address.host) = true ∧
    (Selection.hostNumber? r.name).map Int.ofNat = some r.address.host
  controllersAscending : controllers.Pairwise fun r q => r.address.channel ≤ q.address.channel
  controllersSelected : ∀ r ∈ controllers, r.address.isNvme = true ∧
    f.allows (some r.address.host) (some r.address.channel) = true ∧
    (NvmeName.controller? r.name).map Int.ofNat = some r.address.channel

theorem AddressFilter.host_eq_of_allows {f : AddressFilter} {host wanted : Int}
    {channel target lun : Option Int} (h : f.allows (some host) channel target lun = true)
    (hf : f.host = some wanted) : wanted = host := by
  simp only [allows, hf, agrees, Bool.and_eq_true, decide_eq_true_eq] at h
  exact h.1.1.1

namespace View

/-! ## Units and namespaces -/

theorem listUnits_inOrder {v : View} {f : AddressFilter} {records : List Record}
    (h : v.listUnits f = .ok records) :
    (records.Pairwise fun r q => r.address.sortKey ≤ q.address.sortKey) ∧
      ∀ r ∈ records, f.selects r.address = true := by
  have hkeys := map_key_of_listUnits h
  constructor
  · have hunits := pairwise_units v f
    rw [← hkeys, List.pairwise_map] at hunits
    exact hunits.imp fun h => (Address.le_iff _ _).1 h
  · intro r hr
    have hmem : r.key ∈ v.units f := hkeys ▸ List.mem_map_of_mem hr
    rw [units_eq_filter] at hmem
    exact (List.mem_filter.1 hmem).2

theorem listNamespaces_inOrder {v : View} {f : AddressFilter} {records : List Record}
    (h : v.listNamespaces f = .ok records) :
    (records.Pairwise fun r q => r.address.sortKey ≤ q.address.sortKey) ∧
      ∀ r ∈ records, f.selects r.address = true := by
  rw [listNamespaces_eq] at h
  obtain rfl := Except.ok.inj h
  constructor
  · have hsorted := pairwise_sortBy (total_by Address.le_total Record.address)
      (trans_by Address.le_trans Record.address) ((v.controllers f).flatMap (v.namespaceRecords f))
    exact hsorted.imp fun h => (Address.le_iff _ _).1 h
  · intro r hr
    obtain ⟨c, -, hr⟩ := List.mem_flatMap.1 (mem_sortBy.1 hr)
    unfold namespaceRecords at hr
    split at hr
    · obtain ⟨u, hu, rfl⟩ := List.mem_map.1 hr
      rw [namespacesOf_eq_filter] at hu
      exact (List.mem_filter.1 hu).2
    · cases hr

/-! ## Hosts and controllers -/

theorem hostNumber?_of_mem_hosts {v : View} {f : AddressFilter} {u : Nat × Text}
    (h : u ∈ v.hosts f) : Selection.hostNumber? u.2 = some u.1 := by
  obtain ⟨name, -, hu⟩ := List.mem_filterMap.1 (mem_sortBy.1 h)
  split at hu
  · rename_i host hhost
    simp only [Option.ite_none_right_eq_some, Option.some.injEq] at hu
    obtain ⟨-, rfl⟩ := hu
    exact hhost
  · cases hu

theorem pairwise_hosts (v : View) (f : AddressFilter) :
    (v.hosts f).Pairwise fun u w => u.1 ≤ w.1 := by
  refine (pairwise_sortBy hostLe_total hostLe_trans _).imp fun {u w} h => ?_
  simp only [hostLe, Bool.or_eq_true, Bool.and_eq_true, decide_eq_true_eq] at h
  omega

theorem pairwise_controllers (v : View) (f : AddressFilter) :
    (v.controllers f).Pairwise fun c d => c.2 ≤ d.2 :=
  (pairwise_sortBy minor_le_total minor_le_trans _).imp fun h => of_decide_eq_true h

theorem listHosts_inOrder {v : View} {f : AddressFilter} {records : List Record}
    (h : v.listHosts f = .ok records) :
    (records.Pairwise fun r q => r.address.host ≤ q.address.host) ∧
      ∀ r ∈ records, f.allows (some r.address.host) = true ∧
        (Selection.hostNumber? r.name).map Int.ofNat = some r.address.host := by
  have hkeys := map_key_of_recordsOf h fun u r hr => key_of_hostRecord hr
  constructor
  · have hhosts : ((v.hosts f).map fun u => (Address.ofLun u.1 0 0 0, u.2)).Pairwise
        fun u w => u.1.host ≤ w.1.host := by
      rw [List.pairwise_map]
      exact (pairwise_hosts v f).imp fun h => Int.ofNat_le.2 h
    rw [← hkeys, List.pairwise_map] at hhosts
    exact hhosts
  · intro r hr
    obtain ⟨u, hu, hkey⟩ := List.mem_map.1 (hkeys ▸ List.mem_map_of_mem hr)
    have haddress : r.address = Address.ofLun u.1 0 0 0 := (congrArg Prod.fst hkey).symm
    have hname : r.name = u.2 := (congrArg Prod.snd hkey).symm
    have hnumber := hostNumber?_of_mem_hosts hu
    rw [hosts_eq_filter] at hu
    rw [haddress, hname, hnumber]
    exact ⟨(List.mem_filter.1 hu).2, rfl⟩

theorem listControllers_inOrder {v : View} {f : AddressFilter} {records : List Record}
    (h : v.listControllers f = .ok records) :
    (records.Pairwise fun r q => r.address.channel ≤ q.address.channel) ∧
      ∀ r ∈ records, f.allows (some r.address.host) (some r.address.channel) = true ∧
        (NvmeName.controller? r.name).map Int.ofNat = some r.address.channel := by
  rw [listControllers, controllerAttempts, recordsOf_map] at h
  obtain rfl := Except.ok.inj h
  constructor
  · rw [List.pairwise_map]
    exact (pairwise_controllers v f).imp fun h => Int.ofNat_le.2 h
  · intro r hr
    obtain ⟨c, hc, rfl⟩ := List.mem_map.1 hr
    have hnumber : NvmeName.controller? (v.controllerRecord c.1 c.2).name = some c.2 :=
      mem_controllers hc
    rw [controllers_eq_filter] at hc
    rw [hnumber]
    exact ⟨(List.mem_filter.1 hc).2, rfl⟩

/-! ## Runs -/

theorem listedAll_singleton (v : View) (f : AddressFilter) (what : Subject) :
    v.listedAll f [what] = v.listed f what := by
  unfold listedAll
  cases h : v.listed f what with
  | error e => simp [h, bind, Except.bind, Except.map]
  | ok records => simp [h, bind, Except.bind, pure, Except.pure, Except.map]

/-- A part of a run: one listing, or nothing where it is not wanted. -/
inductive Part (v : View) (f : AddressFilter) (what : Subject) (wanted : Prop) :
    List Record → Prop where
  | leftOut : Part v f what wanted []
  | listed {records : List Record} (hwanted : wanted) (h : v.listed f what = .ok records) :
      Part v f what wanted records

variable {v : View} {f : AddressFilter}

theorem exists_parts_of_listedAll {inv : Invocation} {settings : Settings} {all : List Record}
    (h : v.listedAll f (inv.subjects settings f) = .ok all) :
    ∃ scsi nvme, all = scsi ++ nvme ∧
      v.Part f (if inv.wantsHosts then .hosts else .units) (f.isNvme = false) scsi ∧
      v.Part f (if inv.wantsHosts then .controllers else .namespaces)
        (settings.noNvme = false) nvme := by
  have hnvme : ∀ more, v.listedAll f (if settings.noNvme then [] else
      [if inv.wantsHosts then .controllers else .namespaces]) = .ok more →
      v.Part f (if inv.wantsHosts then .controllers else .namespaces)
        (settings.noNvme = false) more := by
    intro more hmore
    cases hno : settings.noNvme with
    | true =>
      rw [hno] at hmore
      obtain rfl := Except.ok.inj hmore
      exact .leftOut
    | false =>
      rw [hno, if_neg (by decide), listedAll_singleton] at hmore
      exact .listed rfl hmore
  unfold Invocation.subjects at h
  cases hgate : f.isNvme || inv.controllers with
  | true =>
    simp only [hgate, if_true, List.nil_append] at h
    exact ⟨[], all, rfl, .leftOut, hnvme all h⟩
  | false =>
    simp only [hgate, Bool.false_eq_true, if_false, List.singleton_append] at h
    obtain ⟨scsi, nvme, hscsi, hmore, rfl⟩ := listedAll_cons_eq_ok_iff.1 h
    exact ⟨scsi, nvme, rfl, .listed (Bool.or_eq_false_iff.1 hgate).1 hscsi, hnvme nvme hmore⟩

theorem Part.family {what : Subject} {wanted : Prop} {records : List Record}
    (h : v.Part f what wanted records) {r : Record} (hr : r ∈ records) :
    wanted ∧ r.address.isNvme = what.isNvme ∧
      (what.isNvme = true → r.address.host = Address.nvmeHost) := by
  cases h with
  | leftOut => cases hr
  | listed hwanted h => exact ⟨hwanted, family_of_listed h hr⟩

/-- What holds of a listing holds of a part, since it holds of no records. -/
theorem Part.inOrder {what : Subject} {wanted : Prop} {records : List Record}
    {R : Record → Record → Prop} {P : Record → Prop} (h : v.Part f what wanted records)
    (hlisted : v.listed f what = .ok records → records.Pairwise R ∧ ∀ r ∈ records, P r) :
    records.Pairwise R ∧ ∀ r ∈ records, P r := by
  cases h with
  | leftOut => exact ⟨.nil, fun r hr => by cases hr⟩
  | listed hwanted h => exact hlisted h

section Parts

variable {what what' : Subject} {noNvme : Bool} {scsi nvme : List Record}

theorem familiesInOrder_of_parts (hwhat : what.isNvme = false) (hwhat' : what'.isNvme = true)
    (hscsi : v.Part f what (f.isNvme = false) scsi) (hnvme : v.Part f what' (noNvme = false) nvme)
    (hhost : ∀ r ∈ nvme, ∀ host, f.host = some host → host = r.address.host) :
    FamiliesInOrder f noNvme (scsi ++ nvme) := by
  have hfirst : ∀ r ∈ scsi, f.isNvme = false ∧ r.address.isNvme = false := by
    intro r hr
    obtain ⟨hgate, hfamily, -⟩ := hscsi.family hr
    exact ⟨hgate, hfamily.trans hwhat⟩
  have hsecond : ∀ r ∈ nvme, r.address.isNvme = true := fun r hr =>
    (hnvme.family hr).2.1.trans hwhat'
  constructor
  · rw [List.pairwise_append]
    refine ⟨?_, ?_, fun r hr q _ _ => (hfirst r hr).2⟩
    · exact List.pairwise_of_forall_mem_list fun r hr q _ _ => (hfirst r hr).2
    · refine List.pairwise_of_forall_mem_list fun r _ q hq hqscsi => ?_
      rw [hsecond q hq] at hqscsi
      cases hqscsi
  · intro hf r hr
    rcases List.mem_append.1 hr with hr | hr
    · rw [(hfirst r hr).1] at hf
      cases hf
    · exact hsecond r hr
  · intro r hr hfamily
    rcases List.mem_append.1 hr with hr | hr
    · rw [(hfirst r hr).2] at hfamily
      cases hfamily
    · obtain ⟨hgate, -, hnumber⟩ := hnvme.family hr
      refine ⟨hgate, fun host hf => ?_⟩
      rw [hhost r hr host hf, hnumber hwhat']

theorem devicesInOrder_of_parts (hscsi : v.Part f .units (f.isNvme = false) scsi)
    (hnvme : v.Part f .namespaces (noNvme = false) nvme) :
    DevicesInOrder f noNvme (scsi ++ nvme) := by
  obtain ⟨hscsiOrder, hscsiSelected⟩ := hscsi.inOrder fun h =>
    listUnits_inOrder ((listed_units v f).symm.trans h)
  obtain ⟨hnvmeOrder, hnvmeSelected⟩ := hnvme.inOrder fun h =>
    listNamespaces_inOrder ((listed_namespaces v f).symm.trans h)
  constructor
  · exact familiesInOrder_of_parts rfl rfl hscsi hnvme fun r hr host hf =>
      AddressFilter.host_eq_of_allows (hnvmeSelected r hr) hf
  · rw [List.pairwise_append]
    -- across the two parts the families decide, whatever the numbers are
    refine ⟨hscsiOrder, hnvmeOrder, fun r hr q hq => (Address.le_iff _ _).1 ?_⟩
    exact Address.le_of_scsi_of_nvme (hscsi.family hr).2.1 (hnvme.family hq).2.1
  · intro r hr
    rcases List.mem_append.1 hr with hr | hr
    · exact hscsiSelected r hr
    · exact hnvmeSelected r hr

theorem hostsInOrder_of_parts (hscsi : v.Part f .hosts (f.isNvme = false) scsi)
    (hnvme : v.Part f .controllers (noNvme = false) nvme) :
    HostsInOrder f noNvme scsi nvme := by
  obtain ⟨hscsiOrder, hscsiSelected⟩ := hscsi.inOrder fun h =>
    listHosts_inOrder ((listed_hosts v f).symm.trans h)
  obtain ⟨hnvmeOrder, hnvmeSelected⟩ := hnvme.inOrder fun h =>
    listControllers_inOrder ((listed_controllers v f).symm.trans h)
  constructor
  · exact familiesInOrder_of_parts rfl rfl hscsi hnvme fun r hr host hf =>
      AddressFilter.host_eq_of_allows (hnvmeSelected r hr).1 hf
  · exact hscsiOrder
  · exact fun r hr => ⟨(hscsi.family hr).2.1, hscsiSelected r hr⟩
  · exact hnvmeOrder
  · exact fun r hr => ⟨(hnvme.family hr).2.1, hnvmeSelected r hr⟩

end Parts

end View

namespace Session

/-- In any run on one tree that succeeds, whatever the session listed before: units and namespaces
come in the order of their addresses, or hosts in the order of their numbers and then controllers
in the order of theirs, and all that is listed is what the filter and the settings ask for. -/
theorem run_inOrder (inv : Invocation) (settings : Settings) (s : Session) (t : Tree)
    (earlier : List (Subject × AddressFilter)) (f : AddressFilter) {all : List Record}
    (h : ((s.after t earlier).listAll t f (inv.subjects settings f)).1 = .ok all) :
    (inv.wantsHosts = false → DevicesInOrder f settings.noNvme all) ∧
    (inv.wantsHosts = true → ∃ hosts controllers, all = hosts ++ controllers ∧
      HostsInOrder f settings.noNvme hosts controllers) := by
  rw [listAll_after_fst] at h
  obtain ⟨scsi, nvme, rfl, hscsi, hnvme⟩ := View.exists_parts_of_listedAll h
  constructor
  · intro hwants
    rw [hwants] at hscsi hnvme
    exact View.devicesInOrder_of_parts hscsi hnvme
  · intro hwants
    rw [hwants] at hscsi hnvme
    exact ⟨scsi, nvme, rfl, View.hostsInOrder_of_parts hscsi hnvme⟩

/-- Two units and two controllers, of which the later ones come first, and namespaces that are named
after the other controller. -/
def unsorted : Tree :=
  ["bus/scsi/devices/10:0:0:0", "bus/scsi/devices/9:0:0:0", "class/scsi_host/host10",
    "class/scsi_host/host9", "class/nvme/nvme1/nvme0n1", "class/nvme/nvme0/nvme1n1"].foldl
      (fun t name => t.put (Path.ofText ("/sys/" ++ name)) (.directory true)) {}

theorem run_of_unsorted :
    (∃ all, ((usual.after unsorted []).listAll unsorted {} (Invocation.subjects {} {} {})).1 =
        .ok all ∧
      all.map Record.name = (["9:0:0:0", "10:0:0:0", "nvme0n1", "nvme1n1"] : List Text) ∧
      DevicesInOrder {} false all) ∧
    ∃ hosts controllers, ((usual.after unsorted [(.units, {})]).listAll unsorted {}
        (Invocation.subjects { hosts := true } {} {})).1 = .ok (hosts ++ controllers) ∧
      (hosts ++ controllers).map Record.name =
        (["host9", "host10", "nvme0", "nvme1"] : List Text) ∧
      HostsInOrder {} false hosts controllers := by
  constructor
  · have hnames : ((usual.after unsorted []).listAll unsorted {}
        (Invocation.subjects {} {} {})).1.map (List.map Record.name) =
          .ok (["9:0:0:0", "10:0:0:0", "nvme0n1", "nvme1n1"] : List Text) := by decide +kernel
    obtain ⟨all, hall, hnames⟩ := exists_of_map_eq_ok hnames
    exact ⟨all, hall, hnames, (run_inOrder {} {} usual unsorted [] {} hall).1 rfl⟩
  · have hnames : ((usual.after unsorted [(.units, {})]).listAll unsorted {}
        (Invocation.subjects { hosts := true } {} {})).1.map (List.map Record.name) =
          .ok (["host9", "host10", "nvme0", "nvme1"] : List Text) := by decide +kernel
    obtain ⟨all, hall, hnames⟩ := exists_of_map_eq_ok hnames
    obtain ⟨hosts, controllers, rfl, horder⟩ :=
      (run_inOrder { hosts := true } {} usual unsorted [(.units, {})] {} hall).2 rfl
    exact ⟨hosts, controllers, hall, hnames, horder⟩

end Session
end StorageAtlas
