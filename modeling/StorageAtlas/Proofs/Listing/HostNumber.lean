import StorageAtlas.Proofs.Address.HostNumber
import StorageAtlas.Proofs.Listing.Namespaces
import StorageAtlas.Proofs.Listing.Runs
import StorageAtlas.Proofs.Listing.Units
import StorageAtlas.Proofs.Text.Order

/-!
A filter for one host leaves of a run the units or the hosts with this number and
nothing else. One number is set apart: it stands for all namespaces and
controllers, and a SCSI host that has it cannot be selected by it.
-/

namespace StorageAtlas

open AddressFilter (hostOnly)
open Text (isAsciiDigits ofDecimal)

/-- Does an address belong to a host as filters number them? -/
def Address.isOnHost (a : Address) (host : Int) : Bool :=
  if host = nvmeHost then a.isNvme else !a.isNvme && a.host = host

theorem AddressFilter.selects_hostOnly (host : Int) (a : Address) :
    (hostOnly host).selects a = decide (a.host = host) := by
  have hagrees : (hostOnly host).selects a = decide (host = a.host) := by
    simp [selects, allows, hostOnly, agrees]
  rw [hagrees, decide_eq_decide]
  exact eq_comm

/-- Are the records of a kind namespaces and controllers? -/
def Subject.isNvme : Subject → Bool
  | .units | .hosts => false
  | .namespaces | .controllers => true

namespace View

/-! ## Hosts and controllers under a filter -/

/-- A filter may be applied before the records are made, if it does not need them. -/
theorem recordsOf_filter {α : Type} {consults : α → Bool} {record : α → Except ValueFault Record}
    {l : List α} {all : List Record}
    (h : recordsOf (l.map fun x => ⟨consults x, record x⟩) = .ok all) {p : α → Bool}
    {q : Record → Bool} (hpq : ∀ x r, record x = .ok r → p x = q r) :
    recordsOf ((l.filter p).map fun x => ⟨consults x, record x⟩) = .ok (all.filter q) := by
  rw [recordsOf, mapM_eq_ok_iff, List.forall₂_map_left_iff] at h ⊢
  refine List.rel_filter (fun x r hr => ?_) h
  show p x = true ↔ q r = true
  rw [hpq x r hr]

theorem hostLe_total (a b : Nat × Text) : hostLe a b = true ∨ hostLe b a = true := by
  simp only [hostLe, Bool.or_eq_true, Bool.and_eq_true, decide_eq_true_eq]
  rcases Nat.lt_trichotomy a.1 b.1 with h | h | h
  · exact .inl (.inl h)
  · rcases Text.le_total a.2 b.2 with hname | hname
    · exact .inl (.inr ⟨h, hname⟩)
    · exact .inr (.inr ⟨h.symm, hname⟩)
  · exact .inr (.inl h)

theorem hostLe_trans (a b c : Nat × Text) (hab : hostLe a b = true) (hbc : hostLe b c = true) :
    hostLe a c = true := by
  simp only [hostLe, Bool.or_eq_true, Bool.and_eq_true, decide_eq_true_eq] at hab hbc ⊢
  rcases hab with hab | ⟨hab, hnames⟩
  · rcases hbc with hbc | ⟨hbc, -⟩
    · exact .inl (Nat.lt_trans hab hbc)
    · exact .inl (hbc ▸ hab)
  · rcases hbc with hbc | ⟨hbc, hnames'⟩
    · exact .inl (hab ▸ hbc)
    · exact .inr ⟨hab.trans hbc, Text.le_trans a.2 b.2 c.2 hnames hnames'⟩

theorem hosts_eq_filter (v : View) (f : AddressFilter) :
    v.hosts f = (v.hosts {}).filter fun u => f.allows (some (u.1 : Int)) := by
  unfold hosts
  rw [filter_sortBy hostLe_total hostLe_trans, List.filter_filterMap]
  refine congrArg (sortBy hostLe) (List.filterMap_congr fun name _ => ?_)
  cases Selection.hostNumber? name with
  | none => rfl
  | some host =>
    show (if f.allows (some (host : Int)) then some (host, name) else none) =
      (some (host, name)).filter fun u => f.allows (some (u.1 : Int))
    rw [Option.filter_some]

theorem key_of_hostRecord {v : View} {host : Nat} {name : Text} {r : Record}
    (h : v.hostRecord host name = .ok r) : r.key = (Address.ofLun host 0 0 0, name) := by
  simp only [hostRecord, bind, Except.bind] at h
  split at h
  · cases h
  · cases h
    rfl

theorem address_of_hostRecord {v : View} {host : Nat} {name : Text} {r : Record}
    (h : v.hostRecord host name = .ok r) : r.address = Address.ofLun host 0 0 0 :=
  congrArg Prod.fst (key_of_hostRecord h)

theorem listHosts_hostOnly {v : View} {all : List Record} (h : v.listHosts {} = .ok all)
    (host : Int) :
    v.listHosts (hostOnly host) = .ok (all.filter fun r => r.address.host = host) := by
  rw [listHosts, hostAttempts, hosts_eq_filter]
  refine recordsOf_filter h fun u r hr => ?_
  rw [address_of_hostRecord hr, ← AddressFilter.selects_hostOnly]
  rfl

theorem listControllers_hostOnly {v : View} {all : List Record} (h : v.listControllers {} = .ok all)
    (host : Int) :
    v.listControllers (hostOnly host) = .ok (all.filter fun r => r.address.host = host) := by
  rw [listControllers, controllerAttempts, controllers_eq_filter]
  refine recordsOf_filter h fun c r hr => ?_
  obtain rfl := Except.ok.inj hr
  rw [← AddressFilter.selects_hostOnly]
  rfl

/-! ## Any listing under a filter for one host -/

theorem listed_hostOnly {v : View} {what : Subject} {all : List Record}
    (h : v.listed {} what = .ok all) (host : Int) :
    v.listed (hostOnly host) what = .ok (all.filter fun r => r.address.host = host) := by
  cases what with
  | units =>
    rw [listed_units] at h ⊢
    rw [listUnits_eq_filter h]
    simp only [AddressFilter.selects_hostOnly]
  | namespaces =>
    have hselects : (hostOnly host).selectsBelow = fun r => decide (r.address.host = host) := by
      funext r
      rw [AddressFilter.selectsBelow, AddressFilter.selects_hostOnly]
      exact Bool.and_true _
    rw [listed_namespaces] at h ⊢
    rw [listNamespaces_eq_filter, h, hselects]
    rfl
  | hosts =>
    rw [listed_hosts] at h ⊢
    exact listHosts_hostOnly h host
  | controllers =>
    rw [listed_controllers] at h ⊢
    exact listControllers_hostOnly h host

/-- Every namespace and controller, and no unit or host, is of the family that has one number. -/
theorem family_of_attempt {v : View} {f : AddressFilter} {what : Subject} {attempt : Attempt}
    (hmem : attempt ∈ Session.attempts v f what) {r : Record} (hr : attempt.record = .ok r) :
    r.address.isNvme = what.isNvme ∧ (what.isNvme = true → r.address.host = Address.nvmeHost) := by
  cases what with
  | units =>
    obtain ⟨u, hu, rfl⟩ := List.mem_map.1 hmem
    rw [units_eq_filter] at hu
    have hfamily := (parse_of_mem_units (List.mem_filter.1 hu).1).2
    have hkey : r.address = u.1 := congrArg Prod.fst (key_of_unitRecord hr)
    refine ⟨?_, fun h => by cases h⟩
    rw [hkey, Address.isNvme, hfamily]
    rfl
  | namespaces =>
    obtain ⟨c, -, hmem⟩ := List.mem_flatMap.1 hmem
    simp only [namespaceAttempts] at hmem
    split at hmem
    · obtain ⟨u, hu, rfl⟩ := List.mem_map.1 hmem
      obtain ⟨minor, id, -, haddress⟩ := unit?_of_mem_namespacesOf hu
      obtain rfl := Except.ok.inj hr
      show u.1.isNvme = true ∧ (true = true → u.1.host = Address.nvmeHost)
      rw [haddress]
      exact ⟨rfl, fun _ => rfl⟩
    · cases hmem
  | hosts =>
    obtain ⟨u, -, rfl⟩ := List.mem_map.1 hmem
    refine ⟨?_, fun h => by cases h⟩
    rw [address_of_hostRecord hr]
    rfl
  | controllers =>
    obtain ⟨c, -, rfl⟩ := List.mem_map.1 hmem
    obtain rfl := Except.ok.inj hr
    exact ⟨rfl, fun _ => rfl⟩

theorem family_of_listed {v : View} {f : AddressFilter} {what : Subject} {records : List Record}
    (h : v.listed f what = .ok records) {r : Record} (hr : r ∈ records) :
    r.address.isNvme = what.isNvme ∧ (what.isNvme = true → r.address.host = Address.nvmeHost) := by
  obtain ⟨attempt, hmem, hattempt⟩ := exists_attempt_of_listed h hr
  exact family_of_attempt hmem hattempt

/-- Is a kind of record listed at all under a filter for a host? -/
def keeps (host : Int) (what : Subject) : Bool := host ≠ Address.nvmeHost || what.isNvme

theorem filter_isOnHost {v : View} {f : AddressFilter} {what : Subject} {all : List Record}
    (h : v.listed f what = .ok all) (host : Int) :
    (all.filter fun r => r.address.isOnHost host) =
      if keeps host what then all.filter fun r => r.address.host = host else [] := by
  have hfamily := fun r (hr : r ∈ all) => family_of_listed h hr
  by_cases hhost : host = Address.nvmeHost
  · subst hhost
    cases hwhat : what.isNvme with
    | true =>
      rw [if_pos (by rw [keeps, hwhat, Bool.or_true])]
      refine List.filter_congr fun r hr => ?_
      rw [Address.isOnHost, if_pos rfl, (hfamily r hr).1, hwhat, (hfamily r hr).2 hwhat]
      rfl
    | false =>
      rw [if_neg (by rw [keeps, hwhat]; decide), List.filter_eq_nil_iff]
      intro r hr
      rw [Address.isOnHost, if_pos rfl, (hfamily r hr).1, hwhat]
      decide
  · rw [if_pos (by simp [keeps, hhost])]
    refine List.filter_congr fun r hr => ?_
    rw [Address.isOnHost, if_neg hhost, (hfamily r hr).1]
    cases hwhat : what.isNvme with
    | true =>
      rw [(hfamily r hr).2 hwhat]
      exact (decide_eq_false (Ne.symm hhost)).symm
    | false => rfl

theorem listedAll_hostOnly {v : View} {whats : List Subject} {all : List Record}
    (h : v.listedAll {} whats = .ok all) (host : Int) :
    v.listedAll (hostOnly host) (whats.filter (keeps host)) =
      .ok (all.filter fun r => r.address.isOnHost host) := by
  induction whats generalizing all with
  | nil =>
    obtain rfl := Except.ok.inj h
    rfl
  | cons what rest ih =>
    obtain ⟨first, more, hfirst, hmore, rfl⟩ := listedAll_cons_eq_ok_iff.1 h
    have hrest := ih hmore
    have hwhat := filter_isOnHost hfirst host
    rw [List.filter_append, hwhat]
    cases hkeeps : keeps host what with
    | false =>
      rw [List.filter_cons_of_neg (by rw [hkeeps]; decide), hrest]
      rfl
    | true =>
      rw [List.filter_cons_of_pos hkeeps, listedAll_cons_eq_ok_iff]
      exact ⟨_, _, listed_hostOnly hfirst host, hrest, rfl⟩

end View

/-! ## Runs -/

theorem Invocation.subjects_hostOnly (inv : Invocation) (settings : Settings) (host : Int) :
    inv.subjects settings (hostOnly host) =
      (inv.subjects settings {}).filter (View.keeps host) := by
  have hopen : AddressFilter.isNvme {} = false := rfl
  have hfilter : (hostOnly host).isNvme = decide (host = Address.nvmeHost) := by
    simp [AddressFilter.isNvme, hostOnly]
  have hnvme : View.keeps host (if inv.wantsHosts then .controllers else .namespaces) = true := by
    cases inv.wantsHosts <;> exact Bool.or_true _
  have hscsi : View.keeps host (if inv.wantsHosts then .hosts else .units) =
      !(decide (host = Address.nvmeHost)) := by
    cases inv.wantsHosts <;> simp [View.keeps, Subject.isNvme]
  simp only [subjects, hopen, hfilter, List.filter_append]
  congr 1
  · cases inv.controllers with
    | true => simp
    | false =>
      cases hreserved : decide (host = Address.nvmeHost) with
      | true => simp [hscsi, hreserved]
      | false => simp [hscsi, hreserved]
  · cases settings.noNvme with
    | true => rfl
    | false => simp [hnvme]

namespace Session

/-- In any two runs on one tree and with one session, of which the first has no filter and succeeds:
a number, alone or behind the word host, is a filter, and the second run shows under it exactly
what the first shows of this host. -/
theorem host_listed_and_selected (inv : Invocation) (settings : Settings) (s : Session) (t : Tree)
    (earlier later : List (Subject × AddressFilter)) {word digits : Text}
    (hword : word = [] ∨ Text.lower word = "host") (hdigits : isAsciiDigits digits = true)
    {all : List Record}
    (h : ((s.after t earlier).listAll t {} (inv.subjects settings {})).1 = .ok all) :
    ∃ f, AddressFilter.parse [word ++ digits] = .ok f ∧
      ((s.after t later).listAll t f (inv.subjects settings f)).1 =
        .ok (all.filter fun r => r.address.isOnHost (ofDecimal digits)) := by
  refine ⟨_, AddressFilter.parse_of_isAsciiDigits hword hdigits, ?_⟩
  rw [listAll_after_fst] at h ⊢
  rw [Invocation.subjects_hostOnly]
  exact View.listedAll_hostOnly h _

/-- Two hosts, of which one has the number that stands for namespaces, and a namespace. -/
def reservedHost : Tree :=
  ["bus/scsi/devices/3:0:0:0", "bus/scsi/devices/32767:0:0:0", "class/nvme/nvme0/nvme0n1"].foldl
    (fun t name => t.put (Path.ofText ("/sys/" ++ name)) (.directory true)) {}

theorem host_of_reservedHost :
    ∃ f all, AddressFilter.parse ["Host" ++ "3"] = .ok f ∧
      ((usual.after reservedHost []).listAll reservedHost {}
        (Invocation.subjects {} {} {})).1 = .ok all ∧
      ((usual.after reservedHost [(.units, {})]).listAll reservedHost f
        (Invocation.subjects {} {} f)).1 =
          .ok (all.filter fun r => r.address.isOnHost (ofDecimal "3")) ∧
      (all.filter fun r => r.address.isOnHost (ofDecimal "3")).map Record.name =
        (["3:0:0:0"] : List Text) := by
  have hnames : ((usual.after reservedHost []).listAll reservedHost {}
      (Invocation.subjects {} {} {})).1.map (fun all =>
        (all.filter fun r => r.address.isOnHost (ofDecimal "3")).map Record.name) =
          .ok (["3:0:0:0"] : List Text) := by decide +kernel
  cases hall : ((usual.after reservedHost []).listAll reservedHost {}
      (Invocation.subjects {} {} {})).1 with
  | error e =>
    rw [hall] at hnames
    cases hnames
  | ok all =>
    rw [hall] at hnames
    have hword : Text.lower "Host" = "host" := by decide
    have hdigits : isAsciiDigits "3" = true := by decide
    obtain ⟨f, hf, hselected⟩ := host_listed_and_selected {} {} usual reservedHost []
      [(.units, {})] (.inr hword) hdigits hall
    exact ⟨f, all, hf, rfl, hselected, Except.ok.inj hnames⟩

/-- The host with the reserved number is listed, and the filter with this number does not find it:
it finds the namespace. -/
theorem reservedHost_not_selected :
    ∃ f all selected, AddressFilter.parse ["32767"] = .ok f ∧
      (usual.listAll reservedHost {} (Invocation.subjects {} {} {})).1 = .ok all ∧
      (usual.listAll reservedHost f (Invocation.subjects {} {} f)).1 = .ok selected ∧
      (all.filter fun r => !r.address.isNvme && r.address.host = 32767).map Record.name =
        (["32767:0:0:0"] : List Text) ∧
      selected.map Record.name = (["nvme0n1"] : List Text) := by
  have hall : (usual.listAll reservedHost {} (Invocation.subjects {} {} {})).1.map (fun all =>
      (all.filter fun r => !r.address.isNvme && r.address.host = 32767).map Record.name) =
        .ok (["32767:0:0:0"] : List Text) := by decide +kernel
  have hselected : (usual.listAll reservedHost (hostOnly 32767)
      (Invocation.subjects {} {} (hostOnly 32767))).1.map (List.map Record.name) =
        .ok (["nvme0n1"] : List Text) := by decide +kernel
  cases hrun : (usual.listAll reservedHost {} (Invocation.subjects {} {} {})).1 with
  | error e =>
    rw [hrun] at hall
    cases hall
  | ok all =>
    cases hfiltered : (usual.listAll reservedHost (hostOnly 32767)
        (Invocation.subjects {} {} (hostOnly 32767))).1 with
    | error e =>
      rw [hfiltered] at hselected
      cases hselected
    | ok selected =>
      rw [hrun] at hall
      rw [hfiltered] at hselected
      exact ⟨hostOnly 32767, all, selected, rfl, rfl, hfiltered, Except.ok.inj hall,
        Except.ok.inj hselected⟩

end Session
end StorageAtlas
