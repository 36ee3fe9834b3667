import StorageAtlas.Proofs.Address.UnitBytes
import StorageAtlas.Proofs.Listing.HostNumber

/-!
The addresses in a listing hold their units as bytes in the same way as those that
are read: only the name of a namespace brings in an id that the bytes have no
room for.
-/

namespace StorageAtlas

/-- Does the id in the name of a namespace have room in four bytes? -/
def NvmeName.hasRoom (name : Text) : Bool := (unit? name).all fun (_, id) => id < 2 ^ 32

namespace View

/-- Units, hosts and controllers bring in no id of a namespace. -/
theorem consistent_of_attempt {v : View} {f : AddressFilter} {what : Subject} {attempt : Attempt}
    (hmem : attempt ∈ Session.attempts v f what) {r : Record} (hr : attempt.record = .ok r)
    (hwhat : what ≠ .namespaces) : r.address.Consistent := by
  cases what with
  | units =>
    obtain ⟨u, hu, rfl⟩ := List.mem_map.1 hmem
    rw [units_eq_filter] at hu
    obtain ⟨hparse, hfamily⟩ := parse_of_mem_units (List.mem_filter.1 hu).1
    have haddress : r.address = u.1 := congrArg Prod.fst (key_of_unitRecord hr)
    rw [haddress]
    refine ⟨Address.wellFormed_of_parse hparse, fun h => ?_⟩
    rw [hfamily] at h
    cases h
  | namespaces => exact absurd rfl hwhat
  | hosts =>
    obtain ⟨u, -, rfl⟩ := List.mem_map.1 hmem
    rw [address_of_hostRecord hr]
    exact Address.consistent_ofLun u.1 0 0 (Nat.zero_le Lun.last)
  | controllers =>
    obtain ⟨c, -, rfl⟩ := List.mem_map.1 hmem
    obtain rfl := Except.ok.inj hr
    exact (Address.consistent_nvme_iff c.2 _ 0).2 (by decide)

theorem consistent_iff_of_namespaceAttempt {v : View} {f : AddressFilter} {attempt : Attempt}
    (hmem : attempt ∈ v.allNamespaceAttempts f) {r : Record} (hr : attempt.record = .ok r) :
    r.address.WellFormed ∧ (r.address.Consistent ↔ NvmeName.hasRoom r.name = true) := by
  obtain ⟨c, -, hmem⟩ := List.mem_flatMap.1 hmem
  simp only [namespaceAttempts] at hmem
  split at hmem
  · obtain ⟨u, hu, rfl⟩ := List.mem_map.1 hmem
    obtain ⟨minor, id, hunit, haddress⟩ := unit?_of_mem_namespacesOf hu
    obtain rfl := Except.ok.inj hr
    have hroom : NvmeName.hasRoom u.2 = decide (id < 2 ^ 32) := by
      rw [NvmeName.hasRoom, hunit]
      rfl
    show u.1.WellFormed ∧ (u.1.Consistent ↔ NvmeName.hasRoom u.2 = true)
    rw [haddress, Address.consistent_nvme_iff, hroom, decide_eq_true_iff]
    exact ⟨Address.wellFormed_nvme _ _ _, Iff.rfl⟩
  · cases hmem

theorem consistent_iff_of_listed {v : View} {f : AddressFilter} {what : Subject}
    {records : List Record} (h : v.listed f what = .ok records) {r : Record} (hr : r ∈ records) :
    r.address.WellFormed ∧
      (r.address.Consistent ↔ (what = .namespaces → NvmeName.hasRoom r.name = true)) := by
  obtain ⟨attempt, hmem, hattempt⟩ := exists_attempt_of_listed h hr
  by_cases hwhat : what = .namespaces
  · subst hwhat
    obtain ⟨hwell, hiff⟩ := consistent_iff_of_namespaceAttempt hmem hattempt
    exact ⟨hwell, hiff.trans ⟨fun h _ => h, fun h => h rfl⟩⟩
  · have hc := consistent_of_attempt hmem hattempt hwhat
    exact ⟨hc.toWellFormed, fun _ h => absurd h hwhat, fun _ => hc⟩

end View

/-- Every address that is read or listed shows the bytes of its unit. They give it back unless a
kernel name has brought in an id of a namespace that takes more than four bytes. -/
theorem Session.wellFormed_and_consistent_iff (text : Text) (s : Session) (t : Tree)
    (earlier : List (Subject × AddressFilter)) (what : Subject) (f : AddressFilter) :
    (∀ a, Address.parse text = .ok a →
      a.WellFormed ∧ (a.Consistent ↔ (Address.isKernelName text = true → a.lun < 2 ^ 32))) ∧
    ∀ records, ((s.after t earlier).list t what f).1.records = .ok records → ∀ r ∈ records,
      r.address.WellFormed ∧
        (r.address.Consistent ↔ (what = .namespaces → NvmeName.hasRoom r.name = true)) := by
  constructor
  · intro a h
    exact ⟨Address.wellFormed_of_parse h, Address.consistent_iff_of_parse h⟩
  · intro records h r hr
    rw [records_after] at h
    exact View.consistent_iff_of_listed h hr

/-- A namespace with the first id that four bytes have no room for. -/
def fifthByte : Tree :=
  Tree.put {} (Path.ofText "/sys/class/nvme/nvme0/nvme0n4294967296") (.directory true)

/-- The last id that has room is held in the bytes, and the first that has not is listed as well. -/
theorem Session.consistent_up_to_fifthByte :
    (∃ a, Address.parse "nvme0n4294967295" = .ok a ∧ a.Consistent) ∧
    ∃ r, ((usual.after fifthByte []).list fifthByte .namespaces).1.records = .ok [r] ∧
      ¬ r.address.Consistent := by
  obtain ⟨hread, hlisted⟩ := wellFormed_and_consistent_iff "nvme0n4294967295" usual fifthByte []
    .namespaces {}
  constructor
  · have hparse : Address.parse "nvme0n4294967295" = .ok (Address.nvme 0 0 4294967295) := by decide
    exact ⟨_, hparse, (hread _ hparse).2.2 fun _ => by decide⟩
  · have hnames : ((usual.after fifthByte []).list fifthByte .namespaces).1.records.map
        (List.map Record.name) = .ok (["nvme0n4294967296"] : List Text) := by decide +kernel
    obtain ⟨all, hall, hnames⟩ := exists_of_map_eq_ok hnames
    obtain ⟨r, rfl, hname⟩ := List.map_eq_singleton_iff.1 hnames
    refine ⟨r, hall, fun hc => ?_⟩
    have hroom := (hlisted [r] hall r List.mem_cons_self).2.1 hc rfl
    rw [hname] at hroom
    exact absurd hroom (by decide)

/-- An id with a fifth byte is read from a kernel name and lost in the bytes. -/
theorem Address.not_consistent_of_fifthByte :
    ∃ a, parse "nvme0n4294967296" = .ok a ∧ a.lunBytes = Bytes.zeros 8 ∧ ¬ a.Consistent := by
  refine ⟨nvme 0 0 4294967296, by decide, by decide, fun h => ?_⟩
  exact absurd (h.room rfl) (by decide)

end StorageAtlas
