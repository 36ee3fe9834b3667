import StorageAtlas.Proofs.Address.Order
import StorageAtlas.Sorting

/-!
Sorted lists of addresses. The bytes of an address that is made from numbers
follow from the numbers, so two of them with one key are one address, and a list
of them can be put into order in one way only: the units first, the namespaces
behind them, both ascending.
-/

namespace StorageAtlas.Address

/-- An address that is made from numbers, of which that of a unit has to fit into its bytes. -/
inductive Made : Address → Prop
  | unit {host channel target lun : Int} {a : Address}
      (made : scsi host channel target lun = .ok a) : Made a
  | namespaceOf (minor controller id : Int) : Made (nvme minor controller id)

/-- All units stand before all namespaces, and each family is ascending. -/
structure Ascending (l : List Address) : Prop where
  unitsFirst : l.Pairwise fun a b => b.family = .scsi → a.family = .scsi
  numbers : l.Pairwise fun a b => a.family = b.family → a.numbers ≤ b.numbers

/-! ## Equal keys -/

/-- Number and family give the bytes. -/
theorem Made.lunBytes_eq {a : Address} (h : a.Made) :
    a.lunBytes = if a.isNvme then namespaceBytes a.lun else Lun.ofNat a.lun.toNat := by
  cases h with
  | unit made =>
    unfold scsi Lun.ofInt at made
    split at made
    · obtain rfl := Except.ok.inj made
      rfl
    · cases made
  | namespaceOf minor controller id => rfl

theorem Made.eq_of_sortKey_eq {a b : Address} (ha : a.Made) (hb : b.Made)
    (h : a.sortKey = b.sortKey) : a = b := by
  simp only [sortKey, List.cons.injEq, and_true] at h
  obtain ⟨hrank, hhost, hchannel, htarget, hlun⟩ := h
  -- the rank tells the families apart
  have hfamily : a.family = b.family := by
    cases hf : a.family <;> cases hf' : b.family <;> simp [isNvme, hf, hf'] at hrank ⊢
  have hlunBytes : a.lunBytes = b.lunBytes := by
    rw [ha.lunBytes_eq, hb.lunBytes_eq, isNvme, isNvme, hfamily, hlun]
  show Address.mk a.family a.host a.channel a.target a.lun a.lunBytes = b
  rw [hfamily, hhost, hchannel, htarget, hlun, hlunBytes]

/-! ## The order -/

theorem lt_iff (a b : Address) : a.lt b = true ↔ a.sortKey < b.sortKey := keyLt_iff _ _

theorem lt_of_scsi_of_nvme {a b : Address} (ha : a.family = .scsi) (hb : b.family = .nvme) :
    a.lt b = true := by
  rw [lt_iff, sortKey, sortKey, isNvme, isNvme, ha, hb]
  exact List.cons_lt_cons_iff.2 (.inl (by decide))

theorem isStrictTotalOrder_lt :
    IsStrictTotalOrder {a : Address // a.Made} fun a b => a.1.lt b.1 = true where
  irrefl a h := lt_irrefl _ ((lt_iff _ _).1 h)
  trans a b c hab hbc := by
    rw [lt_iff] at hab hbc ⊢
    exact lt_trans hab hbc
  trichotomous a b hab hba := by
    rw [lt_iff, not_lt] at hab hba
    exact Subtype.ext (a.2.eq_of_sortKey_eq b.2 (le_antisymm hba hab))

theorem le_iff_of_family_eq {a b : Address} (h : a.family = b.family) :
    a.le b = true ↔ a.numbers ≤ b.numbers := by
  refine ⟨fun hle => numbers_le_of_le hle h, fun hle => ?_⟩
  rw [le_iff, ← not_lt, sortKey, sortKey, isNvme, isNvme, h, List.cons_lt_cons_iff]
  rintro (hrank | ⟨-, hlt⟩)
  · exact lt_irrefl _ hrank
  · exact not_lt.2 hle hlt

/-- The family decides, and within a family the numbers. -/
theorem le_iff_family_and_numbers (a b : Address) :
    a.le b = true ↔ (b.family = .scsi → a.family = .scsi) ∧
      (a.family = b.family → a.numbers ≤ b.numbers) := by
  by_cases h : a.family = b.family
  · rw [le_iff_of_family_eq h]
    exact ⟨fun hle => ⟨fun hb => h.trans hb, fun _ => hle⟩, fun hle => hle.2 h⟩
  · cases ha : a.family with
    | scsi =>
      cases hb : b.family with
      | scsi => exact absurd (ha.trans hb.symm) h
      | nvme =>
        have hle : a.le b = true :=
          le_of_scsi_of_nvme (decide_eq_false (by simp [ha])) (decide_eq_true hb)
        simp [hle]
    | nvme =>
      cases hb : b.family with
      | scsi => simp [le, lt_of_scsi_of_nvme hb ha]
      | nvme => exact absurd (ha.trans hb.symm) h

theorem ascending_iff (l : List Address) : Ascending l ↔ l.Pairwise (·.le · = true) := by
  simp only [le_iff_family_and_numbers, List.pairwise_and_iff]
  exact ⟨fun h => ⟨h.unitsFirst, h.numbers⟩, fun h => ⟨h.1, h.2⟩⟩

/-! ## Sorting -/

/-- Ascending addresses are what any list of the same addresses is sorted to. -/
theorem Ascending.eq_sortBy {k l : List Address} (h : Ascending k) (hmade : ∀ a ∈ l, a.Made)
    (hperm : k.Perm l) : k = sortBy le l := by
  have huntied : ∀ a ∈ k, ∀ b ∈ k, a.le b = true → b.le a = true → a = b := by
    intro a ha b hb hab hba
    rw [le_iff] at hab hba
    have hkey := le_antisymm hab hba
    exact (hmade a (hperm.subset ha)).eq_of_sortKey_eq (hmade b (hperm.subset hb)) hkey
  calc k = sortBy le k := (sortBy_eq_self ((ascending_iff k).1 h)).symm
    _ = sortBy le l := sortBy_eq_of_perm le_total le_trans huntied hperm

/-- Addresses that are made from numbers are in a strict total order in which the units come first.
Sorting a list of them gives its only ascending arrangement, so it gives the same for every list
with the same addresses. -/
theorem sorted_canonically :
    (∀ a b : Address, a.Made → b.Made → a.sortKey = b.sortKey → a = b) ∧
    IsStrictTotalOrder {a : Address // a.Made} (fun a b => a.1.lt b.1 = true) ∧
    (∀ a b : Address, a.family = .scsi → b.family = .nvme → a.lt b = true) ∧
    ∀ l m : List Address, (∀ a ∈ l, a.Made) → l.Perm m →
      sortBy le l = sortBy le m ∧ (sortBy le l).Perm l ∧ Ascending (sortBy le l) ∧
        ∀ k : List Address, k.Perm l → Ascending k → k = sortBy le l := by
  refine ⟨fun a b ha hb h => ha.eq_of_sortKey_eq hb h, isStrictTotalOrder_lt,
    fun a b ha hb => lt_of_scsi_of_nvme ha hb, ?_⟩
  intro l m hmade hperm
  have hascending (l : List Address) : Ascending (sortBy le l) :=
    (ascending_iff _).2 (pairwise_sortBy le_total le_trans l)
  refine ⟨?_, sortBy_perm le l, hascending l, fun k hk h => h.eq_sortBy hmade hk⟩
  exact ((hascending m).eq_sortBy hmade ((sortBy_perm le m).trans hperm.symm)).symm

/-- A namespace, and two units of which one is on a host with a larger number than it. -/
def unsorted : List Address :=
  [nvme 0 1 5, ofLun 40000 0 0 0, ofLun 2 0 3 0xFFFFFFFFFFFFFFFF]

theorem sorted_unsorted :
    (∀ a ∈ unsorted, a.Made) ∧ unsorted.Perm unsorted.reverse ∧
      sortBy le unsorted = sortBy le unsorted.reverse ∧
      sortBy le unsorted = [ofLun 2 0 3 0xFFFFFFFFFFFFFFFF, ofLun 40000 0 0 0, nvme 0 1 5] := by
  have hmade : ∀ a ∈ unsorted, a.Made := by
    simp only [unsorted, List.forall_mem_cons, List.not_mem_nil, false_imp_iff, implies_true,
      and_true]
    exact ⟨.namespaceOf 0 1 5, .unit (scsi_natCast 40000 0 0 (by decide)),
      .unit (scsi_natCast 2 0 3 (by decide))⟩
  have hperm : unsorted.Perm unsorted.reverse := unsorted.reverse_perm.symm
  obtain ⟨-, -, -, hsort⟩ := sorted_canonically
  exact ⟨hmade, hperm, (hsort _ _ hmade hperm).1, by decide⟩

end StorageAtlas.Address
