import Mathlib.Data.List.Forall2
import StorageAtlas.Proofs.Address.Order
import StorageAtlas.Proofs.Address.RoundTrip
import StorageAtlas.Proofs.Listing.UnchangedTree
import StorageAtlas.Proofs.Tree.Distinct

/-!
A listing of units shows every name of the bus that is read as a unit, and no
other, in the order of the addresses. A filter takes from the whole listing
exactly the records that it selects.
-/

namespace StorageAtlas

open Text (isAsciiDigits ofDecimal)

/-- Is a name read as the address of a unit? -/
def Address.namesUnit (name : Text) : Bool :=
  match parse name with
  | .ok a => !a.isNvme
  | .error _ => false

/-- What the records of a listing owe to the names in the directory of the bus: the units among
them with their addresses, the smallest address first, and of equal ones the first listed. -/
structure ListsUnits (entries : List Text) (records : List Record) : Prop where
  names : (records.map Record.name).Perm ((Selection.units entries).filter Address.namesUnit)
  parsed : ∀ r ∈ records, Address.parse r.name = .ok r.address ∧ r.address.family = .scsi
  ascending : records.Pairwise fun r s => r.address.numbers ≤ s.address.numbers
  ties : ∀ numbers, ((records.filter (·.address.numbers = numbers)).map Record.name).Sublist entries

/-- The part of a record that says which unit it is about. -/
def Record.key (r : Record) : Address × Text := (r.address, r.name)

namespace View

/-! ## Records -/

theorem mapM_eq_ok_iff {α β ε : Type} {f : α → Except ε β} {l : List α} {m : List β} :
    l.mapM f = .ok m ↔ List.Forall₂ (fun a b => f a = .ok b) l m := by
  induction l generalizing m with
  | nil => cases m <;> simp [pure, Except.pure]
  | cons a l ih =>
    rw [List.mapM_cons]
    cases ha : f a with
    | error e => cases m <;> simp [bind, Except.bind, ha]
    | ok b =>
      cases hl : l.mapM f with
      | error e => cases m <;> simp [bind, Except.bind, ← ih, ha, hl]
      | ok bs => cases m <;> simp [bind, Except.bind, pure, Except.pure, ← ih, ha, hl]

theorem key_withNodeOf (v : View) (r : Record) : (v.withNodeOf r).key = r.key := by
  unfold withNodeOf
  split <;> rfl

theorem key_withDisk (v : View) (r : Record) : (v.withDisk r).key = r.key := by
  unfold withDisk
  split <;> rfl

/-- Whatever is filled in, a record stays with the unit that it was made for. -/
theorem key_of_unitRecord {v : View} {a : Address} {name : Text} {r : Record}
    (h : v.unitRecord a name = .ok r) : r.key = (a, name) := by
  simp only [unitRecord, bind, Except.bind] at h
  split at h
  · cases h
  · cases h
    exact (key_withDisk v _).trans (key_withNodeOf v _)

theorem listUnits_eq_ok_iff {v : View} {f : AddressFilter} {records : List Record} :
    v.listUnits f = .ok records ↔
      List.Forall₂ (fun u r => v.unitRecord u.1 u.2 = .ok r) (v.units f) records := by
  rw [listUnits, recordsOf, unitAttempts, mapM_eq_ok_iff, List.forall₂_map_left_iff]

/-- Records keep the order of what they are made for. -/
theorem map_key_of_recordsOf {α : Type} {consults : α → Bool}
    {record : α → Except ValueFault Record} {key : α → Address × Text}
    {l : List α} {records : List Record}
    (h : recordsOf (l.map fun x => ⟨consults x, record x⟩) = .ok records)
    (hkey : ∀ x r, record x = .ok r → r.key = key x) : records.map Record.key = l.map key := by
  rw [recordsOf, mapM_eq_ok_iff, List.forall₂_map_left_iff] at h
  rw [← List.forall₂_eq_eq_eq, List.forall₂_map_left_iff, List.forall₂_map_right_iff]
  exact (h.imp hkey).flip

theorem map_key_of_listUnits {v : View} {f : AddressFilter} {records : List Record}
    (h : v.listUnits f = .ok records) : records.map Record.key = v.units f := by
  rw [map_key_of_recordsOf h fun u r hr => key_of_unitRecord hr]
  exact List.map_id _

/-! ## Units in the order of their addresses -/

theorem map_snd_allUnits (v : View) :
    v.allUnits.map Prod.snd =
      (Selection.units (v.sysfs.entries v.unitsDir)).filter Address.namesUnit := by
  rw [allUnits, List.map_filterMap, ← List.filterMap_eq_filter]
  refine List.filterMap_congr fun name _ => ?_
  cases hparse : Address.parse name with
  | error e => simp [Option.guard, Address.namesUnit, hparse]
  | ok a => by_cases ha : a.isNvme = true <;> simp [Option.guard, Address.namesUnit, hparse, ha]

theorem parse_of_mem_allUnits {v : View} {u : Address × Text} (h : u ∈ v.allUnits) :
    Address.parse u.2 = .ok u.1 ∧ u.1.family = .scsi := by
  obtain ⟨name, -, hu⟩ := List.mem_filterMap.1 h
  cases hparse : Address.parse name with
  | error e => simp [hparse] at hu
  | ok a =>
    simp only [hparse, Option.ite_none_left_eq_some, Option.some.injEq] at hu
    obtain ⟨hfamily, rfl⟩ := hu
    refine ⟨hparse, ?_⟩
    cases hf : a.family with
    | scsi => rfl
    | nvme => simp [Address.isNvme, hf] at hfamily

theorem selects_open (a : Address) : AddressFilter.selects {} a = true := rfl

theorem units_open (v : View) : v.units {} = sortBy (fun a b => a.1.le b.1) v.allUnits := by
  simp only [units, selects_open, List.filter_true]

/-- It does not matter whether the filter comes before the sort or after it. -/
theorem units_eq_filter (v : View) (f : AddressFilter) :
    v.units f = (v.units {}).filter fun u => f.selects u.1 := by
  rw [units_open, filter_sortBy (total_by Address.le_total Prod.fst)
    (trans_by Address.le_trans Prod.fst)]
  rfl

theorem parse_of_mem_units {v : View} {u : Address × Text} (h : u ∈ v.units {}) :
    Address.parse u.2 = .ok u.1 ∧ u.1.family = .scsi := by
  rw [units_open] at h
  exact parse_of_mem_allUnits (mem_sortBy.1 h)

theorem pairwise_units (v : View) (f : AddressFilter) :
    (v.units f).Pairwise fun u w => u.1.le w.1 = true :=
  pairwise_sortBy (total_by Address.le_total Prod.fst) (trans_by Address.le_trans Prod.fst) _

theorem ascending_units (v : View) :
    (v.units {}).Pairwise fun u w => u.1.numbers ≤ w.1.numbers := by
  refine (pairwise_units v {}).imp_of_mem fun hu hw h => Address.numbers_le_of_le h ?_
  rw [(parse_of_mem_units hu).2, (parse_of_mem_units hw).2]

theorem filter_units_of_numbers (v : View) (numbers : List Int) :
    (v.units {}).filter (·.1.numbers = numbers) =
      v.allUnits.filter (·.1.numbers = numbers) := by
  rw [units_open]
  refine filter_sortBy_of_tied (total_by Address.le_total Prod.fst)
    (trans_by Address.le_trans Prod.fst) ?_
  intro u hu w hw hun hwn
  refine Address.le_of_numbers_eq ?_ ?_
  · rw [of_decide_eq_true hun, of_decide_eq_true hwn]
  · rw [(parse_of_mem_allUnits hu).2, (parse_of_mem_allUnits hw).2]

/-! ## The listing -/

theorem listsUnits_of_listUnits {v : View} {records : List Record}
    (h : v.listUnits = .ok records) : ListsUnits (v.sysfs.entries v.unitsDir) records := by
  have hkeys := map_key_of_listUnits h
  have hmem : ∀ r ∈ records, r.key ∈ v.units {} := fun r hr => hkeys ▸ List.mem_map_of_mem hr
  have hname : ∀ l : List Record, l.map Record.name = (l.map Record.key).map Prod.snd := by
    intro l
    rw [List.map_map]
    rfl
  constructor
  · rw [hname, hkeys, units_open, ← map_snd_allUnits]
    exact (sortBy_perm _ _).map _
  · intro r hr
    have hparsed := parse_of_mem_units (hmem r hr)
    exact hparsed
  · have hascending := ascending_units v
    rw [← hkeys, List.pairwise_map] at hascending
    exact hascending
  · intro numbers
    have htied : (records.filter (·.address.numbers = numbers)).map Record.key =
        v.allUnits.filter (·.1.numbers = numbers) := by
      rw [← filter_units_of_numbers, ← hkeys, List.filter_map]
      rfl
    rw [hname, htied]
    have hall : (v.allUnits.map Prod.snd).Sublist (v.sysfs.entries v.unitsDir) := by
      rw [map_snd_allUnits]
      exact List.filter_sublist.trans List.filter_sublist
    exact (List.filter_sublist.map Prod.snd).trans hall

/-- A filtered listing takes its records from the whole one and cannot fail where that does not. -/
theorem listUnits_eq_filter {v : View} {all : List Record} (h : v.listUnits = .ok all)
    (f : AddressFilter) : v.listUnits f = .ok (all.filter fun r => f.selects r.address) := by
  have hall := listUnits_eq_ok_iff.1 h
  rw [listUnits_eq_ok_iff, units_eq_filter]
  refine List.rel_filter (fun u r hr => ?_) hall
  have hkey : r.address = u.1 := congrArg Prod.fst (key_of_unitRecord hr)
  show f.selects u.1 = true ↔ f.selects r.address = true
  rw [hkey]

end View

/-! ## Names of four numbers -/

/-- A word with a letter in it stands in no text of digits and colons. -/
theorem not_infix_of_digits {name word : Text} (hsign : ∀ c ∈ name, c.isDigit = true ∨ c = ':')
    (letter : Char) (hmem : letter ∈ word) (hdigit : letter.isDigit = false)
    (hcolon : letter ≠ ':') : ¬ word <:+: name := by
  intro h
  rcases hsign letter (h.subset hmem) with hc | hc
  · exact Bool.noConfusion (hdigit.symm.trans hc)
  · exact hcolon hc

theorem isUnit_of_digits {name : Text} (hsign : ∀ c ∈ name, c.isDigit = true ∨ c = ':')
    (hcolon : ':' ∈ name) : Selection.isUnit name = true := by
  have halias : (Selection.aliasTags.any fun tag => Text.holds tag name) = false := by
    refine List.any_eq_false.2 fun tag htag h => ?_
    have hinfix := Text.holds_iff_isInfix.1 h
    simp only [Selection.aliasTags, List.mem_cons, List.not_mem_nil, or_false] at htag
    rcases htag with rfl | rfl | rfl
    · exact not_infix_of_digits hsign 'm' (by decide) (by decide) (by decide) hinfix
    · exact not_infix_of_digits hsign 'o' (by decide) (by decide) (by decide) hinfix
    · exact not_infix_of_digits hsign 'g' (by decide) (by decide) (by decide) hinfix
  have hstart : ∀ start : Text, 't' ∈ start → Text.startsWith name start = false := by
    intro start hmem
    refine Bool.eq_false_iff.2 fun h => ?_
    have hinfix := (List.isPrefixOf_iff_prefix.1 h).isInfix
    exact not_infix_of_digits hsign 't' hmem (by decide) (by decide) hinfix
  rw [Selection.isUnit, halias, hstart "host" (by decide), hstart "target" (by decide)]
  simpa using hcolon

theorem isUnit_join {host channel target lun : Text} (hh : isAsciiDigits host = true)
    (hc : isAsciiDigits channel = true) (ht : isAsciiDigits target = true)
    (hl : isAsciiDigits lun = true) :
    Selection.isUnit (Text.join [':'] [host, channel, target, lun]) = true := by
  refine isUnit_of_digits ?_ (by simp [Text.join])
  intro c hmem
  rcases Text.mem_join hmem with hmem | ⟨field, hfield, hmem⟩
  · exact .inr (List.mem_singleton.1 hmem)
  · have hdigits : isAsciiDigits field = true := by
      simp only [List.mem_cons, List.not_mem_nil, or_false] at hfield
      rcases hfield with rfl | rfl | rfl | rfl <;> assumption
    simp only [isAsciiDigits, Bool.and_eq_true, List.all_eq_true] at hdigits
    exact .inl (hdigits.2 c hmem)

theorem namesUnit_join {host channel target lun : Text} (hh : isAsciiDigits host = true)
    (hc : isAsciiDigits channel = true) (ht : isAsciiDigits target = true)
    (hl : isAsciiDigits lun = true) (hlt : ofDecimal lun < 2 ^ 64) :
    Address.namesUnit (Text.join [':'] [host, channel, target, lun]) = true := by
  have hlun := Address.readLun_of_isAsciiDigits hl (Nat.le_of_lt_succ hlt)
  have hparse := Address.parse_scsiFields hh hc ht (Address.isField_of_isAsciiDigits hl) hlun
  rw [Address.namesUnit, hparse]
  rfl

theorem ListsUnits.count_eq_one {entries : List Text} {records : List Record}
    (h : ListsUnits entries records) (hnodup : entries.Nodup) {name : Text} (hmem : name ∈ entries)
    (hunit : Selection.isUnit name = true) (hnames : Address.namesUnit name = true) :
    (records.map Record.name).count name = 1 := by
  rw [h.names.count_eq]
  refine List.count_eq_one_of_mem ((hnodup.filter _).filter _) ?_
  exact List.mem_filter.2 ⟨List.mem_filter.2 ⟨hmem, hunit⟩, hnames⟩

/-- In any two listings of one tree, of which the first has no filter and succeeds: the first
shows the units of the bus, no name of four numbers is missing or shown twice, and the second
shows of the first exactly what its filter selects. -/
theorem Session.units_listed_and_selected (s : Session) (t : Tree) (f : AddressFilter)
    (earlier later : List (Subject × AddressFilter)) {all : List Record}
    (h : ((s.after t earlier).list t .units).1.records = .ok all) :
    ListsUnits ((s.view t).sysfs.entries (s.view t).unitsDir) all ∧
    (∀ host channel target lun : Text, isAsciiDigits host = true → isAsciiDigits channel = true →
      isAsciiDigits target = true → isAsciiDigits lun = true → ofDecimal lun < 2 ^ 64 →
      Text.join [':'] [host, channel, target, lun] ∈
        (s.view t).sysfs.entries (s.view t).unitsDir →
      (all.map Record.name).count (Text.join [':'] [host, channel, target, lun]) = 1) ∧
    ((s.after t later).list t .units f).1.records =
      .ok (all.filter fun r => f.selects r.address) := by
  rw [records_units_after] at h
  have hlists := View.listsUnits_of_listUnits h
  refine ⟨hlists, ?_, ?_⟩
  · intro host channel target lun hh hc ht hl hlt hmem
    exact hlists.count_eq_one (AttributeTree.nodup_entries _ _) hmem (isUnit_join hh hc ht hl)
      (namesUnit_join hh hc ht hl hlt)
  · rw [records_units_after]
    exact View.listUnits_eq_filter h f

/-- A bus with a host, a target and two units, of which the later one is listed first. -/
def smallBus : Tree :=
  ["host1", "1:0:0:0", "target0:0:1", "0:0:1:5"].foldl
    (fun t name => t.put (Path.ofText ("/sys/bus/scsi/devices/" ++ name)) (.directory true)) {}

theorem Session.units_of_smallBus :
    ∃ all, ((usual.after smallBus []).list smallBus .units).1.records = .ok all ∧
      all.map Record.name = (["0:0:1:5", "1:0:0:0"] : List Text) ∧
      (all.map Record.name).count (Text.join [':'] ["0", "0", "1", "5"]) = 1 ∧
      ((usual.after smallBus [(.units, {})]).list smallBus .units
        { host := some 1 }).1.records =
          .ok (all.filter fun r => ({ host := some 1 } : AddressFilter).selects r.address) := by
  have hnames : ((usual.after smallBus []).list smallBus .units).1.records.map
      (List.map Record.name) = .ok (["0:0:1:5", "1:0:0:0"] : List Text) := by decide +kernel
  cases hall : ((usual.after smallBus []).list smallBus .units).1.records with
  | error e =>
    rw [hall] at hnames
    cases hnames
  | ok all =>
    rw [hall] at hnames
    obtain ⟨-, hcount, hselected⟩ :=
      units_listed_and_selected usual smallBus { host := some 1 } [] [(.units, {})] hall
    refine ⟨all, rfl, Except.ok.inj hnames, ?_, hselected⟩
    exact hcount "0" "0" "1" "5" (by decide) (by decide) (by decide) (by decide) (by decide)
      (by decide +kernel)

end StorageAtlas
