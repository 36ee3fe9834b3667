import StorageAtlas.Proofs.DeviceNode.Untied
import StorageAtlas.Proofs.DiskLink.SameNodes
import StorageAtlas.Proofs.Listing.Runs
import StorageAtlas.Proofs.Transport.SameNodes

/-!
A listing of units does not show in which order directories list their names.
Every directory that a record is made from is put into order first, so only ties
could show: units with equal addresses, and special files that differ in nothing
but their names.
-/

namespace StorageAtlas

/-- What addresses are compared by, for a name that is read as one. -/
def Address.keyOf? (name : Text) : Option (List Int) := (parse name).toOption.map sortKey

/-- Names of addresses with one key are one name, if no key comes from two names. -/
theorem Address.name_eq_of_sortKey_eq {names : List Text} (h : (names.filterMap keyOf?).Nodup)
    {name name' : Text} (hmem : name ∈ names) (hmem' : name' ∈ names) {a a' : Address}
    (hparse : parse name = .ok a) (hparse' : parse name' = .ok a') (hkey : a.sortKey = a'.sortKey) :
    name = name' := by
  by_contra hne
  have hkeyOf : keyOf? name = some a.sortKey := by
    rw [keyOf?, hparse]
    rfl
  have hkeyOf' : keyOf? name' = some a'.sortKey := by
    rw [keyOf?, hparse']
    rfl
  have hsymm : Std.Symm fun x y => ∀ k, keyOf? x = some k → ∀ l, keyOf? y = some l → k ≠ l :=
    ⟨fun x y hxy k hk l hl => (hxy l hl k hk).symm⟩
  have hpairwise := List.pairwise_filterMap.1 h
  exact hpairwise.forall hmem hmem' hne _ hkeyOf _ hkeyOf' hkey

namespace View

/-- Two views of trees with the same nodes, in which numbers lead to the same special files. -/
structure SameNodes (v v' : View) : Prop where
  sysfs : v.sysfs.SameNodes v'.sysfs
  links : v.links.SameNodes v'.links
  resolve : v.index.resolve = v'.index.resolve
  wwns : v.wwns = v'.wwns
  options : v.options = v'.options

namespace SameNodes

variable {v v' : View}

/-! ## Entries of a device -/

theorem sortNames_entries (h : v.SameNodes v') (directory : Text) :
    DiskLinks.sortNames (v.sysfs.entries directory) =
      DiskLinks.sortNames (v'.sysfs.entries directory) :=
  Text.sortBy_le_eq_of_perm (h.sysfs.entries_perm directory)

theorem findEntry (h : v.SameNodes v') : v.findEntry = v'.findEntry := by
  funext directory p
  unfold View.findEntry entry? entryTarget
  rw [h.sysfs.isDir, h.sysfs.isLink, h.sysfs.realPath, h.sortNames_entries]
  simp only [h.sortNames_entries]

theorem nodeDirectory (h : v.SameNodes v') : v.nodeDirectory = v'.nodeDirectory := by
  funext directory
  unfold View.nodeDirectory
  rw [h.findEntry]

theorem withNode (h : v.SameNodes v') : v.withNode = v'.withNode := by
  funext r directory kind
  unfold View.withNode nodePath
  rw [h.sysfs.deviceNumber, h.sysfs.readMany, h.resolve, h.links.deviceDir]

theorem withNodeOf (h : v.SameNodes v') : v.withNodeOf = v'.withNodeOf := by
  funext r
  unfold View.withNodeOf
  rw [h.nodeDirectory, h.withNode]

theorem withGeneric (h : v.SameNodes v') : v.withGeneric = v'.withGeneric := by
  funext r
  unfold View.withGeneric NodeIndex.resolveIn
  rw [h.findEntry, h.sysfs.deviceNumber, h.resolve]

theorem withDisk (h : v.SameNodes v') : v.withDisk = v'.withDisk := by
  funext r
  unfold View.withDisk
  rw [h.findEntry, h.sysfs.readMany]

theorem wwnFor (h : v.SameNodes v') : v.wwnFor = v'.wwnFor := by
  funext r
  unfold View.wwnFor wantsWwn
  rw [h.options, h.wwns]

theorem scsiIdFor (h : v.SameNodes v') : v.scsiIdFor = v'.scsiIdFor := by
  funext r
  unfold View.scsiIdFor
  rw [h.options, h.links.scsiId]

theorem unitsDir (h : v.SameNodes v') : v.unitsDir = v'.unitsDir := by
  rw [View.unitsDir, View.unitsDir, h.sysfs.under]

/-- All that is read for a unit is the same in both views. -/
theorem unitRecord (h : v.SameNodes v') : v.unitRecord = v'.unitRecord := by
  funext a name
  unfold View.unitRecord
  rw [h.unitsDir, h.sysfs.readMany, h.sysfs.identity, h.withNodeOf, h.withGeneric, h.withDisk,
    h.wwnFor, h.scsiIdFor, h.options, Transport.ofDevice_eq h.sysfs]

theorem unitConsults (h : v.SameNodes v') : v.unitConsults = v'.unitConsults := by
  funext name
  unfold View.unitConsults
  rw [h.unitsDir, h.findEntry, h.nodeDirectory, h.sysfs.deviceNumber]

/-! ## Units -/

theorem allUnits_perm (h : v.SameNodes v') : v.allUnits.Perm v'.allUnits := by
  unfold allUnits
  rw [h.unitsDir]
  exact ((h.sysfs.entries_perm _).filter _).filterMap _

/-- No two units are tied, so their order is that of their addresses alone. -/
theorem units (h : v.SameNodes v')
    (hkeys : ((v.sysfs.entries v.unitsDir).filterMap Address.keyOf?).Nodup) (f : AddressFilter) :
    v.units f = v'.units f := by
  have hentry : ∀ u ∈ v.allUnits, u.2 ∈ v.sysfs.entries v.unitsDir := by
    intro u hu
    have hname : u.2 ∈ v.allUnits.map Prod.snd := List.mem_map_of_mem hu
    rw [map_snd_allUnits] at hname
    exact (List.mem_filter.1 (List.mem_filter.1 hname).1).1
  refine sortBy_eq_of_perm (total_by Address.le_total Prod.fst)
    (trans_by Address.le_trans Prod.fst) ?_ (h.allUnits_perm.filter _)
  intro a ha b hb hab hba
  -- two units that tie have one key, so their names are one, and with it their addresses
  have ha := (List.mem_filter.1 ha).1
  have hb := (List.mem_filter.1 hb).1
  have hparse := (parse_of_mem_allUnits ha).1
  have hparse' := (parse_of_mem_allUnits hb).1
  have hkey : a.1.sortKey = b.1.sortKey :=
    PartialOrder.le_antisymm _ _ ((Address.le_iff _ _).1 hab) ((Address.le_iff _ _).1 hba)
  have hname := Address.name_eq_of_sortKey_eq hkeys (hentry a ha) (hentry b hb) hparse hparse' hkey
  rw [hname, hparse', Except.ok.injEq] at hparse
  exact Prod.ext hparse.symm hname

theorem listUnits (h : v.SameNodes v')
    (hkeys : ((v.sysfs.entries v.unitsDir).filterMap Address.keyOf?).Nodup) (f : AddressFilter) :
    v.listUnits f = v'.listUnits f := by
  unfold View.listUnits unitAttempts
  rw [h.units hkeys, h.unitRecord, h.unitConsults]

end SameNodes
end View

namespace Session

theorem view_sameNodes (s : Session) {t u : Tree} (h : t.SameNodes u)
    (hnodes : (NodeIndex.build t s.deviceDir).Untied) : (s.view t).SameNodes (s.view u) := by
  have hlinks : (s.linksIn t).SameNodes (s.linksIn u) :=
    ⟨AttributeTree.sameNodes_mounted h s.sysfsRoot, rfl, rfl⟩
  refine ⟨AttributeTree.sameNodes_mounted h s.sysfsRoot, hlinks, ?_, ?_, rfl⟩
  · unfold view
    cases s.index with
    | some index => rfl
    | none => exact NodeIndex.resolve_eq_of_perm hnodes (NodeIndex.build_perm h s.deviceDir)
  · show s.wwnMapIn t = s.wwnMapIn u
    unfold wwnMapIn WwnSnapshots.current
    rw [hlinks.wwnMap]

/-- In two trees with the same nodes, in which directories may list their names in different
orders: a listing of units gives the same, all fields of all records, if no two names of the bus
are read as addresses with one key and no two special files of one kind and number were modified
at the same time. -/
theorem units_eq_of_sameNodes (s : Session) {t u : Tree} (h : t.SameNodes u)
    (hkeys : (((s.view t).sysfs.entries (s.view t).unitsDir).filterMap Address.keyOf?).Nodup)
    (hnodes : (NodeIndex.build t s.deviceDir).Untied)
    (earlier later : List (Subject × AddressFilter)) (f : AddressFilter) :
    ((s.after t earlier).list t .units f).1.records =
      ((s.after u later).list u .units f).1.records := by
  rw [records_units_after, records_units_after]
  exact (s.view_sameNodes h hnodes).listUnits hkeys f

/-- What stands in a tree with a disk, two nodes for it, two links to it and a second unit. -/
def twoUnits : List (Text × Node) :=
  [("/sys/bus/scsi/devices/10:0:0:0", .directory true),
    ("/sys/bus/scsi/devices/9:0:0:0/block/sda/dev", .file (Utf8.encode "8:0\n")),
    ("/dev/disk0", .device .block ⟨8, 0⟩ 2), ("/dev/sda", .device .block ⟨8, 0⟩ 1),
    ("/dev/disk/by-id/scsi-3b", .link "../../sda"), ("/dev/disk/by-id/scsi-2a", .link "../../sda")]

/-- The tree in which these things were put one after the other. -/
def growing (nodes : List (Text × Node)) : Tree :=
  nodes.foldl (fun t (path, node) => t.put (Path.ofText path) node) {}

/-- A session that looks up world wide names as well. -/
def withWwns : Session := { usual with options := { wwnSource := some .scsiLinks } }

theorem units_of_twoUnits :
    (growing twoUnits).children ["devices", "scsi", "bus", "sys"] =
        (["10:0:0:0", "9:0:0:0"] : List Text) ∧
      (growing twoUnits.reverse).children ["devices", "scsi", "bus", "sys"] =
        (["9:0:0:0", "10:0:0:0"] : List Text) ∧
      ((withWwns.after (growing twoUnits) []).list (growing twoUnits) .units).1.records =
        ((withWwns.after (growing twoUnits.reverse) []).list (growing twoUnits.reverse)
          .units).1.records ∧
      ((withWwns.after (growing twoUnits) []).list (growing twoUnits) .units).1.records.map
          (List.map fun r => (r.name, r.deviceNode, r.wwn)) =
        .ok [("9:0:0:0", some "/dev/disk0", some "0xa"), ("10:0:0:0", none, none)] := by
  have hperm : (growing twoUnits).entries.Perm (growing twoUnits.reverse).entries := by
    decide +kernel
  refine ⟨by decide +kernel, by decide +kernel, ?_, by decide +kernel⟩
  exact units_eq_of_sameNodes withWwns (Tree.sameNodes_of_perm hperm) (by decide +kernel)
    (by decide +kernel) [] [] {}

end Session
end StorageAtlas
