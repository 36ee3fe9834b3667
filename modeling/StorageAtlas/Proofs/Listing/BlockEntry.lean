import Mathlib.Order.Bounds.Basic
import StorageAtlas.Proofs.Listing.Nodes
import StorageAtlas.Proofs.Tree.SameNodes

/-!
Entries of block devices and the kind of a unit's node. The search for a block
device and the search for any node that follows it both take the first entry
that they accept, and block entries come before all others that lead to a node.
So the second search cannot pass over a block entry that the first gave up on. A
generic node is found in the same way, by the first entry of its own kind.
-/

namespace StorageAtlas

namespace AttributeTree

/-- The names in a directory that satisfy `p` and are those of directories or of links to them. -/
def subdirectories (s : AttributeTree) (directory : Text) (p : Text → Bool) : Set Text :=
  {name | name ∈ s.entries directory ∧ p name = true ∧
    s.isDir (PathText.join directory name) = true}

def blockEntries (s : AttributeTree) (directory : Text) : Set Text :=
  s.subdirectories directory fun name => Text.startsWith name "block"

/-- Does an entry lead nowhere? It is a directory then, not a link to one, and it is empty or its
first name is a link to nothing. -/
def DeadEnd (s : AttributeTree) (path : Text) : Prop :=
  s.isLink path = false ∧
    ∀ child, IsLeast {name | name ∈ s.entries path} child →
      s.has (PathText.join path child) = false

theorem realPath_eq_none_iff {s : AttributeTree} {path : Text} :
    s.realPath path = none ↔ s.has path = false := by
  unfold realPath Tree.realPath has Tree.exists?
  cases s.tree.find path with
  | error e => exact iff_of_true rfl rfl
  | ok place => exact iff_of_false nofun nofun

end AttributeTree

/-- Does a record show nothing of a node of its own? -/
structure Record.LacksNode (r : Record) : Prop where
  kind : r.deviceKind = none
  kernelName : r.kernelName = none
  number : r.number = none
  node : r.deviceNode = none

/-! ## The order of entries -/

/-- Of the names that lead to a node, those of block entries come first. -/
theorem Selection.le_of_isBlock {a b : Text} (ha : isBlock a = true) (hb : isPrimaryNode b = true)
    (hother : isBlock b = false) : a ≤ b := by
  obtain ⟨tail, rfl⟩ := Text.startsWith_iff.1 ha
  have hfirst : ∃ c rest, b = c :: rest ∧ 'b'.toNat < c.toNat := by
    simp only [isPrimaryNode, hother, Bool.or_false, Bool.or_eq_true, Bool.and_eq_true,
      decide_eq_true_eq, Text.startsWith_iff] at hb
    rcases hb with ((⟨rest, rfl⟩ | ⟨rest, rfl⟩) | rfl) | ⟨⟨rest, rfl⟩, -⟩
    all_goals exact ⟨_, _, rfl, by decide⟩
  obtain ⟨c, rest, rfl, hc⟩ := hfirst
  rw [← Text.le_iff]
  exact Bool.or_eq_true_iff.2 (.inl (decide_eq_true hc))

theorem DiskLinks.find?_sortNames_eq_some_iff {p : Text → Bool} {names : List Text} {name : Text} :
    (sortNames names).find? p = some name ↔ IsLeast {n | n ∈ names ∧ p n = true} name := by
  rw [sortNames, find?_sortBy_eq_some_iff Text.le_total Text.le_trans fun _ _ => Text.le_antisymm]
  simp only [IsLeast, lowerBounds, Set.mem_ofPred_eq, Text.le_iff, and_imp, and_assoc]

namespace View

variable {v : View} {directory name : Text}

theorem entry?_eq_some_iff {p : Text → Bool} :
    v.entry? directory p = some name ↔ IsLeast (v.sysfs.subdirectories directory p) name := by
  unfold entry?
  simp only [DiskLinks.find?_sortNames_eq_some_iff, Bool.and_eq_true,
    AttributeTree.subdirectories]

theorem entry?_eq_none_iff {p : Text → Bool} :
    v.entry? directory p = none ↔ v.sysfs.subdirectories directory p = ∅ := by
  unfold entry?
  simp [DiskLinks.sortNames, mem_sortBy, AttributeTree.subdirectories,
    Set.eq_empty_iff_forall_notMem]

/-- The first block entry is the first of all entries that lead to a node. -/
theorem isLeast_isPrimaryNode (h : IsLeast (v.sysfs.blockEntries directory) name) :
    IsLeast (v.sysfs.subdirectories directory Selection.isPrimaryNode) name := by
  obtain ⟨⟨hmem, hname, hdir⟩, hleast⟩ := h
  constructor
  · refine ⟨hmem, ?_, hdir⟩
    simp only [Selection.isPrimaryNode, Selection.isBlock, hname, Bool.or_true, Bool.true_or]
  · rintro other ⟨hother, hprimary, hotherDir⟩
    cases hblock : Selection.isBlock other with
    | true => exact hleast ⟨hother, hblock, hotherDir⟩
    | false => exact Selection.le_of_isBlock hname hprimary hblock

/-- The number of the generic node of a unit is read where the first entry of its kind leads. -/
theorem genericNumber_eq_some_iff {r : Record} {n : DeviceNumber} :
    v.genericNumber .units r = some n ↔ ∃ first node,
      IsLeast (v.sysfs.subdirectories r.directory Selection.isGenericNode) first ∧
        v.entryTarget r.directory first = some node ∧ v.sysfs.deviceNumber node = some n := by
  simp only [genericNumber, findEntry, Option.bind_eq_some_iff, entry?_eq_some_iff]
  constructor
  · rintro ⟨node, ⟨first, hfirst, hnode⟩, hn⟩
    exact ⟨first, node, hfirst, hnode, hn⟩
  · rintro ⟨first, node, hfirst, hnode, hn⟩
    exact ⟨node, ⟨first, hfirst, hnode⟩, hn⟩

/-! ## Where an entry leads -/

theorem entryTarget_eq_none_iff (hdir : v.sysfs.isDir (PathText.join directory name) = true) :
    v.entryTarget directory name = none ↔ v.sysfs.DeadEnd (PathText.join directory name) := by
  unfold entryTarget AttributeTree.DeadEnd
  cases hlink : v.sysfs.isLink (PathText.join directory name) with
  | true =>
    have hhas : v.sysfs.has (PathText.join directory name) = true := Tree.exists?_of_isDir hdir
    simp [hdir, hlink, AttributeTree.realPath_eq_none_iff, hhas]
  | false =>
    simp only [hdir, hlink, Bool.not_false, Bool.and_self, if_true, true_and]
    generalize PathText.join directory name = path
    have hfirst : ∀ child, (DiskLinks.sortNames (v.sysfs.entries path)).find? (fun _ => true) =
        some child ↔ IsLeast {n | n ∈ v.sysfs.entries path} child := by
      simp [DiskLinks.find?_sortNames_eq_some_iff]
    simp only [← hfirst]
    cases DiskLinks.sortNames (v.sysfs.entries path) with
    | nil => simp
    | cons child rest => simp [AttributeTree.realPath_eq_none_iff]

/-! ## The node of a unit -/

/-- The first block entry decides where a node is looked for and of which kind it is. -/
theorem nodeDirectory_of_isLeast (h : IsLeast (v.sysfs.blockEntries directory) name) :
    v.nodeDirectory directory =
      (v.entryTarget directory name).map fun node => (node, .block) := by
  have hentry : v.entry? directory Selection.isBlock = some name := entry?_eq_some_iff.2 h
  have hblock : v.findEntry directory Selection.isBlock = v.entryTarget directory name := by
    rw [findEntry, hentry, Option.bind_some]
  have hprimary : v.findEntry directory Selection.isPrimaryNode = v.entryTarget directory name := by
    rw [findEntry, entry?_eq_some_iff.2 (isLeast_isPrimaryNode h), Option.bind_some]
  rw [nodeDirectory, hblock, hprimary]
  cases v.entryTarget directory name <;> rfl

theorem nodeDirectory_of_blockEntries_eq_empty (h : v.sysfs.blockEntries directory = ∅) :
    v.nodeDirectory directory =
      (v.findEntry directory Selection.isPrimaryNode).map fun node => (node, .char) := by
  have hentry : v.entry? directory Selection.isBlock = none := entry?_eq_none_iff.2 h
  rw [nodeDirectory, findEntry, hentry, Option.bind_none]

theorem exists_isLeast_of_nonempty (h : (v.sysfs.blockEntries directory).Nonempty) :
    ∃ name, IsLeast (v.sysfs.blockEntries directory) name := by
  cases hentry : v.entry? directory Selection.isBlock with
  | none => exact absurd (entry?_eq_none_iff.1 hentry) h.ne_empty
  | some name => exact ⟨name, entry?_eq_some_iff.1 hentry⟩

/-- What is filled in after the node leaves the node as it is. -/
theorem exists_eq_of_unitRecord {a : Address} {r : Record} (h : v.unitRecord a name = .ok r) :
    ∃ values attributes genericNode identity transport wwn scsiId,
      r = { v.withNodeOf { address := a, name, directory := PathText.join v.unitsDir name,
                           attributes := values } with
            attributes, genericNode, identity, transport, wwn, scsiId } := by
  simp only [unitRecord, bind, Except.bind] at h
  split at h
  · cases h
  · rename_i transport _
    obtain ⟨attributes, hdisk⟩ := v.withDisk_eq (v.withGeneric (v.withNodeOf
      { address := a
        name := name
        directory := PathText.join v.unitsDir name
        attributes := v.sysfs.readMany (PathText.join v.unitsDir name) unitAttributes }))
    rw [hdisk] at h
    exact ⟨_, _, _, _, _, _, _, (Except.ok.inj h).symm⟩

/-- A unit shows the kind of what was found in its directory, and nothing of a node if nothing was
found. -/
theorem node_of_unitRecord {a : Address} {r : Record} (h : v.unitRecord a name = .ok r) :
    r.directory = PathText.join v.unitsDir r.name ∧
      r.deviceKind = (v.nodeDirectory r.directory).map Prod.snd ∧
      (v.nodeDirectory r.directory = none → r.LacksNode) := by
  obtain ⟨values, attributes, generic, identity, transport, wwn, scsiId, rfl⟩ :=
    exists_eq_of_unitRecord h
  unfold withNodeOf
  split
  · rename_i hfound
    exact ⟨rfl, (congrArg (Option.map Prod.snd) hfound).symm, fun hnone => by
      cases hfound.symm.trans hnone⟩
  · rename_i hnone
    exact ⟨rfl, (congrArg (Option.map Prod.snd) hnone).symm, fun _ => ⟨rfl, rfl, rfl, rfl⟩⟩

/-- Is the node of a unit of the kind that the entries of its directory announce? A block entry
rules out a character device, a block device needs one, and where the first of them leads nowhere
the unit shows no node. -/
structure ShowsKind (v : View) (r : Record) : Prop where
  directory : r.directory = PathText.join v.unitsDir r.name
  char : r.deviceKind = some .char → v.sysfs.blockEntries r.directory = ∅
  block : r.deviceKind = some .block → (v.sysfs.blockEntries r.directory).Nonempty
  deadEnd : ∀ name, IsLeast (v.sysfs.blockEntries r.directory) name →
    v.sysfs.DeadEnd (PathText.join r.directory name) → r.LacksNode

theorem showsKind_unitRecord {a : Address} {r : Record} (h : v.unitRecord a name = .ok r) :
    v.ShowsKind r := by
  obtain ⟨hdirectory, hkind, hlacks⟩ := node_of_unitRecord h
  constructor
  case directory => exact hdirectory
  case char =>
    intro hchar
    by_contra hsome
    obtain ⟨first, hleast⟩ := exists_isLeast_of_nonempty (Set.nonempty_iff_ne_empty.2 hsome)
    rw [hkind, nodeDirectory_of_isLeast hleast] at hchar
    simp at hchar
  case block =>
    intro hblock
    by_contra hnone
    rw [hkind, nodeDirectory_of_blockEntries_eq_empty (Set.not_nonempty_iff_eq_empty.1 hnone)]
      at hblock
    simp at hblock
  case deadEnd =>
    intro first hleast hdead
    apply hlacks
    rw [nodeDirectory_of_isLeast hleast, (entryTarget_eq_none_iff hleast.1.2.2).2 hdead,
      Option.map_none]

end View

namespace Session

/-- Whatever the tree, the filter and the listings before, a unit with a block entry is never shown
as a character device. -/
theorem showsKind_of_listed (s : Session) (t : Tree) (f : AddressFilter) {records : List Record}
    (h : (s.list t .units f).1.records = .ok records) :
    ∀ r ∈ records, (s.view t).ShowsKind r := by
  intro r hr
  obtain ⟨attempt, hmem, hattempt⟩ := View.exists_attempt_of_listed h hr
  obtain ⟨u, -, rfl⟩ := List.mem_map.1 hmem
  exact View.showsKind_unitRecord hattempt

/-- Two tape drives. One also has a directory for block devices, with a dangling link in it. -/
def twoTapes : Tree :=
  [("/sys/bus/scsi/devices/0:0:0:0/block/sda", Node.link "../../gone"),
    ("/sys/bus/scsi/devices/0:0:0:0/scsi_tape/st0/dev", .file (Utf8.encode "9:0\n")),
    ("/sys/bus/scsi/devices/0:0:0:0/tape", .link "scsi_tape/st0"),
    ("/sys/bus/scsi/devices/0:0:1:0/scsi_tape/st1/dev", .file (Utf8.encode "9:1\n")),
    ("/sys/bus/scsi/devices/0:0:1:0/tape", .link "scsi_tape/st1")].foldl
    (fun t (path, node) => t.put (Path.ofText path) node) {}

theorem kinds_of_twoTapes :
    ∃ first second, (usual.list twoTapes .units).1.records = .ok [first, second] ∧
      first.LacksNode ∧ second.deviceKind = some .char ∧
      (usual.view twoTapes).sysfs.blockEntries second.directory = ∅ := by
  have hkinds : (usual.list twoTapes .units).1.records.map (List.map fun r =>
      (r.directory, r.deviceKind)) =
        .ok [("/sys/bus/scsi/devices/0:0:0:0", none),
          ("/sys/bus/scsi/devices/0:0:1:0", some .char)] := by decide +kernel
  cases hlisted : (usual.list twoTapes .units).1.records with
  | error e =>
    rw [hlisted] at hkinds
    cases hkinds
  | ok records =>
    rw [hlisted] at hkinds
    obtain ⟨first, rest, rfl, hfirst, hrest⟩ := List.map_eq_cons_iff.1 (Except.ok.inj hkinds)
    obtain ⟨second, rfl, hsecond⟩ := List.map_eq_singleton_iff.1 hrest
    have hdirectory : first.directory = ("/sys/bus/scsi/devices/0:0:0:0" : Text) :=
      congrArg Prod.fst hfirst
    have hchar : second.deviceKind = some .char := congrArg Prod.snd hsecond
    have hshown := showsKind_of_listed usual twoTapes {} hlisted
    have hleast : IsLeast ((usual.view twoTapes).sysfs.blockEntries first.directory) "block" := by
      rw [hdirectory]
      exact View.entry?_eq_some_iff.1 (by decide +kernel)
    have hdead : (usual.view twoTapes).sysfs.DeadEnd (PathText.join first.directory "block") := by
      rw [hdirectory]
      exact (View.entryTarget_eq_none_iff (by decide +kernel)).1 (by decide +kernel)
    exact ⟨first, second, rfl, (hshown first (by simp)).deadEnd _ hleast hdead, hchar,
      (hshown second (by simp)).char hchar⟩

end Session
end StorageAtlas
