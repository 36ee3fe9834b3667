import StorageAtlas.Proofs.DiskLink.BestLink

/-!
Whose identifier a look-up gives. A link answers for a node where both lead to one
number. Block and character files are numbered apart, and what is no special file has
a number too, so files of one number need not be the same device. What is given for a
node is its own exactly if each link with its number leads to a file of its kind.
-/

namespace StorageAtlas

namespace Tree

variable {t : Tree} {a b path : Text} {kind : DeviceKind} {number : DeviceNumber}

/-- The kind of the special file that a path leads to. -/
def kindAt (t : Tree) (path : Text) : Option DeviceKind :=
  match t.nodeAt path with
  | .ok (.device kind _ _) => some kind
  | _ => none

/-- Does the path lead to a special file of this kind and number? -/
def LeadsToDevice (t : Tree) (path : Text) (kind : DeviceKind) (number : DeviceNumber) : Prop :=
  ∃ modifiedAt, t.nodeAt path = .ok (.device kind number modifiedAt)

/-- Both paths lead to special files, and to such of one kind and number. -/
def SameDevice (t : Tree) (a b : Text) : Prop :=
  ∃ kind number, t.LeadsToDevice a kind number ∧ t.LeadsToDevice b kind number

theorem kindAt_eq_some_iff :
    t.kindAt path = some kind ↔ ∃ number, t.LeadsToDevice path kind number := by
  unfold kindAt LeadsToDevice
  constructor
  · intro h
    split at h
    · rename_i found number modifiedAt hnode
      cases h
      exact ⟨number, modifiedAt, hnode⟩
    · cases h
  · rintro ⟨number, modifiedAt, hnode⟩
    rw [hnode]

theorem LeadsToDevice.deviceNumber (h : t.LeadsToDevice path kind number) :
    t.deviceNumber path = .ok number := by
  obtain ⟨modifiedAt, hnode⟩ := h
  rw [Tree.deviceNumber, hnode]
  rfl

theorem SameDevice.kindAt_eq (h : t.SameDevice a b) :
    t.kindAt a = t.kindAt b ∧ t.kindAt b ≠ none := by
  obtain ⟨kind, number, ha, hb⟩ := h
  rw [kindAt_eq_some_iff.2 ⟨number, ha⟩, kindAt_eq_some_iff.2 ⟨number, hb⟩]
  exact ⟨rfl, Option.some_ne_none kind⟩

/-- Of two files with one number only the kinds have to be compared. -/
theorem sameDevice_iff_of_number (ha : t.deviceNumber a = .ok number)
    (hb : t.deviceNumber b = .ok number) :
    t.SameDevice a b ↔ t.kindAt a = t.kindAt b ∧ t.kindAt b ≠ none := by
  refine ⟨SameDevice.kindAt_eq, fun ⟨heq, hne⟩ => ?_⟩
  obtain ⟨kind, hkind⟩ := Option.ne_none_iff_exists'.1 hne
  obtain ⟨numberA, hleadsA⟩ := kindAt_eq_some_iff.1 (heq.trans hkind)
  obtain ⟨numberB, hleadsB⟩ := kindAt_eq_some_iff.1 hkind
  obtain rfl : numberA = number := Except.ok.inj (hleadsA.deviceNumber.symm.trans ha)
  obtain rfl : numberB = numberA := Except.ok.inj (hleadsB.deviceNumber.symm.trans hb)
  exact ⟨kind, numberB, hleadsA, hleadsB⟩

end Tree

namespace DiskLinks

variable {d : DiskLinks} {start node priority ident name : Text} {number : DeviceNumber}

/-- The path of the link with a name. -/
def linkPath (d : DiskLinks) (name : Text) : Text := PathText.join d.directory name

theorem lookup_eq_some_iff :
    d.lookup start node priority = some ident ↔
      ∃ number, d.sysfs.tree.deviceNumber node = .ok number ∧
        d.Best priority start number ident := by
  unfold lookup
  cases d.sysfs.tree.deviceNumber node with
  | error e => simp
  | ok number => simp [pick_eq_argmin, argmin_eq_some_iff]

/-- The link that answers has the number of the node. -/
theorem number_of_lookup (h : d.lookup start node priority = some ident) :
    ∃ number, d.sysfs.tree.deviceNumber node = .ok number ∧
      d.sysfs.tree.deviceNumber (d.linkPath (start ++ ident)) = .ok number := by
  obtain ⟨number, hnode, ⟨-, hlink⟩, -⟩ := lookup_eq_some_iff.1 h
  exact ⟨number, hnode, hlink⟩

/-- Every link with the number of a node answers for it where its whole name is asked for. -/
theorem lookup_wholeName (hname : name ∈ d.sysfs.entries d.directory)
    (hnode : d.sysfs.tree.deviceNumber node = .ok number)
    (hlink : d.sysfs.tree.deviceNumber (d.linkPath name) = .ok number) :
    d.lookup name node = some [] := by
  refine lookup_eq_some_iff.2 ⟨number, hnode, best_nil_iff.2 ⟨?_, fun other _ => ?_⟩⟩
  · rw [Answers, List.append_nil]
    exact ⟨hname, hlink⟩
  · rw [List.append_nil]
    exact Text.le_append name other

/-- Is every identifier that can be given for a node one of its own? -/
def GivesOwn (d : DiskLinks) (node : Text) : Prop :=
  ∀ start priority ident, d.lookup start node priority = some ident →
    d.sysfs.tree.SameDevice (d.linkPath (start ++ ident)) node

/-- The link that answers for a node has its number, and is the same device exactly if it has its
kind too. All that can be given for a node is its own exactly if each link with its number has its
kind; for what is no special file this means that nothing is given. -/
theorem lookup_sameDevice_iff (d : DiskLinks) (node : Text) :
    (∀ start priority ident, d.lookup start node priority = some ident →
      d.sysfs.tree.deviceNumber (d.linkPath (start ++ ident)) = d.sysfs.tree.deviceNumber node ∧
        (d.sysfs.tree.SameDevice (d.linkPath (start ++ ident)) node ↔
          d.sysfs.tree.kindAt (d.linkPath (start ++ ident)) = d.sysfs.tree.kindAt node ∧
            d.sysfs.tree.kindAt node ≠ none)) ∧
    (d.GivesOwn node ↔
      ∀ name ∈ d.sysfs.entries d.directory, ∀ number,
        d.sysfs.tree.deviceNumber node = .ok number →
          d.sysfs.tree.deviceNumber (d.linkPath name) = .ok number →
            d.sysfs.tree.kindAt (d.linkPath name) = d.sysfs.tree.kindAt node ∧
              d.sysfs.tree.kindAt node ≠ none) ∧
    (d.sysfs.tree.kindAt node = none →
      (d.GivesOwn node ↔ ∀ start priority, d.lookup start node priority = none)) := by
  refine ⟨?_, ⟨?_, ?_⟩, ?_⟩
  · intro start priority ident h
    obtain ⟨number, hnode, hlink⟩ := number_of_lookup h
    exact ⟨hlink.trans hnode.symm, Tree.sameDevice_iff_of_number hlink hnode⟩
  · intro hown name hname number hnode hlink
    have hsame := hown name [] [] (lookup_wholeName hname hnode hlink)
    rw [List.append_nil] at hsame
    exact hsame.kindAt_eq
  · intro hkinds start priority ident h
    obtain ⟨number, hnode, ⟨hmem, hlink⟩, -⟩ := lookup_eq_some_iff.1 h
    exact (Tree.sameDevice_iff_of_number hlink hnode).2 (hkinds _ hmem number hnode hlink)
  · intro hnone
    constructor
    · intro hown start priority
      rw [Option.eq_none_iff_forall_ne_some]
      intro ident h
      exact (hown start priority ident h).kindAt_eq.2 hnone
    · intro hnothing start priority ident h
      rw [hnothing start priority] at h
      cases h

/-! ## A tape and an array of disks -/

/-- A tape and an array of disks have one number, each among those of its kind, and the array has an
identifier. A second link leads to a directory. -/
def tapeAndArray : DiskLinks where
  sysfs := .mounted
    (([("/dev/st0", .device .char ⟨9, 0⟩ 1), ("/dev/md0", .device .block ⟨9, 0⟩ 1),
      ("/dev/disk/by-id/scsi-35000c500a1b2c3d4", .link "../../md0"),
      ("/dev/disk/by-path", .directory true),
      ("/dev/disk/by-id/usb-card", .link "../by-path")] : List (Text × Node)).foldl
        (fun t (path, node) => t.put (Path.ofText path) node) {}) "/sys"
  deviceDir := "/dev"

theorem tapeAndArray_kinds :
    tapeAndArray.sysfs.tree.kindAt "/dev/st0" = some .char ∧
      tapeAndArray.sysfs.tree.kindAt (tapeAndArray.linkPath "scsi-35000c500a1b2c3d4") =
        some .block ∧
      tapeAndArray.sysfs.tree.kindAt "/dev" = none := by
  decide +kernel

/-- The tape is given the identifier of the array, and a directory that of another one. -/
theorem lookup_of_otherDevice :
    tapeAndArray.lookup "scsi-" "/dev/st0" scsiPriority = some ("35000c500a1b2c3d4" : Text) ∧
      ¬ tapeAndArray.sysfs.tree.SameDevice
        (tapeAndArray.linkPath "scsi-35000c500a1b2c3d4") "/dev/st0" ∧
      tapeAndArray.sysfs.tree.kindAt "/dev" = none ∧
      tapeAndArray.lookup "usb-" "/dev" = some ("card" : Text) := by
  obtain ⟨htape, harray, hdirectory⟩ := tapeAndArray_kinds
  refine ⟨by decide +kernel, fun hsame => ?_, hdirectory, by decide +kernel⟩
  have hkinds := hsame.kindAt_eq.1
  rw [harray, htape] at hkinds
  cases hkinds

end DiskLinks
end StorageAtlas
