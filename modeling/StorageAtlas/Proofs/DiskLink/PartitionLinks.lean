import StorageAtlas.Proofs.DiskLink.WorldWideName

/-!
Which links are left out when world wide names are taken. Links to partitions are,
whose names end in the word for a part and a number, and so are all others in which
the word stands anywhere. A disk all of whose links are such has no world wide name.
-/

namespace StorageAtlas.DiskLinks

variable {d : DiskLinks} {source : WwnSource} {name wwn disk : Text}

/-- The name of a link to a partition ends in its number. -/
def IsPartition (name : Text) : Prop :=
  ∃ whole number, Text.isAsciiDigits number = true ∧ name = whole ++ "-part" ++ number

theorem IsPartition.part_isInfix (h : IsPartition name) : ("part" : Text) <:+: name := by
  obtain ⟨whole, number, -, rfl⟩ := h
  exact ⟨whole ++ "-", number, by simp⟩

theorem IsPartition.isDigit_of_getLast? {c : Char} (h : IsPartition name)
    (hlast : name.getLast? = some c) : c.isDigit = true := by
  obtain ⟨whole, number, hnumber, rfl⟩ := h
  simp only [Text.isAsciiDigits, Bool.and_eq_true, Bool.not_eq_true', List.isEmpty_eq_false_iff,
    List.all_eq_true] at hnumber
  rw [List.getLast?_append_of_ne_nil _ hnumber.1] at hlast
  exact hnumber.2 c (List.mem_of_getLast? hlast)

/-- The world wide name that the first question for a disk is answered with. -/
def firstWwn (d : DiskLinks) (source : WwnSource) (disk : Text) : Option Text :=
  (({} : WwnSnapshots).find d source disk).1

theorem firstWwn_eq (d : DiskLinks) (source : WwnSource) (disk : Text) :
    d.firstWwn source disk = (d.wwnMap source).find? disk := by
  cases source <;> rfl

theorem firstWwn_eq_none_iff : d.firstWwn source disk = none ↔
    ∀ name wwn, ¬ d.Counts source (PathText.baseName disk) name wwn := by
  rw [firstWwn_eq]
  exact (d.isSmallest_find? source disk).2

/-- A disk is without a world wide name exactly if the word for a part stands in the name of each
link that spells one for it. Links to partitions never count. The links to the disk itself get it a
world wide name exactly if there is none or if one of all its links is free of the word. -/
theorem firstWwn_isNone_iff (d : DiskLinks) (source : WwnSource) (disk : Text) :
    (d.firstWwn source disk = none ↔
      ∀ name wwn, d.NamesDisk source (PathText.baseName disk) name wwn →
        ("part" : Text) <:+: name) ∧
    (∀ name wwn, IsPartition name → ¬ d.Counts source (PathText.baseName disk) name wwn) ∧
    ((∀ name wwn, d.NamesDisk source (PathText.baseName disk) name wwn → ¬ IsPartition name →
        d.firstWwn source disk ≠ none) ↔
      ((∃ name wwn, d.NamesDisk source (PathText.baseName disk) name wwn ∧ ¬ IsPartition name) →
        ∃ name wwn, d.NamesDisk source (PathText.baseName disk) name wwn ∧
          ¬ ("part" : Text) <:+: name)) := by
  refine ⟨?_, ?_, ?_⟩
  · rw [firstWwn_eq_none_iff]
    simp only [Counts, not_and, not_not]
  · rintro name wwn hpartition ⟨-, hpart⟩
    exact hpart hpartition.part_isInfix
  · have hfound : d.firstWwn source disk ≠ none ↔
        ∃ name wwn, d.Counts source (PathText.baseName disk) name wwn := by
      rw [Ne, firstWwn_eq_none_iff]
      simp
    rw [hfound]
    constructor
    · rintro hall ⟨name, wwn, hlink, hwhole⟩
      exact hall name wwn hlink hwhole
    · intro hsome name wwn hlink hwhole
      exact hsome ⟨name, wwn, hlink, hwhole⟩

/-! ## A name with the word in it -/

/-- A disk whose only link has its name as a target, in which the word stands. -/
def namedDisk : DiskLinks where
  sysfs := .mounted
    (([("/dev/sda", .device .block ⟨8, 0⟩ 1),
      ("/dev/disk/by-id/scsi-8iqn.2001-04.com.example:department", .link "../../sda")] :
        List (Text × Node)).foldl (fun t (path, node) => t.put (Path.ofText path) node) {}) "/sys"
  deviceDir := "/dev"

theorem namesDisk_namedDisk : namedDisk.NamesDisk .scsiLinks "sda"
    ("scsi-" ++ "8iqn.2001-04.com.example:department")
    ("0x" ++ "iqn.2001-04.com.example:department") where
  listed := by decide +kernel
  spells := .typed (.inr (.inr rfl)) "iqn.2001-04.com.example:department"
  points := ⟨"../../sda", by decide +kernel, by decide, by decide⟩

/-- This disk has no world wide name, although its link is not one to a partition. -/
theorem firstWwn_of_namedDisk :
    namedDisk.NamesDisk .scsiLinks "sda" ("scsi-" ++ "8iqn.2001-04.com.example:department")
      ("0x" ++ "iqn.2001-04.com.example:department") ∧
    ¬ IsPartition ("scsi-" ++ "8iqn.2001-04.com.example:department") ∧
    namedDisk.firstWwn .scsiLinks "sda" = none := by
  refine ⟨namesDisk_namedDisk, fun hpartition => ?_, by decide +kernel⟩
  have hlast : ("scsi-" ++ "8iqn.2001-04.com.example:department" : Text).getLast? = some 't' := by
    decide
  cases hpartition.isDigit_of_getLast? hlast

end StorageAtlas.DiskLinks
