import StorageAtlas.Proofs.DiskLink.BestLink

/-!
World wide names in the names of links. There are two ways to spell one, and a name in
which the word for a part stands does not count. Of the links that count for a disk
the one with the smallest name gives the disk its world wide name.
-/

namespace StorageAtlas

/-- In a list in order, the first text with a value is the smallest one that has a value. -/
theorem findSome?_eq_some_iff_least {α : Type} {texts : List Text} (h : texts.Pairwise (· ≤ ·))
    {f : Text → Option α} {a : α} :
    texts.findSome? f = some a ↔
      ∃ t ∈ texts, f t = some a ∧ ∀ other ∈ texts, f other ≠ none → t ≤ other := by
  have hfirst : ∀ {b}, texts.findSome? f = some b →
      ∃ t ∈ texts, f t = some b ∧ ∀ other ∈ texts, f other ≠ none → t ≤ other := by
    intro b hb
    obtain ⟨before, t, after, rfl, ht, hbefore⟩ := List.findSome?_eq_some_iff.1 hb
    refine ⟨t, by simp, ht, fun other hother hsome => ?_⟩
    rcases List.mem_append.1 hother with hother | hother
    · exact absurd (hbefore other hother) hsome
    · rcases List.mem_cons.1 hother with rfl | hother
      · exact le_refl _
      · exact (List.pairwise_cons.1 (List.pairwise_append.1 h).2.1).1 other hother
  refine ⟨hfirst, ?_⟩
  rintro ⟨t, hmem, ht, hleast⟩
  have hsome : (texts.findSome? f).isSome = true :=
    List.findSome?_isSome_iff.2 ⟨t, hmem, by rw [ht]; rfl⟩
  obtain ⟨b, hb⟩ := Option.isSome_iff_exists.1 hsome
  obtain ⟨t', hmem', ht', hleast'⟩ := hfirst hb
  have hle := hleast t' hmem' (by simp [ht'])
  have hge := hleast' t hmem (by simp [ht])
  obtain rfl : t = t' := le_antisymm hle hge
  rw [hb, ← ht', ht]

namespace DiskLinks

variable {d : DiskLinks} {source : WwnSource} {name wwn disk : Text}

/-! ## Names that spell a world wide name -/

/-- A name spells what follows the character for its type, if this is a type of world wide names, or
what follows the word for them. -/
inductive Spells : WwnSource → Text → Text → Prop where
  | typed {c : Char} (hc : c = '3' ∨ c = '2' ∨ c = '8') (tail : Text) :
      Spells .scsiLinks ("scsi-" ++ c :: tail) ("0x" ++ tail)
  | plain (tail : Text) : Spells .wwnLinks ("wwn-" ++ tail) tail

theorem isWwnType_iff {c : Char} : isWwnType c = true ↔ c = '3' ∨ c = '2' ∨ c = '8' := by
  simp [isWwnType, or_assoc]

/-- The world wide name behind the word for a link of the transport. -/
def typedWwn? : Text → Option Text
  | c :: tail => if isWwnType c then some ("0x" ++ tail) else none
  | [] => none

theorem typedWwn?_eq_some_iff {rest : Text} :
    typedWwn? rest = some wwn ↔ Spells .scsiLinks ("scsi-" ++ rest) wwn := by
  constructor
  · intro h
    cases rest with
    | nil => cases h
    | cons c tail =>
      simp only [typedWwn?, Option.ite_none_right_eq_some, Option.some.injEq] at h
      obtain ⟨hc, rfl⟩ := h
      exact .typed (isWwnType_iff.1 hc) tail
  · generalize hname : ("scsi-" ++ rest : Text) = name
    rintro ⟨hc, tail⟩
    obtain rfl := List.append_cancel_left hname
    exact if_pos (isWwnType_iff.2 hc)

theorem ofStart_eq_some_iff (start : Text) (f : Text → Option Text) :
    (if Text.startsWith name start then f (name.drop start.length) else none) = some wwn ↔
      ∃ rest, name = start ++ rest ∧ f rest = some wwn := by
  by_cases hstart : Text.startsWith name start = true
  · obtain ⟨rest, rfl⟩ := Text.startsWith_iff.1 hstart
    rw [if_pos hstart, List.drop_left]
    constructor
    · intro h
      exact ⟨rest, rfl, h⟩
    · rintro ⟨other, hother, h⟩
      rwa [List.append_cancel_left hother]
  · rw [if_neg hstart]
    refine iff_of_false (Option.some_ne_none wwn).symm ?_
    rintro ⟨rest, hname, -⟩
    exact hstart (Text.startsWith_iff.2 ⟨rest, hname⟩)

theorem wwnInName?_eq_some_iff :
    wwnInName? source name = some wwn ↔ ¬ ("part" : Text) <:+: name ∧ Spells source name wwn := by
  rw [← Text.holds_iff_isInfix, wwnInName?.eq_def]
  by_cases hpart : Text.holds "part" name = true
  · rw [if_pos hpart]
    exact iff_of_false (Option.some_ne_none wwn).symm fun h => h.1 hpart
  · rw [if_neg hpart, and_iff_right hpart]
    cases source with
    | scsiLinks =>
      refine (ofStart_eq_some_iff "scsi-" typedWwn?).trans ?_
      constructor
      · rintro ⟨rest, rfl, h⟩
        exact typedWwn?_eq_some_iff.1 h
      · rintro ⟨hc, tail⟩
        exact ⟨_, rfl, typedWwn?_eq_some_iff.2 (.typed hc tail)⟩
    | wwnLinks =>
      refine (ofStart_eq_some_iff "wwn-" some).trans ?_
      constructor
      · rintro ⟨rest, rfl, ⟨⟩⟩
        exact .plain wwn
      · rintro ⟨tail⟩
        exact ⟨_, rfl, rfl⟩

/-! ## The link that counts for a disk -/

/-- A link in the directory whose name spells a world wide name and whose target names a disk. -/
structure NamesDisk (d : DiskLinks) (source : WwnSource) (disk name wwn : Text) : Prop where
  listed : name ∈ d.sysfs.entries d.directory
  spells : Spells source name wwn
  points : ∃ target,
    d.sysfs.tree.nodeAt (PathText.join d.directory name) false = .ok (.link target) ∧
      target ≠ [] ∧ PathText.baseName target = disk

/-- Such a link without the word for a part anywhere in its name. -/
def Counts (d : DiskLinks) (source : WwnSource) (disk name wwn : Text) : Prop :=
  d.NamesDisk source disk name wwn ∧ ¬ ("part" : Text) <:+: name

theorem readLink_eq_some_iff {s : AttributeTree} {path target : Text} :
    s.readLink path = some target ↔ s.tree.nodeAt path false = .ok (.link target) := by
  unfold AttributeTree.readLink Tree.readLink
  cases s.tree.nodeAt path false with
  | error e => simp [Except.toOption]
  | ok node => cases node <;> simp [Except.toOption]

theorem wwnOf_eq_some_iff : d.wwnOf source name = some (disk, wwn) ↔
    wwnInName? source name = some wwn ∧
      ∃ target, d.sysfs.readLink (PathText.join d.directory name) = some target ∧
        target ≠ [] ∧ PathText.baseName target = disk := by
  simp only [wwnOf, Option.bind_eq_bind, Option.bind_eq_some_iff]
  constructor
  · rintro ⟨spelled, hspelled, target, htarget, h⟩
    split at h
    · cases h
    · rename_i hne
      cases h
      exact ⟨hspelled, target, htarget, fun e => hne (List.isEmpty_iff.2 e), rfl⟩
  · rintro ⟨hspelled, target, htarget, hne, rfl⟩
    refine ⟨wwn, hspelled, target, htarget, ?_⟩
    rw [if_neg fun e => hne (List.isEmpty_iff.1 e)]

/-- What the name of a link says about one disk. -/
def wwnFor? (d : DiskLinks) (source : WwnSource) (disk name : Text) : Option Text :=
  (d.wwnOf source name).bind fun (k, wwn) => if disk = k then some wwn else none

theorem counts_iff : d.Counts source disk name wwn ↔
    name ∈ d.names ∧ d.wwnFor? source disk name = some wwn := by
  have hfor : d.wwnFor? source disk name = some wwn ↔
      d.wwnOf source name = some (disk, wwn) := by
    simp [wwnFor?, Option.bind_eq_some_iff]
  rw [hfor, wwnOf_eq_some_iff, wwnInName?_eq_some_iff, mem_names_iff]
  simp only [readLink_eq_some_iff]
  constructor
  · rintro ⟨⟨hlisted, hspells, hpoints⟩, hpart⟩
    exact ⟨hlisted, ⟨hpart, hspells⟩, hpoints⟩
  · rintro ⟨hlisted, ⟨hpart, hspells⟩, hpoints⟩
    exact ⟨⟨hlisted, hspells, hpoints⟩, hpart⟩

theorem find?_wwnMap : (d.wwnMap source).find? disk =
    d.names.findSome? (d.wwnFor? source (PathText.baseName disk)) := by
  unfold WwnMap.find? wwnMap
  induction d.names with
  | nil => rfl
  | cons name rest ih =>
    rw [List.filterMap_cons, List.findSome?_cons, ← ih, wwnFor?]
    cases d.wwnOf source name with
    | none => rfl
    | some entry =>
      obtain ⟨k, wwn⟩ := entry
      by_cases hk : PathText.baseName disk = k
      · simp [hk]
      · have hbeq : (PathText.baseName disk == k) = false := beq_false_of_ne hk
        simp [List.lookup_cons, hk, hbeq]

/-- Is the answer for a disk the one of the smallest name among the links that count for it, and
nothing only if there are none? -/
def IsSmallest (d : DiskLinks) (source : WwnSource) (disk : Text) (answer : Option Text) : Prop :=
  (∀ wwn, answer = some wwn ↔ ∃ name, d.Counts source disk name wwn ∧
    ∀ other wwn', d.Counts source disk other wwn' → name ≤ other) ∧
  (answer = none ↔ ∀ name wwn, ¬ d.Counts source disk name wwn)

theorem isSmallest_find? (d : DiskLinks) (source : WwnSource) (disk : Text) :
    d.IsSmallest source (PathText.baseName disk) ((d.wwnMap source).find? disk) := by
  rw [find?_wwnMap]
  constructor
  · intro wwn
    rw [findSome?_eq_some_iff_least d.pairwise_names]
    constructor
    · rintro ⟨name, hname, hwwn, hleast⟩
      refine ⟨name, counts_iff.2 ⟨hname, hwwn⟩, fun other wwn' hother => ?_⟩
      obtain ⟨hmem, hsome⟩ := counts_iff.1 hother
      exact hleast other hmem (by simp [hsome])
    · rintro ⟨name, hcounts, hleast⟩
      obtain ⟨hname, hwwn⟩ := counts_iff.1 hcounts
      refine ⟨name, hname, hwwn, fun other hother hsome => ?_⟩
      obtain ⟨wwn', hwwn'⟩ := Option.ne_none_iff_exists'.1 hsome
      exact hleast other wwn' (counts_iff.2 ⟨hother, hwwn'⟩)
  · rw [List.findSome?_eq_none_iff]
    constructor
    · intro hnone name wwn hcounts
      obtain ⟨hname, hwwn⟩ := counts_iff.1 hcounts
      rw [hnone name hname] at hwwn
      cases hwwn
    · intro hnone name hname
      rw [Option.eq_none_iff_forall_ne_some]
      intro wwn hwwn
      exact hnone name wwn (counts_iff.2 ⟨hname, hwwn⟩)

end DiskLinks
end StorageAtlas
