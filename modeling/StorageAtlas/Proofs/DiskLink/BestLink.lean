import Mathlib.Data.List.MinMax
import Mathlib.Data.List.TakeWhile
import StorageAtlas.Proofs.DiskLink.SameNodes
import StorageAtlas.Proofs.Text.Order

/-!
Which link answers for a node. The search goes through the links in the order of
their names and stops at one whose identifier begins with the most preferred
character; it keeps the best one so far until then. What it gives is the best one
of all, the first by name of equals, as if it had never stopped.
-/

namespace StorageAtlas.DiskLinks

variable {d : DiskLinks} {start node priority ident : Text} {number : DeviceNumber}

/-! ## Preferences -/

/-- How many characters are preferred to the first one of an identifier: all of them, if that is not
a preferred one or there is none. -/
def place (priority ident : Text) : Nat := (priority.takeWhile fun c => ident.head? ≠ some c).length

theorem place_nil (priority : Text) : place priority [] = priority.length := by
  rw [place, List.takeWhile_eq_self_iff.2 (by simp)]

theorem rank_eq_place (priority ident : Text) : rank priority ident = place priority ident := by
  cases ident with
  | nil => rw [rank, place_nil]
  | cons c tail =>
    rw [rank, place, List.head?_cons]
    induction priority with
    | nil => rfl
    | cons p rest ih =>
      rw [List.idxOf_cons, List.takeWhile_cons, ih]
      by_cases hp : p = c
      · simp [hp]
      · have hc : c ≠ p := fun e => hp e.symm
        have hbeq : (p == c) = false := beq_false_of_ne hp
        simp [hbeq, hc]

/-- The search stops at an identifier to which no other is preferred. -/
theorem stops_iff :
    (priority.isEmpty || ident.head? = priority.head?) = true ↔ place priority ident = 0 := by
  cases priority with
  | nil => simp [place]
  | cons p rest =>
    rw [place, List.takeWhile_cons]
    by_cases hp : ident.head? = some p
    · simp [hp]
    · simp [hp]

/-! ## The search among identifiers -/

/-- What is kept of the best one so far and the next one: the next one only if it is preferred. -/
def better (priority : Text) : Option Text → Text → Option Text :=
  List.argAux fun a b => place priority a < place priority b

theorem better_some (best : Text) :
    better priority (some best) ident =
      if place priority ident < place priority best then some ident else some best := rfl

theorem mem_better {best : Option Text} {kept : Text} (h : kept ∈ better priority best ident) :
    kept = ident ∨ kept ∈ best := by
  cases best with
  | none => exact .inl (Option.some.inj h).symm
  | some b =>
    rw [better_some] at h
    split at h
    · exact .inl (Option.some.inj h).symm
    · exact .inr h

/-- Nothing takes the place of an identifier to which no other is preferred. -/
theorem foldl_better_of_place_zero (h : place priority ident = 0) (idents : List Text) :
    idents.foldl (better priority) (some ident) = some ident := by
  induction idents with
  | nil => rfl
  | cons other rest ih =>
    have hstays : ¬ place priority other < place priority ident := by omega
    rw [List.foldl_cons, better_some, if_neg hstays]
    exact ih

theorem pick_cons (best : Option Text) (rest : List Text) :
    pick priority best (ident :: rest) =
      if place priority ident = 0 then some ident
      else pick priority (better priority best ident) rest := by
  rw [pick.eq_def]
  simp only [stops_iff, rank_eq_place]
  cases best with
  | none => rfl
  | some b =>
    rw [better_some]
    by_cases hlt : place priority ident < place priority b
    · simp only [if_pos hlt]
    · simp only [if_neg hlt]

/-- As long as something is preferred to the best one so far, to go on is to go through all. -/
theorem pick_eq_foldl {best : Option Text} (hbest : ∀ b ∈ best, place priority b ≠ 0)
    (idents : List Text) :
    pick priority best idents = idents.foldl (better priority) best := by
  induction idents generalizing best with
  | nil => rfl
  | cons ident rest ih =>
    rw [pick_cons, List.foldl_cons]
    by_cases hstop : place priority ident = 0
    · have htaken : better priority best ident = some ident := by
        cases best with
        | none => rfl
        | some b =>
          have hb : place priority b ≠ 0 := hbest b rfl
          rw [better_some, if_pos (by omega)]
      rw [if_pos hstop, htaken, foldl_better_of_place_zero hstop]
    · rw [if_neg hstop]
      apply ih
      intro kept hkept
      rcases mem_better hkept with rfl | hkept
      · exact hstop
      · exact hbest kept hkept

/-- Stopping early changes nothing: the first of the best is found. -/
theorem pick_eq_argmin (priority : Text) (idents : List Text) :
    pick priority none idents = idents.argmin (place priority) :=
  pick_eq_foldl (by simp) idents

/-- Neither nothing nor a character that is not preferred goes before one that is. -/
example : pick "32" none [[], "2b", "2c", "A"] = some ("2b" : Text) := by decide

/-! ## The links that answer -/

/-- The link named by `start` and an identifier leads to the device number. -/
def Answers (d : DiskLinks) (start : Text) (number : DeviceNumber) (ident : Text) : Prop :=
  start ++ ident ∈ d.sysfs.entries d.directory ∧
    d.sysfs.tree.deviceNumber (PathText.join d.directory (start ++ ident)) = .ok number

/-- What follows `start` in the name of a link to the device number. -/
def identIn? (d : DiskLinks) (start : Text) (number : DeviceNumber) (name : Text) : Option Text :=
  if start.isPrefixOf name then
    match d.sysfs.tree.deviceNumber (PathText.join d.directory name) with
    | .ok n => if n = number then some (name.drop start.length) else none
    | .error _ => none
  else none

theorem identsOf_eq (d : DiskLinks) (start : Text) (number : DeviceNumber) :
    d.identsOf start number = d.names.filterMap (d.identIn? start number) := rfl

theorem identIn?_eq_some_iff {name : Text} :
    d.identIn? start number name = some ident ↔
      name = start ++ ident ∧
        d.sysfs.tree.deviceNumber (PathText.join d.directory name) = .ok number := by
  unfold identIn?
  by_cases hstart : start.isPrefixOf name
  · obtain ⟨tail, rfl⟩ := List.isPrefixOf_iff_prefix.1 hstart
    rw [if_pos hstart, List.drop_left]
    cases d.sysfs.tree.deviceNumber (PathText.join d.directory (start ++ tail)) with
    | error e => simp
    | ok n =>
      by_cases hn : n = number
      · simp [hn]
      · simp [hn]
  · rw [if_neg hstart]
    have hname : name ≠ start ++ ident := by
      rintro rfl
      exact hstart (List.isPrefixOf_iff_prefix.2 (List.prefix_append start ident))
    simp [hname]

theorem mem_names_iff {name : Text} : name ∈ d.names ↔ name ∈ d.sysfs.entries d.directory := by
  rw [names_eq_sortNames]
  exact mem_sortBy

theorem pairwise_names (d : DiskLinks) : d.names.Pairwise (· ≤ ·) := by
  rw [names_eq_sortNames]
  have hsorted := pairwise_sortBy Text.le_total Text.le_trans (d.sysfs.entries d.directory)
  exact hsorted.imp fun h => (Text.le_iff _ _).1 h

theorem mem_identsOf_iff : ident ∈ d.identsOf start number ↔ d.Answers start number ident := by
  rw [identsOf_eq, List.mem_filterMap, Answers]
  constructor
  · rintro ⟨name, hname, hident⟩
    obtain ⟨rfl, hnumber⟩ := identIn?_eq_some_iff.1 hident
    exact ⟨mem_names_iff.1 hname, hnumber⟩
  · rintro ⟨hname, hnumber⟩
    exact ⟨start ++ ident, mem_names_iff.2 hname, identIn?_eq_some_iff.2 ⟨rfl, hnumber⟩⟩

/-- The identifiers come in the order of the names of their links. -/
theorem pairwise_identsOf (d : DiskLinks) (start : Text) (number : DeviceNumber) :
    (d.identsOf start number).Pairwise fun a b => start ++ a ≤ start ++ b := by
  rw [identsOf_eq]
  refine d.pairwise_names.filterMap _ ?_
  intro name name' hle a ha a' ha'
  obtain ⟨rfl, -⟩ := identIn?_eq_some_iff.1 ha
  obtain ⟨rfl, -⟩ := identIn?_eq_some_iff.1 ha'
  exact hle

/-! ## The best link -/

/-- A link that answers, and to whose identifier that of no other link that answers is preferred. Among
those of equal preference it has the smallest name. -/
def Best (d : DiskLinks) (priority start : Text) (number : DeviceNumber) (ident : Text) : Prop :=
  d.Answers start number ident ∧ ∀ other, d.Answers start number other →
    place priority ident < place priority other ∨
      place priority ident = place priority other ∧ start ++ ident ≤ start ++ other

theorem Best.unique {other : Text} (h : d.Best priority start number ident)
    (h' : d.Best priority start number other) : ident = other := by
  have hle := h.2 other h'.1
  have hge := h'.2 ident h.1
  rcases hle with hlt | ⟨heq, hle⟩
  · rcases hge with hgt | ⟨heq, -⟩
    · omega
    · omega
  · rcases hge with hgt | ⟨-, hge⟩
    · omega
    · exact List.append_cancel_left (le_antisymm hle hge)

/-- In a list in order what stands first comes first. -/
theorem rel_of_idxOf_le {α : Type} [DecidableEq α] {r : α → α → Prop} (hrefl : ∀ a, r a a)
    {l : List α} (h : l.Pairwise r) {a b : α} (ha : a ∈ l) (hb : b ∈ l)
    (hle : l.idxOf a ≤ l.idxOf b) : r a b := by
  rcases Nat.lt_or_eq_of_le hle with hlt | hsame
  · have hr := List.pairwise_iff_getElem.1 h _ _ (List.idxOf_lt_length_of_mem ha)
      (List.idxOf_lt_length_of_mem hb) hlt
    rwa [List.getElem_idxOf, List.getElem_idxOf] at hr
  · rw [(List.idxOf_inj ha).1 hsame]
    exact hrefl b

theorem best_of_argmin (h : (d.identsOf start number).argmin (place priority) = some ident) :
    d.Best priority start number ident := by
  obtain ⟨hmem, hplace, hfirst⟩ := List.mem_argmin_iff.1 h
  refine ⟨mem_identsOf_iff.1 hmem, fun other hother => ?_⟩
  have hother := mem_identsOf_iff.2 hother
  rcases Nat.lt_or_eq_of_le (hplace other hother) with hlt | heq
  · exact .inl hlt
  · refine .inr ⟨heq, ?_⟩
    exact rel_of_idxOf_le (fun a => le_refl (start ++ a)) (d.pairwise_identsOf start number) hmem
      hother (hfirst other hother heq.ge)

theorem argmin_eq_some_iff :
    (d.identsOf start number).argmin (place priority) = some ident ↔
      d.Best priority start number ident := by
  refine ⟨best_of_argmin, fun h => ?_⟩
  cases hfound : (d.identsOf start number).argmin (place priority) with
  | none =>
    have hempty := List.argmin_eq_none.1 hfound
    have hmem := mem_identsOf_iff.2 h.1
    rw [hempty] at hmem
    cases hmem
  | some other => rw [(best_of_argmin hfound).unique h]

/-- Without a preference the name alone counts. -/
theorem best_nil_iff :
    d.Best [] start number ident ↔ d.Answers start number ident ∧
      ∀ other, d.Answers start number other → start ++ ident ≤ start ++ other := by
  simp [Best, place]

/-- A look-up gives nothing exactly if the node cannot be found or no link with this start leads to its
device number. Otherwise it gives the identifier of the best such link, which is the one with the
smallest name if nothing is preferred, and what a search through all of them would keep. -/
theorem lookup_bestLink (d : DiskLinks) (start node priority : Text) :
    (d.lookup start node priority = none ↔
      ¬ ∃ number ident, d.sysfs.tree.deviceNumber node = .ok number ∧
        d.Answers start number ident) ∧
    (∀ ident, d.lookup start node priority = some ident ↔
      ∃ number, d.sysfs.tree.deviceNumber node = .ok number ∧
        d.Best priority start number ident) ∧
    (∀ number ident, d.Best [] start number ident ↔ d.Answers start number ident ∧
      ∀ other, d.Answers start number other → start ++ ident ≤ start ++ other) ∧
    ∀ number, d.sysfs.tree.deviceNumber node = .ok number →
      d.lookup start node priority = (d.identsOf start number).argmin (place priority) := by
  cases hnode : d.sysfs.tree.deviceNumber node with
  | error e => simp [lookup, hnode, best_nil_iff]
  | ok number =>
    have hlookup : d.lookup start node priority =
        (d.identsOf start number).argmin (place priority) := by
      simp only [lookup, hnode, pick_eq_argmin]
    refine ⟨?_, fun ident => ?_, fun _ _ => best_nil_iff, ?_⟩
    · rw [hlookup, List.argmin_eq_none, List.eq_nil_iff_forall_not_mem]
      simp [mem_identsOf_iff]
    · rw [hlookup, argmin_eq_some_iff]
      simp
    · rintro _ ⟨rfl⟩
      exact hlookup

end StorageAtlas.DiskLinks
