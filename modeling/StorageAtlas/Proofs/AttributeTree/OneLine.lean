import StorageAtlas.Proofs.DiskLink.Reach
import StorageAtlas.Proofs.Text.Numeral
import StorageAtlas.Proofs.Text.OneLine
import StorageAtlas.Proofs.Tree.RealPath

/-!
Texts on one line. What is read from an attribute is one, whatever the file holds; the
names of a tree need not be. Where they all are, the paths are too that are made from
them or that a lookup ends at.
-/

namespace StorageAtlas

open Text (OneLine)

/-! ## Paths -/

namespace PathText

variable {a b path : Text}

theorem oneLine_join (ha : OneLine a) (hb : OneLine b) : OneLine (join a b) := by
  unfold join
  split
  · exact hb
  · split
    · exact Text.oneLine_append.2 ⟨ha, hb⟩
    · exact Text.oneLine_append.2 ⟨ha, Text.oneLine_cons.2 ⟨by decide, hb⟩⟩

theorem oneLine_baseName (h : OneLine path) : OneLine (baseName path) :=
  h.of_subset (Text.afterLast_subset '/' path)

/-- A slash stands in every path that is not made from an empty one. -/
theorem slash_mem_join (ha : a ≠ []) (b : Text) : '/' ∈ join a b := by
  unfold join
  split
  · exact List.mem_of_head? ‹_›
  · split
    · rename_i h
      simp only [Bool.or_eq_true, List.isEmpty_iff, ha, false_or, decide_eq_true_eq] at h
      exact List.mem_append_left _ (List.mem_of_getLast? h)
    · exact List.mem_append_right _ List.mem_cons_self

end PathText

/-! ## Values by name -/

namespace OrderedMap

variable {α : Type} {p : α → Prop} {m other : OrderedMap α} {pairs : List (Text × α)}

/-- Do all values have a property? -/
def All (p : α → Prop) (m : OrderedMap α) : Prop := ∀ pair ∈ m.pairs, p pair.2

theorem All.get? (h : m.All p) {name : Text} {value : α} (hvalue : m.get? name = some value) :
    p value := by
  obtain ⟨before, after, hpairs, -⟩ := List.lookup_eq_some_iff.1 hvalue
  exact h (name, value) (by simp [hpairs])

theorem All.put (h : m.All p) (name : Text) {value : α} (hvalue : p value) :
    (m.put name value).All p := by
  obtain ⟨pairs⟩ := m
  simp only [All, OrderedMap.put] at h ⊢
  induction pairs with
  | nil => exact List.forall_mem_singleton.2 hvalue
  | cons pair rest ih =>
    obtain ⟨hpair, hrest⟩ := List.forall_mem_cons.1 h
    obtain ⟨n, v⟩ := pair
    unfold putInto
    split
    · exact List.forall_mem_cons.2 ⟨hvalue, hrest⟩
    · exact List.forall_mem_cons.2 ⟨hpair, ih hrest⟩

theorem All.putAll (h : m.All p) (hpairs : ∀ pair ∈ pairs, p pair.2) : (m.putAll pairs).All p := by
  induction pairs generalizing m with
  | nil => exact h
  | cons pair rest ih =>
    obtain ⟨hpair, hrest⟩ := List.forall_mem_cons.1 hpairs
    exact ih (h.put pair.1 hpair) hrest

theorem All.update (h : m.All p) (hother : other.All p) : (m.update other).All p := h.putAll hother

theorem all_ofList (h : ∀ pair ∈ pairs, p pair.2) : (ofList pairs).All p :=
  All.putAll (List.forall_mem_nil _) h

end OrderedMap

/-! ## Trees -/

/-- Are all names in the tree on one line? -/
def Tree.NamesOneLine (t : Tree) : Prop := ∀ name ∈ t.names, OneLine name

instance (t : Tree) : Decidable t.NamesOneLine :=
  inferInstanceAs (Decidable (∀ name ∈ t.names, OneLine name))

theorem Tree.NamesOneLine.of_stands {t : Tree} (h : t.NamesOneLine) {place : Path}
    (hplace : t.Stands place) : ∀ name ∈ place, OneLine name := by
  induction place with
  | nil => exact List.forall_mem_nil _
  | cons name rest ih =>
    have hname : name ∈ t.names := mem_names_iff.2 ⟨rest, mem_children_iff.2 hplace.2⟩
    exact List.forall_mem_cons.2 ⟨h name hname, ih hplace.1⟩

theorem Path.oneLine_text {place : Path} (h : ∀ name ∈ place, OneLine name) :
    OneLine (text place) := by
  cases place with
  | nil => decide
  | cons name rest =>
    refine Text.oneLine_flatMap fun other hother => ?_
    exact Text.oneLine_cons.2 ⟨by decide, h other (List.mem_reverse.1 hother)⟩

namespace AttributeTree

variable {s : AttributeTree} {directory name value : Text}

/-- The first line of a file is one line, whatever follows it. -/
theorem oneLine_read {encoding : Encoding} (h : s.read directory name encoding = some value) :
    OneLine value := by
  obtain ⟨bytes, -, rfl⟩ := Option.map_eq_some_iff.1 h
  exact Text.oneLine_upTo _

theorem oneLine_readMany (s : AttributeTree) (directory : Text) (names : List Text) :
    (s.readMany directory names).All OneLine := by
  refine OrderedMap.all_ofList fun pair hpair => ?_
  obtain ⟨name, -, hname⟩ := List.mem_filterMap.1 hpair
  obtain ⟨value, hvalue, rfl⟩ := Option.map_eq_some_iff.1 hname
  exact oneLine_read hvalue

variable (hnames : s.tree.NamesOneLine)

include hnames

theorem oneLine_of_mem_entries (h : name ∈ s.entries directory) : OneLine name :=
  hnames name (DiskLinks.mem_names_of_mem_entries h)

theorem oneLine_realPath {path : Text} (h : s.realPath directory = some path) : OneLine path := by
  unfold realPath Tree.realPath at h
  cases hfind : s.tree.find directory with
  | error e =>
    rw [hfind] at h
    cases h
  | ok place =>
    rw [hfind] at h
    cases h
    exact Path.oneLine_text (hnames.of_stands (Tree.stands_of_find hfind))

end AttributeTree
end StorageAtlas
