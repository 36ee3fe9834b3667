import Mathlib.Data.List.Basic
import StorageAtlas.AttributeTree
import StorageAtlas.Proofs.Tree.RealPath

/-!
Attribute trees with the same content at two mount points. Every path that is
built from a root by going down, or from a place below it, has a counterpart,
and the same is read at both.
-/

namespace StorageAtlas

namespace PathText

/-- A path that begins where it is joined to another, and has no part that leads up. -/
def IsDescent (path : Text) : Prop :=
  path.head? ≠ some '/' ∧ ['.', '.'] ∉ Text.splitOn '/' path

instance (path : Text) : Decidable (IsDescent path) :=
  inferInstanceAs (Decidable (path.head? ≠ some '/' ∧ ['.', '.'] ∉ Text.splitOn '/' path))

theorem isDescent_of_not_mem {name : Text} (h : '/' ∉ name) (hdots : name ≠ ['.', '.']) :
    IsDescent name := by
  refine ⟨fun he => h (List.mem_of_head? he), ?_⟩
  rw [Text.splitOn_of_not_mem h, List.mem_singleton]
  exact Ne.symm hdots

theorem isDescent_of_isFileName {name : Text} (h : Path.IsFileName name) : IsDescent name :=
  isDescent_of_not_mem h.2.2.2 h.2.2.1

/-- Joining descents to a path that is not empty puts one slash between them. -/
theorem exists_join {path : Text} (hne : path ≠ []) :
    ∃ before, (Text.splitOn '/' path = Text.splitOn '/' before ∨
        Text.splitOn '/' path = Text.splitOn '/' before ++ [[]]) ∧
      ∀ name : Text, name.head? ≠ some '/' → join path name = before ++ '/' :: name := by
  by_cases hlast : path.getLast? = some '/'
  · obtain ⟨before, rfl⟩ := List.getLast?_eq_some_iff.1 hlast
    refine ⟨before, .inr (Text.splitOn_append_sep '/' before []), fun name hname => ?_⟩
    simp [join, hname]
  · exact ⟨path, .inl rfl, fun name hname => by simp [join, hname, hne, hlast]⟩

/-- What stands before the last slash does not matter for joining. -/
theorem join_front (front below : Text) {name : Text} (hname : name.head? ≠ some '/') :
    join (front ++ '/' :: below) name = front ++ '/' :: join below name := by
  by_cases hne : below = []
  · subst hne
    simp [join, hname]
  · have hlast : (front ++ '/' :: below).getLast? = below.getLast? := by
      rw [List.getLast?_append, List.getLast?_cons]
      cases hb : below.getLast? with
      | none => exact absurd (List.getLast?_eq_none_iff.1 hb) hne
      | some c => rfl
    by_cases hslash : below.getLast? = some '/'
    · simp [join, hname, hlast, hslash]
    · simp [join, hname, hlast, hslash, hne]

theorem join_ne_nil {path name : Text} (hne : path ≠ []) (hname : name.head? ≠ some '/') :
    join path name ≠ [] := by
  obtain ⟨before, -, hjoin⟩ := exists_join hne
  rw [hjoin name hname]
  simp

/-- Joining descents brings no part that leads up. -/
theorem not_mem_splitOn_join {path name : Text} (hpath : ['.', '.'] ∉ Text.splitOn '/' path)
    (hname : IsDescent name) : ['.', '.'] ∉ Text.splitOn '/' (join path name) := by
  by_cases hne : path = []
  · subst hne
    have hjoin : join [] name = name := by simp [join, hname.1]
    rw [hjoin]
    exact hname.2
  · obtain ⟨before, hparts, hjoin⟩ := exists_join hne
    rw [hjoin name hname.1, Text.splitOn_append_sep, List.mem_append, not_or]
    refine ⟨fun hmem => hpath ?_, hname.2⟩
    rcases hparts with hparts | hparts
    · exact hparts ▸ hmem
    · exact hparts ▸ List.mem_append_left _ hmem

/-- Joining several paths is joining the first and then the rest. -/
theorem joinAll_cons (path name : Text) (rest : List Text) :
    joinAll path (name :: rest) = joinAll (join path name) rest := rfl

theorem joinAll_front (front below : Text) {names : List Text}
    (hnames : ∀ name ∈ names, IsDescent name) :
    joinAll (front ++ '/' :: below) names = front ++ '/' :: joinAll below names := by
  induction names generalizing below with
  | nil => rfl
  | cons name rest ih =>
    obtain ⟨hname, hrest⟩ := List.forall_mem_cons.1 hnames
    rw [joinAll_cons, joinAll_cons, join_front front below hname.1, ih _ hrest]

theorem not_mem_splitOn_joinAll {path : Text} (hpath : ['.', '.'] ∉ Text.splitOn '/' path)
    {names : List Text} (hnames : ∀ name ∈ names, IsDescent name) :
    ['.', '.'] ∉ Text.splitOn '/' (joinAll path names) := by
  induction names generalizing path with
  | nil => exact hpath
  | cons name rest ih =>
    obtain ⟨hname, hrest⟩ := List.forall_mem_cons.1 hnames
    exact ih (not_mem_splitOn_join hpath hname) hrest

theorem joinAll_ne_nil {path : Text} (hpath : path ≠ []) {names : List Text}
    (hnames : ∀ name ∈ names, IsDescent name) : joinAll path names ≠ [] := by
  induction names generalizing path with
  | nil => exact hpath
  | cons name rest ih =>
    obtain ⟨hname, hrest⟩ := List.forall_mem_cons.1 hnames
    exact ih (join_ne_nil hpath hname.1) hrest

/-- A root is the slash, or has none at its end. -/
def IsRoot (path : Text) : Prop := path = ['/'] ∨ path ≠ [] ∧ path.getLast? ≠ some '/'

theorem isRoot_trimRoot (path : Text) : IsRoot (trimRoot path) := by
  have hend : (Text.dropEndWhile (· = '/') path).getLast? ≠ some '/' := by
    intro hlast
    rw [Text.dropEndWhile, List.getLast?_reverse] at hlast
    have hnot := List.head?_dropWhile_not (fun c => decide (c = '/')) path.reverse
    rw [hlast] at hnot
    simp at hnot
  unfold trimRoot
  split
  · exact .inl rfl
  · rename_i hne
    exact .inr ⟨hne, hend⟩

end PathText

namespace AttributeTree

/-- Two attribute trees with the same content, at the places `r` and `q` of their trees. No link is
on the way to a root, and none leads out from below it. -/
structure Copies (s s' : AttributeTree) (r q : Path) : Prop where
  relocated : Tree.Relocated s.tree r s'.tree q
  links : s.tree.LinksStay r
  isRoot : PathText.IsRoot s.root
  isRoot' : PathText.IsRoot s'.root
  leads : s.tree.LeadsTo s.root r
  leads' : s'.tree.LeadsTo s'.root q
  names : s.tree.NamesFiles
  names' : s'.tree.NamesFiles

/-- Paths to one place below both roots: texts that lead to the roots, and behind them the same way,
which does not lead out. -/
structure Counterparts (s s' : AttributeTree) (r q : Path) (path path' : Text) : Prop where
  ex : ∃ front front' below, s.tree.LeadsTo front r ∧ s'.tree.LeadsTo front' q ∧
    ¬ s.tree.Leaves r [] (Text.splitOn '/' below) ∧
    path = front ++ '/' :: below ∧ path' = front' ++ '/' :: below

variable {s s' : AttributeTree} {r q : Path} {path path' : Text}

/-- What stands behind a root is behind a text that leads to it and a slash. -/
theorem exists_front {t : Tree} {root : Text} {place : Path} (hroot : PathText.IsRoot root)
    (h : t.LeadsTo root place) :
    ∃ front, t.LeadsTo front place ∧
      ∀ name : Text, name.head? ≠ some '/' → PathText.join root name = front ++ '/' :: name := by
  rcases hroot with rfl | ⟨hne, hlast⟩
  · refine ⟨[], ?_, fun name hname => by simp [PathText.join, hname]⟩
    exact h
  · exact ⟨root, h, fun name hname => by simp [PathText.join, hname, hne, hlast]⟩

namespace Copies

/-- Going down does not lead out where the way before it does not. -/
theorem not_leaves_join (c : Copies s s' r q) {below name : Text}
    (hbelow : ¬ s.tree.Leaves r [] (Text.splitOn '/' below)) (hname : PathText.IsDescent name) :
    ¬ s.tree.Leaves r [] (Text.splitOn '/' (PathText.join below name)) := by
  have hdown := Tree.not_leaves_of_not_mem c.links hname.2
  by_cases hne : below = []
  · subst hne
    have hjoin : PathText.join [] name = name := by simp [PathText.join, hname.1]
    rw [hjoin]
    exact hdown []
  · obtain ⟨before, hparts, hjoin⟩ := PathText.exists_join hne
    rw [hjoin name hname.1, Text.splitOn_append_sep]
    intro hleaves
    have hbefore := hleaves.of_append hdown
    rcases hparts with hparts | hparts
    · exact hbelow (hparts ▸ hbefore)
    · exact hbelow (hparts ▸ hbefore.append [[]])

theorem join (c : Copies s s' r q) (h : Counterparts s s' r q path path') {name : Text}
    (hname : PathText.IsDescent name) :
    Counterparts s s' r q (PathText.join path name) (PathText.join path' name) := by
  obtain ⟨front, front', below, hf, hf', hbelow, rfl, rfl⟩ := h.ex
  rw [PathText.join_front front below hname.1, PathText.join_front front' below hname.1]
  exact ⟨front, front', _, hf, hf', c.not_leaves_join hbelow hname, rfl, rfl⟩

theorem joinAll (c : Copies s s' r q) (h : Counterparts s s' r q path path') {names : List Text}
    (hnames : ∀ name ∈ names, PathText.IsDescent name) :
    Counterparts s s' r q (PathText.joinAll path names) (PathText.joinAll path' names) := by
  induction names generalizing path path' with
  | nil => exact h
  | cons name rest ih =>
    obtain ⟨hname, hrest⟩ := List.forall_mem_cons.1 hnames
    rw [PathText.joinAll_cons, PathText.joinAll_cons]
    exact ih (c.join h hname) hrest

theorem filePath (c : Copies s s' r q) (h : Counterparts s s' r q path path') {name : Text}
    (hname : PathText.IsDescent name) :
    Counterparts s s' r q (filePath path name) (filePath path' name) := by
  unfold AttributeTree.filePath
  split
  · exact h
  · exact c.join h hname

/-- A path that goes down from the roots has the same part behind texts that lead to them. -/
theorem exists_under (c : Copies s s' r q) {part : Text} {parts : List Text}
    (hpart : PathText.IsDescent part) (hparts : ∀ name ∈ parts, PathText.IsDescent name) :
    ∃ front front', s.tree.LeadsTo front r ∧ s'.tree.LeadsTo front' q ∧
      s.under (part :: parts) = front ++ '/' :: PathText.joinAll part parts ∧
      s'.under (part :: parts) = front' ++ '/' :: PathText.joinAll part parts := by
  obtain ⟨front, hf, hjoin⟩ := exists_front c.isRoot c.leads
  obtain ⟨front', hf', hjoin'⟩ := exists_front c.isRoot' c.leads'
  refine ⟨front, front', hf, hf', ?_, ?_⟩
  · rw [AttributeTree.under, PathText.joinAll_cons, hjoin part hpart.1,
      PathText.joinAll_front front part hparts]
  · rw [AttributeTree.under, PathText.joinAll_cons, hjoin' part hpart.1,
      PathText.joinAll_front front' part hparts]

theorem under (c : Copies s s' r q) {part : Text} {parts : List Text}
    (hpart : PathText.IsDescent part) (hparts : ∀ name ∈ parts, PathText.IsDescent name) :
    Counterparts s s' r q (s.under (part :: parts)) (s'.under (part :: parts)) := by
  obtain ⟨front, front', hf, hf', hpath, hpath'⟩ := c.exists_under hpart hparts
  have hdots := PathText.not_mem_splitOn_joinAll hpart.2 hparts
  exact ⟨front, front', _, hf, hf', Tree.not_leaves_of_not_mem c.links hdots [], hpath, hpath'⟩

theorem classPath (c : Copies s s' r q) {family : Text} {parts : List Text}
    (hfamily : PathText.IsDescent family) (hparts : ∀ name ∈ parts, PathText.IsDescent name) :
    Counterparts s s' r q (s.classPath family parts) (s'.classPath family parts) :=
  c.under (by decide) (List.forall_mem_cons.2 ⟨hfamily, hparts⟩)

theorem classEntry (c : Copies s s' r q) {family name : Text} (hfamily : PathText.IsDescent family)
    (hname : PathText.IsDescent name) :
    Counterparts s s' r q (s.classPath family [name]) (s'.classPath family [name]) :=
  c.classPath hfamily (List.forall_mem_singleton.2 hname)

/-! ## What is read -/

theorem mounted (c : Copies s s' r q) (h : Counterparts s s' r q path path') :
    ∃ front front' below, Tree.Mounted s.tree front r s'.tree front' q ∧
      ¬ s.tree.Leaves r [] (Text.splitOn '/' below) ∧
      path = front ++ '/' :: below ∧ path' = front' ++ '/' :: below := by
  obtain ⟨front, front', below, hf, hf', hbelow, hpath, hpath'⟩ := h.ex
  exact ⟨front, front', below, ⟨c.relocated, c.links, hf, hf'⟩, hbelow, hpath, hpath'⟩

theorem nodeAt (c : Copies s s' r q) (h : Counterparts s s' r q path path') (follow : Bool) :
    s.tree.nodeAt path follow = s'.tree.nodeAt path' follow := by
  obtain ⟨front, front', below, hm, hstay, rfl, rfl⟩ := c.mounted h
  exact hm.nodeAt hstay follow

theorem isDir (c : Copies s s' r q) (h : Counterparts s s' r q path path') :
    s.isDir path = s'.isDir path' := by
  rw [AttributeTree.isDir, AttributeTree.isDir, Tree.isDir, Tree.isDir, c.nodeAt h]

theorem has (c : Copies s s' r q) (h : Counterparts s s' r q path path') :
    s.has path = s'.has path' := by
  obtain ⟨front, front', below, hm, hstay, rfl, rfl⟩ := c.mounted h
  exact hm.exists? hstay

theorem readLink (c : Copies s s' r q) (h : Counterparts s s' r q path path') :
    s.readLink path = s'.readLink path' := by
  rw [AttributeTree.readLink, AttributeTree.readLink, Tree.readLink, Tree.readLink, c.nodeAt h]

theorem entries (c : Copies s s' r q) (h : Counterparts s s' r q path path') :
    s.entries path = s'.entries path' := by
  obtain ⟨front, front', below, hm, hstay, rfl, rfl⟩ := c.mounted h
  rw [AttributeTree.entries, AttributeTree.entries, AttributeTree.list, AttributeTree.list,
    hm.list hstay]

theorem readBytes (c : Copies s s' r q) (h : Counterparts s s' r q path path') {name : Text}
    (hname : PathText.IsDescent name) (limit : Int) :
    s.readBytes path name limit = s'.readBytes path' name limit := by
  rw [AttributeTree.readBytes, AttributeTree.readBytes, Tree.readFile, Tree.readFile,
    c.nodeAt (c.filePath h hname)]

theorem read (c : Copies s s' r q) (h : Counterparts s s' r q path path') {name : Text}
    (hname : PathText.IsDescent name) (encoding : Encoding := .utf8) :
    s.read path name encoding = s'.read path' name encoding := by
  rw [AttributeTree.read, AttributeTree.read, c.readBytes h hname]

theorem readMany (c : Copies s s' r q) (h : Counterparts s s' r q path path') {names : List Text}
    (hnames : ∀ name ∈ names, PathText.IsDescent name) :
    s.readMany path names = s'.readMany path' names := by
  have hread : ∀ name ∈ names, (s.read path name).map (fun value => (name, value)) =
      (s'.read path' name).map fun value => (name, value) :=
    fun name hname => by rw [c.read h (hnames name hname)]
  rw [AttributeTree.readMany, AttributeTree.readMany, List.filterMap_congr hread]

theorem readInt (c : Copies s s' r q) (h : Counterparts s s' r q path path') {name : Text}
    (hname : PathText.IsDescent name) (base : Int := 10) :
    s.readInt path name base = s'.readInt path' name base := by
  rw [AttributeTree.readInt, AttributeTree.readInt, c.read h hname]

/-- What a link begins with leads to counterparts from the directories that hold the link. -/
theorem linkStart (c : Copies s s' r q) {part : Text} {parts : List Text} (hne : part ≠ [])
    (hpart : PathText.IsDescent part) (hparts : ∀ name ∈ parts, PathText.IsDescent name)
    {name target start after : Text} (hname : Path.IsFileName name)
    (h : s.readLink (PathText.join (s.under (part :: parts)) name) = some target)
    (hstart : target = start ++ '/' :: after) :
    Counterparts s s' r q (PathText.join (s.under (part :: parts)) start)
      (PathText.join (s'.under (part :: parts)) start) := by
  obtain ⟨front, front', hf, hf', hpath, hpath'⟩ := c.exists_under hpart hparts
  have hdots := PathText.not_mem_splitOn_joinAll hpart.2 hparts
  obtain ⟨before, hbefore, hjoin⟩ :=
    PathText.exists_join (PathText.joinAll_ne_nil hne hparts)
  have hdots' : ['.', '.'] ∉ Text.splitOn '/' before := by
    rcases hbefore with hbefore | hbefore
    · exact hbefore ▸ hdots
    · exact fun hmem => hdots (hbefore ▸ List.mem_append_left _ hmem)
  have hslash := (PathText.isDescent_of_isFileName hname).1
  rw [hpath, PathText.join_front _ _ hslash, hjoin name hslash] at h
  cases hread : s.tree.readLink (front ++ '/' :: (before ++ '/' :: name)) with
  | error e =>
    rw [AttributeTree.readLink, hread] at h
    cases h
  | ok found =>
    rw [AttributeTree.readLink, hread] at h
    obtain rfl : found = target := Option.some.inj h
    obtain ⟨hrelative, hstay⟩ :=
      Tree.stays_of_readLink c.links hf hname hdots' hread hstart
    -- the start of a relative link is joined, and does not stand alone
    have hfirst : start.head? ≠ some '/' := by
      rw [hstart] at hrelative
      cases start with
      | nil => exact absurd rfl hrelative
      | cons first rest => exact hrelative
    rw [hpath, hpath', PathText.join_front _ _ hfirst, PathText.join_front _ _ hfirst,
      hjoin start hfirst]
    refine ⟨front, front', _, hf, hf', ?_, rfl, rfl⟩
    rw [Text.splitOn_append_sep]
    exact hstay

/-- The names in a directory are those of files. -/
theorem isDescent_of_mem_entries (c : Copies s s' r q) {name : Text} (h : name ∈ s.entries path) :
    PathText.IsDescent name := by
  rw [AttributeTree.entries, AttributeTree.list] at h
  cases hlist : s.tree.list path with
  | error e =>
    rw [hlist] at h
    cases h
  | ok names =>
    obtain ⟨place, -, -, rfl⟩ := Tree.list_eq_ok hlist
    rw [hlist] at h
    obtain ⟨node, hnode⟩ := Option.isSome_iff_exists.1 (Tree.mem_children_iff.1 h)
    exact PathText.isDescent_of_isFileName (Tree.isFileName_of_namesFiles c.names hnode)

/-- Both paths lead to the same place below the roots, if to any. -/
theorem realPath (c : Copies s s' r q) (h : Counterparts s s' r q path path') :
    (s.realPath path = none ∧ s'.realPath path' = none) ∨
      ∃ below, s.tree.find path = .ok (below ++ r) ∧
        s.realPath path = some (Path.text (below ++ r)) ∧
        s'.realPath path' = some (Path.text (below ++ q)) ∧
        (∀ name ∈ below ++ r, Path.IsFileName name) ∧
        ∀ name ∈ below ++ q, Path.IsFileName name := by
  obtain ⟨front, front', below, hm, hstay, rfl, rfl⟩ := c.mounted h
  obtain ⟨z, hz, hz'⟩ := hm.find hstay true
  cases z with
  | error e =>
    left
    rw [AttributeTree.realPath, AttributeTree.realPath, Tree.realPath, Tree.realPath, hz, hz']
    exact ⟨rfl, rfl⟩
  | ok place =>
    right
    refine ⟨place, hz, ?_, ?_, ?_, ?_⟩
    · rw [AttributeTree.realPath, Tree.realPath, hz]
      rfl
    · rw [AttributeTree.realPath, Tree.realPath, hz']
      rfl
    · exact Tree.isFileName_of_stands c.names (Tree.stands_of_find hz)
    · exact Tree.isFileName_of_stands c.names' (Tree.stands_of_find hz')

/-- The texts of one place below both roots. -/
theorem text (c : Copies s s' r q) {below : Path} (hne : below ≠ [])
    (hnames : ∀ name ∈ below, Path.IsFileName name) :
    Counterparts s s' r q (Path.text (below ++ r)) (Path.text (below ++ q)) := by
  have hslash : ∀ name ∈ below, '/' ∉ name := fun name hname => (hnames name hname).2.2.2
  refine ⟨Path.front r, Path.front q, Path.below below, c.leads.front c.names,
    c.leads'.front c.names', ?_, Path.text_append hne r, Path.text_append hne q⟩
  rw [Path.splitOn_below hne hslash]
  refine Tree.not_leaves_of_not_mem c.links (fun hdots => ?_) []
  exact (hnames _ (List.mem_reverse.1 hdots)).2.2.1 rfl

end Copies
end AttributeTree
end StorageAtlas
