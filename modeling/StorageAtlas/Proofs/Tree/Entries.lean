import StorageAtlas.Tree.Lookup
import StorageAtlas.Tree.PathText

/-!
The names of a directory and the places below it, and what a path with such a
name at its end leads to.
-/

namespace StorageAtlas

/-- Can a file have this name? The names of one and two dots lead to other places. -/
def Path.IsFileName (name : Text) : Prop :=
  name ≠ [] ∧ name ≠ ['.'] ∧ name ≠ ['.', '.'] ∧ '/' ∉ name

instance (name : Text) : Decidable (Path.IsFileName name) :=
  inferInstanceAs (Decidable (name ≠ [] ∧ name ≠ ['.'] ∧ name ≠ ['.', '.'] ∧ '/' ∉ name))

namespace Tree

/-- Does everything in the tree have a name that files can have? -/
def NamesFiles (t : Tree) : Prop := ∀ e ∈ t.entries, ∀ name ∈ e.1, Path.IsFileName name

instance (t : Tree) : Decidable t.NamesFiles :=
  inferInstanceAs (Decidable (∀ e ∈ t.entries, ∀ name ∈ e.1, Path.IsFileName name))

theorem mem_children_iff {t : Tree} {directory : Path} {name : Text} :
    name ∈ t.children directory ↔ (t.node? (name :: directory)).isSome = true := by
  have hnode : t.node? (name :: directory) = t.entries.lookup (name :: directory) := rfl
  rw [hnode, children, List.mem_filterMap]
  constructor
  · rintro ⟨⟨path, node⟩, hmem, hname⟩
    cases path with
    | nil => simp [childName?] at hname
    | cons n parent =>
      simp only [childName?, Option.ite_none_right_eq_some, Option.some.injEq] at hname
      obtain ⟨rfl, rfl⟩ := hname
      cases hlookup : t.entries.lookup (n :: parent) with
      | some found => rfl
      | none => simpa using List.lookup_eq_none_iff.1 hlookup _ hmem
  · intro h
    obtain ⟨node, hnode⟩ := Option.isSome_iff_exists.1 h
    obtain ⟨before, after, hentries, -⟩ := List.lookup_eq_some_iff.1 hnode
    refine ⟨(name :: directory, node), by simp [hentries], ?_⟩
    simp [childName?]

/-- A name stands somewhere if some directory has it. -/
theorem mem_names_iff {t : Tree} {name : Text} : name ∈ t.names ↔ ∃ place, name ∈ t.children place := by
  constructor
  · intro h
    obtain ⟨⟨path, node⟩, hmem, hhead⟩ := List.mem_filterMap.1 h
    cases path with
    | nil => cases hhead
    | cons first parent =>
      refine ⟨parent, List.mem_filterMap.2 ⟨_, hmem, ?_⟩⟩
      rw [← Option.some.inj hhead]
      exact if_pos rfl
  · rintro ⟨place, h⟩
    obtain ⟨⟨path, node⟩, hmem, hname⟩ := List.mem_filterMap.1 h
    refine List.mem_filterMap.2 ⟨_, hmem, ?_⟩
    cases path with
    | nil => cases hname
    | cons first parent =>
      simp only [childName?, Option.ite_none_right_eq_some] at hname
      exact hname.2

theorem list_eq_ok {t : Tree} {path : Text} {names : List Text} (h : t.list path = .ok names) :
    ∃ place, t.find path = .ok place ∧ t.isDirectory place = true ∧ names = t.children place := by
  unfold list at h
  split at h
  · cases h
  · rename_i place hfind
    split at h
    · rename_i hnode
      refine ⟨place, hfind, by simp [isDirectory, hnode], ?_⟩
      cases h
      rfl
    · cases h
    · cases h

theorem isFileName_of_namesFiles {t : Tree} (h : t.NamesFiles) {name : Text} {directory : Path}
    {node : Node} (hnode : t.node? (name :: directory) = some node) : Path.IsFileName name := by
  have hlookup : t.entries.lookup (name :: directory) = some node := hnode
  obtain ⟨before, after, hentries, -⟩ := List.lookup_eq_some_iff.1 hlookup
  exact h (name :: directory, node) (by simp [hentries]) name (by simp)

/-! ## A name at the end of a path -/

variable {t : Tree} {place : Path} {name : Text} {node : Node}

/-- One part that stands for a file leads to it from its directory. -/
theorem walkWith_child (hname : Path.IsFileName name) (hdir : t.isDirectory place = true)
    (hnode : t.node? (name :: place) = some node) (hlink : ∀ target, node ≠ .link target)
    (onLink : Path → List Text → Except LookupError Path) :
    t.walkWith false onLink place [name] = .ok (name :: place) := by
  obtain ⟨hne, hdot, hdots, -⟩ := hname
  rw [walkWith]
  simp only [hdir, hne, hdot, hdots, hnode, Bool.not_true, Bool.false_eq_true, if_false, or_self]
  cases node with
  | link target => exact absurd rfl (hlink target)
  | _ => rfl

/-- A name behind the parts of a path, or in place of an empty last part. The links that are
followed on the way are the same as without it. -/
theorem walkWith_append_child (hname : Path.IsFileName name)
    (hdir : t.isDirectory place = true) (hnode : t.node? (name :: place) = some node)
    (hlink : ∀ target, node ≠ .link target) {tail : List Text} (htail : tail = [] ∨ tail = [[]])
    {onLink onLink' : Path → List Text → Except LookupError Path}
    (honLink : ∀ start parts, onLink start (parts ++ tail) = .ok place →
      onLink' start (parts ++ [name]) = .ok (name :: place))
    (here : Path) (parts : List Text)
    (h : t.walkWith true onLink here (parts ++ tail) = .ok place) :
    t.walkWith false onLink' here (parts ++ [name]) = .ok (name :: place) := by
  induction parts generalizing here with
  | nil =>
    have hhere : here = place := by
      rcases htail with rfl | rfl
      · simpa [walkWith] using h
      · cases hd : t.isDirectory here <;> simp [walkWith, hd] at h
        exact h
    subst hhere
    exact walkWith_child hname hdir hnode hlink onLink'
  | cons part rest ih =>
    rw [List.cons_append, walkWith] at h ⊢
    cases hd : t.isDirectory here with
    | false => simp [hd] at h
    | true =>
      simp only [hd, Bool.not_true, Bool.false_eq_true, if_false] at h ⊢
      by_cases hdot : part = [] ∨ part = ['.']
      · rw [if_pos hdot] at h ⊢
        exact ih here h
      · rw [if_neg hdot] at h ⊢
        by_cases hdots : part = ['.', '.']
        · rw [if_pos hdots] at h ⊢
          exact ih here.tail h
        · rw [if_neg hdots] at h ⊢
          cases hn : t.node? (part :: here) with
          | none => simp [hn] at h
          | some found =>
            cases found with
            | link target =>
              simp only [hn, Bool.and_false, Bool.false_eq_true, if_false] at h
              have hmore : (rest ++ [name]).isEmpty = false := by simp
              simp only [hmore, Bool.false_and, Bool.false_eq_true, if_false]
              rw [← List.append_assoc] at h ⊢
              exact honLink _ _ h
            | _ =>
              simp only [hn] at h ⊢
              exact ih _ h

theorem walk_append_child (hname : Path.IsFileName name) (hdir : t.isDirectory place = true)
    (hnode : t.node? (name :: place) = some node) (hlink : ∀ target, node ≠ .link target)
    {tail : List Text} (htail : tail = [] ∨ tail = [[]]) (links : Nat) (here : Path)
    (parts : List Text) (h : t.walk true links here (parts ++ tail) = .ok place) :
    t.walk false links here (parts ++ [name]) = .ok (name :: place) := by
  induction links generalizing here parts with
  | zero =>
    refine walkWith_append_child hname hdir hnode hlink htail ?_ here parts h
    intro start parts herror
    cases herror
  | succ links ih => exact walkWith_append_child hname hdir hnode hlink htail ih here parts h

/-- The path of a directory with the name of a file in it leads to this file. -/
theorem find_join (hname : Path.IsFileName name) (hdir : t.isDirectory place = true)
    (hnode : t.node? (name :: place) = some node) (hlink : ∀ target, node ≠ .link target)
    {directory : Text} (h : t.find directory = .ok place) :
    t.find (PathText.join directory name) false = .ok (name :: place) := by
  have hhead : name.head? ≠ some '/' := fun he => hname.2.2.2 (List.mem_of_head? he)
  have hsplit : Text.splitOn '/' name = [name] := Text.splitOn_of_not_mem hname.2.2.2
  unfold find at h
  split at h
  · cases h
  · rename_i hne
    by_cases hlast : directory.getLast? = some '/'
    · obtain ⟨before, rfl⟩ := List.getLast?_eq_some_iff.1 hlast
      have hjoin : PathText.join (before ++ ['/']) name = before ++ '/' :: name := by
        simp [PathText.join, hhead]
      rw [Text.splitOn_append_sep] at h
      rw [find, hjoin, Text.splitOn_append_sep, hsplit]
      rw [if_neg (by simp)]
      exact walk_append_child hname hdir hnode hlink (.inr rfl) _ _ _ h
    · have hjoin : PathText.join directory name = directory ++ '/' :: name := by
        simp [PathText.join, hhead, hlast, hne]
      rw [find, hjoin, Text.splitOn_append_sep, hsplit, if_neg (by simp)]
      refine walk_append_child hname hdir hnode hlink (.inl rfl) _ _ _ ?_
      rw [List.append_nil]
      exact h

/-- No link stands in for the file that such a path leads to. -/
theorem nodeAt_join (hname : Path.IsFileName name) (hdir : t.isDirectory place = true)
    (hnode : t.node? (name :: place) = some node) (hlink : ∀ target, node ≠ .link target)
    {directory : Text} (h : t.find directory = .ok place) :
    t.nodeAt (PathText.join directory name) false = .ok node := by
  rw [nodeAt, find_join hname hdir hnode hlink h]
  simp only [hnode]

end Tree
end StorageAtlas
