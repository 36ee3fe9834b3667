import StorageAtlas.Bytes.Basic
import StorageAtlas.DeviceNode.Basic

/-!
A tree of files as a value: every node that exists with the place where it
stands, in the order in which names were first put. Entries of one directory
are listed in that order.
-/

namespace StorageAtlas

/-- A place in the tree: the names on the way to it, innermost first. -/
abbrev Path := List Text

inductive Node where
  /-- Paths lead through every directory, but not each can be listed. -/
  | directory (listable : Bool)
  | file (content : Bytes)
  /-- A file that cannot be opened. -/
  | sealed
  | link (target : Text)
  /-- A special file. `modifiedAt` is the value of `st_mtime`: the double itself, so that times are
  in the order of doubles. -/
  | device (kind : DeviceKind) (number : DeviceNumber) (modifiedAt : Rat)
  deriving DecidableEq

structure Tree where
  entries : List (Path × Node) := []
  /-- Every place stands in the tree once. -/
  distinct : (entries.map Prod.fst).Nodup := by exact List.nodup_nil

namespace Path

/-- The place that a plain absolute path names. -/
def ofText (t : Text) : Path := ((Text.splitOn '/' t).filter fun name => !name.isEmpty).reverse

def text : Path → Text
  | [] => ['/']
  | path => path.reverse.flatMap fun name => '/' :: name

/-- Is a place the given directory or below it? -/
def isWithin (directory path : Path) : Bool := directory.isSuffixOf path

end Path

namespace Tree

def node? (t : Tree) : Path → Option Node
  | [] => some (.directory true)
  | path => t.entries.lookup path

def isDirectory (t : Tree) (path : Path) : Bool :=
  match t.node? path with
  | some (.directory _) => true
  | _ => false

def childName? (directory : Path) : Path → Option Text
  | [] => none
  | name :: parent => if parent = directory then some name else none

/-- The names in a directory, in the order of listing. -/
def children (t : Tree) (directory : Path) : List Text :=
  t.entries.filterMap fun (path, _) => childName? directory path

/-- Every name that stands somewhere in the tree. -/
def names (t : Tree) : List Text := t.entries.filterMap fun (path, _) => path.head?

theorem distinct_filter (t : Tree) (p : Path × Node → Bool) :
    ((t.entries.filter p).map Prod.fst).Nodup :=
  t.distinct.sublist (List.filter_sublist.map Prod.fst)

/-- The entries with another node at a place. -/
def replaceNode (path : Path) (node : Node) (entries : List (Path × Node)) : List (Path × Node) :=
  entries.map fun (p, n) => if p = path then (p, node) else (p, n)

theorem places_replaceNode (path : Path) (node : Node) (entries : List (Path × Node)) :
    (replaceNode path node entries).map Prod.fst = entries.map Prod.fst := by
  rw [replaceNode, List.map_map]
  refine List.map_congr_left fun e _ => ?_
  by_cases he : e.1 = path <;> simp [he]

theorem distinct_append_new {t : Tree} {path : Path} (h : ¬ (t.node? path).isSome = true)
    (node : Node) : ((t.entries ++ [(path, node)]).map Prod.fst).Nodup := by
  have hnew : path ∉ t.entries.map Prod.fst := by
    intro hmem
    obtain ⟨e, he, hpath⟩ := List.mem_map.1 hmem
    cases path with
    | nil => simp [node?] at h
    | cons name parent =>
      have hne := List.lookup_eq_none_iff.1 (Option.not_isSome_iff_eq_none.1 h) e he
      simp [hpath] at hne
  rw [List.map_append, List.nodup_append]
  refine ⟨t.distinct, by simp, ?_⟩
  intro a ha b hb hab
  rw [List.map_singleton, List.mem_singleton] at hb
  rw [hab, hb] at ha
  exact hnew ha

/-- Puts a node into its place; what stood there goes, with everything below it. -/
def place (t : Tree) (path : Path) (node : Node) : Tree :=
  if h : (t.node? path).isSome then
    ⟨replaceNode path node (t.entries.filter fun (p, _) => p = path || !path.isWithin p),
      (places_replaceNode path node _).symm ▸ t.distinct_filter _⟩
  else ⟨t.entries ++ [(path, node)], distinct_append_new h node⟩

/-- Makes the place a directory and all places above it, where they are none yet. -/
def ensureDirectory (t : Tree) : Path → Tree
  | [] => t
  | name :: parent =>
    let t := t.ensureDirectory parent
    if t.isDirectory (name :: parent) then t else t.place (name :: parent) (.directory true)

/-- Adds an entry and the directories above it; a directory that exists already stays. -/
def put (t : Tree) (path : Path) (node : Node) : Tree :=
  match path, node with
  | [], _ => t
  | _, .directory true => t.ensureDirectory path
  | _ :: parent, _ => (t.ensureDirectory parent).place path node

/-- Removes a node and everything below it. -/
def remove (t : Tree) (path : Path) : Tree :=
  ⟨t.entries.filter fun (p, _) => !path.isWithin p, t.distinct_filter _⟩

end Tree
end StorageAtlas
