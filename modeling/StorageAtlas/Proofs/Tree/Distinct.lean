import Mathlib.Data.List.Nodup
import StorageAtlas.AttributeTree

/-!
A tree holds each place once, so no directory lists a name twice.
-/

namespace StorageAtlas

theorem Tree.nodup_children (t : Tree) (directory : Path) : (t.children directory).Nodup := by
  have hchildren : t.children directory =
      (t.entries.map Prod.fst).filterMap (childName? directory) := by
    rw [List.filterMap_map]
    rfl
  have hplace : ∀ {p name}, name ∈ childName? directory p → p = name :: directory := by
    intro p name hp
    cases p with
    | nil => simp [childName?] at hp
    | cons n parent =>
      simp only [childName?, Option.mem_def, Option.ite_none_right_eq_some, Option.some.injEq] at hp
      rw [hp.1, hp.2]
  rw [hchildren]
  refine List.Nodup.filterMap ?_ t.distinct
  intro a b name ha hb
  rw [hplace ha, hplace hb]

theorem AttributeTree.nodup_entries (s : AttributeTree) (directory : Text) :
    (s.entries directory).Nodup := by
  unfold entries list Tree.list
  split
  · exact List.nodup_nil
  · split
    · exact s.tree.nodup_children _
    · exact List.nodup_nil
    · exact List.nodup_nil

end StorageAtlas
