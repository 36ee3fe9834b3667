import StorageAtlas.Proofs.DeviceNode.Directory
import StorageAtlas.Proofs.Tree.SameNodes

/-!
Where no two special files of one kind and number were modified at the same time,
the newest does not depend on the order in which they were seen.
-/

namespace StorageAtlas.NodeIndex

/-- Has no special file the same kind and number as another, and the same time as well? -/
def Untied (index : NodeIndex) : Prop :=
  (index.nodes.map fun n => (n.kind, n.number, n.modifiedAt)).Nodup

instance (index : NodeIndex) : Decidable index.Untied :=
  inferInstanceAs (Decidable (index.nodes.map _).Nodup)

variable {index index' : NodeIndex}

theorem newest_eq_none_iff {number : DeviceNumber} {kind : DeviceKind} :
    index.newest number kind = none ↔ index.nodes.filter (answersTo number kind) = [] := by
  constructor
  · intro h
    by_contra hne
    obtain ⟨n, hn, -⟩ := exists_foldl_newer hne
    rw [newest, hn] at h
    cases h
  · intro h
    rw [newest, h]
    rfl

/-- What a number is resolved to does not depend on the order of the nodes if no two of those
that have it were modified at the same time. -/
theorem newest_eq_of_perm {number : DeviceNumber} {kind : DeviceKind}
    (h : ((index.nodes.filter (answersTo number kind)).map DeviceNode.modifiedAt).Nodup)
    (hperm : index.nodes.Perm index'.nodes) :
    index.newest number kind = index'.newest number kind := by
  have hfilter := hperm.filter (answersTo number kind)
  cases hn : index.newest number kind with
  | none =>
    rw [newest_eq_none_iff] at hn
    rw [hn] at hfilter
    exact (newest_eq_none_iff.2 hfilter.nil_eq.symm).symm
  | some n =>
    cases hm : index'.newest number kind with
    | none =>
      rw [newest_eq_none_iff] at hm
      rw [hm] at hfilter
      rw [newest_eq_none_iff.2 hfilter.eq_nil] at hn
      cases hn
    | some m =>
      have hnewest := isNewest_of_newest hn
      have hnewest' := isNewest_of_newest hm
      have hm' := hfilter.mem_iff.2 hnewest'.mem
      -- each of the two is among the nodes of the other order, so neither is later
      have htime : n.modifiedAt = m.modifiedAt :=
        PartialOrder.le_antisymm _ _ (hnewest'.le (hfilter.mem_iff.1 hnewest.mem)) (hnewest.le hm')
      rw [List.inj_on_of_nodup_map h hnewest.mem hm' htime]

theorem Untied.nodup_times (h : index.Untied) (number : DeviceNumber) (kind : DeviceKind) :
    ((index.nodes.filter (answersTo number kind)).map DeviceNode.modifiedAt).Nodup := by
  have hkept : (index.nodes.filter (answersTo number kind)).Sublist index.nodes :=
    List.filter_sublist
  have hkeyed := List.Nodup.sublist (hkept.map _) h
  have htimes : (index.nodes.filter (answersTo number kind)).map
      (fun n => (n.kind, n.number, n.modifiedAt)) =
        ((index.nodes.filter (answersTo number kind)).map DeviceNode.modifiedAt).map
          fun time => (kind, number, time) := by
    rw [List.map_map]
    refine List.map_congr_left fun n hn => ?_
    obtain ⟨rfl, rfl⟩ := answersTo_iff.1 (List.mem_filter.1 hn).2
    rfl
  rw [htimes] at hkeyed
  exact hkeyed.of_map _

theorem resolve_eq_of_perm (h : index.Untied) (hperm : index.nodes.Perm index'.nodes) :
    index.resolve = index'.resolve := by
  funext number kind
  rw [resolve, resolve, newest_eq_of_perm (h.nodup_times number kind) hperm]

/-- The order of a directory is the order of its index, and all that shows of it. -/
theorem build_perm {t u : Tree} (h : t.SameNodes u) (directory : Text) :
    (build t directory).nodes.Perm (build u directory).nodes := by
  have hnode : nodeOf t directory = nodeOf u directory := by
    funext place name
    rw [nodeOf, nodeOf, h.node?]
  unfold build scan
  rw [h.find, hnode]
  rcases h.list_cases directory with ⟨e, he, he'⟩ | ⟨names, names', hn, hn', hperm⟩
  · rw [he, he']
  · rw [hn, hn']
    cases u.find directory with
    | error e => exact .refl _
    | ok place => exact hperm.filterMap _

end StorageAtlas.NodeIndex
