import Mathlib.Data.List.Nodup
import StorageAtlas.DiskLink.Holder
import StorageAtlas.Proofs.Text.Order
import StorageAtlas.Proofs.Tree.Distinct
import StorageAtlas.Proofs.Tree.Entries

/-!
Which holders a walk comes to. A node is visited once, at the depth at which it
is first met, and is left without its holders if that is the limit. So a holder
within the limit can be missed: a node on the way to it was met too deep before.
Along a chain whose nodes are all met above the limit nothing is missed.
-/

namespace StorageAtlas.DiskLinks

variable {d : DiskLinks} {start node : Text} {depth : Int} {unvisited : List Text}
  {stack : List (Text × Int)}

/-! ## Holders -/

/-- The names of the disks that hold a disk are those in a directory of its own, each once and in
ascending order. -/
theorem holders_ascending (d : DiskLinks) (node : Text) :
    ∃ names : List Text, d.holders node = names.map (PathText.join d.deviceDir) ∧
      names.Pairwise (· < ·) ∧ ∀ name, name ∈ names ↔
        name ∈ d.sysfs.entries (d.sysfs.classPath "block" [PathText.baseName node, "holders"]) := by
  refine ⟨_, rfl, ?_, fun name => mem_sortBy⟩
  have hle := pairwise_sortBy Text.le_total Text.le_trans
    (d.sysfs.entries (d.sysfs.classPath "block" [PathText.baseName node, "holders"]))
  have hne := (sortBy_perm Text.le _).nodup_iff.2
    (d.sysfs.nodup_entries (d.sysfs.classPath "block" [PathText.baseName node, "holders"]))
  exact (hle.and hne).imp fun h => lt_of_le_of_ne ((Text.le_iff _ _).1 h.1) h.2

theorem mem_holders_iff {holder : Text} : holder ∈ d.holders node ↔
    ∃ name ∈ d.sysfs.entries (d.sysfs.classPath "block" [PathText.baseName node, "holders"]),
      PathText.join d.deviceDir name = holder := by
  obtain ⟨names, hnames, -, hmem⟩ := d.holders_ascending node
  simp only [hnames, List.mem_map, hmem]

/-! ## Chains of holders -/

/-- A chain of holders from a first node to a last one. The list holds the nodes before the last,
latest first, so there are as many links as it has elements. -/
inductive HolderChain (d : DiskLinks) (start : Text) : List Text → Text → Prop
  | here : HolderChain d start [] start
  | step {before : List Text} {node holder : Text} :
      HolderChain d start before node → holder ∈ d.holders node →
      HolderChain d start (node :: before) holder

/-- Does a chain without repetitions with as many links as the limit end at a node? -/
def EndsAtLimit (d : DiskLinks) (start node : Text) : Prop :=
  ∃ before, d.HolderChain start before node ∧ (node :: before).Nodup ∧
    (before.length : Int) = d.holderDepth

theorem HolderChain.start_mem {before : List Text} (h : d.HolderChain start before node) :
    start ∈ node :: before := by
  induction h with
  | here => exact List.mem_singleton.2 rfl
  | step _ _ ih => exact List.mem_cons_of_mem _ ih

/-- No chain comes back to its first node without a repetition. -/
theorem not_endsAtLimit_start (h : 0 < d.holderDepth) : ¬ d.EndsAtLimit start start := by
  rintro ⟨before, hchain, hnodup, hlength⟩
  cases hchain with
  | here =>
    rw [List.length_nil] at hlength
    omega
  | step hchain _ => exact (List.nodup_cons.1 hnodup).1 hchain.start_mem

/-! ## Visits -/

/-- The stack after a visit: the holders of the node come first, if it stands above the limit. -/
def pushHolders (d : DiskLinks) (node : Text) (depth : Int) (stack : List (Text × Int)) :
    List (Text × Int) :=
  if d.holderDepth ≤ depth then stack else (d.holders node).map (·, depth + 1) ++ stack

theorem mem_pushHolders {e : Text × Int} :
    e ∈ d.pushHolders node depth stack ↔
      e ∈ stack ∨ depth < d.holderDepth ∧ e.1 ∈ d.holders node ∧ e.2 = depth + 1 := by
  unfold pushHolders
  by_cases h : d.holderDepth ≤ depth
  · have hlt : ¬ depth < d.holderDepth := by omega
    simp [h, hlt]
  · have hlt : depth < d.holderDepth := by omega
    obtain ⟨holder, k⟩ := e
    simp only [h, if_false, hlt, true_and, List.mem_append, List.mem_map, Prod.mk.injEq]
    constructor
    · rintro (⟨x, hx, rfl, rfl⟩ | hstack)
      · exact .inr ⟨hx, rfl⟩
      · exact .inl hstack
    · rintro (hstack | ⟨hx, rfl⟩)
      · exact .inr hstack
      · exact .inl ⟨holder, hx, rfl, rfl⟩

/-- The nodes that a walk visits, each with the number of holders that led to it, as if no node
had an identifier that ended the walk. -/
def visits (d : DiskLinks) (unvisited : List Text) : List (Text × Int) → List (Text × Int)
  | [] => []
  | (node, depth) :: stack =>
    if _h : node ∈ unvisited then
      (node, depth) :: visits d (without node unvisited) (d.pushHolders node depth stack)
    else visits d unvisited stack
termination_by stack => (unvisited.length, stack.length)
decreasing_by
  · exact .left _ _ (length_without_lt ‹_›)
  · exact .right _ (Nat.lt_succ_self _)

/-- One step of a walk. -/
theorem walk_cons (withoutType : Bool) :
    d.walk withoutType unvisited ((node, depth) :: stack) =
      if node ∈ unvisited then
        (d.ownId withoutType node).or
          (d.walk withoutType (without node unvisited) (d.pushHolders node depth stack))
      else d.walk withoutType unvisited stack := by
  rw [walk, pushHolders]
  by_cases hmem : node ∈ unvisited
  · rw [dif_pos hmem, if_pos hmem]
    cases d.ownId withoutType node with
    | some ident => rfl
    | none =>
      by_cases hlimit : d.holderDepth ≤ depth
      · simp only [if_pos hlimit, Option.none_or]
      · simp only [if_neg hlimit, Option.none_or]
  · rw [dif_neg hmem, if_neg hmem]

/-- A walk ends at the first visit to a node with an identifier. -/
theorem walk_eq_findSome? (withoutType : Bool) :
    d.walk withoutType unvisited stack =
      (d.visits unvisited stack).findSome? fun visit => d.ownId withoutType visit.1 := by
  fun_induction visits d unvisited stack with
  | case1 unvisited => rw [walk, List.findSome?_nil]
  | case2 unvisited node depth stack hmem ih =>
    rw [walk_cons, if_pos hmem, List.findSome?_cons, ih]
    cases d.ownId withoutType node with
    | some ident => rfl
    | none => rfl
  | case3 unvisited node depth stack hmem ih => rw [walk_cons, if_neg hmem, ih]

theorem mem_without {other : Text} {nodes : List Text} :
    node ∈ without other nodes ↔ node ∈ nodes ∧ node ≠ other := by
  simp [without]

theorem mem_of_mem_visits {e : Text × Int} (h : e ∈ d.visits unvisited stack) :
    e.1 ∈ unvisited := by
  fun_induction visits d unvisited stack with
  | case1 => cases h
  | case2 unvisited node depth stack hmem ih =>
    rcases List.mem_cons.1 h with rfl | h
    · exact hmem
    · exact (mem_without.1 (ih h)).1
  | case3 unvisited node depth stack hmem ih => exact ih h

/-- No node is visited twice. -/
theorem nodup_visits : ((d.visits unvisited stack).map Prod.fst).Nodup := by
  fun_induction visits d unvisited stack with
  | case1 => exact List.nodup_nil
  | case2 unvisited node depth stack hmem ih =>
    rw [List.map_cons, List.nodup_cons]
    refine ⟨?_, ih⟩
    intro h
    obtain ⟨e, he, hnode⟩ := List.mem_map.1 h
    exact (mem_without.1 (mem_of_mem_visits he)).2 hnode
  | case3 unvisited node depth stack hmem ih => exact ih

/-- Every node on the stack is visited unless that has happened before. -/
theorem visited_of_mem_stack {e : Text × Int} (he : e ∈ stack) (hmem : e.1 ∈ unvisited) :
    ∃ k, (e.1, k) ∈ d.visits unvisited stack := by
  fun_induction visits d unvisited stack with
  | case1 => cases he
  | case2 unvisited node depth stack hnode ih =>
    by_cases hsame : e.1 = node
    · exact ⟨depth, by simp [hsame]⟩
    · have hstack : e ∈ d.pushHolders node depth stack := by
        rcases List.mem_cons.1 he with rfl | he
        · exact absurd rfl hsame
        · exact mem_pushHolders.2 (.inl he)
      obtain ⟨k, hk⟩ := ih hstack (mem_without.2 ⟨hmem, hsame⟩)
      exact ⟨k, List.mem_cons_of_mem _ hk⟩
  | case3 unvisited node depth stack hnode ih =>
    rcases List.mem_cons.1 he with rfl | he
    · exact absurd hmem hnode
    · exact ih he hmem

/-- The holders of a node that is visited above the limit are visited. -/
theorem visited_of_holder {holder : Text} {k : Int}
    (hvisit : (node, k) ∈ d.visits unvisited stack) (hk : k < d.holderDepth)
    (hholder : holder ∈ d.holders node) (hmem : holder ∈ unvisited) :
    ∃ l, (holder, l) ∈ d.visits unvisited stack := by
  fun_induction visits d unvisited stack with
  | case1 => cases hvisit
  | case2 unvisited first depth stack hfirst ih =>
    by_cases hsame : holder = first
    · exact ⟨depth, by simp [hsame]⟩
    · have hleft := mem_without.2 ⟨hmem, hsame⟩
      have hlater : ∃ l, (holder, l) ∈
          d.visits (without first unvisited) (d.pushHolders first depth stack) := by
        -- visited now, the node puts its holders on the stack
        rcases List.mem_cons.1 hvisit with hhead | hlater
        · obtain ⟨rfl, rfl⟩ := Prod.mk.inj hhead
          have hpushed : (holder, k + 1) ∈ d.pushHolders node k stack :=
            mem_pushHolders.2 (.inr ⟨hk, hholder, rfl⟩)
          exact visited_of_mem_stack hpushed hleft
        · exact ih hlater hleft
      obtain ⟨l, hl⟩ := hlater
      exact ⟨l, List.mem_cons_of_mem _ hl⟩
  | case3 unvisited first depth stack hfirst ih => exact ih hvisit hmem

/-- A visit was on the stack from the start, or another visit above the limit put it there. -/
theorem parent_of_visit {e : Text × Int} (he : e ∈ d.visits unvisited stack) :
    e ∈ stack ∨ ∃ parent k, (parent, k) ∈ d.visits unvisited stack ∧ k < d.holderDepth ∧
      e.1 ∈ d.holders parent ∧ e.2 = k + 1 := by
  fun_induction visits d unvisited stack with
  | case1 => cases he
  | case2 unvisited node depth stack hnode ih =>
    rcases List.mem_cons.1 he with rfl | hlater
    · exact .inl (List.mem_cons_self ..)
    · rcases ih hlater with hstack | ⟨parent, k, hparent, hk, hholder, hdepth⟩
      · rcases mem_pushHolders.1 hstack with hstack | ⟨hk, hholder, hdepth⟩
        · exact .inl (List.mem_cons_of_mem _ hstack)
        · exact .inr ⟨node, depth, List.mem_cons_self .., hk, hholder, hdepth⟩
      · exact .inr ⟨parent, k, List.mem_cons_of_mem _ hparent, hk, hholder, hdepth⟩
  | case3 unvisited node depth stack hnode ih =>
    rcases ih he with hstack | hparent
    · exact .inl (List.mem_cons_of_mem _ hstack)
    · exact .inr hparent

theorem nonneg_of_visit (hstack : ∀ e ∈ stack, 0 ≤ e.2) {e : Text × Int}
    (he : e ∈ d.visits unvisited stack) : 0 ≤ e.2 := by
  fun_induction visits d unvisited stack with
  | case1 => cases he
  | case2 unvisited node depth stack hnode ih =>
    have hdepth : 0 ≤ depth := hstack _ (List.mem_cons_self ..)
    rcases List.mem_cons.1 he with rfl | hlater
    · exact hdepth
    · refine ih (fun p hp => ?_) hlater
      rcases mem_pushHolders.1 hp with hp | ⟨-, -, hp⟩
      · exact hstack p (List.mem_cons_of_mem _ hp)
      · omega
  | case3 unvisited node depth stack hnode ih =>
    exact ih (fun p hp => hstack p (List.mem_cons_of_mem _ hp)) he

/-! ## The nodes that a walk can come to -/

theorem mem_names_of_mem_entries {s : AttributeTree} {directory name : Text}
    (h : name ∈ s.entries directory) : name ∈ s.tree.names := by
  refine Tree.mem_names_iff.2 ?_
  unfold AttributeTree.entries AttributeTree.list Tree.list at h
  split at h
  · cases h
  · rename_i place _
    split at h
    · exact ⟨place, h⟩
    · cases h
    · cases h

theorem mem_reach_of_holder {holder : Text} (h : holder ∈ d.holders node) :
    holder ∈ d.reach start := by
  obtain ⟨name, hname, rfl⟩ := mem_holders_iff.1 h
  exact List.mem_cons_of_mem _ (List.mem_map_of_mem (mem_names_of_mem_entries hname))

/-- The visits of a walk from one node. -/
def visitsFrom (d : DiskLinks) (start : Text) : List (Text × Int) :=
  d.visits (d.reach start) [(start, 0)]

theorem scsiId_eq_findSome? (withoutType : Bool) :
    d.scsiId start withoutType =
      (d.visitsFrom start).findSome? fun visit => d.ownId withoutType visit.1 :=
  walk_eq_findSome? withoutType

/-- Is a node met before the limit is reached? -/
def MetAboveLimit (d : DiskLinks) (start node : Text) : Prop :=
  ∃ depth < d.holderDepth, (node, depth) ∈ d.visitsFrom start

/-- Along a chain whose nodes are met above the limit the walk comes to the last one. -/
theorem HolderChain.visited {before : List Text} (h : d.HolderChain start before node)
    (hmet : ∀ earlier ∈ before, d.MetAboveLimit start earlier) :
    ∃ depth, (node, depth) ∈ d.visitsFrom start := by
  cases h with
  | here =>
    have hstack : (start, 0) ∈ [(start, (0 : Int))] := List.mem_singleton.2 rfl
    exact visited_of_mem_stack hstack (List.mem_cons_self ..)
  | step _ hholder =>
    obtain ⟨depth, hlt, hvisit⟩ := hmet _ (List.mem_cons_self ..)
    exact visited_of_holder hvisit hlt hholder (mem_reach_of_holder hholder)

theorem depth_unique {k l : Int} (hk : (node, k) ∈ d.visitsFrom start)
    (hl : (node, l) ∈ d.visitsFrom start) : k = l :=
  (Prod.mk.inj (List.inj_on_of_nodup_map nodup_visits hk hl rfl)).2

theorem depth_le {k : Int} (h : 0 ≤ d.holderDepth) (hk : (node, k) ∈ d.visitsFrom start) :
    k ≤ d.holderDepth := by
  rcases parent_of_visit hk with hstack | ⟨parent, l, -, hl, -, hdepth⟩
  · cases List.mem_singleton.1 hstack
    exact h
  · simp only at hdepth
    omega

theorem depth_nonneg {k : Int} (hk : (node, k) ∈ d.visitsFrom start) : 0 ≤ k := by
  refine nonneg_of_visit (fun e he => ?_) hk
  cases List.mem_singleton.1 he
  exact Int.le_refl 0

/-- The depth of a visit is the number of links of a chain, whose nodes are met one after the other
and above the limit. So the chain repeats none. -/
theorem chain_of_visit {links : Nat} (h : (node, (links : Int)) ∈ d.visitsFrom start) :
    ∃ before, d.HolderChain start before node ∧ before.length = links ∧ (node :: before).Nodup ∧
      ∀ earlier ∈ before, ∃ depth < (links : Int), depth < d.holderDepth ∧
        (earlier, depth) ∈ d.visitsFrom start := by
  induction links generalizing node with
  | zero =>
    rcases parent_of_visit h with hstack | ⟨parent, k, hparent, -, -, hdepth⟩
    · cases List.mem_singleton.1 hstack
      exact ⟨[], .here, rfl, List.nodup_singleton _, by simp⟩
    · have hk := depth_nonneg hparent
      simp only at hdepth
      omega
  | succ links ih =>
    rcases parent_of_visit h with hstack | ⟨parent, k, hparent, hk, hholder, hdepth⟩
    · have hzero := (Prod.mk.inj (List.mem_singleton.1 hstack)).2
      omega
    · obtain rfl : k = links := by
        simp only at hdepth
        omega
      obtain ⟨before, hchain, hlength, hnodup, hmet⟩ := ih hparent
      have hmet' : ∀ earlier ∈ parent :: before, ∃ depth < ((links + 1 : Nat) : Int),
          depth < d.holderDepth ∧ (earlier, depth) ∈ d.visitsFrom start := by
        intro earlier hearlier
        rcases List.mem_cons.1 hearlier with rfl | hearlier
        · exact ⟨links, by omega, hk, hparent⟩
        · obtain ⟨depth, hlt, hlimit, hvisit⟩ := hmet earlier hearlier
          exact ⟨depth, by omega, hlimit, hvisit⟩
      refine ⟨parent :: before, hchain.step hholder, by rw [List.length_cons, hlength], ?_, hmet'⟩
      -- the nodes before this one are visited at smaller depths, and each at one only
      refine List.nodup_cons.2 ⟨fun hrepeated => ?_, hnodup⟩
      obtain ⟨depth, hlt, -, hvisit⟩ := hmet' node hrepeated
      have hsame := depth_unique hvisit h
      omega

/-- Nodes that no chain of the full length leads to are met above the limit, if their chain consists
of such nodes. -/
theorem HolderChain.metAboveLimit (h : 0 ≤ d.holderDepth) {before : List Text}
    (hchain : d.HolderChain start before node)
    (hopen : ∀ earlier ∈ before, ¬ d.EndsAtLimit start earlier) :
    ∀ earlier ∈ before, d.MetAboveLimit start earlier := by
  induction hchain with
  | here => simp
  | @step before node holder hchain hholder ih =>
    have hmet := ih fun earlier hearlier => hopen earlier (List.mem_cons_of_mem _ hearlier)
    intro earlier hearlier
    rcases List.mem_cons.1 hearlier with rfl | hearlier
    · obtain ⟨depth, hvisit⟩ := hchain.visited hmet
      obtain ⟨links, rfl⟩ := Int.eq_ofNat_of_zero_le (depth_nonneg hvisit)
      refine ⟨links, ?_, hvisit⟩
      have hle := depth_le h hvisit
      -- met at the limit, the node would end a chain of the full length
      by_contra hlimit
      obtain ⟨other, hother, hlength, hnodup, -⟩ := chain_of_visit hvisit
      refine hopen earlier (List.mem_cons_self ..) ⟨other, hother, hnodup, ?_⟩
      omega
    · exact hmet earlier hearlier

/-! ## The identifier -/

theorem scsiId_isSome_of_visit {withoutType : Bool} {k : Int}
    (hvisit : (node, k) ∈ d.visitsFrom start) (hown : (d.ownId withoutType node).isSome) :
    (d.scsiId start withoutType).isSome := by
  rw [scsiId_eq_findSome?, List.findSome?_isSome_iff]
  exact ⟨(node, k), hvisit, hown⟩

/-- A walk finds an identifier exactly if a chain within the limit leads to a node that has one,
along nodes that are met above the limit. These are at least all the nodes to which no chain of
the full length leads. -/
theorem scsiId_isSome_iff_of_nonneg (d : DiskLinks) (h : 0 ≤ d.holderDepth) (start : Text)
    (withoutType : Bool) :
    ((d.scsiId start withoutType).isSome ↔
      ∃ before node, d.HolderChain start before node ∧ (before.length : Int) ≤ d.holderDepth ∧
        (d.ownId withoutType node).isSome ∧
        ∀ earlier ∈ before, d.MetAboveLimit start earlier) ∧
    ∀ before node, d.HolderChain start before node → (before.length : Int) ≤ d.holderDepth →
      (d.ownId withoutType node).isSome → (∀ earlier ∈ before, ¬ d.EndsAtLimit start earlier) →
      (d.scsiId start withoutType).isSome := by
  refine ⟨⟨fun hsome => ?_, ?_⟩, ?_⟩
  · rw [scsiId_eq_findSome?, List.findSome?_isSome_iff] at hsome
    obtain ⟨⟨node, depth⟩, hvisit, hown⟩ := hsome
    obtain ⟨links, rfl⟩ := Int.eq_ofNat_of_zero_le (depth_nonneg hvisit)
    obtain ⟨before, hchain, rfl, -, hmet⟩ := chain_of_visit hvisit
    refine ⟨before, node, hchain, depth_le h hvisit, hown, fun earlier hearlier => ?_⟩
    obtain ⟨depth, -, hlimit, hmet⟩ := hmet earlier hearlier
    exact ⟨depth, hlimit, hmet⟩
  · rintro ⟨before, node, hchain, -, hown, hmet⟩
    obtain ⟨depth, hvisit⟩ := hchain.visited hmet
    exact scsiId_isSome_of_visit hvisit hown
  · intro before node hchain _ hown hopen
    obtain ⟨depth, hvisit⟩ := hchain.visited (hchain.metAboveLimit h hopen)
    exact scsiId_isSome_of_visit hvisit hown

/-- Of the holders `b` and `c` of the disk `a`, the second holds the first as well and is held by
`d`, which has an identifier. -/
def crossing : DiskLinks where
  sysfs := .mounted
    ([("/dev/a", Node.device .block ⟨8, 0⟩ 1), ("/dev/b", .device .block ⟨8, 16⟩ 1),
      ("/dev/c", .device .block ⟨8, 32⟩ 1), ("/dev/d", .device .block ⟨8, 48⟩ 1),
      ("/dev/disk/by-id/scsi-3d", .link "../../d"),
      ("/sys/class/block/a/holders/b", .directory true),
      ("/sys/class/block/a/holders/c", .directory true),
      ("/sys/class/block/b/holders/c", .directory true),
      ("/sys/class/block/c/holders/d", .directory true)].foldl
        (fun t (path, node) => t.put (Path.ofText path) node) {}) "/sys"
  deviceDir := "/dev"
  holderDepth := 2

theorem crossing_holders :
    crossing.holders "/dev/a" = (["/dev/b", "/dev/c"] : List Text) ∧
      crossing.holders "/dev/b" = (["/dev/c"] : List Text) ∧
      crossing.holders "/dev/c" = (["/dev/d"] : List Text) := by
  decide +kernel

theorem crossing_ids :
    crossing.ownId false "/dev/a" = none ∧ crossing.ownId false "/dev/b" = none ∧
      crossing.ownId false "/dev/c" = none ∧
      crossing.ownId false "/dev/d" = some ("3d" : Text) := by
  decide +kernel

/-- The holder `d` of `c` is found from `c`. -/
theorem scsiId_of_direct_holder :
    0 ≤ crossing.holderDepth ∧ (crossing.scsiId "/dev/c").isSome := by
  obtain ⟨-, -, hc⟩ := crossing_holders
  obtain ⟨-, -, -, hid⟩ := crossing_ids
  have hlimit : 0 ≤ crossing.holderDepth := by decide
  have hchain : crossing.HolderChain "/dev/c" ["/dev/c"] "/dev/d" :=
    .step .here (hc ▸ by decide)
  refine ⟨hlimit, (scsiId_isSome_iff_of_nonneg crossing hlimit "/dev/c" false).2 _ _ hchain
    (by decide) (by rw [hid]; rfl) ?_⟩
  intro earlier hearlier
  rw [List.mem_singleton.1 hearlier]
  exact not_endsAtLimit_start (by decide)

/-- It is not found from `a`, although it is two links away: the walk meets `c` at the limit, as
the holder of `b`, before it would meet it as the holder of `a`. -/
theorem scsiId_of_crossing :
    crossing.holderDepth = 2 ∧ crossing.HolderChain "/dev/a" ["/dev/c", "/dev/a"] "/dev/d" ∧
      (crossing.ownId false "/dev/d").isSome ∧ crossing.scsiId "/dev/a" = none := by
  obtain ⟨ha, hb, hc⟩ := crossing_holders
  obtain ⟨hida, hidb, hidc, hidd⟩ := crossing_ids
  have hba : ("/dev/b" : Text) ∈ crossing.holders "/dev/a" := ha ▸ by decide
  have hca : ("/dev/c" : Text) ∈ crossing.holders "/dev/a" := ha ▸ by decide
  have hdc : ("/dev/d" : Text) ∈ crossing.holders "/dev/c" := hc ▸ by decide
  refine ⟨rfl, .step (.step .here hca) hdc, by rw [hidd]; rfl, ?_⟩
  have hstart : ("/dev/a" : Text) ∈ crossing.reach "/dev/a" := List.mem_cons_self ..
  let left := without "/dev/b" (without "/dev/a" (crossing.reach "/dev/a"))
  have hleft : ("/dev/c" : Text) ∈ left :=
    mem_without.2 ⟨mem_without.2 ⟨mem_reach_of_holder hca, by decide⟩, by decide⟩
  have hgone : ("/dev/c" : Text) ∉ without "/dev/c" left := fun h => (mem_without.1 h).2 rfl
  calc crossing.scsiId "/dev/a"
      = crossing.walk false (without "/dev/a" (crossing.reach "/dev/a"))
          [("/dev/b".toList, 1), ("/dev/c".toList, 1)] := by
        rw [scsiId, walk_cons, if_pos hstart, hida, Option.none_or, pushHolders, ha]
        rfl
    _ = crossing.walk false left [("/dev/c".toList, 2), ("/dev/c".toList, 1)] := by
        rw [walk_cons, if_pos (mem_without.2 ⟨mem_reach_of_holder hba, by decide⟩), hidb,
          Option.none_or, pushHolders, hb]
        rfl
    _ = crossing.walk false (without "/dev/c" left) [("/dev/c".toList, 1)] := by
        rw [walk_cons, if_pos hleft, hidc, Option.none_or]
        rfl
    _ = none := by rw [walk_cons, if_neg hgone, walk]

end StorageAtlas.DiskLinks
