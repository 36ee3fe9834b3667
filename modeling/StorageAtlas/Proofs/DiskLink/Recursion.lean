import Mathlib.Data.Set.Card
import StorageAtlas.Proofs.DiskLink.Reach

/-!
The walk through the holders against a search that calls itself for each holder
and hands on the nodes it has visited. The walk keeps its nodes on a stack, some
of them twice and each with its depth. Both look up the same nodes in the same
order, none twice, so both come to an end where disks hold each other in a
circle; and where the limit is never reached, that order is depth first.
-/

namespace StorageAtlas.DiskLinks

variable {d : DiskLinks} {start node : Text} {depth : Int} {withoutType : Bool}
  {visited unvisited : List Text} {stack : List (Text × Int)}

/-! ## The search -/

/-- What a search comes to: the identifier, and the nodes that have been looked up, latest first. -/
structure Found where
  ident : Option Text
  visited : List Text

/-- The search goes on with what has been visited unless there is an identifier. -/
def Found.otherwise (found : Found) (next : List Text → Found) : Found :=
  match found.ident with
  | some _ => found
  | none => next found.visited

/-- Asks about one after the other, up to the first identifier. -/
def inTurn {α : Type} (ask : List Text → α → Found) : List Text → List α → Found
  | visited, [] => ⟨none, visited⟩
  | visited, a :: rest => (ask visited a).otherwise fun visited => inTurn ask visited rest

/-- Looks up a node that was not visited, and then searches its holders, in ascending order of their
names, as long as so many holders in a row may be followed. -/
def visit (d : DiskLinks) (withoutType : Bool) : Nat → List Text → Text → Found
  | 0, visited, node =>
    if visited.contains node then ⟨none, visited⟩ else ⟨d.ownId withoutType node, node :: visited⟩
  | links + 1, visited, node =>
    if visited.contains node then ⟨none, visited⟩
    else Found.otherwise ⟨d.ownId withoutType node, node :: visited⟩ fun visited =>
      inTurn (visit d withoutType links) visited (d.holders node)

/-- The loop of the walk, turn by turn, with the nodes visited so far and the stack. Each turn takes
one node, and a node is looked up in the turn in which it becomes a visited one. -/
inductive Ends (d : DiskLinks) (withoutType : Bool) :
    List Text → List (Text × Int) → Found → Prop
  | empty {visited : List Text} : Ends d withoutType visited [] ⟨none, visited⟩
  | again {visited : List Text} {node : Text} {depth : Int} {stack : List (Text × Int)}
      {found : Found} (h : node ∈ visited) (rest : Ends d withoutType visited stack found) :
      Ends d withoutType visited ((node, depth) :: stack) found
  | known {visited : List Text} {node ident : Text} {depth : Int} {stack : List (Text × Int)}
      (h : node ∉ visited) (hid : d.ownId withoutType node = some ident) :
      Ends d withoutType visited ((node, depth) :: stack) ⟨some ident, node :: visited⟩
  | unknown {visited : List Text} {node : Text} {depth : Int} {stack : List (Text × Int)}
      {found : Found} (h : node ∉ visited) (hid : d.ownId withoutType node = none)
      (rest : Ends d withoutType (node :: visited) (d.pushHolders node depth stack) found) :
      Ends d withoutType visited ((node, depth) :: stack) found

/-! ## Asking in turn -/

/-- A node that was visited is passed over, however many holders may be followed. -/
theorem visit_of_visited (links : Nat) (h : node ∈ visited) :
    d.visit withoutType links visited node = ⟨none, visited⟩ := by
  cases links with
  | zero => simp [visit, h]
  | succ links => simp [visit, h]

/-- A node that has an identifier ends the search, however many holders may be followed. -/
theorem visit_of_known {ident : Text} (links : Nat) (h : node ∉ visited)
    (hid : d.ownId withoutType node = some ident) :
    d.visit withoutType links visited node = ⟨some ident, node :: visited⟩ := by
  cases links with
  | zero => simp [visit, h, hid]
  | succ links => simp [visit, h, hid, Found.otherwise]

theorem visit_zero_of_unknown (h : node ∉ visited) (hid : d.ownId withoutType node = none) :
    d.visit withoutType 0 visited node = ⟨none, node :: visited⟩ := by
  simp [visit, h, hid]

theorem visit_succ_of_unknown (links : Nat) (h : node ∉ visited)
    (hid : d.ownId withoutType node = none) :
    d.visit withoutType (links + 1) visited node =
      inTurn (d.visit withoutType links) (node :: visited) (d.holders node) := by
  simp [visit, h, hid, Found.otherwise]

theorem Found.otherwise_assoc (found : Found) (next later : List Text → Found) :
    (found.otherwise next).otherwise later =
      found.otherwise fun visited => (next visited).otherwise later := by
  obtain ⟨ident, visited⟩ := found
  cases ident with
  | some ident => rfl
  | none => rfl

theorem Found.otherwise_end (found : Found) :
    (found.otherwise fun visited => ⟨none, visited⟩) = found := by
  obtain ⟨ident, visited⟩ := found
  cases ident with
  | some ident => rfl
  | none => rfl

theorem inTurn_append {α : Type} (ask : List Text → α → Found) (visited : List Text)
    (first second : List α) :
    inTurn ask visited (first ++ second) =
      (inTurn ask visited first).otherwise fun visited => inTurn ask visited second := by
  induction first generalizing visited with
  | nil => rfl
  | cons a rest ih =>
    rw [List.cons_append, inTurn, inTurn, Found.otherwise_assoc]
    congr 1
    funext visited
    exact ih visited

theorem inTurn_map {α β : Type} (ask : List Text → β → Found) (f : α → β) (visited : List Text)
    (l : List α) :
    inTurn ask visited (l.map f) = inTurn (fun visited a => ask visited (f a)) visited l := by
  induction l generalizing visited with
  | nil => rfl
  | cons a rest ih =>
    rw [List.map_cons, inTurn, inTurn]
    congr 1
    funext visited
    exact ih visited

/-- The search from a node on the stack, which may follow what its depth leaves of the limit. -/
def visitAt (d : DiskLinks) (withoutType : Bool) (visited : List Text) (e : Text × Int) : Found :=
  d.visit withoutType (d.holderDepth - e.2).toNat visited e.1

/-- Searching a node and then the stack is searching the stack after the node's turn. -/
theorem inTurn_pushHolders (hnode : node ∉ visited) (hid : d.ownId withoutType node = none) :
    inTurn (d.visitAt withoutType) visited ((node, depth) :: stack) =
      inTurn (d.visitAt withoutType) (node :: visited) (d.pushHolders node depth stack) := by
  rw [inTurn, visitAt, pushHolders]
  by_cases hlimit : d.holderDepth ≤ depth
  · have hlinks : (d.holderDepth - depth).toNat = 0 := by omega
    rw [if_pos hlimit, hlinks, visit_zero_of_unknown hnode hid]
    rfl
  · obtain ⟨links, hlinks⟩ : ∃ links, (d.holderDepth - depth).toNat = links + 1 :=
      ⟨(d.holderDepth - depth).toNat - 1, by omega⟩
    have hbelow : (d.holderDepth - (depth + 1)).toNat = links := by omega
    rw [if_neg hlimit, hlinks, visit_succ_of_unknown links hnode hid, inTurn_append, inTurn_map]
    simp only [visitAt, hbelow]

/-! ## The walk -/

/-- What the walk from `start` has left unvisited agrees with the visited nodes: of the nodes that the
walk can come to, they are the others. It comes to nothing else. -/
structure Keeps (d : DiskLinks) (start : Text) (visited unvisited : List Text)
    (stack : List (Text × Int)) : Prop where
  others : ∀ node ∈ d.reach start, node ∈ unvisited ↔ node ∉ visited
  within : ∀ e ∈ stack, e.1 ∈ d.reach start

theorem keeps_start (d : DiskLinks) (start : Text) :
    d.Keeps start [] (d.reach start) [(start, 0)] where
  others node hnode := by simp [hnode]
  within e he := by
    rw [List.mem_singleton.1 he]
    exact List.mem_cons_self

namespace Keeps

theorem unvisited_iff (h : d.Keeps start visited unvisited ((node, depth) :: stack)) :
    node ∈ unvisited ↔ node ∉ visited :=
  h.others node (h.within _ List.mem_cons_self)

theorem visited_of_not_mem (h : d.Keeps start visited unvisited ((node, depth) :: stack))
    (hgone : node ∉ unvisited) : node ∈ visited := by
  rw [h.unvisited_iff, not_not] at hgone
  exact hgone

theorem again (h : d.Keeps start visited unvisited ((node, depth) :: stack)) :
    d.Keeps start visited unvisited stack where
  others := h.others
  within e he := h.within e (List.mem_cons_of_mem _ he)

theorem unknown (h : d.Keeps start visited unvisited ((node, depth) :: stack)) :
    d.Keeps start (node :: visited) (without node unvisited) (d.pushHolders node depth stack) where
  others other hother := by
    rw [mem_without, h.others other hother, List.mem_cons, not_or, and_comm]
  within e he := by
    rcases mem_pushHolders.1 he with he | ⟨-, hholder, -⟩
    · exact h.again.within e he
    · exact mem_reach_of_holder hholder

end Keeps

/-- The loop comes to an end, with what the search finds. -/
theorem ends_inTurn (hkeeps : d.Keeps start visited unvisited stack) :
    d.Ends withoutType visited stack (inTurn (d.visitAt withoutType) visited stack) := by
  fun_induction visits d unvisited stack generalizing visited with
  | case1 unvisited => exact .empty
  | case2 unvisited node depth stack hmem ih =>
    have hnode : node ∉ visited := hkeeps.unvisited_iff.1 hmem
    cases hid : d.ownId withoutType node with
    | some ident =>
      rw [inTurn, visitAt, visit_of_known _ hnode hid]
      exact .known hnode hid
    | none =>
      rw [inTurn_pushHolders hnode hid]
      exact .unknown hnode hid (ih hkeeps.unknown)
  | case3 unvisited node depth stack hmem ih =>
    have hnode : node ∈ visited := hkeeps.visited_of_not_mem hmem
    rw [inTurn, visitAt, visit_of_visited _ hnode]
    exact .again hnode (ih hkeeps.again)

/-- Where the loop ends is where the walk ends. -/
theorem Ends.walk_eq {found : Found} (h : d.Ends withoutType visited stack found)
    (hkeeps : d.Keeps start visited unvisited stack) :
    d.walk withoutType unvisited stack = found.ident := by
  induction h generalizing unvisited with
  | empty => rw [walk]
  | @again visited node depth stack found hnode rest ih =>
    have hgone : node ∉ unvisited := fun hmem => hkeeps.unvisited_iff.1 hmem hnode
    rw [walk_cons, if_neg hgone]
    exact ih hkeeps.again
  | @known visited node ident depth stack hnode hid =>
    rw [walk_cons, if_pos (hkeeps.unvisited_iff.2 hnode), hid, Option.some_or]
  | @unknown visited node depth stack found hnode hid rest ih =>
    rw [walk_cons, if_pos (hkeeps.unvisited_iff.2 hnode), hid, Option.none_or]
    exact ih hkeeps.unknown

/-- No node is looked up twice. -/
theorem Ends.nodup {found : Found} (h : d.Ends withoutType visited stack found)
    (hvisited : visited.Nodup) : found.visited.Nodup := by
  induction h with
  | empty => exact hvisited
  | again _ _ ih => exact ih hvisited
  | known hnode _ => exact List.nodup_cons.2 ⟨hnode, hvisited⟩
  | unknown hnode _ _ ih => exact ih (List.nodup_cons.2 ⟨hnode, hvisited⟩)

/-! ## From one node -/

theorem visit_eq_inTurn (d : DiskLinks) (withoutType : Bool) (start : Text) :
    d.visit withoutType d.holderDepth.toNat [] start =
      inTurn (d.visitAt withoutType) [] [(start, 0)] := by
  simp only [inTurn, Found.otherwise_end, visitAt, Int.sub_zero]

theorem ends_visit (d : DiskLinks) (withoutType : Bool) (start : Text) :
    d.Ends withoutType [] [(start, 0)] (d.visit withoutType d.holderDepth.toNat [] start) := by
  rw [visit_eq_inTurn]
  exact ends_inTurn (d.keeps_start start)

theorem scsiId_eq_visit (d : DiskLinks) (withoutType : Bool) (start : Text) :
    d.scsiId start withoutType = (d.visit withoutType d.holderDepth.toNat [] start).ident :=
  (d.ends_visit withoutType start).walk_eq (d.keeps_start start)

/-! ## Where an identifier comes from -/

/-- No visit is deeper than the limit; below zero that is as good as zero. -/
theorem links_le {links : Nat} (h : (node, (links : Int)) ∈ d.visitsFrom start) :
    links ≤ d.holderDepth.toNat := by
  rcases parent_of_visit h with hstack | ⟨parent, k, -, hk, -, hdepth⟩
  · have hzero := (Prod.mk.inj (List.mem_singleton.1 hstack)).2
    omega
  · simp only at hdepth
    omega

theorem chain_of_scsiId {ident : Text} (h : d.scsiId start withoutType = some ident) :
    ∃ before node, d.HolderChain start before node ∧ before.length ≤ d.holderDepth.toNat ∧
      d.ownId withoutType node = some ident := by
  rw [scsiId_eq_findSome?] at h
  obtain ⟨⟨node, depth⟩, hvisit, hid⟩ := List.exists_of_findSome?_eq_some h
  obtain ⟨links, rfl⟩ := Int.eq_ofNat_of_zero_le (depth_nonneg hvisit)
  obtain ⟨before, hchain, hlength, -⟩ := chain_of_visit hvisit
  exact ⟨before, node, hchain, hlength ▸ links_le hvisit, hid⟩

/-! ## Depth first -/

/-- The elements that are met first when a list is gone through, after each new one those next to it.
Those in `seen` are passed over. -/
inductive PreOrder {α : Type} (next : α → List α) : Set α → List α → List α → Prop
  | done {seen : Set α} : PreOrder next seen [] []
  | pass {seen : Set α} {a : α} {rest order : List α} (h : a ∈ seen)
      (later : PreOrder next seen rest order) : PreOrder next seen (a :: rest) order
  | meet {seen : Set α} {a : α} {rest below after : List α} (h : a ∉ seen)
      (down : PreOrder next (insert a seen) (next a) below)
      (later : PreOrder next (insert a seen ∪ {b | b ∈ below}) rest after) :
      PreOrder next seen (a :: rest) (a :: (below ++ after))

namespace PreOrder

variable {α : Type} {next : α → List α} {seen : Set α} {work order order' : List α}

theorem unique (h : PreOrder next seen work order) (h' : PreOrder next seen work order') :
    order = order' := by
  induction h generalizing order' with
  | done =>
    cases h'
    rfl
  | pass hseen _ ih =>
    cases h' with
    | pass _ later => exact ih later
    | meet hnew _ _ => exact absurd hseen hnew
  | meet hnew _ _ ihdown ihlater =>
    cases h' with
    | pass hseen _ => exact absurd hseen hnew
    | meet _ down later =>
      obtain rfl := ihdown down
      rw [ihlater later]

/-- Two lists gone through one after the other. -/
theorem of_append {first second : List α} (h : PreOrder next seen (first ++ second) order) :
    ∃ below after, order = below ++ after ∧ PreOrder next seen first below ∧
      PreOrder next (seen ∪ {b | b ∈ below}) second after := by
  generalize hwork : first ++ second = work at h
  induction h generalizing first with
  | done =>
    obtain ⟨rfl, rfl⟩ := List.append_eq_nil_iff.1 hwork
    exact ⟨[], [], rfl, .done, .done⟩
  | @pass seen a rest order hseen later ih =>
    cases first with
    | nil =>
      obtain rfl := hwork
      refine ⟨[], order, rfl, .done, ?_⟩
      simpa using PreOrder.pass hseen later
    | cons b first =>
      obtain ⟨rfl, hrest⟩ := List.cons.inj hwork
      obtain ⟨below, after, rfl, hbelow, hafter⟩ := ih hrest
      exact ⟨below, after, rfl, .pass hseen hbelow, hafter⟩
  | @meet seen a rest inner after hnew down later ihdown ihlater =>
    cases first with
    | nil =>
      obtain rfl := hwork
      refine ⟨[], _, rfl, .done, ?_⟩
      simpa using PreOrder.meet hnew down later
    | cons b first =>
      obtain ⟨rfl, hrest⟩ := List.cons.inj hwork
      obtain ⟨below, after, rfl, hbelow, hafter⟩ := ihlater hrest
      refine ⟨b :: (inner ++ below), after, by simp, .meet hnew down hbelow, ?_⟩
      have hseen : seen ∪ {c | c ∈ b :: (inner ++ below)} =
          insert b seen ∪ {c | c ∈ inner} ∪ {c | c ∈ below} := by
        ext c
        simp only [Set.mem_union, Set.mem_ofPred_eq, List.mem_cons, List.mem_append,
          Set.mem_insert_iff]
        tauto
      rw [hseen]
      exact hafter

end PreOrder

/-- Where no visit is at the limit, the visits go depth first. -/
theorem preOrder_visits (hkeeps : d.Keeps start visited unvisited stack)
    (habove : ∀ e ∈ d.visits unvisited stack, e.2 < d.holderDepth) :
    PreOrder d.holders {node | node ∈ visited} (stack.map Prod.fst)
      ((d.visits unvisited stack).map Prod.fst) := by
  fun_induction visits d unvisited stack generalizing visited with
  | case1 unvisited => exact .done
  | case2 unvisited node depth stack hmem ih =>
    have hdepth : ¬ d.holderDepth ≤ depth := Int.not_le.2 (habove _ List.mem_cons_self)
    have hrest := ih hkeeps.unknown fun e he => habove e (List.mem_cons_of_mem _ he)
    have hwork : (d.pushHolders node depth stack).map Prod.fst =
        d.holders node ++ stack.map Prod.fst := by
      rw [pushHolders, if_neg hdepth, List.map_append, List.map_map]
      simp [Function.comp_def]
    have hseen : {other | other ∈ node :: visited} = insert node {other | other ∈ visited} := by
      ext other
      simp
    rw [hwork, hseen] at hrest
    obtain ⟨below, after, horder, hbelow, hafter⟩ := hrest.of_append
    rw [List.map_cons, List.map_cons, horder]
    exact .meet (hkeeps.unvisited_iff.1 hmem) hbelow hafter
  | case3 unvisited node depth stack hmem ih =>
    exact .pass (hkeeps.visited_of_not_mem hmem) (ih hkeeps.again habove)

/-- The nodes that chains of holders lead to. -/
def reachable (d : DiskLinks) (start : Text) : Set Text :=
  {node | ∃ before, d.HolderChain start before node}

theorem finite_reachable (d : DiskLinks) (start : Text) : (d.reachable start).Finite := by
  refine (d.reach start).finite_toSet.subset ?_
  rintro node ⟨before, hchain⟩
  cases hchain with
  | here => exact List.mem_cons_self
  | step _ hholder => exact mem_reach_of_holder hholder

theorem HolderChain.reachable {before : List Text} (h : d.HolderChain start before node) :
    ∀ earlier ∈ node :: before, earlier ∈ d.reachable start := by
  induction h with
  | here =>
    intro earlier hearlier
    rw [List.mem_singleton.1 hearlier]
    exact ⟨[], .here⟩
  | @step before node holder hchain hholder ih =>
    intro earlier hearlier
    rcases List.mem_cons.1 hearlier with rfl | hearlier
    · exact ⟨_, hchain.step hholder⟩
    · exact ih earlier hearlier

/-- There are more reachable nodes than links on the way to any of them, since no chain of visits
repeats a node. -/
theorem links_lt_ncard {links : Nat} (h : (node, (links : Int)) ∈ d.visitsFrom start) :
    links < (d.reachable start).ncard := by
  obtain ⟨before, hchain, hlength, hnodup, -⟩ := chain_of_visit h
  have hsubset : ((node :: before).toFinset : Set Text) ⊆ d.reachable start := by
    intro earlier hearlier
    rw [Finset.mem_coe, List.mem_toFinset] at hearlier
    exact hchain.reachable earlier hearlier
  have hcard := Set.ncard_le_ncard hsubset (d.finite_reachable start)
  rw [Set.ncard_coe_finset, List.toFinset_card_of_nodup hnodup, List.length_cons] at hcard
  omega

theorem preOrder_visitsFrom (h : ((d.reachable start).ncard : Int) ≤ d.holderDepth) :
    PreOrder d.holders ∅ [start] ((d.visitsFrom start).map Prod.fst) := by
  have habove : ∀ e ∈ d.visitsFrom start, e.2 < d.holderDepth := by
    rintro ⟨node, depth⟩ hvisit
    obtain ⟨links, rfl⟩ := Int.eq_ofNat_of_zero_le (depth_nonneg hvisit)
    have hlinks := links_lt_ncard hvisit
    simp only
    omega
  have hempty : {node : Text | node ∈ ([] : List Text)} = ∅ := by simp
  have horder := preOrder_visits (d.keeps_start start) habove
  rw [hempty] at horder
  exact horder

/-- The walk from a node ends, and with the identifier that the search finds, which looks up the same
nodes in the same order. No node is looked up twice. The identifier is one of a node at the end of a
chain within the limit; and if the limit is not below the number of nodes that chains lead to, it
is that of the first node that has one, depth first. -/
theorem scsiId_depthFirst (d : DiskLinks) (withoutType : Bool) (start : Text) :
    d.scsiId start withoutType = (d.visit withoutType d.holderDepth.toNat [] start).ident ∧
      d.Ends withoutType [] [(start, 0)] (d.visit withoutType d.holderDepth.toNat [] start) ∧
      (d.visit withoutType d.holderDepth.toNat [] start).visited.Nodup ∧
      (∀ ident, d.scsiId start withoutType = some ident →
        ∃ before node, d.HolderChain start before node ∧ before.length ≤ d.holderDepth.toNat ∧
          d.ownId withoutType node = some ident) ∧
      (((d.reachable start).ncard : Int) ≤ d.holderDepth →
        ∃ order, PreOrder d.holders ∅ [start] order ∧
          (∀ other, PreOrder d.holders ∅ [start] other → other = order) ∧
          d.scsiId start withoutType = order.findSome? (d.ownId withoutType)) := by
  have hends := d.ends_visit withoutType start
  refine ⟨d.scsiId_eq_visit withoutType start, hends, hends.nodup List.nodup_nil,
    fun ident => chain_of_scsiId, fun hnodes => ?_⟩
  have horder := preOrder_visitsFrom hnodes
  refine ⟨_, horder, fun other hother => hother.unique horder, ?_⟩
  rw [scsiId_eq_findSome?, List.findSome?_map]
  rfl

end StorageAtlas.DiskLinks
