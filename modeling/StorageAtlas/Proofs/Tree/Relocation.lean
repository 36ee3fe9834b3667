import StorageAtlas.Proofs.Tree.Entries

/-!
A directory of one tree and a copy of it at another place, or in another tree.
As long as no link leads out of the directory, a path below it leads to the same
node in the copy: both lookups follow the same links and end at places that
differ in the way to the directory only.
-/

namespace StorageAtlas

/-- A part of a path that leads down; the others stay where they are or lead up. -/
def Path.IsStep (part : Text) : Prop := part ≠ [] ∧ part ≠ ['.'] ∧ part ≠ ['.', '.']

theorem Path.isStep_of_not {part : Text} (hhere : ¬ (part = [] ∨ part = ['.']))
    (hdots : part ≠ ['.', '.']) : Path.IsStep part :=
  ⟨fun he => hhere (.inl he), fun he => hhere (.inr he), hdots⟩

namespace Tree

/-- The directory `q` of the tree `u` holds what the directory `r` of `t` holds: the same nodes at
the same places below it, and the names in every directory in the same order. -/
structure Relocated (t : Tree) (r : Path) (u : Tree) (q : Path) : Prop where
  node? : ∀ below, t.node? (below ++ r) = u.node? (below ++ q)
  children : ∀ below, t.children (below ++ r) = u.children (below ++ q)

/-- Do parts lead above the directory `r`, from a place below it? The parts of a link are followed
from the directory in which the link stands. -/
inductive Leaves (t : Tree) (r : Path) : Path → List Text → Prop
  | up {rest : List Text} : Leaves t r [] (['.', '.'] :: rest)
  | back {name : Text} {here : Path} {rest : List Text} (next : Leaves t r here rest) :
      Leaves t r (name :: here) (['.', '.'] :: rest)
  | stay {here : Path} {part : Text} {rest : List Text} (isHere : part = [] ∨ part = ['.'])
      (next : Leaves t r here rest) : Leaves t r here (part :: rest)
  | down {here : Path} {part : Text} {rest : List Text} (isStep : Path.IsStep part)
      (noLink : ∀ target, t.node? (part :: here ++ r) ≠ some (.link target))
      (next : Leaves t r (part :: here) rest) : Leaves t r here (part :: rest)
  | follow {here : Path} {part target : Text} {rest : List Text} (isStep : Path.IsStep part)
      (isLink : t.node? (part :: here ++ r) = some (.link target))
      (next : Leaves t r here (Text.splitOn '/' target ++ rest)) : Leaves t r here (part :: rest)

/-- The links below the directory are relative, and none of them leads above it. -/
def LinksStay (t : Tree) (r : Path) : Prop :=
  ∀ name here target, t.node? (name :: here ++ r) = some (.link target) →
    target.head? ≠ some '/' ∧ ¬ t.Leaves r here (Text.splitOn '/' target)

/-- Two lookups with one outcome, an error or a place below both directories. -/
def Agree (r q : Path) (x y : Except LookupError Path) : Prop :=
  ∃ z : Except LookupError Path, x = z.map (· ++ r) ∧ y = z.map (· ++ q)

variable {t u : Tree} {r q : Path}

/-! ## Leaving -/

theorem not_leaves_nil (here : Path) : ¬ t.Leaves r here [] := by
  intro h
  cases h

/-! One lemma for each sort of first part. -/

theorem leaves_stay_iff {here : Path} {part : Text} {rest : List Text}
    (h : part = [] ∨ part = ['.']) : t.Leaves r here (part :: rest) ↔ t.Leaves r here rest := by
  constructor
  · intro hleaves
    cases hleaves with
    | up => rcases h with h | h <;> cases h
    | back => rcases h with h | h <;> cases h
    | stay _ next => exact next
    | down isStep => exact absurd h (not_or.2 ⟨isStep.1, isStep.2.1⟩)
    | follow isStep => exact absurd h (not_or.2 ⟨isStep.1, isStep.2.1⟩)
  · exact .stay h

theorem leaves_back_iff {name : Text} {here : Path} {rest : List Text} :
    t.Leaves r (name :: here) (['.', '.'] :: rest) ↔ t.Leaves r here rest := by
  constructor
  · intro hleaves
    cases hleaves with
    | back next => exact next
    | stay isHere => rcases isHere with h | h <;> cases h
    | down isStep => exact absurd rfl isStep.2.2
    | follow isStep => exact absurd rfl isStep.2.2
  · exact .back

theorem leaves_down_iff {here : Path} {part : Text} {rest : List Text} (hstep : Path.IsStep part)
    (hnoLink : ∀ target, t.node? (part :: here ++ r) ≠ some (.link target)) :
    t.Leaves r here (part :: rest) ↔ t.Leaves r (part :: here) rest := by
  constructor
  · intro hleaves
    cases hleaves with
    | up => exact absurd rfl hstep.2.2
    | back => exact absurd rfl hstep.2.2
    | stay isHere => exact absurd isHere (not_or.2 ⟨hstep.1, hstep.2.1⟩)
    | down _ _ next => exact next
    | follow _ isLink => exact absurd isLink (hnoLink _)
  · exact .down hstep hnoLink

theorem leaves_follow_iff {here : Path} {part target : Text} {rest : List Text}
    (hstep : Path.IsStep part) (hlink : t.node? (part :: here ++ r) = some (.link target)) :
    t.Leaves r here (part :: rest) ↔ t.Leaves r here (Text.splitOn '/' target ++ rest) := by
  constructor
  · intro hleaves
    cases hleaves with
    | up => exact absurd rfl hstep.2.2
    | back => exact absurd rfl hstep.2.2
    | stay isHere => exact absurd isHere (not_or.2 ⟨hstep.1, hstep.2.1⟩)
    | down _ noLink => exact absurd hlink (noLink target)
    | follow _ isLink next =>
      have hsame := isLink.symm.trans hlink
      obtain rfl := Node.link.inj (Option.some.inj hsame)
      exact next
  · exact .follow hstep hlink

/-- Parts that lead out do so before others that cannot, wherever these begin. -/
theorem Leaves.of_append {here : Path} {before after : List Text}
    (h : t.Leaves r here (before ++ after)) (hafter : ∀ place, ¬ t.Leaves r place after) :
    t.Leaves r here before := by
  generalize hparts : before ++ after = parts at h
  induction h generalizing before with
  | up =>
    cases before with
    | nil =>
      obtain rfl : after = _ := hparts
      exact absurd (.up) (hafter [])
    | cons part more =>
      obtain ⟨rfl, -⟩ := List.cons.inj hparts
      exact .up
  | @back name here rest next ih =>
    cases before with
    | nil =>
      obtain rfl : after = _ := hparts
      exact absurd (.back next) (hafter (name :: here))
    | cons part more =>
      obtain ⟨rfl, hmore⟩ := List.cons.inj hparts
      exact .back (ih hmore)
  | @stay here part rest isHere next ih =>
    cases before with
    | nil =>
      obtain rfl : after = _ := hparts
      exact absurd (.stay isHere next) (hafter here)
    | cons part more =>
      obtain ⟨rfl, hmore⟩ := List.cons.inj hparts
      exact .stay isHere (ih hmore)
  | @down here part rest isStep noLink next ih =>
    cases before with
    | nil =>
      obtain rfl : after = _ := hparts
      exact absurd (.down isStep noLink next) (hafter here)
    | cons part more =>
      obtain ⟨rfl, hmore⟩ := List.cons.inj hparts
      exact .down isStep noLink (ih hmore)
  | @follow here part target rest isStep isLink next ih =>
    cases before with
    | nil =>
      obtain rfl : after = _ := hparts
      exact absurd (.follow isStep isLink next) (hafter here)
    | cons part more =>
      obtain ⟨rfl, hmore⟩ := List.cons.inj hparts
      have htarget : (Text.splitOn '/' target ++ more) ++ after = Text.splitOn '/' target ++ rest :=
        (List.append_assoc _ _ _).trans (congrArg _ hmore)
      exact .follow isStep isLink (ih htarget)

theorem Leaves.append {here : Path} {before : List Text} (h : t.Leaves r here before)
    (after : List Text) : t.Leaves r here (before ++ after) := by
  induction h with
  | up => exact .up
  | back _ ih => exact .back ih
  | stay isHere _ ih => exact .stay isHere ih
  | down isStep noLink _ ih => exact .down isStep noLink ih
  | follow isStep isLink _ ih => exact .follow isStep isLink (List.append_assoc _ _ _ ▸ ih)

/-- Only two dots can lead out if no link does. -/
theorem not_leaves_of_not_mem (hlinks : t.LinksStay r) {parts : List Text}
    (h : ['.', '.'] ∉ parts) (here : Path) : ¬ t.Leaves r here parts := by
  induction parts generalizing here with
  | nil => exact not_leaves_nil here
  | cons part rest ih =>
    simp only [List.mem_cons, not_or] at h
    obtain ⟨hpart, hrest⟩ := h
    intro hleaves
    cases hleaves with
    | up => exact hpart rfl
    | back => exact hpart rfl
    | stay _ next => exact ih hrest here next
    | down _ _ next => exact ih hrest _ next
    | follow _ isLink next => exact (hlinks _ _ _ isLink).2 (next.of_append (ih hrest))

/-! ## Lookups in a copy -/

theorem Relocated.isDirectory (h : Relocated t r u q) (below : Path) :
    t.isDirectory (below ++ r) = u.isDirectory (below ++ q) := by
  rw [Tree.isDirectory, Tree.isDirectory, h.node?]

theorem Relocated.walkWith (h : Relocated t r u q) (hlinks : t.LinksStay r) (follow : Bool)
    {onLink onLink' : Path → List Text → Except LookupError Path}
    (honLink : ∀ start parts, ¬ t.Leaves r start parts →
      Agree r q (onLink (start ++ r) parts) (onLink' (start ++ q) parts))
    {here : Path} {parts : List Text} (hstay : ¬ t.Leaves r here parts) :
    Agree r q (t.walkWith follow onLink (here ++ r) parts)
      (u.walkWith follow onLink' (here ++ q) parts) := by
  induction parts generalizing here with
  | nil => exact ⟨.ok here, rfl, rfl⟩
  | cons part rest ih =>
    rw [Tree.walkWith, Tree.walkWith, ← h.isDirectory]
    cases t.isDirectory (here ++ r) with
    | false => exact ⟨.error .notADirectory, rfl, rfl⟩
    | true =>
      simp only [Bool.not_true, Bool.false_eq_true, if_false]
      by_cases hhere : part = [] ∨ part = ['.']
      · rw [if_pos hhere, if_pos hhere]
        exact ih ((not_congr (leaves_stay_iff hhere)).1 hstay)
      · rw [if_neg hhere, if_neg hhere]
        by_cases hdots : part = ['.', '.']
        · subst hdots
          rw [if_pos rfl, if_pos rfl]
          cases here with
          | nil => exact absurd .up hstay
          | cons name above => exact ih ((not_congr leaves_back_iff).1 hstay)
        · rw [if_neg hdots, if_neg hdots]
          have hstep := Path.isStep_of_not hhere hdots
          have hnode := h.node? (part :: here)
          simp only [List.cons_append] at hnode
          rw [← hnode]
          cases hfound : t.node? (part :: (here ++ r)) with
          | none => exact ⟨.error .notFound, rfl, rfl⟩
          | some node =>
            cases node with
            | link target =>
              simp only
              split
              · exact ⟨.ok (part :: here), rfl, rfl⟩
              · rw [if_neg (hlinks part here target hfound).1,
                  if_neg (hlinks part here target hfound).1]
                exact honLink _ _ ((not_congr (leaves_follow_iff hstep hfound)).1 hstay)
            | _ =>
              have hnoLink : ∀ target, t.node? (part :: here ++ r) ≠ some (.link target) := by
                intro target hlink
                rw [List.cons_append, hfound] at hlink
                cases hlink
              exact ih ((not_congr (leaves_down_iff hstep hnoLink)).1 hstay)

/-- Parts that do not lead out lead to the same place in both. -/
theorem Relocated.walk (h : Relocated t r u q) (hlinks : t.LinksStay r) (follow : Bool)
    (links : Nat) {here : Path} {parts : List Text} (hstay : ¬ t.Leaves r here parts) :
    Agree r q (t.walk follow links (here ++ r) parts) (u.walk follow links (here ++ q) parts) := by
  induction links generalizing here parts with
  | zero =>
    refine h.walkWith hlinks follow ?_ hstay
    exact fun _ _ _ => ⟨.error .tooManyLinks, rfl, rfl⟩
  | succ links ih => exact h.walkWith hlinks follow (fun _ _ hstart => ih hstart) hstay

/-! ## One content at two places -/

/-- The entries of a content that stands at a place. -/
def entriesAt (place : Path) (content : List (Path × Node)) : List (Path × Node) :=
  content.map fun e => (e.1 ++ place, e.2)

theorem lookup_entriesAt (place below : Path) (content : List (Path × Node)) :
    (entriesAt place content).lookup (below ++ place) = content.lookup below := by
  induction content with
  | nil => rfl
  | cons e rest ih =>
    have hsame : (below ++ place == e.1 ++ place) = (below == e.1) := by
      rw [Bool.eq_iff_iff, beq_iff_eq, beq_iff_eq, List.append_left_inj]
    rw [entriesAt, List.map_cons, List.lookup_cons, List.lookup_cons, hsame]
    cases below == e.1 with
    | true => rfl
    | false => exact ih

theorem childName?_append (directory path place : Path) :
    childName? (directory ++ place) (path ++ place) = childName? directory path := by
  cases path with
  | nil =>
    have hnone : ∀ name parent, place = name :: parent → parent ≠ directory ++ place := by
      rintro name parent rfl heq
      have hlength := congrArg List.length heq
      rw [List.length_append, List.length_cons] at hlength
      omega
    rw [List.nil_append]
    cases place with
    | nil => rfl
    | cons name parent => exact if_neg (hnone name parent rfl)
  | cons name parent =>
    rw [List.cons_append, childName?, childName?]
    by_cases hparent : parent = directory
    · rw [if_pos hparent, hparent, if_pos rfl]
    · rw [if_neg hparent, if_neg fun heq => hparent (List.append_cancel_right heq)]

section

variable {above above' content : List (Path × Node)}

/-- Entries above a place do not count below it. -/
theorem node?_of_entries (ht : t.entries = above ++ entriesAt r content)
    (habove : ∀ e ∈ above, e.1.length < r.length) {below : Path} (hne : below ++ r ≠ []) :
    t.node? (below ++ r) = content.lookup below := by
  have hlookup : t.node? (below ++ r) = t.entries.lookup (below ++ r) := by
    cases hpath : below ++ r with
    | nil => exact absurd hpath hne
    | cons => rfl
  have hnone : above.lookup (below ++ r) = none := by
    refine List.lookup_eq_none_iff.2 fun e he => bne_iff_ne.2 fun heq => ?_
    have hlength := habove e he
    rw [← heq, List.length_append] at hlength
    omega
  rw [hlookup, ht, List.lookup_append, hnone, lookup_entriesAt]
  rfl

theorem children_of_entries (ht : t.entries = above ++ entriesAt r content)
    (habove : ∀ e ∈ above, e.1.length < r.length) (below : Path) :
    t.children (below ++ r) = content.filterMap fun e => childName? below e.1 := by
  have hnone : above.filterMap (fun e => childName? (below ++ r) e.1) = [] := by
    refine List.filterMap_eq_nil_iff.2 fun e he => ?_
    have hlength := habove e he
    cases hpath : e.1 with
    | nil => rfl
    | cons name parent =>
      refine if_neg fun heq => ?_
      rw [hpath, heq, List.length_cons, List.length_append] at hlength
      omega
  have hbelow : (fun e : Path × Node => childName? (below ++ r) (e.1 ++ r)) =
      fun e => childName? below e.1 := funext fun e => childName?_append below e.1 r
  rw [Tree.children, ht, List.filterMap_append, hnone, entriesAt, List.filterMap_map]
  exact congrArg (fun f => content.filterMap f) hbelow

/-- Two trees with the same entries below two places, and others only above these. -/
theorem Relocated.of_entries (hr : r ≠ []) (hq : q ≠ [])
    (ht : t.entries = above ++ entriesAt r content) (habove : ∀ e ∈ above, e.1.length < r.length)
    (hu : u.entries = above' ++ entriesAt q content)
    (habove' : ∀ e ∈ above', e.1.length < q.length) : Relocated t r u q := by
  refine ⟨fun below => ?_, fun below => ?_⟩
  · have hne : below ++ r ≠ [] := fun hnil => hr (List.append_eq_nil_iff.1 hnil).2
    have hne' : below ++ q ≠ [] := fun hnil => hq (List.append_eq_nil_iff.1 hnil).2
    rw [node?_of_entries ht habove hne, node?_of_entries hu habove' hne']
  · rw [children_of_entries ht habove, children_of_entries hu habove']

theorem linksStay_of_entries (ht : t.entries = above ++ entriesAt r content)
    (habove : ∀ e ∈ above, e.1.length < r.length)
    (h : ∀ name here target, (name :: here, Node.link target) ∈ content →
      target.head? ≠ some '/' ∧ ¬ t.Leaves r here (Text.splitOn '/' target)) : t.LinksStay r := by
  intro name here target hnode
  rw [node?_of_entries ht habove (List.cons_ne_nil _ _)] at hnode
  obtain ⟨before, after, hcontent, -⟩ := List.lookup_eq_some_iff.1 hnode
  exact h name here target (by simp [hcontent])

end

/-! ## The way to the directory -/

/-- The text names the place, and there is no link on the way. -/
def LeadsTo (t : Tree) (front : Text) (place : Path) : Prop :=
  t.walk true 0 [] (Text.splitOn '/' front) = .ok place

theorem walkWith_append {here place : Path} {before : List Text}
    (h : t.walkWith true (fun _ _ => .error .tooManyLinks) here before = .ok place) (follow : Bool)
    (onLink : Path → List Text → Except LookupError Path) (after : List Text) :
    t.walkWith follow onLink here (before ++ after) = t.walkWith follow onLink place after := by
  induction before generalizing here with
  | nil =>
    obtain rfl : here = place := Except.ok.inj h
    rfl
  | cons part rest ih =>
    rw [walkWith] at h
    rw [List.cons_append, walkWith]
    cases hdir : t.isDirectory here with
    | false => simp [hdir] at h
    | true =>
      simp only [hdir, Bool.not_true, Bool.false_eq_true, if_false, Bool.and_false] at h ⊢
      by_cases hhere : part = [] ∨ part = ['.']
      · rw [if_pos hhere] at h ⊢
        exact ih h
      · rw [if_neg hhere] at h ⊢
        by_cases hdots : part = ['.', '.']
        · rw [if_pos hdots] at h ⊢
          exact ih h
        · rw [if_neg hdots] at h ⊢
          cases hnode : t.node? (part :: here) with
          | none => simp [hnode] at h
          | some node =>
            rw [hnode] at h
            cases node with
            | link target => cases h
            | _ => exact ih h

/-- A way without links is walked first, and then the rest from where it ends. -/
theorem walk_append {here place : Path} {before : List Text}
    (h : t.walk true 0 here before = .ok place) (follow : Bool) (links : Nat) (after : List Text) :
    t.walk follow links here (before ++ after) = t.walk follow links place after := by
  cases links with
  | zero => exact walkWith_append h follow _ after
  | succ links => exact walkWith_append h follow _ after

variable {front front' : Text}

theorem LeadsTo.find (h : t.LeadsTo front r) (below : Text) (follow : Bool) :
    t.find (front ++ '/' :: below) follow =
      t.walk follow linkLimit r (Text.splitOn '/' below) := by
  have hempty : (front ++ '/' :: below).isEmpty = false := by simp
  rw [Tree.find, hempty, Text.splitOn_append_sep]
  exact walk_append h follow linkLimit _

/-! ## What stands below -/

/-- Both directories, each with a text that leads to it. -/
structure Mounted (t : Tree) (front : Text) (r : Path) (u : Tree) (front' : Text) (q : Path) :
    Prop where
  relocated : Relocated t r u q
  links : t.LinksStay r
  leads : t.LeadsTo front r
  leads' : u.LeadsTo front' q

namespace Mounted

variable {below : Text}

theorem find (h : Mounted t front r u front' q)
    (hstay : ¬ t.Leaves r [] (Text.splitOn '/' below)) (follow : Bool) :
    Agree r q (t.find (front ++ '/' :: below) follow) (u.find (front' ++ '/' :: below) follow) := by
  rw [h.leads.find, h.leads'.find]
  exact h.relocated.walk h.links follow linkLimit hstay

theorem nodeAt (h : Mounted t front r u front' q)
    (hstay : ¬ t.Leaves r [] (Text.splitOn '/' below)) (follow : Bool) :
    t.nodeAt (front ++ '/' :: below) follow = u.nodeAt (front' ++ '/' :: below) follow := by
  obtain ⟨z, hz, hz'⟩ := h.find hstay follow
  rw [Tree.nodeAt, Tree.nodeAt, hz, hz']
  cases z with
  | error e => rfl
  | ok place =>
    simp only [Except.map]
    rw [h.relocated.node?]

theorem list (h : Mounted t front r u front' q)
    (hstay : ¬ t.Leaves r [] (Text.splitOn '/' below)) :
    t.list (front ++ '/' :: below) = u.list (front' ++ '/' :: below) := by
  obtain ⟨z, hz, hz'⟩ := h.find hstay true
  rw [Tree.list, Tree.list, hz, hz']
  cases z with
  | error e => rfl
  | ok place =>
    simp only [Except.map]
    rw [h.relocated.node?, h.relocated.children]

theorem exists? (h : Mounted t front r u front' q)
    (hstay : ¬ t.Leaves r [] (Text.splitOn '/' below)) :
    t.exists? (front ++ '/' :: below) = u.exists? (front' ++ '/' :: below) := by
  obtain ⟨z, hz, hz'⟩ := h.find hstay true
  rw [Tree.exists?, Tree.exists?, hz, hz']
  cases z with
  | error e => rfl
  | ok place => rfl

end Mounted

/-! ## Links that are read -/

theorem walkWith_step {onLink : Path → List Text → Except LookupError Path}
    {name : Text} (hname : Path.IsStep name) {here place : Path}
    (h : t.walkWith false onLink here [name] = .ok place) : place = name :: here := by
  rw [walkWith] at h
  cases hdir : t.isDirectory here with
  | false => simp [hdir] at h
  | true =>
    have hhere : ¬ (name = [] ∨ name = ['.']) := not_or.2 ⟨hname.1, hname.2.1⟩
    simp only [hdir, Bool.not_true, Bool.false_eq_true, if_false, if_neg hhere,
      if_neg hname.2.2] at h
    cases hnode : t.node? (name :: here) with
    | none => simp [hnode] at h
    | some node =>
      rw [hnode] at h
      cases node with
      | _ => exact (Except.ok.inj h).symm

/-- The parts before a name lead to the directory in which the name stands. What leads out behind
them leads out from there. -/
theorem exists_directory_of_walkWith {onLink : Path → List Text → Except LookupError Path}
    (hlinks : t.LinksStay r) {name : Text} (hname : Path.IsStep name) {after : List Text}
    (honLink : ∀ start parts place, ¬ t.Leaves r start parts →
      onLink (start ++ r) (parts ++ [name]) = .ok place →
      ∃ directory, place = name :: (directory ++ r) ∧
        (t.Leaves r start (parts ++ after) → t.Leaves r directory after))
    {here : Path} {parts : List Text} {place : Path} (hstay : ¬ t.Leaves r here parts)
    (h : t.walkWith false onLink (here ++ r) (parts ++ [name]) = .ok place) :
    ∃ directory, place = name :: (directory ++ r) ∧
      (t.Leaves r here (parts ++ after) → t.Leaves r directory after) := by
  induction parts generalizing here with
  | nil => exact ⟨here, walkWith_step hname h, id⟩
  | cons part rest ih =>
    rw [List.cons_append, walkWith] at h
    cases hdir : t.isDirectory (here ++ r) with
    | false => simp [hdir] at h
    | true =>
      simp only [hdir, Bool.not_true, Bool.false_eq_true, if_false] at h
      by_cases hhere : part = [] ∨ part = ['.']
      · rw [if_pos hhere] at h
        obtain ⟨directory, hplace, hafter⟩ := ih ((not_congr (leaves_stay_iff hhere)).1 hstay) h
        exact ⟨directory, hplace, fun hleaves => hafter ((leaves_stay_iff hhere).1 hleaves)⟩
      · rw [if_neg hhere] at h
        by_cases hdots : part = ['.', '.']
        · subst hdots
          rw [if_pos rfl] at h
          cases here with
          | nil => exact absurd .up hstay
          | cons above here =>
            obtain ⟨directory, hplace, hafter⟩ := ih ((not_congr leaves_back_iff).1 hstay) h
            exact ⟨directory, hplace, fun hleaves => hafter (leaves_back_iff.1 hleaves)⟩
        · rw [if_neg hdots] at h
          have hstep := Path.isStep_of_not hhere hdots
          cases hfound : t.node? (part :: (here ++ r)) with
          | none => simp [hfound] at h
          | some node =>
            rw [hfound] at h
            cases node with
            | link target =>
              have hmore : (rest ++ [name]).isEmpty = false := by simp
              simp only [hmore, Bool.false_and, Bool.false_eq_true, if_false,
                (hlinks part here target hfound).1] at h
              rw [← List.append_assoc] at h
              obtain ⟨directory, hplace, hafter⟩ :=
                honLink _ _ _ ((not_congr (leaves_follow_iff hstep hfound)).1 hstay) h
              refine ⟨directory, hplace, fun hleaves => hafter ?_⟩
              rw [List.append_assoc]
              exact (leaves_follow_iff hstep hfound).1 hleaves
            | _ =>
              have hnoLink : ∀ target, t.node? (part :: here ++ r) ≠ some (.link target) := by
                intro target hlink
                rw [List.cons_append, hfound] at hlink
                cases hlink
              obtain ⟨directory, hplace, hafter⟩ :=
                ih ((not_congr (leaves_down_iff hstep hnoLink)).1 hstay) h
              exact ⟨directory, hplace, fun hleaves =>
                hafter ((leaves_down_iff hstep hnoLink).1 hleaves)⟩

theorem exists_directory_of_walk (hlinks : t.LinksStay r) {name : Text}
    (hname : Path.IsStep name) {after : List Text} (links : Nat) {here : Path}
    {parts : List Text} {place : Path} (hstay : ¬ t.Leaves r here parts)
    (h : t.walk false links (here ++ r) (parts ++ [name]) = .ok place) :
    ∃ directory, place = name :: (directory ++ r) ∧
      (t.Leaves r here (parts ++ after) → t.Leaves r directory after) := by
  induction links generalizing here parts place with
  | zero =>
    refine exists_directory_of_walkWith hlinks hname ?_ hstay h
    intro start parts place _ herror
    cases herror
  | succ links ih =>
    refine exists_directory_of_walkWith hlinks hname ?_ hstay h
    intro start parts place hstart hnext
    exact ih hstart hnext

/-- A link that is read is relative, and what begins like its target does not lead out behind the
way to the link. -/
theorem stays_of_readLink (hlinks : t.LinksStay r) {front : Text} (hf : t.LeadsTo front r)
    {below name target : Text} (hname : Path.IsFileName name)
    (hbelow : ['.', '.'] ∉ Text.splitOn '/' below)
    (h : t.readLink (front ++ '/' :: (below ++ '/' :: name)) = .ok target) {start after : Text}
    (hstart : target = start ++ '/' :: after) :
    target.head? ≠ some '/' ∧
      ¬ t.Leaves r [] (Text.splitOn '/' below ++ Text.splitOn '/' start) := by
  unfold readLink at h
  split at h
  · rename_i found hnode
    obtain rfl := Except.ok.inj h
    have hstep : Path.IsStep name := ⟨hname.1, hname.2.1, hname.2.2.1⟩
    have hstay := not_leaves_of_not_mem hlinks hbelow []
    unfold nodeAt at hnode
    split at hnode
    · cases hnode
    · rename_i place hfind
      rw [hf.find, Text.splitOn_append_sep, Text.splitOn_of_not_mem hname.2.2.2] at hfind
      obtain ⟨directory, rfl, hafter⟩ := exists_directory_of_walk hlinks hstep linkLimit hstay hfind
      split at hnode
      · rename_i node hplace
        obtain rfl := Except.ok.inj hnode
        obtain ⟨hrelative, htarget⟩ := hlinks name directory found hplace
        refine ⟨hrelative, fun hleaves => htarget ?_⟩
        rw [hstart, Text.splitOn_append_sep]
        exact (hafter hleaves).append _
      · cases hnode
  · cases h
  · cases h

end Tree
end StorageAtlas
