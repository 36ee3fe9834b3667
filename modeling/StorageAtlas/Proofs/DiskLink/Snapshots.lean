import StorageAtlas.DiskLink.Holder
import StorageAtlas.Proofs.DiskLink.WorldWideName

/-!
Look-ups of world wide names in a tree that changes. Each of the two ways to take the
names holds the links as they were when it was first used, so all that it answers is
what they said then, whatever happens to the tree and whatever else is looked up.
-/

namespace StorageAtlas

/-- What happens to the tree, and what is looked up in it. -/
inductive LinkEvent where
  | put (place : Path) (node : Node)
  | remove (place : Path)
  | wwn (source : WwnSource) (disk : Text)
  | scsiId (node : Text) (withoutType : Bool)

namespace LinkEvent

/-- The disk whose world wide name is asked for in one of the two ways. -/
def asked (source : WwnSource) : LinkEvent → Option Text
  | .wwn other disk => if other = source then some disk else none
  | _ => none

/-- Is this a change of the tree, or a question asked in one of the two ways? -/
def concerns (source : WwnSource) : LinkEvent → Bool
  | .put _ _ | .remove _ => true
  | .wwn other _ => other = source
  | .scsiId _ _ => false

theorem asked_eq_some_iff {source : WwnSource} {e : LinkEvent} {disk : Text} :
    e.asked source = some disk ↔ e = .wwn source disk := by
  cases e with
  | wwn other name => simp [asked]
  | put place node => simp [asked]
  | remove place => simp [asked]
  | scsiId node withoutType => simp [asked]

end LinkEvent

namespace DiskLinks

def inTree (d : DiskLinks) (t : Tree) : DiskLinks := { d with sysfs := { d.sysfs with tree := t } }

/-- The links after an event; only a change of the tree changes them. -/
def changed (d : DiskLinks) : LinkEvent → DiskLinks
  | .put place node => d.inTree (d.sysfs.tree.put place node)
  | .remove place => d.inTree (d.sysfs.tree.remove place)
  | .wwn _ _ | .scsiId _ _ => d

/-- The links as they are at the first question asked in one of the two ways. -/
def whenAsked (d : DiskLinks) (source : WwnSource) (events : List LinkEvent) : DiskLinks :=
  (events.takeWhile fun e => (e.asked source).isNone).foldl changed d

end DiskLinks

theorem WwnSnapshots.held_hold (w : WwnSnapshots) (source other : WwnSource) (wwns : WwnMap) :
    (w.hold other wwns).held source = if other = source then some wwns else w.held source := by
  cases source <;> cases other <;> rfl

/-- Look-ups under way: the links as they are, and what is held of them. -/
structure Lookups where
  links : DiskLinks
  held : WwnSnapshots := {}

namespace Lookups

variable {source : WwnSource}

/-- Before anything was looked up nothing is held. -/
def ofLinks (d : DiskLinks) : Lookups where
  links := d

def answer (s : Lookups) : LinkEvent → Option Text
  | .put _ _ | .remove _ => none
  | .wwn source disk => (s.held.find s.links source disk).1
  | .scsiId node withoutType => s.links.scsiId node withoutType

def next (s : Lookups) (e : LinkEvent) : Lookups where
  links := s.links.changed e
  held := match e with
    | .wwn source disk => (s.held.find s.links source disk).2
    | _ => s.held

/-- The events, each with its answer. -/
def transcript (s : Lookups) : List LinkEvent → List (LinkEvent × Option Text)
  | [] => []
  | e :: rest => (e, s.answer e) :: (s.next e).transcript rest

/-- The disks that are asked for in one of the two ways, each with the answer. -/
def answers (s : Lookups) (source : WwnSource) (events : List LinkEvent) :
    List (Text × Option Text) :=
  (s.transcript events).filterMap fun (e, answer) => (e.asked source).map (·, answer)

/-- The map that answers: the one that is held, or else that of the links at the first question. -/
def snapshot (s : Lookups) (source : WwnSource) (events : List LinkEvent) : WwnMap :=
  (s.held.held source).getD ((s.links.whenAsked source events).wwnMap source)

/-- An event leaves the map that will answer later questions as it is. -/
theorem snapshot_next (s : Lookups) (e : LinkEvent) (rest : List LinkEvent) :
    (s.next e).snapshot source rest = s.snapshot source (e :: rest) := by
  cases e with
  | put place node => rfl
  | remove place => rfl
  | scsiId node withoutType => rfl
  | wwn other disk =>
    have hheld : (s.next (.wwn other disk)).held.held source =
        if other = source then some (s.held.current s.links other) else s.held.held source :=
      s.held.held_hold source other _
    rw [snapshot, hheld]
    by_cases hsource : other = source
    · subst hsource
      simp [snapshot, WwnSnapshots.current, DiskLinks.whenAsked, LinkEvent.asked]
    · simp [snapshot, DiskLinks.whenAsked, LinkEvent.asked, hsource, next, DiskLinks.changed]

theorem answer_wwn (s : Lookups) (disk : Text) (rest : List LinkEvent) :
    s.answer (.wwn source disk) = (s.snapshot source (.wwn source disk :: rest)).find? disk := by
  simp [answer, snapshot, WwnSnapshots.find, WwnSnapshots.current, DiskLinks.whenAsked,
    LinkEvent.asked]

theorem answers_eq_map (s : Lookups) (events : List LinkEvent) :
    s.answers source events = (events.filterMap (LinkEvent.asked source)).map fun disk =>
      (disk, (s.snapshot source events).find? disk) := by
  induction events generalizing s with
  | nil => rfl
  | cons e rest ih =>
    have hrest := ih (s.next e)
    rw [snapshot_next] at hrest
    rw [answers, transcript]
    cases hasked : e.asked source with
    | none =>
      simp only [List.filterMap_cons, hasked, Option.map_none]
      exact hrest
    | some disk =>
      obtain rfl := LinkEvent.asked_eq_some_iff.1 hasked
      simp only [List.filterMap_cons, hasked, Option.map_some, List.map_cons]
      rw [answer_wwn s disk rest]
      exact congrArg _ hrest

end Lookups

namespace DiskLinks

variable {d : DiskLinks} {source : WwnSource}

/-- Questions of the other kinds do not touch the links that are met. -/
theorem whenAsked_filter (d : DiskLinks) (source : WwnSource) (events : List LinkEvent) :
    d.whenAsked source (events.filter (LinkEvent.concerns source)) = d.whenAsked source events := by
  induction events generalizing d with
  | nil => rfl
  | cons e rest ih =>
    cases e with
    | put place node => exact ih _
    | remove place => exact ih _
    | scsiId node withoutType => exact ih d
    | wwn other disk =>
      by_cases hsource : other = source
      · simp [whenAsked, LinkEvent.concerns, LinkEvent.asked, hsource]
      · have hskip : d.whenAsked source (.wwn other disk :: rest) = d.whenAsked source rest := by
          simp [whenAsked, LinkEvent.asked, hsource, changed]
        rw [hskip, ← ih, List.filter_cons_of_neg (by simp [LinkEvent.concerns, hsource])]

end DiskLinks

theorem LinkEvent.filterMap_asked_filter (source : WwnSource) (events : List LinkEvent) :
    (events.filter (concerns source)).filterMap (asked source) =
      events.filterMap (asked source) := by
  rw [List.filterMap_filter]
  refine List.filterMap_congr fun e _ => ?_
  cases e <;> simp [LinkEvent.concerns, LinkEvent.asked]

namespace Lookups

variable {source : WwnSource}

theorem snapshot_ofLinks (d : DiskLinks) (events : List LinkEvent) :
    (ofLinks d).snapshot source events = (d.whenAsked source events).wwnMap source := by
  cases source <;> rfl

/-- The disks that are asked for in one of the two ways are answered one after the other, each from
the links as they were at the first of these questions. Questions asked in the other way, and such
for other identifiers, could as well be left out. -/
theorem answers_ofFirstAsked (d : DiskLinks) (source : WwnSource) (events : List LinkEvent) :
    ((ofLinks d).answers source events).map Prod.fst =
      events.filterMap (LinkEvent.asked source) ∧
    (∀ disk answer, (disk, answer) ∈ (ofLinks d).answers source events →
      (d.whenAsked source events).IsSmallest source (PathText.baseName disk) answer) ∧
    (ofLinks d).answers source (events.filter (LinkEvent.concerns source)) =
      (ofLinks d).answers source events := by
  refine ⟨?_, ?_, ?_⟩
  · rw [answers_eq_map, List.map_map]
    exact List.map_id _
  · intro disk answer hmem
    rw [answers_eq_map, List.mem_map] at hmem
    obtain ⟨asked, -, hanswer⟩ := hmem
    obtain ⟨rfl, rfl⟩ := Prod.mk.inj hanswer
    rw [snapshot_ofLinks]
    exact DiskLinks.isSmallest_find? _ source asked
  · rw [answers_eq_map, answers_eq_map, LinkEvent.filterMap_asked_filter, snapshot_ofLinks,
      snapshot_ofLinks, DiskLinks.whenAsked_filter]

end Lookups
end StorageAtlas
