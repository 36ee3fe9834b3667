import StorageAtlas.Listing.Session

/-!
Sessions on a tree that stays as it is. What a session holds for later is what it
would see anew, so every listing in a row of listings shows what it would show
alone.
-/

namespace StorageAtlas.Session

/-- The session after some listings of one tree. -/
def after (s : Session) (t : Tree) (earlier : List (Subject × AddressFilter)) : Session :=
  earlier.foldl (fun s (what, f) => (s.list t what f).2) s

/-- A session with the usual directories and nothing held. -/
def usual : Session where
  sysfsRoot := "/sys"
  deviceDir := "/dev"
  holderDepth := 8
  options := {}

theorem wwnMapIn_hold (s : Session) (t : Tree) (attempts : List Attempt) :
    (s.hold t attempts).wwnMapIn t = s.wwnMapIn t := by
  unfold hold wwnMapIn
  cases hsource : s.options.wwnSource with
  | none => simp
  | some source =>
    simp only
    split
    · cases source <;> simp [WwnSnapshots.current, WwnSnapshots.hold, WwnSnapshots.held, view,
        wwnMapIn, hsource]
    · rfl

theorem index_hold (s : Session) (t : Tree) (attempts : List Attempt) :
    (s.hold t attempts).index.getD (.build t s.deviceDir) =
      s.index.getD (.build t s.deviceDir) := by
  unfold hold
  simp only
  split
  · rfl
  · rfl

/-- What a session holds changes nothing in what it sees of the same tree. -/
theorem view_hold (s : Session) (t : Tree) (attempts : List Attempt) :
    (s.hold t attempts).view t = s.view t := by
  have hview : (s.hold t attempts).view t =
      { s.view t with
        index := (s.hold t attempts).index.getD (.build t s.deviceDir)
        wwns := (s.hold t attempts).wwnMapIn t } := rfl
  rw [hview, index_hold, wwnMapIn_hold]
  rfl

theorem view_after (s : Session) (t : Tree) (earlier : List (Subject × AddressFilter)) :
    (s.after t earlier).view t = s.view t := by
  induction earlier generalizing s with
  | nil => rfl
  | cons step rest ih => exact (ih _).trans (view_hold s t _)

theorem records_units_after (s : Session) (t : Tree) (earlier : List (Subject × AddressFilter))
    (f : AddressFilter) :
    ((s.after t earlier).list t .units f).1.records = (s.view t).listUnits f := by
  have harrange : arrange .units = id := rfl
  simp only [list, view_after, harrange, attempts, View.listUnits]
  exact congrFun Except.map_id _

theorem records_namespaces_after (s : Session) (t : Tree)
    (earlier : List (Subject × AddressFilter)) (f : AddressFilter) :
    ((s.after t earlier).list t .namespaces f).1.records = (s.view t).listNamespaces f := by
  have harrange : arrange .namespaces = sortBy View.recordLe := rfl
  simp only [list, view_after, harrange, attempts, View.listNamespaces]

end StorageAtlas.Session
