import StorageAtlas.CommandLine.Run
import StorageAtlas.Proofs.Failure
import StorageAtlas.Proofs.Listing.Units

/-!
Several listings in a row on a tree that stays as it is. Each shows what the view
of the session shows, so a run joins listings of one view.
-/

namespace StorageAtlas

theorem Session.mem_arrange {what : Subject} {records : List Record} {r : Record} :
    r ∈ arrange what records ↔ r ∈ records := by
  cases what with
  | namespaces => exact mem_sortBy
  | _ => exact Iff.rfl

namespace View

/-- What one listing shows of a view. -/
def listed (v : View) (f : AddressFilter) (what : Subject) : Except ValueFault (List Record) :=
  (recordsOf (Session.attempts v f what)).map (Session.arrange what)

/-- What several listings show, joined. -/
def listedAll (v : View) (f : AddressFilter) (whats : List Subject) :
    Except ValueFault (List Record) :=
  (whats.mapM (v.listed f)).map List.flatten

theorem listed_units (v : View) (f : AddressFilter) : v.listed f .units = v.listUnits f :=
  congrFun Except.map_id _

theorem listed_namespaces (v : View) (f : AddressFilter) :
    v.listed f .namespaces = v.listNamespaces f :=
  rfl

theorem listed_hosts (v : View) (f : AddressFilter) : v.listed f .hosts = v.listHosts f :=
  congrFun Except.map_id _

theorem listed_controllers (v : View) (f : AddressFilter) :
    v.listed f .controllers = v.listControllers f :=
  congrFun Except.map_id _

theorem exists_attempt_of_mem {attempts : List Attempt} {records : List Record}
    (h : recordsOf attempts = .ok records) {r : Record} (hr : r ∈ records) :
    ∃ attempt ∈ attempts, attempt.record = .ok r := by
  have hrecords := mapM_eq_ok_iff.1 h
  clear h
  induction hrecords with
  | nil => cases hr
  | cons hhead _ ih =>
    rcases List.mem_cons.1 hr with rfl | hr
    · exact ⟨_, List.mem_cons_self, hhead⟩
    · obtain ⟨attempt, hmem, hattempt⟩ := ih hr
      exact ⟨attempt, List.mem_cons_of_mem _ hmem, hattempt⟩

/-- Every record of a listing comes from an attempt at it. -/
theorem exists_attempt_of_listed {v : View} {f : AddressFilter} {what : Subject}
    {records : List Record} (h : v.listed f what = .ok records) {r : Record} (hr : r ∈ records) :
    ∃ attempt ∈ Session.attempts v f what, attempt.record = .ok r := by
  unfold listed at h
  cases hattempts : recordsOf (Session.attempts v f what) with
  | error e =>
    rw [hattempts] at h
    cases h
  | ok found =>
    rw [hattempts] at h
    obtain rfl := Except.ok.inj h
    exact exists_attempt_of_mem hattempts (Session.mem_arrange.1 hr)

theorem listedAll_cons_eq_ok_iff {v : View} {f : AddressFilter} {what : Subject}
    {rest : List Subject} {all : List Record} :
    v.listedAll f (what :: rest) = .ok all ↔
      ∃ first more, v.listed f what = .ok first ∧ v.listedAll f rest = .ok more ∧
        all = first ++ more := by
  unfold listedAll
  rw [List.mapM_cons]
  cases v.listed f what with
  | error e =>
    constructor
    · intro h
      cases h
    · rintro ⟨first, more, hfirst, -⟩
      cases hfirst
  | ok records =>
    cases rest.mapM (v.listed f) with
    | error e =>
      constructor
      · intro h
        cases h
      · rintro ⟨first, more, -, hmore, -⟩
        cases hmore
    | ok others =>
      constructor
      · intro h
        cases h
        exact ⟨records, others.flatten, rfl, rfl, rfl⟩
      · rintro ⟨first, more, hfirst, hmore, rfl⟩
        cases hfirst
        cases hmore
        rfl

end View

namespace Session

theorem records_after (s : Session) (t : Tree) (earlier : List (Subject × AddressFilter))
    (what : Subject) (f : AddressFilter) :
    ((s.after t earlier).list t what f).1.records = (s.view t).listed f what := by
  simp only [list, view_after, View.listed]

theorem listAll_fst (s : Session) (t : Tree) (f : AddressFilter) (whats : List Subject) :
    (s.listAll t f whats).1 = (s.view t).listedAll f whats := by
  unfold View.listedAll
  induction whats generalizing s with
  | nil => rfl
  | cons what rest ih =>
    have hrecords : (s.list t what f).1.records = (s.view t).listed f what :=
      records_after s t [] what f
    have hview : (s.list t what f).2.view t = s.view t := view_hold s t _
    rw [List.mapM_cons, ← hrecords]
    simp only [listAll]
    cases hfirst : (s.list t what f).1.records with
    | error e => rfl
    | ok records =>
      simp only [ih, hview]
      cases rest.mapM ((s.view t).listed f) with
      | error e => rfl
      | ok more => rfl

theorem listAll_after_fst (s : Session) (t : Tree) (earlier : List (Subject × AddressFilter))
    (f : AddressFilter) (whats : List Subject) :
    ((s.after t earlier).listAll t f whats).1 = (s.view t).listedAll f whats := by
  rw [listAll_fst, view_after]

end Session
end StorageAtlas
