import StorageAtlas.Proofs.Address.Order
import StorageAtlas.Proofs.Listing.UnchangedTree
import StorageAtlas.Proofs.Tree.Paths

/-!
A filter is applied to the controllers first and to the namespaces below them
afterwards. So a filtered listing holds the selected namespaces of those
controllers whose own number agrees with the filter as well. A namespace with
another number in its name than its controller may be missing.
-/

namespace StorageAtlas

/-- The number of the controller in whose directory a record was found. -/
def Record.controllerNumber? (r : Record) : Option Int :=
  (NvmeName.controller? (PathText.baseName (PathText.parent r.directory))).map Int.ofNat

/-- Does a filter select a namespace and the number of its controller? -/
def AddressFilter.selectsBelow (f : AddressFilter) (r : Record) : Bool :=
  f.selects r.address && agrees f.channel r.controllerNumber?

/-! ## Kernel names -/

namespace NvmeName

theorem isDigit_or_mem_runs {t : Text} {c : Char} (h : c ∈ t) :
    c.isDigit = true ∨ c ∈ (runs t).2.map Prod.fst := by
  induction t with
  | nil => cases h
  | cons d r ih =>
    by_cases hd : d.isDigit = true
    · simp only [runs, hd, if_true]
      rcases List.mem_cons.1 h with rfl | hr
      · exact .inl hd
      · exact ih hr
    · simp only [runs, hd, Bool.false_eq_true, if_false, List.map_cons, List.mem_cons]
      rcases List.mem_cons.1 h with rfl | hr
      · exact .inr (.inl rfl)
      · rcases ih hr with hc | hc
        · exact .inl hc
        · exact .inr (.inr hc)

theorem afterWord?_eq_some {name t : Text} (h : afterWord? name = some t) :
    name = "nvme" ++ t := by
  simp only [afterWord?, Option.ite_none_right_eq_some, Option.some.injEq] at h
  rw [← h.1, ← h.2, List.take_append_drop]

theorem letters_of_parts? {t : Text} {found : Nat × List (Char × Text)}
    (h : parts? t = some found) : found.2 = (runs t).2 := by
  simp only [parts?, Option.ite_none_left_eq_some, Option.some.injEq] at h
  rw [← h.2]

/-- A kernel name holds no slash unless one of its parts begins with it. -/
theorem slash_not_mem {name t : Text} {found : Nat × List (Char × Text)}
    (hword : afterWord? name = some t) (hparts : parts? t = some found)
    (hletters : '/' ∉ found.2.map Prod.fst) : '/' ∉ name := by
  rw [letters_of_parts? hparts] at hletters
  rw [afterWord?_eq_some hword]
  intro hc
  rcases List.mem_append.1 hc with hc | hc
  · exact absurd hc (by decide)
  · rcases isDigit_or_mem_runs hc with hc | hc
    · exact absurd hc (by decide)
    · exact hletters hc

theorem slash_not_mem_of_controller? {name : Text} {minor : Nat}
    (h : controller? name = some minor) : '/' ∉ name := by
  simp only [controller?, Option.bind_eq_bind, Option.bind_eq_some_iff] at h
  obtain ⟨t, hword, found, hparts, hfound⟩ := h
  split at hfound
  · exact slash_not_mem hword hparts (by simp)
  · cases hfound

theorem slash_not_mem_of_unit? {name : Text} {numbers : Nat × Nat}
    (h : unit? name = some numbers) : '/' ∉ name := by
  simp only [unit?, Option.bind_eq_bind, Option.bind_eq_some_iff] at h
  obtain ⟨t, hword, found, hparts, hfound⟩ := h
  split at hfound
  · exact slash_not_mem hword hparts (by simp)
  · exact slash_not_mem hword hparts (by simp)
  · cases hfound

end NvmeName

namespace View

/-! ## Controllers -/

theorem mem_controllers {v : View} {f : AddressFilter} {c : Text × Nat}
    (h : c ∈ v.controllers f) : NvmeName.controller? c.1 = some c.2 := by
  have hmem := (List.mem_filter.1 (mem_sortBy.1 h)).1
  obtain ⟨name, -, hc⟩ := List.mem_filterMap.1 hmem
  obtain ⟨minor, hminor, rfl⟩ := Option.map_eq_some_iff.1 hc
  exact hminor

theorem minor_le_total (c d : Text × Nat) :
    decide (c.2 ≤ d.2) = true ∨ decide (d.2 ≤ c.2) = true := by
  simp only [decide_eq_true_eq]
  omega

theorem minor_le_trans (c d e : Text × Nat) (hcd : decide (c.2 ≤ d.2) = true)
    (hde : decide (d.2 ≤ e.2) = true) : decide (c.2 ≤ e.2) = true := by
  simp only [decide_eq_true_eq] at *
  omega

theorem controllers_eq_filter (v : View) (f : AddressFilter) :
    v.controllers f =
      (v.controllers {}).filter fun c => f.allows (some Address.nvmeHost) (some c.2) := by
  have hopen : v.controllers {} = sortBy (fun c d => c.2 ≤ d.2)
      (Selection.controllers (v.sysfs.entries v.controllersDir)) := by
    refine congrArg (sortBy _) (List.filter_eq_self.2 ?_)
    intro c _
    rfl
  rw [hopen, filter_sortBy minor_le_total minor_le_trans]
  rfl

def controllerDir (v : View) (c : Text × Nat) : Text := PathText.join v.controllersDir c.1

/-- The records of the namespaces below one controller. -/
def namespaceRecords (v : View) (f : AddressFilter) (c : Text × Nat) : List Record :=
  if f.allows (some Address.nvmeHost) (some c.2) (some (v.controllerId (v.controllerDir c))) then
    (v.namespacesOf f (v.controllerDir c)).map fun u =>
      v.namespaceRecord u.1 u.2 (v.controllerDir c)
  else []

theorem recordsOf_append {as bs : List Attempt} {rs ss : List Record}
    (ha : recordsOf as = .ok rs) (hb : recordsOf bs = .ok ss) :
    recordsOf (as ++ bs) = .ok (rs ++ ss) := by
  unfold recordsOf at *
  rw [List.mapM_append, ha, hb]
  rfl

theorem recordsOf_map {α : Type} (consults : α → Bool) (record : α → Record) (l : List α) :
    recordsOf (l.map fun x => ⟨consults x, .ok (record x)⟩) = .ok (l.map record) := by
  induction l with
  | nil => rfl
  | cons x rest ih =>
    have hx : recordsOf [⟨consults x, .ok (record x)⟩] = .ok [record x] := rfl
    exact recordsOf_append hx ih

theorem recordsOf_namespaceAttempts (v : View) (f : AddressFilter) (c : Text × Nat) :
    recordsOf (v.namespaceAttempts f c) = .ok (v.namespaceRecords f c) := by
  unfold namespaceRecords
  by_cases h : f.allows (some Address.nvmeHost) (some c.2)
      (some (v.controllerId (v.controllerDir c))) = true
  · rw [if_pos h, ← recordsOf_map]
    exact congrArg recordsOf (if_pos h)
  · rw [if_neg h]
    exact congrArg recordsOf (if_neg h)

/-- No record of a namespace can fail, so every listing of namespaces succeeds. -/
theorem listNamespaces_eq (v : View) (f : AddressFilter) :
    v.listNamespaces f =
      .ok (sortBy recordLe ((v.controllers f).flatMap (v.namespaceRecords f))) := by
  have hrecords : recordsOf (v.allNamespaceAttempts f) =
      .ok ((v.controllers f).flatMap (v.namespaceRecords f)) := by
    unfold allNamespaceAttempts
    induction v.controllers f with
    | nil => rfl
    | cons c rest ih => exact recordsOf_append (recordsOf_namespaceAttempts v f c) ih
  rw [listNamespaces, hrecords]
  rfl

/-! ## Namespaces below a controller -/

theorem namespacesOf_eq_filter (v : View) (f : AddressFilter) (directory : Text) :
    v.namespacesOf f directory =
      (v.namespacesOf {} directory).filter fun u => f.selects u.1 := by
  unfold namespacesOf
  rw [List.filter_filterMap]
  refine List.filterMap_congr fun entry _ => ?_
  obtain ⟨name, minor, id⟩ := entry
  show (if f.selects (Address.nvme minor (v.controllerId directory) id) then
      some (Address.nvme minor (v.controllerId directory) id, name) else none) =
    (some (Address.nvme minor (v.controllerId directory) id, name)).filter fun u => f.selects u.1
  rw [Option.filter_some]

/-- A namespace is an entry of its controller whose name says its numbers. -/
theorem entry_of_mem_namespacesOf {v : View} {f : AddressFilter} {directory : Text}
    {u : Address × Text} (h : u ∈ v.namespacesOf f directory) :
    u.2 ∈ v.sysfs.entries directory ∧ ∃ minor id : Nat, NvmeName.unit? u.2 = some (minor, id) ∧
      u.1 = Address.nvme minor (v.controllerId directory) id := by
  obtain ⟨⟨name, minor, id⟩, hentry, hu⟩ := List.mem_filterMap.1 h
  simp only [Option.ite_none_right_eq_some, Option.some.injEq] at hu
  obtain ⟨-, rfl⟩ := hu
  obtain ⟨name', hlisted, hname⟩ := List.mem_filterMap.1 hentry
  obtain ⟨numbers, hnumbers, hpair⟩ := Option.map_eq_some_iff.1 hname
  obtain ⟨rfl, rfl⟩ := Prod.mk.inj hpair
  exact ⟨hlisted, minor, id, hnumbers, rfl⟩

theorem unit?_of_mem_namespacesOf {v : View} {f : AddressFilter} {directory : Text}
    {u : Address × Text} (h : u ∈ v.namespacesOf f directory) :
    ∃ minor id : Nat, NvmeName.unit? u.2 = some (minor, id) ∧
      u.1 = Address.nvme minor (v.controllerId directory) id :=
  (entry_of_mem_namespacesOf h).2

/-- The directory of a record tells the number of its controller. -/
theorem controllerNumber?_namespaceRecord {v : View} {c : Text × Nat} {a : Address} {name : Text}
    (hc : NvmeName.controller? c.1 = some c.2) (hname : '/' ∉ name) :
    (v.namespaceRecord a name (v.controllerDir c)).controllerNumber? = some (c.2 : Int) := by
  have hslash := NvmeName.slash_not_mem_of_controller? hc
  have hne : c.1 ≠ [] := by
    intro he
    have hnone : NvmeName.controller? [] = none := rfl
    rw [he, hnone] at hc
    cases hc
  have hlast : (v.controllerDir c).getLast? = c.1.getLast? := PathText.getLast?_join hslash hne _
  have hparent : PathText.parent (PathText.join (v.controllerDir c) name) = v.controllerDir c := by
    refine PathText.parent_join hname ?_ ?_
    · intro he
      rw [he] at hlast
      exact hne (List.getLast?_eq_none_iff.1 hlast.symm)
    · intro h
      exact hslash (List.mem_of_getLast? (hlast ▸ h))
  have hdirectory : (v.namespaceRecord a name (v.controllerDir c)).directory =
      PathText.join (v.controllerDir c) name := rfl
  rw [Record.controllerNumber?, hdirectory, hparent, controllerDir, PathText.baseName_join hslash,
    hc]
  rfl

/-- A namespace brings the host number and the id of its controller with it, so that it is selected
and the number of its controller agrees exactly if both pass the filter. -/
theorem selectsBelow_namespaceRecord {v : View} {c : Text × Nat} {u : Address × Text}
    (hc : NvmeName.controller? c.1 = some c.2) (hu : u ∈ v.namespacesOf {} (v.controllerDir c))
    (f : AddressFilter) :
    f.selectsBelow (v.namespaceRecord u.1 u.2 (v.controllerDir c)) =
      (f.selects u.1 && f.allows (some Address.nvmeHost) (some c.2)
        (some (v.controllerId (v.controllerDir c)))) := by
  obtain ⟨minor, id, hunit, hu⟩ := unit?_of_mem_namespacesOf hu
  have hname := NvmeName.slash_not_mem_of_unit? hunit
  have haddress : (v.namespaceRecord u.1 u.2 (v.controllerDir c)).address =
      Address.nvme minor (v.controllerId (v.controllerDir c)) id := hu
  have hlun : AddressFilter.agrees f.lun none = true := by cases f.lun <;> rfl
  rw [AddressFilter.selectsBelow, controllerNumber?_namespaceRecord hc hname, haddress, hu,
    Bool.eq_iff_iff]
  simp only [AddressFilter.selects, AddressFilter.allows, Address.nvme, hlun, Bool.and_eq_true,
    and_true]
  constructor
  · rintro ⟨⟨⟨⟨hhost, hchannel⟩, htarget⟩, hlun⟩, hnumber⟩
    exact ⟨⟨⟨⟨hhost, hchannel⟩, htarget⟩, hlun⟩, ⟨hhost, hnumber⟩, htarget⟩
  · rintro ⟨hselects, ⟨-, hnumber⟩, -⟩
    exact ⟨hselects, hnumber⟩

/-- What a filter leaves of the namespaces below one controller. -/
theorem namespaceRecords_eq_filter {v : View} {c : Text × Nat}
    (hc : NvmeName.controller? c.1 = some c.2) (f : AddressFilter) :
    v.namespaceRecords f c = (v.namespaceRecords {} c).filter f.selectsBelow := by
  let found := v.namespacesOf {} (v.controllerDir c)
  let record (u : Address × Text) := v.namespaceRecord u.1 u.2 (v.controllerDir c)
  let passes := f.allows (some Address.nvmeHost) (some c.2)
    (some (v.controllerId (v.controllerDir c)))
  have hpasses : ∀ u ∈ found, f.selectsBelow (record u) = (f.selects u.1 && passes) :=
    fun u hu => selectsBelow_namespaceRecord hc hu f
  calc v.namespaceRecords f c
      = if passes then (found.filter fun u => f.selects u.1).map record else [] := by
        rw [namespaceRecords, namespacesOf_eq_filter]
    _ = (found.filter fun u => f.selects u.1 && passes).map record := by
        -- a controller that does not pass keeps none of its namespaces
        cases passes with
        | false => simp
        | true => simp
    _ = (found.filter fun u => f.selectsBelow (record u)).map record := by
        rw [List.filter_congr hpasses]
    _ = (found.map record).filter f.selectsBelow := by
        rw [List.filter_map]
        rfl

/-! ## The listing -/

/-- A controller that does not pass by its number does not pass with its id either. -/
theorem namespaceRecords_of_not_allowed {v : View} {f : AddressFilter} {c : Text × Nat}
    (h : ¬ f.allows (some Address.nvmeHost) (some c.2) = true) : v.namespaceRecords f c = [] := by
  refine if_neg fun hgate => h ?_
  have htarget : AddressFilter.agrees f.target none = true := by cases f.target <;> rfl
  simp only [AddressFilter.allows, htarget, Bool.and_eq_true, and_true] at hgate ⊢
  exact ⟨hgate.1.1, hgate.2⟩

theorem flatMap_controllers (v : View) (f : AddressFilter) :
    (v.controllers f).flatMap (v.namespaceRecords f) =
      (v.controllers {}).flatMap (v.namespaceRecords f) := by
  rw [controllers_eq_filter]
  induction v.controllers {} with
  | nil => rfl
  | cons c rest ih =>
    by_cases hc : f.allows (some Address.nvmeHost) (some c.2) = true
    · simp only [List.filter_cons, hc, if_true, List.flatMap_cons, ih]
    · simp only [List.filter_cons, hc, Bool.false_eq_true, if_false, List.flatMap_cons, ih,
        namespaceRecords_of_not_allowed hc, List.nil_append]

theorem listNamespaces_eq_filter (v : View) (f : AddressFilter) :
    v.listNamespaces f = v.listNamespaces.map (List.filter f.selectsBelow) := by
  have hrecords : (v.controllers f).flatMap (v.namespaceRecords f) =
      ((v.controllers {}).flatMap (v.namespaceRecords {})).filter f.selectsBelow := by
    rw [flatMap_controllers, List.filter_flatMap]
    exact List.flatMap_congr fun c hc => namespaceRecords_eq_filter (mem_controllers hc) f
  have hsort : ∀ l, (sortBy recordLe l).filter f.selectsBelow =
      sortBy recordLe (l.filter f.selectsBelow) :=
    filter_sortBy (total_by Address.le_total Record.address)
      (trans_by Address.le_trans Record.address) f.selectsBelow
  rw [listNamespaces_eq, listNamespaces_eq, hrecords, ← hsort]
  rfl

/-- Every listed namespace stands below a controller that has a number. -/
theorem controllerNumber?_of_listNamespaces {v : View} {all : List Record}
    (h : v.listNamespaces = .ok all) {r : Record} (hr : r ∈ all) :
    ∃ c ∈ v.controllers {}, r.directory = PathText.join (v.controllerDir c) r.name ∧
      r.controllerNumber? = some (c.2 : Int) := by
  rw [listNamespaces_eq, Except.ok.injEq] at h
  rw [← h, mem_sortBy, List.mem_flatMap] at hr
  obtain ⟨c, hc, hr⟩ := hr
  obtain ⟨u, hu, rfl⟩ := List.mem_map.1 hr
  obtain ⟨minor, id, hunit, -⟩ := unit?_of_mem_namespacesOf hu
  have hname := NvmeName.slash_not_mem_of_unit? hunit
  exact ⟨c, hc, rfl, controllerNumber?_namespaceRecord (mem_controllers hc) hname⟩

end View

theorem AddressFilter.filter_selectsBelow_eq_iff (f : AddressFilter) (all : List Record) :
    all.filter f.selectsBelow = (all.filter fun r => f.selects r.address) ↔
      ∀ r ∈ all, f.selects r.address = true → agrees f.channel r.controllerNumber? = true := by
  constructor
  · intro h r hr hselects
    have hmem : r ∈ all.filter f.selectsBelow := h ▸ List.mem_filter.2 ⟨hr, hselects⟩
    exact (Bool.and_eq_true_iff.1 (List.mem_filter.1 hmem).2).2
  · intro h
    refine List.filter_congr fun r hr => ?_
    by_cases hselects : f.selects r.address = true
    · rw [selectsBelow, hselects, h r hr hselects]
      rfl
    · rw [selectsBelow, Bool.eq_false_iff.2 hselects]
      rfl

/-- In any two listings of one tree, of which the first has no filter: both succeed, and the second
shows of the first exactly the namespaces that its filter selects together with the numbers of
their controllers. These are all that it selects by their addresses if the numbers agree. -/
theorem Session.namespaces_listed_and_selected (s : Session) (t : Tree)
    (earlier : List (Subject × AddressFilter)) :
    ∃ all, ((s.after t earlier).list t .namespaces).1.records = .ok all ∧
      (∀ r ∈ all, ∃ c ∈ (s.view t).controllers {},
        r.directory = PathText.join ((s.view t).controllerDir c) r.name ∧
        r.controllerNumber? = some (c.2 : Int)) ∧
      ∀ (f : AddressFilter) (later : List (Subject × AddressFilter)), ∃ selected,
        ((s.after t later).list t .namespaces f).1.records = .ok selected ∧
        selected = all.filter f.selectsBelow ∧
        (selected = (all.filter fun r => f.selects r.address) ↔
          ∀ r ∈ all, f.selects r.address = true →
            AddressFilter.agrees f.channel r.controllerNumber? = true) := by
  have hall := View.listNamespaces_eq (s.view t) {}
  refine ⟨_, (records_namespaces_after s t earlier {}).trans hall, ?_, ?_⟩
  · exact fun r hr => View.controllerNumber?_of_listNamespaces hall hr
  · intro f later
    refine ⟨_, ?_, rfl, f.filter_selectsBelow_eq_iff _⟩
    rw [records_namespaces_after, View.listNamespaces_eq_filter, hall]
    rfl

/-- A namespace that is named after the second controller and stands below the first. -/
def sharedNamespace : Tree :=
  Tree.put {} (Path.ofText "/sys/class/nvme/nvme0/nvme1c0n1") (.directory true)

def minorOne : AddressFilter := { host := some Address.nvmeHost, channel := some 1 }

/-- The filter selects the address of the only namespace and yet the listing is empty. -/
theorem Session.namespace_of_other_controller :
    ∃ r, (usual.list sharedNamespace .namespaces).1.records = .ok [r] ∧
      minorOne.selects r.address = true ∧
      (usual.list sharedNamespace .namespaces minorOne).1.records = .ok [] := by
  have hselects : (usual.list sharedNamespace .namespaces).1.records.map
      (List.map fun r => minorOne.selects r.address) =
        .ok [true] := by decide +kernel
  have hempty : (usual.list sharedNamespace .namespaces minorOne).1.records =
      .ok [] := by decide +kernel
  cases hall : (usual.list sharedNamespace .namespaces).1.records with
  | error e =>
    rw [hall] at hselects
    cases hselects
  | ok all =>
    rw [hall] at hselects
    obtain ⟨r, rfl, hr⟩ := List.map_eq_singleton_iff.1 (Except.ok.inj hselects)
    exact ⟨r, rfl, hr, hempty⟩

end StorageAtlas
