import StorageAtlas.Proofs.DiskLink.WorldWideName
import StorageAtlas.Proofs.Listing.Namespaces
import StorageAtlas.Proofs.Listing.Nodes
import StorageAtlas.Proofs.Transport.OneLine

/-!
Line feeds in records. In a tree whose names are on one line, everything that a listed
unit or namespace shows is on one line but its identity, and that only if a designator
of the page is taken over as text.
-/

namespace StorageAtlas

open Text (OneLine)

/-! ## Identities -/

namespace Identity

/-- Are line feeds of an identity those of a designator that is a text? -/
structure Tidy (i : Identity) : Prop where
  tag : OneLine (i.tag.getD [])
  value : ¬ OneLine i.value → i.kind = .scsiName ∨ i.kind = .t10

theorem tidy_tagged (kind : IdentityKind) {tag value : Text} (htag : OneLine tag)
    (hvalue : OneLine value) : Tidy { kind, value, tag := some tag } :=
  ⟨htag, fun h => absurd hvalue h⟩

theorem tidy_untagged (kind : IdentityKind) {value : Text} (hvalue : OneLine value) :
    Tidy { kind, value } :=
  ⟨List.not_mem_nil, fun h => absurd hvalue h⟩

theorem Tidy.oneLine_text_iff {i : Identity} (h : i.Tidy) : OneLine i.text ↔ OneLine i.value := by
  rw [text, Text.oneLine_append, and_iff_right h.tag]

theorem Tidy.kind_of_not_oneLine {i : Identity} (h : i.Tidy) (hfeed : ¬ OneLine i.text) :
    i.kind = .scsiName ∨ i.kind = .t10 :=
  h.value (mt h.oneLine_text_iff.2 hfeed)

/-- With or without its tag, an identity says the same line feeds. -/
theorem Tidy.oneLine_saying_iff {i : Identity} (h : i.Tidy) :
    OneLine i.saying ↔ OneLine i.text := by
  rw [h.oneLine_text_iff, saying]
  split
  · rename_i hnone
    refine iff_of_true (by decide) (not_not.1 fun hvalue => ?_)
    rcases h.value hvalue with hkind | hkind
    all_goals
      rw [hnone] at hkind
      cases hkind
  · exact Iff.rfl

theorem tidy_nothing : nothing.Tidy := tidy_untagged .none (by decide)

theorem oneLine_dashed {digits : Text} (h : OneLine digits) : OneLine (dashed digits) := by
  intro hmem
  rcases Text.mem_join hmem with hmem | ⟨field, hfield, hmem⟩
  · exact absurd hmem (by decide)
  · have hsubset : field ⊆ digits := by
      simp only [List.mem_cons, List.not_mem_nil, or_false] at hfield
      rcases hfield with rfl | rfl | rfl | rfl | rfl
      · exact List.take_subset _ _
      all_goals exact fun _ hc => List.mem_of_mem_drop (List.mem_of_mem_take hc)
    exact h (hsubset hmem)

theorem tidy_ofNaa (d : Descriptor) : (ofNaa d).Tidy := by
  unfold ofNaa
  split
  · exact tidy_tagged _ (by decide) (Text.oneLine_hex _)
  · exact tidy_nothing

theorem tidy_ofEui (d : Descriptor) : (ofEui d).Tidy := by
  unfold ofEui
  split
  · exact tidy_tagged _ (by decide) (Text.oneLine_hex _)
  · exact tidy_nothing

theorem tidy_ofUuid (d : Descriptor) : (ofUuid d).Tidy := by
  unfold ofUuid
  split
  · exact tidy_tagged _ (by decide) (oneLine_dashed (Text.oneLine_hex _))
  · exact tidy_untagged _ (by decide)

theorem tidy_ofName (d : Descriptor) : (ofName d).Tidy := ⟨List.not_mem_nil, fun _ => .inl rfl⟩

theorem tidy_ofVendor (d : Descriptor) : (ofVendor d).Tidy := by
  unfold ofVendor
  split
  · exact ⟨show OneLine "t10." by decide, fun _ => .inr rfl⟩
  · exact tidy_nothing

theorem tidy_choose (find : Query → Option Descriptor) : (choose find).Tidy := by
  unfold choose
  split
  · cases find unitNameQuery with
    | none => exact tidy_nothing
    | some d => exact tidy_ofName d
  · split
    · exact tidy_ofNaa _
    · exact tidy_ofEui _
    · exact tidy_ofUuid _
    · exact tidy_ofName _
    · exact tidy_ofVendor _
    · exact tidy_nothing

theorem Tidy.withTag {i : Identity} (h : i.Tidy) (wanted : Bool) : (i.withTag wanted).Tidy := by
  cases wanted with
  | true => exact h
  | false => exact ⟨List.not_mem_nil, h.value⟩

theorem tidy_ofPage (bytes : Bytes) (wantTag : Bool) : (ofPage bytes wantTag).Tidy := by
  unfold ofPage
  split
  · exact tidy_nothing
  · exact (tidy_choose _).withTag wantTag

end Identity

/-- The identity of a namespace is made from an attribute, which is one line. -/
theorem Selection.tidy_namespaceIdentity {wwid : Option Text} (h : ∀ t, wwid = some t → OneLine t)
    {wantTag : Bool} {i : Identity} (hi : namespaceIdentity wwid wantTag = some i) : i.Tidy := by
  unfold namespaceIdentity at hi
  split at hi
  · cases hi
  · cases hi
  · rename_i c r
    have hid : OneLine (Text.trim (c :: r)) := (h _ rfl).of_subset (Text.trim_subset _)
    simp only at hi
    split at hi
    · rename_i tag kind hfound
      cases hi
      have htag : ∀ pair ∈ wwidTags, OneLine pair.1 := by decide
      refine (Identity.tidy_tagged kind ?_ ?_).withTag wantTag
      · exact htag _ (List.mem_of_find?_eq_some hfound)
      · exact hid.of_subset (List.drop_subset _ _)
    · cases hi
      exact Identity.tidy_untagged _ hid

/-! ## Names of links -/

namespace DiskLinks

variable {d : DiskLinks} (hnames : d.sysfs.tree.NamesOneLine)

include hnames

theorem oneLine_lookup {start node priority ident : Text}
    (h : d.lookup start node priority = some ident) : OneLine ident := by
  unfold lookup at h
  split at h
  · rename_i number _
    rw [pick_eq_argmin] at h
    have hmem : start ++ ident ∈ d.sysfs.entries d.directory :=
      (mem_identsOf_iff.1 (List.argmin_mem h)).1
    exact (Text.oneLine_append.1 (AttributeTree.oneLine_of_mem_entries hnames hmem)).2
  · cases h

theorem oneLine_ownId {withoutType : Bool} {node ident : Text}
    (h : d.ownId withoutType node = some ident) : OneLine ident := by
  have hlookup : ∀ {start priority found : Text},
      nonempty (d.lookup start node priority) = some found → OneLine found :=
    fun h => oneLine_lookup hnames (Option.filter_eq_some_iff.1 h).1
  unfold ownId at h
  split at h
  · rename_i found hfound
    obtain rfl := Option.some.inj h
    unfold dropType
    split
    · split
      · exact (hlookup hfound).of_subset (List.drop_subset _ _)
      · exact hlookup hfound
    · exact hlookup hfound
  · rcases Option.or_eq_some_iff.1 h with h | ⟨-, h⟩
    · exact hlookup h
    · exact hlookup h

theorem oneLine_scsiId {withoutType : Bool} {node ident : Text}
    (h : d.scsiId node withoutType = some ident) : OneLine ident := by
  rw [scsiId_eq_findSome?] at h
  obtain ⟨visit, -, hvisit⟩ := List.exists_of_findSome?_eq_some h
  exact oneLine_ownId hnames hvisit

theorem oneLine_of_find? {source : WwnSource} {disk wwn : Text}
    (h : (d.wwnMap source).find? disk = some wwn) : OneLine wwn := by
  obtain ⟨name, ⟨hdisk, -⟩, -⟩ := ((d.isSmallest_find? source disk).1 wwn).1 h
  have hname := AttributeTree.oneLine_of_mem_entries hnames hdisk.listed
  cases hdisk.spells with
  | typed _ tail =>
    have htail := (Text.oneLine_append.1 hname).2.of_subset (List.subset_cons_self _ _)
    exact Text.oneLine_append.2 ⟨by decide, htail⟩
  | plain _ => exact (Text.oneLine_append.1 hname).2

end DiskLinks

/-! ## Records -/

/-- Is a path on one line, with more than blanks in it? -/
def PathText.IsPlain (path : Text) : Prop := OneLine path ∧ '/' ∈ path

namespace Record

/-- Are attributes on one line, and identities too unless a designator is taken over as text? -/
structure TextsTidy (r : Record) : Prop where
  attributes : r.attributes.All OneLine
  identity : ∀ i, r.identity = some i → i.Tidy

/-- Is everything on one line that a record shows by its name in the tree? -/
structure NamesOneLine (r : Record) : Prop where
  deviceNode : ∀ path, r.deviceNode = some path → PathText.IsPlain path
  kernelName : ∀ path, r.kernelName = some path → PathText.IsPlain path
  genericNode : ∀ path, r.genericNode = some path → PathText.IsPlain path
  wwn : ∀ wwn, r.wwn = some wwn → OneLine wwn
  scsiId : ∀ ident, r.scsiId = some ident → OneLine ident

/-- Does a record hold no line feeds but those of its identity's own text? The summary of an ATA
disk repeats them. -/
structure Tidy (r : Record) : Prop extends r.TextsTidy, r.NamesOneLine where
  transport : ∀ u, r.transport = some u →
    (OneLine u.summary ↔ (u.IsAta → ∀ i, r.identity = some i → OneLine i.text))

theorem oneLine_unitName_iff {r : Record} (h : ∀ i, r.identity = some i → i.Tidy) :
    OneLine r.unitName ↔ ∀ i, r.identity = some i → OneLine i.text := by
  unfold unitName
  cases hidentity : r.identity with
  | none => exact iff_of_true (by decide) (by simp)
  | some i => simp [(h i hidentity).oneLine_saying_iff]

end Record

namespace View

variable {v : View}

/-- What holds of the records of all units and namespaces holds of all that are listed. -/
theorem forall_mem_listed {p : Record → Prop} {f : AddressFilter}
    (hunit : ∀ a name r, v.unitRecord a name = .ok r → p r)
    (hnamespace : ∀ controller, ∀ u ∈ v.namespacesOf f controller,
      p (v.namespaceRecord u.1 u.2 controller))
    {what : Subject} (hwhat : what = .units ∨ what = .namespaces) {records : List Record}
    (h : v.listed f what = .ok records) : ∀ r ∈ records, p r := by
  intro r hr
  obtain ⟨attempt, hmem, hattempt⟩ := exists_attempt_of_listed h hr
  rcases hwhat with rfl | rfl
  · obtain ⟨u, -, rfl⟩ := List.mem_map.1 hmem
    exact hunit _ _ _ hattempt
  · obtain ⟨c, -, hmem⟩ := List.mem_flatMap.1 hmem
    simp only [namespaceAttempts] at hmem
    split at hmem
    · obtain ⟨u, hu, rfl⟩ := List.mem_map.1 hmem
      obtain rfl := Except.ok.inj hattempt
      exact hnamespace _ u hu
    · cases hmem

/-! ## Attributes and identities -/

theorem all_attributes_withNode {r : Record} (h : r.attributes.All OneLine) (directory : Text)
    (kind : DeviceKind) : (v.withNode r directory kind).attributes.All OneLine := by
  simp only [withNode]
  split
  · exact h.update (AttributeTree.oneLine_readMany _ _ _)
  · exact h

theorem all_attributes_withNodeOf {r : Record} (h : r.attributes.All OneLine) :
    (v.withNodeOf r).attributes.All OneLine := by
  unfold withNodeOf
  split
  · exact all_attributes_withNode h _ _
  · exact h

theorem all_attributes_withDisk {r : Record} (h : r.attributes.All OneLine) :
    (v.withDisk r).attributes.All OneLine := by
  unfold withDisk
  split
  · exact h.update (AttributeTree.oneLine_readMany _ _ _)
  · exact h

theorem textsTidy_unitRecord {a : Address} {name : Text} {r : Record}
    (h : v.unitRecord a name = .ok r) : r.TextsTidy where
  attributes := by
    simp only [unitRecord, bind, Except.bind] at h
    split at h
    · cases h
    · cases h
      refine all_attributes_withDisk (r := v.withGeneric _) (all_attributes_withNodeOf (v := v) ?_)
      exact AttributeTree.oneLine_readMany _ _ _
  identity := by
    intro i hi
    obtain ⟨page, -, rfl⟩ := Option.map_eq_some_iff.1 ((identified_of_unitRecord h).1.symm.trans hi)
    exact Identity.tidy_ofPage page _

theorem all_namespaceValues (controller directory : Text) :
    (v.namespaceValues controller directory).All OneLine := by
  refine OrderedMap.All.update (OrderedMap.all_ofList ?_) (AttributeTree.oneLine_readMany _ _ _)
  refine List.forall_mem_append.2 ⟨by decide, fun pair hpair => ?_⟩
  obtain ⟨⟨name, shown⟩, -, hname⟩ := List.mem_filterMap.1 hpair
  obtain ⟨value, hvalue, rfl⟩ := Option.map_eq_some_iff.1 hname
  exact (AttributeTree.oneLine_readMany _ _ _).get? hvalue

theorem textsTidy_namespaceRecord (a : Address) (name controller : Text) :
    (v.namespaceRecord a name controller).TextsTidy where
  attributes := all_attributes_withNode (all_namespaceValues _ _) _ _
  identity := by
    intro i hi
    exact Selection.tidy_namespaceIdentity (fun _ => (all_namespaceValues _ _).get?) hi

/-! ## Names -/

/-- Is everything on one line that a view shows by its name? -/
structure NamesOneLine (v : View) : Prop where
  sysfs : v.sysfs.tree.NamesOneLine
  links : v.links.sysfs.tree.NamesOneLine
  nodePath : ∀ name, OneLine name → PathText.IsPlain (v.nodePath name)
  index : ∀ number kind path, v.index.resolve number kind = some path → PathText.IsPlain path
  wwns : ∀ disk wwn, v.wwns.find? disk = some wwn → OneLine wwn

section

variable (hv : v.NamesOneLine)

include hv

theorem oneLine_findEntry {directory target : Text} {p : Text → Bool}
    (h : v.findEntry directory p = some target) : OneLine target := by
  have hreal : ∀ {path : Text}, v.sysfs.realPath path = some target → OneLine target :=
    AttributeTree.oneLine_realPath hv.sysfs
  obtain ⟨name, -, hname⟩ := Option.bind_eq_some_iff.1 h
  simp only [entryTarget] at hname
  split at hname
  · split at hname
    · cases hname
    · exact hreal hname
  · exact hreal hname

theorem oneLine_nodeDirectory {directory target : Text} {kind : DeviceKind}
    (h : v.nodeDirectory directory = some (target, kind)) : OneLine target := by
  unfold nodeDirectory at h
  split at h
  · cases h
    exact oneLine_findEntry hv ‹_›
  · obtain ⟨found, hfound, hsame⟩ := Option.map_eq_some_iff.1 h
    cases hsame
    exact oneLine_findEntry hv hfound

theorem isPlain_of_resolve {number : Option DeviceNumber} {kind : DeviceKind} {path : Text}
    (h : (number.bind fun n => v.index.resolve n kind) = some path) : PathText.IsPlain path := by
  obtain ⟨n, -, hresolve⟩ := Option.bind_eq_some_iff.1 h
  exact hv.index n kind path hresolve

theorem namesOneLine_withNodeOf {r : Record} (h : r.NamesOneLine) :
    (v.withNodeOf r).NamesOneLine := by
  unfold withNodeOf
  split
  · rename_i directory kind hfound
    refine { h with deviceNode := fun _ => isPlain_of_resolve hv, kernelName := ?_ }
    rintro _ ⟨⟩
    exact hv.nodePath _ (PathText.oneLine_baseName (oneLine_nodeDirectory hv hfound))
  · exact h

theorem namesOneLine_withGeneric {r : Record} (h : r.NamesOneLine) :
    (v.withGeneric r).NamesOneLine :=
  { h with
    genericNode := by
      intro path hpath
      obtain ⟨directory, -, hresolve⟩ := Option.bind_eq_some_iff.1 hpath
      exact isPlain_of_resolve hv hresolve }

omit hv in
theorem namesOneLine_withDisk {r : Record} (h : r.NamesOneLine) : (v.withDisk r).NamesOneLine := by
  unfold withDisk
  split
  · exact { h with }
  · exact h

theorem namesOneLine_unitRecord {a : Address} {name : Text} {r : Record}
    (h : v.unitRecord a name = .ok r) : r.NamesOneLine := by
  simp only [unitRecord, bind, Except.bind] at h
  split at h
  · cases h
  · cases h
    have hbare : Record.NamesOneLine
        { address := a
          name := name
          directory := PathText.join v.unitsDir name
          attributes := v.sysfs.readMany (PathText.join v.unitsDir name) unitAttributes } :=
      ⟨by simp, by simp, by simp, by simp, by simp⟩
    have hgeneric := namesOneLine_withGeneric hv (namesOneLine_withNodeOf hv hbare)
    have hfilled := namesOneLine_withDisk (v := v) hgeneric
    refine { hfilled with wwn := ?_, scsiId := ?_ }
    · intro wwn hwwn
      simp only [wwnFor, Option.ite_none_right_eq_some] at hwwn
      obtain ⟨disk, -, hfound⟩ := Option.bind_eq_some_iff.1 hwwn.2
      exact hv.wwns disk wwn hfound
    · intro ident hident
      simp only [scsiIdFor] at hident
      split at hident
      · exact DiskLinks.oneLine_scsiId hv.links hident
      · cases hident

theorem tidy_unitRecord {a : Address} {name : Text} {r : Record}
    (h : v.unitRecord a name = .ok r) : r.Tidy := by
  have htexts := textsTidy_unitRecord h
  obtain ⟨-, u, hu, htransport⟩ := identified_of_unitRecord h
  obtain ⟨w, hw, hsummary⟩ := summary_of_unitRecord h
  obtain rfl : u = w := Option.some.inj (htransport.symm.trans hw)
  refine ⟨htexts, namesOneLine_unitRecord hv h, fun w hw => ?_⟩
  obtain rfl : u = w := Option.some.inj (htransport.symm.trans hw)
  by_cases hata : u.IsAta
  · have hkind : OneLine u.kind.name := by
      rcases hata with hkind | hkind <;> rw [hkind] <;> decide
    rw [hsummary hata, Text.oneLine_append, Text.oneLine_append, and_iff_right ⟨hkind, by decide⟩,
      Record.oneLine_unitName_iff htexts.identity]
    exact ⟨fun h _ => h, fun h => h hata⟩
  · have hline := Transport.oneLine_summary_of_ofDevice hv.sysfs hu hata
    exact iff_of_true hline fun h => absurd h hata

theorem tidy_namespaceRecord {f : AddressFilter} {controller : Text} {u : Address × Text}
    (h : u ∈ v.namespacesOf f controller) : (v.namespaceRecord u.1 u.2 controller).Tidy where
  toTextsTidy := textsTidy_namespaceRecord _ _ _
  deviceNode := fun _ => isPlain_of_resolve hv
  kernelName := by
    rintro _ ⟨⟩
    have hlisted := (entry_of_mem_namespacesOf h).1
    exact hv.nodePath u.2 (AttributeTree.oneLine_of_mem_entries hv.sysfs hlisted)
  genericNode := by rintro _ ⟨⟩
  wwn := by rintro _ ⟨⟩
  scsiId := by rintro _ ⟨⟩
  transport := by
    rintro _ ⟨⟩
    refine iff_of_true (Transport.Controller.oneLine_summary _ _) fun hata => ?_
    exact absurd hata (Transport.Controller.not_isAta_ofDirectory _ _)

end

end View

/-- A new session sees names on one line if those of the tree and of the device directory are. -/
theorem Session.namesOneLine_view {s : Session} {t : Tree} (hindex : s.index = none)
    (hwwns : s.wwns = {}) (hnames : t.NamesOneLine) (hdir : OneLine s.deviceDir)
    (hne : s.deviceDir ≠ []) : (s.view t).NamesOneLine where
  sysfs := hnames
  links := hnames
  nodePath := fun name hname => ⟨PathText.oneLine_join hdir hname, PathText.slash_mem_join hne name⟩
  index := by
    intro number kind path hresolve
    rw [index_view hindex] at hresolve
    obtain ⟨n, ⟨place, name, -, -, hnode, hpath⟩, -, -, rfl, -⟩ :=
      NodeIndex.newestNode_of_resolve hresolve
    have hname : name ∈ t.names := by
      refine Tree.mem_names_iff.2 ⟨place, Tree.mem_children_iff.2 ?_⟩
      rw [hnode]
      rfl
    rw [hpath]
    exact ⟨PathText.oneLine_join hdir (hnames name hname), PathText.slash_mem_join hne name⟩
  wwns := by
    intro disk wwn hfound
    simp only [view, wwnMapIn, hwwns] at hfound
    split at hfound
    · rename_i source _
      have hnone : ({} : WwnSnapshots).held source = none := by cases source <;> rfl
      rw [WwnSnapshots.current, hnone, Option.getD_none] at hfound
      exact DiskLinks.oneLine_of_find? (d := s.linksIn t) hnames hfound
    · cases hfound

end StorageAtlas
