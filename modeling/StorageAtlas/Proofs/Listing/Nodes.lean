import StorageAtlas.Proofs.DeviceNode.Directory
import StorageAtlas.Proofs.Listing.Runs

/-!
The nodes of listed records. A node that is shown is the newest special file of
the record's kind and number in the device directory, and none is shown only if
the directory has no such file or cannot be listed.
-/

namespace StorageAtlas

/-- Does a path answer to a kind and a number in a directory? It is then that of the newest special
file that has both, and it is missing only if there is no such file to be found. -/
def Tree.ResolvesTo (t : Tree) (directory : Text) (kind : Option DeviceKind)
    (number : Option DeviceNumber) (path : Option Text) : Prop :=
  (∀ p, path = some p → ∃ k n, kind = some k ∧ number = some n ∧ t.NewestNode directory k n p) ∧
  ∀ names m, t.list directory = .ok names → t.HoldsNode directory m → kind = some m.kind →
    number = some m.number → path ≠ none

theorem Tree.resolvesTo_none (t : Tree) (directory : Text) (kind : Option DeviceKind) :
    t.ResolvesTo directory kind none none := by
  constructor
  · intro p hp
    cases hp
  · intro names m hlist hm hkind hnumber
    cases hnumber

theorem Tree.resolvesTo_build (t : Tree) (directory : Text) (kind : DeviceKind)
    (number : Option DeviceNumber) :
    t.ResolvesTo directory (some kind) number
      (number.bind fun n => (NodeIndex.build t directory).resolve n kind) := by
  constructor
  · intro p hp
    obtain ⟨n, hn, hp⟩ := Option.bind_eq_some_iff.1 hp
    exact ⟨kind, n, rfl, hn, NodeIndex.newestNode_of_resolve hp⟩
  · intro names m hlist hm hkind hnumber hnone
    obtain rfl := Option.some.inj hkind
    have hsome := NodeIndex.resolve_isSome hlist hm
    rw [hnumber, Option.bind_some] at hnone
    rw [hnone] at hsome
    cases hsome

namespace View

/-! ## The nodes of one record -/

/-- The number behind the entry of a unit that leads to its generic node. Only units have one. -/
def genericNumber (v : View) : Subject → Record → Option DeviceNumber
  | .units, r => (v.findEntry r.directory Selection.isGenericNode).bind v.sysfs.deviceNumber
  | _, _ => none

/-- Are the nodes of a record those of its numbers in the device directory? -/
def ShowsNodes (v : View) (t : Tree) (directory : Text) (what : Subject) (r : Record) : Prop :=
  t.ResolvesTo directory r.deviceKind r.number r.deviceNode ∧
    t.ResolvesTo directory (some .char) (v.genericNumber what r) r.genericNode

variable {v : View} {t : Tree} {directory : Text}

theorem withDisk_eq (v : View) (r : Record) :
    ∃ attributes, v.withDisk r = { r with attributes } := by
  unfold withDisk
  split
  · exact ⟨_, rfl⟩
  · exact ⟨r.attributes, rfl⟩

theorem resolvesTo_withNode (hindex : v.index = .build t directory) (r : Record) (node : Text)
    (kind : DeviceKind) :
    t.ResolvesTo directory (v.withNode r node kind).deviceKind (v.withNode r node kind).number
      (v.withNode r node kind).deviceNode := by
  have hnode : (v.withNode r node kind).deviceNode = (v.sysfs.deviceNumber node).bind fun n =>
      (NodeIndex.build t directory).resolve n kind := by
    rw [← hindex]
    rfl
  rw [hnode]
  exact t.resolvesTo_build directory kind _

theorem resolvesTo_withNodeOf (hindex : v.index = .build t directory) {r : Record}
    (hnumber : r.number = none) (hnode : r.deviceNode = none) :
    t.ResolvesTo directory (v.withNodeOf r).deviceKind (v.withNodeOf r).number
      (v.withNodeOf r).deviceNode := by
  unfold withNodeOf
  split
  · exact resolvesTo_withNode hindex r _ _
  · rw [hnumber, hnode]
    exact t.resolvesTo_none directory _

theorem resolvesTo_withGeneric (hindex : v.index = .build t directory) (r : Record) :
    t.ResolvesTo directory (some .char) (v.genericNumber .units r)
      (v.withGeneric r).genericNode := by
  have hnode : (v.withGeneric r).genericNode = (v.genericNumber .units r).bind fun n =>
      (NodeIndex.build t directory).resolve n .char := by
    rw [← hindex, genericNumber, Option.bind_assoc]
    rfl
  rw [hnode]
  exact t.resolvesTo_build directory .char _

theorem showsNodes_unitRecord (hindex : v.index = .build t directory) {a : Address} {name : Text}
    {r : Record} (h : v.unitRecord a name = .ok r) : v.ShowsNodes t directory .units r := by
  simp only [unitRecord, bind, Except.bind] at h
  split at h
  · cases h
  · rename_i transport _
    let bare : Record :=
      { address := a
        name := name
        directory := PathText.join v.unitsDir name
        attributes := v.sysfs.readMany (PathText.join v.unitsDir name) unitAttributes }
    obtain ⟨attributes, hdisk⟩ := v.withDisk_eq (v.withGeneric (v.withNodeOf bare))
    simp only [bare] at hdisk
    rw [hdisk] at h
    cases h
    exact ⟨resolvesTo_withNodeOf hindex rfl rfl, resolvesTo_withGeneric hindex _⟩

theorem showsNodes_namespaceRecord (hindex : v.index = .build t directory) (a : Address)
    (name controller : Text) :
    v.ShowsNodes t directory .namespaces (v.namespaceRecord a name controller) := by
  refine ⟨?_, t.resolvesTo_none directory _⟩
  simp only [namespaceRecord]
  exact resolvesTo_withNode hindex _ _ .block

theorem showsNodes_controllerRecord (hindex : v.index = .build t directory) (name : Text)
    (minor : Nat) : v.ShowsNodes t directory .controllers (v.controllerRecord name minor) := by
  refine ⟨?_, t.resolvesTo_none directory _⟩
  simp only [controllerRecord, hindex]
  exact t.resolvesTo_build directory .char _

theorem showsNodes_hostRecord {host : Nat} {name : Text} {r : Record}
    (h : v.hostRecord host name = .ok r) : v.ShowsNodes t directory .hosts r := by
  simp only [hostRecord, bind, Except.bind] at h
  split at h
  · cases h
  · cases h
    exact ⟨t.resolvesTo_none directory _, t.resolvesTo_none directory _⟩

/-! ## The nodes of a listing -/

/-- Whatever is listed, each attempt at a record that succeeds shows the right nodes. -/
theorem showsNodes_of_attempt (hindex : v.index = .build t directory) {what : Subject}
    {f : AddressFilter} {attempt : Attempt} (hmem : attempt ∈ Session.attempts v f what)
    {r : Record} (hr : attempt.record = .ok r) : v.ShowsNodes t directory what r := by
  cases what with
  | units =>
    obtain ⟨u, -, rfl⟩ := List.mem_map.1 hmem
    exact showsNodes_unitRecord hindex hr
  | namespaces =>
    obtain ⟨c, -, hmem⟩ := List.mem_flatMap.1 hmem
    simp only [namespaceAttempts] at hmem
    split at hmem
    · obtain ⟨u, -, rfl⟩ := List.mem_map.1 hmem
      obtain rfl := Except.ok.inj hr
      exact showsNodes_namespaceRecord hindex _ _ _
    · cases hmem
  | hosts =>
    obtain ⟨u, -, rfl⟩ := List.mem_map.1 hmem
    exact showsNodes_hostRecord hr
  | controllers =>
    obtain ⟨u, -, rfl⟩ := List.mem_map.1 hmem
    obtain rfl := Except.ok.inj hr
    exact showsNodes_controllerRecord hindex _ _

end View

namespace Session

theorem index_view {s : Session} (h : s.index = none) (t : Tree) :
    (s.view t).index = .build t s.deviceDir := by
  simp [view, h]

/-- A session that begins with a tree and meets no other shows, in each listing, records with the
right nodes: the newest that the device directory has for the numbers, if it has one. -/
theorem showsNodes_of_listed (s : Session) (t : Tree) (hindex : s.index = none)
    (earlier : List (Subject × AddressFilter)) (what : Subject) (f : AddressFilter)
    {records : List Record}
    (h : ((s.after t earlier).list t what f).1.records = .ok records) :
    ∀ r ∈ records, (s.view t).ShowsNodes t s.deviceDir what r := by
  intro r hr
  rw [records_after] at h
  obtain ⟨attempt, hmem, hattempt⟩ := View.exists_attempt_of_listed h hr
  exact View.showsNodes_of_attempt (index_view hindex t) hmem hattempt

/-- A disk with a generic node. Its number stands on an older node too, and on one of the other
kind. -/
def diskWithNodes : Tree :=
  [("/sys/bus/scsi/devices/0:0:0:0/block/sda/dev", Node.file (Utf8.encode "8:0\n")),
    ("/sys/bus/scsi/devices/0:0:0:0/scsi_generic/sg0/dev", .file (Utf8.encode "21:0\n")),
    ("/dev/disk0", .device .block ⟨8, 0⟩ 2), ("/dev/sda", .device .block ⟨8, 0⟩ 1),
    ("/dev/sda.char", .device .char ⟨8, 0⟩ 3), ("/dev/sg0", .device .char ⟨21, 0⟩ 1)].foldl
    (fun t (path, node) => t.put (Path.ofText path) node) {}

theorem nodes_of_diskWithNodes :
    ∃ r, (usual.list diskWithNodes .units).1.records = .ok [r] ∧
      diskWithNodes.NewestNode "/dev" .block ⟨8, 0⟩ "/dev/disk0" ∧
      diskWithNodes.NewestNode "/dev" .char ⟨21, 0⟩ "/dev/sg0" := by
  have hnode : (usual.list diskWithNodes .units).1.records.map (List.map fun r =>
      (r.deviceKind, r.number, r.deviceNode)) =
        .ok [(some .block, some ⟨8, 0⟩, some "/dev/disk0")] := by decide +kernel
  have hgeneric : (usual.list diskWithNodes .units).1.records.map (List.map fun r =>
      ((usual.view diskWithNodes).genericNumber .units r, r.genericNode)) =
        .ok [(some ⟨21, 0⟩, some "/dev/sg0")] := by decide +kernel
  cases hlisted : (usual.list diskWithNodes .units).1.records with
  | error e =>
    rw [hlisted] at hnode
    cases hnode
  | ok records =>
    rw [hlisted] at hnode hgeneric
    obtain ⟨r, rfl, hr⟩ := List.map_eq_singleton_iff.1 (Except.ok.inj hnode)
    simp only [Prod.mk.injEq] at hr
    obtain ⟨hkind, hnumber, hnode⟩ := hr
    have hgeneric := List.head_eq_of_cons_eq (Except.ok.inj hgeneric)
    simp only [Prod.mk.injEq] at hgeneric
    obtain ⟨⟨hfound, -⟩, ⟨hfoundGeneric, -⟩⟩ :=
      showsNodes_of_listed usual diskWithNodes rfl [] .units {} hlisted r List.mem_cons_self
    refine ⟨r, rfl, ?_, ?_⟩
    · obtain ⟨k, n, hk, hn, hnewest⟩ := hfound _ hnode
      rw [hkind, Option.some.injEq] at hk
      rw [hnumber, Option.some.injEq] at hn
      rw [hk, hn]
      exact hnewest
    · obtain ⟨k, n, hk, hn, hnewest⟩ := hfoundGeneric _ hgeneric.2
      rw [hgeneric.1, Option.some.injEq] at hn
      rw [Option.some.inj hk, hn]
      exact hnewest

end Session
end StorageAtlas
