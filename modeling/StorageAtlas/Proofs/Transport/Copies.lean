import StorageAtlas.Proofs.Transport.Failure
import StorageAtlas.Proofs.Tree.Mount

/-!
Transports in two trees with the same content. Every protocol but the universal
serial bus finds the same in both: what it reads stands below the roots, and of
the text of a place it uses only names that stand below them, too.
-/

namespace StorageAtlas

open PathText (IsDescent)

/-! ## Names that lead down -/

namespace Text

theorem minus_or_isDigit_of_mem_signed {n : Int} {c : Char} (h : c ∈ signed n) :
    c = '-' ∨ c.isDigit = true := by
  cases n with
  | ofNat k => exact .inr (isDigit_of_mem_decimal h)
  | negSucc k =>
    rcases List.mem_cons.1 h with rfl | h
    · exact .inl rfl
    · exact .inr (isDigit_of_mem_decimal h)

theorem not_mem_signed (n : Int) : '/' ∉ signed n := fun h =>
  absurd (minus_or_isDigit_of_mem_signed h) (by decide)

theorem isPrefix_of_find? {needle t : Text} {n : Nat} (h : find? needle t = some n) :
    needle <+: t.drop n := by
  induction t generalizing n with
  | nil =>
    rw [find?] at h
    split at h
    · rename_i hempty
      rw [List.isEmpty_iff.1 hempty]
      exact List.nil_prefix
    · cases h
  | cons c r ih =>
    rw [find?] at h
    split at h
    · rename_i hprefix
      obtain rfl := Option.some.inj h
      exact List.isPrefixOf_iff_prefix.1 hprefix
    · obtain ⟨m, hm, rfl⟩ := Option.map_eq_some_iff.1 h
      exact ih hm

end Text

namespace PathText

/-- What a name begins with tells it from the two dots. -/
theorem isDescent_append {start rest : Text} (hne : start ≠ []) (hfirst : start.head? ≠ some '.')
    (hstart : '/' ∉ start) (hrest : '/' ∉ rest) : IsDescent (start ++ rest) := by
  refine isDescent_of_not_mem (by simp [hstart, hrest]) fun hdots => ?_
  cases start with
  | nil => exact hne rfl
  | cons c more =>
    obtain ⟨rfl, -⟩ := List.cons.inj hdots
    exact hfirst rfl

theorem isDescent_signed (n : Int) : IsDescent (Text.signed n) := by
  refine isDescent_of_not_mem (Text.not_mem_signed n) fun hdots => ?_
  have hmem : '.' ∈ Text.signed n := by
    rw [hdots]
    exact List.mem_cons_self
  exact absurd (Text.minus_or_isDigit_of_mem_signed hmem) (by decide)

end PathText

namespace Address

theorem isDescent_hostName (a : Address) : IsDescent a.hostName := by
  refine PathText.isDescent_append (by decide) (by decide) (by decide) ?_
  exact Text.not_mem_signed _

theorem isDescent_targetName (a : Address) : IsDescent a.targetName := by
  have hcolon : '/' ∉ (":" : Text) := by decide
  unfold targetName
  rw [List.append_assoc, List.append_assoc, List.append_assoc, List.append_assoc]
  refine PathText.isDescent_append (by decide) (by decide) (by decide) ?_
  rw [List.mem_append, List.mem_append, List.mem_append, List.mem_append]
  rintro (h | h | h | h | h)
  · exact Text.not_mem_signed _ h
  · exact hcolon h
  · exact Text.not_mem_signed _ h
  · exact hcolon h
  · exact Text.not_mem_signed _ h

end Address

/-! ## The place of a device -/

/-- The place of a device is so deep below the root that the place of its port is below it, too. -/
def AttributeTree.StandsDeep (s : AttributeTree) (r : Path) (device : Text) : Prop :=
  ∀ below, s.tree.find (s.deviceDir device) = .ok (below ++ r) → 3 ≤ below.length

namespace AttributeTree.Copies

variable {s s' : AttributeTree} {r q : Path} {host device : Text}

theorem deviceDir (c : Copies s s' r q) (hdevice : IsDescent device) :
    Counterparts s s' r q (s.deviceDir device) (s'.deviceDir device) :=
  c.classPath (by decide) (List.forall_mem_cons.2 ⟨hdevice, by decide⟩)

theorem exists_three_names {place : Path} (h : 3 ≤ place.length) :
    ∃ own target name rest, place = own :: target :: name :: rest := by
  match place with
  | own :: target :: name :: rest => exact ⟨own, target, name, rest, rfl⟩
  | [own, target] => exact absurd h (by simp)
  | [own] => exact absurd h (by simp)
  | [] => exact absurd h (by simp)

/-- The place of a port is named by what stands below the roots. -/
theorem portPlace (c : Copies s s' r q) (hdevice : IsDescent device)
    (hdepth : s.StandsDeep r device) :
    (s.portPlace device = none ∧ s'.portPlace device = none) ∨
      ∃ name below, (∀ other ∈ name :: below, Path.IsFileName other) ∧
        s.portPlace device = some (Path.text (name :: below ++ r)) ∧
        s'.portPlace device = some (Path.text (name :: below ++ q)) := by
  rcases c.realPath (c.deviceDir hdevice) with ⟨hplace, hplace'⟩ |
    ⟨below, hfind, hplace, hplace', hnames, hnames'⟩
  · left
    rw [AttributeTree.portPlace, AttributeTree.portPlace, devicePlace, devicePlace, hplace, hplace']
    exact ⟨rfl, rfl⟩
  · right
    obtain ⟨own, target, name, rest, rfl⟩ := exists_three_names (hdepth below hfind)
    -- both steps up stay below the root, whichever it is
    have htwice : ∀ root : Path,
        (∀ other ∈ own :: target :: name :: rest ++ root, Path.IsFileName other) →
        PathText.parent (PathText.parent (Path.text (own :: target :: name :: rest ++ root))) =
          Path.text (name :: rest ++ root) := by
      intro root hroot
      have hupper := (List.forall_mem_cons.1 hroot).2
      exact (congrArg PathText.parent (Path.parent_text hroot)).trans (Path.parent_text hupper)
    refine ⟨name, rest, ?_, ?_, ?_⟩
    · intro other hother
      have hbelow := List.mem_cons_of_mem own (List.mem_cons_of_mem target hother)
      exact hnames other (List.mem_append_left _ hbelow)
    · rw [AttributeTree.portPlace, devicePlace, hplace, Option.map_some, htwice r hnames]
    · rw [AttributeTree.portPlace, devicePlace, hplace', Option.map_some, htwice q hnames']

theorem identity (c : Copies s s' r q) (hdevice : IsDescent device) :
    s.identity device = s'.identity device := by
  have hpage : s.identificationPage device = s'.identificationPage device :=
    c.readBytes (c.deviceDir hdevice) (by decide) _
  rw [AttributeTree.identity, AttributeTree.identity, hpage]

end AttributeTree.Copies

namespace Transport

variable {s s' : AttributeTree} {r q : Path} {host device : Text}

open AttributeTree (Copies Counterparts)

/-! ## Protocols with classes of their own -/

namespace Parallel

theorem hostProbe_alike (c : Copies s s' r q) (hhost : IsDescent host) :
    hostProbe s host = hostProbe s' host := by
  have hdir := c.classEntry (show IsDescent "spi_host" by decide) hhost
  unfold hostProbe
  simp only
  rw [c.isDir hdir, c.readMany hdir (by decide)]

theorem deviceProbe_alike (c : Copies s s' r q) (a : Address) :
    deviceProbe s a device = deviceProbe s' a device := by
  have hhost := c.classEntry (show IsDescent "spi_host" by decide) a.isDescent_hostName
  have htarget := c.classEntry (show IsDescent "spi_transport" by decide) a.isDescent_targetName
  unfold deviceProbe
  simp only
  rw [c.isDir hhost, c.readMany htarget (by decide)]

end Parallel

namespace FibreChannel

variable {path path' : Text}

theorem kindOf_alike (c : Copies s s' r q) (h : Counterparts s s' r q path path') :
    kindOf s path = kindOf s' path' := by
  rw [kindOf, kindOf, c.read h (by decide)]

theorem portSummary_alike (c : Copies s s' r q) (h : Counterparts s s' r q path path')
    (kind : TransportKind) : portSummary s kind path = portSummary s' kind path' := by
  rw [portSummary, portSummary, c.read h (by decide), c.read h (by decide)]

theorem hostProbe_alike (c : Copies s s' r q) (hhost : IsDescent host) :
    hostProbe s host = hostProbe s' host := by
  have hdir := c.classEntry (show IsDescent "fc_host" by decide) hhost
  unfold hostProbe
  simp only
  rw [c.isDir hdir, kindOf_alike c hdir, portSummary_alike c hdir, c.readMany hdir (by decide)]

theorem remotePort_alike (c : Copies s s' r q) {name : Text} {below : Path}
    (hnames : ∀ other ∈ name :: below, Path.IsFileName other) :
    remotePort s (Path.text (name :: below ++ r)) =
      remotePort s' (Path.text (name :: below ++ q)) := by
  have hname := hnames name List.mem_cons_self
  have hdescent := PathText.isDescent_of_isFileName hname
  have hplace := c.text (List.cons_ne_nil name below) hnames
  have hport : ∀ part ∈ (["fc_remote_ports", name] : List Text), IsDescent part :=
    List.forall_mem_cons.2 ⟨by decide, List.forall_mem_singleton.2 hdescent⟩
  have hbelow := c.joinAll hplace hport
  have hclass := c.classEntry (show IsDescent "fc_remote_ports" by decide) hdescent
  unfold remotePort
  simp only
  rw [List.cons_append, List.cons_append, Path.baseName_text hname.2.2.2,
    Path.baseName_text hname.2.2.2]
  simp only [List.cons_append] at hbelow
  rw [c.isDir hbelow]
  split
  · rw [c.readMany hbelow (by decide)]
  · rw [c.readMany hclass (by decide)]

theorem deviceProbe_alike (c : Copies s s' r q) (a : Address) (hdevice : IsDescent device)
    (hdepth : s.StandsDeep r device) :
    deviceProbe s a device = deviceProbe s' a device := by
  have hhost := c.classEntry (show IsDescent "fc_host" by decide) a.isDescent_hostName
  have htarget := c.classEntry (show IsDescent "fc_transport" by decide) a.isDescent_targetName
  unfold deviceProbe
  simp only
  rw [c.isDir hhost, kindOf_alike c hhost, portSummary_alike c htarget,
    c.readMany (c.deviceDir hdevice) (by decide)]
  rcases c.portPlace hdevice hdepth with ⟨hplace, hplace'⟩ | ⟨name, below, hnames, hplace, hplace'⟩
  · rw [hplace, hplace']
  · rw [hplace, hplace']
    simp only
    rw [remotePort_alike c hnames]

end FibreChannel

namespace Rdma

/-- The adapter that a host names is named by a way that leads down. -/
def AdapterIsBelow (s : AttributeTree) (host : Text) : Prop :=
  ∀ adapter, s.read (s.classPath "scsi_host" [host]) "local_ib_device" = some adapter →
    IsDescent adapter

theorem localPort_alike (c : Copies s s' r q) (hhost : IsDescent host)
    (hadapter : AdapterIsBelow s host) : localPort s host = localPort s' host := by
  have hdir := c.classEntry (show IsDescent "scsi_host" by decide) hhost
  unfold localPort PathText.part
  simp only
  rw [← c.readInt hdir (by decide), ← c.read hdir (by decide)]
  split
  · rename_i port first rest _ hname
    have hparts : ∀ part ∈ ([first :: rest, "ports", Text.signed port, "gids"] : List Text),
        IsDescent part :=
      List.forall_mem_cons.2 ⟨hadapter _ hname, List.forall_mem_cons.2 ⟨by decide,
        List.forall_mem_cons.2 ⟨PathText.isDescent_signed port, by decide⟩⟩⟩
    split
    · rfl
    · simp only [Except.map]
      rw [c.read (c.classPath (by decide) hparts) (by decide)]
  · rfl

theorem remotePorts_alike (c : Copies s s' r q) (hhost : IsDescent host) :
    remotePorts s host = remotePorts s' host := by
  have hdir := c.classEntry (show IsDescent "scsi_host" by decide) hhost
  have hports : ∀ name ∈ remotePortNames, ((s.read (s.classPath "scsi_host" [host]) name).bind
      ownPart?).map (fun port => (name, port)) =
      ((s'.read (s'.classPath "scsi_host" [host]) name).bind ownPart?).map
        fun port => (name, port) := by
    intro name hname
    have hdescent : IsDescent name :=
      (show ∀ name ∈ remotePortNames, IsDescent name by decide) name hname
    rw [c.read hdir hdescent]
  unfold remotePorts
  simp only
  rw [List.filterMap_congr hports]

theorem hostProbe_alike (c : Copies s s' r q) (hhost : IsDescent host)
    (hadapter : AdapterIsBelow s host) : hostProbe s host = hostProbe s' host := by
  unfold hostProbe
  rw [c.isDir (c.classEntry (by decide) hhost), localPort_alike c hhost hadapter,
    remotePorts_alike c hhost]

end Rdma

/-! ## Serial SCSI -/

namespace Serial

theorem mem_of_leastNumbered {numbered : List (Text × Option Int)} {name : Text} {n : Int}
    (h : leastNumbered numbered = some (name, n)) : (name, some n) ∈ numbered := by
  induction numbered generalizing name n with
  | nil => cases h
  | cons pair rest ih =>
    obtain ⟨first, number⟩ := pair
    cases number with
    | none => exact List.mem_cons_of_mem _ (ih h)
    | some k =>
      rw [leastNumbered] at h
      split at h
      · rename_i other m hrest
        split at h
        · obtain ⟨rfl, rfl⟩ := Prod.mk.inj (Option.some.inj h)
          exact List.mem_cons_of_mem _ (ih hrest)
        · obtain ⟨rfl, rfl⟩ := Prod.mk.inj (Option.some.inj h)
          exact List.mem_cons_self
      · obtain ⟨rfl, rfl⟩ := Prod.mk.inj (Option.some.inj h)
        exact List.mem_cons_self

theorem map_fst_of_mapM {α β : Type} {f : α → Except ValueFault β} {l : List α}
    {pairs : List (α × β)} (h : l.mapM (fun a => (f a).map fun b => (a, b)) = .ok pairs) :
    pairs.map Prod.fst = l := by
  induction l generalizing pairs with
  | nil =>
    obtain rfl : [] = pairs := Except.ok.inj h
    rfl
  | cons a rest ih =>
    rw [List.mapM_cons] at h
    cases hvalue : f a with
    | error e =>
      rw [hvalue] at h
      cases h
    | ok b =>
      rw [hvalue] at h
      cases hrest : rest.mapM (fun a => (f a).map fun b => (a, b)) with
      | error e =>
        rw [hrest] at h
        cases h
      | ok more =>
        rw [hrest] at h
        obtain rfl : (a, b) :: more = pairs := Except.ok.inj h
        rw [List.map_cons, ih hrest]

theorem mem_of_lowestPhy {names : List Text} {phy : Text}
    (h : lowestPhy names = .ok (some phy)) : phy ∈ names := by
  unfold lowestPhy at h
  cases hnumbered : (names.filter fun name => Text.startsWith name "phy").mapM
      (fun name => (phyNumber? name).map fun n => (name, n)) with
  | error e =>
    simp only [hnumbered] at h
    cases h
  | ok numbered =>
    have hphys : phy ∈ names.filter fun name => Text.startsWith name "phy" := by
      cases hleast : leastNumbered numbered with
      | none =>
        simp only [hnumbered, bind, Except.bind, hleast] at h
        exact List.mem_of_head? (Except.ok.inj h)
      | some pair =>
        simp only [hnumbered, bind, Except.bind, hleast] at h
        obtain rfl := Option.some.inj (Except.ok.inj h)
        rw [← map_fst_of_mapM hnumbered]
        exact List.mem_map_of_mem (f := Prod.fst) (mem_of_leastNumbered hleast)
    exact (List.mem_filter.1 hphys).1

theorem ofPhy_alike (c : Copies s s' r q) {phy : Text} (hphy : IsDescent phy) (start : Text) :
    ofPhy s phy start = ofPhy s' phy start := by
  rw [ofPhy, ofPhy, c.readMany (c.classEntry (by decide) hphy) (by decide)]

variable {path path' : Text}

theorem ofPort_alike (c : Copies s s' r q) (h : Counterparts s s' r q path path') {port : Text}
    (hport : IsDescent port) : ofPort s path port = ofPort s' path' port := by
  have hclass := c.classEntry (show IsDescent "sas_port" by decide) hport
  unfold ofPort
  simp only
  rw [← c.entries (c.join h hport), c.read hclass (by decide)]
  cases hlowest : lowestPhy (sorted isPhy (s.entries (PathText.join path port))) with
  | error e => rfl
  | ok lowest =>
    cases lowest with
    | none => rfl
    | some phy =>
      have hphy := c.isDescent_of_mem_entries (mem_sorted.1 (mem_of_lowestPhy hlowest)).1
      show Except.ok _ = Except.ok _
      rw [ofPhy_alike c hphy]

theorem ofPorts_alike (c : Copies s s' r q) (h : Counterparts s s' r q path path')
    {ports : List Text} (hports : ∀ port ∈ ports, IsDescent port) (found : Attributes) :
    ofPorts s path ports found = ofPorts s' path' ports found := by
  induction ports generalizing found with
  | nil => rfl
  | cons port rest ih =>
    obtain ⟨hport, hrest⟩ := List.forall_mem_cons.1 hports
    rw [ofPorts, ofPorts, ofPort_alike c h hport]
    exact bind_congr fun values => ih hrest _

theorem hostPorts_alike (c : Copies s s' r q) (hhost : IsDescent host) :
    hostPorts s host = hostPorts s' host := by
  have hparts : ∀ part ∈ ([host, "device"] : List Text), IsDescent part :=
    List.forall_mem_cons.2 ⟨hhost, by decide⟩
  have hdir := c.classPath (show IsDescent "scsi_host" by decide) hparts
  have hnames : ∀ p, ∀ name ∈ sorted p (s.entries (s.classPath "scsi_host" [host, "device"])),
      IsDescent name := fun p name hname => c.isDescent_of_mem_entries (mem_sorted.1 hname).1
  unfold hostPorts
  simp only
  rw [← c.entries hdir]
  have hphys : ∀ found : Attributes,
      ∀ phy ∈ sorted isPhy (s.entries (s.classPath "scsi_host" [host, "device"])),
        found.update (ofPhy s phy (phy ++ ".")) = found.update (ofPhy s' phy (phy ++ ".")) :=
    fun found phy hphy => by rw [ofPhy_alike c (hnames isPhy phy hphy)]
  rw [List.foldl_ext _ _ _ hphys]
  split
  · rfl
  · exact ofPorts_alike c hdir (hnames isPort) _

theorem hostProbe_alike (c : Copies s s' r q) (hhost : IsDescent host) :
    hostProbe s host = hostProbe s' host := by
  have hdir := c.classEntry (show IsDescent "sas_host" by decide) hhost
  have hentries := c.entries (c.join hdir (show IsDescent "device" by decide))
  unfold hostProbe
  simp only
  rw [c.has hdir, hostPorts_alike c hhost, ← hentries]
  split
  · refine bind_congr fun attributes => ?_
    cases hlowest : lowestPhy
        (s.entries (PathText.join (s.classPath "sas_host" [host]) "device")) with
    | error e => rfl
    | ok lowest =>
      cases lowest with
      | none => rfl
      | some phy =>
        have hphy := c.isDescent_of_mem_entries (mem_of_lowestPhy hlowest)
        have hclass := c.classEntry (show IsDescent "sas_phy" by decide) hphy
        have hread := c.read hclass (show IsDescent "sas_address" by decide)
        show Finding.found _ ("sas:" ++ (s.read _ _).getD []) _ =
          Finding.found _ ("sas:" ++ (s'.read _ _).getD []) _
        rw [hread]
  · rfl

theorem enclosureEntry_alike (c : Copies s s' r q) {endDevice : Text} (hend : IsDescent endDevice)
    (a : Address) (hdevice : IsDescent device) :
    enclosureEntry s endDevice a device = enclosureEntry s' endDevice a device := by
  have hparts : ∀ part ∈ ([endDevice, "device", a.targetName, device] : List Text),
      IsDescent part :=
    List.forall_mem_cons.2 ⟨hend, List.forall_mem_cons.2 ⟨by decide, List.forall_mem_cons.2
      ⟨a.isDescent_targetName, List.forall_mem_singleton.2 hdevice⟩⟩⟩
  unfold enclosureEntry
  simp only
  rw [c.entries (c.classPath (by decide) hparts)]

theorem deviceProbe_alike (c : Copies s s' r q) (a : Address) (hdevice : IsDescent device)
    (hdepth : s.StandsDeep r device) :
    deviceProbe s a device = deviceProbe s' a device := by
  have hhost := c.classEntry (show IsDescent "sas_host" by decide) a.isDescent_hostName
  unfold deviceProbe
  rw [c.has hhost]
  split
  · rcases c.portPlace hdevice hdepth with
      ⟨hplace, hplace'⟩ | ⟨name, below, hnames, hplace, hplace'⟩
    · rw [hplace, hplace']
    · have hname := hnames name List.mem_cons_self
      have hend := PathText.isDescent_of_isFileName hname
      have hclass := c.classEntry (show IsDescent "sas_device" by decide) hend
      have hendClass := c.classEntry (show IsDescent "sas_end_device" by decide) hend
      rw [hplace, hplace']
      simp only
      rw [List.cons_append, List.cons_append, Path.baseName_text hname.2.2.2,
        Path.baseName_text hname.2.2.2, c.read hclass (by decide), c.readMany hclass (by decide),
        c.readMany (c.deviceDir hdevice) (by decide), enclosureEntry_alike c hend a hdevice,
        c.readMany hendClass (by decide)]
  · rfl

namespace Older

theorem hostProbe_alike (c : Copies s s' r q) (hhost : IsDescent host) :
    hostProbe s host = hostProbe s' host := by
  have hdir := c.classEntry (show IsDescent "scsi_host" by decide) hhost
  have hadapter := c.joinAll hdir
    (show ∀ part ∈ (["device", "sas", "ha"] : List Text), IsDescent part by decide)
  have hphy := c.joinAll hadapter
    (show ∀ part ∈ (["phys", "0"] : List Text), IsDescent part by decide)
  unfold hostProbe
  simp only
  rw [c.isDir hadapter, c.readMany hadapter (by decide), c.readMany hphy (by decide)]

theorem deviceProbe_alike (c : Copies s s' r q) (a : Address) (hdevice : IsDescent device) :
    deviceProbe s a device = deviceProbe s' a device := by
  have hparts : ∀ part ∈ (["scsi", "devices", device, "sas_device"] : List Text),
      IsDescent part :=
    List.forall_mem_cons.2 ⟨by decide, List.forall_mem_cons.2 ⟨by decide,
      List.forall_mem_cons.2 ⟨hdevice, by decide⟩⟩⟩
  have hdir := c.under (show IsDescent "bus" by decide) hparts
  unfold deviceProbe
  simp only
  rw [c.isDir hdir, c.readMany hdir (by decide)]

end Older
end Serial

/-! ## FireWire -/

namespace FireWire

/-- Behind the part up to the adapter a link goes on. -/
theorem eq_append_of_adapterPart? {link part : Text} (h : adapterPart? link = some part) :
    ∃ after, link = part ++ '/' :: after := by
  unfold adapterPart? at h
  cases hstart : Text.find? "/fw-host" link with
  | none =>
    rw [hstart] at h
    cases h
  | some start =>
    rw [hstart] at h
    cases hstop : Text.find? "/" (link.drop (start + 1)) with
    | none =>
      simp only [Option.bind_eq_bind, Option.bind_some, hstop] at h
      cases h
    | some stop =>
      simp only [Option.bind_eq_bind, Option.bind_some, hstop] at h
      obtain rfl := Option.some.inj h
      obtain ⟨after, hafter⟩ := Text.isPrefix_of_find? hstop
      rw [List.drop_drop] at hafter
      refine ⟨after, ?_⟩
      have hsplit := List.take_append_drop (start + 1 + stop) link
      rw [← hafter] at hsplit
      exact hsplit.symm

theorem hostProbe_alike (c : Copies s s' r q) (hhost : IsDescent host) :
    hostProbe s host = hostProbe s' host := by
  have hparts : ∀ part ∈ (["scsi_host", host] : List Text), IsDescent part :=
    List.forall_mem_cons.2 ⟨by decide, List.forall_mem_singleton.2 hhost⟩
  have hdir := c.under (show IsDescent "class" by decide) hparts
  have hlink := c.readLink (c.join hdir (show IsDescent "device" by decide))
  unfold hostProbe AttributeTree.classPath
  simp only
  rw [← hlink]
  cases hread : s.readLink (PathText.join (s.under ["class", "scsi_host", host]) "device") with
  | none => rfl
  | some link =>
    cases hpart : adapterPart? link with
    | none => simp [hpart]
    | some part =>
      obtain ⟨after, hafter⟩ := eq_append_of_adapterPart? hpart
      have hname : Path.IsFileName "device" := ⟨by decide, by decide, by decide, by decide⟩
      have hadapter := c.linkStart (by decide) (by decide) hparts hname hread hafter
      simp only [Option.bind_eq_bind, Option.bind_some, hpart]
      rw [c.read hadapter (by decide)]

theorem deviceProbe_alike (c : Copies s s' r q) (a : Address) (hdevice : IsDescent device) :
    deviceProbe s a device = deviceProbe s' a device := by
  have hparts : ∀ part ∈ (["scsi", "devices", device] : List Text), IsDescent part :=
    List.forall_mem_cons.2 ⟨by decide, List.forall_mem_cons.2 ⟨by decide,
      List.forall_mem_singleton.2 hdevice⟩⟩
  unfold deviceProbe
  rw [c.read (c.under (by decide) hparts) (by decide)]

end FireWire

/-! ## SCSI over IP -/

namespace Iscsi

theorem hostProbe_alike (c : Copies s s' r q) (hhost : IsDescent host) :
    hostProbe s host = hostProbe s' host := by
  rw [hostProbe, hostProbe, c.isDir (c.classEntry (by decide) hhost)]

theorem hostDevice (c : Copies s s' r q) (a : Address) :
    Counterparts s s' r q (s.classPath "iscsi_host" [a.hostName, "device"])
      (s'.classPath "iscsi_host" [a.hostName, "device"]) :=
  c.classPath (by decide) (List.forall_mem_cons.2 ⟨a.isDescent_hostName, by decide⟩)

theorem sessions_alike (c : Copies s s' r q) (a : Address) : sessions s a = sessions s' a := by
  have hdir := hostDevice c a
  have hfilter : ∀ name ∈ sortBy Text.le
      (s.entries (s.classPath "iscsi_host" [a.hostName, "device"])),
      ((sessionDigits? name).isSome && s.isDir (PathText.joinAll
        (s.classPath "iscsi_host" [a.hostName, "device"]) [name, a.targetName])) =
      ((sessionDigits? name).isSome && s'.isDir (PathText.joinAll
        (s'.classPath "iscsi_host" [a.hostName, "device"]) [name, a.targetName])) := by
    intro name hname
    have hdescent := c.isDescent_of_mem_entries (mem_sortBy.1 hname)
    have hboth : ∀ part ∈ ([name, a.targetName] : List Text), IsDescent part :=
      List.forall_mem_cons.2 ⟨hdescent, List.forall_mem_singleton.2 a.isDescent_targetName⟩
    rw [c.isDir (c.joinAll hdir hboth)]
  unfold sessions
  simp only
  rw [← c.entries hdir, List.filter_congr hfilter]

theorem isDescent_session (n : Int) : IsDescent ("session" ++ Text.signed n) :=
  PathText.isDescent_append (by decide) (by decide) (by decide) (Text.not_mem_signed n)

theorem ofSession_alike (c : Copies s s' r q) (n : Int) : ofSession s n = ofSession s' n := by
  unfold ofSession
  simp only
  rw [c.readMany (c.classEntry (by decide) (isDescent_session n)) (by decide)]

theorem deviceProbe_alike (c : Copies s s' r q) (a : Address) :
    deviceProbe s a device = deviceProbe s' a device := by
  have hsession : ofSession s = ofSession s' := funext (ofSession_alike c)
  unfold deviceProbe
  rw [c.isDir (hostDevice c a), sessions_alike c a, hsession]

end Iscsi

/-! ## ATA -/

namespace Ata

theorem kindOfHost?_alike (c : Copies s s' r q) (hhost : IsDescent host) :
    kindOfHost? s host = kindOfHost? s' host := by
  rw [kindOfHost?, kindOfHost?, c.read (c.classEntry (by decide) hhost) (by decide)]

theorem hostProbe_alike (c : Copies s s' r q) (hhost : IsDescent host) :
    hostProbe s host = hostProbe s' host := by
  unfold hostProbe
  rw [kindOfHost?_alike c hhost]

theorem deviceProbe_alike (c : Copies s s' r q) (a : Address) (hdevice : IsDescent device) :
    deviceProbe s a device = deviceProbe s' a device := by
  have hkind := kindOfHost?_alike c a.isDescent_hostName
  have hidentity := c.identity hdevice
  unfold deviceProbe
  rw [hidentity, hkind]

end Ata
end Transport
end StorageAtlas
