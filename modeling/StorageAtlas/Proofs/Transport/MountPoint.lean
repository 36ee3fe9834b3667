import StorageAtlas.Proofs.Transport.Copies

/-!
Where a tree is mounted, and the transports in it. The universal serial bus is
recognised by the text of a place, in which the names above the mount point
stand with the others; nothing else is told apart by them.
-/

namespace StorageAtlas

/-! ## Where one text stands in another -/

namespace Text

theorem isPrefixOf_append_sep {sep : Char} {needle : Text} (h : sep ∉ needle) (a b : Text) :
    needle.isPrefixOf (a ++ sep :: b) = needle.isPrefixOf a := by
  induction needle generalizing a with
  | nil => rfl
  | cons c rest ih =>
    obtain ⟨hc, hrest⟩ := not_or.1 (List.mem_cons.not.1 h)
    cases a with
    | nil => simp [List.isPrefixOf, Ne.symm hc]
    | cons d r => simp [List.isPrefixOf, ih hrest]

/-- A text without the separator is not torn by it. -/
theorem holds_append_sep {sep : Char} {needle : Text} (hne : needle ≠ []) (h : sep ∉ needle)
    (a b : Text) : holds needle (a ++ sep :: b) = (holds needle a || holds needle b) := by
  have hempty : needle.isEmpty = false := by simpa using hne
  induction a with
  | nil =>
    have hnot : needle.isPrefixOf (sep :: b) = false := by
      rw [← List.nil_append (sep :: b), isPrefixOf_append_sep h]
      cases needle with
      | nil => exact absurd rfl hne
      | cons c rest => rfl
    simp [holds, find?, hnot, hempty]
  | cons c r ih =>
    have hprefix := isPrefixOf_append_sep h (c :: r) b
    simp only [List.cons_append] at hprefix
    simp only [holds] at ih ⊢
    rw [List.cons_append, find?, find?, hprefix]
    split
    · rfl
    · rw [Option.isSome_map, Option.isSome_map, ih]

/-- What begins with the separator does not stand where there is none. -/
theorem find?_append_of_not_mem {sep : Char} {name : Text} (h : sep ∉ name) (needle t : Text) :
    find? (sep :: needle) (name ++ t) = (find? (sep :: needle) t).map (· + name.length) := by
  induction name with
  | nil => simp
  | cons c rest ih =>
    obtain ⟨hc, hrest⟩ := not_or.1 (List.mem_cons.not.1 h)
    have hnot : (sep :: needle).isPrefixOf (c :: (rest ++ t)) = false := by
      simp [List.isPrefixOf, hc]
    rw [List.cons_append, find?, hnot, ih hrest]
    simp [Option.map_map, Function.comp_def, Nat.add_assoc]

end Text

/-! ## The interface at a place -/

namespace Transport.Usb

/-- The names with a slash before each, the outermost first. -/
def wayText (names : List Text) : Text := names.flatMap fun name => '/' :: name

/-- The name before the first one of a host, and nothing if no host is there. -/
def nameBeforeHost (before : Text) : List Text → Text
  | [] => []
  | name :: rest => if Text.startsWith name "host" then before else nameBeforeHost name rest

theorem holds_wayText {names : List Text} (h : ∀ name ∈ names, '/' ∉ name) :
    Text.holds "usb" (wayText names) = names.any (Text.holds "usb") := by
  have hfirst : ∀ t : Text, Text.holds "usb" ('/' :: t) = Text.holds "usb" t := fun t =>
    Text.holds_append_sep (by decide) (by decide) [] t
  induction names with
  | nil => rfl
  | cons name rest ih =>
    obtain ⟨-, hrest⟩ := List.forall_mem_cons.1 h
    rw [List.any_cons, ← ih hrest]
    cases rest with
    | nil =>
      rw [wayText, List.flatMap_singleton, hfirst]
      exact (Bool.or_false _).symm
    | cons other more =>
      have hsplit : wayText (name :: other :: more) =
          '/' :: (name ++ '/' :: (other ++ wayText more)) := by
        simp [wayText]
      rw [hsplit, hfirst, Text.holds_append_sep (by decide) (by decide)]
      have hmore : wayText (other :: more) = '/' :: (other ++ wayText more) := rfl
      rw [hmore, hfirst]

theorem find?_wayText {name : Text} (h : '/' ∉ name) (rest : List Text) :
    Text.find? "/host" (wayText (name :: rest)) =
      if Text.startsWith name "host" then some 0
      else (Text.find? "/host" (wayText rest)).map (· + (name.length + 1)) := by
  have hprefix : Text.startsWith (name ++ wayText rest) "host" = Text.startsWith name "host" := by
    cases rest with
    | nil => rw [wayText, List.flatMap_nil, List.append_nil]
    | cons other more => exact Text.isPrefixOf_append_sep (by decide) _ _
  have hway : wayText (name :: rest) = '/' :: (name ++ wayText rest) := rfl
  have hhost : ("/host" : Text) = '/' :: "host" := rfl
  have hslash : List.isPrefixOf ("/host" : Text) ('/' :: (name ++ wayText rest)) =
      Text.startsWith name "host" := by
    rw [← hprefix]
    rfl
  rw [hway, Text.find?, hslash]
  split
  · rfl
  · rw [hhost, Text.find?_append_of_not_mem h, Option.map_map]
    rfl

theorem take_wayText (name : Text) (rest : List Text) (n : Nat) :
    (wayText (name :: rest)).take (n + (name.length + 1)) =
      '/' :: (name ++ (wayText rest).take n) := by
  have hway : wayText (name :: rest) = ('/' :: name) ++ wayText rest := rfl
  have hlength : n + (name.length + 1) = ('/' :: name).length + n := by
    rw [List.length_cons, Nat.add_comm]
  rw [hway, hlength, List.take_length_add_append]
  rfl

/-- The text before the first host ends with the name before it. -/
theorem afterLast_wayText {names : List Text} (h : ∀ name ∈ names, '/' ∉ name) {before : Text}
    (hbefore : '/' ∉ before) (front : Text) :
    (((Text.find? "/host" (wayText names)).map fun n =>
      Text.afterLast '/' (front ++ '/' :: (before ++ (wayText names).take n))).getD []) =
      nameBeforeHost before names := by
  -- `before` is the name that was passed last, `front` what stands before it
  induction names generalizing before front with
  | nil => rfl
  | cons name rest ih =>
    obtain ⟨hname, hrest⟩ := List.forall_mem_cons.1 h
    rw [find?_wayText hname, nameBeforeHost]
    by_cases hhost : Text.startsWith name "host" = true
    · rw [if_pos hhost, if_pos hhost, Option.map_some, Option.getD_some, List.take_zero,
        List.append_nil, Text.afterLast_append hbefore]
    · rw [if_neg hhost, if_neg hhost, ← ih hrest hname (front ++ '/' :: before), Option.map_map]
      simp only [Function.comp_def, take_wayText, List.append_assoc, List.cons_append]

/-- The interface of a place, by the names on the way to it. -/
theorem interface?_text {place : Path} (h : ∀ name ∈ place, '/' ∉ name) :
    interface? (Path.text place) =
      if place.any (Text.holds "usb") then some (nameBeforeHost [] place.reverse) else none := by
  have hreverse : ∀ name ∈ place.reverse, '/' ∉ name := fun name hname =>
    h name (List.mem_reverse.1 hname)
  rw [← List.any_reverse]
  cases hplace : place.reverse with
  | nil =>
    obtain rfl := List.reverse_eq_nil_iff.1 hplace
    rfl
  | cons name rest =>
    have htext : Path.text place = wayText (name :: rest) := by
      rw [← hplace]
      cases place with
      | nil => cases hplace
      | cons => rfl
    rw [hplace] at hreverse
    obtain ⟨hname, hrest⟩ := List.forall_mem_cons.1 hreverse
    rw [htext, interface?, holds_wayText hreverse, find?_wayText hname, nameBeforeHost]
    by_cases hbus : (name :: rest).any (Text.holds "usb") = true
    · rw [if_pos hbus, if_pos hbus]
      by_cases hhost : Text.startsWith name "host" = true
      · rw [if_pos hhost, if_pos hhost]
      · rw [if_neg hhost, if_neg hhost, ← afterLast_wayText hrest hname []]
        cases Text.find? "/host" (wayText rest) with
        | none => rfl
        | some n =>
          exact congrArg (fun way => some (Text.afterLast '/' way)) (take_wayText name rest n)
    · rw [if_neg hbus, if_neg hbus]

/-- A way on which nothing is mistaken for the bus, or for a host on it. -/
def IsNeutral (place : Path) : Prop :=
  ∀ name ∈ place, Text.holds "usb" name = false ∧ Text.startsWith name "host" = false

instance (place : Path) : Decidable (IsNeutral place) :=
  inferInstanceAs (Decidable (∀ name ∈ place,
    Text.holds "usb" name = false ∧ Text.startsWith name "host" = false))

theorem nameBeforeHost_append {above : List Text}
    (h : ∀ name ∈ above, Text.startsWith name "host" = false) (before : Text) (names : List Text) :
    ∃ last, nameBeforeHost before (above ++ names) = nameBeforeHost last names := by
  induction above generalizing before with
  | nil => exact ⟨before, rfl⟩
  | cons name rest ih =>
    obtain ⟨hname, hrest⟩ := List.forall_mem_cons.1 h
    obtain ⟨last, hlast⟩ := ih hrest name
    refine ⟨last, ?_⟩
    rw [List.cons_append, nameBeforeHost, hname]
    exact hlast

/-- Below neutral ways the same interface is found, unless the outermost name is that of a host. -/
theorem interface?_alike {r q below : Path} (hr : IsNeutral r) (hq : IsNeutral q)
    (hnames : ∀ name ∈ below ++ r, '/' ∉ name) (hnames' : ∀ name ∈ below ++ q, '/' ∉ name)
    (hfirst : ∀ upper name, below = upper ++ [name] → Text.startsWith name "host" = false) :
    interface? (Path.text (below ++ r)) = interface? (Path.text (below ++ q)) := by
  have hbus : ∀ {above : Path}, IsNeutral above →
      (below ++ above).any (Text.holds "usb") = below.any (Text.holds "usb") := by
    intro above habove
    have hnone : above.any (Text.holds "usb") = false := List.any_eq_false.2 fun name hname => by
      rw [(habove name hname).1]
      exact Bool.false_ne_true
    rw [List.any_append, hnone, Bool.or_false]
  have hway : ∀ {above : Path}, IsNeutral above →
      nameBeforeHost [] (below ++ above).reverse = nameBeforeHost [] below.reverse := by
    intro above habove
    rw [List.reverse_append]
    obtain ⟨last, hlast⟩ := nameBeforeHost_append
      (fun name hname => (habove name (List.mem_reverse.1 hname)).2) [] below.reverse
    rw [hlast]
    -- the name above the outermost one would count only if that were the name of a host
    cases hreverse : below.reverse with
    | nil => rfl
    | cons name rest =>
      have hbelow : below = rest.reverse ++ [name] := by
        rw [← List.reverse_cons, ← hreverse, List.reverse_reverse]
      have hhost := hfirst rest.reverse name hbelow
      rw [nameBeforeHost, nameBeforeHost, hhost]
      rfl
  rw [interface?_text hnames, interface?_text hnames', hbus hr, hbus hq, hway hr, hway hq]

theorem probeAt_alike {s s' : AttributeTree} {r q : Path} {path path' : Text}
    (c : s.Copies s' r q) (h : s.Counterparts s' r q path path') (hr : IsNeutral r)
    (hq : IsNeutral q)
    (hroot : ∀ name ∈ s.tree.children r, Text.startsWith name "host" = false) :
    probeAt s path = probeAt s' path' := by
  unfold probeAt
  rcases c.realPath h with ⟨hplace, hplace'⟩ | ⟨below, hfind, hplace, hplace', hnames, hnames'⟩
  · rw [hplace, hplace']
  · have hfirst : ∀ upper name, below = upper ++ [name] →
        Text.startsWith name "host" = false := by
      rintro upper name rfl
      have hstands := Tree.stands_of_find hfind
      rw [List.append_assoc] at hstands
      exact hroot name (Tree.mem_children_iff.2 hstands.of_append.2)
    rw [hplace, hplace', Option.bind_some, Option.bind_some,
      interface?_alike hr hq (fun name hname => (hnames name hname).2.2.2)
        (fun name hname => (hnames' name hname).2.2.2) hfirst]

/-- The probe answers for its own protocol or not at all. -/
theorem probeAt_eq (s : AttributeTree) (path : Text) :
    probeAt s path = .absent ∨ ∃ t : Transport, t.kind = .usb ∧ probeAt s path = .ok (some t) := by
  unfold probeAt
  split
  · exact .inr ⟨_, rfl, rfl⟩
  · exact .inl rfl

end Transport.Usb

namespace Transport

theorem Ata.kindOfHost?_ne_usb {s : AttributeTree} {host : Text} {kind : TransportKind}
    (h : kindOfHost? s host = some kind) : kind ≠ .usb := by
  obtain ⟨driver, -, hdriver⟩ := Option.bind_eq_some_iff.1 h
  unfold kindOfDriver? at hdriver
  split at hdriver
  · obtain rfl := Option.some.inj hdriver
    decide
  · obtain ⟨-, hkind⟩ := Option.ite_none_right_eq_some.1 hdriver
    obtain rfl := Option.some.inj hkind
    decide

/-! ## The first that answers -/

/-- Two findings of one protocol are told apart where no other answers before, and none behind for
the same protocol. -/
theorem firstFound_eq_iff {kind : TransportKind} (hkind : kind ≠ .unknown) {x y z : Finding}
    (hx : x = .absent ∨ ∃ t : Transport, t.kind = kind ∧ x = .ok (some t))
    (hy : y = .absent ∨ ∃ t : Transport, t.kind = kind ∧ y = .ok (some t))
    (hz : ∀ t : Transport, z = .ok (some t) → t.kind ≠ kind) (before : List Finding) :
    firstFound (before ++ [x, z]) = firstFound (before ++ [y, z]) ↔
      (∃ w ∈ before, w ≠ .absent) ∨ x = y := by
  -- what comes behind cannot make up for a finding that is missing
  have hrest : ∀ t : Transport, t.kind = kind → firstFound [z] ≠ .ok t := by
    intro t ht hfound
    rcases z with e | (_ | u)
    · cases hfound
    · obtain rfl := Except.ok.inj hfound
      exact hkind ht.symm
    · obtain rfl := Except.ok.inj hfound
      exact hz u rfl ht
  by_cases hbefore : ∃ w ∈ before, w ≠ .absent
  · rw [firstFound_append_of_found hbefore, firstFound_append_of_found hbefore]
    exact ⟨fun _ => .inl hbefore, fun _ => rfl⟩
  · have habsent : ∀ w ∈ before, w = .absent := fun w hw =>
      Classical.byContradiction fun hne => hbefore ⟨w, hw, hne⟩
    rw [firstFound_append_of_absent habsent, firstFound_append_of_absent habsent]
    constructor
    · intro hsame
      right
      rcases hx with rfl | ⟨t, ht, rfl⟩
      · rcases hy with rfl | ⟨u, hu, rfl⟩
        · rfl
        · exact absurd hsame (hrest u hu)
      · rcases hy with rfl | ⟨u, hu, rfl⟩
        · exact absurd hsame.symm (hrest t ht)
        · rw [Except.ok.inj hsame]
    · rintro (hfound | rfl)
      · exact absurd hfound hbefore
      · rfl

/-! ## Classification -/

/-- The protocols that are asked before the universal serial bus for a host. -/
def earlierHostProbes : List Probe :=
  [Parallel.probe, FibreChannel.probe, Rdma.probe, Serial.probe, Serial.Older.probe,
    FireWire.probe, Iscsi.probe]

def earlierDeviceProbes : List Probe :=
  [Serial.probe, Parallel.probe, FibreChannel.probe, Rdma.probe, Serial.Older.probe,
    FireWire.probe, Iscsi.probe]

variable {s s' : AttributeTree} {r q : Path} {host device : Text}

open PathText (IsDescent)

open AttributeTree (Copies)

theorem hostProbes_eq : hostProbes = earlierHostProbes ++ [Usb.probe, Ata.probe] := rfl

theorem deviceProbes_eq : deviceProbes = earlierDeviceProbes ++ [Usb.probe, Ata.probe] := rfl

theorem host_alike (c : Copies s s' r q) (hhost : IsDescent host)
    (hadapter : Rdma.AdapterIsBelow s host) {p : Probe} (hp : p ∈ earlierHostProbes) :
    p.host s host = p.host s' host := by
  simp only [earlierHostProbes, List.mem_cons, List.not_mem_nil, or_false] at hp
  rcases hp with rfl | rfl | rfl | rfl | rfl | rfl | rfl
  · exact Parallel.hostProbe_alike c hhost
  · exact FibreChannel.hostProbe_alike c hhost
  · exact Rdma.hostProbe_alike c hhost hadapter
  · exact Serial.hostProbe_alike c hhost
  · exact Serial.Older.hostProbe_alike c hhost
  · exact FireWire.hostProbe_alike c hhost
  · exact Iscsi.hostProbe_alike c hhost

theorem device_alike (c : Copies s s' r q) (a : Address) (hdevice : IsDescent device)
    (hadapter : Rdma.AdapterIsBelow s a.hostName) (hdepth : s.StandsDeep r device) {p : Probe}
    (hp : p ∈ earlierDeviceProbes) : p.device s a device = p.device s' a device := by
  simp only [earlierDeviceProbes, List.mem_cons, List.not_mem_nil, or_false] at hp
  rcases hp with rfl | rfl | rfl | rfl | rfl | rfl | rfl
  · exact Serial.deviceProbe_alike c a hdevice hdepth
  · show Parallel.deviceProbe s a device = _
    exact Parallel.deviceProbe_alike c a
  · exact FibreChannel.deviceProbe_alike c a hdevice hdepth
  · exact Rdma.hostProbe_alike c a.isDescent_hostName hadapter
  · exact Serial.Older.deviceProbe_alike c a hdevice
  · exact FireWire.deviceProbe_alike c a hdevice
  · show Iscsi.deviceProbe s a device = _
    exact Iscsi.deviceProbe_alike c a

theorem ofHost_alike_iff (c : Copies s s' r q) (hhost : IsDescent host)
    (hadapter : Rdma.AdapterIsBelow s host) : ofHost s host = ofHost s' host ↔
      (∃ p ∈ earlierHostProbes, p.host s host ≠ .absent) ∨
        Usb.hostProbe s host = Usb.hostProbe s' host := by
  have hata : ∀ t : Transport, Ata.hostProbe s' host = .ok (some t) → t.kind ≠ .usb := by
    intro t ht
    unfold Ata.hostProbe at ht
    split at ht
    · rename_i kind hkind
      obtain rfl := Option.some.inj (Except.ok.inj ht)
      exact Ata.kindOfHost?_ne_usb hkind
    · cases ht
  have hearlier : earlierHostProbes.map (fun p => p.host s host) =
      earlierHostProbes.map fun p => p.host s' host :=
    List.map_congr_left fun p hp => host_alike c hhost hadapter hp
  rw [ofHost, ofHost, hostProbes_eq, List.map_append, List.map_append, ← hearlier]
  show firstFound (_ ++ [Usb.hostProbe s host, Ata.hostProbe s host]) =
    firstFound (_ ++ [Usb.hostProbe s' host, Ata.hostProbe s' host]) ↔ _
  rw [Ata.hostProbe_alike c hhost]
  refine (firstFound_eq_iff (by decide) (Usb.probeAt_eq s _) (Usb.probeAt_eq s' _) hata _).trans ?_
  simp only [List.mem_map, exists_exists_and_eq_and]
  exact Iff.rfl

theorem ofDevice_alike_iff (c : Copies s s' r q) (a : Address) (hdevice : IsDescent device)
    (hadapter : Rdma.AdapterIsBelow s a.hostName) (hdepth : s.StandsDeep r device) :
    ofDevice s a device = ofDevice s' a device ↔
      (∃ p ∈ earlierDeviceProbes, p.device s a device ≠ .absent) ∨
        Usb.deviceProbe s a device = Usb.deviceProbe s' a device := by
  have hata : ∀ t : Transport, Ata.deviceProbe s' a device = .ok (some t) → t.kind ≠ .usb := by
    intro t ht
    unfold Ata.deviceProbe at ht
    split at ht
    · rename_i kind hkind
      obtain rfl := Option.some.inj (Except.ok.inj ht)
      exact Ata.kindOfHost?_ne_usb hkind
    · cases ht
  have hearlier : earlierDeviceProbes.map (fun p => p.device s a device) =
      earlierDeviceProbes.map fun p => p.device s' a device :=
    List.map_congr_left fun p hp => device_alike c a hdevice hadapter hdepth hp
  rw [ofDevice, ofDevice, deviceProbes_eq, List.map_append, List.map_append, ← hearlier]
  show firstFound (_ ++ [Usb.deviceProbe s a device, Ata.deviceProbe s a device]) =
    firstFound (_ ++ [Usb.deviceProbe s' a device, Ata.deviceProbe s' a device]) ↔ _
  rw [Ata.deviceProbe_alike c a hdevice]
  refine (firstFound_eq_iff (by decide) (Usb.probeAt_eq s _) (Usb.probeAt_eq s' _) hata _).trans ?_
  simp only [List.mem_map, exists_exists_and_eq_and]
  exact Iff.rfl

/-- Hosts and devices are classified alike in both trees if and only if a protocol answers before
the universal serial bus, or the latter finds the same in both. It does where no name above the
roots holds the letters of the bus or begins like that of a host, and none directly below them
begins like that of a host. -/
theorem classified_alike_iff (c : Copies s s' r q) :
    (∀ host, IsDescent host → Rdma.AdapterIsBelow s host →
      (ofHost s host = ofHost s' host ↔
        (∃ p ∈ earlierHostProbes, p.host s host ≠ .absent) ∨
          Usb.hostProbe s host = Usb.hostProbe s' host)) ∧
    (∀ (a : Address) device, IsDescent device → Rdma.AdapterIsBelow s a.hostName →
      s.StandsDeep r device →
      (ofDevice s a device = ofDevice s' a device ↔
        (∃ p ∈ earlierDeviceProbes, p.device s a device ≠ .absent) ∨
          Usb.deviceProbe s a device = Usb.deviceProbe s' a device)) ∧
    (Usb.IsNeutral r → Usb.IsNeutral q →
      (∀ name ∈ s.tree.children r, Text.startsWith name "host" = false) →
      (∀ host, IsDescent host → Usb.hostProbe s host = Usb.hostProbe s' host) ∧
        ∀ (a : Address) device, IsDescent device →
          Usb.deviceProbe s a device = Usb.deviceProbe s' a device) := by
  refine ⟨fun host => ofHost_alike_iff c, fun a device => ofDevice_alike_iff c a, ?_⟩
  intro hr hq hroot
  constructor
  · intro host hhost
    exact Usb.probeAt_alike c (c.classEntry (by decide) hhost) hr hq hroot
  · intro a device hdevice
    exact Usb.probeAt_alike c (c.classEntry (by decide) hdevice) hr hq hroot

/-! ## A tree at three places -/

/-- A host that no protocol uses, the host of a stick on the bus, and a device. -/
def stickContent : List (Path × Node) :=
  [([], .directory true), (["class"], .directory true),
    (["scsi_host", "class"], .directory true), (["host0", "scsi_host", "class"], .directory true),
    (["host6", "scsi_host", "class"], .link "../../devices/usb2/2-1:1.0/host6"),
    (["devices"], .directory true), (["usb2", "devices"], .directory true),
    (["2-1:1.0", "usb2", "devices"], .directory true),
    (["host6", "2-1:1.0", "usb2", "devices"], .directory true),
    (["scsi_device", "class"], .directory true),
    (["6:0:0:0", "scsi_device", "class"], .directory true),
    (["device", "6:0:0:0", "scsi_device", "class"], .directory true)]

def stickAt (mount : Text) : AttributeTree :=
  .mounted ([("/class/scsi_host/host0", Node.directory true),
    ("/class/scsi_host/host6", .link "../../devices/usb2/2-1:1.0/host6"),
    ("/devices/usb2/2-1:1.0/host6", .directory true),
    ("/class/scsi_device/6:0:0:0/device", .directory true)].foldl
    (fun t (name, node) => t.put (Path.ofText (mount ++ name)) node) {}) mount

theorem entries_stick :
    (stickAt "/sys").tree.entries = [] ++ Tree.entriesAt ["sys"] stickContent := by
  decide +kernel

/-- The only link leads up to the root and down again. -/
theorem linksStay_stick : (stickAt "/sys").tree.LinksStay ["sys"] := by
  have hdirectory : ∀ {path : Path}, (stickAt "/sys").tree.isDirectory path = true →
      ∀ target, (stickAt "/sys").tree.node? path ≠ some (.link target) := by
    intro path hdir target hlink
    rw [Tree.isDirectory, hlink] at hdir
    cases hdir
  refine Tree.linksStay_of_entries entries_stick (by simp) ?_
  intro name here target hmem
  simp only [stickContent, List.mem_cons, Prod.mk.injEq, List.not_mem_nil, or_false,
    reduceCtorEq, and_false, false_or, Node.link.injEq, List.cons.injEq] at hmem
  obtain ⟨⟨rfl, rfl⟩, rfl⟩ := hmem
  have hparts : Text.splitOn '/' "../../devices/usb2/2-1:1.0/host6" =
      [['.', '.'], ['.', '.'], "devices", "usb2", "2-1:1.0", "host6"] := by decide
  refine ⟨by decide, ?_⟩
  rw [hparts, Tree.leaves_back_iff, Tree.leaves_back_iff,
    Tree.leaves_down_iff ⟨by decide, by decide, by decide⟩ (hdirectory (by decide +kernel)),
    Tree.leaves_down_iff ⟨by decide, by decide, by decide⟩ (hdirectory (by decide +kernel)),
    Tree.leaves_down_iff ⟨by decide, by decide, by decide⟩ (hdirectory (by decide +kernel)),
    Tree.leaves_down_iff ⟨by decide, by decide, by decide⟩ (hdirectory (by decide +kernel))]
  exact Tree.not_leaves_nil _

/-- At every place the same stands below the root. -/
theorem copies_stick {mount : Text} (above : List (Path × Node)) {q : Path} (hq : q ≠ [])
    (hentries : (stickAt mount).tree.entries = above ++ Tree.entriesAt q stickContent)
    (habove : ∀ e ∈ above, e.1.length < q.length)
    (hleads : (stickAt mount).tree.LeadsTo (stickAt mount).root q)
    (hnames : (stickAt mount).tree.NamesFiles) :
    Copies (stickAt "/sys") (stickAt mount) ["sys"] q where
  relocated := .of_entries (List.cons_ne_nil _ _) hq entries_stick (by simp) hentries habove
  links := linksStay_stick
  isRoot := PathText.isRoot_trimRoot "/sys"
  isRoot' := PathText.isRoot_trimRoot mount
  leads := by
    rw [Tree.LeadsTo]
    decide +kernel
  leads' := hleads
  names := by decide +kernel
  names' := hnames

def stickAddress : Address := ⟨.scsi, 6, 0, 0, 0, List.replicate 8 0⟩

/-- At two neutral places the stick's host is on the same interface, and the device as unknown. -/
theorem classified_alike_stick :
    Copies (stickAt "/sys") (stickAt "/mnt/tree") ["sys"] ["tree", "mnt"] ∧
      ofHost (stickAt "/mnt/tree") "host6" = ofHost (stickAt "/sys") "host6" ∧
      ofHost (stickAt "/sys") "host6" =
        .ok ⟨.usb, "usb:2-1:1.0", .ofList [("device_name", "2-1:1.0")]⟩ ∧
      ofDevice (stickAt "/mnt/tree") stickAddress "6:0:0:0" =
        ofDevice (stickAt "/sys") stickAddress "6:0:0:0" := by
  have hcopies : Copies (stickAt "/sys") (stickAt "/mnt/tree") ["sys"] ["tree", "mnt"] := by
    refine copies_stick [(["mnt"], .directory true)] (List.cons_ne_nil _ _) ?_ ?_ ?_ ?_
    · decide +kernel
    · simp
    · rw [Tree.LeadsTo]
      decide +kernel
    · decide +kernel
  obtain ⟨hhosts, hdevices, hneutral⟩ := classified_alike_iff hcopies
  obtain ⟨hbus, hbus'⟩ := hneutral (by decide) (by decide) (by decide +kernel)
  have hnone : (stickAt "/sys").read ((stickAt "/sys").classPath "scsi_host" ["host6"])
      "local_ib_device" = none := by decide +kernel
  have hadapter : Rdma.AdapterIsBelow (stickAt "/sys") "host6" := by
    intro adapter hread
    rw [hnone] at hread
    cases hread
  have hdeep : (stickAt "/sys").StandsDeep ["sys"] "6:0:0:0" := by
    intro below hfind
    have hplace : (stickAt "/sys").tree.find ((stickAt "/sys").deviceDir "6:0:0:0") =
        .ok ((["device", "6:0:0:0", "scsi_device", "class"] : Path) ++ (["sys"] : Path)) := by
      decide +kernel
    rw [hplace] at hfind
    obtain rfl := List.append_cancel_right (Except.ok.inj hfind)
    decide
  refine ⟨hcopies, ?_, by decide +kernel, ?_⟩
  · exact ((hhosts "host6" (by decide) hadapter).2 (.inr (hbus "host6" (by decide)))).symm
  · have halike := hbus' stickAddress "6:0:0:0" (by decide)
    exact ((hdevices stickAddress "6:0:0:0" (by decide) hadapter hdeep).2 (.inr halike)).symm

/-- A host that no protocol uses is taken for one on the bus where the mount point is named so. -/
theorem classified_apart :
    Copies (stickAt "/sys") (stickAt "/mnt/usb") ["sys"] ["usb", "mnt"] ∧
      ofHost (stickAt "/sys") "host0" = .ok {} ∧
      ofHost (stickAt "/mnt/usb") "host0" =
        .ok ⟨.usb, "usb:scsi_host", .ofList [("device_name", "scsi_host")]⟩ := by
  refine ⟨?_, by decide +kernel, by decide +kernel⟩
  refine copies_stick [(["mnt"], .directory true)] (List.cons_ne_nil _ _) ?_ ?_ ?_ ?_
  · decide +kernel
  · simp
  · rw [Tree.LeadsTo]
    decide +kernel
  · decide +kernel

end Transport
end StorageAtlas
