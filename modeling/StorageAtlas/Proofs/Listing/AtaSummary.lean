import StorageAtlas.Proofs.Identification.Capacity
import StorageAtlas.Proofs.Listing.Runs
import StorageAtlas.Proofs.Transport.Failure

/-!
The summary of an ATA disk beside the identity of the unit. Both come from the
unit's page, which is resolved twice: for the identity with a tag where one is
wanted, for the summary always without. They agree because a tag changes neither
the kind nor the value, because an identity of no kind has no value, and because
no other protocol takes a disk for one of ATA.
-/

namespace StorageAtlas

/-! ## What a search finds -/

/-- Has the transport that is found, if there is one, a property? -/
def Finding.Only (x : Finding) (p : Transport → Prop) : Prop := ∀ t, x = .ok (some t) → p t

namespace Finding.Only

variable {p : Transport → Prop}

theorem absent : Only .absent p := by
  intro t ht
  cases ht

theorem found {kind : TransportKind} {summary : Text} {attributes : Attributes}
    (h : p ⟨kind, summary, attributes⟩) : Only (.found kind summary attributes) p := by
  intro t ht
  cases ht
  exact h

theorem either {c : Prop} [Decidable c] {x y : Finding} (hx : x.Only p) (hy : y.Only p) :
    Only (if c then x else y) p := by
  split
  · exact hx
  · exact hy

theorem bind {α : Type} {x : Except ValueFault α} {f : α → Finding}
    (h : ∀ a, x = .ok a → Only (f a) p) : Only (x >>= f) p := by
  cases x with
  | error e =>
    intro t ht
    cases ht
  | ok a => exact h a rfl

/-- What all findings have in common, the first of them has too. -/
theorem of_firstFound {findings : List Finding} (h : ∀ x ∈ findings, x.Only p) (hunknown : p {})
    {t : Transport} (ht : Transport.firstFound findings = .ok t) : p t := by
  induction findings with
  | nil =>
    cases ht
    exact hunknown
  | cons x rest ih =>
    obtain ⟨hx, hrest⟩ := List.forall_mem_cons.1 h
    rcases x with e | (_ | u)
    · cases ht
    · exact ih hrest ht
    · cases ht
      exact hx t rfl

end Finding.Only

namespace Transport

/-- Is it a transport of ATA disks? -/
def IsAta (t : Transport) : Prop := t.kind = .ata ∨ t.kind = .sata

/-- The protocols other than ATA. -/
def probesBeforeAta : List Probe :=
  [Serial.probe, Parallel.probe, FibreChannel.probe, Rdma.probe, Serial.Older.probe,
    FireWire.probe, Iscsi.probe, Usb.probe]

theorem deviceProbes_eq_append : deviceProbes = probesBeforeAta ++ [Ata.probe] := rfl

/-- No protocol but ATA itself takes a device for an ATA disk. -/
theorem not_isAta_of_mem {p : Probe} (hp : p ∈ probesBeforeAta) (s : AttributeTree) (a : Address)
    (device : Text) : (p.device s a device).Only fun t => ¬ t.IsAta := by
  simp only [probesBeforeAta, List.mem_cons, List.not_mem_nil, or_false] at hp
  rcases hp with rfl | rfl | rfl | rfl | rfl | rfl | rfl | rfl
  · refine .either ?_ .absent
    split <;> exact .found (by simp [IsAta])
  · exact .either (.found (by simp [IsAta])) .absent
  · refine .either (.found ?_) .absent
    simp only [IsAta, FibreChannel.kindOf]
    split <;> simp
  · exact .either (.bind fun port _ => .found (by simp [IsAta])) .absent
  · exact .either (.found (by simp [IsAta])) .absent
  · show (FireWire.deviceProbe s a device).Only _
    unfold FireWire.deviceProbe
    split
    · exact .found (by simp [IsAta])
    · exact .absent
  · refine .either (.bind fun numbers _ => ?_) .absent
    split <;> exact .found (by simp [IsAta])
  · show (Usb.probeAt s _).Only _
    unfold Usb.probeAt
    split
    · exact .found (by simp [IsAta])
    · exact .absent

/-- The summary that an ATA disk has: its kind and the identity of the unit without a tag. -/
theorem Ata.summary_deviceProbe (s : AttributeTree) (a : Address) (device : Text) :
    (Ata.deviceProbe s a device).Only fun t =>
      t.summary = t.kind.name ++ ":" ++ ((s.identity device).map Identity.text).getD [] := by
  unfold Ata.deviceProbe
  split
  · exact .found rfl
  · exact .absent

theorem summary_of_isAta {s : AttributeTree} {a : Address} {device : Text} {t : Transport}
    (ht : ofDevice s a device = .ok t) (hata : t.IsAta) :
    t.summary = t.kind.name ++ ":" ++ ((s.identity device).map Identity.text).getD [] := by
  revert hata
  apply Finding.Only.of_firstFound _ _ ht
  · intro x hx
    obtain ⟨p, hp, rfl⟩ := List.mem_map.1 hx
    rw [deviceProbes_eq_append, List.mem_append] at hp
    rcases hp with hp | hp
    · intro u hu hata
      exact absurd hata (not_isAta_of_mem hp s a device u hu)
    · obtain rfl := List.mem_singleton.1 hp
      intro u hu _
      exact Ata.summary_deviceProbe s a device u hu
  · rintro (h | h) <;> cases h

end Transport

/-! ## Identities of no kind -/

namespace Identity

/-- A designator that is used only in its right form gives a kind or nothing at all. -/
theorem ite_eq_nothing {p : Prop} [Decidable p] {i : Identity} (hkind : i.kind ≠ .none)
    (h : (if p then i else nothing).kind = .none) : (if p then i else nothing) = nothing := by
  split at h
  · exact absurd h hkind
  · rename_i hp
    exact if_neg hp

/-- A choice without a kind is a choice of nothing: no value and no tag come with it. -/
theorem choose_eq_nothing {find : Query → Option Descriptor} (h : (choose find).kind = .none) :
    choose find = nothing := by
  revert h
  unfold choose
  split
  · cases find unitNameQuery with
    | none => exact fun _ => rfl
    | some d => exact fun h => by cases h
  · split
    · exact ite_eq_nothing (by simp)
    · exact ite_eq_nothing (by simp)
    · intro h
      rw [ofUuid_eq_inGroups, kind_inGroups] at h
      cases h
    · exact fun h => by cases h
    · exact ite_eq_nothing (by simp)
    · exact fun _ => rfl

/-- What an identity says without its tag; one of no kind says nothing. -/
def saying (i : Identity) : Text := if i.kind = .none then [] else i.value

theorem text_ofPage_untagged (bytes : Bytes) (wantTag : Bool) :
    (ofPage bytes false).text = (ofPage bytes wantTag).saying := by
  unfold ofPage
  cases Page.ofBytes bytes with
  | error e => rfl
  | ok page =>
    simp only [limit, saying, kind_withTag]
    split
    · rename_i hkind
      rw [choose_eq_nothing hkind]
      rfl
    · cases wantTag <;> rfl

end Identity

namespace Record

/-- What the identity of a unit says without its tag, if there is one and it has a kind. -/
def unitName (r : Record) : Text := (r.identity.map Identity.saying).getD []

end Record

namespace View

theorem identified_of_unitRecord {v : View} {a : Address} {name : Text} {r : Record}
    (h : v.unitRecord a name = .ok r) :
    r.identity = v.sysfs.identity name v.options.wantTag ∧
      ∃ u, Transport.ofDevice v.sysfs a name = .ok u ∧ r.transport = some u := by
  simp only [unitRecord, bind, Except.bind] at h
  split at h
  · cases h
  · rename_i u hu
    cases h
    exact ⟨rfl, u, hu, rfl⟩

/-- The summary of an ATA disk says what the identity of the unit says, whether a tag is wanted for
the identity or not. -/
theorem summary_of_unitRecord {v : View} {a : Address} {name : Text} {r : Record}
    (h : v.unitRecord a name = .ok r) :
    ∃ u, r.transport = some u ∧ (u.IsAta → u.summary = u.kind.name ++ ":" ++ r.unitName) := by
  obtain ⟨hidentity, u, hu, htransport⟩ := identified_of_unitRecord h
  refine ⟨u, htransport, fun hata => ?_⟩
  rw [Transport.summary_of_isAta hu hata, Record.unitName, hidentity]
  unfold AttributeTree.identity
  cases v.sysfs.identificationPage name with
  | none => rfl
  | some page =>
    simp only [Option.map_some, Option.getD_some]
    rw [Identity.text_ofPage_untagged page v.options.wantTag]

end View

namespace Session

/-- Whatever the tree, the filter, the options and the listings before: a unit on ATA or SATA shows
in its summary, behind the kind, the value of the identity that it shows, and nothing where it shows
no identity or one of no kind. -/
theorem ataSummary_of_listed (s : Session) (t : Tree) (f : AddressFilter) {records : List Record}
    (h : (s.list t .units f).1.records = .ok records) :
    ∀ r ∈ records, ∃ u, r.transport = some u ∧
      (u.kind = .ata → u.summary = "ata:" ++ r.unitName) ∧
      (u.kind = .sata → u.summary = "sata:" ++ r.unitName) := by
  intro r hr
  obtain ⟨attempt, hmem, hattempt⟩ := View.exists_attempt_of_listed h hr
  obtain ⟨unit, -, rfl⟩ := List.mem_map.1 hmem
  obtain ⟨u, htransport, hsummary⟩ := View.summary_of_unitRecord hattempt
  refine ⟨u, htransport, fun hkind => ?_, fun hkind => ?_⟩
  · rw [hsummary (.inl hkind), hkind]
    rfl
  · rw [hsummary (.inr hkind), hkind]
    rfl

/-- Two disks on a SATA host. The page of one holds a number, the page of the other is cut off. -/
def sataDisks : Tree :=
  [("/sys/bus/scsi/devices/0:0:0:0", Node.directory true),
    ("/sys/bus/scsi/devices/0:0:1:0", .directory true),
    ("/sys/class/scsi_host/host0/proc_name", .file (Utf8.encode "ahci\n")),
    ("/sys/class/scsi_device/0:0:0:0/device/vpd_pg83",
      .file (Page.encode [Identity.unitNumber])),
    ("/sys/class/scsi_device/0:0:1:0/device/vpd_pg83", .file [0, 0x83])].foldl
    (fun t (path, node) => t.put (Path.ofText path) node) {}

/-- A session that wants tags. -/
def withTags : Session := { usual with options := { wantTag := true } }

theorem ataSummary_of_sataDisks :
    ∃ first second u w, (withTags.list sataDisks .units).1.records = .ok [first, second] ∧
      first.transport = some u ∧ second.transport = some w ∧ u.kind = .sata ∧ w.kind = .sata ∧
      first.identity = some { kind := .naa, value := "5000c500a1b2c3d4", tag := some "naa." } ∧
      u.summary = "sata:5000c500a1b2c3d4" ∧ w.summary = "sata:" := by
  have hseen : (withTags.list sataDisks .units).1.records.map (List.map fun r =>
      (r.transport.map Transport.kind, r.identity)) =
        .ok [(some .sata,
            some { kind := .naa, value := "5000c500a1b2c3d4", tag := some "naa." }),
          (some .sata, some Identity.nothing)] := by decide +kernel
  cases hlisted : (withTags.list sataDisks .units).1.records with
  | error e =>
    rw [hlisted] at hseen
    cases hseen
  | ok records =>
    rw [hlisted] at hseen
    obtain ⟨first, rest, rfl, hfirst, hrest⟩ := List.map_eq_cons_iff.1 (Except.ok.inj hseen)
    obtain ⟨second, rfl, hsecond⟩ := List.map_eq_singleton_iff.1 hrest
    obtain ⟨hkind, hidentity⟩ := Prod.mk.inj hfirst
    obtain ⟨hkind', hidentity'⟩ := Prod.mk.inj hsecond
    have hshown := ataSummary_of_listed withTags sataDisks {} hlisted
    obtain ⟨u, hu, -, hsata⟩ := hshown first (by simp)
    obtain ⟨w, hw, -, hsata'⟩ := hshown second (by simp)
    rw [hu, Option.map_some, Option.some.injEq] at hkind
    rw [hw, Option.map_some, Option.some.injEq] at hkind'
    refine ⟨first, second, u, w, rfl, hu, hw, hkind, hkind', hidentity, ?_, ?_⟩
    · rw [hsata hkind, Record.unitName, hidentity]
      rfl
    · rw [hsata' hkind', Record.unitName, hidentity']
      rfl

end Session
end StorageAtlas
