import StorageAtlas.Proofs.Identification.Encoding
import StorageAtlas.Proofs.Identification.Examination
import StorageAtlas.Proofs.Identification.Ranking

/-!
When the name of a unit goes before its other identifiers: the first name of a
port has to say that iSCSI is spoken. What further names of ports say is not
asked, so a unit with several ports is named by the order in which they stand,
unless it has no other identifier.
-/

namespace StorageAtlas.Identity

/-- A designator that is marked as one of iSCSI. -/
def SpeaksIscsi (d : Descriptor) : Prop := d.protocolValid = true ∧ d.protocol = 5

instance (d : Descriptor) : Decidable (SpeaksIscsi d) := inferInstanceAs (Decidable (_ ∧ _))

/-- A unit has none of the identifiers that go before a name. -/
def Unnumbered (ds : List Descriptor) : Prop :=
  firstOf ds 0 3 (some 1) = none ∧ firstOf ds 0 2 (some 1) = none ∧ firstOf ds 0 10 (some 1) = none

/-! ## What a kind says -/

theorem kind_limit (capacity : Option Int) (i : Identity) : (i.limit capacity).kind = i.kind := by
  unfold limit
  cases capacity with
  | none => rfl
  | some n =>
    simp only
    split
    · rfl
    · rfl

theorem kind_withTag (wanted : Bool) (i : Identity) : (i.withTag wanted).kind = i.kind := by
  cases wanted with
  | false => rfl
  | true => rfl

theorem kind_inHex_ne {kind : IdentityKind} (hkind : kind ≠ .scsiName) (tag : Text)
    (lengths : List Nat) (d : Descriptor) : (inHex kind tag lengths d).kind ≠ .scsiName := by
  unfold inHex
  split
  · exact hkind
  · simp

theorem kind_inGroups (d : Descriptor) : (inGroups d).kind = .uuid := by
  unfold inGroups
  split
  · rfl
  · rfl

theorem withTag_named (wanted : Bool) (d : Descriptor) :
    (named .scsiName none d).withTag wanted = named .scsiName none d := by
  cases wanted with
  | false => rfl
  | true => rfl

/-! ## The rule -/

theorem namedOverIscsi_of_name {ds : List Descriptor} {name : Descriptor}
    (hname : firstOf ds 0 8 (some 3) = some name) :
    namedOverIscsi ds =
      if ∃ port, firstOf ds 1 8 (some 3) = some port ∧ SpeaksIscsi port then
        some (named .scsiName none name)
      else none := by
  rw [namedOverIscsi, hname, Option.bind_some]
  cases firstOf ds 1 8 (some 3) with
  | none => simp
  | some port => simp [SpeaksIscsi]

/-- With a name, the ranking gives the name or the identifier that goes before it. -/
theorem ranked_eq_named {ds : List Descriptor} {name : Descriptor}
    (hname : firstOf ds 0 8 (some 3) = some name)
    (h : (∃ port, firstOf ds 1 8 (some 3) = some port ∧ SpeaksIscsi port) ∨ Unnumbered ds) :
    ranked ds = named .scsiName none name := by
  rw [ranked, ranking, List.findSome?_cons, namedOverIscsi_of_name hname]
  by_cases hport : ∃ port, firstOf ds 1 8 (some 3) = some port ∧ SpeaksIscsi port
  · rw [if_pos hport]
    rfl
  · obtain ⟨hnaa, heui, huuid⟩ := h.resolve_left hport
    simp [if_neg hport, hnaa, heui, huuid, hname]

/-- Unless a name goes first, a unit with identifiers is named by the first one of the first kind. -/
theorem ranked_of_numbered {ds : List Descriptor} (hname : namedOverIscsi ds = none)
    (hnumbered : ¬ Unnumbered ds) :
    ∃ d, ranked ds = inHex .naa "naa." [8, 16] d ∨ ranked ds = inHex .eui "eui." [8, 12, 16] d ∨
      ranked ds = inGroups d := by
  rw [ranked, ranking, List.findSome?_cons, hname]
  simp only [List.findSome?_cons]
  cases hnaa : firstOf ds 0 3 (some 1) with
  | some d => exact ⟨d, .inl rfl⟩
  | none =>
    cases heui : firstOf ds 0 2 (some 1) with
    | some d => exact ⟨d, .inr (.inl rfl)⟩
    | none =>
      cases huuid : firstOf ds 0 10 (some 1) with
      | some d => exact ⟨d, .inr (.inr rfl)⟩
      | none => exact absurd ⟨hnaa, heui, huuid⟩ hnumbered

theorem kind_ranked_ne {ds : List Descriptor} {name : Descriptor}
    (hname : firstOf ds 0 8 (some 3) = some name)
    (hport : ¬ ∃ port, firstOf ds 1 8 (some 3) = some port ∧ SpeaksIscsi port)
    (hnumbered : ¬ Unnumbered ds) : (ranked ds).kind ≠ .scsiName := by
  have hiscsi : namedOverIscsi ds = none := by rw [namedOverIscsi_of_name hname, if_neg hport]
  obtain ⟨d, hd | hd | hd⟩ := ranked_of_numbered hiscsi hnumbered
  · rw [hd]
    exact kind_inHex_ne (by decide) _ _ d
  · rw [hd]
    exact kind_inHex_ne (by decide) _ _ d
  · rw [hd, kind_inGroups]
    decide

/-- A page with a unit's name is resolved to it, whatever else the page holds, exactly when the
first name of a port is marked as one of iSCSI or the unit has no identifier that goes before. -/
theorem ofPage_eq_named_iff {bytes : Bytes} {page : Page} {ds : List Descriptor} {last : Walk}
    {name : Descriptor} (hpage : Page.ofBytes bytes = .ok page)
    (hyields : page.walk.Yields {} ds last) (hname : firstOf ds 0 8 (some 3) = some name)
    (wantTag : Bool) (capacity : Option Int) :
    ofPage bytes wantTag capacity = (named .scsiName none name).limit capacity ↔
      (∃ port, firstOf ds 1 8 (some 3) = some port ∧ SpeaksIscsi port) ∨ Unnumbered ds := by
  have hds : page.descriptors = ds := (page.yields_descriptors.unique hyields).1
  rw [ofPage_of_descriptors hpage, hds]
  constructor
  · intro h
    have hkind := congrArg Identity.kind h
    rw [kind_limit, kind_withTag, kind_limit] at hkind
    by_cases hport : ∃ port, firstOf ds 1 8 (some 3) = some port ∧ SpeaksIscsi port
    · exact .inl hport
    · by_cases hnumbered : Unnumbered ds
      · exact .inr hnumbered
      · exact absurd hkind (kind_ranked_ne hname hport hnumbered)
  · intro h
    rw [ranked_eq_named hname h, withTag_named]

/-! ## A unit with two ports -/

/-- The name `iqn.a`. -/
def unitName : Descriptor := ⟨0, 0, 3, false, 0, 8, [0x69, 0x71, 0x6e, 0x2e, 0x61]⟩

def unitNumber : Descriptor := ⟨0, 0, 1, false, 0, 3, [0x50, 0, 0xc5, 0, 0xa1, 0xb2, 0xc3, 0xd4]⟩

/-- The name `iqn.p`, marked as one of iSCSI. -/
def iscsiPort : Descriptor := ⟨0, 5, 3, true, 1, 8, [0x69, 0x71, 0x6e, 0x2e, 0x70]⟩

/-- The name `naa.p`, marked as one of another protocol. -/
def otherPort : Descriptor := ⟨0, 0, 3, true, 1, 8, [0x6e, 0x61, 0x61, 0x2e, 0x70]⟩

theorem ofPage_of_firstPort :
    ∃ page ds last name,
      Page.ofBytes (Page.encode [unitNumber, iscsiPort, otherPort, unitName]) = .ok page ∧
        page.walk.Yields {} ds last ∧ firstOf ds 0 8 (some 3) = some name ∧
          ofPage (Page.encode [unitNumber, iscsiPort, otherPort, unitName]) =
            { kind := .scsiName, value := "iqn.a" } := by
  obtain ⟨page, hpage, hfound, -⟩ :=
    @Page.exists_of_encode [unitNumber, iscsiPort, otherPort, unitName] (by decide)
      (by decide) []
  rw [List.append_nil] at hpage
  have hyields := page.yields_descriptors
  rw [hfound] at hyields
  have hport : SpeaksIscsi { iscsiPort with offset := 12 } := by decide
  exact ⟨page, _, _, _, hpage, hyields, rfl,
    (ofPage_eq_named_iff hpage hyields rfl false none).2 (.inl ⟨_, rfl, hport⟩)⟩

/-- One of the ports is marked as one of iSCSI, and still the number is taken. -/
theorem ofPage_of_secondPort :
    ∃ page ds last name,
      Page.ofBytes (Page.encode [unitName, otherPort, iscsiPort, unitNumber]) = .ok page ∧
        page.walk.Yields {} ds last ∧ firstOf ds 0 8 (some 3) = some name ∧
          (∃ port ∈ ds, port.association = 1 ∧ port.kind = 8 ∧ port.codeSet = 3 ∧
            SpeaksIscsi port) ∧
          ofPage (Page.encode [unitName, otherPort, iscsiPort, unitNumber]) =
            { kind := .naa, value := "5000c500a1b2c3d4" } ∧
          ofPage (Page.encode [unitName, otherPort, iscsiPort, unitNumber]) ≠
            named .scsiName none name := by
  obtain ⟨page, hpage, hfound, -⟩ :=
    @Page.exists_of_encode [unitName, otherPort, iscsiPort, unitNumber] (by decide)
      (by decide) []
  rw [List.append_nil] at hpage
  have hyields := page.yields_descriptors
  have hresult := ofPage_of_descriptors hpage false none
  rw [hfound] at hyields hresult
  have hnumber : ofPage (Page.encode [unitName, otherPort, iscsiPort, unitNumber]) =
      { kind := .naa, value := "5000c500a1b2c3d4" } := hresult.trans (by decide)
  refine ⟨page, _, _, _, hpage, hyields, rfl, ?_, hnumber, ?_⟩
  · exact ⟨{ iscsiPort with offset := 18 }, by decide, rfl, rfl, rfl, by decide⟩
  · rw [hnumber]
    simp [named]

end StorageAtlas.Identity
