import StorageAtlas.Proofs.Identification.Interleaving
import StorageAtlas.Proofs.Text.Utf8

/-!
When a page is resolved to an identity without text. Digits in hexadecimal are
never empty, so it takes a designator that is text and has none: a name or the
word of a vendor that begins with a zero byte, or a name without bytes. Where it
comes first in its turn it is taken, and a name that goes before the identifiers
of the unit keeps them from being used.
-/

namespace StorageAtlas

namespace Identity

/-- A designator has no text if it has no bytes or begins with a zero byte. -/
def Textless (d : Descriptor) : Prop := d.designator = [] ∨ d.designator.head? = some 0

instance (d : Descriptor) : Decidable (Textless d) := inferInstanceAs (Decidable (_ ∨ _))

/-- An identity of some kind that has nothing to show. -/
def Blank (i : Identity) : Prop := i.kind ≠ .none ∧ i.value = []

/-- An identifier of the unit that may go before a name and has the form that its kind asks for. -/
def IsNumber (d : Descriptor) : Prop :=
  d.association = 0 ∧ d.codeSet = 1 ∧
    (d.kind = 3 ∧ d.designator.length ∈ [8, 16] ∨
      d.kind = 2 ∧ d.designator.length ∈ [8, 12, 16] ∨
      d.kind = 10 ∧ d.designator.length = 18 ∧ ∃ b ∈ d.designator[0]?, b.toNat / 16 = 1)

/-! ## The forms of an identity -/

theorem value_named_eq_nil_iff {kind : IdentityKind} {tag : Option Text} {d : Descriptor} :
    (named kind tag d).value = [] ↔ Textless d := by
  rw [named, Utf8.decodeLossy_eq_nil_iff, Textless]
  cases d.designator with
  | nil => simp
  | cons b r => by_cases hb : b = 0 <;> simp [hb]

theorem blank_named_iff {kind : IdentityKind} (hkind : kind ≠ .none) {tag : Option Text}
    {d : Descriptor} : (named kind tag d).Blank ↔ Textless d := by
  rw [Blank, value_named_eq_nil_iff]
  exact and_iff_right hkind

theorem hex_eq_nil_iff {bytes : Bytes} : Bytes.hex bytes = [] ↔ bytes = [] := by
  rw [← List.length_eq_zero_iff, Bytes.length_hex, ← List.length_eq_zero_iff]
  omega

theorem not_blank_inHex (kind : IdentityKind) (tag : Text) {lengths : List Nat}
    (hlengths : 0 ∉ lengths) (d : Descriptor) : ¬ (inHex kind tag lengths d).Blank := by
  unfold inHex
  split
  · rename_i hlength
    rintro ⟨-, hempty⟩
    simp only [hex_eq_nil_iff] at hempty
    rw [hempty, List.length_nil] at hlength
    exact hlengths hlength
  · simp [Blank]

theorem not_blank_inGroups (d : Descriptor) : ¬ (inGroups d).Blank := by
  unfold inGroups
  split
  · simp [Blank, grouped, Text.join]
  · simp [Blank]

theorem blank_withTag (wanted : Bool) (i : Identity) : (i.withTag wanted).Blank ↔ i.Blank := by
  cases wanted with
  | false => rfl
  | true => rfl

/-! ## The ranking -/

/-- The unit's name is what counts, and it has no text. -/
def NamedWithoutText (ds : List Descriptor) : Prop :=
  ∃ name, firstOf ds 0 8 (some 3) = some name ∧ Textless name ∧
    ((∃ port, firstOf ds 1 8 (some 3) = some port ∧ SpeaksIscsi port) ∨ Unnumbered ds)

/-- The word of the vendor is what counts, and it has no text. -/
def VendorWithoutText (ds : List Descriptor) : Prop :=
  Unnumbered ds ∧ firstOf ds 0 8 (some 3) = none ∧
    ∃ vendor, firstOf ds 0 1 = some vendor ∧ 1 < vendor.codeSet ∧
      8 ≤ vendor.designator.length ∧ Textless vendor

theorem not_blank_of_numbered {ds : List Descriptor} (hname : namedOverIscsi ds = none)
    (hnumbered : ¬ Unnumbered ds) : ¬ (ranked ds).Blank := by
  obtain ⟨d, hd | hd | hd⟩ := ranked_of_numbered hname hnumbered
  · rw [hd]
    exact not_blank_inHex _ _ (by decide) d
  · rw [hd]
    exact not_blank_inHex _ _ (by decide) d
  · rw [hd]
    exact not_blank_inGroups d

theorem blank_ranked_of_name {ds : List Descriptor} {name : Descriptor}
    (hname : firstOf ds 0 8 (some 3) = some name) :
    (ranked ds).Blank ↔ NamedWithoutText ds := by
  by_cases h : (∃ port, firstOf ds 1 8 (some 3) = some port ∧ SpeaksIscsi port) ∨ Unnumbered ds
  · rw [ranked_eq_named hname h, blank_named_iff (by decide)]
    constructor
    · intro htext
      exact ⟨name, hname, htext, h⟩
    · rintro ⟨other, hother, htext, -⟩
      obtain rfl := Option.some.inj (hname.symm.trans hother)
      exact htext
  · have hiscsi : namedOverIscsi ds = none := by
      rw [namedOverIscsi_of_name hname, if_neg fun hport => h (.inl hport)]
    have hblank := not_blank_of_numbered hiscsi fun hnumbered => h (.inr hnumbered)
    constructor
    · intro hcontra
      exact absurd hcontra hblank
    · rintro ⟨_, _, _, hrule⟩
      exact absurd hrule h

/-- Where nothing else is found, the word of the vendor is all that is left. -/
theorem ranked_of_unnumbered {ds : List Descriptor} (hname : firstOf ds 0 8 (some 3) = none)
    (hnumbered : Unnumbered ds) :
    ranked ds = ((firstOf ds 0 1).bind fun d =>
      if 1 < d.codeSet ∧ 8 ≤ d.designator.length then some (named .t10 (some "t10.") d)
      else none).getD { kind := .none } := by
  obtain ⟨hnaa, heui, huuid⟩ := hnumbered
  simp only [ranked, ranking, List.findSome?_cons, List.findSome?_nil, namedOverIscsi, hname, hnaa,
    heui, huuid, Option.bind_none, Option.map_none]
  cases (firstOf ds 0 1).bind fun d =>
      if 1 < d.codeSet ∧ 8 ≤ d.designator.length then some (named .t10 (some "t10.") d)
      else none with
  | none => rfl
  | some i => rfl

theorem blank_ranked_of_noName {ds : List Descriptor} (hname : firstOf ds 0 8 (some 3) = none) :
    (ranked ds).Blank ↔ VendorWithoutText ds := by
  by_cases hnumbered : Unnumbered ds
  · rw [ranked_of_unnumbered hname hnumbered]
    cases hvendor : firstOf ds 0 1 with
    | none => simp [VendorWithoutText, Blank, hvendor]
    | some vendor =>
      by_cases hlong : 1 < vendor.codeSet ∧ 8 ≤ vendor.designator.length
      · rw [Option.bind_some, if_pos hlong, Option.getD_some, blank_named_iff (by decide)]
        simp [VendorWithoutText, hnumbered, hname, hvendor, hlong]
      · rw [Option.bind_some, if_neg hlong]
        have hrule : ¬ VendorWithoutText ds := by
          rintro ⟨-, -, other, hother, hcode, hlength, -⟩
          obtain rfl := Option.some.inj (hvendor.symm.trans hother)
          exact hlong ⟨hcode, hlength⟩
        simp [Blank, hrule]
  · have hiscsi : namedOverIscsi ds = none := by rw [namedOverIscsi, hname, Option.bind_none]
    have hblank := not_blank_of_numbered hiscsi hnumbered
    constructor
    · intro hcontra
      exact absurd hcontra hblank
    · rintro ⟨hcontra, -⟩
      exact absurd hcontra hnumbered

theorem blank_ranked_iff (ds : List Descriptor) :
    (ranked ds).Blank ↔ NamedWithoutText ds ∨ VendorWithoutText ds := by
  cases hname : firstOf ds 0 8 (some 3) with
  | some name =>
    have hvendor : ¬ VendorWithoutText ds := by simp [VendorWithoutText, hname]
    rw [blank_ranked_of_name hname, or_iff_left hvendor]
  | none =>
    have hnamed : ¬ NamedWithoutText ds := by simp [NamedWithoutText, hname]
    rw [blank_ranked_of_noName hname, or_iff_right hnamed]

/-! ## Identifiers that are kept from being used -/

theorem firstOf_isSome {ds : List Descriptor} {d : Descriptor} (hd : d ∈ ds) :
    (firstOf ds d.association d.kind (some d.codeSet)).isSome := by
  rw [firstOf, List.find?_isSome]
  exact ⟨d, hd, by simp⟩

theorem IsNumber.not_unnumbered {ds : List Descriptor} {d : Descriptor} (h : IsNumber d)
    (hd : d ∈ ds) : ¬ Unnumbered ds := by
  obtain ⟨hassociation, hcode, hform⟩ := h
  have hfound := firstOf_isSome hd
  rw [hassociation, hcode] at hfound
  rintro ⟨hnaa, heui, huuid⟩
  rcases hform with ⟨hkind, -⟩ | ⟨hkind, -⟩ | ⟨hkind, -⟩
  · rw [hkind, hnaa] at hfound
    cases hfound
  · rw [hkind, heui] at hfound
    cases hfound
  · rw [hkind, huuid] at hfound
    cases hfound

/-- Next to an identifier of the unit only a name can be taken without a text. -/
theorem IsNumber.blank_iff {ds : List Descriptor} {d : Descriptor} (h : IsNumber d) (hd : d ∈ ds) :
    NamedWithoutText ds ∨ VendorWithoutText ds ↔
      ∃ name port, firstOf ds 0 8 (some 3) = some name ∧ Textless name ∧
        firstOf ds 1 8 (some 3) = some port ∧ SpeaksIscsi port := by
  have hnumbered := h.not_unnumbered hd
  constructor
  · rintro (⟨name, hname, htext, hrule⟩ | ⟨hcontra, -⟩)
    · obtain ⟨port, hport, hiscsi⟩ := hrule.resolve_right hnumbered
      exact ⟨name, port, hname, htext, hport, hiscsi⟩
    · exact absurd hcontra hnumbered
  · rintro ⟨name, port, hname, htext, hport, hiscsi⟩
    exact .inl ⟨name, hname, htext, .inl ⟨port, hport, hiscsi⟩⟩

/-! ## Resolving a page -/

theorem blank_ofPage_iff (bytes : Bytes) (wantTag : Bool) :
    (ofPage bytes wantTag).Blank ↔ ∃ page, Page.ofBytes bytes = .ok page ∧
      (NamedWithoutText page.descriptors ∨ VendorWithoutText page.descriptors) := by
  cases hpage : Page.ofBytes bytes with
  | error e => simp [ofPage, hpage, Blank, nothing]
  | ok page =>
    rw [ofPage_of_descriptors hpage, limit, blank_withTag, blank_ranked_iff]
    simp

/-- A page is resolved to an identity without text exactly if the name or the word of the vendor that
counts has none. A page with an identifier in its right form is resolved so exactly if the name has
no text and the first name of a port is marked as one of iSCSI. -/
theorem ofPage_without_text_iff (bytes : Bytes) (wantTag : Bool) :
    ((ofPage bytes wantTag).Blank ↔ ∃ page, Page.ofBytes bytes = .ok page ∧
      (NamedWithoutText page.descriptors ∨ VendorWithoutText page.descriptors)) ∧
    ∀ page number, Page.ofBytes bytes = .ok page → number ∈ page.descriptors → IsNumber number →
      ((ofPage bytes wantTag).Blank ↔ ∃ name port,
        firstOf page.descriptors 0 8 (some 3) = some name ∧ Textless name ∧
          firstOf page.descriptors 1 8 (some 3) = some port ∧ SpeaksIscsi port) := by
  refine ⟨blank_ofPage_iff bytes wantTag, fun page number hpage hmem hnumber => ?_⟩
  rw [blank_ofPage_iff, hpage, ← hnumber.blank_iff hmem]
  simp

/-! ## A name without bytes -/

def emptyName : Descriptor := ⟨0, 0, 3, false, 0, 8, []⟩

theorem ofPage_encode {ds : List Descriptor} (hfits : ∀ d ∈ ds, d.Fits)
    (hlength : (ds.flatMap Descriptor.encode).length ≤ 65535) :
    ofPage (Page.encode ds) = (ranked ds).withTag false := by
  have hlists := Page.lists_encode hfits hlength []
  rw [List.append_nil] at hlists
  exact ofPage_of_lists hlists false none

/-- Alone on its page it is what the page is resolved to, and it keeps a number in its right form from
being used that would be used without it. -/
theorem ofPage_of_emptyName :
    (ofPage (Page.encode [emptyName])).Blank ∧
      (ofPage (Page.encode [emptyName, iscsiPort, unitNumber])).Blank ∧ IsNumber unitNumber ∧
      ofPage (Page.encode [iscsiPort, unitNumber]) =
        { kind := .naa, value := "5000c500a1b2c3d4" } := by
  rw [ofPage_encode (by decide) (by decide), ofPage_encode (by decide) (by decide),
    ofPage_encode (by decide) (by decide)]
  exact ⟨⟨by decide, by decide⟩, ⟨by decide, by decide⟩, by simp [IsNumber, unitNumber], by decide⟩

end Identity
end StorageAtlas
