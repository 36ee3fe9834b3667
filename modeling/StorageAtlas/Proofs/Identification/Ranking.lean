import StorageAtlas.Identification.Identity
import StorageAtlas.Proofs.Identification.Walk

/-!
The order in which the designators of a page are considered, as a list of rules
over everything that the page holds. The first rule that has something to say
decides, and it is what a page is resolved to.
-/

namespace StorageAtlas

/-! ## Hexadecimal text and its parts -/

namespace Bytes

theorem hex_take (n : Nat) (bytes : Bytes) : hex (bytes.take n) = (hex bytes).take (2 * n) := by
  induction bytes generalizing n with
  | nil => simp [hex]
  | cons b r ih =>
    cases n with
    | zero => rfl
    | succ n =>
      have htwice : 2 * (n + 1) = 2 * n + 1 + 1 := by omega
      rw [htwice]
      simp only [List.take_succ_cons, hex, ih]

theorem hex_drop (n : Nat) (bytes : Bytes) : hex (bytes.drop n) = (hex bytes).drop (2 * n) := by
  induction bytes generalizing n with
  | nil => simp [hex]
  | cons b r ih =>
    cases n with
    | zero => rfl
    | succ n =>
      have htwice : 2 * (n + 1) = 2 * n + 1 + 1 := by omega
      rw [htwice]
      simp only [List.drop_succ_cons, hex, ih]

end Bytes

namespace Identity

/-! ## The rules -/

/-- The first descriptor of an association and a kind, in a code set if one is given. -/
def firstOf (ds : List Descriptor) (association kind : Nat) (codeSet : Option Nat := none) :
    Option Descriptor :=
  ds.find? fun d => d.association = association && d.kind = kind && codeSet.all (d.codeSet = ·)

/-- The text of a designator up to its first zero byte. -/
def named (kind : IdentityKind) (tag : Option Text) (d : Descriptor) : Identity :=
  { kind, value := Utf8.decodeLossy (d.designator.takeWhile (· ≠ 0)), tag }

/-- A designator in hexadecimal, if it has one of the lengths. -/
def inHex (kind : IdentityKind) (tag : Text) (lengths : List Nat) (d : Descriptor) : Identity :=
  if d.designator.length ∈ lengths then { kind, value := Bytes.hex d.designator, tag := some tag }
  else { kind := .none }

/-- Sixteen bytes in hexadecimal, in groups of four, two, two, two and six. -/
def grouped (id : Bytes) : Text :=
  Text.join "-" ([id.take 4, (id.drop 4).take 2, (id.drop 6).take 2, (id.drop 8).take 2,
    (id.drop 10).take 6].map Bytes.hex)

/-- A unique identifier has a version of one and sixteen bytes behind two others. -/
def inGroups (d : Descriptor) : Identity :=
  if d.designator.length = 18 ∧ d.designator[0]?.any (fun b => b.toNat / 16 = 1) then
    { kind := .uuid, value := grouped (d.designator.drop 2), tag := some "uuid." }
  else { kind := .uuid, value := "??" }

/-- The unit's name, if the first name of a port says that iSCSI is spoken. -/
def namedOverIscsi (ds : List Descriptor) : Option Identity :=
  (firstOf ds 0 8 (some 3)).bind fun name =>
    (firstOf ds 1 8 (some 3)).bind fun port =>
      if port.protocolValid = true ∧ port.protocol = 5 then some (named .scsiName none name)
      else none

/-- What a page's descriptors say about its unit, rule by rule. -/
def ranking : List (List Descriptor → Option Identity) := [
  namedOverIscsi,
  fun ds => (firstOf ds 0 3 (some 1)).map (inHex .naa "naa." [8, 16]),
  fun ds => (firstOf ds 0 2 (some 1)).map (inHex .eui "eui." [8, 12, 16]),
  fun ds => (firstOf ds 0 10 (some 1)).map inGroups,
  fun ds => (firstOf ds 0 8 (some 3)).map (named .scsiName none),
  fun ds => (firstOf ds 0 1).bind fun d =>
    if 1 < d.codeSet ∧ 8 ≤ d.designator.length then some (named .t10 (some "t10.") d) else none]

/-- The answer of the first rule that has one. -/
def ranked (ds : List Descriptor) : Identity :=
  (ranking.findSome? fun rule => rule ds).getD { kind := .none }

/-- A short identifier of the one kind keeps the good one of the other from being used. -/
example : ranked [⟨0, 0, 1, false, 0, 3, [1, 2]⟩, ⟨6, 0, 1, false, 0, 2, [1, 2, 3, 4, 5, 6, 7, 8]⟩] =
    nothing := by decide

/-- Descriptors about which every rule says the same are ranked alike. -/
theorem ranked_eq_of_rules {ds ds' : List Descriptor}
    (h : (ranking.map fun rule => rule ds) = ranking.map fun rule => rule ds') :
    ranked ds = ranked ds' := by
  have hranked (ds : List Descriptor) :
      ranked ds = ((ranking.map fun rule => rule ds).findSome? id).getD { kind := .none } := by
    rw [List.findSome?_map]
    rfl
  rw [hranked, hranked, h]

/-! ## Resolving a page -/

/-- A search with a query for fields finds the first descriptor with these fields. -/
theorem first_eq_firstOf (p : Page) (association kind : Nat) (codeSet : Option Nat) :
    p.first ⟨some association, some kind, codeSet.map Int.ofNat⟩ =
      firstOf p.descriptors association kind codeSet := by
  rw [Page.first_eq_find?, firstOf]
  congr 1
  funext d
  rw [Bool.eq_iff_iff]
  cases codeSet with
  | none =>
    simp only [Query.accepts, Query.meets, Option.map_none, Option.all_none, Bool.true_and,
      Bool.and_true, Int.natCast_inj, Bool.and_eq_true, decide_eq_true_eq]
    constructor
    · rintro ⟨hassociation, hkind⟩
      exact ⟨hassociation.symm, hkind.symm⟩
    · rintro ⟨hassociation, hkind⟩
      exact ⟨hassociation.symm, hkind.symm⟩
  | some code =>
    simp only [Query.accepts, Query.meets, Option.map_some, Option.all_some, Int.ofNat_eq_natCast,
      Int.natCast_inj, Bool.and_eq_true, decide_eq_true_eq]
    constructor
    · rintro ⟨⟨hcode, hassociation⟩, hkind⟩
      exact ⟨⟨hassociation.symm, hkind.symm⟩, hcode.symm⟩
    · rintro ⟨⟨hassociation, hkind⟩, hcode⟩
      exact ⟨⟨hcode.symm, hassociation.symm⟩, hkind.symm⟩

theorem ofNaa_eq_inHex (d : Descriptor) : ofNaa d = inHex .naa "naa." [8, 16] d := by
  simp [ofNaa, inHex, nothing]

theorem ofEui_eq_inHex (d : Descriptor) : ofEui d = inHex .eui "eui." [8, 12, 16] d := by
  simp [ofEui, inHex, nothing]

/-- Cutting the digits into groups is the same as cutting the bytes. -/
theorem dashed_hex (id : Bytes) : dashed (Bytes.hex id) = grouped id := by
  simp only [dashed, grouped, List.map_cons, List.map_nil, Bytes.hex_take, Bytes.hex_drop]

theorem ofUuid_eq_inGroups (d : Descriptor) : ofUuid d = inGroups d := by
  unfold ofUuid inGroups
  cases hd : d.designator with
  | nil => simp
  | cons b r => simp [dashed_hex]

theorem first_unitName (p : Page) : p.first unitNameQuery = firstOf p.descriptors 0 8 (some 3) :=
  first_eq_firstOf p 0 8 (some 3)

theorem first_portName (p : Page) : p.first portNameQuery = firstOf p.descriptors 1 8 (some 3) :=
  first_eq_firstOf p 1 8 (some 3)

theorem namedOverIscsi_descriptors (p : Page) :
    namedOverIscsi p.descriptors =
      if nameGoesFirst p.first then (p.first unitNameQuery).map ofName else none := by
  rw [namedOverIscsi, nameGoesFirst, first_unitName, first_portName]
  cases firstOf p.descriptors 0 8 (some 3) with
  | none => rfl
  | some name =>
    cases firstOf p.descriptors 1 8 (some 3) with
    | none => rfl
    | some port =>
      have hname : named .scsiName none name = ofName name := rfl
      simp [isIscsiPort, hname]

/-- The choice between the first descriptors of six kinds follows the rules. -/
theorem choose_eq_ranked (p : Page) : choose p.first = ranked p.descriptors := by
  have hnaa : p.first naaQuery = firstOf p.descriptors 0 3 (some 1) :=
    first_eq_firstOf p 0 3 (some 1)
  have heui : p.first euiQuery = firstOf p.descriptors 0 2 (some 1) :=
    first_eq_firstOf p 0 2 (some 1)
  have huuid : p.first uuidQuery = firstOf p.descriptors 0 10 (some 1) :=
    first_eq_firstOf p 0 10 (some 1)
  have hvendor : p.first vendorQuery = firstOf p.descriptors 0 1 none :=
    first_eq_firstOf p 0 1 none
  rw [choose, ranked, ranking, List.findSome?_cons, namedOverIscsi_descriptors, first_unitName, hnaa,
    heui, huuid, hvendor]
  by_cases hgoes : nameGoesFirst p.first = true
  · have hsome : (firstOf p.descriptors 0 8 (some 3)).isSome = true := by
      rw [nameGoesFirst, first_unitName, Bool.and_eq_true] at hgoes
      exact hgoes.1
    obtain ⟨name, hname⟩ := Option.isSome_iff_exists.1 hsome
    simp [hgoes, hname]
  · simp only [if_neg hgoes, List.findSome?_cons]
    -- the rules in their order: each one is reached only if those before found nothing
    cases firstOf p.descriptors 0 3 (some 1) with
    | some d => exact ofNaa_eq_inHex d
    | none =>
      cases firstOf p.descriptors 0 2 (some 1) with
      | some d => exact ofEui_eq_inHex d
      | none =>
        cases firstOf p.descriptors 0 10 (some 1) with
        | some d => exact ofUuid_eq_inGroups d
        | none =>
          cases firstOf p.descriptors 0 8 (some 3) with
          | some d => rfl
          | none =>
            cases firstOf p.descriptors 0 1 with
            | some d =>
              by_cases hd : 1 < d.codeSet ∧ 8 ≤ d.designator.length
              · simp only [Option.bind_some, if_pos hd, ofVendor]
                rfl
              · simp only [Option.bind_some, if_neg hd, ofVendor]
                rfl
            | none => rfl

/-! ## The resolved identity -/

theorem ofPage_of_descriptors {bytes : Bytes} {page : Page} (h : Page.ofBytes bytes = .ok page)
    (wantTag : Bool) (capacity : Option Int) :
    ofPage bytes wantTag capacity =
      ((ranked page.descriptors).withTag wantTag).limit capacity := by
  rw [← choose_eq_ranked, ofPage, h]

/-- A page with the code of identification pages has a walk that ends, and what the walk gives is
ranked; every other byte string gives no identity. -/
theorem ofPage_eq_ranked (bytes : Bytes) (wantTag : Bool) (capacity : Option Int) :
    if 4 ≤ bytes.length ∧ bytes[1]? = some 0x83 then
      ∃ page, Page.ofBytes bytes = .ok page ∧
        (∃ ds last, page.walk.Yields {} ds last ∧
          (last.status = .done ∨ last.status = .truncated)) ∧
        ∀ ds last, page.walk.Yields {} ds last →
          ofPage bytes wantTag capacity = ((ranked ds).withTag wantTag).limit capacity
    else ofPage bytes wantTag capacity = nothing := by
  match bytes with
  | [] => rfl
  | [_] => rfl
  | [_, _] => rfl
  | [_, _, _] => rfl
  | first :: code :: high :: low :: rest =>
    by_cases hcode : code = 0x83
    · let page : Page := ⟨256 * high.toNat + low.toNat, rest.take (256 * high.toNat + low.toNat)⟩
      have hpage : Page.ofBytes (first :: code :: high :: low :: rest) = .ok page := by
        simp [Page.ofBytes, hcode, page]
      have hwalk := Walk.yields_collect page.declared 0 page.body
      rw [if_pos ⟨by simp, by simp [hcode]⟩]
      refine ⟨page, hpage, ⟨_, _, hwalk, Walk.status_collect page.declared 0 page.body⟩, ?_⟩
      intro ds last hyields
      obtain ⟨rfl, -⟩ := hyields.unique hwalk
      rw [ofPage, hpage]
      show ((choose page.first).withTag wantTag).limit capacity = _
      rw [choose_eq_ranked]
      rfl
    · rw [if_neg (by simp [hcode]), ofPage]
      simp [Page.ofBytes, hcode]

end Identity
end StorageAtlas
