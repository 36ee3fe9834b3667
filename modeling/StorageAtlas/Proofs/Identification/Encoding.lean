import StorageAtlas.Proofs.Identification.Walk

/-!
Reading a page undoes writing it: a walk over the bytes of some descriptors gives
these descriptors, each at the place where its bytes begin, and ends where the
last one ends. What follows a page is never looked at.
-/

namespace StorageAtlas

namespace Descriptor

/-- Is there room for each part of a descriptor in the bits and bytes meant for it? -/
structure Fits (d : Descriptor) : Prop where
  protocol : d.protocol < 16
  codeSet : d.codeSet < 16
  association : d.association < 4
  kind : d.kind < 16
  designator : d.designator.length ≤ 255

theorem fits_iff (d : Descriptor) :
    d.Fits ↔ d.protocol < 16 ∧ d.codeSet < 16 ∧ d.association < 4 ∧ d.kind < 16 ∧
      d.designator.length ≤ 255 :=
  ⟨fun ⟨h1, h2, h3, h4, h5⟩ => ⟨h1, h2, h3, h4, h5⟩, fun ⟨h1, h2, h3, h4, h5⟩ => ⟨h1, h2, h3, h4, h5⟩⟩

instance (d : Descriptor) : Decidable d.Fits := decidable_of_iff' _ (fits_iff d)

theorem length_encode (d : Descriptor) : d.encode.length = 4 + d.designator.length := by
  simp only [encode, List.length_append, List.length_cons, List.length_nil]

theorem Fits.toNat_length {d : Descriptor} (h : d.Fits) :
    (UInt8.ofNat d.designator.length).toNat = d.designator.length := by
  rw [UInt8.toNat_ofNat']
  have := h.designator
  omega

/-- Two numbers share the first byte, and the flag shares the second with two others. -/
theorem Fits.ofHeader_eq {d : Descriptor} (h : d.Fits) (offset : Nat) :
    ofHeader offset (UInt8.ofNat (16 * d.protocol + d.codeSet))
      (UInt8.ofNat ((if d.protocolValid then 128 else 0) + 16 * d.association + d.kind))
      d.designator = { d with offset } := by
  obtain ⟨hprotocol, hcodeSet, hassociation, hkind, -⟩ := h
  simp only [ofHeader, UInt8.toNat_ofNat', mk.injEq, true_and, and_true]
  cases d.protocolValid with
  | true =>
    simp only [if_true, decide_eq_true_eq]
    omega
  | false =>
    simp only [Bool.false_eq_true, if_false, decide_eq_false_iff_not]
    omega

/-- The descriptors as they stand one after the other, each at the sum of the lengths of those
before it. -/
def placed (start : Nat) (ds : List Descriptor) : List Descriptor :=
  ds.mapIdx fun i d => { d with offset := start + ((ds.take i).flatMap encode).length }

theorem placed_cons (start : Nat) (d : Descriptor) (ds : List Descriptor) :
    placed start (d :: ds) = { d with offset := start } :: placed (start + d.encode.length) ds := by
  simp only [placed, List.mapIdx_cons, List.take_zero, List.flatMap_nil, List.length_nil,
    List.take_succ_cons, List.flatMap_cons, List.length_append, Nat.add_zero, Nat.add_assoc]

end Descriptor

namespace Walk

/-- The first descriptor is taken from the front, and the walk goes on behind it. -/
theorem collect_encode_append {d : Descriptor} (h : d.Fits) {declared offset : Nat}
    (hoffset : offset < declared) (rest : Bytes) :
    collect declared offset (d.encode ++ rest) =
      ({ d with offset } :: (collect declared (offset + d.encode.length) rest).1,
        (collect declared (offset + d.encode.length) rest).2) := by
  have htail : ¬ (d.designator ++ rest).length < d.designator.length := by
    simp only [List.length_append]
    omega
  rw [Descriptor.length_encode, ← Nat.add_assoc]
  simp only [Descriptor.encode, List.cons_append, List.nil_append]
  rw [collect]
  simp only [Nat.not_le.2 hoffset, if_false, h.toNat_length, htail, List.take_left,
    List.drop_left, h.ofHeader_eq]

theorem collect_flatMap_encode {ds : List Descriptor} (h : ∀ d ∈ ds, d.Fits) (offset : Nat) :
    collect (offset + (ds.flatMap Descriptor.encode).length) offset
      (ds.flatMap Descriptor.encode) =
        (Descriptor.placed offset ds,
          ⟨offset + (ds.flatMap Descriptor.encode).length,
            offset + (ds.flatMap Descriptor.encode).length, [], .done⟩) := by
  induction ds generalizing offset with
  | nil =>
    unfold collect
    simp [Descriptor.placed]
  | cons d ds ih =>
    have hd := h d List.mem_cons_self
    have hrest := ih (fun e he => h e (List.mem_cons_of_mem d he)) (offset + d.encode.length)
    -- no descriptor is empty, so the end is not reached before it
    have hlt : offset < offset + (d.encode ++ ds.flatMap Descriptor.encode).length := by
      rw [List.length_append, Descriptor.length_encode]
      omega
    rw [Nat.add_assoc, ← List.length_append] at hrest
    rw [List.flatMap_cons, collect_encode_append hd hlt, hrest, Descriptor.placed_cons]

end Walk

namespace Page

/-- The header says how long the page is, so that it may be followed by anything. -/
theorem ofBytes_encode_append {ds : List Descriptor}
    (h : (ds.flatMap Descriptor.encode).length ≤ 65535) (tail : Bytes) :
    ofBytes (encode ds ++ tail) =
      .ok ⟨(ds.flatMap Descriptor.encode).length, ds.flatMap Descriptor.encode⟩ := by
  have hdeclared : 256 * (UInt8.ofNat ((ds.flatMap Descriptor.encode).length / 256)).toNat +
      (UInt8.ofNat ((ds.flatMap Descriptor.encode).length % 256)).toNat =
        (ds.flatMap Descriptor.encode).length := by
    simp only [UInt8.toNat_ofNat']
    omega
  simp only [ofBytes, encode, List.cons_append, List.nil_append, if_true, hdeclared,
    List.take_left]

/-- What stands on a written page. -/
theorem exists_of_encode {ds : List Descriptor} (hfits : ∀ d ∈ ds, d.Fits)
    (hlength : (ds.flatMap Descriptor.encode).length ≤ 65535) (tail : Bytes) :
    ∃ page, ofBytes (encode ds ++ tail) = .ok page ∧
      page.descriptors = Descriptor.placed 0 ds ∧ page.finish.status = .done := by
  have hcollect := Walk.collect_flatMap_encode hfits 0
  rw [Nat.zero_add] at hcollect
  refine ⟨_, ofBytes_encode_append hlength tail, ?_, ?_⟩
  · rw [descriptors, hcollect]
  · rw [finish, hcollect]

/-- Whatever follows a written page, it is read, and a walk over it gives exactly the descriptors
that were written and ends behind the last of them. -/
theorem walk_yields_iff_written {ds : List Descriptor} (hfits : ∀ d ∈ ds, d.Fits)
    (hlength : (ds.flatMap Descriptor.encode).length ≤ 65535) (tail : Bytes) :
    ∃ page, ofBytes (encode ds ++ tail) = .ok page ∧ ofBytes (encode ds) = .ok page ∧
      ∀ found last, page.walk.Yields {} found last ↔
        found = Descriptor.placed 0 ds ∧
          last = ⟨page.declared, (ds.flatMap Descriptor.encode).length, [], .done⟩ := by
  refine ⟨_, ofBytes_encode_append hlength tail, ?_, ?_⟩
  · have hempty := ofBytes_encode_append hlength []
    rwa [List.append_nil] at hempty
  · intro found last
    have hcollect := Walk.collect_flatMap_encode hfits 0
    rw [Nat.zero_add] at hcollect
    have hyields := Walk.yields_collect (ds.flatMap Descriptor.encode).length 0
      (ds.flatMap Descriptor.encode)
    rw [hcollect] at hyields
    constructor
    · exact fun h => h.unique hyields
    · rintro ⟨rfl, rfl⟩
      exact hyields

/-- The shortest descriptor and the longest, with the bits of the fields all set in the second. -/
def extremes : List Descriptor :=
  [⟨0, 0, 1, false, 0, 8, []⟩, ⟨0, 15, 15, true, 3, 15, Bytes.zeros 255⟩]

theorem walk_yields_extremes :
    ∃ page, ofBytes (encode extremes ++ [1, 2, 3]) = .ok page ∧
      page.walk.Yields {}
        [⟨0, 0, 1, false, 0, 8, []⟩, ⟨4, 15, 15, true, 3, 15, Bytes.zeros 255⟩]
        ⟨page.declared, 263, [], .done⟩ := by
  have hlength : (Bytes.zeros 255).length = 255 := List.length_replicate
  have hfits : ∀ d ∈ extremes, d.Fits := by
    intro d hd
    simp only [extremes, List.mem_cons, List.not_mem_nil, or_false] at hd
    rcases hd with rfl | rfl
    · constructor <;> decide
    · exact ⟨by decide, by decide, by decide, by decide, Nat.le_of_eq hlength⟩
  have htotal : (extremes.flatMap Descriptor.encode).length = 263 := by
    simp [extremes, Descriptor.length_encode, hlength]
  have hplaced : Descriptor.placed 0 extremes =
      [⟨0, 0, 1, false, 0, 8, []⟩, ⟨4, 15, 15, true, 3, 15, Bytes.zeros 255⟩] := by
    rw [extremes, Descriptor.placed_cons, Descriptor.placed_cons]
    rfl
  obtain ⟨page, hpage, -, hyields⟩ :=
    walk_yields_iff_written hfits (by rw [htotal]; decide) [1, 2, 3]
  refine ⟨page, hpage, (hyields _ _).2 ⟨hplaced.symm, ?_⟩⟩
  rw [htotal]

end Page
end StorageAtlas
