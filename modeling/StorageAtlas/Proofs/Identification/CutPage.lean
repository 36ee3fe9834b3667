import StorageAtlas.Identification.Source
import StorageAtlas.Proofs.Identification.Encoding
import StorageAtlas.Proofs.Identification.Examination

/-!
A page whose last bytes are missing. Its header still declares the whole length,
and its descriptors are those of the whole page that end before the cut, wherever
the cut falls. So a search finds the same first descriptor on both, if that one
is not cut off, and otherwise finds none on the shorter page. Pages are read up
to a limit, which is such a cut.
-/

namespace StorageAtlas

namespace Descriptor

/-! ## Lists in which each descriptor ends behind the one before -/

theorem filter_stop_le_eq_nil {ds : List Descriptor} {m : Nat} (h : ∀ d ∈ ds, m < d.stop) :
    (ds.filter fun d => d.stop ≤ m) = [] := by
  rw [List.filter_eq_nil_iff]
  intro d hd
  have := h d hd
  simp only [decide_eq_true_eq]
  omega

theorem filter_stop_le_isPrefix {ds : List Descriptor}
    (h : ds.Pairwise fun d e => d.stop < e.stop) (m : Nat) :
    (ds.filter fun d => d.stop ≤ m) <+: ds := by
  induction h with
  | nil => exact List.prefix_rfl
  | @cons d ds hd hds ih =>
    by_cases hm : d.stop ≤ m
    · rw [List.filter_cons_of_pos (by simpa using hm)]
      exact (List.prefix_cons_inj d).2 ih
    · have hlater : ∀ e ∈ ds, m < e.stop := fun e he => by
        have := hd e he
        omega
      rw [List.filter_cons_of_neg (by simpa using hm), filter_stop_le_eq_nil hlater]
      exact List.nil_prefix

theorem find?_filter_stop_le {ds : List Descriptor}
    (h : ds.Pairwise fun d e => d.stop < e.stop) (m : Nat) (p : Descriptor → Bool) :
    (ds.filter fun d => d.stop ≤ m).find? p = (ds.find? p).filter fun d => d.stop ≤ m := by
  induction h with
  | nil => rfl
  | @cons d ds hd hds ih =>
    by_cases hm : d.stop ≤ m
    · rw [List.filter_cons_of_pos (by simpa using hm), List.find?_cons, List.find?_cons]
      cases p d with
      | true => exact (Option.filter_some_pos (by simpa using hm)).symm
      | false => exact ih
    · have hlater : ∀ e ∈ ds, m < e.stop := fun e he => by
        have := hd e he
        omega
      rw [filter_stop_le_eq_nil hlater] at ih
      rw [List.filter_cons_of_neg (by simpa using hm), filter_stop_le_eq_nil hlater, List.find?_cons]
      cases p d with
      | true => exact (Option.filter_some_neg (by simpa using hm)).symm
      | false => exact ih

/-! ## Bodies -/

/-- A descriptor stands in the first bytes of a body if it stands in the body and ends in time. -/
theorem readAt?_take {body : Bytes} {offset m : Nat} {d : Descriptor} :
    readAt? (body.take m) offset = some d ↔ readAt? body offset = some d ∧ d.stop ≤ m := by
  have hslice {n : Nat} (hn : offset + 4 + n ≤ m) :
      ((body.take m).drop (offset + 4)).take n = (body.drop (offset + 4)).take n := by
    rw [List.drop_take, List.take_take, Nat.min_eq_left (by omega)]
  simp only [readAt?_eq_some_iff, List.length_take, Nat.le_min]
  constructor
  · rintro ⟨b0, b1, n, h0, h1, h3, ⟨hm, hle⟩, rfl⟩
    rw [List.getElem?_take_of_lt (by omega)] at h0 h1 h3
    rw [hslice hm, stop_ofHeader hle]
    exact ⟨⟨b0, b1, n, h0, h1, h3, hle, rfl⟩, hm⟩
  · rintro ⟨⟨b0, b1, n, h0, h1, h3, hle, rfl⟩, hm⟩
    rw [stop_ofHeader hle] at hm
    refine ⟨b0, b1, n, ?_, ?_, ?_, ⟨hm, hle⟩, by rw [hslice hm]⟩
    · rwa [List.getElem?_take_of_lt (by omega)]
    · rwa [List.getElem?_take_of_lt (by omega)]
    · rwa [List.getElem?_take_of_lt (by omega)]

/-- Cut off, a body holds the descriptors that end before the cut. -/
theorem Examines.take {body : Bytes} {offset last : Nat} {ds : List Descriptor}
    (h : Examines body offset ds last) (m : Nat) :
    ∃ last', Examines (body.take m) offset (ds.filter fun d => d.stop ≤ m) last' := by
  induction h with
  | @ends offset missing =>
    refine ⟨offset, .ends (Option.eq_none_iff_forall_ne_some.2 fun d hd => ?_)⟩
    rw [(readAt?_take.1 hd).1] at missing
    cases missing
  | @reads offset last d ds found rest ih =>
    by_cases hm : d.stop ≤ m
    · obtain ⟨last', hrest⟩ := ih
      refine ⟨last', ?_⟩
      rw [List.filter_cons_of_pos (by simpa using hm)]
      exact .reads (readAt?_take.2 ⟨found, hm⟩) hrest
    · have hlater : ∀ e ∈ ds, m < e.stop := fun e he => by
        have := rest.add_four_le_stop e he
        omega
      rw [List.filter_cons_of_neg (by simpa using hm), filter_stop_le_eq_nil hlater]
      refine ⟨offset, .ends (Option.eq_none_iff_forall_ne_some.2 fun e he => ?_)⟩
      obtain ⟨he, hstop⟩ := readAt?_take.1 he
      rw [found] at he
      cases he
      exact hm hstop

end Descriptor

/-! ## Pages -/

namespace Page

/-- The same page with no more than the first `m` bytes of its body. -/
def cut (p : Page) (m : Nat) : Page := { p with body := p.body.take m }

theorem ofBytes_take {bytes : Bytes} {page : Page} (h : ofBytes bytes = .ok page) {n : Nat}
    (hn : 4 ≤ n) : ofBytes (bytes.take n) = .ok (page.cut (n - 4)) := by
  obtain ⟨m, rfl⟩ : ∃ m, n = m + 4 := ⟨n - 4, by omega⟩
  unfold ofBytes at h
  split at h
  · next first code high low rest =>
    split at h
    · next hcode =>
      cases h
      simp [ofBytes, hcode, cut, List.take_take, Nat.min_comm]
    · cases h
  · cases h

theorem descriptors_cut {page : Page} (h : page.body.length ≤ page.declared) (m : Nat) :
    (page.cut m).descriptors = page.descriptors.filter fun d => d.stop ≤ m := by
  have hcut : (page.cut m).body.length ≤ (page.cut m).declared :=
    Nat.le_trans (List.length_take_le' _ _) h
  obtain ⟨_, -, hexamines, -⟩ := examines_descriptors h
  obtain ⟨_, -, hexamines', -⟩ := examines_descriptors hcut
  obtain ⟨_, htake⟩ := hexamines.take m
  exact (hexamines'.unique htake).1

/-- A page that is shorter than its header says does not end where it should. -/
theorem status_finish {page : Page} (h : page.body.length < page.declared) :
    page.finish.status = .truncated := by
  obtain ⟨stop, hstop, -, hfinish⟩ := examines_descriptors (Nat.le_of_lt h)
  rw [hfinish, Walk.endAt, if_neg (by omega)]

end Page

/-- A page that is read is a cut of the one that the device keeps. -/
theorem AttributeTree.identificationPage_eq (s : AttributeTree) (device : Text) :
    s.identificationPage device =
      (s.readBytes (s.classPath "scsi_device" [device, "device"]) "vpd_pg83").map
        (List.take 512) := by
  unfold identificationPage readBytes
  cases s.tree.readFile (filePath (s.classPath "scsi_device" [device, "device"]) "vpd_pg83") with
  | error _ => rfl
  | ok _ => rfl

namespace Page

/-- Cut off anywhere behind its header, a page gives those descriptors of the whole page that end
before the cut; a page that is read from a device is cut off at 512 bytes. -/
theorem yields_until_cut {bytes : Bytes} (hlength : 4 ≤ bytes.length)
    (hcode : bytes[1]? = some 0x83) :
    (∀ n ≥ 4, ∃ page cut ds last last', ofBytes bytes = .ok page ∧
      ofBytes (bytes.take n) = .ok cut ∧ page.walk.Yields {} ds last ∧
      cut.walk.Yields {} (ds.filter fun d => 4 + d.stop ≤ n) last' ∧
      (ds.filter fun d => 4 + d.stop ≤ n) <+: ds ∧
      (n < 4 + page.declared → last'.status = .truncated) ∧
      ∀ q, cut.first q = (page.first q).filter fun d => 4 + d.stop ≤ n) ∧
    ∀ (s : AttributeTree) (device : Text),
      s.readBytes (s.classPath "scsi_device" [device, "device"]) "vpd_pg83" = some bytes →
        s.identificationPage device = some (bytes.take 512) := by
  refine ⟨fun n hn => ?_, fun s device hread => ?_⟩
  · have hpage := ofBytes_of_header hlength hcode
    generalize hp : Page.mk _ _ = page at hpage
    have hbody := length_body_le hpage
    obtain ⟨stop, -, hexamines, -⟩ := examines_descriptors hbody
    have hbound (d : Descriptor) : 4 + d.stop ≤ n ↔ d.stop ≤ n - 4 := by omega
    simp only [hbound]
    have hyields := (page.cut (n - 4)).yields_descriptors
    rw [descriptors_cut hbody] at hyields
    refine ⟨page, _, _, _, _, hpage, ofBytes_take hpage hn, page.yields_descriptors, hyields,
      Descriptor.filter_stop_le_isPrefix hexamines.pairwise_stop _, fun hshort => ?_, fun q => ?_⟩
    · apply status_finish
      have := List.length_take_le (n - 4) page.body
      show (page.body.take (n - 4)).length < page.declared
      omega
    · rw [first_eq_find?, first_eq_find?, descriptors_cut hbody,
        Descriptor.find?_filter_stop_le hexamines.pairwise_stop]
  · rw [AttributeTree.identificationPage_eq, hread]
    rfl

/-- Two identifiers, of six bytes and of twelve with their headers. -/
def twoIdentifiers : List Descriptor :=
  [⟨0, 0, 1, false, 0, 3, [0xaa, 0xbb]⟩, ⟨0, 0, 1, false, 0, 2, [1, 2, 3, 4, 5, 6, 7, 8]⟩]

theorem cut_twoIdentifiers :
    4 ≤ (encode twoIdentifiers).length ∧ (encode twoIdentifiers)[1]? = some 0x83 ∧
      ∃ page cut, ofBytes (encode twoIdentifiers) = .ok page ∧
        ofBytes ((encode twoIdentifiers).take 21) = .ok cut ∧
        (page.first Identity.naaQuery).isSome ∧ (page.first Identity.euiQuery).isSome ∧
        cut.first Identity.naaQuery = page.first Identity.naaQuery ∧
        cut.first Identity.euiQuery = none := by
  have hlength : 4 ≤ (encode twoIdentifiers).length := by decide
  have hcode : (encode twoIdentifiers)[1]? = some 0x83 := by decide
  obtain ⟨page, cut, ds, last, last', hpage, hcut, -, -, -, -, hfirst⟩ :=
    (yields_until_cut hlength hcode).1 21 (by decide)
  obtain ⟨page', hpage', hfound, -⟩ :=
    @exists_of_encode twoIdentifiers (by decide) (by decide) []
  rw [List.append_nil, hpage] at hpage'
  cases hpage'
  have hnaa := page.first_eq_find? Identity.naaQuery
  have heui := page.first_eq_find? Identity.euiQuery
  rw [hfound] at hnaa heui
  refine ⟨hlength, hcode, page, cut, hpage, hcut, ?_, ?_, ?_, ?_⟩
  · rw [hnaa]
    rfl
  · rw [heui]
    rfl
  · rw [hfirst, hnaa]
    rfl
  · rw [hfirst, heui]
    rfl

end Page
end StorageAtlas
