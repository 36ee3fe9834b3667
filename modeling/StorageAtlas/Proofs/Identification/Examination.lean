import StorageAtlas.Proofs.Identification.Walk

/-!
What a page's body holds, read by position: a descriptor stands at an offset if
the header and all bytes that it announces stand there, the first descriptor
begins the body, and each further one begins where the one before it ends. The
descriptors that a walk collects are these, and where they end says whether they
fill the length that the header declares.
-/

namespace StorageAtlas

namespace Descriptor

/-- The offset behind the last byte. -/
def stop (d : Descriptor) : Nat := d.offset + 4 + d.designator.length

/-- The descriptor whose header begins at an offset, if none of its bytes is missing. -/
def readAt? (body : Bytes) (offset : Nat) : Option Descriptor := do
  let b0 ← body[offset]?
  let b1 ← body[offset + 1]?
  let n ← body[offset + 3]?
  if offset + 4 + n.toNat ≤ body.length then
    some (ofHeader offset b0 b1 ((body.drop (offset + 4)).take n.toNat))
  else none

/-- `Examines body offset ds last`: from an offset on, `ds` stand one behind the other, up to an
offset at which no descriptor stands. -/
inductive Examines (body : Bytes) : Nat → List Descriptor → Nat → Prop where
  | ends {offset : Nat} (missing : readAt? body offset = none) : Examines body offset [] offset
  | reads {offset last : Nat} {d : Descriptor} {ds : List Descriptor}
      (found : readAt? body offset = some d) (rest : Examines body d.stop ds last) :
      Examines body offset (d :: ds) last

/-- Where the descriptors of a body begin: the last byte of a header says how far the next one is. -/
def beginning (body : Bytes) : Nat → Nat
  | 0 => 0
  | i + 1 => beginning body i + 4 + (body.getD (beginning body i + 3) 0).toNat

/-! ## One descriptor -/

theorem readAt?_of_drop {body tail : Bytes} {offset : Nat} {b0 b1 x n : UInt8}
    (h : body.drop offset = b0 :: b1 :: x :: n :: tail) :
    readAt? body offset =
      if tail.length < n.toNat then none else some (ofHeader offset b0 b1 (tail.take n.toNat)) := by
  have hat (i : Nat) : body[offset + i]? = (b0 :: b1 :: x :: n :: tail)[i]? := by
    rw [← h, List.getElem?_drop]
  have h0 : body[offset]? = some b0 := hat 0
  have h1 : body[offset + 1]? = some b1 := hat 1
  have h3 : body[offset + 3]? = some n := hat 3
  have htail : body.drop (offset + 4) = tail := by
    rw [← List.drop_drop, h]
    rfl
  have hlength : body.length = offset + 4 + tail.length := by
    have := congrArg List.length h
    simp only [List.length_drop, List.length_cons] at this
    omega
  simp only [readAt?, h0, h1, h3, htail, hlength, Option.bind_eq_bind, Option.bind_some]
  by_cases hn : tail.length < n.toNat
  · rw [if_pos hn, if_neg (by omega)]
  · rw [if_neg hn, if_pos (by omega)]

theorem readAt?_eq_some_iff {body : Bytes} {offset : Nat} {d : Descriptor} :
    readAt? body offset = some d ↔ ∃ b0 b1 n, body[offset]? = some b0 ∧
      body[offset + 1]? = some b1 ∧ body[offset + 3]? = some n ∧
        offset + 4 + n.toNat ≤ body.length ∧
          ofHeader offset b0 b1 ((body.drop (offset + 4)).take n.toNat) = d := by
  simp [readAt?, Option.bind_eq_some_iff]

theorem stop_ofHeader {body : Bytes} {offset n : Nat} (h : offset + 4 + n ≤ body.length)
    (b0 b1 : UInt8) :
    (ofHeader offset b0 b1 ((body.drop (offset + 4)).take n)).stop = offset + 4 + n := by
  simp only [stop, ofHeader, List.length_take, List.length_drop]
  omega

/-- What is known of a descriptor that stands at an offset. -/
theorem readAt?_eq_some {body : Bytes} {offset : Nat} {d : Descriptor}
    (h : readAt? body offset = some d) :
    d.offset = offset ∧ d.stop ≤ body.length ∧ ∃ n, body[offset + 3]? = some n ∧
      d.stop = offset + 4 + n.toNat := by
  obtain ⟨b0, b1, n, -, -, h3, hle, rfl⟩ := readAt?_eq_some_iff.1 h
  rw [stop_ofHeader hle]
  exact ⟨rfl, hle, n, h3, rfl⟩

theorem readAt?_of_length {body : Bytes} {offset : Nat} (h : body.length < offset + 4) :
    readAt? body offset = none := by
  have h3 : body[offset + 3]? = none := List.getElem?_eq_none (by omega)
  simp [readAt?, h3]

/-! ## All of them -/

theorem Examines.unique {body : Bytes} {offset last last' : Nat} {ds ds' : List Descriptor}
    (h : Examines body offset ds last) (h' : Examines body offset ds' last') :
    ds = ds' ∧ last = last' := by
  induction h generalizing ds' last' with
  | ends missing =>
    cases h' with
    | ends => exact ⟨rfl, rfl⟩
    | reads found =>
      rw [missing] at found
      cases found
  | reads found rest ih =>
    cases h' with
    | ends missing =>
      rw [found] at missing
      cases missing
    | reads found' rest' =>
      rw [found] at found'
      cases found'
      obtain ⟨rfl, rfl⟩ := ih rest'
      exact ⟨rfl, rfl⟩

/-- A descriptor ends at least its header's length behind where the examination began. -/
theorem Examines.add_four_le_stop {body : Bytes} {offset last : Nat} {ds : List Descriptor}
    (h : Examines body offset ds last) : ∀ d ∈ ds, offset + 4 ≤ d.stop := by
  induction h with
  | ends => simp
  | reads found rest ih =>
    obtain ⟨-, -, n, -, hstop⟩ := readAt?_eq_some found
    intro d hd
    rcases List.mem_cons.1 hd with rfl | hd
    · omega
    · have := ih d hd
      omega

theorem Examines.stop_le {body : Bytes} {offset last : Nat} {ds : List Descriptor}
    (h : Examines body offset ds last) : ∀ d ∈ ds, d.stop ≤ body.length := by
  induction h with
  | ends => simp
  | reads found rest ih =>
    obtain ⟨-, hstop, -⟩ := readAt?_eq_some found
    intro d hd
    rcases List.mem_cons.1 hd with rfl | hd
    · exact hstop
    · exact ih d hd

theorem Examines.pairwise_stop {body : Bytes} {offset last : Nat} {ds : List Descriptor}
    (h : Examines body offset ds last) : ds.Pairwise fun d e => d.stop < e.stop := by
  induction h with
  | ends => exact List.Pairwise.nil
  | reads found rest ih =>
    apply List.Pairwise.cons _ ih
    intro e he
    have := rest.add_four_le_stop e he
    omega

/-- Counted from any descriptor on, the descriptors stand at their beginnings, up to the first
beginning at which none stands. -/
theorem Examines.getElem? {body : Bytes} {k last : Nat} {ds : List Descriptor}
    (h : Examines body (beginning body k) ds last) :
    (∀ i ≤ ds.length, readAt? body (beginning body (k + i)) = ds[i]?) ∧
      last = beginning body (k + ds.length) := by
  generalize hoffset : beginning body k = offset at h
  induction h generalizing k with
  | ends missing =>
    subst hoffset
    refine ⟨fun i hi => ?_, rfl⟩
    obtain rfl : i = 0 := Nat.le_zero.1 hi
    exact missing
  | @reads offset last d ds found rest ih =>
    subst hoffset
    obtain ⟨-, -, n, hn, hstop⟩ := readAt?_eq_some found
    have hnext : beginning body (k + 1) = d.stop := by
      rw [beginning, hstop, List.getD_eq_getElem?_getD, hn]
      rfl
    obtain ⟨hread, hlast⟩ := ih hnext
    constructor
    · intro i hi
      cases i with
      | zero => exact found
      | succ i =>
        have := hread i (Nat.le_of_succ_le_succ hi)
        rwa [Nat.add_right_comm] at this
    · rw [hlast, Nat.add_right_comm]
      rfl

/-- The descriptors of a whole body stand at its beginnings. -/
theorem Examines.stands {body : Bytes} {last : Nat} {ds : List Descriptor}
    (h : Examines body 0 ds last) :
    (∀ i ≤ ds.length, readAt? body (beginning body i) = ds[i]?) ∧
      last = beginning body ds.length := by
  have := Examines.getElem? (k := 0) h
  simpa only [Nat.zero_add] using this

end Descriptor

/-! ## What is collected -/

open Descriptor

/-- How an examination of a body ends that stops at an offset. -/
def Walk.endAt (declared : Nat) (body : Bytes) (stop : Nat) : Walk :=
  ⟨declared, stop, body.drop stop, if stop = declared then .done else .truncated⟩

theorem Walk.examines_collect {declared : Nat} {body : Bytes} (hbody : body.length ≤ declared)
    {offset : Nat} (hoffset : offset ≤ body.length) :
    ∃ stop ≤ body.length,
      Examines body offset (collect declared offset (body.drop offset)).1 stop ∧
        (collect declared offset (body.drop offset)).2 = endAt declared body stop := by
  generalize hrest : body.drop offset = rest
  have hlength : rest.length = body.length - offset := by rw [← hrest, List.length_drop]
  fun_induction collect declared offset rest with
  | case1 offset rest h =>
    refine ⟨offset, hoffset, .ends (readAt?_of_length (by omega)), ?_⟩
    rw [endAt, hrest, if_pos (by omega)]
  | case2 offset h b0 b1 x n tail hn =>
    refine ⟨offset, hoffset, .ends ?_, ?_⟩
    · rw [readAt?_of_drop hrest, if_pos hn]
    · rw [endAt, hrest, if_neg (by omega)]
  | case3 offset h b0 b1 x n tail hn d ds last hc ih =>
    have hread : readAt? body offset = some d := by rw [readAt?_of_drop hrest, if_neg hn]
    obtain ⟨-, hstop, -⟩ := readAt?_eq_some hread
    have hd : d.stop = offset + 4 + n.toNat := by
      simp only [stop, d, ofHeader, List.length_take]
      omega
    have hdrop : body.drop (offset + 4 + n.toNat) = tail.drop n.toNat := by
      rw [← List.drop_drop, ← List.drop_drop, hrest]
      rfl
    rw [← hd] at hdrop ih hc
    obtain ⟨stop, hle, hexamines, hlast⟩ := ih hstop hdrop (by rw [← hdrop, List.length_drop])
    rw [hc] at hexamines hlast
    exact ⟨stop, hle, .reads hread hexamines, hlast⟩
  | case4 offset rest h hshort =>
    have hrest4 : rest.length < 4 := by
      rcases rest with _ | ⟨b0, _ | ⟨b1, _ | ⟨x, _ | ⟨n, tail⟩⟩⟩⟩
      · simp
      · simp
      · simp
      · simp
      · exact absurd rfl (hshort b0 b1 x n tail)
    refine ⟨offset, hoffset, .ends (readAt?_of_length (by omega)), ?_⟩
    rw [endAt, hrest, if_neg (by omega)]

/-! ## Pages -/

namespace Page

/-- The header of an identification page gives the length of the body in its last two bytes. -/
theorem ofBytes_of_header {bytes : Bytes} (hlength : 4 ≤ bytes.length)
    (hcode : bytes[1]? = some 0x83) :
    ofBytes bytes = .ok ⟨Bytes.toNat ((bytes.drop 2).take 2),
      (bytes.drop 4).take (Bytes.toNat ((bytes.drop 2).take 2))⟩ := by
  match bytes, hlength, hcode with
  | first :: code :: high :: low :: rest, _, hcode =>
    simp only [List.getElem?_cons_succ, List.getElem?_cons_zero, Option.some.injEq] at hcode
    subst hcode
    simp [ofBytes, Bytes.toNat]

theorem length_body_le {bytes : Bytes} {page : Page} (h : ofBytes bytes = .ok page) :
    page.body.length ≤ page.declared := by
  unfold ofBytes at h
  split at h
  · split at h
    · cases h
      exact List.length_take_le _ _
    · cases h
  · cases h

/-- What a walk without a query finds on a page, and where it ends. -/
theorem examines_descriptors {page : Page} (h : page.body.length ≤ page.declared) :
    ∃ stop ≤ page.body.length, Examines page.body 0 page.descriptors stop ∧
      page.finish = Walk.endAt page.declared page.body stop :=
  Walk.examines_collect h (Nat.zero_le _)

theorem yields_walk (page : Page) (q : Query) :
    page.walk.Yields q (page.descriptors.filter q.accepts) page.finish :=
  Walk.yields_filter q page.declared 0 page.body

theorem yields_descriptors (page : Page) : page.walk.Yields {} page.descriptors page.finish :=
  Walk.yields_collect page.declared 0 page.body

end Page
end StorageAtlas
