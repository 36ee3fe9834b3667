import StorageAtlas.Proofs.Identification.Examination

/-!
A walk that is asked for one descriptor after the other, beyond its end too. Each
request is answered by the next descriptor that the query accepts; the first one
that finds none says how the page ends, and nothing changes from then on. Neither
the place of the end nor what is said of it depends on the query.
-/

namespace StorageAtlas

namespace Walk

/-- A walk after so many requests. -/
def after (q : Query) : Nat → Walk → Walk
  | 0, w => w
  | n + 1, w => after q n (w.next q).2

/-! ## One request -/

theorem next_of_status_ne {w : Walk} (h : w.status ≠ .running) (q : Query) :
    w.next q = (none, w) := by
  unfold next
  split
  · contradiction
  · rfl

/-- A search that finds a descriptor goes on behind it; one that finds none has ended. -/
theorem seek_cases (q : Query) (declared offset : Nat) (rest : Bytes) :
    (∃ d w, seek q declared offset rest = (some d, w) ∧ w.offset = d.stop ∧
      w.status = .running) ∨
    ∃ w, seek q declared offset rest = (none, w) ∧ w.status ≠ .running := by
  fun_induction seek q declared offset rest with
  | case1 offset rest h => exact .inr ⟨_, rfl, by simp⟩
  | case2 offset h b0 b1 x n tail hn => exact .inr ⟨_, rfl, by simp⟩
  | case3 offset h b0 b1 x n tail hn d next ha =>
    refine .inl ⟨_, _, rfl, ?_, rfl⟩
    simp only [Descriptor.stop, d, Descriptor.ofHeader, List.length_take, next]
    omega
  | case4 offset h b0 b1 x n tail hn d next ha ih => exact ih
  | case5 offset rest h hx => exact .inr ⟨_, rfl, by simp⟩

theorem next_eq_some {q : Query} {w w' : Walk} {d : Descriptor} (h : w.next q = (some d, w')) :
    w.status = .running ∧ w'.status = .running ∧ w'.offset = d.stop := by
  by_cases hw : w.status = .running
  · simp only [next, hw] at h
    rcases seek_cases q w.declared w.offset w.rest with
      ⟨_, _, hseek, hoffset, hstatus⟩ | ⟨_, hseek, -⟩
    · rw [hseek] at h
      cases h
      exact ⟨hw, hstatus, hoffset⟩
    · rw [hseek] at h
      cases h
  · rw [next_of_status_ne hw] at h
    cases h

theorem status_ne_of_next_eq_none {q : Query} {w w' : Walk} (h : w.next q = (none, w')) :
    w'.status ≠ .running := by
  by_cases hw : w.status = .running
  · simp only [next, hw] at h
    rcases seek_cases q w.declared w.offset w.rest with
      ⟨_, _, hseek, -, -⟩ | ⟨_, hseek, hstatus⟩
    · rw [hseek] at h
      cases h
    · rw [hseek] at h
      cases h
      exact hstatus
  · rw [next_of_status_ne hw] at h
    cases h
    exact hw

/-! ## Many requests -/

theorem after_of_status_ne {w : Walk} (h : w.status ≠ .running) (q : Query) (n : Nat) :
    w.after q n = w := by
  induction n with
  | zero => rfl
  | succ n ih => rw [after, next_of_status_ne h, ih]

variable {q : Query} {w last : Walk} {ds : List Descriptor}

theorem Yields.answer (h : Yields q w ds last) (n : Nat) :
    ((w.after q n).next q).1 = ds[n]? := by
  induction h generalizing n with
  | finished hw =>
    cases n with
    | zero => simp [after, hw]
    | succ n =>
      have hlast := status_ne_of_next_eq_none hw
      rw [after, hw, after_of_status_ne hlast, next_of_status_ne hlast]
      simp
  | found hw rest ih =>
    cases n with
    | zero => simp [after, hw]
    | succ n =>
      rw [after, hw, List.getElem?_cons_succ]
      exact ih n

theorem Yields.after_eq (h : Yields q w ds last) {n : Nat} (hn : ds.length < n) :
    w.after q n = last := by
  induction h generalizing n with
  | finished hw =>
    cases n with
    | zero => contradiction
    | succ n => rw [after, hw, after_of_status_ne (status_ne_of_next_eq_none hw)]
  | found hw rest ih =>
    cases n with
    | zero => contradiction
    | succ n =>
      rw [after, hw]
      exact ih (Nat.lt_of_succ_lt_succ hn)

theorem Yields.status_after (h : Yields q w ds last) (hw : w.status = .running) {n : Nat}
    (hn : n ≤ ds.length) : (w.after q n).status = .running := by
  induction h generalizing n with
  | finished =>
    obtain rfl : n = 0 := Nat.le_zero.1 hn
    exact hw
  | found hnext rest ih =>
    cases n with
    | zero => exact hw
    | succ n =>
      rw [after, hnext]
      exact ih (next_eq_some hnext).2.1 (Nat.le_of_succ_le_succ hn)

theorem Yields.offset_after (h : Yields q w ds last) {n : Nat} {d : Descriptor}
    (hd : ds[n]? = some d) : (w.after q (n + 1)).offset = d.stop := by
  induction h generalizing n with
  | finished => simp at hd
  | found hnext rest ih =>
    cases n with
    | zero =>
      obtain rfl : _ = d := by simpa using hd
      rw [after, hnext]
      exact (next_eq_some hnext).2.2
    | succ n =>
      rw [after, hnext]
      exact ih (by simpa using hd)

end Walk

/-! ## Pages -/

namespace Page

open Descriptor

/-- How a page that holds these descriptors serves repeated requests with a query. -/
structure Serves (p : Page) (q : Query) (ds : List Descriptor) : Prop where
  /-- Those that the query accepts are given in order, one for each request, and nothing more. -/
  answer : ∀ n, ((p.walk.after q n).next q).1 = (ds.filter q.accepts)[n]?
  running : ∀ n ≤ (ds.filter q.accepts).length, (p.walk.after q n).status = .running
  /-- The walk stands behind the descriptor that it gave last. -/
  behind : ∀ n d, (ds.filter q.accepts)[n]? = some d → (p.walk.after q (n + 1)).offset = d.stop
  within : ∀ n, (p.walk.after q n).offset ≤ p.body.length
  /-- A walk that has no more to give has come to the end of the descriptors, accepted or not, and
  says whether they fill the page. -/
  ended : ∀ n, (ds.filter q.accepts).length < n →
    (p.walk.after q n).offset = beginning p.body ds.length ∧
      (p.walk.after q n).status =
        if beginning p.body ds.length = p.declared then .done else .truncated
  stays : ∀ n, (p.walk.after q n).status ≠ .running →
    (p.walk.after q n).next q = (none, p.walk.after q n)

theorem serves_descriptors {p : Page} (h : p.body.length ≤ p.declared) (q : Query) :
    p.Serves q p.descriptors := by
  have hyields := p.yields_walk q
  obtain ⟨stop, hstop, hexamines, hfinish⟩ := examines_descriptors h
  have hended {n : Nat} (hn : (p.descriptors.filter q.accepts).length < n) :
      p.walk.after q n = Walk.endAt p.declared p.body stop := by
    rw [hyields.after_eq hn, hfinish]
  exact {
    answer := hyields.answer
    running := fun n hn => hyields.status_after rfl hn
    behind := fun n d hd => hyields.offset_after hd
    within := by
      intro n
      rcases Nat.lt_or_ge (p.descriptors.filter q.accepts).length n with hn | hn
      · rw [hended hn]
        exact hstop
      · cases n with
        | zero => exact Nat.zero_le _
        | succ n =>
          rw [hyields.offset_after (List.getElem?_eq_getElem hn)]
          exact hexamines.stop_le _ (List.mem_filter.1 (List.getElem_mem hn)).1
    ended := by
      intro n hn
      rw [hended hn, ← hexamines.stands.2]
      exact ⟨rfl, rfl⟩
    stays := fun n hn => Walk.next_of_status_ne hn q }

/-- The descriptors of a page stand at the beginnings in its body, up to the first at which none
stands, and they are what the page serves to every query. -/
structure Holds (p : Page) (ds : List Descriptor) : Prop where
  stands : ∀ i ≤ ds.length, readAt? p.body (beginning p.body i) = ds[i]?
  serves : ∀ q, p.Serves q ds

theorem Holds.length_eq {p : Page} {ds : List Descriptor} (h : p.Holds ds) {n : Nat}
    (hsome : ∀ i < n, (readAt? p.body (beginning p.body i)).isSome)
    (hnone : readAt? p.body (beginning p.body n) = none) : ds.length = n := by
  rcases Nat.lt_trichotomy ds.length n with hlt | heq | hgt
  · have := hsome ds.length hlt
    rw [h.stands ds.length (Nat.le_refl _)] at this
    simp at this
  · exact heq
  · have := h.stands n (Nat.le_of_lt hgt)
    rw [hnone, eq_comm, List.getElem?_eq_none_iff] at this
    omega

/-- Every page with the header of an identification page holds a list of descriptors. -/
theorem holds_of_header {bytes : Bytes} (hlength : 4 ≤ bytes.length)
    (hcode : bytes[1]? = some 0x83) :
    ∃ page ds, ofBytes bytes = .ok page ∧
      page.declared = Bytes.toNat ((bytes.drop 2).take 2) ∧
      page.body = (bytes.drop 4).take page.declared ∧ page.Holds ds := by
  have hpage := ofBytes_of_header hlength hcode
  have hbody := length_body_le hpage
  obtain ⟨stop, -, hexamines, -⟩ := examines_descriptors hbody
  exact ⟨_, _, hpage, rfl, rfl, hexamines.stands.1, serves_descriptors hbody⟩

/-- A page of twenty bytes, of which one descriptor and three further bytes are there. -/
def leftover : Bytes := [0, 0x83, 0, 20, 0x01, 0x03, 0, 2, 0xaa, 0xbb, 0x02, 0x01, 0]

theorem holds_leftover :
    4 ≤ leftover.length ∧ leftover[1]? = some 0x83 ∧
      ∃ page, ofBytes leftover = .ok page ∧ page.Holds [⟨0, 0, 1, false, 0, 3, [0xaa, 0xbb]⟩] ∧
        ∀ q, (page.walk.after q 2).offset = 6 ∧ (page.walk.after q 2).status = .truncated := by
  have hlength : 4 ≤ leftover.length := by decide
  have hcode : leftover[1]? = some 0x83 := by decide
  obtain ⟨page, ds, hpage, hdeclared, hbody, hholds⟩ := holds_of_header hlength hcode
  have hdeclared20 : page.declared = 20 := hdeclared
  have hbody9 : page.body = [0x01, 0x03, 0, 2, 0xaa, 0xbb, 0x02, 0x01, 0] := by
    rw [hbody, hdeclared20]
    rfl
  have hds : ds.length = 1 := by
    apply hholds.length_eq
    · intro i hi
      obtain rfl : i = 0 := by omega
      rw [hbody9]
      rfl
    · rw [hbody9]
      rfl
  obtain ⟨d, rfl⟩ := List.length_eq_one_iff.1 hds
  have hfirst := hholds.stands 0 (Nat.zero_le _)
  rw [hbody9] at hfirst
  obtain rfl : _ = d := Option.some.inj hfirst
  refine ⟨hlength, hcode, page, hpage, hholds, fun q => ?_⟩
  have hended := (hholds.serves q).ended 2 (Nat.lt_succ_of_le (List.length_filter_le _ _))
  rw [hbody9, hdeclared20] at hended
  exact hended

end Page
end StorageAtlas
