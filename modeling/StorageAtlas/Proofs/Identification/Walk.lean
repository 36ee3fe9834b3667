import StorageAtlas.Identification.Descriptor

/-!
A walk is asked for one descriptor at a time. What it gives until it has no more
is the list that `Walk.collect` takes in one go, and it always comes to an end.
-/

namespace StorageAtlas.Walk

/-- Asked again and again, a walk gives these descriptors, and then no more; it ends as `last`. -/
inductive Yields (q : Query) : Walk → List Descriptor → Walk → Prop where
  | finished {w last : Walk} (h : w.next q = (none, last)) : Yields q w [] last
  | found {w w' last : Walk} {d : Descriptor} {ds : List Descriptor}
      (h : w.next q = (some d, w')) (rest : Yields q w' ds last) : Yields q w (d :: ds) last

theorem Yields.unique {q : Query} {w last last' : Walk} {ds ds' : List Descriptor}
    (h : Yields q w ds last) (h' : Yields q w ds' last') : ds = ds' ∧ last = last' := by
  induction h generalizing ds' last' with
  | finished hw =>
    cases h' with
    | finished hw' =>
      rw [hw] at hw'
      exact ⟨rfl, (Prod.mk.inj hw').2⟩
    | found hw' rest' =>
      rw [hw] at hw'
      cases hw'
  | found hw rest ih =>
    cases h' with
    | finished hw' =>
      rw [hw] at hw'
      cases hw'
    | found hw' rest' =>
      rw [hw] at hw'
      cases hw'
      obtain ⟨rfl, rfl⟩ := ih rest'
      exact ⟨rfl, rfl⟩

theorem accepts_open (d : Descriptor) : Query.accepts {} d = true := rfl

/-- Where a walk that is asked goes on is all that matters for what it gives. -/
theorem Yields.of_next_eq {q : Query} {w w' last : Walk} {ds : List Descriptor}
    (h : Yields q w' ds last) (hnext : w.next q = w'.next q) : Yields q w ds last := by
  cases h with
  | finished hw => exact .finished (hnext.trans hw)
  | found hw rest => exact .found (hnext.trans hw) rest

/-- A walk gives those of the collected descriptors that its query accepts, and it ends where the
collecting ends, whatever the query. -/
theorem yields_filter (q : Query) (declared offset : Nat) (rest : Bytes) :
    Yields q ⟨declared, offset, rest, .running⟩
      ((collect declared offset rest).1.filter q.accepts) (collect declared offset rest).2 := by
  fun_induction collect declared offset rest with
  | case1 offset rest h =>
    apply Yields.finished
    simp only [next]
    unfold seek
    simp [h]
  | case2 offset h b0 b1 x n tail hn =>
    apply Yields.finished
    simp [next, seek, h, hn]
  | case3 offset h b0 b1 x n tail hn d ds last hc ih =>
    rw [hc] at ih
    by_cases ha : q.accepts d = true
    · rw [List.filter_cons_of_pos ha]
      apply Yields.found (d := d) _ ih
      simp only [d] at ha
      simp [next, seek, h, hn, ha, d]
    · -- the walk passes over the descriptor, as if it had been asked behind it
      rw [List.filter_cons_of_neg ha]
      apply ih.of_next_eq
      simp only [d] at ha
      simp only [next]
      rw [seek]
      simp [h, hn, ha]
  | case4 offset rest h hx =>
    apply Yields.finished
    rw [next, seek]
    · simp [h]
    · exact hx

/-- A walk without a query gives everything that is collected. -/
theorem yields_collect (declared offset : Nat) (rest : Bytes) :
    Yields {} ⟨declared, offset, rest, .running⟩ (collect declared offset rest).1
      (collect declared offset rest).2 := by
  have h := yields_filter {} declared offset rest
  rwa [List.filter_eq_self.2 fun d _ => accepts_open d] at h

/-- The walk ends where the page ends, or where a length leads beyond it. -/
theorem status_collect (declared offset : Nat) (rest : Bytes) :
    (collect declared offset rest).2.status = .done ∨
      (collect declared offset rest).2.status = .truncated := by
  fun_induction collect declared offset rest with
  | case1 => left; rfl
  | case2 => right; rfl
  | case3 offset h b0 b1 x n tail hn d ds last hc ih =>
    rw [hc] at ih
    exact ih
  | case4 => right; rfl

end StorageAtlas.Walk
