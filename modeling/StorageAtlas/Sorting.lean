/-!
Stable sorting by insertion: an element goes before the first one that is not
smaller. The result is a permutation, it is in order where the comparison is a
total order, and a filter may then be applied before or after.
-/

namespace StorageAtlas

variable {α : Type}

def insertBy (le : α → α → Bool) (a : α) : List α → List α
  | [] => [a]
  | b :: r => if le a b then a :: b :: r else b :: insertBy le a r

def sortBy (le : α → α → Bool) : List α → List α
  | [] => []
  | a :: r => insertBy le a (sortBy le r)

theorem insertBy_perm (le : α → α → Bool) (a : α) (l : List α) :
    (insertBy le a l).Perm (a :: l) := by
  induction l with
  | nil => exact .refl _
  | cons b r ih =>
    simp only [insertBy]
    split
    · exact .refl _
    · exact (ih.cons b).trans (.swap a b r)

theorem sortBy_perm (le : α → α → Bool) (l : List α) : (sortBy le l).Perm l := by
  induction l with
  | nil => exact .refl _
  | cons a r ih => exact (insertBy_perm le a _).trans (ih.cons a)

theorem mem_sortBy {le : α → α → Bool} {a : α} {l : List α} : a ∈ sortBy le l ↔ a ∈ l :=
  (sortBy_perm le l).mem_iff

theorem pairwise_insertBy {le : α → α → Bool} (total : ∀ a b, le a b = true ∨ le b a = true)
    (trans : ∀ a b c, le a b = true → le b c = true → le a c = true) (a : α) {l : List α}
    (h : l.Pairwise (le · · = true)) : (insertBy le a l).Pairwise (le · · = true) := by
  induction l with
  | nil => simp [insertBy]
  | cons b r ih =>
    obtain ⟨hb, hr⟩ := List.pairwise_cons.1 h
    by_cases hab : le a b = true
    · rw [insertBy, if_pos hab]
      apply List.pairwise_cons.2
      constructor
      · intro c hc
        rcases List.mem_cons.1 hc with rfl | hc
        · exact hab
        · exact trans a b c hab (hb c hc)
      · exact h
    · rw [insertBy, if_neg hab]
      apply List.pairwise_cons.2
      constructor
      · intro c hc
        rcases List.mem_cons.1 ((insertBy_perm le a r).mem_iff.1 hc) with rfl | hc
        · exact (total c b).resolve_left hab
        · exact hb c hc
      · exact ih hr

theorem pairwise_sortBy {le : α → α → Bool} (total : ∀ a b, le a b = true ∨ le b a = true)
    (trans : ∀ a b c, le a b = true → le b c = true → le a c = true) (l : List α) :
    (sortBy le l).Pairwise (le · · = true) := by
  induction l with
  | nil => exact .nil
  | cons a r ih => exact pairwise_insertBy total trans a ih

/-- An element that is not greater than any goes to the front. -/
theorem insertBy_of_le {le : α → α → Bool} {a : α} {l : List α} (h : ∀ b ∈ l, le a b = true) :
    insertBy le a l = a :: l := by
  cases l with
  | nil => rfl
  | cons b r => rw [insertBy, if_pos (h b (by simp))]

theorem filter_insertBy {le : α → α → Bool}
    (trans : ∀ a b c, le a b = true → le b c = true → le a c = true) (p : α → Bool) (a : α)
    {l : List α} (h : l.Pairwise (le · · = true)) :
    (insertBy le a l).filter p = if p a then insertBy le a (l.filter p) else l.filter p := by
  induction l with
  | nil => by_cases ha : p a <;> simp [insertBy, ha]
  | cons b r ih =>
    obtain ⟨hb, hr⟩ := List.pairwise_cons.1 h
    by_cases hab : le a b = true
    · have front : insertBy le a ((b :: r).filter p) = a :: (b :: r).filter p := by
        apply insertBy_of_le
        intro c hc
        rcases List.mem_cons.1 (List.mem_filter.1 hc).1 with rfl | hc
        · exact hab
        · exact trans a b c hab (hb c hc)
      rw [front, insertBy, if_pos hab]
      by_cases ha : p a <;> simp [ha, List.filter_cons]
    · rw [insertBy, if_neg hab, List.filter_cons, List.filter_cons, ih hr]
      by_cases ha : p a <;> by_cases hpb : p b <;> simp [ha, hpb, insertBy, hab]

/-- Sorting what is left is the same as leaving out what does not count after sorting. -/
theorem filter_sortBy {le : α → α → Bool} (total : ∀ a b, le a b = true ∨ le b a = true)
    (trans : ∀ a b c, le a b = true → le b c = true → le a c = true) (p : α → Bool) (l : List α) :
    (sortBy le l).filter p = sortBy le (l.filter p) := by
  induction l with
  | nil => rfl
  | cons a r ih =>
    rw [sortBy, filter_insertBy trans p a (pairwise_sortBy total trans r), ih, List.filter_cons]
    by_cases ha : p a <;> simp [ha, sortBy]

/-- Sorting changes nothing that is in order. -/
theorem sortBy_eq_self {le : α → α → Bool} {l : List α} (h : l.Pairwise (le · · = true)) :
    sortBy le l = l := by
  induction l with
  | nil => rfl
  | cons a r ih =>
    obtain ⟨ha, hr⟩ := List.pairwise_cons.1 h
    rw [sortBy, ih hr, insertBy_of_le ha]

/-- In order, the first element with a property is not greater than any other that has it. -/
theorem le_of_find?_sortBy {le : α → α → Bool} (total : ∀ a b, le a b = true ∨ le b a = true)
    (trans : ∀ a b c, le a b = true → le b c = true → le a c = true) {p : α → Bool} {l : List α}
    {a b : α} (h : (sortBy le l).find? p = some a) (hb : b ∈ l) (hpb : p b = true) :
    le a b = true := by
  obtain ⟨-, before, after, hsplit, hbefore⟩ := List.find?_eq_some_iff_append.1 h
  have hsorted := pairwise_sortBy total trans l
  have hmem : b ∈ sortBy le l := mem_sortBy.2 hb
  rw [hsplit] at hsorted hmem
  rcases List.mem_append.1 hmem with hmem | hmem
  · have hnot := hbefore b hmem
    simp [hpb] at hnot
  · rcases List.mem_cons.1 hmem with rfl | hmem
    · exact (total b b).elim id id
    · exact (List.pairwise_cons.1 (List.pairwise_append.1 hsorted).2.1).1 b hmem

theorem find?_sortBy_eq_some_iff {le : α → α → Bool}
    (total : ∀ a b, le a b = true ∨ le b a = true)
    (trans : ∀ a b c, le a b = true → le b c = true → le a c = true)
    (antisymm : ∀ a b, le a b = true → le b a = true → a = b) {p : α → Bool} {l : List α} {a : α} :
    (sortBy le l).find? p = some a ↔
      a ∈ l ∧ p a = true ∧ ∀ b ∈ l, p b = true → le a b = true := by
  constructor
  · intro h
    exact ⟨mem_sortBy.1 (List.mem_of_find?_eq_some h), List.find?_some h,
      fun b hb hpb => le_of_find?_sortBy total trans h hb hpb⟩
  · rintro ⟨ha, hpa, hleast⟩
    cases hfind : (sortBy le l).find? p with
    | none => exact absurd hpa (List.find?_eq_none.1 hfind a (mem_sortBy.2 ha))
    | some c =>
      have hca := le_of_find?_sortBy total trans hfind ha hpa
      have hac := hleast c (mem_sortBy.1 (List.mem_of_find?_eq_some hfind)) (List.find?_some hfind)
      exact congrArg some (antisymm c a hca hac)

/-- Where no two elements are tied, it does not matter in which order they come. -/
theorem sortBy_eq_of_perm {le : α → α → Bool} (total : ∀ a b, le a b = true ∨ le b a = true)
    (trans : ∀ a b c, le a b = true → le b c = true → le a c = true) {l m : List α}
    (untied : ∀ a ∈ l, ∀ b ∈ l, le a b = true → le b a = true → a = b) (h : l.Perm m) :
    sortBy le l = sortBy le m := by
  have hperm := (sortBy_perm le l).trans (h.trans (sortBy_perm le m).symm)
  refine hperm.eq_of_pairwise ?_ (pairwise_sortBy total trans l) (pairwise_sortBy total trans m)
  intro a b ha hb hab hba
  exact untied a (mem_sortBy.1 ha) b (h.mem_iff.2 (mem_sortBy.1 hb)) hab hba

/-- Elements that are all tied keep the order in which they came. -/
theorem filter_sortBy_of_tied {le : α → α → Bool} (total : ∀ a b, le a b = true ∨ le b a = true)
    (trans : ∀ a b c, le a b = true → le b c = true → le a c = true) {p : α → Bool} {l : List α}
    (tied : ∀ a ∈ l, ∀ b ∈ l, p a = true → p b = true → le a b = true) :
    (sortBy le l).filter p = l.filter p := by
  rw [filter_sortBy total trans]
  refine sortBy_eq_self (List.pairwise_of_forall_mem_list fun a ha b hb => ?_)
  obtain ⟨hal, hpa⟩ := List.mem_filter.1 ha
  obtain ⟨hbl, hpb⟩ := List.mem_filter.1 hb
  exact tied a hal b hbl hpa hpb

/-! ## Comparing by a key -/

variable {β : Type} {le : β → β → Bool}

theorem total_by (total : ∀ x y, le x y = true ∨ le y x = true) (key : α → β) (a b : α) :
    le (key a) (key b) = true ∨ le (key b) (key a) = true :=
  total (key a) (key b)

theorem trans_by (trans : ∀ x y z, le x y = true → le y z = true → le x z = true) (key : α → β)
    (a b c : α) : le (key a) (key b) = true → le (key b) (key c) = true →
      le (key a) (key c) = true :=
  trans (key a) (key b) (key c)

end StorageAtlas
