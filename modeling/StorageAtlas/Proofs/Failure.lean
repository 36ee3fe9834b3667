import StorageAtlas.ValueFault

/-!
When a computation fails. The numbers in names and a text that is put into a path are
all that can go wrong while a tree is listed, so a step is described by the condition
under which it fails, and the condition of a whole is put together from those of its
steps.
-/

namespace StorageAtlas

theorem exists_of_map_eq_ok {ε α β : Type} {x : Except ε α} {g : α → β} {b : β}
    (h : x.map g = .ok b) : ∃ a, x = .ok a ∧ g a = b := by
  cases x with
  | error e => cases h
  | ok a => exact ⟨a, rfl, Except.ok.inj h⟩

theorem bind_eq_ok_iff {ε α β : Type} {x : Except ε α} {f : α → Except ε β} {b : β} :
    (x >>= f) = .ok b ↔ ∃ a, x = .ok a ∧ f a = .ok b := by
  cases x with
  | error e => simp [bind, Except.bind]
  | ok a => simp [bind, Except.bind]

/-- A fault that something in a tree leads to: a text that is no numeral, or none for a path. -/
def ValueFault.IsOfTree (e : ValueFault) : Prop := e = .notANumeral ∨ e = .nullInPath

/-- A computation fails exactly under a condition, and only because of something in a tree. -/
structure FailsIff {α : Type} (x : Except ValueFault α) (p : Prop) : Prop where
  fault : ∀ e, x = .error e → e.IsOfTree
  fails_iff : (∃ e, x = .error e) ↔ p

namespace FailsIff

variable {α β : Type} {p q : Prop}

theorem congr {x : Except ValueFault α} (h : FailsIff x p) (hpq : p ↔ q) : FailsIff x q :=
  ⟨h.fault, h.fails_iff.trans hpq⟩

theorem ok (a : α) : FailsIff (.ok a) False := by
  refine ⟨?_, ?_, False.elim⟩
  · intro e he
    cases he
  · rintro ⟨e, he⟩
    cases he

theorem error {e : ValueFault} (he : e.IsOfTree) (h : p) :
    FailsIff (.error e : Except ValueFault α) p := by
  refine ⟨?_, fun _ => h, fun _ => ⟨e, rfl⟩⟩
  intro e' he'
  rwa [← Except.error.inj he']

/-- Reading fails where nothing is read. -/
theorem ofOption {o : Option β} {x : Except ValueFault α}
    (hsome : ∀ b, o = some b → FailsIff x False) (hnone : o = none → x = .error .notANumeral) :
    FailsIff x (o = none) := by
  cases o with
  | none =>
    rw [hnone rfl]
    exact error (.inl rfl) rfl
  | some b => exact (hsome b rfl).congr ⟨False.elim, fun h => by cases h⟩

theorem of_eq_error {x : Except ValueFault α} (h : FailsIff x p) {e : ValueFault}
    (he : x = .error e) : p :=
  h.fails_iff.1 ⟨e, he⟩

theorem not_of_eq_ok {x : Except ValueFault α} (h : FailsIff x p) {a : α} (ha : x = .ok a) :
    ¬p := by
  intro hp
  obtain ⟨e, he⟩ := h.fails_iff.2 hp
  rw [ha] at he
  cases he

/-- It gives a result in all other cases. -/
theorem exists_ok_iff {x : Except ValueFault α} (h : FailsIff x p) : (∃ a, x = .ok a) ↔ ¬p := by
  constructor
  · rintro ⟨a, ha⟩
    exact h.not_of_eq_ok ha
  · intro hp
    cases hx : x with
    | ok a => exact ⟨a, rfl⟩
    | error e => exact absurd (h.of_eq_error hx) hp

theorem bind {x : Except ValueFault α} {f : α → Except ValueFault β} (hx : FailsIff x p)
    (hf : ∀ a, FailsIff (f a) q) : FailsIff (x >>= f) (p ∨ q) := by
  cases h : x with
  | error e => exact error (hx.fault e h) (.inl (hx.of_eq_error h))
  | ok a =>
    have hp := hx.not_of_eq_ok h
    exact (hf a).congr ⟨.inr, fun hpq => hpq.resolve_left hp⟩

/-- What follows adds nothing if it cannot fail. -/
theorem bind_ok {x : Except ValueFault α} {f : α → Except ValueFault β} (hx : FailsIff x p)
    (hf : ∀ a, FailsIff (f a) False) : FailsIff (x >>= f) p :=
  (hx.bind hf).congr ⟨fun h => h.resolve_right id, .inl⟩

theorem map {x : Except ValueFault α} (hx : FailsIff x p) (f : α → β) : FailsIff (x.map f) p := by
  cases h : x with
  | error e => exact error (hx.fault e h) (hx.of_eq_error h)
  | ok a => exact (ok (f a)).congr ⟨False.elim, hx.not_of_eq_ok h⟩

/-- A choice of which one side cannot fail. -/
theorem ite {c : Prop} [Decidable c] {x y : Except ValueFault α} (hx : FailsIff x p)
    (hy : FailsIff y False) : FailsIff (if c then x else y) (c ∧ p) := by
  by_cases hc : c
  · rw [if_pos hc]
    exact hx.congr ⟨fun hp => ⟨hc, hp⟩, And.right⟩
  · rw [if_neg hc]
    exact hy.congr ⟨False.elim, fun h => hc h.1⟩

/-- A choice of which neither side can fail. -/
theorem either {c : Prop} [Decidable c] {x y : Except ValueFault α} (hx : FailsIff x False)
    (hy : FailsIff y False) : FailsIff (if c then x else y) False :=
  (ite hx hy).congr ⟨And.right, False.elim⟩

/-- A traversal fails at the first element that does. -/
theorem mapM {f : α → Except ValueFault β} {l : List α} {r : α → Prop}
    (hf : ∀ a ∈ l, FailsIff (f a) (r a)) : FailsIff (l.mapM f) (∃ a ∈ l, r a) := by
  induction l with
  | nil => exact (ok []).congr (by simp)
  | cons a rest ih =>
    rw [List.mapM_cons]
    have hrest := ih fun b hb => hf b (List.mem_cons_of_mem a hb)
    have hwhole := (hf a List.mem_cons_self).bind fun b =>
      hrest.bind fun bs => (ok (b :: bs))
    refine hwhole.congr ?_
    simp

end FailsIff
end StorageAtlas
