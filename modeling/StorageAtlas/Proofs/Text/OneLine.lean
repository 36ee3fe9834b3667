import StorageAtlas.Proofs.Text.Hexadecimal
import StorageAtlas.Text.Blank
import StorageAtlas.Text.Numeral

/-!
Line feeds in texts: texts that hold none, and the line feeds that stay when the blanks
at the end go.
-/

namespace StorageAtlas.Text

/-- Is it free of line feeds? -/
def OneLine (t : Text) : Prop := '\n' ∉ t

instance : DecidablePred OneLine := fun t => inferInstanceAs (Decidable ('\n' ∉ t))

variable {t u : Text}

@[simp] theorem oneLine_append : OneLine (t ++ u) ↔ OneLine t ∧ OneLine u := by
  simp only [OneLine, List.mem_append, not_or]

@[simp] theorem oneLine_cons {c : Char} : OneLine (c :: t) ↔ '\n' ≠ c ∧ OneLine t := by
  simp only [OneLine, List.mem_cons, not_or]

theorem OneLine.of_subset (h : OneLine t) (hsubset : u ⊆ t) : OneLine u :=
  fun hmem => h (hsubset hmem)

theorem OneLine.of_forall {p : Char → Prop} (h : ∀ c ∈ t, p c) (hfeed : ¬ p '\n') : OneLine t :=
  fun hmem => hfeed (h _ hmem)

theorem oneLine_upTo (t : Text) : OneLine (upTo '\n' t) := by
  refine .of_forall (p := fun c => c ≠ '\n') (fun c hc => ?_) (fun h => h rfl)
  simpa using List.mem_takeWhile_imp hc

theorem OneLine.getD {t : Option Text} (h : ∀ u, t = some u → OneLine u) :
    OneLine (t.getD []) := by
  cases t with
  | none => decide
  | some u => exact h u rfl

theorem oneLine_flatMap {α : Type} {l : List α} {f : α → Text} (h : ∀ a ∈ l, OneLine (f a)) :
    OneLine (l.flatMap f) := by
  intro hmem
  obtain ⟨a, ha, hfeed⟩ := List.mem_flatMap.1 hmem
  exact h a ha hfeed

theorem oneLine_getD {texts : List Text} (h : ∀ t ∈ texts, OneLine t) (n : Nat) {default : Text}
    (hdefault : OneLine default) : OneLine (texts.getD n default) := by
  rw [List.getD_eq_getElem?_getD]
  cases ht : texts[n]? with
  | none => exact hdefault
  | some t => exact h t (List.mem_of_getElem? ht)

/-! ## Numerals -/

theorem oneLine_decimal (n : Nat) : OneLine (decimal n) :=
  .of_forall (fun _ => isDigit_of_mem_decimal) (by decide)

theorem oneLine_signed (n : Int) : OneLine (signed n) := by
  cases n with
  | ofNat n => exact oneLine_decimal n
  | negSucc n => exact oneLine_cons.2 ⟨by decide, oneLine_decimal _⟩

theorem oneLine_hexadecimal (n : Nat) : OneLine (hexadecimal n) :=
  .of_forall (p := (· ≠ '\n')) (forall_mem_hexadecimal (by decide) n) (fun h => h rfl)

theorem oneLine_hex (bytes : Bytes) : OneLine (Bytes.hex bytes) :=
  .of_forall (p := (· ≠ '\n')) (Bytes.forall_mem_hex (by decide) bytes) (fun h => h rfl)

theorem oneLine_padZeros (h : OneLine t) (width : Nat) : OneLine (padZeros width t) :=
  .of_forall (fun _ => mem_padZeros) (not_or.2 ⟨by decide, h⟩)

/-! ## Blanks at the end -/

/-- Leaving out some of the blanks does not change where the end of the text is. -/
theorem trimEnd_filter {p : Char → Bool} (hp : ∀ c, isBlank c = false → p c = true) (t : Text) :
    trimEnd (t.filter p) = (trimEnd t).filter p := by
  have hdrop : ∀ u : Text, (u.filter p).dropWhile isBlank = (u.dropWhile isBlank).filter p := by
    intro u
    induction u with
    | nil => rfl
    | cons c rest ih =>
      cases hc : isBlank c with
      | true =>
        rw [List.dropWhile_cons_of_pos hc, ← ih, List.filter_cons]
        split
        · rw [List.dropWhile_cons_of_pos hc]
        · rfl
      | false =>
        have hkept := hp c hc
        rw [List.filter_cons_of_pos hkept, List.dropWhile_cons_of_neg (by simp [hc]),
          List.dropWhile_cons_of_neg (by simp [hc]), List.filter_cons_of_pos hkept]
  rw [trimEnd, trimEnd, dropEndWhile, dropEndWhile, ← List.filter_reverse, hdrop,
    List.filter_reverse]

/-- What stands before a character that is not blank stays. -/
theorem trimEnd_append (before : Text) {after : Text} (h : ∃ c ∈ after, isBlank c = false) :
    trimEnd (before ++ after) = before ++ trimEnd after := by
  have hsome : (after.reverse.dropWhile isBlank).isEmpty = false := by
    rw [List.isEmpty_eq_false_iff, Ne, List.dropWhile_eq_nil_iff]
    obtain ⟨c, hc, hvisible⟩ := h
    intro hblank
    rw [hblank c (List.mem_reverse.2 hc)] at hvisible
    cases hvisible
  rw [trimEnd, trimEnd, dropEndWhile, dropEndWhile, List.reverse_append, List.dropWhile_append,
    hsome, if_neg (by decide), List.reverse_append, List.reverse_reverse]

theorem trimEnd_subset (t : Text) : trimEnd t ⊆ t := by
  intro c hc
  exact List.mem_reverse.1 ((List.dropWhile_sublist _).subset (List.mem_reverse.1 hc))

/-- Line feeds before the end of a text are counted without regard to its spaces. -/
theorem count_feed_trimEnd_eq {t u : Text} (h : t.filter (· ≠ ' ') = u.filter (· ≠ ' ')) :
    (trimEnd t).count '\n' = (trimEnd u).count '\n' := by
  have hvisible : ∀ c, isBlank c = false → decide (c ≠ ' ') = true := by
    rintro c hc
    rw [decide_eq_true_eq]
    rintro rfl
    cases hc
  have hspaces : ∀ v : Text,
      (trimEnd v).count '\n' = (trimEnd (v.filter (· ≠ ' '))).count '\n' := by
    intro v
    rw [trimEnd_filter hvisible, List.count_filter (by decide)]
  rw [hspaces t, hspaces u, h]

theorem trim_subset (t : Text) : trim t ⊆ t := fun _ hc =>
  (List.dropWhile_sublist _).subset (trimEnd_subset _ hc)

end StorageAtlas.Text
