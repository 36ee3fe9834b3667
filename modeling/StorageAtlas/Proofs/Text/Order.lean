import Mathlib.Data.Char
import Mathlib.Data.List.Lex
import StorageAtlas.Text.Basic

/-!
Texts are compared as lists of characters are: by the first characters that
differ, and a text comes before those that it begins.
-/

namespace StorageAtlas.Text

theorem le_iff (a b : Text) : le a b = true ↔ a ≤ b := by
  rw [← not_lt]
  induction a generalizing b with
  | nil => simp [le]
  | cons c r ih =>
    cases b with
    | nil => simp [le]
    | cons d s =>
      have hlt : c.toNat < d.toNat ↔ c < d := Iff.rfl
      simp only [le, Bool.or_eq_true, Bool.and_eq_true, decide_eq_true_eq, ih, hlt,
        List.cons_lt_cons_iff, not_or, not_and]
      constructor
      · rintro (h | ⟨rfl, h⟩)
        · exact ⟨not_lt_of_gt h, fun e => absurd e (ne_of_gt h)⟩
        · exact ⟨lt_irrefl _, fun _ => h⟩
      · rintro ⟨hge, htail⟩
        rcases lt_or_eq_of_le (not_lt.1 hge) with h | h
        · exact .inl h
        · exact .inr ⟨h, htail h.symm⟩

theorem le_total (a b : Text) : le a b = true ∨ le b a = true := by
  simp only [le_iff]
  exact LinearOrder.le_total a b

theorem le_trans (a b c : Text) (hab : le a b = true) (hbc : le b c = true) : le a c = true := by
  simp only [le_iff] at hab hbc ⊢
  exact Preorder.le_trans a b c hab hbc

theorem le_append (a b : Text) : a ≤ a ++ b := by
  rw [← le_iff]
  induction a with
  | nil => rfl
  | cons c r ih => simp [le, ih]

end StorageAtlas.Text
