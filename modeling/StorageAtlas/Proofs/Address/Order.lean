import Mathlib.Data.Int.Order.Basic
import Mathlib.Data.List.Lex
import StorageAtlas.Address.Basic

/-!
The order of addresses is the lexicographic order of their keys, so it is total
and transitive. Within one family the four numbers alone decide.
-/

namespace StorageAtlas.Address

theorem keyLt_iff (a b : List Int) : keyLt a b = true ↔ a < b := by
  induction a generalizing b with
  | nil => cases b <;> simp [keyLt]
  | cons x r ih =>
    cases b with
    | nil => simp [keyLt]
    | cons y s => simp [keyLt, ih, List.cons_lt_cons_iff]

theorem le_iff (a b : Address) : a.le b = true ↔ a.sortKey ≤ b.sortKey := by
  rw [← not_lt, ← keyLt_iff]
  simp [le, lt]

theorem le_total (a b : Address) : a.le b = true ∨ b.le a = true := by
  simp only [le_iff]
  exact LinearOrder.le_total a.sortKey b.sortKey

theorem le_trans (a b c : Address) (hab : a.le b = true) (hbc : b.le c = true) :
    a.le c = true := by
  simp only [le_iff] at hab hbc ⊢
  exact Preorder.le_trans _ _ _ hab hbc

/-- The family is compared first, so the numbers of two families are never compared. -/
theorem le_of_scsi_of_nvme {a b : Address} (ha : a.isNvme = false) (hb : b.isNvme = true) :
    a.le b = true := by
  rw [le_iff, sortKey, sortKey, ha, hb]
  exact le_of_lt (List.cons_lt_cons_iff.2 (.inl (by decide)))

/-- Host, channel, target and unit, which are compared in this order. -/
def numbers (a : Address) : List Int := [a.host, a.channel, a.target, a.lun]

theorem numbers_le_of_le {a b : Address} (h : a.le b = true) (hf : a.family = b.family) :
    a.numbers ≤ b.numbers := by
  have hk := (le_iff a b).1 h
  simp only [sortKey, isNvme, hf] at hk
  refine not_lt.1 fun hlt => ?_
  exact not_lt.2 hk (List.cons_lt_cons_iff.2 (.inr ⟨rfl, hlt⟩))

theorem le_of_numbers_eq {a b : Address} (h : a.numbers = b.numbers) (hf : a.family = b.family) :
    a.le b = true := by
  have hk : a.sortKey = b.sortKey := by
    simp only [sortKey, isNvme, hf]
    exact congrArg _ h
  rw [le_iff, hk]

end StorageAtlas.Address
