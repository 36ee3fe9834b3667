import StorageAtlas.Proofs.Report.SizeFigures

/-!
The order of written sizes. A text is read back as its number times its unit. No
size denotes more than itself, and a greater size never denotes less than a lesser
one. Within a unit this is the order of the numbers. From a unit to the next the
numbers do not matter: the one size is below the unit of the other, and the other
denotes one of its unit at least.
-/

namespace StorageAtlas.SizeScale

variable {scale : SizeScale} {a b n m : Nat}

/-! ## Reading a size back -/

/-- The value that a text denotes: the number at its front times the unit behind it. -/
def denoted? (scale : SizeScale) (t : Text) : Option ℚ := do
  let number ← PointNumeral.ofText? (t.takeWhile PointNumeral.isPart)
  let times ← scale.units.idxOf? (t.dropWhile PointNumeral.isPart)
  return number.value * scale.divisor ^ times

/-- A unit can be told from the number before it, and from the other units. -/
structure Readable (scale : SizeScale) : Prop where
  regular : scale.Regular
  nodup : scale.units.Nodup
  not_isPart : ∀ unit ∈ scale.units, unit.any PointNumeral.isPart = false

theorem readable_decimal : decimal.Readable := ⟨regular_decimal, by decide, by decide⟩

theorem readable_binary : binary.Readable := ⟨regular_binary, by decide, by decide⟩

theorem Readable.idxOf?_units (hscale : scale.Readable) {times : Nat}
    (h : times < scale.units.length) : scale.units.idxOf? scale.units[times] = some times := by
  rw [List.idxOf?_eq_some_iff]
  refine ⟨h, rfl, fun i hi heq => ?_⟩
  exact absurd ((hscale.nodup.getElem_inj_iff).1 heq) (Nat.ne_of_lt hi)

theorem denoted?_text_append (hscale : scale.Readable) (x : PointNumeral) {times : Nat}
    (h : times < scale.units.length) :
    scale.denoted? (x.text ++ scale.units.getD times []) = some (x.value * scale.divisor ^ times) := by
  have hnumber : ∀ c ∈ x.text, PointNumeral.isPart c = true := fun c hc => x.isPart_of_mem_text hc
  have hunit : ∀ c ∈ scale.units[times], ¬ PointNumeral.isPart c = true :=
    List.any_eq_false.1 (hscale.not_isPart _ (List.getElem_mem h))
  have htake : (scale.units[times]).takeWhile PointNumeral.isPart = [] :=
    List.takeWhile_eq_nil_iff.2 fun hl => hunit _ (List.get_mem _ _)
  have hdrop : (scale.units[times]).dropWhile PointNumeral.isPart = scale.units[times] :=
    List.dropWhile_eq_self_iff.2 fun hl => hunit _ (List.getElem_mem hl)
  rw [denoted?, List.getD_eq_getElem _ _ h, List.takeWhile_append_of_pos hnumber,
    List.dropWhile_append_of_pos hnumber, htake, hdrop, List.append_nil,
    PointNumeral.ofText?_text, hscale.idxOf?_units h]
  rfl

/-! ## What a size denotes -/

/-- A size that is not divided denotes itself, and any other its number in the unit that fits. -/
inductive Denotes (scale : SizeScale) (size : Nat) : ℚ → Prop where
  | whole (h : size < scale.divisor) : Denotes scale size size
  | divided {n : Nat} (h : Fits scale size n) :
    Denotes scale size ((figures scale size n).value * scale.divisor ^ (n + 1))

theorem exists_denotes (hscale : scale.Readable) (size : Nat) :
    ∃ v, scale.denoted? (scale.text size) = some v ∧ scale.Denotes size v := by
  rcases Nat.lt_or_ge size scale.divisor with hlt | hle
  · have htext : scale.text size =
        (PointNumeral.mk size 0).text ++ scale.units.getD 0 [] := by
      have hint : (size : Int) < scale.divisor := by omega
      rw [text, if_pos hint, PointNumeral.text_of_places_eq_zero _ rfl]
      cases scale.units with
      | nil => rfl
      | cons _ _ => rfl
    have hunits := hscale.regular.units
    refine ⟨_, ?_, .whole hlt⟩
    rw [htext, denoted?_text_append hscale _ (by omega)]
    simp [PointNumeral.value]
  · obtain ⟨n, hfits, htext⟩ := exists_text hscale.regular hle
    refine ⟨_, ?_, .divided hfits⟩
    rw [htext, denoted?_text_append hscale _ hfits.hasUnit]

theorem Denotes.le {v : ℚ} (h : scale.Denotes a v) : v ≤ a := by
  cases h with
  | whole _ => exact le_rfl
  | divided _ => exact value_le scale a _

/-! ## The order -/

/-- The number of a greater size is not less: before the point it is not, and where that makes no
difference both have the same places. -/
theorem value_mono (h : a ≤ b) (n : Nat) :
    (figures scale a n).value ≤ (figures scale b n).value := by
  have hwhole : (figures scale a n).whole ≤ (figures scale b n).whole := by
    rw [whole_figures, whole_figures]
    exact Nat.div_le_div_right h
  rcases Nat.lt_or_eq_of_le hwhole with hlt | heq
  · have hnext : ((figures scale a n).whole : ℚ) + 1 ≤ (figures scale b n).whole := by
      exact_mod_cast hlt
    calc (figures scale a n).value
        ≤ (figures scale a n).whole + 1 := le_of_lt (PointNumeral.value_lt_whole_add_one _)
      _ ≤ (figures scale b n).whole := hnext
      _ ≤ (figures scale b n).value := PointNumeral.whole_le_value _
  · rw [whole_figures, whole_figures] at heq
    have hcount : (figures scale a n).count ≤ (figures scale b n).count := by
      rw [figures, figures, heq]
      exact Nat.div_le_div_right (Nat.mul_le_mul_right _ (Nat.div_le_div_right h))
    have hplaces : (figures scale a n).places = (figures scale b n).places := by
      rw [figures, figures, heq]
    rw [PointNumeral.value, PointNumeral.value, hplaces]
    gcongr

/-- A size denotes one of its unit at least. -/
theorem Fits.pow_le_value (h : Fits scale a n) (hdivisor : 0 < scale.divisor) :
    ((scale.divisor ^ (n + 1) : Nat) : ℚ) ≤
      (figures scale a n).value * scale.divisor ^ (n + 1) := by
  have hone : (1 : ℚ) ≤ (figures scale a n).whole := by exact_mod_cast h.whole_pos hdivisor
  have hvalue : 1 ≤ (figures scale a n).value := le_trans hone (PointNumeral.whole_le_value _)
  push_cast
  exact le_mul_of_one_le_left (by positivity) hvalue

/-- A greater size has no lesser unit. -/
theorem Fits.times_le (ha : Fits scale a n) (hb : Fits scale b m) (hdivisor : 0 < scale.divisor)
    (h : a ≤ b) : n ≤ m := by
  by_contra hlt
  have hunits := ha.hasUnit
  have hnext : scale.divisor ^ (m + 2) ≤ scale.divisor ^ (n + 1) :=
    Nat.pow_le_pow_right hdivisor (by omega)
  have := ha.le
  have := hb.lt (by omega)
  omega

theorem Denotes.mono (hdivisor : 0 < scale.divisor) {v w : ℚ} (ha : scale.Denotes a v)
    (hb : scale.Denotes b w) (h : a ≤ b) : v ≤ w := by
  -- a size below the unit of a greater one cannot denote more than that one
  have hbelow : ∀ m, Fits scale b m → a ≤ scale.divisor ^ (m + 1) →
      v ≤ (figures scale b m).value * scale.divisor ^ (m + 1) := by
    intro m hm hle
    calc v ≤ (a : ℚ) := ha.le
      _ ≤ ((scale.divisor ^ (m + 1) : Nat) : ℚ) := by exact_mod_cast hle
      _ ≤ _ := hm.pow_le_value hdivisor
  cases hb with
  | whole hlt =>
    cases ha with
    | whole _ => exact_mod_cast h
    | divided hn => exact le_trans (value_le scale a _) (by exact_mod_cast h)
  | @divided m hm =>
    cases ha with
    | whole hlt =>
      apply hbelow m hm
      exact Nat.le_trans (Nat.le_of_lt hlt) (Nat.le_self_pow (Nat.succ_ne_zero m) _)
    | @divided n hn =>
      rcases Nat.lt_or_eq_of_le (hn.times_le hm hdivisor h) with hlt | rfl
      · apply hbelow m hm
        have hunits := hm.hasUnit
        have : scale.divisor ^ (n + 2) ≤ scale.divisor ^ (m + 1) :=
          Nat.pow_le_pow_right hdivisor (by omega)
        have := hn.lt (by omega)
        omega
      · exact mul_le_mul_of_nonneg_right (value_mono h n) (by positivity)

/-- In decimal and in binary units a size is written with a text that denotes no more than the size,
and no more than the text of any greater size. -/
theorem denoted_mono (hscale : scale = decimal ∨ scale = binary) (h : a ≤ b) :
    ∃ v w, scale.denoted? (scale.text a) = some v ∧ scale.denoted? (scale.text b) = some w ∧
      v ≤ w ∧ v ≤ a := by
  have hreadable : scale.Readable := by
    rcases hscale with rfl | rfl
    · exact readable_decimal
    · exact readable_binary
  obtain ⟨v, hv, ha⟩ := exists_denotes hreadable a
  obtain ⟨w, hw, hb⟩ := exists_denotes hreadable b
  exact ⟨v, w, hv, hw, ha.mono hreadable.regular.divisor_pos hb h, ha.le⟩

/-- The last size of a unit, written with four digits, and the first size of the next. -/
theorem denoted_mono_nextUnit :
    binary.text 1048575 = "1023KiB" ∧ binary.text 1048576 = "1.00MiB" ∧
      ∃ v w, binary.denoted? (binary.text (1048575 : Nat)) = some v ∧
        binary.denoted? (binary.text (1048576 : Nat)) = some w ∧ v ≤ w ∧ v ≤ (1048575 : Nat) :=
  ⟨by decide, by decide, denoted_mono (.inr rfl) (by decide : 1048575 ≤ 1048576)⟩

end StorageAtlas.SizeScale
