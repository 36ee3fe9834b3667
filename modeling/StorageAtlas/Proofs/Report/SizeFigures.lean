import StorageAtlas.Proofs.Report.SizeLoops
import StorageAtlas.Proofs.Text.PointNumeral

/-!
The number and the unit with which a size is written. What is written differs from
the size by what was cut off, and that comes from two places: the last division
is cut behind three figures, and what the divisions before it left is not looked
at again. In decimal units both together are less than a unit of the last place,
so the number is the size cut off exactly. In binary units they can be more.
-/

namespace StorageAtlas.SizeScale

/-- The units follow each other at a distance that leaves room for two decimals. -/
structure Regular (scale : SizeScale) : Prop where
  divisor : 100 ≤ scale.divisor
  units : 1 < scale.units.length

theorem Regular.divisor_pos {scale : SizeScale} (h : scale.Regular) : 0 < scale.divisor :=
  Nat.lt_of_lt_of_le (by decide) h.divisor

theorem regular_decimal : decimal.Regular := ⟨by decide, by decide⟩

theorem regular_binary : binary.Regular := ⟨by decide, by decide⟩

variable {scale : SizeScale} {size n : Nat}

/-! ## The unit -/

/-- Is it right to divide once after `n` other divisions, and then no more? -/
structure Fits (scale : SizeScale) (size n : Nat) : Prop where
  le : scale.divisor ^ (n + 1) ≤ size
  hasUnit : n + 1 < scale.units.length
  lt : n + 2 < scale.units.length → size < scale.divisor ^ (n + 2)

/-- A size after these divisions: as many decimals as make up three figures, counted by the last
one and cut off behind them. -/
def figures (scale : SizeScale) (size n : Nat) : PointNumeral where
  count := size / scale.divisor ^ n * 10 ^ decimals (size / scale.divisor ^ (n + 1)) / scale.divisor
  places := decimals (size / scale.divisor ^ (n + 1))

theorem decimals_cases (n : Nat) :
    n < 10 ∧ decimals n = 2 ∨ 10 ≤ n ∧ n < 100 ∧ decimals n = 1 ∨ 100 ≤ n ∧ decimals n = 0 := by
  unfold decimals
  split
  · omega
  · split
    · omega
    · omega

theorem whole_figures : (figures scale size n).whole = size / scale.divisor ^ (n + 1) := by
  have hpow : 0 < 10 ^ decimals (size / scale.divisor ^ (n + 1)) := Nat.pow_pos (by decide)
  rw [PointNumeral.whole, figures, Nat.div_div_eq_div_mul, Nat.mul_div_mul_right _ _ hpow,
    Nat.div_div_eq_div_mul, Nat.pow_succ]

/-- A size is never written with a zero before the point. -/
theorem Fits.whole_pos (h : Fits scale size n) (hdivisor : 0 < scale.divisor) :
    1 ≤ (figures scale size n).whole := by
  rw [whole_figures]
  exact Nat.div_pos h.le (Nat.pow_pos hdivisor)

/-- The part of a scaled quotient that the scale does not reach is what the remainder gives. -/
theorem mul_div_mod {q p d : Nat} (hd : 0 < d) : q * p / d % p = q % d * p / d := by
  rcases Nat.eq_zero_or_pos p with rfl | hp
  · simp
  · have hsplit : q * p = d * (q / d * p) + q % d * p := by
      calc q * p = (d * (q / d) + q % d) * p := by rw [Nat.div_add_mod]
        _ = d * (q / d * p) + q % d * p := by rw [Nat.add_mul, Nat.mul_assoc]
    have hlt : q % d * p / d < p := by
      rw [Nat.div_lt_iff_lt_mul hd, Nat.mul_comm p d]
      exact Nat.mul_lt_mul_of_pos_right (Nat.mod_lt q hd) hp
    rw [hsplit, Nat.mul_add_div hd, Nat.mul_comm (q / d) p, Nat.mul_add_mod, Nat.mod_eq_of_lt hlt]

/-- Cutting off a fraction with three decimals leaves the fraction with fewer. -/
theorem take_fraction {divisor remainder digits : Nat} (hdigits : 0 < digits) (hle : digits ≤ 3)
    (h : remainder < divisor) :
    (Text.padZeros 3 (Text.decimal (remainder * 1000 / divisor))).take digits =
      Text.padZeros digits (Text.decimal (remainder * 10 ^ digits / divisor)) := by
  obtain ⟨more, hmore⟩ := Nat.exists_eq_add_of_le hle
  have hthousand : 1000 = 10 ^ digits * 10 ^ more := by
    rw [← Nat.pow_add, ← hmore]
  have hlt : remainder * 1000 / divisor < 10 ^ (digits + more) := by
    rw [← hmore, Nat.div_lt_iff_lt_mul (by omega)]
    omega
  have hcut : remainder * 1000 / divisor / 10 ^ more = remainder * 10 ^ digits / divisor := by
    rw [hthousand, ← Nat.mul_assoc, Nat.div_div_eq_div_mul,
      Nat.mul_div_mul_right _ _ (Nat.pow_pos (by decide))]
  rw [← hcut, ← Text.take_padZeros_decimal hdigits more hlt, ← hmore]

theorem text_figures (hdivisor : 0 < scale.divisor) (size n : Nat) :
    Text.decimal (size / scale.divisor ^ (n + 1)) ++
        fraction scale.divisor (size / scale.divisor ^ n % scale.divisor)
          (decimals (size / scale.divisor ^ (n + 1))) =
      (figures scale size n).text := by
  rw [PointNumeral.text, whole_figures, fraction]
  congr 1
  show (if decimals (size / scale.divisor ^ (n + 1)) = 0 then _ else _) =
    if decimals (size / scale.divisor ^ (n + 1)) = 0 then _ else _
  split
  · rfl
  · rename_i hdigits
    have hle : decimals (size / scale.divisor ^ (n + 1)) ≤ 3 := by
      rcases decimals_cases (size / scale.divisor ^ (n + 1)) with h | h | h <;> omega
    rw [take_fraction (Nat.pos_of_ne_zero hdigits) hle (Nat.mod_lt _ hdivisor),
      PointNumeral.fraction, figures, mul_div_mod hdivisor]

/-- A size from the second unit on is written with the unit that fits and three figures. -/
theorem exists_text (hscale : scale.Regular) (h : scale.divisor ≤ size) :
    ∃ n, Fits scale size n ∧
      scale.text size = (figures scale size n).text ++ scale.units.getD (n + 1) [] := by
  have hdivisor := hscale.divisor_pos
  obtain ⟨x, -, hof, hend, hreduce⟩ := exists_reduce hdivisor (show 0 < size by omega)
  obtain ⟨n, hn⟩ : ∃ n, x.times = n + 1 := by
    -- it is divided at least once
    apply Nat.exists_eq_succ_of_ne_zero
    intro hzero
    have hleft := hof.left
    rw [hzero, Nat.pow_zero, Nat.div_one] at hleft
    have hunits := hscale.units
    omega
  have hleft := hof.left
  have hremainder := hof.remainder n hn
  have hle := hof.le
  have htimes := hof.times_le
  rw [hn] at hleft hle htimes hend
  refine ⟨n, ⟨hle, by omega, ?_⟩, ?_⟩
  · intro hmore
    have hlt : x.left < scale.divisor := by omega
    rw [hleft, Nat.div_lt_iff_lt_mul (Nat.pow_pos hdivisor), ← Nat.pow_succ'] at hlt
    exact hlt
  · have hnot : ¬ (size : Int) < scale.divisor := by omega
    rw [text, if_neg hnot, Int.toNat_natCast, hreduce, ← text_figures hdivisor size n, ← hleft,
      ← hremainder, ← hn]

/-! ## What is cut off -/

/-- What the last division leaves behind the last place. -/
def lastRest (scale : SizeScale) (size n : Nat) : Nat :=
  size / scale.divisor ^ n * 10 ^ (figures scale size n).places % scale.divisor

/-- What is cut off a size, in parts of which a unit of the last place has as many as the unit of the
size has bytes: what the last division leaves behind the last place, and what the divisions before
it left. -/
def cutOff (scale : SizeScale) (size n : Nat) : Nat :=
  lastRest scale size n * scale.divisor ^ n +
    size % scale.divisor ^ n * 10 ^ (figures scale size n).places

theorem count_add_cutOff (scale : SizeScale) (size n : Nat) :
    (figures scale size n).count * scale.divisor ^ (n + 1) + cutOff scale size n =
      size * 10 ^ (figures scale size n).places := by
  have hlast : scale.divisor * (figures scale size n).count + lastRest scale size n =
      size / scale.divisor ^ n * 10 ^ (figures scale size n).places := Nat.div_add_mod _ _
  have hearlier := Nat.div_add_mod size (scale.divisor ^ n)
  rw [cutOff]
  generalize (figures scale size n).places = places at hlast ⊢
  calc (figures scale size n).count * scale.divisor ^ (n + 1) +
        (lastRest scale size n * scale.divisor ^ n + size % scale.divisor ^ n * 10 ^ places)
      = (scale.divisor * (figures scale size n).count + lastRest scale size n) *
            scale.divisor ^ n + size % scale.divisor ^ n * 10 ^ places := by ring
    _ = (scale.divisor ^ n * (size / scale.divisor ^ n) + size % scale.divisor ^ n) *
          10 ^ places := by
      rw [hlast]
      ring
    _ = size * 10 ^ places := by rw [hearlier]

/-- What the divisions before the last left is less than one part of what that one divides. -/
theorem cutOff_lt (hdivisor : 0 < scale.divisor) (size n : Nat) :
    cutOff scale size n <
      (lastRest scale size n + 10 ^ (figures scale size n).places) * scale.divisor ^ n := by
  have hearlier : size % scale.divisor ^ n < scale.divisor ^ n :=
    Nat.mod_lt _ (Nat.pow_pos hdivisor)
  have hplaces : 0 < 10 ^ (figures scale size n).places := Nat.pow_pos (by decide)
  rw [cutOff, Nat.add_mul]
  apply Nat.add_lt_add_left
  rw [Nat.mul_comm]
  exact Nat.mul_lt_mul_of_pos_left hearlier hplaces

theorem cutOff_lt_of_le (hdivisor : 0 < scale.divisor) {m : Nat}
    (h : lastRest scale size n + 10 ^ (figures scale size n).places ≤ m * scale.divisor) :
    cutOff scale size n < m * scale.divisor ^ (n + 1) := by
  apply Nat.lt_of_lt_of_le (cutOff_lt hdivisor size n)
  rw [Nat.pow_succ', ← Nat.mul_assoc]
  exact Nat.mul_le_mul_right _ h

/-- Nothing that is cut off reaches the last place if the places divide the divisor. -/
theorem cutOff_lt_of_dvd (hdivisor : 0 < scale.divisor)
    (h : 10 ^ (figures scale size n).places ∣ scale.divisor) :
    cutOff scale size n < scale.divisor ^ (n + 1) := by
  have hlt : lastRest scale size n < scale.divisor := Nat.mod_lt _ hdivisor
  have hrest : 10 ^ (figures scale size n).places ∣ lastRest scale size n :=
    (Nat.dvd_mod_iff h).2 (Nat.dvd_mul_left _ _)
  rw [← Nat.one_mul (scale.divisor ^ (n + 1))]
  apply cutOff_lt_of_le hdivisor
  -- of two multiples of the places, the lesser is less by the places at least
  obtain ⟨a, ha⟩ := hrest
  obtain ⟨b, hb⟩ := h
  rw [ha, Nat.one_mul]
  rw [ha, hb] at hlt
  rw [hb, ← Nat.mul_succ]
  exact Nat.mul_le_mul_left _ (Nat.lt_of_mul_lt_mul_left hlt)

/-- Without divisions before the last one nothing but its rest is cut off. -/
theorem cutOff_lt_of_zero (hdivisor : 0 < scale.divisor) (size : Nat) :
    cutOff scale size 0 < scale.divisor ^ 1 := by
  have hlt : lastRest scale size 0 < scale.divisor := Nat.mod_lt _ hdivisor
  rw [cutOff, Nat.pow_zero, Nat.mod_one, Nat.zero_mul, Nat.add_zero, Nat.mul_one,
    Nat.pow_one]
  exact hlt

/-- What is cut off is less than two units of the last place. -/
theorem cutOff_lt_two_mul (hscale : scale.Regular) (size n : Nat) :
    cutOff scale size n < 2 * scale.divisor ^ (n + 1) := by
  have hdivisor := hscale.divisor_pos
  have hlt : lastRest scale size n < scale.divisor := Nat.mod_lt _ hdivisor
  have hplaces : 10 ^ (figures scale size n).places ≤ 100 := by
    show 10 ^ decimals _ ≤ 100
    rcases decimals_cases (size / scale.divisor ^ (n + 1)) with h | h | h <;> simp [h]
  have hle := hscale.divisor
  apply cutOff_lt_of_le hdivisor
  omega

/-! ## Size and number -/

/-- A size is what its number stands for, and what is cut off. -/
theorem size_eq (scale : SizeScale) (size n : Nat) :
    (size : ℚ) = (figures scale size n).value * scale.divisor ^ (n + 1) +
      (figures scale size n).lastUnit * cutOff scale size n := by
  have hsplit : ((figures scale size n).count * scale.divisor ^ (n + 1) +
      cutOff scale size n : ℚ) = size * 10 ^ (figures scale size n).places := by
    exact_mod_cast count_add_cutOff scale size n
  have hplaces : (10 : ℚ) ^ (figures scale size n).places ≠ 0 := by positivity
  rw [PointNumeral.value, PointNumeral.lastUnit]
  field_simp
  linarith

theorem value_le (scale : SizeScale) (size n : Nat) :
    (figures scale size n).value * scale.divisor ^ (n + 1) ≤ (size : ℚ) := by
  have hnonneg : 0 ≤ (figures scale size n).lastUnit * cutOff scale size n := by
    rw [PointNumeral.lastUnit]
    positivity
  rw [size_eq scale size n]
  linarith

/-- So many units of the last place are missing at most as fit into what is cut off. -/
theorem lt_value_iff (scale : SizeScale) (size n m : Nat) :
    (size : ℚ) < ((figures scale size n).value + m * (figures scale size n).lastUnit) *
        scale.divisor ^ (n + 1) ↔ cutOff scale size n < m * scale.divisor ^ (n + 1) := by
  have hunit : 0 < (figures scale size n).lastUnit := by
    rw [PointNumeral.lastUnit]
    positivity
  have hsplit : ((figures scale size n).value + m * (figures scale size n).lastUnit) *
        scale.divisor ^ (n + 1) =
      (figures scale size n).value * scale.divisor ^ (n + 1) +
        (figures scale size n).lastUnit * ((m * scale.divisor ^ (n + 1) : Nat) : ℚ) := by
    push_cast
    ring
  rw [hsplit, size_eq scale size n, add_lt_add_iff_left, mul_lt_mul_iff_right₀ hunit, Nat.cast_lt]

/-! ## What a text shows -/

/-- A size is written with a number and the `k`-th unit, which is the one that fits, and the number
has as many decimals as its part before the point asks for. -/
structure Shows (scale : SizeScale) (size : Int) (x : PointNumeral) (k : Nat) : Prop where
  divided : 1 ≤ k
  text : ∃ unit, scale.units[k]? = some unit ∧ scale.text size = x.text ++ unit
  unit_le : (scale.divisor : Int) ^ k ≤ size
  lt_unit : size < (scale.divisor : Int) ^ (k + 1)
  places : 1 ≤ x.whole ∧ x.whole ≤ 9 ∧ x.places = 2 ∨ 10 ≤ x.whole ∧ x.whole ≤ 99 ∧ x.places = 1 ∨
    100 ≤ x.whole ∧ x.places = 0

/-- A number is a size in a unit cut off behind its last place: the next one would be too much. -/
structure Truncates (scale : SizeScale) (size : Int) (x : PointNumeral) (k : Nat) : Prop where
  le : x.value * scale.divisor ^ k ≤ size
  lt : size < (x.value + x.lastUnit) * scale.divisor ^ k

/-- Every size below one that would need a further unit is shown. -/
theorem exists_shows (hscale : scale.Regular) {size : Int} (hle : scale.divisor ≤ size)
    (hlt : size < scale.divisor ^ scale.units.length) :
    ∃ n, scale.Shows size (figures scale size.toNat n) (n + 1) := by
  obtain ⟨bytes, rfl⟩ := Int.eq_ofNat_of_zero_le (show 0 ≤ size by omega)
  obtain ⟨n, hfits, htext⟩ := exists_text hscale (show scale.divisor ≤ bytes by omega)
  have hwhole := hfits.whole_pos hscale.divisor_pos
  refine ⟨n, Nat.le_add_left 1 n, ⟨scale.units.getD (n + 1) [], ?_, htext⟩, ?_, ?_, ?_⟩
  · rw [List.getD_eq_getElem _ _ hfits.hasUnit]
    exact List.getElem?_eq_getElem hfits.hasUnit
  · exact_mod_cast hfits.le
  · rcases Nat.lt_or_ge (n + 2) scale.units.length with hmore | hlast
    · exact_mod_cast hfits.lt hmore
    · have hunits : scale.units.length = n + 1 + 1 := Nat.le_antisymm hlast hfits.hasUnit
      rw [← hunits]
      exact_mod_cast hlt
  · have hplaces : (figures scale bytes n).places = decimals (figures scale bytes n).whole := by
      rw [whole_figures]
      rfl
    rw [Int.toNat_natCast, hplaces]
    rcases decimals_cases (figures scale bytes n).whole with h | h | h <;> omega

theorem truncates_iff (scale : SizeScale) {size : Int} (h : 0 ≤ size) (n : Nat) :
    scale.Truncates size (figures scale size.toNat n) (n + 1) ↔
      cutOff scale size.toNat n < scale.divisor ^ (n + 1) := by
  obtain ⟨bytes, rfl⟩ := Int.eq_ofNat_of_zero_le h
  have hiff := lt_value_iff scale bytes n 1
  rw [Nat.cast_one, one_mul, Nat.one_mul] at hiff
  rw [Int.toNat_natCast, ← hiff]
  constructor
  · intro htruncates
    exact_mod_cast htruncates.lt
  · intro hlt
    exact ⟨by exact_mod_cast value_le scale bytes n, by exact_mod_cast hlt⟩

/-- Exactly three digits are written, and the first one is not zero. -/
structure ThreeFigures (x : PointNumeral) : Prop where
  digits : x.text.filter Char.isDigit = Text.decimal x.count
  ge : 100 ≤ x.count
  lt : x.count < 1000

theorem Shows.threeFigures {size : Int} {x : PointNumeral} {k : Nat} (h : scale.Shows size x k)
    (hlt : x.whole < 1000) : ThreeFigures x := by
  have hcount : 10 ^ x.places * x.whole + x.count % 10 ^ x.places = x.count := Nat.div_add_mod _ _
  have hrest : x.count % 10 ^ x.places < 10 ^ x.places := Nat.mod_lt _ (Nat.pow_pos (by decide))
  have hplaces := h.places
  refine ⟨x.filter_isDigit_text (by omega), ?_, ?_⟩
  · rcases hplaces with ⟨_, _, hp⟩ | ⟨_, _, hp⟩ | ⟨_, hp⟩ <;> rw [hp] at hcount <;> omega
  · rcases hplaces with ⟨_, _, hp⟩ | ⟨_, _, hp⟩ | ⟨_, hp⟩ <;> rw [hp] at hcount hrest <;> omega

/-! ## Decimal and binary sizes -/

/-- The writing of a size ends in both scales, with its text. From a thousand bytes on and below a
thousand of the last unit, a decimal size has exactly three figures, and they are those of the size
in the unit that fits, cut off. -/
theorem decimal_truncates (size : Int) :
    (∀ t, decimal.Written size t ↔ t = decimal.text size) ∧
      (∀ t, binary.Written size t ↔ t = binary.text size) ∧
      (1000 ≤ size → size < 1000 ^ 9 →
        ∃ x k, decimal.Shows size x k ∧ ThreeFigures x ∧ decimal.Truncates size x k) := by
  refine ⟨written_iff (by decide) size, written_iff (by decide) size, fun hle hlt => ?_⟩
  obtain ⟨n, hshows⟩ := exists_shows regular_decimal hle hlt
  refine ⟨_, _, hshows, hshows.threeFigures ?_, ?_⟩
  · have hpow : size.toNat < 1000 ^ (n + 1) * 1000 := by
      have := hshows.lt_unit
      zify
      rw [Int.toNat_of_nonneg (by omega), ← pow_succ]
      exact this
    rw [whole_figures]
    exact Nat.div_lt_of_lt_mul hpow
  · -- three decimals would divide the divisor as well
    rw [truncates_iff decimal (by omega)]
    apply cutOff_lt_of_dvd (by decide)
    rcases hshows.places with ⟨_, _, hp⟩ | ⟨_, _, hp⟩ | ⟨_, hp⟩ <;> rw [hp] <;> decide

theorem decimal_truncates_paddedZero :
    (1000 : Int) ≤ 1009999 ∧ (1009999 : Int) < 1000 ^ 9 ∧ decimal.text 1009999 = "1.00MB" ∧
      ∃ x k, decimal.Shows 1009999 x k ∧ ThreeFigures x ∧ decimal.Truncates 1009999 x k :=
  ⟨by decide, by decide, by decide, (decimal_truncates 1009999).2.2 (by decide) (by decide)⟩

/-- From 1024 bytes on and below 1024 of the last unit, a binary size is shown by a number that is not
above it and less than two units of its last place below it. It is the size cut off exactly if what
is cut off makes no unit of the last place. So it is with the first unit and without decimals. -/
theorem binary_truncates_iff (size : Int) (hle : 1024 ≤ size) (hlt : size < 1024 ^ 9) :
    ∃ x n, binary.Shows size x (n + 1) ∧ x.value * 1024 ^ (n + 1) ≤ size ∧
      size < (x.value + 2 * x.lastUnit) * 1024 ^ (n + 1) ∧
      (binary.Truncates size x (n + 1) ↔ cutOff binary size.toNat n < 1024 ^ (n + 1)) ∧
      (n = 0 ∨ x.places = 0 → binary.Truncates size x (n + 1)) := by
  obtain ⟨n, hshows⟩ := exists_shows regular_binary hle hlt
  have hiff := truncates_iff binary (show 0 ≤ size by omega) n
  have hsize : ((size.toNat : Nat) : ℚ) = size := by
    exact_mod_cast Int.toNat_of_nonneg (show 0 ≤ size by omega)
  refine ⟨_, n, hshows, ?_, ?_, hiff, ?_⟩
  · rw [← hsize]
    exact_mod_cast value_le binary size.toNat n
  · rw [← hsize]
    exact_mod_cast (lt_value_iff binary size.toNat n 2).2 (cutOff_lt_two_mul regular_binary _ _)
  · rw [hiff]
    rintro (rfl | hplaces)
    · exact cutOff_lt_of_zero (by decide) _
    · apply cutOff_lt_of_dvd (by decide)
      rw [hplaces]
      exact one_dvd _

theorem binary_truncates_iff_twoDivisions :
    (1024 : Int) ≤ 1059062 ∧ (1059062 : Int) < 1024 ^ 9 ∧
      ∃ x n, binary.Shows 1059062 x (n + 1) ∧
        (binary.Truncates 1059062 x (n + 1) ↔ cutOff binary 1059062 n < 1024 ^ (n + 1)) := by
  obtain ⟨x, n, hshows, -, -, hiff, -⟩ := binary_truncates_iff 1059062 (by decide) (by decide)
  exact ⟨by decide, by decide, x, n, hshows, hiff⟩

/-- A little more than 1.01 of the second unit shows as 1.00: the first division leaves 246 bytes that
are not looked at again. -/
theorem binary_not_truncates :
    binary.text 1059062 = "1.00MiB" ∧
      ¬ ∃ x k, binary.Shows 1059062 x k ∧ binary.Truncates 1059062 x k := by
  have htext : binary.text 1059062 = "1.00MiB" := by decide
  refine ⟨htext, ?_⟩
  rintro ⟨x, k, hshows, htruncates⟩
  obtain rfl : k = 2 := by
    have hle := hshows.unit_le
    have hlt := hshows.lt_unit
    apply Nat.le_antisymm
    · by_contra hk
      have hpow : (1024 : Int) ^ 3 ≤ 1024 ^ k := pow_le_pow_right₀ (by decide) (by omega)
      exact absurd (hpow.trans hle) (by decide)
    · by_contra hk
      have hpow : (1024 : Int) ^ (k + 1) ≤ 1024 ^ 2 := pow_le_pow_right₀ (by decide) (by omega)
      exact absurd (hlt.trans_le hpow) (by decide)
  obtain ⟨unit, hunit, hx⟩ := hshows.text
  obtain rfl : ("MiB" : Text) = unit := Option.some.inj hunit
  have hnumber : x.text = "1.00" :=
    List.append_cancel_right (hx.symm.trans (htext.trans (by decide : _ = ("1.00" : Text) ++ "MiB")))
  have hread := x.ofText?_text
  rw [hnumber] at hread
  obtain rfl : ⟨100, 2⟩ = x := Option.some.inj ((by decide : _ = _).symm.trans hread)
  have hlt := htruncates.lt
  norm_num [PointNumeral.value, PointNumeral.lastUnit, binary] at hlt

end StorageAtlas.SizeScale
