import StorageAtlas.Proofs.Text.Hexadecimal

/-!
Numbers with a decimal point. A number is held as a count of units of its last
place, so its value is exact. It is read back from its text, and without the point
its text is the numeral of the count.
-/

namespace StorageAtlas

/-! ## Decimals that are filled up -/

namespace Text

theorem not_mem_decimal {c : Char} (h : c.isDigit = false) (n : Nat) : c ∉ decimal n := by
  intro hc
  rw [isDigit_of_mem_decimal hc] at h
  cases h

theorem isDigit_of_mem_padZeros {width n : Nat} {c : Char} (h : c ∈ padZeros width (decimal n)) :
    c.isDigit = true := by
  rcases mem_padZeros h with rfl | h
  · rfl
  · exact isDigit_of_mem_decimal h

theorem padZeros_succ_decimal {width : Nat} (h : 0 < width) (n : Nat) :
    padZeros (width + 1) (decimal n) =
      padZeros width (decimal (n / 10)) ++ [(n % 10).digitChar] :=
  padZeros_succ_toDigits (by decide) h n

theorem length_padZeros_decimal {width n : Nat} (hwidth : 0 < width) (h : n < 10 ^ width) :
    (padZeros width (decimal n)).length = width := by
  have hlength : (decimal n).length ≤ width := (Nat.length_toDigits_le_iff (by decide) hwidth).2 h
  rw [length_padZeros, Nat.max_eq_left hlength]

theorem ofDecimal_append (s t : Text) :
    ofDecimal (s ++ t) = 10 ^ t.length * ofDecimal s + ofDecimal t := by
  rw [ofDecimal, Nat.ofDigitChars_append, Nat.ofDigitChars_eq_ofDigitChars_zero]
  rfl

theorem ofDecimal_padZeros (width : Nat) (t : Text) : ofDecimal (padZeros width t) = ofDecimal t := by
  have hzeros : ∀ n, ofDecimal (List.replicate n '0') = 0 := by
    intro n
    induction n with
    | zero => rfl
    | succ n ih =>
      rw [List.replicate_succ', ofDecimal_append, ih]
      rfl
  rw [padZeros, ofDecimal_append, hzeros, Nat.mul_zero, Nat.zero_add]

/-- The first places of a filled numeral are the filled numeral of the first digits. -/
theorem take_padZeros_decimal {places : Nat} (h : 0 < places) (more : Nat) {n : Nat}
    (hn : n < 10 ^ (places + more)) :
    (padZeros (places + more) (decimal n)).take places = padZeros places (decimal (n / 10 ^ more)) := by
  induction more generalizing n with
  | zero =>
    rw [Nat.pow_zero, Nat.div_one, Nat.add_zero]
    exact List.take_of_length_le (Nat.le_of_eq (length_padZeros_decimal h hn))
  | succ more ih =>
    have hfirst : n / 10 < 10 ^ (places + more) := by
      rw [Nat.div_lt_iff_lt_mul (by decide), ← Nat.pow_succ]
      exact hn
    have hlength := length_padZeros_decimal (by omega) hfirst
    rw [← Nat.add_assoc, padZeros_succ_decimal (by omega), List.take_append_of_le_length]
    · rw [Nat.pow_succ', ← Nat.div_div_eq_div_mul]
      exact ih hfirst
    · exact Nat.le_trans (Nat.le_add_right _ _) (Nat.le_of_eq hlength.symm)

/-- Behind another numeral a filled one continues it. -/
theorem decimal_append_padZeros {whole places rest : Nat} (hwhole : 0 < whole)
    (hplaces : 0 < places) (hrest : rest < 10 ^ places) :
    decimal whole ++ padZeros places (decimal rest) = decimal (10 ^ places * whole + rest) := by
  induction places, hplaces using Nat.le_induction generalizing rest with
  | base =>
    have hone : padZeros 1 (decimal rest) = decimal rest := by
      have hlength : (decimal rest).length = 1 := by
        rw [decimal, Nat.toDigits_of_lt_base (by simpa using hrest)]
        rfl
      rw [padZeros, hlength]
      rfl
    rw [hone]
    exact Nat.toDigits_append_toDigits (by decide) hwhole (by simpa using hrest)
  | succ places hplaces ih =>
    have hfirst : rest / 10 < 10 ^ places := by
      rw [Nat.div_lt_iff_lt_mul (by decide), ← Nat.pow_succ]
      exact hrest
    have hpow : 10 ^ (places + 1) * whole = 10 * (10 ^ places * whole) := by
      rw [Nat.pow_succ', Nat.mul_assoc]
    have hpos : 0 < 10 ^ places * whole := Nat.mul_pos (Nat.pow_pos (by decide)) hwhole
    have hlast : decimal (10 ^ (places + 1) * whole + rest) =
        decimal (10 ^ places * whole + rest / 10) ++ [(rest % 10).digitChar] := by
      have hdiv : (10 ^ (places + 1) * whole + rest) / 10 = 10 ^ places * whole + rest / 10 := by
        omega
      have hmod : (10 ^ (places + 1) * whole + rest) % 10 = rest % 10 := by omega
      rw [← hdiv, ← hmod]
      exact Nat.toDigits_of_base_le (by decide) (by omega)
    rw [padZeros_succ_decimal hplaces, ← List.append_assoc, ih hfirst, hlast]

end Text

/-- A number with decimals: how many units of its last place it counts, and how many places there
are behind the point. -/
structure PointNumeral where
  count : Nat
  places : Nat
  deriving DecidableEq, Repr

namespace PointNumeral

def value (x : PointNumeral) : ℚ := x.count / 10 ^ x.places

/-- What the last place counts. -/
def lastUnit (x : PointNumeral) : ℚ := 1 / 10 ^ x.places

/-- The whole number before the point. -/
def whole (x : PointNumeral) : Nat := x.count / 10 ^ x.places

/-- The digits behind the point, as many as there are places. -/
def fraction (x : PointNumeral) : Text :=
  Text.padZeros x.places (Text.decimal (x.count % 10 ^ x.places))

/-- Without decimals the point is left out. -/
def text (x : PointNumeral) : Text :=
  Text.decimal x.whole ++ if x.places = 0 then [] else '.' :: x.fraction

/-- The number that a text denotes: digits, or digits before and behind a point. -/
def ofText? (t : Text) : Option PointNumeral :=
  match Text.splitOn '.' t with
  | [whole] => if Text.isAsciiDigits whole then some ⟨Text.ofDecimal whole, 0⟩ else none
  | [whole, rest] =>
    if Text.isAsciiDigits whole && Text.isAsciiDigits rest then
      some ⟨Text.ofDecimal (whole ++ rest), rest.length⟩
    else none
  | _ => none

variable (x : PointNumeral)

theorem text_of_places_eq_zero (h : x.places = 0) : x.text = Text.decimal x.count := by
  rw [text, if_pos h, List.append_nil, whole, h, Nat.pow_zero, Nat.div_one]

theorem text_of_places_pos (h : 0 < x.places) :
    x.text = Text.decimal x.whole ++ '.' :: x.fraction := by
  rw [text, if_neg (Nat.ne_of_gt h)]

theorem count_mod_lt : x.count % 10 ^ x.places < 10 ^ x.places :=
  Nat.mod_lt _ (Nat.pow_pos (by decide))

theorem length_fraction (h : 0 < x.places) : x.fraction.length = x.places :=
  Text.length_padZeros_decimal h x.count_mod_lt

theorem isDigit_of_mem_fraction {c : Char} (hc : c ∈ x.fraction) : c.isDigit = true :=
  Text.isDigit_of_mem_padZeros hc

theorem isAsciiDigits_fraction (h : 0 < x.places) : Text.isAsciiDigits x.fraction = true := by
  simp only [Text.isAsciiDigits, Bool.and_eq_true, List.all_eq_true]
  refine ⟨?_, fun c hc => x.isDigit_of_mem_fraction hc⟩
  rw [Bool.not_eq_true', List.isEmpty_eq_false_iff]
  apply List.ne_nil_of_length_pos
  rw [x.length_fraction h]
  exact h

/-- The digits before and behind the point are together the count. -/
theorem ofDecimal_digits (h : 0 < x.places) :
    Text.ofDecimal (Text.decimal x.whole ++ x.fraction) = x.count := by
  rw [Text.ofDecimal_append, x.length_fraction h, fraction, Text.ofDecimal_padZeros,
    Text.ofDecimal_decimal, Text.ofDecimal_decimal, whole, Nat.div_add_mod]

theorem ofText?_text : ofText? x.text = some x := by
  have hpoint : ∀ n, '.' ∉ Text.decimal n := Text.not_mem_decimal (by decide)
  rcases Nat.eq_zero_or_pos x.places with h | h
  · rw [text_of_places_eq_zero x h, ofText?, Text.splitOn_of_not_mem (hpoint _)]
    simp only [Text.isAsciiDigits_decimal, if_true, Text.ofDecimal_decimal, ← h]
  · have hfraction : '.' ∉ x.fraction := by
      intro hc
      exact absurd (x.isDigit_of_mem_fraction hc) (by decide)
    rw [text_of_places_pos x h, ofText?, Text.splitOn_append_cons (hpoint _),
      Text.splitOn_of_not_mem hfraction]
    simp only [Text.isAsciiDigits_decimal, x.isAsciiDigits_fraction h, Bool.and_self, if_true,
      x.ofDecimal_digits h, x.length_fraction h]

/-- The digits of a number that is not below one are those of its count. -/
theorem filter_isDigit_text (h : 0 < x.whole) : x.text.filter Char.isDigit = Text.decimal x.count := by
  have hdigits : ∀ n, (Text.decimal n).filter Char.isDigit = Text.decimal n := fun n =>
    List.filter_eq_self.2 fun c hc => Text.isDigit_of_mem_decimal hc
  rcases Nat.eq_zero_or_pos x.places with hplaces | hplaces
  · rw [text_of_places_eq_zero x hplaces, hdigits]
  · have hfraction : x.fraction.filter Char.isDigit = x.fraction :=
      List.filter_eq_self.2 fun c hc => x.isDigit_of_mem_fraction hc
    rw [text_of_places_pos x hplaces, List.filter_append, hdigits,
      List.filter_cons_of_neg (by decide), hfraction, fraction,
      Text.decimal_append_padZeros h hplaces x.count_mod_lt, whole, Nat.div_add_mod]

/-- A character of a number: a digit or the point. -/
def isPart (c : Char) : Bool := c.isDigit || c == '.'

theorem isPart_of_mem_text {c : Char} (hc : c ∈ x.text) : isPart c = true := by
  have hdigit : c.isDigit = true → isPart c = true := by
    intro h
    rw [isPart, h, Bool.true_or]
  rw [text, List.mem_append] at hc
  rcases hc with hc | hc
  · exact hdigit (Text.isDigit_of_mem_decimal hc)
  · split at hc
    · cases hc
    · rcases List.mem_cons.1 hc with rfl | hc
      · rfl
      · exact hdigit (x.isDigit_of_mem_fraction hc)

theorem whole_le_value : (x.whole : ℚ) ≤ x.value := by
  rw [value, le_div_iff₀ (by positivity)]
  exact_mod_cast Nat.div_mul_le_self x.count (10 ^ x.places)

theorem value_lt_whole_add_one : x.value < x.whole + 1 := by
  have hlt := Nat.lt_mul_div_succ x.count (b := 10 ^ x.places) (Nat.pow_pos (by decide))
  rw [value, div_lt_iff₀ (by positivity), mul_comm]
  exact_mod_cast hlt

example : text ⟨1205, 2⟩ = "12.05" ∧ text ⟨7, 0⟩ = "7" ∧ ofText? "12.05" = some ⟨1205, 2⟩ ∧
    ofText? "1.2.3" = none := by decide

end PointNumeral
end StorageAtlas
