import Mathlib
import StorageAtlas.Bytes.Basic

/-!
Hexadecimal numerals: they denote the number that they were written for, with
and without zeros before them, and the numeral of a byte string, filled up with
zeros, is the text of its bytes.
-/

namespace StorageAtlas.Text

theorem digitChar_eq_hexDigit {n : Nat} (h : n < 16) : n.digitChar = Bytes.hexDigit n := by
  revert n
  decide

theorem hexadecimal_of_lt {n : Nat} (h : n < 16) : hexadecimal n = [Bytes.hexDigit n] := by
  rw [hexadecimal, Nat.toDigits_of_lt_base h, digitChar_eq_hexDigit h]

/-- The last digit comes off the end. -/
theorem hexadecimal_of_le {n : Nat} (h : 16 ≤ n) :
    hexadecimal n = hexadecimal (n / 16) ++ [Bytes.hexDigit (n % 16)] := by
  have hd : n % 16 < 16 := Nat.mod_lt n (by decide)
  rw [hexadecimal, Nat.toDigits_of_base_le (by decide) h, digitChar_eq_hexDigit hd]
  rfl

/-- A property of all digits holds of every character in a numeral. -/
theorem forall_mem_hexadecimal {p : Char → Prop} (hp : ∀ d < 16, p (Bytes.hexDigit d)) (n : Nat) :
    ∀ c ∈ hexadecimal n, p c := by
  induction n using Nat.strongRecOn with
  | ind n ih =>
    intro c hc
    by_cases h : n < 16
    · rw [hexadecimal_of_lt h, List.mem_singleton] at hc
      exact hc ▸ hp n h
    · rw [hexadecimal_of_le (by omega), List.mem_append, List.mem_singleton] at hc
      rcases hc with hc | rfl
      · exact ih (n / 16) (by omega) c hc
      · exact hp _ (Nat.mod_lt n (by decide))

theorem mem_padZeros {width : Nat} {t : Text} {c : Char} (h : c ∈ padZeros width t) :
    c = '0' ∨ c ∈ t := by
  rcases List.mem_append.1 h with h | h
  · exact .inl (List.eq_of_mem_replicate h)
  · exact .inr h

theorem forall_mem_padZeros_hexadecimal {p : Char → Prop} (hp : ∀ d < 16, p (Bytes.hexDigit d))
    (width n : Nat) : ∀ c ∈ padZeros width (hexadecimal n), p c := by
  intro c hc
  rcases mem_padZeros hc with rfl | hc
  · exact hp 0 (by decide)
  · exact forall_mem_hexadecimal hp n c hc

theorem length_padZeros (width : Nat) (t : Text) :
    (padZeros width t).length = max width t.length := by
  simp only [padZeros, List.length_append, List.length_replicate]
  omega

theorem ofHexadecimal_append_digit (t : Text) {d : Nat} (h : d < 16) :
    ofHexadecimal (t ++ [Bytes.hexDigit d]) = 16 * ofHexadecimal t + d := by
  simp [ofHexadecimal, Bytes.digitIn?_hexDigit h]

theorem ofHexadecimal_hexadecimal (n : Nat) : ofHexadecimal (hexadecimal n) = n := by
  induction n using Nat.strongRecOn with
  | ind n ih =>
    by_cases h : n < 16
    · rw [hexadecimal_of_lt h]
      simpa [ofHexadecimal] using ofHexadecimal_append_digit [] h
    · have hd : n % 16 < 16 := Nat.mod_lt n (by decide)
      rw [hexadecimal_of_le (by omega), ofHexadecimal_append_digit _ hd, ih (n / 16) (by omega)]
      omega

/-- Zeros before a numeral do not change its value. -/
theorem ofHexadecimal_padZeros (width : Nat) (t : Text) :
    ofHexadecimal (padZeros width t) = ofHexadecimal t := by
  have hz : ∀ k, ofHexadecimal (List.replicate k '0') = 0 := by
    intro k
    induction k with
    | zero => rfl
    | succ k ih =>
      have h0 : Bytes.hexDigit 0 = '0' := rfl
      rw [List.replicate_succ', ← h0, ofHexadecimal_append_digit _ (by decide), h0, ih]
  have hk := hz (width - t.length)
  simp only [ofHexadecimal, padZeros, List.foldl_append] at hk ⊢
  rw [hk]

theorem length_hexadecimal_le {n k : Nat} (hk : 0 < k) (h : n < 16 ^ k) :
    (hexadecimal n).length ≤ k :=
  (Nat.length_toDigits_le_iff (by decide) hk).2 h

/-- One more place takes the last digit, and the numeral before it is filled up as before. -/
theorem padZeros_succ_toDigits {base width : Nat} (hbase : 1 < base) (h : 0 < width) (n : Nat) :
    padZeros (width + 1) (Nat.toDigits base n) =
      padZeros width (Nat.toDigits base (n / base)) ++ [(n % base).digitChar] := by
  by_cases hn : n < base
  · have hw : List.replicate width '0' = List.replicate (width - 1) '0' ++ ['0'] := by
      rw [← List.replicate_succ', Nat.sub_add_cancel h]
    rw [Nat.div_eq_of_lt hn, Nat.mod_eq_of_lt hn, Nat.toDigits_of_lt_base hn,
      Nat.toDigits_of_lt_base (by omega : 0 < base)]
    simp [padZeros, hw, Nat.digitChar]
  · rw [Nat.toDigits_of_base_le hbase (by omega : base ≤ n)]
    simp [padZeros, List.append_assoc]

theorem padZeros_succ_hexadecimal {width : Nat} (h : 0 < width) (n : Nat) :
    padZeros (width + 1) (hexadecimal n) =
      padZeros width (hexadecimal (n / 16)) ++ [Bytes.hexDigit (n % 16)] := by
  rw [← digitChar_eq_hexDigit (Nat.mod_lt n (by decide))]
  exact padZeros_succ_toDigits (by decide) h n

end StorageAtlas.Text

namespace StorageAtlas.Bytes

theorem hex_append (a b : Bytes) : hex (a ++ b) = hex a ++ hex b := by
  induction a with
  | nil => rfl
  | cons x r ih => simp [hex, ih]

theorem forall_mem_hex {p : Char → Prop} (hp : ∀ d < 16, p (hexDigit d)) (bytes : Bytes) :
    ∀ c ∈ hex bytes, p c := by
  induction bytes with
  | nil => simp [hex]
  | cons b r ih =>
    have hb := b.toNat_lt
    intro c hc
    simp only [hex, List.mem_cons] at hc
    rcases hc with rfl | rfl | hc
    · exact hp _ (by omega)
    · exact hp _ (by omega)
    · exact ih c hc

theorem toNat_append_singleton (bytes : Bytes) (b : UInt8) :
    toNat (bytes ++ [b]) = 256 * toNat bytes + b.toNat := by
  simp [toNat]

/-- The text of bytes is the numeral of their number with two places for each byte. -/
theorem hex_eq_padZeros {bytes : Bytes} (h : bytes ≠ []) :
    hex bytes = Text.padZeros (2 * bytes.length) (Text.hexadecimal (toNat bytes)) := by
  induction bytes using List.reverseRecOn with
  | nil => exact absurd rfl h
  | append_singleton r b ih =>
    have hb := b.toNat_lt
    have hlen : 2 * (r ++ [b]).length = 2 * r.length + 1 + 1 := by simp; omega
    have hlow : (256 * toNat r + b.toNat) % 16 = b.toNat % 16 := by omega
    have hlast : hex [b] = [hexDigit (b.toNat / 16)] ++ [hexDigit (b.toNat % 16)] := rfl
    rw [hex_append, hlast, toNat_append_singleton, hlen,
      Text.padZeros_succ_hexadecimal (by omega), hlow, ← List.append_assoc]
    congr 1
    by_cases hr : r = []
    · subst hr
      have hq : (256 * toNat [] + b.toNat) / 16 = b.toNat / 16 := by simp [toNat]
      rw [hq, Text.hexadecimal_of_lt (by omega)]
      rfl
    · have hpos : 0 < 2 * r.length := by
        have := List.length_pos_iff.2 hr
        omega
      have hhigh : (256 * toNat r + b.toNat) / 16 % 16 = b.toNat / 16 := by omega
      have hrest : (256 * toNat r + b.toNat) / 16 / 16 = toNat r := by omega
      rw [Text.padZeros_succ_hexadecimal hpos, hhigh, hrest, ← ih hr]

end StorageAtlas.Bytes
