import StorageAtlas.Proofs.Address.UnitBytes

/-!
A LUN as eight bytes, as an integer, and as the integer with its words reversed.
In base 2^16 the integer has the words of the bytes as its digits, the first word
lowest, and the reversed one has them the other way round. Both conversions of
bytes are inverse to each other, and a reversal looks at 64 bits only.
-/

namespace StorageAtlas.Lun

/-! ## Bytes and integers -/

theorem toNat_of_length {bytes : Bytes} (h : bytes.length = 8) :
    toNat bytes = .ok (ofWords (wordsOf bytes)) :=
  if_pos h

theorem ofInt_natCast {n : Nat} (h : n ≤ last) : ofInt n = .ok (ofNat n) :=
  if_pos ⟨Int.natCast_nonneg n, Int.ofNat_le.2 h⟩

theorem ofWords_wordsOf_le {bytes : Bytes} (h : bytes.length = 8) :
    ofWords (wordsOf bytes) ≤ last := by
  have hlt := ofWords_lt fun w (hw : w ∈ wordsOf bytes) => wordsOf_lt hw
  rw [length_wordsOf, h] at hlt
  exact Nat.le_of_lt_succ hlt

theorem toNat_ofNat_of_le {n : Nat} (h : n ≤ last) : toNat (ofNat n) = .ok n := by
  rw [toNat_of_length (length_ofNat n), ofWords_wordsOf_ofNat h]

theorem ofInt_eq_error_iff (v : Int) : ofInt v = .error (.lunRange v) ↔ v < 0 ∨ 2 ^ 64 ≤ v := by
  unfold ofInt
  split
  · rename_i hrange
    simp only [last] at hrange
    constructor
    · nofun
    · intro hv
      omega
  · rename_i hrange
    simp only [last] at hrange
    constructor
    · intro _
      omega
    · intro _
      rfl

/-! ## Reversed words -/

theorem ofWords_eq_foldr (words : List Nat) :
    ofWords words = words.foldr (fun w n => 65536 * n + w) 0 := by
  induction words with
  | nil => rfl
  | cons w r ih =>
    rw [ofWords, ih, List.foldr_cons]
    omega

/-- Reversing a number reverses its digits in base 2^16. -/
theorem flip_natCast (n : Nat) : flip n = ofWords (lowWords 4 n).reverse := by
  rw [flip, flipWords_natCast, List.foldl_eq_foldr_reverse, ofWords_eq_foldr]

theorem reverse_lowWords_lt (n : Nat) : ∀ w ∈ (lowWords 4 n).reverse, w < 65536 := fun w hw =>
  lowWords_lt 4 n w (List.mem_reverse.1 hw)

theorem lowWords_flip_natCast (n : Nat) : lowWords 4 (flip n) = (lowWords 4 n).reverse := by
  have h := lowWords_ofWords (reverse_lowWords_lt n)
  rw [List.length_reverse, length_lowWords, ← flip_natCast] at h
  exact h

theorem flip_flip_natCast (n : Nat) : flip (flip n) = n % 2 ^ 64 := by
  have hbase : 65536 ^ 4 = 2 ^ 64 := rfl
  rw [flip_natCast, lowWords_flip_natCast, List.reverse_reverse, ofWords_lowWords, hbase]

theorem flip_natCast_lt (n : Nat) : flip n < 2 ^ 64 := by
  have h := ofWords_lt (reverse_lowWords_lt n)
  rw [List.length_reverse, length_lowWords] at h
  rw [flip_natCast]
  exact h

theorem emod_mul_ediv (v m : Int) : v % (65536 * m) / 65536 = v / 65536 % m := by
  rw [Int.emod_def, Int.emod_def, Int.ediv_ediv_of_nonneg (by decide), mul_assoc, sub_eq_add_neg,
    ← mul_neg, Int.add_mul_ediv_left _ _ (by decide), ← sub_eq_add_neg]

/-- One step takes the lowest word, so as many words as there are steps count. This holds of
negative numbers too, which have sign bits without end. -/
theorem flipWords_emod (count : Nat) (v : Int) (done : Nat) :
    flipWords count (v % 65536 ^ count) done = flipWords count v done := by
  induction count generalizing v done with
  | zero => rfl
  | succ k ih =>
    have hlow : v % (65536 * 65536 ^ k) % 65536 = v % 65536 :=
      Int.emod_emod_of_dvd v (Dvd.intro _ rfl)
    rw [pow_succ', flipWords, flipWords, emod_mul_ediv, ih, hlow]

/-- The lowest 64 bits of an integer, as a natural number. -/
def low64 (v : Int) : Nat := (v % 2 ^ 64).toNat

theorem natCast_low64 (v : Int) : (low64 v : Int) = v % 2 ^ 64 :=
  Int.toNat_of_nonneg (Int.emod_nonneg v (by decide))

theorem low64_le (v : Int) : low64 v ≤ last := by
  have h := Int.emod_lt_of_pos v (by decide : (0 : Int) < 2 ^ 64)
  rw [← natCast_low64] at h
  simp only [last]
  omega

theorem flip_eq_flip_low64 (v : Int) : flip v = flip (low64 v) := by
  have h := flipWords_emod 4 v 0
  rw [natCast_low64]
  exact h.symm

/-- Integer and bytes determine each other, and no integer outside 64 bits has bytes. The reversed
integer is what the bytes of the lowest 64 bits denote when they are read from the left. -/
theorem converts_and_flips :
    (∀ bytes : Bytes, bytes.length = 8 → ∃ n : Nat, toNat bytes = .ok n ∧ ofInt n = .ok bytes) ∧
    (∀ v : Int, ofInt v = .error (.lunRange v) ↔ v < 0 ∨ 2 ^ 64 ≤ v) ∧
    (∀ v : Int, 0 ≤ v → v < 2 ^ 64 →
      ∃ bytes, ofInt v = .ok bytes ∧ bytes.length = 8 ∧ toNat bytes = .ok v.toNat) ∧
    ∀ v : Int, (∃ bytes, ofInt (v % 2 ^ 64) = .ok bytes ∧ flip v = Bytes.toNat bytes) ∧
      flip v < 2 ^ 64 ∧ (∀ w : Int, w % 2 ^ 64 = v % 2 ^ 64 → flip w = flip v) ∧
      (flip (flip v) : Int) = v % 2 ^ 64 := by
  refine ⟨?_, ofInt_eq_error_iff, ?_, ?_⟩
  · intro bytes h
    refine ⟨ofWords (wordsOf bytes), toNat_of_length h, ?_⟩
    rw [ofInt_natCast (ofWords_wordsOf_le h), ofNat_ofWords_wordsOf h]
  · intro v hnonneg hlt
    obtain ⟨n, rfl⟩ := Int.eq_ofNat_of_zero_le hnonneg
    have hle : n ≤ last := by
      simp only [last]
      omega
    exact ⟨ofNat n, ofInt_natCast hle, length_ofNat n, toNat_ofNat_of_le hle⟩
  · intro v
    have hflip := flip_eq_flip_low64 v
    refine ⟨⟨ofNat (low64 v), ?_, ?_⟩, ?_, ?_, ?_⟩
    · rw [← natCast_low64]
      exact ofInt_natCast (low64_le v)
    · rw [toNat_ofNat, hflip]
    · rw [hflip]
      exact flip_natCast_lt _
    · intro w hw
      rw [hflip, flip_eq_flip_low64 w, low64, low64, hw]
    · have hlow : low64 v % 2 ^ 64 = low64 v := Nat.mod_eq_of_lt (Nat.lt_succ_of_le (low64_le v))
      rw [hflip, flip_flip_natCast, hlow, natCast_low64]

/-- Minus two has all bits but the lowest set, which lies in the first word. -/
theorem converts_and_flips_minusTwo :
    (∃ n : Nat, toNat [255, 254, 255, 255, 255, 255, 255, 255] = .ok n ∧
      ofInt n = .ok [255, 254, 255, 255, 255, 255, 255, 255]) ∧
    (∃ bytes, ofInt (2 ^ 64 - 2) = .ok bytes ∧ bytes.length = 8 ∧
      toNat bytes = .ok (2 ^ 64 - 2)) ∧
    flip (-2) = flip (2 ^ 64 - 2) ∧ flip (-2) = 0xFFFEFFFFFFFFFFFF := by
  obtain ⟨hbytes, -, hback, hflip⟩ := converts_and_flips
  refine ⟨hbytes _ rfl, hback (2 ^ 64 - 2) (by decide) (by decide), ?_, by decide⟩
  exact (hflip (2 ^ 64 - 2)).2.2.1 (-2) (by decide)

end StorageAtlas.Lun
