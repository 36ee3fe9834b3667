import Mathlib
import StorageAtlas.Address.Lun

/-!
The eight bytes of a LUN as four words of sixteen bits. The words of the bytes
that a number is written to are the number's own, lowest first, so the integer
of these bytes is the number modulo 2^64; the number of the same bytes read from
the left is the flipped one.
-/

namespace StorageAtlas.Lun

theorem lowWords_lt (count n : Nat) : ∀ w ∈ lowWords count n, w < 65536 := by
  induction count generalizing n with
  | zero => simp [lowWords]
  | succ k ih =>
    intro w hw
    rcases List.mem_cons.1 hw with rfl | hw
    · exact Nat.mod_lt n (by decide)
    · exact ih (n / 65536) w hw

theorem ofWords_lowWords (count n : Nat) : ofWords (lowWords count n) = n % 65536 ^ count := by
  induction count generalizing n with
  | zero => simp [lowWords, ofWords, Nat.mod_one]
  | succ k ih => rw [lowWords, ofWords, ih, Nat.pow_succ', ← Nat.mod_mul]

theorem toNat_highByte {w : Nat} (h : w < 65536) : (UInt8.ofNat (w / 256)).toNat = w / 256 := by
  simp
  omega

theorem toNat_lowByte (w : Nat) : (UInt8.ofNat (w % 256)).toNat = w % 256 := by simp

theorem wordsOf_wordBytes {w : Nat} (h : w < 65536) (rest : Bytes) :
    wordsOf (wordBytes w ++ rest) = w :: wordsOf rest := by
  have hw : 256 * (w / 256) + w % 256 = w := by omega
  simp only [wordBytes, List.cons_append, List.nil_append, wordsOf, toNat_highByte h, toNat_lowByte,
    hw]

theorem wordsOf_flatMap {words : List Nat} (h : ∀ w ∈ words, w < 65536) :
    wordsOf (words.flatMap wordBytes) = words := by
  induction words with
  | nil => rfl
  | cons w r ih =>
    rw [List.flatMap_cons, wordsOf_wordBytes (h w (by simp)), ih fun x hx => h x (by simp [hx])]

theorem wordsOf_ofNat (n : Nat) : wordsOf (ofNat n) = lowWords 4 n :=
  wordsOf_flatMap (lowWords_lt 4 n)

/-- Writing a number below 2^64 to bytes loses nothing. -/
theorem ofWords_wordsOf_ofNat {n : Nat} (h : n ≤ last) : ofWords (wordsOf (ofNat n)) = n := by
  rw [wordsOf_ofNat, ofWords_lowWords]
  exact Nat.mod_eq_of_lt (Nat.lt_succ_of_le h)

theorem lowWords_ofWords {words : List Nat} (h : ∀ w ∈ words, w < 65536) :
    lowWords words.length (ofWords words) = words := by
  induction words with
  | nil => rfl
  | cons w r ih =>
    obtain ⟨hw, hr⟩ := List.forall_mem_cons.1 h
    have hlow : (w + 65536 * ofWords r) % 65536 = w := by omega
    have hrest : (w + 65536 * ofWords r) / 65536 = ofWords r := by omega
    rw [List.length_cons, ofWords, lowWords, hlow, hrest, ih hr]

theorem flatMap_wordsOf {bytes : Bytes} (h : bytes.length % 2 = 0) :
    (wordsOf bytes).flatMap wordBytes = bytes := by
  fun_induction wordsOf bytes with
  | case1 a b r ih =>
    have ha := a.toNat_lt
    have hb := b.toNat_lt
    have hhigh : (256 * a.toNat + b.toNat) / 256 = a.toNat := by omega
    have hlow : (256 * a.toNat + b.toNat) % 256 = b.toNat := by omega
    have hr : r.length % 2 = 0 := by
      simp only [List.length_cons] at h
      omega
    rw [List.flatMap_cons, ih hr, wordBytes, hhigh, hlow, UInt8.ofNat_toNat, UInt8.ofNat_toNat]
    rfl
  | case2 bytes hshort =>
    cases bytes with
    | nil => rfl
    | cons a rest =>
      cases rest with
      | nil => simp at h
      | cons b r => exact absurd rfl (hshort a b r)

/-! ## The flipped number -/

theorem flipWords_natCast (count n done : Nat) :
    flipWords count n done = (lowWords count n).foldl (fun d w => 65536 * d + w) done := by
  induction count generalizing n done with
  | zero => rfl
  | succ k ih =>
    have hq : (n : Int) / 65536 = ((n / 65536 : Nat) : Int) := by omega
    have hr : ((n : Int) % 65536).toNat = n % 65536 := by omega
    rw [flipWords, hq, hr, ih]
    rfl

theorem toNat_wordBytes {w : Nat} (h : w < 65536) (done : Nat) :
    (wordBytes w).foldl (fun n b => 256 * n + b.toNat) done = 65536 * done + w := by
  simp only [wordBytes, List.foldl_cons, List.foldl_nil, toNat_highByte h, toNat_lowByte]
  omega

theorem toNat_flatMap {words : List Nat} (h : ∀ w ∈ words, w < 65536) (done : Nat) :
    (words.flatMap wordBytes).foldl (fun n b => 256 * n + b.toNat) done =
      words.foldl (fun d w => 65536 * d + w) done := by
  induction words generalizing done with
  | nil => rfl
  | cons w r ih =>
    rw [List.flatMap_cons, List.foldl_append, toNat_wordBytes (h w (by simp)),
      ih fun x hx => h x (by simp [hx])]
    rfl

/-- The flipped number is what the bytes of the number denote from the left. -/
theorem toNat_ofNat (n : Nat) : Bytes.toNat (ofNat n) = flip n := by
  rw [flip, flipWords_natCast]
  exact toNat_flatMap (lowWords_lt 4 n) 0

end StorageAtlas.Lun
