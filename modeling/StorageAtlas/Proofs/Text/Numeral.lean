import Mathlib.Tactic.IntervalCases
import StorageAtlas.Proofs.Address.Fields
import StorageAtlas.Text.Numeral

/-!
Texts of digit signs as numerals: they are numerals exactly if every sign is a
decimal digit. A superscript or a circled digit looks like one and is none. The
digits of a base are always one, of the number that they denote.
-/

namespace StorageAtlas.Text

/-- Digit signs of which one at least is no decimal digit. -/
def isFalseNumeral (t : Text) : Bool := isDigits t && t.any fun c => (decimalValue? c).isNone

/-- Are all digit signs in a text decimal digits? -/
def hasPlainDigits (t : Text) : Bool := t.all fun c => !isDigitSign c || (decimalValue? c).isSome

theorem decimalValue?_lt {c : Char} {d : Nat} (h : decimalValue? c = some d) : d < 10 := by
  unfold decimalValue? at h
  split at h
  · split at h
    · rename_i hdigit
      simp only [Char.isDigit, Bool.and_eq_true, decide_eq_true_eq, ge_iff_le,
        UInt32.le_iff_toNat_le] at hdigit
      change 48 ≤ c.toNat ∧ c.toNat ≤ 57 at hdigit
      have hd : c.toNat - 48 = d := Option.some.inj h
      omega
    · cases h
  · obtain ⟨base, hbase, rfl⟩ := Option.map_eq_some_iff.1 h
    have hrange := List.find?_some hbase
    simp only [Bool.and_eq_true, decide_eq_true_eq] at hrange
    omega

theorem digitIn?_plainDigit {c : Char} {d : Nat} (h : decimalValue? c = some d) :
    digitIn? 10 (plainDigit c) = some d ∧ (plainDigit c).isDigit = true := by
  have hlt := decimalValue?_lt h
  have hplain : plainDigit c = Char.ofNat (d + '0'.toNat) := by rw [plainDigit, h]
  rw [hplain]
  clear h hplain
  interval_cases d <;> exact ⟨rfl, rfl⟩

/-- The other digits stand outside ASCII, and none of them is blank. -/
theorem otherDigit_of_decimalValue?_none {c : Char} (hsign : isDigitSign c = true)
    (h : decimalValue? c = none) : 128 ≤ c.toNat ∧ isBlank c = false := by
  rw [isDigitSign, h, Option.isSome_none, Bool.false_or] at hsign
  simp only [otherDigits, List.any_cons, List.any_nil, Bool.or_false, Bool.or_eq_true,
    Bool.and_eq_true, decide_eq_true_eq] at hsign
  constructor
  · omega
  · refine Bool.eq_false_iff.2 fun hblank => ?_
    simp only [isBlank, Bool.or_eq_true, Bool.and_eq_true, decide_eq_true_eq, beq_iff_eq] at hblank
    omega

theorem digitIn?_of_le_toNat {c : Char} (h : 128 ≤ c.toNat) (base : Nat) :
    digitIn? base c = none := by
  have hdigit : c.isDigit = false := by
    refine Bool.eq_false_iff.2 fun hc => ?_
    simp only [Char.isDigit, Bool.and_eq_true, decide_eq_true_eq, UInt32.le_iff_toNat_le] at hc
    have hle : c.toNat ≤ 57 := hc.2
    omega
  have hlower : c.isLower = false := by
    refine Bool.eq_false_iff.2 fun hc => ?_
    simp only [Char.isLower, Bool.and_eq_true, decide_eq_true_eq, UInt32.le_iff_toNat_le] at hc
    have hle : c.toNat ≤ 122 := hc.2
    omega
  have hupper : c.isUpper = false := by
    refine Bool.eq_false_iff.2 fun hc => ?_
    simp only [Char.isUpper, decide_eq_true_eq, UInt32.le_iff_toNat_le] at hc
    have hle : c.toNat ≤ 90 := hc.2
    omega
  simp [digitIn?, hdigit, hlower, hupper]

/-- A digit sign, once it is made plain, is one of 0 to 9 or stands outside ASCII. -/
theorem plainDigit_of_isDigitSign {c : Char} (h : isDigitSign c = true) :
    ((plainDigit c).isDigit = true ∨ 128 ≤ (plainDigit c).toNat) ∧
      isBlank (plainDigit c) = false ∧
      (digitIn? 10 (plainDigit c)).isSome = (decimalValue? c).isSome := by
  cases hvalue : decimalValue? c with
  | some d =>
    obtain ⟨hread, hdigit⟩ := digitIn?_plainDigit hvalue
    refine ⟨.inl hdigit, Address.isBlank_of_isSign (Address.isSign_of_isDigit hdigit), ?_⟩
    rw [hread]
  | none =>
    obtain ⟨hle, hblank⟩ := otherDigit_of_decimalValue?_none h hvalue
    have hplain : plainDigit c = c := by rw [plainDigit, hvalue]
    rw [hplain]
    refine ⟨.inr hle, hblank, ?_⟩
    rw [digitIn?_of_le_toNat hle]

theorem mapM_isSome_iff {α β : Type} {f : α → Option β} {l : List α} :
    (l.mapM f).isSome = true ↔ ∀ a ∈ l, (f a).isSome = true := by
  induction l with
  | nil => simp
  | cons a rest ih =>
    rw [List.mapM_cons, List.forall_mem_cons, ← ih]
    cases f a with
    | none => simp
    | some b => cases rest.mapM f <;> simp

theorem digitsIn?_isSome_iff {base : Nat} {t : Text} (hne : t ≠ []) (hmem : '_' ∉ t) :
    (digitsIn? base t).isSome = true ↔ ∀ c ∈ t, (digitIn? base c).isSome = true := by
  have hempty : t.isEmpty = false := List.isEmpty_eq_false_iff.2 hne
  rw [← mapM_isSome_iff, digitsIn?, splitOn_of_not_mem hmem, List.mapM_cons, hempty]
  cases t.mapM (digitIn? base) <;> simp

theorem dropAnnouncement_ten (t : Text) : dropAnnouncement 10 t = t := by
  unfold dropAnnouncement
  split
  · rfl
  · rfl

/-- Digit signs are a numeral exactly if all of them are decimal digits. -/
theorem integer?_isSome_iff {t : Text} (h : isDigits t = true) :
    (integer? 10 t).isSome = true ↔ ∀ c ∈ t, (decimalValue? c).isSome = true := by
  simp only [isDigits, Bool.and_eq_true, Bool.not_eq_true', List.isEmpty_eq_false_iff,
    List.all_eq_true] at h
  obtain ⟨hne, hsign⟩ := h
  have hplain : ∀ c ∈ t.map plainDigit,
      (c.isDigit = true ∨ 128 ≤ c.toNat) ∧ isNumeralBlank c = false := by
    intro c hc
    obtain ⟨d, hd, rfl⟩ := List.mem_map.1 hc
    obtain ⟨hascii, hblank, -⟩ := plainDigit_of_isDigitSign (hsign d hd)
    refine ⟨hascii, ?_⟩
    rw [isNumeralBlank, hblank]
    rfl
  have hascii : ∀ c : Char, c.isDigit = false → c.toNat < 128 → c ∉ t.map plainDigit := by
    intro c hdigit hlt hc
    rcases (hplain c hc).1 with hc | hc
    · rw [hdigit] at hc
      cases hc
    · omega
  have hblank : ∀ c ∈ t.map plainDigit, isNumeralBlank c = false := fun c hc => (hplain c hc).2
  have hread : integer? 10 t = (digitsIn? 10 (t.map plainDigit)).map Int.ofNat := by
    rw [integer?, Address.dropWhile_eq_self hblank, Address.dropEndWhile_eq_self hblank]
    split
    · rename_i hplus
      exact absurd (hplus ▸ List.mem_cons_self) (hascii '+' (by decide) (by decide))
    · rename_i hminus
      exact absurd (hminus ▸ List.mem_cons_self) (hascii '-' (by decide) (by decide))
    · rw [natural?, dropAnnouncement_ten]
      rfl
  have hmap : t.map plainDigit ≠ [] := fun he => hne (List.map_eq_nil_iff.1 he)
  rw [hread, Option.isSome_map,
    digitsIn?_isSome_iff hmap (hascii '_' (by decide) (by decide)), List.forall_mem_map]
  refine forall₂_congr fun c hc => ?_
  rw [(plainDigit_of_isDigitSign (hsign c hc)).2.2]

theorem integer?_eq_none_iff {t : Text} (h : isDigits t = true) :
    integer? 10 t = none ↔ isFalseNumeral t = true := by
  rw [← Option.not_isSome_iff_eq_none, integer?_isSome_iff h, isFalseNumeral, h, Bool.true_and,
    List.any_eq_true]
  simp

theorem isFalseNumeral_of_subset {t part : Text} (h : hasPlainDigits t = true) (hsub : part ⊆ t) :
    isFalseNumeral part = false := by
  refine Bool.eq_false_iff.2 fun hfalse => ?_
  obtain ⟨hdigits, hother⟩ := Bool.and_eq_true_iff.1 hfalse
  obtain ⟨c, hc, hnone⟩ := List.any_eq_true.1 hother
  have hsign : isDigitSign c = true :=
    List.all_eq_true.1 (Bool.and_eq_true_iff.1 hdigits).2 c hc
  have hplain := List.all_eq_true.1 h c (hsub hc)
  rw [hsign, Bool.not_true, Bool.false_or, ← Option.not_isNone, hnone] at hplain
  cases hplain

theorem afterLast_subset (sep : Char) (t : Text) : afterLast sep t ⊆ t := by
  intro c hc
  exact List.mem_reverse.1 ((List.takeWhile_subset _) (List.mem_reverse.1 hc))

example : isFalseNumeral "1²" = true ∧ isFalseNumeral "1٣" = false ∧
    isFalseNumeral "x²" = false := by decide

/-! ## Digits of a base -/

/-- The number that digits of a base denote from the left. -/
def valueIn (base : Nat) (t : Text) : Nat :=
  t.foldl (fun n c => base * n + (digitIn? base c).getD 0) 0

/-- Only letters and digits of ASCII are digits of a base. -/
theorem isAlphanum_of_digitIn? {base : Nat} {c : Char} (h : (digitIn? base c).isSome = true) :
    c.isAlphanum = true := by
  unfold digitIn? at h
  rw [Char.isAlphanum, Char.isAlpha]
  cases hdigit : c.isDigit with
  | true => simp
  | false =>
    cases hlower : c.isLower with
    | true => simp
    | false =>
      cases hupper : c.isUpper with
      | true => simp
      | false => simp [hdigit, hlower, hupper] at h

theorem plainDigit_of_isAlphanum {c : Char} (h : c.isAlphanum = true) : plainDigit c = c := by
  have hsign : Address.isSign c = true := by simp [Address.isSign, h]
  have hlt : c.toNat < 128 := by
    have := (Address.toNat_of_isSign hsign).2
    omega
  cases hdigit : c.isDigit with
  | false => simp [plainDigit, decimalValue?, hlt, hdigit]
  | true =>
    have hle : '0'.toNat ≤ c.toNat := by
      simp only [Char.isDigit, Bool.and_eq_true, decide_eq_true_eq, ge_iff_le,
        UInt32.le_iff_toNat_le] at hdigit
      exact hdigit.1
    rw [plainDigit, decimalValue?_of_isDigit hdigit]
    simp only [Nat.sub_add_cancel hle, Char.ofNat_toNat]

theorem mapM_eq_some_map {α : Type} {f : α → Option Nat} {l : List α}
    (h : ∀ a ∈ l, (f a).isSome = true) : l.mapM f = some (l.map fun a => (f a).getD 0) := by
  induction l with
  | nil => rfl
  | cons a rest ih =>
    obtain ⟨n, hn⟩ := Option.isSome_iff_exists.1 (h a List.mem_cons_self)
    rw [List.mapM_cons, ih fun b hb => h b (List.mem_cons_of_mem a hb), hn]
    simp [hn]

theorem digitsIn?_of_digits {base : Nat} {t : Text} (hne : t ≠ [])
    (h : ∀ c ∈ t, (digitIn? base c).isSome = true) : digitsIn? base t = some (valueIn base t) := by
  have hmem : '_' ∉ t := by
    intro hc
    exact absurd (isAlphanum_of_digitIn? (h _ hc)) (by decide)
  have hempty : t.isEmpty = false := List.isEmpty_eq_false_iff.2 hne
  simp only [digitsIn?, splitOn_of_not_mem hmem, List.mapM_cons, hempty, mapM_eq_some_map h]
  simp [valueIn, List.foldl_map]

/-- No letter that announces a base is a digit of that base. -/
theorem dropAnnouncement_of_digits {base : Nat} (hbase : base = 10 ∨ base = 16) {t : Text}
    (h : ∀ c ∈ t, (digitIn? base c).isSome = true) : dropAnnouncement base t = t := by
  unfold dropAnnouncement
  split
  · rename_i c r
    have hc := h c (by simp)
    have hannounces : announces base c = false := by
      rcases hbase with rfl | rfl
      · rfl
      · refine Bool.eq_false_iff.2 fun hx => ?_
        simp only [announces, Bool.or_eq_true, decide_eq_true_eq] at hx
        rcases hx with rfl | rfl
        · exact absurd hc (by decide)
        · exact absurd hc (by decide)
    rw [hannounces]
    rfl
  · rfl

/-- Digits of a base, and one at least, are read as the number that they denote. -/
theorem integer?_of_digits {base : Nat} (hbase : base = 10 ∨ base = 16) {t : Text} (hne : t ≠ [])
    (h : ∀ c ∈ t, (digitIn? base c).isSome = true) :
    integer? base t = some (valueIn base t : Int) := by
  have halnum : ∀ c ∈ t, c.isAlphanum = true := fun c hc => isAlphanum_of_digitIn? (h c hc)
  have hplain : t.map plainDigit = t := by
    rw [List.map_congr_left fun c hc => plainDigit_of_isAlphanum (halnum c hc), List.map_id']
  have hblank : ∀ c ∈ t, isNumeralBlank c = false := by
    intro c hc
    have hsign : Address.isSign c = true := by simp [Address.isSign, halnum c hc]
    rw [isNumeralBlank, Address.isBlank_of_isSign hsign]
    rfl
  have hnatural : natural? base t = some (valueIn base t) := by
    have hrange : base ≠ 0 ∧ 2 ≤ base ∧ base ≤ 36 := by omega
    rw [natural?, if_neg hrange.1, if_pos hrange.2, dropAnnouncement_of_digits hbase h,
      digitsIn?_of_digits hne h]
  rw [integer?, hplain, Address.dropWhile_eq_self hblank, Address.dropEndWhile_eq_self hblank]
  split
  · exact absurd (halnum '+' List.mem_cons_self) (by decide)
  · exact absurd (halnum '-' List.mem_cons_self) (by decide)
  · rw [hnatural]
    rfl

theorem digitIn?_of_isDigit {c : Char} (h : c.isDigit = true) :
    digitIn? 10 c = some (c.toNat - '0'.toNat) := by
  have hrange : c.toNat - 48 < 10 := by
    simp only [Char.isDigit, Bool.and_eq_true, decide_eq_true_eq, ge_iff_le,
      UInt32.le_iff_toNat_le] at h
    change 48 ≤ c.toNat ∧ c.toNat ≤ 57 at h
    omega
  simpa [digitIn?, h] using hrange

theorem valueIn_ten {t : Text} (h : isAsciiDigits t = true) : valueIn 10 t = ofDecimal t := by
  simp only [isAsciiDigits, Bool.and_eq_true, List.all_eq_true] at h
  rw [valueIn, ofDecimal, Nat.ofDigitChars]
  refine List.foldl_ext _ _ _ fun n c hc => ?_
  rw [digitIn?_of_isDigit (h.2 c hc)]
  rfl

theorem integer?_of_isAsciiDigits {t : Text} (h : isAsciiDigits t = true) :
    integer? 10 t = some (ofDecimal t : Int) := by
  have hne : t ≠ [] := by
    rintro rfl
    exact absurd h (by decide)
  rw [← valueIn_ten h]
  refine integer?_of_digits (.inl rfl) hne fun c hc => ?_
  simp only [isAsciiDigits, Bool.and_eq_true, List.all_eq_true] at h
  rw [digitIn?_of_isDigit (h.2 c hc)]
  rfl

end StorageAtlas.Text
