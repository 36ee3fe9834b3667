import StorageAtlas.Bytes.Utf8
import StorageAtlas.Proofs.Text.Numeral

/-!
Reading UTF-8 is the inverse of writing it: what is read strictly is the text whose
bytes they are, and no bytes are read that no text has. A line feed is never part of
another character, so what stands before it is read for itself, gaps and all, and
so is what stands behind it.
-/

namespace StorageAtlas.Utf8

/-- Is it the bytes of a text? -/
def IsText (bytes : Bytes) : Prop := ∃ t, encode t = bytes

/-! ## First bytes -/

section Lead

variable {b : UInt8}

theorem lead_one (h : b.toNat < 0x80) : lead b = .whole (Char.ofNat b.toNat) := by
  rw [lead, if_pos h]

theorem lead_two (hlow : 0xC2 ≤ b.toNat) (hhigh : b.toNat < 0xE0) :
    lead b = .begun ⟨1, b.toNat - 0xC0, 0x80, 0xBF⟩ := by
  rw [lead, if_neg (by omega), if_neg (by omega), if_pos hhigh]

theorem lead_three (hlow : 0xE0 ≤ b.toNat) (hhigh : b.toNat < 0xF0) :
    lead b = .begun ⟨2, b.toNat - 0xE0, if b.toNat = 0xE0 then 0xA0 else 0x80,
      if b.toNat = 0xED then 0x9F else 0xBF⟩ := by
  rw [lead, if_neg (by omega), if_neg (by omega), if_neg (by omega)]
  split
  · simp_all
  · split
    · simp_all
    · rfl

theorem lead_four (hlow : 0xF0 ≤ b.toNat) (hhigh : b.toNat < 0xF5) :
    lead b = .begun ⟨3, b.toNat - 0xF0, if b.toNat = 0xF0 then 0x90 else 0x80,
      if b.toNat = 0xF4 then 0x8F else 0xBF⟩ := by
  rw [lead, if_neg (by omega), if_neg (by omega), if_neg (by omega), if_neg (by omega),
    if_neg (by omega), if_neg (by omega)]
  split
  · simp_all
  · split
    · rw [if_neg (by omega)]
    · have hlast : b.toNat = 0xF4 := by omega
      simp_all

theorem lead_never (h : 0x80 ≤ b.toNat ∧ b.toNat < 0xC2 ∨ 0xF5 ≤ b.toNat) : lead b = .never := by
  rw [lead, if_neg (by omega)]
  rcases h with h | h
  · rw [if_pos h.2]
  · rw [if_neg (by omega), if_neg (by omega), if_neg (by omega), if_neg (by omega),
      if_neg (by omega), if_neg (by omega), if_neg (by omega), if_neg (by omega)]

end Lead

/-! ## Reading what was written -/

section Begun

variable {b : UInt8} {bits low high : Nat}

/-- The last byte of a character that has begun. -/
theorem scanFrom_last (hlow : low ≤ b.toNat) (hhigh : b.toNat ≤ high) (r : Bytes) :
    scanFrom (some ⟨1, bits, low, high⟩) (b :: r) =
      some (Char.ofNat (64 * bits + (b.toNat - 0x80))) :: scan r := by
  rw [scanFrom, if_pos ⟨hlow, hhigh⟩]
  rfl

/-- A byte of a character that needs more behind it. -/
theorem scanFrom_more (hlow : low ≤ b.toNat) (hhigh : b.toNat ≤ high) (needed : Nat) (r : Bytes) :
    scanFrom (some ⟨needed + 2, bits, low, high⟩) (b :: r) =
      scanFrom (some ⟨needed + 1, 64 * bits + (b.toNat - 0x80), 0x80, 0xBF⟩) r := by
  rw [scanFrom, if_pos ⟨hlow, hhigh⟩]
  exact if_neg (by simp)

end Begun

theorem scan_of_whole {b : UInt8} {c : Char} (h : lead b = .whole c) (r : Bytes) :
    scan (b :: r) = some c :: scan r := by
  rw [scan, scanFrom, h]
  rfl

theorem scan_of_begun {b : UInt8} {s : Begun} (h : lead b = .begun s) (r : Bytes) :
    scan (b :: r) = scanFrom (some s) r := by
  rw [scan, scanFrom, h]

theorem toNat_ofNat_byte {n : Nat} (h : n < 256) : (UInt8.ofNat n).toNat = n := by
  rw [UInt8.toNat_ofNat', Nat.mod_eq_of_lt h]

/-- A written character is read as itself, whatever stands behind it. -/
theorem scan_encodeChar_append (c : Char) (r : Bytes) :
    scan (String.utf8EncodeChar c ++ r) = some c :: scan r := by
  have hvalid : c.val.toNat < 0xD800 ∨ 0xDFFF < c.val.toNat ∧ c.val.toNat < 0x110000 := c.valid
  have hback : Char.ofNat c.val.toNat = c := Char.ofNat_toNat c
  have hlast := toNat_ofNat_byte (show c.val.toNat % 64 + 128 < 256 by omega)
  have hthird := toNat_ofNat_byte (show c.val.toNat / 64 % 64 + 128 < 256 by omega)
  have hsecond := toNat_ofNat_byte (show c.val.toNat / 4096 % 64 + 128 < 256 by omega)
  unfold String.utf8EncodeChar
  generalize c.val.toNat = v at hvalid hback hlast hthird hsecond
  simp only
  split
  · have hfirst := toNat_ofNat_byte (show v < 256 by omega)
    rw [List.cons_append, List.nil_append, scan_of_whole (lead_one (by omega)), hfirst, hback]
  · split
    · have hfirst := toNat_ofNat_byte (show v / 64 % 32 + 192 < 256 by omega)
      have hbits : 64 * (v / 64 % 32 + 192 - 0xC0) + (v % 64 + 128 - 0x80) = v := by omega
      simp only [List.cons_append, List.nil_append]
      rw [scan_of_begun (lead_two (by omega) (by omega)), scanFrom_last (by omega) (by omega),
        hfirst, hlast, hbits, hback]
    · split
      · have hfirst := toNat_ofNat_byte (show v / 4096 % 16 + 224 < 256 by omega)
        have hbits : 64 * (64 * (v / 4096 % 16 + 224 - 0xE0) + (v / 64 % 64 + 128 - 0x80)) +
            (v % 64 + 128 - 0x80) = v := by omega
        simp only [List.cons_append, List.nil_append]
        rw [scan_of_begun (lead_three (by omega) (by omega)),
          scanFrom_more (by grind) (by grind), scanFrom_last (by omega) (by omega), hfirst,
          hthird, hlast, hbits, hback]
      · have hfirst := toNat_ofNat_byte (show v / 262144 % 8 + 240 < 256 by omega)
        have hbits : 64 * (64 * (64 * (v / 262144 % 8 + 240 - 0xF0) +
            (v / 4096 % 64 + 128 - 0x80)) + (v / 64 % 64 + 128 - 0x80)) +
            (v % 64 + 128 - 0x80) = v := by omega
        simp only [List.cons_append, List.nil_append]
        rw [scan_of_begun (lead_four (by omega) (by omega)),
          scanFrom_more (by grind) (by grind), scanFrom_more (by omega) (by omega),
          scanFrom_last (by omega) (by omega), hfirst, hsecond, hthird, hlast, hbits, hback]

theorem scan_encode (t : Text) : scan (encode t) = t.map some := by
  induction t with
  | nil => rfl
  | cons c t ih =>
    rw [encode, List.flatMap_cons, scan_encodeChar_append, List.map_cons, ← ih]
    rfl

theorem decodeLossy_encode (t : Text) : decodeLossy (encode t) = t := by
  rw [decodeLossy, scan_encode, List.map_map]
  exact List.map_id' t

/-! ## Writing what was read -/

/-- Every byte shows up, in a character or in a gap. -/
theorem scanFrom_eq_nil_iff (begun : Option Begun) (bytes : Bytes) :
    scanFrom begun bytes = [] ↔ begun = none ∧ bytes = [] := by
  fun_induction scanFrom begun bytes with
  -- a character that has begun shows up later on
  | case4 b r state hlead ih => simp [ih]
  | case7 state b r hbounds bits hneeded ih => simp [ih]
  | case1 | case2 | case3 | case5 | case6 | case8 | case9 | case10 => simp

theorem decodeLossy_eq_nil_iff {bytes : Bytes} : decodeLossy bytes = [] ↔ bytes = [] := by
  rw [decodeLossy, List.map_eq_nil_iff, scan, scanFrom_eq_nil_iff]
  simp

theorem exists_of_scanFrom_begun {s : Begun} {r : Bytes} {c : Char} {rest : List (Option Char)}
    (h : scanFrom (some s) r = some c :: rest) :
    ∃ b r', r = b :: r' ∧ s.low ≤ b.toNat ∧ b.toNat ≤ s.high := by
  cases r with
  | nil => simp [scanFrom] at h
  | cons b r' =>
    refine ⟨b, r', rfl, ?_⟩
    by_contra hbounds
    rw [scanFrom, if_neg hbounds] at h
    split at h <;> simp at h

/-- The numbers of characters are the numbers that are no surrogates. -/
theorem toNat_ofNat_char {v : Nat} (h : v < 0xD800 ∨ 0xDFFF < v ∧ v < 0x110000) :
    (Char.ofNat v).val.toNat = v :=
  (Char.toNat_ofNat v).trans (if_pos h)

/-- The character of a byte has its number. -/
theorem toNat_ofNat_toNat (b : UInt8) : (Char.ofNat b.toNat).val.toNat = b.toNat := by
  have := b.toNat_lt
  exact toNat_ofNat_char (by omega)

section Bits

variable {b b₁ b₂ b₃ : UInt8}

theorem encodeChar_one (h : b.toNat < 0x80) : String.utf8EncodeChar (Char.ofNat b.toNat) = [b] := by
  rw [String.utf8EncodeChar, toNat_ofNat_toNat, if_pos (by omega), UInt8.ofNat_toNat]

theorem encodeChar_two (hlow : 0xC2 ≤ b.toNat) (hhigh : b.toNat < 0xE0)
    (hlow₁ : 0x80 ≤ b₁.toNat) (hhigh₁ : b₁.toNat ≤ 0xBF) :
    String.utf8EncodeChar (Char.ofNat (64 * (b.toNat - 0xC0) + (b₁.toNat - 0x80))) = [b, b₁] := by
  have hb : (64 * (b.toNat - 0xC0) + (b₁.toNat - 0x80)) / 64 % 32 + 192 = b.toNat := by omega
  have hb₁ : (64 * (b.toNat - 0xC0) + (b₁.toNat - 0x80)) % 64 + 128 = b₁.toNat := by omega
  rw [String.utf8EncodeChar, toNat_ofNat_char (by omega), if_neg (by omega), if_pos (by omega), hb,
    hb₁, UInt8.ofNat_toNat, UInt8.ofNat_toNat]

/-- The bounds of the second byte keep long forms and surrogates out. -/
theorem encodeChar_three (hlow : 0xE0 ≤ b.toNat) (hhigh : b.toNat < 0xF0)
    (hlow₁ : (if b.toNat = 0xE0 then 0xA0 else 0x80) ≤ b₁.toNat)
    (hhigh₁ : b₁.toNat ≤ if b.toNat = 0xED then 0x9F else 0xBF)
    (hlow₂ : 0x80 ≤ b₂.toNat) (hhigh₂ : b₂.toNat ≤ 0xBF) :
    String.utf8EncodeChar (Char.ofNat
      (64 * (64 * (b.toNat - 0xE0) + (b₁.toNat - 0x80)) + (b₂.toNat - 0x80))) = [b, b₁, b₂] := by
  have hlong : 0xA0 ≤ b₁.toNat ∨ 0xE0 < b.toNat := by grind
  have hsurrogate : b₁.toNat ≤ 0x9F ∨ b.toNat ≠ 0xED := by grind
  have hsecond : 0x80 ≤ b₁.toNat ∧ b₁.toNat ≤ 0xBF := by grind
  generalize hv : 64 * (64 * (b.toNat - 0xE0) + (b₁.toNat - 0x80)) + (b₂.toNat - 0x80) = v
  have hb : v / 4096 % 16 + 224 = b.toNat := by omega
  have hb₁ : v / 64 % 64 + 128 = b₁.toNat := by omega
  have hb₂ : v % 64 + 128 = b₂.toNat := by omega
  rw [String.utf8EncodeChar, toNat_ofNat_char (by omega), if_neg (by omega), if_neg (by omega),
    if_pos (by omega), hb, hb₁, hb₂, UInt8.ofNat_toNat, UInt8.ofNat_toNat, UInt8.ofNat_toNat]

/-- The bounds of the second byte keep long forms and what is beyond the last character out. -/
theorem encodeChar_four (hlow : 0xF0 ≤ b.toNat) (hhigh : b.toNat < 0xF5)
    (hlow₁ : (if b.toNat = 0xF0 then 0x90 else 0x80) ≤ b₁.toNat)
    (hhigh₁ : b₁.toNat ≤ if b.toNat = 0xF4 then 0x8F else 0xBF)
    (hlow₂ : 0x80 ≤ b₂.toNat) (hhigh₂ : b₂.toNat ≤ 0xBF)
    (hlow₃ : 0x80 ≤ b₃.toNat) (hhigh₃ : b₃.toNat ≤ 0xBF) :
    String.utf8EncodeChar (Char.ofNat
      (64 * (64 * (64 * (b.toNat - 0xF0) + (b₁.toNat - 0x80)) + (b₂.toNat - 0x80)) +
        (b₃.toNat - 0x80))) = [b, b₁, b₂, b₃] := by
  have hlong : 0x90 ≤ b₁.toNat ∨ 0xF0 < b.toNat := by grind
  have hbeyond : b₁.toNat ≤ 0x8F ∨ b.toNat < 0xF4 := by grind
  have hsecond : 0x80 ≤ b₁.toNat ∧ b₁.toNat ≤ 0xBF := by grind
  generalize hv : 64 * (64 * (64 * (b.toNat - 0xF0) + (b₁.toNat - 0x80)) + (b₂.toNat - 0x80)) +
    (b₃.toNat - 0x80) = v
  have hb : v / 262144 % 8 + 240 = b.toNat := by omega
  have hb₁ : v / 4096 % 64 + 128 = b₁.toNat := by omega
  have hb₂ : v / 64 % 64 + 128 = b₂.toNat := by omega
  have hb₃ : v % 64 + 128 = b₃.toNat := by omega
  rw [String.utf8EncodeChar, toNat_ofNat_char (by omega), if_neg (by omega), if_neg (by omega),
    if_neg (by omega), hb, hb₁, hb₂, hb₃, UInt8.ofNat_toNat, UInt8.ofNat_toNat,
    UInt8.ofNat_toNat, UInt8.ofNat_toNat]

end Bits

/-- The bytes of which a character has been read are those with which it is written. -/
theorem exists_encodeChar_of_scan {b : UInt8} {r : Bytes} {c : Char} {rest : List (Option Char)}
    (h : scan (b :: r) = some c :: rest) :
    ∃ r', b :: r = String.utf8EncodeChar c ++ r' ∧ scan r' = rest := by
  have hrange : b.toNat < 0x80 ∨ (0x80 ≤ b.toNat ∧ b.toNat < 0xC2 ∨ 0xF5 ≤ b.toNat) ∨
      (0xC2 ≤ b.toNat ∧ b.toNat < 0xE0) ∨ (0xE0 ≤ b.toNat ∧ b.toNat < 0xF0) ∨
      (0xF0 ≤ b.toNat ∧ b.toNat < 0xF5) := by omega
  rcases hrange with hone | hnever | ⟨hlow, hhigh⟩ | ⟨hlow, hhigh⟩ | ⟨hlow, hhigh⟩
  · rw [scan_of_whole (lead_one hone)] at h
    obtain ⟨hc, hrest⟩ := List.cons.inj h
    obtain rfl := Option.some.inj hc
    exact ⟨r, by rw [encodeChar_one hone]; rfl, hrest⟩
  · rw [scan, scanFrom, lead_never hnever] at h
    cases h
  · rw [scan_of_begun (lead_two hlow hhigh)] at h
    obtain ⟨b₁, r₁, rfl, hlow₁, hhigh₁⟩ := exists_of_scanFrom_begun h
    rw [scanFrom_last hlow₁ hhigh₁] at h
    obtain ⟨hc, hrest⟩ := List.cons.inj h
    obtain rfl := Option.some.inj hc
    exact ⟨r₁, by rw [encodeChar_two hlow hhigh hlow₁ hhigh₁]; rfl, hrest⟩
  · rw [scan_of_begun (lead_three hlow hhigh)] at h
    obtain ⟨b₁, r₁, rfl, hlow₁, hhigh₁⟩ := exists_of_scanFrom_begun h
    rw [scanFrom_more hlow₁ hhigh₁] at h
    obtain ⟨b₂, r₂, rfl, hlow₂, hhigh₂⟩ := exists_of_scanFrom_begun h
    rw [scanFrom_last hlow₂ hhigh₂] at h
    obtain ⟨hc, hrest⟩ := List.cons.inj h
    obtain rfl := Option.some.inj hc
    exact ⟨r₂, by rw [encodeChar_three hlow hhigh hlow₁ hhigh₁ hlow₂ hhigh₂]; rfl, hrest⟩
  · rw [scan_of_begun (lead_four hlow hhigh)] at h
    obtain ⟨b₁, r₁, rfl, hlow₁, hhigh₁⟩ := exists_of_scanFrom_begun h
    rw [scanFrom_more hlow₁ hhigh₁] at h
    obtain ⟨b₂, r₂, rfl, hlow₂, hhigh₂⟩ := exists_of_scanFrom_begun h
    rw [scanFrom_more hlow₂ hhigh₂] at h
    obtain ⟨b₃, r₃, rfl, hlow₃, hhigh₃⟩ := exists_of_scanFrom_begun h
    rw [scanFrom_last hlow₃ hhigh₃] at h
    obtain ⟨hc, hrest⟩ := List.cons.inj h
    obtain rfl := Option.some.inj hc
    exact ⟨r₃, by rw [encodeChar_four hlow hhigh hlow₁ hhigh₁ hlow₂ hhigh₂ hlow₃ hhigh₃]; rfl,
      hrest⟩

theorem scan_eq_map_some_iff {t : Text} {bytes : Bytes} :
    scan bytes = t.map some ↔ encode t = bytes := by
  constructor
  · intro h
    induction t generalizing bytes with
    | nil =>
      obtain ⟨-, rfl⟩ := (scanFrom_eq_nil_iff none bytes).1 h
      rfl
    | cons c t ih =>
      cases bytes with
      | nil => cases h
      | cons b r =>
        obtain ⟨r', hr, hrest⟩ := exists_encodeChar_of_scan h
        rw [hr, ← ih hrest]
        rfl
  · rintro rfl
    exact scan_encode t

theorem mapM_id_eq_some_iff {α : Type} {l : List (Option α)} {m : List α} :
    l.mapM id = some m ↔ l = m.map some := by
  induction l generalizing m with
  | nil => cases m <;> simp [pure]
  | cons a l ih =>
    rw [List.mapM_cons]
    cases a with
    | none => cases m <;> simp
    | some c => cases m <;> simp [Option.bind_eq_some_iff, ih, and_comm]

/-- What is read strictly is the text whose bytes they are. -/
theorem decode?_eq_some_iff {bytes : Bytes} {t : Text} :
    decode? bytes = some t ↔ encode t = bytes := by
  rw [decode?, mapM_id_eq_some_iff, scan_eq_map_some_iff]

theorem decode?_encode (t : Text) : decode? (encode t) = some t := decode?_eq_some_iff.2 rfl

theorem encode_injective : Function.Injective encode := by
  intro t u h
  have hdecode := decode?_encode t
  rw [h, decode?_encode] at hdecode
  exact (Option.some.inj hdecode).symm

theorem isSome_decode?_iff {bytes : Bytes} : (decode? bytes).isSome = true ↔ IsText bytes := by
  rw [Option.isSome_iff_exists]
  exact exists_congr fun t => decode?_eq_some_iff

instance : DecidablePred IsText := fun _ => decidable_of_iff _ isSome_decode?_iff

theorem decode?_of_not_isText {bytes : Bytes} (h : ¬ IsText bytes) : decode? bytes = none := by
  rwa [← isSome_decode?_iff, Option.not_isSome_iff_eq_none] at h

/-! ## Line feeds -/

/-- No byte of ASCII carries on a character that has begun. -/
theorem low_of_lead {b : UInt8} {s : Begun} (h : lead b = .begun s) : 0x80 ≤ s.low := by
  unfold lead at h
  grind

/-- A line feed closes what stands before it, whole or not, and what stands behind it begins anew. -/
theorem scanFrom_append_feed (begun : Option Begun) (hlow : ∀ s ∈ begun, 0x80 ≤ s.low)
    (a b : Bytes) :
    scanFrom begun (a ++ 10 :: b) = scanFrom begun a ++ some '\n' :: scan b := by
  -- the induction is on the bytes before it, over every character that may have begun there
  induction a generalizing begun with
  | nil =>
    cases begun with
    | none => rfl
    | some s =>
      have hshort : ¬ (s.low ≤ (10 : UInt8).toNat ∧ (10 : UInt8).toNat ≤ s.high) := by
        have := hlow s rfl
        simp
        omega
      rw [List.nil_append, scanFrom.eq_def]
      exact if_neg hshort
  | cons c r ih =>
    have hnone := ih none (by simp)
    have hsome (s : Begun) (h : 0x80 ≤ s.low) := ih (some s) (by simpa using h)
    cases begun with
    | none =>
      simp only [List.cons_append, scanFrom]
      cases hlead : lead c with
      | whole | never => simp only [hnone, List.cons_append]
      | begun s => exact hsome s (low_of_lead hlead)
    | some s =>
      simp only [List.cons_append, scanFrom]
      split
      · split
        · simp only [hnone, List.cons_append]
        · exact hsome _ (Nat.le_refl _)
      · cases hlead : lead c with
        | whole | never => simp only [hnone, List.cons_append]
        | begun s' => simp only [hsome s' (low_of_lead hlead), List.cons_append]

theorem scan_append_feed (a b : Bytes) :
    scan (a ++ 10 :: b) = scan a ++ some '\n' :: scan b :=
  scanFrom_append_feed none (by simp) a b

theorem decodeLossy_append_feed (a b : Bytes) :
    decodeLossy (a ++ 10 :: b) = decodeLossy a ++ '\n' :: decodeLossy b := by
  rw [decodeLossy, scan_append_feed, List.map_append, List.map_cons]
  rfl

theorem decodeLossy_intercalate (lines : List Bytes) :
    decodeLossy ([10].intercalate lines) = Text.join ['\n'] (lines.map decodeLossy) := by
  induction lines with
  | nil => rfl
  | cons line rest ih =>
    cases rest with
    | nil => rw [List.intercalate_singleton]; rfl
    | cons next rest =>
      rw [List.intercalate_cons_cons, List.append_assoc, List.singleton_append,
        decodeLossy_append_feed, ih]
      simp only [List.map_cons, Text.join, List.append_assoc, List.singleton_append]

theorem decodeLatin1_append_feed (a b : Bytes) :
    decodeLatin1 (a ++ 10 :: b) = decodeLatin1 a ++ '\n' :: decodeLatin1 b := by
  rw [decodeLatin1, List.map_append, List.map_cons]
  rfl

theorem encode_append_feed (t u : Text) :
    encode (t ++ '\n' :: u) = encode t ++ 10 :: encode u := by
  rw [encode, List.flatMap_append, List.flatMap_cons]
  rfl

theorem isText_iff {bytes : Bytes} : IsText bytes ↔ ∀ c ∈ scan bytes, c.isSome = true := by
  rw [← isSome_decode?_iff, decode?, Text.mapM_isSome_iff]
  rfl

/-- Lines are a text together exactly if each of them is one. -/
theorem isText_append_feed {a b : Bytes} : IsText (a ++ 10 :: b) ↔ IsText a ∧ IsText b := by
  simp only [isText_iff, scan_append_feed, List.forall_mem_append, List.forall_mem_cons,
    Option.isSome_some, true_and]

theorem feed_mem_encode_iff {t : Text} : 10 ∈ encode t ↔ '\n' ∈ t := by
  constructor
  · intro h
    -- its bytes are two texts with the line feed between them
    obtain ⟨a, b, hab⟩ := List.append_of_mem h
    obtain ⟨⟨u, rfl⟩, v, rfl⟩ := isText_append_feed.1 ⟨t, hab⟩
    rw [← encode_append_feed] at hab
    rw [encode_injective hab]
    simp
  · intro h
    exact List.mem_flatMap.2 ⟨'\n', h, by decide⟩

theorem feed_mem_decodeLatin1_iff {a : Bytes} : '\n' ∈ decodeLatin1 a ↔ 10 ∈ a := by
  constructor
  · intro h
    obtain ⟨b, hb, hfeed⟩ := List.mem_map.1 h
    have hnumber : b.toNat = 10 := by
      rw [← toNat_ofNat_toNat b, hfeed]
      rfl
    rwa [← UInt8.toNat_inj.1 (show b.toNat = (10 : UInt8).toNat from hnumber)]
  · intro h
    exact List.mem_map.2 ⟨10, h, rfl⟩

/-! ## One character for each byte -/

/-- Is it nothing but bytes of ASCII? -/
def IsAscii (bytes : Bytes) : Prop := ∀ b ∈ bytes, b.toNat < 0x80

instance : DecidablePred IsAscii := List.decidableBAll _

/-- A byte beyond ASCII takes two bytes as a character. -/
theorem length_encode_decodeLatin1 (a : Bytes) :
    (encode (decodeLatin1 a)).length = a.length + a.countP fun b => 0x80 ≤ b.toNat := by
  induction a with
  | nil => rfl
  | cons b r ih =>
    have hlen : (String.utf8EncodeChar (Char.ofNat b.toNat)).length =
        1 + if 0x80 ≤ b.toNat then 1 else 0 := by
      have hbyte := b.toNat_lt
      rw [String.utf8EncodeChar, toNat_ofNat_toNat]
      split
      · rw [if_neg (by omega)]
        rfl
      · rw [if_pos (by omega), if_pos (by omega)]
        rfl
    rw [decodeLatin1, List.map_cons, encode, List.flatMap_cons, List.length_append, hlen,
      List.countP_cons, List.length_cons]
    rw [decodeLatin1, encode] at ih
    grind

theorem encode_decodeLatin1 {a : Bytes} (h : IsAscii a) : encode (decodeLatin1 a) = a := by
  induction a with
  | nil => rfl
  | cons b r ih =>
    have hb := h b (List.mem_cons_self ..)
    have hr := ih fun c hc => h c (List.mem_cons_of_mem b hc)
    rw [decodeLatin1, List.map_cons, encode, List.flatMap_cons, encodeChar_one hb,
      List.singleton_append]
    exact congrArg (b :: ·) hr

/-- Both readings are the same exactly for bytes of ASCII. -/
theorem encode_decodeLatin1_eq_iff {a : Bytes} : encode (decodeLatin1 a) = a ↔ IsAscii a := by
  constructor
  · intro h
    have hnone := length_encode_decodeLatin1 a
    rw [h, left_eq_add, List.countP_eq_zero] at hnone
    intro b hb
    simpa using hnone b hb
  · exact encode_decodeLatin1

theorem isAscii_encode {t : Text} (h : ∀ c ∈ t, c.val.toNat < 0x80) : IsAscii (encode t) := by
  intro b hb
  obtain ⟨c, hc, hb⟩ := List.mem_flatMap.1 hb
  have hascii := h c hc
  rw [String.utf8EncodeChar, if_pos (by omega), List.mem_singleton] at hb
  rwa [hb, toNat_ofNat_byte (by omega)]

end StorageAtlas.Utf8
