import StorageAtlas.Proofs.Address.Conversion
import StorageAtlas.Proofs.Address.RoundTrip

/-!
The grammar of units: four fields with colons between them, of which the first
three are decimal numbers and the last is a LUN in one of three forms. A text
that does not begin with the letter of namespaces is read exactly if it has this
form, and then as the unit that its fields denote.
-/

namespace StorageAtlas.Address

open Text (isAsciiDigits ofDecimal)

/-! ## The forms of a LUN -/

/-- A hexadecimal digit of ASCII, in either case. -/
def IsHexSign (c : Char) : Prop :=
  c.isDigit = true ∨ ('a' ≤ c ∧ c ≤ 'f') ∨ ('A' ≤ c ∧ c ≤ 'F')

instance (c : Char) : Decidable (IsHexSign c) :=
  inferInstanceAs (Decidable (c.isDigit = true ∨ ('a' ≤ c ∧ c ≤ 'f') ∨ ('A' ≤ c ∧ c ≤ 'F')))

/-- A LUN as text: minus one for an invalidated one, a decimal number of 64 bits, or a tag and up
to sixteen hexadecimal digits with underscores anywhere between them. -/
inductive IsLunText : Text → Prop
  | invalid : IsLunText "-1"
  | decimal {field : Text} (digits : isAsciiDigits field = true)
      (room : ofDecimal field ≤ 2 ^ 64 - 1) : IsLunText field
  | hex {tag : Char} {body : Text} (tagged : tag = 'x' ∨ tag = 'X')
      (digits : ∀ c ∈ body, IsHexSign c ∨ c = '_')
      (some : 1 ≤ (body.filter (· ≠ '_')).length)
      (room : (body.filter (· ≠ '_')).length ≤ 16) : IsLunText ('0' :: tag :: body)

/-- The number that each form denotes. Hexadecimal digits are the bytes of the LUN from the left,
and the bytes that are left out are zero. -/
inductive DenotesLun : Text → Nat → Prop
  | invalid : DenotesLun "-1" (2 ^ 64 - 1)
  | decimal {field : Text} (digits : isAsciiDigits field = true) :
      DenotesLun field (ofDecimal field)
  | hex {tag : Char} {body : Text} {bytes : Bytes} {lun : Nat} (tagged : tag = 'x' ∨ tag = 'X')
      (digits : Bytes.hex bytes = Text.lower (Strict.evened (body.filter (· ≠ '_'))))
      (number : Lun.toNat (bytes.padEnd 8) = .ok lun)
      (back : Lun.ofNat lun = bytes.padEnd 8) : DenotesLun ('0' :: tag :: body) lun

theorem toNat_of_isHexSign {c : Char} (h : IsHexSign c) : c.toNat < 128 := by
  rcases h with h | ⟨-, h⟩ | ⟨-, h⟩
  · have := (toNat_of_isSign (isSign_of_isDigit h)).2
    omega
  · exact Nat.lt_of_le_of_lt (UInt32.le_iff_toNat_le.1 h) (by decide)
  · exact Nat.lt_of_le_of_lt (UInt32.le_iff_toNat_le.1 h) (by decide)

theorem isHexDigit_iff {c : Char} : isHexDigit c = true ↔ IsHexSign c := by
  have hrange : ∀ n < 128, (isHexDigit (Char.ofNat n) = true ↔ IsHexSign (Char.ofNat n)) := by
    decide +kernel
  have hascii := fun h : c.toNat < 128 => hrange c.toNat h
  simp only [Char.ofNat_toNat] at hascii
  constructor
  · intro h
    have hsign : isSign c = true := by simp [isSign, Text.isAlphanum_of_digitIn? h]
    have hlt := (toNat_of_isSign hsign).2
    exact (hascii (by omega)).1 h
  · intro h
    exact (hascii (toNat_of_isHexSign h)).2 h

theorem eq_of_toLower_eq_x {c : Char} (h : c.toLower = 'x') : c = 'x' ∨ c = 'X' := by
  unfold Char.toLower at h
  split at h
  · right
    have hval : c.val + 32 = 120 := congrArg Char.val h
    apply Char.ext
    show c.val = 88
    grind
  · exact .inl h

theorem eq_of_toLower_eq_zero {c : Char} (h : c.toLower = '0') : c = '0' := by
  unfold Char.toLower at h
  split at h
  · rename_i hupper
    have hval : c.val + 32 = 48 := congrArg Char.val h
    have hge : (65 : UInt32) ≤ c.val := hupper.1
    have hle : c.val ≤ (90 : UInt32) := hupper.2
    grind
  · exact h

/-- A tag is a zero and the letter in either case. -/
theorem hasHexTag_iff {field : Text} :
    hasHexTag field = true ↔ ∃ tag body, (tag = 'x' ∨ tag = 'X') ∧ field = '0' :: tag :: body := by
  constructor
  · intro h
    have hlower : Text.lower (field.take 2) = ['0', 'x'] := of_decide_eq_true h
    match field with
    | [] => simp [Text.lower] at hlower
    | [_] => simp [Text.lower] at hlower
    | zero :: tag :: body =>
      have hletters : zero.toLower = '0' ∧ tag.toLower = 'x' := by simpa [Text.lower] using hlower
      have hzero : zero = '0' := eq_of_toLower_eq_zero hletters.1
      exact ⟨tag, body, eq_of_toLower_eq_x hletters.2, by rw [hzero]⟩
  · rintro ⟨tag, body, rfl | rfl, rfl⟩
    · rfl
    · rfl

/-- Digits and underscores are what is left of a text of digits by taking the underscores away. -/
theorem all_isHexDigit_filter {body : Text} :
    (body.filter (· ≠ '_')).all isHexDigit = true ↔ ∀ c ∈ body, IsHexSign c ∨ c = '_' := by
  simp only [List.all_eq_true, List.mem_filter, decide_eq_true_eq, and_imp, isHexDigit_iff]
  refine forall₂_congr fun c _ => ?_
  tauto

/-- A tagged field passes the checks exactly if its digits are hexadecimal and one to sixteen. -/
theorem tagged_checked_iff {body : Text} :
    ¬ ((body.filter (· ≠ '_')).isEmpty || decide (16 < (body.filter (· ≠ '_')).length) ||
      !(body.filter (· ≠ '_')).all isHexDigit) = true ↔
    (∀ c ∈ body, IsHexSign c ∨ c = '_') ∧ 1 ≤ (body.filter (· ≠ '_')).length ∧
      (body.filter (· ≠ '_')).length ≤ 16 := by
  rw [← all_isHexDigit_filter, Nat.one_le_iff_ne_zero, Ne, List.length_eq_zero_iff]
  simp only [Bool.or_eq_true, decide_eq_true_eq, Bool.not_eq_true', not_or, Bool.not_eq_false,
    Nat.not_lt, List.isEmpty_iff]
  tauto

theorem readLun_tagged {tag : Char} (htag : tag = 'x' ∨ tag = 'X') (body : Text) :
    readLun ('0' :: tag :: body) = match hexLunBytes? body with
      | some bytes => .ok (Lun.ofWords (Lun.wordsOf bytes))
      | none => .error (.badHexLun ('0' :: tag :: body)) := by
  rw [readLun, if_pos (hasHexTag_iff.2 ⟨tag, body, htag, rfl⟩)]
  rfl

/-- A field of the grammar is read, and as the number that it denotes. -/
theorem exists_readLun {field : Text} (h : IsLunText field) :
    ∃ lun, readLun field = .ok lun ∧ DenotesLun field lun := by
  cases h with
  | invalid => exact ⟨Lun.last, rfl, .invalid⟩
  | decimal digits room =>
    exact ⟨ofDecimal field, readLun_of_isAsciiDigits digits room, .decimal digits⟩
  | hex tagged digits some room =>
    rename_i tag body
    obtain ⟨read, hread, hlength, hbytes⟩ :=
      Strict.hexLun_of_checked (tagged_checked_iff.2 ⟨digits, some, room⟩)
    have hnumber : Lun.toNat (read.padEnd 8) = .ok (Lun.ofWords (Lun.wordsOf (read.padEnd 8))) := by
      rw [Lun.toNat, if_pos hlength]
    refine ⟨_, ?_, .hex tagged (Bytes.hex_of_ofHex? hread) hnumber
      (Lun.ofNat_ofWords_wordsOf hlength)⟩
    rw [readLun_tagged tagged, hbytes]

/-- No other field is read. -/
theorem isLunText_of_readLun {field : Text} {lun : Nat} (h : readLun field = .ok lun) :
    IsLunText field := by
  by_cases htagged : hasHexTag field = true
  · obtain ⟨tag, body, htag, rfl⟩ := hasHexTag_iff.1 htagged
    rw [readLun_tagged htag] at h
    have hchecked := tagged_checked_iff.1 fun hrefused => by
      rw [Strict.hexLunBytes?_of_refused hrefused] at h
      cases h
    exact .hex htag hchecked.1 hchecked.2.1 hchecked.2.2
  · rw [readLun, if_neg htagged] at h
    split at h
    · rename_i hinvalid
      exact hinvalid ▸ .invalid
    · split at h
      · cases h
      · rename_i hdigits
        simp only at h
        split at h
        · rename_i hle
          exact .decimal (by simpa using hdigits) hle
        · cases h

/-! ## The four fields -/

/-- The whole form of a unit as text. -/
def IsUnitText (s : Text) : Prop :=
  ∃ host channel target lun, Text.splitOn ':' s = [host, channel, target, lun] ∧
    isAsciiDigits host = true ∧ isAsciiDigits channel = true ∧ isAsciiDigits target = true ∧
    IsLunText lun

/-- The address that the fields denote. -/
def DenotesUnit (s : Text) (a : Address) : Prop :=
  ∃ host channel target lun n, Text.splitOn ':' s = [host, channel, target, lun] ∧
    DenotesLun lun n ∧ scsi (ofDecimal host) (ofDecimal channel) (ofDecimal target) n = .ok a

/-- Four fields are read if the first three are digits and the last is a LUN. -/
theorem readScsiFields_of_fields {host channel target lun : Text} {n : Nat}
    (hh : isAsciiDigits host = true) (hc : isAsciiDigits channel = true)
    (ht : isAsciiDigits target = true) (hn : readLun lun = .ok n) (text : Text) :
    readScsiFields [host, channel, target, lun] text =
      .ok (ofLun (ofDecimal host) (ofDecimal channel) (ofDecimal target) n) := by
  simp [readScsiFields, hh, hc, ht, hn, Except.map]

theorem fields_of_readScsiFields {fields : List Text} {text : Text} {a : Address}
    (h : readScsiFields fields text = .ok a) :
    ∃ host channel target lun n, fields = [host, channel, target, lun] ∧
      isAsciiDigits host = true ∧ isAsciiDigits channel = true ∧ isAsciiDigits target = true ∧
      readLun lun = .ok n ∧
      a = ofLun (ofDecimal host) (ofDecimal channel) (ofDecimal target) n := by
  unfold readScsiFields at h
  split at h
  · split at h
    · rename_i host channel target lun hdigits
      simp only [Bool.and_eq_true] at hdigits
      obtain ⟨n, hn, rfl⟩ := exists_of_map_eq_ok h
      exact ⟨host, channel, target, lun, n, rfl, hdigits.1.1, hdigits.1.2, hdigits.2, hn, rfl⟩
    · cases h
  · cases h

theorem parse_eq_readScsiFields {text : Text} {c : Char} {rest : Text}
    (hstrip : strip text = c :: rest) (hN : c ≠ 'N') (hn : c ≠ 'n') :
    parse text = readScsiFields (Text.splitOn ':' (strip text)) text := by
  simp only [parse, hstrip, hN, hn, decide_false, Bool.or_self, Bool.false_eq_true, if_false]

theorem isUnitText_iff {text : Text} {c : Char} {rest : Text} (hstrip : strip text = c :: rest)
    (hN : c ≠ 'N') (hn : c ≠ 'n') : (∃ a, parse text = .ok a) ↔ IsUnitText (strip text) := by
  rw [parse_eq_readScsiFields hstrip hN hn]
  constructor
  · rintro ⟨a, ha⟩
    obtain ⟨host, channel, target, lun, n, hfields, hh, hc, ht, hread, -⟩ :=
      fields_of_readScsiFields ha
    exact ⟨host, channel, target, lun, hfields, hh, hc, ht, isLunText_of_readLun hread⟩
  · rintro ⟨host, channel, target, lun, hfields, hh, hc, ht, hlun⟩
    obtain ⟨n, hread, -⟩ := exists_readLun hlun
    rw [hfields]
    exact ⟨_, readScsiFields_of_fields hh hc ht hread text⟩

theorem denotesUnit_of_parse {text : Text} {c : Char} {rest : Text}
    (hstrip : strip text = c :: rest) (hN : c ≠ 'N') (hn : c ≠ 'n') {a : Address}
    (h : parse text = .ok a) : DenotesUnit (strip text) a := by
  rw [parse_eq_readScsiFields hstrip hN hn] at h
  obtain ⟨host, channel, target, lun, n, hfields, -, -, -, hread, rfl⟩ := fields_of_readScsiFields h
  obtain ⟨m, hm, hdenotes⟩ := exists_readLun (isLunText_of_readLun hread)
  obtain rfl : m = n := Except.ok.inj (hm.symm.trans hread)
  exact ⟨host, channel, target, lun, m, hfields, hdenotes, scsi_natCast _ _ _ (readLun_le hread)⟩

/-- Reading ends with an address or a refusal, since no conversion on the way fails. A text that
does not begin with the letter of namespaces is read exactly if it is the text of a unit, and then
as the unit that it denotes. -/
theorem parse_unitGrammar :
    (∀ text, (∃ a, Strict.parse text = .ok a ∧ parse text = .ok a) ∨
      ∃ e, Strict.parse text = .error (.refused e) ∧ parse text = .error e) ∧
    ∀ text c rest, strip text = c :: rest → c ≠ 'N' → c ≠ 'n' →
      ((∃ a, parse text = .ok a) ↔ IsUnitText (strip text)) ∧
        ∀ a, parse text = .ok a → DenotesUnit (strip text) a := by
  constructor
  · intro text
    rw [Strict.parse_eq]
    cases parse text with
    | ok a => exact .inl ⟨a, rfl, rfl⟩
    | error e => exact .inr ⟨e, rfl, rfl⟩
  · intro text c rest hstrip hN hn
    exact ⟨isUnitText_iff hstrip hN hn, fun a ha => denotesUnit_of_parse hstrip hN hn ha⟩

/-- Brackets, a blank and a line end around a LUN of two levels. -/
theorem parse_unitGrammar_levels :
    strip " [2:0:1:0x0002_0003]\n" = "2:0:1:0x0002_0003" ∧
      IsUnitText (strip " [2:0:1:0x0002_0003]\n") ∧
      DenotesUnit (strip " [2:0:1:0x0002_0003]\n") (ofLun 2 0 1 0x00030002) := by
  have hgrammar := parse_unitGrammar.2 " [2:0:1:0x0002_0003]\n" '2' ":0:1:0x0002_0003" (by decide)
    (by decide) (by decide)
  have hparse : parse " [2:0:1:0x0002_0003]\n" = .ok (ofLun 2 0 1 0x00030002) := by decide +kernel
  exact ⟨by decide, hgrammar.1.1 ⟨_, hparse⟩, hgrammar.2 _ hparse⟩

end StorageAtlas.Address
