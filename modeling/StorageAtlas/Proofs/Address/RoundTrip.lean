import StorageAtlas.Address.Writer
import StorageAtlas.Proofs.Address.Fields
import StorageAtlas.Proofs.Address.LunWords
import StorageAtlas.Proofs.Text.Hexadecimal

/-!
Reading returns what writing wrote, for the forms that show the whole unit: the
decimal number and all digits of the bytes for LUNs, and every form for
namespace ids. Numbers that are all ones are written as minus one and come back
too.
-/

namespace StorageAtlas.Address

open Text (isAsciiDigits decimal ofDecimal hexadecimal padZeros)

/-! ## Single fields -/

theorem toLower_of_isDigit {c : Char} (h : c.isDigit = true) : c.toLower = c := by
  have hc : ¬ (c.val ≥ 'A'.val ∧ c.val ≤ 'Z'.val) := by
    simp only [Char.isDigit, Bool.and_eq_true, decide_eq_true_eq, ge_iff_le,
      UInt32.le_iff_toNat_le] at h ⊢
    change 48 ≤ c.toNat ∧ c.toNat ≤ 57 at h
    change ¬ (65 ≤ c.toNat ∧ c.toNat ≤ 90)
    omega
  rw [Char.toLower, dif_neg hc]

/-- Digits alone do not announce a hexadecimal number. -/
theorem hasHexTag_of_isAsciiDigits {t : Text} (h : isAsciiDigits t = true) :
    hasHexTag t = false := by
  simp only [isAsciiDigits, Bool.and_eq_true, List.all_eq_true] at h
  refine decide_eq_false fun htag => ?_
  obtain ⟨c, d, rest, rfl⟩ : ∃ c d rest, t = c :: d :: rest := by
    cases t with
    | nil => simp [Text.lower] at htag
    | cons c rest =>
      cases rest with
      | nil => simp [Text.lower] at htag
      | cons d rest => exact ⟨c, d, rest, rfl⟩
  have hd := h.2 d (by simp)
  simp only [Text.lower, List.take_succ_cons, List.take_zero, List.map_cons, List.map_nil,
    toLower_of_isDigit hd] at htag
  have hx : d = 'x' := (List.cons.inj (List.cons.inj htag).2).1
  rw [hx] at hd
  exact absurd hd (by decide)

theorem ne_invalidText_of_isAsciiDigits {t : Text} (h : isAsciiDigits t = true) :
    t ≠ invalidText := by
  rintro rfl
  exact absurd h (by decide)

theorem readLun_of_isAsciiDigits {t : Text} (h : isAsciiDigits t = true)
    (hle : ofDecimal t ≤ Lun.last) : readLun t = .ok (ofDecimal t) := by
  simp [readLun, hasHexTag_of_isAsciiDigits h, ne_invalidText_of_isAsciiDigits h, h, hle]

theorem readNamespace_of_isAsciiDigits {t : Text} (h : isAsciiDigits t = true)
    (hle : ofDecimal t ≤ lastNamespace) (text : Text) :
    readNamespace t text = .ok (ofDecimal t) := by
  simp [readNamespace, hasHexTag_of_isAsciiDigits h, ne_invalidText_of_isAsciiDigits h, h, hle]

theorem isHexDigit_hexDigit {d : Nat} (h : d < 16) : isHexDigit (Bytes.hexDigit d) = true := by
  simp [isHexDigit, Bytes.digitIn?_hexDigit h]

/-- Hexadecimal digits that, without their underscores, show some bytes are read as these. -/
theorem hexLunBytes?_of_filter {digits : Text} {bytes : Bytes} (hne : bytes ≠ [])
    (hlen : bytes.length ≤ 8) (h : digits.filter (· ≠ '_') = Bytes.hex bytes) :
    hexLunBytes? digits = some (Bytes.padEnd 8 bytes) := by
  have hl := Bytes.length_hex bytes
  have hpos := List.length_pos_iff.2 hne
  have hnil : Bytes.hex bytes ≠ [] := by
    intro he
    rw [he, List.length_nil] at hl
    omega
  have hall : (Bytes.hex bytes).all isHexDigit = true :=
    List.all_eq_true.2 (Bytes.forall_mem_hex (fun _ hd => isHexDigit_hexDigit hd) bytes)
  have hlong : ¬ 16 < (Bytes.hex bytes).length := by omega
  have heven : ¬ (Bytes.hex bytes).length % 2 = 1 := by omega
  simp only [hexLunBytes?, h]
  simp [hnil, hall, hlong, heven, Bytes.ofHex?_hex]

theorem readLun_hex {bytes : Bytes} (h : bytes.length = 8) :
    readLun ('0' :: 'x' :: Bytes.hex bytes) = .ok (Lun.ofWords (Lun.wordsOf bytes)) := by
  have htag : hasHexTag ('0' :: 'x' :: Bytes.hex bytes) = true := by simp [hasHexTag, Text.lower]
  have hfilter : (Bytes.hex bytes).filter (· ≠ '_') = Bytes.hex bytes := by
    refine List.filter_eq_self.2 (Bytes.forall_mem_hex ?_ bytes)
    decide
  have hne : bytes ≠ [] := by
    rintro rfl
    simp at h
  have hbytes := hexLunBytes?_of_filter hne (by omega) hfilter
  simp [readLun, htag, hbytes, Bytes.padEnd, Bytes.zeros, h]

theorem readNamespace_hex {width id : Nat} (hw : width ≤ 8) (h : id ≤ lastNamespace)
    (text : Text) :
    readNamespace ('0' :: 'x' :: padZeros width (hexadecimal id)) text = .ok id := by
  have htag : hasHexTag ('0' :: 'x' :: padZeros width (hexadecimal id)) = true := by
    simp [hasHexTag, Text.lower]
  have hinvalid : '0' :: 'x' :: padZeros width (hexadecimal id) ≠ invalidText := by
    simp [invalidText]
  have hlength := Text.length_hexadecimal_le (n := id) (k := 8) (by decide)
    (Nat.lt_of_le_of_lt h (by decide))
  have hlen : ('0' :: 'x' :: padZeros width (hexadecimal id)).length ≤ 10 := by
    rw [List.length_cons, List.length_cons, Text.length_padZeros]
    omega
  have hne : (padZeros width (hexadecimal id)).isEmpty = false := by
    simp [padZeros, hexadecimal, Nat.toDigits_ne_nil]
  have hall : (padZeros width (hexadecimal id)).all isHexDigit = true :=
    List.all_eq_true.2
      (Text.forall_mem_padZeros_hexadecimal (fun _ hd => isHexDigit_hexDigit hd) width id)
  have hvalue : Text.ofHexadecimal (padZeros width (hexadecimal id)) = id := by
    rw [Text.ofHexadecimal_padZeros, Text.ofHexadecimal_hexadecimal]
  have hdigits : ('0' :: 'x' :: padZeros width (hexadecimal id)).drop 2 =
      padZeros width (hexadecimal id) := rfl
  rw [readNamespace, if_neg hinvalid, if_pos htag]
  simp only [hdigits, hlen, hne, hall, hvalue, decide_true, Bool.not_false, Bool.and_self, if_true]

/-! ## Written fields -/

theorem isField_hexDigit : ∀ d < 16, isSign (Bytes.hexDigit d) = true ∧ Bytes.hexDigit d ≠ ':' := by
  decide

theorem isField_tagged {t : Text} (h : IsField t) : IsField ('0' :: 'x' :: t) := by
  intro c hc
  simp only [List.mem_cons] at hc
  rcases hc with rfl | rfl | hc
  · decide
  · decide
  · exact h c hc

theorem isField_invalidText : IsField invalidText := by
  intro c hc
  have hsigns : c = '-' ∨ c = '1' := by simpa [invalidText] using hc
  rcases hsigns with rfl | rfl
  · decide
  · decide

/-- Except for the elided form, the field of a LUN below 2^64 is read as that LUN. -/
theorem exists_lunField (host channel target : Int) {lun : Nat} (h : lun ≤ Lun.last)
    {f : LunFormat} (hf : f ≠ .hex) :
    ∃ field, lunText f (ofLun host channel target lun) = .ok field ∧ IsField field ∧
      readLun field = .ok lun := by
  cases f with
  | decimal =>
    by_cases hlast : lun = Lun.last
    · subst hlast
      exact ⟨invalidText, by simp [lunText, ofLun, invalidText], isField_invalidText, rfl⟩
    · have hd := Text.isAsciiDigits_decimal lun
      have hv := Text.ofDecimal_decimal lun
      have hne : ¬ (lun : Int) = (Lun.last : Int) := by exact_mod_cast hlast
      refine ⟨decimal lun, ?_, isField_of_isAsciiDigits hd, ?_⟩
      · simp only [lunText, ofLun, hne, if_false]
        rfl
      · rw [readLun_of_isAsciiDigits hd (hv.symm ▸ h), hv]
  | hex => exact absurd rfl hf
  | fullHex =>
    have hbytes := Lun.length_ofNat lun
    have hne : Lun.ofNat lun ≠ [] := by
      intro he
      rw [he] at hbytes
      simp at hbytes
    have htext : padZeros 16 (hexadecimal (Lun.flip lun)) = Bytes.hex (Lun.ofNat lun) := by
      rw [Bytes.hex_eq_padZeros hne, hbytes, Lun.toNat_ofNat]
    refine ⟨'0' :: 'x' :: Bytes.hex (Lun.ofNat lun), ?_,
      isField_tagged (Bytes.forall_mem_hex isField_hexDigit _), ?_⟩
    · simp [lunText, ofLun, htext]
    · rw [readLun_hex hbytes, Lun.ofWords_wordsOf_ofNat h]

/-- The field of a namespace id below 2^32 is read as that id. -/
theorem exists_namespaceField (f : LunFormat) {id : Nat} (h : id ≤ lastNamespace) :
    ∃ field, namespaceText f id = field ∧ IsField field ∧
      ∀ text, readNamespace field text = .ok id := by
  have hid : ((id : Int) % 0x100000000).toNat = id := by
    simp only [lastNamespace] at h
    omega
  have hhex : ∀ width ≤ 8, IsField ('0' :: 'x' :: padZeros width (hexadecimal id)) ∧
      ∀ text, readNamespace ('0' :: 'x' :: padZeros width (hexadecimal id)) text = .ok id := by
    intro width hw
    exact ⟨isField_tagged (Text.forall_mem_padZeros_hexadecimal isField_hexDigit width id),
      readNamespace_hex hw h⟩
  cases f with
  | decimal =>
    by_cases hlast : id = lastNamespace
    · subst hlast
      exact ⟨invalidText, rfl, isField_invalidText, fun _ => rfl⟩
    · have hd := Text.isAsciiDigits_decimal id
      have hv := Text.ofDecimal_decimal id
      refine ⟨decimal id, ?_, isField_of_isAsciiDigits hd, fun text => ?_⟩
      · simp [namespaceText, hid, hlast]
      · rw [readNamespace_of_isAsciiDigits hd (hv.symm ▸ h), hv]
  | hex => exact ⟨_, by simp [namespaceText, hid], hhex 4 (by decide)⟩
  | fullHex => exact ⟨_, by simp [namespaceText, hid], hhex 8 (by decide)⟩

/-! ## Whole addresses -/

/-- What is written for an address at a level is read as the address. -/
def ReadsBack (level : Int) (a : Address) : Prop :=
  ∃ f t, LunFormat.ofLevel level = .ok f ∧ format f a = .ok t ∧ parse t = .ok a

theorem ofLevel_of_two_le {level : Int} (h : 2 ≤ level) :
    LunFormat.ofLevel level = .ok .fullHex := by
  have h0 : ¬ level < 0 := by omega
  have h1 : ¬ level = 0 := by omega
  have h2 : ¬ level = 1 := by omega
  simp [LunFormat.ofLevel, h0, h1, h2]

theorem exists_ofLevel {level : Int} (h : 0 ≤ level) : ∃ f, LunFormat.ofLevel level = .ok f := by
  by_cases h2 : 2 ≤ level
  · exact ⟨_, ofLevel_of_two_le h2⟩
  · obtain rfl | rfl : level = 0 ∨ level = 1 := by omega
    · exact ⟨.decimal, rfl⟩
    · exact ⟨.hex, rfl⟩

theorem readsBack_ofLun (host channel target : Nat) {lun : Nat} (h : lun ≤ Lun.last)
    {level : Int} {f : LunFormat} (hlevel : LunFormat.ofLevel level = .ok f) (hf : f ≠ .hex) :
    ReadsBack level (ofLun host channel target lun) := by
  obtain ⟨field, htext, hfield, hread⟩ := exists_lunField host channel target h hf
  have hparse := parse_scsiFields (Text.isAsciiDigits_decimal host)
    (Text.isAsciiDigits_decimal channel) (Text.isAsciiDigits_decimal target) hfield hread
  simp only [Text.ofDecimal_decimal] at hparse
  refine ⟨f, _, hlevel, ?_, hparse⟩
  simp only [format, htext, Except.map]
  simp [ofLun, isNvme, Text.join, Text.signed]

theorem readsBack_nvme (minor controller : Nat) {id : Nat} (h : id ≤ lastNamespace)
    {level : Int} {f : LunFormat} (hlevel : LunFormat.ofLevel level = .ok f) :
    ReadsBack level (nvme minor controller id) := by
  obtain ⟨field, htext, hfield, hread⟩ := exists_namespaceField f h
  have hparse := parse_nvmeFields (Text.isAsciiDigits_decimal minor)
    (Text.isAsciiDigits_decimal controller) hfield hread
  simp only [Text.ofDecimal_decimal] at hparse
  refine ⟨f, _, hlevel, ?_, hparse⟩
  simp [format, lunText, nvme, htext, isNvme, Text.join, Text.signed, Except.map]

/-- Units come back from the decimal and the full form, namespaces from every form. -/
theorem readsBack_of_written :
    (∀ host channel target lun : Nat, lun < 2 ^ 64 → ∀ level : Int, level = 0 ∨ 2 ≤ level →
      ∃ a, scsi host channel target lun = .ok a ∧ ReadsBack level a) ∧
    (∀ minor controller id : Nat, id < 2 ^ 32 → ∀ level : Int, 0 ≤ level →
      ReadsBack level (nvme minor controller id)) := by
  constructor
  · intro host channel target lun hlun level hlevel
    have hle : lun ≤ Lun.last := Nat.le_of_lt_succ hlun
    refine ⟨_, scsi_natCast host channel target hle, ?_⟩
    rcases hlevel with rfl | hlevel
    · exact readsBack_ofLun host channel target hle (f := .decimal) rfl (by decide)
    · exact readsBack_ofLun host channel target hle (ofLevel_of_two_le hlevel) (by decide)
  · intro minor controller id hid level hlevel
    obtain ⟨f, hf⟩ := exists_ofLevel hlevel
    exact readsBack_nvme minor controller (Nat.le_of_lt_succ hid) hf

/-- The invalidated units, which the decimal form writes as minus one, and a LUN of two levels. -/
theorem readsBack_all_ones :
    ((2 ^ 64 - 1 < 2 ^ 64 ∧ ∃ a, scsi 2 0 1 (2 ^ 64 - 1 : Nat) = .ok a ∧ ReadsBack 0 a) ∧
      (0x00050102 < 2 ^ 64 ∧ ∃ a, scsi 2 0 1 (0x00050102 : Nat) = .ok a ∧ ReadsBack 7 a)) ∧
    (2 ^ 32 - 1 < 2 ^ 32 ∧ ReadsBack 0 (nvme 1 2 (2 ^ 32 - 1 : Nat)) ∧
      ReadsBack 1 (nvme 1 2 (2 ^ 32 - 1 : Nat))) :=
  ⟨⟨⟨by decide, readsBack_of_written.1 2 0 1 _ (by decide) 0 (.inl rfl)⟩,
    by decide, readsBack_of_written.1 2 0 1 _ (by decide) 7 (.inr (by decide))⟩,
    by decide, readsBack_of_written.2 1 2 _ (by decide) 0 (by decide),
    readsBack_of_written.2 1 2 _ (by decide) 1 (by decide)⟩

example : format .decimal (ofLun 2 0 1 Lun.last) = .ok "2:0:1:-1" ∧
    format .fullHex (ofLun 2 0 1 0x00050102) = .ok "2:0:1:0x0102000500000000" := by decide

end StorageAtlas.Address
