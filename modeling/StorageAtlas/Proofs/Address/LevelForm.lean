import StorageAtlas.Proofs.Address.LunLevels
import StorageAtlas.Proofs.Address.RoundTrip
import StorageAtlas.Proofs.Address.UnitBytes

/-!
The form of a unit that shows its levels only. Reading it gives the unit with
all bytes behind the levels set to zero: the same unit exactly if these bytes
are zero, and one that is written in the same way in any case.
-/

namespace StorageAtlas

namespace Lun

variable {bytes : Bytes} {start stop : Nat} {chain : List Level}

theorem slice_append_slice {middle : Nat} (h : start ≤ middle) (hstop : middle ≤ stop)
    (hlength : middle ≤ bytes.length) :
    slice bytes start middle ++ slice bytes middle stop = slice bytes start stop := by
  have hfront : (bytes.take stop).take middle = bytes.take middle := by
    rw [List.take_take, Nat.min_eq_left hstop]
  have hsplit := List.take_append_drop middle (bytes.take stop)
  rw [hfront] at hsplit
  have hle : start ≤ (bytes.take middle).length := by
    rw [List.length_take_of_le hlength]
    exact h
  rw [slice, slice, slice, ← List.drop_append_of_le_length hle, hsplit]

/-- Levels that tile hold the bytes, each byte once and in order. -/
theorem Tiles.flatMap_data (h : Tiles bytes start chain stop) :
    chain.flatMap Level.data = slice bytes start stop := by
  induction h with
  | last room isSize ends => rw [List.flatMap_cons, List.flatMap_nil, List.append_nil]
  | more byte bus tiles ih =>
    have := tiles.bounds
    rw [List.flatMap_cons, ih, slice_append_slice (by omega) (by omega) (by omega)]

theorem padEnd_take (h : stop ≤ bytes.length) (hlength : bytes.length = 8) :
    Bytes.padEnd 8 (bytes.take stop) = clearFrom stop bytes := by
  rw [Bytes.padEnd, clearFrom, List.length_take_of_le h, hlength]

end Lun

namespace Address

variable {bytes : Bytes} {stop : Nat} {chain : List Lun.Level}

/-! ## The text of levels -/

theorem filter_hex (bytes : Bytes) : (Bytes.hex bytes).filter (· ≠ '_') = Bytes.hex bytes := by
  refine List.filter_eq_self.2 (Bytes.forall_mem_hex ?_ bytes)
  decide

theorem filter_levelText (level : Lun.Level) :
    (levelText level).filter (· ≠ '_') = Bytes.hex level.data := by
  unfold levelText
  split
  · rw [List.filter_cons_of_neg (by decide), filter_hex]
  · exact filter_hex level.data

/-- Without the underscores the levels are shown as the bytes that they hold. -/
theorem filter_levelsText (chain : List Lun.Level) :
    (chain.flatMap levelText).filter (· ≠ '_') = Bytes.hex (chain.flatMap Lun.Level.data) := by
  induction chain with
  | nil => rfl
  | cons level rest ih =>
    rw [List.flatMap_cons, List.filter_append, filter_levelText, ih, List.flatMap_cons,
      Bytes.hex_append]

theorem isField_levelText (level : Lun.Level) : IsField (levelText level) := by
  have hhex : IsField (Bytes.hex level.data) := Bytes.forall_mem_hex isField_hexDigit level.data
  unfold levelText
  split
  · intro c hc
    rcases List.mem_cons.1 hc with rfl | hc
    · decide
    · exact hhex c hc
  · exact hhex

theorem isField_levelsText (chain : List Lun.Level) : IsField (levelsText chain) := by
  refine isField_tagged fun c hc => ?_
  obtain ⟨level, -, hlevel⟩ := List.mem_flatMap.1 hc
  exact isField_levelText level c hlevel

/-- The levels are read as the bytes that they cover. -/
theorem readLun_levelsText (h : Lun.Tiles bytes 0 chain stop) (hlength : bytes.length = 8) :
    readLun (levelsText chain) = .ok (Lun.ofWords (Lun.wordsOf (Lun.clearFrom stop bytes))) := by
  have hbounds := h.bounds
  have htake : (bytes.take stop).length = stop := List.length_take_of_le hbounds.2.2
  have hne : bytes.take stop ≠ [] := by
    intro he
    rw [he, List.length_nil] at htake
    omega
  have hdata : chain.flatMap Lun.Level.data = bytes.take stop := h.flatMap_data
  have hfilter := filter_levelsText chain
  rw [hdata] at hfilter
  have hread := hexLunBytes?_of_filter hne (by omega) hfilter
  rw [Lun.padEnd_take hbounds.2.2 hlength] at hread
  have htag : hasHexTag (levelsText chain) = true := rfl
  have hdrop : (levelsText chain).drop 2 = chain.flatMap levelText := rfl
  rw [readLun, if_pos htag, hdrop, hread]

/-! ## Whole addresses -/

theorem format_hex (host channel target : Int) {lun : Nat} {chain : List Lun.Level}
    (h : Lun.levels (Lun.ofNat lun) = .ok chain) :
    format .hex (ofLun host channel target lun) =
      .ok (Text.join [':'] [Text.signed host, Text.signed channel, Text.signed target,
        levelsText chain]) := by
  simp [format, lunText, ofLun, h, isNvme, Text.join, Except.map]

theorem parse_levels (host channel target : Nat) (h : Lun.Tiles bytes 0 chain stop)
    (hlength : bytes.length = 8) :
    parse (Text.join [':'] [Text.signed host, Text.signed channel, Text.signed target,
      levelsText chain]) =
      .ok (ofLun host channel target (Lun.ofWords (Lun.wordsOf (Lun.clearFrom stop bytes)))) := by
  have hparse := parse_scsiFields (Text.isAsciiDigits_decimal host)
    (Text.isAsciiDigits_decimal channel) (Text.isAsciiDigits_decimal target)
    (isField_levelsText chain) (readLun_levelsText h hlength)
  simp only [Text.ofDecimal_decimal] at hparse
  exact hparse

theorem ofLun_inj {host channel target : Int} {lun other : Nat} (hlun : lun ≤ Lun.last)
    (hother : other ≤ Lun.last) :
    ofLun host channel target lun = ofLun host channel target other ↔
      Lun.ofNat lun = Lun.ofNat other := by
  constructor
  · exact fun h => congrArg lunBytes h
  · intro h
    rw [← Lun.ofWords_wordsOf_ofNat hlun, h, Lun.ofWords_wordsOf_ofNat hother]

/-- That the form of levels keeps the levels of a unit, and nothing else: what is read is the unit
of the levels put together, the same unit exactly if no byte behind them counts, and written in the
same way. -/
def KeepsLevels (host channel target lun : Nat) : Prop :=
  ∃ a chain stop kept b text, scsi host channel target lun = .ok a ∧
    Lun.levels a.lunBytes = .ok chain ∧ Lun.Tiles a.lunBytes 0 chain stop ∧
    Lun.toNat (Lun.ofLevels chain) = .ok kept ∧ scsi host channel target kept = .ok b ∧
    format .hex a = .ok text ∧ parse text = .ok b ∧
    (b = a ↔ ∀ byte ∈ a.lunBytes.drop stop, byte = 0) ∧ format .hex b = .ok text

/-- Every unit is written in the form of levels, and what is written keeps its levels. -/
theorem keepsLevels_of_written (host channel target lun : Nat) (hlun : lun < 2 ^ 64) :
    KeepsLevels host channel target lun := by
  have hle : lun ≤ Lun.last := Nat.le_of_lt_succ hlun
  have hlength := Lun.length_ofNat lun
  obtain ⟨chain, stop, hlevels, htiles, hagain⟩ := Lun.exists_levels hlength
  have hclear : (Lun.clearFrom stop (Lun.ofNat lun)).length = 8 :=
    (Lun.length_clearFrom htiles.bounds.2.2).trans hlength
  have hback := Lun.ofNat_ofWords_wordsOf hclear
  have hkept : Lun.ofWords (Lun.wordsOf (Lun.clearFrom stop (Lun.ofNat lun))) ≤ Lun.last :=
    readLun_le (readLun_levelsText htiles hlength)
  refine ⟨_, chain, stop, _, _, _, scsi_natCast _ _ _ hle, hlevels, htiles, ?_,
    scsi_natCast _ _ _ hkept, format_hex _ _ _ hlevels, parse_levels host channel target htiles
      hlength, ?_, ?_⟩
  · rw [htiles.ofLevels_eq hlength, Lun.toNat, if_pos hclear]
  · rw [ofLun_inj hkept hle, hback]
    exact Lun.clearFrom_eq_self_iff _ stop
  · exact format_hex _ _ _ (hback.symm ▸ hagain)

/-- A LUN of two levels with a byte behind them that counts. -/
theorem keepsLevels_of_leftover :
    0x0009000040050101 < 2 ^ 64 ∧ KeepsLevels 2 0 1 0x0009000040050101 :=
  ⟨by decide, keepsLevels_of_written 2 0 1 0x0009000040050101 (by decide)⟩

example : format .hex (ofLun 2 0 1 0x0009000040050101) = .ok "2:0:1:0x0101_4005" ∧
    parse "2:0:1:0x0101_4005" = .ok (ofLun 2 0 1 0x40050101) := by decide +kernel

end Address
end StorageAtlas
