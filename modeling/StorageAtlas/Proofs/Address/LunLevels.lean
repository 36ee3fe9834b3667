import Mathlib
import StorageAtlas.Address.Lun

/-!
The levels of a hierarchical LUN tile its bytes from the first on: each begins
where the one before it ends, and each but the last is two bytes of peripheral
addressing with a bus number. So the levels put back together are the LUN with
all bytes behind them set to zero, and these bytes have the same levels again.
-/

namespace StorageAtlas.Lun

/-- Peripheral addressing, method zero, with a bus number in the low six bits. -/
def HasBus (b : UInt8) : Prop := b.toNat / 64 = 0 ∧ b.toNat % 64 ≠ 0

def slice (bytes : Bytes) (start stop : Nat) : Bytes := (bytes.take stop).drop start

/-- `Tiles bytes start levels stop`: the levels tile the bytes from `start` up to `stop`. The last
of them is cut off where the bytes end, and all but the first of a LUN continue it. -/
inductive Tiles (bytes : Bytes) : Nat → List Level → Nat → Prop
  | last {start stop size : Nat} (room : start + 2 ≤ bytes.length)
      (isSize : size = 2 ∨ size = 4 ∨ size = 6 ∨ size = 8)
      (ends : stop = min (start + size) bytes.length) :
      Tiles bytes start [⟨start, slice bytes start stop, decide (0 < start)⟩] stop
  | more {start stop : Nat} {b : UInt8} {rest : List Level} (byte : bytes[start]? = some b)
      (bus : HasBus b) (tiles : Tiles bytes (start + 2) rest stop) :
      Tiles bytes start (⟨start, slice bytes start (start + 2), decide (0 < start)⟩ :: rest) stop

/-- The bytes with all from an offset on set to zero. -/
def clearFrom (stop : Nat) (bytes : Bytes) : Bytes :=
  bytes.take stop ++ Bytes.zeros (bytes.length - stop)

/-! ## Sizes -/

theorem leadsOn_iff (b : UInt8) : leadsOn b.toNat = true ↔ HasBus b := by
  simp [leadsOn, HasBus]

theorem levelSize_of_leadsOn {b : Nat} (h : leadsOn b = true) : levelSize b = 2 := by
  simp only [leadsOn, Bool.and_eq_true, decide_eq_true_eq] at h
  have hmethod : b / 64 ≠ 3 := by omega
  rw [levelSize, if_neg hmethod]

theorem extendedSize_mem (b : Nat) :
    extendedSize b = 2 ∨ extendedSize b = 4 ∨ extendedSize b = 6 ∨ extendedSize b = 8 := by
  unfold extendedSize
  grind

theorem levelSize_mem (b : Nat) :
    levelSize b = 2 ∨ levelSize b = 4 ∨ levelSize b = 6 ∨ levelSize b = 8 := by
  unfold levelSize
  split
  · exact extendedSize_mem b
  · exact .inl rfl

theorem two_le_levelSize (b : Nat) : 2 ≤ levelSize b := by
  have := levelSize_mem b
  omega

theorem levelsFrom_of_leadsOn {a : UInt8} (h : leadsOn a.toNat = true) (offset : Nat) (b : UInt8)
    (r : Bytes) : levelsFrom offset (a :: b :: r) =
      ⟨offset, [a, b], decide (0 < offset)⟩ :: levelsFrom (offset + 2) r := by
  simp [levelsFrom, h, levelSize_of_leadsOn h]

theorem levelsFrom_of_not_leadsOn {a : UInt8} (h : ¬ leadsOn a.toNat = true) (offset : Nat)
    (b : UInt8) (r : Bytes) : levelsFrom offset (a :: b :: r) =
      [⟨offset, (a :: b :: r).take (levelSize a.toNat), decide (0 < offset)⟩] := by
  simp [levelsFrom, h]

/-! ## The levels tile -/

variable {bytes : Bytes} {start stop : Nat} {chain : List Level}

/-- What is taken from an offset on is a slice, cut off where the bytes end. -/
theorem take_drop_eq_slice (bytes : Bytes) (start size : Nat) :
    (bytes.drop start).take size = slice bytes start (min (start + size) bytes.length) := by
  rw [slice, List.drop_take]
  refine List.take_eq_take_iff.2 ?_
  rw [List.length_drop]
  omega

theorem exists_tiles {rest : Bytes} (hrest : bytes.drop start = rest) (hne : rest ≠ [])
    (heven : rest.length % 2 = 0) : ∃ stop, Tiles bytes start (levelsFrom start rest) stop := by
  induction start, rest using levelsFrom.induct with
  | case1 start a b r hlead ih =>
    have hlength := congrArg List.length hrest
    simp only [List.length_drop, List.length_cons] at hlength heven
    have hdata : [a, b] = slice bytes start (start + 2) := by
      have := take_drop_eq_slice bytes start 2
      rwa [Nat.min_eq_left (by omega), hrest] at this
    rw [levelsFrom_of_leadsOn hlead, hdata]
    -- a level that leads on is the last one all the same if no byte is left behind it
    by_cases hr : r = []
    · subst hr
      exact ⟨start + 2, .last (by omega) (.inl rfl) (by omega)⟩
    · have hdrop : bytes.drop (start + 2) = r := by
        rw [← List.drop_drop, hrest]
        rfl
      obtain ⟨stop, htiles⟩ := ih hdrop hr (by omega)
      have hbyte : bytes[start]? = some a := by
        rw [← List.head?_drop, hrest]
        rfl
      exact ⟨stop, .more hbyte ((leadsOn_iff a).1 hlead) htiles⟩
  | case2 start a b r hlead =>
    have hlength := congrArg List.length hrest
    simp only [List.length_drop, List.length_cons] at hlength
    have hdata := take_drop_eq_slice bytes start (levelSize a.toNat)
    rw [hrest] at hdata
    rw [levelsFrom_of_not_leadsOn hlead, hdata]
    exact ⟨_, .last (by omega) (levelSize_mem a.toNat) rfl⟩
  | case3 rest start hshort =>
    match rest with
    | [] => exact absurd rfl hne
    | [a] => simp at heven
    | a :: b :: r => exact absurd rfl (hshort a b r)

/-- Each level takes two bytes at least. -/
theorem Tiles.bounds (h : Tiles bytes start chain stop) :
    1 ≤ chain.length ∧ start + 2 * chain.length ≤ stop ∧ stop ≤ bytes.length := by
  induction h with
  | last room isSize ends =>
    simp only [List.length_singleton]
    omega
  | more byte bus tiles ih =>
    simp only [List.length_cons]
    omega

/-! ## Levels put together -/

theorem length_slice (h : stop ≤ bytes.length) :
    (slice bytes start stop).length = stop - start := by
  rw [slice, List.length_drop, List.length_take_of_le h]

theorem length_clearFrom (h : stop ≤ bytes.length) :
    (clearFrom stop bytes).length = bytes.length := by
  simp only [clearFrom, Bytes.zeros, List.length_append, List.length_take, List.length_replicate]
  omega

theorem take_clearFrom (h : start ≤ stop) (hstop : stop ≤ bytes.length) :
    (clearFrom stop bytes).take start = bytes.take start := by
  rw [clearFrom, List.take_append_of_le_length (by rw [List.length_take_of_le hstop]; exact h),
    List.take_take, Nat.min_eq_left h]

theorem drop_clearFrom (h : start ≤ stop) (hstop : stop ≤ bytes.length) :
    (clearFrom start bytes).drop stop = Bytes.zeros (bytes.length - stop) := by
  have hlength : (bytes.take start).length = start := List.length_take_of_le (by omega)
  rw [clearFrom, List.drop_append, hlength, List.drop_eq_nil_of_le (by omega), List.nil_append,
    Bytes.zeros, List.drop_replicate, Bytes.zeros]
  congr 1
  omega

/-- Putting a slice where only zeros were left moves the zeros to behind it. -/
theorem splice_slice (h : start ≤ stop) (hstop : stop ≤ bytes.length) :
    (clearFrom start bytes).splice start (start + (slice bytes start stop).length : Int)
      (slice bytes start stop) = clearFrom stop bytes := by
  have hend : (start + (slice bytes start stop).length : Int) = (stop : Int) := by
    rw [length_slice hstop]
    omega
  have hposition : ∀ n : Nat, n ≤ bytes.length → Bytes.position bytes.length (n : Int) = n := by
    intro n hn
    rw [Bytes.position, if_neg (by omega), Int.toNat_natCast, Nat.min_eq_left hn]
  have hfront : bytes.take start ++ slice bytes start stop = bytes.take stop := by
    have := List.take_append_drop start (bytes.take stop)
    rwa [List.take_take, Nat.min_eq_left h] at this
  rw [hend, Bytes.splice, length_clearFrom (by omega), hposition start (by omega),
    hposition stop hstop, Nat.max_eq_right h, take_clearFrom le_rfl (by omega),
    drop_clearFrom h hstop, hfront, clearFrom]

/-- Levels that tile fill the bytes up to their end. -/
theorem Tiles.foldl_splice (h : Tiles bytes start chain stop) :
    chain.foldl (fun out level =>
      out.splice level.offset (level.offset + level.data.length) level.data)
      (clearFrom start bytes) = clearFrom stop bytes := by
  induction h with
  | last room isSize ends =>
    rw [List.foldl_cons, List.foldl_nil]
    exact splice_slice (by omega) (by omega)
  | more byte bus tiles ih =>
    have := tiles.bounds
    rw [List.foldl_cons, splice_slice (by omega) (by omega)]
    exact ih

theorem Tiles.ofLevels_eq (h : Tiles bytes 0 chain stop) (hlength : bytes.length = 8) :
    ofLevels chain = clearFrom stop bytes := by
  have hzeros : clearFrom 0 bytes = Bytes.zeros 8 := by
    rw [clearFrom, List.take_zero, List.nil_append, Nat.sub_zero, hlength]
  rw [ofLevels, ← hzeros]
  exact h.foldl_splice

theorem clearFrom_eq_self_iff (bytes : Bytes) (stop : Nat) :
    clearFrom stop bytes = bytes ↔ ∀ b ∈ bytes.drop stop, b = 0 := by
  have hself := List.take_append_drop stop bytes
  have hsplit : clearFrom stop bytes = bytes ↔
      Bytes.zeros (bytes.length - stop) = bytes.drop stop := by
    rw [clearFrom]
    constructor
    · intro h
      exact List.append_cancel_left (h.trans hself.symm)
    · intro h
      rw [h, hself]
  rw [hsplit, eq_comm, Bytes.zeros, List.eq_replicate_iff, List.length_drop]
  simp

/-! ## Decoding again -/

/-- The number of bytes that levels hold. -/
def extent (levels : List Level) : Nat := (levels.map fun level => level.data.length).sum

theorem Tiles.stop_eq (h : Tiles bytes start chain stop) : stop = start + extent chain := by
  induction h with
  | last room isSize ends =>
    simp only [extent, List.map_cons, List.map_nil, List.sum_cons, List.sum_nil]
    rw [length_slice (by omega)]
    omega
  | more byte bus tiles ih =>
    have := tiles.bounds
    simp only [extent, List.map_cons, List.sum_cons] at ih ⊢
    rw [length_slice (by omega)]
    omega

/-- Where bytes agree as far as a part of them reaches, they agree on this part. -/
theorem take_eq_of_take_length {size : Nat} {rest other : Bytes}
    (hlength : other.length = rest.length)
    (h : other.take (rest.take size).length = rest.take (rest.take size).length) :
    other.take size = rest.take size := by
  have hself : ∀ {l : Bytes}, l.length = rest.length →
      l.take (rest.take size).length = l.take size := by
    intro l hl
    refine List.take_eq_take_iff.2 ?_
    rw [List.length_take, hl]
    omega
  rwa [hself hlength, hself rfl] at h

/-- Only the bytes in the levels count for what the levels are. -/
theorem levelsFrom_congr {offset : Nat} {rest other : Bytes} (hlength : other.length = rest.length)
    (h : other.take (extent (levelsFrom offset rest)) =
      rest.take (extent (levelsFrom offset rest))) :
    levelsFrom offset other = levelsFrom offset rest := by
  induction offset, rest using levelsFrom.induct generalizing other with
  | case1 offset a b r hlead ih =>
    match other with
    | [] | [_] => simp at hlength
    | c :: d :: s =>
      rw [levelsFrom_of_leadsOn hlead] at h ⊢
      have hextent : extent (⟨offset, [a, b], decide (0 < offset)⟩ :: levelsFrom (offset + 2) r) =
          extent (levelsFrom (offset + 2) r) + 2 := by
        simp [extent, Nat.add_comm]
      simp only [hextent, List.take_succ_cons, List.cons.injEq] at h
      obtain ⟨rfl, rfl, h⟩ := h
      rw [levelsFrom_of_leadsOn hlead, ih (by simpa using hlength) h]
  | case2 offset a b r hlead =>
    rw [levelsFrom_of_not_leadsOn hlead] at h ⊢
    have hextent : extent [⟨offset, (a :: b :: r).take (levelSize a.toNat), decide (0 < offset)⟩] =
        ((a :: b :: r).take (levelSize a.toNat)).length := by
      simp [extent]
    rw [hextent] at h
    have hdata := take_eq_of_take_length hlength h
    -- the first byte decides the size, and every last level takes it in
    match other with
    | [] | [_] => simp at hlength
    | c :: d :: s =>
      obtain ⟨n, hn⟩ : ∃ n, levelSize a.toNat = n + 1 :=
        ⟨levelSize a.toNat - 1, by have := two_le_levelSize a.toNat; omega⟩
      have hhead : c = a := by
        rw [hn, List.take_succ_cons, List.take_succ_cons] at hdata
        exact (List.cons.inj hdata).1
      subst hhead
      rw [levelsFrom_of_not_leadsOn hlead, hdata]
  | case3 rest offset hshort =>
    match rest, other with
    | [], [] | [_], [_] => rfl
    | a :: b :: r, _ => exact absurd rfl (hshort a b r)
    | [], _ :: _ | [_], [] | [_], _ :: _ :: _ => simp at hlength

/-! ## Whole LUNs -/

theorem levels_of_length (hlength : bytes.length = 8) :
    levels bytes = if bytes.take 2 = [0xFF, 0xFF] then .ok [⟨0, bytes.take 2, false⟩]
      else .ok (levelsFrom 0 bytes) := by
  rw [levels, if_neg (by omega)]

/-- The levels of eight bytes tile them, and are the levels of the bytes that they cover too. -/
theorem exists_levels (hlength : bytes.length = 8) :
    ∃ chain stop, levels bytes = .ok chain ∧ Tiles bytes 0 chain stop ∧
      levels (clearFrom stop bytes) = .ok chain := by
  by_cases hunspecified : bytes.take 2 = [0xFF, 0xFF]
  · have htwo : (clearFrom 2 bytes).take 2 = bytes.take 2 := take_clearFrom le_rfl (by omega)
    refine ⟨[⟨0, bytes.take 2, false⟩], 2, ?_, ?_, ?_⟩
    · rw [levels_of_length hlength, if_pos hunspecified]
    · exact .last (by omega) (.inl rfl) (by omega)
    · rw [levels_of_length (by rw [length_clearFrom (by omega), hlength]), htwo,
        if_pos hunspecified]
  · have hne : bytes ≠ [] := by
      rintro rfl
      cases hlength
    obtain ⟨stop, htiles⟩ : ∃ stop, Tiles bytes 0 (levelsFrom 0 bytes) stop :=
      exists_tiles List.drop_zero hne (by omega)
    have hbounds := htiles.bounds
    have hstop := htiles.stop_eq
    have hclear : (clearFrom stop bytes).length = bytes.length := length_clearFrom hbounds.2.2
    have htwo : (clearFrom stop bytes).take 2 = bytes.take 2 :=
      take_clearFrom (by omega) hbounds.2.2
    have hcover : (clearFrom stop bytes).take (extent (levelsFrom 0 bytes)) =
        bytes.take (extent (levelsFrom 0 bytes)) := take_clearFrom (by omega) hbounds.2.2
    refine ⟨levelsFrom 0 bytes, stop, ?_, htiles, ?_⟩
    · rw [levels_of_length hlength, if_neg hunspecified]
    · rw [levels_of_length (hclear.trans hlength), htwo, if_neg hunspecified,
        levelsFrom_congr hclear hcover]

/-- What the levels of eight bytes are: one to four, which tile the bytes. Put together they are the
bytes up to where the last level ends, with zeros behind it, and have the same levels. -/
structure IsHierarchy (bytes : Bytes) (chain : List Level) (stop : Nat) : Prop where
  some : 1 ≤ chain.length
  few : chain.length ≤ 4
  tiles : Tiles bytes 0 chain stop
  encoded : ofLevels chain = clearFrom stop bytes
  lossless_iff : ofLevels chain = bytes ↔ ∀ b ∈ bytes.drop stop, b = 0
  again : levels (ofLevels chain) = .ok chain

/-- All eight bytes have levels that tile them, and no other number of bytes has levels. -/
theorem levels_tile :
    (∀ bytes : Bytes, bytes.length = 8 →
      ∃ chain stop, levels bytes = .ok chain ∧ IsHierarchy bytes chain stop) ∧
    ∀ bytes : Bytes, bytes.length ≠ 8 → levels bytes = .error (.lunLength bytes.length) := by
  constructor
  · intro bytes hlength
    obtain ⟨chain, stop, hlevels, htiles, hagain⟩ := exists_levels hlength
    have hbounds := htiles.bounds
    have hencoded := htiles.ofLevels_eq hlength
    refine ⟨chain, stop, hlevels, hbounds.1, by omega, htiles, hencoded, ?_, ?_⟩
    · rw [hencoded, clearFrom_eq_self_iff]
    · rw [hencoded, hagain]
  · intro bytes hlength
    rw [levels, if_pos hlength]

/-- Two levels and extended addressing of six bytes, for which four are left; and seven bytes. -/
theorem levels_tile_cut :
    ([0x01, 0x01, 0x02, 0x03, 0xE0, 0x01, 0x02, 0x03] : Bytes).length = 8 ∧
      (∃ stop, IsHierarchy [0x01, 0x01, 0x02, 0x03, 0xE0, 0x01, 0x02, 0x03]
        [⟨0, [0x01, 0x01], false⟩, ⟨2, [0x02, 0x03], true⟩,
          ⟨4, [0xE0, 0x01, 0x02, 0x03], true⟩] stop) ∧
      (Bytes.zeros 7).length ≠ 8 ∧ levels (Bytes.zeros 7) = .error (.lunLength 7) := by
  obtain ⟨chain, stop, hlevels, h⟩ :=
    levels_tile.1 [0x01, 0x01, 0x02, 0x03, 0xE0, 0x01, 0x02, 0x03] rfl
  have hchain : levels [0x01, 0x01, 0x02, 0x03, 0xE0, 0x01, 0x02, 0x03] =
      .ok [⟨0, [0x01, 0x01], false⟩, ⟨2, [0x02, 0x03], true⟩,
        ⟨4, [0xE0, 0x01, 0x02, 0x03], true⟩] := by decide
  obtain rfl := Except.ok.inj (hlevels.symm.trans hchain)
  exact ⟨rfl, ⟨stop, h⟩, by decide, levels_tile.2 _ (by decide)⟩

end StorageAtlas.Lun
