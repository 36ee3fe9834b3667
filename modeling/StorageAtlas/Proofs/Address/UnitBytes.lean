import StorageAtlas.Address.Reader
import StorageAtlas.Proofs.Address.LunWords
import StorageAtlas.Proofs.Failure
import StorageAtlas.Proofs.Text.Hexadecimal

/-!
An address holds its unit twice, as a number and as bytes. Both say the same in
every address of a unit that is read, and in one of a namespace as long as its id
has room in the bytes. Only kernel names bring in ids that have not, since every
other reader of ids checks them.
-/

namespace StorageAtlas

/-! ## Bytes with the lowest first -/

/-- The lowest bytes of a number, the lowest of them first. -/
def Bytes.littleEndian : Nat → Nat → Bytes
  | 0, _ => []
  | count + 1, n => UInt8.ofNat (n % 256) :: littleEndian count (n / 256)

/-- As many bytes as a number has room in give it back. -/
theorem Bytes.toNat_reverse_littleEndian (count n : Nat) :
    toNat (littleEndian count n).reverse = n % 256 ^ count := by
  induction count generalizing n with
  | zero => simp [littleEndian, toNat, Nat.mod_one]
  | succ k ih =>
    have hsplit : n % 256 ^ (k + 1) = n % 256 + 256 * (n / 256 % 256 ^ k) := by
      rw [Nat.pow_succ', Nat.mod_mul]
    rw [littleEndian, List.reverse_cons, toNat_append_singleton, ih, UInt8.toNat_ofNat', hsplit]
    omega

theorem Bytes.length_littleEndian (count n : Nat) : (littleEndian count n).length = count := by
  induction count generalizing n with
  | zero => rfl
  | succ k ih => rw [littleEndian, List.length_cons, ih]

theorem Bytes.length_of_ofHex? {t : Text} {bytes : Bytes} (h : ofHex? t = some bytes) :
    t.length = 2 * bytes.length := by
  fun_induction ofHex? t generalizing bytes with
  | case1 =>
    obtain rfl := Option.some.inj h
    rfl
  | case2 => cases h
  | case3 c d r high low rest hrest hd hc ih =>
    obtain rfl := Option.some.inj h
    simp only [List.length_cons, ih hrest]
    omega
  | case4 => cases h

/-! ## Numbers that are read -/

theorem Lun.length_wordsOf (bytes : Bytes) : (wordsOf bytes).length = bytes.length / 2 := by
  fun_induction wordsOf bytes with
  | case1 a b r ih =>
    simp only [List.length_cons, ih]
    omega
  | case2 bytes h =>
    cases bytes with
    | nil => rfl
    | cons a r =>
      cases r with
      | nil => simp
      | cons b r => exact absurd rfl (h a b r)

theorem Lun.wordsOf_lt {bytes : Bytes} {w : Nat} (h : w ∈ wordsOf bytes) : w < 65536 := by
  fun_induction wordsOf bytes with
  | case1 a b r ih =>
    rcases List.mem_cons.1 h with rfl | h
    · have ha := a.toNat_lt
      have hb := b.toNat_lt
      omega
    · exact ih h
  | case2 => cases h

theorem Lun.ofWords_lt {words : List Nat} (h : ∀ w ∈ words, w < 65536) :
    ofWords words < 65536 ^ words.length := by
  induction words with
  | nil => exact Nat.one_pos
  | cons w r ih =>
    have hw := h w List.mem_cons_self
    have hr := ih fun x hx => h x (List.mem_cons_of_mem w hx)
    rw [ofWords, List.length_cons, Nat.pow_succ]
    omega

/-- Every eight bytes are those of the number that is read from them. -/
theorem Lun.ofNat_ofWords_wordsOf {bytes : Bytes} (h : bytes.length = 8) :
    ofNat (ofWords (wordsOf bytes)) = bytes := by
  have hlength : (wordsOf bytes).length = 4 := by rw [length_wordsOf, h]
  have hwords := lowWords_ofWords fun w (hw : w ∈ wordsOf bytes) => wordsOf_lt hw
  rw [hlength] at hwords
  rw [ofNat, hwords, flatMap_wordsOf (by omega)]

theorem Text.digitIn?_lt {base d : Nat} {c : Char} (h : digitIn? base c = some d) : d < base := by
  unfold digitIn? at h
  exact of_decide_eq_true (Option.filter_eq_some_iff.1 h).2

theorem Text.ofHexadecimal_lt (t : Text) : ofHexadecimal t < 16 ^ t.length := by
  induction t using List.reverseRecOn with
  | nil => exact Nat.one_pos
  | append_singleton t c ih =>
    have hlast : ofHexadecimal (t ++ [c]) = 16 * ofHexadecimal t + (digitIn? 16 c).getD 0 := by
      simp [ofHexadecimal]
    have hdigit : (digitIn? 16 c).getD 0 < 16 := by
      cases hc : digitIn? 16 c with
      | none => decide
      | some d => exact digitIn?_lt hc
    rw [hlast, List.length_append, List.length_singleton, Nat.pow_succ]
    omega

namespace Address

theorem length_of_hexLunBytes? {digits : Text} {bytes : Bytes}
    (h : hexLunBytes? digits = some bytes) : bytes.length = 8 := by
  unfold hexLunBytes? at h
  simp only at h
  split at h
  · cases h
  · rename_i hbad
    obtain ⟨read, hread, rfl⟩ := Option.map_eq_some_iff.1 h
    have hlength := Bytes.length_of_ofHex? hread
    simp only [Bool.or_eq_true, decide_eq_true_eq, not_or] at hbad
    -- a digit that is put before an odd number of them makes no byte more than eight
    have hshort : read.length ≤ 8 := by
      split at hlength
      · rw [List.length_cons] at hlength
        omega
      · omega
    simp only [Bytes.padEnd, Bytes.zeros, List.length_append, List.length_replicate]
    omega

/-- A LUN that is read has room in eight bytes. -/
theorem readLun_le {field : Text} {n : Nat} (h : readLun field = .ok n) : n ≤ Lun.last := by
  unfold readLun at h
  split at h
  · split at h
    · rename_i bytes hbytes
      obtain rfl := Except.ok.inj h
      have hlt := Lun.ofWords_lt fun w (hw : w ∈ Lun.wordsOf bytes) => Lun.wordsOf_lt hw
      rw [Lun.length_wordsOf, length_of_hexLunBytes? hbytes] at hlt
      exact Nat.le_of_lt_succ hlt
    · cases h
  · split at h
    · obtain rfl := Except.ok.inj h
      exact Nat.le_refl _
    · split at h
      · cases h
      · simp only at h
        split at h
        · rename_i hle
          obtain rfl := Except.ok.inj h
          exact hle
        · cases h

/-- A namespace id that is read as a field has room in four bytes. -/
theorem readNamespace_le {field text : Text} {n : Nat} (h : readNamespace field text = .ok n) :
    n ≤ lastNamespace := by
  unfold readNamespace at h
  split at h
  · obtain rfl := Except.ok.inj h
    exact Nat.le_refl _
  · split at h
    · simp only at h
      split at h
      · rename_i hdigits
        obtain rfl := Except.ok.inj h
        simp only [Bool.and_eq_true, decide_eq_true_eq] at hdigits
        have hlength : (field.drop 2).length ≤ 8 := by
          rw [List.length_drop]
          omega
        have hlt := Text.ofHexadecimal_lt (field.drop 2)
        have hpow : 16 ^ (field.drop 2).length ≤ 16 ^ 8 := Nat.pow_le_pow_right (by decide) hlength
        exact Nat.le_of_lt_succ (Nat.lt_of_lt_of_le hlt hpow)
      · cases h
    · split at h
      · rename_i hdigits
        obtain rfl := Except.ok.inj h
        simp only [Bool.and_eq_true, decide_eq_true_eq] at hdigits
        exact hdigits.2
      · cases h

/-! ## Addresses -/

/-- What the bytes of an address owe to its number: those of a unit are the number's own, and
those of a namespace are the lowest four that its id has. -/
structure WellFormed (a : Address) : Prop where
  scsi : a.family = .scsi → 0 ≤ a.lun ∧ a.lun < 2 ^ 64 ∧ Lun.ofInt a.lun = .ok a.lunBytes ∧
    (Lun.toNat a.lunBytes).map Int.ofNat = .ok a.lun
  nvme : a.family = .nvme → a.host = nvmeHost ∧ 0 ≤ a.lun ∧
    a.lunBytes = Bytes.littleEndian 4 a.lun.toNat ++ Bytes.zeros 4

/-- Number and bytes say the same if the bytes have room for the id. -/
structure Consistent (a : Address) : Prop extends WellFormed a where
  room : a.family = .nvme → a.lun < 2 ^ 32

theorem wellFormed_ofLun (host channel target : Int) {lun : Nat} (h : lun ≤ Lun.last) :
    (ofLun host channel target lun).WellFormed := by
  constructor
  · intro _
    have hlt : lun < 2 ^ 64 := Nat.lt_succ_of_le h
    refine ⟨Int.natCast_nonneg lun, ?_, ?_, ?_⟩
    · show (lun : Int) < 2 ^ 64
      exact_mod_cast hlt
    · exact if_pos ⟨Int.natCast_nonneg lun, Int.ofNat_le.2 h⟩
    · show (Lun.toNat (Lun.ofNat lun)).map Int.ofNat = .ok (lun : Int)
      rw [Lun.toNat, if_pos (Lun.length_ofNat lun), Lun.ofWords_wordsOf_ofNat h]
      rfl
  · intro h
    cases h

/-- The four bytes of an id are the lowest that it has, whether there are more or not. -/
theorem namespaceBytes_natCast (id : Nat) :
    namespaceBytes id = Bytes.littleEndian 4 id ++ Bytes.zeros 4 := by
  have hlow : ((id : Int) % 0x100000000).toNat = id % 0x100000000 := by omega
  have h0 : id % 0x100000000 % 256 = id % 256 := by omega
  have h1 : id % 0x100000000 / 256 % 256 = id / 256 % 256 := by omega
  have h2 : id % 0x100000000 / 65536 % 256 = id / 256 / 256 % 256 := by omega
  have h3 : id % 0x100000000 / 16777216 % 256 = id / 256 / 256 / 256 % 256 := by omega
  simp only [namespaceBytes, hlow, h0, h1, h2, h3, Bytes.littleEndian]

theorem wellFormed_nvme (minor controller : Int) (id : Nat) :
    (nvme minor controller id).WellFormed := by
  constructor
  · intro h
    cases h
  · intro _
    exact ⟨rfl, Int.natCast_nonneg id, namespaceBytes_natCast id⟩

theorem WellFormed.consistent_iff {a : Address} (h : a.WellFormed) :
    a.Consistent ↔ (a.isNvme = true → a.lun < 2 ^ 32) := by
  constructor
  · exact fun hc hfamily => hc.room (of_decide_eq_true hfamily)
  · exact fun hroom => ⟨h, fun hfamily => hroom (decide_eq_true hfamily)⟩

theorem consistent_ofLun (host channel target : Int) {lun : Nat} (h : lun ≤ Lun.last) :
    (ofLun host channel target lun).Consistent := by
  refine ⟨wellFormed_ofLun host channel target h, ?_⟩
  intro hfamily
  cases hfamily

theorem consistent_nvme_iff (minor controller : Int) (id : Nat) :
    (nvme minor controller id).Consistent ↔ id < 2 ^ 32 := by
  have hlun : (nvme minor controller id).lun = (id : Int) := rfl
  rw [(wellFormed_nvme minor controller id).consistent_iff, hlun]
  constructor
  · intro h
    exact_mod_cast h rfl
  · intro h _
    exact_mod_cast h

/-- The bytes of a namespace give its number back. -/
theorem Consistent.ofNat_toNat_lunBytes {a : Address} (h : a.Consistent)
    (hfamily : a.family = .nvme) :
    Int.ofNat (Bytes.toNat (a.lunBytes.take 4).reverse) = a.lun := by
  obtain ⟨-, hnonneg, hbytes⟩ := h.nvme hfamily
  have hroom := h.room hfamily
  have htake : a.lunBytes.take 4 = Bytes.littleEndian 4 a.lun.toNat := by
    rw [hbytes]
    exact List.take_left' (Bytes.length_littleEndian 4 a.lun.toNat)
  have hmod : a.lun.toNat % 256 ^ 4 = a.lun.toNat := Nat.mod_eq_of_lt (by omega)
  rw [htake, Bytes.toNat_reverse_littleEndian, hmod]
  exact Int.toNat_of_nonneg hnonneg

/-- Two addresses of one family with the same bytes have the same unit. -/
theorem Consistent.lun_eq {a b : Address} (ha : a.Consistent) (hb : b.Consistent)
    (hfamily : a.family = b.family) (hbytes : a.lunBytes = b.lunBytes) : a.lun = b.lun := by
  cases h : a.family with
  | scsi =>
    have hlun := (ha.scsi h).2.2.2
    rw [hbytes, (hb.scsi (hfamily ▸ h)).2.2.2] at hlun
    exact (Except.ok.inj hlun).symm
  | nvme =>
    rw [← ha.ofNat_toNat_lunBytes h, ← hb.ofNat_toNat_lunBytes (hfamily ▸ h), hbytes]

/-! ## Reading -/

/-- Does a text begin with the word of kernel names? -/
def isKernelName (text : Text) : Bool := Text.lower ((strip text).take 4) = "nvme"

/-- The readers of fields check what they read. -/
theorem consistent_of_readScsiFields {fields : List Text} {text : Text} {a : Address}
    (h : readScsiFields fields text = .ok a) : a.Consistent := by
  unfold readScsiFields at h
  split at h
  · split at h
    · obtain ⟨n, hlun, rfl⟩ := exists_of_map_eq_ok h
      exact consistent_ofLun _ _ _ (readLun_le hlun)
    · cases h
  · cases h

theorem consistent_of_readNvmeFields {fields : List Text} {text : Text} {a : Address}
    (h : readNvmeFields fields text = .ok a) : a.Consistent := by
  unfold readNvmeFields at h
  split at h
  · split at h
    · rename_i minor controller id _
      cases hid : readNamespace id text with
      | error e =>
        rw [hid] at h
        cases h
      | ok n =>
        rw [hid] at h
        obtain rfl := Except.ok.inj h
        exact (consistent_nvme_iff _ _ n).2 (Nat.lt_succ_of_le (readNamespace_le hid))
    · cases h
  · cases h

theorem wellFormed_of_readNvmeName {name : Text} {a : Address} (h : readNvmeName name = .ok a) :
    a.isNvme = true ∧ a.WellFormed := by
  unfold readNvmeName at h
  split at h
  · cases h
  · obtain rfl := Except.ok.inj h
    exact ⟨rfl, wellFormed_nvme _ _ _⟩

theorem eq_of_toLower_eq {c : Char} (h : c.toLower = 'n') : c = 'N' ∨ c = 'n' := by
  unfold Char.toLower at h
  split at h
  · left
    have hval : c.val + 32 = 110 := congrArg Char.val h
    apply Char.ext
    show c.val = 78
    grind
  · exact .inr h

theorem isKernelName_eq_false {text : Text} {c : Char} {rest : Text}
    (hstrip : strip text = c :: rest) (hc : ¬ (c = 'N' ∨ c = 'n')) : isKernelName text = false := by
  refine decide_eq_false fun hword => hc (eq_of_toLower_eq ?_)
  rw [hstrip] at hword
  exact (List.cons.inj hword).1

/-- Only kernel names are read without a look at the size of the id. -/
theorem consistent_or_kernelName {text : Text} {a : Address} (h : parse text = .ok a) :
    isKernelName text = false ∧ a.Consistent ∨
      isKernelName text = true ∧ a.isNvme = true ∧ a.WellFormed := by
  unfold parse at h
  simp only at h
  split at h
  · cases h
  · rename_i c rest hstrip
    split at h
    · split at h
      · rename_i hword
        exact .inr ⟨decide_eq_true hword, wellFormed_of_readNvmeName h⟩
      · rename_i hword
        exact .inl ⟨decide_eq_false hword, consistent_of_readNvmeFields h⟩
    · rename_i hc
      simp only [Bool.or_eq_true, decide_eq_true_eq] at hc
      exact .inl ⟨isKernelName_eq_false hstrip hc, consistent_of_readScsiFields h⟩

theorem wellFormed_of_parse {text : Text} {a : Address} (h : parse text = .ok a) :
    a.WellFormed := by
  rcases consistent_or_kernelName h with ⟨-, hc⟩ | ⟨-, -, hwell⟩
  · exact hc.toWellFormed
  · exact hwell

theorem consistent_iff_of_parse {text : Text} {a : Address} (h : parse text = .ok a) :
    a.Consistent ↔ (isKernelName text = true → a.lun < 2 ^ 32) := by
  rcases consistent_or_kernelName h with ⟨hword, hc⟩ | ⟨hword, hfamily, hwell⟩
  · constructor
    · intro _ hkernel
      rw [hword] at hkernel
      cases hkernel
    · exact fun _ => hc
  · rw [hwell.consistent_iff]
    exact ⟨fun hroom _ => hroom hfamily, fun hroom _ => hroom hword⟩

end Address
end StorageAtlas
