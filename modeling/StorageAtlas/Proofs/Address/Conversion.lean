import StorageAtlas.Proofs.Address.UnitBytes
import StorageAtlas.Proofs.Text.Numeral

/-!
On the way to an address texts are turned into numbers and bytes, numbers into
bytes and bytes into numbers, by operations that not every input fits. Here the
readers are written down with these operations as they are. Each is only reached
with an input that was checked before, so a text gives an address or is refused,
and nothing else can end its reading.
-/

namespace StorageAtlas

/-- Hexadecimal digits in pairs are always bytes. -/
theorem Bytes.ofHex?_isSome {digits : Text} (heven : digits.length % 2 = 0)
    (h : ∀ c ∈ digits, (Text.digitIn? 16 c).isSome = true) : (ofHex? digits).isSome = true := by
  fun_induction ofHex? digits with
  | case1 => rfl
  | case2 => simp at heven
  | case3 => rfl
  | case4 c d r hnone ih =>
    obtain ⟨high, hc⟩ := Option.isSome_iff_exists.1 (h c (by simp))
    obtain ⟨low, hd⟩ := Option.isSome_iff_exists.1 (h d (by simp))
    have hrest : r.length % 2 = 0 := by
      simp only [List.length_cons] at heven
      omega
    obtain ⟨bytes, hr⟩ := Option.isSome_iff_exists.1
      (ih hrest fun e he => h e (by simp [he]))
    exact absurd hr (hnone high low bytes hc hd)

/-- The digit of a value is the lower case form of the character that has the value. -/
theorem Bytes.hexDigit_of_digitIn? {c : Char} {d : Nat} (h : Text.digitIn? 16 c = some d) :
    hexDigit d = c.toLower := by
  have hdigit : (Text.digitIn? 16 c).isSome = true := by rw [h]; rfl
  have halnum := Text.isAlphanum_of_digitIn? hdigit
  have hrange : ∀ n < 128, ∀ d < 16, Text.digitIn? 16 (Char.ofNat n) = some d →
      hexDigit d = (Char.ofNat n).toLower := by
    decide +kernel
  have hsign : Address.isSign c = true := by simp [Address.isSign, halnum]
  have hlt := (Address.toNat_of_isSign hsign).2
  have := hrange c.toNat (by omega) d (Text.digitIn?_lt h)
  rw [Char.ofNat_toNat] at this
  exact this h

theorem Bytes.hex_of_ofHex? {digits : Text} {bytes : Bytes} (h : ofHex? digits = some bytes) :
    hex bytes = Text.lower digits := by
  fun_induction ofHex? digits generalizing bytes with
  | case1 =>
    obtain rfl := Option.some.inj h
    rfl
  | case2 => cases h
  | case3 c d r high low rest hrest hd hc ih =>
    obtain rfl := Option.some.inj h
    have hhigh := Text.digitIn?_lt hc
    have hlow := Text.digitIn?_lt hd
    have hbyte : (UInt8.ofNat (16 * high + low)).toNat = 16 * high + low := by
      rw [UInt8.toNat_ofNat']
      omega
    have hdiv : (16 * high + low) / 16 = high := by omega
    have hmod : (16 * high + low) % 16 = low := by omega
    rw [hex, hbyte, hdiv, hmod, hexDigit_of_digitIn? hc, hexDigit_of_digitIn? hd, ih hrest]
    rfl
  | case4 => cases h

namespace Address

/-- What can end the reading of an address. -/
inductive Stop where
  | refused (e : AddressError)
  /-- A conversion that its input does not fit. -/
  | fault (f : ValueFault)
  deriving DecidableEq, Repr

namespace Strict

/-- The digits of a hexadecimal LUN in pairs; an odd number of them lacks a zero at the start. -/
def evened (digits : Text) : Text := if digits.length % 2 = 1 then '0' :: digits else digits

def number (base : Nat) (t : Text) : Except Stop Int :=
  match Text.integer? base t with
  | some n => .ok n
  | none => .error (.fault .notANumeral)

def bytes (digits : Text) : Except Stop Bytes :=
  match Bytes.ofHex? digits with
  | some b => .ok b
  | none => .error (.fault .notANumeral)

def readLun (field : Text) : Except Stop Int :=
  if hasHexTag field then
    let digits := (field.drop 2).filter (· ≠ '_')
    if digits.isEmpty || 16 < digits.length || !digits.all isHexDigit then
      .error (.refused (.badHexLun field))
    else do
      let read ← bytes (evened digits)
      let lun ← (Lun.toNat (Bytes.padEnd 8 read)).mapError .fault
      .ok lun
  else if field = invalidText then .ok Lun.last
  else if !Text.isAsciiDigits field then .error (.refused (.badLun field))
  else do
    let value ← number 10 field
    if value ≤ Lun.last then .ok value else .error (.refused (.lunOutOfRange field))

def readNamespace (field text : Text) : Except Stop Int :=
  if field = invalidText then .ok lastNamespace
  else if hasHexTag field then
    let digits := field.drop 2
    if field.length ≤ 10 && !digits.isEmpty && digits.all isHexDigit then number 16 digits
    else .error (.refused (.badHexNamespace text))
  else if Text.isAsciiDigits field then do
    let value ← number 10 field
    if value ≤ lastNamespace then .ok value else .error (.refused (.badNamespace text))
  else .error (.refused (.badNamespace text))

/-- The number of a suffix is taken before its letter is looked at. -/
def applySuffixes : List (Char × Text) → Int × Int → Except Stop (Int × Int)
  | [], found => .ok found
  | (letter, digits) :: rest, (controller, id) =>
    if digits.isEmpty || !(letter = 'c' || letter = 'n' || letter = 'p') then .ok (controller, id)
    else do
      let value ← number 10 digits
      if letter = 'c' then applySuffixes rest (value + 1, id)
      else if letter = 'n' then applySuffixes rest (controller, value)
      else applySuffixes rest (controller, id)

def readNvmeName (name : Text) : Except Stop Address :=
  let (digits, suffixes) := NvmeName.runs (name.drop 4)
  if digits.isEmpty then .error (.refused (.notAName name))
  else do
    let minor ← number 10 digits
    let (controller, id) ← applySuffixes suffixes (0, 0)
    .ok (nvme minor controller id)

def readNvmeFields (fields : List Text) (text : Text) : Except Stop Address :=
  match fields with
  | [_, minor, controller, id] =>
    if Text.isAsciiDigits minor && Text.isAsciiDigits controller then do
      let minor ← number 10 minor
      let controller ← number 10 controller
      let id ← readNamespace id text
      .ok (nvme minor controller id)
    else .error (.refused (.nvmeFieldNotNumeric text))
  | _ => .error (.refused (.nvmeFieldCount text))

def readScsiFields (fields : List Text) (text : Text) : Except Stop Address :=
  match fields with
  | [host, channel, target, lun] =>
    if Text.isAsciiDigits host && Text.isAsciiDigits channel && Text.isAsciiDigits target then do
      let host ← number 10 host
      let channel ← number 10 channel
      let target ← number 10 target
      let lun ← readLun lun
      (scsi host channel target lun).mapError .fault
    else .error (.refused (.fieldNotNumeric text))
  | _ => .error (.refused (.fieldCount text))

/-- The reader of addresses, with every conversion as an operation of its own. -/
def parse (text : Text) : Except Stop Address :=
  let stripped := strip text
  match stripped with
  | [] => .error (.refused .empty)
  | c :: _ =>
    if c = 'N' || c = 'n' then
      if Text.lower (stripped.take 4) = "nvme" then readNvmeName stripped
      else readNvmeFields (Text.splitOn ':' stripped) text
    else readScsiFields (Text.splitOn ':' stripped) text

/-! ## Checked inputs -/

theorem number_of_isAsciiDigits {t : Text} (h : Text.isAsciiDigits t = true) :
    number 10 t = .ok (Text.ofDecimal t : Int) := by
  rw [number, Text.integer?_of_isAsciiDigits h]

theorem number_of_isHexDigit {t : Text} (hne : t ≠ []) (h : t.all isHexDigit = true) :
    number 16 t = .ok (Text.ofHexadecimal t : Int) := by
  rw [number, Text.integer?_of_digits (.inr rfl) hne (List.all_eq_true.1 h)]
  rfl

theorem even_length_evened (digits : Text) : (evened digits).length % 2 = 0 := by
  unfold evened
  split
  · rw [List.length_cons]
    omega
  · omega

/-- The digits of a hexadecimal LUN that pass the checks are bytes, and no more than eight. -/
theorem hexLun_of_checked {body : Text}
    (h : ¬ ((body.filter (· ≠ '_')).isEmpty || decide (16 < (body.filter (· ≠ '_')).length) ||
      !(body.filter (· ≠ '_')).all isHexDigit) = true) :
    ∃ read, Bytes.ofHex? (evened (body.filter (· ≠ '_'))) = some read ∧
      (Bytes.padEnd 8 read).length = 8 ∧ hexLunBytes? body = some (Bytes.padEnd 8 read) := by
  have hchecked := h
  simp only [Bool.or_eq_true, decide_eq_true_eq, Bool.not_eq_true', not_or, Bool.not_eq_false,
    Nat.not_lt, List.all_eq_true] at hchecked
  obtain ⟨⟨-, hlong⟩, hall⟩ := hchecked
  have hevened : ∀ c ∈ evened (body.filter (· ≠ '_')), (Text.digitIn? 16 c).isSome = true := by
    intro c hc
    unfold evened at hc
    split at hc
    · rcases List.mem_cons.1 hc with rfl | hc
      · rfl
      · exact hall c hc
    · exact hall c hc
  obtain ⟨read, hread⟩ := Option.isSome_iff_exists.1
    (Bytes.ofHex?_isSome (even_length_evened _) hevened)
  refine ⟨read, hread, ?_, ?_⟩
  · have hlength := Bytes.length_of_ofHex? hread
    have hevenedLength : (evened (body.filter (· ≠ '_'))).length ≤ 16 := by
      unfold evened
      split
      · rw [List.length_cons]
        omega
      · exact hlong
    simp only [Bytes.padEnd, Bytes.zeros, List.length_append, List.length_replicate]
    omega
  · rw [hexLunBytes?]
    refine (if_neg h).trans ?_
    exact congrArg (Option.map (Bytes.padEnd 8)) hread

theorem hexLunBytes?_of_refused {body : Text}
    (h : ((body.filter (· ≠ '_')).isEmpty || decide (16 < (body.filter (· ≠ '_')).length) ||
      !(body.filter (· ≠ '_')).all isHexDigit) = true) : hexLunBytes? body = none := by
  rw [hexLunBytes?]
  exact if_pos h

/-! ## The readers -/

theorem readLun_eq (field : Text) :
    readLun field = ((Address.readLun field).map Int.ofNat).mapError .refused := by
  unfold readLun Address.readLun
  split
  · simp only
    by_cases hbad : (((field.drop 2).filter (· ≠ '_')).isEmpty ||
        decide (16 < ((field.drop 2).filter (· ≠ '_')).length) ||
        !((field.drop 2).filter (· ≠ '_')).all isHexDigit) = true
    · rw [if_pos hbad, hexLunBytes?_of_refused hbad]
      rfl
    · obtain ⟨read, hread, hlength, hsome⟩ := hexLun_of_checked hbad
      rw [if_neg hbad, hsome, bytes, hread]
      show (Lun.toNat (Bytes.padEnd 8 read)).mapError Stop.fault >>= _ = _
      rw [Lun.toNat, if_pos hlength]
      rfl
  · split
    · rfl
    · split
      · rfl
      · rename_i hdigits
        have hdigits : Text.isAsciiDigits field = true := by simpa using hdigits
        rw [number_of_isAsciiDigits hdigits]
        show (if (Text.ofDecimal field : Int) ≤ Lun.last then _ else _) = _
        by_cases hle : Text.ofDecimal field ≤ Lun.last
        · rw [if_pos (by exact_mod_cast hle)]
          simp only [hle, if_true]
          rfl
        · rw [if_neg (by exact_mod_cast hle)]
          simp only [hle, if_false]
          rfl

theorem readNamespace_eq (field text : Text) :
    readNamespace field text =
      ((Address.readNamespace field text).map Int.ofNat).mapError .refused := by
  unfold readNamespace Address.readNamespace
  split
  · rfl
  · split
    · simp only
      split
      · rename_i hdigits
        simp only [Bool.and_eq_true, Bool.not_eq_true', List.isEmpty_eq_false_iff] at hdigits
        rw [number_of_isHexDigit hdigits.1.2 hdigits.2]
        rfl
      · rfl
    · cases hdigits : Text.isAsciiDigits field with
      | false => rfl
      | true =>
        rw [number_of_isAsciiDigits hdigits]
        show (if (Text.ofDecimal field : Int) ≤ lastNamespace then _ else _) = _
        by_cases hle : Text.ofDecimal field ≤ lastNamespace
        · rw [if_pos (by exact_mod_cast hle)]
          simp only [hle, decide_true, Bool.and_self, if_true]
          rfl
        · rw [if_neg (by exact_mod_cast hle)]
          simp only [hle, decide_false, Bool.and_false, Bool.false_eq_true, if_false]
          rfl

/-- Behind each letter of a kernel name stand digits only. -/
theorem isDigit_of_mem_runs {t : Text} :
    (∀ c ∈ (NvmeName.runs t).1, c.isDigit = true) ∧
      ∀ suffix ∈ (NvmeName.runs t).2, ∀ c ∈ suffix.2, c.isDigit = true := by
  induction t with
  | nil => simp [NvmeName.runs]
  | cons c r ih =>
    by_cases hc : c.isDigit = true
    · simp only [NvmeName.runs, hc, if_true, List.forall_mem_cons, true_and]
      exact ih
    · simp only [NvmeName.runs, hc, Bool.false_eq_true, if_false, List.forall_mem_cons,
        List.not_mem_nil, false_imp_iff, implies_true, true_and]
      exact ih

theorem isAsciiDigits_of_runs {digits : Text} (hne : digits.isEmpty = false)
    (h : ∀ c ∈ digits, c.isDigit = true) : Text.isAsciiDigits digits = true := by
  rw [Text.isAsciiDigits, hne, List.all_eq_true.2 h]
  rfl

theorem applySuffixes_eq {suffixes : List (Char × Text)}
    (h : ∀ suffix ∈ suffixes, ∀ c ∈ suffix.2, c.isDigit = true) (controller id : Nat) :
    applySuffixes suffixes (controller, id) =
      .ok ((Address.applySuffixes suffixes (controller, id)).1,
        (Address.applySuffixes suffixes (controller, id)).2) := by
  induction suffixes generalizing controller id with
  | nil => rfl
  | cons suffix rest ih =>
    obtain ⟨letter, digits⟩ := suffix
    obtain ⟨hdigits, hrest⟩ := List.forall_mem_cons.1 h
    cases hempty : digits.isEmpty with
    | true => simp [applySuffixes, Address.applySuffixes, hempty]
    | false =>
      have hnumber := number_of_isAsciiDigits (isAsciiDigits_of_runs hempty hdigits)
      by_cases hletter : letter = 'c' ∨ letter = 'n' ∨ letter = 'p'
      · rcases hletter with rfl | rfl | rfl
        · have hstep := ih hrest (Text.ofDecimal digits + 1) id
          simp only [Nat.cast_add, Nat.cast_one] at hstep
          simpa [applySuffixes, Address.applySuffixes, hempty, hnumber, bind, Except.bind]
            using hstep
        · simpa [applySuffixes, Address.applySuffixes, hempty, hnumber, bind, Except.bind]
            using ih hrest controller (Text.ofDecimal digits)
        · simpa [applySuffixes, Address.applySuffixes, hempty, hnumber, bind, Except.bind]
            using ih hrest controller id
      · simp only [not_or] at hletter
        simp [applySuffixes, Address.applySuffixes, hempty, hletter]

theorem readNvmeName_eq (name : Text) :
    readNvmeName name = (Address.readNvmeName name).mapError .refused := by
  obtain ⟨hdigits, hsuffixes⟩ := isDigit_of_mem_runs (t := name.drop 4)
  unfold readNvmeName Address.readNvmeName NvmeName.parts?
  cases hruns : NvmeName.runs (name.drop 4) with
  | mk digits suffixes =>
    rw [hruns] at hdigits hsuffixes
    cases hempty : digits.isEmpty with
    | true => simp [hempty, Except.mapError]
    | false =>
      have hnumber := number_of_isAsciiDigits (isAsciiDigits_of_runs hempty hdigits)
      have happly := applySuffixes_eq hsuffixes 0 0
      simp only [Nat.cast_zero] at happly
      simp [hempty, hnumber, happly, bind, Except.bind, Except.mapError]

theorem readNvmeFields_eq (fields : List Text) (text : Text) :
    readNvmeFields fields text = (Address.readNvmeFields fields text).mapError .refused := by
  match fields with
  | [first, minor, controller, id] =>
    unfold readNvmeFields Address.readNvmeFields
    simp only
    by_cases hdigits : (Text.isAsciiDigits minor && Text.isAsciiDigits controller) = true
    · obtain ⟨hminor, hcontroller⟩ := Bool.and_eq_true_iff.1 hdigits
      rw [if_pos hdigits, if_pos hdigits, number_of_isAsciiDigits hminor,
        number_of_isAsciiDigits hcontroller, readNamespace_eq]
      cases Address.readNamespace id text with
      | error e => rfl
      | ok n => rfl
    · rw [if_neg hdigits, if_neg hdigits]
      rfl
  | [] | [_] | [_, _] | [_, _, _] | _ :: _ :: _ :: _ :: _ :: _ => rfl

theorem readScsiFields_eq (fields : List Text) (text : Text) :
    readScsiFields fields text = (Address.readScsiFields fields text).mapError .refused := by
  match fields with
  | [host, channel, target, lun] =>
    unfold readScsiFields Address.readScsiFields
    simp only
    by_cases hdigits : (Text.isAsciiDigits host && Text.isAsciiDigits channel &&
        Text.isAsciiDigits target) = true
    · obtain ⟨hfirst, htarget⟩ := Bool.and_eq_true_iff.1 hdigits
      obtain ⟨hhost, hchannel⟩ := Bool.and_eq_true_iff.1 hfirst
      rw [if_pos hdigits, if_pos hdigits, number_of_isAsciiDigits hhost,
        number_of_isAsciiDigits hchannel, number_of_isAsciiDigits htarget, readLun_eq]
      cases hlun : Address.readLun lun with
      | error e => rfl
      | ok n =>
        show (scsi _ _ _ (n : Int)).mapError Stop.fault = _
        rw [scsi_natCast _ _ _ (readLun_le hlun)]
        rfl
    · rw [if_neg hdigits, if_neg hdigits]
      rfl
  | [] | [_] | [_, _] | [_, _, _] | _ :: _ :: _ :: _ :: _ :: _ => rfl

/-- No conversion fails, whatever the text is. -/
theorem parse_eq (text : Text) : parse text = (Address.parse text).mapError .refused := by
  unfold parse Address.parse
  simp only
  cases strip text with
  | nil => rfl
  | cons c rest =>
    simp only
    split
    · split
      · exact readNvmeName_eq _
      · exact readNvmeFields_eq _ _
    · exact readScsiFields_eq _ _

end Strict
end Address
end StorageAtlas
