import Mathlib
import StorageAtlas.Address.Reader

/-!
Texts of four fields with colons between them, as addresses are written.
Stripping leaves them alone and splitting finds the fields again, so such a text
is read as soon as its fields are.
-/

namespace StorageAtlas.Address

open Text (isBlank isAsciiDigits ofDecimal)

/-- The characters that a written address consists of. -/
def isSign (c : Char) : Bool := c.isAlphanum || c = ':' || c = '-' || c = '_'

/-- What stands between two colons of a written address. -/
def IsField (t : Text) : Prop := ∀ c ∈ t, isSign c = true ∧ c ≠ ':'

theorem isSign_of_isDigit {c : Char} (h : c.isDigit = true) : isSign c = true := by
  simp [isSign, Char.isAlphanum, h]

/-- Signs lie in a range of ASCII that holds no blank. -/
theorem toNat_of_isSign {c : Char} (h : isSign c = true) : 45 ≤ c.toNat ∧ c.toNat ≤ 122 := by
  simp only [isSign, Char.isAlphanum, Char.isAlpha, Char.isUpper, Char.isLower, Char.isDigit,
    Bool.or_eq_true, Bool.and_eq_true, decide_eq_true_eq, ge_iff_le, UInt32.le_iff_toNat_le] at h
  change (((((65 ≤ c.toNat ∧ c.toNat ≤ 90) ∨ (97 ≤ c.toNat ∧ c.toNat ≤ 122)) ∨
    (48 ≤ c.toNat ∧ c.toNat ≤ 57)) ∨ c = ':') ∨ c = '-') ∨ c = '_' at h
  rcases h with (((h | h) | rfl) | rfl) | rfl
  · omega
  · omega
  · decide
  · decide
  · decide

theorem isBlank_of_isSign {c : Char} (h : isSign c = true) : isBlank c = false := by
  have hc := toNat_of_isSign h
  simp only [isBlank, Bool.or_eq_false_iff, Bool.and_eq_false_iff, decide_eq_false_iff_not,
    beq_eq_false_iff_ne]
  omega

theorem dropWhile_eq_self {p : Char → Bool} {t : Text} (h : ∀ c ∈ t, p c = false) :
    t.dropWhile p = t := by
  cases t with
  | nil => rfl
  | cons c r => rw [List.dropWhile_cons_of_neg (by simp [h c (by simp)])]

theorem dropEndWhile_eq_self {p : Char → Bool} {t : Text} (h : ∀ c ∈ t, p c = false) :
    Text.dropEndWhile p t = t := by
  have hr : ∀ c ∈ t.reverse, p c = false := fun c hc => h c (List.mem_reverse.1 hc)
  rw [Text.dropEndWhile, dropWhile_eq_self hr, List.reverse_reverse]

theorem trim_eq_self {t : Text} (h : ∀ c ∈ t, isBlank c = false) : Text.trim t = t := by
  rw [Text.trim, Text.trimStart, Text.trimEnd, dropWhile_eq_self h, dropEndWhile_eq_self h]

/-- Stripping takes nothing from a text of signs. -/
theorem strip_eq_self {t : Text} (h : ∀ c ∈ t, isSign c = true) : strip t = t := by
  have hblank : ∀ c ∈ t, isBlank c = false := fun c hc => isBlank_of_isSign (h c hc)
  have hopen : ∀ c ∈ t, decide (c = '[') = false := by
    intro c hc
    refine decide_eq_false ?_
    rintro rfl
    exact absurd (h _ hc) (by decide)
  have hclose : ∀ c ∈ t, decide (c = ']') = false := by
    intro c hc
    refine decide_eq_false ?_
    rintro rfl
    exact absurd (h _ hc) (by decide)
  rw [strip, trim_eq_self hblank, dropWhile_eq_self hopen, dropEndWhile_eq_self hclose]

theorem isField_of_isAsciiDigits {t : Text} (h : isAsciiDigits t = true) : IsField t := by
  simp only [isAsciiDigits, Bool.and_eq_true, List.all_eq_true] at h
  intro c hc
  have hd := h.2 c hc
  refine ⟨isSign_of_isDigit hd, ?_⟩
  rintro rfl
  exact absurd hd (by decide)

theorem strip_join {fields : List Text} (h : ∀ field ∈ fields, IsField field) :
    strip (Text.join [':'] fields) = Text.join [':'] fields := by
  refine strip_eq_self fun c hc => ?_
  rcases Text.mem_join hc with hc | ⟨field, hf, hc⟩
  · rw [List.mem_singleton.1 hc]
    decide
  · exact (h field hf c hc).1

theorem splitOn_join_fields {fields : List Text} (hne : fields ≠ [])
    (h : ∀ field ∈ fields, IsField field) :
    Text.splitOn ':' (Text.join [':'] fields) = fields :=
  Text.splitOn_join hne fun field hf hc => (h field hf ':' hc).2 rfl

/-- A text of four fields is read as a unit if the first three are digits and the last is a LUN. -/
theorem parse_scsiFields {host channel target lun : Text} {n : Nat}
    (hh : isAsciiDigits host = true) (hc : isAsciiDigits channel = true)
    (ht : isAsciiDigits target = true) (hl : IsField lun) (hn : readLun lun = .ok n) :
    parse (Text.join [':'] [host, channel, target, lun]) =
      .ok (ofLun (ofDecimal host) (ofDecimal channel) (ofDecimal target) n) := by
  have hfields : ∀ field ∈ [host, channel, target, lun], IsField field := by
    intro field hf
    simp only [List.mem_cons, List.not_mem_nil, or_false] at hf
    rcases hf with rfl | rfl | rfl | rfl
    · exact isField_of_isAsciiDigits hh
    · exact isField_of_isAsciiDigits hc
    · exact isField_of_isAsciiDigits ht
    · exact hl
  have hread : ∀ t, readScsiFields [host, channel, target, lun] t =
      .ok (ofLun (ofDecimal host) (ofDecimal channel) (ofDecimal target) n) := by
    intro t
    simp [readScsiFields, hh, hc, ht, hn, Except.map]
  cases host with
  | nil => simp [isAsciiDigits] at hh
  | cons d r =>
    have hd : d.isDigit = true := by
      simp only [isAsciiDigits, Bool.and_eq_true, List.all_eq_true] at hh
      exact hh.2 d (by simp)
    have hN : d ≠ 'N' := by rintro rfl; exact absurd hd (by decide)
    have hn' : d ≠ 'n' := by rintro rfl; exact absurd hd (by decide)
    have hsplit := splitOn_join_fields (by simp) hfields
    rw [parse, strip_join hfields]
    simp only [Text.join, List.append_assoc, List.cons_append, List.nil_append] at hsplit ⊢
    simp [hN, hn', hsplit, hread]

/-- A text of four fields is read as a namespace if it begins with the letter, two fields of digits
follow and the last is a namespace id. -/
theorem parse_nvmeFields {minor controller id : Text} {n : Nat}
    (hm : isAsciiDigits minor = true) (hc : isAsciiDigits controller = true) (hi : IsField id)
    (hn : ∀ t, readNamespace id t = .ok n) :
    parse (Text.join [':'] [['N'], minor, controller, id]) =
      .ok (nvme (ofDecimal minor) (ofDecimal controller) n) := by
  have hfields : ∀ field ∈ [['N'], minor, controller, id], IsField field := by
    intro field hf
    simp only [List.mem_cons, List.not_mem_nil, or_false] at hf
    rcases hf with rfl | rfl | rfl | rfl
    · intro c hc
      rw [List.mem_singleton.1 hc]
      decide
    · exact isField_of_isAsciiDigits hm
    · exact isField_of_isAsciiDigits hc
    · exact hi
  have hread : ∀ t, readNvmeFields [['N'], minor, controller, id] t =
      .ok (nvme (ofDecimal minor) (ofDecimal controller) n) := by
    intro t
    simp only [readNvmeFields, hm, hc, hn, Bool.and_self, if_true]
    rfl
  have hsplit := splitOn_join_fields (by simp) hfields
  have hword : ∀ t : Text, Text.lower ('N' :: ':' :: t) ≠ ['n', 'v', 'm', 'e'] := by
    intro t h
    have := congrArg (·[1]?) h
    simp [Text.lower] at this
  rw [parse, strip_join hfields]
  simp only [Text.join, List.append_assoc, List.cons_append, List.nil_append] at hsplit ⊢
  simp [hword, hsplit, hread]

end StorageAtlas.Address
