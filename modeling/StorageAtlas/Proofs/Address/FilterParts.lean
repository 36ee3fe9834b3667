import StorageAtlas.Address.Filter
import StorageAtlas.Proofs.Address.RoundTrip

/-!
What a part of a filter is read by: its first character if this is a wildcard,
a tag in the last part, the digits at the beginning, or a bracket.
-/

namespace StorageAtlas.AddressFilter

open Text (isAsciiDigits ofDecimal)

variable {nvme : Bool} {position : Nat} {digits part rest : Text} {value : Option Int}

theorem isDigit_of_mem (h : isAsciiDigits digits = true) {c : Char} (hc : c ∈ digits) :
    c.isDigit = true := by
  simp only [isAsciiDigits, Bool.and_eq_true, List.all_eq_true] at h
  exact h.2 c hc

theorem not_mem_of_isAsciiDigits (h : isAsciiDigits digits = true) {c : Char}
    (hc : c.isDigit = false) : c ∉ digits := by
  intro hmem
  rw [isDigit_of_mem h hmem] at hc
  cases hc

theorem isWildcard_iff {c : Char} : isWildcard c = true ↔ c = '-' ∨ c = '*' ∨ c = '?' := by
  simp [isWildcard, or_assoc]

theorem isWildcard_of_isDigit {c : Char} (h : c.isDigit = true) : isWildcard c = false := by
  refine Bool.eq_false_iff.2 fun hwild => ?_
  rcases isWildcard_iff.1 hwild with rfl | rfl | rfl
  · cases h
  · cases h
  · cases h

theorem isNvmeSign_iff :
    isNvmeSign part = true ↔ ∃ c, (c = 'N' ∨ c = 'n') ∧ part = [c] := by
  simp only [isNvmeSign, Bool.or_eq_true, decide_eq_true_eq]
  constructor
  · rintro (rfl | rfl)
    · exact ⟨'N', .inl rfl, rfl⟩
    · exact ⟨'n', .inr rfl, rfl⟩
  · rintro ⟨c, rfl | rfl, rfl⟩
    · exact .inl rfl
    · exact .inr rfl

theorem isNvmeSign_of_isDigit {c : Char} (h : c.isDigit = true) (r : Text) :
    isNvmeSign (c :: r) = false := by
  refine Bool.eq_false_iff.2 fun hsign => ?_
  obtain ⟨letter, hletter, hpart⟩ := isNvmeSign_iff.1 hsign
  obtain ⟨rfl, -⟩ := List.cons.inj hpart
  rcases hletter with rfl | rfl
  · cases h
  · cases h

theorem isNvmeSign_of_isAsciiDigits (h : isAsciiDigits digits = true) :
    isNvmeSign digits = false := by
  cases digits with
  | nil => cases h
  | cons c r => exact isNvmeSign_of_isDigit (isDigit_of_mem h List.mem_cons_self) r

/-- A part that is neither a wildcard nor the letter and has no tag goes by the digits at its
beginning, and without digits by a bracket. -/
theorem readPart_plain {c : Char} {r : Text} (hwild : isWildcard c = false)
    (hsign : position = 0 → isNvmeSign (c :: r) = false)
    (htag : position = 3 → Address.hasHexTag (c :: r) = false) :
    readPart nvme position (c :: r) =
      if (c :: r).takeWhile Char.isDigit ≠ [] then
        .ok (some (ofDecimal ((c :: r).takeWhile Char.isDigit) : Int))
      else if ']' ∈ c :: r then .ok none
      else .error (.notANumber (c :: r)) := by
  have hsign : (decide (position = 0) && isNvmeSign (c :: r)) = false := by simpa using hsign
  have htag : (decide (position = 3) && Address.hasHexTag (c :: r)) = false := by simpa using htag
  simp only [readPart, hwild, hsign, htag, Bool.false_eq_true, if_false, Bool.not_eq_true',
    List.isEmpty_eq_false_iff, List.contains_iff_mem]

theorem takeWhile_append_rest (hdigits : isAsciiDigits digits = true)
    (hends : ∀ c ∈ rest.head?, c.isDigit = false) :
    (digits ++ rest).takeWhile Char.isDigit = digits := by
  rw [List.takeWhile_append_of_pos fun c hc => isDigit_of_mem hdigits hc]
  cases rest with
  | nil => exact List.append_nil digits
  | cons c r =>
    have hc : c.isDigit = false := hends c rfl
    rw [List.takeWhile_cons_of_neg (by simp [hc]), List.append_nil]

/-- Digits at the beginning are the number of a part, whatever stands behind them. -/
theorem readPart_number (hdigits : isAsciiDigits digits = true)
    (hends : ∀ c ∈ rest.head?, c.isDigit = false)
    (huntagged : position = 3 → Address.hasHexTag (digits ++ rest) = false) :
    readPart nvme position (digits ++ rest) = .ok (some (ofDecimal digits : Int)) := by
  have hwhile := takeWhile_append_rest hdigits hends
  cases digits with
  | nil => cases hdigits
  | cons d r =>
    have hdigit : d.isDigit = true := isDigit_of_mem hdigits List.mem_cons_self
    have hwild := isWildcard_of_isDigit hdigit
    have hsign := isNvmeSign_of_isDigit hdigit (r ++ rest)
    rw [List.cons_append] at hwhile huntagged ⊢
    rw [readPart_plain hwild (fun _ => hsign) huntagged, hwhile, if_pos (List.cons_ne_nil d r)]

/-- A field is what is left of a text by taking the brackets behind it away. -/
theorem dropEndWhile_append {field close : Text} (hfield : ']' ∉ field)
    (hclose : ∀ c ∈ close, c = ']') : Text.dropEndWhile (· = ']') (field ++ close) = field := by
  have hself : Text.dropEndWhile (· = ']') field = field :=
    Address.dropEndWhile_eq_self fun c hc => decide_eq_false fun h => hfield (h ▸ hc)
  have hreverse : ∀ c ∈ close.reverse, decide (c = ']') = true :=
    fun c hc => decide_eq_true (hclose c (List.mem_reverse.1 hc))
  rw [Text.dropEndWhile, List.reverse_append, List.dropWhile_append_of_pos hreverse]
  exact hself

/-- A tagged last part is read as its field, which ends before the brackets. -/
theorem readPart_tagged_eq_ok_iff {tag : Char} {body : Text} (htag : tag = 'x' ∨ tag = 'X') :
    readPart nvme 3 ('0' :: tag :: body) = .ok value ↔ ∃ n : Nat, value = some (n : Int) ∧
      (if nvme then
        Address.readNamespace (Text.dropEndWhile (· = ']') ('0' :: tag :: body))
          ('0' :: tag :: body)
      else Address.readLun (Text.dropEndWhile (· = ']') ('0' :: tag :: body))) = .ok n := by
  have hhex : (decide (3 = 3) && Address.hasHexTag ('0' :: tag :: body)) = true := by
    rcases htag with rfl | rfl
    · rfl
    · rfl
  have hwild : ¬ isWildcard '0' = true := by decide
  have hfirst : ¬ (decide (3 = 0) && isNvmeSign ('0' :: tag :: body)) = true := Bool.false_ne_true
  rw [readPart, if_neg hwild, if_neg hfirst, if_pos hhex]
  simp only
  split
  · rename_i n hn
    simp only [hn, Except.ok.injEq, eq_comm (a := value)]
    constructor
    · exact fun h => ⟨n, h, rfl⟩
    · rintro ⟨m, h, rfl⟩
      exact h
  · rename_i e he
    simp [he]

end StorageAtlas.AddressFilter
