import StorageAtlas.Proofs.Address.Conversion

/-!
The suffixes of kernel names: a letter and a number each. The reader takes them
one after another, in whatever order they stand, up to the first text that is
none, and uses the last number of each kind. Runs of digits show where that is.
-/

namespace StorageAtlas.Address

open Text (isAsciiDigits ofDecimal)

def isSuffixLetter (c : Char) : Bool := c = 'c' || c = 'n' || c = 'p'

def suffixesText (suffixes : List (Char × Text)) : Text :=
  suffixes.flatMap fun suffix => suffix.1 :: suffix.2

theorem suffixesText_takeWhile_append (p : Char × Text → Bool) (suffixes : List (Char × Text)) :
    suffixesText (suffixes.takeWhile p) ++ suffixesText (suffixes.dropWhile p) =
      suffixesText suffixes := by
  rw [suffixesText, suffixesText, ← List.flatMap_append, List.takeWhile_append_dropWhile]
  rfl

/-- The number behind the last suffix with a letter. -/
def lastNumber? (letter : Char) : List (Char × Text) → Option Nat
  | [] => none
  | (own, digits) :: rest =>
    (lastNumber? letter rest).or (if own = letter then some (ofDecimal digits) else none)

/-- What a number and suffixes denote: the ids of controllers begin at one, and a part is none of
the address. -/
def named (minor : Text) (suffixes : List (Char × Text)) : Address :=
  nvme (ofDecimal minor) ((lastNumber? 'c' suffixes).elim 0 (· + 1) : Nat)
    ((lastNumber? 'n' suffixes).getD 0 : Nat)

/-- Neither a number nor a suffix goes on here. -/
def endsName : Text → Bool
  | [] => true
  | [c] => !c.isDigit
  | c :: d :: _ => !c.isDigit && !(isSuffixLetter c && d.isDigit)

/-- The suffixes that the reader goes on from. -/
def isTaken (suffix : Char × Text) : Bool := isSuffixLetter suffix.1 && !suffix.2.isEmpty

theorem isDigit_of_isSuffixLetter {c : Char} (h : isSuffixLetter c = true) : c.isDigit = false := by
  simp only [isSuffixLetter, Bool.or_eq_true, decide_eq_true_eq] at h
  rcases h with (rfl | rfl) | rfl
  · rfl
  · rfl
  · rfl

theorem runs_text (t : Text) : (NvmeName.runs t).1 ++ suffixesText (NvmeName.runs t).2 = t := by
  induction t with
  | nil => rfl
  | cons c r ih =>
    by_cases hc : c.isDigit = true
    · simp only [NvmeName.runs, hc, if_true, List.cons_append, ih]
    · simp only [NvmeName.runs, hc, Bool.false_eq_true, if_false, suffixesText, List.flatMap_cons,
        List.nil_append, List.cons_append]
      exact congrArg (c :: ·) ih

theorem isDigit_of_mem_runs_letters {t : Text} :
    ∀ suffix ∈ (NvmeName.runs t).2, suffix.1.isDigit = false := by
  induction t with
  | nil => simp [NvmeName.runs]
  | cons c r ih =>
    cases hc : c.isDigit with
    | true =>
      simp only [NvmeName.runs, hc, if_true]
      exact ih
    | false =>
      simp only [NvmeName.runs, hc, Bool.false_eq_true, if_false, List.forall_mem_cons, true_and]
      exact ih

/-- Suffixes come back from their text, whatever stands behind them. -/
theorem runs_suffixesText {suffixes : List (Char × Text)} {rest : Text}
    (hletters : ∀ suffix ∈ suffixes, suffix.1.isDigit = false)
    (hdigits : ∀ suffix ∈ suffixes, ∀ c ∈ suffix.2, c.isDigit = true)
    (hrest : (NvmeName.runs rest).1 = []) :
    NvmeName.runs (suffixesText suffixes ++ rest) = ([], suffixes ++ (NvmeName.runs rest).2) := by
  induction suffixes with
  | nil => exact Prod.ext hrest rfl
  | cons suffix more ih =>
    obtain ⟨hletter, hletters⟩ := List.forall_mem_cons.1 hletters
    obtain ⟨hown, hdigits⟩ := List.forall_mem_cons.1 hdigits
    have hmore := ih hletters hdigits
    have hruns := NvmeName.runs_append_nondigit hown (suffixesText more ++ rest) (by rw [hmore])
    have htext : suffixesText (suffix :: more) ++ rest =
        suffix.1 :: (suffix.2 ++ (suffixesText more ++ rest)) := by
      simp [suffixesText]
    rw [htext, NvmeName.runs, hruns, hmore, hletter]
    rfl

/-- A name ends where no digits stand and the reader takes no suffix. -/
theorem endsName_iff {rest : Text} :
    endsName rest = true ↔
      (NvmeName.runs rest).1 = [] ∧ (NvmeName.runs rest).2.takeWhile isTaken = [] := by
  match rest with
  | [] => simp [endsName, NvmeName.runs]
  | [c] => cases hc : c.isDigit <;> simp [endsName, NvmeName.runs, hc, isTaken]
  | c :: d :: r =>
    cases hc : c.isDigit with
    | true => simp [endsName, NvmeName.runs, hc]
    | false =>
      cases hd : d.isDigit <;> cases hletter : isSuffixLetter c <;>
        simp [endsName, NvmeName.runs, hc, hd, hletter, isTaken]

theorem isTaken_of_isSuffix {suffix : Char × Text}
    (h : isSuffixLetter suffix.1 = true ∧ isAsciiDigits suffix.2 = true) :
    isTaken suffix = true ∧ suffix.1.isDigit = false ∧ ∀ c ∈ suffix.2, c.isDigit = true := by
  obtain ⟨hletter, hdigits⟩ := h
  simp only [isAsciiDigits, Bool.and_eq_true, List.all_eq_true] at hdigits
  exact ⟨by rw [isTaken, hletter, hdigits.1]; rfl, isDigit_of_isSuffixLetter hletter, hdigits.2⟩

/-- Number and suffixes of a name are what the reader takes. -/
theorem runs_name {minor rest : Text} {suffixes : List (Char × Text)}
    (hminor : isAsciiDigits minor = true)
    (hsuffixes : ∀ suffix ∈ suffixes,
      isSuffixLetter suffix.1 = true ∧ isAsciiDigits suffix.2 = true)
    (hrest : endsName rest = true) :
    (NvmeName.runs (minor ++ (suffixesText suffixes ++ rest))).1 = minor ∧
      (NvmeName.runs (minor ++ (suffixesText suffixes ++ rest))).2.takeWhile isTaken =
        suffixes := by
  obtain ⟨hend, hnone⟩ := endsName_iff.1 hrest
  simp only [isAsciiDigits, Bool.and_eq_true, List.all_eq_true] at hminor
  have hruns := runs_suffixesText (fun s hs => (isTaken_of_isSuffix (hsuffixes s hs)).2.1)
    (fun s hs => (isTaken_of_isSuffix (hsuffixes s hs)).2.2) hend
  rw [NvmeName.runs_append_nondigit hminor.2 _ (by rw [hruns]), hruns]
  refine ⟨rfl, ?_⟩
  rw [List.takeWhile_append_of_pos fun s hs => (isTaken_of_isSuffix (hsuffixes s hs)).1, hnone,
    List.append_nil]

/-- The reader uses the last number of each kind among the suffixes that it takes. -/
theorem applySuffixes_eq_lastNumber (suffixes : List (Char × Text)) (controller id : Nat) :
    applySuffixes suffixes (controller, id) =
      ((lastNumber? 'c' (suffixes.takeWhile isTaken)).elim controller (· + 1),
        (lastNumber? 'n' (suffixes.takeWhile isTaken)).getD id) := by
  induction suffixes generalizing controller id with
  | nil => rfl
  | cons suffix rest ih =>
    obtain ⟨letter, digits⟩ := suffix
    cases hempty : digits.isEmpty with
    | true => simp [applySuffixes, isTaken, hempty, lastNumber?]
    | false =>
      by_cases hletter : letter = 'c' ∨ letter = 'n' ∨ letter = 'p'
      · rcases hletter with rfl | rfl | rfl
        · cases hlast : lastNumber? 'c' (rest.takeWhile isTaken) <;>
            simp [applySuffixes, isTaken, isSuffixLetter, hempty, ih, lastNumber?, hlast]
        · cases hlast : lastNumber? 'n' (rest.takeWhile isTaken) <;>
            simp [applySuffixes, isTaken, isSuffixLetter, hempty, ih, lastNumber?, hlast]
        · simp [applySuffixes, isTaken, isSuffixLetter, hempty, ih, lastNumber?]
      · simp only [not_or] at hletter
        simp [applySuffixes, isTaken, isSuffixLetter, hempty, hletter, lastNumber?]

end StorageAtlas.Address
