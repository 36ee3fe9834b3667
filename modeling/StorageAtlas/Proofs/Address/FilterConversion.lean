import StorageAtlas.Address.Filter
import StorageAtlas.Proofs.Address.Conversion

/-!
The reader of filters with every conversion of a text to a number as an
operation that its input may not fit. Each is only reached with digits, so
arguments give a filter or are refused, and nothing else can end the reading.
-/

namespace StorageAtlas.AddressFilter

/-- What can end the reading of a filter. -/
inductive Stop where
  | refused (e : FilterError)
  /-- A conversion that its input does not fit. -/
  | fault (f : ValueFault)
  deriving DecidableEq, Repr

namespace Strict

/-- A refused unit refuses the part; a fault passes through. -/
def readUnit (nvme : Bool) (field part : Text) : Except Stop Int :=
  match if nvme then Address.Strict.readNamespace field part else Address.Strict.readLun field with
  | .ok n => .ok n
  | .error (.refused _) => .error (.refused (.badLun part))
  | .error (.fault f) => .error (.fault f)

def number (digits : Text) : Except Stop Int :=
  match Text.integer? 10 digits with
  | some n => .ok n
  | none => .error (.fault .notANumeral)

def readPart (nvme : Bool) (position : Nat) (part : Text) : Except Stop (Option Int) :=
  match part with
  | [] => .ok none
  | c :: _ =>
    if isWildcard c then .ok none
    else if position = 0 && isNvmeSign part then .ok (some Address.nvmeHost)
    else if position = 3 && Address.hasHexTag part then
      (readUnit nvme (Text.dropEndWhile (· = ']') part) part).map some
    else
      let digits := part.takeWhile Char.isDigit
      if !digits.isEmpty then (number digits).map some
      else if part.contains ']' then .ok none
      else .error (.refused (.notANumber part))

def readParts (nvme : Bool) : Nat → List Text → Except Stop (List (Option Int))
  | _, [] => .ok []
  | position, part :: rest => do
    let value ← readPart nvme position part
    let values ← readParts nvme (position + 1) rest
    .ok (value :: values)

def readText (text : Text) : Except Stop AddressFilter :=
  match text.dropWhile fun c => c = ' ' || c = '\t' || c = '[' with
  | [] => .ok {}
  | c :: r =>
    let text := c :: r
    let parts := (Text.splitOn ':' text).map Text.trim
    if 4 < parts.length then .error (.refused (.tooManyParts text))
    else (readParts (isNvmeSign (parts.headD [])) 0 parts).map ofParts

/-- The reader of filters, with every conversion as an operation of its own. -/
def parse (args : List Text) : Except Stop AddressFilter :=
  match args with
  | [] => .ok {}
  | [arg] => readText (dropHostWord arg)
  | arg :: rest =>
    if 4 < args.length then .error (.refused (.tooManyArguments args))
    else
      let first := dropHostWord arg
      if first.contains ':' then .error (.refused .colonInArgument)
      else readText (Text.join ":" (first :: rest))

theorem number_of_isAsciiDigits {digits : Text} (h : Text.isAsciiDigits digits = true) :
    number digits = .ok (Text.ofDecimal digits : Int) := by
  rw [number, Text.integer?_of_isAsciiDigits h]

theorem readUnit_eq (nvme : Bool) (field part : Text) :
    readUnit nvme field part =
      match if nvme then Address.readNamespace field part else Address.readLun field with
      | .ok n => .ok (n : Int)
      | .error _ => .error (.refused (.badLun part)) := by
  unfold readUnit
  cases nvme with
  | true =>
    simp only [if_true, Address.Strict.readNamespace_eq]
    cases Address.readNamespace field part <;> rfl
  | false =>
    simp only [Bool.false_eq_true, if_false, Address.Strict.readLun_eq]
    cases Address.readLun field <;> rfl

theorem readPart_eq (nvme : Bool) (position : Nat) (part : Text) :
    readPart nvme position part =
      (AddressFilter.readPart nvme position part).mapError .refused := by
  match part with
  | [] => rfl
  | c :: r =>
    simp only [readPart, AddressFilter.readPart]
    by_cases hwild : isWildcard c = true
    · rw [if_pos hwild, if_pos hwild]
      rfl
    rw [if_neg hwild, if_neg hwild]
    by_cases hsign : (position = 0 && isNvmeSign (c :: r)) = true
    · rw [if_pos hsign, if_pos hsign]
      rfl
    rw [if_neg hsign, if_neg hsign]
    by_cases htag : (position = 3 && Address.hasHexTag (c :: r)) = true
    · rw [if_pos htag, if_pos htag, readUnit_eq]
      cases (if nvme then _ else _ : Except AddressError Nat) <;> rfl
    rw [if_neg htag, if_neg htag]
    by_cases hdigits : (!((c :: r).takeWhile Char.isDigit).isEmpty) = true
    · have hall : ∀ d ∈ (c :: r).takeWhile Char.isDigit, d.isDigit = true :=
        fun d hd => List.mem_takeWhile_imp hd
      have hempty : ((c :: r).takeWhile Char.isDigit).isEmpty = false := by
        rwa [Bool.not_eq_true'] at hdigits
      rw [if_pos hdigits, if_pos hdigits,
        number_of_isAsciiDigits (Address.Strict.isAsciiDigits_of_runs hempty hall)]
      rfl
    rw [if_neg hdigits, if_neg hdigits]
    split
    · rfl
    · rfl

theorem readParts_eq (nvme : Bool) (position : Nat) (found : List Text) :
    readParts nvme position found =
      (AddressFilter.readParts nvme position found).mapError .refused := by
  induction found generalizing position with
  | nil => rfl
  | cons part rest ih =>
    rw [readParts, AddressFilter.readParts, readPart_eq, ih]
    cases AddressFilter.readPart nvme position part with
    | error e => rfl
    | ok value => cases AddressFilter.readParts nvme (position + 1) rest <;> rfl

theorem readText_eq (text : Text) :
    readText text = (AddressFilter.readText text).mapError .refused := by
  unfold readText AddressFilter.readText
  cases text.dropWhile fun c => c = ' ' || c = '\t' || c = '[' with
  | nil => rfl
  | cons c r =>
    simp only [readParts_eq]
    split
    · rfl
    · cases AddressFilter.readParts _ 0 _ <;> rfl

/-- No conversion fails, whatever the arguments are. -/
theorem parse_eq (args : List Text) :
    parse args = (AddressFilter.parse args).mapError .refused := by
  match args with
  | [] => rfl
  | [arg] => exact readText_eq _
  | arg :: next :: rest =>
    unfold parse AddressFilter.parse
    simp only [readText_eq]
    split
    · rfl
    · split
      · rfl
      · rfl

end Strict
end StorageAtlas.AddressFilter
