import StorageAtlas.Text.Blank
import StorageAtlas.Text.Digit

/-!
Writing integers, and reading them from text that people and kernels write:
blanks around the numeral, a sign, digits of any script and a single underscore
between two digits are accepted. Reading returns what writing wrote. Neither has a
bound: a numeral may have any number of digits.
-/

namespace StorageAtlas.Text

def decimal (n : Nat) : Text := Nat.toDigits 10 n

def signed : Int → Text
  | .ofNat n => decimal n
  | .negSucc n => '-' :: decimal (n + 1)

def hexadecimal (n : Nat) : Text := Nat.toDigits 16 n

/-- The number that a text of the digits 0 to 9 denotes. -/
def ofDecimal (t : Text) : Nat := Nat.ofDigitChars 10 t 0

/-- The blanks that may surround a numeral: not the information separators. -/
def isNumeralBlank (c : Char) : Bool := isBlank c && !(28 ≤ c.toNat && c.toNat ≤ 31)

/-- A decimal digit of any script becomes the one of 0 to 9, all else stays. -/
def plainDigit (c : Char) : Char :=
  match decimalValue? c with
  | some d => Char.ofNat (d + '0'.toNat)
  | none => c

def digitIn? (base : Nat) (c : Char) : Option Nat :=
  let value :=
    if c.isDigit then some (c.toNat - '0'.toNat)
    else if c.isLower then some (c.toNat - 'a'.toNat + 10)
    else if c.isUpper then some (c.toNat - 'A'.toNat + 10)
    else none
  value.filter (· < base)

/-- The value of digits with single underscores between them. -/
def digitsIn? (base : Nat) (t : Text) : Option Nat :=
  let pieces := (splitOn '_' t).mapM fun piece =>
    if piece.isEmpty then none else piece.mapM (digitIn? base)
  pieces.map fun ds => ds.flatten.foldl (fun n d => base * n + d) 0

/-- The number that a text of hexadecimal digits denotes. -/
def ofHexadecimal (t : Text) : Nat := t.foldl (fun n c => 16 * n + (digitIn? 16 c).getD 0) 0

/-- The letter that, after a zero, announces the base. -/
def announces (base : Nat) (c : Char) : Bool :=
  match base with
  | 16 => c = 'x' || c = 'X'
  | 8 => c = 'o' || c = 'O'
  | 2 => c = 'b' || c = 'B'
  | _ => false

def dropAnnouncement (base : Nat) : Text → Text
  | '0' :: c :: r =>
    if announces base c then
      match r with
      | '_' :: r' => r'
      | _ => r
    else '0' :: c :: r
  | t => t

/-- The base that a text announces itself. -/
def announcedBase? : Text → Option Nat
  | '0' :: c :: _ => [16, 8, 2].find? fun base => announces base c
  | _ => none

/-- A number in a base from 2 to 36. In base 0 the text announces the base, or else is decimal and
has no zero before other digits. -/
def natural? (base : Nat) (t : Text) : Option Nat :=
  if base = 0 then
    match announcedBase? t with
    | some own => digitsIn? own (dropAnnouncement own t)
    | none => (digitsIn? 10 t).filter fun n => t.head? ≠ some '0' || n = 0
  else if 2 ≤ base ∧ base ≤ 36 then digitsIn? base (dropAnnouncement base t)
  else none

/-- A number with or without a sign, and with or without blanks around it. -/
def integer? (base : Nat) (t : Text) : Option Int :=
  let plain := dropEndWhile isNumeralBlank ((t.map plainDigit).dropWhile isNumeralBlank)
  match plain with
  | '+' :: r => (natural? base r).map Int.ofNat
  | '-' :: r => (natural? base r).map fun n => - Int.ofNat n
  | r => (natural? base r).map Int.ofNat

theorem ofDecimal_decimal (n : Nat) : ofDecimal (decimal n) = n :=
  Nat.ofDigitChars_toDigits (by decide) (by decide)

theorem isDigit_of_mem_decimal {n : Nat} {c : Char} (h : c ∈ decimal n) : c.isDigit = true :=
  Nat.isDigit_of_mem_toDigits (b := 10) (by decide) (by decide) h

theorem decimal_ne_nil (n : Nat) : decimal n ≠ [] := Nat.toDigits_ne_nil

theorem isAsciiDigits_decimal (n : Nat) : isAsciiDigits (decimal n) = true := by
  simp only [isAsciiDigits, Bool.and_eq_true, List.all_eq_true]
  exact ⟨by simp [decimal_ne_nil], fun c hc => isDigit_of_mem_decimal hc⟩

example : integer? 10 " +1_2 " = some 12 ∧ integer? 10 "1__2" = none ∧
    integer? 16 "0x_1f" = some 31 ∧ integer? 0 "-0b11" = some (-3) ∧ integer? 0 "07" = none ∧
    integer? 10 "\x1c5" = none := by decide

end StorageAtlas.Text
