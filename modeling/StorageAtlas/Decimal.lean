import StorageAtlas.Fraction
import StorageAtlas.Text.Numeral

/-!
Decimal fractions: digits and a power of ten. What counts of one is the nearest
number that 53 binary digits can hold, and its text has the fewest digits from
which that number can be read back. The text is positional for middling sizes
and has an exponent beyond. From the 1024th power of two on, all count as
infinite.
-/

namespace StorageAtlas

structure Decimal where
  negative : Bool
  digits : Nat
  exponent : Int
  deriving DecidableEq, Repr

namespace Decimal

/-- The number that counts, without its sign. -/
def magnitude (d : Decimal) : Fraction := (Fraction.scaled d.digits 10 d.exponent).rounded

def withSign (d : Decimal) (n : Nat) : Int := if d.negative then -(n : Int) else n

def value (d : Decimal) : Rat := mkRat (d.withSign d.magnitude.num) d.magnitude.den

def isZero (d : Decimal) : Bool := d.magnitude.num = 0

def isInfinite (d : Decimal) : Bool := 1024 ≤ Nat.log2 d.magnitude.floor

/-- Without the digits after the point. -/
def truncate (d : Decimal) : Int := d.withSign d.magnitude.floor

/-- Do the digits of both stand for the same number? -/
def agrees (d e : Decimal) : Bool := d.magnitude.equals e.magnitude

/-- The multiple of a power of ten that stands for the same number, the nearest one if there are
two. -/
def onGrid? (d : Decimal) (power : Int) : Option Decimal :=
  let units := d.magnitude.inUnits 10 power
  let below : Decimal := ⟨d.negative, units.floor, power⟩
  let above : Decimal := ⟨d.negative, units.floor + 1, power⟩
  if agrees below d && agrees above d then some ⟨d.negative, units.nearest, power⟩
  else if agrees below d then some below
  else if agrees above d then some above
  else none

/-- The digits are the fewest that stand for the same number: 17 are always enough. -/
def shortest (d : Decimal) : Decimal :=
  let top := ((Text.decimal d.digits).length : Int) + d.exponent
  ((List.range 18).findSome? fun (n : Nat) => d.onGrid? (top - n)).getD d

/-- Digits and the position of the point, counted from the first digit, as positional text. -/
def positional (digits : Text) (point : Int) : Text :=
  if point ≤ 0 then "0." ++ List.replicate point.natAbs '0' ++ digits
  else if digits.length ≤ point.toNat then
    digits ++ List.replicate (point.toNat - digits.length) '0' ++ ".0"
  else digits.take point.toNat ++ "." ++ digits.drop point.toNat

def scientific (digits : Text) (point : Int) : Text :=
  let power := point - 1
  let mantissa := match digits with
    | [c] => [c]
    | c :: rest => c :: '.' :: rest
    | [] => []
  mantissa ++ (if power < 0 then ['e', '-'] else ['e', '+']) ++
    Text.padZeros 2 (Text.decimal power.natAbs)

/-- Positional from 0.0001 on and below 10^16. -/
def text (d : Decimal) : Text :=
  let sign : Text := if d.negative then "-" else ""
  if d.isInfinite then sign ++ "inf"
  else if d.isZero then sign ++ "0.0"
  else
    let short := d.shortest
    let all := Text.decimal short.digits
    let digits := Text.dropEndWhile (· = '0') all
    let point := (all.length : Int) + short.exponent
    sign ++ if -4 < point ∧ point ≤ 16 then positional digits point else scientific digits point

example : text ⟨true, 150, -2⟩ = "-1.5" ∧ text ⟨false, 1, 16⟩ = "1e+16" ∧
    text ⟨false, 12, -6⟩ = "1.2e-05" ∧ truncate ⟨true, 47, -1⟩ = -4 := by decide

example : text ⟨false, 10000000000000000001, -20⟩ = "0.1" ∧
    text ⟨false, 9999999999999999999, -3⟩ = "1e+16" := by decide

example : isInfinite ⟨false, 17976931348623158, 292⟩ = false ∧
    isInfinite ⟨false, 17976931348623159, 292⟩ = true ∧ text ⟨true, 1, 400⟩ = "-inf" := by
  decide +kernel

end Decimal
end StorageAtlas
