/-!
Fractions of natural numbers and how they are rounded: to the nearest whole
number, and to the nearest number that 53 binary digits can hold. Of two numbers
that are equally near, the even one is taken.
-/

namespace StorageAtlas

structure Fraction where
  num : Nat
  den : Nat
  deriving DecidableEq, Repr

namespace Fraction

/-- A whole number times a power of a base. -/
def scaled (n base : Nat) (power : Int) : Fraction :=
  ⟨n * Nat.pow base power.toNat, Nat.pow base (-power).toNat⟩

/-- A fraction in units of a power of a base. -/
def inUnits (x : Fraction) (base : Nat) (power : Int) : Fraction :=
  ⟨x.num * Nat.pow base (-power).toNat, x.den * Nat.pow base power.toNat⟩

/-- Do both denote the same number? -/
def equals (x y : Fraction) : Bool := x.num * y.den = y.num * x.den

def floor (x : Fraction) : Nat := x.num / x.den

/-- The whole number that is nearest. -/
def nearest (x : Fraction) : Nat :=
  let rest := x.num % x.den
  if x.den < 2 * rest || (x.den = 2 * rest && x.floor % 2 = 1) then x.floor + 1 else x.floor

/-- The power of two for which the last of 53 binary digits stands: at least -1074. -/
def lastPower (x : Fraction) : Int :=
  let least : Int := (Nat.log2 x.num : Int) - (Nat.log2 x.den : Int) - 53
  let power := if (x.inUnits 2 least).floor < Nat.pow 2 53 then least else least + 1
  if power < -1074 then -1074 else power

/-- The nearest number that 53 binary digits can hold. -/
def rounded (x : Fraction) : Fraction :=
  scaled (x.inUnits 2 x.lastPower).nearest 2 x.lastPower

example : nearest ⟨5, 2⟩ = 2 ∧ nearest ⟨7, 2⟩ = 4 ∧ nearest ⟨8, 3⟩ = 3 := by decide

example : (rounded ⟨9007199254740993, 1⟩).equals ⟨9007199254740992, 1⟩ ∧
    (rounded ⟨9007199254740995, 1⟩).equals ⟨9007199254740996, 1⟩ ∧
    (rounded ⟨3, 4⟩).equals ⟨3, 4⟩ := by decide

end Fraction
end StorageAtlas
