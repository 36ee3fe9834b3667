import StorageAtlas.Text.Numeral

/-!
Sizes with three significant figures and a unit, cut off and not rounded.
-/

namespace StorageAtlas

structure SizeScale where
  divisor : Nat
  units : List Text

namespace SizeScale

def decimal : SizeScale := ⟨1000, ["B", "kB", "MB", "GB", "TB", "PB", "EB", "ZB", "YB"]⟩

def binary : SizeScale := ⟨1024, ["B", "KiB", "MiB", "GiB", "TiB", "PiB", "EiB", "ZiB", "YiB"]⟩

/-- Divides until the number is below the divisor, and so often at most; gives the number, the
last remainder and how often it was divided. -/
def reduce (divisor : Nat) : Nat → Nat → Nat → Nat → Nat × Nat × Nat
  | 0, n, remainder, times => (n, remainder, times)
  | left + 1, n, remainder, times =>
    if n < divisor then (n, remainder, times)
    else reduce divisor left (n / divisor) (n % divisor) (times + 1)

/-- The decimals that leave three significant figures. -/
def decimals (n : Nat) : Nat := if n < 10 then 2 else if n < 100 then 1 else 0

/-- The decimals of a remainder with the point before them, none at all without the point. -/
def fraction (divisor remainder digits : Nat) : Text :=
  if digits = 0 then []
  else '.' :: (Text.padZeros 3 (Text.decimal (remainder * 1000 / divisor))).take digits

def text (scale : SizeScale) (size : Int) : Text :=
  if size < scale.divisor then Text.signed size ++ scale.units.headD []
  else
    let (n, remainder, times) := reduce scale.divisor (scale.units.length - 1) size.toNat 0 0
    Text.decimal n ++ fraction scale.divisor remainder (decimals n) ++ scale.units.getD times []

end SizeScale
end StorageAtlas
