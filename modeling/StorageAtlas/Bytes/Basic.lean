import StorageAtlas.Text.Numeral

/-!
Byte strings, their hexadecimal text, and numbers read from them with the
first byte most significant.
-/

namespace StorageAtlas

abbrev Bytes := List UInt8

namespace Bytes

def hexDigit (n : Nat) : Char := if n < 10 then Char.ofNat (n + 48) else Char.ofNat (n + 87)

/-- Two lower case digits for each byte. -/
def hex : Bytes → Text
  | [] => []
  | b :: r => hexDigit (b.toNat / 16) :: hexDigit (b.toNat % 16) :: hex r

/-- Reads pairs of hexadecimal digits of either case. -/
def ofHex? : Text → Option Bytes
  | [] => some []
  | [_] => none
  | c :: d :: r =>
    match Text.digitIn? 16 c, Text.digitIn? 16 d, ofHex? r with
    | some h, some l, some bytes => some (UInt8.ofNat (16 * h + l) :: bytes)
    | _, _, _ => none

def toNat (bytes : Bytes) : Nat := bytes.foldl (fun n b => 256 * n + b.toNat) 0

def zeros (n : Nat) : Bytes := List.replicate n 0

/-- Fills up with zero bytes at the end. -/
def padEnd (n : Nat) (bytes : Bytes) : Bytes := bytes ++ zeros (n - bytes.length)

/-- The first `limit` bytes, or all when `limit` is negative. -/
def upTo (limit : Int) (bytes : Bytes) : Bytes :=
  if limit < 0 then bytes else bytes.take limit.toNat

/-- A position that may count from the end, brought into the range of the list. -/
def position (length : Nat) (n : Int) : Nat :=
  if n < 0 then (n + length).toNat else min n.toNat length

/-- Puts `data` where the bytes from `start` up to `stop` stood; positions below zero count from
the end, and a `stop` before `start` replaces nothing. -/
def splice (bytes : Bytes) (start stop : Int) (data : Bytes) : Bytes :=
  let first := position bytes.length start
  let last := max first (position bytes.length stop)
  bytes.take first ++ data ++ bytes.drop last

theorem digitIn?_hexDigit {n : Nat} (h : n < 16) : Text.digitIn? 16 (hexDigit n) = some n := by
  revert n
  decide

theorem ofHex?_hex (bytes : Bytes) : ofHex? (hex bytes) = some bytes := by
  induction bytes with
  | nil => rfl
  | cons b r ih =>
    have hb := b.toNat_lt
    have hq : b.toNat / 16 < 16 := by omega
    have hr : b.toNat % 16 < 16 := by omega
    have hs : 16 * (b.toNat / 16) + b.toNat % 16 = b.toNat := by omega
    simp [hex, ofHex?, digitIn?_hexDigit hq, digitIn?_hexDigit hr, ih, hs]

theorem length_hex (bytes : Bytes) : (hex bytes).length = 2 * bytes.length := by
  induction bytes with
  | nil => rfl
  | cons b r ih => simp only [hex, List.length_cons, ih]; omega

end Bytes
end StorageAtlas
