import StorageAtlas.Bytes.Basic

/-!
UTF-8 read byte after byte. Each character is a value, and each longest part
that cannot begin a character, or is broken off, is a gap; so the strict reading
and the one with replacement characters are two views of one scan.
-/

namespace StorageAtlas.Utf8

/-- A character that has begun: the bytes that it still needs, the bits so far, and the bounds of
the next byte. The bounds exclude long forms, surrogates and numbers beyond the last character. -/
structure Begun where
  needed : Nat
  bits : Nat
  low : Nat
  high : Nat
  deriving DecidableEq, Repr

inductive Lead where
  | whole (c : Char)
  | begun (state : Begun)
  | never
  deriving DecidableEq, Repr

def lead (b : UInt8) : Lead :=
  let n := b.toNat
  if n < 0x80 then .whole (Char.ofNat n)
  else if n < 0xC2 then .never
  else if n < 0xE0 then .begun ⟨1, n - 0xC0, 0x80, 0xBF⟩
  else if n = 0xE0 then .begun ⟨2, 0, 0xA0, 0xBF⟩
  else if n = 0xED then .begun ⟨2, 0xD, 0x80, 0x9F⟩
  else if n < 0xF0 then .begun ⟨2, n - 0xE0, 0x80, 0xBF⟩
  else if n = 0xF0 then .begun ⟨3, 0, 0x90, 0xBF⟩
  else if n < 0xF4 then .begun ⟨3, n - 0xF0, 0x80, 0xBF⟩
  else if n = 0xF4 then .begun ⟨3, 4, 0x80, 0x8F⟩
  else .never

/-- The characters and the gaps (`none`) of a byte string, from a character that may have begun. -/
def scanFrom : Option Begun → Bytes → List (Option Char)
  | none, [] => []
  | some _, [] => [none]
  | none, b :: r =>
    match lead b with
    | .whole c => some c :: scanFrom none r
    | .begun s => scanFrom (some s) r
    | .never => none :: scanFrom none r
  | some s, b :: r =>
    if s.low ≤ b.toNat ∧ b.toNat ≤ s.high then
      let bits := 64 * s.bits + (b.toNat - 0x80)
      if s.needed ≤ 1 then some (Char.ofNat bits) :: scanFrom none r
      else scanFrom (some ⟨s.needed - 1, bits, 0x80, 0xBF⟩) r
    else
      match lead b with
      | .whole c => none :: some c :: scanFrom none r
      | .begun s' => none :: scanFrom (some s') r
      | .never => none :: none :: scanFrom none r

def scan (bytes : Bytes) : List (Option Char) := scanFrom none bytes

/-- Reads only what has no gap. -/
def decode? (bytes : Bytes) : Option Text := (scan bytes).mapM id

/-- Shows each gap as the replacement character. -/
def decodeLossy (bytes : Bytes) : Text := (scan bytes).map fun c => c.getD '\ufffd'

/-- One character for each byte. -/
def decodeLatin1 (bytes : Bytes) : Text := bytes.map fun b => Char.ofNat b.toNat

def encode (t : Text) : Bytes := t.flatMap String.utf8EncodeChar

example : decode? (encode "a\x7fé漢😀") = some "a\x7fé漢😀" := by decide
example : decodeLossy [0xE2, 0x82, 0x41, 0xF0, 0x80, 0xED, 0xA0] = "\ufffdA\ufffd\ufffd\ufffd\ufffd" := by
  decide

end StorageAtlas.Utf8
