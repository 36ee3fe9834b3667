import StorageAtlas.Bytes.Basic
import StorageAtlas.ValueFault

/-!
The eight byte hierarchical LUN: the integer that the kernel makes of it, the
reversal of its four words, and its levels.
-/

namespace StorageAtlas.Lun

/-- The largest LUN, which stands for an invalidated one. -/
def last : Nat := 0xFFFFFFFFFFFFFFFF

def wordsOf : Bytes → List Nat
  | a :: b :: r => (256 * a.toNat + b.toNat) :: wordsOf r
  | _ => []

/-- Each word counts 2^16 times the one before it. -/
def ofWords : List Nat → Nat
  | [] => 0
  | w :: r => w + 65536 * ofWords r

/-- The lowest words of a number, lowest first. -/
def lowWords : Nat → Nat → List Nat
  | 0, _ => []
  | count + 1, n => n % 65536 :: lowWords count (n / 65536)

def wordBytes (w : Nat) : Bytes := [UInt8.ofNat (w / 256), UInt8.ofNat (w % 256)]

/-- The integer of eight bytes: the first level stands in its low order bits. -/
def toNat (bytes : Bytes) : Except ValueFault Nat :=
  if bytes.length = 8 then .ok (ofWords (wordsOf bytes)) else .error (.lunLength bytes.length)

/-- The eight bytes of an integer below 2^64. -/
def ofNat (n : Nat) : Bytes := (lowWords 4 n).flatMap wordBytes

def ofInt (v : Int) : Except ValueFault Bytes :=
  if 0 ≤ v ∧ v ≤ last then .ok (ofNat v.toNat) else .error (.lunRange v)

def flipWords : Nat → Int → Nat → Nat
  | 0, _, done => done
  | count + 1, v, done => flipWords count (v / 65536) (65536 * done + (v % 65536).toNat)

/-- The lowest four words in reverse order; a negative number has sign bits without end. -/
def flip (v : Int) : Nat := flipWords 4 v 0

/-- A part of a hierarchical LUN. -/
structure Level where
  offset : Int
  data : Bytes
  /-- Is there a level before it? -/
  continues : Bool := false
  deriving DecidableEq, Repr

/-- The size of an extended addressing level, by its first byte. -/
def extendedSize (b : Nat) : Nat :=
  let field := b / 16 % 4
  let method := b % 16
  if field = 0 ∧ method = 1 then 2
  else if field = 3 ∧ method = 15 then 2
  else if field < 2 then 4
  else if field = 2 then 6
  else 8

def levelSize (b : Nat) : Nat := if b / 64 = 3 then extendedSize b else 2

/-- Peripheral addressing with a bus number leads on to a further level. -/
def leadsOn (b : Nat) : Bool := b / 64 = 0 && b % 64 ≠ 0

/-- The levels of the bytes that begin at an offset. -/
def levelsFrom (offset : Nat) : Bytes → List Level
  | a :: b :: r =>
    let level : Level :=
      ⟨offset, (a :: b :: r).take (levelSize a.toNat), decide (0 < offset)⟩
    if leadsOn a.toNat then level :: levelsFrom (offset + 2) r else [level]
  | _ => []

def levels (bytes : Bytes) : Except ValueFault (List Level) :=
  if bytes.length ≠ 8 then .error (.lunLength bytes.length)
  else if bytes.take 2 = [0xFF, 0xFF] then .ok [⟨0, bytes.take 2, false⟩]
  else .ok (levelsFrom 0 bytes)

/-- Puts each level at its offset into eight zero bytes. -/
def ofLevels (levels : List Level) : Bytes :=
  levels.foldl (fun out level =>
    out.splice level.offset (level.offset + level.data.length) level.data) (Bytes.zeros 8)

theorem length_lowWords (count n : Nat) : (lowWords count n).length = count := by
  induction count generalizing n with
  | zero => rfl
  | succ k ih => simp [lowWords, ih]

theorem length_ofNat (n : Nat) : (ofNat n).length = 8 := by
  simp [ofNat, lowWords, wordBytes]

end StorageAtlas.Lun
