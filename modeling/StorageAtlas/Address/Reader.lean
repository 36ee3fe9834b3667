import StorageAtlas.Address.Basic
import StorageAtlas.Address.NvmeName

/-!
Reading addresses: four fields with colons between them, kernel names of
namespaces, and the four field form of a namespace. Every refusal names its
cause.
-/

namespace StorageAtlas

inductive AddressError where
  | empty
  | badHexLun (field : Text)
  | badLun (field : Text)
  | lunOutOfRange (field : Text)
  | notAName (text : Text)
  | nvmeFieldCount (text : Text)
  | nvmeFieldNotNumeric (text : Text)
  | badHexNamespace (text : Text)
  | badNamespace (text : Text)
  | fieldCount (text : Text)
  | fieldNotNumeric (text : Text)
  deriving DecidableEq, Repr

def AddressError.message : AddressError → Text
  | empty => "Empty address"
  | badHexLun t => "Bad hex LUN: " ++ Text.quoted t
  | badLun t => "Bad LUN: " ++ Text.quoted t
  | lunOutOfRange t => "LUN out of range: " ++ Text.quoted t
  | notAName t => "Expected nvme<n> in " ++ Text.quoted t
  | nvmeFieldCount t => "Expected N:c:t:l, got " ++ Text.quoted t
  | nvmeFieldNotNumeric t => "Non numeric NVMe field in " ++ Text.quoted t
  | badHexNamespace t => "Bad hex namespace id in " ++ Text.quoted t
  | badNamespace t => "Bad namespace id in " ++ Text.quoted t
  | fieldCount t => "Expected h:c:t:l, got " ++ Text.quoted t
  | fieldNotNumeric t => "Non numeric field in " ++ Text.quoted t

namespace Address

/-- The text of a LUN or namespace id that is all ones. -/
def invalidText : Text := "-1"

def isHexDigit (c : Char) : Bool := (Text.digitIn? 16 c).isSome

def hasHexTag (field : Text) : Bool := Text.lower (field.take 2) = "0x"

/-- The bytes of a hexadecimal LUN from the left; the zero bytes at the end may be left out, and
underscores between levels are passed over. -/
def hexLunBytes? (digits : Text) : Option Bytes :=
  let digits := digits.filter (· ≠ '_')
  if digits.isEmpty || 16 < digits.length || !digits.all isHexDigit then none
  else
    let even := if digits.length % 2 = 1 then '0' :: digits else digits
    (Bytes.ofHex? even).map (Bytes.padEnd 8)

def readLun (field : Text) : Except AddressError Nat :=
  if hasHexTag field then
    match hexLunBytes? (field.drop 2) with
    | some bytes => .ok (Lun.ofWords (Lun.wordsOf bytes))
    | none => .error (.badHexLun field)
  else if field = invalidText then .ok Lun.last
  else if !Text.isAsciiDigits field then .error (.badLun field)
  else
    let value := Text.ofDecimal field
    if value ≤ Lun.last then .ok value else .error (.lunOutOfRange field)

/-- A namespace id: decimal, hexadecimal with at most eight digits, or invalid. The text is what
the message shows. -/
def readNamespace (field text : Text) : Except AddressError Nat :=
  if field = invalidText then .ok lastNamespace
  else if hasHexTag field then
    let digits := field.drop 2
    if field.length ≤ 10 && !digits.isEmpty && digits.all isHexDigit then
      .ok (Text.ofHexadecimal digits)
    else .error (.badHexNamespace text)
  else if Text.isAsciiDigits field && Text.ofDecimal field ≤ lastNamespace then
    .ok (Text.ofDecimal field)
  else .error (.badNamespace text)

/-- Takes letters with their numbers into account up to the first that is none of a kernel name's
suffixes: the controller path counts from one, and the part of a partition is passed over. -/
def applySuffixes : List (Char × Text) → Nat × Nat → Nat × Nat
  | [], found => found
  | (letter, digits) :: rest, (controller, id) =>
    if digits.isEmpty then (controller, id)
    else if letter = 'c' then applySuffixes rest (Text.ofDecimal digits + 1, id)
    else if letter = 'n' then applySuffixes rest (controller, Text.ofDecimal digits)
    else if letter = 'p' then applySuffixes rest (controller, id)
    else (controller, id)

def readNvmeName (name : Text) : Except AddressError Address :=
  match NvmeName.parts? (name.drop 4) with
  | none => .error (.notAName name)
  | some (minor, suffixes) =>
    let (controller, id) := applySuffixes suffixes (0, 0)
    .ok (nvme minor controller id)

def readNvmeFields (fields : List Text) (text : Text) : Except AddressError Address :=
  match fields with
  | [_, minor, controller, id] =>
    if Text.isAsciiDigits minor && Text.isAsciiDigits controller then
      (readNamespace id text).map fun n =>
        nvme (Text.ofDecimal minor) (Text.ofDecimal controller) n
    else .error (.nvmeFieldNotNumeric text)
  | _ => .error (.nvmeFieldCount text)

def readScsiFields (fields : List Text) (text : Text) : Except AddressError Address :=
  match fields with
  | [host, channel, target, lun] =>
    if Text.isAsciiDigits host && Text.isAsciiDigits channel && Text.isAsciiDigits target then
      (readLun lun).map fun n =>
        ofLun (Text.ofDecimal host) (Text.ofDecimal channel) (Text.ofDecimal target) n
    else .error (.fieldNotNumeric text)
  | _ => .error (.fieldCount text)

/-- Blanks around an address and then brackets around it do not count. -/
def strip (text : Text) : Text :=
  Text.dropEndWhile (· = ']') ((Text.trim text).dropWhile (· = '['))

def parse (text : Text) : Except AddressError Address :=
  let stripped := strip text
  match stripped with
  | [] => .error .empty
  | c :: _ =>
    if c = 'N' || c = 'n' then
      if Text.lower (stripped.take 4) = "nvme" then readNvmeName stripped
      else readNvmeFields (Text.splitOn ':' stripped) text
    else readScsiFields (Text.splitOn ':' stripped) text

end Address
end StorageAtlas
