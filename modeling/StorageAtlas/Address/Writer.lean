import StorageAtlas.Address.Basic
import StorageAtlas.Bytes.Basic

/-!
Writing addresses, with the unit in one of three forms.
-/

namespace StorageAtlas

inductive LunFormat where
  | decimal
  /-- The bytes of the levels, with an underscore between levels. -/
  | hex
  /-- All eight bytes. -/
  | fullHex
  deriving DecidableEq, Repr

/-- Numbers above two choose the last form, negative numbers none. -/
def LunFormat.ofLevel (level : Int) : Except ValueFault LunFormat :=
  if level < 0 then .error (.notAChoice (Text.signed level) "LunFormat")
  else if level = 0 then .ok .decimal
  else if level = 1 then .ok .hex
  else .ok .fullHex

namespace Address

def levelText (level : Lun.Level) : Text :=
  if level.continues then '_' :: Bytes.hex level.data else Bytes.hex level.data

def levelsText (levels : List Lun.Level) : Text := "0x" ++ levels.flatMap levelText

def namespaceText (format : LunFormat) (lun : Int) : Text :=
  let id := (lun % 0x100000000).toNat
  match format with
  | .decimal => if id = lastNamespace then "-1" else Text.decimal id
  | .hex => "0x" ++ Text.padZeros 4 (Text.hexadecimal id)
  | .fullHex => "0x" ++ Text.padZeros 8 (Text.hexadecimal id)

def lunText (format : LunFormat) (a : Address) : Except ValueFault Text :=
  match a.family, format with
  | .nvme, _ => .ok (namespaceText format a.lun)
  | .scsi, .decimal =>
    .ok (if a.lun = (Lun.last : Int) then "-1" else Text.signed a.lun)
  | .scsi, .hex => (Lun.levels a.lunBytes).map levelsText
  | .scsi, .fullHex => .ok ("0x" ++ Text.padZeros 16 (Text.hexadecimal (Lun.flip a.lun)))

/-- The text of the host alone; a namespace shows its controller device with it. -/
def hostText (a : Address) : Text :=
  if a.isNvme then "N:" ++ Text.signed a.channel else Text.signed a.host

def format (f : LunFormat) (a : Address) : Except ValueFault Text :=
  (lunText f a).map fun lun =>
    (if a.isNvme then ("N" : Text) else Text.signed a.host) ++ ":" ++ Text.signed a.channel ++ ":" ++
      Text.signed a.target ++ ":" ++ lun

end Address
end StorageAtlas
