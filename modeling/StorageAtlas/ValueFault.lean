import StorageAtlas.Text.Quoted

/-!
Values that an operation cannot take, by cause, and the wording of each.
-/

namespace StorageAtlas

inductive ValueFault where
  /-- A LUN that is not eight bytes long. -/
  | lunLength (bytes : Nat)
  /-- A LUN number outside 64 bits. -/
  | lunRange (value : Int)
  /-- A choice, as shown, that its family does not have. -/
  | notAChoice (shown family : Text)
  /-- A text that looks like a number and is none. -/
  | notANumeral
  /-- A file without a name. -/
  | noFileName
  /-- An infinite number where a whole one is asked for. -/
  | infiniteNumber
  /-- A file whose bytes are no text. -/
  | notText
  /-- A path with a null character in it. -/
  | nullInPath
  /-- A cell behind the last column of a table. -/
  | noSuchColumn
  /-- What the reader of a notation itself fails with, and why. -/
  | ofReader (kind reason : Text)
  deriving DecidableEq, Repr

namespace ValueFault

def message : ValueFault → Text
  | lunLength n => "LUN must be 8 bytes, got " ++ Text.decimal n
  | lunRange v => "LUN " ++ Text.signed v ++ " does not fit in 64 bits"
  | notAChoice shown family => shown ++ " is not a valid " ++ family
  | infiniteNumber => "cannot convert float infinity to integer"
  | nullInPath => "embedded null byte"
  | noSuchColumn => "list index out of range"
  | ofReader _ reason => reason
  | notANumeral | noFileName | notText => []

/-- The fault of a name that the family does not know. -/
def unknownName (name family : Text) : ValueFault := notAChoice (Text.quoted name) family

end ValueFault
end StorageAtlas
