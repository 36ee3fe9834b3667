import StorageAtlas.ValueFault

/-!
Device numbers and the two kinds of special files that carry them.
-/

namespace StorageAtlas

inductive DeviceKind where
  | block
  | char
  deriving DecidableEq, Repr

namespace DeviceKind

def name : DeviceKind → Text
  | block => "block"
  | char => "char"

def ofName (t : Text) : Except ValueFault DeviceKind :=
  if t = "block" then .ok block
  else if t = "char" then .ok char
  else .error (.unknownName t "DeviceKind")

end DeviceKind

structure DeviceNumber where
  major : Int
  minor : Int
  deriving DecidableEq, Repr

namespace DeviceNumber

/-- The number of everything that is no special file. -/
def nothing : DeviceNumber := ⟨0, 0⟩

def text (n : DeviceNumber) : Text := Text.signed n.major ++ ":" ++ Text.signed n.minor

end DeviceNumber
end StorageAtlas
