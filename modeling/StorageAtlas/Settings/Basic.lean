import StorageAtlas.OrderedMap
import StorageAtlas.Settings.Value

/-!
The settings of a run, and how a mapping of names to values sets them.
-/

namespace StorageAtlas

structure Settings where
  sysfsRoot : Text := "/sys"
  deviceRoot : Text := "/dev"
  /-- The form of units in addresses: a number, or bytes in one of two forms. -/
  lunLevel : Int := 0
  noNvme : Bool := false
  holderDepth : Int := 8
  /-- Identities are shown from one on, and with their tags from four on. -/
  identityLevel : Int := 0
  sizeUnits : Text := "decimal"
  deriving DecidableEq, Repr

namespace Settings

def names : List Text :=
  ["sysfsroot", "devroot", "lunhex", "no_nvme", "holder_depth", "unit", "size_units"]

def isName (t : Text) : Bool := names.contains t

def textOr (m : OrderedMap Value) (name default : Text) : Text :=
  match m.get? name with
  | some v => v.toText
  | none => default

def intOr (m : OrderedMap Value) (name : Text) (default : Int) : Except ConversionError Int :=
  match m.get? name with
  | some v => v.toInt
  | none => .ok default

/-- Every setting takes the value of its name, or its default. The first value that cannot be
converted, in the order of the settings, is refused. -/
def ofMapping (m : OrderedMap Value) : Except ConversionError Settings := do
  let lunLevel ← intOr m "lunhex" 0
  let holderDepth ← intOr m "holder_depth" 8
  let identityLevel ← intOr m "unit" 0
  .ok
    { sysfsRoot := textOr m "sysfsroot" "/sys"
      deviceRoot := textOr m "devroot" "/dev"
      lunLevel := lunLevel
      noNvme := match m.get? "no_nvme" with
        | some v => v.toSwitch
        | none => false
      holderDepth := holderDepth
      identityLevel := identityLevel
      sizeUnits := textOr m "size_units" "decimal" }

end Settings
end StorageAtlas
