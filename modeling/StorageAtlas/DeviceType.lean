import StorageAtlas.Text.Numeral

/-!
The names of the peripheral device types, by their five bit code.
-/

namespace StorageAtlas.DeviceType

def shortNames : List Text :=
  ["disk", "tape", "printer", "process", "worm", "cd/dvd", "scanner", "optical", "mediumx", "comms",
    "(0xa)", "(0xb)", "storage", "enclosu", "sim dsk", "opti rd", "bridge", "osd", "adi", "sec man",
    "zbc", "(0x15)", "(0x16)", "(0x17)", "(0x18)", "(0x19)", "(0x1a)", "(0x1b)", "(0x1c)", "(0x1d)",
    "wlun", "no dev"]

def longNames : List Text :=
  ["Direct-Access", "Sequential-Access", "Printer", "Processor", "Write-once", "CD-ROM", "Scanner",
    "Optical memory", "Medium Changer", "Communications", "Unknown (0xa)", "Unknown (0xb)",
    "Storage array", "Enclosure", "Simplified direct-access", "Optical card read/writer",
    "Bridge controller", "Object based storage", "Automation Drive interface", "Security manager",
    "Zoned Block", "Reserved (0x15)", "Reserved (0x16)", "Reserved (0x17)", "Reserved (0x18)",
    "Reserved (0x19)", "Reserved (0x1a)", "Reserved (0x1b)", "Reserved (0x1c)", "Reserved (0x1d)",
    "Well known LU", "No device"]

/-- The code that an attribute gives. -/
def code? (value : Option Text) : Option Int := value.bind (Text.integer? 10)

/-- The name of a code, or a dash where there is none. -/
def nameIn (names : List Text) (code : Option Int) : Text :=
  match code with
  | some n => if n < 0 then "-" else names.getD n.toNat "-"
  | none => "-"

def shortName (code : Option Int) : Text := nameIn shortNames code

def longName (code : Option Int) : Text := nameIn longNames code

example : shortNames.length = 32 ∧ longNames.length = 32 := by decide

end StorageAtlas.DeviceType
