import StorageAtlas.Address.NvmeName
import StorageAtlas.Identification.Identity

/-!
Which names in a directory of the attribute tree stand for units, controllers,
namespaces and hosts, and which entries of a device lead to its nodes.
-/

namespace StorageAtlas.Selection

/-- Parts of the names of older aliases for the same device. -/
def aliasTags : List Text := ["mt", "ot", "gen"]

/-- Four part names stand for units; hosts, targets and aliases do not. -/
def isUnit (name : Text) : Bool :=
  !(aliasTags.any fun tag => Text.holds tag name) && !Text.startsWith name "host" &&
    !Text.startsWith name "target" && name.contains ':'

def units (names : List Text) : List Text := names.filter isUnit

/-- Controllers with their numbers. -/
def controllers (names : List Text) : List (Text × Nat) :=
  names.filterMap fun name => (NvmeName.controller? name).map fun minor => (name, minor)

/-- Namespaces with the number in the name and the namespace id. -/
def namespaces (names : List Text) : List (Text × Nat × Nat) :=
  names.filterMap fun name => (NvmeName.unit? name).map fun numbers => (name, numbers)

/-- The number in the name of a host. -/
def hostNumber? (name : Text) : Option Nat :=
  if Text.startsWith name "host" && Text.isAsciiDigits (name.drop 4) then
    some (Text.ofDecimal (name.drop 4))
  else none

def isBlock (name : Text) : Bool := Text.startsWith name "block"

def isDisk (name : Text) : Bool := Text.startsWith name "scsi_disk"

/-- Does an entry of a device lead to the node of its driver? -/
def isPrimaryNode (name : Text) : Bool :=
  Text.startsWith name "scsi_changer" || isBlock name || Text.startsWith name "onstream_tape:os" ||
    name = "tape" ||
    (Text.startsWith name "scsi_tape:st" && (name.getLast?.map Text.isDigitSign).getD false)

def isGenericNode (name : Text) : Bool := name = "generic" || Text.startsWith name "scsi_generic"

/-- The starts of a namespace's identifier, with the kinds that they announce. -/
def wwidTags : List (Text × IdentityKind) :=
  [("eui.", .eui), ("naa.", .naa), ("uuid.", .uuid), ("nvme.", .nvme)]

/-- The identity that the identifier of a namespace gives. -/
def namespaceIdentity (wwid : Option Text) (wantTag : Bool) : Option Identity :=
  match wwid with
  | none | some [] => none
  | some (c :: r) =>
    let id := Text.trim (c :: r)
    match wwidTags.find? fun (tag, _) => Text.startsWith id tag with
    | some (tag, kind) =>
      some ((Identity.mk kind (id.drop tag.length) (some tag)).withTag wantTag)
    | none => some { kind := .nvme, value := id }

end StorageAtlas.Selection
