import StorageAtlas.Bytes.Utf8
import StorageAtlas.DeviceNode.Basic
import StorageAtlas.OrderedMap
import StorageAtlas.Tree.Lookup
import StorageAtlas.Tree.PathText

/-!
Single values read from a kernel attribute tree. What cannot be read counts as
absent, so a tree that changes or lacks a part ends no enumeration. Roots and the
names of a tree are parts of paths, in which no null character can stand; the text
of an attribute can hold one.
-/

namespace StorageAtlas

structure AttributeTree where
  tree : Tree
  root : Text

inductive Encoding where
  | utf8
  | ascii
  | latin1
  deriving DecidableEq, Repr

namespace AttributeTree

def mounted (tree : Tree) (root : Text) : AttributeTree := ⟨tree, PathText.trimRoot root⟩

/-- A path below the root. -/
def under (s : AttributeTree) (parts : List Text) : Text := PathText.joinAll s.root parts

def classPath (s : AttributeTree) (family : Text) (parts : List Text) : Text :=
  s.under ("class" :: family :: parts)

/-- The file of an attribute; without a name the directory is the file itself. -/
def filePath (directory name : Text) : Text :=
  if name.isEmpty then directory else PathText.join directory name

def readBytes (s : AttributeTree) (directory name : Text) (limit : Int := -1) : Option Bytes :=
  ((s.tree.readFile (filePath directory name)).map (Bytes.upTo limit)).toOption

/-- Text in an encoding, or one character for each byte where the bytes do not fit it. -/
def decodeAs (encoding : Encoding) (bytes : Bytes) : Text :=
  match encoding with
  | .utf8 => (Utf8.decode? bytes).getD (Utf8.decodeLatin1 bytes)
  | .ascii | .latin1 => Utf8.decodeLatin1 bytes

/-- The first line of an attribute. -/
def read (s : AttributeTree) (directory : Text) (name : Text := [])
    (encoding : Encoding := .utf8) : Option Text :=
  (s.readBytes directory name).map fun bytes => Text.upTo '\n' (decodeAs encoding bytes)

/-- The attributes of these names that are present, in this order. -/
def readMany (s : AttributeTree) (directory : Text) (names : List Text) : Attributes :=
  .ofList (names.filterMap fun name => (s.read directory name).map fun value => (name, value))

/-- The number that an attribute holds; there are no numbers in a negative base. -/
def readInt (s : AttributeTree) (directory name : Text) (base : Int := 10) : Option Int :=
  (s.read directory name).bind fun value =>
    if base < 0 then none else Text.integer? base.toNat (Text.trim value)

/-- The value of a line with the given key before its first equals sign. -/
def eventValue? (key : Text) (line : Text) : Option Text :=
  match Text.cut? '=' line with
  | some (k, v) => if Text.trim k = key then some (Text.trim v) else none
  | none => none

def readEvent (s : AttributeTree) (directory key : Text) (name : Text := "uevent") : Option Text :=
  (s.readBytes directory name).bind fun bytes =>
    (Text.lines (Utf8.decodeLossy bytes)).findSome? (eventValue? key)

def list (s : AttributeTree) (directory : Text) : Option (List Text) :=
  (s.tree.list directory).toOption

/-- The names in a directory, none when it is absent. -/
def entries (s : AttributeTree) (directory : Text) : List Text := (s.list directory).getD []

def isDir (s : AttributeTree) (path : Text) : Bool := s.tree.isDir path

def has (s : AttributeTree) (path : Text) : Bool := s.tree.exists? path

def isLink (s : AttributeTree) (path : Text) : Bool := s.tree.isLink path

def realPath (s : AttributeTree) (path : Text) : Option Text := (s.tree.realPath path).toOption

def readLink (s : AttributeTree) (path : Text) : Option Text := (s.tree.readLink path).toOption

/-- Two numbers with a colon between them. -/
def parseNumber (t : Text) : Option DeviceNumber := do
  let (major, minor) ← Text.cut? ':' (Text.trim t)
  some ⟨← Text.integer? 10 major, ← Text.integer? 10 minor⟩

/-- The number in the attribute `dev`, or, where that is absent or empty, in the event file. -/
def deviceNumber (s : AttributeTree) (directory : Text) : Option DeviceNumber :=
  match s.read directory "dev" with
  | some (c :: r) => parseNumber (c :: r)
  | _ =>
    match s.readEvent directory "MAJOR", s.readEvent directory "MINOR" with
    | some major, some minor => parseNumber (major ++ ":" ++ minor)
    | _, _ => none

end AttributeTree
end StorageAtlas
