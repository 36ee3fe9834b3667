import StorageAtlas.Bytes.Utf8
import StorageAtlas.Log
import StorageAtlas.Settings.Basic
import StorageAtlas.Tree.Lookup
import StorageAtlas.Tree.PathText

/-!
Settings from a configuration file and an environment variable. A file gives
all of its settings or none, and what is wrong with it is said in the log. Three
things are not: bytes that are no text, a text at which the reader of the notation
itself fails, and an infinite number in place of a whole one.
-/

namespace StorageAtlas

/-- The content of a configuration file after its notation has been read. -/
inductive Document where
  | notText
  /-- A text that is not in the notation. -/
  | unparsable
  /-- A text in the notation of which the reader cannot make a value, such as a 99th month. -/
  | failed (kind reason : Text)
  | value (v : Value)

/-- What a program finds around it. -/
structure Surroundings where
  tree : Tree
  home : Text
  /-- The home directories of other users, by their names. -/
  homes : Text → Option Text := fun _ => none
  /-- The variable that chooses the form of units. -/
  lunVariable : Option Text
  /-- The document in a file, by the file's place. -/
  document : Path → Option Document

structure Loaded where
  settings : Settings := {}
  /-- Has the file set anything? -/
  hasValues : Bool := false
  log : List LogLine := []

namespace Configuration

def defaultFile : Text := "~/.config/scsi_topology.conf"

/-- A tilde at the start stands for a home directory: for that of the user whose name follows, or the
own one where no name does. A user who is not known has none. -/
def expandHome (around : Surroundings) (path : Text) : Text :=
  match path with
  | '~' :: rest =>
    let user := Text.upTo '/' rest
    match if user.isEmpty then some around.home else around.homes user with
    | some home =>
      match Text.dropEndWhile (· = '/') home ++ rest.drop user.length with
      | [] => ['/']
      | expanded => expanded
    | none => path
  | _ => path

def isSizeUnits (t : Text) : Bool := t = "decimal" || t = "binary"

/-- Unknown units for sizes become decimal ones. -/
def checkUnits (l : Loaded) : Loaded :=
  if isSizeUnits l.settings.sizeUnits then l
  else
    { l with
      settings := { l.settings with sizeUnits := "decimal" }
      log := l.log ++
        [.warning ("Unknown size_units \x27" ++ l.settings.sizeUnits ++ "\x27, using decimal")] }

def ofFields (fields : OrderedMap Value) : Except ValueFault Loaded :=
  let unknown := fields.names.filter fun name => !Settings.isName name
  let log : List LogLine := unknown.map fun name =>
    .warning ("Ignoring unknown configuration key \x27" ++ name ++ "\x27")
  let known := fields.filterNames Settings.isName
  match Settings.ofMapping known with
  | .ok settings => .ok (checkUnits { settings, hasValues := !known.isEmpty, log })
  | .error .infinite => .error .infiniteNumber
  | .error _ =>
    .ok { log := log ++ [.warning "Invalid value in configuration file, using defaults"] }

def ofDocument (path : Text) : Document → Except ValueFault Loaded
  | .notText => .error .notText
  | .unparsable => .ok { log := [.error "Error parsing YAML in configuration file"] }
  | .failed kind reason => .error (.ofReader kind reason)
  | .value v =>
    if !v.toSwitch then
      .ok { log := [.warning ("Configuration file " ++ path ++ " is empty or invalid")] }
    else match v with
      | .mapping fields => ofFields (.ofList fields)
      | _ =>
        .ok { log := [.warning ("Configuration file " ++ path ++ " is not a mapping, ignoring it")] }

/-- What stands in the file at a path; a file without a document is empty. -/
def readDocument (around : Surroundings) (path : Text) : Except LookupError Document := do
  let bytes ← around.tree.readFile path
  let place ← around.tree.find path
  .ok (if (Utf8.decode? bytes).isSome then (around.document place).getD (.value .null)
    else .notText)

def ofFile (around : Surroundings) (path : Text) : Except ValueFault Loaded :=
  if !around.tree.exists? path then .ok {}
  else match readDocument around path with
    | .ok document => ofDocument path document
    | .error e => .ok { log := [.error ("Error reading configuration file: " ++ e.message path)] }

def variableName : Text := "SCSI_TOPOLOGY_LUNHEX"

/-- The variable counts if it is one or two; an empty one is as good as none. -/
def applyVariable (setting : Option Text) (l : Loaded) : Loaded :=
  match setting with
  | none | some [] => l
  | some value =>
    match Text.integer? 10 value with
    | none =>
      { l with log := l.log ++ [.warning
          ("Ignoring " ++ variableName ++ "=" ++ Text.quoted value ++ ", expected 1 or 2")] }
    | some n =>
      if n = 1 ∨ n = 2 then { l with settings := { l.settings with lunLevel := n } } else l

def load (around : Surroundings) (file : Text) : Except ValueFault Loaded :=
  (ofFile around (expandHome around file)).map (applyVariable around.lunVariable)

end Configuration
end StorageAtlas
