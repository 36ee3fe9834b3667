import StorageAtlas.Settings.Configuration
import StorageAtlas.Text.Digit

/-!
The arguments of the command line. Short options may be joined, long ones
abbreviated, and a value stands in the same argument or in the next. What is no
option belongs to the address filter, whose parts stand together.
-/

namespace StorageAtlas

inductive OptionName where
  | help
  | hosts
  | controllers
  | transport
  | generic
  | kernelName
  | number
  | size
  | wwn
  | scsiId
  | identity
  | lunHex
  | noNvme
  | long
  | brief
  | json
  | verbose
  | quiet
  | sysfsRoot
  | deviceRoot
  | config
  deriving DecidableEq, Repr

namespace OptionName

def spelled : List (String × OptionName) :=
  [("-h", help), ("--help", help), ("-H", hosts), ("--hosts", hosts), ("-C", controllers),
    ("--controllers", controllers), ("-t", transport), ("--transport", transport), ("-g", generic),
    ("--generic", generic), ("-k", kernelName), ("--kname", kernelName), ("-d", number),
    ("--device", number), ("-s", size), ("--size", size), ("-w", wwn), ("--wwn", wwn),
    ("-i", scsiId), ("--scsi-id", scsiId), ("-u", identity), ("--unit", identity), ("-x", lunHex),
    ("--lunhex", lunHex), ("-N", noNvme), ("--no-nvme", noNvme), ("-l", long), ("--long", long),
    ("-b", brief), ("--brief", brief), ("-j", json), ("--json", json), ("-v", verbose),
    ("--verbose", verbose), ("-q", quiet), ("--quiet", quiet), ("-y", sysfsRoot),
    ("--sysfsroot", sysfsRoot), ("--devroot", deviceRoot), ("-c", config), ("--config", config)]

/-- Every spelling of every option. -/
def spellings : List (Text × OptionName) := spelled.map fun (s, o) => (s.toList, o)

def ofText? (t : Text) : Option OptionName := spellings.lookup t

def takesValue : OptionName → Bool
  | sysfsRoot | deviceRoot | config => true
  | _ => false

end OptionName

/-- Where an option has its value from. -/
inductive OptionValue where
  /-- From the argument behind it. -/
  | behind
  /-- From its own argument; two dashes there are no value. -/
  | attached (t : Option Text)

namespace OptionValue

def ofAttached (t : Text) : OptionValue := attached (if t = ['-', '-'] then none else some t)

end OptionValue

abbrev ValuedOption := OptionName × OptionValue

/-- What an argument is: part of the filter, the end of the options, or options of which only the
last can take a value. -/
inductive Argument where
  | operand (t : Text)
  | separator
  | options (flags : List OptionName) (valued : Option ValuedOption)

namespace Argument

/-- Letters of options: all are flags up to the first with a value, whose value is what is left. -/
def joined : Text → Option Argument
  | [] => some (options [] none)
  | c :: rest =>
    match OptionName.ofText? ['-', c] with
    | none => none
    | some o =>
      if o.takesValue then
        some (options [] (some (o, if rest.isEmpty then .behind else .ofAttached rest)))
      else match joined rest with
        | some (options flags valued) => some (options (o :: flags) valued)
        | _ => none

def isShortSpelling (t : Text) : Bool := !Text.startsWith t "--"

/-- An option with what is attached to its spelling. To a flag only the letters of further options
can be attached, and only if it is a letter itself. -/
def ofOption (isShort : Bool) (o : OptionName) (attached : Option Text) : Option Argument :=
  match attached with
  | none => some (if o.takesValue then options [] (some (o, .behind)) else options [o] none)
  | some t =>
    if o.takesValue then some (options [] (some (o, .ofAttached t)))
    else if isShort && !t.isEmpty then
      match joined t with
      | some (options flags valued) => some (options (o :: flags) valued)
      | _ => none
    else none

/-- The options that an abbreviation or a short option with something attached can mean. -/
def candidates (t : Text) : List (OptionName × Option Text) :=
  if isShortSpelling t then
    match OptionName.ofText? (t.take 2) with
    | some o => [(o, some (t.drop 2))]
    | none => []
  else
    let (start, attached) := match Text.cut? '=' t with
      | some (before, after) => (before, some after)
      | none => (t, none)
    (OptionName.spellings.filter fun (spelling, _) => Text.startsWith spelling start).map
      fun (_, o) => (o, attached)

def isNumeral (t : Text) : Bool := !t.isEmpty && t.all fun c => (Text.decimalValue? c).isSome

/-- A negative number, with or without a point; a line may end behind it. -/
def isNegativeNumber (t : Text) : Bool :=
  let body := t.drop 1
  let body := if body.getLast? = some '\n' then body.dropLast else body
  match Text.cut? '.' body with
  | none => isNumeral body
  | some (before, after) => (before.isEmpty || isNumeral before) && isNumeral after

/-- What an argument with a dash at its start means when it is no exact spelling. -/
def ofUnknown (t : Text) : Option Argument :=
  match candidates t with
  | [(o, attached)] => ofOption (isShortSpelling t) o attached
  | _ :: _ :: _ => none
  | [] => if isNegativeNumber t || t.contains ' ' then some (operand t) else none

/-- What one argument before the end of the options is; `none` if it is to be refused. -/
def classify (t : Text) : Option Argument :=
  if t.head? ≠ some '-' ∨ t = ['-'] then some (operand t)
  else match OptionName.ofText? t with
    | some o => ofOption (isShortSpelling t) o none
    | none =>
      match Text.cut? '=' t with
      | none => ofUnknown t
      | some (before, after) =>
        match OptionName.ofText? before with
        | some o => ofOption (isShortSpelling before) o (some after)
        | none => ofUnknown t

/-- Two dashes end the options; everything behind them is part of the filter. -/
def classifyAll : List Text → Option (List Argument)
  | [] => some []
  | t :: rest =>
    if t = ['-', '-'] then some (separator :: rest.map operand)
    else do
      let a ← classify t
      let more ← classifyAll rest
      some (a :: more)

end Argument

/-- What the arguments ask for. -/
structure Invocation where
  help : Bool := false
  hosts : Bool := false
  controllers : Bool := false
  transport : Bool := false
  generic : Bool := false
  kernelName : Bool := false
  number : Bool := false
  size : Nat := 0
  wwn : Nat := 0
  scsiId : Nat := 0
  identity : Nat := 0
  lunHex : Nat := 0
  noNvme : Bool := false
  long : Bool := false
  brief : Bool := false
  json : Bool := false
  verbose : Bool := false
  quiet : Bool := false
  sysfsRoot : Option Text := none
  deviceRoot : Option Text := none
  /-- The file with the settings; nothing can be read from `none`. -/
  config : Option Text := some Configuration.defaultFile
  filter : List Text := []
  deriving DecidableEq, Repr

namespace Invocation

def setFlag (inv : Invocation) : OptionName → Invocation
  | .help => { inv with help := true }
  | .hosts => { inv with hosts := true }
  | .controllers => { inv with controllers := true }
  | .transport => { inv with transport := true }
  | .generic => { inv with generic := true }
  | .kernelName => { inv with kernelName := true }
  | .number => { inv with number := true }
  | .size => { inv with size := inv.size + 1 }
  | .wwn => { inv with wwn := inv.wwn + 1 }
  | .scsiId => { inv with scsiId := inv.scsiId + 1 }
  | .identity => { inv with identity := inv.identity + 1 }
  | .lunHex => { inv with lunHex := inv.lunHex + 1 }
  | .noNvme => { inv with noNvme := true }
  | .long => { inv with long := true }
  | .brief => { inv with brief := true }
  | .json => { inv with json := true }
  | .verbose => { inv with verbose := true }
  | .quiet => { inv with quiet := true }
  | .sysfsRoot | .deviceRoot | .config => inv

def setValue (inv : Invocation) (o : OptionName) (value : Option Text) : Invocation :=
  match o with
  | .sysfsRoot => { inv with sysfsRoot := value }
  | .deviceRoot => { inv with deviceRoot := value }
  | .config => { inv with config := value }
  | _ => inv

def setFlags (inv : Invocation) (flags : List OptionName) : Invocation := flags.foldl setFlag inv

/-- Where the parts of the filter stand: they come one after the other. -/
inductive Run where
  | before
  | inside
  | after
  deriving DecidableEq, Repr

def Run.close : Run → Run
  | before => before
  | _ => after

/-- Takes the arguments one after the other; `none` if they are to be refused. -/
def take : List Argument → Run → Invocation → Option Invocation
  | [], _, inv => some inv
  | .operand t :: rest, run, inv =>
    if run = .after then none else take rest .inside { inv with filter := inv.filter ++ [t] }
  | .separator :: rest, run, inv => if run = .after then none else take rest .inside inv
  | .options flags none :: rest, run, inv => take rest run.close (inv.setFlags flags)
  | .options flags (some (o, .attached value)) :: rest, run, inv =>
    take rest run.close ((inv.setFlags flags).setValue o value)
  | .options flags (some (o, .behind)) :: .operand value :: rest, run, inv =>
    take rest run.close ((inv.setFlags flags).setValue o (some value))
  | .options _ (some (_, .behind)) :: _, _, _ => none

def parse (args : List Text) : Option Invocation :=
  (Argument.classifyAll args).bind fun arguments => take arguments .before {}

end Invocation
end StorageAtlas
