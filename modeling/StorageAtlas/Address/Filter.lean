import StorageAtlas.Address.Reader

/-!
Filters: an address pattern with up to four parts, of which each selects one
value or any. A filter is read from one text with colons or from separate
arguments.
-/

namespace StorageAtlas

structure AddressFilter where
  host : Option Int := none
  channel : Option Int := none
  target : Option Int := none
  lun : Option Int := none
  deriving DecidableEq, Repr

inductive FilterError where
  | tooManyArguments (args : List Text)
  | colonInArgument
  | tooManyParts (text : Text)
  | badLun (part : Text)
  | notANumber (part : Text)
  deriving DecidableEq, Repr

namespace FilterError

def message : FilterError → Text
  | tooManyArguments args => "Too many filter arguments: " ++ Text.join " " args
  | colonInArgument => "Filter given as separate arguments cannot contain \x27:\x27"
  | tooManyParts t => "Filter has too many \x27:\x27 separators: " ++ Text.quoted t
  | badLun t => "Bad LUN in filter: " ++ Text.quoted t
  | notANumber t => "Unable to decode " ++ Text.quoted t ++ " as a number"

/-- Advice that goes with the message, if there is any. -/
def hint : FilterError → Option Text
  | notANumber _ =>
    some "expected [H][:C[:T[:L]]] with \x27-\x27, \x27*\x27 or \x27?\x27 as wildcards"
  | _ => none

end FilterError

namespace AddressFilter

def isNvme (f : AddressFilter) : Bool := f.host = some Address.nvmeHost

def isEmpty (f : AddressFilter) : Bool :=
  f.host.isNone && f.channel.isNone && f.target.isNone && f.lun.isNone

/-- A part agrees with a value if either is left open or both are equal. -/
def agrees : Option Int → Option Int → Bool
  | some wanted, some actual => wanted = actual
  | _, _ => true

/-- Does the filter let these parts pass? A part that is not given is not compared. -/
def allows (f : AddressFilter) (host : Option Int) (channel target lun : Option Int := none) :
    Bool :=
  agrees f.host host && agrees f.channel channel && agrees f.target target && agrees f.lun lun

def selects (f : AddressFilter) (a : Address) : Bool :=
  f.allows (some a.host) (some a.channel) (some a.target) (some a.lun)

def isWildcard (c : Char) : Bool := c = '-' || c = '*' || c = '?'

def isNvmeSign (part : Text) : Bool := part = "N" || part = "n"

/-- The value of the part at a position; `nvme` says that the filter selects namespaces. -/
def readPart (nvme : Bool) (position : Nat) (part : Text) : Except FilterError (Option Int) :=
  match part with
  | [] => .ok none
  | c :: _ =>
    if isWildcard c then .ok none
    else if position = 0 && isNvmeSign part then .ok (some Address.nvmeHost)
    else if position = 3 && Address.hasHexTag part then
      let field := Text.dropEndWhile (· = ']') part
      let value := if nvme then Address.readNamespace field part else Address.readLun field
      match value with
      | .ok n => .ok (some n)
      | .error _ => .error (.badLun part)
    else
      let digits := part.takeWhile Char.isDigit
      if !digits.isEmpty then .ok (some (Text.ofDecimal digits))
      else if part.contains ']' then .ok none
      else .error (.notANumber part)

def readParts (nvme : Bool) : Nat → List Text → Except FilterError (List (Option Int))
  | _, [] => .ok []
  | position, part :: rest =>
    match readPart nvme position part with
    | .error e => .error e
    | .ok value =>
      match readParts nvme (position + 1) rest with
      | .error e => .error e
      | .ok values => .ok (value :: values)

def ofParts (values : List (Option Int)) : AddressFilter :=
  ⟨values.getD 0 none, values.getD 1 none, values.getD 2 none, values.getD 3 none⟩

/-- Reads the four part form, with blanks and an opening bracket before it. -/
def readText (text : Text) : Except FilterError AddressFilter :=
  match text.dropWhile fun c => c = ' ' || c = '\t' || c = '[' with
  | [] => .ok {}
  | c :: r =>
    let text := c :: r
    let parts := (Text.splitOn ':' text).map Text.trim
    if 4 < parts.length then .error (.tooManyParts text)
    else (readParts (isNvmeSign (parts.headD [])) 0 parts).map ofParts

/-- The word host before the first number does not count. -/
def dropHostWord (t : Text) : Text := if Text.lower (t.take 4) = "host" then t.drop 4 else t

def parse (args : List Text) : Except FilterError AddressFilter :=
  match args with
  | [] => .ok {}
  | [arg] => readText (dropHostWord arg)
  | arg :: rest =>
    if 4 < args.length then .error (.tooManyArguments args)
    else
      let first := dropHostWord arg
      if first.contains ':' then .error .colonInArgument
      else readText (Text.join ":" (first :: rest))

end AddressFilter
end StorageAtlas
