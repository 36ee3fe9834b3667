import StorageAtlas.Text.Quoted
import StorageAtlas.Tree.Basic

/-!
Finding what a path names: parts from left to right, links followed on the way,
and the causes for which there is nothing to find. The operations on files read
the place that is found.
-/

namespace StorageAtlas

inductive LookupError where
  | notFound
  | denied
  | notADirectory
  | isADirectory
  | tooManyLinks
  | notALink
  deriving DecidableEq, Repr

namespace LookupError

def number : LookupError → Nat
  | notFound => 2
  | denied => 13
  | notADirectory => 20
  | isADirectory => 21
  | notALink => 22
  | tooManyLinks => 40

def cause : LookupError → Text
  | notFound => "No such file or directory"
  | denied => "Permission denied"
  | notADirectory => "Not a directory"
  | isADirectory => "Is a directory"
  | notALink => "Invalid argument"
  | tooManyLinks => "Too many levels of symbolic links"

/-- The message of a failure, with the path that was asked for. -/
def message (e : LookupError) (path : Text) : Text :=
  "[Errno " ++ Text.decimal e.number ++ "] " ++ e.cause ++ ": " ++ Text.quoted path

end LookupError

namespace Tree

/-- Follows parts from a place. A link is left to `onLink` with the parts that remain, except at
the very end when `follow` does not hold. -/
def walkWith (t : Tree) (follow : Bool) (onLink : Path → List Text → Except LookupError Path) :
    Path → List Text → Except LookupError Path
  | here, [] => .ok here
  | here, part :: rest =>
    if !t.isDirectory here then .error .notADirectory
    else if part = [] ∨ part = ['.'] then walkWith t follow onLink here rest
    else if part = ['.', '.'] then walkWith t follow onLink here.tail rest
    else match t.node? (part :: here) with
      | none => .error .notFound
      | some (.link target) =>
        if rest.isEmpty && !follow then .ok (part :: here)
        else
          let start := if target.head? = some '/' then [] else here
          onLink start (Text.splitOn '/' target ++ rest)
      | some _ => walkWith t follow onLink (part :: here) rest

/-- Follows at most the given number of links. -/
def walk (t : Tree) (follow : Bool) : Nat → Path → List Text → Except LookupError Path
  | 0 => walkWith t follow fun _ _ => .error .tooManyLinks
  | links + 1 => walkWith t follow (walk t follow links)

/-- The links that one lookup may follow. -/
def linkLimit : Nat := 40

/-- The place that a path names. Relative paths begin at the root; `follow` says whether a link at
the end is followed. -/
def find (t : Tree) (path : Text) (follow : Bool := true) : Except LookupError Path :=
  if path.isEmpty then .error .notFound
  else t.walk follow linkLimit [] (Text.splitOn '/' path)

def nodeAt (t : Tree) (path : Text) (follow : Bool := true) : Except LookupError Node :=
  match t.find path follow with
  | .error e => .error e
  | .ok place =>
    match t.node? place with
    | some node => .ok node
    | none => .error .notFound

def exists? (t : Tree) (path : Text) : Bool := (t.find path).toOption.isSome

def isDir (t : Tree) (path : Text) : Bool :=
  match t.nodeAt path with
  | .ok (.directory _) => true
  | _ => false

theorem exists?_of_isDir {t : Tree} {path : Text} (h : t.isDir path = true) :
    t.exists? path = true := by
  unfold isDir nodeAt at h
  unfold exists?
  cases hfind : t.find path with
  | error e => simp [hfind] at h
  | ok place => rfl

def isLink (t : Tree) (path : Text) : Bool :=
  match t.nodeAt path false with
  | .ok (.link _) => true
  | _ => false

def readLink (t : Tree) (path : Text) : Except LookupError Text :=
  match t.nodeAt path false with
  | .ok (.link target) => .ok target
  | .ok _ => .error .notALink
  | .error e => .error e

/-- The path without links that leads to the same place. -/
def realPath (t : Tree) (path : Text) : Except LookupError Text := (t.find path).map Path.text

/-- Special files read as empty. -/
def readFile (t : Tree) (path : Text) : Except LookupError Bytes :=
  match t.nodeAt path with
  | .ok (.file content) => .ok content
  | .ok (.directory _) => .error .isADirectory
  | .ok .sealed => .error .denied
  | .ok _ => .ok []
  | .error e => .error e

def list (t : Tree) (path : Text) : Except LookupError (List Text) :=
  match t.find path with
  | .error e => .error e
  | .ok place =>
    match t.node? place with
    | some (.directory true) => .ok (t.children place)
    | some (.directory false) => .error .denied
    | _ => .error .notADirectory

/-- The number of the special file that a path leads to, or of nothing. -/
def deviceNumber (t : Tree) (path : Text) : Except LookupError DeviceNumber :=
  (t.nodeAt path).map fun node =>
    match node with
    | .device _ number _ => number
    | _ => .nothing

end Tree
end StorageAtlas
