import StorageAtlas.Decimal
import StorageAtlas.Tree.Basic

/-!
Trees written down as text, one entry to a line with tabs between its fields: a
letter for the sort of node, the path, and what the node holds. File contents
are hexadecimal, times are seconds with or without a fraction.
-/

namespace StorageAtlas

namespace Tree

/-- A number of seconds, with a sign and digits after a point if there are any. -/
def seconds? (t : Text) : Option Decimal :=
  let (negative, body) := match t with
    | '-' :: r => (true, r)
    | r => (false, r)
  let (whole, fraction) := (Text.cut? '.' body).getD (body, ['0'])
  if Text.isAsciiDigits whole && Text.isAsciiDigits fraction then
    some ⟨negative, Text.ofDecimal (whole ++ fraction), -(fraction.length : Int)⟩
  else none

def device? (kind : DeviceKind) (major minor modified : Text) : Option Node := do
  let number : DeviceNumber := ⟨← Text.integer? 10 major, ← Text.integer? 10 minor⟩
  some (.device kind number (← seconds? modified).value)

/-- The node that the fields of a line give. -/
def nodeOfFields? (sort : Text) (fields : List Text) : Option Node :=
  match sort, fields with
  | ['d'], [] => some (.directory true)
  | ['p'], [] => some (.directory false)
  | ['f'], [content] => (Bytes.ofHex? content).map Node.file
  | ['x'], [] => some .sealed
  | ['l'], [target] => some (.link target)
  | ['b'], [major, minor, modified] => device? .block major minor modified
  | ['c'], [major, minor, modified] => device? .char major minor modified
  | _, _ => none

/-- Puts the entry of one line in; an empty line holds none. -/
def putLine? (t : Tree) (line : Text) : Option Tree :=
  match Text.splitOn '\t' line with
  | [[]] => some t
  | sort :: path :: fields => (nodeOfFields? sort fields).map (t.put (Path.ofText path))
  | _ => none

/-- The tree that the lines of a text describe, from the first line to the last. -/
def ofSnapshot? (t : Text) : Option Tree :=
  (Text.splitOn '\n' t).foldl (fun tree line => tree.bind (·.putLine? line)) (some {})

end Tree
end StorageAtlas
