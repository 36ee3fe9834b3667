import StorageAtlas.Text.Numeral

/-!
JSON documents with one value per line, in ASCII characters only.
-/

namespace StorageAtlas

inductive Json where
  | null
  | text (t : Text)
  | int (n : Int)
  | list (items : List Json)
  | object (fields : List (Text × Json))

namespace Json

/-- A number of sixteen bits as an escape. -/
def unit (n : Nat) : Text := "\\u" ++ Text.padZeros 4 (Text.hexadecimal n)

/-- Characters beyond sixteen bits are written as a pair of surrogates. -/
def escaped (c : Char) : Text :=
  let n := c.toNat
  if c = '\x22' then "\\\x22"
  else if c = '\\' then "\\\\"
  else if c = '\n' then "\\n"
  else if c = '\r' then "\\r"
  else if c = '\t' then "\\t"
  else if n = 8 then "\\b"
  else if n = 12 then "\\f"
  else if 32 ≤ n ∧ n < 127 then [c]
  else if n < 0x10000 then unit n
  else unit (0xD800 + (n - 0x10000) / 0x400) ++ unit (0xDC00 + (n - 0x10000) % 0x400)

def string (t : Text) : Text := '\x22' :: (t.flatMap escaped ++ ['\x22'])

/-- A line break and two spaces for each level. -/
def newLine (level : Nat) : Text := '\n' :: List.replicate (2 * level) ' '

mutual

/-- A value whose lines stand at a level. -/
def render (level : Nat) : Json → Text
  | null => "null"
  | text t => string t
  | int n => Text.signed n
  | list [] => "[]"
  | list (v :: rest) => "[" ++ renderItems (level + 1) (v :: rest) ++ newLine level ++ "]"
  | object [] => "\x7b\x7d"
  | object (f :: rest) =>
    "\x7b" ++ renderFields (level + 1) (f :: rest) ++ newLine level ++ "\x7d"

def renderItems (level : Nat) : List Json → Text
  | [] => []
  | [v] => newLine level ++ render level v
  | v :: w :: rest => newLine level ++ render level v ++ "," ++ renderItems level (w :: rest)

def renderFields (level : Nat) : List (Text × Json) → Text
  | [] => []
  | [(k, v)] => newLine level ++ string k ++ ": " ++ render level v
  | (k, v) :: w :: rest =>
    newLine level ++ string k ++ ": " ++ render level v ++ "," ++ renderFields level (w :: rest)

end

def document (v : Json) : Text := render 0 v

def ofOption (t : Option Text) : Json :=
  match t with
  | some t => text t
  | none => null

end Json
end StorageAtlas
