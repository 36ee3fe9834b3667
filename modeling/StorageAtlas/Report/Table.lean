import StorageAtlas.Text.Blank
import StorageAtlas.ValueFault

/-!
Tables of text: each column is as wide as its widest cell, two spaces stand
between columns, and blanks at the end of a line are left out. There are as many
columns as headers: a shorter row ends early, for a longer one there is no width.
-/

namespace StorageAtlas.Table

/-- The widths of two rows taken together; cells beyond the first row do not count. -/
def widen : List Nat → List Text → List Nat
  | [], _ => []
  | w :: ws, [] => w :: ws
  | w :: ws, cell :: cells => max w cell.length :: widen ws cells

def widths (headers : List Text) (rows : List (List Text)) : List Nat :=
  rows.foldl widen (headers.map List.length)

/-- The cells of a row, each filled up to the width of its column. -/
def padded : List Nat → List Text → Except ValueFault (List Text)
  | _, [] => .ok []
  | [], _ :: _ => .error .noSuchColumn
  | w :: ws, cell :: cells => (padded ws cells).map (Text.padRight w cell :: ·)

def line (ws : List Nat) (cells : List Text) : Except ValueFault Text :=
  (padded ws cells).map fun cells => Text.trimEnd (Text.join "  " cells)

/-- The lines of a table: the headers, a rule as long as their line, and the rows. -/
def lines (headers : List Text) (rows : List (List Text)) : Except ValueFault (List Text) := do
  let ws := widths headers rows
  let header ← line ws headers
  let others ← rows.mapM (line ws)
  .ok (header :: List.replicate header.length '-' :: others)

end StorageAtlas.Table
