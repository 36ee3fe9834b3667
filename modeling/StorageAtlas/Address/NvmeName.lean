import StorageAtlas.Text.Numeral

/-!
Kernel names of NVMe controllers and namespaces: a number after the word, and
then letters with a number each.
-/

namespace StorageAtlas.NvmeName

/-- The digits at the start of a text, and every other character with the digits behind it. -/
def runs : Text → Text × List (Char × Text)
  | [] => ([], [])
  | c :: r =>
    let (digits, suffixes) := runs r
    if c.isDigit then (c :: digits, suffixes) else ([], (c, digits) :: suffixes)

/-- The text after the word, taken apart; there is a name only if a number follows the word. -/
def parts? (t : Text) : Option (Nat × List (Char × Text)) :=
  let (digits, suffixes) := runs t
  if digits.isEmpty then none else some (Text.ofDecimal digits, suffixes)

/-- The text after the word nvme, in lower case letters. -/
def afterWord? (name : Text) : Option Text :=
  if name.take 4 = "nvme" then some (name.drop 4) else none

/-- A name that is the word and a number. -/
def controller? (name : Text) : Option Nat := do
  match ← parts? (← afterWord? name) with
  | (minor, []) => some minor
  | _ => none

/-- A name with a number, at most one controller path and a namespace id. -/
def unit? (name : Text) : Option (Nat × Nat) := do
  match ← parts? (← afterWord? name) with
  | (minor, [('n', id)]) => if id.isEmpty then none else some (minor, Text.ofDecimal id)
  | (minor, [('c', path), ('n', id)]) =>
    if path.isEmpty || id.isEmpty then none else some (minor, Text.ofDecimal id)
  | _ => none

theorem runs_append_nondigit {digits : Text} (h : ∀ c ∈ digits, c.isDigit = true) (rest : Text)
    (hr : (runs rest).1 = []) : runs (digits ++ rest) = (digits, (runs rest).2) := by
  induction digits with
  | nil => exact Prod.ext hr rfl
  | cons c r ih =>
    have hc := h c (by simp)
    simp [runs, hc, ih fun d hd => h d (by simp [hd])]

end StorageAtlas.NvmeName
