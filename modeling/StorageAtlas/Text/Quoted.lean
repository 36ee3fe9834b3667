import StorageAtlas.Text.Numeral
import StorageAtlas.Text.Printable

/-!
Texts in quotation marks, as messages show them: marks and backslashes are
escaped, and what cannot be printed is written by its number.
-/

namespace StorageAtlas.Text

def apostrophe : Char := '\x27'

def quotationMark : Char := '\x22'

/-- The text stands between apostrophes, unless it holds one and no quotation mark. -/
def enclosure (t : Text) : Char :=
  if t.contains apostrophe && !t.contains quotationMark then quotationMark else apostrophe

def escaped (mark : Char) (c : Char) : Text :=
  if c = mark || c = '\\' then ['\\', c]
  else if c = '\n' then "\\n"
  else if c = '\r' then "\\r"
  else if c = '\t' then "\\t"
  else if isPrintable c then [c]
  else if c.toNat < 0x100 then "\\x" ++ padZeros 2 (hexadecimal c.toNat)
  else if c.toNat < 0x10000 then "\\u" ++ padZeros 4 (hexadecimal c.toNat)
  else "\\U" ++ padZeros 8 (hexadecimal c.toNat)

def quoted (t : Text) : Text :=
  let mark := enclosure t
  mark :: (t.flatMap (escaped mark) ++ [mark])

example : quoted "a\n\\" = "\x27a\\n\\\\\x27" ∧ quoted "\x27" = "\x22\x27\x22" := by decide

end StorageAtlas.Text
