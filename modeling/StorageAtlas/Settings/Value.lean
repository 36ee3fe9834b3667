import StorageAtlas.Decimal
import StorageAtlas.Text.Quoted

/-!
Values of a configuration document, and how a setting takes them as a text, a
whole number or a switch.
-/

namespace StorageAtlas

inductive ConversionError where
  /-- A text that is no numeral. -/
  | notANumeral
  /-- A value that no number can be made of. -/
  | notANumber
  | undefined
  | infinite
  deriving DecidableEq, Repr

inductive Value where
  | null
  | bool (b : Bool)
  | int (n : Int)
  | decimal (d : Decimal)
  /-- What is written as a number and stands for none. -/
  | undefined
  | text (t : Text)
  | list (items : List Value)
  /-- A key that is no text counts as the text that it is shown as. -/
  | mapping (fields : List (Text × Value))
  /-- A value of another kind, such as a date or a set, as a text, a switch and a number. -/
  | other (shown : Text) (switch : Bool) (number : Except ConversionError Int)
  deriving Inhabited

namespace Value

mutual

/-- A value as it stands inside another. -/
def shown : Value → Text
  | null => "None"
  | bool b => if b then "True" else "False"
  | int n => Text.signed n
  | decimal d => d.text
  | undefined => "nan"
  | text t => Text.quoted t
  | list items => "[" ++ shownItems items ++ "]"
  | mapping fields => "\x7b" ++ shownFields fields ++ "\x7d"
  | other shown _ _ => shown

def shownItems : List Value → Text
  | [] => []
  | [v] => shown v
  | v :: w :: rest => shown v ++ ", " ++ shownItems (w :: rest)

def shownFields : List (Text × Value) → Text
  | [] => []
  | [(k, v)] => Text.quoted k ++ ": " ++ shown v
  | (k, v) :: w :: rest => Text.quoted k ++ ": " ++ shown v ++ ", " ++ shownFields (w :: rest)

end

def toText : Value → Text
  | text t => t
  | v => v.shown

/-- Everything is on but nothing, zero and what is empty. -/
def toSwitch : Value → Bool
  | null => false
  | bool b => b
  | int n => n ≠ 0
  | decimal d => !d.isZero
  | undefined => true
  | text t => !t.isEmpty
  | list items => !items.isEmpty
  | mapping fields => !fields.isEmpty
  | other _ switch _ => switch

def toInt : Value → Except ConversionError Int
  | bool b => .ok (if b then 1 else 0)
  | int n => .ok n
  | decimal d => if d.isInfinite then .error .infinite else .ok d.truncate
  | undefined => .error .undefined
  | text t =>
    match Text.integer? 10 t with
    | some n => .ok n
    | none => .error .notANumeral
  | other _ _ number => number
  | null | list _ | mapping _ => .error .notANumber

end Value
end StorageAtlas
