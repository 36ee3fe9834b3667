/-!
Texts are lists of characters, so reading and writing them are recursions on
the list. This file holds the cutting, joining and comparing of texts that the
rest of the library uses; what a blank, a digit or a printable character is
stands in files of its own.
-/

namespace StorageAtlas

abbrev Text := List Char

instance : Coe String Text := ⟨String.toList⟩

namespace Text

/-- The fields between the separators: always at least one. -/
def splitOn (sep : Char) : Text → List Text
  | [] => [[]]
  | c :: r =>
    if c = sep then [] :: splitOn sep r
    else match splitOn sep r with
      | [] => [[c]]
      | field :: fields => (c :: field) :: fields

/-- What stands before and after the first separator, if there is one. -/
def cut? (sep : Char) : Text → Option (Text × Text)
  | [] => none
  | c :: r =>
    if c = sep then some ([], r)
    else match cut? sep r with
      | none => none
      | some (before, after) => some (c :: before, after)

/-- What stands before the first separator, or the whole text. -/
def upTo (sep : Char) (t : Text) : Text := t.takeWhile (· ≠ sep)

/-- What stands after the last separator, or the whole text. -/
def afterLast (sep : Char) (t : Text) : Text :=
  (t.reverse.takeWhile (· ≠ sep)).reverse

def join (glue : Text) : List Text → Text
  | [] => []
  | [t] => t
  | t :: u :: rest => t ++ glue ++ join glue (u :: rest)

/-- `find? needle t` is the least position at which `needle` stands in `t`. -/
def find? (needle : Text) : Text → Option Nat
  | [] => if needle.isEmpty then some 0 else none
  | c :: r =>
    if needle.isPrefixOf (c :: r) then some 0 else (find? needle r).map (· + 1)

def holds (needle : Text) (t : Text) : Bool := (find? needle t).isSome

/-- Does the text begin with one of the given starts? -/
def startsWith (t start : Text) : Bool := start.isPrefixOf t

def dropEndWhile (p : Char → Bool) (t : Text) : Text := (t.reverse.dropWhile p).reverse

/-- Only the letters A to Z have a lower form here; no other character becomes one of a to z
in the words that are compared this way. -/
def lower (t : Text) : Text := t.map Char.toLower

/-- The first `n` characters; a negative `n` leaves out that many at the end. -/
def sliceTo (n : Int) (t : Text) : Text :=
  if 0 ≤ n then t.take n.toNat else t.take (t.length - n.natAbs)

/-- A capacity that is absent or negative sets no limit. -/
def fit (capacity : Option Int) (t : Text) : Text :=
  match capacity with
  | some n => if 0 ≤ n then t.take n.toNat else t
  | none => t

def padRight (width : Nat) (t : Text) : Text := t ++ List.replicate (width - t.length) ' '

def padZeros (width : Nat) (t : Text) : Text := List.replicate (width - t.length) '0' ++ t

/-- Order by code points, character after character. -/
def le : Text → Text → Bool
  | [], _ => true
  | _ :: _, [] => false
  | a :: r, b :: s => a.toNat < b.toNat || (a = b && le r s)

theorem splitOn_ne_nil (sep : Char) (t : Text) : splitOn sep t ≠ [] := by
  cases t with
  | nil => simp [splitOn]
  | cons c r =>
    simp only [splitOn]
    split
    · simp
    · split <;> simp

/-- Splitting loses nothing: the separator joins the fields again. -/
theorem join_splitOn (sep : Char) (t : Text) : join [sep] (splitOn sep t) = t := by
  induction t with
  | nil => rfl
  | cons c r ih =>
    simp only [splitOn]
    split
    · rename_i h
      subst h
      cases hs : splitOn c r with
      | nil => exact absurd hs (splitOn_ne_nil c r)
      | cons f fs => rw [hs] at ih; simp [join, ih]
    · cases hs : splitOn sep r with
      | nil => exact absurd hs (splitOn_ne_nil sep r)
      | cons f fs =>
        rw [hs] at ih
        cases fs with
        | nil => simpa [join] using ih
        | cons g gs => simp only [join, List.cons_append] at ih ⊢; rw [ih]

/-- A text without the separator is one field. -/
theorem splitOn_of_not_mem {sep : Char} {t : Text} (h : sep ∉ t) : splitOn sep t = [t] := by
  induction t with
  | nil => rfl
  | cons c r ih =>
    simp only [List.mem_cons, not_or] at h
    have hc : c ≠ sep := fun e => h.1 e.symm
    simp [splitOn, hc, ih h.2]

/-- The first separator ends the first field. -/
theorem splitOn_append_cons {sep : Char} {field : Text} (h : sep ∉ field) (rest : Text) :
    splitOn sep (field ++ sep :: rest) = field :: splitOn sep rest := by
  induction field with
  | nil => simp [splitOn]
  | cons c r ih =>
    simp only [List.mem_cons, not_or] at h
    have hc : c ≠ sep := fun e => h.1 e.symm
    simp [splitOn, hc, ih h.2]

/-- The fields before and after a separator do not depend on each other. -/
theorem splitOn_append_sep (sep : Char) (before after : Text) :
    splitOn sep (before ++ sep :: after) = splitOn sep before ++ splitOn sep after := by
  induction before with
  | nil => simp [splitOn]
  | cons c r ih =>
    by_cases hc : c = sep
    · simp [splitOn, hc, ih]
    · simp only [List.cons_append, splitOn, hc, if_false, ih]
      cases hr : splitOn sep r with
      | nil => exact absurd hr (splitOn_ne_nil sep r)
      | cons field fields => rfl

/-- Joined fields without the separator in them are split again where they were joined. -/
theorem splitOn_join {sep : Char} {fields : List Text} (hne : fields ≠ [])
    (h : ∀ field ∈ fields, sep ∉ field) : splitOn sep (join [sep] fields) = fields := by
  induction fields with
  | nil => exact absurd rfl hne
  | cons field rest ih =>
    cases rest with
    | nil => exact splitOn_of_not_mem (h field (by simp))
    | cons g gs =>
      have hrest := ih (by simp) fun f hf => h f (by simp [hf])
      simp only [join, List.append_assoc, List.singleton_append]
      rw [splitOn_append_cons (h field (by simp)), hrest]

theorem mem_join {glue : Text} {fields : List Text} {c : Char} (h : c ∈ join glue fields) :
    c ∈ glue ∨ ∃ field ∈ fields, c ∈ field := by
  induction fields with
  | nil => simp [join] at h
  | cons field rest ih =>
    cases rest with
    | nil => exact .inr ⟨field, by simp, h⟩
    | cons g gs =>
      simp only [join, List.mem_append] at h
      rcases h with (h | h) | h
      · exact .inr ⟨field, by simp, h⟩
      · exact .inl h
      · rcases ih h with h | ⟨f, hf, hc⟩
        · exact .inl h
        · exact .inr ⟨f, by simp [hf], hc⟩

theorem holds_iff_isInfix {needle t : Text} : holds needle t = true ↔ needle <:+: t := by
  induction t with
  | nil => simp [holds, find?, List.infix_nil]
  | cons c r ih =>
    rw [List.infix_cons_iff, ← ih, ← List.isPrefixOf_iff_prefix]
    by_cases h : needle.isPrefixOf (c :: r) = true
    · simp [holds, find?, h]
    · simp [holds, find?, h]

theorem startsWith_iff {t start : Text} :
    startsWith t start = true ↔ ∃ tail, t = start ++ tail := by
  rw [startsWith, List.isPrefixOf_iff_prefix]
  constructor
  · rintro ⟨tail, rfl⟩
    exact ⟨tail, rfl⟩
  · rintro ⟨tail, rfl⟩
    exact List.prefix_append start tail

/-- No field holds the separator. -/
theorem not_mem_of_mem_splitOn {sep : Char} {t field : Text} (h : field ∈ splitOn sep t) :
    sep ∉ field := by
  induction t generalizing field with
  | nil => simp [splitOn] at h; simp [h]
  | cons c r ih =>
    simp only [splitOn] at h
    split at h
    · rcases List.mem_cons.1 h with rfl | h
      · simp
      · exact ih h
    · rename_i hc
      cases hs : splitOn sep r with
      | nil => exact absurd hs (splitOn_ne_nil sep r)
      | cons f fs =>
        rw [hs] at h ih
        rcases List.mem_cons.1 h with rfl | h
        · have := @ih f (by simp)
          simp only [List.mem_cons, not_or]
          exact ⟨fun e => hc e.symm, this⟩
        · exact ih (by simp [h])

end Text
end StorageAtlas
