import Mathlib
import StorageAtlas.Address.Filter
import StorageAtlas.Proofs.Failure

/-!
The arguments of a filter as one text with colons, and the parts of this text.
A filter depends on its arguments through the parts only, so it may be written
in one argument or in several, and a wildcard behind the last part is the same
as nothing there.
-/

namespace StorageAtlas.AddressFilter

/-- What is passed over before the first part. -/
def isOpening (c : Char) : Bool := c = ' ' || c = '\t' || c = '['

/-- The arguments with colons between them, without the word host before them. -/
def argumentText (args : List Text) : Text :=
  Text.join [':'] (dropHostWord (args.headD []) :: args.tail)

def parts (args : List Text) : List Text :=
  (Text.splitOn ':' ((argumentText args).dropWhile isOpening)).map Text.trim

/-- The part at a position; the parts that are left out at the end are empty. -/
def partAt (args : List Text) (position : Nat) : Text := (parts args).getD position []

def selectsNamespaces (args : List Text) : Bool := isNvmeSign (partAt args 0)

/-- Arguments have the shape of a filter: there are no more than four, of parts neither, and no
colon stands in the first of several. -/
structure HasShape (args : List Text) : Prop where
  fewArguments : args.length ≤ 4
  noColon : 1 < args.length → ':' ∉ dropHostWord (args.headD [])
  fewParts : (parts args).length ≤ 4

/-- The component of a filter at a position. -/
def component (f : AddressFilter) : Nat → Option Int
  | 0 => f.host
  | 1 => f.channel
  | 2 => f.target
  | 3 => f.lun
  | _ => none

/-! ## Reading the parts -/

theorem parts_ne_nil (args : List Text) : parts args ≠ [] := by
  rw [parts, Ne, List.map_eq_nil_iff]
  exact Text.splitOn_ne_nil ':' _

theorem headD_parts (args : List Text) : (parts args).headD [] = partAt args 0 := by
  rw [partAt]
  cases parts args <;> rfl

theorem readText_eq (args : List Text) :
    readText (argumentText args) =
      if 4 < (parts args).length then
        .error (.tooManyParts ((argumentText args).dropWhile isOpening))
      else (readParts (selectsNamespaces args) 0 (parts args)).map ofParts := by
  have hopening : (fun c : Char => decide (c = ' ') || decide (c = '\t') || decide (c = '[')) =
      isOpening := rfl
  rw [selectsNamespaces, ← headD_parts, parts, readText, hopening]
  cases (argumentText args).dropWhile isOpening with
  | nil => rfl
  | cons c r => rfl

/-- In the shape of a filter, arguments are read as their text. -/
theorem parse_eq_readText {args : List Text} (hfew : args.length ≤ 4)
    (hcolon : 1 < args.length → ':' ∉ dropHostWord (args.headD [])) :
    parse args = readText (argumentText args) := by
  match args with
  | [] => rfl
  | [arg] => rfl
  | arg :: next :: rest =>
    have hmem : ':' ∉ dropHostWord arg := hcolon (by simp)
    have hcontains : ¬ (dropHostWord arg).contains ':' = true := by
      rwa [List.contains_iff_mem]
    rw [parse, if_neg (by omega)]
    · exact if_neg hcontains
    · exact nofun

theorem hasShape_of_parse {args : List Text} {f : AddressFilter} (h : parse args = .ok f) :
    HasShape args := by
  have harguments : args.length ≤ 4 ∧ (1 < args.length → ':' ∉ dropHostWord (args.headD [])) := by
    match args with
    | [] => exact ⟨by simp, by simp⟩
    | [arg] => exact ⟨by simp, by simp⟩
    | arg :: next :: rest =>
      rw [parse] at h
      · split at h
        · cases h
        · rename_i hfew
          simp only at h
          split at h
          · cases h
          · rename_i hcontains
            rw [List.contains_iff_mem] at hcontains
            exact ⟨by omega, fun _ => hcontains⟩
      · exact nofun
  refine ⟨harguments.1, harguments.2, ?_⟩
  rw [parse_eq_readText harguments.1 harguments.2, readText_eq] at h
  split at h
  · cases h
  · omega

theorem readParts_cons_eq_ok_iff {nvme : Bool} {position : Nat} {part : Text} {rest : List Text}
    {values : List (Option Int)} :
    readParts nvme position (part :: rest) = .ok values ↔
      ∃ value others, values = value :: others ∧ readPart nvme position part = .ok value ∧
        readParts nvme (position + 1) rest = .ok others := by
  rw [readParts]
  cases readPart nvme position part with
  | error e => simp
  | ok value =>
    cases readParts nvme (position + 1) rest with
    | error e => simp
    | ok others => simp [eq_comm]

theorem readParts_eq_ok_iff {nvme : Bool} {position : Nat} {found : List Text}
    {values : List (Option Int)} :
    readParts nvme position found = .ok values ↔ values.length = found.length ∧
      ∀ i < found.length,
        readPart nvme (position + i) (found.getD i []) = .ok (values.getD i none) := by
  induction found generalizing position values with
  | nil => cases values <;> simp [readParts]
  | cons part rest ih =>
    rw [readParts_cons_eq_ok_iff]
    simp only [ih, List.length_cons, Nat.forall_lt_succ_left, List.getD_cons_zero,
      List.getD_cons_succ, Nat.add_zero, Nat.add_right_comm position 1, ← Nat.add_assoc]
    constructor
    · rintro ⟨value, others, rfl, hvalue, hlength, hothers⟩
      exact ⟨by simp [hlength], hvalue, hothers⟩
    · rintro ⟨hlength, hvalue, hothers⟩
      cases values with
      | nil => cases hlength
      | cons value others =>
        exact ⟨value, others, rfl, hvalue, by simpa using hlength, hothers⟩

theorem component_ofParts (values : List (Option Int)) {position : Nat} (h : position < 4) :
    (ofParts values).component position = values.getD position none := by
  match position with
  | 0 | 1 | 2 | 3 => rfl

theorem eq_of_component_eq {f g : AddressFilter}
    (h : ∀ position < 4, f.component position = g.component position) : f = g := by
  have h0 := h 0 (by decide)
  have h1 := h 1 (by decide)
  have h2 := h 2 (by decide)
  have h3 := h 3 (by decide)
  cases f
  cases g
  simp only [component] at h0 h1 h2 h3
  rw [h0, h1, h2, h3]

/-- In the shape of a filter, the filter is read part by part. -/
theorem parse_eq_readParts {args : List Text} (h : HasShape args) :
    parse args = (readParts (selectsNamespaces args) 0 (parts args)).map ofParts := by
  have hparts := h.fewParts
  rw [parse_eq_readText h.fewArguments h.noColon, readText_eq, if_neg (by omega)]

theorem partAt_of_le {args : List Text} {position : Nat} (h : (parts args).length ≤ position) :
    partAt args position = [] := by
  rw [partAt, List.getD_eq_default _ _ h]

/-- Arguments are accepted exactly if they have the shape of a filter and each part is read, a part
that is left out as an empty one. -/
theorem parse_eq_ok_iff {args : List Text} {f : AddressFilter} :
    parse args = .ok f ↔ HasShape args ∧ ∀ position < 4,
      readPart (selectsNamespaces args) position (partAt args position) =
        .ok (f.component position) := by
  constructor
  · intro h
    have hshape := hasShape_of_parse h
    rw [parse_eq_readParts hshape] at h
    obtain ⟨values, hvalues, rfl⟩ := exists_of_map_eq_ok h
    obtain ⟨hlength, hread⟩ := readParts_eq_ok_iff.1 hvalues
    refine ⟨hshape, fun position hposition => ?_⟩
    rw [component_ofParts values hposition]
    by_cases hlt : position < (parts args).length
    · have := hread position hlt
      rwa [Nat.zero_add] at this
    · rw [partAt_of_le (by omega), List.getD_eq_default _ _ (by omega)]
      rfl
  · rintro ⟨hshape, hread⟩
    have hfew := hshape.fewParts
    have hget : ∀ position < (parts args).length,
        ((List.range (parts args).length).map f.component).getD position none =
          f.component position := by
      intro position hposition
      simp [List.getD_eq_getElem?_getD, hposition]
    have hvalues : readParts (selectsNamespaces args) 0 (parts args) =
        .ok ((List.range (parts args).length).map f.component) := by
      refine readParts_eq_ok_iff.2 ⟨by simp, fun i hi => ?_⟩
      rw [Nat.zero_add, hget i hi]
      exact hread i (by omega)
    rw [parse_eq_readParts hshape, hvalues]
    refine congrArg Except.ok (eq_of_component_eq fun position hposition => ?_)
    rw [component_ofParts _ hposition]
    by_cases hlt : position < (parts args).length
    · exact hget position hlt
    -- a part that is left out reads like an empty one, and gives no value
    · have hempty := hread position hposition
      rw [partAt_of_le (by omega)] at hempty
      rw [List.getD_eq_default _ _ (by simpa using hlt)]
      exact Except.ok.inj hempty

/-! ## Two ways to write a filter -/

/-- The word host stands before the first colon or not at all. -/
theorem dropHostWord_append_cons (first rest : Text) :
    dropHostWord (first ++ ':' :: rest) = dropHostWord first ++ ':' :: rest := by
  match first with
  | [] | [_] | [_, _] | [_, _, _] => simp [dropHostWord, Text.lower]
  | a :: b :: c :: d :: r =>
    simp only [dropHostWord, List.cons_append, List.take_succ_cons, List.take_zero,
      List.drop_succ_cons, List.drop_zero]
    split
    · rfl
    · rfl

theorem argumentText_join {args : List Text} (h : args ≠ []) :
    argumentText [Text.join [':'] args] = argumentText args := by
  match args with
  | [arg] => rfl
  | arg :: next :: rest =>
    have hjoin : Text.join [':'] (arg :: next :: rest) =
        arg ++ ':' :: Text.join [':'] (next :: rest) := by
      simp [Text.join]
    simp only [argumentText, hjoin, List.headD_cons, List.tail_cons, dropHostWord_append_cons]
    simp [Text.join]

theorem argumentText_append (t rest : Text) :
    argumentText [t ++ ':' :: rest] = argumentText [t] ++ ':' :: rest :=
  dropHostWord_append_cons t rest

/-- A colon opens a further part. -/
theorem parts_append (t rest : Text) :
    parts [t ++ ':' :: rest] = parts [t] ++ (Text.splitOn ':' rest).map Text.trim := by
  have hdrop : ∀ u : Text, (u ++ ':' :: rest).dropWhile isOpening =
      u.dropWhile isOpening ++ ':' :: rest := by
    intro u
    rw [List.dropWhile_append]
    split
    · rename_i hempty
      rw [List.isEmpty_iff.1 hempty]
      rfl
    · rfl
  rw [parts, argumentText_append, hdrop, Text.splitOn_append_sep, List.map_append]
  rfl

theorem readParts_append_wildcard (nvme : Bool) (position : Nat) (found : List Text) :
    readParts nvme position (found ++ [['*']]) =
      (readParts nvme position found).map (· ++ [none]) := by
  induction found generalizing position with
  | nil => rfl
  | cons part rest ih =>
    simp only [List.cons_append, readParts, ih]
    cases readPart nvme position part with
    | error e => rfl
    | ok value => cases readParts nvme (position + 1) rest <;> rfl

theorem ofParts_append_none (values : List (Option Int)) :
    ofParts (values ++ [none]) = ofParts values := by
  have hget : ∀ position, (values ++ [none]).getD position none = values.getD position none := by
    intro position
    rw [List.getD_eq_getElem?_getD, List.getD_eq_getElem?_getD, List.getElem?_append]
    split
    · rfl
    · rename_i hle
      rw [List.getElem?_eq_none (Nat.not_lt.1 hle)]
      cases position - values.length with
      | zero => rfl
      | succ k => rfl
  simp only [ofParts, hget]

theorem length_splitOn (sep : Char) (t : Text) :
    (Text.splitOn sep t).length = t.count sep + 1 := by
  induction t with
  | nil => rfl
  | cons c r ih =>
    rw [Text.splitOn]
    by_cases hc : c = sep
    · rw [if_pos hc, List.length_cons, ih, hc, List.count_cons_self]
    · obtain ⟨field, fields, hr⟩ := List.exists_cons_of_ne_nil (Text.splitOn_ne_nil sep r)
      rw [if_neg hc, List.count_cons_of_ne hc, ← ih, hr]
      rfl

theorem length_parts_le (t : Text) : (parts [t]).length ≤ t.count ':' + 1 := by
  have hword : (dropHostWord t).count ':' ≤ t.count ':' := by
    unfold dropHostWord
    split
    · exact (List.drop_sublist 4 t).count_le ':'
    · exact le_rfl
  have hopening := (List.dropWhile_sublist isOpening (l := dropHostWord t)).count_le ':'
  rw [parts, List.length_map, length_splitOn]
  exact Nat.succ_le_succ (hopening.trans hword)

/-- Several arguments are read as one in which colons join them, and a wildcard at the end changes
nothing: the filter is the same, or the refusal. -/
theorem parse_joined :
    (∀ args : List Text, 2 ≤ args.length → args.length ≤ 4 →
      ':' ∉ dropHostWord (args.headD []) → parse args = parse [Text.join [':'] args]) ∧
    ∀ t : Text, t.count ':' < 3 → parse [t] = parse [t ++ [':', '*']] := by
  constructor
  · intro args hsome hfew hcolon
    have hne : args ≠ [] := by
      rintro rfl
      cases hsome
    rw [parse_eq_readText hfew fun _ => hcolon, parse_eq_readText (by simp) (by simp),
      argumentText_join hne]
  · intro t hcount
    have hlength := length_parts_le t
    have hparts : parts [t ++ [':', '*']] = parts [t] ++ [['*']] := parts_append t ['*']
    have hselects : selectsNamespaces [t ++ [':', '*']] = selectsNamespaces [t] := by
      rw [selectsNamespaces, ← headD_parts, hparts, selectsNamespaces, ← headD_parts]
      cases hp : parts [t] with
      | nil => exact absurd hp (parts_ne_nil [t])
      | cons part rest => rfl
    have hmore : ¬ 4 < (parts [t] ++ [['*']]).length := by
      rw [List.length_append, List.length_singleton]
      omega
    rw [parse_eq_readText (by simp) (by simp), readText_eq, if_neg (by omega),
      parse_eq_readText (by simp) (by simp), readText_eq, hparts, hselects, if_neg hmore,
      readParts_append_wildcard]
    cases readParts (selectsNamespaces [t]) 0 (parts [t]) with
    | error e => rfl
    | ok values => exact congrArg Except.ok (ofParts_append_none values).symm

/-- A word, a bracket and a colon inside an argument; a text of two parts. -/
theorem parse_joined_word :
    (2 ≤ [("Host[2" : Text), "", "1:0x4001]"].length ∧
      [("Host[2" : Text), "", "1:0x4001]"].length ≤ 4 ∧ ':' ∉ dropHostWord "Host[2" ∧
      parse ["Host[2", "", "1:0x4001]"] = parse ["Host[2::1:0x4001]"]) ∧
    (("N:x" : Text).count ':' < 3 ∧ parse ["N:x"] = parse ["N:x:*"]) :=
  ⟨⟨by decide, by decide, by decide,
    parse_joined.1 ["Host[2", "", "1:0x4001]"] (by decide) (by decide) (by decide)⟩,
    by decide, parse_joined.2 "N:x" (by decide)⟩

end StorageAtlas.AddressFilter
