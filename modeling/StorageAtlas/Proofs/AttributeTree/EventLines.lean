import StorageAtlas.Proofs.AttributeTree.FirstLine

/-!
The two places where the kernel tells the number of a device: the attribute `dev`,
and two lines among those of the event file. Written there in decimal, both are read
as the same number, whatever else the event file tells.
-/

namespace StorageAtlas

namespace Text

/-! ## Lines -/

/-- Is it free of line breaks? -/
def IsUnbroken (t : Text) : Prop := ∀ c ∈ t, isLineBreak c = false

-- by the members of the text: there are finitely many characters, but too many to try
instance : DecidablePred IsUnbroken := List.decidableBAll _

variable {t : Text}

theorem lines_cons {c : Char} (h : isLineBreak c = false) (r : Text) :
    lines (c :: r) = match lines r with
      | [] => [[c]]
      | line :: rest => (c :: line) :: rest := by
  have hreturn : c ≠ '\r' := by
    rintro rfl
    exact absurd h (by decide)
  rw [lines.eq_3 c r (by rintro r' rfl; exact fun _ => hreturn rfl), h]
  rfl

theorem lines_append_feed (h : IsUnbroken t) (r : Text) :
    lines (t ++ '\n' :: r) = t :: lines r := by
  induction t with
  | nil => rfl
  | cons c t ih =>
    obtain ⟨hc, ht⟩ := List.forall_mem_cons.1 h
    rw [List.cons_append, lines_cons hc, ih ht]

theorem lines_of_isUnbroken (h : IsUnbroken t) (hne : t ≠ []) : lines t = [t] := by
  induction t with
  | nil => exact absurd rfl hne
  | cons c t ih =>
    obtain ⟨hc, ht⟩ := List.forall_mem_cons.1 h
    rw [lines_cons hc]
    cases t with
    | nil => rfl
    | cons d r => rw [ih ht (by simp)]

/-- What is searched for among the lines is found where they were joined, unless it is an empty
line: there is none behind the last line feed. -/
theorem findSome?_lines_join {β : Type} {f : Text → Option β} (hf : f [] = none)
    {texts : List Text} (h : ∀ t ∈ texts, IsUnbroken t) :
    (lines (join ['\n'] texts)).findSome? f = texts.findSome? f := by
  induction texts with
  | nil => rfl
  | cons t rest ih =>
    obtain ⟨ht, hrest⟩ := List.forall_mem_cons.1 h
    cases rest with
    | nil =>
      by_cases hne : t = []
      · subst hne
        simp [join, lines, hf]
      · rw [join, lines_of_isUnbroken ht hne]
    | cons u rest =>
      rw [join, List.append_assoc, List.singleton_append, lines_append_feed ht,
        List.findSome?_cons, List.findSome?_cons, ih hrest]

theorem cut?_append_cons {sep : Char} (h : sep ∉ t) (u : Text) :
    cut? sep (t ++ sep :: u) = some (t, u) := by
  induction t with
  | nil => simp [cut?]
  | cons c t ih =>
    simp only [List.mem_cons, not_or] at h
    rw [List.cons_append, cut?, if_neg (Ne.symm h.1), ih h.2]

end Text

/-- What only one member can give is found exactly if this member is there. -/
theorem findSome?_of_only {α β : Type} {f : α → Option β} {l : List α} {a : α} {b : β}
    [Decidable (a ∈ l)] (ha : f a = some b) (h : ∀ x ∈ l, x = a ∨ f x = none) :
    l.findSome? f = if a ∈ l then some b else none := by
  split
  · rename_i hmem
    obtain ⟨before, after, hl, hbefore⟩ := List.eq_append_cons_of_mem hmem
    refine List.findSome?_eq_some_iff.2 ⟨before, a, after, hl, ha, fun x hx => ?_⟩
    exact (h x (by simp [hl, hx])).resolve_left (ne_of_mem_of_not_mem hx hbefore)
  · rename_i hmem
    refine List.findSome?_eq_none_iff.2 fun x hx => ?_
    exact (h x hx).resolve_left (ne_of_mem_of_not_mem hx hmem)

namespace AttributeTree

open Utf8

/-! ## One key among the lines -/

/-- The line that gives a key this number. -/
def eventLine (key : Text) (n : Nat) : Text := key ++ '=' :: Text.decimal n

/-- Lines of which no other one has this key. -/
def Tells (key : Text) (n : Nat) (lines : List Bytes) : Prop :=
  ∀ line ∈ lines, line = encode (eventLine key n) ∨
    Text.IsUnbroken (decodeLossy line) ∧ eventValue? key (decodeLossy line) = none

section Key

variable {key other : Text} {n : Nat} {lines : List Bytes}

theorem eventValue?_eventLine (h : ∀ c ∈ other, Address.isSign c = true) :
    eventValue? key (eventLine other n) =
      if other = key then some (Text.decimal n) else none := by
  have hequals : '=' ∉ other := fun hmem => absurd (h _ hmem) (by decide)
  have hother : Text.trim other = other :=
    Address.trim_eq_self fun c hc => Address.isBlank_of_isSign (h c hc)
  have hdecimal : Text.trim (Text.decimal n) = Text.decimal n := by
    refine Address.trim_eq_self fun c hc => ?_
    exact Address.isBlank_of_isSign (Address.isSign_of_isDigit (Text.isDigit_of_mem_decimal hc))
  rw [eventValue?, eventLine, Text.cut?_append_cons hequals]
  simp only [hother, hdecimal]

theorem isUnbroken_eventLine (h : ∀ c ∈ key, Address.isSign c = true) :
    Text.IsUnbroken (eventLine key n) := by
  have hsign : ∀ c, Address.isSign c = true → Text.isLineBreak c = false := fun c hc =>
    Bool.eq_false_iff.2 fun hbreak => by
      simpa [Address.isBlank_of_isSign hc] using Text.isBlank_of_isLineBreak hbreak
  intro c hc
  rcases List.mem_append.1 hc with hc | hc
  · exact hsign c (h c hc)
  · rcases List.mem_cons.1 hc with rfl | hc
    · rfl
    · exact hsign c (Address.isSign_of_isDigit (Text.isDigit_of_mem_decimal hc))

/-- The key has its number where its line is there, wherever that is, and none where it is not. -/
theorem readEvent_of_tells {s : AttributeTree} {directory : Text}
    (hkey : ∀ c ∈ key, Address.isSign c = true) (h : Tells key n lines)
    (hlines : s.readBytes directory "uevent" = some ([10].intercalate lines)) :
    s.readEvent directory key =
      if encode (eventLine key n) ∈ lines then some (Text.decimal n) else none := by
  have hunbroken : ∀ t ∈ lines.map decodeLossy, Text.IsUnbroken t := by
    intro t ht
    obtain ⟨line, hline, rfl⟩ := List.mem_map.1 ht
    rcases h line hline with rfl | hother
    · rw [decodeLossy_encode]
      exact isUnbroken_eventLine hkey
    · exact hother.1
  rw [readEvent, hlines, Option.bind_some, decodeLossy_intercalate,
    Text.findSome?_lines_join rfl hunbroken, List.findSome?_map]
  refine findSome?_of_only ?_ fun line hline => ?_
  · rw [Function.comp_apply, decodeLossy_encode, eventValue?_eventLine hkey, if_pos rfl]
  · exact (h line hline).imp_right And.right

end Key

/-! ## Both keys -/

/-- A line that tells neither part of a device number. -/
def IsOther (line : Text) : Prop :=
  Text.IsUnbroken line ∧
    ∀ parts ∈ Text.cut? '=' line, Text.trim parts.1 ≠ "MAJOR" ∧ Text.trim parts.1 ≠ "MINOR"

instance : DecidablePred IsOther := fun _ => inferInstanceAs (Decidable (_ ∧ _))

theorem isSign_of_mem_key {key : Text} (h : key = "MAJOR" ∨ key = "MINOR") :
    ∀ c ∈ key, Address.isSign c = true := by
  rcases h with rfl | rfl
  · exact List.all_eq_true.1 (by decide)
  · exact List.all_eq_true.1 (by decide)

theorem IsOther.eventValue? {key line : Text} (h : IsOther line)
    (hkey : key = "MAJOR" ∨ key = "MINOR") : AttributeTree.eventValue? key line = none := by
  unfold AttributeTree.eventValue?
  cases hcut : Text.cut? '=' line with
  | none => rfl
  | some parts =>
    obtain ⟨hmajor, hminor⟩ := h.2 parts hcut
    refine if_neg ?_
    rcases hkey with rfl | rfl
    · exact hmajor
    · exact hminor

/-- A device number in decimal, as the kernel writes it. -/
def numberText (major minor : Nat) : Text := Text.decimal major ++ ':' :: Text.decimal minor

variable {s : AttributeTree} {directory : Text} {major minor : Nat} {lines : List Bytes}

/-- The attribute `dev` gives the number in its first line. -/
def DevTells (s : AttributeTree) (directory : Text) (major minor : Nat) : Prop :=
  s.readBytes directory "dev" = some (encode (numberText major minor)) ∨
    ∃ rest, s.readBytes directory "dev" = some (encode (numberText major minor) ++ 10 :: rest)

/-- There is nothing in `dev`, and the lines of the event file, with line feeds between them, tell no
other number. The last line is empty where the file ends in a line feed. -/
structure EventsTell (s : AttributeTree) (directory : Text) (major minor : Nat)
    (lines : List Bytes) : Prop where
  lacksDev : s.read directory "dev" = none ∨ s.read directory "dev" = some []
  content : s.readBytes directory "uevent" = some ([10].intercalate lines)
  told : ∀ line ∈ lines, line = encode (eventLine "MAJOR" major) ∨
    line = encode (eventLine "MINOR" minor) ∨ IsOther (decodeLossy line)

namespace EventsTell

theorem tells_major (h : s.EventsTell directory major minor lines) :
    Tells "MAJOR" major lines := by
  intro line hline
  rcases h.told line hline with hmajor | rfl | hother
  · exact .inl hmajor
  · have hkey := isSign_of_mem_key (.inr rfl)
    rw [decodeLossy_encode, eventValue?_eventLine hkey]
    exact .inr ⟨isUnbroken_eventLine hkey, rfl⟩
  · exact .inr ⟨hother.1, hother.eventValue? (.inl rfl)⟩

theorem tells_minor (h : s.EventsTell directory major minor lines) :
    Tells "MINOR" minor lines := by
  intro line hline
  rcases h.told line hline with rfl | hminor | hother
  · have hkey := isSign_of_mem_key (.inl rfl)
    rw [decodeLossy_encode, eventValue?_eventLine hkey]
    exact .inr ⟨isUnbroken_eventLine hkey, rfl⟩
  · exact .inl hminor
  · exact .inr ⟨hother.1, hother.eventValue? (.inr rfl)⟩

end EventsTell

theorem isSign_of_mem_numberText {c : Char} (h : c ∈ numberText major minor) :
    Address.isSign c = true := by
  rcases List.mem_append.1 h with hc | hc
  · exact Address.isSign_of_isDigit (Text.isDigit_of_mem_decimal hc)
  · rcases List.mem_cons.1 hc with rfl | hc
    · rfl
    · exact Address.isSign_of_isDigit (Text.isDigit_of_mem_decimal hc)

theorem parseNumber_numberText (major minor : Nat) :
    parseNumber (numberText major minor) = some ⟨major, minor⟩ := by
  have hcolon : ':' ∉ Text.decimal major := fun hmem =>
    absurd (Text.isDigit_of_mem_decimal hmem) (by decide)
  have hread (n : Nat) : Text.integer? 10 (Text.decimal n) = some (n : Int) := by
    rw [Text.integer?_of_isAsciiDigits (Text.isAsciiDigits_decimal n), Text.ofDecimal_decimal]
  rw [parseNumber, Address.trim_eq_self fun c hc =>
    Address.isBlank_of_isSign (isSign_of_mem_numberText hc), numberText,
    Text.cut?_append_cons hcolon]
  simp [hread]

theorem read_of_devTells (h : s.DevTells directory major minor) :
    s.read directory "dev" = some (numberText major minor) := by
  refine read_asciiLine (fun hfeed => ?_) (fun c hc => ?_) h
  · exact absurd (isSign_of_mem_numberText hfeed) (by decide)
  · have hrange := Address.toNat_of_isSign (isSign_of_mem_numberText hc)
    exact Nat.lt_of_le_of_lt hrange.2 (by decide)

theorem deviceNumber_of_devTells (h : s.DevTells directory major minor) :
    s.deviceNumber directory = some ⟨major, minor⟩ := by
  have hread := read_of_devTells h
  rw [← parseNumber_numberText]
  unfold deviceNumber
  cases htext : numberText major minor with
  | nil => exact absurd htext (by simp [numberText])
  | cons c r => rw [hread, htext]

theorem deviceNumber_of_lacksDev
    (h : s.read directory "dev" = none ∨ s.read directory "dev" = some []) :
    s.deviceNumber directory =
      (s.readEvent directory "MAJOR").bind fun first =>
        (s.readEvent directory "MINOR").bind fun second => parseNumber (first ++ ":" ++ second) := by
  unfold deviceNumber
  rcases h with hdev | hdev
  all_goals
    rw [hdev]
    cases s.readEvent directory "MAJOR" with
    | none => rfl
    | some first => cases s.readEvent directory "MINOR" <;> rfl

theorem deviceNumber_of_eventsTell (h : s.EventsTell directory major minor lines) :
    s.deviceNumber directory =
      if encode (eventLine "MAJOR" major) ∈ lines ∧ encode (eventLine "MINOR" minor) ∈ lines then
        some ⟨major, minor⟩
      else none := by
  rw [deviceNumber_of_lacksDev h.lacksDev,
    readEvent_of_tells (isSign_of_mem_key (.inl rfl)) h.tells_major h.content,
    readEvent_of_tells (isSign_of_mem_key (.inr rfl)) h.tells_minor h.content]
  by_cases hmajor : encode (eventLine "MAJOR" major) ∈ lines
  · by_cases hminor : encode (eventLine "MINOR" minor) ∈ lines
    · rw [if_pos hmajor, if_pos hminor, if_pos ⟨hmajor, hminor⟩, ← parseNumber_numberText,
        numberText, Option.bind_some, Option.bind_some, List.append_assoc]
      rfl
    · rw [if_pos hmajor, if_neg hminor, Option.bind_some, Option.bind_none,
        if_neg fun hboth => hminor hboth.2]
  · rw [if_neg hmajor, Option.bind_none, if_neg fun hboth => hmajor hboth.1]

/-- Both places give the same number, and the event file gives none if one of its lines lacks. -/
theorem deviceNumber_of_told :
    (s.DevTells directory major minor → s.deviceNumber directory = some ⟨major, minor⟩) ∧
    ∀ lines, s.EventsTell directory major minor lines →
      s.deviceNumber directory =
        if encode (eventLine "MAJOR" major) ∈ lines ∧ encode (eventLine "MINOR" minor) ∈ lines then
          some ⟨major, minor⟩
        else none :=
  ⟨deviceNumber_of_devTells, fun _ => deviceNumber_of_eventsTell⟩

/-- Two disks that tell their numbers in the attribute and in the event file, and one that tells only
half of it. -/
def threeDisks : AttributeTree :=
  mounted ([("a/dev", encode "8:16\n"), ("b/dev", []),
    ("b/uevent", encode "DEVNAME=sdb\nMINOR=16\nMAJOR=8\n"),
    ("c/uevent", encode "MAJOR=8\nDEVTYPE")].foldl
    (fun t (name, bytes) => t.put (Path.ofText ("/sys/" ++ name)) (.file bytes)) {}) "/sys"

theorem deviceNumber_threeDisks :
    threeDisks.deviceNumber "/sys/a" = some ⟨8, 16⟩ ∧
      threeDisks.deviceNumber "/sys/b" = some ⟨8, 16⟩ ∧
      threeDisks.deviceNumber "/sys/c" = none := by
  refine ⟨?_, ?_, ?_⟩
  · exact deviceNumber_of_told.1 (.inr ⟨[], by decide +kernel⟩)
  · have hlines := deviceNumber_of_told.2
      [encode "DEVNAME=sdb", encode (eventLine "MINOR" 16), encode (eventLine "MAJOR" 8), []]
      (show threeDisks.EventsTell "/sys/b" 8 16 _ from
        ⟨by decide +kernel, by decide +kernel, by decide +kernel⟩)
    rwa [if_pos (by simp)] at hlines
  · have hlines := deviceNumber_of_told.2 [encode (eventLine "MAJOR" 8), encode "DEVTYPE"]
      (show threeDisks.EventsTell "/sys/c" 8 16 _ from
        ⟨by decide +kernel, by decide +kernel, by decide +kernel⟩)
    rwa [if_neg (by decide +kernel)] at hlines

end AttributeTree
end StorageAtlas
