import StorageAtlas.Proofs.Address.FilterArguments
import StorageAtlas.Proofs.Address.FilterConversion
import StorageAtlas.Proofs.Address.FilterOfWritten

/-!
The grammar of filters, and what the reader makes of it. A part is omitted, a
wildcard, the letter of namespaces, a number or a unit in hexadecimal, and a
bracket may close it. The reader looks at the beginning of a part only: it goes
by the first wildcard or the first digits and passes over what stands behind
them, and of a part in which a bracket stands it asks nothing. So it accepts
more than the documented filters, and these exactly where nothing but a bracket
is left over.
-/

namespace StorageAtlas

/-- The bytes of a tagged field are those that its digits show. -/
theorem Address.DenotesLun.bytes_of_tagged {tag : Char} {body : Text} {n : Nat}
    (htag : tag = 'x' ∨ tag = 'X') (h : DenotesLun ('0' :: tag :: body) n) :
    ∃ bytes : Bytes, Bytes.hex bytes = Text.lower (Strict.evened (body.filter (· ≠ '_'))) ∧
      Lun.toNat (bytes.padEnd 8) = .ok n := by
  generalize hfield : '0' :: tag :: body = field at h
  cases h with
  | invalid => cases hfield
  | decimal digits =>
    have hdigit : tag.isDigit = false := by
      rcases htag with rfl | rfl
      · rfl
      · rfl
    exact absurd (by simp [← hfield]) (AddressFilter.not_mem_of_isAsciiDigits digits hdigit)
  | hex tagged digits number back =>
    obtain ⟨-, -, rfl⟩ : '0' = '0' ∧ tag = _ ∧ body = _ := by simpa using hfield
    exact ⟨_, digits, number⟩

theorem Address.readLun_tagged_iff {tag : Char} {body : Text} {n : Nat}
    (htag : tag = 'x' ∨ tag = 'X') :
    readLun ('0' :: tag :: body) = .ok n ↔
      IsLunText ('0' :: tag :: body) ∧ DenotesLun ('0' :: tag :: body) n := by
  have hread : ∀ {m}, readLun ('0' :: tag :: body) = .ok m → DenotesLun ('0' :: tag :: body) m := by
    intro m hm
    obtain ⟨lun, hlun, hdenotes⟩ := exists_readLun (isLunText_of_readLun hm)
    obtain rfl := Except.ok.inj (hlun.symm.trans hm)
    exact hdenotes
  constructor
  · exact fun h => ⟨isLunText_of_readLun h, hread h⟩
  · rintro ⟨hform, hdenotes⟩
    obtain ⟨m, hm, hsame⟩ := exists_readLun hform
    obtain ⟨bytes, hbytes, hn⟩ := hdenotes.bytes_of_tagged htag
    obtain ⟨others, hothers, hm'⟩ := hsame.bytes_of_tagged htag
    -- the digits show one sequence of bytes only, so the two numbers are one
    have hhex := congrArg Bytes.ofHex? (hbytes.trans hothers.symm)
    rw [Bytes.ofHex?_hex, Bytes.ofHex?_hex] at hhex
    obtain rfl := Option.some.inj hhex
    obtain rfl := Except.ok.inj (hn.symm.trans hm')
    exact hm

namespace AddressFilter

open Text (isAsciiDigits ofDecimal)

/-! ## Documented filters -/

/-- The number that a tagged field denotes: bytes from the left in a unit, else an id. -/
def DenotesField : Bool → Text → Nat → Prop
  | false, field, n => Address.IsLunText field ∧ Address.DenotesLun field n
  | true, field, n => Address.DenotesNamespace field n

/-- The documented parts with their values. -/
inductive DenotesPart (nvme : Bool) (position : Nat) : Text → Option Int → Prop
  | omitted : DenotesPart nvme position [] none
  | wildcard {c : Char} (isWildcard : c = '-' ∨ c = '*' ∨ c = '?') :
      DenotesPart nvme position [c] none
  | namespaces {c : Char} (first : position = 0) (isLetter : c = 'N' ∨ c = 'n') :
      DenotesPart nvme position [c] (some Address.nvmeHost)
  | number {digits : Text} (isNumber : isAsciiDigits digits = true) :
      DenotesPart nvme position digits (some (ofDecimal digits : Int))
  | tagged {tag : Char} {body : Text} {n : Nat} (last : position = 3)
      (isTag : tag = 'x' ∨ tag = 'X') (denotes : DenotesField nvme ('0' :: tag :: body) n) :
      DenotesPart nvme position ('0' :: tag :: body) (some (n : Int))

/-- The letter of namespaces with a bracket behind it. -/
def isClosedLetter (part : Text) : Bool := part = "N]" || part = "n]"

/-- Does a documented filter select namespaces? -/
def namesNamespaces (args : List Text) : Bool :=
  selectsNamespaces args || isClosedLetter (partAt args 0)

/-- At most one bracket opens the text. -/
def HasOneOpening (args : List Text) : Prop :=
  ((argumentText args).takeWhile isOpening).count '[' ≤ 1

/-- The documented filters: each part is a documented one, and a bracket may close it. -/
structure Documented (args : List Text) (f : AddressFilter) : Prop where
  shape : HasShape args
  opening : HasOneOpening args
  denotes : ∀ position < 4, ∃ body close, partAt args position = body ++ close ∧ IsClose close ∧
    DenotesPart (namesNamespaces args) position body (f.component position)

/-! ## What the reader looks at -/

/-- `Reads nvme position part value rest`: the reader finds the value, and passes over the rest. -/
inductive Reads (nvme : Bool) (position : Nat) : Text → Option Int → Text → Prop
  | omitted : Reads nvme position [] none []
  | wildcard {c : Char} {rest : Text} (isWildcard : c = '-' ∨ c = '*' ∨ c = '?') :
      Reads nvme position (c :: rest) none rest
  | namespaces {c : Char} (first : position = 0) (isLetter : c = 'N' ∨ c = 'n') :
      Reads nvme position [c] (some Address.nvmeHost) []
  | number {digits rest : Text} (isNumber : isAsciiDigits digits = true)
      (ends : ∀ c ∈ rest.head?, c.isDigit = false)
      (untagged : position = 3 → Address.hasHexTag (digits ++ rest) = false) :
      Reads nvme position (digits ++ rest) (some (ofDecimal digits : Int)) rest
  | tagged {tag : Char} {body close : Text} {n : Nat} (last : position = 3)
      (isTag : tag = 'x' ∨ tag = 'X') (denotes : DenotesField nvme ('0' :: tag :: body) n)
      (closes : ∀ c ∈ close, c = ']') :
      Reads nvme position ('0' :: tag :: body ++ close) (some (n : Int)) close
  | bracket {c : Char} {rest : Text} (noWildcard : ¬(c = '-' ∨ c = '*' ∨ c = '?'))
      (noDigit : c.isDigit = false) (closes : ']' ∈ c :: rest) :
      Reads nvme position (c :: rest) none (c :: rest)

variable {nvme : Bool} {position : Nat} {part : Text} {value : Option Int}

/-- A tagged field is read as the number that it denotes. -/
theorem readField_eq_ok_iff {tag : Char} {body : Text} (htag : tag = 'x' ∨ tag = 'X')
    (shown : Text) {n : Nat} :
    (if nvme then Address.readNamespace ('0' :: tag :: body) shown
      else Address.readLun ('0' :: tag :: body)) = .ok n ↔
      DenotesField nvme ('0' :: tag :: body) n := by
  cases nvme with
  | true =>
    rw [if_pos rfl]
    exact ⟨Address.denotesNamespace_of_read, fun h => Address.readNamespace_of_denotes h shown⟩
  | false =>
    rw [if_neg Bool.false_ne_true]
    exact Address.readLun_tagged_iff htag

theorem not_mem_tagged {tag : Char} {body : Text} (htag : tag = 'x' ∨ tag = 'X')
    (hbody : ∀ c ∈ body, Address.IsHexSign c ∨ c = '_') : ']' ∉ '0' :: tag :: body := by
  intro hmem
  rcases List.mem_cons.1 hmem with hzero | hmem
  · exact absurd hzero (by decide)
  · rcases List.mem_cons.1 hmem with rfl | hmem
    · exact absurd htag (by decide)
    · exact absurd (hbody _ hmem) (by decide)

theorem not_mem_of_denotesField {field : Text} {n : Nat} (h : DenotesField nvme field n) :
    ']' ∉ field := by
  cases nvme with
  | false =>
    cases h.1 with
    | invalid => decide
    | decimal digits room => exact not_mem_of_isAsciiDigits digits rfl
    | hex tagged digits some room => exact not_mem_tagged tagged digits
  | true =>
    change Address.DenotesNamespace field n at h
    cases h with
    | invalid => decide
    | decimal digits room => exact not_mem_of_isAsciiDigits digits rfl
    | hex tagged digits some room => exact not_mem_tagged tagged fun c hc => .inl (digits c hc)

theorem exists_append_dropEndWhile (part : Text) :
    ∃ close : Text, (∀ c ∈ close, c = ']') ∧
      part = Text.dropEndWhile (· = ']') part ++ close := by
  refine ⟨(part.reverse.takeWhile (· = ']')).reverse, ?_, ?_⟩
  · intro c hc
    exact of_decide_eq_true (List.mem_takeWhile_imp (p := (· = ']')) (List.mem_reverse.1 hc))
  · rw [Text.dropEndWhile, ← List.reverse_append, List.takeWhile_append_dropWhile,
      List.reverse_reverse]

theorem isNvmeSign_of_mem (h : ']' ∈ part) : isNvmeSign part = false := by
  refine Bool.eq_false_iff.2 fun hsign => ?_
  obtain ⟨letter, hletter, rfl⟩ := isNvmeSign_iff.1 hsign
  obtain rfl := List.mem_singleton.1 h
  exact absurd hletter (by decide)

theorem hasHexTag_of_not_isDigit {c : Char} (h : c.isDigit = false) (r : Text) :
    Address.hasHexTag (c :: r) = false := by
  refine Bool.eq_false_iff.2 fun htag => ?_
  obtain ⟨tag, body, -, hpart⟩ := Address.hasHexTag_iff.1 htag
  obtain ⟨rfl, -⟩ := List.cons.inj hpart
  cases h

theorem readPart_of_reads {rest : Text} (h : Reads nvme position part value rest) :
    readPart nvme position part = .ok value := by
  cases h with
  | omitted => rfl
  | wildcard isWildcard => rw [readPart, if_pos (isWildcard_iff.2 isWildcard)]
  | namespaces first isLetter =>
    subst first
    rcases isLetter with rfl | rfl
    · rfl
    · rfl
  | number isNumber ends untagged => exact readPart_number isNumber ends untagged
  | @tagged tag body _ n last isTag denotes closes =>
    have hdrop := dropEndWhile_append (not_mem_of_denotesField denotes) closes
    have hpart : '0' :: tag :: body ++ rest = '0' :: tag :: (body ++ rest) := rfl
    rw [hpart] at hdrop ⊢
    subst last
    refine (readPart_tagged_eq_ok_iff isTag).2 ⟨n, rfl, ?_⟩
    rw [hdrop]
    exact (readField_eq_ok_iff isTag _).2 denotes
  | @bracket c rest noWildcard noDigit closes =>
    have hwild : isWildcard c = false := Bool.eq_false_iff.2 (isWildcard_iff.not.2 noWildcard)
    have hsign := isNvmeSign_of_mem closes
    have htag := hasHexTag_of_not_isDigit noDigit rest
    have hwhile : (c :: rest).takeWhile Char.isDigit = [] :=
      List.takeWhile_cons_of_neg (by simp [noDigit])
    rw [readPart_plain hwild (fun _ => hsign) (fun _ => htag), hwhile, if_neg (not_not_intro rfl),
      if_pos closes]

/-- The tag stays when the brackets behind a tagged part are taken away. -/
theorem exists_tagged_append {tag : Char} (body : Text) (htag : tag = 'x' ∨ tag = 'X') :
    ∃ field close : Text, body = field ++ close ∧ (∀ c ∈ close, c = ']') ∧
      Text.dropEndWhile (· = ']') ('0' :: tag :: body) = '0' :: tag :: field := by
  obtain ⟨close, hclose, hpart⟩ := exists_append_dropEndWhile ('0' :: tag :: body)
  generalize Text.dropEndWhile (· = ']') ('0' :: tag :: body) = whole at hpart
  match whole with
  | [] =>
    obtain rfl : '0' :: tag :: body = close := hpart
    exact absurd (hclose '0' List.mem_cons_self) (by decide)
  | [_] =>
    obtain rfl : tag :: body = close := (List.cons.inj hpart).2
    obtain rfl := hclose tag List.mem_cons_self
    exact absurd htag (by decide)
  | zero :: letter :: field =>
    obtain ⟨rfl, hrest⟩ := List.cons.inj hpart
    obtain ⟨rfl, rfl⟩ := List.cons.inj hrest
    exact ⟨field, close, rfl, hclose, rfl⟩

/-- Digits at the beginning, or a bracket anywhere, are what a part without a wildcard, the letter
and a tag is accepted for. -/
theorem exists_reads_of_plain {c : Char} {r : Text} (hwild : isWildcard c = false)
    (hsign : position = 0 → isNvmeSign (c :: r) = false)
    (htag : position = 3 → Address.hasHexTag (c :: r) = false)
    (h : readPart nvme position (c :: r) = .ok value) :
    ∃ rest, Reads nvme position (c :: r) value rest := by
  rw [readPart_plain hwild hsign htag] at h
  split at h
  · rename_i hdigits
    obtain rfl := Except.ok.inj h
    have hends : ∀ d ∈ ((c :: r).dropWhile Char.isDigit).head?, d.isDigit = false := by
      intro d hd
      have := List.head?_dropWhile_not Char.isDigit (c :: r)
      rw [Option.mem_def.1 hd] at this
      exact this
    have hnumber : isAsciiDigits ((c :: r).takeWhile Char.isDigit) = true :=
      Address.Strict.isAsciiDigits_of_runs (List.isEmpty_eq_false_iff.2 hdigits)
        fun d hd => List.mem_takeWhile_imp hd
    have hread := @Reads.number nvme position _ _ hnumber hends
    rw [List.takeWhile_append_dropWhile] at hread
    exact ⟨_, hread htag⟩
  · split at h
    · rename_i hdigits hclose
      obtain rfl := Except.ok.inj h
      have hdigit : c.isDigit = false := by
        refine Bool.eq_false_iff.2 fun hdigit => hdigits ?_
        rw [List.takeWhile_cons_of_pos hdigit]
        exact List.cons_ne_nil c _
      have hnone := isWildcard_iff.not.1 (ne_true_of_eq_false hwild)
      exact ⟨c :: r, .bracket hnone hdigit hclose⟩
    · cases h

theorem exists_reads_of_readPart (h : readPart nvme position part = .ok value) :
    ∃ rest, Reads nvme position part value rest := by
  cases part with
  | nil =>
    obtain rfl := Except.ok.inj h
    exact ⟨[], .omitted⟩
  | cons c r =>
    by_cases hwild : isWildcard c = true
    · rw [readPart, if_pos hwild] at h
      obtain rfl := Except.ok.inj h
      exact ⟨r, .wildcard (isWildcard_iff.1 hwild)⟩
    by_cases hsign : position = 0 ∧ isNvmeSign (c :: r) = true
    · obtain ⟨rfl, hsign⟩ := hsign
      obtain ⟨letter, hletter, hpart⟩ := isNvmeSign_iff.1 hsign
      have hread : Reads nvme 0 [letter] (some Address.nvmeHost) [] := .namespaces rfl hletter
      rw [hpart] at h ⊢
      obtain rfl := Except.ok.inj ((readPart_of_reads hread).symm.trans h)
      exact ⟨[], hread⟩
    by_cases htag : position = 3 ∧ Address.hasHexTag (c :: r) = true
    · obtain ⟨rfl, htag⟩ := htag
      obtain ⟨tag, body, hletter, hpart⟩ := Address.hasHexTag_iff.1 htag
      rw [hpart] at h ⊢
      obtain ⟨n, rfl, hread⟩ := (readPart_tagged_eq_ok_iff hletter).1 h
      obtain ⟨field, close, rfl, hclose, hfield⟩ := exists_tagged_append body hletter
      rw [hfield] at hread
      exact ⟨close, .tagged rfl hletter ((readField_eq_ok_iff hletter _).1 hread) hclose⟩
    exact exists_reads_of_plain (Bool.eq_false_iff.2 hwild) (by simpa using hsign)
      (by simpa using htag) h

/-- A part is accepted exactly if the reader finds something to go by in it. -/
theorem readPart_eq_ok_iff :
    readPart nvme position part = .ok value ↔ ∃ rest, Reads nvme position part value rest := by
  constructor
  · exact exists_reads_of_readPart
  · rintro ⟨rest, h⟩
    exact readPart_of_reads h

/-! ## Documented parts as the reader sees them -/

theorem isClosedLetter_iff {part : Text} :
    isClosedLetter part = true ↔ ∃ c, (c = 'N' ∨ c = 'n') ∧ part = [c, ']'] := by
  simp only [isClosedLetter, Bool.or_eq_true, decide_eq_true_eq]
  constructor
  · rintro (rfl | rfl)
    · exact ⟨'N', .inl rfl, rfl⟩
    · exact ⟨'n', .inr rfl, rfl⟩
  · rintro ⟨c, rfl | rfl, rfl⟩
    · exact .inl rfl
    · exact .inr rfl

/-- A documented part is read as its value, but for the letter with a bracket behind it. -/
theorem reads_of_denotes {body close : Text} (hclose : IsClose close)
    (hletter : position = 0 → isClosedLetter (body ++ close) = false)
    (h : DenotesPart nvme position body value) :
    Reads nvme position (body ++ close) value close := by
  cases h with
  | omitted =>
    rcases hclose with rfl | rfl
    · exact .omitted
    · exact .bracket (by decide) rfl (by decide)
  | wildcard isWildcard => exact .wildcard isWildcard
  | @namespaces c first isLetter =>
    rcases hclose with rfl | rfl
    · exact .namespaces first isLetter
    · have hclosed : isClosedLetter [c, ']'] = true := isClosedLetter_iff.2 ⟨c, isLetter, rfl⟩
      exact absurd hclosed (ne_true_of_eq_false (hletter first))
  | number isNumber =>
    exact .number isNumber (head?_of_isClose hclose) fun _ => hasHexTag_digits isNumber hclose
  | tagged last isTag denotes => exact .tagged last isTag denotes (eq_of_mem_close hclose)

/-- What is read up to the bracket is a documented part. -/
theorem exists_denotes_of_reads {close : Text} (hclose : IsClose close)
    (h : Reads nvme position part value close) :
    ∃ body, part = body ++ close ∧ DenotesPart nvme position body value := by
  cases h with
  | omitted => exact ⟨[], rfl, .omitted⟩
  | wildcard isWildcard => exact ⟨_, rfl, .wildcard isWildcard⟩
  | namespaces first isLetter => exact ⟨_, rfl, .namespaces first isLetter⟩
  | number isNumber => exact ⟨_, rfl, .number isNumber⟩
  | tagged last isTag denotes => exact ⟨_, rfl, .tagged last isTag denotes⟩
  | bracket => exact ⟨[], rfl, .omitted⟩

/-- The letter with a bracket behind it is read as an open host, which it does not denote. -/
theorem not_isClosedLetter_of_denotes {names : Bool} {body close : Text} (hclose : IsClose close)
    (hread : readPart nvme 0 (body ++ close) = .ok value)
    (h : DenotesPart names 0 body value) : isClosedLetter (body ++ close) = false := by
  refine Bool.eq_false_iff.2 fun hletter => ?_
  obtain ⟨c, hc, hpart⟩ := isClosedLetter_iff.1 hletter
  obtain rfl : none = value := by
    rw [hpart] at hread
    rcases hc with rfl | rfl
    · exact Except.ok.inj hread
    · exact Except.ok.inj hread
  -- without a value the part denotes nothing or a wildcard, and the letter is neither
  cases h with
  | omitted =>
    rcases hclose with rfl | rfl
    · cases hpart
    · cases hpart
  | wildcard isWildcard =>
    obtain ⟨rfl, -⟩ := List.cons.inj hpart
    rcases hc with rfl | rfl
    · exact absurd isWildcard (by decide)
    · exact absurd isWildcard (by decide)

/-! ## Whole filters -/

/-- Nothing but a bracket is left over behind any part. -/
def IsRegular (args : List Text) (f : AddressFilter) : Prop :=
  HasOneOpening args ∧ ∀ position < 4, ∃ close, IsClose close ∧
    Reads (selectsNamespaces args) position (partAt args position) (f.component position) close

variable {args : List Text} {f : AddressFilter}

theorem parse_eq_ok_iff_reads :
    parse args = .ok f ↔ HasShape args ∧ ∀ position < 4, ∃ rest,
      Reads (selectsNamespaces args) position (partAt args position) (f.component position)
        rest := by
  simp only [parse_eq_ok_iff, readPart_eq_ok_iff]

theorem namesNamespaces_eq (h : isClosedLetter (partAt args 0) = false) :
    namesNamespaces args = selectsNamespaces args := by
  rw [namesNamespaces, h, Bool.or_false]

theorem Documented.isRegular (h : Documented args f)
    (hletter : isClosedLetter (partAt args 0) = false) : IsRegular args f := by
  refine ⟨h.opening, fun position hposition => ?_⟩
  obtain ⟨body, close, hpart, hclose, hbody⟩ := h.denotes position hposition
  rw [namesNamespaces_eq hletter] at hbody
  rw [hpart]
  refine ⟨close, hclose, reads_of_denotes hclose ?_ hbody⟩
  rintro rfl
  rwa [← hpart]

theorem Documented.not_isClosedLetter (h : Documented args f) (hparse : parse args = .ok f) :
    isClosedLetter (partAt args 0) = false := by
  have hread := (parse_eq_ok_iff.1 hparse).2 0 (by decide)
  obtain ⟨body, close, hpart, hclose, hbody⟩ := h.denotes 0 (by decide)
  rw [hpart] at hread ⊢
  exact not_isClosedLetter_of_denotes hclose hread hbody

theorem IsRegular.documented (h : IsRegular args f) (hshape : HasShape args) :
    Documented args f := by
  have hletter : isClosedLetter (partAt args 0) = false := by
    obtain ⟨close, hclose, hread⟩ := h.2 0 (by decide)
    obtain ⟨body, hpart, hbody⟩ := exists_denotes_of_reads hclose hread
    have hvalue := readPart_of_reads hread
    rw [hpart] at hvalue ⊢
    exact not_isClosedLetter_of_denotes hclose hvalue hbody
  refine ⟨hshape, h.1, fun position hposition => ?_⟩
  obtain ⟨close, hclose, hread⟩ := h.2 position hposition
  obtain ⟨body, hpart, hbody⟩ := exists_denotes_of_reads hclose hread
  rw [namesNamespaces_eq hletter]
  exact ⟨body, close, hpart, hclose, hbody⟩

theorem IsRegular.parse_eq (h : IsRegular args f) (hshape : HasShape args) :
    parse args = .ok f := by
  refine parse_eq_ok_iff_reads.2 ⟨hshape, fun position hposition => ?_⟩
  obtain ⟨close, -, hread⟩ := h.2 position hposition
  exact ⟨close, hread⟩

/-- Reading ends with a filter or a refusal. Accepted is what has the shape of a filter and in each
part something to go by. This takes in the documented filters, but for a bracket right behind the
letter, and an accepted one is documented exactly if nothing but a bracket is left over. -/
theorem parse_filterGrammar (args : List Text) :
    ((∃ f, Strict.parse args = .ok f ∧ parse args = .ok f) ∨
      ∃ e, Strict.parse args = .error (.refused e) ∧ parse args = .error e) ∧
    ∀ f : AddressFilter,
      (parse args = .ok f ↔ HasShape args ∧ ∀ position < 4, ∃ rest,
        Reads (selectsNamespaces args) position (partAt args position) (f.component position)
          rest) ∧
      (parse args = .ok f → (Documented args f ↔ IsRegular args f)) ∧
      (Documented args f → isClosedLetter (partAt args 0) = false → parse args = .ok f) := by
  constructor
  · rw [Strict.parse_eq]
    cases parse args with
    | ok f => exact .inl ⟨f, rfl, rfl⟩
    | error e => exact .inr ⟨e, rfl, rfl⟩
  · intro f
    refine ⟨parse_eq_ok_iff_reads, fun hparse => ⟨fun h => ?_, fun h => ?_⟩, fun h hletter => ?_⟩
    · exact h.isRegular (h.not_isClosedLetter hparse)
    · exact h.documented (hasShape_of_parse hparse)
    · exact (h.isRegular hletter).parse_eq h.shape

/-- Four documented parts in brackets. -/
theorem parse_filterGrammar_namespaces :
    Documented ["[N:-:1:0x03]"] ⟨some Address.nvmeHost, none, some 1, some 3⟩ := by
  have hparse : parse ["[N:-:1:0x03]"] = .ok ⟨some Address.nvmeHost, none, some 1, some 3⟩ := by
    decide +kernel
  have hparts : parts ["[N:-:1:0x03]"] = [("N" : Text), "-", "1", "0x03]"] := by decide +kernel
  have hselects : selectsNamespaces ["[N:-:1:0x03]"] = true := by decide +kernel
  have hopening : HasOneOpening ["[N:-:1:0x03]"] := by
    unfold HasOneOpening
    decide +kernel
  have hid : DenotesField true "0x03" 3 :=
    @Address.DenotesNamespace.hex 'x' "03" (.inl rfl) (Address.all_isHexDigit_iff.1 (by decide))
      (by decide) (by decide)
  refine (((parse_filterGrammar _).2 _).2.1 hparse).2 ⟨hopening, fun position hposition => ?_⟩
  rw [hselects, partAt, hparts]
  interval_cases position
  · exact ⟨[], .inl rfl, .namespaces rfl (.inl rfl)⟩
  · exact ⟨[], .inl rfl, .wildcard (.inl rfl)⟩
  · exact ⟨[], .inl rfl, @Reads.number true 2 ['1'] [] rfl (by simp) (by simp)⟩
  · have hclose : IsClose [']'] := .inr rfl
    exact ⟨[']'], hclose,
      @Reads.tagged true 3 'x' ['0', '3'] [']'] 3 rfl (.inl rfl) hid (eq_of_mem_close hclose)⟩

theorem Documented.denotesPart (h : Documented args f) (hposition : position < 4)
    (hpart : ']' ∉ partAt args position) :
    DenotesPart (namesNamespaces args) position (partAt args position) (f.component position) := by
  obtain ⟨body, close, hsplit, hclose, hbody⟩ := h.denotes position hposition
  rcases hclose with rfl | rfl
  · rwa [hsplit, List.append_nil]
  · exact absurd (by simp [hsplit]) hpart

/-- Of more than one character only numbers are documented for the host. -/
theorem isAsciiDigits_of_denotes {names : Bool} (h : DenotesPart names 0 part value)
    (hlong : 1 < part.length) : isAsciiDigits part = true := by
  cases h with
  | omitted => cases hlong
  | wildcard => exact absurd hlong (Nat.lt_irrefl 1)
  | namespaces => exact absurd hlong (Nat.lt_irrefl 1)
  | number isNumber => exact isNumber
  | tagged last => cases last

/-- A letter behind the digits, and the tag of a hexadecimal number that is not the last part: both
are read as the digits before them. -/
theorem parse_leadingDigits :
    (parse ["2x"] = .ok (hostOnly 2) ∧ ∀ f, ¬ Documented ["2x"] f) ∧
      (parse ["0x10"] = .ok (hostOnly 0) ∧ ∀ f, ¬ Documented ["0x10"] f) := by
  have hnot : ∀ {part : Text}, partAt [part] 0 = part → ']' ∉ part → 1 < part.length →
      isAsciiDigits part = false → ∀ f, ¬ Documented [part] f := by
    intro part hpart hbracket hlong hnumber f h
    have hdenotes : DenotesPart (namesNamespaces [part]) 0 (partAt [part] 0) (f.component 0) :=
      h.denotesPart (by decide) (by rwa [hpart])
    rw [hpart] at hdenotes
    rw [isAsciiDigits_of_denotes hdenotes hlong] at hnumber
    cases hnumber
  exact ⟨⟨by decide +kernel, hnot (by decide +kernel) (by decide) (by decide) (by decide)⟩,
    by decide +kernel, hnot (by decide +kernel) (by decide) (by decide) (by decide)⟩

end AddressFilter
end StorageAtlas
