import StorageAtlas.Proofs.Address.HostNumber
import StorageAtlas.Proofs.Address.NamespaceGrammar
import StorageAtlas.Proofs.Address.RoundTrip

/-!
A written address, with brackets or without, as a filter: its parts are those of
the address, so it selects what has the same four numbers. Only minus one, which
the decimal form writes for a unit of all ones, is a wildcard here and leaves
the unit open.
-/

namespace StorageAtlas.AddressFilter

open Address (IsField invalidText)
open Text (isAsciiDigits ofDecimal)

/-- What may stand behind the last field. -/
def IsClose (close : Text) : Prop := close = [] ∨ close = [']']

/-! ## Parts -/

theorem ne_of_isField {field : Text} (h : IsField field) {c : Char}
    (hc : Address.isSign c = false) :
    ∀ d ∈ field, d ≠ c := by
  rintro d hd rfl
  rw [(h d hd).1] at hc
  cases hc

theorem eq_of_mem_close {close : Text} (h : IsClose close) : ∀ c ∈ close, c = ']' := by
  rcases h with rfl | rfl
  · simp
  · exact fun c hc => List.mem_singleton.1 hc

theorem head?_of_isClose {close : Text} (h : IsClose close) :
    ∀ c ∈ close.head?, c.isDigit = false := by
  rcases h with rfl | rfl
  · simp
  · rintro c ⟨⟩
    rfl

theorem isBlank_of_mem_close {close : Text} (hclose : IsClose close) :
    ∀ c ∈ close, Text.isBlank c = false := by
  rcases hclose with rfl | rfl
  · simp
  · simp only [List.mem_singleton, forall_eq]
    decide

/-- The blanks around a part are not in it. -/
theorem trim_field {field close : Text} (h : IsField field) (hclose : IsClose close) :
    Text.trim (field ++ close) = field ++ close := by
  refine Address.trim_eq_self fun c hc => ?_
  rcases List.mem_append.1 hc with hc | hc
  · exact Address.isBlank_of_isSign (h c hc).1
  · exact isBlank_of_mem_close hclose c hc

theorem dropClose {field close : Text} (h : IsField field) (hclose : IsClose close) :
    Text.dropEndWhile (· = ']') (field ++ close) = field := by
  refine dropEndWhile_append (fun hc => ?_) (eq_of_mem_close hclose)
  exact ne_of_isField h rfl ']' hc rfl

theorem hasHexTag_digits {digits close : Text} (h : isAsciiDigits digits = true)
    (hclose : IsClose close) : Address.hasHexTag (digits ++ close) = false := by
  refine Bool.eq_false_iff.2 fun htag => ?_
  obtain ⟨tag, body, hletter, htext⟩ := Address.hasHexTag_iff.1 htag
  have hmem : tag ∈ digits ++ close := by simp [htext]
  have hdigit : tag.isDigit = false := by
    rcases hletter with rfl | rfl
    · rfl
    · rfl
  rcases List.mem_append.1 hmem with hc | hc
  · exact not_mem_of_isAsciiDigits h hdigit hc
  · rcases hclose with rfl | rfl
    · cases hc
    · obtain rfl := List.mem_singleton.1 hc
      revert hletter
      decide

/-- Digits are a number in every part of a filter. -/
theorem readPart_digits {digits close : Text} (h : isAsciiDigits digits = true)
    (hclose : IsClose close) (nvme : Bool) (position : Nat) :
    readPart nvme position (digits ++ close) = .ok (some (ofDecimal digits : Int)) :=
  readPart_number h (head?_of_isClose hclose) fun _ => hasHexTag_digits h hclose

/-- A tagged last part is read without the bracket behind it. -/
theorem readPart_tagged (nvme : Bool) {tag : Char} {body close : Text} {n : Nat}
    (htag : tag = 'x' ∨ tag = 'X') (hfield : IsField ('0' :: tag :: body)) (hclose : IsClose close)
    (hn : (if nvme then Address.readNamespace ('0' :: tag :: body) ('0' :: tag :: body ++ close)
      else Address.readLun ('0' :: tag :: body)) = .ok n) :
    readPart nvme 3 ('0' :: tag :: body ++ close) = .ok (some (n : Int)) := by
  have hdrop := dropClose hfield hclose
  rw [List.cons_append, List.cons_append] at hn hdrop ⊢
  refine (readPart_tagged_eq_ok_iff htag).2 ⟨n, rfl, ?_⟩
  rw [hdrop]
  exact hn

/-- As a part of a filter a LUN is the number that it is in an address, but for minus one. -/
theorem readPart_lun {field close : Text} {n : Nat} (hfield : IsField field)
    (hclose : IsClose close) (hread : Address.readLun field = .ok n) :
    readPart false 3 (field ++ close) =
      .ok (if field = invalidText then none else some (n : Int)) := by
  cases Address.isLunText_of_readLun hread with
  | invalid =>
    rcases hclose with rfl | rfl
    · rfl
    · rfl
  | decimal digits room =>
    rw [Address.readLun_of_isAsciiDigits digits room] at hread
    obtain rfl := Except.ok.inj hread
    rw [readPart_digits digits hclose false 3,
      if_neg (Address.ne_invalidText_of_isAsciiDigits digits)]
  | hex tagged digits some room =>
    rw [readPart_tagged false tagged hfield hclose hread, if_neg (by simp [invalidText])]

/-- The same of namespace ids. -/
theorem readPart_namespace {field close : Text} {n : Nat} (hfield : IsField field)
    (hclose : IsClose close) (hread : ∀ text, Address.readNamespace field text = .ok n) :
    readPart true 3 (field ++ close) =
      .ok (if field = invalidText then none else some (n : Int)) := by
  cases Address.denotesNamespace_of_read (hread []) with
  | invalid =>
    rcases hclose with rfl | rfl
    · rfl
    · rfl
  | decimal digits room =>
    rw [readPart_digits digits hclose true 3,
      if_neg (Address.ne_invalidText_of_isAsciiDigits digits)]
  | hex tagged digits some room =>
    rw [readPart_tagged true tagged hfield hclose (hread _), if_neg (by simp [invalidText])]

/-! ## Whole filters -/

theorem not_mem_of_isField {field close : Text} (h : IsField field) (hclose : IsClose close) :
    ':' ∉ field ++ close := by
  intro hc
  rcases List.mem_append.1 hc with hc | hc
  · exact (h ':' hc).2 rfl
  · rcases hclose with rfl | rfl
    · cases hc
    · exact absurd hc (by decide)

/-- Blanks and brackets before a field are passed over. -/
theorem dropOpening {opening host : Text} (hopening : opening = [] ∨ opening = ['['])
    (hhost : IsField host) (hne : host ≠ []) (rest : Text) :
    (opening ++ (host ++ rest)).dropWhile (fun c => c = ' ' || c = '\t' || c = '[') =
      host ++ rest := by
  obtain ⟨c, r, rfl⟩ := List.exists_cons_of_ne_nil hne
  have hc : (c = ' ' || c = '\t' || c = '[') = false := by
    have hspace := ne_of_isField hhost (rfl : Address.isSign ' ' = false) c List.mem_cons_self
    have htab := ne_of_isField hhost (rfl : Address.isSign '\t' = false) c List.mem_cons_self
    have hbracket := ne_of_isField hhost (rfl : Address.isSign '[' = false) c List.mem_cons_self
    simp [hspace, htab, hbracket]
  rcases hopening with rfl | rfl
  · simp [hc]
  · simp [hc]

/-- Four fields are four parts, and the two in the middle are numbers. -/
theorem readText_fields {opening host channel target unit close : Text} {value lun : Option Int}
    (hopening : opening = [] ∨ opening = ['[']) (hclose : IsClose close) (hhost : IsField host)
    (hne : host ≠ []) (hc : isAsciiDigits channel = true) (ht : isAsciiDigits target = true)
    (hu : IsField unit) (hvalue : readPart (isNvmeSign host) 0 host = .ok value)
    (hlun : readPart (isNvmeSign host) 3 (unit ++ close) = .ok lun) :
    readText (opening ++ Text.join [':'] [host, channel, target, unit] ++ close) =
      .ok ⟨value, some (ofDecimal channel : Int), some (ofDecimal target : Int), lun⟩ := by
  have hnone : IsClose [] := .inl rfl
  have hchannel := Address.isField_of_isAsciiDigits hc
  have htarget := Address.isField_of_isAsciiDigits ht
  have hfields : ∀ field ∈ [host, channel, target, unit ++ close],
      ':' ∉ field ∧ Text.trim field = field := by
    have hplain : ∀ {field : Text}, IsField field → ':' ∉ field ∧ Text.trim field = field := by
      intro field hfield
      have hcolon := not_mem_of_isField hfield hnone
      have htrim := trim_field hfield hnone
      rw [List.append_nil] at hcolon htrim
      exact ⟨hcolon, htrim⟩
    simp only [List.forall_mem_cons]
    exact ⟨hplain hhost, hplain hchannel, hplain htarget,
      ⟨not_mem_of_isField hu hclose, trim_field hu hclose⟩, by simp⟩
  have hsplit : Text.splitOn ':' (Text.join [':'] [host, channel, target, unit ++ close]) =
      [host, channel, target, unit ++ close] :=
    Text.splitOn_join (by simp) fun field hf => (hfields field hf).1
  have htrim : [host, channel, target, unit ++ close].map Text.trim =
      [host, channel, target, unit ++ close] :=
    (List.map_congr_left fun field hf => (hfields field hf).2).trans (List.map_id' _)
  have hmiddle := readPart_digits hc hnone (isNvmeSign host) 1
  have hthird := readPart_digits ht hnone (isNvmeSign host) 2
  have htext : opening ++ Text.join [':'] [host, channel, target, unit] ++ close =
      opening ++ (host ++ ':' :: Text.join [':'] [channel, target, unit ++ close]) := by
    simp [Text.join]
  have hjoin : host ++ ':' :: Text.join [':'] [channel, target, unit ++ close] =
      Text.join [':'] [host, channel, target, unit ++ close] := by
    simp [Text.join]
  rw [List.append_nil] at hmiddle hthird
  rw [readText, htext, dropOpening hopening hhost hne]
  obtain ⟨c, r, rfl⟩ := List.exists_cons_of_ne_nil hne
  simp only [List.cons_append]
  rw [← List.cons_append, hjoin, hsplit, htrim]
  simp [readParts, hvalue, hmiddle, hthird, hlun, Except.map, ofParts]

/-- The argument is taken as it is if no word stands before the host. -/
theorem parse_of_head {arg : Text} {c : Char} {rest : Text} (harg : arg = c :: rest)
    (hc : c.toLower ≠ 'h') : parse [arg] = readText arg := by
  have hword : Text.lower (arg.take 4) ≠ "host" := by
    intro hlower
    have hhead := congrArg List.head? hlower
    rw [harg, Text.lower, List.take_succ_cons, List.map_cons, List.head?_cons] at hhead
    exact hc (Option.some.inj hhead)
  rw [parse, dropHostWord, if_neg hword]

/-- The same of an argument, as long as the first field is not the beginning of a word. -/
theorem parse_fields {opening host channel target unit close : Text} {value lun : Option Int}
    (hopening : opening = [] ∨ opening = ['[']) (hclose : IsClose close) (hhost : IsField host)
    (hne : host ≠ []) (hlower : ∀ c ∈ host, c.toLower ≠ 'h') (hc : isAsciiDigits channel = true)
    (ht : isAsciiDigits target = true) (hu : IsField unit)
    (hvalue : readPart (isNvmeSign host) 0 host = .ok value)
    (hlun : readPart (isNvmeSign host) 3 (unit ++ close) = .ok lun) :
    parse [opening ++ Text.join [':'] [host, channel, target, unit] ++ close] =
      .ok ⟨value, some (ofDecimal channel : Int), some (ofDecimal target : Int), lun⟩ := by
  rw [← readText_fields hopening hclose hhost hne hc ht hu hvalue hlun]
  obtain ⟨c, r, rfl⟩ := List.exists_cons_of_ne_nil hne
  rcases hopening with rfl | rfl
  · exact parse_of_head rfl (hlower c List.mem_cons_self)
  · exact parse_of_head rfl (by decide)

/-! ## Written addresses -/

/-- A unit of all ones. -/
def isLast (a : Address) : Bool :=
  a.lun = (if a.isNvme then Address.lastNamespace else Lun.last : Nat)

/-- The four parts of an address as a filter; the decimal form leaves a unit of all ones open. -/
def ofAddress (f : LunFormat) (a : Address) : AddressFilter :=
  ⟨some a.host, some a.channel, some a.target,
    if f = .decimal ∧ isLast a = true then none else some a.lun⟩

theorem agrees_some_iff {wanted actual : Int} :
    agrees (some wanted) (some actual) = true ↔ actual = wanted := by
  rw [agrees, decide_eq_true_eq]
  exact eq_comm

theorem selects_ofAddress_iff (f : LunFormat) (a b : Address) :
    (ofAddress f a).selects b = true ↔ b.host = a.host ∧ b.channel = a.channel ∧
      b.target = a.target ∧ (b.lun = a.lun ∨ f = .decimal ∧ isLast a = true) := by
  simp only [selects, allows, ofAddress, Bool.and_eq_true, agrees_some_iff, and_assoc]
  by_cases hlast : f = .decimal ∧ isLast a = true
  · have hopen : agrees none (some b.lun) = true := rfl
    rw [if_pos hlast, hopen]
    tauto
  · rw [if_neg hlast, agrees_some_iff]
    tauto

/-- The text of an address at a level, plain and in brackets, is the filter of its parts. -/
def FiltersFor (level : Int) (a : Address) : Prop :=
  ∃ f t, LunFormat.ofLevel level = .ok f ∧ Address.format f a = .ok t ∧
    (∀ shown ∈ [t, '[' :: t ++ [']']], parse [shown] = .ok (ofAddress f a)) ∧
    ∀ b, (ofAddress f a).selects b = true ↔ b.host = a.host ∧ b.channel = a.channel ∧
      b.target = a.target ∧ (b.lun = a.lun ∨ f = .decimal ∧ isLast a = true)

/-- Only the decimal form writes a unit as minus one, and only one of all ones. -/
theorem lunText_eq_invalid_iff {f : LunFormat} (hf : f ≠ .hex) (host channel target : Int)
    (lun : Nat) {field : Text}
    (h : Address.lunText f (Address.ofLun host channel target lun) = .ok field) :
    field = invalidText ↔
      f = .decimal ∧ isLast (Address.ofLun host channel target lun) = true := by
  cases f with
  | hex => exact absurd rfl hf
  | fullHex =>
    obtain rfl := Except.ok.inj h
    simp [invalidText]
  | decimal =>
    obtain rfl := Except.ok.inj h
    have hlast :
        isLast (Address.ofLun host channel target lun) = true ↔ (lun : Int) = Lun.last := by
      simp [isLast, Address.ofLun, Address.isNvme]
    rw [hlast]
    by_cases hlun : (lun : Int) = Lun.last
    · simp [Address.ofLun, hlun, invalidText]
    · have hne : Text.signed lun ≠ invalidText :=
        Address.ne_invalidText_of_isAsciiDigits (Text.isAsciiDigits_decimal lun)
      simp [Address.ofLun, hlun, hne]

theorem namespaceText_eq_invalid_iff (f : LunFormat) (minor controller : Int) {id : Nat}
    (h : id ≤ Address.lastNamespace) :
    Address.namespaceText f id = invalidText ↔
      f = .decimal ∧ isLast (Address.nvme minor controller id) = true := by
  have hid : ((id : Int) % 0x100000000).toNat = id := by
    simp only [Address.lastNamespace] at h
    omega
  cases f with
  | hex => simp [Address.namespaceText, invalidText]
  | fullHex => simp [Address.namespaceText, invalidText]
  | decimal =>
    have hlast : isLast (Address.nvme minor controller id) = true ↔ id = Address.lastNamespace := by
      simp only [isLast, Address.nvme, Address.isNvme, decide_true, if_true, decide_eq_true_eq]
      omega
    rw [hlast, Address.namespaceText]
    simp only [hid]
    by_cases hone : id = Address.lastNamespace
    · simp [hone, invalidText]
    · have hne : Text.decimal id ≠ invalidText :=
        Address.ne_invalidText_of_isAsciiDigits (Text.isAsciiDigits_decimal id)
      simp [hone, hne]

/-- The two ways to show a text are fields in an opening and a closing. -/
theorem forall_shown {p : Text → Prop} {t : Text}
    (h : ∀ opening close, (opening = [] ∨ opening = ['[']) → IsClose close →
      p (opening ++ t ++ close)) : ∀ shown ∈ [t, '[' :: t ++ [']']], p shown := by
  intro shown hshown
  simp only [List.mem_cons, List.not_mem_nil, or_false] at hshown
  rcases hshown with rfl | rfl
  · simpa using h [] [] (.inl rfl) (.inl rfl)
  · exact h ['['] [']'] (.inr rfl) (.inr rfl)

theorem filtersFor_ofLun (host channel target : Nat) {lun : Nat} (h : lun ≤ Lun.last)
    {level : Int} {f : LunFormat} (hlevel : LunFormat.ofLevel level = .ok f) (hf : f ≠ .hex) :
    FiltersFor level (Address.ofLun host channel target lun) := by
  obtain ⟨field, htext, hfield, hread⟩ := Address.exists_lunField host channel target h hf
  have hhost := Text.isAsciiDigits_decimal host
  have hsign := isNvmeSign_of_isAsciiDigits hhost
  have hlower : ∀ c ∈ Text.decimal host, c.toLower ≠ 'h' := by
    intro c hc
    have hdigit := Text.isDigit_of_mem_decimal hc
    rw [Address.toLower_of_isDigit hdigit]
    rintro rfl
    exact absurd hdigit (by decide)
  refine ⟨f, Text.join [':'] [Text.decimal host, Text.decimal channel, Text.decimal target, field],
    hlevel, ?_, forall_shown fun opening close hopening hclose => ?_, selects_ofAddress_iff f _⟩
  · simp only [Address.format, htext, Except.map]
    simp [Address.ofLun, Address.isNvme, Text.join, Text.signed]
  · have hvalue := readPart_of_isAsciiDigits hhost false
    have hlun := readPart_lun hfield hclose hread
    rw [← hsign] at hvalue hlun
    rw [parse_fields hopening hclose (Address.isField_of_isAsciiDigits hhost)
      (Text.decimal_ne_nil host) hlower (Text.isAsciiDigits_decimal channel)
      (Text.isAsciiDigits_decimal target) hfield hvalue hlun]
    have hinvalid := lunText_eq_invalid_iff hf host channel target lun htext
    simp only [Text.ofDecimal_decimal, hinvalid]
    rfl

theorem filtersFor_nvme (minor controller : Nat) {id : Nat} (h : id ≤ Address.lastNamespace)
    {level : Int} {f : LunFormat} (hlevel : LunFormat.ofLevel level = .ok f) :
    FiltersFor level (Address.nvme minor controller id) := by
  obtain ⟨field, htext, hfield, hread⟩ := Address.exists_namespaceField f h
  have hhost : IsField ['N'] := by
    intro c hc
    rw [List.mem_singleton.1 hc]
    decide
  have hlower : ∀ c ∈ ['N'], c.toLower ≠ 'h' := by
    intro c hc
    rw [List.mem_singleton.1 hc]
    decide
  refine ⟨f, Text.join [':'] [['N'], Text.decimal minor, Text.decimal controller, field],
    hlevel, ?_, forall_shown fun opening close hopening hclose => ?_, selects_ofAddress_iff f _⟩
  · simp [Address.format, Address.lunText, Address.nvme, htext, Address.isNvme, Text.join,
      Text.signed, Except.map]
  · have hlun := readPart_namespace hfield hclose hread
    rw [parse_fields hopening hclose hhost (by simp) hlower (Text.isAsciiDigits_decimal minor)
      (Text.isAsciiDigits_decimal controller) hfield rfl hlun]
    have hinvalid := namespaceText_eq_invalid_iff f minor controller h
    rw [htext] at hinvalid
    simp only [Text.ofDecimal_decimal, hinvalid]
    rfl

/-- Written in full or as a decimal number, and for namespaces in every form, an address is the
filter of its four numbers. -/
theorem filtersFor_of_written :
    (∀ host channel target lun : Nat, lun < 2 ^ 64 → ∀ level : Int, level = 0 ∨ 2 ≤ level →
      ∃ a, Address.scsi host channel target lun = .ok a ∧ FiltersFor level a) ∧
    (∀ minor controller id : Nat, id < 2 ^ 32 → ∀ level : Int, 0 ≤ level →
      FiltersFor level (Address.nvme minor controller id)) := by
  constructor
  · intro host channel target lun hlun level hlevel
    have hle : lun ≤ Lun.last := Nat.le_of_lt_succ hlun
    refine ⟨_, Address.scsi_natCast host channel target hle, ?_⟩
    rcases hlevel with rfl | hlevel
    · exact filtersFor_ofLun host channel target hle (f := .decimal) rfl (by decide)
    · exact filtersFor_ofLun host channel target hle (Address.ofLevel_of_two_le hlevel) (by decide)
  · intro minor controller id hid level hlevel
    obtain ⟨f, hf⟩ := Address.exists_ofLevel hlevel
    exact filtersFor_nvme minor controller (Nat.le_of_lt_succ hid) hf

/-- A LUN of two levels in full, and a namespace with four hexadecimal digits. -/
theorem filtersFor_levels :
    (0x00050102 < 2 ^ 64 ∧ ∃ a, Address.scsi 2 0 1 (0x00050102 : Nat) = .ok a ∧ FiltersFor 2 a) ∧
      (5 < 2 ^ 32 ∧ FiltersFor 1 (Address.nvme 1 2 (5 : Nat))) :=
  ⟨⟨by decide, filtersFor_of_written.1 2 0 1 _ (by decide) 2 (.inr (by decide))⟩,
    by decide, filtersFor_of_written.2 1 2 _ (by decide) 1 (by decide)⟩

end StorageAtlas.AddressFilter
