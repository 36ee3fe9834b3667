import StorageAtlas.Proofs.Address.KernelName
import StorageAtlas.Proofs.Address.UnitGrammar

/-!
The grammar of namespaces, and what the reader makes of it. A kernel name is a
word, a number and suffixes of a letter and a number each; the other form has
four fields. The reader takes suffixes as they come, up to the first text that
is none, and does not look at what the first field holds. So it reads exactly
the documented texts where nothing is left over, the suffixes stand in their
order and the first field is the letter, and it gives an address for others too.
-/

namespace StorageAtlas.Address

open Text (isAsciiDigits ofDecimal)

/-! ## Namespace ids -/

/-- The forms of a namespace id as text, each with the number that it denotes. -/
inductive DenotesNamespace : Text → Nat → Prop
  | invalid : DenotesNamespace "-1" (2 ^ 32 - 1)
  | decimal {field : Text} (digits : isAsciiDigits field = true) (room : ofDecimal field < 2 ^ 32) :
      DenotesNamespace field (ofDecimal field)
  | hex {tag : Char} {body : Text} (tagged : tag = 'x' ∨ tag = 'X')
      (digits : ∀ c ∈ body, IsHexSign c) (some : 1 ≤ body.length) (room : body.length ≤ 8) :
      DenotesNamespace ('0' :: tag :: body) (Text.ofHexadecimal body)

theorem all_isHexDigit_iff {body : Text} :
    body.all isHexDigit = true ↔ ∀ c ∈ body, IsHexSign c := by
  rw [List.all_eq_true]
  exact forall₂_congr fun c _ => isHexDigit_iff

theorem denotesNamespace_of_read {field text : Text} {n : Nat}
    (h : readNamespace field text = .ok n) : DenotesNamespace field n := by
  unfold readNamespace at h
  split at h
  · rename_i hinvalid
    obtain rfl := Except.ok.inj h
    exact hinvalid ▸ .invalid
  · split at h
    · rename_i htag
      obtain ⟨tag, body, hletter, rfl⟩ := hasHexTag_iff.1 htag
      simp only at h
      split at h
      · rename_i hbody
        obtain rfl := Except.ok.inj h
        simp only [Bool.and_eq_true, decide_eq_true_eq, Bool.not_eq_true', List.drop_succ_cons,
          List.drop_zero, List.isEmpty_eq_false_iff, List.length_cons] at hbody
        exact .hex hletter (all_isHexDigit_iff.1 hbody.2) (List.length_pos_iff.2 hbody.1.2)
          (by omega)
      · cases h
    · split at h
      · rename_i hdigits
        obtain rfl := Except.ok.inj h
        simp only [Bool.and_eq_true, decide_eq_true_eq] at hdigits
        exact .decimal hdigits.1 (Nat.lt_succ_of_le hdigits.2)
      · cases h

theorem readNamespace_of_denotes {field : Text} {n : Nat} (h : DenotesNamespace field n)
    (text : Text) : readNamespace field text = .ok n := by
  cases h with
  | invalid => rfl
  | decimal digits room => exact readNamespace_of_isAsciiDigits digits (Nat.le_of_lt_succ room) text
  | hex tagged digits some room =>
    rename_i tag body
    have htag : hasHexTag ('0' :: tag :: body) = true := hasHexTag_iff.2 ⟨tag, body, tagged, rfl⟩
    have hvalid : '0' :: tag :: body ≠ invalidText := by simp [invalidText]
    have hshort : body.length < 9 := Nat.lt_succ_of_le room
    have hne : body ≠ [] := List.length_pos_iff.1 some
    rw [readNamespace, if_neg hvalid, if_pos htag]
    simp [hshort, hne, all_isHexDigit_iff.2 digits]

theorem not_mem_of_denotesNamespace {field : Text} {n : Nat} (h : DenotesNamespace field n) :
    ':' ∉ field := by
  cases h with
  | invalid => decide
  | decimal digits room => exact fun hc => (isField_of_isAsciiDigits digits ':' hc).2 rfl
  | hex tagged digits some room =>
    intro hc
    rcases List.mem_cons.1 hc with hc | hc
    · exact absurd hc (by decide)
    · rcases List.mem_cons.1 hc with rfl | hc
      · rcases tagged with h | h
        · exact absurd h (by decide)
        · exact absurd h (by decide)
      · exact absurd (digits ':' hc) (by decide)

/-! ## Readings -/

/-- A kernel name, with what stands behind it. -/
structure KernelName where
  word : Text
  minor : Text
  suffixes : List (Char × Text)
  rest : Text
  isWord : Text.lower word = "nvme"
  isNumber : isAsciiDigits minor = true
  areSuffixes : ∀ suffix ∈ suffixes, isSuffixLetter suffix.1 = true ∧ isAsciiDigits suffix.2 = true
  ends : endsName rest = true

/-- Four fields, of which the first may hold anything but the word. -/
structure NamespaceFields where
  first : Text
  minor : Text
  controller : Text
  id : Text
  unit : Nat
  isField : ':' ∉ first
  isNoWord : Text.lower (first.take 4) ≠ "nvme"
  minorIsNumber : isAsciiDigits minor = true
  controllerIsNumber : isAsciiDigits controller = true
  denotes : DenotesNamespace id unit

/-- What the reader finds in a text that it accepts. -/
inductive Reading where
  | name (k : KernelName)
  | fields (f : NamespaceFields)

namespace Reading

def text : Reading → Text
  | name k => k.word ++ k.minor ++ suffixesText k.suffixes ++ k.rest
  | fields f => Text.join [':'] [f.first, f.minor, f.controller, f.id]

def address : Reading → Address
  | name k => named k.minor k.suffixes
  | fields f => nvme (ofDecimal f.minor) (ofDecimal f.controller) f.unit

/-- Nothing is left over, each suffix stands at most once and in its place, and the first field is
the letter. -/
def IsRegular : Reading → Prop
  | name k => k.rest = [] ∧ (k.suffixes.map Prod.fst).Sublist ['c', 'n', 'p']
  | fields f => f.first = ['N'] ∨ f.first = ['n']

end Reading

/-- The documented texts with the namespaces that they denote; the case of letters does not
count. -/
inductive Documented : Text → Address → Prop
  | name {word minor : Text} {suffixes : List (Char × Text)} (isWord : Text.lower word = "nvme")
      (isNumber : isAsciiDigits minor = true)
      (areNumbers : ∀ suffix ∈ suffixes, isAsciiDigits suffix.2 = true)
      (inOrder : (suffixes.map fun suffix => suffix.1.toLower).Sublist ['c', 'n', 'p']) :
      Documented (word ++ minor ++ suffixesText suffixes)
        (named minor (suffixes.map fun suffix => (suffix.1.toLower, suffix.2)))
  | fields {first minor controller id : Text} {unit : Nat}
      (isLetter : first = ['N'] ∨ first = ['n'])
      (minorIsNumber : isAsciiDigits minor = true)
      (controllerIsNumber : isAsciiDigits controller = true) (denotes : DenotesNamespace id unit) :
      Documented (Text.join [':'] [first, minor, controller, id])
        (nvme (ofDecimal minor) (ofDecimal controller) unit)

/-! ## What the reader finds -/

theorem length_of_isWord {word : Text} (h : Text.lower word = "nvme") : word.length = 4 := by
  have := congrArg List.length h
  rw [Text.lower, List.length_map] at this
  exact this

/-- The word stands in the first field or nowhere. -/
theorem lower_take_iff (first rest : Text) :
    Text.lower ((first ++ ':' :: rest).take 4) = "nvme" ↔ Text.lower (first.take 4) = "nvme" := by
  match first with
  | [] => simp [Text.lower]
  | [a] => simp [Text.lower]
  | [a, b] => simp [Text.lower]
  | [a, b, c] => simp [Text.lower]
  | a :: b :: c :: d :: r => simp [Text.lower]

theorem Reading.text_name (k : KernelName) :
    (Reading.name k).text = k.word ++ (k.minor ++ (suffixesText k.suffixes ++ k.rest)) := by
  simp only [Reading.text, List.append_assoc]

theorem Reading.text_fields (f : NamespaceFields) :
    (Reading.fields f).text = f.first ++ ':' :: Text.join [':'] [f.minor, f.controller, f.id] := by
  simp [Reading.text, Text.join]

theorem Reading.isWord_name (k : KernelName) :
    Text.lower ((Reading.name k).text.take 4) = "nvme" := by
  rw [text_name, List.take_left' (length_of_isWord k.isWord), k.isWord]

theorem Reading.isNoWord_fields (f : NamespaceFields) :
    Text.lower ((Reading.fields f).text.take 4) ≠ "nvme" := by
  rw [text_fields]
  exact fun h => f.isNoWord ((lower_take_iff _ _).1 h)

theorem Reading.splitOn_fields (f : NamespaceFields) :
    Text.splitOn ':' (Reading.fields f).text = [f.first, f.minor, f.controller, f.id] := by
  refine Text.splitOn_join (by simp) fun field hfield => ?_
  simp only [List.mem_cons, List.not_mem_nil, or_false] at hfield
  rcases hfield with rfl | rfl | rfl | rfl
  · exact f.isField
  · exact fun hc => (isField_of_isAsciiDigits f.minorIsNumber ':' hc).2 rfl
  · exact fun hc => (isField_of_isAsciiDigits f.controllerIsNumber ':' hc).2 rfl
  · exact not_mem_of_denotesNamespace f.denotes

theorem readNvmeName_of_reading (k : KernelName) :
    readNvmeName (Reading.name k).text = .ok (Reading.name k).address := by
  obtain ⟨hminor, hsuffixes⟩ := runs_name k.isNumber k.areSuffixes k.ends
  have hne : k.minor.isEmpty = false := by
    have := k.isNumber
    simp only [isAsciiDigits, Bool.and_eq_true, Bool.not_eq_true'] at this
    exact this.1
  have hparts : NvmeName.parts? (k.minor ++ (suffixesText k.suffixes ++ k.rest)) =
      some (ofDecimal k.minor,
        (NvmeName.runs (k.minor ++ (suffixesText k.suffixes ++ k.rest))).2) := by
    simp only [NvmeName.parts?, hminor, hne, Bool.false_eq_true, if_false]
  rw [Reading.text_name, readNvmeName, List.drop_left' (length_of_isWord k.isWord), hparts]
  simp only [applySuffixes_eq_lastNumber, hsuffixes]
  rfl

theorem exists_name_of_read {s : Text} {a : Address} (hword : Text.lower (s.take 4) = "nvme")
    (h : readNvmeName s = .ok a) :
    ∃ k : KernelName, (Reading.name k).text = s ∧ (Reading.name k).address = a := by
  obtain ⟨hdigits, hnumbers⟩ := Strict.isDigit_of_mem_runs (t := s.drop 4)
  have hletters := isDigit_of_mem_runs_letters (t := s.drop 4)
  have htext := runs_text (s.drop 4)
  unfold readNvmeName NvmeName.parts? at h
  cases hruns : NvmeName.runs (s.drop 4) with
  | mk minor suffixes =>
    rw [hruns] at h hdigits hnumbers hletters htext
    simp only at hdigits hnumbers hletters htext
    cases hempty : minor.isEmpty with
    | true => simp [hempty] at h
    | false =>
      simp only [hempty, Bool.false_eq_true, if_false, applySuffixes_eq_lastNumber] at h
      -- what is not taken is left over as it stands
      have hdrop := List.dropWhile_sublist isTaken (l := suffixes)
      have hrest := runs_suffixesText (fun suffix hs => hletters suffix (hdrop.subset hs))
        (fun suffix hs => hnumbers suffix (hdrop.subset hs)) (rfl : (NvmeName.runs []).1 = [])
      rw [List.append_nil] at hrest
      have hends : endsName (suffixesText (suffixes.dropWhile isTaken)) = true := by
        refine endsName_iff.2 ⟨by rw [hrest], ?_⟩
        rw [hrest, NvmeName.runs, List.append_nil]
        refine List.takeWhile_eq_nil_iff.2 fun hl => ?_
        exact List.dropWhile_get_zero_not isTaken suffixes hl
      have htaken : ∀ suffix ∈ suffixes.takeWhile isTaken,
          isSuffixLetter suffix.1 = true ∧ isAsciiDigits suffix.2 = true := by
        intro suffix hs
        have htake : isTaken suffix = true := List.mem_takeWhile_imp hs
        have htake := Bool.and_eq_true_iff.1 htake
        refine ⟨htake.1, Strict.isAsciiDigits_of_runs (by simpa using htake.2) ?_⟩
        exact hnumbers suffix ((List.takeWhile_sublist isTaken).subset hs)
      refine ⟨⟨s.take 4, minor, suffixes.takeWhile isTaken,
        suffixesText (suffixes.dropWhile isTaken), hword,
        Strict.isAsciiDigits_of_runs hempty hdigits, htaken, hends⟩, ?_, Except.ok.inj h⟩
      rw [Reading.text_name]
      simp only
      rw [suffixesText_takeWhile_append, htext, List.take_append_drop]

theorem readNvmeFields_of_reading (f : NamespaceFields) (text : Text) :
    readNvmeFields (Text.splitOn ':' (Reading.fields f).text) text =
      .ok (Reading.fields f).address := by
  rw [Reading.splitOn_fields, readNvmeFields]
  simp only [f.minorIsNumber, f.controllerIsNumber, Bool.and_self, if_true,
    readNamespace_of_denotes f.denotes text]
  rfl

theorem exists_fields_of_read {s text : Text} {a : Address}
    (hword : Text.lower (s.take 4) ≠ "nvme")
    (h : readNvmeFields (Text.splitOn ':' s) text = .ok a) :
    ∃ f : NamespaceFields, (Reading.fields f).text = s ∧ (Reading.fields f).address = a := by
  unfold readNvmeFields at h
  split at h
  · rename_i first minor controller id hfields
    have htext : Text.join [':'] [first, minor, controller, id] = s := by
      rw [← hfields, Text.join_splitOn]
    have hfirst : ':' ∉ first :=
      Text.not_mem_of_mem_splitOn (t := s) (hfields ▸ List.mem_cons_self)
    have hnoWord : Text.lower (first.take 4) ≠ "nvme" := by
      intro hlower
      apply hword
      rw [← htext]
      have := (lower_take_iff first (Text.join [':'] [minor, controller, id])).2 hlower
      simpa [Text.join] using this
    split at h
    · rename_i hdigits
      obtain ⟨hminor, hcontroller⟩ := Bool.and_eq_true_iff.1 hdigits
      cases hid : readNamespace id text with
      | error e =>
        rw [hid] at h
        cases h
      | ok n =>
        rw [hid] at h
        obtain rfl := Except.ok.inj h
        exact ⟨⟨first, minor, controller, id, n, hfirst, hnoWord, hminor, hcontroller,
          denotesNamespace_of_read hid⟩, htext, rfl⟩
    · cases h
  · cases h

theorem parse_eq_readNvme {text : Text} {c : Char} {rest : Text} (hstrip : strip text = c :: rest)
    (hc : c = 'N' ∨ c = 'n') :
    parse text = if Text.lower ((strip text).take 4) = "nvme" then readNvmeName (strip text)
      else readNvmeFields (Text.splitOn ':' (strip text)) text := by
  have hletter : (c = 'N' || c = 'n') = true := by simpa using hc
  simp only [parse, hstrip, hletter, if_true]

/-- A text is accepted exactly if it can be taken apart, and its parts give the address. -/
theorem parse_eq_ok_iff_reading {text : Text} {c : Char} {rest : Text}
    (hstrip : strip text = c :: rest) (hc : c = 'N' ∨ c = 'n') (a : Address) :
    parse text = .ok a ↔ ∃ r : Reading, r.text = strip text ∧ r.address = a := by
  rw [parse_eq_readNvme hstrip hc]
  constructor
  · intro h
    split at h
    · rename_i hword
      obtain ⟨k, htext, haddress⟩ := exists_name_of_read hword h
      exact ⟨.name k, htext, haddress⟩
    · rename_i hword
      obtain ⟨f, htext, haddress⟩ := exists_fields_of_read hword h
      exact ⟨.fields f, htext, haddress⟩
  · rintro ⟨r, htext, rfl⟩
    rw [← htext]
    cases r with
    | name k => rw [if_pos (Reading.isWord_name k), readNvmeName_of_reading]
    | fields f => rw [if_neg (Reading.isNoWord_fields f), readNvmeFields_of_reading]

/-- No text can be taken apart in two ways. -/
theorem Reading.eq_of_text_eq {r q : Reading} (h : r.text = q.text) : r = q := by
  cases r with
  | name k =>
    cases q with
    | name l =>
      have htext := h
      rw [text_name, text_name] at htext
      have hlength := (length_of_isWord k.isWord).trans (length_of_isWord l.isWord).symm
      obtain ⟨hword, htail⟩ := List.append_inj htext hlength
      obtain ⟨hminor, hsuffixes⟩ := runs_name k.isNumber k.areSuffixes k.ends
      obtain ⟨hminor', hsuffixes'⟩ := runs_name l.isNumber l.areSuffixes l.ends
      rw [htail] at hminor hsuffixes
      have hm := hminor.symm.trans hminor'
      have hs := hsuffixes.symm.trans hsuffixes'
      rw [hm, hs] at htail
      have hrest := List.append_cancel_left (List.append_cancel_left htail)
      cases k
      cases l
      simp only at hword hm hs hrest
      subst hword hm hs hrest
      rfl
    | fields f => exact absurd (h ▸ isWord_name k) (isNoWord_fields f)
  | fields f =>
    cases q with
    | name l => exact absurd (h ▸ isWord_name l) (isNoWord_fields f)
    | fields g =>
      have hfields := splitOn_fields f
      rw [h, splitOn_fields g] at hfields
      obtain ⟨hfirst, hminor, hcontroller, hid⟩ : g.first = f.first ∧ g.minor = f.minor ∧
          g.controller = f.controller ∧ g.id = f.id := by simpa using hfields
      have hunit := readNamespace_of_denotes g.denotes []
      rw [hid, readNamespace_of_denotes f.denotes []] at hunit
      have hn := Except.ok.inj hunit
      cases f
      cases g
      simp only at hfirst hminor hcontroller hid hn
      subst hfirst hminor hcontroller hid hn
      rfl

/-! ## Documented texts -/

theorem toLower_of_isSuffixLetter {c : Char} (h : isSuffixLetter c = true) : c.toLower = c := by
  simp only [isSuffixLetter, Bool.or_eq_true, decide_eq_true_eq] at h
  rcases h with (rfl | rfl) | rfl
  · rfl
  · rfl
  · rfl

theorem map_toLower_of_isSuffixLetter {suffixes : List (Char × Text)}
    (h : ∀ suffix ∈ suffixes, isSuffixLetter suffix.1 = true) :
    (suffixes.map fun suffix => (suffix.1.toLower, suffix.2)) = suffixes := by
  induction suffixes with
  | nil => rfl
  | cons suffix rest ih =>
    obtain ⟨hletter, hrest⟩ := List.forall_mem_cons.1 h
    rw [List.map_cons, ih hrest, toLower_of_isSuffixLetter hletter]

theorem isDigit_of_toLower_mem {c : Char} (h : c.toLower ∈ ['c', 'n', 'p']) :
    c.isDigit = false := by
  cases hdigit : c.isDigit with
  | false => rfl
  | true =>
    rw [toLower_of_isDigit hdigit] at h
    have hletter : isSuffixLetter c = true := by simpa [isSuffixLetter, or_assoc] using h
    exact hdigit.symm.trans (isDigit_of_isSuffixLetter hletter)

theorem endsName_cons {c : Char} (hdigit : c.isDigit = false) (hletter : isSuffixLetter c = false)
    (r : Text) : endsName (c :: r) = true := by
  cases r with
  | nil => simp [endsName, hdigit]
  | cons d r => simp [endsName, hdigit, hletter]

/-- Regular readings are documented. -/
theorem Reading.documented {r : Reading} (h : r.IsRegular) : Documented r.text r.address := by
  cases r with
  | name k =>
    obtain ⟨hrest, horder⟩ := h
    have hlower : ∀ suffix ∈ k.suffixes, suffix.1.toLower = suffix.1 :=
      fun suffix hs => toLower_of_isSuffixLetter (k.areSuffixes suffix hs).1
    have hletters : k.suffixes.map (fun suffix => suffix.1.toLower) = k.suffixes.map Prod.fst :=
      List.map_congr_left hlower
    have hsuffixes := map_toLower_of_isSuffixLetter fun s hs => (k.areSuffixes s hs).1
    have hname := Documented.name k.isWord k.isNumber (fun s hs => (k.areSuffixes s hs).2)
      (hletters.symm ▸ horder)
    rw [hsuffixes] at hname
    rw [text, hrest, List.append_nil]
    exact hname
  | fields f => exact .fields h f.minorIsNumber f.controllerIsNumber f.denotes

/-- A documented text is accepted, and as what it denotes if the reading is regular: a suffix with
a capital letter, and all behind it, are left over. -/
theorem exists_reading_of_documented {s : Text} {a : Address} (h : Documented s a) :
    ∃ r : Reading, r.text = s ∧ (r.IsRegular → r.address = a) := by
  cases h with
  | fields isLetter minorIsNumber controllerIsNumber denotes =>
    rename_i first minor controller id unit
    have hfirst : ':' ∉ first ∧ Text.lower (first.take 4) ≠ "nvme" := by
      rcases isLetter with rfl | rfl
      · decide
      · decide
    exact ⟨.fields ⟨first, minor, controller, id, unit, hfirst.1, hfirst.2, minorIsNumber,
      controllerIsNumber, denotes⟩, rfl, fun _ => rfl⟩
  | name isWord isNumber areNumbers inOrder =>
    rename_i word minor suffixes
    let isPlain := fun suffix : Char × Text => isSuffixLetter suffix.1
    have hplain : ∀ suffix ∈ suffixes.takeWhile isPlain,
        isSuffixLetter suffix.1 = true ∧ isAsciiDigits suffix.2 = true := fun suffix hs =>
      ⟨List.mem_takeWhile_imp (p := isPlain) hs,
        areNumbers suffix ((List.takeWhile_sublist isPlain).subset hs)⟩
    have hends : endsName (suffixesText (suffixes.dropWhile isPlain)) = true := by
      cases hdrop : suffixes.dropWhile isPlain with
      | nil => rfl
      | cons suffix more =>
        have hmem : suffix ∈ suffixes := by
          apply (List.dropWhile_sublist isPlain).subset
          rw [hdrop]
          exact List.mem_cons_self
        have hcapital : isSuffixLetter suffix.1 = false := by
          have hne : suffixes.dropWhile isPlain ≠ [] := by rw [hdrop]; simp
          have := List.head_dropWhile_not isPlain hne
          simpa [isPlain, hdrop] using this
        have hletter := inOrder.subset (List.mem_map_of_mem hmem)
        exact endsName_cons (isDigit_of_toLower_mem hletter) hcapital _
    refine ⟨.name ⟨word, minor, suffixes.takeWhile isPlain,
      suffixesText (suffixes.dropWhile isPlain), isWord, isNumber, hplain, hends⟩, ?_, ?_⟩
    · rw [Reading.text_name]
      simp only
      rw [suffixesText_takeWhile_append, List.append_assoc]
    · rintro ⟨hrest, -⟩
      have hdrop : suffixes.dropWhile isPlain = [] := by
        cases hdrop : suffixes.dropWhile isPlain with
        | nil => rfl
        | cons suffix more =>
          simp only [hdrop, suffixesText, List.flatMap_cons] at hrest
          cases hrest
      have hall : ∀ suffix ∈ suffixes, isSuffixLetter suffix.1 = true :=
        List.dropWhile_eq_nil_iff.1 hdrop
      rw [Reading.address, map_toLower_of_isSuffixLetter hall]
      simp only [List.takeWhile_eq_self_iff.2 hall, isPlain]

/-- The accepted texts that begin with the letter of namespaces, and their addresses. Where the
reading is regular, they are the documented ones. -/
theorem parse_namespaceGrammar (text : Text) (c : Char) (rest : Text)
    (hstrip : strip text = c :: rest) (hc : c = 'N' ∨ c = 'n') :
    (∀ a, parse text = .ok a ↔ ∃ r : Reading, r.text = strip text ∧ r.address = a) ∧
    (∀ a, Documented (strip text) a → ∃ r : Reading, r.text = strip text) ∧
    ∀ r : Reading, r.text = strip text → r.IsRegular →
      ∀ a, parse text = .ok a ↔ Documented (strip text) a := by
  have hread := parse_eq_ok_iff_reading hstrip hc
  refine ⟨hread, ?_, ?_⟩
  · intro a ha
    obtain ⟨r, htext, -⟩ := exists_reading_of_documented ha
    exact ⟨r, htext⟩
  · intro r htext hregular a
    rw [hread]
    constructor
    · rintro ⟨q, hq, rfl⟩
      obtain rfl := Reading.eq_of_text_eq (htext.trans hq.symm)
      exact htext ▸ Reading.documented hregular
    · intro ha
      obtain ⟨q, hq, haddress⟩ := exists_reading_of_documented ha
      obtain rfl := Reading.eq_of_text_eq (htext.trans hq.symm)
      exact ⟨r, htext, haddress hregular⟩

/-- A name with two suffixes in their order, and the form of four fields. -/
theorem parse_namespaceGrammar_regular :
    Documented "nvme1c2n3" (nvme 1 3 3) ∧ Documented "n:1:3:0x03" (nvme 1 3 3) := by
  have hname := parse_namespaceGrammar "nvme1c2n3" 'n' "vme1c2n3" (by decide) (.inr rfl)
  have hstrip : strip "[n:1:3:0x03]" = "n:1:3:0x03" := by decide +kernel
  have hfields := parse_namespaceGrammar "[n:1:3:0x03]" 'n' ":1:3:0x03" hstrip (.inr rfl)
  have hid : DenotesNamespace "0x03" 3 :=
    @DenotesNamespace.hex 'x' "03" (.inl rfl) (all_isHexDigit_iff.1 (by decide)) (by decide)
      (by decide)
  let k : KernelName := ⟨"nvme", "1", [('c', "2"), ('n', "3")], [], rfl, rfl, by decide, rfl⟩
  let f : NamespaceFields := ⟨"n", "1", "3", "0x03", 3, by decide, by decide, rfl, rfl, hid⟩
  constructor
  · exact (hname.2.2 (.name k) (by decide) ⟨rfl, by decide⟩ _).1 (by decide +kernel)
  · rw [hstrip] at hfields
    exact (hfields.2.2 (.fields f) rfl (.inr rfl) _).1 (by decide +kernel)

/-- A name in capital letters: the word is known in any case and the suffix is not, so the id is
left over and the address is that of no namespace. -/
theorem parse_capitalSuffix :
    strip "NVME0N1" = "NVME0N1" ∧ Documented "NVME0N1" (nvme 0 0 1) ∧
      parse "NVME0N1" = .ok (nvme 0 0 0) ∧ nvme 0 0 0 ≠ nvme 0 0 1 := by
  have hdocumented : Documented "NVME0N1" (nvme 0 0 1) :=
    @Documented.name "NVME" "0" [('N', "1")] rfl rfl (by decide) (by decide)
  exact ⟨by decide, hdocumented, by decide +kernel, by decide⟩

end StorageAtlas.Address
