import StorageAtlas.Listing.Selection
import StorageAtlas.Proofs.Address.NamespaceGrammar
import StorageAtlas.Proofs.Listing.Namespaces

/-!
The entries that are kept as controllers and namespaces, read as addresses. Which
names are kept is said by two forms of names. A name of either form is read to its
end, so the address has the numbers with which the entry was kept; and no name has
both forms.
-/

namespace StorageAtlas

open Text (isAsciiDigits ofDecimal)

/-! ## The forms of kept names -/

/-- The word and a number. -/
inductive NamesController : Text → Nat → Prop
  | intro {minor : Text} (isNumber : isAsciiDigits minor = true) :
    NamesController ("nvme" ++ minor) (ofDecimal minor)

/-- The word, a number, the number of a controller path if there is one, and a namespace id. -/
inductive NamesNamespace : Text → Nat → Option Nat → Nat → Prop
  | direct {minor id : Text} (isNumber : isAsciiDigits minor = true)
      (idIsNumber : isAsciiDigits id = true) :
    NamesNamespace ("nvme" ++ (minor ++ 'n' :: id)) (ofDecimal minor) none (ofDecimal id)
  | onPath {minor path id : Text} (isNumber : isAsciiDigits minor = true)
      (pathIsNumber : isAsciiDigits path = true) (idIsNumber : isAsciiDigits id = true) :
    NamesNamespace ("nvme" ++ (minor ++ 'c' :: (path ++ 'n' :: id))) (ofDecimal minor)
      (some (ofDecimal path)) (ofDecimal id)

/-! ## Names that are kept -/

namespace NvmeName

open Address (isSuffixLetter suffixesText isTaken_of_isSuffix runs_text runs_suffixesText)

theorem afterWord?_append (t : Text) : afterWord? ("nvme" ++ t) = some t := rfl

/-- Number and suffixes come back from their text. -/
theorem runs_append_suffixesText {minor : Text} (hminor : isAsciiDigits minor = true)
    (suffixes : List (Char × Text))
    (hsuffixes : ∀ suffix ∈ suffixes,
      isSuffixLetter suffix.1 = true ∧ isAsciiDigits suffix.2 = true) :
    runs (minor ++ suffixesText suffixes) = (minor, suffixes) := by
  simp only [isAsciiDigits, Bool.and_eq_true, List.all_eq_true] at hminor
  have hruns := runs_suffixesText (fun s hs => (isTaken_of_isSuffix (hsuffixes s hs)).2.1)
    (fun s hs => (isTaken_of_isSuffix (hsuffixes s hs)).2.2) (rfl : (runs []).1 = [])
  rw [List.append_nil, runs, List.append_nil] at hruns
  rw [runs_append_nondigit hminor.2 _ (by rw [hruns]), hruns]

theorem parts?_eq_some_iff {t : Text} {m : Nat} {suffixes : List (Char × Text)} :
    parts? t = some (m, suffixes) ↔
      ∃ minor, isAsciiDigits minor = true ∧ ofDecimal minor = m ∧ runs t = (minor, suffixes) := by
  have hdigits := (Address.Strict.isDigit_of_mem_runs (t := t)).1
  unfold parts?
  cases hruns : runs t with
  | mk minor found =>
    rw [hruns] at hdigits
    cases hempty : minor.isEmpty with
    | true =>
      have hnot : isAsciiDigits minor = false := by
        rw [isAsciiDigits, hempty]
        rfl
      simp [hempty, hnot]
    | false =>
      have hnumber := Address.Strict.isAsciiDigits_of_runs hempty hdigits
      simp [hempty, hnumber]

theorem parts?_append_suffixesText {minor : Text} (hminor : isAsciiDigits minor = true)
    (suffixes : List (Char × Text))
    (hsuffixes : ∀ suffix ∈ suffixes,
      isSuffixLetter suffix.1 = true ∧ isAsciiDigits suffix.2 = true) :
    parts? (minor ++ suffixesText suffixes) = some (ofDecimal minor, suffixes) :=
  parts?_eq_some_iff.2 ⟨minor, hminor, rfl, runs_append_suffixesText hminor suffixes hsuffixes⟩

/-- What has been taken apart is the word, the number and the suffixes. -/
theorem exists_of_parts? {name t : Text} {m : Nat} {suffixes : List (Char × Text)}
    (hword : afterWord? name = some t) (hparts : parts? t = some (m, suffixes)) :
    ∃ minor, isAsciiDigits minor = true ∧ ofDecimal minor = m ∧
      name = "nvme" ++ (minor ++ suffixesText suffixes) ∧
      ∀ suffix ∈ suffixes, suffix.2.isEmpty = false → isAsciiDigits suffix.2 = true := by
  obtain ⟨minor, hminor, hm, hruns⟩ := parts?_eq_some_iff.1 hparts
  have htext := runs_text t
  have hdigits := (Address.Strict.isDigit_of_mem_runs (t := t)).2
  rw [hruns] at htext hdigits
  refine ⟨minor, hminor, hm, ?_, fun suffix hs hne => ?_⟩
  · rw [afterWord?_eq_some hword, ← htext]
  · exact Address.Strict.isAsciiDigits_of_runs hne (hdigits suffix hs)

theorem controller?_eq_some_iff {name : Text} {m : Nat} :
    controller? name = some m ↔ NamesController name m := by
  constructor
  · intro h
    simp only [controller?, Option.bind_eq_bind, Option.bind_eq_some_iff] at h
    obtain ⟨t, hword, found, hparts, hfound⟩ := h
    split at hfound
    · rename_i own
      obtain rfl : own = m := Option.some.inj hfound
      obtain ⟨minor, hminor, rfl, rfl, -⟩ := exists_of_parts? hword hparts
      rw [suffixesText, List.flatMap_nil, List.append_nil]
      exact .intro hminor
    · cases hfound
  · rintro ⟨isNumber⟩
    rename_i minor
    have hparts := parts?_append_suffixesText isNumber [] (by simp)
    rw [suffixesText, List.flatMap_nil, List.append_nil] at hparts
    simp only [controller?, afterWord?_append, hparts, Option.bind_eq_bind, Option.bind_some]

theorem isEmpty_of_isAsciiDigits {t : Text} (h : isAsciiDigits t = true) : t.isEmpty = false := by
  simp only [isAsciiDigits, Bool.and_eq_true, Bool.not_eq_true'] at h
  exact h.1

theorem suffixesText_id (id : Text) : suffixesText [('n', id)] = 'n' :: id := by
  simp [suffixesText]

theorem suffixesText_path (path id : Text) :
    suffixesText [('c', path), ('n', id)] = 'c' :: (path ++ 'n' :: id) := by
  simp [suffixesText]

theorem unit?_eq_some_iff {name : Text} {m n : Nat} :
    unit? name = some (m, n) ↔ ∃ path, NamesNamespace name m path n := by
  constructor
  · intro h
    simp only [unit?, Option.bind_eq_bind, Option.bind_eq_some_iff] at h
    obtain ⟨t, hword, found, hparts, hfound⟩ := h
    split at hfound
    · rename_i own id
      cases hid : id.isEmpty with
      | true => simp [hid] at hfound
      | false =>
        simp only [hid, Bool.false_eq_true, if_false, Option.some.injEq, Prod.mk.injEq] at hfound
        obtain ⟨rfl, rfl⟩ := hfound
        obtain ⟨minor, hminor, rfl, rfl, hnumbers⟩ := exists_of_parts? hword hparts
        rw [suffixesText_id]
        exact ⟨none, .direct hminor (hnumbers ('n', id) (by simp) hid)⟩
    · rename_i own path id
      cases hpath : path.isEmpty with
      | true => simp [hpath] at hfound
      | false =>
        cases hid : id.isEmpty with
        | true => simp [hid] at hfound
        | false =>
          simp only [hpath, hid, Bool.or_self, Bool.false_eq_true, if_false, Option.some.injEq,
            Prod.mk.injEq] at hfound
          obtain ⟨rfl, rfl⟩ := hfound
          obtain ⟨minor, hminor, rfl, rfl, hnumbers⟩ := exists_of_parts? hword hparts
          rw [suffixesText_path]
          exact ⟨some (ofDecimal path), .onPath hminor (hnumbers ('c', path) (by simp) hpath)
            (hnumbers ('n', id) (by simp) hid)⟩
    · cases hfound
  · rintro ⟨path, h⟩
    cases h with
    | @direct minor id isNumber idIsNumber =>
      have hid : id.isEmpty = false := isEmpty_of_isAsciiDigits idIsNumber
      have hparts := parts?_append_suffixesText isNumber [('n', id)]
        (by simp [isSuffixLetter, idIsNumber])
      rw [suffixesText_id] at hparts
      simp only [unit?, afterWord?_append, hparts, Option.bind_eq_bind, Option.bind_some, hid,
        Bool.false_eq_true, if_false]
    | @onPath minor path id isNumber pathIsNumber idIsNumber =>
      have hpath : path.isEmpty = false := isEmpty_of_isAsciiDigits pathIsNumber
      have hid : id.isEmpty = false := isEmpty_of_isAsciiDigits idIsNumber
      have hparts := parts?_append_suffixesText isNumber [('c', path), ('n', id)]
        (by simp [isSuffixLetter, pathIsNumber, idIsNumber])
      rw [suffixesText_path] at hparts
      simp only [unit?, afterWord?_append, hparts, Option.bind_eq_bind, Option.bind_some, hpath,
        hid, Bool.or_self, Bool.false_eq_true, if_false]

end NvmeName

/-! ## Names that are read -/

namespace Address

theorem isSign_of_isSuffixLetter {c : Char} (h : isSuffixLetter c = true) : isSign c = true := by
  simp only [isSuffixLetter, Bool.or_eq_true, decide_eq_true_eq] at h
  rcases h with (rfl | rfl) | rfl
  · rfl
  · rfl
  · rfl

/-- A name with nothing left over is read as its number and its last suffixes. -/
theorem parse_kernelName {minor : Text} (hminor : isAsciiDigits minor = true)
    (suffixes : List (Char × Text))
    (hsuffixes : ∀ suffix ∈ suffixes,
      isSuffixLetter suffix.1 = true ∧ isAsciiDigits suffix.2 = true) :
    parse ("nvme" ++ (minor ++ suffixesText suffixes)) = .ok (named minor suffixes) := by
  have hdigits : ∀ t : Text, isAsciiDigits t = true → ∀ c ∈ t, isSign c = true :=
    fun t ht c hc => (isField_of_isAsciiDigits ht c hc).1
  have hword : ∀ c ∈ ("nvme" : Text), isSign c = true :=
    List.all_eq_true.1 (by decide : ("nvme" : Text).all isSign = true)
  have hsigns : ∀ c ∈ ("nvme" ++ (minor ++ suffixesText suffixes) : Text), isSign c = true := by
    intro c hc
    rcases List.mem_append.1 hc with hc | hc
    · exact hword c hc
    · rcases List.mem_append.1 hc with hc | hc
      · exact hdigits minor hminor c hc
      · obtain ⟨suffix, hs, hc⟩ := List.mem_flatMap.1 hc
        rcases List.mem_cons.1 hc with rfl | hc
        · exact isSign_of_isSuffixLetter (hsuffixes suffix hs).1
        · exact hdigits suffix.2 (hsuffixes suffix hs).2 c hc
  have hstrip := strip_eq_self hsigns
  let k : KernelName := ⟨"nvme", minor, suffixes, [], rfl, hminor, hsuffixes, rfl⟩
  refine (parse_eq_ok_iff_reading (hstrip.trans rfl) (.inr rfl) _).2 ⟨.name k, ?_, rfl⟩
  rw [hstrip, Reading.text_name, List.append_nil]

theorem parse_namesController {name : Text} {m : Nat} (h : NamesController name m) :
    parse name = .ok (nvme m 0 0) := by
  cases h with
  | @intro minor isNumber =>
    have hparse := parse_kernelName isNumber [] (by simp)
    rw [suffixesText, List.flatMap_nil, List.append_nil] at hparse
    exact hparse

/-- The ids of controllers begin at one behind a path, and the id is zero without one. -/
theorem parse_namesNamespace {name : Text} {m n : Nat} {path : Option Nat}
    (h : NamesNamespace name m path n) :
    parse name = .ok (nvme m (path.elim 0 (· + 1) : Nat) n) := by
  cases h with
  | @direct minor id isNumber idIsNumber =>
    have hparse := parse_kernelName isNumber [('n', id)]
      (by simp [isSuffixLetter, idIsNumber])
    rw [NvmeName.suffixesText_id] at hparse
    exact hparse
  | @onPath minor path id isNumber pathIsNumber idIsNumber =>
    have hparse := parse_kernelName isNumber [('c', path), ('n', id)]
      (by simp [isSuffixLetter, pathIsNumber, idIsNumber])
    rw [NvmeName.suffixesText_path] at hparse
    exact hparse

end Address

/-! ## Kept names are read with the same numbers -/

namespace Selection

theorem mem_controllers_iff {names : List Text} {name : Text} {m : Nat} :
    (name, m) ∈ controllers names ↔ name ∈ names ∧ NamesController name m := by
  simp only [controllers, List.mem_filterMap, Option.map_eq_some_iff,
    NvmeName.controller?_eq_some_iff]
  constructor
  · rintro ⟨own, hmem, number, hnames, heq⟩
    obtain ⟨rfl, rfl⟩ := Prod.mk.inj heq
    exact ⟨hmem, hnames⟩
  · rintro ⟨hmem, hnames⟩
    exact ⟨name, hmem, m, hnames, rfl⟩

theorem mem_namespaces_iff {names : List Text} {name : Text} {m n : Nat} :
    (name, m, n) ∈ namespaces names ↔
      name ∈ names ∧ ∃ path, NamesNamespace name m path n := by
  simp only [namespaces, List.mem_filterMap, Option.map_eq_some_iff]
  constructor
  · rintro ⟨own, hmem, numbers, hunit, heq⟩
    obtain ⟨rfl, rfl⟩ := Prod.mk.inj heq
    exact ⟨hmem, NvmeName.unit?_eq_some_iff.1 hunit⟩
  · rintro ⟨hmem, hnames⟩
    exact ⟨name, hmem, (m, n), NvmeName.unit?_eq_some_iff.2 hnames, rfl⟩

/-- No name has both forms: one of them ends with its number. -/
theorem not_namesController_of_namesNamespace {name : Text} {m k n : Nat} {path : Option Nat}
    (h : NamesNamespace name k path n) : ¬ NamesController name m := by
  intro hcontroller
  have hunit := NvmeName.unit?_eq_some_iff.2 ⟨path, h⟩
  cases hcontroller with
  | @intro minor isNumber =>
    have hparts := NvmeName.parts?_append_suffixesText isNumber [] (by simp)
    rw [Address.suffixesText, List.flatMap_nil, List.append_nil] at hparts
    simp only [NvmeName.unit?, NvmeName.afterWord?_append, hparts, Option.bind_eq_bind,
      Option.bind_some, reduceCtorEq] at hunit

/-- An entry that is kept as a controller or a namespace is read as an address with the same
numbers, and no entry is kept as both. -/
theorem kept_read_alike (names : List Text) (name : Text) :
    (∀ m, (name, m) ∈ controllers names → Address.parse name = .ok (.nvme m 0 0)) ∧
    (∀ m n, (name, m, n) ∈ namespaces names → ∃ path, NamesNamespace name m path n ∧
      Address.parse name = .ok (.nvme m (path.elim 0 (· + 1) : Nat) n)) ∧
    ∀ m k n, ¬((name, m) ∈ controllers names ∧ (name, k, n) ∈ namespaces names) := by
  refine ⟨fun m hm => ?_, fun m n hmn => ?_, ?_⟩
  · exact Address.parse_namesController (mem_controllers_iff.1 hm).2
  · obtain ⟨-, path, hnames⟩ := mem_namespaces_iff.1 hmn
    exact ⟨path, hnames, Address.parse_namesNamespace hnames⟩
  · rintro m k n ⟨hcontroller, hnamespace⟩
    obtain ⟨-, path, hnames⟩ := mem_namespaces_iff.1 hnamespace
    exact not_namesController_of_namesNamespace hnames (mem_controllers_iff.1 hcontroller).2

/-- A namespace on a path, and a controller whose number begins with a zero. -/
theorem kept_read_alike_onPath :
    ((("nvme1c2n3" : Text), 1, 3) ∈ namespaces ["nvme07", "nvme1c2n3"] ∧
      ∃ path, NamesNamespace "nvme1c2n3" 1 path 3 ∧
        Address.parse "nvme1c2n3" = .ok (.nvme 1 (path.elim 0 (· + 1) : Nat) 3)) ∧
    ((("nvme07" : Text), 7) ∈ controllers ["nvme07", "nvme1c2n3"] ∧
      Address.parse "nvme07" = .ok (.nvme 7 0 0)) := by
  have hnamespace : (("nvme1c2n3" : Text), 1, 3) ∈ namespaces ["nvme07", "nvme1c2n3"] := by decide
  have hcontroller : (("nvme07" : Text), 7) ∈ controllers ["nvme07", "nvme1c2n3"] := by decide
  exact ⟨⟨hnamespace, (kept_read_alike _ _).2.1 1 3 hnamespace⟩,
    ⟨hcontroller, (kept_read_alike _ _).1 7 hcontroller⟩⟩

end Selection
end StorageAtlas
