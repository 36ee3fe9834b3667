import StorageAtlas.Proofs.Address.FilterParts

/-!
Decimal digits alone, or behind the word host, are read as a filter for the host
with this number.
-/

namespace StorageAtlas.AddressFilter

open Text (isAsciiDigits ofDecimal)

/-- A filter that leaves everything open but the host. -/
def hostOnly (host : Int) : AddressFilter := { host := some host }

variable {digits : Text}

theorem trim_of_isAsciiDigits (h : isAsciiDigits digits = true) : Text.trim digits = digits := by
  refine Address.trim_eq_self fun c hc => ?_
  exact Address.isBlank_of_isSign (Address.isSign_of_isDigit (isDigit_of_mem h hc))

theorem readPart_of_isAsciiDigits (h : isAsciiDigits digits = true) (nvme : Bool) :
    readPart nvme 0 digits = .ok (some (ofDecimal digits : Int)) := by
  have hread : readPart nvme 0 (digits ++ []) = .ok (some (ofDecimal digits : Int)) :=
    readPart_number h (by simp) (by simp)
  rwa [List.append_nil] at hread

theorem readText_of_isAsciiDigits (h : isAsciiDigits digits = true) :
    readText digits = .ok (hostOnly (ofDecimal digits)) := by
  have hstart : digits.dropWhile (fun c => c = ' ' || c = '\t' || c = '[') = digits := by
    refine Address.dropWhile_eq_self fun c hc => ?_
    have hdigit := isDigit_of_mem h hc
    simp only [Bool.or_eq_false_iff, decide_eq_false_iff_not]
    refine ⟨⟨?_, ?_⟩, ?_⟩
    all_goals
      rintro rfl
      exact absurd hdigit (by decide)
  have hsplit : Text.splitOn ':' digits = [digits] :=
    Text.splitOn_of_not_mem (not_mem_of_isAsciiDigits h (by decide))
  have hread := readPart_of_isAsciiDigits h false
  have htrim := trim_of_isAsciiDigits h
  have hsign := isNvmeSign_of_isAsciiDigits h
  cases digits with
  | nil => exact absurd h (by decide)
  | cons c r =>
    rw [readText, hstart]
    simp [hsplit, htrim, hsign, readParts, hread, Except.map, ofParts, hostOnly]

/-- The word is dropped in any mixture of cases, and nothing of the digits is. -/
theorem dropHostWord_append {word : Text} (hword : word = [] ∨ Text.lower word = "host")
    (h : isAsciiDigits digits = true) : dropHostWord (word ++ digits) = digits := by
  rcases hword with rfl | hword
  · rw [List.nil_append, dropHostWord, if_neg]
    intro hlower
    cases digits with
    | nil => exact absurd h (by decide)
    | cons c r =>
      have hdigit := isDigit_of_mem h List.mem_cons_self
      have hc := congrArg List.head? hlower
      simp only [Text.lower, List.take_succ_cons, List.map_cons, List.head?_cons,
        Address.toLower_of_isDigit hdigit] at hc
      obtain rfl : c = 'h' := Option.some.inj hc
      exact absurd hdigit (by decide)
  · have hlength : word.length = 4 := by
      have := congrArg List.length hword
      rw [Text.lower, List.length_map] at this
      exact this
    rw [dropHostWord, List.take_left' hlength, if_pos hword, List.drop_left' hlength]

theorem parse_of_isAsciiDigits {word : Text} (hword : word = [] ∨ Text.lower word = "host")
    (h : isAsciiDigits digits = true) :
    parse [word ++ digits] = .ok (hostOnly (ofDecimal digits)) := by
  rw [parse, dropHostWord_append hword h, readText_of_isAsciiDigits h]

end StorageAtlas.AddressFilter
