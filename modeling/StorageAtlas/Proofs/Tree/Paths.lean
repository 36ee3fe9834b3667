import StorageAtlas.Tree.PathText

/-!
A name without slashes that is joined to a path is its last part, and what
stands before it is that path.
-/

namespace StorageAtlas

/-- Read from its end, a text without the separator is passed over as a whole. -/
theorem Text.takeWhile_reverse_append {sep : Char} {t : Text} (h : sep ∉ t) (rest : Text) :
    (t.reverse ++ rest).takeWhile (· ≠ sep) = t.reverse ++ rest.takeWhile (· ≠ sep) := by
  refine List.takeWhile_append_of_pos fun c hc => decide_eq_true ?_
  rintro rfl
  exact h (List.mem_reverse.1 hc)

theorem Text.afterLast_of_not_mem {sep : Char} {t : Text} (h : sep ∉ t) :
    afterLast sep t = t := by
  have hwhile := takeWhile_reverse_append h []
  rw [List.append_nil, List.takeWhile_nil, List.append_nil] at hwhile
  rw [afterLast, hwhile, List.reverse_reverse]

theorem Text.afterLast_append {sep : Char} {t : Text} (h : sep ∉ t) (before : Text) :
    afterLast sep (before ++ sep :: t) = t := by
  rw [afterLast, List.reverse_append, List.reverse_cons, List.append_assoc,
    takeWhile_reverse_append h]
  simp

namespace PathText

theorem join_of_not_mem {name : Text} (h : '/' ∉ name) (directory : Text) :
    join directory name = name ∨ ∃ before, join directory name = before ++ '/' :: name := by
  have hhead : name.head? ≠ some '/' := fun he => h (List.mem_of_head? he)
  rw [join, if_neg hhead]
  by_cases hempty : directory.isEmpty = true
  · left
    simp [List.isEmpty_iff.1 hempty]
  · right
    by_cases hlast : directory.getLast? = some '/'
    · obtain ⟨before, rfl⟩ := List.getLast?_eq_some_iff.1 hlast
      exact ⟨before, by simp⟩
    · exact ⟨directory, by simp [hempty, hlast]⟩

theorem baseName_join {name : Text} (h : '/' ∉ name) (directory : Text) :
    baseName (join directory name) = name := by
  unfold baseName
  rcases join_of_not_mem h directory with hjoin | ⟨before, hjoin⟩
  · rw [hjoin, Text.afterLast_of_not_mem h]
  · rw [hjoin, Text.afterLast_append h]

theorem getLast?_join {name : Text} (h : '/' ∉ name) (hne : name ≠ []) (directory : Text) :
    (join directory name).getLast? = name.getLast? := by
  rcases join_of_not_mem h directory with hjoin | ⟨before, hjoin⟩
  · rw [hjoin]
  · rw [hjoin, List.getLast?_append, List.getLast?_cons]
    cases hlast : name.getLast? with
    | none => exact absurd (List.getLast?_eq_none_iff.1 hlast) hne
    | some c => simp

theorem parent_join {directory name : Text} (h : '/' ∉ name) (hne : directory ≠ [])
    (hlast : directory.getLast? ≠ some '/') : parent (join directory name) = directory := by
  have hhead : name.head? ≠ some '/' := fun he => h (List.mem_of_head? he)
  have hjoin : join directory name = directory ++ '/' :: name := by
    simp [join, hhead, hne, hlast]
  have hbefore : (directory ++ '/' :: name).take
      ((directory ++ '/' :: name).length - name.length) = directory ++ ['/'] := by
    have hsplit : directory ++ '/' :: name = (directory ++ ['/']) ++ name := by simp
    rw [hsplit, List.length_append, Nat.add_sub_cancel, List.take_left]
  obtain ⟨before, last, rfl⟩ : ∃ before last, directory = before ++ [last] :=
    ⟨_, _, (List.dropLast_concat_getLast hne).symm⟩
  have hslash : last ≠ '/' := by
    rintro rfl
    simp at hlast
  unfold parent
  rw [baseName_join h, hjoin, hbefore]
  simp [Text.dropEndWhile, hslash]

end PathText
end StorageAtlas
