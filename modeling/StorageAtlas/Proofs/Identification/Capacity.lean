import StorageAtlas.Proofs.Identification.NameOverride

/-!
What a capacity and a wish for a tag do to an identity. Cutting when a page is
resolved shares the room between tag and value, cutting when an identity is
shown looks at the text as a whole, and both leave the same text. The kind never
depends on either, and without a capacity nothing but the tag does.
-/

namespace StorageAtlas.Identity

variable (capacity : Nat) (i : Identity)

/-! ## The room for a tag and a value -/

theorem length_text : i.text.length = (i.tag.getD []).length + i.value.length := by
  rw [text, List.length_append]

/-- The tag is cut as if it stood alone. -/
theorem getD_tag_limit :
    (i.limit (some (capacity : Int))).tag.getD [] = (i.tag.getD []).take capacity := by
  have hlength := i.length_text
  simp only [limit]
  split
  · rw [List.take_of_length_le (by omega)]
  · by_cases hcut : ((capacity : Int) - (i.tag.getD []).length).toNat = 0 ∧ i.tag.getD [] ≠ []
    · simp [hcut, Text.sliceTo]
    · -- there is room for more than the tag, or there is no tag
      have hroom : (i.tag.getD []).length ≤ capacity := by
        by_cases hempty : i.tag.getD [] = []
        · simp [hempty]
        · have hne : ((capacity : Int) - (i.tag.getD []).length).toNat ≠ 0 :=
            fun h => hcut ⟨h, hempty⟩
          omega
      simp only [if_neg hcut]
      rw [List.take_of_length_le hroom]

/-- What the tag leaves is for the value. -/
theorem value_limit :
    (i.limit (some (capacity : Int))).value = i.value.take (capacity - (i.tag.getD []).length) := by
  have hlength := i.length_text
  have hroom : ((capacity : Int) - (i.tag.getD []).length).toNat =
      capacity - (i.tag.getD []).length := by omega
  simp only [limit]
  split
  · rw [List.take_of_length_le (by omega)]
  · simp only [hroom]

theorem text_limit : (i.limit (some (capacity : Int))).text = i.text.take capacity := by
  rw [text, getD_tag_limit, value_limit, text, List.take_append]

theorem render_natCast : i.render (some (capacity : Int)) = i.text.take capacity := by
  simp [render, Text.fit]

/-! ## Pages -/

/-- The capacity is looked at when all else is decided. -/
theorem ofPage_eq_limit (bytes : Bytes) (wantTag : Bool) :
    ofPage bytes wantTag (some (capacity : Int)) =
      (ofPage bytes wantTag).limit (some (capacity : Int)) := by
  unfold ofPage
  cases Page.ofBytes bytes with
  | error e =>
    have hfits : (nothing.text.length : Int) ≤ capacity := by simp [nothing, text]
    simp only [limit, if_pos hfits]
  | ok page => rfl

/-- Without a wish for it the tag is missing, and nothing else. -/
theorem ofPage_untagged (bytes : Bytes) :
    ofPage bytes false = { ofPage bytes true with tag := none } := by
  unfold ofPage
  cases Page.ofBytes bytes with
  | error e => rfl
  | ok page => rfl

/-- A page resolved to a capacity has the kind that it has without, and shows the first characters of
what it shows without: of the tag, and of the value as many as the tag leaves room for. That is how
the whole identity is shown to this capacity. A wish for the tag changes the tag alone. -/
theorem ofPage_to_capacity (bytes : Bytes) (wantTag : Bool) (capacity : Nat) :
    (ofPage bytes wantTag (some (capacity : Int))).kind = (ofPage bytes wantTag).kind ∧
      (ofPage bytes wantTag (some (capacity : Int))).tag.getD [] =
        ((ofPage bytes wantTag).tag.getD []).take capacity ∧
      (ofPage bytes wantTag (some (capacity : Int))).text =
        (ofPage bytes wantTag).text.take capacity ∧
      (ofPage bytes wantTag (some (capacity : Int))).text =
        (ofPage bytes wantTag).render (some (capacity : Int)) ∧
      ofPage bytes false = { ofPage bytes true with tag := none } := by
  rw [ofPage_eq_limit]
  refine ⟨kind_limit _ _, getD_tag_limit capacity _, text_limit capacity _, ?_,
    ofPage_untagged bytes⟩
  rw [text_limit, render_natCast]

/-- A tag with no room behind it, and one without room for itself. -/
example :
    limit (some 4) { kind := .naa, value := "5000", tag := some ("naa." : Text) } =
        { kind := .naa, tag := some ("naa." : Text) } ∧
      limit (some 2) { kind := .naa, value := "5000", tag := some ("naa." : Text) } =
        { kind := .naa, tag := some ("na" : Text) } := by
  decide

end StorageAtlas.Identity
