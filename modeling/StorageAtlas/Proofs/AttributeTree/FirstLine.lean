import StorageAtlas.AttributeTree
import StorageAtlas.Proofs.Text.Utf8

/-!
What the first line of an attribute is read as. The line is cut off after the whole
file has been decoded, so bytes behind it that are no text make it be read byte for
byte. A line of ASCII is then still the same text, any other text is not.
-/

namespace StorageAtlas

namespace Text

theorem upTo_of_not_mem {sep : Char} {t : Text} (h : sep ∉ t) : upTo sep t = t := by
  rw [upTo, List.takeWhile_eq_self_iff]
  intro c hc
  simpa using ne_of_mem_of_not_mem hc h

theorem upTo_append_cons {sep : Char} {t : Text} (h : sep ∉ t) (u : Text) :
    upTo sep (t ++ sep :: u) = t := by
  have hbefore : ∀ c ∈ t, decide (c ≠ sep) = true := by
    intro c hc
    simpa using ne_of_mem_of_not_mem hc h
  rw [upTo, List.takeWhile_append_of_pos hbefore, List.takeWhile_cons_of_neg (by simp),
    List.append_nil]

end Text

namespace AttributeTree

open Utf8

theorem decodeAs_of_encode (t : Text) : decodeAs .utf8 (encode t) = t := by
  rw [decodeAs, decode?_encode, Option.getD_some]

theorem decodeAs_of_not_isText {a : Bytes} (h : ¬ IsText a) :
    decodeAs .utf8 a = decodeLatin1 a := by
  rw [decodeAs, decode?_of_not_isText h, Option.getD_none]

/-- Is it the same text in UTF-8 and byte for byte? -/
theorem decodeAs_eq_decodeLatin1_iff {a : Bytes} :
    decodeAs .utf8 a = decodeLatin1 a ↔ (IsText a → IsAscii a) := by
  constructor
  · rintro h ⟨t, rfl⟩
    rw [decodeAs_of_encode] at h
    rw [← encode_decodeLatin1_eq_iff, ← h]
  · intro h
    by_cases htext : IsText a
    · conv_lhs => rw [← encode_decodeLatin1 (h htext)]
      exact decodeAs_of_encode _
    · exact decodeAs_of_not_isText htext

variable {a b b₁ b₂ : Bytes}

/-- Decoding brings no line feed into a line. -/
theorem feed_not_mem_decodeAs (h : 10 ∉ a) : '\n' ∉ decodeAs .utf8 a := by
  by_cases htext : IsText a
  · obtain ⟨t, rfl⟩ := htext
    rw [decodeAs_of_encode]
    rwa [feed_mem_encode_iff] at h
  · rwa [decodeAs_of_not_isText htext, feed_mem_decodeLatin1_iff]

/-- Lines are decoded each for itself if they are a text together, and all byte for byte if not. -/
theorem decodeAs_append_feed (a b : Bytes) :
    decodeAs .utf8 (a ++ 10 :: b) =
      if IsText a ∧ IsText b then decodeAs .utf8 a ++ '\n' :: decodeAs .utf8 b
      else decodeLatin1 a ++ '\n' :: decodeLatin1 b := by
  split
  · rename_i h
    obtain ⟨⟨t, rfl⟩, u, rfl⟩ := h
    rw [← encode_append_feed, decodeAs_of_encode, decodeAs_of_encode, decodeAs_of_encode]
  · rename_i h
    rw [decodeAs_of_not_isText (mt isText_append_feed.1 h), decodeLatin1_append_feed]

theorem upTo_decodeAs_append_feed (h : 10 ∉ a) (b : Bytes) :
    Text.upTo '\n' (decodeAs .utf8 (a ++ 10 :: b)) =
      if IsText b then decodeAs .utf8 a else decodeLatin1 a := by
  have hlatin1 : '\n' ∉ decodeLatin1 a := mt feed_mem_decodeLatin1_iff.1 h
  rw [decodeAs_append_feed]
  by_cases ha : IsText a
  · by_cases hb : IsText b
    · rw [if_pos ⟨ha, hb⟩, if_pos hb, Text.upTo_append_cons (feed_not_mem_decodeAs h)]
    · rw [if_neg (fun hboth => hb hboth.2), if_neg hb, Text.upTo_append_cons hlatin1]
  · rw [if_neg (fun hboth => ha hboth.1), Text.upTo_append_cons hlatin1,
      decodeAs_of_not_isText ha, ite_self]

section Read

variable {s s₁ s₂ : AttributeTree} {directory name : Text}

/-- A line that stands alone. -/
theorem read_line (h : 10 ∉ a) (hs : s.readBytes directory name = some a) :
    s.read directory name = some (decodeAs .utf8 a) := by
  rw [read, hs, Option.map_some, Text.upTo_of_not_mem (feed_not_mem_decodeAs h)]

/-- A line with more behind it. -/
theorem read_line_append (h : 10 ∉ a) (hs : s.readBytes directory name = some (a ++ 10 :: b)) :
    s.read directory name = some (if IsText b then decodeAs .utf8 a else decodeLatin1 a) := by
  rw [read, hs, Option.map_some, upTo_decodeAs_append_feed h]

/-- What stands behind a line of ASCII does not show. -/
theorem read_asciiLine {t : Text} (hfeed : '\n' ∉ t) (hascii : ∀ c ∈ t, c.val.toNat < 0x80)
    (h : s.readBytes directory name = some (encode t) ∨
      ∃ rest, s.readBytes directory name = some (encode t ++ 10 :: rest)) :
    s.read directory name = some t := by
  have hline : 10 ∉ encode t := mt feed_mem_encode_iff.1 hfeed
  rcases h with h | ⟨rest, h⟩
  · rw [read_line hline h, decodeAs_of_encode]
  · rw [read_line_append hline h,
      ← decodeAs_eq_decodeLatin1_iff.2 fun _ => isAscii_encode hascii, ite_self, decodeAs_of_encode]

/-- A line that stands alone is read as its text, or byte for byte if it is none. With more behind it,
it is read byte for byte unless what follows is text too. So what follows shows in the line, but for
a line of ASCII and a line that is no text anyhow. -/
theorem read_line_iff (h : 10 ∉ a) (hs : s.readBytes directory name = some a)
    (hs₁ : s₁.readBytes directory name = some (a ++ 10 :: b₁))
    (hs₂ : s₂.readBytes directory name = some (a ++ 10 :: b₂)) :
    (∀ t, encode t = a → s.read directory name = some t) ∧
    (¬ IsText a → s.read directory name = some (decodeLatin1 a)) ∧
    (IsText b₁ → s₁.read directory name = s.read directory name) ∧
    (¬ IsText b₁ → s₁.read directory name = some (decodeLatin1 a)) ∧
    (s₁.read directory name = s.read directory name ↔
      IsText b₁ ∨ (IsText a → IsAscii a)) ∧
    (s₁.read directory name = s₂.read directory name ↔
      (IsText b₁ ↔ IsText b₂) ∨ (IsText a → IsAscii a)) := by
  rw [read_line h hs, read_line_append h hs₁, read_line_append h hs₂,
    ← decodeAs_eq_decodeLatin1_iff]
  refine ⟨?_, ?_, ?_, ?_, ?_, ?_⟩
  · rintro t rfl
    rw [decodeAs_of_encode]
  · intro htext
    rw [decodeAs_of_not_isText htext]
  · intro hb
    rw [if_pos hb]
  · intro hb
    rw [if_neg hb]
  · rw [Option.some_inj, ite_eq_left_iff, eq_comm, or_iff_not_imp_left]
  · rw [Option.some_inj]
    by_cases hb₁ : IsText b₁ <;> by_cases hb₂ : IsText b₂ <;> simp [hb₁, hb₂, eq_comm]

end Read

/-- One device with these bytes as its model. -/
def withModel (bytes : Bytes) : AttributeTree :=
  mounted (Tree.put {} (Path.ofText "/sys/a/model") (.file bytes)) "/sys"

theorem readBytes_withModel (bytes : Bytes) :
    (withModel bytes).readBytes "/sys/a" "model" = some bytes := by
  have hnode : (withModel bytes).tree.readFile (filePath "/sys/a" "model") = .ok bytes := by rfl
  rw [readBytes, hnode]
  rfl

theorem read_line_iff_cafe :
    10 ∉ encode "Café" ∧
      (withModel (encode "Café" ++ 10 :: [])).read "/sys/a" "model" = some ("Café" : Text) ∧
      ¬ (withModel (encode "Café" ++ 10 :: [])).read "/sys/a" "model" =
        (withModel (encode "Café" ++ 10 :: [0xFF])).read "/sys/a" "model" := by
  obtain ⟨htext, -, hwhole, -, -, hsame⟩ := read_line_iff
    (show 10 ∉ encode "Café" by decide) (readBytes_withModel (encode "Café"))
    (readBytes_withModel (encode "Café" ++ 10 :: []))
    (readBytes_withModel (encode "Café" ++ 10 :: [0xFF]))
  refine ⟨by decide, ?_, ?_⟩
  · rw [hwhole (by decide), htext "Café" rfl]
  · rw [hsame]
    decide +kernel

/-- One byte on a further line, and the first line is another text. -/
theorem read_line_of_brokenTail :
    (withModel (encode "Café")).read "/sys/a" "model" = some ("Café" : Text) ∧
      (withModel (encode "Café" ++ 10 :: [0xFF])).read "/sys/a" "model" =
        some ("CafÃ©" : Text) := by
  decide +kernel

end AttributeTree
end StorageAtlas
