import StorageAtlas.CommandLine.Run
import StorageAtlas.Proofs.Report.Columns
import StorageAtlas.Proofs.Text.OneLine

/-!
How many lines a table takes. Filling up and joining bring in nothing but spaces, so
the row of a record is one line exactly if no line feed stands in its cells before
the last character that is not blank.
-/

namespace StorageAtlas

/-! ## Lines of a table -/

namespace Table

variable {ws : List Nat} {cells headers : List Text} {rows : List (List Text)}

theorem filter_join_spaces (fields : List Text) :
    (Text.join "  " fields).filter (· ≠ ' ') = fields.flatten.filter (· ≠ ' ') := by
  induction fields with
  | nil => rfl
  | cons field rest ih =>
    cases rest with
    | nil => simp [Text.join]
    | cons next rest =>
      have hglue : (("  " : Text).filter (· ≠ ' ')) = [] := by decide
      simp only [Text.join, List.filter_append, ih, hglue, List.append_nil, List.flatten_cons]

theorem filter_padRight (w : Nat) (cell : Text) :
    (Text.padRight w cell).filter (· ≠ ' ') = cell.filter (· ≠ ' ') := by
  have hspaces : (List.replicate (w - cell.length) ' ').filter (· ≠ ' ') = [] :=
    List.filter_replicate_of_neg (by decide)
  rw [Text.padRight, List.filter_append, hspaces, List.append_nil]

theorem filter_zipWith_padRight (h : cells.length ≤ ws.length) :
    (List.zipWith Text.padRight ws cells).flatten.filter (· ≠ ' ') =
      cells.flatten.filter (· ≠ ' ') := by
  induction cells generalizing ws with
  | nil => rw [List.zipWith_nil_right]
  | cons cell cells ih =>
    cases ws with
    | nil => cases h
    | cons w ws =>
      rw [List.zipWith_cons_cons, List.flatten_cons, List.flatten_cons, List.filter_append,
        List.filter_append, filter_padRight, ih (Nat.le_of_succ_le_succ h)]

/-- Line feeds in the row of a table come from its cells alone, and those at its end do not
count. -/
theorem count_feed_filled (h : cells.length ≤ ws.length) :
    (Text.trimEnd (filled ws cells)).count '\n' = (Text.trimEnd cells.flatten).count '\n' := by
  apply Text.count_feed_trimEnd_eq
  rw [filled, filter_join_spaces, filter_zipWith_padRight h]

end Table

theorem Invocation.count_feed_unlines (lines : List Text) :
    (unlines lines).count '\n' = lines.length + (lines.map (List.count '\n')).sum := by
  induction lines with
  | nil => rfl
  | cons line rest ih =>
    have hcons : unlines (line :: rest) = line ++ '\n' :: unlines rest := by
      rw [unlines, List.flatMap_cons, List.append_assoc]
      rfl
    rw [hcons, List.count_append, List.count_cons_self, ih, List.map_cons, List.sum_cons,
      List.length_cons]
    omega

namespace Report

/-- The line feeds in a row before its last character that is not blank. -/
def feedsIn (cells : List Text) : Nat := (Text.trimEnd cells.flatten).count '\n'

/-- A table has a line for its headers, one for the rule and one for each row, and one more for
every line feed in a row. -/
theorem count_feed_ruled {headers : List Text} {rows : List (List Text)} {ws : List Nat}
    (h : Table.Aligned headers rows ws) (hheaders : '\n' ∉ headers.flatten) :
    (Invocation.unlines (ruled ws headers rows)).count '\n' =
      rows.length + 2 + (rows.map feedsIn).sum := by
  have hheader : (Text.trimEnd (Table.filled ws headers)).count '\n' = 0 := by
    rw [Table.count_feed_filled h.length_widths.ge, List.count_eq_zero]
    exact fun hmem => hheaders (Text.trimEnd_subset _ hmem)
  have hrule (n : Nat) : (List.replicate n '-').count '\n' = 0 := by
    rw [List.count_replicate]
    rfl
  have hrows : (rows.map fun cells => Text.trimEnd (Table.filled ws cells)).map (List.count '\n') =
      rows.map feedsIn := by
    rw [List.map_map]
    refine List.map_congr_left fun cells hcells => Table.count_feed_filled ?_
    rw [h.length_row cells hcells, h.length_widths]
  rw [Invocation.count_feed_unlines, ruled, List.map_cons, List.map_cons, hheader, hrule, hrows]
  simp only [List.length_cons, List.length_map, List.sum_cons]
  omega

theorem feed_not_mem_headers (o : ReportOptions) : '\n' ∉ (headers o false).flatten := by
  have haddress : '\n' ∉ (addressColumn o).header := by
    show '\n' ∉ ("Address" : Text)
    decide
  have hnode : '\n' ∉ (nodeColumn o).header := by
    show '\n' ∉ ("Device" : Text)
    decide
  have hsize : '\n' ∉ (plain "Size" (sizeCell o)).header := by
    show '\n' ∉ ("Size" : Text)
    decide
  have hheaders : ∀ column ∈ deviceColumns o, '\n' ∉ column.header := by
    refine List.forall_mem_cons.2 ⟨haddress, List.forall_mem_append.2 ⟨?_, ?_⟩⟩
    · exact forall_mem_describing (by decide) (fun _ _ => by decide) (fun _ _ => by decide)
    · refine List.forall_mem_cons.2 ⟨hnode, ?_⟩
      exact forall_mem_further (by decide) (by decide) (by decide) (by decide) hsize
  rw [headers_eq]
  simpa [columnsOf] using hheaders

/-- Does the row of a device take more than one line? -/
def Splits (o : ReportOptions) (r : Record) : Prop :=
  ∃ cells, deviceRow o r = .ok cells ∧ '\n' ∈ Text.trimEnd cells.flatten

theorem splits_iff_of_deviceRow {o : ReportOptions} {r : Record} {cells : List Text}
    (h : deviceRow o r = .ok cells) : Splits o r ↔ '\n' ∈ Text.trimEnd cells.flatten := by
  refine ⟨?_, fun hmem => ⟨cells, h, hmem⟩⟩
  rintro ⟨cells', h', hmem⟩
  rwa [Except.ok.inj (h.symm.trans h')]

theorem forall_feedsIn_eq_zero_iff {o : ReportOptions} {records : List Record}
    {rows : List (List Text)}
    (h : List.Forall₂ (fun r cells => deviceRow o r = .ok cells) records rows) :
    (∀ cells ∈ rows, feedsIn cells = 0) ↔ ∀ r ∈ records, ¬ Splits o r := by
  induction h with
  | nil => simp
  | @cons r cells records rows hrow _ ih =>
    rw [List.forall_mem_cons, List.forall_mem_cons, ih, feedsIn, List.count_eq_zero,
      splits_iff_of_deviceRow hrow]

/-- A table of devices has a line for each device and two more, and further ones exactly if rows
split. -/
theorem count_feed_tableLines {o : ReportOptions} {records : List Record} {lines : List Text}
    (h : tableLines o false records = .ok lines) :
    records.length + 2 ≤ (Invocation.unlines lines).count '\n' ∧
      ((Invocation.unlines lines).count '\n' = records.length + 2 ↔
        ∀ r ∈ records, ¬ Splits o r) := by
  obtain ⟨rows, hrows, -⟩ := bind_eq_ok_iff.1 h
  obtain rfl := Except.ok.inj (h.symm.trans (tableLines_eq_ruled hrows))
  have hrow : List.Forall₂ (fun r cells => deviceRow o r = .ok cells) records rows :=
    View.mapM_eq_ok_iff.1 hrows
  rw [count_feed_ruled (aligned_of_mapM hrows) (feed_not_mem_headers o), ← hrow.length_eq]
  refine ⟨Nat.le_add_right _ _, ?_⟩
  rw [Nat.add_eq_left, List.sum_eq_zero_iff, ← forall_feedsIn_eq_zero_iff hrow]
  simp

end Report
end StorageAtlas
