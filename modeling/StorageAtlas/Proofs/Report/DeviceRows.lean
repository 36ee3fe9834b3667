import StorageAtlas.Proofs.Address.LunLevels
import StorageAtlas.Proofs.Listing.OneLine
import StorageAtlas.Proofs.Listing.UnitBytes
import StorageAtlas.Proofs.Report.LineCount

/-!
Rows of devices that take more than one line. Where all names are on one line, the only
text that can split a row is the identity of the unit, and it does so wherever it is
shown: in its own column or in the summary of an ATA disk.
-/

namespace StorageAtlas

open Text (OneLine)

/-! ## Addresses -/

namespace Address

theorem oneLine_levelText (level : Lun.Level) : OneLine (levelText level) := by
  unfold levelText
  split
  · exact Text.oneLine_cons.2 ⟨by decide, Text.oneLine_hex _⟩
  · exact Text.oneLine_hex _

theorem oneLine_namespaceText (f : LunFormat) (lun : Int) : OneLine (namespaceText f lun) := by
  cases f with
  | decimal =>
    simp only [namespaceText]
    split
    · decide
    · exact Text.oneLine_decimal _
  | hex => exact Text.oneLine_append.2 ⟨by decide, Text.oneLine_padZeros (Text.oneLine_hexadecimal _) _⟩
  | fullHex => exact Text.oneLine_append.2 ⟨by decide, Text.oneLine_padZeros (Text.oneLine_hexadecimal _) _⟩

theorem oneLine_lunText {f : LunFormat} {a : Address} {t : Text} (h : lunText f a = .ok t) :
    OneLine t := by
  unfold lunText at h
  split at h
  · cases h
    exact oneLine_namespaceText _ _
  · cases h
    split
    · decide
    · exact Text.oneLine_signed _
  · obtain ⟨levels, -, rfl⟩ := exists_of_map_eq_ok h
    refine Text.oneLine_append.2 ⟨by decide, ?_⟩
    exact Text.oneLine_flatMap fun level _ => oneLine_levelText level
  · cases h
    exact Text.oneLine_append.2 ⟨by decide, Text.oneLine_padZeros (Text.oneLine_hexadecimal _) _⟩

theorem oneLine_format {f : LunFormat} {a : Address} {t : Text} (h : a.format f = .ok t) :
    OneLine t := by
  obtain ⟨lun, hlun, rfl⟩ := exists_of_map_eq_ok h
  have hhost : OneLine (if a.isNvme then ("N" : Text) else Text.signed a.host) := by
    split
    · decide
    · exact Text.oneLine_signed _
  have hcolon : OneLine (":" : Text) := by decide
  simp only [Text.oneLine_append, hhost, hcolon, Text.oneLine_signed, oneLine_lunText hlun,
    and_self]

theorem WellFormed.length_lunBytes {a : Address} (h : a.WellFormed) (hfamily : a.family = .scsi) :
    a.lunBytes.length = 8 := by
  obtain ⟨-, -, -, hread⟩ := h.scsi hfamily
  obtain ⟨n, hn, -⟩ := exists_of_map_eq_ok hread
  unfold Lun.toNat at hn
  split at hn
  · assumption
  · cases hn

/-- Every address with the bytes of its unit can be written. -/
theorem WellFormed.exists_format {a : Address} (h : a.WellFormed) (f : LunFormat) :
    ∃ t, a.format f = .ok t := by
  have hlun : ∃ t, lunText f a = .ok t := by
    unfold lunText
    split
    · exact ⟨_, rfl⟩
    · exact ⟨_, rfl⟩
    · rw [Lun.levels_of_length (h.length_lunBytes ‹_›)]
      split
      · exact ⟨_, rfl⟩
      · exact ⟨_, rfl⟩
    · exact ⟨_, rfl⟩
  obtain ⟨t, ht⟩ := hlun
  rw [format, ht]
  exact ⟨_, rfl⟩

end Address

namespace Report

variable {o : ReportOptions} {r : Record} {columns more : List Column} {cells : List Text}

/-! ## Cells on one line -/

/-- Is the cell of a record on one line, if there is one? -/
def Column.OneLine (column : Column) (r : Record) : Prop :=
  ∀ cell, column.cell r = .ok cell → Text.OneLine cell

theorem oneLine_plain_iff {header : Text} {cell : Record → Text} :
    (plain header cell).OneLine r ↔ OneLine (cell r) := by
  constructor
  · exact fun h => h _ rfl
  · rintro h _ ⟨⟩
    exact h

theorem Row.append (h : Row (columns ++ more) r cells) :
    ∃ first rest, cells = first ++ rest ∧ Row columns r first ∧ Row more r rest := by
  induction columns generalizing cells with
  | nil => exact ⟨[], cells, rfl, .nil, h⟩
  | cons column columns ih =>
    obtain ⟨cell, others, hcell, hothers, rfl⟩ := List.forall₂_cons_left_iff.1 h
    obtain ⟨first, rest, rfl, hfirst, hrest⟩ := ih hothers
    exact ⟨cell :: first, rest, rfl, .cons hcell hfirst, hrest⟩

theorem Row.oneLine_flatten_iff (h : Row columns r cells) :
    OneLine cells.flatten ↔ ∀ column ∈ columns, column.OneLine r := by
  induction h with
  | nil => exact iff_of_true (by decide) (List.forall_mem_nil _)
  | @cons column cell columns cells hcell _ ih =>
    rw [List.flatten_cons, Text.oneLine_append, List.forall_mem_cons, ih]
    refine and_congr_left fun _ => ⟨fun hline other hother => ?_, fun hline => hline cell hcell⟩
    rwa [Except.ok.inj (hother.symm.trans hcell)]

theorem oneLine_orDash {t : Option Text} (h : ∀ u, t = some u → OneLine u) :
    OneLine (orDash t) := by
  unfold orDash
  split
  · exact h _ rfl
  · decide

theorem oneLine_valueOr (h : r.attributes.All OneLine) {name default : Text}
    (hdefault : OneLine default) : OneLine (r.valueOr name default) := by
  unfold Record.valueOr
  cases hvalue : r.attributes.get? name with
  | none => exact hdefault
  | some value => exact h.get? hvalue

theorem oneLine_deviceType (r : Record) : OneLine r.deviceType := by
  unfold Record.deviceType
  split
  · decide
  · unfold DeviceType.shortName DeviceType.nameIn
    split
    · split
      · decide
      · exact Text.oneLine_getD (by decide) _ (by decide)
    · decide

theorem oneLine_size {scale : SizeScale} (h : ∀ unit ∈ scale.units, OneLine unit) (size : Int) :
    OneLine (scale.text size) := by
  have hunit : ∀ n, OneLine (scale.units.getD n []) :=
    fun n => Text.oneLine_getD h n List.not_mem_nil
  simp only [SizeScale.text]
  split
  · refine Text.oneLine_append.2 ⟨Text.oneLine_signed _, ?_⟩
    have hfirst := hunit 0
    rwa [List.getD_eq_getElem?_getD, ← List.head?_eq_getElem?, ← List.headD_eq_head?_getD] at hfirst
  · simp only [Text.oneLine_append, Text.oneLine_decimal, hunit, true_and, and_true, SizeScale.fraction]
    split
    · decide
    · refine Text.oneLine_cons.2 ⟨by decide, Text.OneLine.of_subset ?_ (List.take_subset _ _)⟩
      exact Text.oneLine_padZeros (Text.oneLine_decimal _) 3

theorem oneLine_sizeCell (h : ∀ unit ∈ o.sizeScale.units, OneLine unit) (r : Record) :
    OneLine (sizeCell o r) := by
  unfold sizeCell
  split
  · split
    · split
      · exact oneLine_size h _
      · decide
    · decide
  · decide

theorem oneLine_numberText (n : DeviceNumber) : OneLine n.text := by
  have hcolon : OneLine (":" : Text) := by decide
  simp only [DeviceNumber.text, Text.oneLine_append, Text.oneLine_signed, hcolon, and_self]

/-! ## The columns of devices -/

theorem oneLine_addressColumn (o : ReportOptions) (r : Record) : (addressColumn o).OneLine r := by
  intro cell hcell
  obtain ⟨t, ht, rfl⟩ := exists_of_map_eq_ok hcell
  simp only [bracketed, Text.oneLine_append]
  exact ⟨⟨by decide, Address.oneLine_format ht⟩, by decide⟩

theorem oneLine_attributeColumns (h : r.attributes.All OneLine) :
    ∀ column ∈ attributeColumns, column.OneLine r := by
  simp only [attributeColumns, List.forall_mem_cons]
  refine ⟨oneLine_plain_iff.2 (oneLine_deviceType r), ?_, ?_, ?_, List.forall_mem_nil _⟩
  all_goals exact oneLine_plain_iff.2 (oneLine_valueOr h (by decide))

theorem oneLine_identityColumn_iff :
    identityColumn.OneLine r ↔ ∀ i, r.identity = some i → OneLine i.text := by
  rw [identityColumn, oneLine_plain_iff, identityCell.eq_def]
  cases r.identity with
  | none => exact iff_of_true (show OneLine "-" by decide) (by simp)
  | some i => simp

theorem oneLine_transportColumn_iff (h : r.Tidy) :
    transportColumn.OneLine r ↔
      ∀ u, r.transport = some u → u.IsAta → ∀ i, r.identity = some i → OneLine i.text := by
  rw [transportColumn, oneLine_plain_iff, transportCell.eq_def]
  cases htransport : r.transport with
  | none => exact iff_of_true (show OneLine "-" by decide) (by simp)
  | some u =>
    by_cases hknown : u.isKnown = true
    · simp [hknown, h.transport u htransport]
    · have hata : ¬ u.IsAta := by
        rintro (hkind | hkind) <;> simp [Transport.isKnown, hkind] at hknown
      simp only [hknown]
      refine iff_of_true (show OneLine "-" by decide) ?_
      rintro _ ⟨⟩ hkind
      exact absurd hkind hata

theorem oneLine_nodeCell (h : r.NamesOneLine) : OneLine (nodeCell o r) := by
  refine oneLine_orDash fun path hpath => ?_
  split at hpath
  · exact (h.kernelName path hpath).1
  · exact (h.deviceNode path hpath).1

/-- The cell of the node is never blank: it is a dash or holds a slash. -/
theorem exists_visible_nodeCell (h : r.NamesOneLine) :
    ∃ c ∈ nodeCell o r, Text.isBlank c = false := by
  unfold nodeCell orDash
  split
  · rename_i c rest hpath
    have hplain : PathText.IsPlain (c :: rest) := by
      split at hpath
      · exact h.kernelName _ hpath
      · exact h.deviceNode _ hpath
    exact ⟨'/', hplain.2, by decide⟩
  · exact ⟨'-', by decide, by decide⟩

theorem oneLine_further (h : r.NamesOneLine) (hscale : ∀ unit ∈ o.sizeScale.units, OneLine unit) :
    ∀ column ∈ further o, column.OneLine r := by
  refine forall_mem_further ?_ ?_ ?_ ?_ ?_
  · refine oneLine_plain_iff.2 (oneLine_orDash fun t ht => ?_)
    obtain ⟨n, -, rfl⟩ := Option.map_eq_some_iff.1 ht
    exact oneLine_numberText n
  · exact oneLine_plain_iff.2 (oneLine_orDash fun path hpath => (h.genericNode path hpath).1)
  · exact oneLine_plain_iff.2 (oneLine_orDash h.wwn)
  · exact oneLine_plain_iff.2 (oneLine_orDash h.scsiId)
  · exact oneLine_plain_iff.2 (oneLine_sizeCell hscale r)

/-! ## Rows -/

/-- Does the row of a record say its identity, in a column of its own or in the summary of an ATA
disk? -/
def SaysIdentity (o : ReportOptions) (r : Record) : Prop :=
  o.brief = false ∧ (o.identity = true ∨ o.transport = true ∧ ∃ u, r.transport = some u ∧ u.IsAta)

theorem oneLine_describing_iff (h : r.Tidy) :
    (∀ column ∈ describing o, column.OneLine r) ↔
      (SaysIdentity o r → ∀ i, r.identity = some i → OneLine i.text) := by
  constructor
  · rintro hcolumns ⟨hbrief, hshown⟩
    rcases hshown with hidentity | ⟨htransport, u, hu, hata⟩
    · refine oneLine_identityColumn_iff.1 (hcolumns _ ?_)
      simp [describing, hbrief, hidentity, shownIf]
    · refine (oneLine_transportColumn_iff h).1 (hcolumns _ ?_) u hu hata
      simp [describing, hbrief, htransport, shownIf]
  · intro hsaid
    refine forall_mem_describing (oneLine_attributeColumns h.attributes) ?_ ?_
    · intro hbrief htransport
      refine (oneLine_transportColumn_iff h).2 fun u hu hata => ?_
      exact hsaid ⟨hbrief, .inr ⟨htransport, u, hu, hata⟩⟩
    · intro hbrief hidentity
      exact oneLine_identityColumn_iff.2 (hsaid ⟨hbrief, .inl hidentity⟩)

/-- The row of such a record takes one line unless it says an identity with a line feed in it. -/
theorem not_splits_iff (h : r.Tidy) (hscale : ∀ unit ∈ o.sizeScale.units, OneLine unit)
    (haddress : ∃ t, r.address.format o.lunFormat = .ok t) :
    ¬ Splits o r ↔ (SaysIdentity o r → ∀ i, r.identity = some i → OneLine i.text) := by
  obtain ⟨cells, hcells⟩ := (exists_row_iff o false r).2 fun _ => haddress
  rw [splits_iff_of_deviceRow hcells, ← oneLine_describing_iff h]
  have hrow : Row (deviceColumns o) r cells := row_of_deviceRow hcells
  obtain ⟨address, rest, haddress, hrest, rfl⟩ := List.forall₂_cons_left_iff.1 hrow
  obtain ⟨before, others, rfl, hbefore, hothers⟩ := Row.append hrest
  obtain ⟨node, after, ⟨⟩, hafter, rfl⟩ := List.forall₂_cons_left_iff.1 hothers
  -- the node is visible, so all that stands before it stays
  obtain ⟨c, hc, hvisible⟩ := exists_visible_nodeCell (o := o) h.toNamesOneLine
  have hend : OneLine (Text.trimEnd (nodeCell o r ++ after.flatten)) := by
    refine Text.OneLine.of_subset ?_ (Text.trimEnd_subset _)
    have hlines := (Row.oneLine_flatten_iff hafter).2 (oneLine_further h.toNamesOneLine hscale)
    exact Text.oneLine_append.2 ⟨oneLine_nodeCell h.toNamesOneLine, hlines⟩
  have hflatten : (address :: (before ++ nodeCell o r :: after)).flatten =
      (address ++ before.flatten) ++ (nodeCell o r ++ after.flatten) := by
    simp
  rw [hflatten, Text.trimEnd_append _ ⟨c, List.mem_append_left _ hc, hvisible⟩]
  show OneLine _ ↔ _
  rw [Text.oneLine_append, Text.oneLine_append, and_iff_left hend,
    and_iff_right (oneLine_addressColumn o r address haddress), hbefore.oneLine_flatten_iff]

end Report
end StorageAtlas
