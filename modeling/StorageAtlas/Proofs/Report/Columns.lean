import Mathlib
import StorageAtlas.Proofs.Failure
import StorageAtlas.Proofs.Listing.Units
import StorageAtlas.Report.Listing

/-!
Where the cells of a table stand. Headers and rows are put together separately, each
under conditions of its own; both follow the same columns, so no row is longer than the
headers. A column is as wide as the widest of its header and its cells, so each begins at
the same character of every line, and what stands there in the row of a record is what
the column of that header shows of it.
-/

namespace StorageAtlas

/-- A traversal gives a result if each element does. -/
theorem exists_mapM_eq_ok_iff {α β ε : Type} {f : α → Except ε β} {l : List α} :
    (∃ m, l.mapM f = .ok m) ↔ ∀ a ∈ l, ∃ b, f a = .ok b := by
  simp only [View.mapM_eq_ok_iff]
  induction l with
  | nil => simp
  | cons a rest ih =>
    rw [List.forall_mem_cons, ← ih]
    constructor
    · rintro ⟨m, hm⟩
      obtain ⟨b, rest', hb, hrest, -⟩ := List.forall₂_cons_left_iff.1 hm
      exact ⟨⟨b, hb⟩, rest', hrest⟩
    · rintro ⟨⟨b, hb⟩, m, hm⟩
      exact ⟨b :: m, .cons hb hm⟩

/-- Does a text stand in another one, with so many characters before it? -/
def Text.StandsAt (t whole : Text) (n : Nat) : Prop :=
  ∃ before after, whole = before ++ t ++ after ∧ before.length = n

namespace Table

/-- A row before the blanks at its end are left out. -/
def filled (ws : List Nat) (cells : List Text) : Text :=
  Text.join "  " (List.zipWith Text.padRight ws cells)

/-- The character at which a column begins: two spaces stand behind each column before it. -/
def start (ws : List Nat) (j : Nat) : Nat := ∑ i ∈ Finset.range j, (ws.getD i 0 + 2)

/-- The lengths of what stands in a column. -/
def lengthsIn (rows : List (List Text)) (j : Nat) : Set Nat :=
  {n | ∃ cells ∈ rows, n = (cells.getD j []).length}

/-- Under these widths all rows have their cells at the starts of their columns, and no column is
wider than it has to be. -/
structure Aligned (headers : List Text) (rows : List (List Text)) (ws : List Nat) : Prop where
  length_widths : ws.length = headers.length
  length_row : ∀ cells ∈ rows, cells.length = headers.length
  widest : ∀ j < headers.length, IsGreatest (lengthsIn (headers :: rows) j) (ws.getD j 0)
  standsAt : ∀ cells ∈ headers :: rows, ∀ j cell, cells[j]? = some cell →
    Text.StandsAt cell (filled ws cells) (start ws j)

variable {ws : List Nat} {cells headers : List Text} {rows : List (List Text)} {j : Nat}

/-- A row can be filled up exactly if there is a width for each of its cells. -/
theorem padded_eq (ws : List Nat) (cells : List Text) : padded ws cells =
    if cells.length ≤ ws.length then .ok (List.zipWith Text.padRight ws cells)
    else .error .noSuchColumn := by
  fun_induction padded ws cells with
  | case1 ws =>
    rw [List.zipWith_nil_right]
    exact (if_pos (Nat.zero_le _)).symm
  | case2 cell cells => exact (if_neg (Nat.not_succ_le_zero _)).symm
  | case3 w ws cell cells ih =>
    simp only [ih, List.length_cons, Nat.add_le_add_iff_right]
    split
    · rfl
    · rfl

theorem line_eq (h : cells.length ≤ ws.length) :
    line ws cells = .ok (Text.trimEnd (filled ws cells)) := by
  rw [line, padded_eq, if_pos h]
  rfl

/-! ## Widths -/

theorem length_widen (ws : List Nat) (cells : List Text) : (widen ws cells).length = ws.length := by
  fun_induction widen ws cells with
  | case1 => rfl
  | case2 => rfl
  | case3 w ws cell cells ih => rw [List.length_cons, List.length_cons, ih]

theorem getD_widen (hj : j < ws.length) (cells : List Text) :
    (widen ws cells).getD j 0 = max (ws.getD j 0) (cells.getD j []).length := by
  fun_induction widen ws cells generalizing j with
  | case1 => cases hj
  | case2 => simp
  | case3 w ws cell cells ih =>
    cases j with
    | zero => rfl
    | succ j => exact ih (Nat.lt_of_succ_lt_succ hj)

theorem lengthsIn_cons (cells : List Text) (rows : List (List Text)) (j : Nat) :
    lengthsIn (cells :: rows) j = insert (cells.getD j []).length (lengthsIn rows j) := by
  ext n
  simp [lengthsIn]

/-- One number in place of two that it is the larger of. -/
theorem isGreatest_insert_max {s : Set Nat} {a b m : Nat} (h : IsGreatest (insert (max a b) s) m) :
    IsGreatest (insert a (insert b s)) m := by
  obtain ⟨hmem, hle⟩ := h
  have hmax : max a b ≤ m := hle (Set.mem_insert _ _)
  constructor
  · rcases hmem with rfl | hmem
    · rcases max_choice a b with h | h
      · rw [h]
        exact Set.mem_insert _ _
      · rw [h]
        exact Set.mem_insert_of_mem _ (Set.mem_insert _ _)
    · exact Set.mem_insert_of_mem _ (Set.mem_insert_of_mem _ hmem)
  · rintro n (rfl | rfl | hn)
    · exact (le_max_left _ _).trans hmax
    · exact (le_max_right _ _).trans hmax
    · exact hle (Set.mem_insert_of_mem _ hn)

theorem length_foldl_widen (ws : List Nat) (rows : List (List Text)) :
    (rows.foldl widen ws).length = ws.length := by
  induction rows generalizing ws with
  | nil => rfl
  | cons cells rest ih => rw [List.foldl_cons, ih, length_widen]

theorem isGreatest_foldl_widen (hj : j < ws.length) (rows : List (List Text)) :
    IsGreatest (insert (ws.getD j 0) (lengthsIn rows j)) ((rows.foldl widen ws).getD j 0) := by
  induction rows generalizing ws with
  | nil =>
    have hnone : lengthsIn [] j = ∅ := by simp [lengthsIn]
    rw [hnone, insert_empty_eq]
    exact isGreatest_singleton
  | cons cells rest ih =>
    have hlength : j < (widen ws cells).length := by rwa [length_widen]
    have hrest := ih hlength
    rw [getD_widen hj] at hrest
    rw [lengthsIn_cons]
    exact isGreatest_insert_max hrest

theorem length_widths (headers : List Text) (rows : List (List Text)) :
    (widths headers rows).length = headers.length := by
  rw [widths, length_foldl_widen, List.length_map]

theorem isGreatest_widths (hj : j < headers.length) (rows : List (List Text)) :
    IsGreatest (lengthsIn (headers :: rows) j) ((widths headers rows).getD j 0) := by
  have hheader : (headers.map List.length).getD j 0 = (headers.getD j []).length := by
    simp [List.getD_eq_getElem?_getD, hj]
  rw [lengthsIn_cons, ← hheader]
  exact isGreatest_foldl_widen (by rwa [List.length_map]) rows

/-! ## Starts -/

theorem start_cons_succ (w : Nat) (ws : List Nat) (j : Nat) :
    start (w :: ws) (j + 1) = w + 2 + start ws j := by
  rw [start, Finset.sum_range_succ', Nat.add_comm]
  rfl

theorem length_padRight {w : Nat} {cell : Text} (h : cell.length ≤ w) :
    (Text.padRight w cell).length = w := by
  rw [Text.padRight, List.length_append, List.length_replicate]
  omega

theorem filled_cons_cons (w w' : Nat) (ws : List Nat) (cell cell' : Text) (cells : List Text) :
    filled (w :: w' :: ws) (cell :: cell' :: cells) =
      Text.padRight w cell ++ ("  " ++ filled (w' :: ws) (cell' :: cells)) := by
  simp only [filled, List.zipWith_cons_cons, Text.join, List.append_assoc]

/-- A first cell stands at the very beginning, whatever stands behind it. -/
theorem standsAt_first (w : Nat) (ws : List Nat) (cell : Text) (cells : List Text) :
    Text.StandsAt cell (filled (w :: ws) (cell :: cells)) 0 := by
  cases ws with
  | nil => exact ⟨[], List.replicate (w - cell.length) ' ', rfl, rfl⟩
  | cons w' ws =>
    cases cells with
    | nil => exact ⟨[], List.replicate (w - cell.length) ' ', rfl, rfl⟩
    | cons cell' cells =>
      rw [filled_cons_cons, Text.padRight, List.append_assoc]
      exact ⟨[], _, rfl, rfl⟩

/-- The cells of a row that fit their columns stand at the starts of these. -/
theorem standsAt_start (h : List.Forall₂ (fun w (cell : Text) => cell.length ≤ w) ws cells)
    {cell : Text} (hcell : cells[j]? = some cell) :
    Text.StandsAt cell (filled ws cells) (start ws j) := by
  induction h generalizing j with
  | nil => cases hcell
  | @cons w first ws cells hfits hrest ih =>
    cases j with
    | zero =>
      cases hcell
      exact standsAt_first w ws _ cells
    | succ j =>
      obtain ⟨before, after, hwhole, hlength⟩ := ih hcell
      -- there is a second cell, so the first one is filled up and spaces follow it
      cases hrest with
      | nil => cases hcell
      | @cons w' cell' ws cells _ _ =>
        refine ⟨Text.padRight w first ++ ("  " ++ before), after, ?_, ?_⟩
        · rw [filled_cons_cons, hwhole]
          simp only [List.append_assoc]
        · rw [start_cons_succ, List.length_append, List.length_append, length_padRight hfits, hlength]
          exact (Nat.add_assoc w 2 _).symm

/-- Rows with a cell for each header are aligned by the widths of the table. -/
theorem aligned_widths (h : ∀ cells ∈ rows, cells.length = headers.length) :
    Aligned headers rows (widths headers rows) where
  length_widths := length_widths headers rows
  length_row := h
  widest := fun _ hj => isGreatest_widths hj rows
  standsAt := by
    intro cells hcells j cell hcell
    have hlength : cells.length = headers.length := by
      rcases List.mem_cons.1 hcells with rfl | hcells
      · rfl
      · exact h cells hcells
    refine standsAt_start (List.forall₂_iff_get.2 ⟨?_, fun i hi hi' => ?_⟩) hcell
    · rw [length_widths, hlength]
    · have hwidest := (isGreatest_widths (hlength ▸ hi') rows).2 ⟨cells, hcells, rfl⟩
      rw [List.getD_eq_getElem _ _ hi, List.getD_eq_getElem _ _ hi'] at hwidest
      exact hwidest

end Table

namespace Report

/-! ## Columns -/

/-- A column of a table: its header and its cell in the row of a record. -/
structure Column where
  header : Text
  cell : Record → Except ValueFault Text

def plain (header : Text) (cell : Record → Text) : Column := ⟨header, fun r => .ok (cell r)⟩

def addressColumn (o : ReportOptions) : Column := ⟨"Address", addressCell o⟩

/-- The columns that are there in every table of devices but a brief one. -/
def attributeColumns : List Column :=
  [plain "Type" Record.deviceType, plain "Vendor" (·.valueOr "vendor" "?"),
    plain "Model" (·.valueOr "model" "?"), plain "Rev" (·.valueOr "rev" "?")]

def transportColumn : Column := plain "Transport" transportCell

def identityColumn : Column := plain "Identity" identityCell

/-- The columns between those of the addresses and of the nodes. -/
def describing (o : ReportOptions) : List Column :=
  if o.brief then []
  else
    List.flatten
      [attributeColumns, shownIf o.transport transportColumn, shownIf o.identity identityColumn]

def nodeColumn (o : ReportOptions) : Column := plain "Device" (nodeCell o)

/-- The columns behind the one of the nodes. -/
def further (o : ReportOptions) : List Column :=
  List.flatten
    [shownIf o.number (plain "MajMin" fun r => orDash (r.number.map DeviceNumber.text)),
      shownIf o.generic (plain "Generic" fun r => orDash r.genericNode),
      shownIf o.wwn (plain "WWN" fun r => orDash r.wwn),
      shownIf o.scsiId (plain "SCSI_ID" fun r => orDash r.scsiId),
      shownIf o.size (plain "Size" (sizeCell o))]

def deviceColumns (o : ReportOptions) : List Column :=
  addressColumn o :: (describing o ++ nodeColumn o :: further o)

def hostColumns (o : ReportOptions) : List Column :=
  List.flatten
    [[plain "Host" hostCell, plain "Driver" driverCell], shownIf o.transport transportColumn,
      [nodeColumn o]]

/-- The columns of a table of hosts or of devices. -/
def columnsOf (o : ReportOptions) (hosts : Bool) : List Column :=
  if hosts then hostColumns o else deviceColumns o

/-- A row holds what each column shows of a record, in the order of the columns. -/
def Row (columns : List Column) (r : Record) (cells : List Text) : Prop :=
  List.Forall₂ (fun column cell => column.cell r = .ok cell) columns cells

variable {o : ReportOptions} {columns more : List Column} {column shown : Column} {r : Record}
  {cells others : List Text}

/-! ## What holds of all columns -/

section

variable {p : Column → Prop}

theorem forall_mem_shownIf {condition : Bool} (h : condition = true → p shown) :
    ∀ column ∈ shownIf condition shown, p column := by
  cases condition with
  | false => exact List.forall_mem_nil p
  | true => exact List.forall_mem_singleton.2 (h rfl)

theorem forall_mem_describing (hattributes : ∀ column ∈ attributeColumns, p column)
    (htransport : o.brief = false → o.transport = true → p transportColumn)
    (hidentity : o.brief = false → o.identity = true → p identityColumn) :
    ∀ column ∈ describing o, p column := by
  unfold describing
  cases hbrief : o.brief with
  | true => exact List.forall_mem_nil p
  | false =>
    simp only [Bool.false_eq_true, if_false, List.flatten_cons, List.flatten_nil, List.append_nil,
      List.forall_mem_append]
    exact ⟨hattributes, forall_mem_shownIf (htransport hbrief),
      forall_mem_shownIf (hidentity hbrief)⟩

theorem forall_mem_further
    (hnumber : p (plain "MajMin" fun r => orDash (r.number.map DeviceNumber.text)))
    (hgeneric : p (plain "Generic" fun r => orDash r.genericNode))
    (hwwn : p (plain "WWN" fun r => orDash r.wwn))
    (hscsiId : p (plain "SCSI_ID" fun r => orDash r.scsiId))
    (hsize : p (plain "Size" (sizeCell o))) : ∀ column ∈ further o, p column := by
  simp only [further, List.flatten_cons, List.flatten_nil, List.append_nil, List.forall_mem_append]
  refine ⟨?_, ?_, ?_, ?_, ?_⟩
  all_goals exact forall_mem_shownIf fun _ => by assumption

end

/-! ## Headers -/

theorem map_shownIf {α β : Type} (f : α → β) (condition : Bool) (a : α) :
    (shownIf condition a).map f = shownIf condition (f a) := by
  cases condition with
  | false => rfl
  | true => rfl

theorem map_header_further (o : ReportOptions) : (further o).map Column.header =
    (List.flatten
      [shownIf o.number "MajMin", shownIf o.generic "Generic", shownIf o.wwn "WWN",
        shownIf o.scsiId "SCSI_ID", shownIf o.size "Size"] : List Text) := by
  simp only [further, List.map_flatten, List.map_cons, List.map_nil, map_shownIf]
  rfl

theorem map_header_describing (o : ReportOptions) : (describing o).map Column.header =
    (if o.brief then []
    else
      List.flatten
        [["Type", "Vendor", "Model", "Rev"], shownIf o.transport "Transport",
          shownIf o.identity "Identity"] : List Text) := by
  unfold describing
  cases o.brief with
  | true => rfl
  | false =>
    simp only [Bool.false_eq_true, if_false, List.map_flatten, List.map_cons, List.map_nil,
      map_shownIf]
    rfl

/-- The headers are those of the columns, whichever columns are there. -/
theorem headers_eq (o : ReportOptions) (hosts : Bool) :
    headers o hosts = (columnsOf o hosts).map Column.header := by
  cases hosts with
  | true =>
    show hostHeaders o = (hostColumns o).map Column.header
    simp only [hostColumns, List.map_flatten, List.map_cons, List.map_nil, map_shownIf]
    rfl
  | false =>
    show deviceHeaders o = (deviceColumns o).map Column.header
    rw [deviceColumns, List.map_cons, List.map_append, List.map_cons, map_header_further,
      map_header_describing, deviceHeaders, List.flatten_cons]
    cases o.brief with
    | true => rfl
    | false =>
      simp only [Bool.false_eq_true, if_false, List.flatten_cons, List.flatten_nil,
        List.append_nil, List.append_assoc]
      rfl

/-! ## Rows -/

theorem Row.unique (h : Row columns r cells) (h' : Row columns r others) : cells = others :=
  Except.ok.inj ((View.mapM_eq_ok_iff.2 h).symm.trans (View.mapM_eq_ok_iff.2 h'))

theorem Row.ofShownIf {cell : Text} (condition : Bool) (h : column.cell r = .ok cell) :
    Row (shownIf condition column) r (shownIf condition cell) := by
  cases condition with
  | false => exact .nil
  | true => exact .cons h .nil

theorem Row.join (h : Row columns r cells) (h' : Row more r others) :
    Row (columns ++ more) r (cells ++ others) :=
  List.rel_append h h'

theorem row_describing (o : ReportOptions) (r : Record) : Row (describing o) r
    (if o.brief then []
    else
      List.flatten
        [[r.deviceType, r.valueOr "vendor" "?", r.valueOr "model" "?", r.valueOr "rev" "?"],
          shownIf o.transport (transportCell r), shownIf o.identity (identityCell r)]) := by
  unfold describing
  cases o.brief with
  | true => exact .nil
  | false =>
    have hattributes : Row attributeColumns r
        [r.deviceType, r.valueOr "vendor" "?", r.valueOr "model" "?", r.valueOr "rev" "?"] :=
      .cons rfl (.cons rfl (.cons rfl (.cons rfl .nil)))
    exact hattributes.join ((Row.ofShownIf _ rfl).join ((Row.ofShownIf _ rfl).join .nil))

theorem row_further (o : ReportOptions) (r : Record) : Row (further o) r
    (List.flatten
      [shownIf o.number (orDash (r.number.map DeviceNumber.text)),
        shownIf o.generic (orDash r.genericNode), shownIf o.wwn (orDash r.wwn),
        shownIf o.scsiId (orDash r.scsiId), shownIf o.size (sizeCell o r)]) :=
  (Row.ofShownIf _ rfl).join <| (Row.ofShownIf _ rfl).join <| (Row.ofShownIf _ rfl).join <|
    (Row.ofShownIf _ rfl).join <| (Row.ofShownIf _ rfl).join .nil

/-- The row of a host holds what the columns of hosts show. -/
theorem row_host (o : ReportOptions) (r : Record) : Row (hostColumns o) r (hostRow o r) := by
  have hfirst : Row [plain "Host" hostCell, plain "Driver" driverCell] r
      [hostCell r, driverCell r] := .cons rfl (.cons rfl .nil)
  have hnode : Row [nodeColumn o] r [nodeCell o r] := .cons rfl .nil
  exact hfirst.join ((Row.ofShownIf _ rfl).join (hnode.join .nil))

/-- The row of a device holds what the columns of devices show, if it can be built. -/
theorem row_of_deviceRow (h : deviceRow o r = .ok cells) : Row (deviceColumns o) r cells := by
  obtain ⟨address, haddress, rfl⟩ := exists_of_map_eq_ok h
  have hnode : Row [nodeColumn o] r [nodeCell o r] := .cons rfl .nil
  exact .cons haddress ((row_describing o r).join (hnode.join (row_further o r)))

/-- Rows are put together by the columns, as headers are. -/
theorem row_eq_ok_iff {hosts : Bool} :
    row o hosts r = .ok cells ↔ Row (columnsOf o hosts) r cells := by
  cases hosts with
  | true =>
    constructor
    · intro h
      obtain rfl := Except.ok.inj h
      exact row_host o r
    · exact fun h => congrArg Except.ok ((row_host o r).unique h)
  | false =>
    refine ⟨row_of_deviceRow, fun h => ?_⟩
    obtain ⟨cell, rest, haddress, -, -⟩ := List.forall₂_cons_left_iff.1 h
    have hrow : ∃ built, deviceRow o r = .ok built := by
      rw [deviceRow, show addressCell o r = .ok cell from haddress]
      exact ⟨_, rfl⟩
    obtain ⟨built, hbuilt⟩ := hrow
    show deviceRow o r = .ok cells
    rw [hbuilt, (row_of_deviceRow hbuilt).unique h]

/-- A row that can be built has a cell for each header. -/
theorem length_row {hosts : Bool} (h : row o hosts r = .ok cells) :
    cells.length = (headers o hosts).length := by
  rw [headers_eq, List.length_map]
  exact (row_eq_ok_iff.1 h).length_eq.symm

/-- The row of a host can always be built, that of a device if its address can be written. -/
theorem exists_row_iff (o : ReportOptions) (hosts : Bool) (r : Record) :
    (∃ cells, row o hosts r = .ok cells) ↔
      (hosts = false → ∃ t, r.address.format o.lunFormat = .ok t) := by
  cases hosts with
  | true => exact iff_of_true ⟨_, rfl⟩ (by simp)
  | false =>
    show (∃ cells, deviceRow o r = .ok cells) ↔ _
    constructor
    · rintro ⟨cells, hcells⟩ -
      obtain ⟨address, haddress, -⟩ := exists_of_map_eq_ok hcells
      obtain ⟨t, ht, -⟩ := exists_of_map_eq_ok haddress
      exact ⟨t, ht⟩
    · intro h
      obtain ⟨t, ht⟩ := h rfl
      rw [deviceRow, addressCell, ht]
      exact ⟨_, rfl⟩

/-! ## Tables -/

/-- The lines of a table whose columns have these widths: headers, a rule below them, and rows, all
without the blanks at their ends. -/
def ruled (ws : List Nat) (headers : List Text) (rows : List (List Text)) : List Text :=
  let header := Text.trimEnd (Table.filled ws headers)
  header :: List.replicate header.length '-' ::
    rows.map fun cells => Text.trimEnd (Table.filled ws cells)

section

variable {hosts : Bool} {records : List Record} {rows : List (List Text)}

theorem forall₂_row_of_mapM (h : records.mapM (row o hosts) = .ok rows) :
    List.Forall₂ (Row (columnsOf o hosts)) records rows :=
  (View.mapM_eq_ok_iff.1 h).imp fun _ _ => row_eq_ok_iff.1

theorem aligned_of_mapM (h : records.mapM (row o hosts) = .ok rows) :
    Table.Aligned (headers o hosts) rows (Table.widths (headers o hosts) rows) := by
  have hrow := View.mapM_eq_ok_iff.1 h
  refine Table.aligned_widths fun cells hcells => ?_
  obtain ⟨i, hi, rfl⟩ := List.mem_iff_getElem.1 hcells
  exact length_row ((List.forall₂_iff_get.1 hrow).2 i (hrow.length_eq ▸ hi) hi)

/-- Aligned rows are printed; none is longer than the headers. -/
theorem lines_eq_ruled {headers : List Text}
    (h : Table.Aligned headers rows (Table.widths headers rows)) :
    Table.lines headers rows = .ok (ruled (Table.widths headers rows) headers rows) := by
  have hrows : rows.mapM (Table.line (Table.widths headers rows)) =
      .ok (rows.map fun cells => Text.trimEnd (Table.filled (Table.widths headers rows) cells)) := by
    rw [View.mapM_eq_ok_iff, List.forall₂_map_right_iff, List.forall₂_same]
    intro cells hcells
    exact Table.line_eq (by rw [h.length_row cells hcells, h.length_widths])
  rw [Table.lines, Table.line_eq h.length_widths.ge]
  simp only [bind, Except.bind, hrows]
  rfl

theorem tableLines_eq_ruled (h : records.mapM (row o hosts) = .ok rows) :
    tableLines o hosts records =
      .ok (ruled (Table.widths (headers o hosts) rows) (headers o hosts) rows) := by
  rw [tableLines, h]
  exact lines_eq_ruled (aligned_of_mapM h)

end

/-- The rows of a table can be built if all addresses that it shows can be written. Every record then
has a row with a cell for each header, which holds what the column of that header shows of it; so the
table can be printed, and in its lines the columns are aligned. -/
theorem cells_underHeaders (o : ReportOptions) (hosts : Bool) (records : List Record) :
    ((∃ rows, records.mapM (row o hosts) = .ok rows) ↔
      ∀ r ∈ records, hosts = false → ∃ t, r.address.format o.lunFormat = .ok t) ∧
    headers o hosts = (columnsOf o hosts).map Column.header ∧
    ∀ rows, records.mapM (row o hosts) = .ok rows →
      List.Forall₂ (Row (columnsOf o hosts)) records rows ∧
      ∃ ws, Table.Aligned (headers o hosts) rows ws ∧
        tableLines o hosts records = .ok (ruled ws (headers o hosts) rows) := by
  refine ⟨?_, headers_eq o hosts, ?_⟩
  · simp only [exists_mapM_eq_ok_iff, exists_row_iff]
  · intro rows hrows
    exact ⟨forall₂_row_of_mapM hrows, _, aligned_of_mapM hrows, tableLines_eq_ruled hrows⟩

/-- A disk, and a namespace that shows less of itself in some columns and more in others. -/
def diskAndNamespace : List Record :=
  [{ address := .ofLun 0 0 0 0
     name := "0:0:0:0"
     directory := "/sys/bus/scsi/devices/0:0:0:0"
     deviceNode := some "/dev/sda"
     attributes := .ofList [("type", "0"), ("vendor", "ATA     "), ("model", "ST4000NM0033")] },
    { address := .nvme 0 1 1
      name := "nvme0n1"
      directory := "/sys/class/nvme/nvme0/nvme0n1"
      wwn := some "eui.01"
      attributes := .ofList [("vendor", "NVMe"), ("rev", "1.0")] }]

theorem cells_underHeaders_diskAndNamespace :
    ∃ rows ws, diskAndNamespace.mapM (row { wwn := true } false) = .ok rows ∧
      Table.Aligned (headers { wwn := true } false) rows ws ∧
      ruled ws (headers { wwn := true } false) rows =
        ["Address    Type  Vendor    Model         Rev  Device    WWN",
          "-----------------------------------------------------------",
          "[0:0:0:0]  disk  ATA       ST4000NM0033  ?    /dev/sda  -",
          "[N:0:1:1]  disk  NVMe      ?             1.0  -         eui.01"] := by
  obtain ⟨hbuilt, -, haligned⟩ := cells_underHeaders { wwn := true } false diskAndNamespace
  have hwritten : ∀ r ∈ diskAndNamespace, ∃ t, r.address.format .decimal = .ok t := by
    simp only [diskAndNamespace, List.forall_mem_cons]
    exact ⟨⟨_, rfl⟩, ⟨_, rfl⟩, List.forall_mem_nil _⟩
  obtain ⟨rows, hrows⟩ := hbuilt.2 fun r hr _ => hwritten r hr
  obtain ⟨-, ws, hws, hlines⟩ := haligned rows hrows
  refine ⟨rows, ws, hrows, hws, Except.ok.inj (hlines.symm.trans ?_)⟩
  decide +kernel

end Report
end StorageAtlas
