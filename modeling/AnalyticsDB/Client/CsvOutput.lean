import AnalyticsDB.Client.Failover
import AnalyticsDB.Lib.Csv

/-!
# The answer as comma-separated values

The client puts a cell between quotes when it has a comma, a quote or a line feed, and it never puts
the name of a column between quotes.  What a reader gives back is the answer exactly when no name
needs quotes, and every cell with a carriage return has one of the characters the client looks for.
-/

namespace Client

open Csv Quoting

/-- The characters for which the client puts a cell between quotes. -/
def needsQuotes (cell : String) : Bool :=
  cell.toList.contains ',' || cell.toList.contains '"' || cell.toList.contains '\n'

/-- A cell as the client writes it. -/
def renderCell (cell : String) : String :=
  if needsQuotes cell then "\"" ++ String.ofList (double '"' cell.toList) ++ "\"" else cell

def renderCsv (response : QueryResponse) : String :=
  if response.columns.isEmpty then ""
  else
    ",".intercalate response.columns ++ "\n"
      ++ String.join (response.rows.map (fun row => ",".intercalate (row.map renderCell) ++ "\n"))

/-- A reader gets back the names of the columns and the cells. -/
def ReadBack (response : QueryResponse) : Prop :=
  Csv.records (renderCsv response) = some (response.columns :: response.rows)

/-- No name of a column has a comma, a quote or a line break, and a cell with a carriage return has
also a comma, a quote or a line feed. -/
structure CsvSafe (response : QueryResponse) : Prop where
  names : ∀ name ∈ response.columns, name.toList.any special = false
  cells : ∀ row ∈ response.rows, ∀ cell ∈ row,
    cell.toList.contains '\r' = true → needsQuotes cell = true

/-- The name of a column as it is written. -/
def nameField (name : String) : Csv.Field := ⟨name.toList, false⟩

/-- A cell as it is written. -/
def cellField (cell : String) : Csv.Field := ⟨cell.toList, needsQuotes cell⟩

/-- The fields of the header and of the rows. -/
def responseFields (response : QueryResponse) : List (List Csv.Field) :=
  response.columns.map nameField :: response.rows.map (List.map cellField)

theorem any_special (cell : String) :
  cell.toList.any special = (needsQuotes cell || cell.toList.contains '\r')
  := by
  rw [Bool.eq_iff_iff]
  simp only [List.any_eq_true, special, needsQuotes, Bool.or_eq_true, decide_eq_true_eq,
    List.contains_iff_mem]
  constructor
  · rintro ⟨c, hc, ((rfl | rfl) | rfl) | rfl⟩ <;> simp [hc]
  · rintro (((hc | hc) | hc) | hc) <;> exact ⟨_, hc, by simp⟩

theorem written_cellField (cell : String) :
  (cellField cell).written = (renderCell cell).toList
  := by
  rw [cellField, Field.written, renderCell]
  split
  · simp [quote]
  · rfl

/-- The text of an answer is that of its fields. -/
theorem toList_renderCsv {response : QueryResponse} (h : response.columns ≠ []) :
  (renderCsv response).toList = written (responseFields response)
  := by
  have hrecord : ∀ (fields : List Csv.Field) (texts : List String),
      fields.map Field.written = texts.map String.toList →
      (",".intercalate texts ++ "\n").toList = writtenRecord fields := by
    intro fields texts hfields
    rw [String.toList_append, String.toList_intercalate, ← hfields]
    rfl
  have hcells : ∀ row : List String, (row.map cellField).map Field.written
      = (row.map renderCell).map String.toList := by
    intro row
    rw [List.map_map, List.map_map]
    apply List.map_congr_left
    intro cell _
    apply written_cellField
  rw [renderCsv, if_neg (by simpa using h), String.toList_append,
    hrecord (response.columns.map nameField) _ (by rw [List.map_map]; rfl), String.toList_join,
    written, responseFields, List.flatMap_cons]
  congr 1
  rw [List.flatMap_map, List.flatMap_map]
  apply List.flatMap_congr
  intro row _
  exact hrecord _ _ (hcells row)

/-- An answer with columns, each row of which has a cell for each, is read back exactly when it is
safe. -/
theorem readBack_iff {response : QueryResponse} (hcolumns : response.columns ≠ [])
    (hrows : ∀ row ∈ response.rows, row.length = response.columns.length) :
  ReadBack response ↔ CsvSafe response
  := by
  have hnonempty : ∀ fields ∈ responseFields response, fields ≠ [] := by
    rw [responseFields, List.forall_mem_cons]
    refine ⟨by simpa using hcolumns, ?_⟩
    intro fields hfields
    obtain ⟨row, hrow, rfl⟩ := List.mem_map.mp hfields
    rw [Ne, List.map_eq_nil_iff, ← List.length_eq_zero_iff, hrows row hrow,
      List.length_eq_zero_iff]
    exact hcolumns
  have hquoted : ∀ fields ∈ responseFields response, ∀ field ∈ fields,
      field.quoted = true → field.text.any special = true := by
    rw [responseFields, List.forall_mem_cons]
    constructor
    · intro field hfield h
      obtain ⟨name, -, rfl⟩ := List.mem_map.mp hfield
      cases h
    · intro fields hfields field hfield h
      obtain ⟨row, -, rfl⟩ := List.mem_map.mp hfields
      obtain ⟨cell, -, rfl⟩ := List.mem_map.mp hfield
      have hspecial := any_special cell
      rw [show needsQuotes cell = true from h, Bool.true_or] at hspecial
      exact hspecial
  have htexts : (responseFields response).map (List.map Field.text)
      = (response.columns :: response.rows).map (List.map String.toList) := by
    have hcells : List.map Field.text ∘ List.map cellField = List.map String.toList := by
      funext row
      rw [Function.comp_apply, List.map_map]
      rfl
    simp only [responseFields, List.map_cons, List.map_map, hcells]
    rfl
  have hback : ReadBack response
      ↔ read .record (written (responseFields response))
        = some ((responseFields response).map (List.map Field.text)) := by
    rw [ReadBack, Csv.records, toList_renderCsv hcolumns, htexts, Option.map_eq_some_iff]
    constructor
    · rintro ⟨records, hread, htext⟩
      rw [hread, ← htext]
      simp [Function.comp_def]
    · intro hread
      refine ⟨_, hread, ?_⟩
      simp [Function.comp_def]
  rw [hback, read_written_iff hnonempty hquoted, responseFields, List.forall_mem_cons,
    List.forall_mem_map, List.forall_mem_map]
  constructor
  · rintro ⟨hnames, hcells⟩
    constructor
    · intro name hname
      by_contra hspecial
      cases hnames name hname (by simpa [nameField] using hspecial)
    · intro row hrow cell hcell hreturn
      apply hcells row hrow (cellField cell) (List.mem_map_of_mem hcell)
      exact (any_special cell).trans (by rw [hreturn, Bool.or_true])
  · rintro ⟨hnames, hcells⟩
    constructor
    · intro name hname hspecial
      have hnone := hnames name hname
      rw [show name.toList.any special = true from hspecial] at hnone
      cases hnone
    · intro row hrow
      rw [List.forall_mem_map]
      intro cell hcell hspecial
      have hor := (any_special cell).symm.trans hspecial
      rcases Bool.or_eq_true_iff.mp hor with hquotes | hreturn
      · exact hquotes
      · exact hcells row hrow cell hcell hreturn

/-- An answer with a column and a cell of a text each. -/
def oneCell (name cell : String) : QueryResponse :=
  { queryId := "q", coordinatorNodeId := "n", session := {}, columns := [name], rows := [[cell]]
    message := queryCompletedMessage }

theorem readBack_iff_oneCell :
  ReadBack (oneCell "a" "say \"hi\", and\r\nleave")
  := by
  refine (readBack_iff (by simp [oneCell]) ?_).mpr ⟨?_, ?_⟩
  · simp [oneCell]
  · decide
  · decide

/-- The name of a column with a comma is read as two names, and a cell with a carriage return alone
is not read at all. -/
theorem readBack_fails :
  ¬ ReadBack (oneCell "coalesce(a,b)" "1")
    ∧ Csv.records (renderCsv (oneCell "coalesce(a,b)" "1")) = some [["coalesce(a", "b)"], ["1"]]
    ∧ Csv.records (renderCsv (oneCell "a" "1\r2")) = none
  := by
  unfold ReadBack
  decide

end Client
