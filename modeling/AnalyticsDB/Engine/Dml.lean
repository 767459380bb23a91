import AnalyticsDB.Engine.Snapshot
import AnalyticsDB.Engine.UniqueKeys

/-!
# UPDATE and DELETE

Both statements are executed as a SELECT over the table whose rows become its new snapshot.
-/

/-- Whether the name in an assignment is that of a column: the same name when it is quoted,
and otherwise the same up to case. -/
def assignmentNames (name column : String) : Bool :=
  if name.toList.head? = some '"' && name.toList.getLast? = some '"' then
    String.ofList (name.toList.drop 1).dropLast = column
  else
    eqIgnoreAsciiCase name column

/-- The expression assigned to a column: that of the first assignment that names it. -/
def assignmentFor (assignments : List (String × String)) (column : String) : Option String :=
  (assignments.find? (fun assignment => assignmentNames assignment.1 column)).map (·.2)

/-- The item of the SELECT of an UPDATE for a column. -/
def updateItem (assignments : List (String × String)) (column : String) : SelectItem :=
  match assignmentFor assignments column with
  | some valueSql => { expr := .sql valueSql, asName := some column }
  | none => { expr := .column column, asName := none }

/-- What a data statement reports: a message and a number of rows. -/
structure DmlOutcome where
  message : String
  rowCount : Nat
  deriving DecidableEq, Repr

section

variable (o : Outside) (df : DataFusion)

/-- The field of an item of a SELECT. -/
def itemField (columns : List String) (item : SelectItem) : ArrowField :=
  { name := item.outputName
    dataType := match item.expr with
      | .column name => df.exprType name columns
      | .sql text => df.exprType text columns
    nullable := true }

/-- Whether a SELECT refers only to columns of its table. -/
def knownColumns (columns : List String) (items : List SelectItem) : Bool :=
  items.all (fun item => match item.expr with
    | .column name => columns.contains name
    | .sql _ => true)

/-- `UPDATE name SET assignments [WHERE selection]`. -/
def executeUpdate (session : SessionContext) (database schema : Option String) (name : String)
    (assignments : List (String × String)) (selection : Option String) : Op DmlOutcome := do
  let relation ← tableRelation session database schema name
  let base ← tableStorePrefix o relation
  queryFault df
  let (columns, rows) ← scanTable o df session relation
  let items := uniqueItems o (relation.columns.map (fun c => updateItem assignments c.name)) []
  if items.isEmpty || !decide (items.map (·.outputName)).Nodup || !knownColumns columns items then
    bail "Error during planning: Projections require unique expression names"
  let updated ← orBail (selectRows df columns (some items) (selection.map .sql) rows)
  orBail (validateUniqueIndexesForRows relation
    (recordBatchRows (fun cell => some (df.cellText cell)) updated) relation.indexes)
  let rowCount ← writeDataframeToTableSnapshot o df (items.map (itemField df columns)) updated base
  refreshIndexSnapshotsAfterMutation o df session relation
  return { message :=
    s!"Updated {rowCount} row(s) in '{relation.database}.{relation.schema}.{relation.name}'."
           rowCount := rowCount }

/-- `DELETE FROM name [WHERE selection]`. -/
def executeDelete (session : SessionContext) (database schema : Option String) (name : String)
    (selection : Option String) : Op DmlOutcome := do
  let relation ← tableRelation session database schema name
  let base ← tableStorePrefix o relation
  queryFault df
  let (columns, rows) ← scanTable o df session relation
  let remaining ← orBail
    (selectRows df columns none (selection.map (fun sql => .not (.sql sql))) rows)
  let fields := columns.map (fun column => itemField df columns ⟨.column column, none⟩)
  let rowCount ← writeDataframeToTableSnapshot o df fields remaining base
  refreshIndexSnapshotsAfterMutation o df session relation
  return { message :=
    s!"DELETE completed for '{relation.database}.{relation.schema}.{relation.name}'."
           rowCount := rowCount }

end

/-! ### What the statements start from -/

section

open Eff

variable (o : Outside) (df : DataFusion)

/-- What a statement on the table `name` starts from: the table, its path, and the columns
and rows of the scan its query makes. -/
structure DmlTarget (session : SessionContext) (database schema : Option String) (name : String)
    (w : World) (relation : CatalogRelation) (base : OPath) (columns : List String)
    (rows : List Row) : Prop where
  found : (exec (tableRelation session database schema name) w).1 = .ok relation
  located : (exec (tableStorePrefix o relation) w).1 = .ok base
  scanned : (exec (scanTable o df session relation) { w with calls := w.calls + 1 }).1
    = .ok (columns, rows)

theorem tableRelation_keeps (session : SessionContext) (database schema : Option String)
    (name : String) (w : World) :
  After (tableRelation session database schema name) w (fun _ w' => w' = w)
  := by
  rw [tableRelation, after_bind]
  apply After.mono (findRelation_keeps session database schema name w)
  rintro outcome w' rfl
  cases outcome with
  | error e => rfl
  | ok relation =>
      simp only [resume_ok, after_ite, after_bind, after_pure]
      exact ⟨fun _ => rfl, fun _ => trivial⟩

theorem tableStorePrefix_keeps (relation : CatalogRelation) (w : World) :
  After (tableStorePrefix o relation) w (fun _ w' => w' = w)
  := by
  unfold tableStorePrefix
  split
  · rfl
  · rw [after_orBail]
    exact ⟨fun _ _ => rfl, fun _ _ => rfl⟩

/-- A statement that finds its table, asks for its query and scans the table goes on from
its target. -/
theorem dmlTarget_returns {α : Type} {session : SessionContext} {database schema : Option String}
    {name : String} {w : World} {f : CatalogRelation → OPath → List String × List Row → Op α}
    {Q : α → World → Prop}
    (h : ∀ relation base columns rows w',
      DmlTarget o df session database schema name w relation base columns rows →
      (∀ row ∈ rows, row.length = columns.length) →
      Returns (f relation base (columns, rows)) w' Q) :
  Returns (do
    let relation ← tableRelation session database schema name
    let base ← tableStorePrefix o relation
    queryFault df
    let scan ← scanTable o df session relation
    f relation base scan) w Q
  := by
  rw [returns_bind]
  refine Returns.mono ((Returns.outcome _ w).with_after (tableRelation_keeps _ _ _ _ w)) ?_
  rintro relation w₁ ⟨rfl, hrelation⟩
  rw [returns_bind]
  refine Returns.mono ((Returns.outcome _ w₁).with_after (tableStorePrefix_keeps o _ w₁)) ?_
  rintro base w₂ ⟨rfl, hbase⟩
  simp only [queryFault, returns_bind, returns_outsideCall]
  cases df.queryError w₂.calls with
  | some message => apply returns_bail
  | none =>
      rw [returns_pure]
      refine Returns.mono ((scanTable_returns o df session relation _).and
        (Returns.outcome _ _)) ?_
      rintro ⟨columns, rows⟩ w₃ ⟨hwidths, hscan⟩
      apply h relation base columns rows w₃ _ hwidths
      constructor
      · rw [hrelation]
      · rw [hbase]
      · rw [hscan]

/-- The cell of a column in a row made of the values of a list is the value of the first
element with the field of that name. -/
theorem cellAt_map {α : Type} (field : α → ArrowField) (value : α → Cell) (items : List α)
    (column : String) :
  cellAt (items.map field) (items.map value) column
    = (items.find? (fun item => (field item).name = column)).bind value
  := by
  induction items with
  | nil => rfl
  | cons item items ih =>
      unfold cellAt at ih ⊢
      rw [List.map_cons, List.findIdx?_cons, List.find?_cons]
      by_cases hname : (field item).name = column
      · simp [hname]
      · simp only [hname, decide_false, Bool.false_eq_true, if_false] at ih ⊢
        rw [← ih]
        cases (items.map field).findIdx? (·.name = column) with
        | none => rfl
        | some i => rfl

/-- The cell of a column in a row of a scan. -/
theorem cellAt_columns {field : String → ArrowField} (hfield : ∀ name, (field name).name = name)
    {columns : List String} {row : Row} (hlength : row.length = columns.length)
    (column : String) :
  cellAt (columns.map field) row column = ((columns.zip row).lookup column).join
  := by
  have hcolumns : (columns.zip row).map (fun p => field p.1) = columns.map field := by
    have hfst := List.map_fst_zip (le_of_eq hlength.symm)
    nth_rewrite 2 [← hfst]
    rw [List.map_map]
    rfl
  have hrow : (columns.zip row).map Prod.snd = row := List.map_snd_zip (le_of_eq hlength)
  rw [← hcolumns]
  nth_rewrite 2 [← hrow]
  rw [cellAt_map]
  induction columns.zip row with
  | nil => rfl
  | cons p ps ih =>
      rw [List.find?_cons, List.lookup_cons, hfield]
      by_cases hname : p.1 = column
      · simp [hname]
      · have hne : (column == p.1) = false := beq_false_of_ne (Ne.symm hname)
        simp only [hname, decide_false, hne, ih]

/-- The rows of a snapshot over the user columns, when it is written over fields that name
the cells. -/
theorem dmlWrite_returns (session : SessionContext) {relation : CatalogRelation} {base : OPath}
    {w : World} (hbase : (exec (tableStorePrefix o relation) w).1 = .ok base)
    (fields : Schema) (rows : List Row) (hlength : ∀ row ∈ rows, row.length = fields.length)
    (message : Nat → String) (w' : World) :
  Returns (do
    let rowCount ← writeDataframeToTableSnapshot o df fields rows base
    refreshIndexSnapshotsAfterMutation o df session relation
    return { message := message rowCount, rowCount := rowCount : DmlOutcome }) w'
      (fun outcome w'' =>
      outcome.rowCount = rows.length
        ∧ (committedRows relation.userColumns w''.store base).Perm
            (rows.map (fun row => relation.userColumns.map (cellAt fields row))))
  := by
  have hbase : relation.base? o = some base := by
    unfold tableStorePrefix at hbase
    unfold CatalogRelation.base?
    cases hpath : relation.storagePath with
    | none =>
        rw [hpath] at hbase
        cases hbase
    | some location =>
        cases hlocation : storeForLocation o location with
        | error message =>
            simp only [hpath, hlocation] at hbase
            cases hbase
        | ok path =>
            simp only [hpath, hlocation] at hbase
            cases hbase
            rw [Option.bind_some, hlocation]
            rfl
  rw [returns_bind]
  refine Returns.mono (writeDataframeToTableSnapshot_returns o df fields rows base w' hlength) ?_
  rintro count w₁ ⟨rfl, batches, hcommitted, hrows⟩
  rw [returns_bind]
  refine Returns.of_after (After.mono
    (refreshIndexSnapshotsAfterMutation_modifies o df session hbase w₁) ?_)
  intro r w₂ hframe _
  rw [returns_pure]
  constructor
  · rfl
  · rw [(hcommitted.of_indexFrame hframe).rows]
    apply hrows
    simp [CatalogRelation.userColumns]

/-! ### Statements on the sample table -/

/-- The expressions of the statements. -/
def sampleExpr (text : String) (row : NamedRow) : Except String Cell :=
  if text = "k = 1" then
    .ok ((row.lookup "k").join.map (fun value => .boolean (value = .integer 1)))
  else if text = "0" then
    .ok (some (.integer 0))
  else
    .error "Schema error: No field named"

/-- What a statement on the table starts from. -/
theorem sampleTarget :
  DmlTarget Outside.faultless (DataFusion.faultless sampleExpr) {} none none "t" sampleWorld
    sampleTable ["file://", "m", "t"] ["k", "_row_id"] sampleRows
  := by
  constructor
  · decide +kernel
  · decide +kernel
  · decide +kernel

/-! ### DELETE -/

/-- A DELETE removes the matching rows: the rows that stay are those on which the condition
is not TRUE, and the number reported is that of the rows on which it is. -/
structure DeletesMatching (relation : CatalogRelation) (base : OPath) (columns : List String)
    (rows : List Row) (selection : Option String) (outcome : DmlOutcome) (w' : World) : Prop where
  remaining : (committedRows relation.userColumns w'.store base).Perm
    ((rows.filter (fun row => !holdsOn df (selection.map .sql) (columns.zip row))).map
      (pick columns relation.userColumns))
  count : outcome.rowCount
    = (rows.filter (fun row => holdsOn df (selection.map .sql) (columns.zip row))).length

/-- When a DELETE does what it should: without a condition when the table is empty, with
one when it is UNKNOWN on no row and FALSE on as many rows as it is TRUE on. -/
def DeleteHarmless (columns : List String) (rows : List Row) : Option String → Prop
  | none => rows = []
  | some sql =>
    (∀ row ∈ rows, (Condition.sql sql).eval df (columns.zip row) ≠ .ok none)
      ∧ rows.countP (fun row => holdsOn df (some (.not (.sql sql))) (columns.zip row))
        = rows.countP (fun row => holdsOn df (some (.sql sql)) (columns.zip row))

theorem holdsOn_iff (c : Condition) (row : NamedRow) :
  holdsOn df (some c) row = true ↔ c.eval df row = .ok (some true)
  := by
  unfold holdsOn passes
  cases h : c.eval df row with
  | error message => simp [h, Except.toOption, bind, Except.bind]
  | ok truth => simp [h, Except.toOption, bind, Except.bind, pure, Except.pure]

theorem holdsOn_not_iff (c : Condition) (row : NamedRow) :
  holdsOn df (some (.not c)) row = true ↔ c.eval df row = .ok (some false)
  := by
  rw [holdsOn_iff, Condition.eval]
  cases h : c.eval df row with
  | error message => simp [bind, Except.bind]
  | ok truth => simp [bind, Except.bind, pure, Except.pure]

/-- A condition whose negation could be evaluated has a truth value. -/
theorem eval_of_passes_not {c : Condition} {row : NamedRow} {b : Bool}
    (h : passes df (some (.not c)) row = .ok b) :
  ∃ truth, c.eval df row = .ok truth
  := by
  obtain ⟨_, h, -⟩ := Except.bind_eq_ok_iff.mp h
  obtain ⟨truth, h, -⟩ := Except.bind_eq_ok_iff.mp h
  exact ⟨truth, h⟩

/-- A condition that is FALSE is not TRUE. -/
theorem filter_not_sublist (columns : List String) (rows : List Row) (c : Condition) :
  (rows.filter (fun row => holdsOn df (some (.not c)) (columns.zip row))).Sublist
    (rows.filter (fun row => !holdsOn df (some c) (columns.zip row)))
  := by
  apply List.monotone_filter_right
  intro row hfalse
  have hfalse := (holdsOn_not_iff df c _).mp hfalse
  rw [Bool.not_eq_true', ← Bool.not_eq_true, holdsOn_iff, hfalse]
  simp

/-- The rows on which a condition is FALSE are all those on which it is not TRUE exactly
when it is UNKNOWN on none. -/
theorem filter_not_eq_iff {columns : List String} {rows : List Row} {c : Condition}
    (hpasses : ∀ row ∈ rows, ∃ b, passes df (some (.not c)) (columns.zip row) = .ok b) :
  rows.filter (fun row => holdsOn df (some (.not c)) (columns.zip row))
      = rows.filter (fun row => !holdsOn df (some c) (columns.zip row))
    ↔ ∀ row ∈ rows, c.eval df (columns.zip row) ≠ .ok none
  := by
  constructor
  · intro heq row hrow hunknown
    have hmem : row ∈ rows.filter (fun row => !holdsOn df (some c) (columns.zip row)) := by
      rw [List.mem_filter, Bool.not_eq_true', ← Bool.not_eq_true, holdsOn_iff, hunknown]
      simp [hrow]
    rw [← heq, List.mem_filter, holdsOn_not_iff, hunknown] at hmem
    simp at hmem
  · intro hknown
    apply List.filter_congr
    intro row hrow
    obtain ⟨b, hb⟩ := hpasses row hrow
    obtain ⟨truth, htruth⟩ := eval_of_passes_not df hb
    rw [Bool.eq_iff_iff, holdsOn_not_iff, Bool.not_eq_true', ← Bool.not_eq_true, holdsOn_iff,
      htruth]
    rcases truth with - | - | -
    · exact absurd htruth (hknown row hrow)
    · simp
    · simp

/-- A DELETE that keeps the rows on which the negated condition is TRUE, and reports their
number, removes the matching rows only when it is harmless. -/
theorem deletesMatching_iff {relation : CatalogRelation} {base : OPath} {columns : List String}
    {rows remaining : List Row} {selection : Option String} {outcome : DmlOutcome} {w' : World}
    (hremaining : remaining = rows.filter (fun row => holdsOn df
      (selection.map (fun sql => .not (.sql sql))) (columns.zip row)))
    (hpasses : ∀ row ∈ rows, ∃ b, passes df (selection.map (fun sql => .not (.sql sql)))
      (columns.zip row) = .ok b)
    (hcount : outcome.rowCount = remaining.length)
    (hcommitted : (committedRows relation.userColumns w'.store base).Perm
      (remaining.map (pick columns relation.userColumns))) :
  DeletesMatching df relation base columns rows selection outcome w'
    ↔ DeleteHarmless df columns rows selection
  := by
  cases selection with
  | none =>
      have hremaining : remaining = rows := by
        rw [hremaining]
        apply List.filter_eq_self.mpr
        intro row _
        rfl
      have hnone : rows.filter (fun row => !holdsOn df none (columns.zip row)) = [] := by
        apply List.filter_eq_nil_iff.mpr
        intro row _
        simp [holdsOn, passes, Except.toOption]
      have hall : rows.filter (fun row => holdsOn df none (columns.zip row)) = rows := by
        apply List.filter_eq_self.mpr
        intro row _
        rfl
      constructor
      · intro h
        have hperm := hcommitted.symm.trans h.remaining
        rw [hremaining, Option.map_none, hnone] at hperm
        apply List.map_eq_nil_iff.mp hperm.eq_nil
      · rintro rfl
        constructor
        · rw [Option.map_none, hnone, ← hremaining]
          apply hcommitted
        · rw [hcount, hremaining, Option.map_none, hall]
  | some sql =>
      have hiff := filter_not_eq_iff df hpasses
      rw [Option.map_some] at hremaining
      constructor
      · intro h
        have hperm := hcommitted.symm.trans h.remaining
        have hlength := hperm.length_eq
        rw [List.length_map, List.length_map, hremaining] at hlength
        refine ⟨hiff.mp ((filter_not_sublist df columns rows _).eq_of_length hlength), ?_⟩
        rw [List.countP_eq_length_filter, List.countP_eq_length_filter, ← hremaining, ← hcount]
        apply h.count
      · rintro ⟨hknown, hcounts⟩
        rw [List.countP_eq_length_filter, List.countP_eq_length_filter, ← hremaining] at hcounts
        constructor
        · rw [Option.map_some, ← hiff.mpr hknown, ← hremaining]
          apply hcommitted
        · rw [hcount, hcounts]
          rfl

/-- When a DELETE that succeeds removes exactly the matching rows. -/
theorem executeDelete_deletesMatching_iff (session : SessionContext)
    (database schema : Option String) (name : String) (selection : Option String) (w : World) :
  Returns (executeDelete o df session database schema name selection) w (fun outcome w' =>
    ∃ relation base columns rows,
      DmlTarget o df session database schema name w relation base columns rows
        ∧ (DeletesMatching df relation base columns rows selection outcome w'
            ↔ DeleteHarmless df columns rows selection))
  := by
  refine dmlTarget_returns o df ?_
  intro relation base columns rows w₁ htarget hwidths
  rw [returns_bind, returns_orBail]
  intro remaining hremaining
  obtain ⟨hpasses, hremaining⟩ := selectRows_ok df hremaining
  have hremaining : remaining = rows.filter (fun row => holdsOn df
      (selection.map (fun sql => .not (.sql sql))) (columns.zip row)) := by
    rw [hremaining]
    apply List.map_id
  have hwidths' : ∀ row ∈ remaining, row.length = columns.length := by
    intro row hrow
    rw [hremaining] at hrow
    apply hwidths row (List.mem_of_mem_filter hrow)
  refine Returns.mono (dmlWrite_returns o df session htarget.located _ remaining
    (by simpa using hwidths') _ w₁) ?_
  rintro outcome w₂ ⟨hcount, hcommitted⟩
  refine ⟨relation, base, columns, rows, htarget, ?_⟩
  have hpick : remaining.map (fun row => relation.userColumns.map (cellAt
      (columns.map (fun column => itemField df columns ⟨.column column, none⟩)) row))
      = remaining.map (pick columns relation.userColumns) := by
    apply List.map_congr_left
    intro row hrow
    apply List.map_congr_left
    intro column _
    apply cellAt_columns _ (hwidths' row hrow)
    intro name
    rfl
  rw [hpick] at hcommitted
  apply deletesMatching_iff df hremaining hpasses hcount hcommitted

/-- `DELETE FROM t WHERE k = 1` also loses the row whose `k` is NULL. -/
theorem executeDelete_loses_unknown :
  ¬ Returns (executeDelete Outside.faultless (DataFusion.faultless sampleExpr) {} none none "t"
      (some "k = 1")) sampleWorld (fun outcome w' => ∀ relation base columns rows,
    DmlTarget Outside.faultless (DataFusion.faultless sampleExpr) {} none none "t" sampleWorld
        relation base columns rows →
      DeletesMatching (DataFusion.faultless sampleExpr) relation base columns rows
        (some "k = 1") outcome w')
  := by
  intro h
  have hmatching := h ⟨"DELETE completed for 'postgres.public.t'.", 1⟩ (by decide +kernel) _ _ _ _
    sampleTarget
  apply absurd hmatching.remaining
  decide +kernel

/-! ### UPDATE -/

/-- The cell a column gets from an UPDATE of a row: the value of the expression assigned to
it, on the old row, or the old cell. -/
def updatedCell (assignments : List (String × String)) (row : NamedRow) (column : String) : Cell :=
  match assignmentFor assignments column with
  | some valueSql => (df.evalExpr valueSql row).toOption.join
  | none => (row.lookup column).join

/-- The row that an UPDATE should make of a row. -/
def updatedRow (assignments : List (String × String)) (selection : Option String)
    (columns wanted : List String) (row : Row) : Row :=
  if holdsOn df (selection.map .sql) (columns.zip row) then
    wanted.map (updatedCell df assignments (columns.zip row))
  else
    pick columns wanted row

/-- The items of the SELECT an UPDATE of a table is executed as. -/
def updateItems (assignments : List (String × String)) (relation : CatalogRelation) :
    List SelectItem :=
  uniqueItems o (relation.columns.map (fun c => updateItem assignments c.name)) []

/-- The row that a reader by column names gets from the values of the items of a SELECT. -/
def writtenRow (items : List SelectItem) (columns wanted : List String) (row : Row) : Row :=
  wanted.map (fun column =>
    (items.find? (·.outputName = column)).bind (·.value df (columns.zip row)))

/-- Whether every assignment is to a column of the table. -/
def AssignmentsKnown (assignments : List (String × String)) (relation : CatalogRelation) : Prop :=
  ∀ assignment ∈ assignments, ∃ column ∈ relation.columns, assignmentNames assignment.1 column.name

/-- An UPDATE changes the matching rows: it assigns only to columns of the table, the rows
afterwards are the old ones with the assigned columns replaced in those on which the
condition is TRUE, and the number reported is that of these. -/
structure UpdatesMatching (assignments : List (String × String)) (relation : CatalogRelation)
    (base : OPath) (columns : List String) (rows : List Row) (selection : Option String)
    (outcome : DmlOutcome) (w' : World) : Prop where
  known : AssignmentsKnown assignments relation
  updated : (committedRows relation.userColumns w'.store base).Perm
    (rows.map (updatedRow df assignments selection columns relation.userColumns))
  count : outcome.rowCount
    = (rows.filter (fun row => holdsOn df (selection.map .sql) (columns.zip row))).length

/-- When an UPDATE does what it should: it assigns only to columns of the table, its
condition is TRUE on every row, and nothing is lost by the names that the columns of its
SELECT are given. -/
structure UpdateHarmless (assignments : List (String × String)) (relation : CatalogRelation)
    (columns : List String) (rows : List Row) (selection : Option String) : Prop where
  known : AssignmentsKnown assignments relation
  total : ∀ row ∈ rows, holdsOn df (selection.map .sql) (columns.zip row) = true
  named : (rows.map (writtenRow df (updateItems o assignments relation) columns
      relation.userColumns)).Perm
    (rows.map (fun row => relation.userColumns.map (updatedCell df assignments (columns.zip row))))

theorem outputName_updateItem (assignments : List (String × String)) (column : String) :
  (updateItem assignments column).outputName = column
  := by
  unfold updateItem SelectItem.outputName
  cases assignmentFor assignments column with
  | some valueSql => rfl
  | none => rfl

theorem value_updateItem (assignments : List (String × String)) (column : String)
    (row : NamedRow) :
  (updateItem assignments column).value df row = updatedCell df assignments row column
  := by
  unfold updateItem updatedCell SelectItem.value
  cases assignmentFor assignments column with
  | some valueSql => rfl
  | none => rfl

/-- Nothing is lost by the names of the items when no two of them have the same. -/
theorem UpdateHarmless.of_distinct {assignments : List (String × String)}
    {relation : CatalogRelation} {columns : List String} {rows : List Row}
    {selection : Option String} (hknown : AssignmentsKnown assignments relation)
    (htotal : ∀ row ∈ rows, holdsOn df (selection.map .sql) (columns.zip row) = true)
    (hdistinct : (relation.columns.map (fun c =>
      (updateItem assignments c.name).currentName o)).Nodup) :
  UpdateHarmless o df assignments relation columns rows selection
  := by
  have hitems : updateItems o assignments relation
      = relation.columns.map (fun c => updateItem assignments c.name) := by
    apply uniqueItems_of_nodup
    · rw [List.map_map]
      apply hdistinct
    · simp
  constructor
  · apply hknown
  · apply htotal
  · apply List.Perm.of_eq
    apply List.map_congr_left
    intro row _
    apply List.map_congr_left
    intro column hcolumn
    have hfound : (updateItems o assignments relation).find? (·.outputName = column)
        = some (updateItem assignments column) := by
      rw [hitems]
      have hmem := List.mem_of_mem_filter hcolumn
      generalize relation.columns = columns at hmem
      induction columns with
      | nil => cases hmem
      | cons c columns ih =>
          rw [List.map_cons, List.find?_cons, outputName_updateItem]
          by_cases hname : c.name = column
          · simp [hname]
          · simp only [hname, decide_false]
            apply ih
            simpa [Ne.symm hname] using hmem
    rw [hfound, Option.bind_some, value_updateItem]

/-- An UPDATE that replaces the table by the written rows on which the condition is TRUE,
and reports their number, changes the matching rows only when it is harmless. -/
theorem updatesMatching_iff {assignments : List (String × String)} {relation : CatalogRelation}
    {base : OPath} {columns : List String} {rows : List Row} {selection : Option String}
    {outcome : DmlOutcome} {w' : World}
    (hcount : outcome.rowCount
      = (rows.filter (fun row => holdsOn df (selection.map .sql) (columns.zip row))).length)
    (hcommitted : (committedRows relation.userColumns w'.store base).Perm
      ((rows.filter (fun row => holdsOn df (selection.map .sql) (columns.zip row))).map
        (writtenRow df (updateItems o assignments relation) columns relation.userColumns))) :
  UpdatesMatching df assignments relation base columns rows selection outcome w'
    ↔ UpdateHarmless o df assignments relation columns rows selection
  := by
  have htotal : (∀ row ∈ rows, holdsOn df (selection.map .sql) (columns.zip row) = true) →
      rows.map (updatedRow df assignments selection columns relation.userColumns)
        = rows.map (fun row =>
          relation.userColumns.map (updatedCell df assignments (columns.zip row))) := by
    intro htrue
    apply List.map_congr_left
    intro row hrow
    rw [updatedRow, if_pos (htrue row hrow)]
  constructor
  · intro h
    have hperm := hcommitted.symm.trans h.updated
    -- the rows on which the condition is not TRUE are missing, so there are none
    have hlength := hperm.length_eq
    rw [List.length_map, List.length_map] at hlength
    have htrue := List.length_filter_eq_length_iff.mp hlength
    constructor
    · apply h.known
    · apply htrue
    · rw [List.filter_eq_self.mpr htrue, htotal htrue] at hperm
      apply hperm
  · intro h
    constructor
    · apply h.known
    · rw [List.filter_eq_self.mpr h.total] at hcommitted
      rw [htotal h.total]
      apply hcommitted.trans h.named
    · apply hcount

end
