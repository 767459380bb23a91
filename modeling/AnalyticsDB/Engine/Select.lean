import AnalyticsDB.Control.Relations
import AnalyticsDB.Storage.Manifest

/-!
# Reading tables

The part of the query engine the statements of this development use: what the engine gets
from DataFusion, the provider that reads a managed table from its files, and a SELECT over
one table with a list of expressions and a condition.  Conditions have three truth values.
-/

/-- A row as expressions see it: its cells with the names of their columns. -/
abbrev NamedRow := List (String × Cell)

/-- What the engine gets from DataFusion. -/
structure DataFusion where
  /-- The error, if any, with which the query made as a call is rejected or fails. -/
  queryError : Nat → Option String
  /-- The files that a table over a directory reads. -/
  directoryFiles : ObjectStore → OPath → List OPath
  /-- The error, if any, of reading a file that is missing; without one it has no rows. -/
  missingFile : OPath → Option String
  /-- The value of a scalar expression on a row. -/
  evalExpr : String → NamedRow → Except String Cell
  /-- The schema and the rows of the result of a query. -/
  runQuery : String → CatalogState → ObjectStore → Except String (Schema × List Row)
  /-- The name under which the catalogue keeps a type. -/
  typeText : DataType → String
  /-- The type of a scalar expression over the columns of a table. -/
  exprType : String → List String → DataType
  /-- The text of a cell, empty for NULL. -/
  cellText : Cell → String
  /-- The rows as the types that the provider gives the columns of the table present them. -/
  readAs : List CatalogColumn → List Row → List Row
  /-- Every row is presented as one row with as many cells. -/
  readAs_widths : ∀ columns rows,
    (readAs columns rows).map List.length = rows.map List.length
  /-- The rows as the types of the catalogue present them. -/
  castRows : List CatalogColumn → List Row → List Row
  /-- No row is made from none. -/
  castRows_nil : ∀ columns, castRows columns [] = []
  /-- The batches in which the rows of a result come, as a call. -/
  batches : Nat → List Row → List (List Row)
  /-- The batches hold the rows of the result, in any order. -/
  batches_perm : ∀ call rows, (batches call rows).flatten.Perm rows

/-- A DataFusion with the given expressions in which no query fails: a directory is read file
by file, and the rows of a result come in one batch. -/
def DataFusion.faultless (evalExpr : String → NamedRow → Except String Cell) : DataFusion :=
  { queryError := fun _ => none
    directoryFiles := fun store base =>
      ((store.below base).map (·.1)).filter (fun key => match key.drop base.length with
        | [fileName] => isParquetName fileName
        | _ => false)
    missingFile := fun _ => none
    evalExpr := evalExpr
    runQuery := fun _ _ _ => .error "Schema error: No field named"
    typeText := fun _ => "Utf8"
    exprType := fun _ _ => .int64
    cellText := fun cell => match cell with
      | some (.text s) => s
      | _ => ""
    readAs := fun _ rows => rows
    readAs_widths := fun _ _ => rfl
    castRows := fun _ rows => rows
    castRows_nil := fun _ => rfl
    batches := fun _ rows => if rows.isEmpty then [] else [rows]
    batches_perm := by
      intro _ rows
      cases rows with
      | nil => apply List.Perm.refl
      | cons row rows => simp }

/-- The cell of a column in a row of a file; a column the file does not have is NULL. -/
def cellAt (schema : Schema) (row : Row) (column : String) : Cell :=
  match schema.findIdx? (·.name = column) with
  | some i => row[i]?.join
  | none => none

/-- The rows of a file, column by column of the table. -/
def RecordBatch.rowsOver (columns : List String) (batch : RecordBatch) : List Row :=
  batch.rows.map (fun row => columns.map (cellAt batch.schema row))

/-- The columns of the provider of a table: those of the catalogue and the row id. -/
def providerColumns (relation : CatalogRelation) : List String :=
  let names := relation.columns.map (·.name)
  if names.contains "_row_id" then names else names ++ ["_row_id"]

/-- The columns of a table that its users see. -/
def CatalogRelation.userColumns (relation : CatalogRelation) : List String :=
  (relation.columns.map (·.name)).filter (· ≠ "_row_id")

/-- The cells of some columns in a row over the columns of a scan. -/
def pick (columns wanted : List String) (row : Row) : Row :=
  wanted.map (fun column => ((columns.zip row).lookup column).join)

/-- A key as the local path `/key` that the engine passes to DataFusion, whichever store the
key is of. -/
def localKey (path : OPath) : OPath := "file://" :: path.tail

/-- The rows of the file at a path. -/
def readFile (df : DataFusion) (columns : List String) (store : ObjectStore) (path : OPath) :
    Except String (List Row) :=
  match store[path]?, df.missingFile path with
  | some (.parquet batch), _ => .ok (batch.rowsOver columns)
  | some _, _ => .error "Parquet error: Invalid Parquet file. Corrupt footer"
  | none, none => .ok []
  | none, some message => .error message

/-- The rows of the files at the given paths. -/
def readFiles (df : DataFusion) (columns : List String) (store : ObjectStore) :
    List OPath → Except String (List Row)
  | [] => .ok []
  | path :: paths => do
    let rows ← readFile df columns store path
    let rest ← readFiles df columns store paths
    return rows ++ rest

section

variable (o : Outside) (df : DataFusion)

/-- The Parquet files directly below a path. -/
def listParquetFiles (base : OPath) : Op (List OPath) := do
  let keys ← storeList o base
  return (keys.filter (fun key => match key.drop base.length with
    | [fileName] => isParquetName fileName
    | _ => false)).map localKey

/-- The committed files of the table at `base`: those its manifest lists, or, when no
manifest could be got, those its directory holds. -/
def listFiles (base : OPath) : Op (List OPath) := do
  match ← readManifest o base with
  | some manifest => return manifest.files.map (fun entry => localKey (entry.key base))
  | none => listParquetFiles o base

/-- The committed files of a table as its readers see them: an error counts as no files. -/
def committedFiles (storagePath : String) : Op (List OPath) := do
  match storeForLocation o storagePath with
  | .error _ => return []
  | .ok base =>
    match ← Eff.attempt (listFiles o base) with
    | .ok files => return files
    | .error _ => return []

/-- Ask DataFusion for a result. -/
def queryFault : Op Unit := do
  let n ← outsideCall
  match df.queryError n with
  | none => pure ()
  | some message => bail message

/-- The files a reader of a table reads: the committed ones, or, when there are none, those
of the directory. -/
def filesToRead (storagePath : String) : Op (List OPath) := do
  let committed ← committedFiles o storagePath
  if committed.isEmpty then
    let base ← orBail (storeForLocation o storagePath)
    if base.head? ≠ some "file://" then
      bail s!"No suitable object store found for {storagePath}"
    return df.directoryFiles (← get).store base
  else
    return committed

/-- The rows a reader of a table gets, over the given columns, which must be distinct. -/
def readTable (relation : CatalogRelation) (columns : List String) : Op (List Row) := do
  match relation.storagePath with
  | none => bail s!"table '{relation.name}' not found"
  | some storagePath =>
    let files ← filesToRead o df storagePath
    queryFault df
    if !decide columns.Nodup then
      bail "Schema error: Schema contains duplicate qualified field name"
    orBail (readFiles df columns (← get).store files)

/-- The columns of the provider of a table and its rows over them.  The provider looks the
table up again, in a session of the table's database. -/
def scanTable (session : SessionContext) (relation : CatalogRelation) :
    Op (List String × List Row) := do
  let found ← findRelation { session with database := relation.database }
    (some relation.database) (some relation.schema) relation.name
  if found.kind ≠ .table then
    bail s!"table '{relation.name}' not found"
  let rows ← readTable o df found (providerColumns found)
  return (providerColumns found, df.readAs found.columns rows)

end

section

variable (o : Outside) (df : DataFusion) (touched : OPath → Prop)

theorem queryFault_modifies :
  ModifiesOnly touched (queryFault df)
  := by
  apply ModifiesOnly.bind ModifiesOnly.outsideCall
  intro n
  split
  · apply ModifiesOnly.pure
  · apply ModifiesOnly.bail

/-- Looking a relation up changes nothing, not even the number of calls. -/
theorem findRelation_keeps (session : SessionContext) (database schema : Option String)
    (name : String) (w : World) :
  Eff.After (findRelation session database schema name) w (fun _ w' => w' = w)
  := by
  simp only [findRelation, Eff.after_bind, after_readState, Eff.resume_ok, after_orBail,
    Eff.resume_error, implies_true, true_and]
  intro _ _
  split
  · rfl
  · rfl

theorem findRelation_modifies (session : SessionContext) (database schema : Option String)
    (name : String) :
  ModifiesOnly touched (findRelation session database schema name)
  := by
  intro w
  apply Eff.After.mono (findRelation_keeps session database schema name w)
  rintro _ w' rfl
  apply Frame.refl

theorem tableRelation_modifies (session : SessionContext) (database schema : Option String)
    (name : String) :
  ModifiesOnly touched (tableRelation session database schema name)
  := by
  apply ModifiesOnly.bind (findRelation_modifies touched session database schema name)
  intro relation
  apply ModifiesOnly.guard
  apply ModifiesOnly.pure

theorem listFiles_modifies (base : OPath) :
  ModifiesOnly touched (listFiles o base)
  := by
  apply ModifiesOnly.bind (readManifest_modifies o touched base)
  intro read
  cases read with
  | some manifest => apply ModifiesOnly.pure
  | none =>
      apply ModifiesOnly.bind (storeList_modifies o touched base)
      intro keys
      apply ModifiesOnly.pure

theorem filesToRead_modifies (storagePath : String) :
  ModifiesOnly touched (filesToRead o df storagePath)
  := by
  have hcommitted : ModifiesOnly touched (committedFiles o storagePath) := by
    unfold committedFiles
    split
    · apply ModifiesOnly.pure
    · apply ModifiesOnly.bind (ModifiesOnly.attempt (listFiles_modifies o touched _))
      intro outcome
      split
      · apply ModifiesOnly.pure
      · apply ModifiesOnly.pure
  apply ModifiesOnly.bind hcommitted
  intro committed
  apply ModifiesOnly.ite
  · apply ModifiesOnly.bind (ModifiesOnly.orBail _)
    intro base
    apply ModifiesOnly.guard
    apply ModifiesOnly.bind ModifiesOnly.get
    intro w
    apply ModifiesOnly.pure
  · apply ModifiesOnly.pure

theorem readTable_modifies (relation : CatalogRelation) (columns : List String) :
  ModifiesOnly touched (readTable o df relation columns)
  := by
  unfold readTable
  split
  · apply ModifiesOnly.bail
  · apply ModifiesOnly.bind (filesToRead_modifies o df touched _)
    intro files
    apply ModifiesOnly.bind (queryFault_modifies df touched)
    intro _
    apply ModifiesOnly.guard
    apply ModifiesOnly.bind ModifiesOnly.get
    intro w
    apply ModifiesOnly.orBail

/-- Reading a table changes nothing. -/
theorem scanTable_modifies (session : SessionContext) (relation : CatalogRelation) :
  ModifiesOnly touched (scanTable o df session relation)
  := by
  apply ModifiesOnly.bind (findRelation_modifies touched _ _ _ _)
  intro found
  apply ModifiesOnly.guard
  apply ModifiesOnly.bind (readTable_modifies o df touched _ _)
  intro rows
  apply ModifiesOnly.pure

/-- The rows read over some columns have a cell for each. -/
theorem readFiles_widths {columns : List String} {store : ObjectStore} {files : List OPath}
    {rows : List Row} (h : readFiles df columns store files = .ok rows) :
  ∀ row ∈ rows, row.length = columns.length
  := by
  induction files generalizing rows with
  | nil =>
      cases h
      simp
  | cons path files ih =>
      obtain ⟨first, hfirst, h⟩ := Except.bind_eq_ok_iff.mp h
      obtain ⟨rest, hrest, ⟨⟩⟩ := Except.bind_eq_ok_iff.mp h
      intro row hrow
      rcases List.mem_append.mp hrow with hrow | hrow
      · unfold readFile at hfirst
        split at hfirst
        · cases hfirst
          obtain ⟨stored, -, rfl⟩ := List.mem_map.mp hrow
          rw [List.length_map]
        · cases hfirst
        · cases hfirst
          cases hrow
        · cases hfirst
      · apply ih hrest row hrow

theorem readTable_returns (relation : CatalogRelation) (columns : List String) (w : World) :
  Eff.Returns (readTable o df relation columns) w (fun rows _ =>
    ∀ row ∈ rows, row.length = columns.length)
  := by
  unfold readTable
  split
  · apply returns_bail
  · rw [Eff.returns_bind]
    refine Eff.Returns.of_forall ?_
    intro files w₁
    rw [Eff.returns_bind]
    refine Eff.Returns.of_forall ?_
    intro _ w₂
    simp only [Eff.returns_ite, Eff.returns_bind, Eff.returns_get, returns_orBail]
    constructor
    · intro _
      apply returns_bail
    · intro _ rows hrows
      apply readFiles_widths df hrows

/-- The rows of a scan have a cell for each of its columns. -/
theorem scanTable_returns (session : SessionContext) (relation : CatalogRelation) (w : World) :
  Eff.Returns (scanTable o df session relation) w (fun scan _ =>
    ∀ row ∈ scan.2, row.length = scan.1.length)
  := by
  unfold scanTable
  rw [Eff.returns_bind]
  refine Eff.Returns.of_forall ?_
  intro found w₁
  rw [Eff.returns_ite]
  constructor
  · intro _
    apply returns_bail
  · intro _
    rw [Eff.returns_bind]
    refine Eff.Returns.mono (readTable_returns o df found (providerColumns found) w₁) ?_
    intro rows w₂ hrows
    rw [Eff.returns_pure]
    intro row hrow
    have hwidth : row.length ∈ rows.map List.length := by
      rw [← df.readAs_widths found.columns]
      apply List.mem_map_of_mem hrow
    obtain ⟨stored, hstored, hlength⟩ := List.mem_map.mp hwidth
    rw [← hlength]
    apply hrows stored hstored

end

/-! ### SELECT -/

inductive ScalarExpr where
  | column (name : String)
  | sql (text : String)
  deriving DecidableEq, Repr

structure SelectItem where
  expr : ScalarExpr
  asName : Option String
  deriving DecidableEq, Repr

inductive Condition where
  | sql (text : String)
  | not (c : Condition)
  deriving DecidableEq, Repr

section

variable (df : DataFusion)

def ScalarExpr.eval (row : NamedRow) : ScalarExpr → Except String Cell
  | .column name => .ok (row.lookup name).join
  | .sql text => df.evalExpr text row

/-- The truth value of a condition; `none` is UNKNOWN. -/
def Condition.eval (row : NamedRow) : Condition → Except String (Option Bool)
  | .sql text => do
    match ← df.evalExpr text row with
    | none => return none
    | some (.boolean b) => return some b
    | some _ => throw "Cannot create filter with non-boolean predicate"
  | .not c => return (← c.eval row).map (!·)

/-- Whether a row passes an optional condition. -/
def passes (filter : Option Condition) (row : NamedRow) : Except String Bool :=
  match filter with
  | none => .ok true
  | some c => do return (← c.eval df row) = some true

/-- The cells of the items of a SELECT on a row. -/
def itemCells (items : List SelectItem) (row : NamedRow) : Except String Row :=
  items.mapM (fun item => item.expr.eval df row)

/-- The rows of `SELECT items FROM t WHERE filter`, or of `SELECT * FROM t WHERE filter`
when there are no items. -/
def selectRows (columns : List String) (items : Option (List SelectItem))
    (filter : Option Condition) : List Row → Except String (List Row)
  | [] => .ok []
  | row :: rows => do
    let named := columns.zip row
    let rest ← selectRows columns items filter rows
    if ← passes df filter named then
      match items with
      | none => return row :: rest
      | some items => return (← itemCells df items named) :: rest
    else
      return rest

end

/-! ### What a SELECT returns -/

section

variable (df : DataFusion)

/-- Whether a condition is TRUE on a row; a missing one is. -/
def holdsOn (filter : Option Condition) (row : NamedRow) : Bool :=
  (passes df filter row).toOption.getD false

/-- The value of an item on a row. -/
def SelectItem.value (item : SelectItem) (row : NamedRow) : Cell :=
  (item.expr.eval df row).toOption.join

/-- The row a SELECT makes of a row. -/
def selectedRow (items : Option (List SelectItem)) (columns : List String) (row : Row) : Row :=
  match items with
  | none => row
  | some items => items.map (fun item => item.value df (columns.zip row))

theorem itemCells_ok {items : List SelectItem} {row : NamedRow} {cells : Row}
    (h : itemCells df items row = .ok cells) :
  cells = items.map (fun item => item.value df row)
  := by
  unfold itemCells at h
  induction items generalizing cells with
  | nil =>
      cases h
      rfl
  | cons item items ih =>
      rw [List.mapM_cons] at h
      obtain ⟨cell, hcell, h⟩ := Except.bind_eq_ok_iff.mp h
      obtain ⟨rest, hrest, ⟨⟩⟩ := Except.bind_eq_ok_iff.mp h
      rw [List.map_cons, ← ih hrest, SelectItem.value, hcell]
      rfl

/-- A SELECT returns what it makes of the rows on which its condition is TRUE, after
evaluating the condition on every row. -/
theorem selectRows_ok {columns : List String} {items : Option (List SelectItem)}
    {filter : Option Condition} {rows out : List Row}
    (h : selectRows df columns items filter rows = .ok out) :
  (∀ row ∈ rows, ∃ b, passes df filter (columns.zip row) = .ok b)
    ∧ out = (rows.filter (fun row => holdsOn df filter (columns.zip row))).map
      (selectedRow df items columns)
  := by
  induction rows generalizing out with
  | nil =>
      cases h
      simp
  | cons row rows ih =>
      obtain ⟨rest, hrest, h⟩ := Except.bind_eq_ok_iff.mp h
      obtain ⟨b, hpass, h⟩ := Except.bind_eq_ok_iff.mp h
      obtain ⟨hpasses, hih⟩ := ih hrest
      have hb : holdsOn df filter (columns.zip row) = b := by
        rw [holdsOn, hpass]
        rfl
      constructor
      · rw [List.forall_mem_cons]
        exact ⟨⟨b, hpass⟩, hpasses⟩
      · cases b with
        | false =>
            cases h
            rw [List.filter_cons, if_neg (by rw [hb]; decide), hih]
        | true =>
            rw [List.filter_cons, if_pos hb, List.map_cons, ← hih]
            cases items with
            | none =>
                cases h
                rfl
            | some items =>
                obtain ⟨cells, hcells, ⟨⟩⟩ := Except.bind_eq_ok_iff.mp h
                rw [itemCells_ok df hcells]
                rfl

end

section

variable (o : Outside)

/-- The lower case of an unquoted identifier. -/
def asciiLowercase (text : String) : String := String.ofList (text.toList.map Char.toLower)

/-- The name by which the rewriter tells the items of a SELECT apart. -/
def SelectItem.currentName (item : SelectItem) : String :=
  match item.asName, item.expr with
  | some name, _ => name
  | none, .column name => o.lowercase name
  | none, .sql text => o.lowercase text

/-- The name of the column an item of a SELECT produces. -/
def SelectItem.outputName (item : SelectItem) : String :=
  match item.asName, item.expr with
  | some name, _ => name
  | none, .column name => name
  | none, .sql text => text

/-- The base of a new alias: letters, digits and underscores, not starting with a digit. -/
def safeBase (base : String) : String :=
  let safe := base.toList.map (fun c => if c.isAlphanum then c else '_')
  match safe with
  | [] => "col_"
  | c :: _ => if c.isAlpha || c = '_' then String.ofList safe else "col_" ++ String.ofList safe

/-- The first alias `base_i` that is not among `seen`; there is one among the first
`seen.length + 1`. -/
def makeUniqueAlias (base : String) (seen : List String) : String :=
  let names := (List.range (seen.length + 1)).map (fun i => s!"{safeBase base}_{i + 1}")
  (names.find? (fun name => !seen.contains name)).getD ""

/-- Give an item a new alias when its name was seen before.  The alias is not quoted. -/
def uniqueItems : List SelectItem → List String → List SelectItem
  | [], _ => []
  | item :: items, seen =>
    if seen.contains (item.currentName o) then
      let name := makeUniqueAlias (item.currentName o) seen
      { item with asName := some (asciiLowercase name) } :: uniqueItems items (name :: seen)
    else
      item :: uniqueItems items (item.currentName o :: seen)

/-- Items with distinct names keep them. -/
theorem uniqueItems_of_nodup {items : List SelectItem} {seen : List String}
    (hnodup : (items.map (·.currentName o)).Nodup)
    (hseen : ∀ item ∈ items, item.currentName o ∉ seen) :
  uniqueItems o items seen = items
  := by
  induction items generalizing seen with
  | nil => rfl
  | cons item items ih =>
      rw [List.map_cons, List.nodup_cons] at hnodup
      rw [List.forall_mem_cons] at hseen
      rw [uniqueItems, if_neg (by simpa using hseen.1), ih hnodup.2]
      intro other hother
      rw [List.mem_cons, not_or]
      constructor
      · intro hsame
        apply hnodup.1
        rw [← hsame]
        exact List.mem_map_of_mem hother
      · apply hseen.2 other hother

end
