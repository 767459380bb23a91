import AnalyticsDB.Control.Statements
import AnalyticsDB.Lib.Elementwise
import AnalyticsDB.Storage.Object

/-!
# Selects from the information schema

A select from the information schema is answered without DataFusion.  Its columns are described by
one function, which takes the names the projection displays, and its rows are selected by another,
which takes the names of the columns of the table.  The two name the same columns when every item
of the projection is an unquoted column, under an alias only if the alias is its own name.
-/

namespace Metadata

/-! ### What the parser reads -/

/-- The ways in which an identifier can be quoted. -/
inductive QuoteStyle where
  | doubleQuote | singleQuote | backtick | bracket
  deriving DecidableEq, Repr

/-- The character a quoted identifier starts with. -/
def QuoteStyle.opening : QuoteStyle → Char
  | .doubleQuote => '"'
  | .singleQuote => '\''
  | .backtick => Char.ofNat 96
  | .bracket => '['

structure Ident where
  value : String
  quoteStyle : Option QuoteStyle
  deriving DecidableEq, Repr

/-- A quoted text, its quotes doubled unless they already are, or stand after a backslash. -/
def escapeQuoted (quote previous : Char) : List Char → List Char
  | [] => []
  | c :: rest =>
    if c = quote then
      if previous = '\\' then
        c :: escapeQuoted quote previous rest
      else
        match rest with
        | [] => [c, c]
        | next :: rest =>
          if next = quote then c :: next :: escapeQuoted quote c rest
          else c :: c :: escapeQuoted quote c (next :: rest)
    else
      c :: escapeQuoted quote c rest

/-- An identifier as it is displayed. -/
def Ident.display (ident : Ident) : String :=
  match ident.quoteStyle with
  | none => ident.value
  | some .bracket => String.ofList ('[' :: ident.value.toList ++ [']'])
  | some style =>
    String.ofList (style.opening ::
      escapeQuoted style.opening (Char.ofNat 0) ident.value.toList ++ [style.opening])

inductive Value where
  | singleQuotedString (value : String)
  | doubleQuotedString (value : String)
  | number (value : String)
  | other
  deriving DecidableEq, Repr

/-- An expression: the shapes that are looked at. -/
inductive Expr where
  | identifier (ident : Ident)
  | compoundIdentifier (idents : List Ident)
  | value (value : Value)
  | eq (left right : Expr)
  | and (left right : Expr)
  | inList (expr : Expr) (list : List Expr) (negated : Bool)
  | nested (expr : Expr)
  | other

/-- An item of a projection; an expression without an alias with the text it is displayed as. -/
inductive SelectItem where
  | unnamedExpr (expr : Expr) (text : String)
  | exprWithAlias (expr : Expr) (name : Ident)
  | qualifiedWildcard
  | wildcard

structure Select where
  projection : List SelectItem
  selection : Option Expr

structure OrderByExpr where
  expr : Expr
  asc : Option Bool

/-- A query: its body, if it is a select, and the expressions it is ordered by. -/
structure Query where
  body : Option Select
  orderBy : List OrderByExpr

inductive Statement where
  | query (query : Query)
  | other

/-- The query that a text starts with, if its body is a select. -/
def firstSelect : List Statement → Option (Select × List OrderByExpr)
  | .query ⟨some select, orderBy⟩ :: _ => some (select, orderBy)
  | _ => none

/-! ### The tables -/

/-- The columns of the answer to a statement, for statements that are answered from the
catalogue. -/
def statementColumns : MetadataStatement → Option (List String)
  | .showDatabases => some ["database_name"]
  | .showSchemas => some ["schema_name"]
  | .showNodes => some ["node_id", "kind", "status", "last_heartbeat_ms"]
  | .showTables => some ["table_name"]
  | .showViews => some ["view_name"]
  | .showColumns => some ["column_name", "data_type", "is_nullable"]
  | .informationSchemaSchemata =>
    some ["catalog_name", "schema_name", "schema_owner", "default_character_set_catalog",
      "default_character_set_schema", "default_character_set_name", "sql_path"]
  | .informationSchemaTables =>
    some ["table_catalog", "table_schema", "table_name", "table_type",
      "self_referencing_column_name", "reference_generation", "user_defined_type_catalog",
      "user_defined_type_schema", "user_defined_type_name", "is_insertable_into", "is_typed",
      "commit_action"]
  | .informationSchemaColumns =>
    some ["table_catalog", "table_schema", "table_name", "column_name", "ordinal_position",
      "column_default", "is_nullable", "data_type", "character_maximum_length",
      "character_octet_length", "numeric_precision", "numeric_precision_radix", "numeric_scale",
      "datetime_precision"]
  | .informationSchemaViews =>
    some ["table_catalog", "table_schema", "table_name", "view_definition", "check_option",
      "is_updatable", "is_insertable_into", "is_trigger_updatable", "is_trigger_deletable",
      "is_trigger_insertable_into"]
  | .informationSchemaTableConstraints =>
    some ["constraint_catalog", "constraint_schema", "constraint_name", "table_catalog",
      "table_schema", "table_name", "constraint_type", "is_deferrable", "initially_deferred",
      "enforced", "nulls_distinct"]
  | .informationSchemaKeyColumnUsage =>
    some ["constraint_catalog", "constraint_schema", "constraint_name", "table_catalog",
      "table_schema", "table_name", "column_name", "ordinal_position",
      "position_in_unique_constraint"]
  | .informationSchemaConstraintColumnUsage =>
    some ["table_catalog", "table_schema", "table_name", "column_name", "constraint_catalog",
      "constraint_schema", "constraint_name"]
  | .informationSchemaConstraintTableUsage =>
    some ["table_catalog", "table_schema", "table_name", "constraint_catalog",
      "constraint_schema", "constraint_name"]
  | .informationSchemaReferentialConstraints =>
    some ["constraint_catalog", "constraint_schema", "constraint_name",
      "unique_constraint_catalog", "unique_constraint_schema", "unique_constraint_name",
      "match_option", "update_rule", "delete_rule"]
  | .informationSchemaRoutines =>
    some ["specific_catalog", "specific_schema", "specific_name", "routine_catalog",
      "routine_schema", "routine_name", "routine_type", "data_type", "routine_body",
      "routine_definition", "is_deterministic", "security_type"]
  | .informationSchemaParameters =>
    some ["specific_catalog", "specific_schema", "specific_name", "ordinal_position",
      "parameter_mode", "is_result", "as_locator", "parameter_name", "data_type"]
  | .informationSchemaTriggers =>
    some ["trigger_catalog", "trigger_schema", "trigger_name", "event_manipulation",
      "event_object_catalog", "event_object_schema", "event_object_table", "action_statement",
      "action_orientation", "action_timing"]
  | _ => none

/-- Whether a statement is a select from the information schema. -/
def isInformationSchema : MetadataStatement → Bool
  | .informationSchemaSchemata | .informationSchemaTables | .informationSchemaColumns
  | .informationSchemaViews | .informationSchemaTableConstraints
  | .informationSchemaKeyColumnUsage | .informationSchemaConstraintColumnUsage
  | .informationSchemaConstraintTableUsage | .informationSchemaReferentialConstraints
  | .informationSchemaRoutines | .informationSchemaParameters | .informationSchemaTriggers => true
  | _ => false

def utf8Schema (columns : List String) : Schema :=
  columns.map (fun column => ⟨column, .utf8, false⟩)

def metadataStatementSchema (statement : MetadataStatement) : Option Schema :=
  (statementColumns statement).map utf8Schema

/-! ### The description -/

/-- The name an item is described by; wildcards have none. -/
def SelectItem.describedName : SelectItem → Option String
  | .unnamedExpr (.identifier ident) _ => some ident.display
  | .unnamedExpr (.compoundIdentifier idents) text =>
    some ((idents.getLast?.map Ident.display).getD text)
  | .exprWithAlias _ name => some name.display
  | .qualifiedWildcard | .wildcard => none
  | .unnamedExpr _ text => some text

def projectedMetadataSchema (statements : List Statement) (baseSchema : Schema) : Schema :=
  match firstSelect statements with
  | none => baseSchema
  | some (select, _) =>
    match select.projection.mapM SelectItem.describedName with
    | none => baseSchema
    | some names => utf8Schema names

/-! ### The answer -/

def metadataExprColumnName : Expr → Option String
  | .identifier ident => some ident.value
  | .compoundIdentifier idents => idents.getLast?.map (·.value)
  | _ => none

def metadataLiteralValue : Expr → Option String
  | .value (.singleQuotedString value) | .value (.doubleQuotedString value)
  | .value (.number value) => some value
  | _ => none

section

variable (columns : List String)

/-- The value a row has for an expression, if that is a column of the table. -/
def metadataColumnValue (row : List String) (expr : Expr) : Option String :=
  (metadataExprColumnName expr).bind (fun columnName =>
    (columns.idxOf? columnName).map (fun idx => row[idx]?.getD ""))

/-- Whether a row is selected; what is not understood selects every row. -/
def metadataRowMatches (row : List String) : Expr → Bool
  | .eq left right =>
    match metadataColumnValue columns row left with
    | none => true
    | some cell => ((metadataLiteralValue right).map (cell == ·)).getD true
  | .inList expr list negated =>
    match metadataColumnValue columns row expr with
    | none => true
    | some cell =>
      let matched := (list.filterMap metadataLiteralValue).any (cell == ·)
      if negated then !matched else matched
  | .nested expr => metadataRowMatches row expr
  | .and left right => metadataRowMatches row left && metadataRowMatches row right
  | _ => true

/-- The order of two rows; expressions that are not columns are passed over. -/
def compareMetadataRows (left right : List String) : List OrderByExpr → Ordering
  | [] => .eq
  | orderExpr :: exprs =>
    match metadataColumnValue columns left orderExpr.expr,
      metadataColumnValue columns right orderExpr.expr with
    | some l, some r =>
      match compare l r with
      | .eq => compareMetadataRows left right exprs
      | ord => if orderExpr.asc = some false then ord.swap else ord
    | _, _ => compareMetadataRows left right exprs

/-- The column an item of a projection names. -/
def SelectItem.columnName : SelectItem → Option String
  | .unnamedExpr expr _ | .exprWithAlias expr _ => metadataExprColumnName expr
  | .qualifiedWildcard | .wildcard => none

def SelectItem.isWildcard : SelectItem → Bool
  | .wildcard => true
  | _ => false

def metadataProjectionIndex (item : SelectItem) : Except String Nat :=
  match item.columnName with
  | none => .error "Unsupported metadata projection"
  | some columnName =>
    match columns.idxOf? columnName with
    | none => .error s!"Unknown metadata projection column '{columnName}'"
    | some index => .ok index

def metadataProjectionIndices (select : Select) : Except String (List Nat) :=
  if select.projection.any SelectItem.isWildcard then
    .ok (List.range columns.length)
  else
    select.projection.mapM (metadataProjectionIndex columns)

end

/-- A batch of texts.  Without columns the number of its rows is not known. -/
def utf8RecordBatch (columns : List String) (rows : List (List String)) :
    Except String RecordBatch :=
  if columns.isEmpty then
    .error "must either specify a row count or at least one column"
  else
    .ok ⟨utf8Schema columns, rows.map (·.map (fun value => some (.text value)))⟩

def executePgCatalogSelect (statements : List Statement) (columns : List String)
    (rows : List (List String)) : Except String (RecordBatch × Nat) :=
  match firstSelect statements with
  | none => do
    let batch ← utf8RecordBatch columns rows
    return (batch, rows.length)
  | some (select, orderBy) => do
    let filteredRows := match select.selection with
      | none => rows
      | some selection => rows.filter (metadataRowMatches columns · selection)
    let filteredRows := filteredRows.mergeSort (fun left right =>
      compareMetadataRows columns left right orderBy != .gt)
    let projected ← metadataProjectionIndices columns select
    let projectedColumns := projected.map (fun idx => columns[idx]?.getD "")
    let projectedRows := filteredRows.map (fun row =>
      projected.map (fun idx => row[idx]?.getD ""))
    let batch ← utf8RecordBatch projectedColumns projectedRows
    return (batch, projectedRows.length)

/-! ### Where they agree -/

/-- A name that no quoted identifier is displayed as. -/
def Unquoted (name : String) : Prop := ∀ style : QuoteStyle, name.toList.head? ≠ some style.opening

instance (name : String) : Decidable (Unquoted name) :=
  decidable_of_iff
    (∀ style ∈ [QuoteStyle.doubleQuote, .singleQuote, .backtick, .bracket],
      name.toList.head? ≠ some style.opening)
    ⟨fun h style => h style (by cases style <;> simp), fun h style _ => h style⟩

/-- An item is described by an unquoted name: it is the column, without or below an alias, or text
that is not an expression the answer has columns for. -/
inductive SelectItem.DescribedAs : SelectItem → String → Prop where
  | column (name text : String) : DescribedAs (.unnamedExpr (.identifier ⟨name, none⟩) text) name
  | qualified (idents : List Ident) (name text : String) (h : idents.getLast? = some ⟨name, none⟩) :
    DescribedAs (.unnamedExpr (.compoundIdentifier idents) text) name
  | aliased (expr : Expr) (name : String) : DescribedAs (.exprWithAlias expr ⟨name, none⟩) name
  | other (expr : Expr) (text : String) (h : metadataExprColumnName expr = none) :
    DescribedAs (.unnamedExpr expr text) text

/-- The columns of a table as a projection. -/
def allColumns (columns : List String) : List SelectItem :=
  columns.map (fun column => .unnamedExpr (.identifier ⟨column, none⟩) column)

/-- The items of the projection of the first select; all columns where there is a wildcard, or no
select. -/
def projectedItems (statements : List Statement) (columns : List String) : List SelectItem :=
  match firstSelect statements with
  | none => allColumns columns
  | some (select, _) =>
    if select.projection.any (fun item => item.describedName.isNone) then allColumns columns
    else select.projection

theorem Ident.display_eq_iff (ident : Ident) {name : String} (hname : Unquoted name) :
  ident.display = name ↔ ident = ⟨name, none⟩
  := by
  obtain ⟨value, quoteStyle⟩ := ident
  have hquoted : ∀ (style : QuoteStyle) (rest : List Char),
      String.ofList (style.opening :: rest) ≠ name := by
    rintro style rest rfl
    exact hname style (by simp)
  cases quoteStyle with
  | none => simp [Ident.display]
  | some style =>
      constructor
      · intro h
        cases style with
        | doubleQuote => exact absurd h (hquoted .doubleQuote _)
        | singleQuote => exact absurd h (hquoted .singleQuote _)
        | backtick => exact absurd h (hquoted .backtick _)
        | bracket => exact absurd h (hquoted .bracket _)
      · intro h
        cases h

/-- The name an item is described by is an unquoted one if and only if the item is a column of this
name, or has it as its alias. -/
theorem SelectItem.describedName_eq_some_iff (item : SelectItem) {name : String}
    (hname : Unquoted name) :
  item.describedName = some name ↔ item.DescribedAs name
  := by
  constructor
  · intro h
    cases item with
    | unnamedExpr expr text =>
        cases expr with
        | identifier ident =>
            obtain rfl := (ident.display_eq_iff hname).mp (Option.some.inj h)
            exact .column name text
        | compoundIdentifier idents =>
            cases hlast : idents.getLast? with
            | none =>
                simp only [describedName, hlast, Option.map_none, Option.getD_none,
                  Option.some.injEq] at h
                subst h
                exact .other _ _ (by simp [metadataExprColumnName, hlast])
            | some ident =>
                simp only [describedName, hlast, Option.map_some, Option.getD_some,
                  Option.some.injEq] at h
                obtain rfl := (ident.display_eq_iff hname).mp h
                exact .qualified idents name text hlast
        | _ =>
            obtain rfl := Option.some.inj h
            exact .other _ _ rfl
    | exprWithAlias expr ident =>
        obtain rfl := (ident.display_eq_iff hname).mp (Option.some.inj h)
        exact .aliased expr name
    | qualifiedWildcard => cases h
    | wildcard => cases h
  · intro h
    cases h with
    | column name text => rfl
    | qualified idents name text hlast => simp [describedName, hlast, Ident.display]
    | aliased expr name => rfl
    | other expr text hnone =>
        cases expr with
        | identifier ident => cases hnone
        | compoundIdentifier idents =>
            have hlast : idents.getLast? = none := by simpa [metadataExprColumnName] using hnone
            simp [describedName, hlast]
        | _ => rfl

theorem utf8Schema_inj {columns columns' : List String} :
  utf8Schema columns = utf8Schema columns' ↔ columns = columns'
  := by
  unfold utf8Schema
  refine (List.map_injective_iff.mpr ?_).eq_iff
  intro column column' h
  exact congrArg ArrowField.name h

/-- The columns of a projection of all columns. -/
theorem allColumns_describedName (columns : List String) :
  (allColumns columns).mapM SelectItem.describedName = some columns
  := by
  rw [List.mapM_some_iff]
  unfold allColumns
  rw [List.forall₂_map_left_iff]
  exact List.forall₂_same.mpr fun column _ => rfl

theorem allColumns_columnName (columns : List String) :
  List.Forall₂ (fun item name => item.columnName = some name ∧ name ∈ columns)
    (allColumns columns) columns
  := by
  unfold allColumns
  rw [List.forall₂_map_left_iff]
  exact List.forall₂_same.mpr fun column hcolumn => ⟨rfl, hcolumn⟩

/-- A description has the names of the items. -/
theorem projectedMetadataSchema_eq (statements : List Statement) (columns : List String) :
  ∃ names, List.Forall₂ (fun item name => item.describedName = some name)
      (projectedItems statements columns) names
    ∧ projectedMetadataSchema statements (utf8Schema columns) = utf8Schema names
  := by
  have hall := List.mapM_some_iff.mp (allColumns_describedName columns)
  unfold projectedMetadataSchema projectedItems
  cases firstSelect statements with
  | none => exact ⟨columns, hall, rfl⟩
  | some found =>
      dsimp only
      cases hnames : found.1.projection.mapM SelectItem.describedName with
      | none =>
          rw [if_pos (List.mapM_none_iff.mp hnames)]
          exact ⟨columns, hall, rfl⟩
      | some names =>
          rw [if_neg]
          · exact ⟨names, List.mapM_some_iff.mp hnames, rfl⟩
          · rw [← List.mapM_none_iff, hnames]
            exact Option.some_ne_none names

theorem metadataProjectionIndex_ok {columns : List String} {item : SelectItem} {index : Nat}
    (h : metadataProjectionIndex columns item = .ok index) :
  item.columnName = some (columns[index]?.getD "") ∧ columns[index]?.getD "" ∈ columns
  := by
  unfold metadataProjectionIndex at h
  split at h
  · cases h
  · rename_i columnName hname
    split at h
    · cases h
    · rename_i found hindex
      cases h
      obtain ⟨hlt, hget, -⟩ := List.idxOf?_eq_some_iff.mp hindex
      rw [hname, List.getElem?_eq_getElem hlt, Option.getD_some, hget]
      exact ⟨rfl, hget ▸ List.getElem_mem hlt⟩

/-- The columns of an answer are those that the items name. -/
theorem executePgCatalogSelect_columns {statements : List Statement} {columns : List String}
    {rows : List (List String)} {batch : RecordBatch} {count : Nat}
    (h : executePgCatalogSelect statements columns rows = .ok (batch, count)) :
  ∃ names, names ≠ []
    ∧ List.Forall₂ (fun item name => item.columnName = some name ∧ name ∈ columns)
      (projectedItems statements columns) names
    ∧ batch.schema = utf8Schema names
  := by
  have hbatch : ∀ {names : List String} {rows : List (List String)} {batch : RecordBatch},
      utf8RecordBatch names rows = .ok batch → names ≠ [] ∧ batch.schema = utf8Schema names := by
    intro names rows batch h
    unfold utf8RecordBatch at h
    split at h
    · cases h
    · rename_i hempty
      cases h
      exact ⟨fun hnil => hempty (List.isEmpty_iff.mpr hnil), rfl⟩
  unfold executePgCatalogSelect at h
  unfold projectedItems
  cases hfirst : firstSelect statements with
  | none =>
      rw [hfirst] at h
      obtain ⟨found, hfound, h⟩ := Except.bind_eq_ok_iff.mp h
      cases h
      obtain ⟨hne, hschema⟩ := hbatch hfound
      exact ⟨columns, hne, allColumns_columnName columns, hschema⟩
  | some selected =>
      obtain ⟨select, orderBy⟩ := selected
      rw [hfirst] at h
      dsimp only at h ⊢
      obtain ⟨indices, hindices, h⟩ := Except.bind_eq_ok_iff.mp h
      obtain ⟨found, hfound, h⟩ := Except.bind_eq_ok_iff.mp h
      cases h
      obtain ⟨hne, hschema⟩ := hbatch hfound
      unfold metadataProjectionIndices at hindices
      split at hindices
      · -- every column
        rename_i hwild
        cases hindices
        have hall : (List.range columns.length).map (fun idx => columns[idx]?.getD "")
            = columns := by
          apply List.ext_getElem
          · simp
          · intro i h₁ h₂
            simp [h₂]
        rw [hall] at hne hschema
        have hnone : select.projection.any (fun item => item.describedName.isNone) = true := by
          rw [List.any_eq_true] at hwild ⊢
          obtain ⟨item, hitem, hwild⟩ := hwild
          refine ⟨item, hitem, ?_⟩
          cases item with
          | wildcard => rfl
          | _ => cases hwild
        rw [if_pos hnone]
        exact ⟨columns, hne, allColumns_columnName columns, hschema⟩
      · have hnamed := List.mapM_ok_iff.mp hindices
        rw [if_neg]
        · refine ⟨_, hne, ?_, hschema⟩
          rw [List.forall₂_map_right_iff]
          exact hnamed.imp fun item index h => metadataProjectionIndex_ok h
        · rw [List.any_eq_true]
          rintro ⟨item, hitem, hnone⟩
          obtain ⟨index, -, hindex⟩ := hnamed.exists_mem hitem
          have hname := (metadataProjectionIndex_ok hindex).1
          cases item with
          | wildcard => cases hname
          | qualifiedWildcard => cases hname
          | exprWithAlias expr name => cases hnone
          | unnamedExpr expr text => cases expr <;> cases hnone

/-- Every column that is answered is described by its name if and only if the items of the text
that is described stand for the columns that the items of the text that is answered name. -/
theorem projectedMetadataSchema_eq_iff (described : List Statement) (columns : List String)
    {statements : List Statement} {tableColumns : List String} {rows : List (List String)}
    {batch : RecordBatch} {count : Nat} (hunquoted : ∀ column ∈ tableColumns, Unquoted column)
    (h : executePgCatalogSelect statements tableColumns rows = .ok (batch, count)) :
  projectedMetadataSchema described (utf8Schema columns) = batch.schema
    ↔ List.Forall₂ (fun item answered => ∃ name, answered.columnName = some name
        ∧ item.DescribedAs name)
      (projectedItems described columns) (projectedItems statements tableColumns)
  := by
  obtain ⟨names, hnames, hschema⟩ := projectedMetadataSchema_eq described columns
  obtain ⟨answered, -, hanswered, hbatch⟩ := executePgCatalogSelect_columns h
  rw [hschema, hbatch, utf8Schema_inj]
  constructor
  · rintro rfl
    refine hnames.through (List.Forall₂.flip (R := flip _) hanswered) ?_
    rintro item name answered hname ⟨hcolumn, hmem⟩
    exact ⟨name, hcolumn, (item.describedName_eq_some_iff (hunquoted name hmem)).mp hname⟩
  · intro hall
    have hdescribed : List.Forall₂ (fun item name => item.describedName = some name)
        (projectedItems described columns) answered := by
      refine hall.through hanswered ?_
      rintro item answered name ⟨other, hother, hitem⟩ ⟨hcolumn, hmem⟩
      obtain rfl := Option.some.inj (hother.symm.trans hcolumn)
      exact (item.describedName_eq_some_iff (hunquoted other hmem)).mpr hitem
    exact Option.some.inj ((List.mapM_some_iff.mpr hnames).symm.trans
      (List.mapM_some_iff.mpr hdescribed))

theorem statementColumns_unquoted {statement : MetadataStatement} {columns : List String}
    (h : statementColumns statement = some columns) :
  ∀ column ∈ columns, Unquoted column
  := by
  cases statement <;> cases h <;> decide +kernel

end Metadata
