import AnalyticsDB.Engine.MetadataSelect
import AnalyticsDB.Lib.SqlLogic
import AnalyticsDB.Lib.SqlOrder
import AnalyticsDB.Lib.Text

/-!
# The rows of a select from the information schema

The evaluator reads a part of a query only: comparisons of columns with literals that are joined
by AND, and sort keys that are columns.  It takes names letter by letter and passes over everything
else.  Its answer is a result of the query if and only if what it passes over makes no difference
to any row.
-/

namespace Metadata

/-! ### Queries -/

/-- An expression.  The text of any other expression has the meaning that the language gives it. -/
inductive SqlExpr where
  | identifier (ident : Ident)
  | compoundIdentifier (idents : List Ident)
  | text (value : String)
  | number (value : String)
  | boolean (value : Bool)
  | null
  | eq (left right : SqlExpr)
  | and (left right : SqlExpr)
  | or (left right : SqlExpr)
  | not (expr : SqlExpr)
  | inList (expr : SqlExpr) (list : List SqlExpr) (negated : Bool)
  | nested (expr : SqlExpr)
  | other (text : String)

/-- An item of a projection; an expression without an alias with the text it is displayed as. -/
inductive SqlItem where
  | unnamedExpr (expr : SqlExpr) (text : String)
  | exprWithAlias (expr : SqlExpr) (name : Ident)
  | qualifiedWildcard (qualifier : List Ident)
  | wildcard

structure SortKey where
  expr : SqlExpr
  asc : Option Bool := none
  nullsFirst : Option Bool := none

/-- A SELECT from a table. -/
structure SqlQuery where
  projection : List SqlItem
  table : List Ident
  tableAlias : Option Ident := none
  selection : Option SqlExpr := none
  orderBy : List SortKey := []
  limit : Option Nat := none
  offset : Nat := 0

/-! ### What the evaluator is given -/

mutual

def SqlExpr.parsed : SqlExpr → Expr
  | .identifier ident => .identifier ident
  | .compoundIdentifier idents => .compoundIdentifier idents
  | .text value => .value (.singleQuotedString value)
  | .number value => .value (.number value)
  | .boolean _ | .null => .value .other
  | .eq left right => .eq left.parsed right.parsed
  | .and left right => .and left.parsed right.parsed
  | .inList expr list negated => .inList expr.parsed (parsedList list) negated
  | .nested expr => .nested expr.parsed
  | .or _ _ | .not _ | .other _ => .other

def parsedList : List SqlExpr → List Expr
  | [] => []
  | expr :: list => expr.parsed :: parsedList list

end

def SqlItem.parsed : SqlItem → SelectItem
  | .unnamedExpr expr text => .unnamedExpr expr.parsed text
  | .exprWithAlias expr name => .exprWithAlias expr.parsed name
  | .qualifiedWildcard _ => .qualifiedWildcard
  | .wildcard => .wildcard

def SqlQuery.parsed (q : SqlQuery) : Query :=
  { body := some
      { projection := q.projection.map SqlItem.parsed
        selection := q.selection.map SqlExpr.parsed }
    orderBy := q.orderBy.map (fun key => ⟨key.expr.parsed, key.asc⟩) }

/-! ### What a query means -/

/-- The meaning of numbers, of comparisons of values that are not both texts, and of the other
expressions: whether one can be planned, and its value in a row. -/
structure Language where
  number : String → Sql.Value
  equal : Sql.Value → Sql.Value → Bool
  plans : String → Bool
  other : String → List String → Sql.Cell

def Language.compare (lang : Language) : Sql.Cell → Sql.Cell → Sql.Cell
  | some (.text a), some (.text b) => some (.boolean (a == b))
  | some a, some b => some (.boolean (lang.equal a b))
  | _, _ => none

/-- The name an identifier stands for: in lower case unless it is quoted. -/
def Ident.folded (ident : Ident) : String :=
  match ident.quoteStyle with
  | none => asciiLower ident.value
  | some _ => ident.value

/-- The cells of a row. -/
def textCells (row : List String) : List Sql.Cell := row.map (fun value => some (.text value))

section

variable (lang : Language) (columns : List String)

/-- The cell of a column of a row that has one for each column. -/
def columnCell (row : List String) (name : String) : Sql.Cell :=
  (columns.idxOf? name).map (fun idx => .text (row[idx]?.getD ""))

mutual

/-- The value of an expression in a row. -/
def SqlExpr.value (row : List String) : SqlExpr → Sql.Cell
  | .identifier ident => columnCell columns row ident.folded
  | .compoundIdentifier idents =>
    idents.getLast?.bind (fun ident => columnCell columns row ident.folded)
  | .text value => some (.text value)
  | .number value => some (lang.number value)
  | .boolean value => some (.boolean value)
  | .null => none
  | .eq left right => lang.compare (left.value row) (right.value row)
  | .and left right => (left.value row).and (right.value row)
  | .or left right => (left.value row).or (right.value row)
  | .not expr => (expr.value row).not
  | .inList expr list negated =>
    let found := Sql.Cell.any ((listValues row list).map (lang.compare (expr.value row)))
    if negated then found.not else found
  | .nested expr => expr.value row
  | .other written => lang.other written row

def SqlExpr.listValues (row : List String) : List SqlExpr → List Sql.Cell
  | [] => []
  | expr :: list => expr.value row :: listValues row list

end

/-- Whether a table answers to a qualifier: the end of its name, or its alias if it has one. -/
def SqlQuery.qualifies (q : SqlQuery) (qualifier : List Ident) : Bool :=
  match q.tableAlias with
  | some name => qualifier.map Ident.folded == [name.folded]
  | none => (qualifier.map Ident.folded).isSuffixOf (q.table.map Ident.folded)

mutual

/-- Whether the names of an expression are those of columns. -/
def SqlExpr.plans (q : SqlQuery) : SqlExpr → Bool
  | .identifier ident => columns.contains ident.folded
  | .compoundIdentifier idents =>
    idents.getLast?.any (columns.contains ·.folded) && q.qualifies idents.dropLast
  | .text _ | .number _ | .boolean _ | .null => true
  | .eq left right | .and left right | .or left right => left.plans q && right.plans q
  | .not expr | .nested expr => expr.plans q
  | .inList expr list _ => expr.plans q && listPlans q list
  | .other written => lang.plans written

def SqlExpr.listPlans (q : SqlQuery) : List SqlExpr → Bool
  | [] => true
  | expr :: list => expr.plans q && listPlans q list

end

def SqlItem.plans (q : SqlQuery) : SqlItem → Bool
  | .unnamedExpr expr _ | .exprWithAlias expr _ => expr.plans lang columns q
  | .qualifiedWildcard qualifier => q.qualifies qualifier
  | .wildcard => true

/-- The cells that an item shows of a row. -/
def SqlItem.cells (row : List String) : SqlItem → List Sql.Cell
  | .unnamedExpr expr _ | .exprWithAlias expr _ => [expr.value lang columns row]
  | .qualifiedWildcard _ | .wildcard => textCells row

/-- How many columns an item shows. -/
def SqlItem.width : SqlItem → Nat
  | .unnamedExpr _ _ | .exprWithAlias _ _ => 1
  | .qualifiedWildcard _ | .wildcard => columns.length

/-- The expressions that an item shows under a name. -/
def SqlItem.named (name : String) : SqlItem → List SqlExpr
  | .unnamedExpr (.identifier ident) _ => if ident.folded = name then [.identifier ident] else []
  | .unnamedExpr (.compoundIdentifier idents) _ =>
    if idents.getLast?.map Ident.folded = some name then [.compoundIdentifier idents] else []
  | .unnamedExpr _ _ => []
  | .exprWithAlias expr ident => if ident.folded = name then [expr] else []
  | .qualifiedWildcard _ | .wildcard =>
    if name ∈ columns then [.identifier ⟨name, some .doubleQuote⟩] else []

namespace SqlQuery

variable (q : SqlQuery)

def outputRow (row : List String) : List Sql.Cell :=
  q.projection.flatMap (SqlItem.cells lang columns row)

def named (name : String) : List SqlExpr := q.projection.flatMap (SqlItem.named columns name)

/-- The cell that a row is ordered by.  A number is the position of a column of the result, and a
name is one of those of its columns, if there is such a column. -/
def sortCell (row : List String) : SqlExpr → Sql.Cell
  | .number value => value.toNat?.bind (fun n => (q.outputRow lang columns row)[n - 1]?.join)
  | .identifier ident =>
    ((q.named columns ident.folded).headD (.identifier ident)).value lang columns row
  | expr => expr.value lang columns row

/-- Whether rows can be ordered by an expression: a position has to be one of the result, and a
name must not have two meanings. -/
def Sorts : SqlExpr → Prop
  | .number value => ∃ n, value.toNat? = some n ∧ 1 ≤ n
      ∧ n ≤ (q.projection.map (SqlItem.width columns)).sum
  | .identifier ident =>
    ((q.named columns ident.folded).headD (.identifier ident)).plans lang columns q = true
      ∧ (q.named columns ident.folded).Pairwise
        (fun a b => a.value lang columns = b.value lang columns)
  | expr => expr.plans lang columns q = true

/-- The query can be planned. -/
structure Plans : Prop where
  projection : ∀ item ∈ q.projection, item.plans lang columns q = true
  selection : ∀ expr ∈ q.selection, expr.plans lang columns q = true
  orderBy : ∀ key ∈ q.orderBy, q.Sorts lang columns key.expr

/-- A row passes the WHERE clause. -/
def passes (row : List String) : Bool :=
  q.selection.all (fun expr => (expr.value lang columns row).isTrue)

end SqlQuery

/-- The direction of a key.  The order is on cells, the expression does not matter. -/
def SortKey.direction (key : SortKey) : Sql.OrderItem where
  expr := .ordinal 0
  descending := key.asc = some false
  nullsFirst := key.nullsFirst.getD (key.asc = some false)

namespace SqlQuery

variable (q : SqlQuery)

def sortCells (row : List String) : List Sql.Cell :=
  q.orderBy.map (fun key => q.sortCell lang columns row key.expr)

/-- A row may come before another one. -/
def Before (row other : List String) : Prop :=
  Sql.keysLe (q.orderBy.map SortKey.direction) (q.sortCells lang columns row)
    (q.sortCells lang columns other) = true

instance : DecidableRel (q.Before lang columns) := fun _ _ => inferInstanceAs (Decidable (_ = true))

/-- What OFFSET and LIMIT leave. -/
def cut {α : Type} (l : List α) : List α :=
  match q.limit with
  | none => l.drop q.offset
  | some n => (l.drop q.offset).take n

/-- The rows of a result of the query over some rows. -/
def Gives (rows : List (List String)) (result : List (List Sql.Cell)) : Prop :=
  q.Plans lang columns ∧ ∃ arranged : List (List String),
    arranged.Perm (rows.filter (q.passes lang columns))
      ∧ arranged.Pairwise (q.Before lang columns)
      ∧ result = (q.cut arranged).map (q.outputRow lang columns)

end SqlQuery

end

/-! ### What the evaluator reads -/

section

variable (columns : List String)

/-- The column that an expression names letter by letter. -/
def SqlExpr.readColumn (expr : SqlExpr) : Option String :=
  (metadataExprColumnName expr.parsed).filter (columns.contains ·)

def SqlExpr.readLiteral (expr : SqlExpr) : Option String := metadataLiteralValue expr.parsed

/-- A column by its name. -/
def SqlExpr.column (name : String) : SqlExpr := .identifier ⟨name, some .doubleQuote⟩

/-- The part of a condition that is read. -/
def SqlExpr.read : SqlExpr → SqlExpr
  | .eq left right =>
    match left.readColumn columns, right.readLiteral with
    | some name, some value => .eq (.column name) (.text value)
    | _, _ => .boolean true
  | .inList expr list negated =>
    match expr.readColumn columns with
    | some name => .inList (.column name) ((list.filterMap readLiteral).map .text) negated
    | none => .boolean true
  | .nested expr => .nested expr.read
  | .and left right => .and left.read right.read
  | _ => .boolean true

def SqlItem.isWildcard : SqlItem → Bool
  | .wildcard => true
  | _ => false

def SqlItem.readColumn : SqlItem → Option String
  | .unnamedExpr expr _ | .exprWithAlias expr _ => expr.readColumn columns
  | .qualifiedWildcard _ | .wildcard => none

namespace SqlQuery

variable (lang : Language) (q : SqlQuery)

/-- A row passes the part of the WHERE clause that is read. -/
def readPasses (row : List String) : Bool :=
  q.selection.all (fun expr => ((expr.read columns).value lang columns row).isTrue)

/-- The sort keys that are read. -/
def readKeys : List SortKey :=
  q.orderBy.filter (fun key => (key.expr.readColumn columns).isSome)

def readCells (row : List String) : List Sql.Cell :=
  (q.readKeys columns).map (fun key => (key.expr.readColumn columns).bind (columnCell columns row))

/-- A row comes before another one by the keys that are read. -/
def readBefore (row other : List String) : Bool :=
  Sql.keysLe ((q.readKeys columns).map SortKey.direction) (q.readCells columns row)
    (q.readCells columns other)

/-- The cells that are shown of a row. -/
def readOutput (row : List String) : List Sql.Cell :=
  if q.projection.any SqlItem.isWildcard then textCells row
  else q.projection.map (fun item => (item.readColumn columns).bind (columnCell columns row))

/-- The projection is refused: it is empty, or has an item that is not a column by its name. -/
def Refused : Prop :=
  if q.projection.any SqlItem.isWildcard then columns = []
  else q.projection = [] ∨ ∃ item ∈ q.projection, item.readColumn columns = none

instance : Decidable (q.Refused columns) := by
  unfold Refused
  infer_instance

/-- The rows that the evaluator answers with. -/
def readRows (rows : List (List String)) : List (List String) :=
  (rows.filter (q.readPasses columns lang)).mergeSort (q.readBefore columns)

end SqlQuery

/-- A cell of a batch as one of SQL. -/
def sqlCell : Cell → Sql.Cell
  | some (.text value) => some (.text value)
  | _ => none

def sqlRows (batch : RecordBatch) : List (List Sql.Cell) := batch.rows.map (·.map sqlCell)

end

/-! ### The answer is that of what is read -/

section

variable {lang : Language} {columns : List String}

variable (columns) in
/-- An expression that is read has the cell of its column in every row. -/
theorem readColumn_cases (expr : SqlExpr) :
  (expr.readColumn columns = none
      ∧ ∀ row, metadataColumnValue columns row expr.parsed = none)
    ∨ ∃ (name : String) (value : List String → String), expr.readColumn columns = some name
      ∧ ∀ row, metadataColumnValue columns row expr.parsed = some (value row)
        ∧ columnCell columns row name = some (.text (value row))
  := by
  unfold metadataColumnValue SqlExpr.readColumn columnCell
  cases metadataExprColumnName expr.parsed with
  | none => exact .inl ⟨rfl, fun row => rfl⟩
  | some name =>
      cases hidx : columns.idxOf? name with
      | none =>
          left
          have hmem : name ∉ columns := List.idxOf?_eq_none_iff.mp hidx
          exact ⟨by simp [Option.filter_some, hmem], fun row => by simp [hidx]⟩
      | some idx =>
          right
          have hmem : name ∈ columns := by
            by_contra hmem
            rw [List.idxOf?_eq_none_iff.mpr hmem] at hidx
            cases hidx
          refine ⟨name, fun row => row[idx]?.getD "", by simp [Option.filter_some, hmem], ?_⟩
          intro row
          exact ⟨by simp [hidx], by simp [hidx]⟩

theorem parsedList_eq (list : List SqlExpr) : parsedList list = list.map SqlExpr.parsed
  := by
  induction list with
  | nil => rfl
  | cons expr list ih => rw [parsedList, ih, List.map_cons]

theorem listValues_texts (row : List String) (texts : List String) :
  SqlExpr.listValues lang columns row (texts.map .text) = texts.map (some ∘ .text)
  := by
  induction texts with
  | nil => rfl
  | cons text texts ih =>
      rw [List.map_cons, SqlExpr.listValues, ih]
      rfl

theorem metadataRowMatches_eq_comparison (row : List String) (left right : SqlExpr) :
  metadataRowMatches columns row (SqlExpr.eq left right).parsed
    = (((SqlExpr.eq left right).read columns).value lang columns row).isTrue
  := by
  rw [SqlExpr.parsed, metadataRowMatches, SqlExpr.read]
  change _ = Sql.Cell.isTrue (SqlExpr.value lang columns row
    (match left.readColumn columns, metadataLiteralValue right.parsed with
      | some name, some value => .eq (.column name) (.text value)
      | _, _ => .boolean true))
  obtain ⟨hname, hcell⟩ | ⟨name, cell, hname, hcell⟩ := readColumn_cases columns left
  · rw [hname, hcell row]
    rfl
  · obtain ⟨hvalue, hcolumn⟩ := hcell row
    rw [hname, hvalue]
    cases metadataLiteralValue right.parsed with
    | none => rfl
    | some value =>
        simp [SqlExpr.value, SqlExpr.column, Ident.folded, hcolumn, Language.compare]

theorem metadataRowMatches_eq_inList (row : List String) (expr : SqlExpr) (list : List SqlExpr)
    (negated : Bool) :
  metadataRowMatches columns row (SqlExpr.inList expr list negated).parsed
    = (((SqlExpr.inList expr list negated).read columns).value lang columns row).isTrue
  := by
  have hliterals : (parsedList list).filterMap metadataLiteralValue
      = list.filterMap SqlExpr.readLiteral := by
    rw [parsedList_eq, List.filterMap_map]
    rfl
  rw [SqlExpr.parsed, metadataRowMatches, SqlExpr.read, hliterals]
  obtain ⟨hname, hcell⟩ | ⟨name, cell, hname, hcell⟩ := readColumn_cases columns expr
  · rw [hname, hcell row]
    rfl
  · obtain ⟨hvalue, hcolumn⟩ := hcell row
    rw [hname, hvalue]
    have hany : Sql.Cell.any (((list.filterMap SqlExpr.readLiteral).map (some ∘ Sql.Value.text)).map
          (lang.compare (some (.text (cell row)))))
        = some (.boolean ((list.filterMap SqlExpr.readLiteral).any (cell row == ·))) := by
      rw [List.map_map]
      exact Sql.Cell.any_boolean (cell row == ·) _
    dsimp only [SqlExpr.value, SqlExpr.column, Ident.folded]
    rw [hcolumn, listValues_texts, hany]
    cases negated with
    | false => simp
    | true => simp [Sql.Cell.not]

/-- The rows that are selected are those that the part of the condition that is read is true of. -/
theorem metadataRowMatches_eq (row : List String) (expr : SqlExpr) :
  metadataRowMatches columns row expr.parsed
    = ((expr.read columns).value lang columns row).isTrue
  := by
  induction expr using SqlExpr.read.induct columns with
  | case1 left right => exact metadataRowMatches_eq_comparison row left right
  | case2 left right => exact metadataRowMatches_eq_comparison row left right
  | case3 expr list negated => exact metadataRowMatches_eq_inList row expr list negated
  | case4 expr list negated => exact metadataRowMatches_eq_inList row expr list negated
  | case5 expr ih => exact ih
  | case6 left right ihleft ihright =>
      rw [SqlExpr.parsed, metadataRowMatches, ihleft, ihright, SqlExpr.read, SqlExpr.value,
        Sql.Cell.isTrue_and]
  | case7 expr heq hin hnested hand =>
      cases expr with
      | eq left right => exact absurd rfl (heq left right)
      | inList expr list negated => exact absurd rfl (hin expr list negated)
      | nested expr => exact absurd rfl (hnested expr)
      | and left right => exact absurd rfl (hand left right)
      | _ => rfl

theorem direction_le (key : SortKey) (a b : String) :
  key.direction.le (some (.text a)) (some (.text b))
    = if key.asc = some false then decide (b ≤ a) else decide (a ≤ b)
  := by
  unfold Sql.OrderItem.le SortKey.direction
  simp [Sql.Value.text_le_text]

theorem compareMetadataRows_eq (left right : List String) (keys : List SortKey) :
  (compareMetadataRows columns left right
      (keys.map (fun key => ⟨key.expr.parsed, key.asc⟩)) != .gt)
    = Sql.keysLe ((keys.filter (fun key => (key.expr.readColumn columns).isSome)).map
          SortKey.direction)
        ((keys.filter (fun key => (key.expr.readColumn columns).isSome)).map
          (fun key => (key.expr.readColumn columns).bind (columnCell columns left)))
        ((keys.filter (fun key => (key.expr.readColumn columns).isSome)).map
          (fun key => (key.expr.readColumn columns).bind (columnCell columns right)))
  := by
  induction keys with
  | nil => rfl
  | cons key keys ih =>
      rw [List.map_cons, compareMetadataRows]
      obtain ⟨hname, hcell⟩ | ⟨name, cell, hname, hcell⟩ := readColumn_cases columns key.expr
      · rw [hcell left, List.filter_cons_of_neg (by simp [hname])]
        exact ih
      · obtain ⟨hleft, hcolumnLeft⟩ := hcell left
        obtain ⟨hright, hcolumnRight⟩ := hcell right
        rw [hleft, hright, List.filter_cons_of_pos (by simp [hname])]
        simp only [List.map_cons, Sql.keysLe, List.headD_cons, List.tail_cons, hname,
          Option.bind_some, hcolumnLeft, hcolumnRight, direction_le]
        rcases lt_trichotomy (cell left) (cell right) with hlt | heq | hgt
        · rw [compare_lt_iff_lt.mpr hlt]
          by_cases hasc : key.asc = some false
          · simp [hasc, hlt.le, hlt.not_ge]
          · simp [hasc, hlt.le, hlt.not_ge]
        · rw [heq, compare_eq_iff_eq.mpr rfl]
          simp only [ih, le_refl]
          simp
        · rw [compare_gt_iff_gt.mpr hgt]
          by_cases hasc : key.asc = some false
          · simp [hasc, hgt.le, hgt.not_ge]
          · simp [hasc, hgt.le, hgt.not_ge]

theorem sqlRows_texts (schema : Schema) (rows : List (List String)) :
  sqlRows ⟨schema, rows.map (·.map (fun value => some (.text value)))⟩ = rows.map textCells
  := by
  simp only [sqlRows, List.map_map, Function.comp_def, sqlCell]
  rfl

theorem SqlItem.readColumn_eq (item : SqlItem) :
  item.readColumn columns = item.parsed.columnName.filter (columns.contains ·)
  := by
  cases item <;> rfl

variable (columns) in
/-- The position of the column that an item names. -/
theorem metadataProjectionIndex_cases (item : SqlItem) :
  (item.readColumn columns = none
      ∧ ∃ message, metadataProjectionIndex columns item.parsed = .error message)
    ∨ item.readColumn columns ≠ none
      ∧ ∃ idx, metadataProjectionIndex columns item.parsed = .ok idx
        ∧ ∀ row : List String, (item.readColumn columns).bind (columnCell columns row)
          = some (.text (row[idx]?.getD ""))
  := by
  rw [item.readColumn_eq]
  unfold metadataProjectionIndex
  cases item.parsed.columnName with
  | none => exact .inl ⟨rfl, _, rfl⟩
  | some name =>
      dsimp only
      cases hidx : columns.idxOf? name with
      | none =>
          have hmem : name ∉ columns := List.idxOf?_eq_none_iff.mp hidx
          exact .inl ⟨by simp [Option.filter_some, hmem], _, rfl⟩
      | some idx =>
          have hmem : name ∈ columns := by
            by_contra hmem
            rw [List.idxOf?_eq_none_iff.mpr hmem] at hidx
            cases hidx
          refine .inr ⟨by simp [Option.filter_some, hmem], idx, rfl, fun row => ?_⟩
          simp [Option.filter_some, hmem, columnCell, hidx]

theorem isWildcard_parsed (items : List SqlItem) :
  (items.map SqlItem.parsed).any SelectItem.isWildcard = items.any SqlItem.isWildcard
  := by
  rw [List.any_map]
  congr 1
  funext item
  cases item <;> rfl

/-- A projection that is not refused shows the cells that are read. -/
theorem metadataProjectionIndices_ok (q : SqlQuery) {indices : List Nat} {select : Select}
    (hselect : select.projection = q.projection.map SqlItem.parsed)
    (h : metadataProjectionIndices columns select = .ok indices) :
  (q.Refused columns ↔ indices = [])
    ∧ ∀ row : List String, row.length = columns.length →
      textCells (indices.map (fun idx => row[idx]?.getD "")) = q.readOutput columns row
  := by
  unfold metadataProjectionIndices at h
  unfold SqlQuery.Refused SqlQuery.readOutput
  rw [hselect, isWildcard_parsed] at h
  split at h
  · rename_i hwild
    cases h
    simp only [if_pos hwild]
    refine ⟨by simp, ?_⟩
    intro row hwidth
    congr 1
    apply List.ext_getElem
    · simp [hwidth]
    · intro i h₁ h₂
      simp [h₂]
  · rename_i hwild
    simp only [if_neg hwild]
    have hitems := List.mapM_ok_iff.mp h
    rw [List.forall₂_map_left_iff] at hitems
    have hread : List.Forall₂ (fun item idx => item.readColumn columns ≠ none
        ∧ ∀ row : List String, (item.readColumn columns).bind (columnCell columns row)
          = some (.text (row[idx]?.getD ""))) q.projection indices := by
      refine hitems.imp ?_
      intro item idx hidx
      obtain ⟨-, message, herror⟩ | ⟨hsome, idx', hidx', hcell⟩ :=
        metadataProjectionIndex_cases columns item
      · rw [herror] at hidx
        cases hidx
      · rw [hidx'] at hidx
        cases hidx
        exact ⟨hsome, hcell⟩
    constructor
    · constructor
      · rintro (hnil | ⟨item, hitem, hnone⟩)
        · rw [hnil] at hread
          cases hread
          rfl
        · obtain ⟨idx, -, hsome, -⟩ := hread.exists_mem hitem
          exact absurd hnone hsome
      · rintro rfl
        exact .inl (List.forall₂_nil_right_iff.mp hread)
    · intro row hwidth
      rw [textCells, List.map_map, eq_comm, ← List.forall₂_eq_eq_eq, List.forall₂_map_left_iff,
        List.forall₂_map_right_iff]
      exact hread.imp fun item idx h => h.2 row

/-- A projection that is not read is refused. -/
theorem metadataProjectionIndices_error {q : SqlQuery} {message : String} {select : Select}
    (hselect : select.projection = q.projection.map SqlItem.parsed)
    (h : metadataProjectionIndices columns select = .error message) :
  q.Refused columns
  := by
  unfold metadataProjectionIndices at h
  unfold SqlQuery.Refused
  rw [hselect, isWildcard_parsed] at h
  split at h
  · cases h
  · rename_i hwild
    rw [if_neg hwild]
    obtain ⟨parsed, hparsed, herror⟩ := List.exists_of_mapM_error h
    obtain ⟨item, hitem, rfl⟩ := List.mem_map.mp hparsed
    obtain ⟨hnone, -⟩ | ⟨-, idx, hidx, -⟩ := metadataProjectionIndex_cases columns item
    · exact .inr ⟨item, hitem, hnone⟩
    · rw [hidx] at herror
      cases herror

variable (lang) in
/-- The rows that are projected are those that are read. -/
theorem executePgCatalogSelect_eq (q : SqlQuery) (rows : List (List String)) :
  executePgCatalogSelect [.query q.parsed] columns rows
    = (do
        let projected ← metadataProjectionIndices columns
          ⟨q.projection.map SqlItem.parsed, q.selection.map SqlExpr.parsed⟩
        let projectedRows := (q.readRows columns lang rows).map (fun row =>
          projected.map (fun idx => row[idx]?.getD ""))
        let batch ← utf8RecordBatch (projected.map (fun idx => columns[idx]?.getD "")) projectedRows
        return (batch, projectedRows.length))
  := by
  have hbefore : (fun left right => compareMetadataRows columns left right
      (q.orderBy.map (fun key => ⟨key.expr.parsed, key.asc⟩)) != .gt) = q.readBefore columns := by
    funext left right
    exact compareMetadataRows_eq left right q.orderBy
  have hpasses : ∀ expr : SqlExpr, rows.filter (metadataRowMatches columns · expr.parsed)
      = rows.filter (fun row => ((expr.read columns).value lang columns row).isTrue) := by
    intro expr
    exact List.filter_congr fun row _ => metadataRowMatches_eq row expr
  have hfirst : firstSelect [.query q.parsed] = some
      (⟨q.projection.map SqlItem.parsed, q.selection.map SqlExpr.parsed⟩,
        q.orderBy.map (fun key => ⟨key.expr.parsed, key.asc⟩)) := rfl
  unfold executePgCatalogSelect SqlQuery.readRows SqlQuery.readPasses
  rw [hfirst]
  dsimp only
  rw [hbefore]
  cases q.selection with
  | none => simp only [Option.map_none, Option.all_none, List.filter_true]
  | some expr => simp only [Option.map_some, Option.all_some, hpasses]

variable (lang columns) in
/-- The evaluator refuses the projections that it does not read, and answers with what it reads of
the other queries. -/
theorem executePgCatalogSelect_cases (q : SqlQuery) :
  (q.Refused columns ∧ ∀ rows, ∃ message,
      executePgCatalogSelect [.query q.parsed] columns rows = .error message)
    ∨ ¬ q.Refused columns
      ∧ ∀ rows : List (List String), (∀ row ∈ rows, row.length = columns.length) →
        ∃ batch, executePgCatalogSelect [.query q.parsed] columns rows
            = .ok (batch, (q.readRows columns lang rows).length)
          ∧ sqlRows batch = (q.readRows columns lang rows).map (q.readOutput columns)
  := by
  simp only [executePgCatalogSelect_eq lang]
  cases hindices : metadataProjectionIndices columns
      ⟨q.projection.map SqlItem.parsed, q.selection.map SqlExpr.parsed⟩ with
  | error message =>
      left
      exact ⟨metadataProjectionIndices_error rfl hindices, fun rows => ⟨message, rfl⟩⟩
  | ok indices =>
      obtain ⟨hrefused, hcells⟩ := metadataProjectionIndices_ok q rfl hindices
      cases indices with
      | nil =>
          left
          exact ⟨hrefused.mpr rfl, fun rows => ⟨_, rfl⟩⟩
      | cons idx indices =>
          right
          refine ⟨fun h => absurd (hrefused.mp h) (List.cons_ne_nil _ _), fun rows hwidth => ?_⟩
          refine ⟨_, congrArg (fun n => Except.ok (_, n)) (List.length_map _), ?_⟩
          rw [sqlRows_texts, List.map_map]
          apply List.map_congr_left
          intro row hrow
          apply hcells row
          apply hwidth row
          exact (List.mem_filter.mp (List.mem_mergeSort.mp hrow)).1

end

/-! ### What is passed over -/

namespace SqlQuery

variable (lang : Language) (columns : List String) (q : SqlQuery)

/-- Over all rows of a table the evaluator fails, or answers with a result of the query. -/
def Answered : Prop :=
  ∀ rows : List (List String), (∀ row ∈ rows, row.length = columns.length) →
    ∀ (batch : RecordBatch) (count : Nat),
      executePgCatalogSelect [.query q.parsed] columns rows = .ok (batch, count) →
        q.Gives lang columns rows (sqlRows batch) ∧ count = (sqlRows batch).length

/-- What the evaluator passes over makes no difference to any row. -/
structure ReadWhole : Prop where
  plans : q.Plans lang columns
  selection : ∀ row : List String, row.length = columns.length →
    (q.readPasses columns lang row = true
      ↔ q.passes lang columns row = true ∧ q.limit ≠ some 0)
  cut : ∀ row : List String, row.length = columns.length → q.readPasses columns lang row = true →
    q.limit = none ∧ q.offset = 0
  projection : ∀ row : List String, row.length = columns.length →
    q.readPasses columns lang row = true → q.readOutput columns row = q.outputRow lang columns row
  orderBy : ∀ row other : List String, row.length = columns.length →
    other.length = columns.length → q.readPasses columns lang row = true →
    q.readPasses columns lang other = true → q.readBefore columns row other = true →
    q.Before lang columns row other
      ∨ q.outputRow lang columns row = q.outputRow lang columns other

variable {lang columns q}

instance : IsTrans (List String) (q.Before lang columns) :=
  ⟨fun _ _ _ hab hbc => Sql.keysLe_trans _ _ _ _ hab hbc⟩

instance : Std.Total (q.Before lang columns) := ⟨fun _ _ => Sql.keysLe_total _ _ _⟩

theorem readBefore_trans (a b c : List String) (hab : q.readBefore columns a b = true)
    (hbc : q.readBefore columns b c = true) :
  q.readBefore columns a c = true
  := Sql.keysLe_trans _ _ _ _ hab hbc

theorem readBefore_total (a b : List String) :
  (q.readBefore columns a b || q.readBefore columns b a) = true
  := by
  rw [Bool.or_eq_true]
  exact Sql.keysLe_total _ _ _

theorem readBefore_refl (a : List String) : q.readBefore columns a a = true
  := by
  have htotal : (q.readBefore columns a a || q.readBefore columns a a) = true := readBefore_total a a
  simpa using htotal

/-- Rows that are read and in order are answered as they are. -/
theorem readRows_eq {rows : List (List String)}
    (hpasses : ∀ row ∈ rows, q.readPasses columns lang row = true)
    (hsorted : rows.Pairwise fun row other => q.readBefore columns row other = true) :
  q.readRows columns lang rows = rows
  := by
  unfold readRows
  rw [List.filter_eq_self.mpr hpasses]
  exact List.mergeSort_of_pairwise hsorted

theorem cut_eq {α : Type} (hlimit : q.limit = none) (hoffset : q.offset = 0) (l : List α) :
  q.cut l = l
  := by
  unfold cut
  rw [hlimit, hoffset]
  rfl

theorem length_cut_le {α : Type} (l : List α) : (q.cut l).length ≤ l.length
  := by
  unfold cut
  cases q.limit with
  | none => simp
  | some n => simp only [List.length_take, List.length_drop]; omega

/-- Some rows that pass are a result of a query that neither skips nor limits, in an arrangement
that shows the same. -/
theorem gives_of_shows (hplans : q.Plans lang columns) {rows shown : List (List String)}
    (hshown : shown.Perm (rows.filter (q.passes lang columns)))
    (hcut : shown = [] ∨ q.limit = none ∧ q.offset = 0)
    (horder : shown.Pairwise fun row other => q.Before lang columns row other
      ∨ q.outputRow lang columns row = q.outputRow lang columns other) :
  q.Gives lang columns rows (shown.map (q.outputRow lang columns))
  := by
  refine ⟨hplans, shown.insertionSort (q.Before lang columns), ?_, ?_, ?_⟩
  · exact (List.perm_insertionSort _ shown).trans hshown
  · exact List.pairwise_insertionSort _ shown
  · have hwhole : q.cut (shown.insertionSort (q.Before lang columns))
        = shown.insertionSort (q.Before lang columns) := by
      obtain rfl | ⟨hlimit, hoffset⟩ := hcut
      · exact List.eq_nil_of_length_eq_zero (Nat.le_zero.mp (length_cut_le _))
      · exact cut_eq hlimit hoffset _
    rw [hwhole, TopN.map_insertionSort horder]

/-- The rows that are read are a result when what is passed over makes no difference. -/
theorem ReadWhole.gives (h : q.ReadWhole lang columns) {rows : List (List String)}
    (hwidth : ∀ row ∈ rows, row.length = columns.length) :
  q.Gives lang columns rows ((q.readRows columns lang rows).map (q.readOutput columns))
  := by
  have hmem : ∀ row ∈ q.readRows columns lang rows,
      row.length = columns.length ∧ q.readPasses columns lang row = true := by
    intro row hrow
    obtain ⟨hrow, hpasses⟩ := List.mem_filter.mp (List.mem_mergeSort.mp hrow)
    exact ⟨hwidth row hrow, hpasses⟩
  have houtput : (q.readRows columns lang rows).map (q.readOutput columns)
      = (q.readRows columns lang rows).map (q.outputRow lang columns) := by
    apply List.map_congr_left
    intro row hrow
    obtain ⟨hlength, hpasses⟩ := hmem row hrow
    exact h.projection row hlength hpasses
  rw [houtput]
  by_cases hzero : q.limit = some 0
  · -- LIMIT 0 leaves no row of any arrangement
    have hnone : q.readRows columns lang rows = [] := by
      apply List.eq_nil_iff_forall_not_mem.mpr
      intro row hrow
      obtain ⟨hlength, hpasses⟩ := hmem row hrow
      exact ((h.selection row hlength).mp hpasses).2 hzero
    refine ⟨h.plans, (rows.filter (q.passes lang columns)).insertionSort (q.Before lang columns),
      List.perm_insertionSort _ _, List.pairwise_insertionSort _ _, ?_⟩
    rw [hnone, SqlQuery.cut, hzero]
    simp
  · apply gives_of_shows h.plans
    · have hfilter : rows.filter (q.readPasses columns lang)
          = rows.filter (q.passes lang columns) := by
        apply List.filter_congr
        intro row hrow
        apply Bool.eq_iff_iff.mpr
        rw [h.selection row (hwidth row hrow)]
        exact and_iff_left hzero
      rw [← hfilter]
      exact List.mergeSort_perm _ _
    · by_cases hnone : q.readRows columns lang rows = []
      · exact .inl hnone
      · obtain ⟨row, hrow⟩ := List.exists_mem_of_ne_nil _ hnone
        obtain ⟨hlength, hpasses⟩ := hmem row hrow
        exact .inr (h.cut row hlength hpasses)
    · have hsorted : (q.readRows columns lang rows).Pairwise
          fun row other => q.readBefore columns row other = true :=
        List.pairwise_mergeSort readBefore_trans readBefore_total _
      refine hsorted.imp_of_mem ?_
      intro row other hrow hother hbefore
      obtain ⟨hlength, hpasses⟩ := hmem row hrow
      obtain ⟨hlength', hpasses'⟩ := hmem other hother
      exact h.orderBy row other hlength hlength' hpasses hpasses' hbefore

theorem eq_or_eq_of_perm_pair {α : Type} {l : List α} {a b : α} (h : l.Perm [a, b]) :
  l = [a, b] ∨ l = [b, a]
  := by
  obtain ⟨x, y, rfl⟩ := List.length_eq_two.mp h.length_eq
  have hx : x ∈ [a, b] := h.subset List.mem_cons_self
  obtain rfl | hx := List.mem_cons.mp hx
  · left
    rw [List.perm_singleton.mp (List.perm_cons x |>.mp h)]
  · right
    obtain rfl := List.mem_singleton.mp hx
    have h' : [x, y].Perm [x, a] := h.trans (List.Perm.swap x a [])
    rw [List.perm_singleton.mp (List.perm_cons x |>.mp h')]

/-- What is passed over makes no difference when the rows that are read always are a result. -/
theorem readWhole_of_gives
    (h : ∀ rows : List (List String), (∀ row ∈ rows, row.length = columns.length) →
      q.Gives lang columns rows ((q.readRows columns lang rows).map (q.readOutput columns))) :
  q.ReadWhole lang columns
  := by
  -- one row, as often as it takes to be left over by OFFSET or by LIMIT
  have hcopies : ∀ (row : List String) (n : Nat), row.length = columns.length →
      q.Gives lang columns (List.replicate n row)
        ((q.readRows columns lang (List.replicate n row)).map (q.readOutput columns)) := by
    intro row n hlength
    apply h
    intro row' hrow'
    rw [List.eq_of_mem_replicate hrow']
    exact hlength
  have hread : ∀ (row : List String) (n : Nat), q.readPasses columns lang row = true →
      q.readRows columns lang (List.replicate n row) = List.replicate n row := by
    intro row n hpasses
    apply readRows_eq
    · intro row' hrow'
      rwa [List.eq_of_mem_replicate hrow']
    · exact List.pairwise_replicate.mpr (.inr (readBefore_refl row))
  have hpasses : ∀ row : List String, row.length = columns.length →
      q.readPasses columns lang row = true →
        q.passes lang columns row = true ∧ q.limit = none ∧ q.offset = 0 := by
    intro row hlength hpasses
    have hlengths : ∀ n : Nat, ∃ arranged : List (List String),
        arranged.Perm ((List.replicate n row).filter (q.passes lang columns))
          ∧ n = (q.cut arranged).length := by
      intro n
      obtain ⟨-, arranged, hperm, -, hresult⟩ := hcopies row n hlength
      rw [hread row n hpasses] at hresult
      exact ⟨arranged, hperm, by simpa using congrArg List.length hresult⟩
    obtain ⟨arranged, hperm, hone⟩ := hlengths 1
    have hle : 1 ≤ ((List.replicate 1 row).filter (q.passes lang columns)).length := by
      rw [← hperm.length_eq, hone]
      exact length_cut_le arranged
    refine ⟨?_, ?_⟩
    · by_contra hnot
      simp [hnot] at hle
    · cases hlimit : q.limit with
      | some m =>
          obtain ⟨copies, -, hcopies⟩ := hlengths (m + 1)
          unfold cut at hcopies
          rw [hlimit] at hcopies
          simp only [List.length_take] at hcopies
          omega
      | none =>
          refine ⟨rfl, ?_⟩
          have hlength' := hperm.length_eq
          have := List.length_filter_le (q.passes lang columns) (List.replicate 1 row)
          unfold cut at hone
          rw [hlimit] at hone
          simp only [List.length_drop, List.length_replicate] at hone this
          omega
  have hprojection : ∀ row : List String, row.length = columns.length →
      q.readPasses columns lang row = true →
        q.readOutput columns row = q.outputRow lang columns row := by
    intro row hlength hrow
    obtain ⟨hrow', hlimit, hoffset⟩ := hpasses row hlength hrow
    obtain ⟨-, arranged, hperm, -, hresult⟩ := hcopies row 1 hlength
    rw [List.replicate_one, List.filter_cons_of_pos hrow', List.filter_nil] at hperm
    rw [hread row 1 hrow, cut_eq hlimit hoffset, List.perm_singleton.mp hperm] at hresult
    simpa using hresult
  refine ⟨(h [] (by simp)).1, ?_, ?_, hprojection, ?_⟩
  · intro row hlength
    constructor
    · intro hrow
      obtain ⟨hrow, hlimit, -⟩ := hpasses row hlength hrow
      exact ⟨hrow, by rw [hlimit]; exact (Option.some_ne_none 0).symm⟩
    · rintro ⟨hrow, hlimit⟩
      by_contra hnot
      obtain ⟨-, arranged, hperm, -, hresult⟩ := hcopies row (q.offset + 1) hlength
      have hnone : q.readRows columns lang (List.replicate (q.offset + 1) row) = [] := by
        unfold readRows
        rw [List.filter_replicate_of_neg hnot]
        exact List.mergeSort_nil
      rw [List.filter_replicate_of_pos hrow] at hperm
      have hlengths : (q.cut arranged).length = 0 := by
        rw [hnone] at hresult
        simpa using congrArg List.length hresult.symm
      have harranged : arranged.length = q.offset + 1 := by simpa using hperm.length_eq
      unfold cut at hlengths
      cases hlimit' : q.limit with
      | none =>
          rw [hlimit'] at hlengths
          simp only [List.length_drop] at hlengths
          omega
      | some n =>
          have hne : n ≠ 0 := by
            rintro rfl
            exact hlimit hlimit'
          rw [hlimit'] at hlengths
          simp only [List.length_take, List.length_drop] at hlengths
          omega
  · intro row hlength hrow
    exact (hpasses row hlength hrow).2
  · intro row other hlength hlength' hrow hother hbefore
    obtain ⟨hrow', hlimit, hoffset⟩ := hpasses row hlength hrow
    obtain ⟨hother', -⟩ := hpasses other hlength' hother
    obtain ⟨-, arranged, hperm, hsorted, hresult⟩ := h [row, other] (by simp [hlength, hlength'])
    rw [readRows_eq (by simp [hrow, hother]) (by simpa using hbefore),
      cut_eq hlimit hoffset] at hresult
    rw [List.filter_cons_of_pos hrow', List.filter_cons_of_pos hother', List.filter_nil] at hperm
    obtain rfl | rfl := eq_or_eq_of_perm_pair hperm
    · left
      simpa using hsorted
    · right
      simp only [List.map_cons, List.cons.injEq] at hresult
      rw [hprojection row hlength hrow] at hresult
      exact hresult.1

/-- What is passed over makes no difference when every answer is a result. -/
theorem readWhole_of_answered (h : q.Answered lang columns) (hanswered : ¬ q.Refused columns) :
  q.ReadWhole lang columns
  := by
  obtain ⟨hrefused, -⟩ | ⟨-, hanswer⟩ := executePgCatalogSelect_cases lang columns q
  · exact absurd hrefused hanswered
  · apply readWhole_of_gives
    intro rows hwidth
    obtain ⟨batch, hbatch, hrows⟩ := hanswer rows hwidth
    rw [← hrows]
    exact (h rows hwidth batch _ hbatch).1

/-- The evaluator is right about a query, over the rows of any table, if and only if it refuses the
projection or what it passes over makes no difference. -/
theorem answered_iff :
  q.Answered lang columns ↔ q.Refused columns ∨ q.ReadWhole lang columns
  := by
  constructor
  · intro h
    by_cases hrefused : q.Refused columns
    · exact .inl hrefused
    · exact .inr (readWhole_of_answered h hrefused)
  · intro h rows hwidth batch count hbatch
    obtain ⟨-, herror⟩ | ⟨hanswered, hanswer⟩ := executePgCatalogSelect_cases lang columns q
    · obtain ⟨message, herror⟩ := herror rows
      rw [herror] at hbatch
      cases hbatch
    · obtain ⟨batch', hbatch', hrows⟩ := hanswer rows hwidth
      rw [hbatch'] at hbatch
      cases hbatch
      rw [hrows]
      refine ⟨(h.resolve_left hanswered).gives hwidth, ?_⟩
      simp

/-- `WHERE table_name = 'orders' OR table_name = 'users'` -/
def eitherTable : SqlQuery where
  projection := [.unnamedExpr (.identifier ⟨"table_name", none⟩) "table_name"]
  table := [⟨"information_schema", none⟩, ⟨"tables", none⟩]
  selection := some (.or
    (.eq (.identifier ⟨"table_name", none⟩) (.text "orders"))
    (.eq (.identifier ⟨"table_name", none⟩) (.text "users")))

/-- Every table is answered, not only those two. -/
theorem eitherTable_not_answered :
  ¬ ∀ (lang : Language) (columns : List String),
    statementColumns .informationSchemaTables = some columns → eitherTable.Answered lang columns
  := by
  intro h
  have hanswered := h ⟨.text, fun _ _ => false, fun _ => true, fun _ _ => none⟩ _ rfl
  have hread := readWhole_of_answered hanswered (by decide)
  have hpasses := (hread.selection ["analyticsdb", "public", "logs", "BASE TABLE", "", "", "", "", "",
    "YES", "NO", ""] rfl).mp (by decide)
  exact absurd hpasses.1 (by decide)

end SqlQuery

/-! ### Queries of which nothing is passed over -/

/-- A column spelled as it is stored. -/
def SqlExpr.spelled : SqlExpr → Bool
  | .identifier ident => ident.folded == ident.value
  | .compoundIdentifier idents => idents.getLast?.any (fun ident => ident.folded == ident.value)
  | _ => false

def SqlExpr.isText : SqlExpr → Bool
  | .text _ => true
  | _ => false

/-- Comparisons of columns with texts, joined by AND. -/
def SqlExpr.readable : SqlExpr → Bool
  | .eq left right => left.spelled && right.isText
  | .inList expr list _ => expr.spelled && list.all isText
  | .nested expr => expr.readable
  | .and left right => left.readable && right.readable
  | _ => false

/-- A column without an alias. -/
def SqlItem.spelled : SqlItem → Bool
  | .unnamedExpr expr _ => expr.spelled
  | _ => false

/-- A query of columns, or of all columns, with comparisons and sort keys that are read. -/
structure SqlQuery.Plain (q : SqlQuery) : Prop where
  projection : q.projection = [.wildcard] ∨ ∀ item ∈ q.projection, item.spelled = true
  selection : ∀ expr ∈ q.selection, expr.readable = true
  orderBy : ∀ key ∈ q.orderBy, key.expr.spelled = true
  limit : q.limit = none
  offset : q.offset = 0

section

variable {lang : Language} {columns : List String} {q : SqlQuery}

theorem SqlExpr.readColumn_of_spelled {expr : SqlExpr} (hspelled : expr.spelled = true)
    (hplans : expr.plans lang columns q = true) :
  ∃ name, expr.readColumn columns = some name
    ∧ ∀ row, expr.value lang columns row = columnCell columns row name
  := by
  cases expr with
  | identifier ident =>
      have hname : ident.folded = ident.value := by simpa [spelled] using hspelled
      have hmem : ident.folded ∈ columns := by simpa [plans] using hplans
      refine ⟨ident.folded, ?_, fun row => rfl⟩
      rw [hname] at hmem ⊢
      simp [readColumn, parsed, metadataExprColumnName, Option.filter_some, hmem]
  | compoundIdentifier idents =>
      cases hlast : idents.getLast? with
      | none => simp [spelled, hlast] at hspelled
      | some ident =>
          have hname : ident.folded = ident.value := by simpa [spelled, hlast] using hspelled
          have hmem : ident.folded ∈ columns := by
            simp only [plans, hlast, Bool.and_eq_true] at hplans
            simpa using hplans.1
          refine ⟨ident.folded, ?_, fun row => by simp [value, hlast]⟩
          rw [hname] at hmem ⊢
          simp [readColumn, parsed, metadataExprColumnName, hlast, Option.filter_some, hmem]
  | _ => cases hspelled

/-- A condition that is read whole means what is read of it. -/
theorem SqlExpr.value_read {expr : SqlExpr} (hreadable : expr.readable = true)
    (hplans : expr.plans lang columns q = true) (row : List String) :
  (expr.read columns).value lang columns row = expr.value lang columns row
  := by
  have hcolumn : ∀ name, (SqlExpr.column name).value lang columns row = columnCell columns row name :=
    fun name => rfl
  induction expr using SqlExpr.readable.induct with
  | case1 left right =>
      simp only [readable, Bool.and_eq_true] at hreadable
      simp only [plans, Bool.and_eq_true] at hplans
      obtain ⟨name, hname, hvalue⟩ := readColumn_of_spelled hreadable.1 hplans.1
      cases right with
      | text text =>
          simp only [read, hname, value, hvalue]
          rfl
      | _ => cases hreadable.2
  | case2 expr list negated =>
      simp only [readable, Bool.and_eq_true] at hreadable
      simp only [plans, Bool.and_eq_true] at hplans
      obtain ⟨name, hname, hvalue⟩ := readColumn_of_spelled hreadable.1 hplans.1
      have hlist : (list.filterMap readLiteral).map SqlExpr.text = list := by
        have htexts := List.all_eq_true.mp hreadable.2
        clear hplans hreadable
        induction list with
        | nil => rfl
        | cons item list ih =>
            have hitem := htexts item List.mem_cons_self
            cases item with
            | text text =>
                rw [List.filterMap_cons, show readLiteral (.text text) = some text from rfl]
                exact congrArg (SqlExpr.text text :: ·)
                  (ih fun other h => htexts other (List.mem_cons_of_mem _ h))
            | _ => cases hitem
      simp only [read, hname, hlist, value, hcolumn, hvalue]
  | case3 expr ih => exact ih hreadable hplans
  | case4 left right ihleft ihright =>
      simp only [readable, Bool.and_eq_true] at hreadable
      simp only [plans, Bool.and_eq_true] at hplans
      simp only [read, value, ihleft hreadable.1 hplans.1, ihright hreadable.2 hplans.2]
  | case5 expr heq hin hnested hand =>
      cases expr with
      | eq left right => exact absurd rfl (heq left right)
      | inList expr list negated => exact absurd rfl (hin expr list negated)
      | nested expr => exact absurd rfl (hnested expr)
      | and left right => exact absurd rfl (hand left right)
      | _ => cases hreadable

namespace SqlQuery

/-- Without aliases a name is that of a column. -/
theorem Plain.of_named (h : q.Plain) {name : String} {expr : SqlExpr}
    (hexpr : expr ∈ q.named columns name) :
  (∀ row, expr.value lang columns row = columnCell columns row name)
    ∧ (expr.plans lang columns q = true → name ∈ columns)
  := by
  obtain ⟨item, hitem, hexpr⟩ := List.mem_flatMap.mp hexpr
  obtain hwild | hspelled := h.projection
  · rw [hwild] at hitem
    obtain rfl := List.mem_singleton.mp hitem
    have hcolumn : name ∈ columns ∧ expr = SqlExpr.column name := by
      simpa [SqlItem.named, SqlExpr.column] using hexpr
    rw [hcolumn.2]
    exact ⟨fun row => rfl, fun _ => hcolumn.1⟩
  · have hitem := hspelled item hitem
    cases item with
    | unnamedExpr written text =>
        cases written with
        | identifier ident =>
            obtain ⟨hname, rfl⟩ : ident.folded = name ∧ expr = .identifier ident := by
              simpa [SqlItem.named] using hexpr
            rw [← hname]
            exact ⟨fun row => rfl, fun hplans => by simpa [SqlExpr.plans] using hplans⟩
        | compoundIdentifier idents =>
            obtain ⟨⟨ident, hlast, hname⟩, rfl⟩ :
                (∃ ident, idents.getLast? = some ident ∧ ident.folded = name)
                  ∧ expr = .compoundIdentifier idents := by
              simpa [SqlItem.named] using hexpr
            rw [← hname]
            refine ⟨fun row => by simp [SqlExpr.value, hlast], fun hplans => ?_⟩
            simp only [SqlExpr.plans, hlast, Bool.and_eq_true] at hplans
            simpa using hplans.1
        | _ => cases hitem
    | _ => cases hitem

theorem Plain.sortCell (h : q.Plain) {expr : SqlExpr} (hspelled : expr.spelled = true)
    (row : List String) :
  q.sortCell lang columns row expr = expr.value lang columns row
  := by
  cases expr with
  | identifier ident =>
      unfold SqlQuery.sortCell
      dsimp only
      cases hnamed : q.named columns ident.folded with
      | nil => rfl
      | cons expr exprs =>
          have hmem : expr ∈ q.named columns ident.folded := by
            rw [hnamed]
            exact List.mem_cons_self
          exact (h.of_named hmem).1 row
  | compoundIdentifier idents => rfl
  | _ => cases hspelled

/-- Nothing is passed over of a query that is plain. -/
theorem Plain.readWhole (h : q.Plain) (hplans : q.Plans lang columns) : q.ReadWhole lang columns
  := by
  have hpasses : ∀ row, q.readPasses columns lang row = q.passes lang columns row := by
    intro row
    unfold readPasses passes
    cases hselection : q.selection with
    | none => rfl
    | some expr =>
        have hvalue := SqlExpr.value_read (h.selection expr hselection)
          (hplans.selection expr hselection) row
        simp [hvalue]
  have houtput : ∀ row, q.readOutput columns row = q.outputRow lang columns row := by
    intro row
    unfold readOutput outputRow
    obtain hwild | hspelled := h.projection
    · rw [hwild]
      exact (List.append_nil _).symm
    · have hitems : ∀ item ∈ q.projection, item.isWildcard = false
          ∧ SqlItem.cells lang columns row item
            = [(item.readColumn columns).bind (columnCell columns row)] := by
        intro item hitem
        have hitem' := hspelled item hitem
        cases item with
        | unnamedExpr expr text =>
            obtain ⟨name, hname, hvalue⟩ :=
              SqlExpr.readColumn_of_spelled hitem' (hplans.projection _ hitem)
            refine ⟨rfl, ?_⟩
            simp only [SqlItem.cells, SqlItem.readColumn, hname, hvalue row, Option.bind_some]
        | _ => cases hitem'
      rw [if_neg (by simpa using fun item hitem => (hitems item hitem).1),
        List.flatMap_congr fun item hitem => (hitems item hitem).2]
      exact List.map_eq_flatMap.trans rfl
  have hkeys : ∀ key ∈ q.orderBy, ∃ name, key.expr.readColumn columns = some name
      ∧ ∀ row, q.sortCell lang columns row key.expr = columnCell columns row name := by
    intro key hkey
    have hspelled := h.orderBy key hkey
    have hplans' : key.expr.plans lang columns q = true := by
      have hsorts := hplans.orderBy key hkey
      cases hexpr : key.expr with
      | identifier ident =>
          rw [hexpr] at hsorts
          obtain ⟨hhead, -⟩ := hsorts
          have hmem : ident.folded ∈ columns := by
            cases hnamed : q.named columns ident.folded with
            | nil =>
                rw [hnamed] at hhead
                simpa [SqlExpr.plans] using hhead
            | cons expr exprs =>
                rw [hnamed] at hhead
                have hmem : expr ∈ q.named columns ident.folded := by
                  rw [hnamed]
                  exact List.mem_cons_self
                exact (h.of_named hmem).2 hhead
          simpa [SqlExpr.plans] using hmem
      | compoundIdentifier idents =>
          rw [hexpr] at hsorts
          exact hsorts
      | _ =>
          rw [hexpr] at hspelled
          cases hspelled
    obtain ⟨name, hname, hvalue⟩ := SqlExpr.readColumn_of_spelled hspelled hplans'
    exact ⟨name, hname, fun row => (h.sortCell hspelled row).trans (hvalue row)⟩
  have hsort : ∀ row other, q.readBefore columns row other = true →
      q.Before lang columns row other := by
    intro row other hbefore
    have hall : q.readKeys columns = q.orderBy := by
      apply List.filter_eq_self.mpr
      intro key hkey
      obtain ⟨name, hname, -⟩ := hkeys key hkey
      simp [hname]
    have hcells : ∀ row, q.readCells columns row = q.sortCells lang columns row := by
      intro row
      unfold readCells sortCells
      rw [hall]
      apply List.map_congr_left
      intro key hkey
      obtain ⟨name, hname, hcell⟩ := hkeys key hkey
      rw [hname, hcell row]
      rfl
    unfold readBefore at hbefore
    rwa [hall, hcells, hcells] at hbefore
  exact
    { plans := hplans
      selection := fun row _ => by simp [hpasses row, h.limit]
      cut := fun _ _ _ => ⟨h.limit, h.offset⟩
      projection := fun row _ _ => houtput row
      orderBy := fun row other _ _ _ _ hbefore => .inl (hsort row other hbefore) }

end SqlQuery

end

end Metadata
