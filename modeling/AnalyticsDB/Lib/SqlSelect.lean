import AnalyticsDB.Lib.Grouping
import AnalyticsDB.Lib.SqlValue

/-!
# The meaning of a SELECT

A SELECT of one table: the rows that pass its WHERE are put in groups, and each group gives a row.
Without aggregates every row is a group of its own.  Names are resolved when the query is planned,
against the columns of the table; a query with a name that is not there fails.

What an expression means is given by the text it is written with.  The language says of a text
which columns it reads and what its value is by their cells.
-/

namespace Sql

/-- A row, by the names of its columns. -/
abbrev Env := String → Cell

/-- The meaning of a text: the columns it reads, whether it writes one of them with the name or
the alias of the table, and its value. -/
structure Meaning (α : Type) where
  reads : List String
  qualified : Bool
  value : α

/-- The meaning of every text, as an expression of a row, as an aggregate of a group of rows, and
as a function over a window, of all rows and the row at hand. -/
structure Language where
  scalar : String → Meaning (List Cell → Cell)
  aggregate : String → Meaning (List (List Cell) → Cell)
  window : String → Meaning (List (List Cell) → List Cell → Cell)

/-- A scalar expression: a column, or something computed.  A column has a text of its own, since
its name may be written in another case, with quotes or with the name of the table. -/
inductive Expr where
  | column (text name : String) (qualified : Bool)
  | computed (text : String)
  deriving DecidableEq

inductive AggregateFunction where
  | count
  | sum
  | min
  | max
  | avg
  deriving DecidableEq

/-- An expression of a projection.  A `function` has a single argument, or `*`, and no other part:
neither DISTINCT nor FILTER nor OVER.  A `scalarFunction` is any other function of a row.
`sumQuotient` is `SUM(a) / SUM(b)`, and `otherAggregate` any other expression with an aggregate in
it; `call` says that it is a single call of a function. -/
inductive SelectExpr where
  | scalar (e : Expr)
  | scalarFunction (e : Expr)
  | function (name : String) (argument : Option Expr) (text : String)
  | sumQuotient (numerator denominator : Expr)
  | otherAggregate (text : String) (call : Bool)
  | window (text : String)
  deriving DecidableEq

structure SelectItem where
  expr : SelectExpr
  asName : Option String
  deriving DecidableEq

inductive ProjectionItem where
  | wildcard
  | item (item : SelectItem)
  deriving DecidableEq

/-- An item of GROUP BY: an expression, which may be the alias of an item of the projection, or
the number of one. -/
inductive GroupItem where
  | expr (e : Expr)
  | ordinal (number : Nat)
  deriving DecidableEq

inductive OrderExpr where
  | expr (e : SelectExpr)
  | ordinal (number : Nat)
  deriving DecidableEq

structure OrderItem where
  expr : OrderExpr
  descending : Bool := false
  nullsFirst : Bool := false
  deriving DecidableEq

inductive Distinct where
  | no
  | rows
  | on (keys : List Expr)
  deriving DecidableEq

/-- A SELECT of one table. -/
structure Query where
  hasWith : Bool := false
  distinct : Distinct := .no
  projection : List ProjectionItem
  selection : Option Expr := none
  groupBy : List GroupItem := []
  /-- Something else than a list of expressions in GROUP BY. -/
  groupByModifiers : Bool := false
  having : Bool := false
  orderBy : List OrderItem := []
  limit : Option Nat := none
  offset : Option Nat := none
  deriving DecidableEq

/-- The rows of a table, one cell for each column. -/
structure Table where
  columns : List String
  rows : List (List Cell)
  deriving DecidableEq

namespace Table

/-- The cells of a row by the names of their columns. -/
def env (columns : List String) (row : List Cell) : Env :=
  fun name => ((columns.zip row).lookup name).join

def envs (t : Table) : List Env := t.rows.map (env t.columns)

end Table

namespace AggregateFunction

def ofName? : String → Option AggregateFunction
  | "count" => some count
  | "sum" => some sum
  | "min" => some min
  | "max" => some max
  | "avg" => some avg
  | _ => none

def value : AggregateFunction → List Cell → Cell
  | count, cells => some (.integer (Sql.count cells))
  | sum, cells => Sql.sum cells
  | min, cells => Sql.min cells
  | max, cells => Sql.max cells
  | avg, cells => Sql.avg cells

end AggregateFunction

variable (lang : Language)

namespace Expr

def text : Expr → String
  | column text _ _ | computed text => text

/-- The column of a name. -/
def ofName (name : String) : Expr := column name name false

/-- The names of the columns an expression reads. -/
def reads : Expr → List String
  | column _ name _ => [name]
  | computed text => (lang.scalar text).reads

def qualified : Expr → Bool
  | column _ _ qualified => qualified
  | computed text => (lang.scalar text).qualified

def eval (env : Env) : Expr → Cell
  | column _ name _ => env name
  | computed text => (lang.scalar text).value ((lang.scalar text).reads.map env)

/-- Whether two expressions are the same for the planner. -/
def same : Expr → Expr → Bool
  | column _ name _, column _ name' _ => name = name'
  | computed text, computed text' => text = text'
  | column .., computed .. | computed .., column .. => false

/-- The columns of an expression are those of the table, and the names it is written with are
known: `named` says that the table has the name and the alias the query uses. -/
def resolves (named : Bool) (columns : List String) (e : Expr) : Bool :=
  (named || !e.qualified lang) && (e.reads lang).all (columns.contains ·)

end Expr

namespace SelectExpr

def text : SelectExpr → String
  | scalar e | scalarFunction e => e.text
  | function _ _ text | otherAggregate text _ | window text => text
  | sumQuotient numerator denominator =>
    "SUM(" ++ numerator.text ++ ") / SUM(" ++ denominator.text ++ ")"

/-- An expression of a row as such. -/
def scalar? : SelectExpr → Option Expr
  | scalar e | scalarFunction e => some e
  | function name _ text =>
    match AggregateFunction.ofName? name with
    | some _ => none
    | none => some (.computed text)
  | sumQuotient _ _ | otherAggregate _ _ | window _ => none

def isAggregate : SelectExpr → Bool
  | function name _ _ => (AggregateFunction.ofName? name).isSome
  | sumQuotient _ _ | otherAggregate _ _ => true
  | scalar _ | scalarFunction _ | window _ => false

/-- The names of the columns an expression reads. -/
def reads : SelectExpr → List String
  | scalar e | scalarFunction e => e.reads lang
  | function name argument text =>
    match AggregateFunction.ofName? name with
    | some _ => (argument.map (·.reads lang)).getD []
    | none => (lang.scalar text).reads
  | sumQuotient numerator denominator => numerator.reads lang ++ denominator.reads lang
  | otherAggregate text _ => (lang.aggregate text).reads
  | window text => (lang.window text).reads

def qualified : SelectExpr → Bool
  | scalar e | scalarFunction e => e.qualified lang
  | function name argument text =>
    match AggregateFunction.ofName? name with
    | some _ => argument.any (·.qualified lang)
    | none => (lang.scalar text).qualified
  | sumQuotient numerator denominator => numerator.qualified lang || denominator.qualified lang
  | otherAggregate text _ => (lang.aggregate text).qualified
  | window text => (lang.window text).qualified

/-- The cell an aggregate takes from a row; `*` is never NULL. -/
def argumentCell (argument : Option Expr) (env : Env) : Cell :=
  match argument with
  | some e => e.eval lang env
  | none => some (.boolean true)

/-- The row that stands for a group; without rows there is nothing to read. -/
def first (group : List Env) : Env := group.headD (fun _ => none)

/-- The value of an expression on a group of rows, among all rows. -/
def value (rows group : List Env) : SelectExpr → Cell
  | scalar e | scalarFunction e => e.eval lang (first group)
  | function name argument text =>
    match AggregateFunction.ofName? name with
    | some f => f.value (group.map (argumentCell lang argument))
    | none => (Expr.computed text).eval lang (first group)
  | sumQuotient numerator denominator =>
    quotient (sum (group.map (fun env => numerator.eval lang env)))
      (sum (group.map (fun env => denominator.eval lang env)))
  | otherAggregate text _ =>
    (lang.aggregate text).value (group.map (fun env => (lang.aggregate text).reads.map env))
  | window text =>
    (lang.window text).value (rows.map (fun env => (lang.window text).reads.map env))
      ((lang.window text).reads.map (first group))

end SelectExpr

/-- The name of the column of an item. -/
def SelectItem.name (item : SelectItem) : String :=
  match item with
  | ⟨_, some name⟩ => name
  | ⟨.scalar (.column _ name _), none⟩ => name
  | ⟨expr, none⟩ => expr.text

namespace Query

variable (q : Query)

/-- The items of a projection over a table with these columns. -/
def items (columns : List String) : List SelectItem :=
  q.projection.flatMap (fun item => match item with
    | .wildcard => columns.map (fun column => ⟨.scalar (.ofName column), some column⟩)
    | .item item => [item])

def isAggregate : Bool :=
  !q.groupBy.isEmpty || q.projection.any (fun item => match item with
    | .wildcard => false
    | .item item => item.expr.isAggregate)

/-- The expression an item of GROUP BY stands for.  The columns of the table come before the
aliases of the projection. -/
def groupExpr? (columns : List String) : GroupItem → Option Expr
  | .ordinal number =>
    if number = 0 then none else ((q.items columns)[number - 1]?).bind (·.expr.scalar?)
  | .expr e =>
    if (e.reads lang).all (columns.contains ·) then
      some e
    else
      match e with
      | .column _ name false =>
        ((q.items columns).find? (·.name = name)).bind (·.expr.scalar?)
      | _ => none

/-- The expressions of GROUP BY. -/
def groupExprs (columns : List String) : List Expr :=
  q.groupBy.filterMap (q.groupExpr? lang columns)

/-- Whether an expression has one value on a group. -/
def grouped (columns : List String) (e : Expr) : Bool :=
  (q.groupExprs lang columns).any (·.same e)
    || (e.reads lang).all (fun name => (q.groupExprs lang columns).any (·.same (.ofName name)))

/-- Whether an expression of the projection can be planned: `*` is an argument of COUNT alone, and
what is not aggregated is grouped. -/
def plansExpr (named : Bool) (columns : List String) (e : SelectExpr) : Bool :=
  (named || !e.qualified lang) && (e.reads lang).all (columns.contains ·)
    && (match e with
      | .function name none _ => name = "count"
      | _ => true)
    && (!q.isAggregate || e.scalar?.all (q.grouped lang columns ·))

/-- The expression an item of ORDER BY stands for: the names of the projection come before the
columns of the table. -/
def orderExpr? (columns : List String) : OrderExpr → Option SelectExpr
  | .ordinal number =>
    if number = 0 then none else ((q.items columns)[number - 1]?).map (·.expr)
  | .expr (.scalar (.column text name false)) =>
    some ((((q.items columns).find? (·.name = name)).map (·.expr)).getD
      (.scalar (.column text name false)))
  | .expr e => some e

/-- Whether DISTINCT can be planned: the order of distinct rows is by what is selected, and the keys
of DISTINCT ON are the first ones of ORDER BY. -/
def plansDistinct (named : Bool) (columns : List String) : Bool :=
  match q.distinct with
  | .no => true
  | .rows =>
    q.orderBy.all (fun item =>
      (q.orderExpr? columns item.expr).all (fun e => (q.items columns).any (·.expr = e)))
  | .on keys =>
    keys.all (·.resolves lang named columns)
      && (q.orderBy.isEmpty || decide (keys.length ≤ q.orderBy.length)
        && (keys.zip q.orderBy).all (fun (key, item) =>
          (q.orderExpr? columns item.expr).any (fun e => e.scalar?.any (·.same key))))

/-- Whether a query can be planned over a table with these columns. -/
def plans (named : Bool) (columns : List String) : Bool :=
  q.selection.all (·.resolves lang named columns)
    && q.groupBy.all (fun item =>
      (q.groupExpr? lang columns item).any (·.resolves lang named columns))
    && (q.items columns).all (fun item => q.plansExpr lang named columns item.expr)
    && ((q.items columns).map SelectItem.name).Nodup
    && q.orderBy.all (fun item =>
      (q.orderExpr? columns item.expr).any (q.plansExpr lang named columns ·))
    && q.plansDistinct lang named columns

/-- Whether a row passes the WHERE of a query. -/
def passes (env : Env) : Bool :=
  q.selection.all (fun e => e.eval lang env = some (.boolean true))

/-- The key of the group of a row. -/
def key (columns : List String) (env : Env) : List Cell :=
  (q.groupExprs lang columns).map (·.eval lang env)

/-- The rows that pass. -/
def passing (t : Table) : List Env := t.envs.filter (q.passes lang)

/-- The groups of the rows that pass. -/
def groupsOf (t : Table) : List (List Env) :=
  if !q.isAggregate then
    (q.passing lang t).map ([·])
  else if q.groupBy.isEmpty then
    [q.passing lang t]
  else
    Grouping.groups (q.key lang t.columns) (q.passing lang t)

/-- The row of a group. -/
def outputRow (t : Table) (group : List Env) : List Cell :=
  (q.items t.columns).map (·.expr.value lang (q.passing lang t) group)

/-- The names of the columns of the result. -/
def outputNames (columns : List String) : List String := (q.items columns).map SelectItem.name

/-- The result of a query that has neither DISTINCT nor ORDER BY, LIMIT and OFFSET, in some
order. -/
def selected (named : Bool) (t : Table) : Except String Table :=
  if q.plans lang named t.columns then
    .ok { columns := q.outputNames t.columns
          rows := (q.groupsOf lang t).map (q.outputRow lang t) }
  else
    .error "Error during planning"

end Query

/-! ### Expressions -/

section

variable {lang : Language} {e : Expr} {x y : Env}

/-- An expression depends on the columns it reads. -/
theorem Expr.eval_congr (h : ∀ name ∈ e.reads lang, x name = y name) :
  e.eval lang x = e.eval lang y
  := by
  cases e with
  | column text name qualified => exact h name (by simp [reads])
  | computed text =>
      have hreads : (lang.scalar text).reads.map x = (lang.scalar text).reads.map y :=
        List.map_congr_left h
      rw [eval, eval, hreads]

theorem Expr.eval_same {e' : Expr} (h : e.same e') (env : Env) :
  e.eval lang env = e'.eval lang env
  := by
  cases e <;> cases e' <;> simp_all [same, eval]

/-- Rows of one key agree in what is grouped. -/
theorem Query.eval_eq_of_grouped {q : Query} {columns : List String}
    (h : q.grouped lang columns e) (hkey : q.key lang columns x = q.key lang columns y) :
  e.eval lang x = e.eval lang y
  := by
  have hsame : ∀ e', (q.groupExprs lang columns).any (·.same e') = true →
      e'.eval lang x = e'.eval lang y := by
    intro e' hany
    obtain ⟨g, hg, hsame⟩ := List.any_eq_true.mp hany
    rw [← Expr.eval_same hsame, ← Expr.eval_same hsame]
    exact List.map_inj_left.mp hkey g hg
  rw [grouped, Bool.or_eq_true] at h
  obtain h | h := h
  · exact hsame e h
  · apply Expr.eval_congr
    intro name hname
    exact hsame (.ofName name) (List.all_eq_true.mp h name hname)

/-- The expressions of a row as such. -/
theorem SelectExpr.scalar?_eq_some {expr : SelectExpr} (h : expr.scalar? = some e) :
  expr = .scalar e ∨ expr = .scalarFunction e
    ∨ ∃ name argument text, expr = .function name argument text
      ∧ AggregateFunction.ofName? name = none ∧ e = .computed text
  := by
  cases expr with
  | function name argument text =>
      cases hname : AggregateFunction.ofName? name with
      | none =>
          obtain rfl : Expr.computed text = e := by simpa [scalar?, hname] using h
          exact .inr (.inr ⟨name, argument, text, rfl, hname, rfl⟩)
      | some f => simp [scalar?, hname] at h
  | scalar e' =>
      obtain rfl : e' = e := by simpa [scalar?] using h
      exact .inl rfl
  | scalarFunction e' =>
      obtain rfl : e' = e := by simpa [scalar?] using h
      exact .inr (.inl rfl)
  | sumQuotient numerator denominator => simp [scalar?] at h
  | otherAggregate text call => simp [scalar?] at h
  | window text => simp [scalar?] at h

theorem SelectExpr.isAggregate_of_scalar? {expr : SelectExpr} (h : expr.scalar? = some e) :
  expr.isAggregate = false
  := by
  obtain rfl | rfl | ⟨name, argument, text, rfl, hname, rfl⟩ := scalar?_eq_some h
  · rfl
  · rfl
  · simp [isAggregate, hname]

theorem SelectExpr.reads_of_scalar? {expr : SelectExpr} (h : expr.scalar? = some e) :
  expr.reads lang = e.reads lang
  := by
  obtain rfl | rfl | ⟨name, argument, text, rfl, hname, rfl⟩ := scalar?_eq_some h
  · rfl
  · rfl
  · simp [reads, Expr.reads, hname]

theorem SelectExpr.value_of_scalar? {expr : SelectExpr} (h : expr.scalar? = some e)
    (rows group : List Env) :
  expr.value lang rows group = e.eval lang (first group)
  := by
  obtain rfl | rfl | ⟨name, argument, text, rfl, hname, rfl⟩ := scalar?_eq_some h
  · rfl
  · rfl
  · simp only [value, hname]

end

/-- The items of a projection without `*`. -/
theorem Query.items_of_projection {q : Query} {items : List SelectItem}
    (h : q.projection = items.map .item) (columns : List String) :
  q.items columns = items
  := by
  rw [Query.items, h, List.flatMap_map]
  exact List.flatMap_singleton' items

namespace Query

/-- The expressions of the projection that are not aggregated. -/
def selectedExprs (q : Query) (columns : List String) : List Expr :=
  (q.items columns).filterMap (·.expr.scalar?)

theorem mem_selectedExprs {q : Query} {columns : List String} {e : Expr} :
  e ∈ q.selectedExprs columns ↔ ∃ item ∈ q.items columns, item.expr.scalar? = some e
  := List.mem_filterMap

variable {lang : Language} {q : Query} {named : Bool} {columns : List String}

theorem plansExpr_of_plans (h : q.plans lang named columns) {item : SelectItem}
    (hitem : item ∈ q.items columns) :
  q.plansExpr lang named columns item.expr
  := by
  simp only [plans, Bool.and_eq_true] at h
  exact List.all_eq_true.mp h.1.1.1.2 item hitem

theorem groupExpr?_of_plans (h : q.plans lang named columns) {item : GroupItem}
    (hitem : item ∈ q.groupBy) :
  ∃ e, q.groupExpr? lang columns item = some e
  := by
  simp only [plans, Bool.and_eq_true] at h
  have hany := List.all_eq_true.mp h.1.1.1.1.2 item hitem
  obtain ⟨e, he, -⟩ := (Option.any_eq_true _ _).mp hany
  exact ⟨e, he⟩

theorem nodup_of_plans (h : q.plans lang named columns) : (q.outputNames columns).Nodup
  := by
  simp only [plans, Bool.and_eq_true, decide_eq_true_eq] at h
  exact h.1.1.2

/-- Rows of one key agree in what is selected. -/
theorem eval_eq_of_key (hplans : q.plans lang named columns) (haggregate : q.isAggregate)
    {x y : Env} (hkey : q.key lang columns x = q.key lang columns y) :
  ∀ e ∈ q.selectedExprs columns, e.eval lang x = e.eval lang y
  := by
  intro e he
  obtain ⟨item, hitem, hscalar⟩ := mem_selectedExprs.mp he
  have hplan := plansExpr_of_plans hplans hitem
  simp only [plansExpr, haggregate, hscalar, Bool.and_eq_true, Bool.not_true, Bool.false_or,
    Option.all_some] at hplan
  exact eval_eq_of_grouped hplan.2 hkey

/-- An expression of GROUP BY is selected, or it is written there and reads the columns of the
table. -/
theorem mem_groupExprs {e : Expr} (h : e ∈ q.groupExprs lang columns) :
  e ∈ q.selectedExprs columns
    ∨ .expr e ∈ q.groupBy ∧ (e.reads lang).all (columns.contains ·) = true
  := by
  obtain ⟨item, hitem, hexpr⟩ := List.mem_filterMap.mp h
  cases item with
  | ordinal number =>
      left
      simp only [groupExpr?] at hexpr
      split at hexpr
      · cases hexpr
      · obtain ⟨found, hfound, hscalar⟩ := Option.bind_eq_some_iff.mp hexpr
        exact mem_selectedExprs.mpr ⟨found, List.mem_of_getElem? hfound, hscalar⟩
  | expr written =>
      simp only [groupExpr?] at hexpr
      split at hexpr
      · rename_i hreads
        obtain rfl := Option.some.inj hexpr
        exact .inr ⟨hitem, hreads⟩
      · left
        split at hexpr
        · obtain ⟨found, hfound, hscalar⟩ := Option.bind_eq_some_iff.mp hexpr
          exact mem_selectedExprs.mpr ⟨found, List.mem_of_find?_eq_some hfound, hscalar⟩
        · cases hexpr

theorem mem_groupExprs_of_reads {e : Expr} (h : .expr e ∈ q.groupBy)
    (hreads : (e.reads lang).all (columns.contains ·) = true) :
  e ∈ q.groupExprs lang columns
  := by
  apply List.mem_filterMap.mpr
  use .expr e, h
  simp only [groupExpr?]
  exact if_pos hreads

end Query

/-! ### Columns by their names -/

/-- The cell of an item in the row of all items. -/
theorem lookup_zip_map {α : Type} {items : List α} {name : α → String} {value : α → Cell}
    (hnames : (items.map name).Nodup) {item : α} (h : item ∈ items) :
  ((items.map name).zip (items.map value)).lookup (name item) = some (value item)
  := by
  induction items with
  | nil => cases h
  | cons first items ih =>
      rw [List.map_cons, List.map_cons, List.zip_cons_cons, List.lookup_cons]
      rw [List.map_cons, List.nodup_cons] at hnames
      obtain rfl | hmem := List.mem_cons.mp h
      · simp
      · have hne : name item ≠ name first := by
          intro heq
          exact hnames.1 (heq ▸ List.mem_map_of_mem hmem)
        rw [show (name item == name first) = false from beq_eq_false_iff_ne.mpr hne]
        exact ih hnames.2 hmem

/-- A column of the result of a query has the value of its item. -/
theorem Query.env_outputRow {q : Query} {t : Table} (hnames : (q.outputNames t.columns).Nodup)
    {item : SelectItem} (h : item ∈ q.items t.columns) (group : List Env) :
  Table.env (q.outputNames t.columns) (q.outputRow lang t group) item.name
    = item.expr.value lang (q.passing lang t) group
  := by
  unfold Table.env Query.outputNames Query.outputRow
  rw [lookup_zip_map hnames h]
  rfl

end Sql
