import AnalyticsDB.Catalog.State
import AnalyticsDB.Control.AccountTexts
import AnalyticsDB.Control.Routing
import AnalyticsDB.Engine.SliceRange

/-!
# Distributed inserts of a series

An insert that selects from `generate_series(start, end)` is executed by the workers: every worker
gets the query with a slice of the range in place of the arguments of the call.  The slice is
written back into the text of the query, with the columns of the table as the names of its
projection; when that cannot be done, a worker gets the query as it is.
-/

namespace GenerateSeries

open Intervals

/-! ### What the parser reads -/

/-- An expression: integers without a sign and signs before an expression are looked at. -/
inductive Expr where
  | number (text : String)
  | minus (operand : Expr)
  | other (text : String)
  deriving DecidableEq, Repr

/-- An argument of a table function; others are wildcards, and names that are expressions. -/
inductive FunctionArg where
  | unnamed (expr : Expr)
  | named (name : String) (expr : Expr)
  | other (text : String)
  deriving DecidableEq, Repr

/-- An item of a projection; others are wildcards. -/
inductive SelectItem where
  | unnamedExpr (expr : Expr)
  | exprWithAlias (expr : Expr) (quoteStyle : Option Char) (name : String)
  | other (text : String)
  deriving DecidableEq, Repr

/-- A table: the parts of its name as they are displayed, its arguments and what follows them. -/
inductive TableFactor where
  | table (name : List String) (args : Option (List FunctionArg)) (rest : String)
  | other (text : String)
  deriving DecidableEq, Repr

structure TableWithJoins where
  relation : TableFactor
  joins : List String
  deriving DecidableEq, Repr

structure Select where
  projection : List SelectItem
  tables : List TableWithJoins
  rest : String
  deriving DecidableEq, Repr

inductive SetExpr where
  | select (select : Select)
  | other (text : String)
  deriving DecidableEq, Repr

structure Query where
  withClause : Option String
  body : SetExpr
  rest : String
  deriving DecidableEq, Repr

inductive Statement where
  | query (query : Query)
  | other (text : String)
  deriving DecidableEq, Repr

/-- The parser of SQL, and how a statement is displayed. -/
structure SqlParser where
  parse : String → Option (List Statement)
  print : Statement → String

/-! ### Plan and slices -/

structure GenerateSeriesPlan where
  start : Int
  stop : Int
  funcName : String
  deriving DecidableEq, Repr

/-- The integer a literal stands for. -/
def literalInt : Expr → Option Int
  | .number text => I64.parse text
  | .minus (.number text) => (I64.parse text).map (fun n => I64.cast (-n))
  | _ => none

def extractInt : FunctionArg → Option Int
  | .unnamed expr => literalInt expr
  | .named _ expr => literalInt expr
  | .other _ => none

/-- The plan of a select from the function, of two integers the first of which is not greater. -/
def Statement.seriesPlan : Statement → Option GenerateSeriesPlan
  | .query ⟨none, .select ⟨_, [⟨.table name (some [first, second]) _, []⟩], _⟩, _⟩ => do
    let lastPart ← name.getLast?
    guard (asciiLower lastPart = "generate_series")
    let start ← extractInt first
    let stop ← extractInt second
    guard (start ≤ stop)
    return { start, stop, funcName := lastPart }
  | _ => none

def parseGenerateSeriesSelect (parser : SqlParser) (sql : String) : Option GenerateSeriesPlan := do
  let statements ← parser.parse (trimmedStatement sql)
  let statement ← statements.head?
  statement.seriesPlan

def makeInt (n : Int) : FunctionArg := .unnamed (.number (toString n))

/-- An item under the name of a column. -/
def SelectItem.renamed (target : String) : SelectItem → Option SelectItem
  | .unnamedExpr expr => some (.exprWithAlias expr (some '"') target)
  | .exprWithAlias expr _ _ => some (.exprWithAlias expr (some '"') target)
  | .other _ => none

/-- The items under the names of the columns, when there are any. -/
def renameItems (projection : List SelectItem) (targetColumns : List String) :
    Option (List SelectItem) :=
  if targetColumns.isEmpty then some projection
  else if projection.length ≠ targetColumns.length then none
  else (projection.zip targetColumns).mapM (fun (item, target) => item.renamed target)

/-- The statement with other arguments and other names. -/
def Statement.withRange (plan : GenerateSeriesPlan) (start stop : Int)
    (targetColumns : List String) : Statement → Option Statement
  | .query ⟨withClause, .select ⟨projection, [⟨.table name (some [_, _]) tableRest, joins⟩],
      selectRest⟩, queryRest⟩ => do
    let lastPart ← name.getLast?
    guard (asciiLower lastPart = asciiLower plan.funcName)
    let projection ← renameItems projection targetColumns
    return .query ⟨withClause, .select ⟨projection,
      [⟨.table name (some [makeInt start, makeInt stop]) tableRest, joins⟩], selectRest⟩, queryRest⟩
  | _ => none

def rewriteGenerateSeriesRange (parser : SqlParser) (sql : String) (plan : GenerateSeriesPlan)
    (start stop : Int) (targetColumns : List String) : Option String := do
  let statements ← parser.parse sql
  let statement ← statements.head?
  let rewritten ← statement.withRange plan start stop targetColumns
  return parser.print rewritten

/-! ### The tasks of the workers -/

structure InsertSelectStatement where
  database : Option String
  schema : Option String
  name : String
  columns : Option (List String)
  querySql : String
  deriving DecidableEq, Repr

structure ExecutePartitionWriteRequest where
  queryId : String
  initialQueryId : String
  coordinatorNodeId : String
  sql : String
  session : SessionContext
  partitionFiles : List String
  sourceColumns : List CatalogColumn
  writePrefix : String
  attemptId : String

/-- The columns that are written: those of the statement, or all of the table but the row id. -/
def targetColumns (statement : InsertSelectStatement) (relation : CatalogRelation) : List String :=
  match statement.columns with
  | some (column :: columns) => column :: columns
  | _ => (relation.columns.filter (·.name ≠ "_row_id")).map (·.name)

/-- The nodes and what they are asked for; none is a program that an overflow stops. -/
def makeTasks (checks : Bool) (parser : SqlParser) (session : SessionContext)
    (statement : InsertSelectStatement) (relation : CatalogRelation) (targetStorage : String)
    (plan : GenerateSeriesPlan) (admission : QueryAdmission) (computeNodes : List ClusterNode) :
    Option (List (ClusterNode × ExecutePartitionWriteRequest)) := do
  let ranges ← sliceIntRange checks plan.start plan.stop computeNodes.length
  return (ranges.zip computeNodes).map (fun (range, node) =>
    (node,
      { queryId := admission.queryId
        initialQueryId := admission.queryId
        coordinatorNodeId := admission.coordinatorNodeId
        sql := (rewriteGenerateSeriesRange parser statement.querySql plan range.1 range.2
          (targetColumns statement relation)).getD statement.querySql
        session := session
        partitionFiles := []
        sourceColumns := []
        writePrefix := targetStorage
        -- set when the task is dispatched
        attemptId := "" }))

/-! ### What a text generates -/

/-- A text generates an integer: its first statement selects from a series that has it. -/
def generates (parser : SqlParser) (x : Int) (sql : String) : Bool :=
  match (parser.parse sql).bind (fun statements => statements.head?.bind (·.seriesPlan)) with
  | some plan => decide (plan.start ≤ x ∧ x ≤ plan.stop)
  | none => false

/-- Each integer of the range is generated by one of the tasks, and no other by any. -/
def GeneratesOnce (parser : SqlParser) (plan : GenerateSeriesPlan)
    (tasks : List (ClusterNode × ExecutePartitionWriteRequest)) : Prop :=
  ∀ x : Int, tasks.countP (fun task => generates parser x task.2.sql)
    = if plan.start ≤ x ∧ x ≤ plan.stop then 1 else 0

/-- A number with a sign is read as the sign before the number. -/
def Expr.reread : Expr → Expr
  | .number text =>
    match text.toList with
    | '-' :: digits => .minus (.number (String.ofList digits))
    | _ => .number text
  | .minus operand => .minus operand.reread
  | .other text => .other text

def FunctionArg.reread : FunctionArg → FunctionArg
  | .unnamed expr => .unnamed expr.reread
  | .named name expr => .named name expr.reread
  | .other text => .other text

def SelectItem.reread : SelectItem → SelectItem
  | .unnamedExpr expr => .unnamedExpr expr.reread
  | .exprWithAlias expr quoteStyle name => .exprWithAlias expr.reread quoteStyle name
  | .other text => .other text

def TableFactor.reread : TableFactor → TableFactor
  | .table name args rest => .table name (args.map (·.map FunctionArg.reread)) rest
  | .other text => .other text

/-- The statement as it is read back from its text. -/
def Statement.reread : Statement → Statement
  | .query ⟨withClause, .select ⟨projection, tables, rest⟩, queryRest⟩ =>
    .query ⟨withClause, .select ⟨projection.map SelectItem.reread,
      tables.map (fun table => ⟨table.relation.reread, table.joins⟩), rest⟩, queryRest⟩
  | statement => statement

/-- A number in the text of a statement has no sign. -/
def Expr.Unsigned : Expr → Prop
  | .number text => text.toList.head? ≠ some '-'
  | .minus operand => operand.Unsigned
  | .other _ => True

def FunctionArg.Unsigned : FunctionArg → Prop
  | .unnamed expr | .named _ expr => expr.Unsigned
  | .other _ => True

/-- The arguments of the tables of a statement. -/
def Statement.tableArgs : Statement → List FunctionArg
  | .query ⟨_, .select ⟨_, tables, _⟩, _⟩ =>
    tables.flatMap (fun table => match table.relation with
      | .table _ (some args) _ => args
      | _ => [])
  | _ => []

/-- What the parser does with the text of a query and with the texts that are made from it: white
space and semicolons at the end do not matter, numbers have no sign, and a statement is read back
as it is displayed. -/
structure ParserReads (parser : SqlParser) (sql : String) (plan : GenerateSeriesPlan)
    (targetColumns : List String) : Prop where
  trimmed : parser.parse (trimmedStatement sql) = parser.parse sql
  unsigned : ∀ statement rest, parser.parse sql = some (statement :: rest) →
    ∀ arg ∈ statement.tableArgs, arg.Unsigned
  rereads : ∀ statement rest, parser.parse sql = some (statement :: rest) →
    ∀ start stop rewritten, plan.start ≤ start → start ≤ stop → stop ≤ plan.stop →
      statement.withRange plan start stop targetColumns = some rewritten →
      parser.parse (parser.print rewritten) = some [rewritten.reread]

/-! ### When a slice can be written into the text -/

/-- An item is an expression, with or without an alias. -/
def SelectItem.isExpr : SelectItem → Bool
  | .unnamedExpr _ | .exprWithAlias _ _ _ => true
  | .other _ => false

def Statement.projection : Statement → List SelectItem
  | .query ⟨_, .select ⟨projection, _, _⟩, _⟩ => projection
  | _ => []

/-- The projection can be named as the columns are: there are none, or they are as many as its
items and none of these is a wildcard. -/
def Statement.Renamable (statement : Statement) (targetColumns : List String) : Prop :=
  targetColumns = [] ∨ statement.projection.length = targetColumns.length
    ∧ ∀ item ∈ statement.projection, item.isExpr = true

section

variable {statement rewritten : Statement} {plan : GenerateSeriesPlan} {start stop : Int}
  {targetColumns : List String}

theorem renamed_isSome (item : SelectItem) (target : String) :
  (item.renamed target).isSome = item.isExpr
  := by
  cases item <;> rfl

theorem renameItems_isSome (projection : List SelectItem) (targetColumns : List String) :
  (renameItems projection targetColumns).isSome = true ↔ targetColumns = []
    ∨ projection.length = targetColumns.length ∧ ∀ item ∈ projection, item.isExpr = true
  := by
  rw [renameItems]
  split
  · rename_i hempty
    simp [List.isEmpty_iff.mp hempty]
  · rename_i hne
    rw [List.isEmpty_iff] at hne
    split
    · rename_i hlength
      simp [hne, hlength]
    · rename_i hlength
      rw [not_not] at hlength
      simp only [hne, false_or, hlength, true_and]
      clear hne
      induction projection generalizing targetColumns with
      | nil => simp
      | cons item projection ih =>
          cases targetColumns with
          | nil => cases hlength
          | cons target targetColumns =>
              have ih := ih targetColumns (Nat.succ.inj hlength)
              rw [List.zip_cons_cons, List.mapM_cons, List.forall_mem_cons, ← ih,
                ← renamed_isSome item target]
              cases item.renamed target with
              | none => simp
              | some renamed =>
                  simp only [Option.bind_eq_bind, Option.bind_some]
                  cases List.mapM (fun (item, target) => SelectItem.renamed target item)
                    (projection.zip targetColumns) <;> simp

/-- A statement with a plan: its call and the ends of its range. -/
theorem seriesPlan_cases (hplan : statement.seriesPlan = some plan) :
  ∃ projection name first second tableRest selectRest queryRest,
    statement = .query ⟨none, .select ⟨projection,
      [⟨.table name (some [first, second]) tableRest, []⟩], selectRest⟩, queryRest⟩
    ∧ name.getLast? = some plan.funcName ∧ asciiLower plan.funcName = "generate_series"
    ∧ extractInt first = some plan.start ∧ extractInt second = some plan.stop
    ∧ plan.start ≤ plan.stop
  := by
  rw [Statement.seriesPlan.eq_def] at hplan
  split at hplan
  · rename_i projection name first second tableRest selectRest queryRest
    simp only [Option.bind_eq_bind, Option.bind_eq_some_iff, Option.guard_eq_some',
      Option.pure_def, Option.some.injEq] at hplan
    obtain ⟨last, hlast, -, hname, start, hstart, stop, hstop, -, hle, rfl⟩ := hplan
    exact ⟨projection, name, first, second, tableRest, selectRest, queryRest, rfl, hlast, hname,
      hstart, hstop, hle⟩
  · cases hplan

theorem literalInt_bounds {expr : Expr} {n : Int} (hexpr : expr.Unsigned)
    (h : literalInt expr = some n) :
  -I64.MAX ≤ n ∧ n ≤ I64.MAX
  := by
  rw [I64.MAX]
  cases expr with
  | number text =>
      obtain ⟨⟨-, hmax⟩, hsign⟩ := I64.parse_bounds h
      have hpos := hsign hexpr
      omega
  | minus operand =>
      cases operand with
      | number text =>
          obtain ⟨m, hm, rfl⟩ := Option.map_eq_some_iff.mp h
          obtain ⟨⟨-, hmax⟩, hsign⟩ := I64.parse_bounds hm
          have hpos := hsign hexpr
          rw [I64.cast_of_inRange] <;> constructor <;> omega
      | minus _ => cases h
      | other _ => cases h
  | other text => cases h

theorem extractInt_bounds {arg : FunctionArg} {n : Int} (harg : arg.Unsigned)
    (h : extractInt arg = some n) :
  -I64.MAX ≤ n ∧ n ≤ I64.MAX
  := by
  cases arg with
  | unnamed expr => exact literalInt_bounds harg h
  | named name expr => exact literalInt_bounds harg h
  | other text => cases h

/-- The ends of the range of a plan that was read. -/
theorem seriesPlan_bounds (hplan : statement.seriesPlan = some plan)
    (hunsigned : ∀ arg ∈ statement.tableArgs, arg.Unsigned) :
  -I64.MAX ≤ plan.start ∧ plan.start ≤ plan.stop ∧ plan.stop ≤ I64.MAX
  := by
  obtain ⟨_, _, first, second, _, _, _, rfl, -, -, hstart, hstop, hle⟩ := seriesPlan_cases hplan
  have hfirst : first.Unsigned := hunsigned first (by simp [Statement.tableArgs])
  have hsecond : second.Unsigned := hunsigned second (by simp [Statement.tableArgs])
  exact ⟨(extractInt_bounds hfirst hstart).1, hle, (extractInt_bounds hsecond hstop).2⟩

/-- An argument that is written is read back. -/
theorem extractInt_reread_makeInt {n : Int} (hmin : -I64.MAX ≤ n) (hmax : n ≤ I64.MAX) :
  extractInt (makeInt n).reread = some n
  := by
  rw [I64.MAX] at hmin hmax
  cases n with
  | ofNat n =>
      have htext : (toString (Int.ofNat n)).toList = Nat.toDigits 10 n := Nat.toList_repr
      obtain ⟨d, digits, hdigits, hminus, -⟩ := I64.toDigits_eq_cons n
      have hreread : (Expr.number (toString (Int.ofNat n))).reread
          = .number (toString (Int.ofNat n)) := by
        rw [Expr.reread, htext, hdigits]
        split
        · rename_i heq
          exact absurd (List.cons.inj heq).1 hminus
        · rfl
      rw [makeInt, FunctionArg.reread, hreread]
      apply I64.parse_digits htext
      constructor <;> omega
  | negSucc n =>
      have htext : (toString (Int.negSucc n)).toList = '-' :: Nat.toDigits 10 (n + 1) := by
        change ("-" ++ toString (n + 1)).toList = _
        rw [String.toList_append, ← Nat.toList_repr]
        rfl
      have hreread : (Expr.number (toString (Int.negSucc n))).reread
          = .minus (.number (String.ofList (Nat.toDigits 10 (n + 1)))) := by
        rw [Expr.reread, htext]
        rfl
      have hparse : I64.parse (String.ofList (Nat.toDigits 10 (n + 1)))
          = some ((n + 1 : Nat) : Int) := by
        apply I64.parse_digits String.toList_ofList
        constructor <;> omega
      rw [makeInt, FunctionArg.reread, hreread, extractInt, literalInt, hparse, Option.map_some,
        I64.cast_of_inRange]
      · rfl
      · constructor <;> omega

/-- A slice can be written into the text of the statement just when its projection can be named. -/
theorem withRange_isSome (hplan : statement.seriesPlan = some plan) (start stop : Int) :
  (statement.withRange plan start stop targetColumns).isSome = true
    ↔ statement.Renamable targetColumns
  := by
  obtain ⟨projection, name, first, second, tableRest, selectRest, queryRest, rfl, hlast, -⟩ :=
    seriesPlan_cases hplan
  rw [Statement.Renamable, Statement.projection, ← renameItems_isSome]
  simp only [Statement.withRange, hlast, Option.bind_eq_bind, Option.bind_some, guard, if_true,
    Option.pure_def]
  cases renameItems projection targetColumns <;> rfl

/-- A statement with a slice is read back as a select from the slice. -/
theorem withRange_plan (hplan : statement.seriesPlan = some plan)
    (hrewritten : statement.withRange plan start stop targetColumns = some rewritten)
    (hmin : -I64.MAX ≤ start) (hle : start ≤ stop) (hmax : stop ≤ I64.MAX) :
  rewritten.reread.seriesPlan = some { plan with start := start, stop := stop }
  := by
  obtain ⟨projection, name, first, second, tableRest, selectRest, queryRest, rfl, hlast, hname, -⟩ :=
    seriesPlan_cases hplan
  have hstart := extractInt_reread_makeInt hmin (hle.trans hmax)
  have hstop := extractInt_reread_makeInt (hmin.trans hle) hmax
  simp only [Statement.withRange, hlast, Option.bind_eq_bind, Option.bind_some, guard, if_true,
    Option.pure_def] at hrewritten
  cases hitems : renameItems projection targetColumns with
  | none =>
      rw [hitems] at hrewritten
      cases hrewritten
  | some items =>
      rw [hitems] at hrewritten
      cases hrewritten
      simp only [Statement.reread, TableFactor.reread, Statement.seriesPlan, List.map_cons,
        List.map_nil, Option.map_some, hlast, hstart, hstop, hname, hle, Option.bind_eq_bind,
        Option.bind_some, guard, if_true, Option.pure_def]

end

/-! ### When each integer is generated once -/

section

variable (checks : Bool) (parser : SqlParser) (session : SessionContext)
  (statement : InsertSelectStatement) (relation : CatalogRelation) (targetStorage : String)
  (plan : GenerateSeriesPlan) (admission : QueryAdmission) (computeNodes : List ClusterNode)

/-- The first statement of a query has a projection that can be named as the columns are. -/
def Rewritable : Prop :=
  ∃ query rest, parser.parse statement.querySql = some (query :: rest)
    ∧ query.Renamable (targetColumns statement relation)

/-- The tasks generate each integer of the range once. -/
def TasksGenerateOnce : Prop :=
  ∃ tasks, makeTasks checks parser session statement relation targetStorage plan admission
      computeNodes = some tasks
    ∧ GeneratesOnce parser plan tasks

/-- The range is cut without a number that does not fit: in a build with checks it is not wide and
does not end with the greatest integer; without them it is not wide, or there is one node. -/
def RangeFits (nodes : Nat) : Prop :=
  if checks then ¬ Wide plan.start plan.stop ∧ plan.stop < I64.MAX
  else ¬ Wide plan.start plan.stop ∨ nodes = 1

end

section

variable {checks : Bool} {parser : SqlParser} {session : SessionContext}
  {statement : InsertSelectStatement} {relation : CatalogRelation} {targetStorage : String}
  {plan : GenerateSeriesPlan} {admission : QueryAdmission} {computeNodes : List ClusterNode}

/-- The text of the task of a slice. -/
def sliceText (parser : SqlParser) (statement : InsertSelectStatement) (relation : CatalogRelation)
    (plan : GenerateSeriesPlan) (range : Int × Int) : String :=
  (rewriteGenerateSeriesRange parser statement.querySql plan range.1 range.2
    (targetColumns statement relation)).getD statement.querySql

/-- The statement of a query that has a plan. -/
theorem query_of_plan
    (hreads : ParserReads parser statement.querySql plan (targetColumns statement relation))
    (hplan : parseGenerateSeriesSelect parser statement.querySql = some plan) :
  ∃ query rest, parser.parse statement.querySql = some (query :: rest)
    ∧ query.seriesPlan = some plan
  := by
  rw [parseGenerateSeriesSelect, hreads.trimmed, Option.bind_eq_bind,
    Option.bind_eq_some_iff] at hplan
  obtain ⟨statements, hstatements, hplan⟩ := hplan
  obtain ⟨query, hquery, hplan⟩ := Option.bind_eq_some_iff.mp hplan
  obtain ⟨rest, rfl⟩ := List.head?_eq_some_iff.mp hquery
  exact ⟨query, rest, hstatements, hplan⟩

section

variable {query : Statement} {rest : List Statement}
  (hreads : ParserReads parser statement.querySql plan (targetColumns statement relation))
  (hparse : parser.parse statement.querySql = some (query :: rest))
  (hplan : query.seriesPlan = some plan)

include hparse hplan

/-- A query into which no slice can be written is sent as it is. -/
theorem sliceText_declined (hdeclined : ¬ query.Renamable (targetColumns statement relation))
    (range : Int × Int) :
  sliceText parser statement relation plan range = statement.querySql
  := by
  have hnone : query.withRange plan range.1 range.2 (targetColumns statement relation) = none := by
    rw [← withRange_isSome hplan range.1 range.2, Option.not_isSome_iff_eq_none] at hdeclined
    exact hdeclined
  simp [sliceText, rewriteGenerateSeriesRange, hparse, hnone]

/-- The query itself generates the whole range. -/
theorem generates_query (x : Int) :
  generates parser x statement.querySql = decide (Contains x (plan.start, plan.stop))
  := by
  rw [Bool.eq_iff_iff, decide_eq_true_iff]
  simp [generates, hparse, hplan, Contains]

include hreads

/-- A query into which the slice is written generates the slice. -/
theorem generates_sliceText (hrenamable : query.Renamable (targetColumns statement relation))
    {range : Int × Int} (hstart : plan.start ≤ range.1) (hle : range.1 ≤ range.2)
    (hstop : range.2 ≤ plan.stop) (x : Int) :
  generates parser x (sliceText parser statement relation plan range)
    = decide (Contains x range)
  := by
  obtain ⟨hmin, -, hmax⟩ := seriesPlan_bounds hplan (hreads.unsigned query rest hparse)
  obtain ⟨rewritten, hrewritten⟩ := Option.isSome_iff_exists.mp
    ((withRange_isSome hplan range.1 range.2).mpr hrenamable)
  have hread := hreads.rereads query rest hparse range.1 range.2 rewritten hstart hle hstop
    hrewritten
  have hplan' := withRange_plan hplan hrewritten (hmin.trans hstart) hle (hstop.trans hmax)
  rw [Bool.eq_iff_iff, decide_eq_true_iff]
  simp [sliceText, rewriteGenerateSeriesRange, hparse, hrewritten, generates, hread, hplan',
    Contains]

/-- The whole range as a slice is generated, whether it can be written into the query or not. -/
theorem generates_whole (x : Int) :
  generates parser x (sliceText parser statement relation plan (plan.start, plan.stop))
    = decide (Contains x (plan.start, plan.stop))
  := by
  by_cases hrenamable : query.Renamable (targetColumns statement relation)
  · obtain ⟨-, hle, -⟩ := seriesPlan_bounds hplan (hreads.unsigned query rest hparse)
    exact generates_sliceText hreads hparse hplan hrenamable le_rfl hle le_rfl x
  · rw [sliceText_declined hparse hplan hrenamable, generates_query hparse hplan]

end

/-- The tasks that generate an integer are counted over the slices. -/
theorem countP_tasks {ranges : List (Int × Int)}
    {tasks : List (ClusterNode × ExecutePartitionWriteRequest)}
    (hranges : sliceIntRange checks plan.start plan.stop computeNodes.length = some ranges)
    (hlength : ranges.length ≤ computeNodes.length)
    (htasks : makeTasks checks parser session statement relation targetStorage plan admission
      computeNodes = some tasks) (x : Int) :
  tasks.countP (fun task => generates parser x task.2.sql)
    = ranges.countP (fun range => generates parser x
        (sliceText parser statement relation plan range))
  := by
  rw [makeTasks, hranges] at htasks
  cases htasks
  rw [List.countP_map]
  have hfst : (ranges.zip computeNodes).map Prod.fst = ranges := List.map_fst_zip hlength
  conv_rhs => rw [← hfst, List.countP_map]
  rfl

/-- The slices there are, and how many tasks generate an integer. -/
theorem tasksGenerateOnce_iff {ranges : List (Int × Int)}
    (hranges : sliceIntRange checks plan.start plan.stop computeNodes.length = some ranges)
    (hlength : ranges.length ≤ computeNodes.length) :
  TasksGenerateOnce checks parser session statement relation targetStorage plan admission
      computeNodes
    ↔ ∀ x : Int, ranges.countP (fun range => generates parser x
        (sliceText parser statement relation plan range))
      = if plan.start ≤ x ∧ x ≤ plan.stop then 1 else 0
  := by
  constructor
  · rintro ⟨tasks, htasks, honce⟩ x
    rw [← countP_tasks hranges hlength htasks]
    exact honce x
  · intro honce
    have htasks : ∃ tasks, makeTasks checks parser session statement relation targetStorage plan
        admission computeNodes = some tasks := by
      rw [makeTasks, hranges]
      exact ⟨_, rfl⟩
    obtain ⟨tasks, htasks⟩ := htasks
    refine ⟨tasks, htasks, ?_⟩
    intro x
    rw [countP_tasks hranges hlength htasks]
    exact honce x

/-- The slices of a range that fits: they are as they should be, or there is one. -/
theorem slices_of_fits (hworkers : 0 < computeNodes.length) (hmin : -I64.MAX ≤ plan.start)
    (hle : plan.start ≤ plan.stop) (hmax : plan.stop ≤ I64.MAX)
    (hfits : RangeFits checks plan computeNodes.length) :
  ∃ ranges, sliceIntRange checks plan.start plan.stop computeNodes.length = some ranges
    ∧ ranges.length ≤ computeNodes.length
    ∧ (Sliced plan.start plan.stop computeNodes.length ranges
      ∨ computeNodes.length = 1 ∧ ranges = [(plan.start, plan.stop)])
  := by
  have hsliced : ¬ Wide plan.start plan.stop → (checks = true → plan.stop < I64.MAX) →
      ∃ ranges, sliceIntRange checks plan.start plan.stop computeNodes.length = some ranges
        ∧ ranges.length ≤ computeNodes.length
        ∧ (Sliced plan.start plan.stop computeNodes.length ranges
          ∨ computeNodes.length = 1 ∧ ranges = [(plan.start, plan.stop)]) := by
    intro hwide hlt
    have hmin' : -2 ^ 63 ≤ plan.start := by
      rw [I64.MAX] at hmin
      omega
    obtain ⟨ranges, hranges, hsliced⟩ :=
      sliceIntRange_sliced checks hworkers hmin' hle hmax hwide hlt
    exact ⟨ranges, hranges, hsliced.length ▸ Nat.min_le_left _ _, .inl hsliced⟩
  cases checks with
  | true => exact hsliced hfits.1 (fun _ => hfits.2)
  | false =>
      by_cases hwide : Wide plan.start plan.stop
      · obtain hwide' | hone := hfits
        · exact absurd hwide hwide'
        · rw [hone]
          exact ⟨_, sliceIntRange_one hmin hmax hwide, le_rfl, .inr ⟨rfl, rfl⟩⟩
      · exact hsliced hwide (fun h => by cases h)

/-- The slices are one when there is one node or one element. -/
theorem slices_eq_of_one {ranges : List (Int × Int)} (hle : plan.start ≤ plan.stop)
    (hsliced : Sliced plan.start plan.stop computeNodes.length ranges)
    (hone : computeNodes.length = 1 ∨ plan.start = plan.stop)
    (hworkers : 0 < computeNodes.length) :
  ranges = [(plan.start, plan.stop)]
  := by
  have hlength : ranges.length = 1 := by
    rw [hsliced.length]
    omega
  obtain ⟨range, rfl⟩ := List.length_eq_one_iff.mp hlength
  rw [hsliced.consecutive.eq_of_singleton, Int.add_sub_cancel]

/-- A query that is sent as it is to two nodes generates the range twice. -/
theorem not_once_of_declined {query : Statement} {rest : List Statement}
    {ranges : List (Int × Int)} (hparse : parser.parse statement.querySql = some (query :: rest))
    (hplan : query.seriesPlan = some plan) (hle : plan.start ≤ plan.stop)
    (hdeclined : ¬ query.Renamable (targetColumns statement relation))
    (hlength : 2 ≤ ranges.length) :
  ¬ ∀ x : Int, ranges.countP (fun range => generates parser x
        (sliceText parser statement relation plan range))
      = if plan.start ≤ x ∧ x ≤ plan.stop then 1 else 0
  := by
  intro honce
  have hstart := honce plan.start
  rw [if_pos ⟨le_rfl, hle⟩, List.countP_eq_length.mpr] at hstart
  · omega
  · intro range _
    rw [sliceText_declined hparse hplan hdeclined, generates_query hparse hplan]
    exact decide_eq_true ⟨le_rfl, hle⟩

/-- The tasks generate each integer of the range once when the range fits and the slices can be
written into the query, or there is one node or one integer.  Otherwise they do not, unless a wide
range is cut for several nodes in a build without checks. -/
theorem tasks_generate_once (hnodes : computeNodes ≠ [])
    (hreads : ParserReads parser statement.querySql plan (targetColumns statement relation))
    (hplan : parseGenerateSeriesSelect parser statement.querySql = some plan) :
  (RangeFits checks plan computeNodes.length
      ∧ (Rewritable parser statement relation ∨ computeNodes.length = 1 ∨ plan.start = plan.stop) →
    TasksGenerateOnce checks parser session statement relation targetStorage plan admission
      computeNodes)
  ∧ (TasksGenerateOnce checks parser session statement relation targetStorage plan admission
      computeNodes →
    RangeFits checks plan computeNodes.length
        ∧ (Rewritable parser statement relation ∨ computeNodes.length = 1 ∨ plan.start = plan.stop)
      ∨ checks = false ∧ Wide plan.start plan.stop ∧ Rewritable parser statement relation)
  := by
  obtain ⟨query, rest, hparse, hquery⟩ := query_of_plan hreads hplan
  obtain ⟨hmin, hle, hmax⟩ := seriesPlan_bounds hquery (hreads.unsigned query rest hparse)
  have hworkers : 0 < computeNodes.length := List.length_pos_iff.mpr hnodes
  have hrewritable : Rewritable parser statement relation
      ↔ query.Renamable (targetColumns statement relation) := by
    constructor
    · rintro ⟨query', rest', hparse', hrenamable⟩
      rw [hparse] at hparse'
      cases hparse'
      exact hrenamable
    · exact fun hrenamable => ⟨query, rest, hparse, hrenamable⟩
  constructor
  · rintro ⟨hfits, hwrites⟩
    obtain ⟨ranges, hranges, hlength, hslices⟩ :=
      slices_of_fits hworkers hmin hle hmax hfits
    rw [tasksGenerateOnce_iff hranges hlength]
    by_cases hone : ranges = [(plan.start, plan.stop)]
    · intro x
      rw [hone, List.countP_singleton, generates_whole hreads hparse hquery]
      by_cases hx : Contains x (plan.start, plan.stop)
      · rw [if_pos (decide_eq_true hx)]
        exact (if_pos hx).symm
      · rw [if_neg (by simpa using hx)]
        exact (if_neg hx).symm
    · have hsliced := hslices.resolve_right (fun h => hone h.2)
      have hrenamable : query.Renamable (targetColumns statement relation) := by
        obtain hwrites | hsingle := hwrites
        · exact hrewritable.mp hwrites
        · exact absurd (slices_eq_of_one hle hsliced hsingle hworkers) hone
      intro x
      have hcount := hsliced.consecutive.countP x
      simp only [Int.lt_add_one_iff] at hcount
      rw [← hcount]
      apply List.countP_congr
      intro range hrange
      obtain ⟨hstart, hle, hstop⟩ := hsliced.consecutive.bounds hrange
      rw [generates_sliceText hreads hparse hquery hrenamable hstart hle (by omega)]
  · intro honce
    by_cases hfits : RangeFits checks plan computeNodes.length
    · refine .inl ⟨hfits, ?_⟩
      obtain ⟨ranges, hranges, hlength, hslices⟩ := slices_of_fits hworkers hmin hle hmax hfits
      rw [tasksGenerateOnce_iff hranges hlength] at honce
      by_contra hnot
      obtain ⟨hdeclined, hseveral⟩ := not_or.mp hnot
      rw [hrewritable] at hdeclined
      obtain ⟨hnodes', hends⟩ := not_or.mp hseveral
      refine not_once_of_declined hparse hquery hle hdeclined ?_ honce
      obtain hsliced | ⟨hone, -⟩ := hslices
      · rw [hsliced.length]
        omega
      · exact absurd hone hnodes'
    · refine .inr ?_
      cases checks with
      | true =>
          obtain ⟨tasks, htasks, -⟩ := honce
          have hwide : ¬ Wide plan.start plan.stop := by
            intro hwide
            rw [makeTasks, sliceIntRange_wide hworkers hle hwide] at htasks
            cases htasks
          refine absurd ⟨hwide, lt_of_le_of_ne hmax ?_⟩ hfits
          intro hstop
          rw [hstop] at hle hwide
          rw [makeTasks, hstop, sliceIntRange_max hworkers hle hwide] at htasks
          cases htasks
      | false =>
          obtain ⟨hwide, hseveral⟩ := not_or.mp hfits
          rw [not_not] at hwide
          refine ⟨rfl, hwide, hrewritable.mpr ?_⟩
          obtain ⟨ranges, hranges, htwo, hlength⟩ :=
            two_le_length_of_wide (show 2 ≤ computeNodes.length by omega) hmin hmax hwide
          rw [tasksGenerateOnce_iff hranges hlength] at honce
          by_contra hdeclined
          exact not_once_of_declined hparse hquery hle hdeclined htwo honce

end

/-! ### A query that names its column and one that does not -/

def Expr.display : Expr → String
  | .number text => text
  | .minus operand => "-" ++ operand.display
  | .other text => text

def SelectItem.display : SelectItem → String
  | .unnamedExpr expr => expr.display
  | .exprWithAlias expr (some quote) name =>
    expr.display ++ " AS " ++ String.singleton quote ++ name ++ String.singleton quote
  | .exprWithAlias expr none name => expr.display ++ " AS " ++ name
  | .other text => text

/-- A select of one item from the series with these ends. -/
def sampleQuery (item : SelectItem) (start stop : String) : Statement :=
  .query ⟨none, .select ⟨[item], [⟨.table ["generate_series"]
    (some [.unnamed (.number start), .unnamed (.number stop)]) " AS s(n)", []⟩], ""⟩, ""⟩

def sampleDisplay : Statement → String
  | .query ⟨none, .select ⟨[item], [⟨.table [name] (some [.unnamed first, .unnamed second]) rest,
      []⟩], ""⟩, ""⟩ =>
    "SELECT " ++ item.display ++ " FROM " ++ name ++ "(" ++ first.display ++ ", " ++ second.display
      ++ ")" ++ rest
  | _ => ""

/-- The statements of the sample: the queries, and the query of a column with every slice. -/
def sampleStatements : List Statement :=
  [sampleQuery (.unnamedExpr (.other "n")) "1" "2", sampleQuery (.other "*") "1" "2",
    sampleQuery (.exprWithAlias (.other "n") (some '"') "n") "1" "1",
    sampleQuery (.exprWithAlias (.other "n") (some '"') "n") "1" "2",
    sampleQuery (.exprWithAlias (.other "n") (some '"') "n") "2" "2"]

/-- A parser that reads the statements of the sample. -/
def sampleParser : SqlParser :=
  { parse := fun text =>
      (sampleStatements.find? (fun statement => sampleDisplay statement == text)).map ([·])
    print := sampleDisplay }

def sampleInsert (item : String) : InsertSelectStatement :=
  { database := none
    schema := none
    name := "t"
    columns := some ["n"]
    querySql := "SELECT " ++ item ++ " FROM generate_series(1, 2) AS s(n)" }

def sampleNode (id : String) : ClusterNode :=
  { id := id
    role := .compute
    endpoint := ""
    internalEndpoint := none
    status := .ready
    lastHeartbeatAtEpochMs := 0 }

def sampleTarget : CatalogRelation :=
  { database := "postgres"
    schema := "public"
    name := "t"
    kind := .table
    definitionSql := none
    storagePath := some "/data/t"
    externalFormat := none
    columns := []
    constraints := []
    indexes := [] }

/-- The query of the sample is read as it is displayed. -/
theorem sampleParser_reads {item : String} {projected : SelectItem}
    (htrimmed : sampleParser.parse (trimmedStatement (sampleInsert item).querySql)
      = sampleParser.parse (sampleInsert item).querySql)
    (hparse : sampleParser.parse (sampleInsert item).querySql
      = some [sampleQuery projected "1" "2"])
    (hrenamed : ∀ renamed, projected.renamed "n" = some renamed →
      renamed = .exprWithAlias (.other "n") (some '"') "n") :
  ParserReads sampleParser (sampleInsert item).querySql ⟨1, 2, "generate_series"⟩ ["n"]
  := by
  constructor
  · exact htrimmed
  · intro statement rest h
    rw [hparse] at h
    cases h
    intro arg harg
    obtain rfl | rfl : arg = .unnamed (.number "1") ∨ arg = .unnamed (.number "2") := by
      simpa [Statement.tableArgs, sampleQuery] using harg
    · simp [FunctionArg.Unsigned, Expr.Unsigned]
    · simp [FunctionArg.Unsigned, Expr.Unsigned]
  · intro statement rest h start stop rewritten hstart hle hstop hrewritten
    rw [hparse] at h
    cases h
    have hitem : ∃ renamed, projected.renamed "n" = some renamed
        ∧ rewritten = .query ⟨none, .select ⟨[renamed], [⟨.table ["generate_series"]
          (some [makeInt start, makeInt stop]) " AS s(n)", []⟩], ""⟩, ""⟩ := by
      cases hrenamed' : projected.renamed "n" with
      | none => simp [sampleQuery, Statement.withRange, renameItems, hrenamed'] at hrewritten
      | some renamed =>
          simp [sampleQuery, Statement.withRange, renameItems, hrenamed', guard] at hrewritten
          exact ⟨renamed, rfl, hrewritten.symm⟩
    obtain ⟨renamed, hrenamed', rfl⟩ := hitem
    obtain rfl := hrenamed renamed hrenamed'
    have hends : start = 1 ∧ stop = 1 ∨ start = 1 ∧ stop = 2 ∨ start = 2 ∧ stop = 2 := by
      simp only at hstart hstop
      omega
    obtain ⟨rfl, rfl⟩ | ⟨rfl, rfl⟩ | ⟨rfl, rfl⟩ := hends <;> decide

/-- A column is selected from the series by two nodes. -/
theorem column_generated_once :
  TasksGenerateOnce true sampleParser {} (sampleInsert "n") sampleTarget "/data/t"
    ⟨1, 2, "generate_series"⟩ ⟨"q", "control-1"⟩ [sampleNode "a", sampleNode "b"]
  := by
  have hparse : sampleParser.parse (sampleInsert "n").querySql
      = some [sampleQuery (.unnamedExpr (.other "n")) "1" "2"] := by
    decide
  apply (tasks_generate_once (List.cons_ne_nil _ _) _ _).1
  · refine ⟨?_, .inl ⟨_, _, hparse, ?_⟩⟩
    · constructor <;> decide
    · refine .inr ⟨rfl, ?_⟩
      decide
  · exact sampleParser_reads (by decide) hparse (by rintro _ ⟨⟩; rfl)
  · decide

/-- Two nodes that get a query with a wildcard generate the range twice. -/
theorem not_generated_once :
  ¬ ∀ (checks : Bool) (parser : SqlParser) (session : SessionContext)
    (statement : InsertSelectStatement) (relation : CatalogRelation) (targetStorage : String)
    (plan : GenerateSeriesPlan) (admission : QueryAdmission) (computeNodes : List ClusterNode),
    computeNodes ≠ [] →
    ParserReads parser statement.querySql plan (targetColumns statement relation) →
    parseGenerateSeriesSelect parser statement.querySql = some plan →
    TasksGenerateOnce checks parser session statement relation targetStorage plan admission
      computeNodes
  := by
  intro h
  have hparse : sampleParser.parse (sampleInsert "*").querySql
      = some [sampleQuery (.other "*") "1" "2"] := by
    decide
  obtain ⟨tasks, htasks, honce⟩ := h true sampleParser {} (sampleInsert "*") sampleTarget "/data/t"
    ⟨1, 2, "generate_series"⟩ ⟨"q", "control-1"⟩ [sampleNode "a", sampleNode "b"]
    (List.cons_ne_nil _ _) (sampleParser_reads (by decide) hparse (by rintro _ ⟨⟩))
    (by decide)
  have htwice : (makeTasks true sampleParser {} (sampleInsert "*") sampleTarget "/data/t"
      ⟨1, 2, "generate_series"⟩ ⟨"q", "control-1"⟩ [sampleNode "a", sampleNode "b"]).map
      (fun tasks => tasks.countP (fun task => generates sampleParser 1 task.2.sql)) = some 2 := by
    decide
  rw [htasks, Option.map_some, honce 1] at htwice
  exact absurd htwice (by decide)

end GenerateSeries
