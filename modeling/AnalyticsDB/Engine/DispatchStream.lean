import AnalyticsDB.Engine.DispatchTwice

/-!
# Streamed selects

A plain query is executed by every worker, and once more by the coordinator over the stream of the
rows of the workers.  The coordinator registers the stream under the schema of the table, so that
it reads the columns of the workers by their positions, under the names the table has there.
-/

namespace Sql.Dispatch

/-! ### The choice of the plan -/

/-- The plan for a query, in order of priority. -/
def selectPlan (q : Query) : Option (Query × Query) :=
  (distributedAggregatePlan q).orElse (fun _ =>
    (distributedDistinctPlan q).orElse (fun _ => distributedOrderLimitPlan q))

/-- Whether an item of the projection is a call. -/
def isCall : ProjectionItem → Bool
  | .wildcard => false
  | .item ⟨.scalarFunction _, _⟩ | .item ⟨.function .., _⟩ | .item ⟨.window _, _⟩ => true
  | .item ⟨.otherAggregate _ call, _⟩ => call
  | .item ⟨.scalar _, _⟩ | .item ⟨.sumQuotient _ _, _⟩ => false

def hasWindowFunctions (q : Query) : Bool :=
  q.projection.any (fun item => match item with
    | .item ⟨.window _, _⟩ => true
    | _ => false)

def selectProjectionContainsFunction (q : Query) : Bool := q.projection.any isCall

/-- Whether the rows of the workers are streamed through a second execution of the query. -/
def streams (q : Query) : Bool :=
  (selectPlan q).isNone && !(hasWindowFunctions q || selectProjectionContainsFunction q)

/-- A query without aggregates, DISTINCT, ORDER BY, LIMIT and functions that is streamed. -/
structure PlainStreamed (q : Query) : Prop where
  streamed : streams q = true
  noAggregate : q.isAggregate = false
  having : q.having = false
  groupByModifiers : q.groupByModifiers = false
  distinct : q.distinct = .no
  orderBy : q.orderBy = []
  limit : q.limit = none
  offset : q.offset = none

/-! ### The stream and its schema -/

section

variable {τ : Type} (typeOf : String → τ) (hasType : τ → Cell → Prop)

/-- The type of an expression over columns of these types. -/
def exprType (fields : List (String × τ)) : Expr → Option τ
  | .column _ name _ => fields.lookup name
  | .computed text => some (typeOf text)

/-- The names and types of the columns of the workers. -/
def workerFields (q : Query) (fields : List (String × τ)) : List (String × Option τ) :=
  (q.items (fields.map Prod.fst)).map (fun item =>
    (item.name, item.expr.scalar?.bind (exprType typeOf fields)))

/-- The batches of the workers have the schema the coordinator registers for them. -/
def Conforms (q : Query) (fields : List (String × τ)) : Prop :=
  workerFields typeOf q fields = fields.map (fun field => (field.1, some field.2))

/-- A row of a table, one cell for each field. -/
def IsRow (fields : List (String × τ)) (row : List Cell) : Prop :=
  List.Forall₂ (fun field cell => hasType field.2 cell) fields row

/-- The result of the second execution over the rows of the workers, under the columns of the
table.  A column the workers do not have reads as NULL here; the coordinator fails on it. -/
def runPartitionStream (lang : Language) (q : Query) (columns : List String)
    (parts : List (List (List Cell))) : Except String Table := do
  let outputs ← parts.mapM (fun rows => q.selected lang false ⟨columns, rows⟩)
  q.selected lang false ⟨columns, outputs.flatMap (·.rows)⟩

/-- Over every table and every split of its rows, the batches of the workers conform to the schema
of the stream, and the coordinator returns the rows of the query. -/
def StreamsRight (lang : Language) (q : Query) (fields : List (String × τ)) : Prop :=
  ∀ parts : List (List (List Cell)), parts ≠ [] →
    (∀ rows ∈ parts, ∀ row ∈ rows, IsRow hasType fields row) →
      Conforms typeOf q fields ∧ ∃ merged result,
        runPartitionStream lang q (fields.map Prod.fst) parts = .ok merged
          ∧ q.selected lang true ⟨fields.map Prod.fst, parts.flatten⟩ = .ok result
          ∧ merged.rows.Perm result.rows

/-- The row of the result passes again and gives itself. -/
def Reproduced (lang : Language) (q : Query) (columns : List String) (row : List Cell) : Prop :=
  let result := rowOf lang q columns (Table.env columns row)
  q.passes lang (Table.env columns row) = true →
    q.passes lang (Table.env columns result) = true
      ∧ rowOf lang q columns (Table.env columns result) = result

end

/-! ### Plain queries -/

section

variable {lang : Language} {q : Query} {columns : List String}

/-- The items of a plain query are expressions of a row. -/
theorem PlainStreamed.rowwise (h : PlainStreamed q) (columns : List String) : Rowwise q columns
  := by
  refine ⟨h.having, h.groupByModifiers, ?_, by simp [h.orderBy]⟩
  intro item hitem
  obtain ⟨entry, hentry, hitem⟩ := List.mem_flatMap.mp hitem
  cases entry with
  | wildcard =>
      obtain ⟨column, -, rfl⟩ := List.mem_map.mp hitem
      rfl
  | item item' =>
      obtain rfl := List.mem_singleton.mp hitem
      have hstreamed := h.streamed
      simp only [streams, Bool.and_eq_true, Bool.not_eq_true', Bool.or_eq_false_iff] at hstreamed
      have hcall := List.any_eq_false.mp hstreamed.2.2 _ hentry
      have haggregate := h.noAggregate
      rw [Query.isAggregate, Bool.or_eq_false_iff] at haggregate
      have hnone := List.any_eq_false.mp haggregate.2 _ hentry
      obtain ⟨expr, asName⟩ := item
      cases expr with
      | scalar e => rfl
      | scalarFunction e => simp [isCall] at hcall
      | function name argument text => simp [isCall] at hcall
      | sumQuotient numerator denominator => simp [SelectExpr.isAggregate] at hnone
      | otherAggregate text call => simp [SelectExpr.isAggregate] at hnone
      | window text => simp [isCall] at hcall

/-- The result of a plain query. -/
theorem PlainStreamed.selected_eq (h : PlainStreamed q) {named : Bool}
    (hplans : q.plans lang named columns) (rows : List (List Cell)) :
  q.selected lang named ⟨columns, rows⟩
    = .ok ⟨q.outputNames columns,
      (q.passing lang ⟨columns, rows⟩).map (rowOf lang q columns)⟩
  := by
  rw [Query.selected, if_pos hplans, Query.groupsOf, h.noAggregate]
  simp only [Bool.not_false, if_true, List.map_map]
  congr 2
  apply List.map_congr_left
  intro x _
  exact outputRow_singleton (h.rowwise columns) rows x

theorem PlainStreamed.runPartitionStream_eq (h : PlainStreamed q)
    (hplans : q.plans lang false columns) (parts : List (List (List Cell))) :
  runPartitionStream lang q columns parts
    = .ok ⟨q.outputNames columns, (q.passing lang ⟨columns,
        (q.passing lang ⟨columns, parts.flatten⟩).map (rowOf lang q columns)⟩).map
      (rowOf lang q columns)⟩
  := by
  have hparts : parts.mapM (fun rows => q.selected lang false ⟨columns, rows⟩)
      = .ok (parts.map (fun rows => ⟨q.outputNames columns,
        (q.passing lang ⟨columns, rows⟩).map (rowOf lang q columns)⟩)) := by
    apply mapM_ok
    intro rows _
    exact h.selected_eq hplans rows
  unfold runPartitionStream
  rw [hparts]
  simp only [bind, Except.bind, List.flatMap_map]
  have hrows : parts.flatMap (fun rows =>
        (q.passing lang ⟨columns, rows⟩).map (rowOf lang q columns))
      = (q.passing lang ⟨columns, parts.flatten⟩).map (rowOf lang q columns) := by
    rw [← @flatten_passing lang q ⟨columns, parts.flatten⟩ parts rfl, List.map_flatten,
      List.map_map, List.flatMap_def]
    rfl
  rw [hrows, h.selected_eq hplans]

end

/-- The cells of a type; NULL is of every type. -/
def cellHasType : String → Cell → Prop
  | "Int64", some (.integer _) | "Boolean", some (.boolean _) | _, none => True
  | _, _ => False

/-- `SELECT * FROM accounts WHERE active`. -/
def activeAccounts : Query where
  projection := [.wildcard]
  selection := some (.ofName "active")

/-- `SELECT b, a FROM pairs`. -/
def swappedPairs : Query where
  projection := [.item ⟨.scalar (.ofName "b"), none⟩, .item ⟨.scalar (.ofName "a"), none⟩]

end Sql.Dispatch
