import AnalyticsDB.Lib.SqlSelect

/-!
# Distributed aggregates

An aggregate query over the files of a table is executed in two phases: every worker executes a
query over its part of the rows, and the coordinator executes another one over what the workers
give.  Both queries are made from the parts of the original one.  A count is the sum of the counts
of the workers, and an average is computed as the quotient of a sum and a count; the expressions
that are not aggregated are columns of the workers, named by the text they are written with, and
GROUP BY is taken over as it is.
-/

namespace Sql.Dispatch

/-! ### The plan -/

def quoteSqlIdentifier (identifier : String) : String :=
  "\"" ++ identifier.replace "\"" "\"\"" ++ "\""

/-- A reference to a column by its quoted name. -/
def quoted (name : String) : Expr := .column (quoteSqlIdentifier name) name false

/-- The function of an aggregate, without its schema and in lower case, and its argument; none
is `*`. -/
structure AggregateExprParts where
  function : String
  argument : Option Expr

def aggregateExprParts : SelectExpr → Option AggregateExprParts
  | .function name argument _ =>
    if argument = none ∧ name ≠ "count" then none else some ⟨name, argument⟩
  | .scalar _ | .scalarFunction _ | .sumQuotient _ _ | .otherAggregate _ _ | .window _ => none

def functionName : AggregateFunction → String
  | .count => "count"
  | .sum => "sum"
  | .min => "min"
  | .max => "max"
  | .avg => "avg"

/-- The call of an aggregate. -/
def call (f : AggregateFunction) (argument : Option Expr) : SelectExpr :=
  .function (functionName f) argument
    ((functionName f).toUpper ++ "(" ++ (argument.map Expr.text).getD "*" ++ ")")

/-- What the workers compute for an aggregate, and what the coordinator makes of it. -/
def planAggregate (f : AggregateFunction) (argument : Option Expr) (output name : String) :
    List SelectItem × SelectItem :=
  match f with
  | .count => ([⟨call .count argument, some output⟩], ⟨call .sum (quoted output), some name⟩)
  | .sum => ([⟨call .sum argument, some output⟩], ⟨call .sum (quoted output), some name⟩)
  | .min => ([⟨call .min argument, some output⟩], ⟨call .min (quoted output), some name⟩)
  | .max => ([⟨call .max argument, some output⟩], ⟨call .max (quoted output), some name⟩)
  | .avg =>
    ([⟨call .sum argument, some (output ++ "_sum")⟩,
        ⟨call .count argument, some (output ++ "_count")⟩],
      ⟨.sumQuotient (quoted (output ++ "_sum")) (quoted (output ++ "_count")), some name⟩)

/-- The name of what the workers compute for the aggregate of this number. -/
def aggregateOutput (index : Nat) : String := "__adb_agg_" ++ toString index

/-- The items of the query of the workers, and those of the query of the coordinator. -/
def planItems (hasGroupBy : Bool) :
    Nat → List ProjectionItem → Option (List SelectItem × List SelectItem)
  | _, [] => some ([], [])
  | _, .wildcard :: _ => none
  | index, .item item :: rest =>
    let name := item.asName.getD item.expr.text
    match aggregateExprParts item.expr with
    | some aggregate => do
      let f ← AggregateFunction.ofName? aggregate.function
      let (workers, final) := planAggregate f aggregate.argument (aggregateOutput index) name
      let (workerItems, finalItems) ← planItems hasGroupBy (index + 1) rest
      return (workers ++ workerItems, final :: finalItems)
    | none => do
      guard hasGroupBy
      let (workerItems, finalItems) ← planItems hasGroupBy index rest
      return (⟨item.expr, some item.expr.text⟩ :: workerItems,
        ⟨.scalar (quoted item.expr.text), some name⟩ :: finalItems)

/-- Whether an item of a projection counts as an aggregate. -/
def projectionHasAggregate (projection : List ProjectionItem) : Bool :=
  projection.any (fun item => match item with
    | .wildcard => false
    | .item item => (aggregateExprParts item.expr).isSome)

/-- The query of the workers and that of the coordinator. -/
def distributedAggregatePlan (q : Query) : Option (Query × Query) := do
  guard (!q.hasWith)
  guard (!q.having && q.distinct = .no)
  guard (!q.groupByModifiers)
  guard (projectionHasAggregate q.projection)
  let (workerItems, finalItems) ← planItems (!q.groupBy.isEmpty) 0 q.projection
  return ({ projection := workerItems.map .item, selection := q.selection, groupBy := q.groupBy },
    { projection := finalItems.map .item, groupBy := q.groupBy })

/-- The result of the two phases over the parts of the rows of a table. -/
def runPartitions (lang : Language) (worker final : Query) (columns : List String)
    (parts : List (List (List Cell))) : Except String Table := do
  let outputs ← parts.mapM (fun rows => worker.selected lang false ⟨columns, rows⟩)
  final.selected lang false ⟨worker.outputNames columns, outputs.flatMap (·.rows)⟩

/-! ### The items of the two queries -/

@[simp] theorem ofName?_functionName (f : AggregateFunction) :
  AggregateFunction.ofName? (functionName f) = some f
  := by
  cases f <;> rfl

theorem eq_functionName {name : String} {f : AggregateFunction}
    (h : AggregateFunction.ofName? name = some f) :
  name = functionName f
  := by
  unfold AggregateFunction.ofName? at h
  split at h <;> simp_all [functionName, eq_comm]

/-- The function that puts the results of the workers together. -/
def mergeFunction : AggregateFunction → AggregateFunction
  | .count => .sum
  | f => f

/-- What the workers and the coordinator have for an item of the original query. -/
inductive Planned (workers : List SelectItem) : SelectItem → SelectItem → Prop where
  | scalar {item final : SelectItem} : aggregateExprParts item.expr = none →
      ⟨item.expr, some item.expr.text⟩ ∈ workers →
      final.expr = .scalar (quoted item.expr.text) → Planned workers item final
  | merged {item final : SelectItem} {f : AggregateFunction} {argument : Option Expr}
      {text output : String} : f ≠ .avg → item.expr = .function (functionName f) argument text →
      ⟨call f argument, some output⟩ ∈ workers →
      final.expr = call (mergeFunction f) (quoted output) → Planned workers item final
  | average {item final : SelectItem} {argument : Option Expr} {text total count : String} :
      item.expr = .function (functionName .avg) argument text →
      ⟨call .sum argument, some total⟩ ∈ workers → ⟨call .count argument, some count⟩ ∈ workers →
      final.expr = .sumQuotient (quoted total) (quoted count) → Planned workers item final

theorem Planned.mono {workers workers' : List SelectItem} {item final : SelectItem}
    (h : Planned workers item final) (hsubset : workers ⊆ workers') :
  Planned workers' item final
  := by
  cases h with
  | scalar hparts hmem hfinal => exact .scalar hparts (hsubset hmem) hfinal
  | merged hf hitem hmem hfinal => exact .merged hf hitem (hsubset hmem) hfinal
  | average hitem htotal hcount hfinal =>
      exact .average hitem (hsubset htotal) (hsubset hcount) hfinal

/-- An item of the workers is an expression of the original query under its text, or an aggregate
under a reserved name. -/
inductive WorkerItem (items : List SelectItem) : SelectItem → Prop where
  | scalar {item : SelectItem} : item ∈ items → aggregateExprParts item.expr = none →
      WorkerItem items ⟨item.expr, some item.expr.text⟩
  | aggregate (f : AggregateFunction) (argument : Option Expr) (rest : String) :
      WorkerItem items ⟨call f argument, some ("__adb_agg_" ++ rest)⟩

theorem WorkerItem.cons {items : List SelectItem} {first w : SelectItem}
    (h : WorkerItem items w) :
  WorkerItem (first :: items) w
  := by
  cases h with
  | scalar hmem hparts => exact .scalar (List.mem_cons_of_mem first hmem) hparts
  | aggregate f argument rest => exact .aggregate f argument rest

theorem aggregateExprParts_some {expr : SelectExpr} {parts : AggregateExprParts}
    (h : aggregateExprParts expr = some parts) :
  ∃ text, expr = .function parts.function parts.argument text
  := by
  cases expr with
  | function name argument text =>
      simp only [aggregateExprParts] at h
      split at h
      · cases h
      · cases h
        exact ⟨text, rfl⟩
  | scalar e => cases h
  | scalarFunction e => cases h
  | sumQuotient numerator denominator => cases h
  | otherAggregate text call => cases h
  | window text => cases h

theorem planAggregate_planned {item : SelectItem} {f : AggregateFunction}
    {argument : Option Expr} {text : String}
    (h : item.expr = .function (functionName f) argument text) (output name : String) :
  Planned (planAggregate f argument output name).1 item (planAggregate f argument output name).2
  := by
  cases f with
  | avg => exact .average h List.mem_cons_self (List.mem_cons_of_mem _ List.mem_cons_self) rfl
  | count => exact .merged (by decide) h List.mem_cons_self rfl
  | sum => exact .merged (by decide) h List.mem_cons_self rfl
  | min => exact .merged (by decide) h List.mem_cons_self rfl
  | max => exact .merged (by decide) h List.mem_cons_self rfl

theorem planAggregate_workerItem (items : List SelectItem) {f : AggregateFunction}
    {argument : Option Expr} {index : Nat} {name : String} {w : SelectItem}
    (h : w ∈ (planAggregate f argument (aggregateOutput index) name).1) :
  WorkerItem items w
  := by
  cases f with
  | avg =>
      simp only [planAggregate, List.mem_cons, List.not_mem_nil, or_false, aggregateOutput,
        String.append_assoc] at h
      obtain rfl | rfl := h
      · exact .aggregate _ _ _
      · exact .aggregate _ _ _
  | count | sum | min | max =>
      simp only [planAggregate, List.mem_cons, List.not_mem_nil, or_false, aggregateOutput] at h
      subst h
      exact .aggregate _ _ _

/-- The items a plan has for those of a projection. -/
theorem planItems_planned {hasGroupBy : Bool} {projection : List ProjectionItem} {index : Nat}
    {workers finals : List SelectItem}
    (h : planItems hasGroupBy index projection = some (workers, finals)) :
  ∃ items, projection = items.map .item ∧ List.Forall₂ (Planned workers) items finals
    ∧ (∀ w ∈ workers, WorkerItem items w)
    ∧ (hasGroupBy = false → ∀ item ∈ items, (aggregateExprParts item.expr).isSome)
  := by
  induction projection generalizing index workers finals with
  | nil =>
      cases h
      exact ⟨[], rfl, .nil, by simp, by simp⟩
  | cons first rest ih =>
      cases first with
      | wildcard => cases h
      | item item =>
          cases hparts : aggregateExprParts item.expr with
          | some parts =>
              simp only [planItems, hparts, Option.bind_eq_bind, Option.bind_eq_some_iff,
                Prod.exists] at h
              obtain ⟨f, hf, workerItems, finalItems, hrest, heq⟩ := h
              obtain ⟨rfl, rfl⟩ := Prod.mk.inj (Option.some.inj heq)
              obtain ⟨items, rfl, hplanned, hworkers, hall⟩ := ih hrest
              obtain ⟨text, hexpr⟩ := aggregateExprParts_some hparts
              rw [eq_functionName hf] at hexpr
              refine ⟨item :: items, rfl, .cons ?_ ?_, ?_, ?_⟩
              · apply (planAggregate_planned hexpr _ _).mono
                exact List.subset_append_left _ _
              · apply hplanned.imp
                intro a b hab
                exact hab.mono (List.subset_append_right _ _)
              · intro w hw
                obtain hw | hw := List.mem_append.mp hw
                · exact planAggregate_workerItem _ hw
                · exact (hworkers w hw).cons
              · intro hgroup other hother
                obtain rfl | hother := List.mem_cons.mp hother
                · rw [hparts]
                  rfl
                · exact hall hgroup other hother
          | none =>
              simp only [planItems, hparts, Option.bind_eq_bind, Option.bind_eq_some_iff,
                Prod.exists] at h
              obtain ⟨_, hguard, workerItems, finalItems, hrest, heq⟩ := h
              obtain ⟨rfl, rfl⟩ := Prod.mk.inj (Option.some.inj heq)
              obtain ⟨items, rfl, hplanned, hworkers, hall⟩ := ih hrest
              refine ⟨item :: items, rfl, .cons ?_ ?_, ?_, ?_⟩
              · exact .scalar hparts List.mem_cons_self rfl
              · apply hplanned.imp
                intro a b hab
                exact hab.mono (List.subset_cons_self _ _)
              · intro w hw
                obtain rfl | hw := List.mem_cons.mp hw
                · exact .scalar List.mem_cons_self hparts
                · exact (hworkers w hw).cons
              · intro hgroup
                simp [hgroup] at hguard

/-- The two queries of a plan, by their items and those of the original query. -/
structure PlannedAs (q worker final : Query) (items workers finals : List SelectItem) :
    Prop where
  projection : q.projection = items.map .item
  worker_eq : worker
    = { projection := workers.map .item, selection := q.selection, groupBy := q.groupBy }
  final_eq : final = { projection := finals.map .item, groupBy := q.groupBy }
  planned : List.Forall₂ (Planned workers) items finals
  workerItem : ∀ w ∈ workers, WorkerItem items w
  aggregates : q.groupBy = [] → ∀ item ∈ items, (aggregateExprParts item.expr).isSome
  aggregate : ∃ item ∈ items, (aggregateExprParts item.expr).isSome

theorem plannedAs {q worker final : Query}
    (h : distributedAggregatePlan q = some (worker, final)) :
  ∃ items workers finals, PlannedAs q worker final items workers finals
  := by
  simp only [distributedAggregatePlan, Option.bind_eq_bind, Option.bind_eq_some_iff,
    Prod.exists] at h
  obtain ⟨_, -, _, -, _, -, _, haggregate, workers, finals, hplan, heq⟩ := h
  obtain ⟨rfl, rfl⟩ := Prod.mk.inj (Option.some.inj heq)
  obtain ⟨items, hprojection, hplanned, hworkers, hall⟩ := planItems_planned hplan
  refine ⟨items, workers, finals, hprojection, rfl, rfl, hplanned, hworkers, ?_, ?_⟩
  · intro hgroup
    apply hall
    simp [hgroup]
  · simpa [projectionHasAggregate, hprojection] using haggregate

end Sql.Dispatch
