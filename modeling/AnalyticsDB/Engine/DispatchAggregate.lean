import AnalyticsDB.Engine.DispatchPlan
import Mathlib.Data.List.Forall2

/-!
# Aggregates in two phases

The result of the two phases, over every way to split the rows of a table among the workers, against
that of the original query.  Each row of the result is made of what the workers give for the rows
that agree in what is selected.
-/

namespace Sql.Dispatch

variable {lang : Language} {q worker final : Query} {items workers finals : List SelectItem}
  {columns : List String}

/-! ### The two queries -/

namespace PlannedAs

theorem items_eq (h : PlannedAs q worker final items workers finals) : q.items columns = items
  := Query.items_of_projection h.projection columns

theorem worker_items (h : PlannedAs q worker final items workers finals) :
  worker.items columns = workers
  := by
  apply Query.items_of_projection
  rw [h.worker_eq]

theorem final_items (h : PlannedAs q worker final items workers finals) :
  final.items columns = finals
  := by
  apply Query.items_of_projection
  rw [h.final_eq]

/-- What is planned for an item. -/
theorem planned_of_mem (h : PlannedAs q worker final items workers finals) {item : SelectItem}
    (hitem : item ∈ items) :
  ∃ final ∈ finals, Planned workers item final
  := by
  have hplanned := h.planned
  clear h
  induction hplanned with
  | nil => cases hitem
  | cons hfirst _ ih =>
      obtain rfl | hitem := List.mem_cons.mp hitem
      · exact ⟨_, List.mem_cons_self, hfirst⟩
      · obtain ⟨final, hfinal, hplanned⟩ := ih hitem
        exact ⟨final, List.mem_cons_of_mem _ hfinal, hplanned⟩

/-- What an item of the coordinator is planned for. -/
theorem planned_of_mem_finals (h : PlannedAs q worker final items workers finals)
    {last : SelectItem} (hlast : last ∈ finals) :
  ∃ item ∈ items, Planned workers item last
  := by
  have hplanned := h.planned
  clear h
  induction hplanned with
  | nil => cases hlast
  | cons hfirst _ ih =>
      obtain rfl | hlast := List.mem_cons.mp hlast
      · exact ⟨_, List.mem_cons_self, hfirst⟩
      · obtain ⟨item, hitem, hplanned⟩ := ih hlast
        exact ⟨item, List.mem_cons_of_mem _ hitem, hplanned⟩

end PlannedAs

@[simp] theorem isAggregate_call (f : AggregateFunction) (argument : Option Expr) :
  (call f argument).isAggregate = true
  := by
  simp [call, SelectExpr.isAggregate]

@[simp] theorem scalar?_call (f : AggregateFunction) (argument : Option Expr) :
  (call f argument).scalar? = none
  := by
  simp [call, SelectExpr.scalar?]

theorem isAggregate_of_item {q : Query} {items : List SelectItem}
    (h : q.projection = items.map .item) {item : SelectItem} (hitem : item ∈ items)
    (haggregate : item.expr.isAggregate = true) :
  q.isAggregate = true
  := by
  rw [Query.isAggregate, Bool.or_eq_true, h]
  right
  apply List.any_eq_true.mpr
  exact ⟨.item item, List.mem_map_of_mem hitem, haggregate⟩

/-- All three queries aggregate. -/
theorem PlannedAs.isAggregate (h : PlannedAs q worker final items workers finals) :
  q.isAggregate = true ∧ worker.isAggregate = true ∧ final.isAggregate = true
  := by
  obtain ⟨item, hitem, hparts⟩ := h.aggregate
  obtain ⟨last, hlast, hplanned⟩ := h.planned_of_mem hitem
  have hworker : worker.projection = workers.map .item := by rw [h.worker_eq]
  have hfinal : final.projection = finals.map .item := by rw [h.final_eq]
  cases hplanned with
  | scalar hnone => simp [hnone] at hparts
  | merged hf hexpr hmem hmerge =>
      refine ⟨isAggregate_of_item h.projection hitem ?_,
        isAggregate_of_item hworker hmem (isAggregate_call _ _),
        isAggregate_of_item hfinal hlast ?_⟩
      · simp [hexpr, SelectExpr.isAggregate]
      · rw [hmerge, isAggregate_call]
  | average hexpr htotal hcount hmerge =>
      refine ⟨isAggregate_of_item h.projection hitem ?_,
        isAggregate_of_item hworker htotal (isAggregate_call _ _),
        isAggregate_of_item hfinal hlast ?_⟩
      · simp [hexpr, SelectExpr.isAggregate]
      · simp [hmerge, SelectExpr.isAggregate]

/-! ### What the coordinator makes of the rows of the workers -/

/-- The row of a group of a worker, by the names of its columns. -/
def workerEnv (lang : Language) (workers : List SelectItem) (group : List Env) : Env :=
  Table.env (workers.map SelectItem.name) (workers.map (·.expr.value lang [] group))

theorem workerEnv_of_mem (hnames : (workers.map SelectItem.name).Nodup) {w : SelectItem}
    (hw : w ∈ workers) (group : List Env) :
  workerEnv lang workers group w.name = w.expr.value lang [] group
  := by
  unfold workerEnv Table.env
  rw [lookup_zip_map hnames hw]
  rfl

/-- The value of an expression on a group that comes in parts: an average is the quotient of the
sum and the count. -/
def mergedValue (lang : Language) (group : List Env) : SelectExpr → Cell
  | .function "avg" argument _ =>
    quotient (sum (group.map (SelectExpr.argumentCell lang argument)))
      (some (.integer (count (group.map (SelectExpr.argumentCell lang argument)))))
  | e => e.value lang [] group

theorem mergedValue_of_scalar? {expr : SelectExpr} {e : Expr} (h : expr.scalar? = some e)
    (group : List Env) :
  mergedValue lang group expr = e.eval lang (SelectExpr.first group)
  := by
  rw [← SelectExpr.value_of_scalar? h [] group]
  unfold mergedValue
  split
  · simp [SelectExpr.scalar?, AggregateFunction.ofName?] at h
  · rfl

theorem value_call (f : AggregateFunction) (argument : Option Expr) (rows group : List Env) :
  (call f argument).value lang rows group
    = f.value (group.map (SelectExpr.argumentCell lang argument))
  := by
  simp [call, SelectExpr.value]

/-- The results of the workers put together are the result over all rows. -/
theorem merge_value {f : AggregateFunction} (hf : f ≠ .avg) {chunks : List (List Cell)}
    (h : chunks ≠ []) :
  (mergeFunction f).value (chunks.map f.value) = f.value chunks.flatten
  := by
  cases f with
  | count => exact sum_map_count chunks h
  | sum => exact sum_map_sum chunks
  | min => exact min_map_min chunks
  | max => exact max_map_max chunks
  | avg => exact absurd rfl hf

/-- The cells the coordinator reads of an aggregate of the workers. -/
theorem map_argumentCell_quoted (hnames : (workers.map SelectItem.name).Nodup)
    {f : AggregateFunction} {argument : Option Expr} {output : String}
    (hmem : ⟨call f argument, some output⟩ ∈ workers) (chunks : List (List Env)) :
  (chunks.map (workerEnv lang workers)).map (SelectExpr.argumentCell lang (quoted output))
    = (chunks.map (·.map (SelectExpr.argumentCell lang argument))).map f.value
  := by
  rw [List.map_map, List.map_map]
  apply List.map_congr_left
  intro chunk _
  have hcell := @workerEnv_of_mem lang workers hnames _ hmem chunk
  rw [value_call] at hcell
  exact hcell

/-- The value of an item of the coordinator. -/
theorem Planned.value {item last : SelectItem} (h : Planned workers item last)
    (hnames : (workers.map SelectItem.name).Nodup)
    (hmix : aggregateExprParts item.expr = none → item.expr.scalar?.isSome)
    {chunks : List (List Env)} (hchunks : chunks ≠ [])
    (hne : item.expr.scalar?.isSome → ∀ chunk ∈ chunks, chunk ≠ []) (rows : List Env) :
  last.expr.value lang rows (chunks.map (workerEnv lang workers))
    = mergedValue lang chunks.flatten item.expr
  := by
  cases h with
  | scalar hparts hmem hlast =>
      obtain ⟨e, he⟩ := Option.isSome_iff_exists.mp (hmix hparts)
      obtain ⟨chunk, rest, rfl⟩ := List.exists_cons_of_ne_nil hchunks
      have hchunk := hne (by rw [he]; rfl) chunk List.mem_cons_self
      obtain ⟨x, xs, rfl⟩ := List.exists_cons_of_ne_nil hchunk
      have hcell := @workerEnv_of_mem lang workers hnames _ hmem (x :: xs)
      rw [SelectExpr.value_of_scalar? he] at hcell
      rw [hlast, mergedValue_of_scalar? he]
      exact hcell
  | merged hf hexpr hmem hlast =>
      rename_i f argument text output
      have hvalue : mergedValue lang chunks.flatten item.expr
          = f.value (chunks.flatten.map (SelectExpr.argumentCell lang argument)) := by
        rw [hexpr]
        cases f with
        | avg => exact absurd rfl hf
        | count | sum | min | max => rfl
      rw [hvalue, hlast, value_call, map_argumentCell_quoted hnames hmem, List.map_flatten]
      exact merge_value hf (by simpa using hchunks)
  | average hexpr htotal hcount hlast =>
      rename_i argument text total count'
      have hsum := @map_argumentCell_quoted lang workers hnames _ _ _ htotal chunks
      have hcounts := @map_argumentCell_quoted lang workers hnames _ _ _ hcount chunks
      have hcells : chunks.map (·.map (SelectExpr.argumentCell lang argument)) ≠ [] := by
        simpa using hchunks
      rw [hlast, hexpr]
      simp only [SelectExpr.value, mergedValue, functionName]
      rw [List.map_flatten, ← sum_map_sum, ← sum_map_count _ hcells]
      congr 1
      · exact congrArg sum hsum
      · exact congrArg sum hcounts

/-! ### Groups by what is selected -/

/-- The projection has expressions of a row and the aggregates. -/
def Mixed (q : Query) (columns : List String) : Prop :=
  ∀ item ∈ q.items columns, aggregateExprParts item.expr = none → item.expr.scalar?.isSome

/-- What is selected of a row. -/
def selectedKey (lang : Language) (q : Query) (columns : List String) (env : Env) : List Cell :=
  (q.selectedExprs columns).map (·.eval lang env)

/-- The columns of the workers for what is selected. -/
def selectedTexts (items : List SelectItem) : List String :=
  items.filterMap (fun item => item.expr.scalar?.map (fun _ => item.expr.text))

theorem mem_selectedTexts {text : String} :
  text ∈ selectedTexts items ↔ ∃ item ∈ items, item.expr.scalar?.isSome ∧ item.expr.text = text
  := by
  simp only [selectedTexts, List.mem_filterMap, Option.map_eq_some_iff, Option.isSome_iff_exists]
  constructor
  · rintro ⟨item, hitem, e, he, htext⟩
    exact ⟨item, hitem, ⟨e, he⟩, htext⟩
  · rintro ⟨item, hitem, ⟨e, he⟩, htext⟩
    exact ⟨item, hitem, e, he, htext⟩

/-- An item that is not aggregated is a column of the workers. -/
theorem PlannedAs.worker_of_scalar (h : PlannedAs q worker final items workers finals)
    {item : SelectItem} (hitem : item ∈ items) (hscalar : item.expr.scalar?.isSome) :
  ⟨item.expr, some item.expr.text⟩ ∈ workers
    ∧ ∃ last ∈ finals, last.expr = .scalar (quoted item.expr.text)
  := by
  obtain ⟨last, hlast, hplanned⟩ := h.planned_of_mem hitem
  cases hplanned with
  | scalar hparts hmem hexpr => exact ⟨hmem, last, hlast, hexpr⟩
  | merged hf hexpr hmem hmerge => simp [hexpr, SelectExpr.scalar?] at hscalar
  | average hexpr htotal hcount hmerge => simp [hexpr, SelectExpr.scalar?] at hscalar

/-- What the workers select is what the query selects. -/
theorem PlannedAs.mem_worker_selectedExprs (h : PlannedAs q worker final items workers finals)
    {e : Expr} :
  e ∈ worker.selectedExprs columns ↔ e ∈ q.selectedExprs columns
  := by
  rw [Query.mem_selectedExprs, Query.mem_selectedExprs, h.worker_items, h.items_eq]
  constructor
  · rintro ⟨w, hw, hscalar⟩
    obtain ⟨hitem, -⟩ | ⟨f, argument, rest⟩ := h.workerItem w hw
    · exact ⟨_, hitem, hscalar⟩
    · simp at hscalar
  · rintro ⟨item, hitem, hscalar⟩
    obtain ⟨hmem, -⟩ := h.worker_of_scalar hitem (by rw [hscalar]; rfl)
    exact ⟨_, hmem, hscalar⟩

/-- What the coordinator selects are the columns of what is selected. -/
theorem PlannedAs.mem_final_selectedExprs (h : PlannedAs q worker final items workers finals)
    (hmix : Mixed q columns) {names : List String} {e : Expr} :
  e ∈ final.selectedExprs names ↔ ∃ text ∈ selectedTexts items, e = quoted text
  := by
  simp only [Query.mem_selectedExprs, h.final_items, mem_selectedTexts]
  constructor
  · rintro ⟨last, hlast, hscalar⟩
    obtain ⟨item, hitem, hplanned⟩ := h.planned_of_mem_finals hlast
    cases hplanned with
    | scalar hparts hmem hexpr =>
        have hsome := hmix item (by rwa [h.items_eq]) hparts
        rw [hexpr] at hscalar
        exact ⟨item.expr.text, ⟨item, hitem, hsome, rfl⟩, (Option.some.inj hscalar).symm⟩
    | merged hf hexpr hmem hmerge => simp [hmerge] at hscalar
    | average hexpr htotal hcount hmerge => simp [hmerge, SelectExpr.scalar?] at hscalar
  · rintro ⟨_, ⟨item, hitem, hsome, rfl⟩, rfl⟩
    obtain ⟨-, last, hlast, hexpr⟩ := h.worker_of_scalar hitem hsome
    exact ⟨last, hlast, by rw [hexpr]; rfl⟩

/-- Rows of different groups differ in what is selected. -/
def SelectsKeys (lang : Language) (q : Query) (t : Table) : Prop :=
  ∀ x ∈ q.passing lang t, ∀ y ∈ q.passing lang t,
    selectedKey lang q t.columns x = selectedKey lang q t.columns y →
      q.key lang t.columns x = q.key lang t.columns y

theorem selectedKey_eq_of_key {named : Bool} (hplans : q.plans lang named columns)
    (haggregate : q.isAggregate) {x y : Env}
    (hkey : q.key lang columns x = q.key lang columns y) :
  selectedKey lang q columns x = selectedKey lang q columns y
  := List.map_congr_left (Query.eval_eq_of_key hplans haggregate hkey)

/-- The workers group their rows by what is selected. -/
theorem PlannedAs.worker_key_iff (h : PlannedAs q worker final items workers finals)
    (hworker : worker.plans lang false columns) {x y : Env}
    (hselects : selectedKey lang q columns x = selectedKey lang q columns y →
      q.key lang columns x = q.key lang columns y) :
  worker.key lang columns x = worker.key lang columns y
    ↔ selectedKey lang q columns x = selectedKey lang q columns y
  := by
  constructor
  · intro hkey
    apply List.map_congr_left
    intro e he
    exact Query.eval_eq_of_key hworker h.isAggregate.2.1 hkey e
      (h.mem_worker_selectedExprs.mpr he)
  · intro hselected
    apply List.map_congr_left
    intro e he
    obtain hmem | ⟨hgroup, hreads⟩ := Query.mem_groupExprs he
    · exact List.map_inj_left.mp hselected e (h.mem_worker_selectedExprs.mp hmem)
    · rw [h.worker_eq] at hgroup
      exact List.map_inj_left.mp (hselects hselected) e
        (Query.mem_groupExprs_of_reads hgroup hreads)

/-- No column of the table has a name that is reserved for the aggregates of the workers. -/
def Unreserved (columns : List String) : Prop := ∀ rest, "__adb_agg_" ++ rest ∉ columns

/-- The coordinator does not group by an aggregate of the workers. -/
theorem PlannedAs.not_aggregate_of_read (h : PlannedAs q worker final items workers finals)
    (hworker : worker.plans lang false columns) (hunreserved : Unreserved columns) {e : Expr}
    (hgroup : .expr e ∈ q.groupBy) {rest : String} (hread : "__adb_agg_" ++ rest ∈ e.reads lang)
    {f : AggregateFunction} {argument : Option Expr} :
  ⟨call f argument, some ("__adb_agg_" ++ rest)⟩ ∉ workers
  := by
  intro hmem
  have hnodup := Query.nodup_of_plans hworker
  rw [Query.outputNames, h.worker_items] at hnodup
  have hgroupBy : .expr e ∈ worker.groupBy := by rwa [h.worker_eq]
  obtain ⟨g, hg⟩ := Query.groupExpr?_of_plans hworker hgroupBy
  simp only [Query.groupExpr?] at hg
  split at hg
  · -- The expression reads a column of the table.
    rename_i hreads
    have := List.all_eq_true.mp hreads _ hread
    exact hunreserved rest (by simpa using this)
  · -- The expression is an alias, and names an aggregate.
    split at hg
    · rename_i text name _
      obtain ⟨found, hfound, hscalar⟩ := Option.bind_eq_some_iff.mp hg
      have hname : found.name = "__adb_agg_" ++ rest := by
        have := List.find?_some hfound
        simp only [Expr.reads, List.mem_singleton] at hread
        simpa [hread] using this
      have hfoundMem := List.mem_of_find?_eq_some hfound
      rw [h.worker_items] at hfoundMem
      have heq := List.inj_on_of_nodup_map hnodup hfoundMem hmem hname
      rw [heq, scalar?_call] at hscalar
      cases hscalar
    · cases hg

/-- The coordinator groups the rows of the workers by what is selected. -/
theorem PlannedAs.final_key_iff (h : PlannedAs q worker final items workers finals)
    (hmix : Mixed q columns) (hunreserved : Unreserved columns)
    (hworker : worker.plans lang false columns)
    (hfinal : final.plans lang false (worker.outputNames columns)) (x y : Env) :
  final.key lang (worker.outputNames columns) x = final.key lang (worker.outputNames columns) y
    ↔ (selectedTexts items).map x = (selectedTexts items).map y
  := by
  constructor
  · intro hkey
    apply List.map_congr_left
    intro text htext
    exact Query.eval_eq_of_key hfinal h.isAggregate.2.2 hkey (quoted text)
      ((h.mem_final_selectedExprs hmix).mpr ⟨text, htext, rfl⟩)
  · intro hselected
    have htexts := List.map_inj_left.mp hselected
    apply List.map_congr_left
    intro e he
    obtain hmem | ⟨hgroup, hreads⟩ := Query.mem_groupExprs he
    · obtain ⟨text, htext, rfl⟩ := (h.mem_final_selectedExprs hmix).mp hmem
      exact htexts text htext
    · rw [h.final_eq] at hgroup
      apply Expr.eval_congr
      intro name hname
      have hout : name ∈ worker.outputNames columns := by
        simpa using List.all_eq_true.mp hreads name hname
      rw [Query.outputNames, h.worker_items] at hout
      obtain ⟨w, hw, rfl⟩ := List.mem_map.mp hout
      obtain ⟨hitem, hparts⟩ | ⟨f, argument, rest⟩ := h.workerItem w hw
      · rename_i item
        apply htexts
        apply mem_selectedTexts.mpr
        exact ⟨item, hitem, hmix item (by rwa [h.items_eq]) hparts, rfl⟩
      · exact absurd hw (h.not_aggregate_of_read hworker hunreserved hgroup hname)

/-! ### The result of the two phases -/

/-- The row of a group that comes in parts. -/
def mergedRow (lang : Language) (items : List SelectItem) (group : List Env) : List Cell :=
  items.map (fun item => mergedValue lang group item.expr)

/-- The row the coordinator makes of the rows of the workers. -/
theorem map_value_eq_mergedRow (h : List.Forall₂ (Planned workers) items finals)
    (hnames : (workers.map SelectItem.name).Nodup)
    (hmix : ∀ item ∈ items, aggregateExprParts item.expr = none → item.expr.scalar?.isSome)
    {chunks : List (List Env)} (hchunks : chunks ≠ [])
    (hne : ∀ item ∈ items, item.expr.scalar?.isSome → ∀ chunk ∈ chunks, chunk ≠ [])
    (rows : List Env) :
  finals.map (·.expr.value lang rows (chunks.map (workerEnv lang workers)))
    = mergedRow lang items chunks.flatten
  := by
  unfold mergedRow
  induction h with
  | nil => rfl
  | cons hfirst _ ih =>
      rw [List.map_cons, List.map_cons]
      rw [hfirst.value hnames (hmix _ List.mem_cons_self) hchunks (hne _ List.mem_cons_self)]
      rw [ih (fun item hitem => hmix item (List.mem_cons_of_mem _ hitem))
        (fun item hitem => hne item (List.mem_cons_of_mem _ hitem))]

theorem PlannedAs.worker_value (h : PlannedAs q worker final items workers finals)
    (hmix : Mixed q columns) {w : SelectItem} (hw : w ∈ workers) (rows group : List Env) :
  w.expr.value lang rows group = w.expr.value lang [] group
  := by
  obtain ⟨hitem, hparts⟩ | ⟨f, argument, rest⟩ := h.workerItem w hw
  · rename_i item
    obtain ⟨e, he⟩ := Option.isSome_iff_exists.mp (hmix item (by rwa [h.items_eq]) hparts)
    dsimp only
    rw [SelectExpr.value_of_scalar? he, SelectExpr.value_of_scalar? he]
  · dsimp only
    rw [value_call, value_call]

/-- The rows of the workers over the parts. -/
def workerRows (lang : Language) (worker : Query) (columns : List String)
    (parts : List (List (List Cell))) : List (List Cell) :=
  parts.flatMap (fun rows =>
    (worker.groupsOf lang ⟨columns, rows⟩).map (worker.outputRow lang ⟨columns, rows⟩))

/-- The table the coordinator has of the rows of the workers. -/
def mergedTable (lang : Language) (worker : Query) (columns : List String)
    (parts : List (List (List Cell))) : Table :=
  ⟨worker.outputNames columns, workerRows lang worker columns parts⟩

theorem PlannedAs.envs_mergedTable (h : PlannedAs q worker final items workers finals)
    (hmix : Mixed q columns) (parts : List (List (List Cell))) :
  (mergedTable lang worker columns parts).envs
    = parts.flatMap (fun rows =>
      (worker.groupsOf lang ⟨columns, rows⟩).map (workerEnv lang workers))
  := by
  unfold Table.envs mergedTable workerRows
  rw [List.map_flatMap]
  congr 1
  ext1 rows
  rw [List.map_map]
  apply List.map_congr_left
  intro group _
  simp only [Function.comp_apply, Query.outputNames, Query.outputRow, h.worker_items, workerEnv]
  congr 1
  apply List.map_congr_left
  intro w hw
  exact h.worker_value hmix hw _ _

theorem mapM_ok {α β : Type} {f : α → Except String β} {g : α → β} {l : List α}
    (h : ∀ a ∈ l, f a = .ok (g a)) :
  l.mapM f = .ok (l.map g)
  := by
  induction l with
  | nil => rfl
  | cons a l ih =>
      rw [List.mapM_cons, h a List.mem_cons_self,
        ih (fun b hb => h b (List.mem_cons_of_mem a hb))]
      rfl

theorem runPartitions_ok (hworker : worker.plans lang false columns)
    (hfinal : final.plans lang false (worker.outputNames columns))
    (parts : List (List (List Cell))) :
  runPartitions lang worker final columns parts
    = .ok { columns := final.outputNames (worker.outputNames columns)
            rows := (final.groupsOf lang (mergedTable lang worker columns parts)).map
              (final.outputRow lang (mergedTable lang worker columns parts)) }
  := by
  have hparts : parts.mapM (fun rows => worker.selected lang false ⟨columns, rows⟩)
      = .ok (parts.map (fun rows => ⟨worker.outputNames columns,
        (worker.groupsOf lang ⟨columns, rows⟩).map (worker.outputRow lang ⟨columns, rows⟩)⟩)) := by
    apply mapM_ok
    intro rows _
    rw [Query.selected, if_pos hworker]
  unfold runPartitions
  rw [hparts]
  simp only [bind, Except.bind, List.flatMap_map]
  rw [Query.selected, if_pos hfinal]
  rfl

/-- The rows that pass, over all parts. -/
theorem flatten_passing {t : Table} {parts : List (List (List Cell))}
    (h : parts.flatten = t.rows) :
  (parts.map (fun rows => q.passing lang ⟨t.columns, rows⟩)).flatten = q.passing lang t
  := by
  unfold Query.passing Table.envs
  rw [← h, List.map_flatten, List.filter_flatten, List.map_map]
  rfl

theorem Query.groupsOf_ungrouped {q : Query} (haggregate : q.isAggregate)
    (hgroup : q.groupBy = []) (t : Table) :
  q.groupsOf lang t = [q.passing lang t]
  := by
  simp [Query.groupsOf, haggregate, hgroup]

theorem Query.groupsOf_grouped {q : Query} (haggregate : q.isAggregate)
    (hgroup : q.groupBy ≠ []) (t : Table) :
  q.groupsOf lang t = Grouping.groups (q.key lang t.columns) (q.passing lang t)
  := by
  simp [Query.groupsOf, haggregate, hgroup]

section

variable {t : Table} (h : PlannedAs q worker final items workers finals)

include h

theorem PlannedAs.passing_worker (t : Table) : worker.passing lang t = q.passing lang t
  := by
  rw [h.worker_eq]
  rfl

theorem PlannedAs.passing_final (t : Table) : final.passing lang t = t.envs
  := by
  rw [h.final_eq]
  simp [Query.passing, Query.passes]

theorem PlannedAs.groupBy_eq : worker.groupBy = q.groupBy ∧ final.groupBy = q.groupBy
  := by
  rw [h.worker_eq, h.final_eq]
  exact ⟨rfl, rfl⟩

/-- The key of the row of a worker is that of the rows it is made of. -/
theorem PlannedAs.selectedTexts_workerEnv (hnames : (workers.map SelectItem.name).Nodup)
    (group : List Env) :
  (selectedTexts items).map (workerEnv lang workers group)
    = selectedKey lang q t.columns (SelectExpr.first group)
  := by
  have hcell : ∀ item ∈ items, ∀ e, item.expr.scalar? = some e →
      workerEnv lang workers group item.expr.text = e.eval lang (SelectExpr.first group) := by
    intro item hitem e he
    obtain ⟨hmem, -⟩ := h.worker_of_scalar hitem (by rw [he]; rfl)
    have := @workerEnv_of_mem lang workers hnames _ hmem group
    rwa [SelectExpr.value_of_scalar? he] at this
  rw [selectedKey, Query.selectedExprs, h.items_eq]
  unfold selectedTexts
  clear h
  induction items with
  | nil => rfl
  | cons item items ih =>
      have hrest := ih (fun other hother => hcell other (List.mem_cons_of_mem _ hother))
      cases he : item.expr.scalar? with
      | none => simpa [List.filterMap_cons, he] using hrest
      | some e =>
          have hfirst := hcell item List.mem_cons_self e he
          simp only [List.filterMap_cons, he, Option.map_some, List.map_cons, hfirst]
          rw [hrest]

variable (hmix : Mixed q t.columns) (hunreserved : Unreserved t.columns)
  (hworker : worker.plans lang false t.columns)
  (hfinal : final.plans lang false (worker.outputNames t.columns))

include hmix hunreserved hworker hfinal

/-- The groups of the coordinator. -/
theorem PlannedAs.final_groups (hgroup : q.groupBy ≠ []) (parts : List (List (List Cell))) :
  final.groupsOf lang (mergedTable lang worker t.columns parts)
    = Grouping.groups (fun env => (selectedTexts items).map env)
      (mergedTable lang worker t.columns parts).envs
  := by
  rw [Query.groupsOf_grouped h.isAggregate.2.2 (by rwa [h.groupBy_eq.2]), h.passing_final]
  apply Grouping.groups_congr
  intro x _ y _
  exact h.final_key_iff hmix hunreserved hworker hfinal x y

/-- The two phases give a row for each group of rows that agree in what is selected. -/
theorem PlannedAs.merged_perm (hselects : SelectsKeys lang q t)
    (hlocal : q.plans lang true t.columns)
    {parts : List (List (List Cell))} (hparts : parts ≠ []) (hflatten : parts.flatten = t.rows) :
  ((final.groupsOf lang (mergedTable lang worker t.columns parts)).map
      (final.outputRow lang (mergedTable lang worker t.columns parts))).Perm
    ((q.groupsOf lang t).map (mergedRow lang items))
  := by
  have hnames := Query.nodup_of_plans hworker
  rw [Query.outputNames, h.worker_items] at hnames
  have hmixed : ∀ item ∈ items, aggregateExprParts item.expr = none →
      item.expr.scalar?.isSome := by
    intro item hitem
    exact hmix item (by rwa [h.items_eq])
  have hrow : ∀ chunks : List (List Env), chunks ≠ [] →
      (∀ item ∈ items, item.expr.scalar?.isSome → ∀ chunk ∈ chunks, chunk ≠ []) →
      final.outputRow lang (mergedTable lang worker t.columns parts)
          (chunks.map (workerEnv lang workers))
        = mergedRow lang items chunks.flatten := by
    intro chunks hchunks hne
    rw [Query.outputRow, h.final_items]
    exact map_value_eq_mergedRow h.planned hnames hmixed hchunks hne _
  have hpassing := @flatten_passing lang q t parts hflatten
  by_cases hgroup : q.groupBy = []
  · -- One group, and nothing that is not aggregated.
    have henvs : (mergedTable lang worker t.columns parts).envs
        = (parts.map (fun rows => q.passing lang ⟨t.columns, rows⟩)).map
          (workerEnv lang workers) := by
      rw [h.envs_mergedTable hmix, List.map_map, List.flatMap_def]
      simp only [Query.groupsOf_ungrouped h.isAggregate.2.1 (h.groupBy_eq.1.trans hgroup),
        h.passing_worker, List.map_cons, List.map_nil]
      rw [← List.flatMap_def]
      exact (List.map_eq_flatMap).symm
    rw [Query.groupsOf_ungrouped h.isAggregate.2.2 (h.groupBy_eq.2.trans hgroup),
      Query.groupsOf_ungrouped h.isAggregate.1 hgroup, h.passing_final, henvs, List.map_cons,
      List.map_cons, List.map_nil, List.map_nil, hrow, hpassing]
    · simpa using hparts
    · intro item hitem hscalar
      obtain ⟨last, -, hplanned⟩ := h.planned_of_mem hitem
      cases hplanned with
      | scalar hnone => exact absurd (h.aggregates hgroup item hitem) (by simp [hnone])
      | merged hf hexpr => simp [hexpr, SelectExpr.scalar?] at hscalar
      | average hexpr => simp [hexpr, SelectExpr.scalar?] at hscalar
  · have hworkerGroups : ∀ rows ∈ parts,
        worker.groupsOf lang ⟨t.columns, rows⟩
          = Grouping.groups (selectedKey lang q t.columns)
            (q.passing lang ⟨t.columns, rows⟩) := by
      intro rows hrows
      have hsubset : q.passing lang ⟨t.columns, rows⟩ ⊆ q.passing lang t := by
        intro x hx
        rw [← hpassing]
        exact List.mem_flatten.mpr ⟨_, List.mem_map_of_mem hrows, hx⟩
      rw [Query.groupsOf_grouped h.isAggregate.2.1 (by rwa [h.groupBy_eq.1]), h.passing_worker]
      apply Grouping.groups_congr
      intro x hx y hy
      exact h.worker_key_iff hworker (hselects x (hsubset hx) y (hsubset hy))
    have henvs : (mergedTable lang worker t.columns parts).envs
        = Grouping.partSummaries (selectedKey lang q t.columns) (workerEnv lang workers)
          (parts.map (fun rows => q.passing lang ⟨t.columns, rows⟩)) := by
      rw [h.envs_mergedTable hmix, Grouping.partSummaries, List.flatMap_map]
      apply List.flatMap_congr
      intro rows hrows
      rw [hworkerGroups rows hrows]
    have hgroups : q.groupsOf lang t
        = Grouping.groups (selectedKey lang q t.columns) (q.passing lang t) := by
      rw [Query.groupsOf_grouped h.isAggregate.1 hgroup]
      apply Grouping.groups_congr
      intro x hx y hy
      exact ⟨selectedKey_eq_of_key hlocal h.isAggregate.1, hselects x hx y hy⟩
    rw [h.final_groups hmix hunreserved hworker hfinal hgroup, hgroups, henvs, ← hpassing]
    apply Grouping.twoPhase_perm
    · intro group k hne hkey
      rw [h.selectedTexts_workerEnv hnames]
      obtain ⟨x, xs, rfl⟩ := List.exists_cons_of_ne_nil hne
      exact hkey x List.mem_cons_self
    · intro chunks hchunks hne _
      exact hrow chunks hchunks (fun _ _ _ => hne)

end

/-! ### The two phases and the original query -/

/-- Over every split of the rows the two phases give the rows of the result. -/
def SameRows (lang : Language) (worker final : Query) (t result : Table) : Prop :=
  ∀ parts : List (List (List Cell)), parts ≠ [] → parts.flatten = t.rows →
    ∃ merged, runPartitions lang worker final t.columns parts = .ok merged
      ∧ merged.rows.Perm result.rows

/-- The workers and the coordinator can plan their queries. -/
def BothPlan (lang : Language) (worker final : Query) (columns : List String) : Prop :=
  worker.plans lang false columns = true
    ∧ final.plans lang false (worker.outputNames columns) = true

/-- Every average of integers is an integer. -/
def AveragesExact (lang : Language) (q : Query) (t : Table) : Prop :=
  ∀ group ∈ q.groupsOf lang t, ∀ item ∈ q.items t.columns, ∀ argument text,
    item.expr = .function "avg" argument text →
      ∀ total, sum (group.map (SelectExpr.argumentCell lang argument)) = some (.integer total) →
        (count (group.map (SelectExpr.argumentCell lang argument)) : ℤ) ∣ total

/-- A merged value is the value of the expression, unless it is an average that is not exact. -/
theorem mergedValue_eq_iff {expr : SelectExpr} (hwindow : ∀ text, expr ≠ .window text)
    (rows group : List Env) :
  mergedValue lang group expr = expr.value lang rows group
    ↔ ∀ argument text, expr = .function "avg" argument text →
      ∀ total, sum (group.map (SelectExpr.argumentCell lang argument)) = some (.integer total) →
        (count (group.map (SelectExpr.argumentCell lang argument)) : ℤ) ∣ total
  := by
  unfold mergedValue
  split
  · rename_i argument text
    have hvalue : (SelectExpr.function "avg" argument text).value lang rows group
        = avg (group.map (SelectExpr.argumentCell lang argument)) := rfl
    rw [hvalue, quotient_eq_avg_iff]
    constructor
    · intro h argument' text' heq
      cases heq
      exact h
    · intro h
      exact h argument text rfl
  · rename_i hne
    constructor
    · intro _ argument text heq
      exact absurd heq (hne argument text)
    · intro _
      cases expr with
      | window text => exact absurd rfl (hwindow text)
      | scalar e => rfl
      | scalarFunction e => rfl
      | function name argument text => rfl
      | sumQuotient numerator denominator => rfl
      | otherAggregate text call => rfl

section

variable {t : Table} (h : PlannedAs q worker final items workers finals)

include h

/-- The merged row of a group is its row, when the averages are exact. -/
theorem PlannedAs.mergedRow_eq_iff (hmix : Mixed q t.columns) (group : List Env) :
  mergedRow lang items group = q.outputRow lang t group
    ↔ ∀ item ∈ q.items t.columns, ∀ argument text,
      item.expr = .function "avg" argument text →
        ∀ total, sum (group.map (SelectExpr.argumentCell lang argument)) = some (.integer total) →
          (count (group.map (SelectExpr.argumentCell lang argument)) : ℤ) ∣ total
  := by
  rw [mergedRow, Query.outputRow, h.items_eq, List.map_inj_left]
  apply forall₂_congr
  intro item hitem
  apply mergedValue_eq_iff
  intro text hexpr
  have hsome := hmix item (by rwa [h.items_eq]) (by rw [hexpr]; rfl)
  simp [hexpr, SelectExpr.scalar?] at hsome

/-- A group is known by its row. -/
theorem PlannedAs.group_eq (hselects : SelectsKeys lang q t) {group other : List Env}
    (hgroup : group ∈ q.groupsOf lang t) (hother : other ∈ q.groupsOf lang t)
    (hrow : mergedRow lang items group = q.outputRow lang t other) :
  group = other
  := by
  by_cases hgroupBy : q.groupBy = []
  · rw [Query.groupsOf_ungrouped h.isAggregate.1 hgroupBy, List.mem_singleton] at hgroup hother
    rw [hgroup, hother]
  · rw [Query.groupsOf_grouped h.isAggregate.1 hgroupBy] at hgroup hother
    -- Both groups have the rows of one key.
    have hfirst : ∀ g ∈ Grouping.groups (q.key lang t.columns) (q.passing lang t),
        SelectExpr.first g ∈ q.passing lang t
          ∧ g = (q.passing lang t).filter (q.key lang t.columns ·
            = q.key lang t.columns (SelectExpr.first g)) := by
      intro g hg
      obtain ⟨hne, -⟩ := Grouping.exists_key_of_mem_groups hg
      obtain ⟨row, hrow, rfl⟩ := Grouping.mem_groups.mp hg
      have hmem : SelectExpr.first ((q.passing lang t).filter
            (q.key lang t.columns · = q.key lang t.columns row))
          ∈ (q.passing lang t).filter (q.key lang t.columns · = q.key lang t.columns row) := by
        obtain ⟨x, xs, hcons⟩ := List.exists_cons_of_ne_nil hne
        rw [hcons]
        exact List.mem_cons_self
      refine ⟨(List.mem_filter.mp hmem).1, ?_⟩
      rw [Grouping.key_of_mem_filter hmem]
    obtain ⟨hmem, heq⟩ := hfirst group hgroup
    obtain ⟨hmem', heq'⟩ := hfirst other hother
    have hkey : q.key lang t.columns (SelectExpr.first group)
        = q.key lang t.columns (SelectExpr.first other) := by
      apply hselects _ hmem _ hmem'
      apply List.map_congr_left
      intro e he
      obtain ⟨item, hitem, hscalar⟩ := Query.mem_selectedExprs.mp he
      rw [mergedRow, Query.outputRow, h.items_eq, List.map_inj_left] at hrow
      rw [h.items_eq] at hitem
      have hcell := hrow item hitem
      rwa [mergedValue_of_scalar? hscalar, SelectExpr.value_of_scalar? hscalar] at hcell
    rw [heq, heq', hkey]

/-- The keys of the rows of the workers are what is selected of the rows that pass. -/
theorem PlannedAs.length_final_groups (hmix : Mixed q t.columns)
    (hunreserved : Unreserved t.columns) (hplan : BothPlan lang worker final t.columns)
    (hgroup : q.groupBy ≠ []) :
  (final.groupsOf lang (mergedTable lang worker t.columns [t.rows])).length
    = ((q.passing lang t).map (selectedKey lang q t.columns)).dedup.length
  := by
  obtain ⟨hworker, hfinal⟩ := hplan
  have hnames := Query.nodup_of_plans hworker
  rw [Query.outputNames, h.worker_items] at hnames
  rw [h.final_groups hmix hunreserved hworker hfinal hgroup, Grouping.length_groups,
    h.envs_mergedTable hmix, List.flatMap_singleton, List.map_map]
  apply List.Perm.length_eq
  apply (List.perm_ext_iff_of_nodup (List.nodup_dedup _) (List.nodup_dedup _)).mpr
  intro k
  rw [List.mem_dedup, List.mem_dedup,
    Query.groupsOf_grouped h.isAggregate.2.1 (by rwa [h.groupBy_eq.1]), h.passing_worker]
  have hkeys : ∀ group, (selectedTexts items).map (workerEnv lang workers group)
      = selectedKey lang q t.columns (SelectExpr.first group) :=
    fun group => h.selectedTexts_workerEnv hnames group
  simp only [List.mem_map, Function.comp_apply, hkeys]
  constructor
  · rintro ⟨group, hmem, rfl⟩
    obtain ⟨hne, -⟩ := Grouping.exists_key_of_mem_groups hmem
    obtain ⟨row, hrow, rfl⟩ := Grouping.mem_groups.mp hmem
    obtain ⟨x, xs, hcons⟩ := List.exists_cons_of_ne_nil hne
    refine ⟨x, ?_, by rw [hcons]; rfl⟩
    exact (List.mem_filter.mp (hcons ▸ List.mem_cons_self)).1
  · rintro ⟨x, hx, rfl⟩
    refine ⟨_, Grouping.mem_groups.mpr ⟨x, hx, rfl⟩, ?_⟩
    -- The first row of the group of a row has the key of the row.
    apply List.map_congr_left
    intro e he
    apply Query.eval_eq_of_key hworker h.isAggregate.2.1 _ e (h.mem_worker_selectedExprs.mpr he)
    have hmem : x ∈ (q.passing lang t).filter
        (worker.key lang t.columns · = worker.key lang t.columns x) :=
      List.mem_filter.mpr ⟨hx, by simp⟩
    obtain ⟨y, ys, hcons⟩ := List.exists_cons_of_ne_nil (List.ne_nil_of_mem hmem)
    rw [hcons]
    exact Grouping.key_of_mem_filter (hcons ▸ List.mem_cons_self)

end

/-- A query without ORDER BY, LIMIT and OFFSET that is distributed, and its local result. -/
structure Accepted (lang : Language) (q worker final : Query) (t result : Table) : Prop where
  plan : distributedAggregatePlan q = some (worker, final)
  unordered : q.orderBy = [] ∧ q.limit = none ∧ q.offset = none
  mixed : Mixed q t.columns
  result_eq : q.selected lang true t = .ok result

theorem Accepted.result_rows {t result : Table} (h : Accepted lang q worker final t result) :
  q.plans lang true t.columns = true
    ∧ result.rows = (q.groupsOf lang t).map (q.outputRow lang t)
  := by
  have hresult := h.result_eq
  unfold Query.selected at hresult
  split at hresult
  · rename_i hplans
    cases hresult
    exact ⟨hplans, rfl⟩
  · cases hresult

/-- Both queries are planned when the two phases give a result. -/
theorem bothPlan_of_runPartitions {t merged : Table}
    (h : runPartitions lang worker final t.columns [t.rows] = .ok merged) :
  BothPlan lang worker final t.columns
  := by
  unfold runPartitions at h
  rw [List.mapM_cons, List.mapM_nil] at h
  cases hworker : worker.plans lang false t.columns with
  | false => simp [Query.selected, hworker, bind, Except.bind] at h
  | true =>
      refine ⟨hworker, ?_⟩
      by_contra hfinal
      simp [Query.selected, hworker, hfinal, bind, Except.bind, pure, Except.pure] at h

/-- The two phases give the rows of the query exactly when both queries can be planned, the groups
are told apart by what is selected, and the averages of integers are integers. -/
theorem distributedAggregate_sameRows_iff {t result : Table}
    (h : Accepted lang q worker final t result) (hunreserved : Unreserved t.columns) :
  SameRows lang worker final t result
    ↔ BothPlan lang worker final t.columns ∧ SelectsKeys lang q t ∧ AveragesExact lang q t
  := by
  obtain ⟨items, workers, finals, hplanned⟩ := plannedAs h.plan
  obtain ⟨hlocal, hrows⟩ := h.result_rows
  have hmix := h.mixed
  constructor
  · intro hsame
    obtain ⟨merged, hmerged, hperm⟩ := hsame [t.rows] (by simp) (by simp)
    have hboth := bothPlan_of_runPartitions hmerged
    rw [runPartitions_ok hboth.1 hboth.2] at hmerged
    cases hmerged
    rw [hrows] at hperm
    have hselects : SelectsKeys lang q t := by
      by_cases hgroup : q.groupBy = []
      · intro x _ y _ _
        simp [Query.key, Query.groupExprs, hgroup]
      · -- There are as many rows as groups.
        apply Grouping.key_eq_of_length
        · intro x _ y _ hkey
          exact selectedKey_eq_of_key hlocal hplanned.isAggregate.1 hkey
        · have hlength := hperm.length_eq
          rw [List.length_map, List.length_map,
            hplanned.length_final_groups hmix hunreserved hboth hgroup,
            Query.groupsOf_grouped hplanned.isAggregate.1 hgroup, Grouping.length_groups] at hlength
          exact hlength.symm
    refine ⟨hboth, hselects, ?_⟩
    intro group hgroup
    rw [← hplanned.mergedRow_eq_iff hmix]
    have hmerged := hplanned.merged_perm hmix hunreserved hboth.1 hboth.2 hselects hlocal
      (List.cons_ne_nil t.rows []) (by simp)
    have hmem : mergedRow lang items group ∈ (q.groupsOf lang t).map (q.outputRow lang t) :=
      (hmerged.symm.trans hperm).subset (List.mem_map_of_mem hgroup)
    obtain ⟨other, hother, hrow⟩ := List.mem_map.mp hmem
    rw [← hplanned.group_eq hselects hgroup hother hrow.symm] at hrow
    exact hrow.symm
  · rintro ⟨hboth, hselects, hexact⟩ parts hparts hflatten
    refine ⟨_, runPartitions_ok hboth.1 hboth.2 parts, ?_⟩
    have hmerged := hplanned.merged_perm hmix hunreserved hboth.1 hboth.2 hselects hlocal hparts
      hflatten
    apply hmerged.trans
    rw [hrows]
    apply List.Perm.of_eq
    apply List.map_congr_left
    intro group hgroup
    exact (hplanned.mergedRow_eq_iff hmix group).mpr (hexact group hgroup)

/-- `SELECT department, COUNT(*), AVG(salary) FROM employees GROUP BY department`. -/
def averageSalaries : Query where
  projection := [.item ⟨.scalar (.ofName "department"), none⟩,
    .item ⟨.function "count" none "COUNT(*)", none⟩,
    .item ⟨.function "avg" (some (.ofName "salary")) "AVG(salary)", none⟩]
  groupBy := [.expr (.ofName "department")]

/-- The queries of a plan, and no queries when there is none. -/
def plannedQueries (q : Query) : Query × Query :=
  (distributedAggregatePlan q).getD ({ projection := [] }, { projection := [] })

/-- A language of columns alone. -/
def columnLanguage : Language where
  scalar _ := ⟨[], false, fun _ => none⟩
  aggregate _ := ⟨[], false, fun _ => none⟩
  window _ := ⟨[], false, fun _ _ => none⟩

/-- Employees by department and salary. -/
def employees (salaries : List (String × ℤ)) : Table where
  columns := ["department", "salary"]
  rows := salaries.map
    (fun (department, salary) => [some (.text department), some (.integer salary)])

/-- A result that is there. -/
def resultOf (q : Query) (t : Table) : Table :=
  match q.selected columnLanguage true t with
  | .ok result => result
  | .error _ => ⟨[], []⟩

theorem averagesExact_of_forall {t : Table} {worker final : Query}
    (hplan : distributedAggregatePlan q = some (worker, final)) (hmix : Mixed q t.columns)
    (h : ∀ group ∈ q.groupsOf lang t,
      mergedRow lang (q.items t.columns) group = q.outputRow lang t group) :
  AveragesExact lang q t
  := by
  obtain ⟨items, workers, finals, hplanned⟩ := plannedAs hplan
  intro group hgroup
  apply (hplanned.mergedRow_eq_iff hmix group).mp
  have hrow := h group hgroup
  rwa [hplanned.items_eq] at hrow

theorem averageSalaries_accepted (salaries : List (String × ℤ)) :
  Accepted columnLanguage averageSalaries (plannedQueries averageSalaries).1
    (plannedQueries averageSalaries).2 (employees salaries)
    (resultOf averageSalaries (employees salaries))
  := by
  constructor
  · rfl
  · decide
  · unfold Mixed
    change ∀ item ∈ averageSalaries.items ["department", "salary"], _
    decide
  · rfl

theorem unreserved_employees (salaries : List (String × ℤ)) : Unreserved
    (employees salaries).columns
  := by
  intro rest hmem
  have hlist : "__adb_agg_" ++ rest = "department" ∨ "__adb_agg_" ++ rest = "salary" := by
    simpa [employees] using hmem
  obtain h | h := hlist
  · have := congrArg String.toList h
    simp at this
  · have := congrArg String.toList h
    simp at this

theorem distributedAggregate_sameRows_averageSalaries :
  SameRows columnLanguage (plannedQueries averageSalaries).1 (plannedQueries averageSalaries).2
    (employees [("sales", 1), ("support", 4), ("sales", 3)])
    ⟨["department", "COUNT(*)", "AVG(salary)"],
      [[some (.text "support"), some (.integer 1), some (.integer 4)],
        [some (.text "sales"), some (.integer 2), some (.integer 2)]]⟩
  := by
  have haccepted := averageSalaries_accepted [("sales", 1), ("support", 4), ("sales", 3)]
  have hresult : resultOf averageSalaries (employees [("sales", 1), ("support", 4), ("sales", 3)])
      = ⟨["department", "COUNT(*)", "AVG(salary)"],
        [[some (.text "support"), some (.integer 1), some (.integer 4)],
          [some (.text "sales"), some (.integer 2), some (.integer 2)]]⟩ := by
    decide +kernel
  rw [← hresult]
  refine (distributedAggregate_sameRows_iff haccepted (unreserved_employees _)).mpr
    ⟨?_, ?_, averagesExact_of_forall haccepted.plan haccepted.mixed ?_⟩
  · unfold BothPlan
    decide
  · unfold SelectsKeys
    decide
  · decide +kernel

/-- The average of the salaries `1` and `2` is `3 / 2`, their sum divided by their count `1`. -/
theorem averageSalaries_not_sameRows :
  ∃ worker final result,
    Accepted columnLanguage averageSalaries worker final (employees [("sales", 1), ("sales", 2)])
        result
      ∧ ¬ SameRows columnLanguage worker final (employees [("sales", 1), ("sales", 2)]) result
  := by
  refine ⟨_, _, _, averageSalaries_accepted _, ?_⟩
  intro hsame
  obtain ⟨merged, hmerged, hperm⟩ := hsame [(employees [("sales", 1), ("sales", 2)]).rows]
    (by simp) (by simp)
  have hrows : merged.rows = [[some (.text "sales"), some (.integer 2), some (.integer 1)]] := by
    have hrun : runPartitions columnLanguage (plannedQueries averageSalaries).1
        (plannedQueries averageSalaries).2 ["department", "salary"]
        [(employees [("sales", 1), ("sales", 2)]).rows]
      = .ok ⟨["department", "COUNT(*)", "AVG(salary)"],
        [[some (.text "sales"), some (.integer 2), some (.integer 1)]]⟩ := by
      rfl
    cases hrun.symm.trans hmerged
    rfl
  rw [hrows] at hperm
  have heq := List.singleton_perm.mp hperm
  revert heq
  decide +kernel

end Sql.Dispatch
