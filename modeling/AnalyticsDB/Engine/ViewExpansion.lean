import AnalyticsDB.Control.Relocations
import AnalyticsDB.Lib.Deep

/-!
# The expansion of views

The rewriter replaces every view of a query by its definition, which is kept as text: it is parsed
again, and rewritten in the session of the query.  A wildcard is replaced by the columns of the
tables, a column with a default by a `COALESCE`; the text of the default is parsed and rewritten
too.  Nothing bounds how deep views and defaults are nested, so the rewriting is given a depth, and
what is proved is when some depth is enough.
-/

namespace Rewriter

/-! ### Queries -/

/- The parts of a query that the rewriter visits; it leaves the others as they are.  The parts of
the name of a table are its identifiers as they are displayed. -/
mutual

inductive Query where
  | mk (body : SetExpr) (orderBy limit : List Expr)

inductive SetExpr where
  | select (sources : List Source) (projection : List SelectItem) (selection : Option Expr)
      (groupBy : List Expr) (having : Option Expr)
  | query (query : Query)
  | setOperation (operator : String) (left right : SetExpr)
  | other (text : String)

/-- A table of a `FROM`, with how it is joined to those before it. -/
inductive Source where
  | mk (join : String) (relation : TableFactor) (onExpr : Option Expr)

inductive TableFactor where
  | table (name : List String) (aliasName : Option String) (args : Bool)
  | derived (subquery : Query) (aliasName : Option String)
  | other (text : String)

inductive SelectItem where
  | wildcard
  | qualifiedWildcard (aliasName : String)
  | expr (expr : Expr) (aliasName : Option String)

/-- The operands of a cast, an operator, a function, an `IN` or a `CASE` are visited in order. -/
inductive Expr where
  | identifier (name : String)
  | compoundIdentifier (parts : List String)
  | subquery (query : Query)
  | existsSubquery (subquery : Query)
  | inSubquery (expr : Expr) (subquery : Query)
  | operation (operator : String) (operands : List Expr)
  | other (text : String)

end

inductive Statement where
  | query (query : Query)
  | other

/-- The tables of a `SELECT` by their aliases, each with its columns and their defaults. -/
abbrev TableSchemas := List (String × List (String × Option String))

/-- Remember the columns of a table under an aliasName. -/
def TableSchemas.insert (schemas : TableSchemas) (aliasName : String)
    (columns : List (String × Option String)) : TableSchemas :=
  schemas.filter (·.1 ≠ aliasName) ++ [(aliasName, columns)]

/-- The rewriting of a part of a query. -/
abbrev Rewriting (α : Type) := Deep String α

/-- The columns of the system tables that the rewriter knows. -/
def systemColumns : String → Option (List String)
  | "pg_database" => some ["oid", "datname", "datdba", "encoding", "datcollate", "datctype",
      "datistemplate", "datallowconn", "datconnlimit", "datlastsysoid", "datfrozenxid",
      "datminmxid", "dattablespace", "datacl"]
  | "pg_namespace" => some ["oid", "nspname", "nspowner", "nspacl"]
  | "pg_tables" => some ["schemaname", "tablename", "tableowner", "tablespace", "hasindexes",
      "hasrules", "hastriggers", "rowsecurity"]
  | "pg_views" => some ["schemaname", "viewname", "viewowner", "definition"]
  | "pg_roles" => some ["oid", "rolname", "rolsuper", "rolinherit", "rolcreaterole", "rolcreatedb",
      "rolcanlogin", "rolreplication", "rolbypassrls", "rolconnlimit", "rolpassword",
      "rolvaliduntil"]
  | "pg_type" => some ["oid", "typname", "typnamespace", "typowner", "typlen", "typbyval",
      "typtype", "typcategory", "typispreferred", "typisdefined", "typdelim", "typrelid", "typelem",
      "typarray", "typinput", "typbasetype", "typtypmod", "typndims", "typcollation"]
  | "pg_class" => some ["oid", "relname", "relnamespace", "reltype", "reloftype", "relowner",
      "relam", "relfilenode", "reltablespace", "relpages", "reltuples", "relallvisible",
      "reltoastrelid", "relhasindex", "relisshared", "relpersistence", "relkind", "relnatts",
      "relchecks", "relhasrules", "relhastriggers", "relhassubclass", "relrowsecurity",
      "relforcerowsecurity", "relispartition", "relrewrite", "relfrozenxid", "relminmxid", "relacl",
      "reloptions", "relpartbound"]
  | "pg_attribute" => some ["attrelid", "attname", "atttypid", "attnum", "attnotnull", "atttypmod",
      "attndims", "atthasdef", "attidentity", "attgenerated", "attisdropped", "attislocal",
      "attinhcount", "attcollation"]
  | "pg_description" => some ["objoid", "classoid", "objsubid", "description"]
  | "pg_attrdef" => some ["oid", "adrelid", "adnum", "adbin"]
  | "pg_depend" => some ["classid", "objid", "objsubid", "refclassid", "refobjid", "refobjsubid",
      "deptype"]
  | "pg_constraint" => some ["oid", "conname", "connamespace", "contype", "condeferrable",
      "condeferred", "convalidated", "conrelid", "contypid", "conindid", "confrelid", "confupdtype",
      "confdeltype", "confmatchtype", "conislocal", "coninhcount", "connoinherit", "conkey",
      "confkey"]
  | _ => none

/-- The name in the system catalogue that the parts of a name may stand for. -/
def matchedPgCatalog : List String → Option String
  | [s, n] => if s = "pg_catalog" then some n else none
  | [n] => if startsWith n "pg_" then some n else none
  | _ => none

/-- The name of a table as it is left in the query. -/
def catalogName (idents name : List String) : List String :=
  match idents with
  | [n] => if startsWith n "pg_" then ["pg_catalog", n] else name
  | _ => name

/-- The database, the schema and the name that the parts of a name give. -/
def nameOf (idents : List String) : Option (Option String × Option String × String) :=
  match idents.reverse with
  | [] => none
  | [table] => some (none, none, table)
  | [table, schema] => some (none, some schema, table)
  | [table, schema, database] => some (some database, some schema, table)
  | table :: schema :: _ => some (none, some schema, table)

/-! ### The rewriting -/

/-- What the rewriting of a query is given: how it finds relations, and how it rewrites the
definitions of views and the columns of wildcards, one level deeper. -/
structure Env where
  lower : String → String
  parseDefault : String → Expr
  find : List String → Option CatalogRelation
  expand : String → Rewriting (Option Query)
  fill : TableSchemas → Expr → Rewriting Expr

section

variable (env : Env)

def wrapWithCoalesce (expr : Expr) (default : String) : Expr :=
  .operation "COALESCE" [expr, env.parseDefault default]

/-- The default of a column of a table. -/
def defaultOf (columns : List (String × Option String)) (name : String) : Option String :=
  (columns.find? (·.1 = name)).bind (·.2)

/-- A column, or its default where it is null. -/
def filled (expr : Expr) : Option String → Expr
  | some default => wrapWithCoalesce env expr default
  | none => expr

/-- The default of the column that parts of a name stand for. -/
def compoundDefault (schemas : TableSchemas) (parts : List String) : Option String :=
  match parts.reverse with
  | name :: aliasName :: _ => (schemas.lookup aliasName).bind (defaultOf · name)
  | _ => none

/-- The columns of a table as a wildcard stands for them. -/
def columnItems (column : String → Expr) (columns : List (String × Option String)) :
    List (Expr × String) :=
  (columns.filter (·.1 ≠ "_row_id")).map (fun (name, default) =>
    (filled env (column name) default, name))

/-- The columns of all tables. -/
def wildcardItems (schemas : TableSchemas) : List (Expr × String) :=
  schemas.flatMap (fun (aliasName, columns) => columnItems env
    (fun name => if schemas.length > 1 then .compoundIdentifier [aliasName, name] else .identifier
      name)
    columns)

/-- The columns of the table of an aliasName. -/
def qualifiedItems (aliasName : String) (columns : List (String × Option String)) :
    List (Expr × String) :=
  columnItems env (fun name => .compoundIdentifier [aliasName, name]) columns

/-- Rewrite the columns that a wildcard stands for. -/
def fillItems (schemas : TableSchemas) : List (Expr × String) → Rewriting (List SelectItem)
  | [] => pure []
  | (expr, name) :: items => do
    let expr ← env.fill schemas expr
    let items ← fillItems schemas items
    return .expr expr (some name) :: items

def rewriteWildcard (schemas : TableSchemas) : Rewriting (List SelectItem) :=
  if schemas.isEmpty then pure [.wildcard] else fillItems env schemas (wildcardItems env schemas)

def rewriteQualifiedWildcard (schemas : TableSchemas) (aliasName : String) :
    Rewriting (List SelectItem) :=
  match schemas.lookup aliasName with
  | some columns => fillItems env schemas (qualifiedItems env aliasName columns)
  | none => pure [.qualifiedWildcard aliasName]

/-- The definition of a relation, when it is a view, rewritten. -/
def expandRelation (relation : CatalogRelation) : Rewriting (Option Query) :=
  match relation.kind, relation.definitionSql with
  | .view, some definition => env.expand definition
  | _, _ => pure none

/-- Rewrite the table of a name: a view is replaced by its definition. -/
def resolveTable (schemas : TableSchemas) (name : List String) (aliasName : Option String) :
    Rewriting (TableFactor × TableSchemas) :=
  let idents := name.map env.lower
  let effectiveAlias := aliasName.getD (idents.getLast?.getD "")
  let kept : TableFactor := .table (catalogName idents name) aliasName false
  match (matchedPgCatalog idents).bind systemColumns with
  | some columns => pure (kept, schemas.insert effectiveAlias (columns.map (·, none)))
  | none =>
    match env.find idents with
    | none => pure (kept, schemas)
    | some relation => do
      let expanded ← expandRelation env relation
      return ((expanded.map (.derived · (some effectiveAlias))).getD kept,
        schemas.insert effectiveAlias (relation.columns.map (fun c => (c.name, c.defaultValue))))

mutual

def rewriteQuery : Query → Rewriting Query
  | .mk body orderBy limit => do
    let body ← rewriteSetExpr body
    let orderBy ← rewriteExprs [] orderBy
    let limit ← rewriteExprs [] limit
    return .mk body orderBy limit

def rewriteSetExpr : SetExpr → Rewriting SetExpr
  | .select sources projection selection groupBy having => do
    let (sources, schemas) ← resolveSources [] sources
    let projection ← rewriteItems schemas projection
    let selection ← rewriteOptional schemas selection
    let groupBy ← rewriteExprs schemas groupBy
    let having ← rewriteOptional schemas having
    return .select sources projection selection groupBy having
  | .query query => do
    let query ← rewriteQuery query
    return .query query
  | .setOperation operator left right => do
    let left ← rewriteSetExpr left
    let right ← rewriteSetExpr right
    return .setOperation operator left right
  | .other text => pure (.other text)

/-- Rewrite the tables of a `FROM`, remembering their columns. -/
def resolveSources (schemas : TableSchemas) : List Source → Rewriting (List Source × TableSchemas)
  | [] => pure ([], schemas)
  | .mk join relation onExpr :: sources => do
    let (relation, schemas) ← resolveTableSchemas schemas relation
    let onExpr ← rewriteOptional schemas onExpr
    let (sources, schemas) ← resolveSources schemas sources
    return (.mk join relation onExpr :: sources, schemas)

def resolveTableSchemas (schemas : TableSchemas) :
    TableFactor → Rewriting (TableFactor × TableSchemas)
  | .table name aliasName args =>
    if args then pure (.table name aliasName args, schemas)
    else resolveTable env schemas name aliasName
  | .derived subquery aliasName => do
    let subquery ← rewriteQuery subquery
    return (.derived subquery aliasName, schemas)
  | .other text => pure (.other text, schemas)

def rewriteItems (schemas : TableSchemas) : List SelectItem → Rewriting (List SelectItem)
  | [] => pure []
  | .wildcard :: items => do
    let columns ← rewriteWildcard env schemas
    let items ← rewriteItems schemas items
    return columns ++ items
  | .qualifiedWildcard aliasName :: items => do
    let columns ← rewriteQualifiedWildcard env schemas aliasName
    let items ← rewriteItems schemas items
    return columns ++ items
  | .expr expr aliasName :: items => do
    let expr ← rewriteExpr schemas expr
    let items ← rewriteItems schemas items
    return .expr expr aliasName :: items

def rewriteOptional (schemas : TableSchemas) : Option Expr → Rewriting (Option Expr)
  | none => pure none
  | some expr => do
    let expr ← rewriteExpr schemas expr
    return some expr

def rewriteExprs (schemas : TableSchemas) : List Expr → Rewriting (List Expr)
  | [] => pure []
  | expr :: exprs => do
    let expr ← rewriteExpr schemas expr
    let exprs ← rewriteExprs schemas exprs
    return expr :: exprs

def rewriteExpr (schemas : TableSchemas) : Expr → Rewriting Expr
  | .identifier name =>
    pure (filled env (.identifier name) (schemas.findSome? (fun (_, columns) =>
      defaultOf columns name)))
  | .compoundIdentifier parts =>
    pure (filled env (.compoundIdentifier parts) (compoundDefault schemas parts))
  | .subquery query => do
    let query ← rewriteQuery query
    return .subquery query
  | .existsSubquery subquery => do
    let subquery ← rewriteQuery subquery
    return .existsSubquery subquery
  | .inSubquery expr subquery => do
    let expr ← rewriteExpr schemas expr
    let subquery ← rewriteQuery subquery
    return .inSubquery expr subquery
  | .operation operator operands => do
    let operands ← rewriteExprs schemas operands
    return .operation operator operands
  | .other text => pure (.other text)

end

end

/-! ### The names of the tables in a query -/

mutual

/-- The names that are looked up for a query. -/
def queryTables : Query → List (List String)
  | .mk body orderBy limit => setExprTables body ++ exprsTables orderBy ++ exprsTables limit

def setExprTables : SetExpr → List (List String)
  | .select sources projection selection groupBy having =>
    sourcesTables sources ++ itemsTables projection ++ optionalTables selection
      ++ exprsTables groupBy ++ optionalTables having
  | .query query => queryTables query
  | .setOperation _ left right => setExprTables left ++ setExprTables right
  | .other _ => []

def sourcesTables : List Source → List (List String)
  | [] => []
  | .mk _ relation onExpr :: sources =>
    factorTables relation ++ optionalTables onExpr ++ sourcesTables sources

def factorTables : TableFactor → List (List String)
  | .table name _ args => if args then [] else [name]
  | .derived subquery _ => queryTables subquery
  | .other _ => []

def itemsTables : List SelectItem → List (List String)
  | [] => []
  | .wildcard :: items => itemsTables items
  | .qualifiedWildcard _ :: items => itemsTables items
  | .expr expr _ :: items => exprTables expr ++ itemsTables items

def optionalTables : Option Expr → List (List String)
  | none => []
  | some expr => exprTables expr

def exprsTables : List Expr → List (List String)
  | [] => []
  | expr :: exprs => exprTables expr ++ exprsTables exprs

def exprTables : Expr → List (List String)
  | .identifier _ => []
  | .compoundIdentifier _ => []
  | .subquery query => queryTables query
  | .existsSubquery subquery => queryTables subquery
  | .inSubquery expr subquery => exprTables expr ++ queryTables subquery
  | .operation _ operands => exprsTables operands
  | .other _ => []

end

/-! ### The rewriting finishes -/

open Deep

/-- A column, as a wildcard stands for it. -/
def IsColumn : Expr → Prop
  | .identifier _ => True
  | .compoundIdentifier _ => True
  | _ => False

namespace Env

variable (env : Env)

/-- The rewriting of a column finishes, whatever tables are remembered. -/
def Fills (default : Option String) : Prop :=
  ∀ schemas expr, IsColumn expr → Finishes (env.fill schemas (filled env expr default))
    (fun _ => True)

/-- The definition of a view and the defaults of a relation are rewritten. -/
structure Serves (r : CatalogRelation) : Prop where
  definition : r.kind = .view → ∀ definition, r.definitionSql = some definition →
    Finishes (env.expand definition) (fun _ => True)
  defaults : ∀ column ∈ r.columns, env.Fills column.defaultValue

/-- The columns of the system table of a name are rewritten; any other name that finds a relation
finds one that is served. -/
structure Answers (name : List String) : Prop where
  system : ∀ columns, (matchedPgCatalog (name.map env.lower)).bind systemColumns = some columns →
    env.Fills none
  found : (matchedPgCatalog (name.map env.lower)).bind systemColumns = none →
    ∀ r, env.find (name.map env.lower) = some r → env.Serves r

/-- The columns that are remembered are rewritten. -/
def Remembers (schemas : TableSchemas) : Prop :=
  ∀ entry ∈ schemas, ∀ column ∈ entry.2, env.Fills column.2

end Env

section

variable {env : Env}

theorem Env.Remembers.insert {schemas : TableSchemas} (h : env.Remembers schemas)
    {aliasName : String} {columns : List (String × Option String)}
    (hcolumns : ∀ column ∈ columns, env.Fills column.2) :
  env.Remembers (schemas.insert aliasName columns)
  := by
  intro entry hentry
  rcases List.mem_append.mp hentry with hold | hnew
  · exact h entry (List.mem_filter.mp hold).1
  · rw [List.mem_singleton.mp hnew]
    exact hcolumns

/-- The columns that a wildcard stands for are rewritten. -/
theorem fillItems_finishes {schemas : TableSchemas} {items : List (Expr × String)}
    (h : ∀ item ∈ items, Finishes (env.fill schemas item.1) (fun _ => True)) :
  Finishes (fillItems env schemas items) (fun _ => True)
  := by
  induction items with
  | nil => simp [fillItems]
  | cons item items ih =>
      rw [List.forall_mem_cons] at h
      simp only [fillItems, finishes_bind, finishes_pure]
      exact h.1.mono (fun _ _ => ih h.2)

theorem columnItems_finishes {schemas : TableSchemas} {column : String → Expr}
    {columns : List (String × Option String)} (hcolumn : ∀ name, IsColumn (column name))
    (h : ∀ c ∈ columns, env.Fills c.2) :
  ∀ item ∈ columnItems env column columns, Finishes (env.fill schemas item.1) (fun _ => True)
  := by
  intro item hitem
  obtain ⟨c, hc, rfl⟩ := List.mem_map.mp hitem
  exact h c (List.mem_filter.mp hc).1 schemas _ (hcolumn c.1)

theorem rewriteWildcard_finishes {schemas : TableSchemas} (h : env.Remembers schemas) :
  Finishes (rewriteWildcard env schemas) (fun _ => True)
  := by
  rw [rewriteWildcard]
  split
  · simp only [finishes_pure]
  · apply fillItems_finishes
    intro item hitem
    obtain ⟨entry, hentry, hitem⟩ := List.mem_flatMap.mp hitem
    refine columnItems_finishes ?_ (h entry hentry) item hitem
    intro name
    split
    · trivial
    · trivial

theorem rewriteQualifiedWildcard_finishes {schemas : TableSchemas} (h : env.Remembers schemas)
    (aliasName : String) :
  Finishes (rewriteQualifiedWildcard env schemas aliasName) (fun _ => True)
  := by
  rw [rewriteQualifiedWildcard]
  split
  · rename_i columns hcolumns
    apply fillItems_finishes
    refine columnItems_finishes (fun _ => trivial) ?_
    obtain ⟨l₁, l₂, rfl, -⟩ := List.lookup_eq_some_iff.mp hcolumns
    exact h (aliasName, columns) (by simp)
  · simp only [finishes_pure]

/-- A table is rewritten, and its columns remembered, when the relation its name finds is served. -/
theorem resolveTable_finishes {schemas : TableSchemas} (hschemas : env.Remembers schemas)
    {name : List String} (h : env.Answers name) (aliasName : Option String) :
  Finishes (resolveTable env schemas name aliasName) (fun result => env.Remembers result.2)
  := by
  rw [resolveTable]
  split
  · rename_i columns hsystem
    rw [finishes_pure]
    apply hschemas.insert
    intro column hcolumn
    obtain ⟨name, -, rfl⟩ := List.mem_map.mp hcolumn
    exact h.system columns hsystem
  · rename_i hsystem
    split
    · rw [finishes_pure]
      exact hschemas
    · rename_i relation hfound
      obtain ⟨hdefinition, hdefaults⟩ := h.found hsystem relation hfound
      simp only [finishes_bind, finishes_pure]
      have hexpands : Finishes (expandRelation env relation) (fun _ => True) := by
        unfold expandRelation
        split
        · rename_i definition hkind htext
          exact hdefinition hkind definition htext
        · simp only [finishes_pure]
      apply hexpands.mono
      intro expanded _
      apply hschemas.insert
      intro column hcolumn
      obtain ⟨c, hc, rfl⟩ := List.mem_map.mp hcolumn
      exact hdefaults c hc

/- The induction is on the parts of the query; the tables are rewritten first, and what they leave
remembered carries it through the wildcards. -/
mutual

/-- A query is rewritten when the relations that its names find are served. -/
theorem rewriteQuery_finishes : ∀ query : Query, (∀ name ∈ queryTables query, env.Answers name) →
    Finishes (rewriteQuery env query) (fun _ => True)
  | .mk body orderBy limit, h => by
      simp only [queryTables, List.forall_mem_append] at h
      simp only [rewriteQuery, finishes_bind, finishes_pure]
      apply (rewriteSetExpr_finishes body h.1.1).mono
      intro body _
      apply (rewriteExprs_finishes [] orderBy h.1.2).mono
      intro orderBy _
      exact rewriteExprs_finishes [] limit h.2

theorem rewriteSetExpr_finishes : ∀ body : SetExpr,
    (∀ name ∈ setExprTables body, env.Answers name) →
    Finishes (rewriteSetExpr env body) (fun _ => True)
  | .select sources projection selection groupBy having, h => by
      simp only [setExprTables, List.forall_mem_append] at h
      obtain ⟨⟨⟨⟨hsources, hprojection⟩, hselection⟩, hgroupBy⟩, hhaving⟩ := h
      simp only [rewriteSetExpr, finishes_bind, finishes_pure]
      apply (resolveSources_finishes [] sources (by simp [Env.Remembers]) hsources).mono
      rintro ⟨sources, schemas⟩ hschemas
      apply (rewriteItems_finishes schemas projection hschemas hprojection).mono
      intro projection _
      apply (rewriteOptional_finishes schemas selection hselection).mono
      intro selection _
      apply (rewriteExprs_finishes schemas groupBy hgroupBy).mono
      intro groupBy _
      exact rewriteOptional_finishes schemas having hhaving
  | .query query, h => by
      simp only [rewriteSetExpr, finishes_bind, finishes_pure]
      exact rewriteQuery_finishes query (by simpa only [setExprTables] using h)
  | .setOperation operator left right, h => by
      simp only [setExprTables, List.forall_mem_append] at h
      simp only [rewriteSetExpr, finishes_bind, finishes_pure]
      apply (rewriteSetExpr_finishes left h.1).mono
      intro left _
      exact rewriteSetExpr_finishes right h.2
  | .other text, _ => by
      simp only [rewriteSetExpr, finishes_pure]

theorem resolveSources_finishes : ∀ (schemas : TableSchemas) (sources : List Source),
    env.Remembers schemas → (∀ name ∈ sourcesTables sources, env.Answers name) →
    Finishes (resolveSources env schemas sources) (fun result => env.Remembers result.2)
  | schemas, [], hschemas, _ => by
      simp only [resolveSources, finishes_pure]
      exact hschemas
  | schemas, .mk join relation onExpr :: sources, hschemas, h => by
      simp only [sourcesTables, List.forall_mem_append] at h
      simp only [resolveSources, finishes_bind, finishes_pure]
      apply (resolveTableSchemas_finishes schemas relation hschemas h.1.1).mono
      rintro ⟨relation, schemas⟩ hschemas
      apply (rewriteOptional_finishes schemas onExpr h.1.2).mono
      intro onExpr _
      exact resolveSources_finishes schemas sources hschemas h.2

theorem resolveTableSchemas_finishes : ∀ (schemas : TableSchemas) (relation : TableFactor),
    env.Remembers schemas → (∀ name ∈ factorTables relation, env.Answers name) →
    Finishes (resolveTableSchemas env schemas relation) (fun result => env.Remembers result.2)
  | schemas, .table name aliasName args, hschemas, h => by
      rw [resolveTableSchemas]
      split
      · rw [finishes_pure]
        exact hschemas
      · rename_i hargs
        apply resolveTable_finishes hschemas
        apply h name
        rw [factorTables, if_neg hargs]
        exact List.mem_singleton_self name
  | schemas, .derived subquery aliasName, hschemas, h => by
      simp only [resolveTableSchemas, finishes_bind, finishes_pure]
      apply (rewriteQuery_finishes subquery (by simpa only [factorTables] using h)).mono
      intro subquery _
      exact hschemas
  | schemas, .other text, hschemas, _ => by
      simp only [resolveTableSchemas, finishes_pure]
      exact hschemas

theorem rewriteItems_finishes : ∀ (schemas : TableSchemas) (items : List SelectItem),
    env.Remembers schemas → (∀ name ∈ itemsTables items, env.Answers name) →
    Finishes (rewriteItems env schemas items) (fun _ => True)
  | schemas, [], _, _ => by
      simp only [rewriteItems, finishes_pure]
  | schemas, .wildcard :: items, hschemas, h => by
      simp only [rewriteItems, finishes_bind, finishes_pure]
      apply (rewriteWildcard_finishes hschemas).mono
      intro columns _
      exact rewriteItems_finishes schemas items hschemas (by simpa only [itemsTables] using h)
  | schemas, .qualifiedWildcard aliasName :: items, hschemas, h => by
      simp only [rewriteItems, finishes_bind, finishes_pure]
      apply (rewriteQualifiedWildcard_finishes hschemas aliasName).mono
      intro columns _
      exact rewriteItems_finishes schemas items hschemas (by simpa only [itemsTables] using h)
  | schemas, .expr expr aliasName :: items, hschemas, h => by
      simp only [itemsTables, List.forall_mem_append] at h
      simp only [rewriteItems, finishes_bind, finishes_pure]
      apply (rewriteExpr_finishes schemas expr h.1).mono
      intro expr _
      exact rewriteItems_finishes schemas items hschemas h.2

theorem rewriteOptional_finishes : ∀ (schemas : TableSchemas) (expr : Option Expr),
    (∀ name ∈ optionalTables expr, env.Answers name) →
    Finishes (rewriteOptional env schemas expr) (fun _ => True)
  | schemas, none, _ => by
      simp only [rewriteOptional, finishes_pure]
  | schemas, some expr, h => by
      simp only [rewriteOptional, finishes_bind, finishes_pure]
      exact rewriteExpr_finishes schemas expr (by simpa only [optionalTables] using h)

theorem rewriteExprs_finishes : ∀ (schemas : TableSchemas) (exprs : List Expr),
    (∀ name ∈ exprsTables exprs, env.Answers name) →
    Finishes (rewriteExprs env schemas exprs) (fun _ => True)
  | schemas, [], _ => by
      simp only [rewriteExprs, finishes_pure]
  | schemas, expr :: exprs, h => by
      simp only [exprsTables, List.forall_mem_append] at h
      simp only [rewriteExprs, finishes_bind, finishes_pure]
      apply (rewriteExpr_finishes schemas expr h.1).mono
      intro expr _
      exact rewriteExprs_finishes schemas exprs h.2

theorem rewriteExpr_finishes : ∀ (schemas : TableSchemas) (expr : Expr),
    (∀ name ∈ exprTables expr, env.Answers name) →
    Finishes (rewriteExpr env schemas expr) (fun _ => True)
  | schemas, .identifier name, _ => by
      simp only [rewriteExpr, finishes_pure]
  | schemas, .compoundIdentifier parts, _ => by
      simp only [rewriteExpr, finishes_pure]
  | schemas, .subquery query, h => by
      simp only [rewriteExpr, finishes_bind, finishes_pure]
      exact rewriteQuery_finishes query (by simpa only [exprTables] using h)
  | schemas, .existsSubquery subquery, h => by
      simp only [rewriteExpr, finishes_bind, finishes_pure]
      exact rewriteQuery_finishes subquery (by simpa only [exprTables] using h)
  | schemas, .inSubquery expr subquery, h => by
      simp only [exprTables, List.forall_mem_append] at h
      simp only [rewriteExpr, finishes_bind, finishes_pure]
      apply (rewriteExpr_finishes schemas expr h.1).mono
      intro expr _
      exact rewriteQuery_finishes subquery h.2
  | schemas, .operation operator operands, h => by
      simp only [rewriteExpr, finishes_bind, finishes_pure]
      exact rewriteExprs_finishes schemas operands (by simpa only [exprTables] using h)
  | schemas, .other text, _ => by
      simp only [rewriteExpr, finishes_pure]

end

end

/-! ### Views and defaults, one level deeper -/

/-- The parser of the queries, and the lower case of identifiers. -/
structure Dialect where
  parse : String → Except String (List Statement)
  lower : String → String

/-- The relation that the parts of a name find in a session. -/
def findIn (w : World) (session : SessionContext) (idents : List String) :
    Option CatalogRelation :=
  match nameOf idents with
  | none => none
  | some (database, schema, table) =>
    (Eff.exec (findRelation session database schema table) w).1.toOption

namespace Dialect

variable (dialect : Dialect)

/-- The expression that the text of a default is; a literal when it is none. -/
def parseDefault (default : String) : Expr :=
  match dialect.parse ("SELECT " ++ default) with
  | .ok [.query (.mk (.select _ [.expr expr none] _ _ _) _ _)] => expr
  | _ => .other ("'" ++ default ++ "'")

/-- The query that the definition of a view is. -/
def viewQuery (definition : String) : Except String (Option Query) :=
  match dialect.parse definition with
  | .ok [.query query] => .ok (some query)
  | .ok _ => .ok none
  | .error message => .error message

/-- How a query is rewritten whose views and defaults may be nested to a depth. -/
def envAt (w : World) (session : SessionContext) : Nat → Env
  | 0 =>
    { lower := dialect.lower
      parseDefault := dialect.parseDefault
      find := findIn w session
      expand := fun _ => tooDeep
      fill := fun _ _ => tooDeep }
  | depth + 1 =>
    { lower := dialect.lower
      parseDefault := dialect.parseDefault
      find := findIn w session
      expand := fun definition =>
        match dialect.viewQuery definition with
        | .ok (some query) => do
          let query ← rewriteQuery (envAt w session depth) query
          return some query
        | .ok none => pure none
        | .error message => throw message
      fill := rewriteExpr (envAt w session depth) }

/-- The names in the definition of a view. -/
def definitionNames (r : CatalogRelation) : List (List String) :=
  match r.kind, r.definitionSql with
  | .view, some definition =>
    match dialect.viewQuery definition with
    | .ok (some query) => queryTables query
    | _ => []
  | _, _ => []

/-- The names in a default. -/
def defaultNames : Option String → List (List String)
  | some default => exprTables (dialect.parseDefault default)
  | none => []

/-- The names in the texts of a relation. -/
def textNames (r : CatalogRelation) : List (List String) :=
  dialect.definitionNames r ++ r.columns.flatMap (fun c => dialect.defaultNames c.defaultValue)

/-- The parts of those names that are looked up. -/
def lookups (names : List (List String)) : List (List String) :=
  (names.map (·.map dialect.lower)).filter (fun idents =>
    ((matchedPgCatalog idents).bind systemColumns).isNone)

/-- What the definition of a view refers to. -/
def bodyNames (r : CatalogRelation) : List (List String) :=
  dialect.lookups (dialect.definitionNames r)

/-- What the texts of a relation refer to. -/
def mentions (r : CatalogRelation) : List (List String) := dialect.lookups (dialect.textNames r)

end Dialect

/-- A name may stand for a relation: in some session it does. -/
def spells (idents : List String) (r : CatalogRelation) : Bool :=
  match nameOf idents with
  | none => false
  | some (database, schema, table) =>
    database.getD r.database = r.database && schema.getD r.schema = r.schema && table = r.name

section

variable {dialect : Dialect} {w : World} {session : SessionContext}

@[simp]
theorem envAt_lower (depth : Nat) : (dialect.envAt w session depth).lower = dialect.lower
  := by
  cases depth with
  | zero => rfl
  | succ depth => rfl

@[simp]
theorem envAt_find (depth : Nat) : (dialect.envAt w session depth).find = findIn w session
  := by
  cases depth with
  | zero => rfl
  | succ depth => rfl

@[simp]
theorem envAt_parseDefault (depth : Nat) :
  (dialect.envAt w session depth).parseDefault = dialect.parseDefault
  := by
  cases depth with
  | zero => rfl
  | succ depth => rfl

theorem findRelation_toOption {database schema : Option String} {table : String} :
  (Eff.exec (findRelation session database schema table) w).1.toOption
    = match validateSession w.catalog session with
      | .ok _ => w.catalog.relations[relationKey (database.getD session.database)
          (schema.getD session.schema) table]?
      | .error _ => none
  := by
  have hread : Eff.exec readState w = (.ok w.catalog, w) := rfl
  simp only [findRelation, Eff.exec_bind, hread]
  cases validateSession w.catalog session with
  | error message => rfl
  | ok _ =>
      simp only [orBail, Eff.exec_pure]
      cases w.catalog.relations[relationKey (database.getD session.database)
          (schema.getD session.schema) table]? with
      | none => rfl
      | some r => rfl

/-- A name finds what is stored under its key in a valid session. -/
theorem findIn_eq_some {idents : List String} {r : CatalogRelation} :
  findIn w session idents = some r
    ↔ validateSession w.catalog session = .ok () ∧ ∃ database schema table,
      nameOf idents = some (database, schema, table)
        ∧ w.catalog.relations[relationKey (database.getD session.database)
          (schema.getD session.schema) table]? = some r
  := by
  unfold findIn
  cases hname : nameOf idents with
  | none => simp
  | some parts =>
      obtain ⟨database, schema, table⟩ := parts
      simp only [findRelation_toOption, Option.some.injEq, Prod.mk.injEq]
      cases validateSession w.catalog session with
      | error message => simp
      | ok _ =>
          constructor
          · intro hr
            exact ⟨rfl, database, schema, table, ⟨rfl, rfl, rfl⟩, hr⟩
          · rintro ⟨-, _, _, _, ⟨rfl, rfl, rfl⟩, hr⟩
            exact hr

/-- The columns of a wildcard are rewritten one level deeper when the names in their default are
answered there. -/
theorem fills_succ {depth : Nat} {default : Option String}
    (h : ∀ name ∈ dialect.defaultNames default, (dialect.envAt w session depth).Answers name) :
  (dialect.envAt w session (depth + 1)).Fills default
  := by
  intro schemas expr hexpr
  have hnone : exprTables expr = [] := by
    cases expr with
    | identifier name => rfl
    | compoundIdentifier parts => rfl
    | _ => cases hexpr
  apply rewriteExpr_finishes
  cases default with
  | none =>
      rw [filled, hnone]
      exact List.forall_mem_nil _
  | some default =>
      intro name hname
      apply h
      simpa [filled, wrapWithCoalesce, exprTables, exprsTables, hnone, Dialect.defaultNames]
        using hname

theorem answers_system (depth : Nat) :
  (dialect.envAt w session (depth + 1)).Fills none
  := fills_succ (List.forall_mem_nil _)

/-- A relation is served one level deeper when the names in its texts are answered. -/
theorem serves_succ {depth : Nat} {r : CatalogRelation}
    (h : ∀ name ∈ dialect.textNames r, (dialect.envAt w session depth).Answers name) :
  (dialect.envAt w session (depth + 1)).Serves r
  := by
  rw [Dialect.textNames, List.forall_mem_append] at h
  constructor
  · intro hkind definition hdefinition
    simp only [Dialect.envAt]
    cases hquery : dialect.viewQuery definition with
    | error message => simp only [finishes_throw]
    | ok query =>
        cases query with
        | none => simp only [finishes_pure]
        | some query =>
            simp only [finishes_bind, finishes_pure]
            apply rewriteQuery_finishes
            intro name hname
            apply h.1
            simpa [Dialect.definitionNames, hkind, hdefinition, hquery] using hname
  · intro column hcolumn
    apply fills_succ
    intro name hname
    exact h.2 name (List.mem_flatMap.mpr ⟨column, hcolumn, hname⟩)

/-- A name finds a relation that it may stand for. -/
theorem spells_of_findIn (hns : w.catalog.Namespaced) {idents : List String} {r : CatalogRelation}
    (h : findIn w session idents = some r) :
  w.catalog.relations[r.key]? = some r ∧ spells idents r = true
  := by
  obtain ⟨-, database, schema, table, hname, hr⟩ := findIn_eq_some.mp h
  obtain ⟨hd, hs, hn⟩ := hns.plain_of_relation hr
  have hkey := hns.key_eq hr
  obtain ⟨hdatabase, hschema, htable⟩ := relationKey_inj hd hs hn hkey
  constructor
  · rw [← hkey]
    exact hr
  · have hgetD : ∀ (part : Option String) (value found : String), part.getD value = found →
        part.getD found = found := by
      intro part value found hpart
      cases part with
      | none => rfl
      | some _ => exact hpart
    simp only [spells, hname, Bool.and_eq_true, decide_eq_true_iff]
    exact ⟨⟨hgetD _ _ _ hdatabase, hgetD _ _ _ hschema⟩, htable⟩

end

/-! ### Enough depth -/

/-- The texts of a relation refer to a relation of the catalogue. -/
def Refers (dialect : Dialect) (state : CatalogState) (r' r : CatalogRelation) : Prop :=
  state.relations[r'.key]? = some r'
    ∧ ∃ idents ∈ dialect.mentions r, spells idents r' = true

section

variable {dialect : Dialect} {w : World} (session : SessionContext)

/-- A name is answered from some depth on when the relation that it finds is served from some depth
on. -/
theorem answers_of_serves {name : List String}
    (h : ((matchedPgCatalog (name.map dialect.lower)).bind systemColumns) = none →
      ∀ r, findIn w session (name.map dialect.lower) = some r →
      ∃ bound, ∀ depth ≥ bound, (dialect.envAt w session depth).Serves r) :
  ∃ bound, ∀ depth ≥ bound, (dialect.envAt w session depth).Answers name
  := by
  have hsystem : ∀ depth ≥ 1, (dialect.envAt w session depth).Fills none := by
    intro depth hdepth
    obtain ⟨depth, rfl⟩ := Nat.exists_eq_add_of_le' hdepth
    exact answers_system depth
  by_cases hnone : (matchedPgCatalog (name.map dialect.lower)).bind systemColumns = none
  · cases hfound : findIn w session (name.map dialect.lower) with
    | none =>
        refine ⟨1, fun depth hdepth => ⟨fun _ _ => hsystem depth hdepth, ?_⟩⟩
        intro _ r hr
        rw [envAt_find, envAt_lower, hfound] at hr
        cases hr
    | some r =>
        obtain ⟨bound, hbound⟩ := h hnone r hfound
        refine ⟨max bound 1, fun depth hdepth => ⟨fun _ _ => ?_, ?_⟩⟩
        · exact hsystem depth (Nat.le_trans (Nat.le_max_right ..) hdepth)
        · intro _ r' hr'
          rw [envAt_find, envAt_lower, hfound] at hr'
          cases hr'
          exact hbound depth (Nat.le_trans (Nat.le_max_left ..) hdepth)
  · refine ⟨1, fun depth hdepth => ⟨fun _ _ => hsystem depth hdepth, ?_⟩⟩
    intro hnone'
    rw [envAt_lower] at hnone'
    exact absurd hnone' hnone

/-- A relation from which no chain of references goes on forever is served from some depth on. -/
theorem serves_of_acc (hns : w.catalog.Namespaced) {r : CatalogRelation}
    (h : Acc (Refers dialect w.catalog) r) :
  ∃ bound, ∀ depth ≥ bound, (dialect.envAt w session depth).Serves r
  := by
  induction h with
  | intro r _ ih =>
      have hanswers : ∀ name ∈ dialect.textNames r,
          ∃ bound, ∀ depth ≥ bound, (dialect.envAt w session depth).Answers name := by
        intro name hname
        apply answers_of_serves
        intro hsystem r' hfound
        obtain ⟨hr', hspells⟩ := spells_of_findIn hns hfound
        apply ih r' ⟨hr', name.map dialect.lower, ?_, hspells⟩
        rw [Dialect.mentions, Dialect.lookups, List.mem_filter]
        exact ⟨List.mem_map_of_mem hname, by rw [hsystem]; rfl⟩
      obtain ⟨bound, hbound⟩ := exists_bound hanswers
      refine ⟨bound + 1, ?_⟩
      intro depth hdepth
      obtain ⟨depth, rfl⟩ := Nat.exists_eq_add_of_le'
        (Nat.le_trans (Nat.le_add_left 1 bound) hdepth)
      apply serves_succ
      exact hbound depth (Nat.le_of_add_le_add_right hdepth)

/-- Where no chain of references goes on forever, every query is rewritten, given depth enough. -/
theorem rewriteQuery_finishes_of_acc (hns : w.catalog.Namespaced)
    (h : ∀ r, w.catalog.relations[r.key]? = some r → Acc (Refers dialect w.catalog) r)
    (query : Query) :
  ∃ bound, ∀ depth ≥ bound,
    Finishes (rewriteQuery (dialect.envAt w session depth) query) (fun _ => True)
  := by
  have hanswers : ∀ name ∈ queryTables query,
      ∃ bound, ∀ depth ≥ bound, (dialect.envAt w session depth).Answers name := by
    intro name _
    apply answers_of_serves
    intro _ r hfound
    exact serves_of_acc session hns (h r (spells_of_findIn hns hfound).1)
  obtain ⟨bound, hbound⟩ := exists_bound hanswers
  exact ⟨bound, fun depth hdepth => rewriteQuery_finishes query (hbound depth hdepth)⟩

end

end Rewriter
