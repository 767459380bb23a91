import AnalyticsDB.Engine.FileListCache
import AnalyticsDB.Engine.GrantStatements

/-!
# Authorization of queries

A query goes down one of five paths: it inserts the rows of a SELECT, it is answered from an
index, it is a metadata statement, it is distributed, or it is executed by DataFusion.  The
privileges of the session are checked on the last of these only, and there for one table.  What is
proved is for exactly which statements the check keeps a session from the tables it has no
privilege on.
-/

/-! ### Statements -/

mutual

/-- A query with its common table expressions. -/
inductive SqlQuery where
  | mk (recursive : Bool) (withs : List Cte) (body : SqlSetExpr)

inductive Cte where
  | mk (name : String) (query : SqlQuery)

/-- The body of a query.  `subqueries` are those of the expressions of a SELECT or of VALUES, and
`indexable` says that a SELECT has no clauses but FROM and WHERE, that it selects columns or `*`,
and that its WHERE is a conjunction of comparisons of columns with literals. -/
inductive SqlSetExpr where
  | select (fromTables : List TableWithJoins) (subqueries : List SqlQuery) (indexable : Bool)
  | query (query : SqlQuery)
  | setOperation (left right : SqlSetExpr)
  | values (subqueries : List SqlQuery)
  | table (name : ObjectName)

inductive TableWithJoins where
  | mk (relation : TableFactor) (joins : List TableFactor)

/-- A table of a FROM clause.  `text` is how it is written, and `aliasText` how its alias is. -/
inductive TableFactor where
  | table (name : ObjectName) (aliasText : Option String)
  | derived (text : String) (query : SqlQuery)
  | nestedJoin (text : String) (tables : TableWithJoins)
  | function (text : String)

end

def TableWithJoins.relation : TableWithJoins → TableFactor
  | .mk relation _ => relation

def TableWithJoins.joins : TableWithJoins → List TableFactor
  | .mk _ joins => joins

def Cte.name : Cte → String
  | .mk name _ => name

/-- The statements that read or modify tables. -/
inductive SqlStatement where
  | query (query : SqlQuery)
  /-- `standard` says that the text begins with `INSERT INTO` and one blank. -/
  | insert (table : ObjectName) (standard : Bool) (source : Option SqlQuery)
  /-- `columnTargets` says that every assignment is to a column. -/
  | update (table : TableWithJoins) (columnTargets : Bool) (fromTables : List TableWithJoins)
      (subqueries : List SqlQuery)
  /-- `fromKeyword` says that the tables stand after FROM. -/
  | delete (fromKeyword : Bool) (tables : List TableWithJoins) (usingTables : List TableWithJoins)
      (subqueries : List SqlQuery)
  | truncate (names : List ObjectName)

/-! ### The tables of a statement -/

/-- The table of a name, unless it is that of a common table expression. -/
def unboundTable (bound : List String) : ObjectName → List ObjectName
  | [name] => if name ∈ bound then [] else [[name]]
  | name => [name]

mutual

/-- The names of the tables a query reads, where `bound` are the names of the common table
expressions around it. -/
def SqlQuery.tables (bound : List String) : SqlQuery → List ObjectName
  | .mk recursive withs body =>
    tablesOfWiths recursive bound withs ++ body.tables (bound ++ withs.map Cte.name)

def tablesOfWiths (recursive : Bool) (bound : List String) : List Cte → List ObjectName
  | [] => []
  | .mk name query :: withs =>
    query.tables (if recursive then bound ++ [name] else bound)
      ++ tablesOfWiths recursive (bound ++ [name]) withs

def SqlSetExpr.tables (bound : List String) : SqlSetExpr → List ObjectName
  | .select fromTables subqueries _ =>
    tablesOfFrom bound fromTables ++ tablesOfQueries bound subqueries
  | .query q => q.tables bound
  | .setOperation left right => left.tables bound ++ right.tables bound
  | .values subqueries => tablesOfQueries bound subqueries
  | .table name => unboundTable bound name

def tablesOfQueries (bound : List String) : List SqlQuery → List ObjectName
  | [] => []
  | query :: queries => query.tables bound ++ tablesOfQueries bound queries

def TableWithJoins.tables (bound : List String) : TableWithJoins → List ObjectName
  | .mk relation joins => relation.tables bound ++ tablesOfFactors bound joins

def tablesOfFrom (bound : List String) : List TableWithJoins → List ObjectName
  | [] => []
  | item :: items => item.tables bound ++ tablesOfFrom bound items

def TableFactor.tables (bound : List String) : TableFactor → List ObjectName
  | .table name _ => unboundTable bound name
  | .derived _ query => query.tables bound
  | .nestedJoin _ tables => tables.tables bound
  | .function _ => []

def tablesOfFactors (bound : List String) : List TableFactor → List ObjectName
  | [] => []
  | factor :: factors => factor.tables bound ++ tablesOfFactors bound factors

end

/-- The names of the tables a statement reads. -/
def SqlStatement.tablesRead : SqlStatement → List ObjectName
  | .query q => q.tables []
  | .insert _ _ source => (source.map (SqlQuery.tables [])).getD []
  | .update table _ fromTables subqueries =>
    tablesOfFactors [] table.joins ++ tablesOfFrom [] fromTables ++ tablesOfQueries [] subqueries
  | .delete _ tables usingTables subqueries =>
    tablesOfFrom [] tables.tail ++ tablesOfFrom [] usingTables ++ tablesOfQueries [] subqueries
  | .truncate _ => []

/-- The names of the tables a statement modifies. -/
def SqlStatement.tablesModified : SqlStatement → List ObjectName
  | .query _ => []
  | .insert table _ _ => [table]
  | .update table _ _ _ => table.relation.tables []
  | .delete _ tables _ _ => (tables.head?.map (fun item => item.relation.tables [])).getD []
  | .truncate names => names

/-- The privilege a statement needs on the tables it modifies. -/
def SqlStatement.privilege : SqlStatement → String
  | .query _ => "SELECT"
  | .insert .. => "INSERT"
  | .update .. => "UPDATE"
  | .delete .. => "DELETE"
  | .truncate _ => "TRUNCATE"

/-! ### The paths of a statement -/

/-- Whether the text of a query begins with SELECT. -/
def SqlSetExpr.beginsWithSelect : SqlSetExpr → Bool
  | .select .. => true
  | .query _ => false
  | .setOperation left _ => left.beginsWithSelect
  | .values _ | .table _ => false

/-- Whether `parse_insert_select_statement` takes a statement: the name of the table is one word,
and a SELECT follows it or the columns. -/
def SqlStatement.parseInsertSelect : SqlStatement → Bool
  | .insert table true (some (.mk _ [] body)) =>
    table.text.toList.all (fun c => !isWhiteSpace c && c != '(' && c != ')')
      && body.beginsWithSelect
  | _ => false

/-- The one table of a SELECT without joins and common table expressions. -/
def SqlStatement.parsePlainSelectTable : SqlStatement → Option ObjectName
  | .query (.mk _ [] (.select [.mk (.table name _) []] _ _)) =>
    if name.length = 1 ∨ name.length = 2 ∨ name.length = 3 then some name else none
  | _ => none

/-- Whether `parse_indexed_select_statement` takes a statement. -/
def SqlStatement.parseIndexedSelect (statement : SqlStatement) : Bool :=
  match statement with
  | .query (.mk _ _ (.select _ _ true)) => statement.parsePlainSelectTable.isSome
  | _ => false

/-- Whether a name has one, two or three parts. -/
def ObjectName.isQualified (name : ObjectName) : Bool := 1 ≤ name.length && name.length ≤ 3

/-- Whether `parse_metadata_statement` takes a statement that reads or modifies tables. -/
def SqlStatement.parseMetadata : SqlStatement → Bool
  | .query _ => false
  | .insert table _ (some (.mk _ _ (.values _))) => table.isQualified
  | .insert .. => false
  | .update (.mk (.table name _) _) columnTargets _ _ => name.isQualified && columnTargets
  | .update .. => false
  | .delete true (.mk (.table name _) _ :: _) _ _ => name.isQualified
  | .delete .. => false
  | .truncate names => (names.head?.map ObjectName.isQualified).getD false

/-! ### The table that is checked -/

def TableFactor.text : TableFactor → String
  | .table name none => name.text
  | .table name (some aliasText) => name.text ++ " " ++ aliasText
  | .derived text _ | .nestedJoin text _ | .function text => text

/-- The qualified name of a table.  It is the same function as the one for the names of grants. -/
def qualifyTableName (name : String) (session : SessionContext) : String :=
  qualifyGrantObjectName name session

def qualifyTableFactor (session : SessionContext) : TableFactor → String
  | .table name _ => qualifyTableName name.text session
  | .derived .. | .nestedJoin .. | .function _ => ""

/-- The first table of the first SELECT of a query. -/
def extractFirstSelectTable (session : SessionContext) : SqlSetExpr → Option String
  | .select [] _ _ => none
  | .select (first :: _) _ _ => some (qualifyTableFactor session first.relation)
  | .query (.mk _ _ body) => extractFirstSelectTable session body
  | .setOperation left _ => extractFirstSelectTable session left
  | .values _ | .table _ => none

/-- The table whose privilege is checked, and the privilege. -/
def extractDmlTableAndPrivilege (session : SessionContext) :
    SqlStatement → Option (String × String)
  | .query (.mk _ _ body) => (extractFirstSelectTable session body).map (·, "SELECT")
  | .insert table _ _ => some (qualifyTableName table.text session, "INSERT")
  | .update table _ _ _ => some (qualifyTableName table.relation.text session, "UPDATE")
  | .delete _ tables _ _ =>
    tables.head?.map (fun first => (qualifyTableName first.relation.text session, "DELETE"))
  | .truncate _ => none

/-! ### Execution -/

/-- How the five paths execute a statement.  The second and the fourth may decline it. -/
structure QueryPaths where
  executeInsertSelect : SessionContext → SqlStatement → EngineOp (List Row)
  tryExecuteIndexedSelect : SessionContext → SqlStatement → EngineOp (Option (List Row))
  executeMetadataQuery : SessionContext → SqlStatement → EngineOp (List Row)
  tryExecuteDistributedSelect : SessionContext → SqlStatement → EngineOp (Option (List Row))
  executeDataFusion : SessionContext → SqlStatement → EngineOp (List Row)

/-- The result of the first operation, or of the second when the first declines. -/
def orElseExecute (first : EngineOp (Option (List Row))) (second : EngineOp (List Row)) :
    EngineOp (List Row) := do
  match ← first with
  | some rows => return rows
  | none => second

section

variable (o : Outside) (paths : QueryPaths) (session : SessionContext) (statement : SqlStatement)

/-- Check the privilege on the table extracted from the statement. -/
def checkExtracted : EngineOp Unit :=
  match extractDmlTableAndPrivilege session statement with
  | some (tableName, privilege) => onWorld (checkTableAccess o session tableName privilege)
  | none => pure ()

/-- The last path. -/
def executeChecked : EngineOp (List Row) := do
  checkExtracted o session statement
  paths.executeDataFusion session statement

def executeUnindexed : EngineOp (List Row) :=
  if statement.parseMetadata then
    paths.executeMetadataQuery session statement
  else if statement.parsePlainSelectTable.isSome then
    orElseExecute (paths.tryExecuteDistributedSelect session statement)
      (executeChecked o paths session statement)
  else
    executeChecked o paths session statement

def executeQueryInner : EngineOp (List Row) :=
  if statement.parseInsertSelect then
    paths.executeInsertSelect session statement
  else if statement.parseIndexedSelect then
    orElseExecute (paths.tryExecuteIndexedSelect session statement)
      (executeUnindexed o paths session statement)
  else
    executeUnindexed o paths session statement

end

/-! ### Complete authorization -/

/-- A name denotes a table of the catalogue with this key. -/
def DenotesManaged (session : SessionContext) (w : World) (name : ObjectName) (key : String) :
    Prop :=
  name.resolve session = some key
    ∧ ∃ relation, w.catalog.relations[key]? = some relation ∧ relation.kind = .table

/-- The statement reads a table on which the role of the session has neither `SELECT` nor `ALL`,
or modifies one on which it has neither the privilege for that nor `ALL`. -/
def LacksPrivilege (session : SessionContext) (statement : SqlStatement) (w : World) : Prop :=
  (∃ name ∈ statement.tablesRead, ∃ key, DenotesManaged session w name key
      ∧ ¬ Covers w session.role key "SELECT")
    ∨ ∃ name ∈ statement.tablesModified, ∃ key, DenotesManaged session w name key
        ∧ ¬ Covers w session.role key statement.privilege

/-- The tables are as they were: the same catalogue and the same objects. -/
def TablesUnchanged (s s' : EngineState) : Prop :=
  s'.world.catalog = s.world.catalog ∧ s'.world.store = s.world.store

/-- However the paths execute it, a statement without the privileges it needs fails and changes
no table. -/
def Authorized (o : Outside) (session : SessionContext) (statement : SqlStatement)
    (s : EngineState) : Prop :=
  ∀ paths, LacksPrivilege session statement s.world →
    (∃ e, (Eff.exec (executeQueryInner o paths session statement) s).1 = .error e)
      ∧ TablesUnchanged s (Eff.exec (executeQueryInner o paths session statement) s).2

/-- No path before the last takes the statement. -/
def ReachesCheck (statement : SqlStatement) : Prop :=
  statement.parseInsertSelect = false ∧ statement.parseMetadata = false
    ∧ statement.parsePlainSelectTable = none

/-- The check of the one table extracted from the statement fails: there is one, and the catalogue
cannot be read, or no row covers its privilege. -/
def CheckFails (o : Outside) (session : SessionContext) (statement : SqlStatement) (w : World) :
    Prop :=
  ∃ tableName privilege,
    extractDmlTableAndPrivilege session statement = some (tableName, privilege)
      ∧ ¬ (o.saveError w.calls = none ∧ Covers w session.role tableName privilege)

section

open Eff

variable {o : Outside} {session : SessionContext} {statement : SqlStatement} {s : EngineState}

/-- A SELECT that an index may answer is one of a single table. -/
theorem not_parseIndexedSelect (h : statement.parsePlainSelectTable = none) :
  statement.parseIndexedSelect = false
  := by
  unfold SqlStatement.parseIndexedSelect
  split
  · rw [h]
    rfl
  · rfl

theorem executeQueryInner_of_reachesCheck (h : ReachesCheck statement) (paths : QueryPaths) :
  executeQueryInner o paths session statement = executeChecked o paths session statement
  := by
  obtain ⟨hinsert, hmetadata, hplain⟩ := h
  have hindexed := not_parseIndexedSelect hplain
  simp [executeQueryInner, executeUnindexed, hinsert, hindexed, hmetadata, hplain]

theorem after_checkPrivilege_unchanged (tableName privilege : String) (w : World) :
  After (checkPrivilege o session.role "table" tableName privilege) w (fun _ w' =>
    w'.catalog = w.catalog ∧ w'.store = w.store)
  := by
  unfold checkPrivilege
  split
  · simp only [catalogCall, after_bind, after_outsideCall, resume_ok]
    cases o.saveError w.calls with
    | none => exact ⟨rfl, rfl⟩
    | some message => exact ⟨rfl, rfl⟩
  · exact ⟨rfl, rfl⟩

theorem after_checkTableAccess_unchanged (tableName privilege : String) (w : World) :
  After (checkTableAccess o session tableName privilege) w (fun _ w' =>
    w'.catalog = w.catalog ∧ w'.store = w.store)
  := by
  simp only [checkTableAccess, after_bind, after_readState, resume_ok, after_ite, after_pure]
  apply And.intro (fun _ => ⟨trivial, trivial⟩)
  intro _
  apply After.mono (after_checkPrivilege_unchanged tableName privilege w)
  intro r w' hsame
  cases r with
  | error e => exact hsame
  | ok granted =>
      simp only [resume_ok, after_ite, after_pure, after_bail]
      exact ⟨fun _ => hsame, fun _ => hsame⟩

/-- A statement whose check fails is not executed. -/
theorem executeChecked_of_checkFails (hstores : o.storesGrants = true)
    (hadmin : userIsAdmin s.world.catalog session.user = false)
    (hfails : CheckFails o session statement s.world) (paths : QueryPaths) :
  (∃ e, (exec (executeChecked o paths session statement) s).1 = .error e)
    ∧ TablesUnchanged s (exec (executeChecked o paths session statement) s).2
  := by
  obtain ⟨tableName, privilege, hextract, hdenied⟩ := hfails
  replace hdenied := mt (checkTableAccess_ok_iff hstores hadmin).mp hdenied
  have hsame : After (checkTableAccess o session tableName privilege) s.world (fun _ w' =>
      w'.catalog = s.world.catalog ∧ w'.store = s.world.store) :=
    after_checkTableAccess_unchanged tableName privilege s.world
  rw [executeChecked, checkExtracted, hextract, exec_bind]
  dsimp only [onWorld]
  rw [exec_zoom]
  cases hresult : (exec (checkTableAccess o session tableName privilege) s.world).1 with
  | ok _ => exact absurd hresult hdenied
  | error e => exact ⟨⟨e, rfl⟩, hsame⟩

/-- Paths that answer every statement. -/
def answeringPaths : QueryPaths :=
  { executeInsertSelect := fun _ _ => pure []
    tryExecuteIndexedSelect := fun _ _ => pure (some [])
    executeMetadataQuery := fun _ _ => pure []
    tryExecuteDistributedSelect := fun _ _ => pure (some [])
    executeDataFusion := fun _ _ => pure [] }

/-- A statement that an earlier path takes, or whose check does not fail, may be answered. -/
theorem executeQueryInner_answers (hstores : o.storesGrants = true)
    (hadmin : userIsAdmin s.world.catalog session.user = false)
    (h : ¬ (ReachesCheck statement ∧ CheckFails o session statement s.world)) :
  (exec (executeQueryInner o answeringPaths session statement) s).1 = .ok []
  := by
  have hchecked : ReachesCheck statement →
      (exec (executeChecked o answeringPaths session statement) s).1 = .ok [] := by
    intro hreaches
    rw [executeChecked, checkExtracted, exec_bind]
    cases hextract : extractDmlTableAndPrivilege session statement with
    | none => rfl
    | some extracted =>
        obtain ⟨tableName, privilege⟩ := extracted
        have hok : (exec (checkTableAccess o session tableName privilege) s.world).1 = .ok () := by
          rw [checkTableAccess_ok_iff hstores hadmin]
          by_contra hdenied
          exact h ⟨hreaches, tableName, privilege, hextract, hdenied⟩
        dsimp only [onWorld]
        rw [exec_zoom, hok]
        rfl
  unfold executeQueryInner executeUnindexed
  by_cases hinsert : statement.parseInsertSelect = true
  · rw [if_pos hinsert]
    rfl
  · rw [if_neg hinsert]
    by_cases hindexed : statement.parseIndexedSelect = true
    · rw [if_pos hindexed]
      rfl
    · rw [if_neg hindexed]
      by_cases hmetadata : statement.parseMetadata = true
      · rw [if_pos hmetadata]
        rfl
      · rw [if_neg hmetadata]
        by_cases hplain : statement.parsePlainSelectTable.isSome = true
        · rw [if_pos hplain]
          rfl
        · rw [if_neg hplain]
          apply hchecked
          exact ⟨Bool.eq_false_iff.mpr hinsert, Bool.eq_false_iff.mpr hmetadata,
            Option.not_isSome_iff_eq_none.mp hplain⟩

end

/-! ### A reader without grants -/

/-- A new installation with a table `t`. -/
def ungrantedEngine : EngineState :=
  { world := (sampleStep (.createTable none none "t"
      (.createTable [⟨"k", "INT", true, none⟩] [])) World.bootstrap).2
    fileListCache := .new }

/-- The table is there, nothing is granted, and the reader is no administrator. -/
theorem ungrantedEngine_state :
  (ungrantedEngine.world.catalog.relations["postgres.public.t"]?).map (·.kind) = some .table
    ∧ ungrantedEngine.world.permissions = []
    ∧ userIsAdmin ungrantedEngine.world.catalog readerSession.user = false
  := by decide +kernel

theorem ungrantedEngine_lacks {statement : SqlStatement}
    (h : ["t"] ∈ statement.tablesRead ∨ ["t"] ∈ statement.tablesModified) :
  LacksPrivilege readerSession statement ungrantedEngine.world
  := by
  have htable : DenotesManaged readerSession ungrantedEngine.world ["t"] "postgres.public.t" := by
    apply And.intro (by decide)
    exact Option.map_eq_some_iff.mp ungrantedEngine_state.1
  have hrows : ungrantedEngine.world.permissions = [] := ungrantedEngine_state.2.1
  have hnone : ∀ privilege, ¬ Covers ungrantedEngine.world readerSession.role
      "postgres.public.t" privilege := by
    intro privilege
    simp [Covers, hrows]
  obtain hread | hmodified := h
  · exact .inl ⟨["t"], hread, _, htable, hnone _⟩
  · exact .inr ⟨["t"], hmodified, _, htable, hnone _⟩

/-- `SELECT * FROM t JOIN u`. -/
def selectJoin : SqlStatement :=
  .query (.mk false [] (.select [.mk (.table ["t"] none) [.table ["u"] none]] [] false))

/-- Paths on which a TRUNCATE is executed as a metadata statement. -/
def truncatingPaths : QueryPaths :=
  { answeringPaths with
    executeMetadataQuery := fun session statement => match statement with
      | .truncate ([name] :: _) => do
        let _ ← onWorld (executeTruncate sampleOutside
          (DataFusion.faultless (fun _ _ => .ok none)) session none none name)
        return []
      | _ => onWorld (bail "unsupported") }
