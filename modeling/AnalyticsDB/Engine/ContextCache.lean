import AnalyticsDB.Control.Statements
import AnalyticsDB.Lib.Tasks

/-!
# The cache of session contexts

A statement is planned in a DataFusion context, into which the databases of the catalogue are
registered when it is built.  The engine keeps the contexts it built, by session.  A call of
`create_session_context` looks the session up, reads the databases, and inserts the context it
built; a command changes the catalogue, and then clears the cache.  Any two of these steps of
different calls and commands may follow each other.

A call that starts after a command has cleared the cache must obtain a context built after the
command changed the catalogue.  It does, as long as no call inserts a context after a command
cleared the cache whose changes the context does not have.
-/

/-- A context, as far as it depends on the session and the catalogue: the session of its
providers, and the databases registered into it. -/
structure DfSessionContext where
  session : SessionContext
  databases : List String
  deriving DecidableEq

/-- The databases of the catalogue, for a session that is valid in it. -/
def listDatabases (state : CatalogState) (session : SessionContext) :
    Except String (List String) := do
  validateSession state session
  return state.databases.keys

/-- Build the context of a session: the databases that are there now, and only the session's own
when they cannot be listed. -/
def buildSessionContext (state : CatalogState) (session : SessionContext) : DfSessionContext :=
  { session := session
    databases := match listDatabases state session with
      | .ok databases => databases
      | .error _ => [session.database] }

/-- The text of a protocol in a key. -/
def Protocol.keyText : Protocol → String
  | .embedded => "embedded"
  | .postgreSql => "postgresql"
  | .arrowFlightSql => "flight-sql"

/-- The text of a transaction status in a key. -/
def TransactionStatus.debugText : TransactionStatus → String
  | .idle => "Idle"
  | .inTransaction => "InTransaction"
  | .aborted => "Aborted"

/-- The key under which the context of a session is kept. -/
def sessionContextCacheKey (session : SessionContext) : String :=
  "\u001f".intercalate
    [session.user, session.role, session.database, session.schema, session.authMethod,
      session.protocol.keyText, session.transactionStatus.debugText]

/-- What one write of a command does to the catalogue. -/
abbrev CatalogChange := CatalogState → CatalogState

/-- The cache and the catalogue.  The catalogue is what it was at first and the changes made since,
each with the command that made it. -/
structure SharedContexts (ι : Type) where
  cache : KeyMap DfSessionContext
  initial : CatalogState
  changes : List (ι × CatalogChange)

/-- A call of `create_session_context` or a command, by the step it takes next. -/
inductive ContextTask where
  -- `create_session_context`
  | lookUp (session : SessionContext)
  | build (session : SessionContext)
  -- the context, and the number of changes the catalogue had when its databases were listed
  | insert (session : SessionContext) (version : Nat) (context : DfSessionContext)
  | obtained (session : SessionContext) (result : Except String DfSessionContext)
  -- the changes a command has still to make, and `invalidate_session_contexts`
  | execute (edits : List CatalogChange)
  | invalidate
  | invalidated

namespace SharedContexts

variable {ι : Type}

/-- The catalogue after its first changes. -/
def catalogAt (s : SharedContexts ι) (version : Nat) : CatalogState :=
  (s.changes.take version).foldl (fun catalog change => change.2 catalog) s.initial

/-- The catalogue now. -/
def catalog (s : SharedContexts ι) : CatalogState := s.catalogAt s.changes.length

/-- The changes made since a version of the catalogue are those of other commands. -/
def Includes (s : SharedContexts ι) (i : ι) (version : Nat) : Prop :=
  version ≤ s.changes.length ∧ ∀ change ∈ s.changes.drop version, change.1 ≠ i

/-- A context with this key is built from a catalogue that has the changes of a command. -/
def BuiltAfter (s : SharedContexts ι) (i : ι) (key : String) (context : DfSessionContext) : Prop :=
  ∃ version session, sessionContextCacheKey session = key ∧ s.Includes i version
    ∧ context = buildSessionContext (s.catalogAt version) session

end SharedContexts

section

variable {ι : Type}

/-- One step of a call or a command.  `fault` is the error of building a runtime. -/
def contextMove (fault : Option String) (i : ι) (s : SharedContexts ι) :
    ContextTask → SharedContexts ι × ContextTask
  | .lookUp session =>
    match s.cache[sessionContextCacheKey session]? with
    | some context => (s, .obtained session (.ok context))
    | none => (s, .build session)
  | .build session =>
    match fault with
    | some e => (s, .obtained session (.error e))
    | none => (s, .insert session s.changes.length (buildSessionContext s.catalog session))
  | .insert session _ context =>
    ({ s with cache := s.cache.insert (sessionContextCacheKey session) context },
      .obtained session (.ok context))
  | .execute (edit :: edits) => ({ s with changes := s.changes ++ [(i, edit)] }, .execute edits)
  | .execute [] => (s, .invalidate)
  | .invalidate => ({ s with cache := ∅ }, .invalidated)
  | .obtained session result => (s, .obtained session result)
  | .invalidated => (s, .invalidated)

/-- The calls and commands with what they share. -/
abbrev ContextSystem (ι : Type) := Tasks.System ι (SharedContexts ι) ContextTask

/-- The engine was just started, and no call or command has taken a step. -/
structure ContextSystem.Started (s : ContextSystem ι) : Prop where
  cache : s.shared.cache = ∅
  changes : s.shared.changes = []
  task : ∀ i, (∃ session, s.task i = .lookUp session) ∨ ∃ edits, s.task i = .execute edits

/-- A context that is about to be inserted has the changes of every command that has cleared the
cache: the commands that changed the catalogue since its databases were listed have not. -/
def TimelyInsert (call : ι × Option String) (s : ContextSystem ι) : Prop :=
  match s.task call.1 with
  | .insert _ version _ =>
    ∀ change ∈ s.shared.changes.drop version, s.task change.1 ≠ .invalidated
  | _ => True

end

/-! ### What one step can do -/

section

variable {ι : Type} {fault : Option String} {i : ι} {s : SharedContexts ι} {task : ContextTask}

/-- The catalogue changes only by a command that has a change to make. -/
theorem contextMove_changes :
  (contextMove fault i s task).1.changes = s.changes
    ∨ ∃ edit edits, task = .execute (edit :: edits)
        ∧ (contextMove fault i s task).1.changes = s.changes ++ [(i, edit)]
  := by
  fun_cases contextMove fault i s task
  case case6 edit edits =>
    right
    exact ⟨edit, edits, rfl, rfl⟩
  all_goals
    left
    rfl

@[simp]
theorem contextMove_initial : (contextMove fault i s task).1.initial = s.initial
  := by
  fun_cases contextMove fault i s task <;> rfl

/-- A context in the cache was there before, or a call inserted it. -/
theorem contextMove_cache {key : String} {context : DfSessionContext}
    (h : (contextMove fault i s task).1.cache[key]? = some context) :
  s.cache[key]? = some context ∧ task ≠ .invalidate
    ∨ ∃ session version, task = .insert session version context
        ∧ sessionContextCacheKey session = key
  := by
  fun_cases contextMove fault i s task
  case case5 session version context' =>
    dsimp only [contextMove] at h
    rw [KeyMap.get_insert] at h
    by_cases hkey : sessionContextCacheKey session = key
    · rw [if_pos hkey] at h
      cases h
      right
      exact ⟨session, version, rfl, hkey⟩
    · rw [if_neg hkey] at h
      left
      exact ⟨h, nofun⟩
  case case8 => simp [contextMove] at h
  all_goals
    left
    constructor
    · simpa [contextMove, *] using h
    · exact nofun

/-- A context about to be inserted was built just now. -/
theorem contextMove_insert {session : SessionContext} {version : Nat} {context : DfSessionContext}
    (h : (contextMove fault i s task).2 = .insert session version context) :
  task = .build session ∧ version = s.changes.length
    ∧ context = buildSessionContext s.catalog session
    ∧ (contextMove fault i s task).1 = s
  := by
  fun_cases contextMove fault i s task
  case case4 session' =>
    cases h
    exact ⟨rfl, rfl, rfl, rfl⟩
  all_goals simp_all [contextMove]

/-- A call has the context that was cached, or the one it inserted. -/
theorem contextMove_obtained {session : SessionContext} {context : DfSessionContext}
    (h : (contextMove fault i s task).2 = .obtained session (.ok context)) :
  task = .obtained session (.ok context)
    ∨ (∃ version, task = .insert session version context)
    ∨ task = .lookUp session ∧ s.cache[sessionContextCacheKey session]? = some context
  := by
  fun_cases contextMove fault i s task
  case case1 session' context' hhit =>
    simp only [contextMove, hhit] at h
    cases h
    exact .inr (.inr ⟨rfl, hhit⟩)
  case case5 session' version context' =>
    cases h
    exact .inr (.inl ⟨version, rfl⟩)
  all_goals simp_all [contextMove]

/-- A command has cleared the cache when it has just done so, or had before. -/
theorem contextMove_invalidated (h : (contextMove fault i s task).2 = .invalidated) :
  task = .invalidated ∨ task = .invalidate
  := by
  fun_cases contextMove fault i s task
  all_goals simp_all [contextMove]

end

/-! ### The run of the calls and commands -/

section

variable {ι : Type} {s : ContextSystem ι} {i j : ι} (call : ι × Option String)

/-- The context of a call about to insert it, and the contexts in the cache beside the commands
that have cleared it. -/
structure ContextInvariant (s : ContextSystem ι) : Prop where
  inserting : ∀ j session version context, s.task j = .insert session version context →
    version ≤ s.shared.changes.length
      ∧ context = buildSessionContext (s.shared.catalogAt version) session
  cached : ∀ i, s.task i = .invalidated → ∀ key context, s.shared.cache[key]? = some context →
    s.shared.BuiltAfter i key context

/-- What a call obtains that started after a command has cleared the cache. -/
structure ObtainsAfter (s : ContextSystem ι) (i j : ι) : Prop where
  invalidated : s.task i = .invalidated
  inserting : ∀ session version context, s.task j = .insert session version context →
    s.shared.BuiltAfter i (sessionContextCacheKey session) context
  obtained : ∀ session context, s.task j = .obtained session (.ok context) →
    s.shared.BuiltAfter i (sessionContextCacheKey session) context

theorem ContextInvariant.start (h : s.Started) : ContextInvariant s
  where
  inserting j session version context hj := by
    obtain ⟨session', hj'⟩ | ⟨edits, hj'⟩ := h.task j <;> simp [hj'] at hj
  cached i hi := by
    obtain ⟨session', hi'⟩ | ⟨edits, hi'⟩ := h.task i <;> simp [hi'] at hi

variable [DecidableEq ι]

/-- The steps of the calls and commands. -/
abbrev ContextSystem.perform (call : ι × Option String) (s : ContextSystem ι) : ContextSystem ι :=
  Tasks.perform contextMove call s

theorem ContextSystem.perform_task (j : ι) :
  (s.perform call).task j = s.task j
    ∨ j = call.1 ∧ (s.perform call).task j = (contextMove call.2 j s.shared (s.task j)).2
  := by
  by_cases hj : j = call.1
  · subst hj
    right
    exact ⟨rfl, Tasks.System.after_task_self ..⟩
  · left
    apply Tasks.System.after_task_other s _ hj

/-- The first changes of the catalogue stay what they are. -/
theorem ContextSystem.perform_catalogAt {version : Nat}
    (hversion : version ≤ s.shared.changes.length) :
  (s.perform call).shared.catalogAt version = s.shared.catalogAt version
  := by
  have hinitial : (s.perform call).shared.initial = s.shared.initial := contextMove_initial
  unfold SharedContexts.catalogAt
  rw [hinitial]
  obtain hsame | ⟨edit, edits, -, hgrown⟩ :=
    @contextMove_changes _ call.2 call.1 s.shared (s.task call.1)
  · rw [show (s.perform call).shared.changes = s.shared.changes from hsame]
  · rw [show (s.perform call).shared.changes = _ from hgrown, List.take_append_of_le_length
      hversion]

theorem ContextSystem.perform_length :
  s.shared.changes.length ≤ (s.perform call).shared.changes.length
  := by
  obtain hsame | ⟨edit, edits, -, hgrown⟩ :=
    @contextMove_changes _ call.2 call.1 s.shared (s.task call.1)
  · rw [show (s.perform call).shared.changes = s.shared.changes from hsame]
  · rw [show (s.perform call).shared.changes = _ from hgrown]
    simp

/-- A command that has cleared the cache changes nothing more. -/
theorem ContextSystem.perform_includes {version : Nat} (hi : s.task i = .invalidated)
    (h : s.shared.Includes i version) :
  (s.perform call).shared.Includes i version
  := by
  refine ⟨h.1.trans (perform_length call), ?_⟩
  obtain hsame | ⟨edit, edits, htask, hgrown⟩ :=
    @contextMove_changes _ call.2 call.1 s.shared (s.task call.1)
  · rw [show (s.perform call).shared.changes = s.shared.changes from hsame]
    exact h.2
  · rw [show (s.perform call).shared.changes = _ from hgrown, List.drop_append_of_le_length h.1]
    intro change hchange
    obtain hbefore | hnew := List.mem_append.mp hchange
    · exact h.2 change hbefore
    · rw [List.mem_singleton.mp hnew]
      rintro rfl
      rw [hi] at htask
      cases htask

theorem ContextSystem.perform_builtAfter {key : String} {context : DfSessionContext}
    (hi : s.task i = .invalidated) (h : s.shared.BuiltAfter i key context) :
  (s.perform call).shared.BuiltAfter i key context
  := by
  obtain ⟨version, session, hkey, hincludes, rfl⟩ := h
  refine ⟨version, session, hkey, perform_includes call hi hincludes, ?_⟩
  rw [perform_catalogAt call hincludes.1]

theorem ContextInvariant.perform (h : ContextInvariant s) (htimely : TimelyInsert call s) :
  ContextInvariant (s.perform call)
  where
  inserting j session version context hj := by
    obtain hsame | ⟨rfl, hmoved⟩ := ContextSystem.perform_task call j
    · obtain ⟨hversion, rfl⟩ := h.inserting j session version context (hsame ▸ hj)
      refine ⟨hversion.trans (ContextSystem.perform_length call), ?_⟩
      rw [ContextSystem.perform_catalogAt call hversion]
    · obtain ⟨-, rfl, rfl, -⟩ := contextMove_insert (hmoved ▸ hj)
      refine ⟨ContextSystem.perform_length call, ?_⟩
      rw [ContextSystem.perform_catalogAt call (Nat.le_refl _)]
      rfl
  cached i hi key context hcached := by
    have hcleared : s.task i = .invalidated ∨ i = call.1 ∧ s.task call.1 = .invalidate := by
      obtain hsame | ⟨rfl, hmoved⟩ := ContextSystem.perform_task call i
      · exact .inl (hsame ▸ hi)
      · obtain hdone | hnow := contextMove_invalidated (hmoved ▸ hi)
        · exact .inl hdone
        · exact .inr ⟨rfl, hnow⟩
    obtain ⟨hbefore, hnot⟩ | ⟨session, version, hinsert, rfl⟩ := contextMove_cache hcached
    · obtain hdone | ⟨-, hnow⟩ := hcleared
      · apply ContextSystem.perform_builtAfter call hdone
        apply h.cached i hdone key context hbefore
      · exact absurd hnow hnot
    · obtain hdone | ⟨-, hnow⟩ := hcleared
      · apply ContextSystem.perform_builtAfter call hdone
        obtain ⟨hversion, rfl⟩ := h.inserting _ session version context hinsert
        -- the commands whose changes are missing have not cleared the cache
        refine ⟨version, session, rfl, ⟨hversion, ?_⟩, rfl⟩
        rintro change hchange rfl
        unfold TimelyInsert at htimely
        rw [hinsert] at htimely
        exact htimely change hchange hdone
      · rw [hnow] at hinsert
        cases hinsert

theorem ObtainsAfter.perform (h : ObtainsAfter s i j) (hs : ContextInvariant s) :
  ObtainsAfter (s.perform call) i j
  where
  invalidated := by
    obtain hsame | ⟨-, hmoved⟩ := ContextSystem.perform_task call i
    · rw [hsame, h.invalidated]
    · rw [hmoved, h.invalidated]
      rfl
  inserting session version context hj := by
    apply ContextSystem.perform_builtAfter call h.invalidated
    obtain hsame | ⟨-, hmoved⟩ := ContextSystem.perform_task call j
    · apply h.inserting session version context (hsame ▸ hj)
    · obtain ⟨-, rfl, rfl, -⟩ := contextMove_insert (hmoved ▸ hj)
      refine ⟨_, session, rfl, ⟨Nat.le_refl _, ?_⟩, rfl⟩
      simp
  obtained session context hj := by
    apply ContextSystem.perform_builtAfter call h.invalidated
    obtain hsame | ⟨-, hmoved⟩ := ContextSystem.perform_task call j
    · apply h.obtained session context (hsame ▸ hj)
    · obtain hbefore | ⟨version, hinsert⟩ | ⟨-, hhit⟩ := contextMove_obtained (hmoved ▸ hj)
      · apply h.obtained session context hbefore
      · apply h.inserting session version context hinsert
      · apply hs.cached i h.invalidated _ context hhit

/-- The states reached by steps of the calls and commands, each allowed where it is taken. -/
abbrev ContextSystem.Reached (allowed : ι × Option String → ContextSystem ι → Prop)
    (init : ContextSystem ι → Prop) : ContextSystem ι → Prop :=
  Run.Reachable init (Tasks.Step contextMove allowed)

theorem ContextSystem.Reached.contextInvariant (h : Reached TimelyInsert Started s) :
  ContextInvariant s
  := by
  apply Run.Reachable.invariant _ _ h
  · intro s hs
    apply ContextInvariant.start hs
  · rintro s _ hs ⟨call, htimely, rfl⟩
    apply hs.perform call htimely

/-- A call that starts after a command has cleared the cache obtains a context built from a
catalogue with the changes of the command, when no call ever inserts a context that misses the
changes of a command that has cleared the cache. -/
theorem obtained_builtAfter_invalidated {s t : ContextSystem ι} {i j : ι}
    {session : SessionContext} {context : DfSessionContext}
    (hs : ContextSystem.Reached TimelyInsert ContextSystem.Started s)
    (hi : s.task i = .invalidated) (hj : s.task j = .lookUp session)
    (ht : ContextSystem.Reached TimelyInsert (· = s) t)
    (hcontext : t.task j = .obtained session (.ok context)) :
  t.shared.BuiltAfter i (sessionContextCacheKey session) context
  := by
  have hstart : ObtainsAfter s i j :=
    { invalidated := hi
      inserting := by simp [hj]
      obtained := by simp [hj] }
  have hobtains : ContextInvariant t ∧ ObtainsAfter t i j := by
    apply Run.Reachable.invariant _ _ ht
    · rintro _ rfl
      exact ⟨hs.contextInvariant, hstart⟩
    · rintro u _ ⟨hu, hobtains⟩ ⟨call, htimely, rfl⟩
      exact ⟨hu.perform call htimely, hobtains.perform call hu⟩
  apply hobtains.2.obtained session context hcontext

end

/-- The change of the catalogue by `CREATE DATABASE sales`. -/
def createSales : CatalogChange := fun catalog =>
  (Eff.exec (performOp Outside.faultless {} (.createDatabase "sales"))
    { World.bootstrap with catalog := catalog }).2.catalog

/-- Command `1` creates a database; the others are calls of one session. -/
def sampleCalls : ContextSystem Nat :=
  { shared :=
      { cache := ∅
        initial := World.bootstrap.catalog
        changes := [] }
    task := fun i => if i = 1 then .execute [createSales] else .lookUp {} }

theorem sampleCalls_started : sampleCalls.Started
  where
  cache := rfl
  changes := rfl
  task i := by
    by_cases h : i = 1
    · right
      exact ⟨_, if_pos h⟩
    · left
      exact ⟨{}, if_neg h⟩

/-- The system after these tasks took their steps, with no fault. -/
def afterCalls (turns : List Nat) (s : ContextSystem Nat) : ContextSystem Nat :=
  Run.performAll ContextSystem.perform (turns.map (·, none)) s

theorem afterCalls_reached {allowed : Nat × Option String → ContextSystem Nat → Prop}
    {init : ContextSystem Nat → Prop} {s : ContextSystem Nat} (turns : List Nat) (hs : init s)
    (h : Run.AllAllowed ContextSystem.perform allowed (turns.map (·, none)) s) :
  ContextSystem.Reached allowed init (afterCalls turns s)
  := (Run.Reachable.start hs).performAll h

theorem obtained_builtAfter_invalidated_created :
  (afterCalls [1, 1, 1] sampleCalls).task 1 = .invalidated
    ∧ ∃ context, (afterCalls [4, 4, 4] (afterCalls [1, 1, 1] sampleCalls)).task 4
        = .obtained {} (.ok context)
      ∧ "sales" ∈ context.databases
      ∧ (afterCalls [4, 4, 4] (afterCalls [1, 1, 1] sampleCalls)).shared.BuiltAfter 1
        (sessionContextCacheKey {}) context
  := by
  have hdone : (afterCalls [1, 1, 1] sampleCalls).task 1 = .invalidated := by rfl
  have hobtained : (afterCalls [4, 4, 4] (afterCalls [1, 1, 1] sampleCalls)).task 4
      = .obtained {} (.ok (buildSessionContext (createSales World.bootstrap.catalog) {})) := by
    rfl
  refine ⟨hdone, _, hobtained, by decide, ?_⟩
  apply obtained_builtAfter_invalidated (s := afterCalls [1, 1, 1] sampleCalls) (j := 4)
    _ hdone rfl _ hobtained
  · apply afterCalls_reached _ sampleCalls_started
    exact ⟨trivial, trivial, trivial, trivial⟩
  · apply afterCalls_reached
    · rfl
    · exact ⟨trivial, trivial, by rintro _ ⟨⟩, trivial⟩

/-- Call `2` lists the databases and stops.  Command `1` creates a database and clears the cache.
Then call `2` inserts its context, which call `3` obtains. -/
theorem obtained_built_before_invalidated :
  ¬ ∀ (s t : ContextSystem Nat) (i j : Nat) (session : SessionContext)
      (context : DfSessionContext),
    ContextSystem.Reached (fun _ _ => True) ContextSystem.Started s →
    s.task i = .invalidated → s.task j = .lookUp session →
    ContextSystem.Reached (fun _ _ => True) (· = s) t →
    t.task j = .obtained session (.ok context) →
    t.shared.BuiltAfter i (sessionContextCacheKey session) context
  := by
  intro h
  let s := afterCalls [2, 2, 1, 1, 1] sampleCalls
  obtain ⟨version, session, -, ⟨hversion, hincludes⟩, hcontext⟩ := h s (afterCalls [2, 3] s) 1 3 {}
    (buildSessionContext World.bootstrap.catalog {})
    (afterCalls_reached _ sampleCalls_started (Run.allAllowed_true _ _)) rfl rfl
    (@afterCalls_reached _ (· = s) s _ rfl (Run.allAllowed_true _ _)) rfl
  have hchanges : (afterCalls [2, 3] s).shared.changes = [(1, createSales)] := rfl
  rw [hchanges] at hversion hincludes
  -- Only the catalogue after the command has its change.
  have hone : version = 1 := by
    cases version with
    | zero => exact absurd rfl (hincludes _ List.mem_cons_self)
    | succ version =>
        simp only [List.length_cons, List.length_nil] at hversion
        omega
  subst hone
  have hsession : session = {} := (congrArg DfSessionContext.session hcontext).symm
  subst hsession
  have hcatalog : (afterCalls [2, 3] s).shared.catalogAt 1
      = createSales World.bootstrap.catalog := rfl
  rw [hcatalog] at hcontext
  revert hcontext
  decide
