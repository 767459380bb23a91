import AnalyticsDB.Catalog.State
import AnalyticsDB.Lib.Tasks
import Mathlib

/-!
# Active queries

Any number of queries on one engine.  A query that is executed takes a permit, registers its
cancellation token under its id, and runs; a guard removes the entry of the id and gives the permit
back when it ends.  `KILL QUERY` cancels the token registered under an id.  A query whose result is
streamed does neither.

What is proved is that, as long as no query is streamed and none registers under the id of another
that runs, every query that runs can be killed under its id, one that ended has no entry, and no
more queries run than there are permits.
-/

/-- The registry of the active queries `ι` and the permits of an engine, with the tokens that are
cancelled.  Each query makes one token of its own. -/
structure QueryRegistry (ι : Type) where
  permits : Nat
  activeQueries : KeyMap ι
  cancelled : ι → Bool

/-- A query, by the step it takes next. -/
inductive QueryTask (ι : Type) where
  -- `execute_query_stream`, or else `execute_query`
  | called (streamed : Bool) (queryId : Option String)
  | tryAcquire (queryId admissionId : String)
  | register (queryId admissionId : String)
  -- with the tokens that were given to its workers
  | running (queryId admissionId : String) (legs : List (Option ι))
  | streaming (queryId admissionId : String) (legs : List (Option ι))
  -- the guard is dropped
  | remove (queryId : String)
  | release
  | ended
  | failed (message : String)

/-- What happens to a query next: it is admitted or refused, and while it runs it sends work to the
workers, executes `KILL QUERY`, reaches its timeout, or is done, fails or is given up. -/
inductive QueryEvent where
  | admitted (admissionId : String)
  | refused (message : String)
  | dispatch
  | kill (queryId : String)
  | timeout
  | done

section

variable {ι : Type} [DecidableEq ι]

namespace QueryRegistry

/-- Cancel the token of a query. -/
def cancel (i : ι) (s : QueryRegistry ι) : QueryRegistry ι :=
  { s with cancelled := Function.update s.cancelled i true }

/-- `KILL QUERY`. -/
def killQuery (queryId : String) (s : QueryRegistry ι) : QueryRegistry ι × Except String String :=
  match s.activeQueries[queryId]? with
  | some i => (s.cancel i, .ok s!"Query '{queryId}' cancelled.")
  | none => (s, .error s!"No active query with id '{queryId}'")

end QueryRegistry

/-- A step of a query. -/
def queryMove (event : QueryEvent) (i : ι) (s : QueryRegistry ι) :
    QueryTask ι → QueryRegistry ι × QueryTask ι
  | .called streamed queryId =>
    match event with
    | .admitted admissionId =>
      if streamed then (s, .streaming (queryId.getD admissionId) admissionId [])
      else (s, .tryAcquire (queryId.getD admissionId) admissionId)
    | .refused message => (s, .failed message)
    | _ => (s, .called streamed queryId)
  | .tryAcquire queryId admissionId =>
    match s.permits with
    | 0 => (s, .failed "Server is at maximum query concurrency (true active); try again later")
    | permits + 1 => ({ s with permits := permits }, .register queryId admissionId)
  | .register queryId admissionId =>
    ({ s with activeQueries := s.activeQueries.insert queryId i }, .running queryId admissionId [])
  | .running queryId admissionId legs =>
    match event with
    -- the workers get the token registered under the id of the admission, or one of their own
    | .dispatch => (s, .running queryId admissionId (s.activeQueries[admissionId]? :: legs))
    | .kill killed => ((s.killQuery killed).1, .running queryId admissionId legs)
    | .timeout => (s.cancel i, .remove queryId)
    | .done => (s, .remove queryId)
    | _ => (s, .running queryId admissionId legs)
  | .streaming queryId admissionId legs =>
    match event with
    | .dispatch => (s, .streaming queryId admissionId (s.activeQueries[admissionId]? :: legs))
    | .kill killed => ((s.killQuery killed).1, .streaming queryId admissionId legs)
    | .done => (s, .ended)
    | _ => (s, .streaming queryId admissionId legs)
  | .remove queryId => ({ s with activeQueries := s.activeQueries.erase queryId }, .release)
  | .release => ({ s with permits := s.permits + 1 }, .ended)
  | .ended => (s, .ended)
  | .failed message => (s, .failed message)

/-- The queries of an engine. -/
abbrev QuerySystem (ι : Type) := Tasks.System ι (QueryRegistry ι) (QueryTask ι)

/-- No query has taken a step, and all permits are free. -/
structure QuerySystem.Started (limit : Nat) (s : QuerySystem ι) : Prop where
  permits : s.shared.permits = limit
  activeQueries : s.shared.activeQueries = ∅
  task : ∀ i, ∃ streamed queryId, s.task i = .called streamed queryId

/-- A query takes its next step. -/
def QuerySystem.perform (call : ι × QueryEvent) (s : QuerySystem ι) : QuerySystem ι :=
  Tasks.perform queryMove call s

/-- The id of a query that executes, and the tokens it gave to its workers. -/
def QueryTask.executes : QueryTask ι → Option (String × List (Option ι))
  | .running queryId _ legs | .streaming queryId _ legs => some (queryId, legs)
  | _ => none

/-- The id a query has registered its token under. -/
def QueryTask.entry : QueryTask ι → Option String
  | .running queryId _ _ | .remove queryId => some queryId
  | _ => none

/-- A query holds a permit. -/
def QueryTask.holdsPermit : QueryTask ι → Bool
  | .register .. | .running .. | .remove _ | .release => true
  | _ => false

/-- The workers of a query that runs have its own token. -/
def QueryTask.OwnLegs (i : ι) (task : QueryTask ι) : Prop :=
  ∀ queryId admissionId legs, task = .running queryId admissionId legs → ∀ leg ∈ legs, leg = some i

/-- The result of a query is being streamed. -/
def QueryTask.Streams (task : QueryTask ι) : Prop :=
  ∃ queryId admissionId legs, task = .streaming queryId admissionId legs

/-- No query is streamed, none registers under an id that another has, and none that the client
gave an id sends work to the workers. -/
def QuerySystem.allows (call : ι × QueryEvent) (s : QuerySystem ι) : Bool :=
  match s.task call.1, call.2 with
  | .called streamed _, _ => !streamed
  | .register queryId _, _ => !s.shared.activeQueries.contains queryId
  | .running queryId admissionId _, .dispatch => queryId = admissionId
  | _, _ => true

/-- The systems reached from one that has just started by steps that are allowed. -/
def QuerySystem.Reached (limit : Nat) (allowed : ι × QueryEvent → QuerySystem ι → Prop) :
    QuerySystem ι → Prop :=
  Run.Reachable (Started limit) (Run.byOps perform allowed)

/-- The token of every query that executes is registered under its id, and its workers have it; so
`KILL QUERY` cancels it.  Every token registered is that of a query that runs or whose guard is
being dropped.  No more queries execute than the limit allows. -/
structure QuerySystem.Controlled (limit : Nat) (s : QuerySystem ι) : Prop where
  registered : ∀ i queryId legs, (s.task i).executes = some (queryId, legs) →
    s.shared.activeQueries[queryId]? = some i ∧ ∀ leg ∈ legs, leg = some i
  killed : ∀ i queryId legs, (s.task i).executes = some (queryId, legs) →
    s.shared.killQuery queryId = (s.shared.cancel i, .ok s!"Query '{queryId}' cancelled.")
  removed : ∀ queryId i, s.shared.activeQueries[queryId]? = some i →
    (s.task i).entry = some queryId
  limited : ∀ executing : Finset ι, (∀ i ∈ executing, (s.task i).executes.isSome) →
    executing.card ≤ limit

/-! ### What one step can do -/

section

variable {event : QueryEvent} {i : ι} {s : QueryRegistry ι} {task : QueryTask ι}

@[simp]
theorem QueryRegistry.killQuery_activeQueries (queryId : String) :
  (s.killQuery queryId).1.activeQueries = s.activeQueries
  := by
  unfold killQuery
  split
  · rfl
  · rfl

@[simp]
theorem QueryRegistry.killQuery_permits (queryId : String) :
  (s.killQuery queryId).1.permits = s.permits
  := by
  unfold killQuery
  split
  · rfl
  · rfl

/-- Only a query that registers or whose guard is dropped changes the registry. -/
theorem queryMove_registry (hregister : ∀ queryId admissionId, task ≠ .register queryId admissionId)
    (hremove : ∀ queryId, task ≠ .remove queryId) :
  (queryMove event i s task).1.activeQueries = s.activeQueries
    ∧ (queryMove event i s task).2.entry = task.entry
  := by
  fun_cases queryMove event i s task
  case case7 queryId admissionId => exact absurd rfl (hregister queryId admissionId)
  case case17 queryId => exact absurd rfl (hremove queryId)
  all_goals simp [QueryTask.entry, QueryRegistry.cancel]

/-- The tokens the workers of a query have were there, or one is that registered under the id of
the admission. -/
theorem queryMove_running {queryId admissionId : String} {legs : List (Option ι)}
    (h : (queryMove event i s task).2 = .running queryId admissionId legs) :
  task = .running queryId admissionId legs
    ∨ task = .register queryId admissionId ∧ legs = []
    ∨ ∃ before, task = .running queryId admissionId before ∧ event = .dispatch
        ∧ legs = s.activeQueries[admissionId]? :: before
  := by
  fun_cases queryMove event i s task
  case case8 =>
    cases h
    exact .inr (.inr ⟨_, rfl, rfl, rfl⟩)
  all_goals simp_all [queryMove]

/-- A query that takes a permit takes one that is free, and one that gives a permit back held
it. -/
theorem queryMove_permits :
  ((queryMove event i s task).1.permits = s.permits
      ∧ ((queryMove event i s task).2.holdsPermit = true → task.holdsPermit = true))
    ∨ s.permits = (queryMove event i s task).1.permits + 1
    ∨ (queryMove event i s task).1.permits = s.permits + 1 ∧ task.holdsPermit = true
      ∧ (queryMove event i s task).2.holdsPermit = false
  := by
  fun_cases queryMove event i s task
  case case6 queryId admissionId permits hpermits => exact .inr (.inl hpermits)
  case case18 => exact .inr (.inr ⟨rfl, rfl, rfl⟩)
  all_goals
    left
    simp [QueryTask.holdsPermit, QueryRegistry.cancel]

/-- A query that is streamed was called so. -/
theorem queryMove_streams (h : (queryMove event i s task).2.Streams) :
  task.Streams ∨ ∃ queryId, task = .called true queryId
  := by
  fun_cases queryMove event i s task
  all_goals simp_all [queryMove, QueryTask.Streams]

end

/-! ### The run of the queries -/

section

variable {limit : Nat} {s : QuerySystem ι} (call : ι × QueryEvent)

/-- A query that has an entry is registered under it, and every entry is one of these; its workers
have its token; no query is streamed; and there are as many permits as queries can hold. -/
structure QueryInvariant (limit : Nat) (s : QuerySystem ι) : Prop where
  entries : ∀ i queryId, (s.task i).entry = some queryId
    ↔ s.shared.activeQueries[queryId]? = some i
  legs : ∀ i, (s.task i).OwnLegs i
  buffered : ∀ i, ¬ (s.task i).Streams
  permits : s.Within (·.holdsPermit = true) s.shared.permits limit

omit [DecidableEq ι] in
theorem QueryInvariant.start (h : s.Started limit) : QueryInvariant limit s
  := by
  constructor
  · intro i queryId
    obtain ⟨streamed, called, htask⟩ := h.task i
    rw [htask, h.activeQueries]
    simp [QueryTask.entry]
  · intro i queryId admissionId legs hrunning
    obtain ⟨streamed, called, htask⟩ := h.task i
    rw [htask] at hrunning
    cases hrunning
  · rintro i ⟨queryId, admissionId, legs, hstreaming⟩
    obtain ⟨streamed, called, htask⟩ := h.task i
    rw [htask] at hstreaming
    cases hstreaming
  · intro holders hholders
    have hnone : holders = ∅ := by
      apply Finset.eq_empty_of_forall_notMem
      intro i hi
      obtain ⟨streamed, called, htask⟩ := h.task i
      have hholds := hholders i hi
      rw [htask] at hholds
      cases hholds
    rw [hnone, h.permits]
    simp

/-- A query that registers gets the entry of its id, which none had. -/
theorem QueryInvariant.entries_register (h : QueryInvariant limit s) {j : ι}
    {registering admissionId : String} (htask : s.task j = .register registering admissionId)
    (hfree : s.shared.activeQueries.contains registering = false) (i : ι) (queryId : String) :
  ((s.after j ({ s.shared with activeQueries := s.shared.activeQueries.insert registering j },
      .running registering admissionId [])).task i).entry = some queryId
    ↔ (s.shared.activeQueries.insert registering j)[queryId]? = some i
  := by
  have hnone := KeyMap.get_eq_none _ hfree
  rw [KeyMap.get_insert]
  by_cases hi : i = j
  · subst hi
    rw [Tasks.System.after_task_self]
    split
    · rename_i hid
      simp [QueryTask.entry, hid]
    · rename_i hid
      rw [← h.entries, htask]
      simp [QueryTask.entry, hid]
  · rw [Tasks.System.after_task_other _ _ hi]
    split
    · rename_i hid
      rw [h.entries, ← hid, hnone]
      simp [Ne.symm hi]
    · exact h.entries i queryId

/-- A query whose guard is dropped loses its entry, and no other does. -/
theorem QueryInvariant.entries_remove (h : QueryInvariant limit s) {j : ι} {removed : String}
    (htask : s.task j = .remove removed) (i : ι) (queryId : String) :
  ((s.after j ({ s.shared with activeQueries := s.shared.activeQueries.erase removed },
      .release)).task i).entry = some queryId
    ↔ (s.shared.activeQueries.erase removed)[queryId]? = some i
  := by
  have hentry : s.shared.activeQueries[removed]? = some j := (h.entries j removed).mp (by
    rw [htask]
    rfl)
  rw [KeyMap.get_erase]
  by_cases hi : i = j
  · subst hi
    rw [Tasks.System.after_task_self]
    split
    · simp [QueryTask.entry]
    · rename_i hid
      rw [← h.entries, htask]
      simp [QueryTask.entry, hid]
  · rw [Tasks.System.after_task_other _ _ hi]
    split
    · rename_i hid
      rw [h.entries, ← hid, hentry]
      simp [Ne.symm hi]
    · exact h.entries i queryId

/-- The queries that have an entry stay those that are registered. -/
theorem QueryInvariant.entries_perform (h : QueryInvariant limit s)
    (hallows : s.allows call = true) (i : ι) (queryId : String) :
  ((s.perform call).task i).entry = some queryId
    ↔ (s.perform call).shared.activeQueries[queryId]? = some i
  := by
  obtain ⟨j, event⟩ := call
  have hkept : (∀ queryId admissionId, s.task j ≠ .register queryId admissionId) →
      (∀ queryId, s.task j ≠ .remove queryId) →
      (((s.perform (j, event)).task i).entry = some queryId
        ↔ (s.perform (j, event)).shared.activeQueries[queryId]? = some i) := by
    intro hregister hremove
    have hsame := @queryMove_registry _ _ event j s.shared _ hregister hremove
    rw [QuerySystem.perform, Tasks.perform, Tasks.System.after_shared, hsame.1, ← h.entries]
    by_cases hi : i = j
    · subst hi
      rw [Tasks.System.after_task_self, hsame.2]
    · rw [Tasks.System.after_task_other _ _ hi]
  cases htask : s.task j with
  | register registering admissionId =>
      simp only [QuerySystem.allows, htask, Bool.not_eq_true'] at hallows
      rw [QuerySystem.perform, Tasks.perform, htask]
      exact h.entries_register htask hallows i queryId
  | remove removed =>
      rw [QuerySystem.perform, Tasks.perform, htask]
      exact h.entries_remove htask i queryId
  | _ => exact hkept (by simp [htask]) (by simp [htask])

/-- An allowed step of a query keeps the invariant. -/
theorem QueryInvariant.perform (h : QueryInvariant limit s) (hallows : s.allows call = true) :
  QueryInvariant limit (s.perform call)
  := by
  constructor
  · exact h.entries_perform call hallows
  · obtain ⟨j, event⟩ := call
    apply Tasks.System.forall_after QueryTask.OwnLegs
    · intro queryId admissionId legs hrunning
      rcases queryMove_running hrunning with htask | ⟨-, rfl⟩ | ⟨before, htask, rfl, rfl⟩
      · exact h.legs j queryId admissionId legs htask
      · simp
      · -- the token of the admission is that of the query, which has no other id
        have hid : queryId = admissionId := by
          simpa [QuerySystem.allows, htask] using hallows
        have hentry : (s.task j).entry = some admissionId := by
          rw [htask, ← hid]
          rfl
        rw [(h.entries j admissionId).mp hentry]
        intro leg hleg
        rcases List.mem_cons.mp hleg with rfl | hleg
        · rfl
        · exact h.legs j queryId admissionId before htask leg hleg
    · intro i _
      exact h.legs i
  · obtain ⟨j, event⟩ := call
    apply Tasks.System.forall_after (fun (_ : ι) (task : QueryTask ι) => ¬ task.Streams)
    · intro hstreams
      rcases queryMove_streams hstreams with hstreams | ⟨queryId, htask⟩
      · exact h.buffered j hstreams
      · simp [QuerySystem.allows, htask] at hallows
    · intro i _
      exact h.buffered i
  · obtain ⟨j, event⟩ := call
    have hpermits := h.permits
    rw [QuerySystem.perform, Tasks.perform, Tasks.System.after_shared]
    rcases @queryMove_permits _ _ event j s.shared (s.task j) with
      ⟨hsame, hholds⟩ | htaken | ⟨hgiven, hheld, hfree⟩
    · rw [hsame]
      exact hpermits.keep hholds
    · rw [htaken] at hpermits
      exact hpermits.take
    · rw [hgiven]
      exact hpermits.give hheld (by simp [hfree])

omit [DecidableEq ι] in
/-- A query that executes and is not streamed runs. -/
theorem QueryInvariant.running_of_executes (h : QueryInvariant limit s) {i : ι} {queryId : String}
    {legs : List (Option ι)} (hexecutes : (s.task i).executes = some (queryId, legs)) :
  ∃ admissionId, s.task i = .running queryId admissionId legs
  := by
  cases htask : s.task i with
  | running queryId' admissionId legs' =>
      rw [htask] at hexecutes
      cases hexecutes
      exact ⟨admissionId, rfl⟩
  | streaming queryId' admissionId legs' => exact (h.buffered i ⟨_, _, _, htask⟩).elim
  | _ =>
      rw [htask] at hexecutes
      cases hexecutes

theorem QueryInvariant.controlled (h : QueryInvariant limit s) :
  s.Controlled limit
  := by
  have hregistered : ∀ i queryId legs, (s.task i).executes = some (queryId, legs) →
      s.shared.activeQueries[queryId]? = some i ∧ ∀ leg ∈ legs, leg = some i := by
    intro i queryId legs hexecutes
    obtain ⟨admissionId, htask⟩ := h.running_of_executes hexecutes
    refine ⟨(h.entries i queryId).mp ?_, h.legs i queryId admissionId legs htask⟩
    rw [htask]
    rfl
  constructor
  · exact hregistered
  · intro i queryId legs hexecutes
    rw [QueryRegistry.killQuery, (hregistered i queryId legs hexecutes).1]
  · intro queryId i hactive
    exact (h.entries i queryId).mpr hactive
  · intro executing hall
    have hwithin := h.permits executing (by
      intro i hi
      obtain ⟨⟨queryId, legs⟩, hexecutes⟩ := Option.isSome_iff_exists.mp (hall i hi)
      obtain ⟨admissionId, htask⟩ := h.running_of_executes hexecutes
      rw [htask]
      rfl)
    exact (Nat.le_add_right _ _).trans hwithin

/-- In every system reached by allowed steps of any number of queries, every query that executes
can be killed under its id, every token registered is that of such a query, and no more queries
execute than the limit allows. -/
theorem reached_controlled (h : s.Reached limit (fun call s => s.allows call = true)) :
  s.Controlled limit
  := by
  apply QueryInvariant.controlled
  refine Run.Reachable.invariant (P := QueryInvariant limit) ?_ ?_ h
  · intro s hstarted
    exact .start hstarted
  · rintro s _ hinv ⟨call, hallows, rfl⟩
    exact hinv.perform call hallows

end

end

/-! ### Two queries -/

section

/-- There are queries. -/
local instance twoQueries : NeZero 2 := ⟨Nat.succ_ne_zero 1⟩

/-- Two queries, called so. -/
def sampleQueries (limit : Nat) (first second : QueryTask (Fin 2)) : QuerySystem (Fin 2) :=
  { shared :=
      { permits := limit
        activeQueries := ∅
        cancelled := fun _ => false }
    task := fun i => if i = 0 then first else second }

/-- A query is admitted, takes a permit and registers. -/
def starts (i : Fin 2) (admissionId : String) : List (Fin 2 × QueryEvent) :=
  List.replicate 3 (i, .admitted admissionId)

theorem sampleQueries_reached {limit : Nat} {streamed streamed' : Bool}
    {queryId queryId' : Option String} {allowed : Fin 2 × QueryEvent → QuerySystem (Fin 2) → Prop}
    (calls : List (Fin 2 × QueryEvent))
    (h : Run.AllAllowed QuerySystem.perform allowed calls
      (sampleQueries limit (.called streamed queryId) (.called streamed' queryId'))) :
  (Run.performAll QuerySystem.perform calls
    (sampleQueries limit (.called streamed queryId) (.called streamed' queryId'))).Reached limit
      allowed
  := by
  apply (Run.Reachable.start _).performAll h
  refine ⟨rfl, rfl, ?_⟩
  intro i
  match i with
  | 0 => exact ⟨streamed, queryId, rfl⟩
  | 1 => exact ⟨streamed', queryId', rfl⟩

/-- One query sends work to its workers, and the other kills it. -/
def killedQuery : QuerySystem (Fin 2) :=
  Run.performAll QuerySystem.perform
    (starts 0 "q-1" ++ starts 1 "q-2" ++ [(0, .dispatch), (1, .kill "q-1")])
    (sampleQueries 2 (.called false none) (.called false (some "x")))

theorem reached_controlled_killed :
  killedQuery.Controlled 2 ∧ killedQuery.shared.cancelled 0 = true
    ∧ killedQuery.task 0 = .running "q-1" "q-1" [some 0]
  := by
  refine ⟨?_, by decide, by rfl⟩
  exact reached_controlled (sampleQueries_reached _ (by decide))

/-- Two queries of one id, one of which is done. -/
def sameIds : QuerySystem (Fin 2) :=
  Run.performAll QuerySystem.perform
    (starts 0 "q-1" ++ starts 1 "q-2" ++ [(0, .done), (0, .done)])
    (sampleQueries 2 (.called false (some "x")) (.called false (some "x")))

/-- Two queries whose results are streamed, where one permit is there. -/
def streamedQueries : QuerySystem (Fin 2) :=
  Run.performAll QuerySystem.perform [(0, .admitted "q-1"), (1, .admitted "q-2")]
    (sampleQueries 1 (.called true none) (.called true none))

/-- A query that runs under the id of one that is done cannot be killed; two queries are streamed
though one may execute. -/
theorem reached_not_controlled :
  (sameIds.Reached 2 (fun _ _ => True) ∧ ¬ sameIds.Controlled 2)
    ∧ streamedQueries.Reached 1 (fun _ _ => True) ∧ ¬ streamedQueries.Controlled 1
  := by
  refine ⟨⟨?_, ?_⟩, ?_, ?_⟩
  · exact sampleQueries_reached _ (Run.allAllowed_true _ _)
  · intro h
    have hrunning : (sameIds.task 1).executes = some ("x", []) := by rfl
    have hnone : sameIds.shared.activeQueries["x"]? = none := by decide
    rw [(h.registered 1 "x" [] hrunning).1] at hnone
    cases hnone
  · exact sampleQueries_reached _ (Run.allAllowed_true _ _)
  · intro h
    have hcard := h.limited {0, 1} (by decide)
    exact absurd hcard (by decide)

end
