import AnalyticsDB.Catalog.State
import AnalyticsDB.Lib.Tasks
import Mathlib

/-!
# Locks of relations

Several engines over one SQLite catalogue.  An operation that mutates a relation takes a lease of
the relation for its node, waits for the write guard of its engine, mutates, and drops the lock; a
background task then deletes the lease of the node.  The lease of a node is granted again to the
same node, and deleted by whichever of its operations is done first.

What is proved is that, within the time of the leases, the operations of two engines exclude each
other as long as no two of them hold a lease under one node id, and a lease is deleted only when
no operation holds it.
-/

/-- A row of `table_leases`. -/
structure Lease where
  holderNodeId : String
  expiresMs : Nat
  deriving DecidableEq

/-- The node id of an engine with these nodes in its catalogue.  The coordinator of every engine
is `control-1`. -/
def localNodeId (nodes : KeyMap ClusterNode) : String :=
  match nodes["control-1"]? with
  | some node => node.id
  | none => "unknown"

/-- Write the lease, unless another node has one that did not expire. -/
def tryAcquireLease (leases : KeyMap Lease) (relationKey holderNodeId : String)
    (ttlMs nowMs : Nat) : KeyMap Lease × Bool :=
  let lease := { holderNodeId := holderNodeId, expiresMs := nowMs + ttlMs : Lease }
  match leases[relationKey]? with
  | none => (leases.insert relationKey lease, true)
  | some old =>
    if old.expiresMs < nowMs ∨ old.holderNodeId = holderNodeId then
      (leases.insert relationKey lease, true)
    else
      (leases, false)

/-- Delete the lease of this node. -/
def releaseLease (leases : KeyMap Lease) (relationKey holderNodeId : String) : KeyMap Lease :=
  match leases[relationKey]? with
  | some lease => if lease.holderNodeId = holderNodeId then leases.erase relationKey else leases
  | none => leases

/-- A lease that is acquired is in the table, and the one before expired or was of the same
node. -/
theorem tryAcquireLease_true {leases leases' : KeyMap Lease} {relationKey holderNodeId : String}
    {ttlMs nowMs : Nat}
    (h : tryAcquireLease leases relationKey holderNodeId ttlMs nowMs = (leases', true)) :
  leases' = leases.insert relationKey ⟨holderNodeId, nowMs + ttlMs⟩
    ∧ ∀ old, leases[relationKey]? = some old →
        old.expiresMs < nowMs ∨ old.holderNodeId = holderNodeId
  := by
  unfold tryAcquireLease at h
  cases hold : leases[relationKey]? with
  | none =>
      rw [hold] at h
      exact ⟨(Prod.mk.inj h).1.symm, by simp⟩
  | some old =>
      rw [hold] at h
      dsimp only at h
      split at h
      · rename_i hfree
        apply And.intro (Prod.mk.inj h).1.symm
        rintro _ ⟨⟩
        exact hfree
      · cases (Prod.mk.inj h).2

/-- A lease of another node is left alone. -/
theorem releaseLease_get (leases : KeyMap Lease) (relationKey holderNodeId key : String) :
  (releaseLease leases relationKey holderNodeId)[key]? = leases[key]?
    ∨ key = relationKey ∧ ∀ lease, leases[key]? = some lease → lease.holderNodeId = holderNodeId
  := by
  fun_cases releaseLease leases relationKey holderNodeId with
  | case1 lease hlease hholder =>
      by_cases hkey : key = relationKey
      · subst hkey
        right
        apply And.intro rfl
        intro lease' hlease'
        rw [hlease] at hlease'
        rw [← Option.some.inj hlease']
        exact hholder
      · left
        simp [Std.ExtTreeMap.getElem?_erase, Ne.symm hkey]
  | case2 lease hlease hholder =>
      left
      rfl
  | case3 hnone =>
      left
      rfl

/-- What the engines `ι` share, and the write guards of the `relation_locks` of each engine, with
the operation that has the guard. -/
structure LockState (ι κ : Type) where
  leases : KeyMap Lease
  clock : Nat
  guards : ι → String → Option κ

/-- An operation that mutates a relation, by the step it takes next. -/
inductive LockTask where
  -- `relation_lock`
  | relationLock (key : String)
  | readClock (key nodeId : String)
  | tryAcquire (key nodeId : String) (nowMs : Nat)
  -- with the lock
  | awaitGuard (key nodeId : String) (expiresMs : Nat)
  | mutating (key nodeId : String) (expiresMs : Nat)
  -- the background task, after the lock is dropped
  | dropped (key nodeId : String)
  | released
  | failed (message : String)

/-- What the world outside answers: the time since the last step, the nodes the engine has in its
catalogue, the error of a call to SQLite, and whether an operation that waits is given up. -/
structure LockAnswer where
  elapsedMs : Nat := 0
  nodes : KeyMap ClusterNode := ∅
  fault : Option String := none
  cancelled : Bool := false

section

variable {ι κ : Type} [DecidableEq ι]

/-- The state with the guard of a relation given to an operation, or to none. -/
def LockState.setGuard (s : LockState ι κ) (i : ι) (key : String) (holder : Option κ) :
    LockState ι κ :=
  { s with
    guards := fun j key' => if j = i ∧ key' = key then holder else s.guards j key' }

/-- A step of an operation, the clock aside. -/
def lockStep (answer : LockAnswer) (o : ι × κ) (s : LockState ι κ) :
    LockTask → LockState ι κ × LockTask
  | .relationLock key => (s, .readClock key (localNodeId answer.nodes))
  | .readClock key nodeId => (s, .tryAcquire key nodeId s.clock)
  | .tryAcquire key nodeId nowMs =>
    match answer.fault with
    | some e => (s, .failed e)
    | none =>
      match tryAcquireLease s.leases key nodeId 30000 nowMs with
      | (leases, true) => ({ s with leases := leases }, .awaitGuard key nodeId (nowMs + 30000))
      | (_, false) =>
        (s, .failed ("relation " ++ key ++ " is locked by another coordinator; retry momentarily"))
  | .awaitGuard key nodeId expiresMs =>
    if answer.cancelled then
      (s, .dropped key nodeId)
    else
      match s.guards o.1 key with
      | none => (s.setGuard o.1 key (some o.2), .mutating key nodeId expiresMs)
      | some _ => (s, .awaitGuard key nodeId expiresMs)
  | .mutating key nodeId _ => (s.setGuard o.1 key none, .dropped key nodeId)
  | .dropped key nodeId =>
    match answer.fault with
    | some _ => (s, .released)
    | none => ({ s with leases := releaseLease s.leases key nodeId }, .released)
  | .released => (s, .released)
  | .failed message => (s, .failed message)

/-- A step of an operation.  The clock never goes back. -/
def lockMove (answer : LockAnswer) (o : ι × κ) (s : LockState ι κ) (task : LockTask) :
    LockState ι κ × LockTask :=
  lockStep answer o { s with clock := s.clock + answer.elapsedMs } task

/-- The operations of the engines. -/
abbrev LockSystem (ι κ : Type) := Tasks.System (ι × κ) (LockState ι κ) LockTask

/-- No operation has taken a step.  Leases of earlier runs may be left. -/
structure LockSystem.Started (s : LockSystem ι κ) : Prop where
  guards : ∀ i key, s.shared.guards i key = none
  task : ∀ o, ∃ key, s.task o = .relationLock key

/-- Every mutation going on is within the time of the lease it acquired. -/
def LockSystem.InTime (s : LockSystem ι κ) : Prop :=
  ∀ o key nodeId expiresMs, s.task o = .mutating key nodeId expiresMs →
    s.shared.clock ≤ expiresMs

/-- The relation, the node id and the end of the lease an operation works under. -/
def LockTask.lease : LockTask → Option (String × String × Nat)
  | .awaitGuard key nodeId expiresMs => some (key, nodeId, expiresMs)
  | .mutating key nodeId expiresMs => some (key, nodeId, expiresMs)
  | .relationLock _ | .readClock .. | .tryAcquire .. | .dropped .. | .released | .failed _ => none

/-- An operation works under a lease that did not expire. -/
def LockSystem.Holds (s : LockSystem ι κ) (o : ι × κ) (key nodeId : String) (expiresMs : Nat) :
    Prop :=
  (s.task o).lease = some (key, nodeId, expiresMs) ∧ s.shared.clock ≤ expiresMs

/-- A lease is taken under a node id only while no other engine holds it under that id, and not
for a shorter time than it is held; and it is deleted only while no operation holds it. -/
def SoleHolder (call : (ι × κ) × LockAnswer) (s : LockSystem ι κ) : Prop :=
  match s.task call.1 with
  | .tryAcquire key nodeId nowMs =>
    ∀ o expiresMs, s.Holds o key nodeId expiresMs →
      o.1 = call.1.1 ∧ expiresMs ≤ nowMs + 30000
  | .dropped key nodeId => ∀ o expiresMs, ¬ s.Holds o key nodeId expiresMs
  | _ => True

/-! ### What one step can do -/

variable {answer : LockAnswer} {o : ι × κ} {s : LockState ι κ} {task : LockTask}
  {key nodeId : String} {expiresMs nowMs : Nat}

theorem lockMove_clock : (lockMove answer o s task).1.clock = s.clock + answer.elapsedMs
  := by
  unfold lockMove
  fun_cases lockStep answer o { s with clock := s.clock + answer.elapsedMs } task <;> rfl

/-- The lease an operation works under is the one it had, or it has just acquired it. -/
theorem lockMove_lease
    (h : (lockMove answer o s task).2.lease = some (key, nodeId, expiresMs)) :
  task.lease = some (key, nodeId, expiresMs)
    ∨ ∃ nowMs, task = .tryAcquire key nodeId nowMs ∧ expiresMs = nowMs + 30000
        ∧ (lockMove answer o s task).1.leases[key]? = some ⟨nodeId, nowMs + 30000⟩
  := by
  unfold lockMove at h ⊢
  fun_cases lockStep answer o { s with clock := s.clock + answer.elapsedMs } task
  case case4 key' nodeId' nowMs hfault leases hacquired =>
    obtain ⟨hleases, -⟩ := tryAcquireLease_true hacquired
    simp only [lockStep, hfault, hacquired] at h
    cases h
    right
    refine ⟨nowMs, rfl, rfl, ?_⟩
    rw [hleases, KeyMap.get_insert, if_pos rfl]
  all_goals simp_all [lockStep, LockTask.lease]

/-- A row of the leases is the one it was; or it was acquired, when it was free for the node or
of the same node; or the lease of the node was deleted. -/
theorem lockMove_leases (key : String) :
  (lockMove answer o s task).1.leases[key]? = s.leases[key]?
    ∨ (∃ nodeId nowMs, task = .tryAcquire key nodeId nowMs
        ∧ (lockMove answer o s task).1.leases[key]? = some ⟨nodeId, nowMs + 30000⟩
        ∧ ∀ old, s.leases[key]? = some old → old.expiresMs < nowMs ∨ old.holderNodeId = nodeId)
    ∨ ∃ nodeId, task = .dropped key nodeId
        ∧ ∀ old, s.leases[key]? = some old → old.holderNodeId = nodeId
  := by
  unfold lockMove
  fun_cases lockStep answer o { s with clock := s.clock + answer.elapsedMs } task
  case case4 key' nodeId' nowMs hfault leases hacquired =>
    obtain ⟨hleases, hfree⟩ := tryAcquireLease_true hacquired
    by_cases hkey : key' = key
    · subst hkey
      right
      left
      refine ⟨nodeId', nowMs, rfl, ?_, hfree⟩
      rw [hleases, KeyMap.get_insert, if_pos rfl]
    · left
      rw [hleases, KeyMap.get_insert, if_neg hkey]
  case case11 key' nodeId' hfault =>
    obtain hsame | ⟨rfl, hheld⟩ := releaseLease_get s.leases key' nodeId' key
    · left
      exact hsame
    · right
      right
      exact ⟨nodeId', rfl, hheld⟩
  all_goals
    left
    rfl

/-- The time an operation asks for a lease with is the one it has just read. -/
theorem lockMove_tryAcquire (h : (lockMove answer o s task).2 = .tryAcquire key nodeId nowMs) :
  nowMs = s.clock + answer.elapsedMs
  := by
  unfold lockMove at h
  fun_cases lockStep answer o { s with clock := s.clock + answer.elapsedMs } task
  case case2 key' nodeId' =>
    cases h
    rfl
  all_goals simp_all [lockStep]

/-- An operation that begins to mutate has just taken the guard of its engine. -/
theorem lockMove_mutating (h : (lockMove answer o s task).2 = .mutating key nodeId expiresMs) :
  task = .awaitGuard key nodeId expiresMs ∧ s.guards o.1 key = none
    ∧ (lockMove answer o s task).1.guards o.1 key = some o.2
  := by
  unfold lockMove at h ⊢
  fun_cases lockStep answer o { s with clock := s.clock + answer.elapsedMs } task
  case case7 key' nodeId' expiresMs' hcancelled hguard =>
    have hfree : s.guards o.1 key' = none := hguard
    simp only [lockStep, hcancelled, hfree, Bool.false_eq_true, if_false] at h
    cases h
    exact ⟨rfl, hfree, by simp [LockState.setGuard]⟩
  all_goals simp_all [lockStep]

/-- The guard an operation has stays with it when another operation moves. -/
theorem lockMove_guards {i : ι} {m : κ}
    (hkept : ∀ nodeId expiresMs, task = .mutating key nodeId expiresMs → o.1 ≠ i)
    (h : s.guards i key = some m) :
  (lockMove answer o s task).1.guards i key = some m
  := by
  unfold lockMove
  fun_cases lockStep answer o { s with clock := s.clock + answer.elapsedMs } task
  case case7 key' nodeId' expiresMs' hcancelled hguard =>
    dsimp only [LockState.setGuard]
    rw [if_neg]
    · exact h
    · rintro ⟨rfl, rfl⟩
      rw [show s.guards o.1 key = none from hguard] at h
      cases h
  case case9 key' nodeId' expiresMs' =>
    dsimp only [LockState.setGuard]
    rw [if_neg]
    · exact h
    · rintro ⟨rfl, rfl⟩
      exact hkept nodeId' expiresMs' rfl rfl
  all_goals exact h

end

/-! ### The run of the operations -/

section

variable {ι κ : Type} {s : LockSystem ι κ} (call : (ι × κ) × LockAnswer)

/-- The lease an operation holds is in the table, for no shorter time; and the operations that
hold a lease under one node id are of one engine. -/
structure LeaseInvariant (s : LockSystem ι κ) : Prop where
  read : ∀ o key nodeId nowMs, s.task o = .tryAcquire key nodeId nowMs → nowMs ≤ s.shared.clock
  row : ∀ o key nodeId expiresMs, s.Holds o key nodeId expiresMs →
    ∃ lease, s.shared.leases[key]? = some lease ∧ lease.holderNodeId = nodeId
      ∧ expiresMs ≤ lease.expiresMs
  one : ∀ o o' key nodeId expiresMs expiresMs', s.Holds o key nodeId expiresMs →
    s.Holds o' key nodeId expiresMs' → o.1 = o'.1

theorem LeaseInvariant.start (h : s.Started) : LeaseInvariant s
  := by
  have hidle : ∀ o key nodeId expiresMs, ¬ s.Holds o key nodeId expiresMs := by
    intro o key nodeId expiresMs hholds
    obtain ⟨key', ho⟩ := h.task o
    simp [LockSystem.Holds, ho, LockTask.lease] at hholds
  constructor
  case read =>
    intro o key nodeId nowMs hread
    obtain ⟨key', ho⟩ := h.task o
    simp [ho] at hread
  case row =>
    intro o key nodeId expiresMs hholds
    exact absurd hholds (hidle _ _ _ _)
  case one =>
    intro o o' key nodeId expiresMs expiresMs' hholds
    exact absurd hholds (hidle _ _ _ _)

variable [DecidableEq ι] [DecidableEq κ]

/-- An operation of an engine takes its next step. -/
abbrev LockSystem.perform (call : (ι × κ) × LockAnswer) (s : LockSystem ι κ) : LockSystem ι κ :=
  Tasks.perform lockMove call s

theorem LockSystem.perform_task (o : ι × κ) :
  (s.perform call).task o = s.task o
    ∨ o = call.1 ∧ (s.perform call).task o = (lockMove call.2 o s.shared (s.task o)).2
  := by
  by_cases ho : o = call.1
  · subst ho
    right
    exact ⟨rfl, Tasks.System.after_task_self ..⟩
  · left
    apply Tasks.System.after_task_other s _ ho

/-- An operation holds the lease it held, or it has just acquired it. -/
theorem LockSystem.holds_of_perform {o : ι × κ} {key nodeId : String} {expiresMs : Nat}
    (h : (s.perform call).Holds o key nodeId expiresMs) :
  s.Holds o key nodeId expiresMs
    ∨ ∃ nowMs, o = call.1 ∧ s.task o = .tryAcquire key nodeId nowMs ∧ expiresMs = nowMs + 30000
        ∧ (s.perform call).shared.leases[key]? = some ⟨nodeId, nowMs + 30000⟩
  := by
  obtain ⟨hlease, hclock⟩ := h
  rw [show (s.perform call).shared.clock = _ from lockMove_clock] at hclock
  have hbefore : s.shared.clock ≤ expiresMs := by omega
  obtain hsame | ⟨rfl, hmoved⟩ := LockSystem.perform_task call o
  · left
    exact ⟨hsame ▸ hlease, hbefore⟩
  · rw [hmoved] at hlease
    obtain hheld | ⟨nowMs, htask, hexpires, hrow⟩ := lockMove_lease hlease
    · left
      exact ⟨hheld, hbefore⟩
    · right
      exact ⟨nowMs, rfl, htask, hexpires, hrow⟩

/-- The row of a lease that is held survives a step of any operation. -/
theorem LeaseInvariant.row_perform (h : LeaseInvariant s) (hsole : SoleHolder call s)
    {o : ι × κ} {key nodeId : String} {expiresMs : Nat} (hholds : s.Holds o key nodeId expiresMs) :
  ∃ lease, (s.perform call).shared.leases[key]? = some lease ∧ lease.holderNodeId = nodeId
    ∧ expiresMs ≤ lease.expiresMs
  := by
  obtain ⟨lease, hrow, hholder, hexpires⟩ := h.row o key nodeId expiresMs hholds
  have hcases := @lockMove_leases _ _ _ call.2 call.1 s.shared (s.task call.1) key
  obtain hsame | ⟨nodeId', nowMs, htask, hnew, hfree⟩ | ⟨nodeId', htask, hheld⟩ := hcases
  · exact ⟨lease, hsame.trans hrow, hholder, hexpires⟩
  · unfold SoleHolder at hsole
    rw [htask] at hsole
    have hread := h.read _ _ _ _ htask
    have hbefore := hholds.2
    obtain hexpired | hnode := hfree lease hrow
    · omega
    · obtain rfl := hholder.symm.trans hnode
      exact ⟨_, hnew, rfl, (hsole o expiresMs hholds).2⟩
  · -- The row is deleted only under the node id of its holder, which nobody holds.
    unfold SoleHolder at hsole
    rw [htask] at hsole
    obtain rfl := hholder.symm.trans (hheld lease hrow)
    exact absurd hholds (hsole o expiresMs)

theorem LeaseInvariant.perform (h : LeaseInvariant s) (hsole : SoleHolder call s) :
  LeaseInvariant (s.perform call)
  where
  read o key nodeId nowMs hread := by
    rw [show (s.perform call).shared.clock = _ from lockMove_clock]
    obtain hsame | ⟨rfl, hmoved⟩ := LockSystem.perform_task call o
    · have := h.read o key nodeId nowMs (hsame ▸ hread)
      omega
    · exact Nat.le_of_eq (lockMove_tryAcquire (hmoved ▸ hread))
  row o key nodeId expiresMs hholds := by
    obtain hbefore | ⟨nowMs, -, -, rfl, hrow⟩ := LockSystem.holds_of_perform call hholds
    · apply h.row_perform call hsole hbefore
    · exact ⟨_, hrow, rfl, Nat.le_refl _⟩
  one o o' key nodeId expiresMs expiresMs' hholds hholds' := by
    have hsole' := hsole
    unfold SoleHolder at hsole'
    obtain hbefore | ⟨nowMs, rfl, htask, -⟩ := LockSystem.holds_of_perform call hholds
    · obtain hbefore' | ⟨nowMs, rfl, htask, -⟩ := LockSystem.holds_of_perform call hholds'
      · apply h.one _ _ _ _ _ _ hbefore hbefore'
      · rw [htask] at hsole'
        exact (hsole' o expiresMs hbefore).1
    · obtain hbefore' | ⟨nowMs', rfl, -⟩ := LockSystem.holds_of_perform call hholds'
      · rw [htask] at hsole'
        exact (hsole' o' expiresMs' hbefore').1.symm
      · rfl

/-- An operation that mutates has the guard of its engine. -/
def Guarded (s : LockSystem ι κ) : Prop :=
  ∀ o key nodeId expiresMs, s.task o = .mutating key nodeId expiresMs →
    s.shared.guards o.1 key = some o.2

omit [DecidableEq ι] [DecidableEq κ] in
theorem Guarded.start (h : s.Started) : Guarded s
  := by
  intro o key nodeId expiresMs hmutating
  obtain ⟨key', ho⟩ := h.task o
  simp [ho] at hmutating

theorem Guarded.perform (h : Guarded s) : Guarded (s.perform call)
  := by
  intro o key nodeId expiresMs hmutating
  obtain hsame | ⟨rfl, hmoved⟩ := LockSystem.perform_task call o
  · have hbefore := h o key nodeId expiresMs (hsame ▸ hmutating)
    apply lockMove_guards _ hbefore
    -- Only the operation itself could give the guard back, and then it mutates no more.
    intro nodeId' expiresMs' htask hengine
    have hmover := h call.1 key nodeId' expiresMs' htask
    rw [hengine, hbefore] at hmover
    obtain rfl : o = call.1 := Prod.ext hengine.symm (Option.some.inj hmover)
    rw [show (s.perform call).task call.1 = _ from Tasks.System.after_task_self .., htask]
      at hmutating
    simp [lockMove, lockStep] at hmutating
  · exact (lockMove_mutating (hmoved ▸ hmutating)).2.2

/-- The steps a run takes: each leads to a state in which every mutation is still within the time
of its lease. -/
def WithinLeases (call : (ι × κ) × LockAnswer) (s : LockSystem ι κ) : Prop :=
  (s.perform call).InTime

/-- The states reached by steps of the operations, each allowed where it is taken. -/
abbrev LockSystem.Reached (allowed : (ι × κ) × LockAnswer → LockSystem ι κ → Prop) :
    LockSystem ι κ → Prop :=
  Run.Reachable LockSystem.Started (Tasks.Step lockMove allowed)

omit [DecidableEq ι] [DecidableEq κ] in
theorem LockSystem.Started.inTime (h : s.Started) : s.InTime
  := by
  intro o key nodeId expiresMs hmutating
  obtain ⟨key', ho⟩ := h.task o
  simp [ho] at hmutating

/-- Within the time of the leases, no two operations are inside a mutation of one relation, when
a lease is taken under a node id only while no other engine holds it, and deleted only while no
operation does. -/
theorem mutating_exclusive {s : LockSystem ι κ}
    (hs : s.Reached (fun call s => WithinLeases call s ∧ SoleHolder call s)) {o o' : ι × κ}
    {key nodeId nodeId' : String} {expiresMs expiresMs' : Nat}
    (ho : s.task o = .mutating key nodeId expiresMs)
    (ho' : s.task o' = .mutating key nodeId' expiresMs') :
  o = o'
  := by
  have hinvariant : LeaseInvariant s ∧ Guarded s ∧ s.InTime := by
    apply Run.Reachable.invariant _ _ hs
    · intro s hs
      exact ⟨.start hs, .start hs, hs.inTime⟩
    · rintro s _ ⟨hlease, hguarded, -⟩ ⟨call, ⟨htimely, hsole⟩, rfl⟩
      exact ⟨hlease.perform call hsole, hguarded.perform call, htimely⟩
  obtain ⟨hlease, hguarded, htime⟩ := hinvariant
  have hholds : s.Holds o key nodeId expiresMs := ⟨by rw [ho]; rfl, htime _ _ _ _ ho⟩
  have hholds' : s.Holds o' key nodeId' expiresMs' := ⟨by rw [ho']; rfl, htime _ _ _ _ ho'⟩
  -- Both leases are the one row of the relation, so they are of one node.
  obtain ⟨row, hrow, rfl, -⟩ := hlease.row _ _ _ _ hholds
  obtain ⟨row', hrow', rfl, -⟩ := hlease.row _ _ _ _ hholds'
  obtain rfl := Option.some.inj (hrow.symm.trans hrow')
  have hengine := hlease.one _ _ _ _ _ _ hholds hholds'
  -- Operations of one engine exclude each other by its guard.
  have hguard := hguarded o _ _ _ ho
  rw [hengine, hguarded o' _ _ _ ho'] at hguard
  exact Prod.ext hengine (Option.some.inj hguard.symm)

end

section

variable {ι κ : Type}

/-- The lease of a task satisfies a property, if it has one. -/
def LockTask.LeaseAll (P : String × String × Nat → Prop) (task : LockTask) : Prop :=
  ∀ lease, task.lease = some lease → P lease

instance (P : String × String × Nat → Prop) [DecidablePred P] (task : LockTask) :
    Decidable (task.LeaseAll P) :=
  match h : task.lease with
  | none => .isTrue (by simp [LockTask.LeaseAll, h])
  | some lease => decidable_of_iff (P lease) (by simp [LockTask.LeaseAll, h])

theorem LockSystem.forall_holds_iff (s : LockSystem ι κ) (key nodeId : String)
    (P : ι × κ → Nat → Prop) :
  (∀ o, (s.task o).LeaseAll (fun lease =>
      lease.1 = key → lease.2.1 = nodeId → s.shared.clock ≤ lease.2.2 → P o lease.2.2))
    ↔ ∀ o expiresMs, s.Holds o key nodeId expiresMs → P o expiresMs
  := by
  constructor
  · rintro h o expiresMs ⟨hlease, hclock⟩
    exact h o _ hlease rfl rfl hclock
  · rintro h o ⟨_, _, expiresMs⟩ hlease rfl rfl hclock
    exact h o expiresMs ⟨hlease, hclock⟩

variable [DecidableEq ι] [DecidableEq κ] [Fintype ι] [Fintype κ]

instance (call : (ι × κ) × LockAnswer) (s : LockSystem ι κ) : Decidable (SoleHolder call s) :=
  match h : s.task call.1 with
  | .tryAcquire key nodeId nowMs =>
    decidable_of_iff _ ((s.forall_holds_iff key nodeId (fun o expiresMs =>
      o.1 = call.1.1 ∧ expiresMs ≤ nowMs + 30000)).trans (by simp [SoleHolder, h]))
  | .dropped key nodeId =>
    decidable_of_iff _ ((s.forall_holds_iff key nodeId (fun _ _ => False)).trans
      (by simp [SoleHolder, h]))
  | .relationLock _ | .readClock .. | .awaitGuard .. | .mutating .. | .released | .failed _ =>
    .isTrue (by simp [SoleHolder, h])

/-- A task does not mutate after its lease. -/
def LockTask.within (clock : Nat) : LockTask → Bool
  | .mutating _ _ expiresMs => clock ≤ expiresMs
  | .relationLock _ | .readClock .. | .tryAcquire .. | .awaitGuard .. | .dropped .. | .released
  | .failed _ => true

instance (s : LockSystem ι κ) : Decidable s.InTime :=
  decidable_of_iff (∀ o, (s.task o).within s.shared.clock = true) (by
    constructor
    · intro h o key nodeId expiresMs ho
      have := h o
      rw [ho] at this
      exact of_decide_eq_true this
    · intro h o
      cases ho : s.task o
      case mutating key nodeId expiresMs => exact decide_eq_true (h o key nodeId expiresMs ho)
      all_goals rfl)

instance (call : (ι × κ) × LockAnswer) (s : LockSystem ι κ) : Decidable (WithinLeases call s) :=
  inferInstanceAs (Decidable (s.perform call).InTime)

end

/-- Two engines, each with two operations on the relation `d.s.t`. -/
def sampleEngines : LockSystem (Fin 2) (Fin 2) :=
  { shared :=
      { leases := ∅
        clock := 0
        guards := fun _ _ => none }
    task := fun _ => .relationLock "d.s.t" }

theorem sampleEngines_started : sampleEngines.Started
  where
  guards _ _ := rfl
  task _ := ⟨"d.s.t", rfl⟩

/-- The nodes of a catalogue in which the coordinator is registered. -/
def coordinatorNodes : KeyMap ClusterNode :=
  (∅ : KeyMap ClusterNode).insert "control-1"
    { id := "control-1"
      role := .control
      endpoint := "127.0.0.1:50051"
      internalEndpoint := none
      status := .ready
      lastHeartbeatAtEpochMs := 0 }

/-- The first step of an operation, and the steps that follow it. -/
def turns (o : Fin 2 × Fin 2) (nodes : KeyMap ClusterNode) (steps : Nat) :
    List ((Fin 2 × Fin 2) × LockAnswer) :=
  List.replicate steps (o, { nodes := nodes })

theorem sampleEngines_reached
    {allowed : (Fin 2 × Fin 2) × LockAnswer → LockSystem (Fin 2) (Fin 2) → Prop}
    (calls : List ((Fin 2 × Fin 2) × LockAnswer))
    (h : Run.AllAllowed LockSystem.perform allowed calls sampleEngines) :
  (Run.performAll LockSystem.perform calls sampleEngines).Reached allowed
  := (Run.Reachable.start sampleEngines_started).performAll h

/-- Engine `0` works under `control-1`, and engine `1`, whose catalogue does not have the
coordinator, under `unknown`. -/
def afterRefusal : LockSystem (Fin 2) (Fin 2) :=
  Run.performAll LockSystem.perform (turns (0, 0) coordinatorNodes 4 ++ turns (1, 0) ∅ 4)
    sampleEngines

theorem mutating_exclusive_refused :
  afterRefusal.task (0, 0) = .mutating "d.s.t" "control-1" 30000
    ∧ ∀ o nodeId expiresMs, afterRefusal.task o = .mutating "d.s.t" nodeId expiresMs → (0, 0) = o
  := by
  have hmutating : afterRefusal.task (0, 0) = .mutating "d.s.t" "control-1" 30000 := by rfl
  apply And.intro hmutating
  intro o nodeId expiresMs ho
  apply mutating_exclusive (sampleEngines_reached _ (by decide)) hmutating ho

/-- Two engines over a catalogue that has the coordinator both work under `control-1`, and the
lease of one is granted to the other. -/
def bothInside : LockSystem (Fin 2) (Fin 2) :=
  Run.performAll LockSystem.perform
    (turns (0, 0) coordinatorNodes 4 ++ turns (1, 0) coordinatorNodes 4) sampleEngines

/-- Two operations of engine `0` take the lease; the first is done and deletes it while the second
mutates, and engine `1` acquires it under another node id. -/
def insideAfterRelease : LockSystem (Fin 2) (Fin 2) :=
  Run.performAll LockSystem.perform
    (turns (0, 0) coordinatorNodes 4 ++ turns (0, 1) coordinatorNodes 3
      ++ turns (0, 0) coordinatorNodes 1 ++ turns (0, 1) coordinatorNodes 1
      ++ turns (0, 0) coordinatorNodes 1 ++ turns (1, 0) ∅ 4) sampleEngines

theorem mutating_not_exclusive :
  ¬ (∀ s : LockSystem (Fin 2) (Fin 2), s.Reached WithinLeases →
      ∀ o o' key nodeId nodeId' expiresMs expiresMs',
        s.task o = .mutating key nodeId expiresMs →
        s.task o' = .mutating key nodeId' expiresMs' → o.1 = o'.1)
    ∧ ¬ (∀ s : LockSystem (Fin 2) (Fin 2), s.Reached WithinLeases →
      ∀ o o' key nodeId nodeId' expiresMs expiresMs', nodeId ≠ nodeId' →
        s.task o = .mutating key nodeId expiresMs →
        s.task o' = .mutating key nodeId' expiresMs' → o.1 = o'.1)
  := by
  constructor
  · intro h
    have := h bothInside (sampleEngines_reached _ (by decide)) (0, 0) (1, 0) "d.s.t"
      "control-1" "control-1" 30000 30000 rfl rfl
    simp at this
  · intro h
    have := h insideAfterRelease (sampleEngines_reached _ (by decide)) (0, 1) (1, 0)
      "d.s.t" "control-1" "unknown" 30000 30000 (by decide) rfl rfl
    simp at this
