import AnalyticsDB.Lib.Effect
import Mathlib.Data.List.Basic

/-!
# Failover

A client sends a request to one server after another, until one of them answers.  What became of
a request that was sent is its delivery: it was answered or refused, or the connection was lost,
and then the client cannot know whether it was executed.  The log of a run has the deliveries by
which the request may have been executed.  At most once it is executed when no server that may have
executed it without answering comes before one that executes it.
-/

namespace Failover

open Eff

variable {ι ε α : Type}

/-- What became of a request that was sent to a server. -/
inductive Delivery (ε α : Type) where
  | answered (a : α)
  | refused (executed : Bool) (e : ε)
  | lost (executed : Bool) (e : ε)

/-- What the client gets. -/
def Delivery.outcome : Delivery ε α → Except ε α
  | .answered a => .ok a
  | .refused _ e => .error e
  | .lost _ e => .error e

/-- Whether the server executed the request. -/
def Delivery.executed : Delivery ε α → Bool
  | .answered _ => true
  | .refused executed _ => executed
  | .lost executed _ => executed

/-- Whether the server executed the request, if it may have done so. -/
def Delivery.entry : Delivery ε α → Option Bool
  | .answered _ => some true
  | .refused executed _ => if executed then some true else none
  | .lost executed _ => some executed

/-- A delivery whose error is given in other words. -/
def Delivery.mapError (f : ε → ε) : Delivery ε α → Delivery ε α
  | .answered a => .answered a
  | .refused executed e => .refused executed (f e)
  | .lost executed e => .lost executed (f e)

/-- A delivery by which a request may have been executed, and whether it was. -/
structure Delivered (ι : Type) where
  server : ι
  executed : Bool
  deriving DecidableEq, Repr

abbrev Log (ι : Type) := List (Delivered ι)

/-- The request is executed at most once, and never after it may have been executed. -/
structure AtMostOnce (log : Log ι) : Prop where
  once : (log.filter (·.executed)).length ≤ 1
  notAgain : log.Pairwise (fun _ later => later.executed = false)

/-- A step that does not send the request. -/
def check (x : Except ε α) : Eff (Log ι) ε α :=
  match x with
  | .ok a => pure a
  | .error e => throw e

/-- Send the request to a server. -/
def deliver (server : ι) (delivery : Delivery ε α) : Eff (Log ι) ε α := do
  modify (· ++ (delivery.entry.map (Delivered.mk server)).toList)
  check delivery.outcome

/-- Try one server after another. -/
def firstAnswer (attempt : ι → Eff (Log ι) ε α) : List ι → ε → Eff (Log ι) ε α
  | [], lastError => throw lastError
  | server :: servers, _ => do
    match ← Eff.attempt (attempt server) with
    | .ok a => return a
    | .error e => firstAnswer attempt servers e

@[simp]
theorem exec_check (x : Except ε α) (log : Log ι) :
  exec (check x) log = (x, log)
  := by
  cases x <;> rfl

@[simp]
theorem exec_deliver (server : ι) (delivery : Delivery ε α) (log : Log ι) :
  exec (deliver server delivery) log
    = (delivery.outcome, log ++ (delivery.entry.map (Delivered.mk server)).toList)
  := by
  simp [deliver, exec_bind]

/-- What becomes of a request at a server: whether it is executed, if it may be, and whether the
client gets the answer. -/
structure Reply where
  entry : Option Bool
  answers : Bool
  deriving DecidableEq, Repr

/-- The request is not sent. -/
def Reply.notSent : Reply := { entry := none, answers := false }

/-- The request is sent, and what is received is read. -/
def Reply.sent {β : Type} (delivery : Delivery ε α) (read : α → Except ε β) : Reply :=
  { entry := delivery.entry, answers := (delivery.outcome.bind read).isOk }

/-- An attempt at a server gives a reply. -/
def Gives (attempt : Eff (Log ι) ε α) (server : ι) (reply : Reply) : Prop :=
  ∀ log, (exec attempt log).2 = log ++ (reply.entry.map (Delivered.mk server)).toList
    ∧ (exec attempt log).1.isOk = reply.answers

theorem gives_throw (e : ε) (server : ι) :
  Gives (throw e : Eff (Log ι) ε α) server .notSent
  := by
  intro log
  simp [Reply.notSent, Except.toBool]

/-- After a check that succeeds the attempt goes on. -/
theorem gives_check_ok {β : Type} {b : β} {f : β → Eff (Log ι) ε α} {server : ι} {reply : Reply}
    (h : Gives (f b) server reply) :
  Gives (check (.ok b) >>= f) server reply
  := by
  intro log
  rw [exec_bind, exec_check]
  exact h log

/-- After a check that fails the request is not sent. -/
theorem gives_check_error {β : Type} (e : ε) (f : β → Eff (Log ι) ε α) (server : ι) :
  Gives (check (.error e) >>= f) server .notSent
  := by
  intro log
  rw [exec_bind, exec_check]
  simp [Reply.notSent, Except.toBool]

/-- What is received is the answer, without more ado. -/
theorem gives_deliver_pure {β : Type} (server : ι) (delivery : Delivery ε β) (f : β → α) :
  Gives (deliver server delivery >>= fun b => pure (f b)) server (.sent delivery .ok)
  := by
  intro log
  rw [exec_bind, exec_deliver]
  cases houtcome : delivery.outcome <;> simp [Reply.sent, houtcome, Except.bind, Except.toBool]

/-- What is received is read, which may fail. -/
theorem gives_deliver_check {β γ : Type} (server : ι) (delivery : Delivery ε β)
    (read : β → Except ε γ) (f : β → γ → α) :
  Gives (deliver server delivery >>= fun b => check (read b) >>= fun c => pure (f b c)) server
    (.sent delivery read)
  := by
  intro log
  rw [exec_bind, exec_deliver]
  cases houtcome : delivery.outcome with
  | error e => simp [Reply.sent, houtcome, Except.bind, Except.toBool]
  | ok b =>
      simp only [exec_bind, exec_check, Reply.sent, houtcome, Except.bind]
      cases read b <;> simp [Except.toBool]

/-- What becomes of a request does not depend on how its errors are told. -/
theorem sent_mapError {β γ : Type} (f : ε → ε) (delivery : Delivery ε β) (read : β → Except ε γ) :
  Reply.sent (delivery.mapError f) read = Reply.sent delivery read
  := by
  cases delivery <;> rfl

section

variable {attempt : ι → Eff (Log ι) ε α} {reply : ι → Reply}

/-- What trying the servers adds to the log. -/
def logOf (reply : ι → Reply) : List ι → Log ι
  | [] => []
  | server :: servers =>
    ((reply server).entry.map (Delivered.mk server)).toList
      ++ if (reply server).answers then [] else logOf reply servers

theorem exec_firstAnswer_log (h : ∀ server, Gives (attempt server) server (reply server))
    (servers : List ι)
    (lastError : ε) (log : Log ι) :
  (exec (firstAnswer attempt servers lastError) log).2 = log ++ logOf reply servers
  := by
  induction servers generalizing lastError log with
  | nil => simp [firstAnswer, logOf]
  | cons server servers ih =>
      obtain ⟨hlog, hanswers⟩ := h server log
      simp only [firstAnswer, exec_bind, exec_attempt, logOf]
      cases hresult : (exec (attempt server) log).1 with
      | ok a =>
          rw [hresult] at hanswers
          rw [← hanswers]
          simp [hlog, Except.isOk, Except.toBool]
      | error e =>
          rw [hresult] at hanswers
          rw [← hanswers]
          simp [ih, hlog, Except.isOk, Except.toBool]

/-- A server is tried where those before it do not answer. -/
def Tried (reply : ι → Reply) (servers before : List ι) (server : ι) : Prop :=
  before ++ [server] <+: servers ∧ ∀ s ∈ before, (reply s).answers = false

theorem tried_nil {servers : List ι} {first server : ι} :
  Tried reply (first :: servers) [] server ↔ server = first
  := by
  simp [Tried]

theorem tried_cons {servers before : List ι} {first other server : ι} :
  Tried reply (first :: servers) (other :: before) server
    ↔ other = first ∧ (reply first).answers = false ∧ Tried reply servers before server
  := by
  simp only [Tried, List.cons_append, List.cons_prefix_cons, List.forall_mem_cons]
  constructor
  · rintro ⟨⟨rfl, hprefix⟩, hother, hbefore⟩
    exact ⟨rfl, hother, hprefix, hbefore⟩
  · rintro ⟨rfl, hother, hprefix, hbefore⟩
    exact ⟨⟨rfl, hprefix⟩, hother, hbefore⟩

/-- What is in the log: the deliveries to the servers that are tried. -/
theorem mem_logOf {servers : List ι} {delivered : Delivered ι} :
  delivered ∈ logOf reply servers
    ↔ ∃ before, Tried reply servers before delivered.server
      ∧ (reply delivered.server).entry = some delivered.executed
  := by
  induction servers with
  | nil => simp [logOf, Tried]
  | cons first servers ih =>
      rw [logOf, List.mem_append]
      constructor
      · rintro (hfirst | hrest)
        · rw [Option.mem_toList, Option.map_eq_some_iff] at hfirst
          obtain ⟨executed, hentry, rfl⟩ := hfirst
          exact ⟨[], tried_nil.mpr rfl, hentry⟩
        · split at hrest
          · cases hrest
          · rename_i hanswers
            obtain ⟨before, htried, hentry⟩ := ih.mp hrest
            exact ⟨first :: before, tried_cons.mpr ⟨rfl, by simpa using hanswers, htried⟩, hentry⟩
      · rintro ⟨_ | ⟨other, before⟩, htried, hentry⟩
        · obtain ⟨server, executed⟩ := delivered
          obtain rfl := tried_nil.mp htried
          left
          simp only at hentry
          simp [hentry]
        · obtain ⟨-, hanswers, htried⟩ := tried_cons.mp htried
          right
          rw [if_neg (by simp [hanswers])]
          exact ih.mpr ⟨before, htried, hentry⟩

/-- The servers are tried so that the request is not repeated: where it is executed, it may not have
been executed by a server that was tried before. -/
def NoRepeat (reply : ι → Reply) (servers : List ι) : Prop :=
  ∀ before server, Tried reply servers before server → (∃ s ∈ before, (reply s).entry ≠ none) →
    (reply server).entry ≠ some true

theorem noRepeat_cons {servers : List ι} {first : ι} :
  NoRepeat reply (first :: servers)
    ↔ ((reply first).answers = false → NoRepeat reply servers
      ∧ ((reply first).entry ≠ none → ∀ before server, Tried reply servers before server →
        (reply server).entry ≠ some true))
  := by
  constructor
  · intro h hanswers
    constructor
    · rintro before server htried ⟨s, hs, hentry⟩
      exact h (first :: before) server (tried_cons.mpr ⟨rfl, hanswers, htried⟩)
        ⟨s, List.mem_cons_of_mem _ hs, hentry⟩
    · intro hfirst before server htried
      exact h (first :: before) server (tried_cons.mpr ⟨rfl, hanswers, htried⟩)
        ⟨first, List.mem_cons_self, hfirst⟩
  · rintro h (_ | ⟨other, before⟩) server htried ⟨s, hs, hentry⟩
    · cases hs
    · obtain ⟨rfl, hanswers, hrest⟩ := tried_cons.mp htried
      obtain ⟨hnoRepeat, hfirst⟩ := h hanswers
      obtain rfl | hs := List.mem_cons.mp hs
      · exact hfirst hentry before server hrest
      · exact hnoRepeat before server hrest ⟨s, hs, hentry⟩

/-- Nothing in the log is executed after something just when the request is not repeated. -/
theorem pairwise_logOf (servers : List ι) :
  (logOf reply servers).Pairwise (fun _ later => later.executed = false)
    ↔ NoRepeat reply servers
  := by
  induction servers with
  | nil => simp [logOf, NoRepeat, Tried]
  | cons first servers ih =>
      have hone : ((((reply first).entry).map (Delivered.mk first)).toList).Pairwise
          (fun _ later : Delivered ι => later.executed = false) := by
        cases (reply first).entry <;> simp
      rw [logOf, noRepeat_cons, List.pairwise_append, ← ih]
      cases hanswers : (reply first).answers with
      | true => simp [hone]
      | false =>
          simp only [hone, true_and, Bool.false_eq_true, if_false, forall_const]
          apply and_congr_right
          intro _
          constructor
          · intro h hfirst before server htried hentry
            obtain ⟨executed, hexecuted⟩ := Option.ne_none_iff_exists'.mp hfirst
            have hlater := h ⟨first, executed⟩ (by simp [hexecuted]) ⟨server, true⟩
              (mem_logOf.mpr ⟨before, htried, hentry⟩)
            cases hlater
          · intro h earlier hearlier later hlater
            obtain ⟨before, htried, hentry⟩ := mem_logOf.mp hlater
            have hfirst : (reply first).entry ≠ none := by
              intro hnone
              rw [hnone] at hearlier
              cases hearlier
            have hnot := h hfirst before later.server htried
            rw [hentry] at hnot
            simpa using hnot

/-- Where nothing is executed after something, at most one thing is executed. -/
theorem length_executed_le {log : Log ι}
    (h : log.Pairwise (fun _ later => later.executed = false)) :
  (log.filter (·.executed)).length ≤ 1
  := by
  cases log with
  | nil => simp
  | cons first log =>
      have hnone : log.filter (·.executed) = [] := by
        rw [List.filter_eq_nil_iff]
        intro later hlater
        simp [(List.pairwise_cons.mp h).1 later hlater]
      rw [List.filter_cons, hnone]
      split <;> simp

/-- The request is executed at most once just when the servers are tried so that it is not
repeated. -/
theorem atMostOnce_iff (h : ∀ server, Gives (attempt server) server (reply server))
    (servers : List ι) (lastError : ε) :
  AtMostOnce (exec (firstAnswer attempt servers lastError) []).2
    ↔ NoRepeat reply servers
  := by
  rw [exec_firstAnswer_log h, List.nil_append, ← pairwise_logOf]
  constructor
  · intro hlog
    exact hlog.notAgain
  · intro hlog
    exact ⟨length_executed_le hlog, hlog⟩

end

end Failover
