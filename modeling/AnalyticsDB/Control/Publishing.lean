import AnalyticsDB.Control.Effects
import AnalyticsDB.Lib.Run

/-!
# Concurrent operations and the published version

An operation of the control plane changes the catalogue under the write lock, releases it, takes
it again to bump the version, writes the catalogue under the read lock, and sends the version
when it holds no lock.  Between these steps other operations make theirs.  What is proved is
when the versions the subscribers receive never go back and end with the current one.
-/

/-- What is left to do of an operation in progress. -/
inductive Phase where
  | bumping
  | saving (version : Nat)
  | sending (version : Nat)
  deriving DecidableEq, Repr

/-- The version an operation has bumped to and not sent yet. -/
def Phase.version? : Phase → Option Nat
  | .bumping => none
  | .saving version => some version
  | .sending version => some version

/-- A control plane at work: its catalogue, the operations in progress, the receivers of the
channel, and the versions the channel has taken, the one it was created with first. -/
structure Plane where
  catalog : CatalogState
  running : List Phase
  receivers : Nat
  sent : List Nat

namespace Plane

/-- A control plane that was just opened.  Its version is a `u64`. -/
structure Opened (p : Plane) : Prop where
  idle : p.running = []
  sent_eq : p.sent = [p.catalog.catalogueVersion]
  version_le : p.catalog.catalogueVersion ≤ u64Max

/-- The versions bumped to and not sent yet. -/
def pending (p : Plane) : List Nat := p.running.filterMap Phase.version?

/-- The subscribers receive versions that never go back, and when no operation is in progress the
last one is the current one. -/
structure UpToDate (p : Plane) : Prop where
  ordered : p.sent.Pairwise (· ≤ ·)
  current : p.running = [] → p.sent.getLast? = some p.catalog.catalogueVersion

/-- The steps of a control plane.  A step `orderly` permits is one the subscribers cannot be
harmed by. -/
inductive Step (o : Outside) (orderly : Bool) : Plane → Plane → Prop
  /-- An operation makes its effect under the write lock. -/
  | mutate {p : Plane} (session : SessionContext) (op : ControlOp) (state : CatalogState) :
      op.Effect session p.catalog state →
      Step o orderly p { p with catalog := state, running := .bumping :: p.running }
  /-- An operation changes the catalogue without bumping the version, and ends. -/
  | quiet {p : Plane} (op : ControlOp) (state : CatalogState) :
      op.Quiet p.catalog state → Step o orderly p { p with catalog := state }
  /-- An operation fails and leaves something behind. -/
  | spoil {p : Plane} (session : SessionContext) (op : ControlOp) (w : World)
      (state : CatalogState) : w.catalog = p.catalog → op.Spoil session o w state →
      Step o orderly p { p with catalog := state }
  /-- An operation bumps the version under the write lock. -/
  | bump {p : Plane} (before after : List Phase) : p.running = before ++ .bumping :: after →
      Step o orderly p { p with
        catalog := p.catalog.bump
        running := before ++ .saving p.catalog.bump.catalogueVersion :: after }
  /-- An operation writes the catalogue. -/
  | save {p : Plane} (version : Nat) (before after : List Phase) :
      p.running = before ++ .saving version :: after →
      Step o orderly p { p with running := before ++ .sending version :: after }
  /-- The catalogue cannot be written, and the operation ends. -/
  | saveFails {p : Plane} (version : Nat) (before after : List Phase) :
      p.running = before ++ .saving version :: after →
      (orderly = true → version < p.catalog.catalogueVersion) →
      Step o orderly p { p with running := before ++ after }
  /-- An operation sends its version, and ends.  A channel without receivers drops it. -/
  | send {p : Plane} (version : Nat) (before after : List Phase) :
      p.running = before ++ .sending version :: after →
      (orderly = true → p.receivers ≠ 0
        ∧ ∀ other ∈ (before ++ after).filterMap Phase.version?, version ≤ other) →
      Step o orderly p { p with
        running := before ++ after
        sent := if p.receivers = 0 then p.sent else p.sent ++ [version] }
  /-- Somebody subscribes. -/
  | subscribe {p : Plane} : Step o orderly p { p with receivers := p.receivers + 1 }
  /-- A receiver is dropped. -/
  | unsubscribe {p : Plane} : Step o orderly p { p with receivers := p.receivers - 1 }

/-- What holds along every run of orderly steps. -/
structure Invariant (p : Plane) : Prop where
  version_le : p.catalog.catalogueVersion ≤ u64Max
  pending_le : ∀ version ∈ p.pending, version ≤ p.catalog.catalogueVersion
  sent_le : ∀ version ∈ p.sent, version ≤ p.catalog.catalogueVersion
  sent_le_pending : ∀ version ∈ p.sent, ∀ other ∈ p.pending, version ≤ other
  ordered : p.sent.Pairwise (· ≤ ·)
  /-- The current version was sent last, or an operation is about to send it. -/
  current : p.sent.getLast? = some p.catalog.catalogueVersion
    ∨ p.catalog.catalogueVersion ∈ p.pending

theorem Invariant.upToDate {p : Plane} (h : p.Invariant) :
  p.UpToDate
  := by
  constructor
  · exact h.ordered
  · intro hidle
    rcases h.current with hcurrent | hcurrent
    · exact hcurrent
    · simp [pending, hidle] at hcurrent

/-- A step that keeps the version and what is pending and sent keeps the invariant. -/
theorem Invariant.of_same {p p' : Plane} (h : p.Invariant)
    (hversion : p'.catalog.catalogueVersion = p.catalog.catalogueVersion)
    (hpending : p'.pending = p.pending) (hsent : p'.sent = p.sent) :
  p'.Invariant
  := by
  constructor
  · rw [hversion]
    exact h.version_le
  · rw [hpending, hversion]
    exact h.pending_le
  · rw [hsent, hversion]
    exact h.sent_le
  · rw [hsent, hpending]
    exact h.sent_le_pending
  · rw [hsent]
    exact h.ordered
  · rw [hsent, hpending, hversion]
    exact h.current

theorem Invariant.le_bump {p : Plane} (h : p.Invariant) :
  p.catalog.catalogueVersion ≤ p.catalog.bump.catalogueVersion
  := by
  have hmax := h.version_le
  simp only [CatalogState.bump]
  omega

/-- The version an operation bumps to is pending from then on. -/
theorem Invariant.bump {p : Plane} (h : p.Invariant) {before after : List Phase}
    (hrunning : p.running = before ++ .bumping :: after) :
  Invariant { p with
    catalog := p.catalog.bump
    running := before ++ .saving p.catalog.bump.catalogueVersion :: after }
  := by
  have hle := h.le_bump
  -- what is pending afterwards was pending before, or is the new version
  have hpending : ∀ version ∈ pending { p with
      catalog := p.catalog.bump
      running := before ++ .saving p.catalog.bump.catalogueVersion :: after },
      version ∈ p.pending ∨ version = p.catalog.bump.catalogueVersion := by
    intro version hversion
    simp only [pending, List.filterMap_append, List.filterMap_cons, Phase.version?,
      List.mem_append, List.mem_cons, hrunning] at hversion ⊢
    tauto
  constructor
  · simp only [CatalogState.bump]
    omega
  · intro version hversion
    rcases hpending version hversion with hold | rfl
    · exact (h.pending_le version hold).trans hle
    · exact Nat.le_refl _
  · intro version hversion
    exact (h.sent_le version hversion).trans hle
  · intro version hversion other hother
    rcases hpending other hother with hold | rfl
    · exact h.sent_le_pending version hversion other hold
    · exact (h.sent_le version hversion).trans hle
  · exact h.ordered
  · right
    simp [pending, Phase.version?]

/-- A version that is not the current one may get lost. -/
theorem Invariant.saveFails {p : Plane} (h : p.Invariant) {version : Nat}
    {before after : List Phase} (hrunning : p.running = before ++ .saving version :: after)
    (hold : version < p.catalog.catalogueVersion) :
  Invariant { p with running := before ++ after }
  := by
  have hpending : ∀ other ∈ pending { p with running := before ++ after }, other ∈ p.pending := by
    intro other hother
    simp only [pending, List.filterMap_append, List.filterMap_cons, Phase.version?,
      List.mem_append, List.mem_cons, hrunning] at hother ⊢
    tauto
  constructor
  · exact h.version_le
  · intro other hother
    exact h.pending_le other (hpending other hother)
  · exact h.sent_le
  · intro other hother another hanother
    exact h.sent_le_pending other hother another (hpending another hanother)
  · exact h.ordered
  · rcases h.current with hcurrent | hcurrent
    · exact .inl hcurrent
    · right
      simp only [pending, List.filterMap_append, List.filterMap_cons, Phase.version?,
        List.mem_append, List.mem_cons, hrunning] at hcurrent ⊢
      rcases hcurrent with hbefore | rfl | hafter
      · exact .inl hbefore
      · exact absurd hold (Nat.lt_irrefl _)
      · exact .inr hafter

/-- The least version that is pending may be sent. -/
theorem Invariant.send {p : Plane} (h : p.Invariant) {version : Nat} {before after : List Phase}
    (hrunning : p.running = before ++ .sending version :: after)
    (hleast : ∀ other ∈ (before ++ after).filterMap Phase.version?, version ≤ other) :
  Invariant { p with
    running := before ++ after
    sent := p.sent ++ [version] }
  := by
  have hmem : version ∈ p.pending := by
    simp [pending, hrunning, Phase.version?]
  have hpending : ∀ other ∈ (before ++ after).filterMap Phase.version?, other ∈ p.pending := by
    intro other hother
    simp only [pending, List.filterMap_append, List.filterMap_cons, Phase.version?,
      List.mem_append, List.mem_cons, hrunning] at hother ⊢
    tauto
  have hversion := h.pending_le version hmem
  constructor
  · exact h.version_le
  · intro other hother
    exact h.pending_le other (hpending other hother)
  · intro other hother
    rcases List.mem_append.mp hother with hsent | hsent
    · exact h.sent_le other hsent
    · cases List.mem_singleton.mp hsent
      exact hversion
  · intro other hother another hanother
    rcases List.mem_append.mp hother with hsent | hsent
    · exact h.sent_le_pending other hsent another (hpending another hanother)
    · cases List.mem_singleton.mp hsent
      exact hleast another hanother
  · rw [List.pairwise_append]
    refine ⟨h.ordered, List.pairwise_singleton _ _, ?_⟩
    intro other hother another hanother
    cases List.mem_singleton.mp hanother
    exact h.sent_le_pending other hother _ hmem
  · rcases h.current with hcurrent | hcurrent
    · -- the current version was sent before, so this one is the same
      left
      have hle := h.sent_le_pending _ (List.mem_of_getLast? hcurrent) version hmem
      rw [List.getLast?_concat, Nat.le_antisymm hversion hle]
    · simp only [pending, List.filterMap_append, List.filterMap_cons, Phase.version?,
        List.mem_append, List.mem_cons, hrunning] at hcurrent
      rcases hcurrent with hbefore | hthis | hafter
      · right
        simp [pending, hbefore]
      · left
        rw [List.getLast?_concat, hthis]
      · right
        simp [pending, hafter]

/-- Every orderly step keeps the invariant. -/
theorem Invariant.step {o : Outside} {p p' : Plane} (h : p.Invariant) (hstep : Step o true p p') :
  p'.Invariant
  := by
  cases hstep with
  | mutate session op state heffect =>
      exact h.of_same heffect.rest.version_eq rfl rfl
  | quiet op state hquiet => exact h.of_same hquiet.rest.1.version_eq rfl rfl
  | spoil session op w state hcatalog hspoil =>
      have hversion := hspoil.rest.1.version_eq
      rw [hcatalog] at hversion
      exact h.of_same hversion rfl rfl
  | bump before after hrunning => exact h.bump hrunning
  | save version before after hrunning =>
      have hpending : pending { p with running := before ++ .sending version :: after }
          = p.pending := by
        simp [pending, hrunning, Phase.version?]
      exact h.of_same rfl hpending rfl
  | saveFails version before after hrunning hold => exact h.saveFails hrunning (hold rfl)
  | send version before after hrunning hsend =>
      obtain ⟨hreceivers, hleast⟩ := hsend rfl
      rw [if_neg hreceivers]
      exact h.send hrunning hleast
  | subscribe => exact h.of_same rfl rfl rfl
  | unsubscribe => exact h.of_same rfl rfl rfl

theorem Opened.invariant {p : Plane} (h : p.Opened) :
  p.Invariant
  := by
  have hpending : p.pending = [] := by simp [pending, h.idle]
  constructor
  · exact h.version_le
  · simp [hpending]
  · simp [h.sent_eq]
  · simp [hpending]
  · simp [h.sent_eq]
  · left
    simp [h.sent_eq]

/-- In every run in which versions are sent in the order in which they were bumped to, to some
receiver, and only versions that are not the current one get lost, the subscribers are up to
date. -/
theorem reachable_upToDate (o : Outside) {p : Plane}
    (h : Run.Reachable Opened (Step o true) p) :
  p.UpToDate
  := by
  have hinvariant := h.invariant (fun _ => Opened.invariant) (fun _ _ hp hstep => hp.step hstep)
  exact hinvariant.upToDate

/-! ### An operation alone -/

/-- The control plane of a system in which no operation is in progress. -/
def ofWorld (w : World) (receivers : Nat) (sent : List Nat) : Plane :=
  { catalog := w.catalog, running := [], receivers := receivers, sent := sent }

/-- An operation that nothing interferes with takes these steps, one after another, and the
version it publishes is the one the channel takes. -/
theorem performOp_steps (o : Outside) (session : SessionContext) (op : ControlOp) (w : World)
    {receivers : Nat} (hreceivers : receivers ≠ 0) (sent : List Nat) :
  Eff.After (performOp o session op) w (fun _ w' => ∃ sent',
    Relation.ReflTransGen (Step o false) (ofWorld w receivers sent) (ofWorld w' receivers sent')
      ∧ (w'.published = w.published ∧ sent' = sent ∨ sent' = sent ++ [w'.published]))
  := by
  apply Eff.After.mono (performOp_performs o session w op)
  rintro r w' ⟨-, houtcome⟩
  -- the effect, and the bump
  have hbumped : ∀ {state}, op.Effect session w.catalog state → Relation.ReflTransGen
      (Step o false) (ofWorld w receivers sent)
        { catalog := state.bump, running := [.saving state.bump.catalogueVersion]
          receivers := receivers, sent := sent } := by
    intro state heffect
    refine (Relation.ReflTransGen.single (.mutate session op state heffect)).tail ?_
    exact Step.bump [] [] rfl
  cases houtcome with
  | same hcatalog hpublished =>
      refine ⟨sent, ?_, .inl ⟨hpublished, rfl⟩⟩
      rw [ofWorld, ofWorld, hcatalog]
  | saved state heffect hcatalog hpublished =>
      refine ⟨sent ++ [w'.published], ?_, .inr rfl⟩
      have hsaved := (hbumped heffect).tail (.save _ [] [] rfl)
      have hsent := hsaved.tail (.send _ [] [] rfl (fun h => by cases h))
      rw [if_neg hreceivers] at hsent
      rw [hpublished, ofWorld, ofWorld, hcatalog]
      exact hsent
  | unsaved state heffect hcatalog hpublished hfails =>
      refine ⟨sent, ?_, .inl ⟨hpublished, rfl⟩⟩
      have hfailed := (hbumped heffect).tail (.saveFails _ [] [] rfl (fun h => by cases h))
      rw [ofWorld, ofWorld, hcatalog]
      exact hfailed
  | quiet hquiet hpublished hfails =>
      exact ⟨sent, .single (.quiet op w'.catalog hquiet), .inl ⟨hpublished, rfl⟩⟩
  | spoiled hspoil hpublished =>
      exact ⟨sent, .single (.spoil session op w w'.catalog rfl hspoil), .inl ⟨hpublished, rfl⟩⟩

/-! ### Two operations that overtake each other -/

/-- A first install with one subscriber. -/
def sample : Plane :=
  { catalog := World.bootstrap.catalog, running := [], receivers := 1, sent := [0] }

theorem sample_opened :
  sample.Opened
  := by
  constructor
  · rfl
  · rfl
  · decide

/-- One subscriber, and a database created. -/
theorem reachable_upToDate_createDatabase :
  ∃ p : Plane, p.sent = [0, 1] ∧ p.UpToDate
  := by
  have hopened : Run.Reachable Opened (Step Outside.faultless true) sample := .start sample_opened
  have hmutated := hopened.step (.mutate {} (.createDatabase "a") _
    ⟨by decide, by decide, rfl⟩)
  have hbumped := hmutated.step (.bump [] [] rfl)
  have hsaved := hbumped.step (.save _ [] [] rfl)
  have hsent := hsaved.step (.send _ [] [] rfl (fun _ => ⟨by decide, by simp⟩))
  refine ⟨_, ?_, reachable_upToDate Outside.faultless hsent⟩
  decide

/-- Two databases are created at once, and the versions are sent in the other order. -/
theorem overtaken_not_upToDate :
  ∃ p : Plane, Run.Reachable Opened (Step Outside.faultless false) p ∧ p.sent = [0, 2, 1]
    ∧ ¬ p.sent.Pairwise (· ≤ ·) ∧ p.running = []
    ∧ p.sent.getLast? ≠ some p.catalog.catalogueVersion
  := by
  have hopened : Run.Reachable Opened (Step Outside.faultless false) sample :=
    .start sample_opened
  have hfirst := hopened.step (.mutate {} (.createDatabase "a") _
    ⟨by decide, by decide, rfl⟩)
  have hsecond := hfirst.step (.mutate {} (.createDatabase "b") _
    ⟨by decide, by decide, rfl⟩)
  have hbumped := (hsecond.step (.bump [] [.bumping] rfl)).step (.bump [.saving _] [] rfl)
  have hsaved := (hbumped.step (.save _ [] [.saving _] rfl)).step (.save _ [.sending _] [] rfl)
  have hovertaken := hsaved.step (.send _ [.sending _] [] rfl (fun h => by cases h))
  have hsent := hovertaken.step (.send _ [] [] rfl (fun h => by cases h))
  refine ⟨_, hsent, ?_⟩
  decide

end Plane
