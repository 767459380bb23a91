import AnalyticsDB.Storage.Concurrent

/-!
# Concurrent appends

Any number of writers append an entry each to the manifest of one table.  In every state they
reach, whatever the order of their calls, the manifest lists the files it listed at the beginning
and then the entries of the writers that succeeded, in the order in which they wrote it.
-/

open Tasks

section

variable {ι : Type} (entry : ι → ManifestEntry) (files : List ManifestEntry)

/-- The writers are about to append their entries to the files that are listed. -/
structure AppendsStart (s : System ι (TableStore ι) TableWriter) : Prop where
  files_eq : s.shared.files = files
  tagKnown : s.shared.TagKnown
  commits_eq : s.shared.commits = []
  task_eq : ∀ i, s.task i = .appendRead (entry i) 0

/-- What is known of a writer that appends: it did not write the manifest yet, or it returned. -/
def Appending (i : ι) (store : TableStore ι) : TableWriter → Prop
  | .appendRead e _ => e = entry i ∧ i ∉ store.commits
  | .appendWrite e _ manifest eTag =>
    e = entry i ∧ i ∉ store.commits ∧ Remembers store e manifest eTag
  | .returned (.ok _) => i ∈ store.commits
  | .returned (.error _) => i ∉ store.commits
  | _ => False

/-- The manifest lists the files of the beginning and the entries of the writers that wrote it. -/
structure AppendsInvariant (s : System ι (TableStore ι) TableWriter) : Prop where
  files_eq : s.shared.files = files ++ s.shared.commits.map entry
  nodup : s.shared.commits.Nodup
  tagKnown : s.shared.TagKnown
  appending : ∀ i, Appending entry i s.shared (s.task i)

variable {entry files} (base : OPath) (encodedSize : RecordBatch → Nat)
  (rowBudget : Nat → Nat → Nat → Int)

theorem AppendsStart.invariant {s : System ι (TableStore ι) TableWriter}
    (h : AppendsStart entry files s) :
  AppendsInvariant entry files s
  := by
  constructor
  · rw [h.files_eq, h.commits_eq]
    simp
  · rw [h.commits_eq]
    exact List.nodup_nil
  · exact h.tagKnown
  · intro i
    rw [h.task_eq i]
    refine ⟨rfl, ?_⟩
    rw [h.commits_eq]
    exact List.not_mem_nil

/-- A writer that appends leaves the store as it is, or extends the files that are listed by its
entry and returns. -/
theorem Appending.move {i : ι} {store : TableStore ι} {w : TableWriter}
    (h : Appending entry i store w) (hknown : store.TagKnown) (answer : Answer) :
  (∃ w', moveWriter base encodedSize rowBudget answer i store w = (store, w')
      ∧ Appending entry i store w')
    ∨ ∃ manifest, manifest.files = store.files ++ [entry i] ∧ i ∉ store.commits
      ∧ moveWriter base encodedSize rowBudget answer i store w
        = (store.commit i manifest answer.eTag, .returned (.ok ()))
  := by
  cases w with
  | appendRead e attempt =>
      obtain ⟨rfl, hnot⟩ := h
      left
      unfold moveWriter
      cases hread : store.readManifestVersioned answer with
      | error e => exact ⟨_, rfl, hnot⟩
      | ok read =>
          refine ⟨_, rfl, rfl, hnot, ?_⟩
          exact Remembers.of_read hknown hread _ rfl
  | appendWrite e attempt manifest eTag =>
      obtain ⟨rfl, hnot, hremembers⟩ := h
      unfold moveWriter
      obtain ⟨written, hput, hmove⟩ | hmove | ⟨e, hmove⟩ := afterPut_cases base store attempt
        (.returned (.ok ())) (.appendRead (entry i) (attempt + 1))
        (store.putManifest answer i manifest (putMode eTag))
      · right
        obtain ⟨-, htag, rfl⟩ := putManifest_ok hput
        exact ⟨manifest, hremembers.files_eq htag, hnot, hmove⟩
      · exact .inl ⟨_, hmove, rfl, hnot⟩
      · exact .inl ⟨_, hmove, hnot⟩
  | returned result =>
      left
      exact ⟨.returned result, rfl, h⟩
  | _ => cases h

/-- What is known of the other writers stays true when one writes the manifest. -/
theorem Appending.commit {i j : ι} {store : TableStore ι} {w : TableWriter}
    (h : Appending entry j store w) (hj : j ≠ i) (manifest : Manifest) {eTag : ETag}
    (htag : eTag ∉ store.tags) :
  Appending entry j (store.commit i manifest eTag) w
  := by
  have hcommits : j ∈ (store.commit i manifest eTag).commits ↔ j ∈ store.commits := by
    simp [TableStore.commit, hj]
  cases w with
  | appendRead e attempt => exact ⟨h.1, hcommits.not.mpr h.2⟩
  | appendWrite e attempt written tag =>
      exact ⟨h.1, hcommits.not.mpr h.2.1, h.2.2.commit i manifest htag⟩
  | returned result =>
      cases result with
      | ok _ => exact hcommits.mpr h
      | error e => exact hcommits.not.mpr h
  | _ => cases h

variable [DecidableEq ι]

/-- A step keeps the invariant, and the writes of the manifest made before it. -/
theorem AppendsInvariant.step {s t : System ι (TableStore ι) TableWriter}
    (h : AppendsInvariant entry files s) (hstep : WriterStep base encodedSize rowBudget s t) :
  AppendsInvariant entry files t ∧ s.shared.commits <+: t.shared.commits
  := by
  obtain ⟨⟨i, answer⟩, hfresh, rfl⟩ := hstep
  unfold perform
  obtain ⟨w', hmove, happending⟩ | ⟨manifest, hfiles, hnot, hmove⟩ :=
    (h.appending i).move base encodedSize rowBudget h.tagKnown answer
  · -- the store did not change
    rw [hmove]
    refine ⟨⟨h.files_eq, h.nodup, h.tagKnown, ?_⟩, List.prefix_rfl⟩
    apply System.forall_after (Appending entry · s.shared ·) s i happending
    intro j _
    exact h.appending j
  · -- the writer extended the manifest
    rw [hmove]
    refine ⟨⟨?_, ?_, ?_, ?_⟩, List.prefix_append _ _⟩
    · change manifest.files = files ++ (s.shared.commits ++ [i]).map entry
      rw [hfiles, h.files_eq]
      simp
    · change (s.shared.commits ++ [i]).Nodup
      rw [← List.concat_eq_append]
      exact h.nodup.concat hnot
    · intro current eTag hcurrent
      cases hcurrent
      exact List.mem_cons_self
    · apply System.forall_after
        (Appending entry · (s.shared.commit i manifest answer.eTag) ·) s i
      · change i ∈ s.shared.commits ++ [i]
        simp
      · intro j hj
        exact (h.appending j).commit hj manifest hfresh.1

/-- In every state the writers reach the manifest lists the files of the beginning and then the
entries of the writers that wrote it, in their order: each writer that returned without error is
one of them, once, and each that returned an error is none.  What is listed stays listed, in its
place. -/
theorem appends_lose_nothing {s : System ι (TableStore ι) TableWriter}
    (h : Run.Reachable (AppendsStart entry files) (WriterStep base encodedSize rowBudget) s) :
  s.shared.files = files ++ s.shared.commits.map entry
    ∧ (∀ i, s.task i = .returned (.ok ()) → s.shared.commits.count i = 1)
    ∧ (∀ i e, s.task i = .returned (.error e) → s.shared.commits.count i = 0)
    ∧ ∀ t, Run.Reachable (· = s) (WriterStep base encodedSize rowBudget) t →
      s.shared.files <+: t.shared.files
  := by
  have hinvariant : AppendsInvariant entry files s := by
    apply h.invariant
    · intro s hs
      exact hs.invariant
    · intro s t hs hstep
      exact (hs.step base encodedSize rowBudget hstep).1
  refine ⟨hinvariant.files_eq, ?_, ?_, ?_⟩
  · intro i hi
    have happending := hinvariant.appending i
    rw [hi] at happending
    exact List.count_eq_one_of_mem hinvariant.nodup happending
  · intro i e hi
    have happending := hinvariant.appending i
    rw [hi] at happending
    exact List.count_eq_zero_of_not_mem happending
  · intro t ht
    have hlater : AppendsInvariant entry files t ∧ s.shared.commits <+: t.shared.commits := by
      apply ht.invariant
      · rintro _ rfl
        exact ⟨hinvariant, List.prefix_rfl⟩
      · rintro t t' ⟨htinvariant, hprefix⟩ hstep
        have hstep := htinvariant.step base encodedSize rowBudget hstep
        exact ⟨hstep.1, hprefix.trans hstep.2⟩
    rw [hinvariant.files_eq, hlater.1.files_eq]
    exact List.prefix_append_right_inj _ |>.mpr (hlater.2.map entry)

end

section

/-- Two writers. -/
abbrev Pair := Bool

def sampleEntry (i : Pair) : ManifestEntry :=
  { path := dataFile (if i then "b" else "a"), size := 0, rowCount := 1 }

/-- An empty table, to which both writers are about to append. -/
def sampleAppends : System Pair (TableStore Pair) TableWriter :=
  { shared := { manifest := none, objects := ∅, tags := [], used := [], commits := [] }
    task := fun i => .appendRead (sampleEntry i) 0 }

/-- Both read the missing manifest; one creates it, and the other has to read it again. -/
def sampleAppendCalls : List (Pair × Answer) :=
  [(false, {}), (true, {}), (false, { eTag := "1" }), (true, { eTag := "2" }),
    (true, { eTag := "3" }),
    (true, { eTag := "4" })]

/-- The entries of both writers are listed, that of the second attempt last. -/
theorem appends_lose_nothing_pair :
  let s := Run.performAll (perform (moveWriter [] (fun _ => 0) (fun _ _ _ => 1)))
    sampleAppendCalls sampleAppends
  s.shared.files = [] ++ s.shared.commits.map sampleEntry
    ∧ s.shared.commits = [false, true]
    ∧ s.shared.commits.count true = 1
  := by
  intro s
  have hstart : AppendsStart sampleEntry [] sampleAppends := by
    constructor
    · rfl
    · nofun
    · rfl
    · intro i
      rfl
  have hreachable : Run.Reachable (AppendsStart sampleEntry [])
      (WriterStep [] (fun _ => 0) (fun _ _ _ => 1)) s := by
    apply (Run.Reachable.start hstart).performAll
    decide
  obtain ⟨hfiles, hok, -⟩ :=
    appends_lose_nothing [] (fun _ => 0) (fun _ _ _ => 1) hreachable
  refine ⟨hfiles, by decide, hok true ?_⟩
  rfl

end
