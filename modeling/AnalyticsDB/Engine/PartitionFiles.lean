import AnalyticsDB.Lib.Greedy
import Mathlib.Data.List.Sort

/-!
# Files for the workers

The files of a distributed query are given to the workers in chunks.  They are sorted by their
weights, the heaviest first, and each is given to the worker with the least weight so far.
-/

open Greedy

/-- A file: its path, its size in bytes and the number of its rows. -/
abbrev WeighedFile := String × Nat × Int

/-- The paths with their weights: the numbers of rows when all are known, and the sizes
otherwise. -/
def fileWeights (files : List WeighedFile) : List (String × Nat) :=
  let useRows := files.all (fun (_, _, rows) => 0 < rows)
  files.map (fun (path, size, rows) => (path, if useRows then rows.toNat else size))

/-- A file comes before the lighter ones. -/
def ComesBefore (a b : String × Nat) : Prop := b.2 ≤ a.2

instance : DecidableRel ComesBefore := fun a b => inferInstanceAs (Decidable (b.2 ≤ a.2))

instance : Std.Total ComesBefore := ⟨fun a b => Nat.le_total b.2 a.2⟩

instance : IsTrans (String × Nat) ComesBefore := ⟨fun _ _ _ hab hbc => Nat.le_trans hbc hab⟩

/-- Give a file to the first of the workers with the least weight. -/
def assignFile (state : List (List String) × List Nat) (file : String × Nat) :
    List (List String) × List Nat :=
  let minIdx := minIndex state.2
  (state.1.modify minIdx (· ++ [file.1]), state.2.modify minIdx (fun w => (w + file.2) % 2 ^ 64))

def partitionFilesForWorkers (files : List WeighedFile) (numWorkers : Nat) :
    List (List String) :=
  if files.isEmpty ∨ numWorkers = 0 then [] else
    let buckets := min numWorkers files.length
    -- a stable sort, as the one of the standard library is
    let sorted := (fileWeights files).insertionSort ComesBefore
    (sorted.foldl assignFile (List.replicate buckets [], List.replicate buckets 0)).1

/-- The files are in the chunks, each once; there are as many chunks as workers, or as files when
these are fewer, none is empty, and none weighs more than the average and one file. -/
structure Partitioned (files : List WeighedFile) (numWorkers : Nat) (chunks : List (List String)) :
    Prop where
  perm : chunks.flatten.Perm (files.map (·.1))
  length : chunks.length = min numWorkers files.length
  nonempty : ∀ chunk ∈ chunks, chunk ≠ []
  balanced : ∃ parts : List (List (String × Nat)), chunks = parts.map (·.map Prod.fst)
    ∧ parts.flatten.Perm (fileWeights files)
    ∧ ∀ most, (∀ file ∈ fileWeights files, file.2 ≤ most) → ∀ part ∈ parts,
      load Prod.snd part ≤ load Prod.snd (fileWeights files) / chunks.length + most

section

variable {files : List WeighedFile} {numWorkers : Nat} {parts : List (List (String × Nat))}

/-- The chunks and the weights that are kept are those of the buckets, as no weight overflows. -/
theorem assignFile_eq {file : String × Nat} (hne : parts ≠ [])
    (hfits : total Prod.snd parts + file.2 < 2 ^ 64) :
  assignFile (parts.map (·.map Prod.fst), parts.map (load Prod.snd)) file
    = ((place Prod.snd parts file).map (·.map Prod.fst),
        (place Prod.snd parts file).map (load Prod.snd))
  := by
  obtain ⟨before, bucket, after, rfl, hbefore, hafter, hplace⟩ := place_cases Prod.snd hne file
  have hload : load Prod.snd bucket ≤ total Prod.snd (before ++ bucket :: after) := by
    simp only [total, List.map_append, List.map_cons, List.sum_append, List.sum_cons]
    omega
  have hmod : (load Prod.snd bucket + file.2) % 2 ^ 64 = load Prod.snd bucket + file.2 :=
    Nat.mod_eq_of_lt (by omega)
  rw [assignFile, minIndex_loads hbefore hafter, hplace]
  simp only [List.map_append, List.map_cons]
  have hchunks := modify_length (· ++ [file.1]) (before.map (·.map Prod.fst))
    (bucket.map Prod.fst) (after.map (·.map Prod.fst))
  have hweights := modify_length (fun w => (w + file.2) % 2 ^ 64) (before.map (load Prod.snd))
    (load Prod.snd bucket) (after.map (load Prod.snd))
  rw [List.length_map] at hchunks hweights
  rw [hchunks, hweights, hmod, load_append]
  simp [load]

theorem foldl_assignFile (sorted : List (String × Nat)) (hne : parts ≠ [])
    (hfits : total Prod.snd parts + load Prod.snd sorted < 2 ^ 64) :
  sorted.foldl assignFile (parts.map (·.map Prod.fst), parts.map (load Prod.snd))
    = ((assign Prod.snd parts sorted).map (·.map Prod.fst),
        (assign Prod.snd parts sorted).map (load Prod.snd))
  := by
  induction sorted generalizing parts with
  | nil => rfl
  | cons file sorted ih =>
      have hload : load Prod.snd (file :: sorted) = file.2 + load Prod.snd sorted := by
        simp [load]
      have htotal := total_place Prod.snd hne file
      rw [List.foldl_cons, assignFile_eq hne (by omega), ih (place_ne_nil hne file) (by omega)]
      rfl

/-- The chunks are those of a greedy assignment of the files, sorted by weight. -/
theorem partitionFiles_eq (hfiles : files ≠ []) (hworkers : 0 < numWorkers)
    (hfits : load Prod.snd (fileWeights files) < 2 ^ 64) :
  ∃ sorted, sorted.Perm (fileWeights files) ∧ sorted.Pairwise (fun a b => b.2 ≤ a.2)
    ∧ partitionFilesForWorkers files numWorkers
      = (assign Prod.snd (emptyBuckets (min numWorkers files.length)) sorted).map
        (·.map Prod.fst)
  := by
  have hperm := List.perm_insertionSort ComesBefore (fileWeights files)
  refine ⟨_, hperm, List.pairwise_insertionSort ComesBefore _, ?_⟩
  have hbuckets : 0 < min numWorkers files.length := by
    have := List.length_pos_iff.mpr hfiles
    omega
  have hne : (emptyBuckets (min numWorkers files.length) : List (List (String × Nat))) ≠ [] :=
    emptyBuckets_ne_nil hbuckets
  have hload : load Prod.snd ((fileWeights files).insertionSort ComesBefore)
      = load Prod.snd (fileWeights files) := (hperm.map _).sum_eq
  have hfold := foldl_assignFile ((fileWeights files).insertionSort ComesBefore) hne
    (by rw [total_emptyBuckets, hload, Nat.zero_add]; exact hfits)
  rw [partitionFilesForWorkers, if_neg (by simp [hfiles, hworkers.ne'])]
  simp only [emptyBuckets, List.map_replicate, List.map_nil] at hfold
  exact congrArg Prod.fst hfold

theorem fileWeights_length : (fileWeights files).length = files.length
  := List.length_map _

theorem fileWeights_fst : (fileWeights files).map Prod.fst = files.map (·.1)
  := by
  simp [fileWeights, Function.comp_def]

/-- The files are given to the workers as they should be just when all but one of the chunks can
get a file that weighs something. -/
theorem partitioned_iff (hworkers : 0 < numWorkers)
    (hfits : load Prod.snd (fileWeights files) < 2 ^ 64) :
  Partitioned files numWorkers (partitionFilesForWorkers files numWorkers)
    ↔ min numWorkers files.length ≤ (fileWeights files).countP (0 < ·.2) + 1
  := by
  by_cases hfiles : files = []
  · subst hfiles
    simp only [List.length_nil, Nat.min_zero, Nat.zero_le, iff_true]
    refine ⟨List.Perm.refl _, by simp [partitionFilesForWorkers], ?_, [], rfl, .refl _, ?_⟩
    · simp [partitionFilesForWorkers]
    · simp
  obtain ⟨sorted, hperm, hsorted, hchunks⟩ := partitionFiles_eq hfiles hworkers hfits
  have hbuckets : 0 < min numWorkers files.length := by
    have := List.length_pos_iff.mpr hfiles
    omega
  have hlength : min numWorkers files.length ≤ sorted.length := by
    rw [hperm.length_eq, fileWeights_length]
    exact Nat.min_le_right _ _
  have hfills := assign_fills_iff hbuckets hlength hsorted
  rw [hperm.countP_eq] at hfills
  rw [hchunks]
  constructor
  · intro hpartitioned
    apply hfills.mp
    rintro _ hbucket rfl
    exact hpartitioned.nonempty [] (List.mem_map.mpr ⟨[], hbucket, rfl⟩) rfl
  · intro hheavy
    have hassign := (assign_emptyBuckets_perm Prod.snd hbuckets sorted).trans hperm
    refine ⟨?_, ?_, ?_, _, rfl, hassign, ?_⟩
    · rw [← fileWeights_fst, ← List.map_flatten]
      exact hassign.map _
    · rw [List.length_map, length_assign_emptyBuckets]
    · intro chunk hchunk
      obtain ⟨bucket, hbucket, rfl⟩ := List.mem_map.mp hchunk
      simpa using hfills.mpr hheavy bucket hbucket
    · intro most hmost part hpart
      have hload := load_assign_emptyBuckets_le hbuckets
        (fun file hfile => hmost file (hperm.mem_iff.mp hfile)) part hpart
      have htotal : load Prod.snd sorted = load Prod.snd (fileWeights files) :=
        (hperm.map _).sum_eq
      rw [List.length_map, length_assign_emptyBuckets, ← htotal]
      exact hload

/-- Three files for two workers. -/
example : partitionFilesForWorkers [("a", 1, 0), ("b", 3, 0), ("c", 1, 0)] 2
  = [["b"], ["a", "c"]] := by decide

/-- Files with rows are given to every worker. -/
theorem partitioned_three :
  Partitioned [("a", 10, 5), ("b", 10, 7), ("c", 10, 1)] 2
    (partitionFilesForWorkers [("a", 10, 5), ("b", 10, 7), ("c", 10, 1)] 2)
  := (partitioned_iff (by decide) (by decide)).mpr (by decide)

/-- Of two files of which neither the rows nor the bytes are known both are given to the first of
two workers. -/
theorem not_partitioned :
  ¬ ∀ (files : List WeighedFile) (numWorkers : Nat), 0 < numWorkers →
    load Prod.snd (fileWeights files) < 2 ^ 64 →
    Partitioned files numWorkers (partitionFilesForWorkers files numWorkers)
  := by
  intro h
  have hnonempty := (h [("a", 0, 0), ("b", 0, 0)] 2 (by decide) (by decide)).nonempty
  have hchunks : partitionFilesForWorkers [("a", 0, 0), ("b", 0, 0)] 2 = [["a", "b"], []] := by
    decide
  rw [hchunks] at hnonempty
  exact hnonempty [] (by simp) rfl

end
