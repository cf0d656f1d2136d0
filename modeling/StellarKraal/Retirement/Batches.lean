import StellarKraal.Retirement.Controller

/-!
# Batches of retirements

However the submissions of a batch end, every loan of the list is in one chunk, and
every chunk up to the first failure is submitted once.
-/

namespace StellarKraal.Retirement

/-! ## The chunks -/

section ChunkArray

variable {α : Type}

/-- One slice for each multiple of the size below the length. -/
theorem mem_chunkArray {items chunk : List α} {size : ℕ+} (h : chunk ∈ chunkArray items size) :
    ∃ i < items.length, chunk = items.extract i (i + size) := by
  obtain ⟨i, hi, rfl⟩ := List.mem_map.mp h
  obtain ⟨j, hj, rfl⟩ := List.mem_range'.mp hi
  refine ⟨_, ?_, rfl⟩
  have hsize : 0 < (size : Nat) := size.pos
  have hlast : (j + 1) * size ≤ items.length + size - 1 :=
    (Nat.mul_le_mul_right _ hj).trans (Nat.div_mul_le_self _ _)
  rw [Nat.add_mul, Nat.one_mul, Nat.mul_comm] at hlast
  omega

theorem length_chunk (items : List α) (i size : Nat) :
    (items.extract i (i + size)).length = min size (items.length - i) := by
  rw [List.extract_eq_take_drop, List.length_take, List.length_drop, Nat.add_sub_cancel_left]

theorem chunkArray_bounds {items chunk : List α} {size : ℕ+}
    (h : chunk ∈ chunkArray items size) : 1 ≤ chunk.length ∧ chunk.length ≤ size := by
  obtain ⟨i, hi, rfl⟩ := mem_chunkArray h
  have hsize : 0 < (size : Nat) := size.pos
  rw [length_chunk]
  omega

/-- Only the last chunk can be short. -/
theorem chunkArray_full {items chunk : List α} {size : ℕ+}
    (h : chunk ∈ (chunkArray items size).dropLast) : chunk.length = size := by
  rw [chunkArray] at h
  generalize hcount : (items.length + size - 1) / size = n at h
  cases n with
  | zero => simp at h
  | succ n =>
      rw [List.range'_concat, List.map_append, List.map_singleton, List.dropLast_concat] at h
      obtain ⟨i, hi, rfl⟩ := List.mem_map.mp h
      obtain ⟨j, hj, rfl⟩ := List.mem_range'.mp hi
      have hsize : 0 < (size : Nat) := size.pos
      -- The chunk after this one starts below the length as well.
      have hnext : (n + 1) * size ≤ items.length + size - 1 :=
        hcount ▸ Nat.div_mul_le_self _ _
      have hend : (j + 1) * size ≤ n * size := Nat.mul_le_mul_right _ hj
      rw [Nat.add_mul, Nat.one_mul] at hnext hend
      rw [Nat.mul_comm j] at hend
      rw [length_chunk]
      omega

end ChunkArray

/-! ## Their submissions -/

/-- What the chunks come to, where the next submission is the `n`-th. -/
def chunkResults (submission : Nat → Except Thrown String) :
    Nat → List (List RetirementTarget) → List RetirementChunkResult
  | _, [] => []
  | n, chunk :: rest =>
      match submission n with
      | .ok txHash =>
          .ofChunk chunk .success (some txHash) none :: chunkResults submission (n + 1) rest
      | .error err => .ofChunk chunk .failed none (some err.message) :: rest.map .skipped

/-- The chunks that were submitted. -/
def submitted (results : List RetirementChunkResult) : List (List String) :=
  (results.filter (·.status ≠ .skipped)).map (·.contractLoanIds)

theorem submitted_cons (result : RetirementChunkResult) (rest : List RetirementChunkResult) :
    submitted (result :: rest) =
      if result.status = .skipped then submitted rest
      else result.contractLoanIds :: submitted rest := by
  unfold submitted
  split <;> simp [*]

theorem submitted_skipped (chunks : List (List RetirementTarget)) :
    submitted (chunks.map .skipped) = [] := by
  induction chunks with
  | nil => rfl
  | cons chunk rest ih => exact ih

/-- The loop, run with the backend. -/
theorem retireChunks_eq (outside : Outside) (chunks : List (List RetirementTarget))
    (results : List RetirementChunkResult) (s : Backend) :
    let outcome := chunkResults outside.submission s.submissions.length chunks
    (retireChunks submitChunk chunks results false).run (serve outside) s =
      (results ++ outcome, { s with submissions := s.submissions ++ submitted outcome }) := by
  induction chunks generalizing results s with
  | nil => simp [retireChunks, chunkResults, submitted]
  | cons chunk rest ih =>
      have hsubmit : (submitChunk (chunk.map (·.contractLoanId))).run.run (serve outside) s =
          (outside.submission s.submissions.length,
            { s with submissions := s.submissions ++ [chunk.map (·.contractLoanId)] }) := rfl
      simp only [retireChunks, Script.run_bind, hsubmit, chunkResults]
      cases outside.submission s.submissions.length with
      | ok txHash =>
          simp only [ih, List.length_append, List.length_singleton, submitted_cons]
          simp [RetirementChunkResult.ofChunk]
      | error err =>
          simp only [retireChunks_aborted, Script.run_pure, submitted_cons, submitted_skipped]
          simp [RetirementChunkResult.ofChunk]

/-- Successes, up to the first failure; the rest is skipped. -/
def RetirementChunkStatus.InOrder (statuses : List RetirementChunkStatus) : Prop :=
  ∃ successes, statuses = List.replicate successes .success ∨
    ∃ rest, statuses = List.replicate successes .success ++ .failed :: List.replicate rest .skipped

section Results

variable (submission : Nat → Except Thrown String) (n : Nat) (chunks : List (List RetirementTarget))

theorem chunkResults_loans :
    (chunkResults submission n chunks).map
        (fun result => (result.loanIds, result.contractLoanIds)) =
      chunks.map fun chunk => (chunk.map (·.id), chunk.map (·.contractLoanId)) := by
  induction chunks generalizing n with
  | nil => rfl
  | cons chunk rest ih =>
      rw [chunkResults]
      cases submission n with
      | ok txHash => exact congrArg _ (ih (n + 1))
      | error err => simp [RetirementChunkResult.ofChunk, RetirementChunkResult.skipped]

theorem chunkResults_inOrder :
    RetirementChunkStatus.InOrder ((chunkResults submission n chunks).map (·.status)) := by
  induction chunks generalizing n with
  | nil => exact ⟨0, .inl rfl⟩
  | cons chunk rest ih =>
      rw [chunkResults]
      cases submission n with
      | ok txHash =>
          obtain ⟨successes, h⟩ := ih (n + 1)
          refine ⟨successes + 1, ?_⟩
          rw [List.map_cons, List.replicate_succ]
          rcases h with h | ⟨skipped, h⟩
          · exact .inl (congrArg _ h)
          · exact .inr ⟨skipped, congrArg _ h⟩
      | error err =>
          refine ⟨0, .inr ⟨rest.length, ?_⟩⟩
          rw [List.map_cons, List.map_map]
          exact congrArg _ List.map_const'

end Results

/-- The chunks hold the loans of the list, each at its place; all but the last are full.
They succeed up to the first failure, and those not skipped are what was submitted. -/
theorem retirement_accounts_for_loans (outside : Outside) (loans : List RetirementTarget)
    (maxOpsPerChunk : ℕ+) (s : Backend) :
    let r := (retireLoansOnChain submitChunk loans maxOpsPerChunk).run (serve outside) s
    (∃ chunks : List (List RetirementTarget), chunks.flatten = loans ∧
      r.1.map (fun result => (result.loanIds, result.contractLoanIds)) =
        chunks.map fun chunk => (chunk.map (·.id), chunk.map (·.contractLoanId))) ∧
    (∀ result ∈ r.1, 1 ≤ result.loanIds.length ∧ result.loanIds.length ≤ maxOpsPerChunk) ∧
    (∀ result ∈ r.1.dropLast, result.loanIds.length = maxOpsPerChunk) ∧
    RetirementChunkStatus.InOrder (r.1.map (·.status)) ∧
    r.2.submissions = s.submissions ++
      (r.1.filter (·.status ≠ .skipped)).map (·.contractLoanIds) := by
  rw [retireLoansOnChain, retireChunks_eq, List.nil_append]
  have hloans := chunkResults_loans outside.submission s.submissions.length
    (chunkArray loans maxOpsPerChunk)
  have hids := congrArg (List.map (List.length ∘ Prod.fst)) hloans
  simp only [List.map_map, Function.comp_def, List.length_map] at hids
  refine ⟨⟨_, flatten_chunkArray loans maxOpsPerChunk, hloans⟩, ?_, ?_,
    chunkResults_inOrder _ _ _, rfl⟩
  · intro result hresult
    have hlength := List.mem_map_of_mem (f := fun result => result.loanIds.length) hresult
    rw [hids] at hlength
    obtain ⟨chunk, hchunk, hsame⟩ := List.mem_map.mp hlength
    exact hsame ▸ chunkArray_bounds hchunk
  · intro result hresult
    have hlength := List.mem_map_of_mem (f := fun result => result.loanIds.length) hresult
    rw [List.map_dropLast, hids, ← List.map_dropLast] at hlength
    obtain ⟨chunk, hchunk, hsame⟩ := List.mem_map.mp hlength
    exact hsame ▸ chunkArray_full hchunk

end StellarKraal.Retirement
