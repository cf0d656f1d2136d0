import StellarKraal.Foundation.TextInput
import StellarKraal.Foundation.WhileLoop
import StellarKraal.Retirement.Submission

/-!
# The loop that cuts a batch

The loop is left where its index has passed the list, and advances it by a size that comes
from the environment. For every size but zero it computes the slices that a batch is
submitted in; by steps of zero it gets nowhere.
-/

namespace StellarKraal.Retirement

open WhileLoop (Yields)

def requirePositiveInt : Environment.Variables → String → Nat → Except String Nat :=
  Environment.nonNegativeInt

def sorobanMaxOpsPerTx (env : Environment.Variables) : Except String Nat :=
  requirePositiveInt env "SOROBAN_MAX_OPS_PER_TX" 20

namespace Loop

variable {α : Type}

/-- The variables of the loop. -/
structure State (α : Type) where
  i : Nat
  chunks : List (List α)

def State.goesOn (items : List α) (s : State α) : Bool := s.i < items.length

def State.push (items : List α) (size : Nat) (s : State α) : State α where
  i := s.i + size
  chunks := s.chunks ++ [items.extract s.i (s.i + size)]

/-- `none` where the loop is not over within `fuel` rounds. -/
def chunkArray (fuel : Nat) (items : List α) (size : Nat) : Option (List (List α)) :=
  (WhileLoop.run (State.goesOn items) (State.push items size) fuel ⟨0, []⟩).map (·.chunks)

def retireLoansOnChain {m : Type → Type} [Monad m]
    (submit : List String → ExceptT Thrown m String) (fuel : Nat) (loans : List RetirementTarget)
    (maxOpsPerChunk : Nat) : Option (m (List RetirementChunkResult)) :=
  (chunkArray fuel loans maxOpsPerChunk).map fun chunks => retireChunks submit chunks [] false

/-- The loop after `n` rounds. -/
def after (items : List α) (size n : Nat) : State α where
  i := size * n
  chunks := (List.range' 0 n size).map fun i => items.extract i (i + size)

theorem push_after (items : List α) (size n : Nat) :
    (after items size n).push items size = after items size (n + 1) := by
  simp only [State.push, after, State.mk.injEq]
  rw [List.range'_concat, List.map_append, List.map_singleton, Nat.zero_add]
  exact ⟨rfl, rfl⟩

theorem goesOn_after (items : List α) (size : ℕ+) (n : Nat) :
    (after items size n).goesOn items = true ↔ n < (items.length + size - 1) / size := by
  have hsize : 0 < (size : Nat) := size.pos
  rw [State.goesOn, after, decide_eq_true_iff, ← Nat.succ_le_iff (m := n),
    Nat.le_div_iff_mul_le hsize, Nat.succ_mul, Nat.mul_comm n]
  dsimp only
  omega

/-- With a positive size the loop ends with the slices. -/
theorem chunkArray_yields (items : List α) (size : ℕ+) :
    Yields (fun fuel => chunkArray fuel items size) (Retirement.chunkArray items size) := by
  have hexit : (after items size ((items.length + size - 1) / size)).goesOn items = false := by
    rw [Bool.eq_false_iff, Ne, goesOn_after]
    exact lt_irrefl _
  have hrun : WhileLoop.run (State.goesOn items) (State.push items size) _ ⟨0, []⟩ = some _ :=
    WhileLoop.run_of_rounds (after items size)
      (fun j hj => ⟨(goesOn_after items size j).mpr hj, push_after items size j⟩) hexit le_rfl
  exact (Yields.of_run hrun).map _

/-- A size of zero goes through no list that has items. -/
theorem chunkArray_zero {items : List α} (hne : items ≠ []) (fuel : Nat) :
    chunkArray fuel items 0 = none := by
  rw [chunkArray, WhileLoop.run_eq_none fun s => s.i = 0]
  · rfl
  · intro s hs
    have hlength := List.length_pos_iff.mpr hne
    exact ⟨by simp [State.goesOn, hs, hlength], hs⟩
  · rfl

/-- The loop ends, with all items in order, unless it goes by steps of zero through some. -/
theorem chunkArray_ends_iff (items : List α) (size : Nat) :
    (∃ chunks, Yields (fun fuel => chunkArray fuel items size) chunks ∧ chunks.flatten = items) ↔
      size ≠ 0 ∨ items = [] := by
  constructor
  · rintro ⟨chunks, hyields, -⟩
    by_contra! hstuck
    obtain ⟨rfl, hne⟩ := hstuck
    exact Yields.not_of_none (chunkArray_zero hne) hyields
  · rintro (hsize | rfl)
    · exact ⟨_, chunkArray_yields items ⟨size, Nat.pos_of_ne_zero hsize⟩, flatten_chunkArray ..⟩
    · refine ⟨[], .of_eq fun fuel => ?_, rfl⟩
      rw [chunkArray, WhileLoop.run_exit rfl]
      rfl

end Loop

/-- With the size that the server accepts from its environment, the chunks make up the list,
and there is a batch to submit. -/
structure BatchingEnds (env : Environment.Variables) (loans : List RetirementTarget) : Prop where
  chunks : ∀ maxOps, sorobanMaxOpsPerTx env = .ok maxOps → ∃ chunks,
    Yields (fun fuel => Loop.chunkArray fuel loans maxOps) chunks ∧ chunks.flatten = loans
  batch : ∀ maxOps, sorobanMaxOpsPerTx env = .ok maxOps → ∃ batch,
    Yields (fun fuel => Loop.retireLoansOnChain submitRetirementChunk fuel loans maxOps) batch

/-- Batching ends unless the accepted size is zero and there are loans. -/
theorem batching_ends_iff (env : Environment.Variables) (loans : List RetirementTarget) :
    BatchingEnds env loans ↔ sorobanMaxOpsPerTx env ≠ .ok 0 ∨ loans = [] := by
  constructor
  · intro hends
    by_contra! hstuck
    obtain ⟨hzero, hne⟩ := hstuck
    have hchunks := (Loop.chunkArray_ends_iff loans 0).mp (hends.chunks 0 hzero)
    exact hchunks.elim (fun h => h rfl) hne
  · intro hcondition
    have hchunks : ∀ maxOps, sorobanMaxOpsPerTx env = .ok maxOps → ∃ chunks,
        Yields (fun fuel => Loop.chunkArray fuel loans maxOps) chunks ∧
          chunks.flatten = loans := by
      intro maxOps haccepted
      refine (Loop.chunkArray_ends_iff loans maxOps).mpr (hcondition.imp_left ?_)
      rintro hnonzero rfl
      exact hnonzero haccepted
    refine ⟨hchunks, fun maxOps haccepted => ?_⟩
    obtain ⟨chunks, hyields, -⟩ := hchunks maxOps haccepted
    exact ⟨_, hyields.map _⟩

/-- A size of zero is accepted, and the batch of one loan is never cut. -/
theorem zero_size_never_ends :
    ¬ ∀ (env : Environment.Variables) (loans : List RetirementTarget), BatchingEnds env loans := by
  intro hall
  let env : Environment.Variables := fun _ => some "0"
  have haccepted : sorobanMaxOpsPerTx env = .ok 0 :=
    @Environment.nonNegativeInt_toString env "SOROBAN_MAX_OPS_PER_TX" 0 rfl 20
  have hends := (Loop.chunkArray_ends_iff [⟨"1", "1"⟩] 0).mp ((hall env _).chunks 0 haccepted)
  rcases hends with hnonzero | hempty
  · exact hnonzero rfl
  · nomatch hempty

end StellarKraal.Retirement
