import Mathlib.Data.List.Pairwise
import StellarKraal.Foundation.Streams
import StellarKraal.Monitoring.VolumeSpike

/-!
# The windows of a contract

The loop keeps three fields in step with a stream. What they say after any number of
invocations can be counted in the timestamps of the contract alone.
-/

namespace StellarKraal.Monitoring.VolumeSpike

open TumblingWindows (countFrom countIn index)
open WhileLoop (Yields)

/-- The timestamps of a contract's invocations. -/
def timesOf (contractId : String) (stream : List NormalizedInvocation) : List Number :=
  (stream.filter (·.contractId = contractId)).filterMap fun invocation =>
    invocation.occurredAtMs.map Int.cast

/-- What is known of the times once window `j` is the current one. -/
def windowAt (config : Config) (first : Number) (times : List Number) (j : Nat) : WindowState where
  windowStartMs := first + j * config.windowMs
  count := countFrom first config.windowMs times j
  history := ((List.range j).map (countIn first config.windowMs times)).rtake
    config.volumeBaselineWindows

/-- The state the times lead to. -/
def counted (config : Config) (times : List Number) : Option WindowState :=
  times.head?.bind fun first => times.getLast?.map fun last =>
    windowAt config first times (index first config.windowMs last)

variable {config : Config} {first now : Number} {times : List Number} {j : Nat}

/-! ## One round, and the invocation itself -/

theorem windowAt_roll (h : ∀ t ∈ times, t < first + (j + 1) * config.windowMs) :
    (windowAt config first times j).roll config = windowAt config first times (j + 1) := by
  have hcount := TumblingWindows.countFrom_eq_countIn h
  have hhistory := Trailing.push_shift
    ((List.range j).map (countIn first config.windowMs times)) config.volumeBaselineWindows
    (countIn first config.windowMs times j)
  rw [WindowState.roll, windowAt, windowAt, WindowState.mk.injEq]
  refine ⟨?_, (TumblingWindows.countFrom_next h).symm, ?_⟩
  · push_cast
    ring
  · simp only [hcount]
    rw [hhistory, List.range_succ, List.map_append, List.map_singleton]

theorem windowAt_snoc (hwindow : 0 < config.windowMs) (h : first + j * config.windowMs ≤ now) :
    { windowAt config first times j with
      count := (windowAt config first times j).count + 1 } =
        windowAt config first (times ++ [now]) j := by
  have hpast : (List.range j).map (countIn first config.windowMs (times ++ [now])) =
      (List.range j).map (countIn first config.windowMs times) :=
    List.map_congr_left fun i hi =>
      TumblingWindows.countIn_snoc hwindow (List.mem_range.mp hi) h
  rw [windowAt, windowAt, hpast, TumblingWindows.countFrom_snoc h]

theorem isOver_windowAt : (windowAt config first times j).isOver config now = true ↔
    first + (j + 1 : Nat) * config.windowMs ≤ now := by
  rw [WindowState.isOver, windowAt, decide_eq_true_iff]
  push_cast
  constructor <;> intro h <;> linarith

/-! ## The loop -/

/-- From window `j` on, the loop stops in the window of the current time. -/
theorem run_windowAt (hwindow : 0 < config.windowMs) (hfirst : first ≤ now)
    (htimes : ∀ t ∈ times, t < first + (j + 1) * config.windowMs)
    (hj : j ≤ index first config.windowMs now) :
    Yields (fun fuel => WhileLoop.run (WindowState.isOver config now) (WindowState.roll config)
        fuel (windowAt config first times j))
      (windowAt config first times (index first config.windowMs now)) := by
  obtain ⟨rounds, hrounds⟩ := Nat.exists_eq_add_of_le hj
  have hover : ∀ i, (windowAt config first times i).isOver config now = true ↔
      i < index first config.windowMs now := by
    intro i
    rw [isOver_windowAt, ← TumblingWindows.le_index_iff hwindow hfirst, Nat.succ_le_iff]
  rw [hrounds]
  refine .of_run (WhileLoop.run_of_rounds (fun i => windowAt config first times (j + i))
    (fun i hi => ⟨(hover _).mpr (by omega), windowAt_roll fun t ht => ?_⟩) ?_ le_rfl)
  · have hlater : ((j : Number) + 1) ≤ ((j + i : Nat) : Number) + 1 := by
      push_cast
      linarith [Nat.cast_nonneg (α := Number) i]
    exact (htimes t ht).trans_le
      (add_le_add_right (mul_le_mul_of_nonneg_right hlater hwindow.le) first)
  · rw [Bool.eq_false_iff, Ne, hover]
    omega

theorem le_last {last : Number} (horder : times.Pairwise (· ≤ ·))
    (hlast : times.getLast? = some last) : ∀ t ∈ times, t ≤ last := by
  intro t ht
  rw [List.getLast?_eq_some_getLast (List.ne_nil_of_mem ht)] at hlast
  exact Option.some.inj hlast ▸ horder.rel_getLast ht

/-- Where the loop starts from. -/
theorem exists_windowAt (hwindow : 0 < config.windowMs)
    (horder : (times ++ [now]).Pairwise (· ≤ ·)) :
    ∃ first j, first ≤ now ∧ (times ++ [now]).head? = some first ∧
      (counted config times).getD { windowStartMs := now, count := 0, history := [] } =
        windowAt config first times j ∧
      (∀ t ∈ times, t < first + (j + 1) * config.windowMs) ∧
      j ≤ index first config.windowMs now := by
  have hlast := (List.pairwise_append.mp horder).2.2
  cases times with
  | nil =>
      refine ⟨now, 0, le_rfl, rfl, ?_, by simp, Nat.zero_le _⟩
      simp [counted, windowAt, countFrom]
  | cons first rest =>
      have hend := List.getLast?_eq_some_getLast (List.cons_ne_nil first rest)
      have hupto := le_last (List.pairwise_append.mp horder).1 hend
      have hnow := hlast _ (List.getLast_mem (List.cons_ne_nil first rest)) now List.mem_cons_self
      generalize (first :: rest).getLast _ = last at hupto hend hnow
      have hstart := hupto first List.mem_cons_self
      refine ⟨first, index first config.windowMs last, hstart.trans hnow, rfl, ?_, ?_, ?_⟩
      · rw [counted, List.head?_cons, hend]
        rfl
      · exact fun t ht => (hupto t ht).trans_lt (TumblingWindows.lt_next hwindow hstart)
      · exact TumblingWindows.index_mono hwindow hnow

/-- An invocation is counted. -/
theorem advance_counted (hwindow : 0 < config.windowMs)
    (horder : (times ++ [now]).Pairwise (· ≤ ·)) :
    ∃ state, counted config (times ++ [now]) = some state ∧
      Yields (fun fuel => advance fuel config now (counted config times)) state := by
  obtain ⟨first, j, hfirst, hhead, hstart, htimes, hj⟩ := exists_windowAt hwindow horder
  have hopen := (TumblingWindows.le_index_iff hwindow hfirst).mp (le_refl (index first _ now))
  refine ⟨windowAt config first (times ++ [now]) (index first config.windowMs now), ?_, ?_⟩
  · rw [counted, hhead, List.getLast?_concat]
    rfl
  · rw [← windowAt_snoc hwindow hopen]
    simp only [advance, hstart]
    exact (run_windowAt hwindow hfirst htimes hj).map _

/-- The loop ends for any state: the time that is left shrinks by a window each round. -/
theorem exists_advance (hwindow : 0 < config.windowMs) (now : Number)
    (state : Option WindowState) :
    ∃ state', Yields (fun fuel => advance fuel config now state) state' := by
  let variant (state : WindowState) : Nat := ⌊(now - state.windowStartMs) / config.windowMs⌋₊
  have hround : ∀ state, WindowState.isOver config now state = true →
      variant (state.roll config) < variant state := by
    intro state hover
    have hover : config.windowMs ≤ now - state.windowStartMs := by
      simpa [WindowState.isOver] using hover
    have hone : 1 ≤ (now - state.windowStartMs) / config.windowMs := (one_le_div hwindow).mpr hover
    have hleft : (now - (state.windowStartMs + config.windowMs)) / config.windowMs =
        (now - state.windowStartMs) / config.windowMs - 1 := by
      rw [← sub_sub, sub_div, div_self hwindow.ne']
    have hpos : 1 ≤ ⌊(now - state.windowStartMs) / config.windowMs⌋₊ :=
      (Nat.one_le_floor_iff _).mpr hone
    simp only [variant, WindowState.roll, hleft, Nat.floor_sub_one]
    omega
  obtain ⟨s', hrun⟩ := WhileLoop.exists_run_of_variant variant hround le_rfl
  exact ⟨_, (Yields.of_run hrun).map _⟩

/-! ## Streams -/

theorem timesOf_snoc (contractId : String) (stream : List NormalizedInvocation)
    (invocation : NormalizedInvocation) :
    timesOf contractId (stream ++ [invocation]) = timesOf contractId stream ++
      if invocation.contractId = contractId then (invocation.occurredAtMs.map Int.cast).toList
      else [] := by
  rw [timesOf, List.filter_append, List.filterMap_append, timesOf]
  congr 1
  by_cases h : invocation.contractId = contractId
  · cases htime : invocation.occurredAtMs <;> simp [h, htime]
  · simp [h]

theorem timesOf_ordered {contractId : String} {stream : List NormalizedInvocation}
    {invocation : NormalizedInvocation}
    (horder : (timesOf contractId (stream ++ [invocation])).Pairwise (· ≤ ·)) :
    (timesOf contractId stream).Pairwise (· ≤ ·) := by
  rw [timesOf_snoc] at horder
  exact (List.pairwise_append.mp horder).1

/-- What one call of the rule comes to. -/
inductive Evaluated (config : Config) (invocation : NormalizedInvocation) (states : States) :
    List AnomalyReport × States → Prop
  | ignored (htime : invocation.occurredAtMs = none) :
      Evaluated config invocation states ([], states)
  | added {nowMs : Int} {state : WindowState} (htime : invocation.occurredAtMs = some nowMs)
      (hstate : Yields
        (fun fuel => advance fuel config nowMs (states invocation.contractId)) state) :
      Evaluated config invocation states (anomalies config invocation state,
        Function.update states invocation.contractId (some state))

theorem evaluate_yields (hwindow : 0 < config.windowMs) (invocation : NormalizedInvocation)
    (states : States) : ∃ result,
      Yields (fun fuel => evaluate fuel config invocation states) result ∧
        Evaluated config invocation states result := by
  cases htime : invocation.occurredAtMs with
  | none =>
      refine ⟨_, .of_eq fun fuel => ?_, .ignored htime⟩
      rw [evaluate, htime]
  | some nowMs =>
      obtain ⟨state, hstate⟩ := exists_advance hwindow nowMs (states invocation.contractId)
      refine ⟨_, ?_, .added htime hstate⟩
      simp only [evaluate, htime]
      exact hstate.map _

/-- The step lemma: an invocation adds to the times of its contract. -/
theorem Evaluated.keeps_counted {invocation : NormalizedInvocation} {states : States}
    {result : List AnomalyReport × States} (h : Evaluated config invocation states result)
    (hwindow : 0 < config.windowMs) {stream : List NormalizedInvocation} {contractId : String}
    (horder : (timesOf contractId (stream ++ [invocation])).Pairwise (· ≤ ·))
    (hstates : states contractId = counted config (timesOf contractId stream)) :
    result.2 contractId = counted config (timesOf contractId (stream ++ [invocation])) := by
  rw [timesOf_snoc] at horder ⊢
  cases h with
  | ignored htime => simpa [htime] using hstates
  | @added nowMs state htime hstate =>
      by_cases hsame : invocation.contractId = contractId
      · subst hsame
        rw [htime, if_pos rfl, Option.map_some, Option.toList_some] at horder ⊢
        obtain ⟨expected, hexpected, hyields⟩ := advance_counted hwindow horder
        rw [hstates] at hstate
        rw [hexpected, hyields.unique hstate]
        exact Function.update_self ..
      · rw [if_neg hsame, List.append_nil, ← hstates]
        exact Function.update_of_ne (Ne.symm hsame) ..

/-- Every contract's state is counted from its own times. -/
theorem statesAfter_yields (hwindow : 0 < config.windowMs) (stream : List NormalizedInvocation) :
    ∃ states, Yields (fun fuel => statesAfter fuel config stream) states ∧
      ∀ contractId, (timesOf contractId stream).Pairwise (· ≤ ·) →
        states contractId = counted config (timesOf contractId stream) := by
  induction stream using List.reverseRecOn with
  | nil => exact ⟨_, .of_eq fun _ => rfl, fun _ _ => rfl⟩
  | append_singleton stream invocation ih =>
      obtain ⟨states, hstates, hcounted⟩ := ih
      obtain ⟨result, hresult, heffect⟩ := evaluate_yields hwindow invocation states
      refine ⟨result.2, ?_, fun contractId horder => ?_⟩
      · have hsnoc : ∀ fuel, statesAfter fuel config (stream ++ [invocation]) =
            (statesAfter fuel config stream).bind fun states =>
              (evaluate fuel config invocation states).map Prod.snd := by
          intro fuel
          simp [statesAfter, List.foldlM_append]
        simp only [hsnoc]
        exact hstates.bind (hresult.map Prod.snd)
      · exact heffect.keeps_counted hwindow horder (hcounted contractId (timesOf_ordered horder))

/-- After a stream in which the times of a contract do not decrease, its state is: the
window of the last time, the invocations since that window began, and the counts of the
windows just before, as many as the baseline takes. -/
theorem windows_counted_exactly (hwindow : 0 < config.windowMs)
    (stream : List NormalizedInvocation) :
    ∃ states, Yields (fun fuel => statesAfter fuel config stream) states ∧
      ∀ contractId first last, (timesOf contractId stream).Pairwise (· ≤ ·) →
        (timesOf contractId stream).head? = some first →
          (timesOf contractId stream).getLast? = some last →
            let k := ⌊(last - first) / config.windowMs⌋₊
            let kept := min k config.volumeBaselineWindows
            states contractId = some {
              windowStartMs := first + k * config.windowMs
              count := (timesOf contractId stream).countP fun t =>
                first + k * config.windowMs ≤ t ∧ t ≤ last
              history := (List.range' (k - kept) kept).map fun j : Nat =>
                (timesOf contractId stream).countP fun t =>
                  first + j * config.windowMs ≤ t ∧ t < first + (j + 1) * config.windowMs } := by
  obtain ⟨states, hstates, hcounted⟩ := statesAfter_yields hwindow stream
  refine ⟨states, hstates, fun contractId first last horder hhead hlast => ?_⟩
  rw [hcounted contractId horder, counted, hhead, hlast]
  generalize timesOf contractId stream = times at horder hlast
  have hupto := le_last horder hlast
  have hcount : ∀ k, countFrom first config.windowMs times k =
      times.countP fun t => first + k * config.windowMs ≤ t ∧ t ≤ last := by
    intro k
    refine List.countP_congr fun t ht => ?_
    simp only [decide_eq_true_eq]
    exact (and_iff_left (hupto t ht)).symm
  rw [Option.bind_some, Option.map_some, windowAt, hcount, Trailing.rtake_map_range]
  rfl

/-! A contract that is invoked now and then, and another one in between. -/

namespace Sample

def invocation (contractId : String) (occurredAtMs : Int) : NormalizedInvocation where
  contractId
  txHash := "tx"
  ledger := 7
  occurredAt := ""
  occurredAtMs := some occurredAtMs
  sourceAccount := "account"
  functionName := none
  args := []
  successful := true

/-- Windows of a second, of which two are the baseline. -/
def perSecond : Config := ⟨1, 2, 3, 2⟩

def stream : List NormalizedInvocation :=
  [invocation "credit" 0, invocation "pool" 9000, invocation "credit" 500, invocation "pool" 10,
    invocation "credit" 1000, invocation "credit" 3500]

end Sample

/-- In the fourth window, after one with an invocation and an empty one. -/
theorem sample_windows :
    ∃ states, Yields (fun fuel => statesAfter fuel Sample.perSecond Sample.stream) states ∧
      states "credit" = some ⟨3000, 1, [1, 0]⟩ := by
  obtain ⟨states, hstates, hcounted⟩ :=
    windows_counted_exactly (by decide +kernel : 0 < Sample.perSecond.windowMs) Sample.stream
  refine ⟨states, hstates, (hcounted "credit" 0 3500 ?_ ?_ ?_).trans ?_⟩ <;> decide +kernel

end StellarKraal.Monitoring.VolumeSpike
