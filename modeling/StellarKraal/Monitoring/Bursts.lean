import StellarKraal.Monitoring.VolumeWindows

/-!
# Bursts

A burst is many invocations in a window, against the average of the windows before it.
The rule also asks that this average is positive: after silence in all the windows of the
baseline it flags nothing, however many invocations there are. And it takes the multiple of
the average in binary64, which a count at the threshold may be above or below.
-/

namespace StellarKraal.Monitoring.VolumeSpike

open FloatingPoint (binary64)
open TumblingWindows (countFrom countIn index)
open WhileLoop (Yields)

/-! ## In terms of the times -/

/-- How many windows have gone by when the last invocation comes. -/
def elapsed (config : Config) (times : List Number) : Nat :=
  ⌊(times.getLastD 0 - times.headD 0) / config.windowMs⌋₊

/-- The invocations in window `j`. -/
def windowCount (config : Config) (times : List Number) (j : Nat) : Nat :=
  times.countP fun t => times.headD 0 + j * config.windowMs ≤ t ∧
    t < times.headD 0 + (j + 1) * config.windowMs

/-- The counts of the windows that the current one is compared with. -/
def trailingCounts (config : Config) (times : List Number) : List Nat :=
  let kept := min (elapsed config times) config.volumeBaselineWindows
  (List.range' (elapsed config times - kept) kept).map (windowCount config times)

def average (counts : List Nat) : Number := (counts.sum : Number) / counts.length

/-- What the documented rule compares the count with. -/
def threshold (config : Config) (counts : List Nat) : Number :=
  average counts * config.volumeSpikeMultiplier

/-- The same in binary64. -/
def roundedThreshold (config : Config) (counts : List Nat) : Number :=
  binary64 (mean (counts.map Nat.cast) * config.volumeSpikeMultiplier)

/-- So many invocations after at least one full window. -/
def Busy (config : Config) (times : List Number) : Prop :=
  1 ≤ elapsed config times ∧
    config.volumeSpikeMinCount ≤ windowCount config times (elapsed config times)

/-- The documented rule. -/
def Spike (config : Config) (times : List Number) : Prop :=
  Busy config times ∧
    threshold config (trailingCounts config times) < windowCount config times (elapsed config times)

/-- Many invocations after windows without any. -/
def BurstAfterSilence (config : Config) (times : List Number) : Prop :=
  Busy config times ∧ ∀ count ∈ trailingCounts config times, count = 0

/-- Above one of the two and not above the other. -/
def Between (x y : Number) (count : Nat) : Prop := x < count ∧ count ≤ y ∨ y < count ∧ count ≤ x

/-- Many invocations, and their number lies between the threshold and the rounded one. -/
def BurstInBetween (config : Config) (times : List Number) : Prop :=
  Busy config times ∧ Between (threshold config (trailingCounts config times))
    (roundedThreshold config (trailingCounts config times))
    (windowCount config times (elapsed config times))

variable {config : Config} {times : List Number} {invocation : NormalizedInvocation}
  {state : WindowState}

/-! ## What the rule looks at -/

theorem sum_pos_iff {values : List Number} (hvalues : ∀ v ∈ values, 0 ≤ v) {start : Number}
    (hstart : 0 ≤ start) :
    0 < values.foldl (fun sum v => binary64 (sum + v)) start ↔
      0 < start ∨ ∃ v ∈ values, 0 < v := by
  induction values generalizing start with
  | nil => simp
  | cons v rest ih =>
      obtain ⟨hv, hrest⟩ := List.forall_mem_cons.mp hvalues
      have hsum : 0 ≤ start + v := add_nonneg hstart hv
      have hpos : 0 < binary64 (start + v) ↔ 0 < start ∨ 0 < v := by
        constructor
        · intro hrounded
          by_contra hnone
          simp only [not_or, not_lt] at hnone
          have hzero : start + v = 0 := by linarith
          rw [hzero, binary64, FloatingPoint.round_zero] at hrounded
          exact lt_irrefl 0 hrounded
        · rintro (h | h) <;> exact FloatingPoint.round_pos (by linarith)
      rw [List.foldl_cons, ih hrest (FloatingPoint.round_nonneg hsum), hpos, or_assoc]
      simp

/-- Rounding makes no positive average zero. -/
theorem mean_pos_iff {counts : List Nat} :
    0 < mean (counts.map Nat.cast) ↔ ¬ ∀ count ∈ counts, count = 0 := by
  have hsum := sum_pos_iff
    (List.forall_mem_map.mpr fun count (_ : count ∈ counts) => Nat.cast_nonneg (α := Number) count)
    (le_refl (0 : Number))
  have hsome : (∃ v ∈ counts.map (Nat.cast : Nat → Number), 0 < v) ↔
      ¬ ∀ count ∈ counts, count = 0 := by
    simp [Nat.pos_iff_ne_zero]
  simp only [lt_irrefl, false_or, hsome] at hsum
  rw [← hsum, mean]
  split
  next hnone => simp [List.length_eq_zero_iff.mp hnone]
  next hne =>
    have hlength : (0 : Number) < (counts.map (Nat.cast : Nat → Number)).length :=
      Nat.cast_pos.mpr (Nat.pos_of_ne_zero hne)
    constructor
    · intro hrounded
      by_contra hzero
      have hnonpos := div_nonpos_of_nonpos_of_nonneg (not_lt.mp hzero) hlength.le
      have hle := FloatingPoint.round_mono 52 hnonpos
      rw [FloatingPoint.round_zero] at hle
      exact absurd hrounded (not_lt.mpr hle)
    · exact fun h => FloatingPoint.round_pos (div_pos h hlength)

theorem anomalies_ne_nil_iff : anomalies config invocation state ≠ [] ↔
    1 ≤ state.history.length ∧ config.volumeSpikeMinCount ≤ state.count ∧
      0 < mean (state.history.map Nat.cast) ∧
      roundedThreshold config state.history < state.count := by
  rw [anomalies, roundedThreshold]
  split_ifs <;> simp_all

/-! ## How far apart the thresholds are -/

theorem sum_exact (counts : List Nat) (start : Nat) (h : start + counts.sum ≤ 2 ^ 53) :
    (counts.map Nat.cast).foldl (fun sum v => binary64 (sum + v)) (start : Number) =
      (start + counts.sum : Nat) := by
  induction counts generalizing start with
  | nil => rfl
  | cons count rest ih =>
      rw [List.sum_cons, ← Nat.add_assoc] at h ⊢
      have hhead : binary64 ((start : Number) + count) = (start + count : Nat) := by
        rw [← Nat.cast_add]
        exact FloatingPoint.round_natCast (by omega)
      rw [List.map_cons, List.foldl_cons, hhead]
      exact ih _ h

theorem mean_counts {counts : List Nat} (h : counts.sum ≤ 2 ^ 53) :
    mean (counts.map Nat.cast) = binary64 (average counts) := by
  have hsum := sum_exact counts 0 (by omega)
  rw [Nat.cast_zero, Nat.zero_add] at hsum
  rw [mean, hsum, List.length_map, average]
  split
  next hnone => simp [hnone, binary64, FloatingPoint.round_zero]
  next => rfl

/-- The rounding of the average and that of its multiple are each within `2 ^ -53`. -/
theorem abs_roundedThreshold_sub_le {counts : List Nat} (h : counts.sum ≤ 2 ^ 53) :
    |roundedThreshold config counts - threshold config counts| ≤
      |threshold config counts| / 2 ^ 51 := by
  rw [roundedThreshold, mean_counts h, threshold]
  generalize average counts = a
  generalize config.volumeSpikeMultiplier = m
  have hmean : |binary64 a - a| ≤ |a| / 2 ^ 53 := FloatingPoint.abs_round_sub_le 52 a
  have hproduct : |binary64 (binary64 a * m) - binary64 a * m| ≤ |binary64 a * m| / 2 ^ 53 :=
    FloatingPoint.abs_round_sub_le 52 _
  have hshift : |binary64 a * m - a * m| ≤ |a * m| / 2 ^ 53 := by
    rw [← sub_mul, abs_mul, abs_mul, mul_div_right_comm]
    exact mul_le_mul_of_nonneg_right hmean (abs_nonneg m)
  have hsize : |binary64 a * m| ≤ |a * m| + |a * m| / 2 ^ 53 := by
    have := abs_sub_abs_le_abs_sub (binary64 a * m) (a * m)
    linarith
  have htotal := abs_sub_le (binary64 (binary64 a * m)) (binary64 a * m) (a * m)
  have hnonneg := abs_nonneg (a * m)
  linarith

theorem Between.near {x y : Number} {count : Nat} (h : Between x y count) :
    |(count : Number) - x| ≤ |y - x| := by
  rcases h with ⟨hx, hy⟩ | ⟨hy, hx⟩
  · rw [abs_of_pos (by linarith), abs_of_pos (by linarith)]
    linarith
  · rw [abs_of_nonpos (by linarith), abs_of_neg (by linarith)]
    linarith

/-- With a whole multiplier nothing but the threshold is that near to it. -/
theorem tie_of_near {counts : List Nat} {count multiplier : Nat}
    (hwhole : config.volumeSpikeMultiplier = multiplier)
    (hsmall : counts.sum * multiplier < 2 ^ 51)
    (hnear : |(count : Number) - threshold config counts| ≤ |threshold config counts| / 2 ^ 51) :
    count * counts.length = counts.sum * multiplier := by
  rcases Nat.eq_zero_or_pos counts.length with hnone | hsome
  · simp [List.length_eq_zero_iff.mp hnone]
  have hlength : (0 : Number) < counts.length := Nat.cast_pos.mpr hsome
  have hthreshold : threshold config counts * counts.length = counts.sum * multiplier := by
    rw [threshold, average, hwhole]
    field_simp
  have hnonneg : 0 ≤ threshold config counts := by
    rw [threshold, average, hwhole]
    positivity
  have hsmall' : (counts.sum : Number) * multiplier < 2 ^ 51 := by
    rw [← Nat.cast_mul]
    exact_mod_cast hsmall
  -- Both sides of the equation are whole, and less than one apart.
  have hclose : |((count * counts.length : Nat) : Number) - (counts.sum * multiplier : Nat)| < 1 := by
    rw [Nat.cast_mul, Nat.cast_mul, ← hthreshold, ← sub_mul, abs_mul, abs_of_pos hlength]
    rw [abs_of_nonneg hnonneg] at hnear
    calc |(count : Number) - threshold config counts| * counts.length
        ≤ threshold config counts / 2 ^ 51 * counts.length :=
          mul_le_mul_of_nonneg_right hnear hlength.le
      _ = counts.sum * multiplier / 2 ^ 51 := by rw [div_mul_eq_mul_div, hthreshold]
      _ < 1 := by rwa [div_lt_one (by positivity)]
  have hint : |((count * counts.length : Nat) : Int) - (counts.sum * multiplier : Nat)| < 1 := by
    exact_mod_cast hclose
  rw [Int.abs_lt_one_iff] at hint
  omega

theorem threshold_of_silence {counts : List Nat} (hsilence : ∀ count ∈ counts, count = 0) :
    threshold config counts = 0 := by
  rw [threshold, average, List.sum_eq_zero_iff_forall_eq_nat.mpr hsilence, Nat.cast_zero, zero_div,
    zero_mul]

theorem length_trailingCounts : (trailingCounts config times).length =
    min (elapsed config times) config.volumeBaselineWindows := by
  rw [trailingCounts, List.length_map, List.length_range']

/-- The rule on the state that counts the times. -/
theorem flagged_iff (hbaseline : 1 ≤ config.volumeBaselineWindows) {start : Number} :
    anomalies config invocation {
      windowStartMs := start
      count := windowCount config times (elapsed config times)
      history := trailingCounts config times } ≠ [] ↔
    Busy config times ∧ (¬ ∀ count ∈ trailingCounts config times, count = 0) ∧
      roundedThreshold config (trailingCounts config times) <
        windowCount config times (elapsed config times) := by
  have hkept : 1 ≤ min (elapsed config times) config.volumeBaselineWindows ↔
      1 ≤ elapsed config times := by omega
  rw [anomalies_ne_nil_iff, length_trailingCounts, hkept, mean_pos_iff, Busy, and_assoc]

/-- The two differ after silence, and where the thresholds lie on either side. -/
theorem flagged_as_documented_iff (hcount : 0 < windowCount config times (elapsed config times)) :
    ((Busy config times ∧ (¬ ∀ count ∈ trailingCounts config times, count = 0) ∧
        roundedThreshold config (trailingCounts config times) <
          windowCount config times (elapsed config times)) ↔ Spike config times) ↔
      ¬ BurstAfterSilence config times ∧ ¬ BurstInBetween config times := by
  rw [Spike, BurstAfterSilence, BurstInBetween]
  by_cases hbusy : Busy config times
  · by_cases hsilence : ∀ count ∈ trailingCounts config times, count = 0
    · have hspike : threshold config (trailingCounts config times) <
          windowCount config times (elapsed config times) := by
        rw [threshold_of_silence hsilence]
        exact Nat.cast_pos.mpr hcount
      tauto
    · rw [Between, ← not_lt, ← not_lt]
      tauto
  · tauto

/-- The state holds the count of the current window, and those of the windows before it. -/
theorem counted_eq (hwindow : 0 < config.windowMs) (horder : times.Pairwise (· ≤ ·))
    (hne : times ≠ []) :
    counted config times = some {
      windowStartMs := times.headD 0 + elapsed config times * config.windowMs
      count := windowCount config times (elapsed config times)
      history := trailingCounts config times } := by
  have hlast := List.getLast?_eq_some_getLast hne
  have hupto := le_last horder hlast
  have helapsed : elapsed config times =
      index (times.headD 0) config.windowMs (times.getLast hne) := by
    rw [elapsed, List.getLastD_eq_getLast?, hlast]
    rfl
  have hhead : times.head? = some (times.headD 0) := by
    cases times with
    | nil => contradiction
    | cons => rfl
  have hfirst : times.headD 0 ≤ times.getLast hne := hupto _ (List.mem_of_head? hhead)
  have hcount := TumblingWindows.countFrom_eq_countIn fun t ht =>
    (hupto t ht).trans_lt (TumblingWindows.lt_next hwindow hfirst)
  rw [counted, hhead, hlast, Option.bind_some, Option.map_some, windowAt, hcount,
    Trailing.rtake_map_range, ← helapsed]
  rfl

theorem advance_count_pos {fuel : Nat} {now : Number} {old : Option WindowState}
    (h : advance fuel config now old = some state) : 0 < state.count := by
  obtain ⟨_, -, rfl⟩ := Option.map_eq_some_iff.mp h
  exact Nat.succ_pos _

/-- An invocation is flagged as the documented rule says, unless it comes in a burst after
silence, or in one whose size lies between the threshold and the rounded one. Such a size
differs from the threshold by no more than one part in `2 ^ 51`, and if the multiplier is
whole it is the threshold. -/
theorem burst_flagged_iff (hwindow : 0 < config.windowMs)
    (hbaseline : 1 ≤ config.volumeBaselineWindows)
    (earlier : List NormalizedInvocation) {nowMs : Int}
    (htime : invocation.occurredAtMs = some nowMs)
    (horder : (timesOf invocation.contractId (earlier ++ [invocation])).Pairwise (· ≤ ·)) :
    let times := timesOf invocation.contractId (earlier ++ [invocation])
    (∃ states result, Yields (fun fuel => statesAfter fuel config earlier) states ∧
      Yields (fun fuel => evaluate fuel config invocation states) result ∧
      ((result.1 ≠ [] ↔ Spike config times) ↔
        ¬ BurstAfterSilence config times ∧ ¬ BurstInBetween config times)) ∧
    (BurstInBetween config times → (trailingCounts config times).sum ≤ 2 ^ 53 →
      |(windowCount config times (elapsed config times) : Number) -
          threshold config (trailingCounts config times)| ≤
        |threshold config (trailingCounts config times)| / 2 ^ 51 ∧
      ∀ multiplier : Nat, config.volumeSpikeMultiplier = multiplier →
        (trailingCounts config times).sum * multiplier < 2 ^ 51 →
          windowCount config times (elapsed config times) * (trailingCounts config times).length =
            (trailingCounts config times).sum * multiplier) := by
  refine ⟨?_, fun hburst hsum => ?_⟩
  swap
  · have hnear := hburst.2.near.trans (abs_roundedThreshold_sub_le hsum)
    exact ⟨hnear, fun _ hwhole hsmall => tie_of_near hwhole hsmall hnear⟩
  obtain ⟨states, hstates, hcounted⟩ := statesAfter_yields hwindow earlier
  obtain ⟨result, hresult, heffect⟩ := evaluate_yields hwindow invocation states
  refine ⟨states, result, hstates, hresult, ?_⟩
  have hafter := heffect.keeps_counted hwindow horder (hcounted _ (timesOf_ordered horder))
  have hne : timesOf invocation.contractId (earlier ++ [invocation]) ≠ [] := by
    rw [timesOf_snoc, htime]
    simp
  generalize timesOf invocation.contractId (earlier ++ [invocation]) = times at *
  cases heffect with
  | ignored hnone => simp [htime] at hnone
  | @added _ state _ hstate =>
      obtain ⟨enough, hadvance⟩ := hstate
      have hcount := advance_count_pos (hadvance enough le_rfl)
      simp only [Function.update_self] at hafter
      obtain rfl := Option.some.inj (hafter.trans (counted_eq hwindow horder hne))
      rw [flagged_iff hbaseline]
      exact flagged_as_documented_iff hcount

namespace Sample

/-- One invocation in each of two windows, and five in the next. -/
def rush : List NormalizedInvocation :=
  [0, 1000, 2000, 2001, 2002, 2003].map (Sample.invocation "credit")

/-- The same after ten windows of which only the first has an invocation. -/
def awakening : List NormalizedInvocation :=
  [0, 10000, 10001, 10002, 10003].map (Sample.invocation "credit")

/-- Windows of a second, eleven of them for the baseline, and its elevenfold. -/
def elevenfold : Config := ⟨1, 11, 11, 10⟩

/-- Fifteen invocations in the eleven windows before, and fourteen in the current one. -/
def even : List NormalizedInvocation :=
  ([0, 1, 2, 3] ++ (List.range 11).map (fun j => 1000 * j + 500) ++
    (List.range 14).map (fun j => 11000 + j)).map fun ms => Sample.invocation "credit" ms

end Sample

theorem sample_burst_flagged :
    ∃ states result,
      Yields (fun fuel => statesAfter fuel Sample.perSecond Sample.rush) states ∧
      Yields (fun fuel => evaluate fuel Sample.perSecond (Sample.invocation "credit" 2004) states)
        result ∧ result.1 ≠ [] := by
  obtain ⟨⟨states, result, hstates, hresult, hiff⟩, -⟩ :=
    @burst_flagged_iff Sample.perSecond (Sample.invocation "credit" 2004) (by decide +kernel)
      (by decide) Sample.rush 2004 rfl (by decide +kernel)
  refine ⟨states, result, hstates, hresult, (hiff.mpr ⟨?_, ?_⟩).mpr ?_⟩
  · unfold BurstAfterSilence Busy
    decide +kernel
  · unfold BurstInBetween Busy Between
    decide +kernel
  · unfold Spike Busy
    decide +kernel

/-- Whatever comes out is an anomaly exactly where the documented rule says so. -/
def FlaggedAsDocumented (config : Config) (earlier : List NormalizedInvocation)
    (invocation : NormalizedInvocation) : Prop :=
  ∀ fuel states result, statesAfter fuel config earlier = some states →
    evaluate fuel config invocation states = some result →
      (result.1 ≠ [] ↔ Spike config (timesOf invocation.contractId (earlier ++ [invocation])))

theorem FlaggedAsDocumented.spike_iff {earlier : List NormalizedInvocation}
    (h : FlaggedAsDocumented config earlier invocation) (fuel : Nat) (flagged : Bool)
    (hrun : ((statesAfter fuel config earlier).bind (evaluate fuel config invocation)).map
      (fun result => decide (result.1 ≠ [])) = some flagged) :
    flagged = true ↔ Spike config (timesOf invocation.contractId (earlier ++ [invocation])) := by
  obtain ⟨result, hresult, rfl⟩ := Option.map_eq_some_iff.mp hrun
  obtain ⟨states, hstates, hevaluate⟩ := Option.bind_eq_some_iff.mp hresult
  rw [decide_eq_true_iff]
  exact h fuel states result hstates hevaluate

/-- The fifth invocation after silence is not flagged. Of fifteen invocations that follow
fifteen in eleven windows the last one is: `15 / 11 * 11` is less than 15 in binary64. -/
theorem burst_after_silence_missed :
    (¬ ∀ (config : Config) (earlier : List NormalizedInvocation)
      (invocation : NormalizedInvocation) (nowMs : Int), 0 < config.windowMs →
        1 ≤ config.volumeBaselineWindows → invocation.occurredAtMs = some nowMs →
          (timesOf invocation.contractId (earlier ++ [invocation])).Pairwise (· ≤ ·) →
            FlaggedAsDocumented config earlier invocation) ∧
    ¬ ∀ (config : Config) (earlier : List NormalizedInvocation)
      (invocation : NormalizedInvocation) (nowMs : Int), 0 < config.windowMs →
        1 ≤ config.volumeBaselineWindows → invocation.occurredAtMs = some nowMs →
          (timesOf invocation.contractId (earlier ++ [invocation])).Pairwise (· ≤ ·) →
            ¬ BurstAfterSilence config (timesOf invocation.contractId (earlier ++ [invocation])) →
              FlaggedAsDocumented config earlier invocation := by
  constructor
  · intro hall
    have hflagged := hall Sample.perSecond Sample.awakening (Sample.invocation "credit" 10004) 10004
      (by decide +kernel) (by decide) rfl (by decide +kernel)
    have hspike := hflagged.spike_iff 10 false (by decide +kernel)
    unfold Spike Busy at hspike
    exact absurd hspike (by decide +kernel)
  · intro hall
    have hflagged := hall Sample.elevenfold Sample.even (Sample.invocation "credit" 11014) 11014
      (by decide +kernel) (by decide) rfl (by decide +kernel)
      (by unfold BurstAfterSilence Busy; decide +kernel)
    have hspike := hflagged.spike_iff 20 true (by decide +kernel)
    unfold Spike Busy at hspike
    exact absurd hspike (by decide +kernel)

end StellarKraal.Monitoring.VolumeSpike
