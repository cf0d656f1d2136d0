import Mathlib.Algebra.Order.Field.Rat
import Mathlib.Algebra.Order.Monoid.Unbundled.Pow
import Mathlib.Order.Interval.Set.Defs
import Mathlib.Tactic.Linarith
import StellarKraal.Foundation.Outcome

/-!
# Retries of the oracle bridge

The delay before a retry doubles with each attempt up to a ceiling, and a random part of it
is added or taken away. The doubling is computed as an integer before the ceiling applies,
and then as a float, which holds no integer from `2 ^ 1024` on. Floats are not rounded here.
-/

namespace StellarKraal.OracleBridge.Resilience

/-- What is raised, with its message. -/
inductive PythonError
  | valueError (message : String)
  | overflowError (message : String)
  deriving DecidableEq, Repr

/-- The fields of the data class. -/
structure BackoffFields where
  baseDelaySeconds : ℚ
  maxDelaySeconds : ℚ
  jitterFactor : ℚ

/-- `__post_init__` -/
def BackoffFields.postInit (fields : BackoffFields) : Except PythonError Unit := do
  Except.refuseIf (fields.baseDelaySeconds ≤ 0) (.valueError "base_delay_seconds must be > 0")
  Except.refuseIf (fields.maxDelaySeconds ≤ 0) (.valueError "max_delay_seconds must be > 0")
  Except.refuseIf (¬ (0 ≤ fields.jitterFactor ∧ fields.jitterFactor ≤ 1))
    (.valueError "jitter_factor must be in [0.0, 1.0]")

/-- Fields that `__post_init__` has accepted. -/
structure BackoffConfig extends BackoffFields where
  accepted : toBackoffFields.postInit = .ok ()

/-- `random.uniform`, which draws from the interval between its arguments. -/
structure RandomDraw where
  uniform : ℚ → ℚ → ℚ
  mem_Icc : ∀ {a b : ℚ}, a ≤ b → uniform a b ∈ Set.Icc a b

/-- The product of a `float` and an `int`, which becomes a `float` first. -/
def floatTimesInt (x : ℚ) (n : Int) : Except PythonError ℚ :=
  if n < 2 ^ 1024 then pure (x * n)
  else throw (.overflowError "int too large to convert to float")

def computeBackoff (random : RandomDraw) (attempt : Int) (config : BackoffConfig) :
    Except PythonError ℚ := do
  let attempt := if attempt < 0 then 0 else attempt
  let product ← floatTimesInt config.baseDelaySeconds (2 ^ attempt.toNat)
  let rawDelay := min product config.maxDelaySeconds
  let window := rawDelay * config.jitterFactor
  let jitter := random.uniform (-window) window
  return max 0 (rawDelay + jitter)

variable {random : RandomDraw} {config : BackoffConfig} {attempt : Int}

theorem BackoffConfig.inRange (config : BackoffConfig) :
    0 < config.baseDelaySeconds ∧ 0 < config.maxDelaySeconds ∧
      0 ≤ config.jitterFactor ∧ config.jitterFactor ≤ 1 := by
  have haccepted := config.accepted
  simp only [BackoffFields.postInit, Except.bind_succeeds, Except.refuseIf_eq_ok, not_le,
    not_not] at haccepted
  obtain ⟨_, hbase, _, hmax, hjitter⟩ := haccepted
  exact ⟨hbase, hmax, hjitter⟩

/-- The bounds that the documentation gives. -/
def WithinBounds (config : BackoffConfig) (delay : ℚ) : Prop :=
  0 ≤ delay ∧ delay ≤ config.maxDelaySeconds * (1 + config.jitterFactor)

/-- Whatever is drawn, a capped delay with its jitter is within the bounds. -/
theorem withinBounds_jittered (random : RandomDraw) (config : BackoffConfig) {rawDelay : ℚ}
    (hpos : 0 ≤ rawDelay) (hcap : rawDelay ≤ config.maxDelaySeconds) :
    WithinBounds config (max 0 (rawDelay + random.uniform (-(rawDelay * config.jitterFactor))
      (rawDelay * config.jitterFactor))) := by
  obtain ⟨-, hmax, hjitter, -⟩ := config.inRange
  have hwindow : 0 ≤ rawDelay * config.jitterFactor := mul_nonneg hpos hjitter
  obtain ⟨-, hdraw⟩ := random.mem_Icc (neg_le_self hwindow)
  refine ⟨le_max_left _ _, max_le (mul_nonneg hmax.le (by linarith)) ?_⟩
  calc rawDelay + random.uniform _ _
      ≤ rawDelay * (1 + config.jitterFactor) := by linarith
    _ ≤ config.maxDelaySeconds * (1 + config.jitterFactor) :=
        mul_le_mul_of_nonneg_right hcap (by linarith)

/-- The doubling fits a float for the first attempts only. -/
theorem two_pow_lt_iff : (2 : Int) ^ (if attempt < 0 then 0 else attempt).toNat < 2 ^ 1024 ↔
    attempt < 1024 := by
  rw [pow_lt_pow_iff_right₀ one_lt_two]
  split <;> omega

theorem computeBackoff_late (random : RandomDraw) (config : BackoffConfig)
    (hlate : ¬ attempt < 1024) : computeBackoff random attempt config =
      .error (.overflowError "int too large to convert to float") := by
  simp only [computeBackoff, floatTimesInt, if_neg (mt two_pow_lt_iff.mp hlate)]
  rfl

/-- There is a delay within the bounds for the attempts below 1024 and for no others. -/
theorem backoff_defined_iff (attempt : Int) (config : BackoffConfig) :
    (∀ random, ∃ delay, computeBackoff random attempt config = .ok delay ∧
      WithinBounds config delay) ↔ attempt < 1024 := by
  constructor
  · intro hdefined
    obtain ⟨delay, hdelay, -⟩ := hdefined ⟨fun a _ => a, fun h => ⟨le_rfl, h⟩⟩
    by_contra hlate
    exact nomatch (computeBackoff_late _ config hlate).symm.trans hdelay
  · intro hearly random
    obtain ⟨hbase, hmax, -, -⟩ := config.inRange
    simp only [computeBackoff, floatTimesInt, if_pos (two_pow_lt_iff.mpr hearly)]
    refine ⟨_, rfl, withinBounds_jittered random config (le_min ?_ hmax.le) (min_le_right _ _)⟩
    positivity

/-- The defaults of the fields. -/
def defaultConfig : BackoffConfig where
  baseDelaySeconds := 1
  maxDelaySeconds := 60
  jitterFactor := 1 / 4
  accepted := by decide +kernel

/-- Attempt 1024 raises an error instead of waiting for a minute. -/
theorem late_retry_overflows :
    ¬ ∀ (attempt : Int) (config : BackoffConfig) (random : RandomDraw), ∃ delay,
      computeBackoff random attempt config = .ok delay ∧ WithinBounds config delay := by
  intro hall
  obtain ⟨delay, hdelay, -⟩ := hall 1024 defaultConfig ⟨fun a _ => a, fun h => ⟨le_rfl, h⟩⟩
  exact nomatch (computeBackoff_late _ defaultConfig (lt_irrefl 1024)).symm.trans hdelay

end StellarKraal.OracleBridge.Resilience
