import StellarKraal.Contract.Administration

/-!
# Oracle registry and price submission

Two registries coexist: the single `ORACLE` slot and the `ORACLES` list, which
reads as the slot until the list is first written.
-/

namespace StellarKraal

open Except (refuseIf okOr)

/-- `MAX_PRICE`, exclusive. -/
def maxPrice : Int := 1000000000000000000

/-! ## Registry -/

def getOracles (w : World) : List Address :=
  match w.oracles with
  | some oracles => oracles
  | none => (w.config.map fun c => [c.oracle]).getD []

def addOracle (env : Env) (w : World) (admin oracle : Address) : Result World := do
  assertInitialized w
  assertNotPaused w
  assertAdmin w admin
  env.requireAuth admin
  let oracles := getOracles w
  refuseIf (oracle ∈ oracles) (.error .oracleAlreadyRegistered)
  refuseIf (oracles.length ≥ 5) (.error .oracleLimitReached)
  return { w with oracles := some (oracles ++ [oracle]) }

theorem addOracle_ok {env : Env} {w w' : World} {admin oracle : Address}
    (h : addOracle env w admin oracle = .ok w') :
    ∃ c, w.config = some c ∧ c.admin = admin ∧ admin ∈ env.signers ∧ isPausedRaw w = false ∧
      oracle ∉ getOracles w ∧ (getOracles w).length < 5 ∧
      w' = { w with oracles := some (getOracles w ++ [oracle]) } := by
  simp only [addOracle, Except.bind_succeeds, assertNotPaused_eq_ok, assertAdmin_eq_ok,
    Env.requireAuth_eq_ok, Except.refuseIf_eq_ok, Except.pure_succeeds, not_le] at h
  obtain ⟨_, _, _, hpaused, _, ⟨c, hc, hadmin⟩, _, hauth, _, hnew, _, hroom, rfl⟩ := h
  exact ⟨c, hc, hadmin, hauth, hpaused, hnew, hroom, rfl⟩

/-- The first occurrence of the oracle is removed by its index. -/
def removeOracle (env : Env) (w : World) (admin oracle : Address) : Result World := do
  requireAdmin env w admin
  let oracles := getOracles w
  let index ← okOr (oracles.idxOf? oracle) (.error .oracleNotFound)
  return { w with oracles := some (oracles.eraseIdx index) }

theorem removeOracle_ok {env : Env} {w w' : World} {admin oracle : Address}
    (h : removeOracle env w admin oracle = .ok w') :
    ∃ c, w.config = some c ∧ c.admin = admin ∧ admin ∈ env.signers ∧
      oracle ∈ getOracles w ∧ w' = { w with oracles := some ((getOracles w).erase oracle) } := by
  simp only [removeOracle, Except.bind_succeeds, requireAdmin_eq_ok, Except.okOr_eq_ok,
    Except.pure_succeeds] at h
  obtain ⟨_, ⟨c, hc, hadmin, hauth⟩, index, hindex, rfl⟩ := h
  have hmem : oracle ∈ getOracles w := by
    rw [← List.isSome_idxOf?, hindex]
    rfl
  refine ⟨c, hc, hadmin, hauth, hmem, ?_⟩
  rw [List.erase_eq_eraseIdx, hindex]

/-- What `get_state` reports. -/
structure ContractState where
  admin : Address
  token : Address
  ltvBps : Nat
  liqThresholdBps : Nat
  isPaused : Bool
  oracleCount : Nat
  totalLoans : Nat
  totalCollaterals : Nat
  deriving DecidableEq, Repr

def getState (w : World) (admin : Address) : Result ContractState := do
  assertInitialized w
  assertAdmin w admin
  let token ← w.get (·.token)
  let ltvBps ← w.get (·.ltv)
  let liqThresholdBps ← w.get (·.liqThr)
  return {
    admin, token, ltvBps, liqThresholdBps
    isPaused := isPausedRaw w
    oracleCount := (getOracles w).length
    totalLoans := w.loanCounter
    totalCollaterals := w.collateralCounter }

/-! ## Median of a submission -/

/-- The buffer `[0i128; 5]` with the prices written to its front. -/
def priceBuffer (prices : List Int) : List Int :=
  (List.range prices.length).foldl (fun arr i => arr.set i (prices.getD i 0)) (List.replicate 5 0)

/-- One comparison of the sorting loop. -/
def exchange (arr : List Int) (i j : Nat) : List Int :=
  if arr.getD i 0 > arr.getD j 0 then (arr.set i (arr.getD j 0)).set j (arr.getD i 0) else arr

/-- The two nested sorting loops over the first `n` cells. -/
def exchangeSort (arr : List Int) (n : Nat) : List Int :=
  (List.range n).foldl
    (fun arr i => (List.range' (i + 1) (n - (i + 1))).foldl (fun arr j => exchange arr i j) arr) arr

/-- The median the submission is reduced to. More than five prices index past
the buffer, and no price at all makes `mid - 1` underflow: both trap. -/
def medianOf (prices : List Int) : Result Int := do
  let responses := prices.length
  refuseIf (responses > 5) .trap
  let arr := exchangeSort (priceBuffer prices) responses
  let mid := responses / 2
  if responses % 2 = 1 then pure (arr.getD mid 0)
  else
    refuseIf (mid = 0) .trap
    let sum ← okOr (I128.checkedAdd (arr.getD (mid - 1) 0) (arr.getD mid 0)) .trap
    return sum.tdiv 2

/-! ## The running average -/

/-- Running sum and count after one more price: restarted when no price was
recorded yet or the last one is older than the window. -/
def nextTwap (w : World) (price : Int) : Int × Nat :=
  let window := w.getOr (·.twapWindow) 3600
  let lastTime := w.getOr (·.lastPriceTime) 0
  if lastTime = 0 ∨ w.timestamp - lastTime > window then (price, 1)
  else
    (I128.addOrMax (w.getOr (·.twapSum) 0) price, U32.saturatingAdd (w.getOr (·.twapCount) 0) 1)

/-- The five writes both entry points make, with the new average. -/
def storePrice (w : World) (price : Int) : Result (World × Int) := do
  let next := nextTwap w price
  let twap ← okOr (I128.checkedDiv next.1 next.2) .trap
  return (w.setConfig ({ · with
    lastPrice := price
    lastPriceTime := w.timestamp
    twapSum := next.1
    twapCount := next.2
    twapPrice := twap }), twap)

/-- The configuration after `price` was recorded at the world's time. -/
def Config.withPrice (c : Config) (w : World) (price twap : Int) : Config :=
  { c with
    lastPrice := price
    lastPriceTime := w.timestamp
    twapSum := (nextTwap w price).1
    twapCount := (nextTwap w price).2
    twapPrice := twap }

theorem storePrice_ok {w w' : World} {price twap : Int} {c : Config} (hc : w.config = some c)
    (h : storePrice w price = .ok (w', twap)) :
    I128.checkedDiv (nextTwap w price).1 (nextTwap w price).2 = some twap ∧
      w' = { w with config := some (c.withPrice w price twap) } := by
  simp only [storePrice, Except.bind_succeeds, Except.okOr_eq_ok, Except.pure_succeeds,
    Prod.mk.injEq] at h
  obtain ⟨_, htwap, rfl, rfl⟩ := h
  exact ⟨htwap, by simp [World.setConfig, hc, Config.withPrice]⟩

/-! ## Submission -/

structure OracleReport where
  median : Int
  responses : Nat
  flaggedCount : Nat
  deriving DecidableEq, Repr

/-- Count the prices more than half the median away from it. -/
def countFlagged (median : Int) (prices : List Int) : Result Nat :=
  prices.foldlM (fun flagged price => do
    let diff ← okOr (if price > median then I128.checkedSub price median
      else I128.checkedSub median price) .trap
    if median > 0 then
      let scaledDiff ← okOr (I128.checkedMul diff 100) .trap
      let bound ← okOr (I128.checkedMul median 50) .trap
      return if scaledDiff > bound then flagged + 1 else flagged
    else pure flagged) 0

def submitOraclePrices (env : Env) (w : World) (submitter : Address) (prices : List Int) :
    Result (World × OracleReport) := do
  assertInitialized w
  env.requireAuth submitter
  let oracles := getOracles w
  -- The list only gives the number of prices; `submitter` need not be on it.
  refuseIf (prices.length ≠ oracles.length) (.error .invalidPrice)
  refuseIf (∃ price ∈ prices, price ≤ 0 ∨ price ≥ maxPrice) (.error .invalidPrice)
  let responses := prices.length
  let minQuorum := w.getOr (·.minQuorum) (if oracles.length ≥ 3 then 3 else oracles.length)
  refuseIf (responses < minQuorum) (.error .insufficientOracleQuorum)
  let median ← medianOf prices
  -- Flagged prices are counted in the report, but they are part of the median.
  let (w, _) ← storePrice w median
  let flaggedCount ← countFlagged median prices
  return (w, { median, responses, flaggedCount })

theorem submitOraclePrices_ok {env : Env} {w w' : World} {submitter : Address}
    {prices : List Int} {report : OracleReport}
    (h : submitOraclePrices env w submitter prices = .ok (w', report)) :
    ∃ c twap, w.config = some c ∧ submitter ∈ env.signers ∧
      prices.length = (getOracles w).length ∧ (∀ p ∈ prices, 0 < p ∧ p < maxPrice) ∧
      c.minQuorum ≤ prices.length ∧ medianOf prices = .ok report.median ∧
      I128.checkedDiv (nextTwap w report.median).1 (nextTwap w report.median).2 = some twap ∧
      w' = { w with config := some (c.withPrice w report.median twap) } := by
  simp only [submitOraclePrices, Except.bind_succeeds, assertInitialized_eq_ok,
    Env.requireAuth_eq_ok, Except.refuseIf_eq_ok, Except.pure_succeeds, not_not, not_lt,
    not_exists, not_and, not_or, not_le] at h
  obtain ⟨_, ⟨c, hc⟩, _, hauth, _, hlen, _, hprices, _, hquorum, median, hmedian,
    ⟨stored, twap⟩, hstore, _, _, hresult⟩ := h
  simp only [Prod.mk.injEq] at hresult
  obtain ⟨rfl, rfl⟩ := hresult
  obtain ⟨htwap, rfl⟩ := storePrice_ok hc hstore
  exact ⟨c, twap, hc, hauth, hlen, hprices, by simpa [World.getOr, hc] using hquorum, hmedian,
    htwap, rfl⟩

def submitPrice (env : Env) (w : World) (oracle : Address) (price : Int) : Result World := do
  assertInitialized w
  env.requireAuth oracle
  let storedOracle ← w.get (·.oracle)
  -- The single slot decides, not the list of `getOracles`.
  refuseIf (oracle ≠ storedOracle) (.error .unauthorized)
  refuseIf (price ≤ 0) (.error .invalidPrice)
  let (stored, twap) ← storePrice w price
  return stored.publish [.symbol "TWAP", .symbol "price"]
    (.vec [.i128 price, .i128 twap, .u64 w.timestamp])

theorem submitPrice_ok {env : Env} {w w' : World} {oracle : Address} {price : Int}
    (h : submitPrice env w oracle price = .ok w') :
    ∃ c twap, w.config = some c ∧ oracle ∈ env.signers ∧ c.oracle = oracle ∧ 0 < price ∧
      I128.checkedDiv (nextTwap w price).1 (nextTwap w price).2 = some twap ∧
      w' = { w with config := some (c.withPrice w price twap) }.publish
        [.symbol "TWAP", .symbol "price"] (.vec [.i128 price, .i128 twap, .u64 w.timestamp]) := by
  simp only [submitPrice, Except.bind_succeeds, Env.requireAuth_eq_ok, World.get_eq_ok,
    Except.refuseIf_eq_ok, Except.pure_succeeds, not_not, not_le] at h
  obtain ⟨_, _, _, hauth, _, ⟨c, hc, rfl⟩, _, rfl, _, hpos, ⟨stored, twap⟩, hstore, rfl⟩ := h
  obtain ⟨htwap, rfl⟩ := storePrice_ok hc hstore
  exact ⟨c, twap, hc, hauth, rfl, hpos, htwap, rfl⟩

structure TWAPData where
  currentPrice : Int
  twapPrice : Int
  lastUpdate : Nat
  deriving DecidableEq, Repr

def getTwapData (w : World) : Result TWAPData := do
  assertInitialized w
  return {
    currentPrice := w.getOr (·.lastPrice) 0
    twapPrice := w.getOr (·.twapPrice) 0
    lastUpdate := w.getOr (·.lastPriceTime) 0 }

end StellarKraal
