import StellarKraal.Contract.Host

/-!
# Initialisation, pausing, parameters and upgrades

Every entry point takes the call's environment and the world before it, and
answers the world after it or the reason it failed. What a successful call did
is stated once beside its definition.
-/

namespace StellarKraal

open Except (refuseIf okOr)

/-- `MAX_PAUSE_DURATION`, in seconds. -/
def maxPauseDuration : Nat := 518400

/-- `UPGRADE_TIMELOCK_SECS`. -/
def upgradeTimelockSecs : Nat := 86400

/-- The three checks every admin call makes. -/
def requireAdmin (env : Env) (w : World) (admin : Address) : Result Unit := do
  assertInitialized w
  assertAdmin w admin
  env.requireAuth admin

@[simp] theorem requireAdmin_eq_ok {env : Env} {w : World} {admin : Address} {u : Unit} :
    requireAdmin env w admin = .ok u ↔
      ∃ c, w.config = some c ∧ c.admin = admin ∧ admin ∈ env.signers := by
  simp only [requireAdmin, Except.bind_succeeds, assertInitialized_eq_ok, assertAdmin_eq_ok,
    Env.requireAuth_eq_ok]
  constructor
  · rintro ⟨_, _, _, ⟨c, hc, hadmin⟩, hauth⟩
    exact ⟨c, hc, hadmin, hauth⟩
  · rintro ⟨c, hc, hadmin, hauth⟩
    exact ⟨(), ⟨c, hc⟩, (), ⟨c, hc, hadmin⟩, hauth⟩

/-! ## Initialisation -/

/-- What `initialize` stores. -/
def initialConfig (admin oracle token treasury : Address)
    (ltvBps liquidationThresholdBps minQuorum : Nat) : Config where
  admin := admin
  oracle := oracle
  token := token
  treasury := treasury
  ltv := ltvBps
  liqThr := liquidationThresholdBps
  minQuorum := minQuorum
  origFee := 50
  intFee := 1000
  closeFactor := 5000
  baseRate := 200
  slope1 := 500
  slope2 := 4500
  kink := 8000
  totalBorrowed := 0
  totalLiquidity := 0
  twapWindow := 3600
  lastPrice := 0
  lastPriceTime := 0
  twapPrice := 0
  twapSum := 0
  twapCount := 0
  priceMin := 0
  priceMax := 0
  staleThr := 3600
  devBps := 2000

def initializeContract (env : Env) (w : World) (admin oracle token treasury : Address)
    (ltvBps liquidationThresholdBps minQuorum : Nat) : Result World := do
  refuseIf (w.config.isSome = true) (.error .alreadyInitialized)
  refuseIf (admin = Address.zero) (.error .unauthorized)
  refuseIf (ltvBps = 0 ∨ ltvBps > 9000) (.error .invalidAmount)
  refuseIf (liquidationThresholdBps < ltvBps) (.error .invalidAmount)
  env.requireAuth admin
  return { w with
    config := some (initialConfig admin oracle token treasury ltvBps liquidationThresholdBps
      minQuorum) }

theorem initializeContract_ok {env : Env} {w w' : World} {admin oracle token treasury : Address}
    {ltvBps thrBps minQuorum : Nat}
    (h : initializeContract env w admin oracle token treasury ltvBps thrBps minQuorum = .ok w') :
    w.config = none ∧ admin ≠ Address.zero ∧ 0 < ltvBps ∧ ltvBps ≤ 9000 ∧ ltvBps ≤ thrBps ∧
      admin ∈ env.signers ∧
      w' = { w with
        config := some (initialConfig admin oracle token treasury ltvBps thrBps minQuorum) } := by
  simp only [initializeContract, Except.bind_succeeds, Except.refuseIf_eq_ok, Env.requireAuth_eq_ok,
    Except.pure_succeeds, Option.not_isSome_iff_eq_none, not_or, not_lt] at h
  obtain ⟨_, hnone, _, hzero, _, ⟨hltv, hmax⟩, _, hthr, _, hauth, rfl⟩ := h
  exact ⟨hnone, hzero, Nat.pos_of_ne_zero hltv, hmax, hthr, hauth, rfl⟩

/-! ## Pausing -/

def isPaused (w : World) : Bool := isPausedRaw w

def pause (env : Env) (w : World) (admin : Address) : Result World := do
  requireAdmin env w admin
  refuseIf (isPausedRaw w = true) (.error .alreadyPaused)
  let expiresAt ← okOr (U64.checkedAdd w.timestamp w.pauseDur) (.error .arithmeticOverflow)
  return { w with paused := true, pauseExp := expiresAt }.publish
    [.symbol "Pause"] (.u64 expiresAt)

theorem pause_ok {env : Env} {w w' : World} {admin : Address} (h : pause env w admin = .ok w') :
    ∃ c, w.config = some c ∧ c.admin = admin ∧ admin ∈ env.signers ∧ isPausedRaw w = false ∧
      w.timestamp + w.pauseDur ≤ U64.MAX ∧
      w' = { w with paused := true, pauseExp := w.timestamp + w.pauseDur }.publish
        [.symbol "Pause"] (.u64 (w.timestamp + w.pauseDur)) := by
  simp only [pause, Except.bind_succeeds, requireAdmin_eq_ok, Except.refuseIf_eq_ok,
    Except.okOr_eq_ok, U64.checkedAdd_eq_some, Except.pure_succeeds, Bool.not_eq_true] at h
  obtain ⟨_, ⟨c, hc, hadmin, hauth⟩, _, hpaused, _, ⟨hfits, rfl⟩, rfl⟩ := h
  exact ⟨c, hc, hadmin, hauth, hpaused, hfits, rfl⟩

def unpause (env : Env) (w : World) (admin : Address) : Result World := do
  requireAdmin env w admin
  refuseIf (isPausedRaw w = false) (.error .notPaused)
  return { w with paused := false, pauseExp := 0 }.publish
    [.symbol "Unpause"] (.u64 w.timestamp)

theorem unpause_ok {env : Env} {w w' : World} {admin : Address}
    (h : unpause env w admin = .ok w') :
    ∃ c, w.config = some c ∧ c.admin = admin ∧ admin ∈ env.signers ∧ isPausedRaw w = true ∧
      w' = { w with paused := false, pauseExp := 0 }.publish
        [.symbol "Unpause"] (.u64 w.timestamp) := by
  simp only [unpause, Except.bind_succeeds, requireAdmin_eq_ok, Except.refuseIf_eq_ok,
    Except.pure_succeeds, Bool.not_eq_false] at h
  obtain ⟨_, ⟨c, hc, hadmin, hauth⟩, _, hpaused, rfl⟩ := h
  exact ⟨c, hc, hadmin, hauth, hpaused, rfl⟩

def setPauseDuration (env : Env) (w : World) (admin : Address) (duration : Nat) :
    Result World := do
  requireAdmin env w admin
  refuseIf (duration > maxPauseDuration) (.error .invalidAmount)
  return { w with pauseDur := duration }

theorem setPauseDuration_ok {env : Env} {w w' : World} {admin : Address} {duration : Nat}
    (h : setPauseDuration env w admin duration = .ok w') :
    ∃ c, w.config = some c ∧ c.admin = admin ∧ admin ∈ env.signers ∧
      duration ≤ maxPauseDuration ∧ w' = { w with pauseDur := duration } := by
  simp only [setPauseDuration, Except.bind_succeeds, requireAdmin_eq_ok, Except.refuseIf_eq_ok,
    Except.pure_succeeds, not_lt] at h
  obtain ⟨_, ⟨c, hc, hadmin, hauth⟩, _, hmax, rfl⟩ := h
  exact ⟨c, hc, hadmin, hauth, hmax, rfl⟩

/-! ## Oracle slot, caps and risk parameters -/

def updateOracle (env : Env) (w : World) (admin newOracle : Address) (newMinQuorum : Nat) :
    Result World := do
  requireAdmin env w admin
  let w := w.setConfig ({ · with oracle := newOracle })
  let w := if newMinQuorum > 0 then w.setConfig ({ · with minQuorum := newMinQuorum }) else w
  return w.publish [.symbol "Admin", .symbol "OracleUpd"] (.address newOracle)

theorem updateOracle_ok {env : Env} {w w' : World} {admin newOracle : Address}
    {newMinQuorum : Nat} (h : updateOracle env w admin newOracle newMinQuorum = .ok w') :
    ∃ c, w.config = some c ∧ c.admin = admin ∧ admin ∈ env.signers ∧
      w' = { w with config := some { c with
          oracle := newOracle
          minQuorum := if newMinQuorum > 0 then newMinQuorum else c.minQuorum } }.publish
        [.symbol "Admin", .symbol "OracleUpd"] (.address newOracle) := by
  simp only [updateOracle, Except.bind_succeeds, requireAdmin_eq_ok, Except.pure_succeeds] at h
  obtain ⟨_, ⟨c, hc, hadmin, hauth⟩, rfl⟩ := h
  refine ⟨c, hc, hadmin, hauth, ?_⟩
  split <;> simp [World.setConfig, hc]

def setAnimalCap (env : Env) (w : World) (admin : Address) (animalType : Symbol)
    (maxValue : Int) : Result World := do
  requireAdmin env w admin
  refuseIf (maxValue ≤ 0) (.error .invalidAmount)
  return { w with animalCaps := w.animalCaps.insert animalType maxValue }.publish
    [.symbol "Admin", .symbol "AnimalCap"] (.vec [.symbol animalType, .i128 maxValue])

theorem setAnimalCap_ok {env : Env} {w w' : World} {admin : Address} {animalType : Symbol}
    {maxValue : Int} (h : setAnimalCap env w admin animalType maxValue = .ok w') :
    ∃ c, w.config = some c ∧ c.admin = admin ∧ admin ∈ env.signers ∧ 0 < maxValue ∧
      w' = { w with animalCaps := w.animalCaps.insert animalType maxValue }.publish
        [.symbol "Admin", .symbol "AnimalCap"] (.vec [.symbol animalType, .i128 maxValue]) := by
  simp only [setAnimalCap, Except.bind_succeeds, requireAdmin_eq_ok, Except.refuseIf_eq_ok,
    Except.pure_succeeds, not_le] at h
  obtain ⟨_, ⟨c, hc, hadmin, hauth⟩, _, hpos, rfl⟩ := h
  exact ⟨c, hc, hadmin, hauth, hpos, rfl⟩

def setLiquidationThreshold (env : Env) (w : World) (admin : Address) (thresholdBps : Nat) :
    Result World := do
  requireAdmin env w admin
  refuseIf (thresholdBps = 0 ∨ thresholdBps > 10000) (.error .invalidAmount)
  return (w.setConfig ({ · with liqThr := thresholdBps })).publish
    [.symbol "Admin", .symbol "LiqThrUpd"] (.u32 thresholdBps)

theorem setLiquidationThreshold_ok {env : Env} {w w' : World} {admin : Address}
    {thresholdBps : Nat} (h : setLiquidationThreshold env w admin thresholdBps = .ok w') :
    ∃ c, w.config = some c ∧ c.admin = admin ∧ admin ∈ env.signers ∧ 0 < thresholdBps ∧
      thresholdBps ≤ 10000 ∧
      w' = { w with config := some { c with liqThr := thresholdBps } }.publish
        [.symbol "Admin", .symbol "LiqThrUpd"] (.u32 thresholdBps) := by
  simp only [setLiquidationThreshold, Except.bind_succeeds, requireAdmin_eq_ok,
    Except.refuseIf_eq_ok, Except.pure_succeeds, not_or, not_lt] at h
  obtain ⟨_, ⟨c, hc, hadmin, hauth⟩, _, ⟨hpos, hmax⟩, rfl⟩ := h
  exact ⟨c, hc, hadmin, hauth, Nat.pos_of_ne_zero hpos, hmax, by simp [World.setConfig, hc]⟩

def setCloseFactor (env : Env) (w : World) (admin : Address) (closeFactorBps : Nat) :
    Result World := do
  requireAdmin env w admin
  refuseIf (closeFactorBps = 0 ∨ closeFactorBps > 10000) (.error .invalidCloseFactor)
  return w.setConfig ({ · with closeFactor := closeFactorBps })

theorem setCloseFactor_ok {env : Env} {w w' : World} {admin : Address} {closeFactorBps : Nat}
    (h : setCloseFactor env w admin closeFactorBps = .ok w') :
    ∃ c, w.config = some c ∧ c.admin = admin ∧ admin ∈ env.signers ∧ 0 < closeFactorBps ∧
      closeFactorBps ≤ 10000 ∧
      w' = { w with config := some { c with closeFactor := closeFactorBps } } := by
  simp only [setCloseFactor, Except.bind_succeeds, requireAdmin_eq_ok, Except.refuseIf_eq_ok,
    Except.pure_succeeds, not_or, not_lt] at h
  obtain ⟨_, ⟨c, hc, hadmin, hauth⟩, _, ⟨hpos, hmax⟩, rfl⟩ := h
  exact ⟨c, hc, hadmin, hauth, Nat.pos_of_ne_zero hpos, hmax, by simp [World.setConfig, hc]⟩

def getCloseFactor (w : World) : Result Nat := do
  assertInitialized w
  w.get (·.closeFactor)

def setLtv (env : Env) (w : World) (admin : Address) (ltvBps : Nat) : Result World := do
  requireAdmin env w admin
  refuseIf (ltvBps < 1000 ∨ ltvBps > 9000) (.error .invalidAmount)
  let oldLtv ← w.get (·.ltv)
  return (w.setConfig ({ · with ltv := ltvBps })).publish
    [.symbol "Admin", .symbol "LtvUpd"] (.vec [.u32 oldLtv, .u32 ltvBps])

theorem setLtv_ok {env : Env} {w w' : World} {admin : Address} {ltvBps : Nat}
    (h : setLtv env w admin ltvBps = .ok w') :
    ∃ c, w.config = some c ∧ c.admin = admin ∧ admin ∈ env.signers ∧ 1000 ≤ ltvBps ∧
      ltvBps ≤ 9000 ∧
      w' = { w with config := some { c with ltv := ltvBps } }.publish
        [.symbol "Admin", .symbol "LtvUpd"] (.vec [.u32 c.ltv, .u32 ltvBps]) := by
  simp only [setLtv, Except.bind_succeeds, requireAdmin_eq_ok, Except.refuseIf_eq_ok,
    World.get_eq_ok, Except.pure_succeeds, not_or, not_lt] at h
  obtain ⟨_, ⟨c, hc, hadmin, hauth⟩, _, ⟨hmin, hmax⟩, _, ⟨c', hc', rfl⟩, rfl⟩ := h
  obtain rfl := Option.mem_unique hc hc'
  exact ⟨c, hc, hadmin, hauth, hmin, hmax, by simp [World.setConfig, hc]⟩

def updateFeeConfig (env : Env) (w : World) (admin : Address)
    (originationFeeBps interestFeeBps : Nat) : Result World := do
  assertInitialized w
  assertNotPaused w
  assertAdmin w admin
  env.requireAuth admin
  refuseIf (originationFeeBps > 500 ∨ interestFeeBps > 500) (.error .invalidFeeRate)
  let oldOrig ← w.get (·.origFee)
  let oldInt ← w.get (·.intFee)
  return (w.setConfig ({ · with origFee := originationFeeBps, intFee := interestFeeBps })).publish
    [.symbol "fee", .symbol "cfgUpd"]
    (.vec [.u32 oldOrig, .u32 oldInt, .u32 originationFeeBps, .u32 interestFeeBps])

theorem updateFeeConfig_ok {env : Env} {w w' : World} {admin : Address} {origBps intBps : Nat}
    (h : updateFeeConfig env w admin origBps intBps = .ok w') :
    ∃ c, w.config = some c ∧ c.admin = admin ∧ admin ∈ env.signers ∧ isPausedRaw w = false ∧
      origBps ≤ 500 ∧ intBps ≤ 500 ∧
      w' = { w with config := some { c with origFee := origBps, intFee := intBps } }.publish
        [.symbol "fee", .symbol "cfgUpd"]
        (.vec [.u32 c.origFee, .u32 c.intFee, .u32 origBps, .u32 intBps]) := by
  simp only [updateFeeConfig, Except.bind_succeeds, assertNotPaused_eq_ok, assertAdmin_eq_ok,
    Env.requireAuth_eq_ok, Except.refuseIf_eq_ok, World.get_eq_ok, Except.pure_succeeds, not_or,
    not_lt] at h
  obtain ⟨_, _, _, hpaused, _, ⟨c, hc, hadmin⟩, _, hauth, _, ⟨horig, hint⟩, _, ⟨c₁, hc₁, rfl⟩,
    _, ⟨c₂, hc₂, rfl⟩, rfl⟩ := h
  obtain rfl := Option.mem_unique hc hc₁
  obtain rfl := Option.mem_unique hc hc₂
  exact ⟨c, hc, hadmin, hauth, hpaused, horig, hint, by simp [World.setConfig, hc]⟩

structure FeeConfig where
  originationFeeBps : Nat
  interestFeeBps : Nat
  deriving DecidableEq, Repr

def getFeeConfig (w : World) : Result FeeConfig := do
  assertInitialized w
  let orig ← w.get (·.origFee)
  let int ← w.get (·.intFee)
  return ⟨orig, int⟩

/-! ## Admin transfer -/

def proposeNewAdmin (env : Env) (w : World) (admin newAdmin : Address) : Result World := do
  requireAdmin env w admin
  return { w with pendingAdmin := some newAdmin }.publish
    [.symbol "Admin", .symbol "PropNewAd"] (.address newAdmin)

theorem proposeNewAdmin_ok {env : Env} {w w' : World} {admin newAdmin : Address}
    (h : proposeNewAdmin env w admin newAdmin = .ok w') :
    ∃ c, w.config = some c ∧ c.admin = admin ∧ admin ∈ env.signers ∧
      w' = { w with pendingAdmin := some newAdmin }.publish
        [.symbol "Admin", .symbol "PropNewAd"] (.address newAdmin) := by
  simp only [proposeNewAdmin, Except.bind_succeeds, requireAdmin_eq_ok,
    Except.pure_succeeds] at h
  obtain ⟨_, ⟨c, hc, hadmin, hauth⟩, rfl⟩ := h
  exact ⟨c, hc, hadmin, hauth, rfl⟩

def acceptAdminRole (env : Env) (w : World) (newAdmin : Address) : Result World := do
  assertInitialized w
  let pending ← okOr w.pendingAdmin (.error .unauthorized)
  refuseIf (newAdmin ≠ pending) (.error .unauthorized)
  env.requireAuth newAdmin
  return { w.setConfig ({ · with admin := newAdmin }) with pendingAdmin := none }.publish
    [.symbol "Admin", .symbol "AdminUpd"] (.address newAdmin)

theorem acceptAdminRole_ok {env : Env} {w w' : World} {newAdmin : Address}
    (h : acceptAdminRole env w newAdmin = .ok w') :
    ∃ c, w.config = some c ∧ w.pendingAdmin = some newAdmin ∧ newAdmin ∈ env.signers ∧
      w' = { w with config := some { c with admin := newAdmin }, pendingAdmin := none }.publish
        [.symbol "Admin", .symbol "AdminUpd"] (.address newAdmin) := by
  simp only [acceptAdminRole, Except.bind_succeeds, assertInitialized_eq_ok, Except.okOr_eq_ok,
    Except.refuseIf_eq_ok, Env.requireAuth_eq_ok, Except.pure_succeeds, not_not] at h
  obtain ⟨_, ⟨c, hc⟩, _, hpending, _, rfl, _, hauth, rfl⟩ := h
  exact ⟨c, hc, hpending, hauth, by simp [World.setConfig, hc]⟩

/-! ## Liquidator whitelist -/

def addLiquidator (env : Env) (w : World) (admin liquidator : Address) : Result World := do
  requireAdmin env w admin
  if liquidator ∈ w.whitelist then pure w
  else
    let count ← okOr (U32.checkedAdd w.wlCount 1) .trap
    return { w with whitelist := insert liquidator w.whitelist, wlCount := count }.publish
      [.symbol "whitelist", .symbol "added"] (.address liquidator)

theorem addLiquidator_ok {env : Env} {w w' : World} {admin liquidator : Address}
    (h : addLiquidator env w admin liquidator = .ok w') :
    ∃ c, w.config = some c ∧ c.admin = admin ∧ admin ∈ env.signers ∧
      ((liquidator ∈ w.whitelist ∧ w' = w) ∨
        (liquidator ∉ w.whitelist ∧ w.wlCount + 1 ≤ U32.MAX ∧
          w' = { w with
              whitelist := insert liquidator w.whitelist, wlCount := w.wlCount + 1 }.publish
            [.symbol "whitelist", .symbol "added"] (.address liquidator))) := by
  simp only [addLiquidator, Except.bind_succeeds, requireAdmin_eq_ok] at h
  obtain ⟨_, ⟨c, hc, hadmin, hauth⟩, h⟩ := h
  refine ⟨c, hc, hadmin, hauth, ?_⟩
  split at h
  next hmem => exact .inl ⟨hmem, (Except.pure_succeeds.mp h).symm⟩
  next hmem =>
    simp only [Except.bind_succeeds, Except.okOr_eq_ok, U32.checkedAdd_eq_some,
      Except.pure_succeeds] at h
    obtain ⟨_, ⟨hfits, rfl⟩, rfl⟩ := h
    exact .inr ⟨hmem, hfits, rfl⟩

def removeLiquidator (env : Env) (w : World) (admin liquidator : Address) : Result World := do
  requireAdmin env w admin
  if liquidator ∉ w.whitelist then pure w
  else
    return { w with
        whitelist := w.whitelist.erase liquidator, wlCount := w.wlCount - 1 }.publish
      [.symbol "whitelist", .symbol "removed"] (.address liquidator)

theorem removeLiquidator_ok {env : Env} {w w' : World} {admin liquidator : Address}
    (h : removeLiquidator env w admin liquidator = .ok w') :
    ∃ c, w.config = some c ∧ c.admin = admin ∧ admin ∈ env.signers ∧
      ((liquidator ∉ w.whitelist ∧ w' = w) ∨
        (liquidator ∈ w.whitelist ∧
          w' = { w with
              whitelist := w.whitelist.erase liquidator, wlCount := w.wlCount - 1 }.publish
            [.symbol "whitelist", .symbol "removed"] (.address liquidator))) := by
  simp only [removeLiquidator, Except.bind_succeeds, requireAdmin_eq_ok] at h
  obtain ⟨_, ⟨c, hc, hadmin, hauth⟩, h⟩ := h
  refine ⟨c, hc, hadmin, hauth, ?_⟩
  split at h
  next hmem => exact .inl ⟨hmem, (Except.pure_succeeds.mp h).symm⟩
  next hmem => exact .inr ⟨not_not.mp hmem, (Except.pure_succeeds.mp h).symm⟩

def isWhitelisted (w : World) (liquidator : Address) : Bool :=
  if w.wlCount = 0 then true else decide (liquidator ∈ w.whitelist)

/-! ## Emergency withdrawal -/

def emergencyWithdraw (client : TokenClient) (env : Env) (w : World) (admin recipient : Address) :
    Result World := do
  requireAdmin env w admin
  refuseIf (isPausedRaw w = false) (.error .notPaused)
  let token ← w.get (·.token)
  let balance := client.balance w token .currentContract
  let w ← if balance > 0 then client.transfer w token .currentContract recipient balance
    else pure w
  return w.publish [.symbol "emergency"] (.vec [.address recipient, .i128 balance])

/-! ## Upgrades -/

def proposeUpgrade (env : Env) (w : World) (admin : Address) (newWasmHash : Nat) :
    Result World := do
  requireAdmin env w admin
  return { w with pendingWasm := some newWasmHash, upgradeTime := some w.timestamp }.publish
    [.symbol "upgrade", .symbol "proposed"] (.vec [.bytes newWasmHash, .u64 w.timestamp])

theorem proposeUpgrade_ok {env : Env} {w w' : World} {admin : Address} {newWasmHash : Nat}
    (h : proposeUpgrade env w admin newWasmHash = .ok w') :
    ∃ c, w.config = some c ∧ c.admin = admin ∧ admin ∈ env.signers ∧
      w' = { w with pendingWasm := some newWasmHash, upgradeTime := some w.timestamp }.publish
        [.symbol "upgrade", .symbol "proposed"] (.vec [.bytes newWasmHash, .u64 w.timestamp]) := by
  simp only [proposeUpgrade, Except.bind_succeeds, requireAdmin_eq_ok, Except.pure_succeeds] at h
  obtain ⟨_, ⟨c, hc, hadmin, hauth⟩, rfl⟩ := h
  exact ⟨c, hc, hadmin, hauth, rfl⟩

/-- Anyone may execute a proposal once the timelock is over. -/
def executeUpgrade (w : World) : Result World := do
  let wasmHash ← okOr w.pendingWasm (.error .noUpgradePending)
  let proposalTime ← okOr w.upgradeTime (.error .noUpgradePending)
  refuseIf (w.timestamp < U64.saturatingAdd proposalTime upgradeTimelockSecs)
    (.error .timelockNotElapsed)
  return { { w with pendingWasm := none, upgradeTime := none }.publish
      [.symbol "upgrade", .symbol "executed"] (.vec [.bytes wasmHash, .u64 w.timestamp]) with
    wasm := some wasmHash }

theorem executeUpgrade_ok {w w' : World} (h : executeUpgrade w = .ok w') :
    ∃ hash proposed, w.pendingWasm = some hash ∧ w.upgradeTime = some proposed ∧
      U64.saturatingAdd proposed upgradeTimelockSecs ≤ w.timestamp ∧
      w' = { { w with pendingWasm := none, upgradeTime := none }.publish
          [.symbol "upgrade", .symbol "executed"] (.vec [.bytes hash, .u64 w.timestamp]) with
        wasm := some hash } := by
  simp only [executeUpgrade, Except.bind_succeeds, Except.okOr_eq_ok, Except.refuseIf_eq_ok,
    Except.pure_succeeds, not_lt] at h
  obtain ⟨hash, hhash, proposed, hproposed, _, helapsed, rfl⟩ := h
  exact ⟨hash, proposed, hhash, hproposed, helapsed, rfl⟩

def cancelUpgrade (env : Env) (w : World) (admin : Address) : Result World := do
  requireAdmin env w admin
  refuseIf (w.pendingWasm.isNone = true) (.error .noUpgradePending)
  return { w with pendingWasm := none, upgradeTime := none }.publish
    [.symbol "upgrade", .symbol "canceled"] (.u64 w.timestamp)

theorem cancelUpgrade_ok {env : Env} {w w' : World} {admin : Address}
    (h : cancelUpgrade env w admin = .ok w') :
    ∃ c, w.config = some c ∧ c.admin = admin ∧ admin ∈ env.signers ∧ w.pendingWasm ≠ none ∧
      w' = { w with pendingWasm := none, upgradeTime := none }.publish
        [.symbol "upgrade", .symbol "canceled"] (.u64 w.timestamp) := by
  simp only [cancelUpgrade, Except.bind_succeeds, requireAdmin_eq_ok, Except.refuseIf_eq_ok,
    Except.pure_succeeds, Option.isNone_iff_eq_none] at h
  obtain ⟨_, ⟨c, hc, hadmin, hauth⟩, _, hpending, rfl⟩ := h
  exact ⟨c, hc, hadmin, hauth, hpending, rfl⟩

end StellarKraal
