import StellarKraal.Oracle.Window

/-!
# The age of the price

`initialize` stores a staleness threshold and every submission its time, but no
valuation reads either. How old the recorded price is makes no difference to a
loan request or a liquidation.
-/

namespace StellarKraal

open Except (refuseIf okOr)

variable {asset : AssetContract}

/-- The same world with its last price recorded at another time, and another threshold. -/
def World.redated (w : World) (lastPriceTime staleThr : Nat) : World :=
  w.setConfig ({ · with lastPriceTime, staleThr })

section Redated

variable (w : World) (time thr : Nat)

/-- A key is read alike unless it is one of the two. -/
theorem config_redated {α : Type} {key : Config → α}
    (h : ∀ c, key { c with lastPriceTime := time, staleThr := thr } = key c) :
    (w.redated time thr).config.map key = w.config.map key := by
  unfold World.redated World.setConfig
  cases w.config with
  | none => rfl
  | some c => simp [h]

theorem getOr_redated {α : Type} {key : Config → α} {default : α}
    (h : ∀ c, key { c with lastPriceTime := time, staleThr := thr } = key c) :
    (w.redated time thr).getOr key default = w.getOr key default := by
  rw [World.getOr, config_redated w time thr h, World.getOr]

theorem getEffectiveOraclePrice_redated :
    getEffectiveOraclePrice (w.redated time thr) = getEffectiveOraclePrice w := by
  simp only [getEffectiveOraclePrice, clampPrice, getOr_redated, implies_true]

theorem oracleMaxTotal_redated (count : Nat) (price : Int) :
    oracleMaxTotal (w.redated time thr) count price = oracleMaxTotal w count price := by
  simp only [oracleMaxTotal, getOr_redated, implies_true]

theorem getCollateralEffectiveValue_redated (col : CollateralRecord) :
    getCollateralEffectiveValue (w.redated time thr) col = getCollateralEffectiveValue w col := by
  unfold getCollateralEffectiveValue
  rw [getEffectiveOraclePrice_redated]
  cases getEffectiveOraclePrice w with
  | none => rfl
  | some price => simp [oracleMaxTotal_redated]

theorem pledgedValue_redated (borrower : Address) (ids : List Nat) :
    pledgedValue (w.redated time thr) borrower ids = pledgedValue w borrower ids := by
  unfold pledgedValue
  congr 1
  funext total colId
  simp only [addPledgedValue, getCollateralEffectiveValue_redated]
  rfl

theorem currentCollateralValue_redated (ids : List Nat) :
    currentCollateralValue (w.redated time thr) ids = currentCollateralValue w ids := by
  unfold currentCollateralValue
  congr 1
  funext value colId
  simp only [addCurrentValue, getCollateralEffectiveValue_redated]
  rfl

theorem computeHealthFactorWithThr_redated (loan : LoanRecord) (liqThr : Nat) :
    computeHealthFactorWithThr (w.redated time thr) loan liqThr =
      computeHealthFactorWithThr w loan liqThr := by
  simp only [computeHealthFactorWithThr, currentCollateralValue_redated]

theorem assertInitialized_redated :
    assertInitialized (w.redated time thr) = assertInitialized w := by
  simp [assertInitialized, World.redated, World.setConfig]

theorem guard_redated :
    ReentrancyGuard.new (w.redated time thr) =
      (ReentrancyGuard.new w).map (·.redated time thr) := by
  unfold ReentrancyGuard.new
  rw [show (w.redated time thr).guard = w.guard from rfl]
  split <;> rfl

variable (asset) in
theorem transfer_redated (token sender receiver : Address) (amount : Int) :
    asset.client.transfer (w.redated time thr) token sender receiver amount =
      (asset.client.transfer w token sender receiver amount).map (·.redated time thr) := by
  simp only [AssetContract.client, World.redated, World.setConfig]
  cases asset.transfer w.ledger token sender receiver amount with
  | none => rfl
  | some L => rfl

variable (asset) in
theorem collectFee_redated (token : Address) (loanId : Nat) (kind : Symbol) (fee : Int) :
    collectFee asset.client (w.redated time thr) token loanId kind fee =
      (collectFee asset.client w token loanId kind fee).map (·.redated time thr) := by
  unfold collectFee
  split
  · simp only [World.get, config_redated, implies_true]
    refine Except.bind_eq_map_bind fun treasury => ?_
    exact Except.bind_eq_map_bind_of_eq (transfer_redated asset w time thr ..) fun _ => rfl
  · rfl

end Redated

/-! ## The two decisions -/

theorem requestLoan_redated (env : Env) (w : World) (borrower : Address) (ids : List Nat)
    (amount : Int) (time thr : Nat) :
    requestLoan asset.client env (w.redated time thr) borrower ids amount =
      (requestLoan asset.client env w borrower ids amount).map
        fun r => (r.1.redated time thr, r.2) := by
  unfold requestLoan
  refine Except.bind_eq_map_bind_of_eq (guard_redated w time thr) fun w => ?_
  simp only [assertInitialized_redated, pledgedValue_redated, World.get, config_redated,
    implies_true]
  refine Except.bind_eq_map_bind fun _ => ?_
  refine Except.bind_eq_map_bind fun _ => ?_
  refine Except.bind_eq_map_bind fun _ => ?_
  refine Except.bind_eq_map_bind fun _ => ?_
  refine Except.bind_eq_map_bind fun _ => ?_
  refine Except.bind_eq_map_bind fun total => ?_
  refine Except.bind_eq_map_bind fun ltv => ?_
  refine Except.bind_eq_map_bind fun scaled => ?_
  refine Except.bind_eq_map_bind fun _ => ?_
  refine Except.bind_eq_map_bind fun origFeeBps => ?_
  refine Except.bind_eq_map_bind fun scaledFee => ?_
  refine Except.bind_eq_map_bind fun disbursement => ?_
  refine Except.bind_eq_map_bind fun loanId => ?_
  refine Except.bind_eq_map_bind fun collaterals => ?_
  refine Except.bind_eq_map_bind fun token => ?_
  refine Except.bind_eq_map_bind_of_eq (collectFee_redated asset { w with
    loanCounter := loanId
    loans := w.loans.insert loanId (newLoan w loanId borrower ids total amount)
    collaterals } time thr ..) fun w => ?_
  exact Except.bind_eq_map_bind_of_eq (transfer_redated asset w time thr ..) fun _ => rfl

theorem liquidate_redated (env : Env) (w : World) (liquidator : Address) (loanId : Nat)
    (repayAmount : Int) (time thr : Nat) :
    liquidate asset.client env (w.redated time thr) liquidator loanId repayAmount =
      (liquidate asset.client env w liquidator loanId repayAmount).map (·.redated time thr) := by
  unfold liquidate
  refine Except.bind_eq_map_bind_of_eq (guard_redated w time thr) fun w => ?_
  simp only [assertInitialized_redated, computeHealthFactorWithThr_redated, World.get,
    config_redated, implies_true]
  refine Except.bind_eq_map_bind fun _ => ?_
  refine Except.bind_eq_map_bind fun _ => ?_
  refine Except.bind_eq_map_bind fun _ => ?_
  refine Except.bind_eq_map_bind fun _ => ?_
  refine Except.bind_eq_map_bind fun _ => ?_
  refine Except.bind_eq_map_bind fun loan => ?_
  refine Except.bind_eq_map_bind fun _ => ?_
  refine Except.bind_eq_map_bind fun liqThr => ?_
  refine Except.bind_eq_map_bind fun closeFactor => ?_
  refine Except.bind_eq_map_bind fun hf => ?_
  refine Except.bind_eq_map_bind fun _ => ?_
  refine Except.bind_eq_map_bind fun scaled => ?_
  refine Except.bind_eq_map_bind fun _ => ?_
  refine Except.bind_eq_map_bind fun token => ?_
  refine Except.bind_eq_map_bind_of_eq (transfer_redated asset w time thr ..) fun w => ?_
  exact Except.bind_eq_map_bind fun _ => rfl

/-- The calls that decide on a loan by the value of its collateral. -/
inductive LoanDecision : Call → Prop
  | request (borrower : Address) (collateralIds : List Nat) (amount : Int) :
      LoanDecision (.requestLoan borrower collateralIds amount)
  | liquidation (liquidator : Address) (loanId : Nat) (repayAmount : Int) :
      LoanDecision (.liquidate liquidator loanId repayAmount)

theorem LoanDecision.run_redated {call : Call} (h : LoanDecision call) (env : Env) (w : World)
    (time thr : Nat) :
    call.run asset.client env (w.redated time thr) =
      (call.run asset.client env w).map (·.redated time thr) := by
  cases h with
  | request borrower ids amount =>
      exact Except.bind_eq_map_bind_of_eq (requestLoan_redated env w borrower ids amount time thr)
        fun _ => rfl
  | liquidation liquidator loanId repayAmount =>
      exact liquidate_redated env w liquidator loanId repayAmount time thr

/-! ## What is stored -/

/-- Prices are dated in the past, and the threshold is the initial one. -/
def PricesDated (w : World) : Prop :=
  ∀ c, w.config = some c → c.lastPriceTime ≤ w.timestamp ∧ c.staleThr = 3600

theorem ConfigEffect.pricesDated {env : Env} {w w' : World} {call : Call}
    (h : ConfigEffect env w call w') (htime : w'.timestamp = w.timestamp) (hw : PricesDated w) :
    PricesDated w' := by
  intro c' hc'
  rw [htime]
  cases h with
  | initialized _ _ _ _ h =>
      obtain rfl := Option.mem_unique h hc'
      exact ⟨Nat.zero_le _, rfl⟩
  | ltv hadmin _ _ h | liqThr hadmin _ _ h | closeFactor hadmin _ _ h | fees hadmin _ _ h
  | oracle hadmin h =>
      obtain rfl := Option.mem_unique h hc'
      exact (hw _ hadmin.config :)
  | admin hc _ _ h =>
      obtain rfl := Option.mem_unique h hc'
      exact (hw _ hc :)
  | prices hc h | price hc h =>
      obtain rfl := Option.mem_unique h hc'
      exact ⟨le_rfl, (hw _ hc).2⟩
  | same h => exact hw c' (h ▸ hc')

theorem reachable_pricesDated {w : World} (h : (protocol asset).Reachable w) :
    PricesDated w := by
  apply reachable_invariant PricesDated (h := h)
  · intro timestamp ledger c hc
    nomatch hc
  · intro env call w w' _ hw hrun
    exact (Call.run_configEffect hrun).pricesDated (Call.run_bookEffect hrun).timestamp hw
  · intro w timestamp ledger hw hle _ c hc
    exact ⟨(hw c hc).1.trans hle, (hw c hc).2⟩

/-- A loan request and a liquidation go the same way however old the recorded price
is, down to the reason they fail for. -/
theorem price_age_ignored {w : World} {c : Config} (hreach : (protocol asset).Reachable w)
    (hc : w.config = some c) :
    c.lastPriceTime ≤ w.timestamp ∧ c.staleThr = 3600 ∧
      ∀ env call, LoanDecision call → ∀ lastPriceTime staleThr,
        call.run asset.client env (w.redated lastPriceTime staleThr) =
          (call.run asset.client env w).map (·.redated lastPriceTime staleThr) := by
  obtain ⟨hdated, hthr⟩ := reachable_pricesDated hreach c hc
  exact ⟨hdated, hthr, fun env call hcall => hcall.run_redated env w⟩

/-- Ten cattle at 100000 each, priced once and never again. -/
def Sample.priced (later : Nat) : World :=
  after ([initialization 6000 8000, registration 1000000] ++ quoted 1 100000 ++ [.tick later])

theorem sample_price_age_ignored :
    ∃ c, (Sample.priced 1000000).config = some c ∧ c.lastPrice = 100000 ∧
      c.lastPriceTime = 1 ∧ c.staleThr = 3600 ∧
      Call.run AssetContract.standard.client ⟨[Sample.farmer]⟩
          ((Sample.priced 1000000).redated 999999 3600) (.requestLoan Sample.farmer [1] 500000) =
        (Call.run AssetContract.standard.client ⟨[Sample.farmer]⟩ (Sample.priced 1000000)
          (.requestLoan Sample.farmer [1] 500000)).map (·.redated 999999 3600) := by
  have hignored := price_age_ignored (Sample.after_reachable
    ([Sample.initialization 6000 8000, Sample.registration 1000000] ++ Sample.quoted 1 100000 ++
      [.tick 1000000])) rfl
  exact ⟨_, rfl, rfl, rfl, hignored.2.1, hignored.2.2 _ _ (.request _ _ _) _ _⟩

/-- A loan granted eleven days after the only price. -/
theorem stale_price_used :
    ¬ ∀ (asset : AssetContract) (w w' : World) (c : Config) (env : Env) (call : Call),
      (protocol asset).Reachable w → w.config = some c → 0 < c.lastPrice → LoanDecision call →
        call.run asset.client env w = .ok w' → w.timestamp - c.lastPriceTime ≤ c.staleThr := by
  intro hfresh
  obtain ⟨w', hrequest⟩ : ∃ w', Call.run AssetContract.standard.client ⟨[Sample.farmer]⟩
      (Sample.priced 1000000) (.requestLoan Sample.farmer [1] 500000) = .ok w' := ⟨_, rfl⟩
  have hage := hfresh .standard _ w' _ _ _ (Sample.after_reachable _) rfl (by decide)
    (.request _ _ _) hrequest
  exact absurd hage (by decide)

end StellarKraal
