import StellarKraal.Contract.Unguarded
import StellarKraal.Risk.Liquidation

/-!
# Whether liquidation gets anywhere

One call repays at most the close factor's share of what is outstanding, rounded
down. Below 100 % the share leaves something over, and once it rounds to nothing
no further call can be made.
-/

namespace StellarKraal

open Except (refuseIf okOr)
open TransitionSystem (Transition Run)

variable {asset : AssetContract} {w : World} {c : Config} {loanId : Nat} {loan : LoanRecord}

/-- Every transfer of a covered amount goes through. -/
def AssetContract.PaysCovered (asset : AssetContract) : Prop :=
  ∀ (L : Ledger) (token sender receiver : Address) (amount : Int), 0 ≤ amount →
    amount ≤ L token sender → ∃ L', asset.transfer L token sender receiver amount = some L'

theorem AssetContract.standard_paysCovered : AssetContract.standard.PaysCovered :=
  fun _ _ _ _ _ hpos hcovered => ⟨_, if_pos ⟨hpos, hcovered⟩⟩

/-- The largest repayment `liquidate` accepts. -/
def maxRepay (c : Config) (loan : LoanRecord) : Int :=
  (loan.outstanding * c.closeFactor).tdiv 10000

/-- A loan in reach of liquidation, and somebody with the tokens and the signature for it. -/
structure Liquidatable (w : World) (c : Config) (loanId : Nat) (loan : LoanRecord)
    (env : Env) (liquidator : Address) : Prop where
  config : w.config = some c
  notPaused : isPausedRaw w = false
  openToAll : w.wlCount = 0
  stored : w.loans.lookup loanId = some loan
  active : loan.status = .active
  unhealthy : ∃ hf, computeHealthFactorWithThr w loan c.liqThr = .ok hf ∧ hf < 10000
  authorized : liquidator ∈ env.signers
  funded : loan.outstanding ≤ w.ledger c.token liquidator

/-- The converse of the inversion: every positive amount up to the cap can be repaid. -/
theorem Liquidatable.succeeds {env : Env} {liquidator : Address} {repayAmount : Int}
    (h : Liquidatable w c loanId loan env liquidator) (hpays : asset.PaysCovered)
    (hreach : (protocol asset).Reachable w) (hpos : 0 < repayAmount)
    (hcap : repayAmount ≤ maxRepay c loan) :
    ∃ w', liquidate asset.client env w liquidator loanId repayAmount = .ok w' := by
  obtain ⟨hf, hhealth, hunhealthy⟩ := h.unhealthy
  have hrecord := reachable_sound hreach _ _ h.stored
  have hopen := hrecord.active_iff.mp h.active
  have hinterest := hrecord.interest_nonneg
  have hrange := reachable_inRange hreach c h.config
  obtain ⟨-, -, hfits⟩ := computeHealthFactorWithThr_fits hhealth (by omega)
  have hshare : maxRepay c loan ≤ loan.outstanding := share_le hopen.le hrange.closeFactor_max
  have hfactor : (c.closeFactor : Int) ≤ 10000 := by exact_mod_cast hrange.closeFactor_max
  have hscaled : loan.outstanding * c.closeFactor ≤ loan.outstanding * 10000 :=
    mul_le_mul_of_nonneg_left hfactor hopen.le
  have hscaled_nonneg : 0 ≤ loan.outstanding * c.closeFactor := by positivity
  have hmin : I128.MIN ≤ 0 := by decide
  have hfunded := h.funded
  obtain ⟨L', hpaid⟩ := hpays w.ledger c.token liquidator .currentContract repayAmount hpos.le
    (by omega)
  have htransfer : ∀ v : World, v.ledger = w.ledger →
      asset.client.transfer v c.token liquidator .currentContract repayAmount =
        .ok { v with ledger := L' } := by
    intro v hledger
    simp [AssetContract.client, hledger, hpaid]
  -- The statements of the source in turn, each with what it yields.
  simp only [liquidate, Except.bind_succeeds, ReentrancyGuard.new_eq_ok, assertInitialized_eq_ok,
    assertNotPaused_eq_ok, Except.refuseIf_eq_ok, Env.requireAuth_eq_ok, World.get_eq_ok,
    Except.okOr_eq_ok, I128.checkedMul_eq_some, I128.checkedSub_eq_some, Except.pure_succeeds,
    not_le, not_lt, not_and, not_not]
  exact ⟨_, _, ⟨reachable_unguarded hreach, rfl⟩, (), ⟨c, h.config⟩, (), h.notPaused, (), hpos, (),
    h.authorized, (), fun hlisted => absurd h.openToAll (Nat.pos_iff_ne_zero.mp hlisted), loan,
    h.stored, (), h.active, _, ⟨c, h.config, rfl⟩, _, ⟨c, h.config, rfl⟩, hf, hhealth, (),
    hunhealthy, _, ⟨⟨by omega, by omega⟩, rfl⟩, (), hcap, _, ⟨c, h.config, rfl⟩, _,
    htransfer _ rfl, _, ⟨⟨by omega, by omega⟩, rfl⟩, rfl⟩

/-! ## One call -/

theorem le_maxRepay_iff (hopen : 0 < loan.outstanding) {amount : Int} :
    amount ≤ maxRepay c loan ↔ amount * 10000 ≤ loan.outstanding * c.closeFactor := by
  rw [maxRepay, Int.le_tdiv_iff (by positivity) (by omega)]

/-- Some positive amount of the loan can be liquidated now. -/
def CanLiquidate (asset : AssetContract) (w : World) (env : Env) (liquidator : Address)
    (loanId : Nat) : Prop :=
  ∃ repayAmount, 0 < repayAmount ∧
    ∃ w', liquidate asset.client env w liquidator loanId repayAmount = .ok w'

theorem Liquidatable.canLiquidate_iff {env : Env} {liquidator : Address}
    (h : Liquidatable w c loanId loan env liquidator) (hpays : asset.PaysCovered)
    (hreach : (protocol asset).Reachable w) :
    CanLiquidate asset w env liquidator loanId ↔ 10000 ≤ loan.outstanding * c.closeFactor := by
  have hopen := (reachable_sound hreach _ _ h.stored).active_iff.mp h.active
  constructor
  · rintro ⟨repayAmount, hpos, w', hrun⟩
    obtain ⟨c', loan', hf, hdone⟩ := liquidate_ok hrun
    obtain rfl := Option.mem_unique h.config hdone.config
    obtain rfl := Option.mem_unique h.stored hdone.stored
    have hcap := (le_maxRepay_iff hopen).mp hdone.withinCloseFactor
    omega
  · intro hunit
    exact ⟨1, one_pos, h.succeeds hpays hreach one_pos ((le_maxRepay_iff hopen).mpr hunit)⟩

/-! ## Repeated calls -/

/-- The step is a liquidation of the loan, by anybody. -/
def LiquidatesLoan (asset : AssetContract) (loanId : Nat) (t : Transition World Action) : Prop :=
  ∃ env liquidator repayAmount, Executed asset t env (.liquidate liquidator loanId repayAmount)

/-- Repeated liquidation can close the loan. -/
def CanBeLiquidated (asset : AssetContract) (w : World) (loanId : Nat) : Prop :=
  ∃ steps w' loan', (protocol asset).Run w steps w' ∧
    (∀ t ∈ steps, LiquidatesLoan asset loanId t) ∧
    w'.loans.lookup loanId = some loan' ∧ loan'.status = .liquidated

/-- Something of the loan is left. -/
def StillOpen (c : Config) (loanId : Nat) (w : World) : Prop :=
  w.config = some c ∧ ∃ loan, w.loans.lookup loanId = some loan ∧ loan.status = .active ∧
    0 < loan.outstanding

/-- The step lemma: below 100 % a liquidation leaves something over. -/
theorem LiquidatedBy.stillOpen {env : Env} {w' : World} {liquidator : Address} {amount hf : Int}
    (h : LiquidatedBy env w liquidator loanId amount c loan hf w') (hopen : 0 < loan.outstanding)
    (hfactor : c.closeFactor < 10000) : StillOpen c loanId w' := by
  have hcap := (le_maxRepay_iff hopen).mp h.withinCloseFactor
  have hfactor : (c.closeFactor : Int) < 10000 := by exact_mod_cast hfactor
  have hshare : loan.outstanding * c.closeFactor < loan.outstanding * 10000 :=
    mul_lt_mul_of_pos_left hfactor hopen
  have hleft : loan.outstanding - amount ≠ 0 := by omega
  refine ⟨h.config_after, _, h.stored_after, ?_, ?_⟩
  · rw [closeIfLiquidated, if_neg hleft]
    exact h.active
  · rw [closeIfLiquidated, if_neg hleft]
    show 0 < loan.outstanding - amount
    omega

theorem run_stillOpen {steps : List (Transition World Action)} {w' : World}
    (hrun : (protocol asset).Run w steps w') (hsteps : ∀ t ∈ steps, LiquidatesLoan asset loanId t)
    (hfactor : c.closeFactor < 10000) (hw : StillOpen c loanId w) : StillOpen c loanId w' := by
  refine hrun.invariant_of_steps (LiquidatesLoan asset loanId) ?_ hsteps hw
  rintro s a s' ⟨hc, loan, hloan, -, hopen⟩ - ⟨env, liquidator, amount, hexec⟩
  obtain ⟨c', loan', hf, h⟩ := liquidate_ok hexec.run
  obtain rfl := Option.mem_unique hc h.config
  obtain rfl := Option.mem_unique hloan h.stored
  exact h.stillOpen hopen hfactor

theorem Liquidatable.canBeLiquidated_iff {env : Env} {liquidator : Address}
    (h : Liquidatable w c loanId loan env liquidator) (hpays : asset.PaysCovered)
    (hreach : (protocol asset).Reachable w) :
    CanBeLiquidated asset w loanId ↔ c.closeFactor = 10000 := by
  have hopen := (reachable_sound hreach _ _ h.stored).active_iff.mp h.active
  constructor
  · rintro ⟨steps, w', loan', hrun, hsteps, hloan', hclosed⟩
    have hmax := (reachable_inRange hreach c h.config).closeFactor_max
    by_contra hne
    obtain ⟨-, left, hleft, hactive, -⟩ := run_stillOpen hrun hsteps
      (lt_of_le_of_ne hmax hne) ⟨h.config, loan, h.stored, h.active, hopen⟩
    obtain rfl := Option.mem_unique hleft hloan'
    rw [hactive] at hclosed
    contradiction
  -- At 100 % the whole loan is repaid in one call.
  · intro hfull
    obtain ⟨w', hrun⟩ := h.succeeds hpays hreach hopen
      ((le_maxRepay_iff hopen).mpr (by rw [hfull]; norm_num))
    obtain ⟨c', loan', hf, hdone⟩ := liquidate_ok hrun
    obtain rfl := Option.mem_unique h.stored hdone.stored
    have hexec : Executed asset ⟨w, .call env (.liquidate liquidator loanId loan.outstanding), w'⟩
        env (.liquidate liquidator loanId loan.outstanding) := ⟨rfl, hrun⟩
    have hstep : (protocol asset).Step w
        (.call env (.liquidate liquidator loanId loan.outstanding)) w' := by
      simp [protocol, World.invoke, show Call.run _ _ _ (.liquidate ..) = _ from hrun]
    refine ⟨_, w', _, Run.single hstep, ?_, hdone.stored_after, ?_⟩
    · intro t ht
      obtain rfl := List.mem_singleton.mp ht
      exact ⟨env, liquidator, _, hexec⟩
    · simp [closeIfLiquidated]

/-- One more call is possible exactly while the share is a whole unit, and the loan
can be brought to its end exactly where the share is everything. -/
theorem liquidation_progress_iff {env : Env} {liquidator : Address}
    (hpays : asset.PaysCovered) (hreach : (protocol asset).Reachable w)
    (h : Liquidatable w c loanId loan env liquidator) :
    (CanLiquidate asset w env liquidator loanId ↔ 10000 ≤ loan.outstanding * c.closeFactor) ∧
      (CanBeLiquidated asset w loanId ↔ c.closeFactor = 10000) :=
  ⟨h.canLiquidate_iff hpays hreach, h.canBeLiquidated_iff hpays hreach⟩

namespace Sample

/-- A loan of one unit against a herd worth two, under water since the threshold was lowered. -/
def smallLoan : List Action :=
  [initialization 6000 8000, registration 2, request 1,
    signedBy admin (.setLiquidationThreshold admin 4000)]

theorem smallLoan_liquidatable :
    ∃ c loan, Liquidatable (after smallLoan) c 1 loan ⟨[keeper]⟩ keeper ∧
      loan.outstanding = 1 ∧ c.closeFactor = 5000 :=
  ⟨_, _, ⟨rfl, rfl, rfl, rfl, rfl, ⟨8000, rfl, by decide⟩, by decide, by decide⟩, rfl, rfl⟩

end Sample

theorem sample_liquidation_progress :
    ∃ (c : Config) (loan : LoanRecord), loan.outstanding = 1 ∧ c.closeFactor = 5000 ∧
      (CanLiquidate .standard (Sample.after Sample.smallLoan) ⟨[Sample.keeper]⟩ Sample.keeper 1 ↔
        10000 ≤ loan.outstanding * c.closeFactor) ∧
      (CanBeLiquidated .standard (Sample.after Sample.smallLoan) 1 ↔ c.closeFactor = 10000) := by
  obtain ⟨c, loan, h, houtstanding, hfactor⟩ := Sample.smallLoan_liquidatable
  have hprogress := liquidation_progress_iff AssetContract.standard_paysCovered
    (Sample.after_reachable Sample.smallLoan) h
  exact ⟨c, loan, houtstanding, hfactor, hprogress.1, hprogress.2⟩

/-- Half of one unit is none: nobody can liquidate the last unit. -/
theorem last_unit_not_liquidatable :
    ¬ ∀ (asset : AssetContract) (w : World) (c : Config) (loanId : Nat) (loan : LoanRecord)
      (env : Env) (liquidator : Address), asset.PaysCovered → (protocol asset).Reachable w →
        Liquidatable w c loanId loan env liquidator →
          CanLiquidate asset w env liquidator loanId ∧ CanBeLiquidated asset w loanId := by
  intro hall
  obtain ⟨c, loan, h, houtstanding, hfactor⟩ := Sample.smallLoan_liquidatable
  have hreach := Sample.after_reachable Sample.smallLoan
  have hprogress := hall .standard _ _ _ _ _ _ AssetContract.standard_paysCovered hreach h
  have hunit := (h.canLiquidate_iff AssetContract.standard_paysCovered hreach).mp hprogress.1
  rw [houtstanding, hfactor] at hunit
  omega

end StellarKraal
