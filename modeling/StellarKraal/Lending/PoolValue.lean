import StellarKraal.Lending.LoanRecords

/-!
# The value of the pool

What the contract holds of its token plus what borrowers still owe in
principal. Lending and liquidating exchange one for the other; a repayment adds
the interest that stays with the pool; only an emergency withdrawal takes out.
-/

namespace StellarKraal

open TransitionSystem (Transition)

/-- All principal owed. -/
def World.owed (w : World) : Int := KeyedStore.total (·.outstanding) w.loans

def poolValue (token : Address) (w : World) : Int := w.ledger token .currentContract + w.owed

/-- The call lets nobody act as the contract itself and withdraws nothing. -/
def Call.Ordinary : Call → Prop
  | .requestLoan borrower _ _ => borrower ≠ .currentContract
  | .repayLoan borrower _ _ => borrower ≠ .currentContract
  | .liquidate liquidator _ _ => liquidator ≠ .currentContract
  | .emergencyWithdraw _ _ => False
  | _ => True

/-! ## The two fees -/

theorem share_nonneg {amount : Int} (bps : Nat) (h : 0 ≤ amount) :
    0 ≤ (amount * bps).tdiv 10000 :=
  Int.tdiv_nonneg (mul_nonneg h (Int.natCast_nonneg bps)) (by decide)

/-- Paying a fee takes exactly the fee out, also where it is zero and no transfer is made. -/
theorem Ledger.payFee_contract (L : Ledger) {c : Config} {fee : Int} (hfee : 0 ≤ fee)
    (htreasury : c.treasury ≠ .currentContract) :
    L.payFee c fee c.token .currentContract = L c.token .currentContract - fee := by
  unfold Ledger.payFee
  split
  · simp [Ledger.move_apply, htreasury.symm]
  · omega

/-! ## One call -/

variable {asset : AssetContract} {env : Env} {w w' : World}

/-- Rewriting one stored loan moves the total by the change of that loan. -/
theorem owed_insert {id : Nat} {loan : LoanRecord} (loan' : LoanRecord)
    (hstored : w.loans.lookup id = some loan) :
    KeyedStore.total (·.outstanding) (w.loans.insert id loan') =
      w.owed + loan'.outstanding - loan.outstanding :=
  eq_sub_of_add_eq (KeyedStore.total_insert_of_lookup (·.outstanding) loan' hstored)

@[simp] theorem closeIfRepaid_outstanding (loan : LoanRecord) :
    (closeIfRepaid loan).outstanding = loan.outstanding := by
  unfold closeIfRepaid
  split <;> rfl

@[simp] theorem closeIfLiquidated_outstanding (loan : LoanRecord) :
    (closeIfLiquidated loan).outstanding = loan.outstanding := by
  unfold closeIfLiquidated
  split <;> rfl

/-- Origination pays out exactly the principal it books: fee and disbursement. -/
theorem Originated.poolValue_eq {borrower : Address} {ids : List Nat} {amount total : Int}
    {c : Config} {collaterals : KeyedStore Nat CollateralRecord} {loanId : Nat}
    (h : Originated env w borrower ids amount c total collaterals w' loanId)
    (hnumbered : LoansNumbered w) (hborrower : borrower ≠ .currentContract)
    (htreasury : c.treasury ≠ .currentContract) : poolValue c.token w' = poolValue c.token w := by
  obtain rfl := h.loanId_eq
  obtain rfl := h.world
  have howed := KeyedStore.total_insert_fresh (·.outstanding)
    (newLoan w (w.loanCounter + 1) borrower ids total amount) hnumbered.next_fresh
  have hfee : 0 ≤ originationFee c amount := share_nonneg c.origFee h.positive.le
  simp only [poolValue, World.owed, howed, Ledger.move_apply, hborrower.symm, if_false, if_true,
    Ledger.payFee_contract _ hfee htreasury]
  simp only [newLoan]
  omega

/-- A repayment leaves the pool the interest less the treasury's share of it. -/
theorem RepaidBy.poolValue_eq {borrower : Address} {loanId : Nat} {amount : Int} {c : Config}
    {loan : LoanRecord} {r : Repayment} (h : RepaidBy env w borrower loanId amount c loan r w')
    (hfee : 0 ≤ r.interestFee) (hborrower : borrower ≠ .currentContract)
    (htreasury : c.treasury ≠ .currentContract) :
    poolValue c.token w' = poolValue c.token w + (r.interestPaid - r.interestFee) := by
  have hprincipal := h.splits.principalPaid
  have houtstanding : r.loan.outstanding = loan.outstanding - r.principalPaid := by
    rw [h.splits.loan]
    rfl
  obtain rfl := h.world
  simp only [poolValue, World.owed, owed_insert _ h.stored,
    Ledger.payFee_contract _ hfee htreasury, Ledger.move_apply, hborrower.symm, if_false, if_true,
    closeIfRepaid_outstanding, houtstanding]
  omega

/-- The treasury never takes more than the interest just paid. -/
theorem RepaidBy.fee_bounds {borrower : Address} {loanId : Nat} {amount : Int} {c : Config}
    {loan : LoanRecord} {r : Repayment} (h : RepaidBy env w borrower loanId amount c loan r w')
    (hsound : loan.Sound) (hrange : c.risk.InRange) :
    0 ≤ r.interestFee ∧ r.interestFee ≤ r.interestPaid := by
  have hinterest := accrueInterest_nonneg c.intFee w.timestamp
    hsound.outstanding_nonneg hsound.interest_nonneg
  have hpaid := (h.splits.bounds h.positive (hsound.active_iff.mp h.active) hinterest).2.1
  have hcap : c.intFee ≤ 10000 := by
    have hmax := hrange.intFee_max
    simp only [Config.risk] at hmax
    omega
  rw [h.splits.interestFee]
  exact ⟨share_nonneg c.intFee hpaid, share_le hpaid hcap⟩

/-- Liquidation takes in exactly the principal it writes off. -/
theorem LiquidatedBy.poolValue_eq {liquidator : Address} {loanId : Nat} {amount : Int} {c : Config}
    {loan : LoanRecord} {hf : Int} (h : LiquidatedBy env w liquidator loanId amount c loan hf w')
    (hliquidator : liquidator ≠ .currentContract) :
    poolValue c.token w' = poolValue c.token w := by
  obtain rfl := h.world
  simp only [poolValue, World.owed, owed_insert _ h.stored, Ledger.move_apply, hliquidator.symm,
    if_false, if_true, closeIfLiquidated_outstanding]
  omega

theorem poolValue_congr {token : Address} (hloans : w'.loans = w.loans)
    (hledger : w'.ledger = w.ledger) : poolValue token w' = poolValue token w := by
  rw [poolValue, poolValue, World.owed, World.owed, hloans, hledger]

/-- The step lemma: an ordinary call that succeeds does not lower the value. -/
theorem BookEffect.poolValue_le {call : Call} {c : Config} (h : BookEffect asset env w call w')
    (hreach : (protocol asset).Reachable w) (hc : w'.config = some c)
    (htreasury : c.treasury ≠ .currentContract) (hcall : call.Ordinary) :
    poolValue c.token w ≤ poolValue c.token w' := by
  cases h with
  | register h =>
      obtain ⟨_, -, -, -, -, -, -, -, -, rfl⟩ := registerLivestock_ok h
      exact (poolValue_congr rfl rfl).ge
  | appraise h =>
      obtain ⟨_, _, -, -, -, -, -, -, -, rfl⟩ := updateAppraisal_ok h
      exact (poolValue_congr rfl rfl).ge
  | originate h =>
      obtain rfl := Option.mem_unique h.config_after hc
      exact (h.poolValue_eq (reachable_numbered hreach) hcall htreasury).ge
  | repay h =>
      obtain rfl := Option.mem_unique h.config_after hc
      obtain ⟨hnonneg, hle⟩ := h.fee_bounds (reachable_sound hreach _ _ h.stored)
        (reachable_inRange hreach _ h.config)
      rw [h.poolValue_eq hnonneg hcall htreasury]
      omega
  | liquidate h =>
      obtain rfl := Option.mem_unique h.config_after hc
      exact (h.poolValue_eq hcall).ge
  | withdraw => exact hcall.elim
  | other h => exact (poolValue_congr (congrArg Book.loans h) (congrArg Book.ledger h)).ge

/-- Whatever ordinary call is made in whatever reachable world, the pool is worth
no less afterwards: as much after lending and liquidating, more by the interest
kept after a repayment. -/
theorem pool_value_never_leaks {c : Config} (env : Env) (call : Call)
    (hreach : (protocol asset).Reachable w)
    (hc : (w.invoke asset.client env call).config = some c)
    (htreasury : c.treasury ≠ .currentContract) (hcall : call.Ordinary) :
    poolValue c.token w ≤ poolValue c.token (w.invoke asset.client env call) ∧
      (∀ borrower ids amount, call = .requestLoan borrower ids amount →
        poolValue c.token (w.invoke asset.client env call) = poolValue c.token w) ∧
      (∀ liquidator loanId amount, call = .liquidate liquidator loanId amount →
        poolValue c.token (w.invoke asset.client env call) = poolValue c.token w) ∧
      ∀ borrower loanId amount w', call = .repayLoan borrower loanId amount →
        call.run asset.client env w = .ok w' →
          ∃ loan r, w.loans.lookup loanId = some loan ∧
            applyRepayment (accrueInterest loan c.intFee w.timestamp) amount c.intFee = .ok r ∧
            poolValue c.token w' = poolValue c.token w + (r.interestPaid - r.interestFee) ∧
            0 ≤ r.interestPaid - r.interestFee := by
  refine ⟨?_, ?_, ?_, ?_⟩
  · rcases World.invoke_cases asset.client env w call with hrun | hsame
    · exact (Call.run_bookEffect hrun).poolValue_le hreach hc htreasury hcall
    · rw [hsame]
  · rintro borrower ids amount rfl
    rcases World.invoke_cases asset.client env w (.requestLoan borrower ids amount)
      with hrun | hsame
    · obtain ⟨loanId, hrun⟩ := Call.run_requestLoan hrun
      obtain ⟨c₁, total, collaterals, h⟩ := requestLoan_ok hrun
      obtain rfl := Option.mem_unique h.config_after hc
      exact h.poolValue_eq (reachable_numbered hreach) hcall htreasury
    · rw [hsame]
  · rintro liquidator loanId amount rfl
    rcases World.invoke_cases asset.client env w (.liquidate liquidator loanId amount)
      with hrun | hsame
    · obtain ⟨c₁, loan, hf, h⟩ := liquidate_ok hrun
      obtain rfl := Option.mem_unique h.config_after hc
      exact h.poolValue_eq hcall
    · rw [hsame]
  · rintro borrower loanId amount w' rfl hrun
    obtain ⟨c₁, loan, r, h⟩ := repayLoan_ok hrun
    have hinvoke : w.invoke asset.client env (.repayLoan borrower loanId amount) = w' := by
      simp [World.invoke, hrun]
    rw [hinvoke] at hc
    obtain rfl := Option.mem_unique h.config_after hc
    obtain ⟨hnonneg, hle⟩ := h.fee_bounds (reachable_sound hreach _ _ h.stored)
      (reachable_inRange hreach _ h.config)
    exact ⟨loan, r, h.stored, h.split, h.poolValue_eq hnonneg hcall htreasury, sub_nonneg.mpr hle⟩

/-- Half a million at 10 % for a year: of the first payment, 50000 are interest
and a tenth of that goes to the treasury. -/
theorem sample_repayment_keeps_interest :
    ∃ w, (protocol .standard).Reachable w ∧ w.loans.lookup 1 ≠ none ∧
      poolValue Sample.token w ≤ poolValue Sample.token (w.invoke AssetContract.standard.client
        ⟨[Sample.farmer]⟩ (.repayLoan Sample.farmer 1 100000)) ∧
      poolValue Sample.token (w.invoke AssetContract.standard.client
        ⟨[Sample.farmer]⟩ (.repayLoan Sample.farmer 1 100000)) =
          poolValue Sample.token w + 45000 := by
  have hrun : (protocol .standard).Run Sample.world _ _ := Run.of_script
    [Sample.initialization 6000 8000, Sample.registration 1000000, Sample.request 500000,
      .tick 31536000] rfl
  have hreach := (Sample.world_reachable .standard).run hrun
  have hfarmer : (Call.repayLoan Sample.farmer 1 100000).Ordinary :=
    show Sample.farmer ≠ .currentContract by decide
  have htreasury : Sample.treasury ≠ .currentContract := by decide
  exact ⟨_, hreach, by decide,
    (pool_value_never_leaks ⟨[Sample.farmer]⟩ _ hreach rfl htreasury hfarmer).1, rfl⟩

/-- Along a run of ordinary calls, whatever happens between them, the pool only gains. -/
theorem run_poolValue_le {steps : List (Transition World Action)} {c : Config}
    (hreach : (protocol asset).Reachable w) (hrun : (protocol asset).Run w steps w')
    (hordinary : ∀ t ∈ steps, ∀ env call, t.action = .call env call → call.Ordinary)
    (hc : w.config = some c) (htreasury : c.treasury ≠ .currentContract) :
    poolValue c.token w ≤ poolValue c.token w' ∧
      ∃ c', w'.config = some c' ∧ c'.token = c.token ∧ c'.treasury = c.treasury := by
  induction hrun with
  -- Token and treasury are set once and for all, so `c` names them in every later world.
  | nil => exact ⟨le_rfl, c, hc, rfl, rfl⟩
  | snoc prior step ih =>
      obtain ⟨hle, c₁, hc₁, htoken₁, htreasury₁⟩ :=
        ih fun t ht => hordinary t (List.mem_append_left _ ht)
      rcases protocol_step_cases step with
        ⟨env, call, hexec⟩ | ⟨-, timestamp, ledger, -, hkeeps, rfl⟩
      · obtain ⟨c₂, hc₂, htoken₂, htreasury₂⟩ :=
          (Call.run_configEffect hexec.run).keeps_token hc₁
        have hcall := hordinary _ (List.mem_append_right _ List.mem_cons_self) _ _ hexec.action
        have hstep := (Call.run_bookEffect hexec.run).poolValue_le (hreach.run prior) hc₂
          (by rwa [htreasury₂, htreasury₁]) hcall
        rw [htoken₂, htoken₁] at hstep
        exact ⟨hle.trans hstep, c₂, hc₂, htoken₂.trans htoken₁, htreasury₂.trans htreasury₁⟩
      -- Between calls others may only add to the contract's balance.
      · refine ⟨hle.trans ?_, c₁, hc₁, htoken₁, htreasury₁⟩
        exact add_le_add_left (hkeeps c.token) _

end StellarKraal
