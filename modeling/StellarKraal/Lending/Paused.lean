import StellarKraal.Lending.PoolValue

/-!
# The contract while it is paused

A pause stops lending, liquidating, registering and appraising. Debt can still
be paid back, and a repayment does not notice the pause at all.
-/

namespace StellarKraal

open TransitionSystem (Transition)

variable {asset : AssetContract}

/-! ## What may change during a pause -/

/-- No new loan, no larger debt, the same collateral and no less money. -/
structure OnlyDebtFalls (w w' : World) : Prop where
  loans : ∀ id loan', w'.loans.lookup id = some loan' →
    ∃ loan, w.loans.lookup id = some loan ∧ loan'.outstanding ≤ loan.outstanding
  collaterals : w'.collaterals = w.collaterals
  funds : w.ledger.KeepsContractFunds w'.ledger

namespace OnlyDebtFalls

theorem of_same {w w' : World} (hloans : w'.loans = w.loans)
    (hcollaterals : w'.collaterals = w.collaterals)
    (hfunds : w.ledger.KeepsContractFunds w'.ledger) : OnlyDebtFalls w w' where
  loans _ loan' h := ⟨loan', hloans ▸ h, le_rfl⟩
  collaterals := hcollaterals
  funds := hfunds

theorem refl (w : World) : OnlyDebtFalls w w :=
  .of_same rfl rfl fun _ => le_rfl

theorem trans {w₁ w₂ w₃ : World} (h : OnlyDebtFalls w₁ w₂) (h' : OnlyDebtFalls w₂ w₃) :
    OnlyDebtFalls w₁ w₃ where
  loans id loan₃ h₃ := by
    obtain ⟨loan₂, h₂, hle₂⟩ := h'.loans id loan₃ h₃
    obtain ⟨loan₁, h₁, hle₁⟩ := h.loans id loan₂ h₂
    exact ⟨loan₁, h₁, hle₂.trans hle₁⟩
  collaterals := h'.collaterals.trans h.collaterals
  funds token := (h.funds token).trans (h'.funds token)

end OnlyDebtFalls

/-! ## Repayments -/

theorem Ledger.move_apply_of_ne (L : Ledger) {token token' : Address} (h : token' ≠ token)
    (sender receiver holder : Address) (amount : Int) :
    L.move token sender receiver amount token' holder = L token' holder := by
  simp [Ledger.move, Ledger.set, h]

/-- The contract loses at most the fee, whoever the treasury is. -/
theorem Ledger.le_payFee (L : Ledger) (c : Config) {fee : Int} (hfee : 0 ≤ fee) :
    L c.token .currentContract - fee ≤ L.payFee c fee c.token .currentContract := by
  unfold Ledger.payFee
  split
  · rw [Ledger.move_apply]
    split_ifs <;> omega
  · omega

variable {env : Env} {w w' : World}

/-- What a repayment brings in, less the treasury's share, stays with the contract. -/
theorem RepaidBy.contract_funds {borrower : Address} {loanId : Nat} {amount : Int} {c : Config}
    {loan : LoanRecord} {r : Repayment} (h : RepaidBy env w borrower loanId amount c loan r w')
    (hfee : 0 ≤ r.interestFee) (hborrower : borrower ≠ .currentContract) :
    w.ledger c.token .currentContract + r.repayAmount - r.interestFee ≤
      w'.ledger c.token .currentContract := by
  have hpaid := Ledger.le_payFee
    (w.ledger.move c.token borrower .currentContract r.repayAmount) c hfee
  rw [Ledger.move_apply, if_pos rfl, if_neg hborrower.symm, sub_zero] at hpaid
  rw [h.world]
  exact hpaid

theorem RepaidBy.onlyDebtFalls {borrower : Address} {loanId : Nat} {amount : Int} {c : Config}
    {loan : LoanRecord} {r : Repayment} (h : RepaidBy env w borrower loanId amount c loan r w')
    (hsound : loan.Sound) (hrange : c.risk.InRange) (hborrower : borrower ≠ .currentContract) :
    OnlyDebtFalls w w' := by
  have hinterest := accrueInterest_nonneg c.intFee w.timestamp
    hsound.outstanding_nonneg hsound.interest_nonneg
  obtain ⟨-, -, -, hprincipal, -, -⟩ :=
    h.splits.bounds h.positive (hsound.active_iff.mp h.active) hinterest
  obtain ⟨hfee, hshare⟩ := h.fee_bounds hsound hrange
  refine ⟨?_, ?_, ?_⟩
  · intro id loan' hlookup
    rw [h.world] at hlookup
    rcases KeyedStore.lookup_insert_cases hlookup with ⟨rfl, rfl⟩ | ⟨-, hold⟩
    · refine ⟨loan, h.stored, ?_⟩
      rw [closeIfRepaid_outstanding, h.splits.loan]
      exact sub_le_self _ hprincipal
    · exact ⟨loan', hold, le_rfl⟩
  · rw [h.world]
  · intro token
    by_cases htoken : token = c.token
    · subst htoken
      have hfunds := h.contract_funds hfee hborrower
      have hpaid := h.splits.principalPaid
      omega
    · rw [h.world]
      simp only [Ledger.payFee]
      split
      · rw [Ledger.move_apply_of_ne _ htoken, Ledger.move_apply_of_ne _ htoken]
      · rw [Ledger.move_apply_of_ne _ htoken]

/-! ## Calls -/

/-- A call made during a pause that the admin has not signed. The contract itself
never signs one: it makes no calls to its own entry points. -/
structure PausedCall (env : Env) (w : World) : Prop where
  paused : isPausedRaw w = true
  notAdmin : ∀ c, w.config = some c → c.admin ∉ env.signers
  notSelf : .currentContract ∉ env.signers

/-- The step lemma: of all calls only a repayment goes through. -/
theorem BookEffect.onlyDebtFalls {call : Call} (h : BookEffect asset env w call w')
    (hreach : (protocol asset).Reachable w) (hcall : PausedCall env w) : OnlyDebtFalls w w' := by
  cases h with
  | register h =>
      obtain ⟨_, -, hpaused, -⟩ := registerLivestock_ok h
      simp [hcall.paused] at hpaused
  | appraise h =>
      obtain ⟨_, _, -, hpaused, -⟩ := updateAppraisal_ok h
      simp [hcall.paused] at hpaused
  | originate h =>
      have hpaused := h.notPaused
      simp [hcall.paused] at hpaused
  | repay h =>
      apply h.onlyDebtFalls (reachable_sound hreach _ _ h.stored)
        (reachable_inRange hreach _ h.config)
      rintro rfl
      exact hcall.notSelf h.authorized
  | liquidate h =>
      have hpaused := h.notPaused
      simp [hcall.paused] at hpaused
  | withdraw h =>
      obtain ⟨c, hc, rfl, hauth, -⟩ := emergencyWithdraw_ok h
      exact absurd hauth (hcall.notAdmin c hc)
  | other h =>
      have hledger : w'.ledger = w.ledger := congrArg Book.ledger h
      exact .of_same (congrArg Book.loans h) (congrArg Book.collaterals h)
        fun token => (congrFun (congrFun hledger token) _).ge

/-- Every call of the run is made during a pause, by somebody else than the admin. -/
def AllPaused (steps : List (Transition World Action)) : Prop :=
  ∀ t ∈ steps, ∀ env call, t.action = .call env call → PausedCall env t.before

theorem run_onlyDebtFalls {steps : List (Transition World Action)}
    (hreach : (protocol asset).Reachable w) (hrun : (protocol asset).Run w steps w')
    (hpaused : AllPaused steps) : OnlyDebtFalls w w' := by
  induction hrun with
  | nil => exact .refl w
  | snoc prior step ih =>
      refine (ih fun t ht => hpaused t (List.mem_append_left _ ht)).trans ?_
      rcases protocol_step_cases step with
        ⟨env, call, hexec⟩ | ⟨-, timestamp, ledger, -, hkeeps, rfl⟩
      · have hcall := hpaused _ (List.mem_append_right _ List.mem_cons_self) _ _ hexec.action
        exact (Call.run_bookEffect hexec.run).onlyDebtFalls (hreach.run prior) hcall
      · exact .of_same rfl rfl hkeeps

/-! ## Repaying does not look at the pause -/

/-- The same world in another pause state. -/
def World.withPause (w : World) (paused : Bool) (pauseExp : Nat) : World :=
  { w with paused, pauseExp }

variable (asset) in
theorem transfer_withPause (w : World) (token sender receiver : Address) (amount : Int)
    (paused : Bool) (pauseExp : Nat) :
    asset.client.transfer (w.withPause paused pauseExp) token sender receiver amount =
      (asset.client.transfer w token sender receiver amount).map (·.withPause paused pauseExp) := by
  simp only [AssetContract.client, World.withPause]
  cases asset.transfer w.ledger token sender receiver amount with
  | none => rfl
  | some L => rfl

variable (asset) in
theorem collectFee_withPause (w : World) (token : Address) (loanId : Nat) (kind : Symbol)
    (fee : Int) (paused : Bool) (pauseExp : Nat) :
    collectFee asset.client (w.withPause paused pauseExp) token loanId kind fee =
      (collectFee asset.client w token loanId kind fee).map (·.withPause paused pauseExp) := by
  unfold collectFee
  split
  · apply Except.bind_eq_map_bind
    intro treasury
    rw [transfer_withPause]
    exact Except.map_bind_eq_map_bind fun _ => rfl
  · rfl

/-- A repayment goes the same way whatever the pause state is, down to the reason
it fails for. -/
theorem repayLoan_withPause (env : Env) (w : World) (borrower : Address) (loanId : Nat)
    (amount : Int) (paused : Bool) (pauseExp : Nat) :
    repayLoan asset.client env (w.withPause paused pauseExp) borrower loanId amount =
      (repayLoan asset.client env w borrower loanId amount).map
        (·.withPause paused pauseExp) := by
  unfold repayLoan
  cases hguard : w.guard with
  | true => simp [ReentrancyGuard.new, World.withPause, hguard, Except.map]
  | false =>
      simp only [ReentrancyGuard.new, World.withPause, hguard, Bool.false_eq_true, if_false,
        Except.bind_of_ok]
      -- The checks and reads up to the token do not mention the pause.
      refine Except.bind_eq_map_bind fun _ => ?_
      refine Except.bind_eq_map_bind fun _ => ?_
      refine Except.bind_eq_map_bind fun _ => ?_
      refine Except.bind_eq_map_bind fun loan => ?_
      refine Except.bind_eq_map_bind fun _ => ?_
      refine Except.bind_eq_map_bind fun _ => ?_
      refine Except.bind_eq_map_bind fun intFeeBps => ?_
      refine Except.bind_eq_map_bind fun r => ?_
      refine Except.bind_eq_map_bind fun token => ?_
      have htransfer := transfer_withPause asset { w with guard := true } token
        borrower .currentContract r.repayAmount paused pauseExp
      simp only [World.withPause] at htransfer
      rw [htransfer]
      refine Except.map_bind_eq_map_bind fun taken => ?_
      have hcollect := collectFee_withPause asset taken token loanId "interest"
        r.interestFee paused pauseExp
      simp only [World.withPause] at hcollect
      rw [hcollect]
      exact Except.map_bind_eq_map_bind fun _ => rfl

/-- From any reachable state, while every call falls into a pause and comes from
somebody other than the admin: no loan appears, no debt grows, no collateral
changes, and the contract's balances do not fall. A repayment leaves with the
contract all of it but the treasury's share of the interest it paid, and goes
through exactly if it would without the pause. -/
theorem paused_only_debt_falls {steps : List (Transition World Action)}
    (hreach : (protocol asset).Reachable w) (hrun : (protocol asset).Run w steps w')
    (hpaused : AllPaused steps) :
    OnlyDebtFalls w w' ∧
    (∀ t ∈ steps, ∀ env borrower loanId amount,
      Executed asset t env (.repayLoan borrower loanId amount) →
        ∃ c loan r, RepaidBy env t.before borrower loanId amount c loan r t.after ∧
          0 ≤ r.interestFee ∧ r.interestFee ≤ r.interestPaid ∧
          t.before.ledger c.token .currentContract + r.repayAmount - r.interestFee ≤
            t.after.ledger c.token .currentContract) ∧
    ∀ (v : World) env borrower loanId amount paused pauseExp,
      repayLoan asset.client env (v.withPause paused pauseExp) borrower loanId amount =
        (repayLoan asset.client env v borrower loanId amount).map
          (·.withPause paused pauseExp) := by
  refine ⟨run_onlyDebtFalls hreach hrun hpaused, ?_, ?_⟩
  · intro t ht env borrower loanId amount hexec
    have hcall := hpaused t ht env _ hexec.action
    have hbefore := (hrun.mem_step hreach ht).1
    obtain ⟨c, loan, r, h⟩ := repayLoan_ok hexec.run
    obtain ⟨hfee, hshare⟩ := h.fee_bounds (reachable_sound hbefore _ _ h.stored)
      (reachable_inRange hbefore _ h.config)
    have hborrower : borrower ≠ .currentContract := by
      rintro rfl
      exact hcall.notSelf h.authorized
    exact ⟨c, loan, r, h, hfee, hshare, h.contract_funds hfee hborrower⟩
  · intro v env borrower loanId amount paused pauseExp
    exact repayLoan_withPause env v borrower loanId amount paused pauseExp

/-- A loan of half a million under a pause. -/
def Sample.pausedLoan : World := Sample.after
  [Sample.initialization 6000 8000, Sample.registration 1000000, Sample.request 500000,
    Sample.signedBy Sample.admin (.pause Sample.admin)]

/-- Half of it is paid back while the pause lasts. -/
theorem sample_paused_repayment :
    ∃ steps w, (protocol .standard).Run Sample.pausedLoan steps w ∧ AllPaused steps ∧
      (Sample.pausedLoan.loans.lookup 1).map (·.outstanding) = some 500000 ∧
      (w.loans.lookup 1).map (·.outstanding) = some 250000 ∧
      OnlyDebtFalls Sample.pausedLoan w := by
  have hrun : (protocol .standard).Run Sample.pausedLoan [_] _ := Run.of_script
    [Sample.signedBy Sample.farmer (.repayLoan Sample.farmer 1 250000)] rfl
  have hpaused : ∀ w, AllPaused [⟨Sample.pausedLoan,
      Sample.signedBy Sample.farmer (.repayLoan Sample.farmer 1 250000), w⟩] := by
    intro w t ht env call haction
    obtain rfl := List.mem_singleton.mp ht
    obtain ⟨rfl, rfl⟩ := Action.call.inj haction
    refine ⟨rfl, ?_, by decide⟩
    intro c hc
    obtain rfl := Option.some.inj hc
    decide
  exact ⟨_, _, hrun, hpaused _, rfl, rfl,
    (paused_only_debt_falls (Sample.after_reachable _) hrun (hpaused _)).1⟩

end StellarKraal
