import StellarKraal.Risk.Parameters

/-!
# Loan records

A loan record is written once at origination and then only by payments on it
while it is active. What one payment does to one record is said first; the
invariants of all stored records follow from it.
-/

namespace StellarKraal

open TransitionSystem (Transition)

/-- One successful payment on a loan, at configuration `c` and time `now`. -/
inductive LoanRecord.Payment (c : Config) (now : Nat) (loan : LoanRecord) : LoanRecord → Prop
  | repay {amount : Int} {r : Repayment} (hpos : 0 < amount)
      (hsplits : r.Splits (accrueInterest loan c.intFee now) amount c.intFee) :
      Payment c now loan (closeIfRepaid r.loan)
  | liquidate {amount : Int} (hpos : 0 < amount)
      (hcap : amount ≤ (loan.outstanding * c.closeFactor).tdiv 10000) :
      Payment c now loan (closeIfLiquidated { loan with outstanding := loan.outstanding - amount })

/-- What a call does to the stored loans. -/
inductive LoanEffect (w w' : World) : Prop
  | same (hloans : w'.loans = w.loans) (hcounter : w'.loanCounter = w.loanCounter)
  | originate {borrower : Address} {ids : List Nat} {total amount : Int} (hpos : 0 < amount)
      (hloans : w'.loans = w.loans.insert (w.loanCounter + 1)
        (newLoan w (w.loanCounter + 1) borrower ids total amount))
      (hcounter : w'.loanCounter = w.loanCounter + 1)
  | payment {c : Config} {id : Nat} {loan loan' : LoanRecord} (hc : w.config = some c)
      (hstored : w.loans.lookup id = some loan) (hactive : loan.status = .active)
      (hpayment : loan.Payment c w.timestamp loan') (hloans : w'.loans = w.loans.insert id loan')
      (hcounter : w'.loanCounter = w.loanCounter)

theorem RepaidBy.payment {env : Env} {w w' : World} {borrower : Address} {loanId : Nat}
    {amount : Int} {c : Config} {loan : LoanRecord} {r : Repayment}
    (h : RepaidBy env w borrower loanId amount c loan r w') :
    loan.Payment c w.timestamp (closeIfRepaid r.loan) :=
  .repay h.positive h.splits

theorem LiquidatedBy.payment {env : Env} {w w' : World} {liquidator : Address} {loanId : Nat}
    {amount : Int} {c : Config} {loan : LoanRecord} {hf : Int}
    (h : LiquidatedBy env w liquidator loanId amount c loan hf w') :
    loan.Payment c w.timestamp
      (closeIfLiquidated { loan with outstanding := loan.outstanding - amount }) :=
  .liquidate h.positive h.withinCloseFactor

variable {asset : AssetContract}

/-- The three calls that write loans, and all others together. -/
inductive LoanCall (env : Env) (w : World) : Call → World → Prop
  | originate {borrower : Address} {ids : List Nat} {amount : Int} {c : Config} {total : Int}
      {collaterals : KeyedStore Nat CollateralRecord} {w' : World} {loanId : Nat}
      (h : Originated env w borrower ids amount c total collaterals w' loanId) :
      LoanCall env w (.requestLoan borrower ids amount) w'
  | repay {borrower : Address} {loanId : Nat} {amount : Int} {c : Config} {loan : LoanRecord}
      {r : Repayment} {w' : World} (h : RepaidBy env w borrower loanId amount c loan r w') :
      LoanCall env w (.repayLoan borrower loanId amount) w'
  | liquidate {liquidator : Address} {loanId : Nat} {amount : Int} {c : Config}
      {loan : LoanRecord} {hf : Int} {w' : World}
      (h : LiquidatedBy env w liquidator loanId amount c loan hf w') :
      LoanCall env w (.liquidate liquidator loanId amount) w'
  | same {call : Call} {w' : World} (hloans : w'.loans = w.loans)
      (hcounter : w'.loanCounter = w.loanCounter) : LoanCall env w call w'

theorem BookEffect.loanCall {env : Env} {call : Call} {w w' : World}
    (h : BookEffect asset env w call w') : LoanCall env w call w' := by
  cases h with
  | register h =>
      obtain ⟨_, -, -, -, -, -, -, -, -, rfl⟩ := registerLivestock_ok h
      exact .same rfl rfl
  | appraise h =>
      obtain ⟨_, _, -, -, -, -, -, -, -, rfl⟩ := updateAppraisal_ok h
      exact .same rfl rfl
  | originate h => exact .originate h
  | repay h => exact .repay h
  | liquidate h => exact .liquidate h
  | withdraw h =>
      obtain ⟨_, -, -, -, -, rfl⟩ := emergencyWithdraw_ok h
      exact .same rfl rfl
  | other h => exact .same (congrArg Book.loans h) (congrArg Book.loanCounter h)

theorem LoanCall.effect {env : Env} {call : Call} {w w' : World} (h : LoanCall env w call w') :
    LoanEffect w w' := by
  cases h with
  | originate h =>
      obtain rfl := h.loanId_eq
      obtain rfl := h.world
      exact .originate h.positive rfl rfl
  | repay h =>
      obtain rfl := h.world
      exact .payment h.config h.stored h.active h.payment rfl rfl
  | liquidate h =>
      obtain rfl := h.world
      exact .payment h.config h.stored h.active h.payment rfl rfl
  | same hloans hcounter => exact .same hloans hcounter

theorem BookEffect.loans {env : Env} {call : Call} {w w' : World}
    (h : BookEffect asset env w call w') : LoanEffect w w' :=
  h.loanCall.effect

/-! ## One record -/

/-- What holds of every stored loan. -/
structure LoanRecord.Sound (loan : LoanRecord) : Prop where
  principal_pos : 0 < loan.principal
  outstanding_nonneg : 0 ≤ loan.outstanding
  outstanding_le : loan.outstanding ≤ loan.principal
  interest_nonneg : 0 ≤ loan.interestAccrued
  active_iff : loan.status = .active ↔ 0 < loan.outstanding
  repaid : loan.status = .repaid → loan.outstanding = 0 ∧ loan.interestAccrued = 0

theorem newLoan_sound {w : World} {id : Nat} {borrower : Address} {ids : List Nat}
    {total amount : Int} (hpos : 0 < amount) : (newLoan w id borrower ids total amount).Sound where
  principal_pos := hpos
  outstanding_nonneg := hpos.le
  outstanding_le := le_rfl
  interest_nonneg := le_rfl
  active_iff := iff_of_true rfl hpos
  repaid h := nomatch h

@[simp] theorem accrueInterest_outstanding (loan : LoanRecord) (bps now : Nat) :
    (accrueInterest loan bps now).outstanding = loan.outstanding := rfl

theorem accrueInterest_nonneg {loan : LoanRecord} (bps now : Nat)
    (houtstanding : 0 ≤ loan.outstanding) (hinterest : 0 ≤ loan.interestAccrued) :
    0 ≤ (accrueInterest loan bps now).interestAccrued := by
  simp only [accrueInterest]
  split
  · have hproduct := I128.mulOrMax_nonneg (I128.mulOrMax_nonneg houtstanding
      (Int.natCast_nonneg bps)) (Int.natCast_nonneg (now - loan.lastInterestTime))
    exact I128.saturatingAdd_nonneg hinterest (Int.tdiv_nonneg hproduct (by decide))
  · exact hinterest

/-- The split of a repayment on a sound active loan: every part is bounded by
what it pays, and principal is touched only once the interest is gone. -/
theorem Repayment.Splits.bounds {r : Repayment} {loan : LoanRecord} {amount : Int} {bps : Nat}
    (h : r.Splits loan amount bps) (hpos : 0 < amount) (houtstanding : 0 < loan.outstanding)
    (hinterest : 0 ≤ loan.interestAccrued) :
    0 < r.repayAmount ∧ 0 ≤ r.interestPaid ∧ r.interestPaid ≤ loan.interestAccrued ∧
      0 ≤ r.principalPaid ∧ r.principalPaid ≤ loan.outstanding ∧
      (0 < r.principalPaid → r.interestPaid = loan.interestAccrued) := by
  have hrepay := h.repayAmount
  have hpaid := h.interestPaid
  have hprincipal := h.principalPaid
  omega

/-- Repaying keeps a record sound, whichever way it ends. -/
theorem closeIfRepaid_sound {loan : LoanRecord} (hprincipal : 0 < loan.principal)
    (hnonneg : 0 ≤ loan.outstanding) (hle : loan.outstanding ≤ loan.principal)
    (hinterest : 0 ≤ loan.interestAccrued) (hactive : loan.status = .active)
    (hpaid : loan.outstanding = 0 → loan.interestAccrued = 0) : (closeIfRepaid loan).Sound := by
  unfold closeIfRepaid
  split
  next hclosed =>
    exact ⟨hprincipal, hnonneg, hle, hinterest,
      iff_of_false (by simp) (by simp [hclosed.1]), fun _ => hclosed⟩
  next hopen =>
    have hopen : 0 < loan.outstanding :=
      lt_of_le_of_ne hnonneg fun hzero => hopen ⟨hzero.symm, hpaid hzero.symm⟩
    exact ⟨hprincipal, hnonneg, hle, hinterest, iff_of_true hactive hopen,
      fun hrepaid => by simp [hactive] at hrepaid⟩

theorem closeIfLiquidated_sound {loan : LoanRecord} (hprincipal : 0 < loan.principal)
    (hnonneg : 0 ≤ loan.outstanding) (hle : loan.outstanding ≤ loan.principal)
    (hinterest : 0 ≤ loan.interestAccrued) (hactive : loan.status = .active) :
    (closeIfLiquidated loan).Sound := by
  unfold closeIfLiquidated
  split
  next hclosed =>
    exact ⟨hprincipal, hnonneg, hle, hinterest,
      iff_of_false (by simp) (by simp [hclosed]), fun hrepaid => by simp at hrepaid⟩
  next hopen =>
    exact ⟨hprincipal, hnonneg, hle, hinterest,
      iff_of_true hactive (lt_of_le_of_ne hnonneg (Ne.symm hopen)),
      fun hrepaid => by simp [hactive] at hrepaid⟩

/-- A share of at most 100 % is at most the whole. -/
theorem share_le {amount : Int} {bps : Nat} (hnonneg : 0 ≤ amount) (hbps : bps ≤ 10000) :
    (amount * bps).tdiv 10000 ≤ amount := by
  have hshare : (amount * bps).tdiv 10000 ≤ (amount * (10000 : Nat)).tdiv 10000 :=
    Int.tdiv_le_tdiv (by decide) (mul_le_mul_of_nonneg_left (by exact_mod_cast hbps) hnonneg)
  simpa using hshare

/-- The step lemma: a payment keeps the record sound. -/
theorem LoanRecord.Payment.sound {c : Config} {now : Nat} {loan loan' : LoanRecord}
    (h : loan.Payment c now loan') (hsound : loan.Sound) (hactive : loan.status = .active)
    (hcloseFactor : c.closeFactor ≤ 10000) : loan'.Sound := by
  have hopen := hsound.active_iff.mp hactive
  cases h with
  | @repay amount r hpos hsplits =>
      have hinterest := accrueInterest_nonneg c.intFee now
        hsound.outstanding_nonneg hsound.interest_nonneg
      obtain ⟨-, hipos, hile, hppos, hple, hwaterfall⟩ := hsplits.bounds hpos hopen hinterest
      rw [accrueInterest_outstanding] at hple
      rw [hsplits.loan]
      refine closeIfRepaid_sound hsound.principal_pos ?_ ?_ ?_ hactive ?_
      · exact sub_nonneg.mpr hple
      · exact (sub_le_self _ hppos).trans hsound.outstanding_le
      · exact sub_nonneg.mpr hile
      · intro hzero
        have hzero : loan.outstanding - r.principalPaid = 0 := hzero
        -- Principal is reached only once the interest is paid in full.
        have hall := hwaterfall (by omega)
        exact sub_eq_zero.mpr hall.symm
  | liquidate hpos hcap =>
      have hle := hcap.trans (share_le hsound.outstanding_nonneg hcloseFactor)
      refine closeIfLiquidated_sound hsound.principal_pos ?_ ?_ hsound.interest_nonneg hactive
      · exact sub_nonneg.mpr hle
      · exact (sub_le_self _ hpos.le).trans hsound.outstanding_le

/-- A payment changes balances, times and the status, not what the loan is. -/
theorem LoanRecord.Payment.terms {c : Config} {now : Nat} {loan loan' : LoanRecord}
    (h : loan.Payment c now loan') :
    loan'.id = loan.id ∧ loan'.collateralIds = loan.collateralIds ∧
      loan'.borrower = loan.borrower ∧ loan'.totalCollateralValue = loan.totalCollateralValue ∧
      loan'.principal = loan.principal := by
  cases h with
  | repay _ hsplits =>
      rw [hsplits.loan]
      unfold closeIfRepaid
      split <;> exact ⟨rfl, rfl, rfl, rfl, rfl⟩
  | liquidate =>
      unfold closeIfLiquidated
      split <;> exact ⟨rfl, rfl, rfl, rfl, rfl⟩

/-! ## All stored records -/

/-- Loans are stored under their own ids, which the counter has given out. -/
def LoansNumbered (w : World) : Prop :=
  ∀ id loan, w.loans.lookup id = some loan → loan.id = id ∧ 0 < id ∧ id ≤ w.loanCounter

theorem LoanEffect.numbered {w w' : World} (h : LoanEffect w w') (hw : LoansNumbered w) :
    LoansNumbered w' := by
  intro id loan hlookup
  cases h with
  | same hloans hcounter =>
      rw [hloans] at hlookup
      rw [hcounter]
      exact hw id loan hlookup
  | originate _ hloans hcounter =>
      rw [hloans] at hlookup
      rw [hcounter]
      rcases KeyedStore.lookup_insert_cases hlookup with ⟨rfl, rfl⟩ | ⟨-, hold⟩
      · exact ⟨rfl, Nat.succ_pos _, le_rfl⟩
      · obtain ⟨hid, hpos, hle⟩ := hw id loan hold
        exact ⟨hid, hpos, Nat.le_succ_of_le hle⟩
  | payment _ hstored _ hpayment hloans hcounter =>
      rw [hloans] at hlookup
      rw [hcounter]
      rcases KeyedStore.lookup_insert_cases hlookup with ⟨rfl, rfl⟩ | ⟨-, hold⟩
      · obtain ⟨hid, hrange⟩ := hw _ _ hstored
        exact ⟨hpayment.terms.1.trans hid, hrange⟩
      · exact hw id loan hold

theorem reachable_numbered {w : World} (h : (protocol asset).Reachable w) : LoansNumbered w := by
  apply reachable_invariant LoansNumbered (h := h)
  · intro timestamp ledger id loan hlookup
    nomatch hlookup
  · intro env call w w' _ hw hrun
    exact (Call.run_bookEffect hrun).loans.numbered hw
  · intro w timestamp ledger hw _ _
    exact hw

/-- No loan is stored under the next id. -/
theorem LoansNumbered.next_fresh {w : World} (h : LoansNumbered w) :
    w.loans.lookup (w.loanCounter + 1) = none := by
  cases hlookup : w.loans.lookup (w.loanCounter + 1) with
  | none => rfl
  | some loan => exact absurd (h _ loan hlookup).2.2 (Nat.not_succ_le_self _)

theorem reachable_sound {w : World} (h : (protocol asset).Reachable w) :
    ∀ id loan, w.loans.lookup id = some loan → loan.Sound := by
  apply reachable_invariant
    (fun w => ∀ id loan, w.loans.lookup id = some loan → loan.Sound) (h := h)
  · intro timestamp ledger id loan hlookup
    nomatch hlookup
  · intro env call w w' hreach hw hrun id loan hlookup
    cases (Call.run_bookEffect hrun).loans with
    | same hloans => exact hw id loan (hloans ▸ hlookup)
    | originate hpos hloans =>
        rw [hloans] at hlookup
        rcases KeyedStore.lookup_insert_cases hlookup with ⟨-, rfl⟩ | ⟨-, hold⟩
        · exact newLoan_sound hpos
        · exact hw id loan hold
    | payment hc hstored hactive hpayment hloans =>
        rw [hloans] at hlookup
        rcases KeyedStore.lookup_insert_cases hlookup with ⟨-, rfl⟩ | ⟨-, hold⟩
        · exact hpayment.sound (hw _ _ hstored) hactive
            (reachable_inRange hreach _ hc).closeFactor_max
        · exact hw id loan hold
  · intro w timestamp ledger hw _ _
    exact hw

/-- No call touches a closed loan. -/
theorem LoanEffect.closed_stays {w w' : World} {id : Nat} {loan : LoanRecord}
    (h : LoanEffect w w') (hnumbered : LoansNumbered w)
    (hstored : w.loans.lookup id = some loan) (hclosed : loan.status ≠ .active) :
    w'.loans.lookup id = some loan := by
  cases h with
  | same hloans => rwa [hloans]
  | originate _ hloans =>
      have hne : id ≠ w.loanCounter + 1 := by
        rintro rfl
        simp [hnumbered.next_fresh] at hstored
      rw [hloans, AList.lookup_insert_ne hne, hstored]
  | @payment _ paid _ _ _ hpaid hactive _ hloans =>
      have hne : id ≠ paid := by
        rintro rfl
        obtain rfl := Option.mem_unique hpaid hstored
        exact hclosed hactive
      rw [hloans, AList.lookup_insert_ne hne, hstored]

/-- A closed loan is the same record in every later world. -/
theorem closed_loan_stays {w w' : World} {steps : List (Transition World Action)} {id : Nat}
    {loan : LoanRecord} (hreach : (protocol asset).Reachable w)
    (hrun : (protocol asset).Run w steps w') (hstored : w.loans.lookup id = some loan)
    (hclosed : loan.status ≠ .active) : w'.loans.lookup id = some loan := by
  induction hrun with
  | nil => exact hstored
  | snoc prior step ih =>
      rcases protocol_step_cases step with ⟨env, call, hexec⟩ | ⟨-, timestamp, ledger, -, -, rfl⟩
      · exact (Call.run_bookEffect hexec.run).loans.closed_stays
          (reachable_numbered (hreach.run prior)) ih hclosed
      · exact ih

/-- Every loan ever stored is sound, and once closed it is final. -/
theorem loan_records_sound {w : World} (hreach : (protocol asset).Reachable w) :
    (∀ id loan, w.loans.lookup id = some loan → loan.Sound) ∧
      ∀ id loan steps w', w.loans.lookup id = some loan → loan.status ≠ .active →
        (protocol asset).Run w steps w' → w'.loans.lookup id = some loan :=
  ⟨reachable_sound hreach, fun _ _ _ _ hstored hclosed hrun =>
    closed_loan_stays hreach hrun hstored hclosed⟩

/-- A loan that was taken and paid back in full stays `Repaid` for good. -/
theorem repaid_loan_sound_and_final :
    ∃ w loan, w.loans.lookup 1 = some loan ∧ loan.status = .repaid ∧ loan.Sound ∧
      ∀ steps w', (protocol .standard).Run w steps w' → w'.loans.lookup 1 = some loan := by
  have hrun : (protocol .standard).Run Sample.world _ _ := Run.of_script
    [Sample.initialization 6000 8000, Sample.registration 1000000, Sample.request 500000,
      Sample.signedBy Sample.farmer (.repayLoan Sample.farmer 1 500000)] rfl
  obtain ⟨hsound, hfinal⟩ := loan_records_sound ((Sample.world_reachable _).run hrun)
  exact ⟨_, _, rfl, rfl, hsound 1 _ rfl, fun steps w' => hfinal 1 _ steps w' rfl (by decide)⟩

end StellarKraal
