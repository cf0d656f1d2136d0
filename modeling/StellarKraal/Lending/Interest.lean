import StellarKraal.Contract.EventEffects
import StellarKraal.Foundation.LazyAccrual
import StellarKraal.Lending.LoanRecords

/-!
# Interest over a run

`repay_loan` accrues for all the time since the last accrual, at the balance and
the rate it finds. The charge is exact up to rounding as long as balance and rate
were the same all that time; `liquidate` and `update_fee_config` change them
without accruing first.
-/

namespace StellarKraal

open TransitionSystem (Transition)

/-! ## The charge and the exact amount -/

/-- One unit of interest, in the units of balance × basis points × seconds. -/
def interestUnit : Int := 10000 * 31536000

theorem interestUnit_pos : 0 < interestUnit := by decide

/-- The interest that a repayment of the loan announces. -/
def Event.interestPaid (loanId : Nat) (e : Event) : Int :=
  match e.topics, e.data with
  | [.symbol kind, .address _], .vec [.u64 id, .i128 _, .i128 interest, .i128 _] =>
      if kind = "loan_repaid" ∧ id = loanId then interest else 0
  | _, _ => 0

/-- The interest on the loan paid in one step, by the events it adds. -/
def interestPaidIn (loanId : Nat) (t : Transition World Action) : Int :=
  ((t.after.events.drop t.before.events.length).map (Event.interestPaid loanId)).sum

/-- All interest charged over the steps: paid, or still on the record afterwards. -/
def interestCharged (loanId : Nat) (steps : List (Transition World Action)) (loan : LoanRecord) :
    Int :=
  (steps.map (interestPaidIn loanId)).sum + loan.interestAccrued

/-- What a loan earns in one step, at the balance and the rate in force during it. -/
def exactInterestIn (loanId : Nat) (t : Transition World Action) : Int :=
  match t.before.config, t.before.loans.lookup loanId with
  | some c, some loan => loan.outstanding * c.intFee * (t.after.timestamp - t.before.timestamp)
  | _, _ => 0

/-- What a loan earns over all steps, without any rounding. -/
def exactInterest (loanId : Nat) (steps : List (Transition World Action)) : ℚ :=
  (steps.map (exactInterestIn loanId)).sum / interestUnit

/-- The step is a successful `repay_loan`, `liquidate` or `update_fee_config`. -/
def isLoanCall (client : TokenClient) (t : Transition World Action) : Bool :=
  match t.action with
  | .call env (.repayLoan borrower loanId amount) =>
      (repayLoan client env t.before borrower loanId amount).isOk
  | .call env (.liquidate liquidator loanId amount) =>
      (liquidate client env t.before liquidator loanId amount).isOk
  | .call env (.updateFeeConfig admin orig int) =>
      (updateFeeConfig env t.before admin orig int).isOk
  | _ => false

def loanCalls (client : TokenClient) (steps : List (Transition World Action)) : Nat :=
  steps.countP (isLoanCall client)

/-- What the loan has earned since its last accrual, as an accrual now would take it. -/
def LoanRecord.pendingInterest (loan : LoanRecord) (c : Config) (now : Nat) : Int :=
  loan.outstanding * c.intFee * (now - loan.lastInterestTime : Nat)

/-- What one accrual charges: what is pending, cut off at `i128::MAX` and rounded down. -/
def LoanRecord.accrual (loan : LoanRecord) (c : Config) (now : Nat) : Int :=
  (min (loan.pendingInterest c now) I128.MAX).tdiv interestUnit

theorem LoanRecord.pendingInterest_nonneg {loan : LoanRecord} (c : Config) (now : Nat)
    (houtstanding : 0 ≤ loan.outstanding) : 0 ≤ loan.pendingInterest c now := by
  unfold LoanRecord.pendingInterest
  positivity

/-- An accrual that stays below the bound adds exactly its charge. -/
theorem accrueInterest_eq_accrual {loan : LoanRecord} {c : Config} {now : Nat}
    (houtstanding : 0 < loan.outstanding) (hinterest : 0 ≤ loan.interestAccrued)
    (hfits : (accrueInterest loan c.intFee now).interestAccrued < I128.MAX) :
    (accrueInterest loan c.intFee now).interestAccrued =
      loan.interestAccrued + loan.accrual c now := by
  have hpending := loan.pendingInterest_nonneg c now houtstanding.le
  simp only [accrueInterest] at hfits ⊢
  split at hfits
  next helapsed =>
    have hone : (1 : Int) ≤ (now - loan.lastInterestTime : Nat) := by exact_mod_cast helapsed.1
    rw [if_pos helapsed]
    rw [I128.mulOrMax_mulOrMax houtstanding.le (Int.natCast_nonneg _) hone] at hfits ⊢
    exact I128.saturatingAdd_eq hinterest
      (Int.tdiv_nonneg (le_min hpending I128.MAX_pos.le) interestUnit_pos.le) hfits
  next helapsed =>
    have hzero : now - loan.lastInterestTime = 0 := by
      by_contra hne
      exact helapsed ⟨Nat.pos_of_ne_zero hne, houtstanding⟩
    rw [if_neg helapsed, LoanRecord.accrual, LoanRecord.pendingInterest, hzero]
    simp [I128.MAX_pos.le]

/-! ## Payments and their events -/

@[simp] theorem closeIfRepaid_interestAccrued (loan : LoanRecord) :
    (closeIfRepaid loan).interestAccrued = loan.interestAccrued := by
  unfold closeIfRepaid
  split <;> rfl

@[simp] theorem closeIfRepaid_lastInterestTime (loan : LoanRecord) :
    (closeIfRepaid loan).lastInterestTime = loan.lastInterestTime := by
  unfold closeIfRepaid
  split <;> rfl

@[simp] theorem closeIfLiquidated_interestAccrued (loan : LoanRecord) :
    (closeIfLiquidated loan).interestAccrued = loan.interestAccrued := by
  unfold closeIfLiquidated
  split <;> rfl

@[simp] theorem closeIfLiquidated_lastInterestTime (loan : LoanRecord) :
    (closeIfLiquidated loan).lastInterestTime = loan.lastInterestTime := by
  unfold closeIfLiquidated
  split <;> rfl

theorem Event.Ordinary.interestPaid {e : Event} (h : e.Ordinary) (loanId : Nat) :
    e.interestPaid loanId = 0 := by
  obtain ⟨kind, hmem, hkind⟩ := h
  unfold Event.interestPaid
  split
  next topic _ _ _ _ _ htopics _ =>
    have htopic : topic = kind := by simpa [Event.kind, htopics] using hkind
    have hne : kind ≠ "loan_repaid" := by
      rintro rfl
      simp [ordinaryKinds] at hmem
    exact if_neg fun hrepaid => hne (htopic ▸ hrepaid.1)
  next => rfl

variable {asset : AssetContract} {loanId : Nat} {w w' : World} {a : Action}

theorem interestPaid_sum_ordinary {new : List Event} (hnew : ∀ e ∈ new, e.Ordinary) :
    (new.map (Event.interestPaid loanId)).sum = 0 := by
  apply List.sum_eq_zero
  intro x hx
  obtain ⟨e, he, rfl⟩ := List.mem_map.mp hx
  exact (hnew e he).interestPaid loanId

theorem interestPaidIn_ordinary {new : List Event} (h : w'.events = w.events ++ new)
    (hnew : ∀ e ∈ new, e.Ordinary) : interestPaidIn loanId ⟨w, a, w'⟩ = 0 := by
  simpa only [interestPaidIn, h, List.drop_left] using interestPaid_sum_ordinary hnew

theorem RepaidBy.interestPaidIn {env : Env} {borrower : Address} {paidId : Nat} {amount : Int}
    {c : Config} {loan : LoanRecord} {r : Repayment}
    (h : RepaidBy env w borrower paidId amount c loan r w') :
    interestPaidIn loanId ⟨w, a, w'⟩ = if paidId = loanId then r.interestPaid else 0 := by
  have hfees : ((feeEvents "interest" paidId r.interestFee).map
      (Event.interestPaid loanId)).sum = 0 :=
    interestPaid_sum_ordinary (feeEvents_ordinary _ _ _)
  simp [StellarKraal.interestPaidIn, h.world, List.append_assoc, hfees, Event.interestPaid]

/-- A repayment charges one accrual, however it is split. -/
theorem RepaidBy.interestCharged_snoc {env : Env} {borrower : Address} {amount : Int} {c : Config}
    {loan : LoanRecord} {r : Repayment} (h : RepaidBy env w borrower loanId amount c loan r w')
    (hsound : loan.Sound) (steps : List (Transition World Action)) :
    interestCharged loanId (steps ++ [⟨w, a, w'⟩]) (closeIfRepaid r.loan) =
      interestCharged loanId steps loan + loan.accrual c w.timestamp := by
  have hopen := hsound.active_iff.mp h.active
  have hdebt := h.splits.debtFits
  rw [accrueInterest_outstanding] at hdebt
  -- The debt fits, so the interest alone stays below the bound.
  have hfits : (accrueInterest loan c.intFee w.timestamp).interestAccrued < I128.MAX := by omega
  have haccrued := accrueInterest_eq_accrual hopen hsound.interest_nonneg hfits
  simp only [interestCharged, List.map_append, List.sum_append, List.map_singleton,
    List.sum_singleton, h.interestPaidIn, if_true, closeIfRepaid_interestAccrued,
    h.splits.loan, haccrued]
  ring

theorem RepaidBy.lastInterestTime {env : Env} {borrower : Address} {amount : Int}
    {c : Config} {loan : LoanRecord} {r : Repayment}
    (h : RepaidBy env w borrower loanId amount c loan r w') :
    (closeIfRepaid r.loan).lastInterestTime = w'.timestamp := by
  rw [closeIfRepaid_lastInterestTime, h.splits.loan, h.world]
  rfl

/-- What a call does to one stored loan and to the interest paid on it. -/
inductive LoanStep (loanId : Nat) (env : Env) (w : World) (loan : LoanRecord) : Call → World → Prop
  | repay {borrower : Address} {amount : Int} {c : Config} {r : Repayment} {w' : World}
      (h : RepaidBy env w borrower loanId amount c loan r w') :
      LoanStep loanId env w loan (.repayLoan borrower loanId amount) w'
  | liquidate {liquidator : Address} {amount : Int} {c : Config} {hf : Int} {w' : World}
      (h : LiquidatedBy env w liquidator loanId amount c loan hf w') :
      LoanStep loanId env w loan (.liquidate liquidator loanId amount) w'
  | aside {call : Call} {w' : World} (hstored : w'.loans.lookup loanId = some loan)
      (hpaid : interestPaidIn loanId ⟨w, .call env call, w'⟩ = 0) :
      LoanStep loanId env w loan call w'

/-- A call that is no payment on the loan leaves its record and its interest alone. -/
theorem Call.run_loanStep {env : Env} {call : Call} {loan : LoanRecord}
    (hnumbered : LoansNumbered w) (hstored : w.loans.lookup loanId = some loan)
    (h : call.run asset.client env w = .ok w') : LoanStep loanId env w loan call w' := by
  have hfresh : loanId ≠ w.loanCounter + 1 := by
    rintro rfl
    simp [hnumbered.next_fresh] at hstored
  -- The events say whether interest on this loan was paid, the book what became of its record.
  have hquiet : (∃ borrower amount c r, call = .repayLoan borrower loanId amount ∧
      RepaidBy env w borrower loanId amount c loan r w') ∨
        interestPaidIn loanId ⟨w, .call env call, w'⟩ = 0 := by
    cases Call.run_eventEffect h with
    | ordinary new hevents hnew => exact .inr (interestPaidIn_ordinary hevents hnew)
    | @repaid borrower paidId amount c paid r _ hrepaid =>
        by_cases hid : paidId = loanId
        · obtain rfl := hid
          obtain rfl := Option.mem_unique hrepaid.stored hstored
          exact .inl ⟨borrower, amount, c, r, rfl, hrepaid⟩
        · exact .inr (hrepaid.interestPaidIn.trans (if_neg hid))
  rcases hquiet with ⟨borrower, amount, c, r, rfl, hrepaid⟩ | hquiet
  · exact .repay hrepaid
  cases (Call.run_bookEffect h).loanCall with
  | originate h =>
      refine .aside ?_ hquiet
      rw [h.world, h.loanId_eq, AList.lookup_insert_ne hfresh, hstored]
  | @repay _ paidId _ _ _ _ _ h =>
      by_cases hid : paidId = loanId
      · obtain rfl := hid
        obtain rfl := Option.mem_unique h.stored hstored
        exact .repay h
      · refine .aside ?_ hquiet
        rw [h.world, AList.lookup_insert_ne (Ne.symm hid), hstored]
  | @liquidate _ paidId _ _ _ _ _ h =>
      by_cases hid : paidId = loanId
      · obtain rfl := hid
        obtain rfl := Option.mem_unique h.stored hstored
        exact .liquidate h
      · refine .aside ?_ hquiet
        rw [h.world, AList.lookup_insert_ne (Ne.symm hid), hstored]
  | same hloans => exact .aside (hloans ▸ hstored) hquiet

/-! ## The bill of an open loan -/

/-- The product an accrual on the loan takes fits. -/
def AccrualFits (loanId : Nat) (t : Transition World Action) : Prop :=
  ∀ env borrower amount c loan, t.action = .call env (.repayLoan borrower loanId amount) →
    t.before.config = some c → t.before.loans.lookup loanId = some loan →
      loan.pendingInterest c t.before.timestamp ≤ I128.MAX

/-- Where the step changes the loan's balance or the rate other than by a
repayment, nothing has been earned since the last accrual. -/
def ChangesSettled (asset : AssetContract) (loanId : Nat) (t : Transition World Action) : Prop :=
  ∀ env c loan, t.before.config = some c → t.before.loans.lookup loanId = some loan →
    (∀ liquidator amount, Executed asset t env (.liquidate liquidator loanId amount) →
      loan.lastInterestTime = t.before.timestamp ∨ c.intFee = 0) ∧
    ∀ admin orig int, Executed asset t env (.updateFeeConfig admin orig int) →
      loan.lastInterestTime = t.before.timestamp ∨ int = c.intFee

/-- The bill of a loan after some steps: everything earned up to its last accrual
is charged, less the rounding. -/
structure Billed (asset : AssetContract) (loanId : Nat) (steps : List (Transition World Action))
    (w : World) (c : Config) (loan : LoanRecord) : Prop where
  clock : loan.lastInterestTime ≤ w.timestamp
  meter : Metered interestUnit (steps.map (exactInterestIn loanId)).sum
    (loan.pendingInterest c w.timestamp) (interestCharged loanId steps loan)
    (loanCalls asset.client steps)

theorem loanCalls_le_snoc (client : TokenClient) (steps : List (Transition World Action))
    (t : Transition World Action) : loanCalls client steps ≤ loanCalls client (steps ++ [t]) := by
  simp [loanCalls]

theorem loanCalls_snoc_repay {steps : List (Transition World Action)}
    {t : Transition World Action} {env : Env} {borrower : Address} {amount : Int}
    (h : Executed asset t env (.repayLoan borrower loanId amount)) :
    loanCalls asset.client (steps ++ [t]) = loanCalls asset.client steps + 1 := by
  have hrun : repayLoan asset.client env t.before borrower loanId amount = .ok t.after := h.run
  have hcounted : isLoanCall asset.client t = true := by
    simp [isLoanCall, h.action, hrun, Except.isOk, Except.toBool]
  simp [loanCalls, hcounted]

/-- A loan earns nothing in a step that takes no time. -/
theorem exactInterestIn_instant (htime : w'.timestamp = w.timestamp) :
    exactInterestIn loanId ⟨w, a, w'⟩ = 0 := by
  simp only [exactInterestIn, htime, sub_self, mul_zero]
  split <;> rfl

theorem LoanRecord.pendingInterest_settled {loan : LoanRecord} {c : Config} {now : Nat}
    (h : loan.lastInterestTime = now) : loan.pendingInterest c now = 0 := by
  simp [LoanRecord.pendingInterest, h]

namespace Billed

variable {steps : List (Transition World Action)} {c : Config} {loan : LoanRecord}

/-- Time goes by: what the loan earns is pending. -/
theorem wait (h : Billed asset loanId steps w c loan) (hc : w.config = some c)
    (hstored : w.loans.lookup loanId = some loan) (hsound : loan.Sound) {timestamp : Nat}
    {ledger : Ledger} (hle : w.timestamp ≤ timestamp) :
    Billed asset loanId (steps ++ [⟨w, a, { w with timestamp, ledger }⟩])
      { w with timestamp, ledger } c loan := by
  have hclock := h.clock
  have hearned : exactInterestIn loanId ⟨w, a, { w with timestamp, ledger }⟩ =
      loan.outstanding * c.intFee * (timestamp - w.timestamp : Nat) := by
    simp [exactInterestIn, hc, hstored, Nat.cast_sub hle]
  have hnonneg : 0 ≤ loan.outstanding * c.intFee * (timestamp - w.timestamp : Nat) :=
    mul_nonneg (mul_nonneg hsound.outstanding_nonneg (by positivity)) (by positivity)
  have hpending : loan.pendingInterest c timestamp = loan.pendingInterest c w.timestamp +
      loan.outstanding * c.intFee * (timestamp - w.timestamp : Nat) := by
    have helapsed : timestamp - loan.lastInterestTime =
        (w.timestamp - loan.lastInterestTime) + (timestamp - w.timestamp) := by omega
    rw [LoanRecord.pendingInterest, LoanRecord.pendingInterest, helapsed]
    push_cast
    ring
  have hcharged : interestCharged loanId (steps ++ [⟨w, a, { w with timestamp, ledger }⟩]) loan =
      interestCharged loanId steps loan := by
    simp [interestCharged, interestPaidIn]
  refine ⟨hclock.trans hle, ?_⟩
  rw [hcharged, hpending, List.map_append, List.sum_append, List.map_singleton,
    List.sum_singleton, hearned]
  exact (h.meter.wait hnonneg).mono interestUnit_pos (loanCalls_le_snoc _ _ _)

/-- A call that takes no time, settles nothing and leaves the pending amount as it is. -/
theorem unsettled {env : Env} {call : Call} {c' : Config} {loan' : LoanRecord}
    (h : Billed asset loanId steps w c loan) (htime : w'.timestamp = w.timestamp)
    (hlast : loan'.lastInterestTime = loan.lastInterestTime)
    (hinterest : loan'.interestAccrued = loan.interestAccrued)
    (hpaid : interestPaidIn loanId ⟨w, .call env call, w'⟩ = 0)
    (hpending : loan'.pendingInterest c' w.timestamp = loan.pendingInterest c w.timestamp) :
    Billed asset loanId (steps ++ [⟨w, .call env call, w'⟩]) w' c' loan' := by
  have hearned : exactInterestIn loanId ⟨w, .call env call, w'⟩ = 0 :=
    exactInterestIn_instant htime
  have hcharged : interestCharged loanId (steps ++ [⟨w, .call env call, w'⟩]) loan' =
      interestCharged loanId steps loan := by
    simp [interestCharged, hpaid, hinterest]
  refine ⟨by rw [htime, hlast]; exact h.clock, ?_⟩
  rw [hcharged, htime, hpending, List.map_append, List.sum_append, List.map_singleton,
    List.sum_singleton, hearned, add_zero]
  exact h.meter.mono interestUnit_pos (loanCalls_le_snoc _ _ _)

/-- A repayment settles everything that is pending. -/
theorem repaid {env : Env} {borrower : Address} {amount : Int} {r : Repayment}
    (h : Billed asset loanId steps w c loan) (hsound : loan.Sound)
    (hrepaid : RepaidBy env w borrower loanId amount c loan r w')
    (hexec : Executed asset ⟨w, a, w'⟩ env (.repayLoan borrower loanId amount))
    (hproduct : loan.pendingInterest c w.timestamp ≤ I128.MAX) :
    Billed asset loanId (steps ++ [⟨w, a, w'⟩]) w' c (closeIfRepaid r.loan) := by
  have htime : w'.timestamp = w.timestamp := by rw [hrepaid.world]
  have hearned : exactInterestIn loanId ⟨w, a, w'⟩ = 0 := exactInterestIn_instant htime
  have hcharged : interestCharged loanId (steps ++ [⟨w, a, w'⟩]) (closeIfRepaid r.loan) =
      interestCharged loanId steps loan +
        (loan.pendingInterest c w.timestamp).tdiv interestUnit := by
    rw [hrepaid.interestCharged_snoc hsound, LoanRecord.accrual, min_eq_left hproduct]
  refine ⟨hrepaid.lastInterestTime.le, ?_⟩
  rw [hcharged, LoanRecord.pendingInterest_settled hrepaid.lastInterestTime,
    loanCalls_snoc_repay hexec, List.map_append, List.sum_append, List.map_singleton,
    List.sum_singleton, hearned, add_zero]
  exact h.meter.settle interestUnit_pos

/-- The step lemma for calls: an open loan keeps its bill where changes come settled. -/
theorem call {env : Env} {call : Call} (h : Billed asset loanId steps w c loan)
    (hreach : (protocol asset).Reachable w) (hc : w.config = some c)
    (hstored : w.loans.lookup loanId = some loan) (hexec : Executed asset ⟨w, a, w'⟩ env call)
    (hfits : AccrualFits loanId ⟨w, a, w'⟩) (hsettled : ChangesSettled asset loanId ⟨w, a, w'⟩) :
    ∃ c' loan', w'.config = some c' ∧ w'.loans.lookup loanId = some loan' ∧
      Billed asset loanId (steps ++ [⟨w, a, w'⟩]) w' c' loan' := by
  obtain ⟨hliquidated, hupdated⟩ := hsettled env c loan hc hstored
  obtain rfl : a = .call env call := hexec.action
  have hrun : call.run asset.client env w = .ok w' := hexec.run
  have htime := (Call.run_bookEffect hrun).timestamp
  cases Call.run_loanStep (reachable_numbered hreach) hstored hrun with
  | @repay borrower amount _ _ _ hrepaid =>
      obtain rfl := Option.mem_unique hc hrepaid.config
      refine ⟨c, _, hrepaid.config_after, hrepaid.stored_after, ?_⟩
      exact h.repaid (reachable_sound hreach _ _ hstored) hrepaid hexec
        (hfits env borrower amount c loan rfl hc hstored)
  | @liquidate liquidator amount _ _ _ hliquidate =>
      obtain rfl := Option.mem_unique hc hliquidate.config
      refine ⟨c, _, hliquidate.config_after, hliquidate.stored_after,
        h.unsettled htime (closeIfLiquidated_lastInterestTime _)
          (closeIfLiquidated_interestAccrued _) ?_ ?_⟩
      · apply interestPaidIn_ordinary (by rw [hliquidate.world])
        intro e he
        obtain rfl := List.mem_singleton.mp he
        exact ⟨"loan", by decide, rfl⟩
      -- The balance falls, but nothing is pending on it: no time has passed, or the rate is zero.
      · rcases hliquidated liquidator amount hexec with hlast | hfree
        · rw [LoanRecord.pendingInterest_settled hlast, LoanRecord.pendingInterest_settled]
          exact (closeIfLiquidated_lastInterestTime _).trans hlast
        · simp [LoanRecord.pendingInterest, hfree]
  | aside hstored' hpaid =>
      have heffect := Call.run_configEffect hrun
      obtain ⟨c', hc', -, -⟩ := heffect.keeps_token hc
      refine ⟨c', loan, hc', hstored', h.unsettled htime rfl rfl hpaid ?_⟩
      rcases heffect.risk hc' with ⟨_, _, _, _, _, _, _, -, hnone, -⟩ | ⟨_, hbefore, hupdate⟩
      · simp [hc] at hnone
      obtain rfl := Option.mem_unique hc hbefore
      -- Of all other calls only a fee update can reprice what is pending.
      rcases hupdate.intFee_cases with hrate | ⟨admin, orig, rfl⟩
      · have hrate : c'.intFee = c.intFee := hrate
        rw [LoanRecord.pendingInterest, LoanRecord.pendingInterest, hrate]
      · rcases hupdated admin orig _ hexec with hlast | hrate
        · rw [LoanRecord.pendingInterest_settled hlast, LoanRecord.pendingInterest_settled hlast]
        · have hrate : c'.intFee = c.intFee := hrate
          rw [LoanRecord.pendingInterest, LoanRecord.pendingInterest, hrate]

end Billed

/-- The run lemma: the loan stays stored, and as long as it is open its bill is kept. -/
theorem billed_of_run {start : World} {steps : List (Transition World Action)} {c₀ : Config}
    {loan₀ : LoanRecord} (hreach : (protocol asset).Reachable start)
    (hrun : (protocol asset).Run start steps w) (hc₀ : start.config = some c₀)
    (hstored₀ : start.loans.lookup loanId = some loan₀)
    (hstart : Billed asset loanId [] start c₀ loan₀)
    (hfits : ∀ t ∈ steps, AccrualFits loanId t)
    (hsettled : ∀ t ∈ steps, ChangesSettled asset loanId t) :
    ∃ c loan, w.config = some c ∧ w.loans.lookup loanId = some loan ∧
      (loan.status = .active → Billed asset loanId steps w c loan) := by
  induction hrun with
  | nil => exact ⟨c₀, loan₀, hc₀, hstored₀, fun _ => hstart⟩
  | @snoc steps w w' a prior step ih =>
      have hreachw := hreach.run prior
      obtain ⟨c, loan, hc, hstored, hbilled⟩ := ih
        (fun t ht => hfits t (List.mem_append_left _ ht))
        (fun t ht => hsettled t (List.mem_append_left _ ht))
      have hlast : (⟨w, a, w'⟩ : Transition World Action) ∈ steps ++ [⟨w, a, w'⟩] :=
        List.mem_append_right _ List.mem_cons_self
      rcases protocol_step_cases step with ⟨env, call, hexec⟩ | ⟨-, timestamp, ledger, hle, -, rfl⟩
      · by_cases hactive : loan.status = .active
        · obtain ⟨c', loan', hc', hstored', hbilled'⟩ := (hbilled hactive).call hreachw hc hstored
            hexec (hfits _ hlast) (hsettled _ hlast)
          exact ⟨c', loan', hc', hstored', fun _ => hbilled'⟩
        -- A closed loan has no bill to keep, but it is still stored.
        · obtain ⟨c', hc', -, -⟩ := (Call.run_configEffect hexec.run).keeps_token hc
          have hstays := (Call.run_bookEffect hexec.run).loans.closed_stays
            (reachable_numbered hreachw) hstored hactive
          exact ⟨c', loan, hc', hstays, fun hopen => absurd hopen hactive⟩
      · exact ⟨c, loan, hc, hstored, fun hactive => (hbilled hactive).wait hc hstored
          (reachable_sound hreachw _ _ hstored) hle⟩

/-- The charge over the steps is less than one unit per call away from what the
loan earned. -/
def InterestFollows (asset : AssetContract) (loanId : Nat) (steps : List (Transition World Action))
    (w : World) : Prop :=
  ∀ loan, w.loans.lookup loanId = some loan →
    |(interestCharged loanId steps loan : ℚ) - exactInterest loanId steps| <
      loanCalls asset.client steps

/-- From its request to any repayment, interest follows balance and rate if these
change only where the loan's interest has just been accrued. -/
theorem interest_follows_when_settled {env : Env} {borrower : Address} {ids : List Nat}
    {amount : Int} {start : World} (steps : List (Transition World Action))
    (last : Transition World Action) {payer : Address} {payment : Int} {env' : Env}
    (hreach : (protocol asset).Reachable w)
    (hrequest : requestLoan asset.client env w borrower ids amount = .ok (start, loanId))
    (hrun : (protocol asset).Run start (steps ++ [last]) w')
    (hlast : Executed asset last env' (.repayLoan payer loanId payment))
    (hfits : ∀ t ∈ steps ++ [last], AccrualFits loanId t)
    (hsettled : ∀ t ∈ steps ++ [last], ChangesSettled asset loanId t) :
    InterestFollows asset loanId (steps ++ [last]) w' := by
  obtain ⟨c₀, total, collaterals, horiginated⟩ := requestLoan_ok hrequest
  have hcall : (Call.requestLoan borrower ids amount).run asset.client env w = .ok start := by
    simp [Call.run, hrequest]
  have hstart := reachable_call hreach hcall
  have htime : start.timestamp = w.timestamp := (Call.run_bookEffect hcall).timestamp
  have hbill : Billed asset loanId [] start c₀ (newLoan w loanId borrower ids total amount) := by
    refine ⟨htime.ge, ?_⟩
    rw [LoanRecord.pendingInterest_settled htime.symm]
    exact Metered.start
  obtain ⟨hprior, hstep, rfl⟩ := hrun.of_snoc
  obtain ⟨c, loan, hc, hstored, hbilled⟩ := billed_of_run hstart hprior horiginated.config_after
    horiginated.stored_after hbill (fun t ht => hfits t (List.mem_append_left _ ht))
    (fun t ht => hsettled t (List.mem_append_left _ ht))
  obtain ⟨c', loan', r, hrepaid⟩ := repayLoan_ok hlast.run
  obtain rfl := Option.mem_unique hc hrepaid.config
  obtain rfl := Option.mem_unique hstored hrepaid.stored
  have hmem : last ∈ steps ++ [last] := List.mem_append_right _ List.mem_cons_self
  have hbilled := (hbilled hrepaid.active).repaid (a := last.action)
    (reachable_sound (hstart.run hprior) _ _ hstored) hrepaid hlast
    (hfits last hmem env' payer payment c loan hlast.action hc hstored)
  intro paid hpaid
  obtain rfl := Option.mem_unique hpaid hrepaid.stored_after
  have hmeter := hbilled.meter
  rw [LoanRecord.pendingInterest_settled hrepaid.lastInterestTime] at hmeter
  have hcalls : 0 < loanCalls asset.client (steps ++ [last]) := by
    rw [loanCalls_snoc_repay hlast]
    exact Nat.succ_pos _
  exact hmeter.abs_sub_lt interestUnit_pos hcalls

/-- A year at 10 %, a fee update right after a payment, and a year at 5 %. -/
theorem sample_interest_follows :
    ∃ steps w loan, (protocol .standard).Run (Sample.after [Sample.initialization 6000 8000,
        Sample.registration 1000000, Sample.request 600000]) steps w ∧
      w.loans.lookup 1 = some loan ∧ interestCharged 1 steps loan = 90000 ∧
      InterestFollows .standard 1 steps w := by
  have hreach := Sample.after_reachable
    [Sample.initialization 6000 8000, Sample.registration 1000000]
  have hrequest : requestLoan AssetContract.standard.client ⟨[Sample.farmer]⟩
      (Sample.after [Sample.initialization 6000 8000, Sample.registration 1000000])
      Sample.farmer [1] 600000 = .ok (Sample.after [Sample.initialization 6000 8000,
        Sample.registration 1000000, Sample.request 600000], 1) := rfl
  have hrun : (protocol .standard).Run (Sample.after [Sample.initialization 6000 8000,
      Sample.registration 1000000, Sample.request 600000]) ([_, _, _, _] ++ [_]) _ := Run.of_script
    [.tick 31536000, Sample.signedBy Sample.farmer (.repayLoan Sample.farmer 1 1),
      Sample.signedBy Sample.admin (.updateFeeConfig Sample.admin 50 500), .tick 63072000,
      Sample.signedBy Sample.farmer (.repayLoan Sample.farmer 1 1)] rfl
  refine ⟨_, _, _, hrun, rfl, rfl,
    interest_follows_when_settled _ _ hreach hrequest hrun ⟨rfl, rfl⟩ ?_ ?_⟩
  · intro t ht
    simp only [List.cons_append, List.nil_append, List.mem_cons, List.not_mem_nil, or_false] at ht
    rcases ht with rfl | rfl | rfl | rfl | rfl
    · rintro _ _ _ _ _ ⟨⟩
    · rintro _ _ _ _ _ ⟨⟩ ⟨⟩ ⟨⟩
      decide
    · rintro _ _ _ _ _ ⟨⟩
    · rintro _ _ _ _ _ ⟨⟩
    · rintro _ _ _ _ _ ⟨⟩ ⟨⟩ ⟨⟩
      decide
  · intro t ht env c loan hc hloan
    simp only [List.cons_append, List.nil_append, List.mem_cons, List.not_mem_nil, or_false] at ht
    refine ⟨fun _ _ hexec => ?_, fun _ _ _ hexec => ?_⟩
    · have haction := hexec.action
      rcases ht with rfl | rfl | rfl | rfl | rfl <;> cases haction
    · have haction := hexec.action
      rcases ht with rfl | rfl | rfl | rfl | rfl <;> cases haction
      cases hloan
      exact .inl rfl

/-- Half the loan is liquidated after a year: the next payment charges 30000 for
the year in which 600000 were outstanding, instead of 60000. -/
theorem liquidation_loses_interest :
    ¬ ∀ (asset : AssetContract) (env env' : Env) (w w' start : World) (borrower payer : Address)
      (ids : List Nat) (amount payment : Int) (loanId : Nat)
      (steps : List (Transition World Action)) (last : Transition World Action),
      (protocol asset).Reachable w →
      requestLoan asset.client env w borrower ids amount = .ok (start, loanId) →
      (protocol asset).Run start (steps ++ [last]) w' →
      (∀ t ∈ steps ++ [last], (∃ now, t.action = .tick now) ∨ isLoanCall asset.client t = true) →
      Executed asset last env' (.repayLoan payer loanId payment) →
      (∀ t ∈ steps ++ [last], AccrualFits loanId t) →
        InterestFollows asset loanId (steps ++ [last]) w' := by
  intro hall
  have hreach := Sample.after_reachable
    [Sample.initialization 6000 8000,
      Sample.signedBy Sample.admin (.setLiquidationThreshold Sample.admin 5000),
      Sample.registration 1000000]
  have hrequest : requestLoan AssetContract.standard.client ⟨[Sample.farmer]⟩
      (Sample.after [Sample.initialization 6000 8000,
        Sample.signedBy Sample.admin (.setLiquidationThreshold Sample.admin 5000),
        Sample.registration 1000000])
      Sample.farmer [1] 600000 = .ok (Sample.after [Sample.initialization 6000 8000,
        Sample.signedBy Sample.admin (.setLiquidationThreshold Sample.admin 5000),
        Sample.registration 1000000, Sample.request 600000], 1) := rfl
  have hrun : (protocol .standard).Run (Sample.after [Sample.initialization 6000 8000,
      Sample.signedBy Sample.admin (.setLiquidationThreshold Sample.admin 5000),
      Sample.registration 1000000, Sample.request 600000]) ([_, _] ++ [_]) _ := Run.of_script
    [.tick 31536000, Sample.signedBy Sample.keeper (.liquidate Sample.keeper 1 300000),
      Sample.signedBy Sample.farmer (.repayLoan Sample.farmer 1 1)] rfl
  refine absurd (hall _ _ _ _ _ _ _ _ _ _ _ _ _ _ hreach hrequest hrun ?_ ⟨rfl, rfl⟩ ?_ _ rfl) ?_
  · intro t ht
    simp only [List.cons_append, List.nil_append, List.mem_cons, List.not_mem_nil, or_false] at ht
    rcases ht with rfl | rfl | rfl
    · exact .inl ⟨_, rfl⟩
    · exact .inr rfl
    · exact .inr rfl
  · intro t ht
    simp only [List.cons_append, List.nil_append, List.mem_cons, List.not_mem_nil, or_false] at ht
    rcases ht with rfl | rfl | rfl
    · rintro _ _ _ _ _ ⟨⟩
    · rintro _ _ _ _ _ ⟨⟩
    · rintro _ _ _ _ _ ⟨⟩ ⟨⟩ ⟨⟩
      decide
  · have hdrift : ∀ charged earned : Int, ∀ calls : Nat, charged = 30000 →
        earned = 60000 * interestUnit → calls = 2 →
          ¬ |(charged : ℚ) - earned / interestUnit| < calls := by
      rintro _ _ _ rfl rfl rfl
      norm_num [interestUnit]
    exact hdrift _ _ _ rfl rfl rfl

end StellarKraal
