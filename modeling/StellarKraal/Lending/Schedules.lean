import StellarKraal.Lending.Interest

/-!
# Schedules of repayments

Every `repay_loan` rounds what is pending down and restarts the clock, so what it
cuts off is never charged. A schedule of many small repayments can therefore charge
less than one accrual over the whole time would. The cut-offs are all that is lost:
the charge falls short exactly where they add up to more than the schedule earned
above the floor.
-/

namespace StellarKraal

open TransitionSystem (Transition)

/-! ## What a repayment cuts off -/

/-- The part of the pending interest that an accrual does not charge. -/
def LoanRecord.cutOff (loan : LoanRecord) (c : Config) (now : Nat) : Int :=
  loan.pendingInterest c now - interestUnit * loan.accrual c now

/-- What the balance above `P` has earned since the last accrual. -/
def LoanRecord.earnedAbove (P : Int) (loan : LoanRecord) (c : Config) (now : Nat) : Int :=
  (loan.outstanding - P) * c.intFee * (now - loan.lastInterestTime : Nat)

/-- An amount read off the record, the configuration and the time that a successful
repayment of the loan finds; zero in all other steps. -/
def atRepayment (client : TokenClient) (loanId : Nat) (amount : LoanRecord → Config → Nat → Int)
    (t : Transition World Action) : Int :=
  match t.action, t.before.config, t.before.loans.lookup loanId with
  | .call env (.repayLoan borrower id payment), some c, some loan =>
      if id = loanId ∧ (repayLoan client env t.before borrower id payment).isOk then
        amount loan c t.before.timestamp
      else 0
  | _, _, _ => 0

/-- The amounts of all repayments among the steps. -/
def overRepayments (client : TokenClient) (loanId : Nat) (amount : LoanRecord → Config → Nat → Int)
    (steps : List (Transition World Action)) : Int :=
  (steps.map (atRepayment client loanId amount)).sum

variable {asset : AssetContract} {loanId : Nat} {amount : LoanRecord → Config → Nat → Int}

@[simp] theorem overRepayments_nil (client : TokenClient) :
    overRepayments client loanId amount [] = 0 := rfl

theorem overRepayments_snoc (client : TokenClient) (steps : List (Transition World Action))
    (t : Transition World Action) :
    overRepayments client loanId amount (steps ++ [t]) =
      overRepayments client loanId amount steps + atRepayment client loanId amount t := by
  simp [overRepayments]

theorem atRepayment_executed {t : Transition World Action} {env : Env} {borrower : Address}
    {payment : Int} {c : Config} {loan : LoanRecord}
    (h : Executed asset t env (.repayLoan borrower loanId payment))
    (hc : t.before.config = some c) (hloan : t.before.loans.lookup loanId = some loan) :
    atRepayment asset.client loanId amount t = amount loan c t.before.timestamp := by
  have hok : (repayLoan asset.client env t.before borrower loanId payment).isOk = true := h.isOk
  simp [atRepayment, h.action, hc, hloan, hok]

theorem atRepayment_other {t : Transition World Action}
    (hstep : (protocol asset).Step t.before t.action t.after)
    (h : ∀ env borrower payment, ¬ Executed asset t env (.repayLoan borrower loanId payment)) :
    atRepayment asset.client loanId amount t = 0 := by
  unfold atRepayment
  split
  next env borrower id payment c loan haction _ _ =>
    refine if_neg ?_
    rintro ⟨rfl, hok⟩
    rw [haction] at hstep
    have hok : ((Call.repayLoan borrower id payment).run asset.client env t.before).isOk = true :=
      hok
    exact h env borrower payment
      ⟨haction, (show t.after = _ from hstep) ▸ (Executed.of_isOk hok).run⟩
  next => rfl

/-! ## The account of a schedule -/

/-- No loan is ahead of its time. -/
theorem reachable_clock {w : World} (h : (protocol asset).Reachable w) :
    ∀ id loan, w.loans.lookup id = some loan → loan.lastInterestTime ≤ w.timestamp := by
  apply reachable_invariant
    (fun w => ∀ id loan, w.loans.lookup id = some loan → loan.lastInterestTime ≤ w.timestamp)
    (h := h)
  · intro timestamp ledger id loan hloan
    nomatch hloan
  · intro env call w w' _ hw hrun id loan hloan
    have heffect := Call.run_bookEffect hrun
    rw [heffect.timestamp]
    cases heffect.loans with
    | same hloans => exact hw id loan (hloans ▸ hloan)
    | originate _ hloans =>
        rw [hloans] at hloan
        rcases KeyedStore.lookup_insert_cases hloan with ⟨-, rfl⟩ | ⟨-, hold⟩
        · exact le_rfl
        · exact hw id loan hold
    | @payment _ _ before _ _ hstored _ hpayment hloans =>
        rw [hloans] at hloan
        rcases KeyedStore.lookup_insert_cases hloan with ⟨-, rfl⟩ | ⟨-, hold⟩
        · cases hpayment with
          | repay _ hsplits =>
              rw [closeIfRepaid_lastInterestTime, hsplits.loan]
              exact le_rfl
          | liquidate =>
              rw [closeIfLiquidated_lastInterestTime]
              exact hw _ before hstored
        · exact hw id loan hold
  · intro w timestamp ledger hw hle _ id loan hloan
    exact (hw id loan hloan).trans hle

/-- The account of the schedule so far: charges and cut-offs make up what `P` would
have earned at the rate `r`, and what was earned above it. -/
def Accounted (asset : AssetContract) (loanId : Nat) (P : Int) (r : Nat) (loan₀ : LoanRecord)
    (steps : List (Transition World Action)) (loan : LoanRecord) : Prop :=
  interestUnit * (interestCharged loanId steps loan - loan₀.interestAccrued) +
      overRepayments asset.client loanId LoanRecord.cutOff steps =
    overRepayments asset.client loanId (LoanRecord.earnedAbove P) steps +
      P * r * (loan.lastInterestTime - loan₀.lastInterestTime)

namespace Accounted

variable {P : Int} {r : Nat} {loan₀ loan loan' : LoanRecord} {w w' : World} {a : Action}
  {steps : List (Transition World Action)}

theorem start : Accounted asset loanId P r loan₀ [] loan₀ := by
  simp [Accounted, interestCharged]

/-- A step that is no repayment of the loan and leaves its record alone. -/
theorem aside (h : Accounted asset loanId P r loan₀ steps loan)
    (hstep : (protocol asset).Step w a w')
    (hother : ∀ env borrower payment,
      ¬ Executed asset ⟨w, a, w'⟩ env (.repayLoan borrower loanId payment))
    (hpaid : interestPaidIn loanId ⟨w, a, w'⟩ = 0) :
    Accounted asset loanId P r loan₀ (steps ++ [⟨w, a, w'⟩]) loan := by
  have hzero : ∀ amount, atRepayment asset.client loanId amount ⟨w, a, w'⟩ = 0 :=
    fun _ => atRepayment_other hstep hother
  simpa [Accounted, overRepayments_snoc, hzero, interestCharged, hpaid] using h

/-- A repayment charges what is pending less its cut-off, and what is pending was
earned by `P` and by the balance above it. -/
theorem repaid {env : Env} {borrower : Address} {payment : Int} {c : Config} {r' : Repayment}
    (h : Accounted asset loanId P c.intFee loan₀ steps loan)
    (hrepaid : RepaidBy env w borrower loanId payment c loan r' w') (hsound : loan.Sound)
    (hclock : loan.lastInterestTime ≤ w.timestamp)
    (hexec : Executed asset ⟨w, a, w'⟩ env (.repayLoan borrower loanId payment)) :
    Accounted asset loanId P c.intFee loan₀ (steps ++ [⟨w, a, w'⟩]) (closeIfRepaid r'.loan) := by
  have hcharged := hrepaid.interestCharged_snoc (a := a) hsound steps
  have hlast : (closeIfRepaid r'.loan).lastInterestTime = w.timestamp := by
    rw [hrepaid.lastInterestTime, hrepaid.world]
  have hat : ∀ amount, atRepayment asset.client loanId amount ⟨w, a, w'⟩ =
      amount loan c w.timestamp :=
    fun _ => atRepayment_executed hexec hrepaid.config hrepaid.stored
  unfold Accounted at h ⊢
  rw [overRepayments_snoc, overRepayments_snoc, hat, hat, hcharged, hlast, LoanRecord.cutOff,
    LoanRecord.earnedAbove, LoanRecord.pendingInterest, Nat.cast_sub hclock]
  linarith

end Accounted

/-- The step of a schedule: at rate `r`, and no liquidation of the loan. -/
structure Scheduled (asset : AssetContract) (loanId r : Nat) (t : Transition World Action) :
    Prop where
  rate : ∀ c, t.before.config = some c → c.intFee = r
  notLiquidated : ∀ env liquidator payment,
    ¬ Executed asset t env (.liquidate liquidator loanId payment)

/-- The step lemma. -/
theorem Accounted.step {P : Int} {r : Nat} {loan₀ loan : LoanRecord} {w w' : World} {a : Action}
    {steps : List (Transition World Action)} (h : Accounted asset loanId P r loan₀ steps loan)
    (hreach : (protocol asset).Reachable w) (hstored : w.loans.lookup loanId = some loan)
    (hstep : (protocol asset).Step w a w') (hscheduled : Scheduled asset loanId r ⟨w, a, w'⟩) :
    ∃ loan', w'.loans.lookup loanId = some loan' ∧
      Accounted asset loanId P r loan₀ (steps ++ [⟨w, a, w'⟩]) loan' := by
  by_cases hrepay : ∃ env borrower payment,
      Executed asset ⟨w, a, w'⟩ env (.repayLoan borrower loanId payment)
  · obtain ⟨env, borrower, payment, hexec⟩ := hrepay
    obtain ⟨c, loan₁, r', hrepaid⟩ := repayLoan_ok hexec.run
    obtain rfl := Option.mem_unique hstored hrepaid.stored
    obtain rfl := hscheduled.rate c hrepaid.config
    exact ⟨_, hrepaid.stored_after, h.repaid hrepaid (reachable_sound hreach _ _ hstored)
      (reachable_clock hreach _ _ hstored) hexec⟩
  · have hother : ∀ env borrower payment,
        ¬ Executed asset ⟨w, a, w'⟩ env (.repayLoan borrower loanId payment) :=
      fun env borrower payment hexec => hrepay ⟨env, borrower, payment, hexec⟩
    rcases protocol_step_cases hstep with ⟨env, call, hexec⟩ | ⟨-, timestamp, ledger, -, -, rfl⟩
    · have haction : a = .call env call := hexec.action
      cases Call.run_loanStep (reachable_numbered hreach) hstored hexec.run with
      | repay => exact absurd hexec (hother _ _ _)
      | liquidate => exact absurd hexec (hscheduled.notLiquidated _ _ _)
      | aside hstored' hpaid =>
          exact ⟨loan, hstored', h.aside hstep hother (haction ▸ hpaid)⟩
    · exact ⟨loan, hstored, h.aside hstep hother (by simp [interestPaidIn])⟩

/-- The run lemma. -/
theorem accounted_of_run {P : Int} {r : Nat} {loan₀ : LoanRecord} {start w : World}
    {steps : List (Transition World Action)} (hreach : (protocol asset).Reachable start)
    (hstored₀ : start.loans.lookup loanId = some loan₀)
    (hrun : (protocol asset).Run start steps w) (hsteps : ∀ t ∈ steps, Scheduled asset loanId r t) :
    ∃ loan, w.loans.lookup loanId = some loan ∧ Accounted asset loanId P r loan₀ steps loan := by
  induction hrun with
  | nil => exact ⟨loan₀, hstored₀, .start⟩
  | snoc prior step ih =>
      obtain ⟨loan, hstored, haccount⟩ := ih fun t ht => hsteps t (List.mem_append_left _ ht)
      exact haccount.step (hreach.run prior) hstored step
        (hsteps _ (List.mem_append_right _ List.mem_cons_self))

/-- Any schedule of repayments up to one at the end, whatever else happens between
them: it charges at least what `P` earns over the whole time, rounded down once,
exactly where its cut-offs are covered by what was earned above `P` and by what that
one rounding cuts off. -/
theorem repayments_keep_interest_iff {start w : World} {steps : List (Transition World Action)}
    {last : Transition World Action} {env : Env} {payer : Address} {payment P : Int} {r : Nat}
    {loan₀ loan : LoanRecord} (hreach : (protocol asset).Reachable start)
    (hstored₀ : start.loans.lookup loanId = some loan₀)
    (hrun : (protocol asset).Run start (steps ++ [last]) w)
    (hlast : Executed asset last env (.repayLoan payer loanId payment))
    (hsteps : ∀ t ∈ steps ++ [last], Scheduled asset loanId r t)
    (hstored : w.loans.lookup loanId = some loan) :
    P * r * (w.timestamp - loan₀.lastInterestTime) / interestUnit ≤
        interestCharged loanId (steps ++ [last]) loan - loan₀.interestAccrued ↔
      overRepayments asset.client loanId LoanRecord.cutOff (steps ++ [last]) ≤
        overRepayments asset.client loanId (LoanRecord.earnedAbove P) (steps ++ [last]) +
          P * r * (w.timestamp - loan₀.lastInterestTime) % interestUnit := by
  obtain ⟨loan', hstored', haccount⟩ := accounted_of_run (P := P) hreach hstored₀ hrun hsteps
  obtain rfl := Option.mem_unique hstored hstored'
  obtain ⟨-, -, rfl⟩ := hrun.of_snoc
  obtain ⟨c, paid, r', hrepaid⟩ := repayLoan_ok hlast.run
  have hclock : loan.lastInterestTime = last.after.timestamp := by
    obtain rfl := Option.mem_unique hstored hrepaid.stored_after
    exact hrepaid.lastInterestTime
  rw [Accounted, hclock] at haccount
  exact floor_le_charged_iff interestUnit_pos haccount

namespace Sample

/-- The farmer has borrowed 600000 at 10 %. -/
def lent : World := after [initialization 6000 8000, registration 1000000, request 600000]

/-- The farmer pays one unit. -/
def payOne : Action := signedBy farmer (.repayLoan farmer 1 1)

end Sample

/-- One payment after a year charges the 60000 that were earned. -/
theorem sample_repayments_keep_interest :
    ∃ steps w loan, (protocol .standard).Run Sample.lent steps w ∧
      w.loans.lookup 1 = some loan ∧ interestCharged 1 steps loan = 60000 ∧
      ((600000 : Int) * (1000 : Nat) * (w.timestamp - (0 : Nat)) / interestUnit ≤
          interestCharged 1 steps loan - 0 ↔
        overRepayments AssetContract.standard.client 1 LoanRecord.cutOff steps ≤
          overRepayments AssetContract.standard.client 1 (LoanRecord.earnedAbove 600000) steps +
            (600000 : Int) * (1000 : Nat) * (w.timestamp - (0 : Nat)) % interestUnit) := by
  have hreach : (protocol .standard).Reachable Sample.lent := Sample.after_reachable _
  have hrun : (protocol .standard).Run Sample.lent ([_] ++ [_]) _ :=
    Run.of_script [.tick 31536000, Sample.payOne] rfl
  refine ⟨_, _, _, hrun, rfl, rfl,
    repayments_keep_interest_iff (r := 1000) hreach rfl hrun ⟨rfl, rfl⟩ ?_ rfl⟩
  intro t ht
  simp only [List.cons_append, List.nil_append, List.mem_cons, List.not_mem_nil, or_false] at ht
  rcases ht with rfl | rfl
  · refine ⟨?_, ?_⟩
    · rintro c ⟨⟩
      rfl
    · rintro _ _ _ ⟨⟨⟩, -⟩
  · refine ⟨?_, ?_⟩
    · rintro c ⟨⟩
      rfl
    · rintro _ _ _ ⟨⟨⟩, -⟩

/-- One unit paid every 525 seconds: each time 0.998 of a unit is pending, and nothing
is charged. Over both periods 599999 alone earn more than one unit. -/
theorem small_repayments_erase_interest :
    ¬ ∀ (asset : AssetContract) (start w : World) (steps : List (Transition World Action))
      (last : Transition World Action) (env : Env) (payer : Address) (payment P : Int)
      (loanId r : Nat) (loan₀ loan : LoanRecord), (protocol asset).Reachable start →
      start.loans.lookup loanId = some loan₀ → loan₀.status = .active →
      (protocol asset).Run start (steps ++ [last]) w →
      Executed asset last env (.repayLoan payer loanId payment) →
      (∀ t ∈ steps ++ [last], Scheduled asset loanId r t) → 0 < P →
      (∀ t ∈ steps ++ [last], ∀ before, t.before.loans.lookup loanId = some before →
        P ≤ before.outstanding) → w.loans.lookup loanId = some loan →
        P * r * (w.timestamp - loan₀.lastInterestTime) / interestUnit ≤
          interestCharged loanId (steps ++ [last]) loan - loan₀.interestAccrued := by
  intro hall
  have hreach : (protocol .standard).Reachable Sample.lent := Sample.after_reachable _
  have hrun : (protocol .standard).Run Sample.lent ([_, _, _] ++ [_]) _ :=
    Run.of_script [.tick 525, Sample.payOne, .tick 1050, Sample.payOne] rfl
  have hcharged := hall _ _ _ _ _ _ _ _ 599999 1 1000 _ _ hreach rfl rfl hrun ⟨rfl, rfl⟩ ?_
    (by decide) ?_ rfl
  · exact absurd (show (1 : Int) ≤ 0 from hcharged) (by decide)
  · intro t ht
    simp only [List.cons_append, List.nil_append, List.mem_cons, List.not_mem_nil, or_false] at ht
    rcases ht with rfl | rfl | rfl | rfl
    all_goals
      refine ⟨?_, ?_⟩
      · rintro c ⟨⟩
        rfl
      · rintro _ _ _ ⟨⟨⟩, -⟩
  · intro t ht before hbefore
    simp only [List.cons_append, List.nil_append, List.mem_cons, List.not_mem_nil, or_false] at ht
    rcases ht with rfl | rfl | rfl | rfl
    all_goals
      cases hbefore
      decide

end StellarKraal
