import StellarKraal.Contract.NoticeEffects
import StellarKraal.Foundation.Journal
import StellarKraal.Lending.CollateralRecords
import StellarKraal.Lending.PoolValue

/-!
# The event log rebuilds the book

A reader of the published events alone, starting with an empty book, has the
loans, the collateral, the caps, the whitelist, the pause and every pending
proposal as the contract stores them. What moves tokens is told as well: balances
are what they were, plus what others did, plus what the log tells.
-/

namespace StellarKraal

open TransitionSystem (Transition Journal)

variable {asset : AssetContract} {env : Env} {w w' : World} {call : Call}

/-! ## The book -/

theorem feeNotices_foldl (b : LogBook) (kind : Symbol) (loanId : Nat) (fee : Int) :
    (feeNotices kind loanId fee).foldl LogBook.record b = b := by
  unfold feeNotices
  split <;> rfl

theorem logBook_insert_loan (w : World) (id : Nat) (loan : LoanRecord) :
    { w.logBook with loans := Function.update w.logBook.loans id (some loan.account) } =
      { w with loans := w.loans.insert id loan }.logBook :=
  congrArg (fun loans => { w.logBook with loans })
    (map_lookup_insert w.loans LoanRecord.account id loan)

/-- Adjusting the account of a stored loan is rewriting its record. -/
theorem logBook_adjust {id : Nat} {loan loan' : LoanRecord} {f : LoanAccount → LoanAccount}
    (hstored : w.loans.lookup id = some loan) (hf : f loan.account = loan'.account) :
    w.logBook.adjust id f = { w with loans := w.loans.insert id loan' }.logBook := by
  have hread : w.logBook.loans id = some loan.account :=
    congrArg (Option.map LoanRecord.account) hstored
  rw [← logBook_insert_loan, LogBook.adjust, hread, Option.map_some, hf]

/-- A repaid loan is closed exactly when the event says that nothing is left. -/
theorem RepaidBy.account {borrower : Address} {loanId : Nat} {amount : Int} {c : Config}
    {loan : LoanRecord} {r : Repayment} (h : RepaidBy env w borrower loanId amount c loan r w')
    (hsound : (closeIfRepaid r.loan).Sound) :
    (closeIfRepaid r.loan).account = { loan.account with
      outstanding := (closeIfRepaid r.loan).outstanding
      status :=
        if (closeIfRepaid r.loan).outstanding = 0 then .repaid else loan.account.status } := by
  obtain ⟨-, -, hborrower, htotal, hprincipal⟩ := h.payment.terms
  have hstatus : r.loan.status = loan.status := by rw [h.splits.loan]; rfl
  have hopen := hsound.active_iff
  simp only [LoanRecord.account, LoanAccount.mk.injEq, hborrower, htotal, hprincipal, true_and]
  unfold closeIfRepaid at hopen ⊢
  split at hopen
  next hpaid => simp [hpaid]
  next hleft =>
    have houtstanding : 0 < r.loan.outstanding := hopen.mp (hstatus.trans h.active)
    rw [if_neg hleft, if_neg houtstanding.ne']
    exact hstatus

theorem LiquidatedBy.account {liquidator : Address} {loanId : Nat} {amount : Int} {c : Config}
    {loan : LoanRecord} {hf : Int} (h : LiquidatedBy env w liquidator loanId amount c loan hf w')
    {loan' : LoanRecord}
    (hloan : closeIfLiquidated { loan with outstanding := loan.outstanding - amount } = loan') :
    loan'.account =
      { loan.account with outstanding := loan'.outstanding, status := loan'.status } := by
  obtain ⟨-, -, hborrower, htotal, hprincipal⟩ := h.payment.terms
  rw [hloan] at hborrower htotal hprincipal
  simp only [LoanRecord.account, hborrower, htotal, hprincipal]

/-- A request books the new loan; the lock on its collateral is not in the book. -/
theorem Originated.logBook_eq {borrower : Address} {ids : List Nat} {amount : Int} {c : Config}
    {total : Int} {collaterals : KeyedStore Nat CollateralRecord} {loanId : Nat}
    (h : Originated env w borrower ids amount c total collaterals w' loanId) :
    w'.logBook = { w.logBook with
      loans := Function.update w.logBook.loans loanId
        (some ⟨borrower, amount, amount, total, .active⟩) } := by
  have hlocked : (fun id => (collaterals.lookup id).map CollateralRecord.registration) =
      fun id => (w.collaterals.lookup id).map CollateralRecord.registration := by
    funext id
    rw [lockCollaterals_lookup h.locked, Option.map_map]
    congr 1
    funext col
    simp only [Function.comp_apply]
    split <;> rfl
  have hloans := map_lookup_insert w.loans LoanRecord.account loanId
    (newLoan w loanId borrower ids total amount)
  obtain rfl := h.world
  simp only [World.logBook, hlocked, ← hloans]
  rfl

/-- The log as a journal of the book. -/
def eventJournal : Journal World Notice LogBook where
  log := World.notices
  view := World.logBook
  blank := {}
  record := LogBook.record

/-- The step lemma: the notices of a call turn the book before it into the book after it. -/
theorem CallNotices.accounts {notices : List Notice} (h : CallNotices asset env w call w' notices)
    (hsound : ∀ id loan, w'.loans.lookup id = some loan → loan.Sound) :
    notices.foldl LogBook.record w.logBook = w'.logBook := by
  cases h with
  | lent h =>
      rw [List.foldl_append, feeNotices_foldl, h.logBook_eq]
      rfl
  | repaid h =>
      rw [List.foldl_append, feeNotices_foldl]
      have haccount := h.account (hsound _ _ h.stored_after)
      obtain rfl := h.world
      exact logBook_adjust h.stored haccount.symm
  | liquidated h =>
      have haccount := h.account rfl
      obtain rfl := h.world
      exact logBook_adjust h.stored haccount.symm
  | withdrawn _ _ hbook => exact hbook.symm
  | other _ _ hbook => exact hbook

/-- In every reachable world, reading the log gives the book: each loan's borrower,
principal, balance, booked collateral value and status, each collateral's owner,
animals and appraisals, the caps, the whitelist, the pause and what is pending. -/
theorem log_rebuilds_book (hreach : (protocol asset).Reachable w) :
    eventJournal.read w.notices = w.logBook := by
  apply eventJournal.read_log (h := hreach)
  · rintro _ ⟨timestamp, ledger, rfl⟩
    exact ⟨rfl, rfl⟩
  · intro w a w' hreach step
    have hsound := reachable_sound (hreach.step step)
    rcases protocol_step_cases step with ⟨env, call, hexec⟩ | ⟨-, timestamp, ledger, -, -, rfl⟩
    · obtain ⟨new, hevents, hnew⟩ := Call.run_tells hexec.run
      exact ⟨_, notices_append hevents, hnew.accounts hsound⟩
    · exact .of_same rfl rfl

namespace Sample

/-- A loan of half a million at 10 %, of which a part is paid back after a year. -/
def partialRepayment : List Action :=
  [initialization 6000 8000, registration 1000000, request 500000, .tick 31536000,
    signedBy farmer (.repayLoan farmer 1 100000)]

end Sample

/-- What a reader of the log knows of the loan and of its collateral then. -/
theorem sample_log_rebuilds_book :
    (eventJournal.read (Sample.after Sample.partialRepayment).notices).loans 1 =
        some ⟨Sample.farmer, 500000, 450000, 1000000, .active⟩ ∧
      (eventJournal.read (Sample.after Sample.partialRepayment).notices).collaterals 1 =
        some ⟨Sample.farmer, "cattle", 10, 1000000, [1000000]⟩ := by
  have hbook := log_rebuilds_book (Sample.after_reachable Sample.partialRepayment)
  rw [hbook]
  exact ⟨by decide, by decide⟩

/-! ## The balances -/

/-- What token activity outside the contract added to a balance. -/
def outsideActivity (token holder : Address) (steps : List (Transition World Action)) : Int :=
  (steps.map fun t => match t.action with
    | .tokenActivity ledger => ledger token holder - t.before.ledger token holder
    | _ => 0).sum

theorem outsideActivity_append (token holder : Address)
    (first second : List (Transition World Action)) :
    outsideActivity token holder (first ++ second) =
      outsideActivity token holder first + outsideActivity token holder second := by
  simp [outsideActivity]

/-- Balances change between calls only by token activity. -/
theorem idle_balance {a : Action} (step : (protocol asset).Step w a w')
    (hidle : ∀ env call, ¬ Executed asset ⟨w, a, w'⟩ env call) (token holder : Address) :
    w'.ledger token holder =
      w.ledger token holder + outsideActivity token holder [⟨w, a, w'⟩] := by
  cases a with
  | call env call =>
      obtain rfl := step
      rcases World.invoke_cases asset.client env w call with hrun | hsame
      · exact absurd ⟨rfl, hrun⟩ (hidle env call)
      · simp [outsideActivity, hsame]
  | tick =>
      obtain ⟨-, -, rfl⟩ := step
      simp [outsideActivity]
  | tokenActivity =>
      obtain ⟨-, rfl⟩ := step
      simp [outsideActivity]

theorem Ledger.payFee_net (L : Ledger) (c : Config) (kind : Symbol) (loanId : Nat) (fee : Int)
    (token holder : Address) :
    L.payFee c fee token holder = L token holder +
      if token = c.token then netReceived c.treasury holder (feeNotices kind loanId fee)
      else 0 := by
  unfold Ledger.payFee feeNotices
  split
  · rw [Ledger.move_net, netReceived_single rfl]
  · simp

/-- The step lemma: a call changes every balance by what its notices tell. -/
theorem CallNotices.balance {notices : List Notice} (h : CallNotices asset env w call w' notices)
    {c : Config} (hc : w.config = some c) (token holder : Address) :
    w'.ledger token holder = w.ledger token holder +
      if token = c.token then netReceived c.treasury holder notices else 0 := by
  cases h with
  | @lent _ _ _ _ _ _ _ loanId h =>
      obtain rfl := Option.mem_unique h.config hc
      rw [congrArg World.ledger h.world]
      dsimp only
      rw [Ledger.move_net, @Ledger.payFee_net _ _ "originate" loanId, netReceived_append,
        netReceived_single rfl]
      split <;> omega
  | @repaid _ loanId _ _ _ r _ h =>
      have hprincipal := h.splits.principalPaid
      obtain rfl := Option.mem_unique h.config hc
      have hwhole : r.repayAmount = r.principalPaid + r.interestPaid := by omega
      rw [congrArg World.ledger h.world]
      dsimp only
      rw [@Ledger.payFee_net _ _ "interest" loanId, Ledger.move_net, netReceived_append,
        netReceived_single rfl, hwhole]
      split <;> omega
  | liquidated h =>
      obtain rfl := Option.mem_unique h.config hc
      rw [congrArg World.ledger h.world]
      dsimp only
      rw [Ledger.move_net, netReceived_single rfl]
  | @withdrawn _ recipient _ _ hc' hledger =>
      obtain rfl := Option.mem_unique hc hc'
      rw [hledger]
      split
      next hpos =>
        have htold : (Notice.withdrawn recipient _).transfer c.treasury =
            some ⟨.currentContract, recipient, _⟩ := if_pos hpos
        rw [Ledger.move_net, netReceived_single htold]
      next hpos =>
        rw [netReceived_of_still]
        · simp
        · simp [Notice.transfer, hpos]
  | other hstill hledger =>
      rw [hledger, netReceived_of_still holder fun n hn => hstill n hn _]
      simp

/-- While the contract has no configuration, a call tells of no transfer. -/
theorem CallNotices.still_of_unconfigured {notices : List Notice}
    (h : CallNotices asset env w call w' notices) (hc : w.config = none) :
    w'.ledger = w.ledger ∧ ∀ treasury holder, netReceived treasury holder notices = 0 := by
  cases h with
  | lent h => exact absurd (hc.symm.trans h.config) (by simp)
  | repaid h => exact absurd (hc.symm.trans h.config) (by simp)
  | liquidated h => exact absurd (hc.symm.trans h.config) (by simp)
  | withdrawn hc' => exact absurd (hc.symm.trans hc') (by simp)
  | other hstill hledger =>
      exact ⟨hledger, fun treasury holder =>
        netReceived_of_still holder fun n hn => hstill n hn treasury⟩

/-- Every balance of every token, at the end of any run: what it was, what others
moved, and in the contract's own token what the events published since tell. -/
theorem balances_told {start : World} {steps : List (Transition World Action)} {c : Config}
    (hrun : (protocol asset).Run start steps w) (hc : w.config = some c) :
    ∃ new, w.events = start.events ++ new ∧ ∀ token holder,
      w.ledger token holder = start.ledger token holder + outsideActivity token holder steps +
        if token = c.token then
          netReceived c.treasury holder (new.filterMap Event.notice) else 0 := by
  -- Earlier worlds have the token and the treasury of the last, or no configuration yet.
  suffices ∀ token treasury, (∀ c, w.config = some c → c.token = token ∧ c.treasury = treasury) →
      ∃ new, w.events = start.events ++ new ∧ ∀ token' holder,
        w.ledger token' holder = start.ledger token' holder +
          outsideActivity token' holder steps +
          if token' = token then netReceived treasury holder (new.filterMap Event.notice) else 0 by
    apply this
    intro c' hc'
    obtain rfl := Option.mem_unique hc hc'
    exact ⟨rfl, rfl⟩
  clear hc
  intro token treasury hconfig
  induction hrun with
  | nil => exact ⟨[], by simp, by simp [outsideActivity]⟩
  | @snoc prior_steps s s' a prior step ih =>
      rcases protocol_step_cases step with ⟨env, call, hexec⟩ | ⟨hidle, timestamp, ledger, -, -, hs⟩
      · obtain ⟨added, hadded, hnotices⟩ := Call.run_tells hexec.run
        have hbefore : ∀ c, s.config = some c → c.token = token ∧ c.treasury = treasury := by
          intro c hc
          obtain ⟨c', hc', htoken, htreasury⟩ := (Call.run_configEffect hexec.run).keeps_token hc
          obtain ⟨rfl, rfl⟩ := hconfig c' hc'
          exact ⟨htoken.symm, htreasury.symm⟩
        obtain ⟨new, hnew, hbalance⟩ := ih hbefore
        have hstep : ∀ token' holder, s'.ledger token' holder = s.ledger token' holder +
            if token' = token then netReceived treasury holder (added.filterMap Event.notice)
            else 0 := by
          intro token' holder
          cases hc : s.config with
          | none =>
              obtain ⟨hledger, hzero⟩ := hnotices.still_of_unconfigured hc
              rw [show s'.ledger = s.ledger from hledger, hzero]
              simp
          | some c =>
              obtain ⟨rfl, rfl⟩ := hbefore c hc
              exact hnotices.balance hc token' holder
        refine ⟨new ++ added, by rw [hadded, hnew, List.append_assoc], fun token' holder => ?_⟩
        have hcall : outsideActivity token' holder (prior_steps ++ [⟨s, a, s'⟩]) =
            outsideActivity token' holder prior_steps := by
          rw [outsideActivity_append, show a = _ from hexec.action]
          simp [outsideActivity]
        rw [hstep, hbalance, hcall, List.filterMap_append, netReceived_append]
        split <;> omega
      · obtain ⟨new, hnew, hbalance⟩ := ih (by rwa [hs] at hconfig)
        refine ⟨new, by rw [hs, hnew], fun token' holder => ?_⟩
        rw [idle_balance step hidle, hbalance, outsideActivity_append]
        omega

/-- Through the sample loan the treasury gets both fees, and the farmer has what
was paid out less what was paid back. -/
theorem sample_balances_told :
    ∃ w steps, (protocol .standard).Run Sample.world steps w ∧
      (∃ new, w.events = Sample.world.events ++ new ∧
        w.ledger Sample.token Sample.treasury = 1000000000000000 +
          netReceived Sample.treasury Sample.treasury (new.filterMap Event.notice)) ∧
      w.ledger Sample.token Sample.treasury = 1000000000007500 ∧
      w.ledger Sample.token Sample.farmer = 1000000000397500 := by
  have hrun : (protocol .standard).Run Sample.world _ _ :=
    Run.of_script Sample.partialRepayment rfl
  obtain ⟨new, hnew, hbalance⟩ := balances_told hrun rfl
  exact ⟨_, _, hrun, ⟨new, hnew, hbalance Sample.token Sample.treasury⟩, rfl, rfl⟩

/-! ## Whose tokens move -/

/-- A call lowers only the balances of the contract and of its signers. -/
theorem CallNotices.balance_le {notices : List Notice}
    (h : CallNotices asset env w call w' notices) (hreach : (protocol asset).Reachable w)
    {holder : Address} (hcontract : holder ≠ .currentContract) (hsigner : holder ∉ env.signers)
    (token : Address) : w.ledger token holder ≤ w'.ledger token holder := by
  have hgain (t : Transfer) (hpos : 0 ≤ t.amount) (hsender : t.sender ≠ holder) :
      0 ≤ t.net holder := by
    rw [Transfer.net, if_neg hsender.symm]
    split <;> omega
  have hfee (c : Config) (kind : Symbol) (loanId : Nat) (fee : Int) :
      0 ≤ netReceived c.treasury holder (feeNotices kind loanId fee) := by
    unfold feeNotices
    split
    next hpos =>
      rw [netReceived_single rfl]
      exact hgain _ hpos.le hcontract.symm
    next => rfl
  -- What the notices tell is not negative, so neither is the change of the balance.
  have hmoved {c : Config} (hc : w.config = some c)
      (hnet : 0 ≤ netReceived c.treasury holder notices) :
      w.ledger token holder ≤ w'.ledger token holder := by
    rw [h.balance hc token holder]
    split <;> omega
  cases h with
  | @lent borrower ids amount c total collaterals _ loanId h =>
      have hrange := (reachable_inRange hreach _ h.config).origFee_max
      have hshare : originationFee c amount ≤ amount :=
        share_le h.positive.le (by simp only [Config.risk] at hrange; omega)
      apply hmoved h.config
      rw [netReceived_append, netReceived_single rfl]
      exact add_nonneg (hfee c _ _ _) (hgain _ (sub_nonneg.mpr hshare) hcontract.symm)
  | repaid h =>
      have hborrower : _ ≠ holder := fun heq => hsigner (heq ▸ h.authorized)
      have hsound := reachable_sound hreach _ _ h.stored
      have hbounds := h.splits.bounds h.positive (hsound.active_iff.mp h.active)
        (accrueInterest_nonneg _ _ hsound.outstanding_nonneg hsound.interest_nonneg)
      apply hmoved h.config
      rw [netReceived_append, netReceived_single rfl]
      exact add_nonneg (hfee _ _ _ _)
        (hgain _ (add_nonneg hbounds.2.2.2.1 hbounds.2.1) hborrower)
  | liquidated h =>
      have hliquidator : _ ≠ holder := fun heq => hsigner (heq ▸ h.authorized)
      apply hmoved h.config
      rw [netReceived_single rfl]
      exact hgain _ h.positive.le hliquidator
  | @withdrawn _ recipient c _ hc hledger =>
      rw [hledger]
      split
      next hpos =>
        have hnet := hgain ⟨.currentContract, recipient, _⟩ (le_of_lt hpos) hcontract.symm
        rw [Ledger.move_net]
        split
        · exact le_add_of_nonneg_right hnet
        · exact le_add_of_nonneg_right le_rfl
      next => exact le_rfl
  | other _ hledger => rw [hledger]

/-- Whoever signs none of a run's calls loses no tokens through the contract: the
balance falls by no more than what others moved. -/
theorem unsigned_balance_kept {start : World} {steps : List (Transition World Action)}
    {holder : Address} (hreach : (protocol asset).Reachable start)
    (hrun : (protocol asset).Run start steps w) (hcontract : holder ≠ .currentContract)
    (hsigner : ∀ t ∈ steps, ∀ env call, Executed asset t env call → holder ∉ env.signers)
    (token : Address) :
    start.ledger token holder + outsideActivity token holder steps ≤ w.ledger token holder := by
  induction hrun with
  | nil => simp [outsideActivity]
  | @snoc prior_steps s s' a prior step ih =>
      have ih := ih fun t ht => hsigner t (List.mem_append_left _ ht)
      rw [outsideActivity_append]
      rcases protocol_step_cases step with ⟨env, call, hexec⟩ | ⟨hidle, -⟩
      · obtain ⟨new, -, hnotices⟩ := Call.run_tells hexec.run
        have hunsigned := hsigner _ (List.mem_append_right _ List.mem_cons_self) env call hexec
        have hle := hnotices.balance_le (hreach.run prior) hcontract hunsigned token
        have hcall : outsideActivity token holder [⟨s, a, s'⟩] = 0 := by
          rw [show a = _ from hexec.action]
          simp [outsideActivity]
        have hle : s.ledger token holder ≤ s'.ledger token holder := hle
        omega
      · rw [idle_balance step hidle]
        omega

/-- The treasury signs nothing in the sample run. -/
theorem sample_unsigned_balance_kept :
    ∃ w steps, (protocol .standard).Run Sample.world steps w ∧
      Sample.world.ledger Sample.token Sample.treasury +
        outsideActivity Sample.token Sample.treasury steps ≤
          w.ledger Sample.token Sample.treasury := by
  have hrun : (protocol .standard).Run Sample.world _ _ :=
    Run.of_script Sample.partialRepayment rfl
  refine ⟨_, _, hrun, unsigned_balance_kept (Sample.world_reachable _) hrun (by decide) ?_ _⟩
  simp only [List.mem_cons, List.not_mem_nil, or_false]
  rintro t (rfl | rfl | rfl | rfl | rfl) env call ⟨haction, -⟩ <;>
    simp only [Sample.initialization, Sample.registration, Sample.request, Sample.signedBy,
      Action.call.injEq, reduceCtorEq] at haction <;>
    simp [← haction.1, Sample.treasury, Sample.admin, Sample.farmer]

end StellarKraal
