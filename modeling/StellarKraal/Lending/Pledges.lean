import StellarKraal.Lending.CollateralRecords
import StellarKraal.Lending.LoanRecords

/-!
# Pledges

A loan request writes its id into every collateral it lists, but does not read
what is there. A collateral therefore backs at most one open loan exactly as
long as every request lists collateral that no open loan holds.
-/

namespace StellarKraal

open TransitionSystem (Transition)

/-- Loan `id` is open and lists the collateral. -/
def World.OpenPledge (w : World) (colId id : Nat) : Prop :=
  ∃ loan, w.loans.lookup id = some loan ∧ loan.status = .active ∧ colId ∈ loan.collateralIds

/-- At most one open loan on each collateral, and it is the recorded one. -/
structure SinglyPledged (w : World) : Prop where
  unique : ∀ colId id₁ id₂, w.OpenPledge colId id₁ → w.OpenPledge colId id₂ → id₁ = id₂
  recorded : ∀ colId id, w.OpenPledge colId id →
    ∃ col, w.collaterals.lookup colId = some col ∧ col.loanId = id

/-- What is recorded is unique. -/
theorem SinglyPledged.of_recorded {w : World}
    (h : ∀ colId id, w.OpenPledge colId id →
      ∃ col, w.collaterals.lookup colId = some col ∧ col.loanId = id) : SinglyPledged w where
  unique colId id₁ id₂ h₁ h₂ := by
    obtain ⟨col₁, hcol₁, rfl⟩ := h colId id₁ h₁
    obtain ⟨col₂, hcol₂, rfl⟩ := h colId id₂ h₂
    rw [Option.mem_unique hcol₁ hcol₂]
  recorded := h

/-- The collateral is free: unlocked, or locked to a loan that is not open. -/
def World.Free (w : World) (colId : Nat) : Prop :=
  ∀ col loan, w.collaterals.lookup colId = some col → w.loans.lookup col.loanId = some loan →
    loan.status ≠ .active

/-! ## Calls other than loan requests -/

/-- Every record is still there with its pledges; no loan has been opened, and a
new collateral is unlocked. -/
structure KeepsPledges (w w' : World) : Prop where
  loan_before : ∀ id loan', w'.loans.lookup id = some loan' →
    ∃ loan, w.loans.lookup id = some loan ∧ loan'.collateralIds = loan.collateralIds ∧
      (loan'.status = .active → loan.status = .active)
  loan_after : ∀ id loan, w.loans.lookup id = some loan →
    ∃ loan', w'.loans.lookup id = some loan' ∧ loan'.collateralIds = loan.collateralIds
  lock_before : ∀ colId col', w'.collaterals.lookup colId = some col' → col'.loanId = 0 ∨
    ∃ col, w.collaterals.lookup colId = some col ∧ col.loanId = col'.loanId
  lock_after : ∀ colId col, w.collaterals.lookup colId = some col →
    ∃ col', w'.collaterals.lookup colId = some col' ∧ col'.loanId = col.loanId

namespace KeepsPledges

variable {w w' : World}

theorem of_same (hloans : w'.loans = w.loans) (hcol : w'.collaterals = w.collaterals) :
    KeepsPledges w w' where
  loan_before _ loan' h := ⟨loan', hloans ▸ h, rfl, fun hactive => hactive⟩
  loan_after _ loan h := ⟨loan, hloans ▸ h, rfl⟩
  lock_before _ col' h := .inr ⟨col', hcol ▸ h, rfl⟩
  lock_after _ col h := ⟨col, hcol ▸ h, rfl⟩

/-- A payment on an open loan. -/
theorem of_payment {id : Nat} {loan loan' : LoanRecord} (hstored : w.loans.lookup id = some loan)
    (hactive : loan.status = .active) (hids : loan'.collateralIds = loan.collateralIds)
    (hloans : w'.loans = w.loans.insert id loan') (hcol : w'.collaterals = w.collaterals) :
    KeepsPledges w w' where
  loan_before k found h := by
    rw [hloans] at h
    rcases KeyedStore.lookup_insert_cases h with ⟨rfl, rfl⟩ | ⟨-, hold⟩
    · exact ⟨loan, hstored, hids, fun _ => hactive⟩
    · exact ⟨found, hold, rfl, fun hactive => hactive⟩
  loan_after k found h := by
    rw [hloans, KeyedStore.lookup_insert]
    split
    next heq =>
      subst heq
      obtain rfl := Option.mem_unique hstored h
      exact ⟨loan', rfl, hids⟩
    next => exact ⟨found, h, rfl⟩
  lock_before _ col' h := .inr ⟨col', hcol ▸ h, rfl⟩
  lock_after _ col h := ⟨col, hcol ▸ h, rfl⟩

/-- A write to one collateral that keeps its lock, or adds it unlocked. -/
theorem of_collateral {key : Nat} {col' : CollateralRecord} (hloans : w'.loans = w.loans)
    (hcol : w'.collaterals = w.collaterals.insert key col')
    (hlock : (∃ col, w.collaterals.lookup key = some col ∧ col.loanId = col'.loanId) ∨
      w.collaterals.lookup key = none ∧ col'.loanId = 0) : KeepsPledges w w' where
  loan_before _ loan' h := ⟨loan', hloans ▸ h, rfl, fun hactive => hactive⟩
  loan_after _ loan h := ⟨loan, hloans ▸ h, rfl⟩
  lock_before colId found h := by
    rw [hcol] at h
    rcases KeyedStore.lookup_insert_cases h with ⟨rfl, rfl⟩ | ⟨-, hold⟩
    · rcases hlock with hlock | ⟨-, hzero⟩
      · exact .inr hlock
      · exact .inl hzero
    · exact .inr ⟨found, hold, rfl⟩
  lock_after colId found h := by
    rw [hcol, KeyedStore.lookup_insert]
    split
    next heq =>
      subst heq
      rcases hlock with ⟨col, hstored, hkeep⟩ | ⟨hnone, -⟩
      · obtain rfl := Option.mem_unique hstored h
        exact ⟨col', rfl, hkeep.symm⟩
      · simp [h] at hnone
    next => exact ⟨found, h, rfl⟩

end KeepsPledges

variable {asset : AssetContract}

/-- Every call but a loan request keeps all pledges. -/
theorem BookEffect.pledges {env : Env} {call : Call} {w w' : World}
    (h : BookEffect asset env w call w') (hcollaterals : CollateralsSound w) :
    KeepsPledges w w' ∨ ∃ borrower ids amount c total collaterals loanId,
      call = .requestLoan borrower ids amount ∧
        Originated env w borrower ids amount c total collaterals w' loanId := by
  cases h with
  | register h =>
      obtain ⟨_, -, -, -, -, -, -, -, rfl, rfl⟩ := registerLivestock_ok h
      exact .inl (.of_collateral rfl rfl (.inr ⟨hcollaterals.next_fresh, rfl⟩))
  | appraise h =>
      obtain ⟨_, record, -, -, -, -, hstored, -, -, rfl⟩ := updateAppraisal_ok h
      exact .inl (.of_collateral rfl rfl (.inl ⟨record, hstored, rfl⟩))
  | originate h => exact .inr ⟨_, _, _, _, _, _, _, rfl, h⟩
  | repay h =>
      have hids := h.payment.terms.2.1
      obtain rfl := h.world
      exact .inl (.of_payment h.stored h.active hids rfl rfl)
  | liquidate h =>
      have hids := h.payment.terms.2.1
      obtain rfl := h.world
      exact .inl (.of_payment h.stored h.active hids rfl rfl)
  | withdraw h =>
      obtain ⟨_, -, -, -, -, rfl⟩ := emergencyWithdraw_ok h
      exact .inl (.of_same rfl rfl)
  | other h => exact .inl (.of_same (congrArg Book.loans h) (congrArg Book.collaterals h))

/-! ## Loan requests -/

namespace Originated

variable {env : Env} {w w' : World} {borrower : Address} {ids : List Nat} {amount total : Int}
  {c : Config} {collaterals : KeyedStore Nat CollateralRecord} {loanId : Nat}

theorem loan_lookup (h : Originated env w borrower ids amount c total collaterals w' loanId)
    (id : Nat) : w'.loans.lookup id =
      if id = loanId then some (newLoan w loanId borrower ids total amount)
      else w.loans.lookup id := by
  rw [h.world]
  exact KeyedStore.lookup_insert _ _ _ _

theorem collateral_lookup
    (h : Originated env w borrower ids amount c total collaterals w' loanId) (colId : Nat) :
    w'.collaterals.lookup colId = (w.collaterals.lookup colId).map fun col =>
      if colId ∈ ids then { col with loanId } else col := by
  rw [h.world]
  exact lockCollaterals_lookup h.locked colId

/-- The new loan is open on everything it lists. -/
theorem openPledge (h : Originated env w borrower ids amount c total collaterals w' loanId)
    {colId : Nat} (hmem : colId ∈ ids) : w'.OpenPledge colId loanId :=
  ⟨_, h.stored_after, rfl, hmem⟩

/-- An older loan keeps its pledges. -/
theorem openPledge_iff (h : Originated env w borrower ids amount c total collaterals w' loanId)
    {colId id : Nat} (hne : id ≠ loanId) : w'.OpenPledge colId id ↔ w.OpenPledge colId id := by
  simp only [World.OpenPledge, h.loan_lookup, if_neg hne]

end Originated

/-- The invariant rule for listings and locks: only a loan request needs an argument
of its own. -/
theorem reachable_pledge_invariant (invariant : World → Prop)
    (hdeployed : ∀ timestamp ledger, invariant (World.deployed timestamp ledger))
    (hkept : ∀ w w', KeepsPledges w w' → invariant w → invariant w')
    (hrequest : ∀ {env : Env} {w w' : World} {borrower : Address} {ids : List Nat}
      {amount total : Int} {c : Config} {collaterals : KeyedStore Nat CollateralRecord}
      {loanId : Nat}, (protocol asset).Reachable w →
        Originated env w borrower ids amount c total collaterals w' loanId →
          invariant w → invariant w')
    {w : World} (h : (protocol asset).Reachable w) : invariant w := by
  apply reachable_invariant invariant (h := h)
  · exact hdeployed
  · intro env call w w' hreach hw hrun
    rcases (Call.run_bookEffect hrun).pledges (reachable_collaterals hreach) with
      hkeeps | ⟨_, _, _, _, _, _, _, -, horiginated⟩
    · exact hkept w w' hkeeps hw
    · exact hrequest hreach horiginated hw
  · intro w timestamp ledger hw _ _
    exact hkept w _ (.of_same rfl rfl) hw

/-! ## Where locks point -/

/-- A locked collateral is listed by the loan it is locked to. -/
def LocksListed (w : World) : Prop :=
  ∀ colId col, w.collaterals.lookup colId = some col → col.loanId ≠ 0 →
    ∃ loan, w.loans.lookup col.loanId = some loan ∧ colId ∈ loan.collateralIds

theorem KeepsPledges.locksListed {w w' : World} (h : KeepsPledges w w') (hw : LocksListed w) :
    LocksListed w' := by
  intro colId col' hcol' hlocked
  rcases h.lock_before colId col' hcol' with hzero | ⟨col, hcol, heq⟩
  · exact absurd hzero hlocked
  · obtain ⟨loan, hloan, hmem⟩ := hw colId col hcol (heq ▸ hlocked)
    obtain ⟨loan', hloan', hids⟩ := h.loan_after _ loan hloan
    exact ⟨loan', heq ▸ hloan', hids ▸ hmem⟩

theorem Originated.locksListed {env : Env} {w w' : World} {borrower : Address} {ids : List Nat}
    {amount total : Int} {c : Config} {collaterals : KeyedStore Nat CollateralRecord} {loanId : Nat}
    (h : Originated env w borrower ids amount c total collaterals w' loanId)
    (hnumbered : LoansNumbered w) (hw : LocksListed w) : LocksListed w' := by
  intro colId col' hcol' hlocked
  rw [h.collateral_lookup] at hcol'
  obtain ⟨col, hcol, rfl⟩ := Option.map_eq_some_iff.mp hcol'
  by_cases hmem : colId ∈ ids
  · rw [if_pos hmem]
    exact ⟨_, h.stored_after, hmem⟩
  · rw [if_neg hmem] at hlocked ⊢
    obtain ⟨loan, hloan, hlisted⟩ := hw colId col hcol hlocked
    have hne : col.loanId ≠ loanId := by
      rintro heq
      rw [heq, h.loanId_eq, hnumbered.next_fresh] at hloan
      contradiction
    exact ⟨loan, by rw [h.loan_lookup, if_neg hne, hloan], hlisted⟩

theorem reachable_locksListed {w : World} (h : (protocol asset).Reachable w) : LocksListed w := by
  apply reachable_pledge_invariant LocksListed (h := h)
  · intro timestamp ledger colId col hcol
    nomatch hcol
  · intro w w' hkeeps hw
    exact hkeeps.locksListed hw
  · intro _ _ _ _ _ _ _ _ _ _ hreach horiginated hw
    exact horiginated.locksListed (reachable_numbered hreach) hw

/-! ## When pledges are single -/

theorem KeepsPledges.singlyPledged {w w' : World} (h : KeepsPledges w w')
    (hw : SinglyPledged w) : SinglyPledged w' := by
  refine .of_recorded fun colId id ⟨loan', hloan', hactive', hmem'⟩ => ?_
  obtain ⟨loan, hloan, hids, hactive⟩ := h.loan_before id loan' hloan'
  obtain ⟨col, hcol, hrecorded⟩ := hw.recorded colId id
    ⟨loan, hloan, hactive hactive', hids ▸ hmem'⟩
  obtain ⟨col', hcol', heq⟩ := h.lock_after colId col hcol
  exact ⟨col', hcol', heq.trans hrecorded⟩

/-- A request keeps pledges single exactly when all it lists is free. -/
theorem Originated.singlyPledged_iff {env : Env} {w w' : World} {borrower : Address}
    {ids : List Nat} {amount total : Int} {c : Config}
    {collaterals : KeyedStore Nat CollateralRecord} {loanId : Nat}
    (h : Originated env w borrower ids amount c total collaterals w' loanId)
    (hnumbered : LoansNumbered w) (hlocks : LocksListed w) (hw : SinglyPledged w) :
    SinglyPledged w' ↔ ∀ colId ∈ ids, w.Free colId := by
  constructor
  -- Were the lock's loan open, it and the new one would both pledge the collateral.
  · intro hw' colId hmem col loan hcol hloan hactive
    obtain ⟨-, hpos, hle⟩ := hnumbered _ _ hloan
    have hne : col.loanId ≠ loanId := by
      have heq := h.loanId_eq
      omega
    obtain ⟨listed, hlisted, hold⟩ := hlocks colId col hcol hpos.ne'
    obtain rfl := Option.mem_unique hloan hlisted
    exact hne (hw'.unique colId _ _
      ((h.openPledge_iff hne).mpr ⟨loan, hloan, hactive, hold⟩) (h.openPledge hmem))
  -- Locks of the new loan are written; older open loans hold nothing of what is listed.
  · intro hfree
    refine .of_recorded fun colId id hpledge => ?_
    by_cases hid : id = loanId
    · subst hid
      obtain ⟨loan, hloan, -, hmem⟩ := hpledge
      rw [h.loan_lookup, if_pos rfl] at hloan
      obtain rfl := Option.some.inj hloan
      obtain ⟨col, hcol⟩ := lockCollaterals_stored h.locked colId hmem
      exact ⟨_, by rw [h.collateral_lookup, hcol]; rfl, by simp [show colId ∈ ids from hmem]⟩
    · obtain ⟨col, hcol, rfl⟩ := hw.recorded colId id ((h.openPledge_iff hid).mp hpledge)
      obtain ⟨loan, hloan, hactive, -⟩ := (h.openPledge_iff hid).mp hpledge
      have hnot : colId ∉ ids := fun hmem => hfree colId hmem col loan hcol hloan hactive
      exact ⟨col, by rw [h.collateral_lookup, hcol]; simp [hnot], rfl⟩

/-- If the step grants a loan, then against free collateral only. -/
def RequestsFree (asset : AssetContract) (t : Transition World Action) : Prop :=
  ∀ env borrower ids amount, Executed asset t env (.requestLoan borrower ids amount) →
    ∀ colId ∈ ids, t.before.Free colId

/-- The step lemma, in both directions. -/
theorem step_singlyPledged_iff {w w' : World} {a : Action} (hreach : (protocol asset).Reachable w)
    (hstep : (protocol asset).Step w a w') (hw : SinglyPledged w) :
    SinglyPledged w' ↔ RequestsFree asset ⟨w, a, w'⟩ := by
  rcases protocol_step_cases hstep with ⟨env, call, hexec⟩ | ⟨hidle, timestamp, ledger, -, -, rfl⟩
  -- A step executes one call, so the condition speaks of this one or of none.
  · by_cases hrequest : ∃ borrower ids amount, call = .requestLoan borrower ids amount
    · obtain ⟨borrower, ids, amount, rfl⟩ := hrequest
      obtain ⟨loanId, hrun⟩ := Call.run_requestLoan hexec.run
      obtain ⟨c, total, collaterals, h⟩ := requestLoan_ok hrun
      rw [h.singlyPledged_iff (reachable_numbered hreach) (reachable_locksListed hreach) hw]
      refine ⟨fun hfree env' borrower' ids' amount' hexec' => ?_, fun hfree => hfree _ _ _ _ hexec⟩
      obtain ⟨-, rfl, -⟩ := Call.requestLoan.inj (hexec.only hexec')
      exact hfree
    · rcases (Call.run_bookEffect hexec.run).pledges (reachable_collaterals hreach) with
        hkeeps | ⟨borrower, ids, amount, _, _, _, _, heq, -⟩
      · exact iff_of_true (hkeeps.singlyPledged hw) fun env' borrower ids amount hexec' =>
          absurd ⟨borrower, ids, amount, hexec.only hexec'⟩ hrequest
      · exact absurd ⟨borrower, ids, amount, heq⟩ hrequest
  · exact iff_of_true ⟨hw.unique, hw.recorded⟩ fun _ _ _ _ hexec => absurd hexec (hidle _ _)

theorem deployed_singlyPledged (timestamp : Nat) (ledger : Ledger) :
    SinglyPledged (World.deployed timestamp ledger) :=
  .of_recorded fun _ _ ⟨_, hloan, _⟩ => nomatch hloan

/-- A life of the contract keeps pledges single in every world it passes through
exactly when each loan is granted against free collateral only. -/
theorem pledges_single_iff_requests_free {start w : World}
    {steps : List (Transition World Action)} (hstart : (protocol asset).Initial start)
    (hrun : (protocol asset).Run start steps w) :
    (SinglyPledged w ∧ ∀ t ∈ steps, SinglyPledged t.before) ↔
      ∀ t ∈ steps, RequestsFree asset t := by
  induction hrun with
  | nil =>
      obtain ⟨timestamp, ledger, rfl⟩ := hstart
      simp [deployed_singlyPledged]
  | snoc prior step ih =>
      have hreach := TransitionSystem.Reachable.run (.of_initial hstart) prior
      -- The step lemma starts from single pledges, which either side supplies.
      simp only [List.forall_mem_append, List.forall_mem_singleton, ← ih]
      constructor
      · rintro ⟨hafter, hearlier, hbefore⟩
        exact ⟨⟨hbefore, hearlier⟩, (step_singlyPledged_iff hreach step hbefore).mp hafter⟩
      · rintro ⟨⟨hbefore, hearlier⟩, hfree⟩
        exact ⟨(step_singlyPledged_iff hreach step hbefore).mpr hfree, hearlier, hbefore⟩

/-- A first loan on free collateral. -/
theorem sample_request_singly_pledged :
    ∃ steps w, (protocol .standard).Run Sample.world steps w ∧ w.OpenPledge 1 1 ∧
      ((SinglyPledged w ∧ ∀ t ∈ steps, SinglyPledged t.before) ↔
        ∀ t ∈ steps, RequestsFree .standard t) := by
  have hrun : (protocol .standard).Run Sample.world _ _ := Run.of_script
    [Sample.initialization 6000 8000, Sample.registration 1000000, Sample.request 500000] rfl
  exact ⟨_, _, hrun, ⟨_, rfl, rfl, by decide⟩,
    pledges_single_iff_requests_free ⟨0, _, rfl⟩ hrun⟩

/-- One herd worth a million, pledged twice for 600000. -/
theorem herd_pledged_twice :
    ¬ ∀ (asset : AssetContract) (w : World), (protocol asset).Reachable w → SinglyPledged w := by
  intro hsingle
  have hrun : (protocol .standard).Run Sample.world _ _ := Run.of_script
    [Sample.initialization 6000 8000, Sample.registration 1000000,
      Sample.request 600000, Sample.request 600000] rfl
  have hw := hsingle .standard _ ((Sample.world_reachable _).run hrun)
  exact absurd (hw.unique 1 1 2 ⟨_, rfl, rfl, by decide⟩ ⟨_, rfl, rfl, by decide⟩) (by decide)

end StellarKraal
