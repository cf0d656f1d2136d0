import StellarKraal.Lending.Pledges

/-!
# Locks

Granting a loan writes its id into every collateral it lists, and neither of the
two ways to close a loan touches the collateral again. After a liquidation that is
how `getCollateralCount` tells the animals that are lost from those that are not.
-/

namespace StellarKraal

variable {asset : AssetContract}

/-- Whatever a loan lists is locked. -/
def PledgesLocked (w : World) : Prop :=
  ∀ id loan, w.loans.lookup id = some loan → ∀ colId ∈ loan.collateralIds,
    ∃ col, w.collaterals.lookup colId = some col ∧ col.loanId ≠ 0

theorem KeepsPledges.pledgesLocked {w w' : World} (h : KeepsPledges w w')
    (hw : PledgesLocked w) : PledgesLocked w' := by
  intro id loan' hloan' colId hmem
  obtain ⟨loan, hloan, hids, -⟩ := h.loan_before id loan' hloan'
  obtain ⟨col, hcol, hlocked⟩ := hw id loan hloan colId (hids ▸ hmem)
  obtain ⟨col', hcol', hkept⟩ := h.lock_after colId col hcol
  exact ⟨col', hcol', hkept ▸ hlocked⟩

/-- A request locks what it lists anew, and leaves other locks alone. -/
theorem Originated.pledgesLocked {env : Env} {w w' : World} {borrower : Address} {ids : List Nat}
    {amount total : Int} {c : Config} {collaterals : KeyedStore Nat CollateralRecord} {loanId : Nat}
    (h : Originated env w borrower ids amount c total collaterals w' loanId)
    (hw : PledgesLocked w) : PledgesLocked w' := by
  have hpos : loanId ≠ 0 := by
    rw [h.loanId_eq]
    exact Nat.succ_ne_zero _
  intro id loan hloan colId hmem
  by_cases hlisted : colId ∈ ids
  · obtain ⟨col, hcol⟩ := lockCollaterals_stored h.locked colId hlisted
    exact ⟨{ col with loanId }, by simp [h.collateral_lookup, hcol, hlisted], hpos⟩
  · rw [h.loan_lookup] at hloan
    split at hloan
    next =>
      obtain rfl := Option.some.inj hloan
      exact absurd hmem hlisted
    next =>
      obtain ⟨col, hcol, hlocked⟩ := hw id loan hloan colId hmem
      exact ⟨col, by simp [h.collateral_lookup, hcol, hlisted], hlocked⟩

theorem reachable_pledgesLocked {w : World} (h : (protocol asset).Reachable w) :
    PledgesLocked w := by
  apply reachable_pledge_invariant PledgesLocked (h := h)
  · intro timestamp ledger id loan hloan
    nomatch hloan
  · intro w w' hkeeps hw
    exact hkeeps.pledgesLocked hw
  · intro _ _ _ _ _ _ _ _ _ _ _ horiginated hw
    exact horiginated.pledgesLocked hw

/-- A collateral that an open or a liquidated loan lists is locked, and a locked one
is listed by the loan it is locked to. -/
theorem locks_follow_loans {w : World} (hreach : (protocol asset).Reachable w) :
    (∀ id loan, w.loans.lookup id = some loan →
      loan.status = .active ∨ loan.status = .liquidated → ∀ colId ∈ loan.collateralIds,
        ∃ col, w.collaterals.lookup colId = some col ∧ col.loanId ≠ 0) ∧
    ∀ colId col, w.collaterals.lookup colId = some col → col.loanId ≠ 0 →
      ∃ loan, w.loans.lookup col.loanId = some loan ∧ colId ∈ loan.collateralIds :=
  ⟨fun id loan hloan _ => reachable_pledgesLocked hreach id loan hloan,
    reachable_locksListed hreach⟩

namespace Sample

/-- A loan against one herd is liquidated in full after the threshold was lowered. -/
def liquidation : List Action :=
  [initialization 6000 8000, registration 1000000, request 600000,
    signedBy admin (.setCloseFactor admin 10000),
    signedBy admin (.setLiquidationThreshold admin 5000),
    signedBy keeper (.liquidate keeper 1 600000)]

end Sample

theorem sample_locks_follow_loans :
    ∃ (w : World) (loan : LoanRecord) (col : CollateralRecord), w.loans.lookup 1 = some loan ∧
      loan.status = .liquidated ∧ w.collaterals.lookup 1 = some col ∧ col.loanId = 1 ∧
      (∃ listed, w.loans.lookup col.loanId = some listed ∧ 1 ∈ listed.collateralIds) ∧
      ∃ locked, w.collaterals.lookup 1 = some locked ∧ locked.loanId ≠ 0 := by
  have hlocks := locks_follow_loans (Sample.after_reachable Sample.liquidation)
  exact ⟨_, _, _, rfl, rfl, rfl, rfl, hlocks.2 1 _ rfl (by decide),
    hlocks.1 1 _ rfl (.inr rfl) 1 (by decide)⟩

/-- The herd of a liquidated loan stays locked, with no open loan left. -/
theorem lock_outlives_loan :
    ¬ ∀ (asset : AssetContract) (w : World), (protocol asset).Reachable w →
      ∀ colId col, w.collaterals.lookup colId = some col →
        (col.loanId ≠ 0 ↔ ∃ id, w.OpenPledge colId id) := by
  intro hexact
  obtain ⟨id, loan, hloan, hactive, -⟩ :=
    (hexact .standard _ (Sample.after_reachable Sample.liquidation) 1 _ rfl).mp (by decide)
  have hnumbered := reachable_numbered (Sample.after_reachable Sample.liquidation) id loan hloan
  obtain rfl : id = 1 := le_antisymm hnumbered.2.2 hnumbered.2.1
  obtain rfl := Option.mem_unique rfl hloan
  contradiction

end StellarKraal
