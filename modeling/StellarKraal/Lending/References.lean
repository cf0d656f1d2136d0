import StellarKraal.Risk.Liquidation

/-!
# Ids and references

Two counters give out the ids of loans and collateral, and the records refer to
each other by them. No call leaves a gap, a dangling id or a loan that lists
somebody else's animals.
-/

namespace StellarKraal

open Except (refuseIf okOr)

variable {asset : AssetContract}

/-! ## Stored ids -/

theorem LoanEffect.loans_numbered {w w' : World} (h : LoanEffect w w')
    (hw : w.loans.Numbered w.loanCounter) : w'.loans.Numbered w'.loanCounter := by
  cases h with
  | same hloans hcounter =>
      rw [hloans, hcounter]
      exact hw
  | originate _ hloans hcounter =>
      rw [hloans, hcounter]
      exact hw.insert_next _
  | payment _ hstored _ _ hloans hcounter =>
      rw [hloans, hcounter]
      exact hw.overwrite hstored _

theorem CollateralEffect.collaterals_numbered {w w' : World} (h : CollateralEffect w w')
    (hw : w.collaterals.Numbered w.collateralCounter) :
    w'.collaterals.Numbered w'.collateralCounter := by
  cases h with
  | same hcol hcounter =>
      rw [hcol, hcounter]
      exact hw
  | register _ _ hcol hcounter =>
      rw [hcol, hcounter]
      exact hw.insert_next _
  | appraise _ hstored hcol hcounter =>
      rw [hcol, hcounter]
      exact hw.overwrite hstored _
  | lock hlocked hcounter =>
      rw [hcounter]
      apply hw.of_same_ids
      intro colId
      simp only [lockCollaterals_lookup hlocked, Option.map_eq_some_iff]
      constructor
      · rintro ⟨_, col, hcol, -⟩
        exact ⟨col, hcol⟩
      · rintro ⟨col, hcol⟩
        exact ⟨_, col, hcol, rfl⟩

/-- The ids in both stores are those their counters have given out. -/
theorem reachable_ids {w : World} (h : (protocol asset).Reachable w) :
    w.loans.Numbered w.loanCounter ∧ w.collaterals.Numbered w.collateralCounter := by
  apply reachable_invariant (fun w => w.loans.Numbered w.loanCounter ∧
    w.collaterals.Numbered w.collateralCounter) (h := h)
  · intro timestamp ledger
    exact ⟨.empty, .empty⟩
  · intro env call w w' _ hw hrun
    have heffect := Call.run_bookEffect hrun
    exact ⟨heffect.loans.loans_numbered hw.1, heffect.collaterals.collaterals_numbered hw.2⟩
  · intro w timestamp ledger hw _ _
    exact hw

/-! ## Owners -/

/-- A request lists animals of the borrower only. -/
theorem pledgedValue_owned {w : World} {borrower : Address} {ids : List Nat} {total : Int}
    (h : pledgedValue w borrower ids = .ok total) :
    ∀ colId ∈ ids, ∃ col, w.collaterals.lookup colId = some col ∧ col.owner = borrower := by
  intro colId hmem
  obtain ⟨acc, next, hround⟩ := Except.foldlM_rounds h colId hmem
  simp only [addPledgedValue, Except.bind_succeeds, Except.okOr_eq_ok, Except.refuseIf_eq_ok,
    not_not] at hround
  obtain ⟨col, hcol, _, howner, -⟩ := hround
  exact ⟨col, hcol, howner⟩

/-- Collateral never changes hands. -/
theorem CollateralEffect.keeps_owner {w w' : World} (h : CollateralEffect w w')
    (hsound : CollateralsSound w) {colId : Nat} {col : CollateralRecord}
    (hcol : w.collaterals.lookup colId = some col) :
    ∃ col', w'.collaterals.lookup colId = some col' ∧ col'.owner = col.owner := by
  cases h with
  | same hsame => exact ⟨col, hsame ▸ hcol, rfl⟩
  | register _ _ hinsert =>
      have hne : colId ≠ w.collateralCounter + 1 := by
        rintro rfl
        simp [hsound.next_fresh] at hcol
      exact ⟨col, by rw [hinsert, AList.lookup_insert_ne hne, hcol], rfl⟩
  | appraise _ hstored hinsert =>
      rw [hinsert, KeyedStore.lookup_insert]
      split
      next heq =>
        subst heq
        obtain rfl := Option.mem_unique hstored hcol
        exact ⟨_, rfl, rfl⟩
      next => exact ⟨col, hcol, rfl⟩
  | lock hlocked =>
      rw [lockCollaterals_lookup hlocked, hcol]
      refine ⟨_, rfl, ?_⟩
      split <;> rfl

/-- Every loan lists animals of its borrower only. -/
def BorrowersOwn (w : World) : Prop :=
  ∀ id loan, w.loans.lookup id = some loan → ∀ colId ∈ loan.collateralIds,
    ∃ col, w.collaterals.lookup colId = some col ∧ col.owner = loan.borrower

theorem BookEffect.borrowersOwn {env : Env} {call : Call} {w w' : World}
    (h : BookEffect asset env w call w') (hsound : CollateralsSound w) (hw : BorrowersOwn w) :
    BorrowersOwn w' := by
  -- What a loan of before lists is still there, with the same owner.
  have hkeeps : ∀ {colId : Nat} {owner : Address},
      (∃ col, w.collaterals.lookup colId = some col ∧ col.owner = owner) →
        ∃ col, w'.collaterals.lookup colId = some col ∧ col.owner = owner := by
    rintro colId _ ⟨col, hcol, rfl⟩
    exact h.collaterals.keeps_owner hsound hcol
  -- A payment changes neither what a loan lists nor whose it is.
  have hpaid : ∀ {loanId now : Nat} {c : Config} {loan paid : LoanRecord},
      w.loans.lookup loanId = some loan → loan.Payment c now paid →
        w'.loans = w.loans.insert loanId paid → BorrowersOwn w' := by
    intro loanId now c loan paid hstored hpayment hloans id loan' hloan' colId hmem
    obtain ⟨-, hids, hborrower, -⟩ := hpayment.terms
    rw [hloans] at hloan'
    rcases KeyedStore.lookup_insert_cases hloan' with ⟨rfl, rfl⟩ | ⟨-, hold⟩
    · rw [hborrower]
      exact hkeeps (hw _ loan hstored colId (hids ▸ hmem))
    · exact hkeeps (hw id loan' hold colId hmem)
  rcases h.loanCall with h | h | h | hloans
  case originate =>
    intro id loan' hloan' colId hmem
    rw [h.loan_lookup] at hloan'
    split at hloan'
    next =>
      obtain rfl := Option.some.inj hloan'
      exact hkeeps (pledgedValue_owned h.pledged colId hmem)
    next => exact hkeeps (hw id loan' hloan' colId hmem)
  case repay => exact hpaid h.stored h.payment (by rw [h.world])
  case liquidate => exact hpaid h.stored h.payment (by rw [h.world])
  case same =>
    intro id loan' hloan' colId hmem
    rw [hloans] at hloan'
    exact hkeeps (hw id loan' hloan' colId hmem)

theorem reachable_borrowersOwn {w : World} (h : (protocol asset).Reachable w) :
    BorrowersOwn w := by
  apply reachable_invariant BorrowersOwn (h := h)
  · intro timestamp ledger id loan hloan
    nomatch hloan
  · intro env call w w' hreach hw hrun
    exact (Call.run_bookEffect hrun).borrowersOwn (reachable_collaterals hreach) hw
  · intro w timestamp ledger hw _ _
    exact hw

/-! ## All references -/

/-- Ids without gaps, and no reference that dangles. -/
structure ReferencesSound (w : World) : Prop where
  loan_ids : ∀ id, (∃ loan, w.loans.lookup id = some loan) ↔ 1 ≤ id ∧ id ≤ w.loanCounter
  collateral_ids : ∀ colId,
    (∃ col, w.collaterals.lookup colId = some col) ↔ 1 ≤ colId ∧ colId ≤ w.collateralCounter
  loan_id : ∀ id loan, w.loans.lookup id = some loan → loan.id = id
  nonempty : ∀ id loan, w.loans.lookup id = some loan → loan.collateralIds ≠ []
  listed : ∀ id loan, w.loans.lookup id = some loan → ∀ colId ∈ loan.collateralIds,
    ∃ col, w.collaterals.lookup colId = some col ∧ col.owner = loan.borrower
  lock : ∀ colId col, w.collaterals.lookup colId = some col →
    col.loanId = 0 ∨ col.loanId ≤ w.loanCounter

theorem reachable_references {w : World} (h : (protocol asset).Reachable w) :
    ReferencesSound w where
  loan_ids := (reachable_ids h).1
  collateral_ids := (reachable_ids h).2
  loan_id id loan hloan := (reachable_numbered h id loan hloan).1
  nonempty id loan hloan := (reachable_loansBacked h id loan hloan).1
  listed := reachable_borrowersOwn h
  lock colId col hcol := by
    by_cases hlocked : col.loanId = 0
    · exact .inl hlocked
    · obtain ⟨loan, hloan, -⟩ := reachable_locksListed h colId col hcol hlocked
      exact .inr (reachable_numbered h _ loan hloan).2.2

/-- In every reachable world the references are sound, so the collateral of a stored
loan can always be fetched, record by record. -/
theorem references_sound {w : World} (hreach : (protocol asset).Reachable w) :
    ReferencesSound w ∧ ∀ id loan, w.loans.lookup id = some loan →
      ∃ cols, getLoanCollaterals w id = .ok cols ∧
        List.Forall₂ (fun colId col => w.collaterals.lookup colId = some col)
          loan.collateralIds cols := by
  have hsound := reachable_references hreach
  refine ⟨hsound, fun id loan hloan => ?_⟩
  have hlisted : ∀ colId ∈ loan.collateralIds, ∃ col,
      okOr (w.collaterals.lookup colId) (Failure.error .collateralNotFound) = .ok col := by
    intro colId hmem
    obtain ⟨col, hcol, -⟩ := hsound.listed id loan hloan colId hmem
    exact ⟨col, Except.okOr_eq_ok.mpr hcol⟩
  obtain ⟨cols, hfetched, hcols⟩ := Except.mapM_succeeds hlisted
  refine ⟨cols, ?_, hcols.imp fun _ _ hcol => Except.okOr_eq_ok.mp hcol⟩
  rw [getLoanCollaterals, hloan, Except.okOr_some, Except.bind_of_ok]
  exact hfetched

theorem sample_references_sound :
    ∃ w loan, w.loans.lookup 1 = some loan ∧ w.loanCounter = 1 ∧ ReferencesSound w ∧
      ∃ cols, getLoanCollaterals w 1 = .ok cols ∧
        List.Forall₂ (fun colId col => w.collaterals.lookup colId = some col)
          loan.collateralIds cols := by
  have hreach := Sample.after_reachable
    [Sample.initialization 6000 8000, Sample.registration 1000000, Sample.request 500000]
  have hsound := references_sound hreach
  exact ⟨_, _, rfl, rfl, hsound.1, hsound.2 1 _ rfl⟩

end StellarKraal
