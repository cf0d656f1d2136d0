import Mathlib.Data.Set.Card
import StellarKraal.Foundation.History
import StellarKraal.Lending.Locks
import StellarKraal.Lending.References

/-!
# Counting the collateral that is left

The count of an owner's collateral leaves out what was lost to liquidations, by the
loan that each record names. Every request overwrites that name. What was lost is
left out exactly as long as no request takes in lost collateral and no liquidation
ends a loan after another one has taken its collateral over.
-/

namespace StellarKraal

open Except (okOr)
open TransitionSystem (Transition Throughout)

/-- A loan that lists the collateral was liquidated. -/
def World.Lost (w : World) (colId : Nat) : Prop :=
  ∃ id loan, w.loans.lookup id = some loan ∧ loan.status = .liquidated ∧
    colId ∈ loan.collateralIds

/-- How many collateral records an owner has that are not lost. -/
noncomputable def World.remaining (w : World) (owner : Address) : Nat :=
  {colId | ∃ col, w.collaterals.lookup colId = some col ∧ col.owner = owner ∧
    ¬ w.Lost colId}.ncard

/-- The count is that of the remaining records, where a `u32` can hold it. -/
def CountExact (w : World) : Prop :=
  ∀ owner, getCollateralCount w owner =
    if w.remaining owner ≤ U32.MAX then .ok (w.remaining owner) else .error .trap

/-- The record names a loan that was liquidated. -/
def World.NamesLiquidated (w : World) (col : CollateralRecord) : Prop :=
  ∃ loan, w.loans.lookup col.loanId = some loan ∧ loan.status = .liquidated

/-- Whatever is lost names a liquidated loan. -/
def LossesNamed (w : World) : Prop :=
  ∀ colId col, w.collaterals.lookup colId = some col → w.Lost colId → w.NamesLiquidated col

/-- A request that is granted lists nothing that is lost, and a liquidation that ends
a loan finds all its collateral naming it, or another liquidated loan. -/
structure LossesKept (asset : AssetContract) (t : Transition World Action) : Prop where
  request : ∀ env borrower ids amount, Executed asset t env (.requestLoan borrower ids amount) →
    ∀ colId ∈ ids, ¬ t.before.Lost colId
  liquidate : ∀ env liquidator loanId amount loan,
    Executed asset t env (.liquidate liquidator loanId amount) →
      t.before.loans.lookup loanId = some loan → amount = loan.outstanding →
        ∀ colId ∈ loan.collateralIds, ∀ col, t.before.collaterals.lookup colId = some col →
          col.loanId = loanId ∨ t.before.NamesLiquidated col

variable {asset : AssetContract} {w w' : World}

/-! ## What the count counts -/

/-- The records the loop counts: the owner's that name no liquidated loan. -/
def World.Counted (w : World) (owner : Address) (colId : Nat) : Prop :=
  ∃ col, w.collaterals.lookup colId = some col ∧ col.owner = owner ∧ ¬ w.NamesLiquidated col

/-- Ids of loans start at one, so that the loop's test of the name is no restriction. -/
theorem isLiquidatedCollateral_iff (hnumbered : LoansNumbered w) (col : CollateralRecord) :
    isLiquidatedCollateral w col = true ↔ w.NamesLiquidated col := by
  unfold isLiquidatedCollateral World.NamesLiquidated
  cases hloan : w.loans.lookup col.loanId with
  | none => simp
  | some loan =>
      have hpos : col.loanId > 0 := (hnumbered _ _ hloan).2.1
      simp [hpos]

/-- As many ids have a property as a loop over the ids up to the counter finds. -/
theorem ncard_eq_countP {p : Nat → Prop} [DecidablePred p] {n : Nat}
    (hgiven : ∀ id, p id → 1 ≤ id ∧ id ≤ n) :
    {id | p id}.ncard = (List.range' 1 n).countP (p ·) := by
  have hset : {id | p id} = (((List.range' 1 n).filter (p ·)).toFinset : Set Nat) := by
    ext id
    simp only [Set.mem_ofPred_eq, List.coe_toFinset, List.mem_filter, List.mem_range'_1,
      decide_eq_true_eq]
    constructor
    · intro hid
      have hle := hgiven id hid
      exact ⟨by omega, hid⟩
    · exact fun hid => hid.2
  have hnodup : (List.range' 1 n).Nodup := List.nodup_range'
  rw [hset, Set.ncard_coe_finset, List.toFinset_card_of_nodup (hnodup.filter _),
    List.countP_eq_length_filter]

open Classical in
theorem getCollateralCount_eq (hreach : (protocol asset).Reachable w) (owner : Address) :
    getCollateralCount w owner =
      if {colId | w.Counted owner colId}.ncard ≤ U32.MAX then
        .ok {colId | w.Counted owner colId}.ncard
      else .error .trap := by
  have hnumbered := reachable_numbered hreach
  have hgiven : ∀ colId, w.Counted owner colId → 1 ≤ colId ∧ colId ≤ w.collateralCounter :=
    fun colId ⟨col, hcol, _⟩ => ((reachable_ids hreach).2 colId).mp ⟨col, hcol⟩
  rw [ncard_eq_countP hgiven, ← Nat.zero_add ((List.range' 1 w.collateralCounter).countP _)]
  apply Except.foldlM_count
  · rintro count id ⟨col, hcol, howner, hkept⟩
    have hflag : isLiquidatedCollateral w col = false := by
      rw [← Bool.not_eq_true, isLiquidatedCollateral_iff hnumbered]
      exact hkept
    simp only [hcol, howner, hflag, and_self, if_true, U32.checkedAdd]
    split <;> rfl
  · intro count id hnot
    cases hcol : w.collaterals.lookup id with
    | none => rfl
    | some col =>
        refine if_neg fun ⟨howner, hflag⟩ => hnot ⟨col, hcol, howner, ?_⟩
        rw [← isLiquidatedCollateral_iff hnumbered, hflag]
        exact Bool.false_ne_true
  · exact Nat.zero_le _

/-- What is counted and lost names no liquidated loan although one lists it. -/
theorem remaining_counted (hlisted : LocksListed w) (hnumbered : LoansNumbered w)
    {owner : Address} {colId : Nat} :
    (∃ col, w.collaterals.lookup colId = some col ∧ col.owner = owner ∧ ¬ w.Lost colId) →
      w.Counted owner colId := by
  rintro ⟨col, hcol, howner, hleft⟩
  refine ⟨col, hcol, howner, fun ⟨loan, hloan, hliquidated⟩ => hleft ?_⟩
  obtain ⟨loan', hloan', hmem⟩ := hlisted colId col hcol (hnumbered _ _ hloan).2.1.ne'
  obtain rfl := Option.mem_unique hloan hloan'
  exact ⟨_, loan, hloan, hliquidated, hmem⟩

theorem LossesNamed.countExact (hreach : (protocol asset).Reachable w) (h : LossesNamed w) :
    CountExact w := by
  intro owner
  have hsame : {colId | w.Counted owner colId} =
      {colId | ∃ col, w.collaterals.lookup colId = some col ∧ col.owner = owner ∧
        ¬ w.Lost colId} := by
    ext colId
    refine ⟨fun ⟨col, hcol, howner, hkept⟩ => ⟨col, hcol, howner, ?_⟩,
      remaining_counted (reachable_locksListed hreach) (reachable_numbered hreach)⟩
    exact fun hlost => hkept (h colId col hcol hlost)
  rw [getCollateralCount_eq hreach, hsame, World.remaining]

/-- Where a `u32` can count all records, only exact names give exact counts. -/
theorem CountExact.lossesNamed (hreach : (protocol asset).Reachable w)
    (hfits : w.collateralCounter ≤ U32.MAX) (h : CountExact w) : LossesNamed w := by
  classical
  intro colId col hcol hlost
  by_contra hstray
  have hgiven : ∀ id, w.Counted col.owner id → 1 ≤ id ∧ id ≤ w.collateralCounter :=
    fun id ⟨found, hfound, _⟩ => ((reachable_ids hreach).2 id).mp ⟨found, hfound⟩
  have hfinite : {id | w.Counted col.owner id}.Finite :=
    (Set.finite_le_nat w.collateralCounter).subset fun id hid => (hgiven id hid).2
  have hfew : {id | w.Counted col.owner id}.ncard ≤ U32.MAX := by
    rw [ncard_eq_countP hgiven]
    exact List.countP_le_length.trans (by rwa [List.length_range'])
  have hsubset : {id | ∃ found, w.collaterals.lookup id = some found ∧ found.owner = col.owner ∧
      ¬ w.Lost id} ⊆ {id | w.Counted col.owner id} :=
    fun _ => remaining_counted (reachable_locksListed hreach) (reachable_numbered hreach)
  have hcount := h col.owner
  rw [getCollateralCount_eq hreach, if_pos hfew] at hcount
  split at hcount
  next =>
    -- The remaining records are some of those counted, and as many.
    have hle : {id | w.Counted col.owner id}.ncard ≤ w.remaining col.owner :=
      (Except.ok.inj hcount).le
    have hsame := Set.eq_of_subset_of_ncard_le hsubset hle hfinite
    have hmem : colId ∈ {id | w.Counted col.owner id} := ⟨col, hcol, rfl, hstray⟩
    rw [← hsame] at hmem
    obtain ⟨_, -, -, hleft⟩ := hmem
    exact hleft hlost
  next => contradiction

/-! ## What a step does to the names -/

/-- Where no loan is newly liquidated, names stay as good as they were. -/
theorem KeepsPledges.lossesNamed (h : KeepsPledges w w') (hlocked : PledgesLocked w)
    (hsame : ∀ id loan', w'.loans.lookup id = some loan' → loan'.status = .liquidated →
      ∃ loan, w.loans.lookup id = some loan ∧ loan.status = .liquidated ∧
        loan'.collateralIds = loan.collateralIds)
    (hstays : ∀ id loan, w.loans.lookup id = some loan → loan.status = .liquidated →
      w'.loans.lookup id = some loan) (hw : LossesNamed w) : LossesNamed w' := by
  rintro colId col' hcol' ⟨id, loan', hloan', hliquidated', hmem⟩
  obtain ⟨loan, hloan, hliquidated, hids⟩ := hsame id loan' hloan' hliquidated'
  rw [hids] at hmem
  obtain ⟨col, hcol, -⟩ := hlocked id loan hloan colId hmem
  obtain ⟨found, hfound, hkept⟩ := h.lock_after colId col hcol
  obtain rfl := Option.mem_unique hcol' hfound
  obtain ⟨holder, hholder, hended⟩ := hw colId col hcol ⟨id, loan, hloan, hliquidated, hmem⟩
  exact ⟨holder, hkept ▸ hstays _ holder hholder hended, hended⟩

/-- A payment on an open loan that does not end it in liquidation. -/
theorem KeepsPledges.lossesNamed_payment (h : KeepsPledges w w') (hlocked : PledgesLocked w)
    {loanId : Nat} {loan loan' : LoanRecord} (hstored : w.loans.lookup loanId = some loan)
    (hactive : loan.status = .active) (hloans : w'.loans = w.loans.insert loanId loan')
    (hopen : loan'.status ≠ .liquidated) (hw : LossesNamed w) : LossesNamed w' := by
  refine h.lossesNamed hlocked ?_ ?_ hw
  · intro id found hfound hliquidated
    rw [hloans] at hfound
    rcases KeyedStore.lookup_insert_cases hfound with ⟨rfl, rfl⟩ | ⟨-, hold⟩
    · exact absurd hliquidated hopen
    · exact ⟨found, hold, hliquidated, rfl⟩
  · intro id found hfound hliquidated
    have hne : id ≠ loanId := by
      rintro rfl
      obtain rfl := Option.mem_unique hstored hfound
      simp [hactive] at hliquidated
    rw [hloans, AList.lookup_insert_ne hne, hfound]

/-- A request keeps the names of losses exactly when it lists none. -/
theorem Originated.lossesNamed_iff {env : Env} {borrower : Address} {ids : List Nat}
    {amount total : Int} {c : Config} {collaterals : KeyedStore Nat CollateralRecord} {loanId : Nat}
    (h : Originated env w borrower ids amount c total collaterals w' loanId)
    (hnumbered : LoansNumbered w) (hw : LossesNamed w) :
    LossesNamed w' ↔ ∀ colId ∈ ids, ¬ w.Lost colId := by
  have hother : ∀ id loan, w.loans.lookup id = some loan → w'.loans.lookup id = some loan := by
    intro id loan hloan
    have hne : id ≠ loanId := by
      rintro rfl
      rw [h.loanId_eq, hnumbered.next_fresh] at hloan
      contradiction
    rw [h.loan_lookup, if_neg hne, hloan]
  have hlost : ∀ colId, w'.Lost colId ↔ w.Lost colId := by
    intro colId
    constructor
    · rintro ⟨id, loan, hloan, hliquidated, hmem⟩
      rw [h.loan_lookup] at hloan
      split at hloan
      next =>
        obtain rfl := Option.some.inj hloan
        contradiction
      next => exact ⟨id, loan, hloan, hliquidated, hmem⟩
    · rintro ⟨id, loan, hloan, hliquidated, hmem⟩
      exact ⟨id, loan, hother id loan hloan, hliquidated, hmem⟩
  constructor
  -- What is listed names the new loan, which is open.
  · intro hw' colId hmem hbefore
    obtain ⟨col, hcol⟩ := lockCollaterals_stored h.locked colId hmem
    obtain ⟨loan, hloan, hliquidated⟩ := hw' colId { col with loanId }
      (by rw [h.collateral_lookup, hcol, Option.map_some, if_pos hmem]) ((hlost colId).mpr hbefore)
    obtain rfl := Option.mem_unique h.stored_after hloan
    contradiction
  · intro hnone colId col' hcol' hafter
    have hbefore := (hlost colId).mp hafter
    have hnot : colId ∉ ids := fun hmem => hnone colId hmem hbefore
    rw [h.collateral_lookup] at hcol'
    obtain ⟨col, hcol, rfl⟩ := Option.map_eq_some_iff.mp hcol'
    rw [if_neg hnot]
    obtain ⟨loan, hloan, hliquidated⟩ := hw colId col hcol hbefore
    exact ⟨loan, hother _ _ hloan, hliquidated⟩

/-- A liquidation keeps the names of losses exactly if, where it ends the loan, its
collateral names it or was lost before. -/
theorem LiquidatedBy.lossesNamed_iff {env : Env} {liquidator : Address} {loanId : Nat}
    {amount : Int} {c : Config} {loan : LoanRecord} {hf : Int}
    (h : LiquidatedBy env w liquidator loanId amount c loan hf w') (hlocked : PledgesLocked w)
    (hw : LossesNamed w) :
    LossesNamed w' ↔ (amount = loan.outstanding → ∀ colId ∈ loan.collateralIds, ∀ col,
      w.collaterals.lookup colId = some col → col.loanId = loanId ∨ w.NamesLiquidated col) := by
  have hids := h.payment.terms.2.1
  have hloans := congrArg World.loans h.world
  have hcollaterals : w'.collaterals = w.collaterals := by rw [h.world]
  have hkeeps : KeepsPledges w w' := .of_payment h.stored h.active hids hloans hcollaterals
  by_cases hends : amount = loan.outstanding
  · have hended : (closeIfLiquidated
        { loan with outstanding := loan.outstanding - amount }).status = .liquidated := by
      rw [closeIfLiquidated, if_pos (by simp [hends])]
    -- The names of loans that are liquidated now: this one, and those before it.
    have hnames : ∀ col, w'.NamesLiquidated col ↔ col.loanId = loanId ∨ w.NamesLiquidated col := by
      intro col
      by_cases hid : col.loanId = loanId
      · refine iff_of_true ⟨_, ?_, hended⟩ (.inl hid)
        rw [hid, h.stored_after]
      · rw [or_iff_right hid, World.NamesLiquidated, World.NamesLiquidated, hloans,
          AList.lookup_insert_ne hid]
    simp only [hends, forall_const]
    constructor
    · intro hw' colId hmem col hcol
      exact (hnames col).mp (hw' colId col (hcollaterals ▸ hcol)
        ⟨loanId, _, h.stored_after, hended, hids.symm ▸ hmem⟩)
    · rintro hnamed colId col hcol ⟨id, found, hfound, hliquidated, hmem⟩
      rw [hcollaterals] at hcol
      rw [hnames]
      rw [hloans] at hfound
      rcases KeyedStore.lookup_insert_cases hfound with ⟨rfl, rfl⟩ | ⟨-, hold⟩
      · exact hnamed colId (hids ▸ hmem) col hcol
      · exact .inr (hw colId col hcol ⟨id, found, hold, hliquidated, hmem⟩)
  · refine iff_of_true (hkeeps.lossesNamed_payment hlocked h.stored h.active hloans ?_ hw)
      fun h => absurd h hends
    have hleft : loan.outstanding - amount ≠ 0 := fun hzero => hends (by omega)
    rw [closeIfLiquidated, if_neg hleft, h.active]
    exact nofun

/-- The calls that write what losses are read from. -/
def Call.movesPledges : Call → Bool
  | .requestLoan .. | .liquidate .. => true
  | _ => false

section Executed

variable {t : Transition World Action} {env : Env}

theorem Executed.lossesKept_request {borrower : Address} {ids : List Nat} {amount : Int}
    (hexec : Executed asset t env (.requestLoan borrower ids amount)) :
    LossesKept asset t ↔ ∀ colId ∈ ids, ¬ t.before.Lost colId := by
  refine ⟨fun hkept => hkept.request _ _ _ _ hexec, fun hnone => ⟨?_, ?_⟩⟩
  · intro _ _ _ _ hexec'
    obtain ⟨-, rfl, -⟩ := Call.requestLoan.inj (hexec.only hexec')
    exact hnone
  · intro _ _ _ _ _ hother
    nomatch hexec.only hother

theorem Executed.lossesKept_liquidate {liquidator : Address} {loanId : Nat} {amount : Int}
    {loan : LoanRecord} (hexec : Executed asset t env (.liquidate liquidator loanId amount))
    (hstored : t.before.loans.lookup loanId = some loan) :
    LossesKept asset t ↔ (amount = loan.outstanding → ∀ colId ∈ loan.collateralIds, ∀ col,
      t.before.collaterals.lookup colId = some col →
        col.loanId = loanId ∨ t.before.NamesLiquidated col) := by
  refine ⟨fun hkept => hkept.liquidate _ _ _ _ _ hexec hstored, fun hnamed => ⟨?_, ?_⟩⟩
  · intro _ _ _ _ hother
    nomatch hexec.only hother
  · intro _ _ _ _ found hexec' hfound
    obtain ⟨-, rfl, rfl⟩ := Call.liquidate.inj (hexec.only hexec')
    obtain rfl := Option.mem_unique hstored hfound
    exact hnamed

theorem Executed.lossesKept_other {call : Call} (hexec : Executed asset t env call)
    (hother : call.movesPledges = false) : LossesKept asset t where
  request _ _ _ _ hexec' := by
    obtain rfl := hexec.only hexec'
    contradiction
  liquidate _ _ _ _ _ hexec' := by
    obtain rfl := hexec.only hexec'
    contradiction

end Executed

/-- The step lemma, in both directions. -/
theorem step_lossesNamed_iff {a : Action} (hreach : (protocol asset).Reachable w)
    (hstep : (protocol asset).Step w a w') (hw : LossesNamed w) :
    LossesNamed w' ↔ LossesKept asset ⟨w, a, w'⟩ := by
  have hlocked := reachable_pledgesLocked hreach
  rcases protocol_step_cases hstep with ⟨env, call, hexec⟩ | ⟨hidle, timestamp, ledger, -, -, rfl⟩
  · cases hmoves : call.movesPledges with
    | true =>
        cases call with
        | requestLoan borrower ids amount =>
            obtain ⟨loanId, hrun⟩ := Call.run_requestLoan hexec.run
            obtain ⟨c, total, collaterals, h⟩ := requestLoan_ok hrun
            rw [h.lossesNamed_iff (reachable_numbered hreach) hw, hexec.lossesKept_request]
        | liquidate liquidator loanId amount =>
            obtain ⟨c, loan, hf, h⟩ := liquidate_ok hexec.run
            rw [h.lossesNamed_iff hlocked hw, hexec.lossesKept_liquidate h.stored]
        | _ => contradiction
    | false =>
        refine iff_of_true ?_ (hexec.lossesKept_other hmoves)
        have heffect := Call.run_bookEffect hexec.run
        rcases heffect.pledges (reachable_collaterals hreach) with
          hkeeps | ⟨_, _, _, _, _, _, _, rfl, -⟩
        · cases heffect.loanCall with
          | originate | liquidate => contradiction
          | @repay _ _ _ _ _ r _ h =>
              have hopen : r.loan.status = .active := by
                rw [h.splits.loan]
                exact h.active
              refine hkeeps.lossesNamed_payment hlocked h.stored h.active
                (congrArg World.loans h.world) ?_ hw
              unfold closeIfRepaid
              split
              · exact nofun
              · rw [hopen]
                exact nofun
          | same hloans =>
              exact hkeeps.lossesNamed hlocked
                (fun _ loan hloan hliquidated => ⟨loan, hloans ▸ hloan, hliquidated, rfl⟩)
                (fun _ _ hloan _ => hloans ▸ hloan) hw
        · contradiction
  · exact iff_of_true hw ⟨fun _ _ _ _ hexec => absurd hexec (hidle _ _),
      fun _ _ _ _ _ hexec => absurd hexec (hidle _ _)⟩

/-! ## Runs -/

theorem CollateralEffect.counter_le (h : CollateralEffect w w') :
    w.collateralCounter ≤ w'.collateralCounter := by
  cases h with
  | same _ hcounter | appraise _ _ _ hcounter | lock _ hcounter => exact hcounter.ge
  | register _ _ _ hcounter => exact hcounter ▸ Nat.le_succ _

theorem run_counter_le {start : World} {steps : List (Transition World Action)}
    (hrun : (protocol asset).Run start steps w) :
    start.collateralCounter ≤ w.collateralCounter := by
  induction hrun with
  | nil => exact le_rfl
  | snoc prior step ih =>
      rcases protocol_step_cases step with ⟨env, call, hexec⟩ | ⟨-, timestamp, ledger, -, -, rfl⟩
      · exact ih.trans (Call.run_bookEffect hexec.run).collaterals.counter_le
      · exact ih

/-- In a run whose steps all keep losses named, every count in every state it passes
through is exact. As long as a `u32` can count the records at all, no other run is so. -/
theorem counts_exact_of_losses_kept {start : World} {steps : List (Transition World Action)}
    (hstart : (protocol asset).Initial start) (hrun : (protocol asset).Run start steps w) :
    ((∀ t ∈ steps, LossesKept asset t) →
      (protocol asset).Throughout start steps fun _ w => CountExact w) ∧
    (w.collateralCounter ≤ U32.MAX →
      ((protocol asset).Throughout start steps (fun _ w => CountExact w) →
        ∀ t ∈ steps, LossesKept asset t)) := by
  have hreach := TransitionSystem.Reachable.of_initial hstart
  have hdeployed : LossesNamed start := by
    obtain ⟨timestamp, ledger, rfl⟩ := hstart
    exact fun _ _ hcol => nomatch hcol
  have hnamed := Throughout.iff_forall (P := fun _ w => LossesNamed w) hrun (LossesKept asset)
    hdeployed fun earlier s a s' hearlier hs hstep =>
      step_lossesNamed_iff (hreach.run hearlier) hstep hs
  rw [← hnamed]
  constructor
  · intro hall earlier s hprefix hs
    exact (hall earlier s hprefix hs).countExact (hreach.run hs)
  · rintro hfits hall earlier s ⟨rest, rfl⟩ hs
    have hle : s.collateralCounter ≤ w.collateralCounter := by
      obtain ⟨middle, hfirst, hrest⟩ := hrun.of_append
      obtain rfl := hs.unique hfirst
      exact run_counter_le hrest
    exact (hall earlier s ⟨rest, rfl⟩ hs).lossesNamed (hreach.run hs) (hle.trans hfits)

/-- The one herd of a loan that is liquidated is not counted any more. -/
theorem sample_counts_exact :
    ∃ steps w, (protocol .standard).Run Sample.world steps w ∧
      (w.loans.lookup 1).map (·.status) = some .liquidated ∧
      (∀ t ∈ steps, LossesKept .standard t) ∧
      CountExact w ∧ getCollateralCount w Sample.farmer = .ok 0 := by
  have hrun : (protocol .standard).Run Sample.world
      [⟨_, _, _⟩, ⟨_, _, _⟩, ⟨_, _, _⟩, ⟨_, _, _⟩, ⟨_, _, _⟩, ⟨_, _, _⟩] _ :=
    Run.of_script Sample.liquidation rfl
  refine ⟨_, _, hrun, rfl, ?kept, (counts_exact_of_losses_kept ⟨0, _, rfl⟩ hrun).1 ?kept _ _
    (List.prefix_refl _) hrun, rfl⟩
  have hother : ∀ {w w' : World} {signer : Address} {call : Call},
      call.run AssetContract.standard.client ⟨[signer]⟩ w = .ok w' → call.movesPledges = false →
        LossesKept .standard ⟨w, Sample.signedBy signer call, w'⟩ :=
    fun hrun => Executed.lossesKept_other ⟨rfl, hrun⟩
  refine List.forall_mem_cons.mpr ⟨hother rfl rfl, List.forall_mem_cons.mpr
    ⟨hother rfl rfl, List.forall_mem_cons.mpr ⟨?_, List.forall_mem_cons.mpr
      ⟨hother rfl rfl, List.forall_mem_cons.mpr ⟨hother rfl rfl,
        List.forall_mem_singleton.mpr ?_⟩⟩⟩⟩⟩
  -- The request finds no loan at all, and the liquidation a herd that names its loan.
  · refine (@Executed.lossesKept_request _ _ ⟨[Sample.farmer]⟩ _ _ _ ⟨rfl, rfl⟩).mpr ?_
    rintro colId - ⟨id, loan, hloan, -⟩
    nomatch hloan
  · refine (@Executed.lossesKept_liquidate _ _ ⟨[Sample.keeper]⟩ _ _ _ _ ⟨rfl, rfl⟩ rfl).mpr ?_
    intro _ colId hmem col hcol
    obtain rfl := List.mem_singleton.mp hmem
    obtain rfl := Option.some.inj hcol
    exact .inl rfl

/-- A herd pledged to two loans, the first of which is liquidated, is still counted. -/
theorem lost_herd_counted :
    ¬ ∀ (asset : AssetContract) (w : World), (protocol asset).Reachable w → CountExact w := by
  intro hexact
  have hreach := Sample.after_reachable [Sample.initialization 6000 8000,
    Sample.registration 1000000, Sample.request 600000, Sample.request 600000,
    Sample.signedBy Sample.admin (.setCloseFactor Sample.admin 10000),
    Sample.signedBy Sample.admin (.setLiquidationThreshold Sample.admin 5000),
    Sample.signedBy Sample.keeper (.liquidate Sample.keeper 1 600000)]
  have hnamed := (hexact .standard _ hreach).lossesNamed hreach (by decide)
  obtain ⟨loan, hloan, hliquidated⟩ := hnamed 1 _ rfl ⟨1, _, rfl, rfl, by decide⟩
  obtain rfl := Option.mem_unique rfl hloan
  contradiction

end StellarKraal
