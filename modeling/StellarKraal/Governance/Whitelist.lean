import StellarKraal.Foundation.History
import StellarKraal.Contract.GovernanceEffects
import StellarKraal.Contract.Unguarded

/-!
# The liquidator whitelist

The instance storage holds a counter, the persistent storage one entry for each
listed address. A counter of zero opens liquidation to everybody, so the two
must never disagree.
-/

namespace StellarKraal

open Except (refuseIf okOr)
open TransitionSystem (Transition Since)

variable {asset : AssetContract} {w w' : World}

/-! ## The counter -/

/-- The counter is the number of entries. -/
theorem reachable_wlCount (h : (protocol asset).Reachable w) :
    w.wlCount = w.whitelist.card := by
  apply reachable_invariant (fun w => w.wlCount = w.whitelist.card) (h := h)
  · intro timestamp ledger
    rfl
  · intro env call w w' _ hcount hrun
    rcases (Call.run_governanceEffect hrun).footprint.whitelisting with hsame | hedits
    · obtain ⟨hcount', hlist⟩ := Whitelisting.mk.inj hsame
      rw [hcount', hlist]
      exact hcount
    · cases call with
      | addLiquidator admin liquidator =>
          obtain ⟨-, -, -, -, ⟨-, rfl⟩ | ⟨hnew, -, rfl⟩⟩ := addLiquidator_ok hrun
          · exact hcount
          · show w.wlCount + 1 = (insert liquidator w.whitelist).card
            rw [Finset.card_insert_of_notMem hnew, hcount]
      | removeLiquidator admin liquidator =>
          obtain ⟨-, -, -, -, ⟨-, rfl⟩ | ⟨hmem, rfl⟩⟩ := removeLiquidator_ok hrun
          · exact hcount
          · show w.wlCount - 1 = (w.whitelist.erase liquidator).card
            rw [Finset.card_erase_of_mem hmem, hcount]
      | _ => exact hedits.elim
  · intro w timestamp ledger hcount _ _
    exact hcount

theorem isWhitelisted_iff (hcount : w.wlCount = w.whitelist.card) (a : Address) :
    isWhitelisted w a = true ↔ w.whitelist = ∅ ∨ a ∈ w.whitelist := by
  unfold isWhitelisted
  rw [hcount]
  by_cases hempty : w.whitelist = ∅ <;> simp [hempty]

/-! ## Which addresses are listed -/

def AddsLiquidator (asset : AssetContract) (a : Address) (t : Transition World Action) : Prop :=
  ∃ env admin, Executed asset t env (.addLiquidator admin a)

def RemovesLiquidator (asset : AssetContract) (a : Address) (t : Transition World Action) :
    Prop :=
  ∃ env admin, Executed asset t env (.removeLiquidator admin a)

/-- Some admin has added `a`, and none has removed it since. -/
def Listed (asset : AssetContract) (steps : List (Transition World Action)) (a : Address) : Prop :=
  Since (AddsLiquidator asset a) (fun u => ¬ RemovesLiquidator asset a u) steps

/-- What a step does to the entry of one address. -/
theorem step_mem_whitelist {s : Action} (step : (protocol asset).Step w s w') (a : Address) :
    a ∈ w'.whitelist ↔ AddsLiquidator asset a ⟨w, s, w'⟩ ∨
      a ∈ w.whitelist ∧ ¬ RemovesLiquidator asset a ⟨w, s, w'⟩ := by
  rcases protocol_step_cases step with ⟨env, call, hexec⟩ | ⟨hidle, timestamp, ledger, -, -, rfl⟩
  · have hadds : AddsLiquidator asset a ⟨w, s, w'⟩ ↔ ∃ admin, call = .addLiquidator admin a :=
      hexec.exists_iff _
    have hremoves : RemovesLiquidator asset a ⟨w, s, w'⟩ ↔
        ∃ admin, call = .removeLiquidator admin a := hexec.exists_iff _
    rw [hadds, hremoves]
    have hrun : call.run asset.client env w = .ok w' := hexec.run
    by_cases hedits : call.EditsWhitelist
    · cases call with
      | addLiquidator admin liquidator =>
          obtain ⟨-, -, -, -, ⟨hmem, rfl⟩ | ⟨-, -, rfl⟩⟩ := addLiquidator_ok hrun
          · have hkeeps : liquidator = a → a ∈ w'.whitelist := fun h => h ▸ hmem
            simpa using hkeeps
          · simp [World.publish, eq_comm]
      | removeLiquidator admin liquidator =>
          obtain ⟨-, -, -, -, ⟨habsent, rfl⟩ | ⟨-, rfl⟩⟩ := removeLiquidator_ok hrun
          · have hother : a ∈ w'.whitelist → ¬ liquidator = a := by
              rintro hmem rfl
              exact habsent hmem
            simpa using hother
          · simp [World.publish, and_comm, eq_comm]
      | _ => exact hedits.elim
    · have hsame := (Call.run_governanceEffect hrun).footprint.whitelisting.resolve_right hedits
      have hlist : w'.whitelist = w.whitelist := congrArg Whitelisting.whitelist hsame
      have hadd : ¬ ∃ admin, call = .addLiquidator admin a := by
        rintro ⟨_, rfl⟩
        exact hedits trivial
      have hremove : ¬ ∃ admin, call = .removeLiquidator admin a := by
        rintro ⟨_, rfl⟩
        exact hedits trivial
      simp [hlist, hadd, hremove]
  · have hadd : ¬ AddsLiquidator asset a ⟨w, s, { w with timestamp, ledger }⟩ := by
      rintro ⟨env, admin, h⟩
      exact hidle env _ h
    have hremove : ¬ RemovesLiquidator asset a ⟨w, s, { w with timestamp, ledger }⟩ := by
      rintro ⟨env, admin, h⟩
      exact hidle env _ h
    simp [hadd, hremove]

theorem mem_whitelist_iff {start : World} {steps : List (Transition World Action)}
    (hstart : (protocol asset).Initial start) (hrun : (protocol asset).Run start steps w)
    (a : Address) : a ∈ w.whitelist ↔ Listed asset steps a := by
  induction hrun with
  | nil =>
      obtain ⟨timestamp, ledger, rfl⟩ := hstart
      simp [Listed, World.deployed]
  | snoc prior step ih =>
      rw [step_mem_whitelist step, ih]
      exact Since.snoc_iff.symm

/-! ## The check of a liquidation -/

theorem computeHealthFactorWithThr_error {loan : LoanRecord} {thr : Nat} {f : Failure}
    (h : computeHealthFactorWithThr w loan thr = .error f) :
    f = .error .invalidAmount ∨ f = .trap := by
  have hround : ∀ value colId, addCurrentValue w value colId = .error f →
      f = .error .invalidAmount := by
    intro value colId h
    unfold addCurrentValue at h
    split at h
    · exact (Except.okOr_eq_error.mp h).2.symm
    · exact absurd h Except.pure_ne_error
  have hvalue : currentCollateralValue w loan.collateralIds = .error f →
      f = .error .invalidAmount := by
    intro h
    obtain ⟨value, colId, -, h⟩ := Except.foldlM_fails h
    exact hround value colId h
  unfold computeHealthFactorWithThr at h
  rcases Except.bind_fails.mp h with h | ⟨debt, -, h⟩
  · exact .inl (Except.okOr_eq_error.mp h).2.symm
  · split at h
    · exact absurd h Except.pure_ne_error
    · simp only [Except.bind_fails, Except.okOr_eq_error] at h
      rcases h with h | ⟨_, -, ⟨-, h⟩ | ⟨_, -, ⟨-, h⟩ | ⟨_, -, ⟨-, h⟩ | ⟨_, -, -, h⟩⟩⟩⟩
      · exact .inl (hvalue h)
      · exact .inl h.symm
      · exact .inl h.symm
      · exact .inr h.symm
      · exact .inr h.symm

/-- What `liquidate` checks before it looks at the whitelist. -/
structure ReachesWhitelistCheck (env : Env) (w : World) (liquidator : Address)
    (repayAmount : Int) : Prop where
  initialized : w.config ≠ none
  notPaused : isPausedRaw w = false
  positive : 0 < repayAmount
  authorized : liquidator ∈ env.signers

/-- A liquidation is refused by the whitelist exactly when it gets to the check
and the caller is not whitelisted. -/
theorem liquidate_refused_iff (hguard : w.guard = false) {env : Env} {liquidator : Address}
    {loanId : Nat} {repayAmount : Int} :
    liquidate asset.client env w liquidator loanId repayAmount =
        .error (.error .liquidatorNotWhitelisted) ↔
      ReachesWhitelistCheck env w liquidator repayAmount ∧
        isWhitelisted w liquidator = false := by
  -- Nothing after the check fails with its error, and nothing before it.
  have hhealth : ∀ v loan thr, computeHealthFactorWithThr v loan thr ≠
      .error (.error .liquidatorNotWhitelisted) := by
    intro v loan thr h
    rcases computeHealthFactorWithThr_error h with h | h <;> contradiction
  have htransfer : ∀ v token, asset.client.transfer v token liquidator .currentContract
      repayAmount ≠ .error (.error .liquidatorNotWhitelisted) := by
    intro v token h
    have := AssetContract.client_transfer_error h
    contradiction
  have hlisted : isWhitelisted w liquidator = false ↔
      w.wlCount > 0 ∧ liquidator ∉ w.whitelist := by
    unfold isWhitelisted
    split <;> simp_all [Nat.pos_iff_ne_zero]
  rw [hlisted]
  constructor
  · intro h
    simp only [liquidate, Except.bind_fails, ReentrancyGuard.new_eq_error,
      ReentrancyGuard.new_eq_ok, assertInitialized_eq_error, assertInitialized_eq_ok,
      assertNotPaused_eq_error, assertNotPaused_eq_ok, Except.refuseIf_eq_error,
      Except.refuseIf_eq_ok, Env.requireAuth_eq_error, Env.requireAuth_eq_ok,
      Except.okOr_eq_error, World.get_eq_error,
      Failure.error.injEq, reduceCtorEq, and_false, false_or, exists_false, or_false,
      Except.pure_eq_error, hhealth, htransfer, and_true, not_le] at h
    obtain ⟨_, ⟨-, rfl⟩, _, ⟨c, hc⟩, _, hpaused, _, hpos, _, hauth, hrefused⟩ := h
    exact ⟨⟨Option.ne_none_iff_exists'.mpr ⟨c, hc⟩, hpaused, hpos, hauth⟩, hrefused⟩
  · rintro ⟨⟨hinit, hpaused, hpos, hauth⟩, hrefused⟩
    have hpos : ¬ repayAmount ≤ 0 := hpos.not_ge
    have hpaused' : isPausedRaw { w with guard := true } = false := hpaused
    simp [liquidate, ReentrancyGuard.new, hguard, assertInitialized, hinit, assertNotPaused,
      hpaused', refuseIf, hpos, Env.requireAuth, hauth, hrefused]

/-- At the end of any run from deployment the counter is the number of entries.
An address may liquidate exactly if `is_whitelisted` says so, which is to say if
no address is listed or it is listed itself. -/
theorem whitelist_exact {start : World} {steps : List (Transition World Action)}
    (hstart : (protocol asset).Initial start) (hrun : (protocol asset).Run start steps w) :
    w.wlCount = w.whitelist.card ∧ ∀ a,
      (a ∈ w.whitelist ↔ Listed asset steps a) ∧
      (isWhitelisted w a = true ↔ (∀ b, ¬ Listed asset steps b) ∨ Listed asset steps a) ∧
      ∀ env loanId repayAmount,
        liquidate asset.client env w a loanId repayAmount =
            .error (.error .liquidatorNotWhitelisted) ↔
          ReachesWhitelistCheck env w a repayAmount ∧ ¬ isWhitelisted w a = true := by
  have hreach : (protocol asset).Reachable w := ⟨start, steps, hstart, hrun⟩
  have hcount := reachable_wlCount hreach
  have hlisted := mem_whitelist_iff hstart hrun
  refine ⟨hcount, fun a => ⟨hlisted a, ?_, ?_⟩⟩
  · rw [isWhitelisted_iff hcount, Finset.eq_empty_iff_forall_notMem]
    simp only [hlisted]
  · intro env loanId repayAmount
    rw [liquidate_refused_iff (reachable_unguarded hreach), Bool.not_eq_true]

/-- The keeper is listed twice and somebody unlisted removed; the counter is one
and the farmer may not liquidate. -/
theorem sample_whitelist_exact :
    ∃ steps w, (protocol .standard).Run Sample.world steps w ∧ w.wlCount = 1 ∧
      w.whitelist.card = 1 ∧ isWhitelisted w Sample.keeper = true ∧
      isWhitelisted w Sample.farmer = false ∧ Listed .standard steps Sample.keeper := by
  have hrun : (protocol .standard).Run Sample.world _ _ := Run.of_script
    [Sample.initialization 6000 8000,
      Sample.signedBy Sample.admin (.addLiquidator Sample.admin Sample.keeper),
      Sample.signedBy Sample.admin (.addLiquidator Sample.admin Sample.keeper),
      Sample.signedBy Sample.admin (.removeLiquidator Sample.admin Sample.farmer)] rfl
  obtain ⟨hcount, hlisted⟩ := whitelist_exact ⟨0, _, rfl⟩ hrun
  exact ⟨_, _, hrun, rfl, hcount.symm, rfl, rfl, (hlisted Sample.keeper).1.mp (by decide)⟩

end StellarKraal
