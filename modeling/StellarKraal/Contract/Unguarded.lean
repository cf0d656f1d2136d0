import StellarKraal.Contract.Protocol

/-!
# Calls that never leave the contract

Four calls reach the token, and three of them hold the reentrancy guard meanwhile.
All others neither read nor write what those three keep in hand: the guard itself,
the loans and their counter. Nor do they look at balances or past events.
-/

namespace StellarKraal

open Except (refuseIf okOr)

/-- The calls that create a `ReentrancyGuard`. -/
def Call.guarded : Call → Bool
  | .requestLoan .. | .repayLoan .. | .liquidate .. => true
  | _ => false

/-- The calls that transfer tokens. -/
def Call.callsToken : Call → Bool
  | .emergencyWithdraw .. => true
  | call => call.guarded

/-- The world without guard, loans, balances and events. -/
def World.core (w : World) : World :=
  { w with guard := false, ledger := fun _ _ => 0, events := [], loans := ∅, loanCounter := 0 }

/-- What a guarded call keeps in hand, and the balances. -/
structure Held where
  guard : Bool
  ledger : Ledger
  loans : KeyedStore Nat LoanRecord
  loanCounter : Nat

def World.held (w : World) : Held := ⟨w.guard, w.ledger, w.loans, w.loanCounter⟩

variable {client : TokenClient} {env : Env} {w w' : World} {call : Call}

theorem run_client_eq (client' : TokenClient) (h : call.callsToken = false) :
    call.run client env w = call.run client' env w := by
  cases call with
  | requestLoan | repayLoan | liquidate | emergencyWithdraw => contradiction
  | _ => rfl

/-- The core alone decides the outcome and its core; the rest is handed through. -/
theorem run_core_held (h : call.callsToken = false) :
    (call.run client env w).map (fun w' => (w'.core, w'.held)) =
      (call.run client env w.core).map fun w' => (w'.core, w.held) := by
  -- With the map at the end of each block, both sides make the same checks and writes.
  cases call with
  | requestLoan | repayLoan | liquidate | emergencyWithdraw => contradiction
  | query => rfl
  | updateOracle =>
      simp only [Call.run, StellarKraal.updateOracle, Except.map_bind]
      split <;> rfl
  | addLiquidator admin liquidator =>
      simp only [Call.run, StellarKraal.addLiquidator, Except.map_bind]
      refine congrArg (requireAdmin env w admin >>= ·) (funext fun _ => ?_)
      by_cases hmem : liquidator ∈ w.whitelist
      · rw [if_pos hmem, if_pos (show liquidator ∈ w.core.whitelist from hmem)]
        rfl
      · rw [if_neg hmem, if_neg (show liquidator ∉ w.core.whitelist from hmem)]
        simp only [Except.map_bind]
        rfl
  | removeLiquidator admin liquidator =>
      simp only [Call.run, StellarKraal.removeLiquidator, Except.map_bind]
      refine congrArg (requireAdmin env w admin >>= ·) (funext fun _ => ?_)
      by_cases hmem : liquidator ∈ w.whitelist
      · rw [if_neg (not_not.mpr hmem),
          if_neg (show ¬ liquidator ∉ w.core.whitelist from not_not.mpr hmem)]
        rfl
      · rw [if_pos hmem, if_pos (show liquidator ∉ w.core.whitelist from hmem)]
        rfl
  | initializeContract =>
      simp only [Call.run, StellarKraal.initializeContract, Except.map_bind]
      rfl
  | pause =>
      simp only [Call.run, StellarKraal.pause, Except.map_bind]
      rfl
  | unpause =>
      simp only [Call.run, StellarKraal.unpause, Except.map_bind]
      rfl
  | setPauseDuration =>
      simp only [Call.run, StellarKraal.setPauseDuration, Except.map_bind]
      rfl
  | setAnimalCap =>
      simp only [Call.run, StellarKraal.setAnimalCap, Except.map_bind]
      rfl
  | setLiquidationThreshold =>
      simp only [Call.run, StellarKraal.setLiquidationThreshold, Except.map_bind]
      rfl
  | proposeNewAdmin =>
      simp only [Call.run, StellarKraal.proposeNewAdmin, Except.map_bind]
      rfl
  | acceptAdminRole =>
      simp only [Call.run, StellarKraal.acceptAdminRole, Except.map_bind]
      rfl
  | registerLivestock =>
      simp only [Call.run, StellarKraal.registerLivestock, bind_assoc, pure_bind, Except.map_bind]
      rfl
  | setCloseFactor =>
      simp only [Call.run, StellarKraal.setCloseFactor, Except.map_bind]
      rfl
  | updateAppraisal =>
      simp only [Call.run, StellarKraal.updateAppraisal, Except.map_bind]
      rfl
  | updateFeeConfig =>
      simp only [Call.run, StellarKraal.updateFeeConfig, Except.map_bind]
      rfl
  | setLtv =>
      simp only [Call.run, StellarKraal.setLtv, Except.map_bind]
      rfl
  | addOracle =>
      simp only [Call.run, StellarKraal.addOracle, Except.map_bind]
      rfl
  | removeOracle =>
      simp only [Call.run, StellarKraal.removeOracle, Except.map_bind]
      rfl
  | submitOraclePrices =>
      simp only [Call.run, StellarKraal.submitOraclePrices, storePrice, bind_assoc, pure_bind,
        Except.map_bind]
      rfl
  | submitPrice =>
      simp only [Call.run, StellarKraal.submitPrice, storePrice, bind_assoc, pure_bind,
        Except.map_bind]
      rfl
  | proposeUpgrade =>
      simp only [Call.run, StellarKraal.proposeUpgrade, Except.map_bind]
      rfl
  | executeUpgrade =>
      simp only [Call.run, StellarKraal.executeUpgrade, Except.map_bind]
      rfl
  | cancelUpgrade =>
      simp only [Call.run, StellarKraal.cancelUpgrade, Except.map_bind]
      rfl

theorem run_core_succeeds (h : call.callsToken = false) (hrun : call.run client env w = .ok w') :
    w'.held = w.held ∧ ∃ u, call.run client env w.core = .ok u ∧ u.core = w'.core := by
  have hparts := @run_core_held client env w call h
  rw [hrun] at hparts
  cases hcore : call.run client env w.core with
  | error e => simp [hcore, Except.map] at hparts
  | ok u =>
      rw [hcore] at hparts
      simp only [Except.map, Except.ok.injEq, Prod.mk.injEq] at hparts
      exact ⟨hparts.2, u, rfl, hparts.1.symm⟩

/-- What the call leaves alone. -/
theorem run_held (h : call.callsToken = false) (hrun : call.run client env w = .ok w') :
    w'.held = w.held :=
  (run_core_succeeds h hrun).1

/-- From another world with the same core the call goes the same way. -/
theorem run_of_core_eq {v : World} (h : call.callsToken = false) (hcore : v.core = w.core)
    (hrun : call.run client env w = .ok w') :
    ∃ v', call.run client env v = .ok v' ∧ v'.core = w'.core ∧ v'.held = v.held := by
  obtain ⟨-, u, hu, hucore⟩ := run_core_succeeds h hrun
  have hparts := @run_core_held client env v call h
  rw [hcore, hu] at hparts
  cases hv : call.run client env v with
  | error e => simp [hv, Except.map] at hparts
  | ok v' =>
      rw [hv] at hparts
      simp only [Except.map, Except.ok.injEq, Prod.mk.injEq] at hparts
      exact ⟨v', rfl, hparts.1.trans hucore, hparts.2⟩

variable {asset : AssetContract}

/-- Over a standard asset the guard is down whenever no call is running. -/
theorem reachable_unguarded (h : (protocol asset).Reachable w) : w.guard = false := by
  apply reachable_invariant (fun w => w.guard = false) (h := h)
  · intro timestamp ledger
    rfl
  · intro env call w w' _ hw hrun
    cases hcall : call.callsToken with
    | false => exact (congrArg Held.guard (run_held hcall hrun)).trans hw
    | true =>
        cases call with
        | requestLoan =>
            obtain ⟨_, hrun⟩ := Call.run_requestLoan hrun
            obtain ⟨_, _, _, h⟩ := requestLoan_ok hrun
            rw [h.world]
        | repayLoan =>
            obtain ⟨_, _, _, h⟩ := repayLoan_ok hrun
            rw [h.world]
        | liquidate =>
            obtain ⟨_, _, _, h⟩ := liquidate_ok hrun
            rw [h.world]
        | emergencyWithdraw =>
            obtain ⟨_, -, -, -, -, rfl⟩ := emergencyWithdraw_ok hrun
            exact hw
        | _ => contradiction
  · intro w timestamp ledger hw _ _
    exact hw

end StellarKraal
