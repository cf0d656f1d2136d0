import StellarKraal.Contract.Protocol

/-!
# What a call does to the configuration

Every write to the fields `initialize` sets, by the call that makes it. The
admin calls carry the authorisation they checked.
-/

namespace StellarKraal

/-- The caller is the stored admin and signed the call. -/
structure AdminCall (env : Env) (w : World) (c : Config) (admin : Address) : Prop where
  config : w.config = some c
  isAdmin : c.admin = admin
  authorized : admin ∈ env.signers

/-- What an admin call has checked when it succeeds, as said of the stored admin. -/
theorem AdminCall.of_checked {env : Env} {w : World} {c : Config} {admin : Address}
    {effect : Config → Prop}
    (h : ∃ c', w.config = some c' ∧ c'.admin = admin ∧ admin ∈ env.signers ∧ effect c')
    (hc : w.config = some c) : AdminCall env w c c.admin := by
  obtain ⟨c', hc', rfl, hauth, -⟩ := h
  obtain rfl := Option.mem_unique hc hc'
  exact ⟨hc, rfl, hauth⟩

inductive ConfigEffect (env : Env) (w : World) : Call → World → Prop
  | initialized {admin oracle token treasury : Address} {ltvBps thrBps minQuorum : Nat}
      {w' : World} (hnone : w.config = none) (hpos : 0 < ltvBps) (hmax : ltvBps ≤ 9000)
      (hthr : ltvBps ≤ thrBps)
      (h : w'.config = some (initialConfig admin oracle token treasury ltvBps thrBps minQuorum)) :
      ConfigEffect env w
        (.initializeContract admin oracle token treasury ltvBps thrBps minQuorum) w'
  | ltv {admin : Address} {bps : Nat} {c : Config} {w' : World} (hadmin : AdminCall env w c admin)
      (hmin : 1000 ≤ bps) (hmax : bps ≤ 9000) (h : w'.config = some { c with ltv := bps }) :
      ConfigEffect env w (.setLtv admin bps) w'
  | liqThr {admin : Address} {bps : Nat} {c : Config} {w' : World}
      (hadmin : AdminCall env w c admin) (hpos : 0 < bps) (hmax : bps ≤ 10000)
      (h : w'.config = some { c with liqThr := bps }) :
      ConfigEffect env w (.setLiquidationThreshold admin bps) w'
  | closeFactor {admin : Address} {bps : Nat} {c : Config} {w' : World}
      (hadmin : AdminCall env w c admin) (hpos : 0 < bps) (hmax : bps ≤ 10000)
      (h : w'.config = some { c with closeFactor := bps }) :
      ConfigEffect env w (.setCloseFactor admin bps) w'
  | fees {admin : Address} {orig int : Nat} {c : Config} {w' : World}
      (hadmin : AdminCall env w c admin) (horig : orig ≤ 500) (hint : int ≤ 500)
      (h : w'.config = some { c with origFee := orig, intFee := int }) :
      ConfigEffect env w (.updateFeeConfig admin orig int) w'
  | oracle {admin newOracle : Address} {quorum : Nat} {c : Config} {w' : World}
      (hadmin : AdminCall env w c admin)
      (h : w'.config = some { c with
        oracle := newOracle, minQuorum := if quorum > 0 then quorum else c.minQuorum }) :
      ConfigEffect env w (.updateOracle admin newOracle quorum) w'
  | admin {newAdmin : Address} {c : Config} {w' : World} (hc : w.config = some c)
      (hpending : w.pendingAdmin = some newAdmin) (hauth : newAdmin ∈ env.signers)
      (h : w'.config = some { c with admin := newAdmin }) :
      ConfigEffect env w (.acceptAdminRole newAdmin) w'
  | prices {submitter : Address} {prices : List Int} {median twap : Int} {c : Config} {w' : World}
      (hc : w.config = some c) (h : w'.config = some (c.withPrice w median twap)) :
      ConfigEffect env w (.submitOraclePrices submitter prices) w'
  | price {oracle : Address} {price twap : Int} {c : Config} {w' : World}
      (hc : w.config = some c) (h : w'.config = some (c.withPrice w price twap)) :
      ConfigEffect env w (.submitPrice oracle price) w'
  | same {call : Call} {w' : World} (h : w'.config = w.config) : ConfigEffect env w call w'

theorem Call.run_configEffect {asset : AssetContract} {env : Env} {w w' : World} {call : Call}
    (h : call.run asset.client env w = .ok w') : ConfigEffect env w call w' := by
  cases call with
  | initializeContract =>
      obtain ⟨hnone, -, hpos, hmax, hthr, -, rfl⟩ := initializeContract_ok h
      exact .initialized hnone hpos hmax hthr rfl
  | pause =>
      obtain ⟨_, -, -, -, -, -, rfl⟩ := pause_ok h
      exact .same rfl
  | unpause =>
      obtain ⟨_, -, -, -, -, rfl⟩ := unpause_ok h
      exact .same rfl
  | setPauseDuration =>
      obtain ⟨_, -, -, -, -, rfl⟩ := setPauseDuration_ok h
      exact .same rfl
  | updateOracle =>
      obtain ⟨_, hc, hadmin, hauth, rfl⟩ := updateOracle_ok h
      exact .oracle ⟨hc, hadmin, hauth⟩ rfl
  | setAnimalCap =>
      obtain ⟨_, -, -, -, -, rfl⟩ := setAnimalCap_ok h
      exact .same rfl
  | setLiquidationThreshold =>
      obtain ⟨_, hc, hadmin, hauth, hpos, hmax, rfl⟩ := setLiquidationThreshold_ok h
      exact .liqThr ⟨hc, hadmin, hauth⟩ hpos hmax rfl
  | proposeNewAdmin =>
      obtain ⟨_, -, -, -, rfl⟩ := proposeNewAdmin_ok h
      exact .same rfl
  | acceptAdminRole =>
      obtain ⟨_, hc, hpending, hauth, rfl⟩ := acceptAdminRole_ok h
      exact .admin hc hpending hauth rfl
  | registerLivestock =>
      obtain ⟨_, h⟩ := Call.run_registerLivestock h
      obtain ⟨_, -, -, -, -, -, -, -, -, rfl⟩ := registerLivestock_ok h
      exact .same rfl
  | requestLoan =>
      obtain ⟨_, h⟩ := Call.run_requestLoan h
      obtain ⟨_, _, _, h⟩ := requestLoan_ok h
      exact .same (h.config_after.trans h.config.symm)
  | repayLoan =>
      obtain ⟨_, _, _, h⟩ := repayLoan_ok h
      exact .same (h.config_after.trans h.config.symm)
  | liquidate =>
      obtain ⟨_, _, _, h⟩ := liquidate_ok h
      exact .same (h.config_after.trans h.config.symm)
  | setCloseFactor =>
      obtain ⟨_, hc, hadmin, hauth, hpos, hmax, rfl⟩ := setCloseFactor_ok h
      exact .closeFactor ⟨hc, hadmin, hauth⟩ hpos hmax rfl
  | addLiquidator =>
      obtain ⟨_, -, -, -, ⟨-, rfl⟩ | ⟨-, -, rfl⟩⟩ := addLiquidator_ok h
      · exact .same rfl
      · exact .same rfl
  | removeLiquidator =>
      obtain ⟨_, -, -, -, ⟨-, rfl⟩ | ⟨-, rfl⟩⟩ := removeLiquidator_ok h
      · exact .same rfl
      · exact .same rfl
  | updateAppraisal =>
      obtain ⟨_, _, -, -, -, -, -, -, -, rfl⟩ := updateAppraisal_ok h
      exact .same rfl
  | updateFeeConfig =>
      obtain ⟨_, hc, hadmin, hauth, -, horig, hint, rfl⟩ := updateFeeConfig_ok h
      exact .fees ⟨hc, hadmin, hauth⟩ horig hint rfl
  | emergencyWithdraw =>
      obtain ⟨_, -, -, -, -, rfl⟩ := emergencyWithdraw_ok h
      exact .same rfl
  | setLtv =>
      obtain ⟨_, hc, hadmin, hauth, hmin, hmax, rfl⟩ := setLtv_ok h
      exact .ltv ⟨hc, hadmin, hauth⟩ hmin hmax rfl
  | addOracle =>
      obtain ⟨_, -, -, -, -, -, -, rfl⟩ := addOracle_ok h
      exact .same rfl
  | removeOracle =>
      obtain ⟨_, -, -, -, -, rfl⟩ := removeOracle_ok h
      exact .same rfl
  | submitOraclePrices =>
      obtain ⟨_, h⟩ := Call.run_submitOraclePrices h
      obtain ⟨_, _, hc, -, -, -, -, -, -, rfl⟩ := submitOraclePrices_ok h
      exact .prices hc rfl
  | submitPrice =>
      obtain ⟨_, _, hc, -, -, -, -, rfl⟩ := submitPrice_ok h
      exact .price hc rfl
  | proposeUpgrade =>
      obtain ⟨_, -, -, -, rfl⟩ := proposeUpgrade_ok h
      exact .same rfl
  | executeUpgrade =>
      obtain ⟨_, _, -, -, -, rfl⟩ := executeUpgrade_ok h
      exact .same rfl
  | cancelUpgrade =>
      obtain ⟨_, -, -, -, -, rfl⟩ := cancelUpgrade_ok h
      exact .same rfl
  | query =>
      obtain rfl := Except.pure_succeeds.mp h
      exact .same rfl

/-- Nothing uninitialises the contract. -/
theorem ConfigEffect.config_none {env : Env} {w w' : World} {call : Call}
    (h : ConfigEffect env w call w') (hnone : w'.config = none) : w.config = none := by
  cases h with
  | same h => exact h.symm.trans hnone
  | initialized _ _ _ _ h | ltv _ _ _ h | liqThr _ _ _ h | closeFactor _ _ _ h | fees _ _ _ h
  | oracle _ h | admin _ _ _ h | prices _ h | price _ h => simp [h] at hnone

/-! ## The token and the treasury -/

/-- Once initialised, the contract keeps its token and its treasury. -/
theorem ConfigEffect.keeps_token {env : Env} {w w' : World} {call : Call} {c : Config}
    (h : ConfigEffect env w call w') (hc : w.config = some c) :
    ∃ c', w'.config = some c' ∧ c'.token = c.token ∧ c'.treasury = c.treasury := by
  cases h with
  | initialized hnone => simp [hc] at hnone
  | ltv hadmin _ _ h | liqThr hadmin _ _ h | closeFactor hadmin _ _ h | fees hadmin _ _ h
  | oracle hadmin h =>
      obtain rfl := Option.mem_unique hc hadmin.config
      exact ⟨_, h, rfl, rfl⟩
  | admin hc' _ _ h | prices hc' h | price hc' h =>
      obtain rfl := Option.mem_unique hc hc'
      exact ⟨_, h, rfl, rfl⟩
  | same h => exact ⟨c, h.trans hc, rfl, rfl⟩

end StellarKraal
