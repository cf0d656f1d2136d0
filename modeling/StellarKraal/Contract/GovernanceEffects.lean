import StellarKraal.Contract.Protocol

/-!
# What a call does to the rest of the instance storage

Pause state, registries, caps and upgrade slots. Each of the calls that write
them is named with its run; every other call leaves all of them alone.
-/

namespace StellarKraal

/-- The fields of the world that only these calls write. -/
structure Governance where
  wasm : Option Nat
  paused : Bool
  pauseExp : Nat
  pauseDur : Nat
  oracles : Option (List Address)
  pendingAdmin : Option Address
  wlCount : Nat
  whitelist : Finset Address
  animalCaps : KeyedStore Symbol Int
  pendingWasm : Option Nat
  upgradeTime : Option Nat

def World.governance (w : World) : Governance :=
  ⟨w.wasm, w.paused, w.pauseExp, w.pauseDur, w.oracles, w.pendingAdmin, w.wlCount, w.whitelist,
    w.animalCaps, w.pendingWasm, w.upgradeTime⟩

inductive GovernanceEffect (env : Env) (w : World) : Call → World → Prop
  | pause {admin : Address} {w' : World} (h : StellarKraal.pause env w admin = .ok w') :
      GovernanceEffect env w (.pause admin) w'
  | unpause {admin : Address} {w' : World} (h : StellarKraal.unpause env w admin = .ok w') :
      GovernanceEffect env w (.unpause admin) w'
  | setPauseDuration {admin : Address} {duration : Nat} {w' : World}
      (h : StellarKraal.setPauseDuration env w admin duration = .ok w') :
      GovernanceEffect env w (.setPauseDuration admin duration) w'
  | setAnimalCap {admin : Address} {animalType : Symbol} {cap : Int} {w' : World}
      (h : StellarKraal.setAnimalCap env w admin animalType cap = .ok w') :
      GovernanceEffect env w (.setAnimalCap admin animalType cap) w'
  | proposeNewAdmin {admin newAdmin : Address} {w' : World}
      (h : StellarKraal.proposeNewAdmin env w admin newAdmin = .ok w') :
      GovernanceEffect env w (.proposeNewAdmin admin newAdmin) w'
  | acceptAdminRole {newAdmin : Address} {w' : World}
      (h : StellarKraal.acceptAdminRole env w newAdmin = .ok w') :
      GovernanceEffect env w (.acceptAdminRole newAdmin) w'
  | addLiquidator {admin liquidator : Address} {w' : World}
      (h : StellarKraal.addLiquidator env w admin liquidator = .ok w') :
      GovernanceEffect env w (.addLiquidator admin liquidator) w'
  | removeLiquidator {admin liquidator : Address} {w' : World}
      (h : StellarKraal.removeLiquidator env w admin liquidator = .ok w') :
      GovernanceEffect env w (.removeLiquidator admin liquidator) w'
  | addOracle {admin oracle : Address} {w' : World}
      (h : StellarKraal.addOracle env w admin oracle = .ok w') :
      GovernanceEffect env w (.addOracle admin oracle) w'
  | removeOracle {admin oracle : Address} {w' : World}
      (h : StellarKraal.removeOracle env w admin oracle = .ok w') :
      GovernanceEffect env w (.removeOracle admin oracle) w'
  | proposeUpgrade {admin : Address} {hash : Nat} {w' : World}
      (h : StellarKraal.proposeUpgrade env w admin hash = .ok w') :
      GovernanceEffect env w (.proposeUpgrade admin hash) w'
  | executeUpgrade {w' : World} (h : StellarKraal.executeUpgrade w = .ok w') :
      GovernanceEffect env w .executeUpgrade w'
  | cancelUpgrade {admin : Address} {w' : World}
      (h : StellarKraal.cancelUpgrade env w admin = .ok w') :
      GovernanceEffect env w (.cancelUpgrade admin) w'
  | same {call : Call} {w' : World} (h : w'.governance = w.governance) :
      GovernanceEffect env w call w'

theorem Call.run_governanceEffect {asset : AssetContract} {env : Env} {w w' : World} {call : Call}
    (h : call.run asset.client env w = .ok w') : GovernanceEffect env w call w' := by
  cases call with
  | pause => exact .pause h
  | unpause => exact .unpause h
  | setPauseDuration => exact .setPauseDuration h
  | setAnimalCap => exact .setAnimalCap h
  | proposeNewAdmin => exact .proposeNewAdmin h
  | acceptAdminRole => exact .acceptAdminRole h
  | addLiquidator => exact .addLiquidator h
  | removeLiquidator => exact .removeLiquidator h
  | addOracle => exact .addOracle h
  | removeOracle => exact .removeOracle h
  | proposeUpgrade => exact .proposeUpgrade h
  | executeUpgrade => exact .executeUpgrade h
  | cancelUpgrade => exact .cancelUpgrade h
  | initializeContract =>
      obtain ⟨-, -, -, -, -, -, rfl⟩ := initializeContract_ok h
      exact .same rfl
  | updateOracle =>
      obtain ⟨_, -, -, -, rfl⟩ := updateOracle_ok h
      exact .same rfl
  | setLiquidationThreshold =>
      obtain ⟨_, -, -, -, -, -, rfl⟩ := setLiquidationThreshold_ok h
      exact .same rfl
  | registerLivestock =>
      obtain ⟨_, h⟩ := Call.run_registerLivestock h
      obtain ⟨_, -, -, -, -, -, -, -, -, rfl⟩ := registerLivestock_ok h
      exact .same rfl
  | requestLoan =>
      obtain ⟨_, h⟩ := Call.run_requestLoan h
      obtain ⟨_, _, _, h⟩ := requestLoan_ok h
      obtain rfl := h.world
      exact .same rfl
  | repayLoan =>
      obtain ⟨_, _, _, h⟩ := repayLoan_ok h
      obtain rfl := h.world
      exact .same rfl
  | liquidate =>
      obtain ⟨_, _, _, h⟩ := liquidate_ok h
      obtain rfl := h.world
      exact .same rfl
  | setCloseFactor =>
      obtain ⟨_, -, -, -, -, -, rfl⟩ := setCloseFactor_ok h
      exact .same rfl
  | updateAppraisal =>
      obtain ⟨_, _, -, -, -, -, -, -, -, rfl⟩ := updateAppraisal_ok h
      exact .same rfl
  | updateFeeConfig =>
      obtain ⟨_, -, -, -, -, -, -, rfl⟩ := updateFeeConfig_ok h
      exact .same rfl
  | emergencyWithdraw =>
      obtain ⟨_, -, -, -, -, rfl⟩ := emergencyWithdraw_ok h
      exact .same rfl
  | setLtv =>
      obtain ⟨_, -, -, -, -, -, rfl⟩ := setLtv_ok h
      exact .same rfl
  | submitOraclePrices =>
      obtain ⟨_, h⟩ := Call.run_submitOraclePrices h
      obtain ⟨_, _, -, -, -, -, -, -, -, rfl⟩ := submitOraclePrices_ok h
      exact .same rfl
  | submitPrice =>
      obtain ⟨_, _, -, -, -, -, -, rfl⟩ := submitPrice_ok h
      exact .same rfl
  | query =>
      obtain rfl := Except.pure_succeeds.mp h
      exact .same rfl

/-! ## Which call writes what -/

/-- The installed code and the proposal to replace it. -/
structure UpgradeSlots where
  wasm : Option Nat
  pendingWasm : Option Nat
  upgradeTime : Option Nat

def World.upgrade (w : World) : UpgradeSlots := ⟨w.wasm, w.pendingWasm, w.upgradeTime⟩

/-- The liquidator whitelist and the counter beside it. -/
structure Whitelisting where
  wlCount : Nat
  whitelist : Finset Address

def World.whitelisting (w : World) : Whitelisting := ⟨w.wlCount, w.whitelist⟩

/-- The pause flag and its expiry. -/
structure PauseSwitch where
  paused : Bool
  pauseExp : Nat

def World.pauseSwitch (w : World) : PauseSwitch := ⟨w.paused, w.pauseExp⟩

/-- The calls of the two-step upgrade. -/
def Call.UpgradesCode : Call → Prop
  | .proposeUpgrade _ _ | .executeUpgrade | .cancelUpgrade _ => True
  | _ => False

/-- The calls of the two-step admin transfer. -/
def Call.MovesAdmin : Call → Prop
  | .proposeNewAdmin _ _ | .acceptAdminRole _ => True
  | _ => False

def Call.EditsOracles : Call → Prop
  | .addOracle _ _ | .removeOracle _ _ => True
  | _ => False

def Call.EditsWhitelist : Call → Prop
  | .addLiquidator _ _ | .removeLiquidator _ _ => True
  | _ => False

def Call.SwitchesPause : Call → Prop
  | .pause _ | .unpause _ => True
  | _ => False

def Call.SetsPauseDuration : Call → Prop
  | .setPauseDuration _ _ => True
  | _ => False

/-- Each group of fields has its own calls; no other call writes it. -/
structure GovernanceFootprint (w : World) (call : Call) (w' : World) : Prop where
  upgrade : w'.upgrade = w.upgrade ∨ call.UpgradesCode
  pendingAdmin : w'.pendingAdmin = w.pendingAdmin ∨ call.MovesAdmin
  oracles : w'.oracles = w.oracles ∨ call.EditsOracles
  whitelisting : w'.whitelisting = w.whitelisting ∨ call.EditsWhitelist
  pauseSwitch : w'.pauseSwitch = w.pauseSwitch ∨ call.SwitchesPause
  pauseDur : w'.pauseDur = w.pauseDur ∨ call.SetsPauseDuration

theorem GovernanceFootprint.of_same {w w' : World} (h : w'.governance = w.governance)
    (call : Call) : GovernanceFootprint w call w' := by
  have hupgrade : w'.upgrade = w.upgrade :=
    congrArg (fun g => UpgradeSlots.mk g.wasm g.pendingWasm g.upgradeTime) h
  have hwhitelisting : w'.whitelisting = w.whitelisting :=
    congrArg (fun g => Whitelisting.mk g.wlCount g.whitelist) h
  have hswitch : w'.pauseSwitch = w.pauseSwitch :=
    congrArg (fun g => PauseSwitch.mk g.paused g.pauseExp) h
  exact ⟨.inl hupgrade, .inl (congrArg Governance.pendingAdmin h),
    .inl (congrArg Governance.oracles h), .inl hwhitelisting, .inl hswitch,
    .inl (congrArg Governance.pauseDur h)⟩

theorem GovernanceEffect.footprint {env : Env} {w w' : World} {call : Call}
    (h : GovernanceEffect env w call w') : GovernanceFootprint w call w' := by
  cases h with
  | same h => exact .of_same h _
  | pause h =>
      obtain ⟨_, -, -, -, -, -, rfl⟩ := pause_ok h
      exact ⟨.inl rfl, .inl rfl, .inl rfl, .inl rfl, .inr trivial, .inl rfl⟩
  | unpause h =>
      obtain ⟨_, -, -, -, -, rfl⟩ := unpause_ok h
      exact ⟨.inl rfl, .inl rfl, .inl rfl, .inl rfl, .inr trivial, .inl rfl⟩
  | setPauseDuration h =>
      obtain ⟨_, -, -, -, -, rfl⟩ := setPauseDuration_ok h
      exact ⟨.inl rfl, .inl rfl, .inl rfl, .inl rfl, .inl rfl, .inr trivial⟩
  | setAnimalCap h =>
      obtain ⟨_, -, -, -, -, rfl⟩ := setAnimalCap_ok h
      exact ⟨.inl rfl, .inl rfl, .inl rfl, .inl rfl, .inl rfl, .inl rfl⟩
  | proposeNewAdmin h =>
      obtain ⟨_, -, -, -, rfl⟩ := proposeNewAdmin_ok h
      exact ⟨.inl rfl, .inr trivial, .inl rfl, .inl rfl, .inl rfl, .inl rfl⟩
  | acceptAdminRole h =>
      obtain ⟨_, -, -, -, rfl⟩ := acceptAdminRole_ok h
      exact ⟨.inl rfl, .inr trivial, .inl rfl, .inl rfl, .inl rfl, .inl rfl⟩
  | addLiquidator h =>
      obtain ⟨_, -, -, -, ⟨-, rfl⟩ | ⟨-, -, rfl⟩⟩ := addLiquidator_ok h
      · exact .of_same rfl _
      · exact ⟨.inl rfl, .inl rfl, .inl rfl, .inr trivial, .inl rfl, .inl rfl⟩
  | removeLiquidator h =>
      obtain ⟨_, -, -, -, ⟨-, rfl⟩ | ⟨-, rfl⟩⟩ := removeLiquidator_ok h
      · exact .of_same rfl _
      · exact ⟨.inl rfl, .inl rfl, .inl rfl, .inr trivial, .inl rfl, .inl rfl⟩
  | addOracle h =>
      obtain ⟨_, -, -, -, -, -, -, rfl⟩ := addOracle_ok h
      exact ⟨.inl rfl, .inl rfl, .inr trivial, .inl rfl, .inl rfl, .inl rfl⟩
  | removeOracle h =>
      obtain ⟨_, -, -, -, -, rfl⟩ := removeOracle_ok h
      exact ⟨.inl rfl, .inl rfl, .inr trivial, .inl rfl, .inl rfl, .inl rfl⟩
  | proposeUpgrade h =>
      obtain ⟨_, -, -, -, rfl⟩ := proposeUpgrade_ok h
      exact ⟨.inr trivial, .inl rfl, .inl rfl, .inl rfl, .inl rfl, .inl rfl⟩
  | executeUpgrade h =>
      obtain ⟨_, _, -, -, -, rfl⟩ := executeUpgrade_ok h
      exact ⟨.inr trivial, .inl rfl, .inl rfl, .inl rfl, .inl rfl, .inl rfl⟩
  | cancelUpgrade h =>
      obtain ⟨_, -, -, -, -, rfl⟩ := cancelUpgrade_ok h
      exact ⟨.inr trivial, .inl rfl, .inl rfl, .inl rfl, .inl rfl, .inl rfl⟩

/-- The oracle list moves by registration and removal only. -/
theorem GovernanceEffect.oracles {env : Env} {w w' : World} {call : Call}
    (h : GovernanceEffect env w call w') :
    w'.oracles = w.oracles ∨ (∃ admin oracle, StellarKraal.addOracle env w admin oracle = .ok w') ∨
      ∃ admin oracle, StellarKraal.removeOracle env w admin oracle = .ok w' := by
  rcases h.footprint.oracles with hsame | hedits
  · exact .inl hsame
  · cases h with
    | addOracle h => exact .inr (.inl ⟨_, _, h⟩)
    | removeOracle h => exact .inr (.inr ⟨_, _, h⟩)
    | same h => exact .inl (congrArg Governance.oracles h)
    | _ => exact hedits.elim

/-- Each two-step procedure has its slots to itself. -/
theorem GovernanceEffect.slots {env : Env} {w w' : World} {call : Call}
    (h : GovernanceEffect env w call w') :
    (w'.upgrade = w.upgrade ∨ call.UpgradesCode) ∧
      (w'.pendingAdmin = w.pendingAdmin ∨ call.MovesAdmin) :=
  ⟨h.footprint.upgrade, h.footprint.pendingAdmin⟩

end StellarKraal
