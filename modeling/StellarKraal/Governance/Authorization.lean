import StellarKraal.Contract.ConfigEffects
import StellarKraal.Contract.GovernanceEffects

/-!
# Who moves the privileged configuration

The frame of the contract's administration: which storage needs the admin's
signature to change, and how the admin itself changes.
-/

namespace StellarKraal

open TransitionSystem (Transition)

variable {asset : AssetContract}

/-! ## Configuration that only the admin moves -/

/-- The privileged part of what `initialize` stores. -/
structure PrivilegedConfig where
  ltv : Nat
  liqThr : Nat
  closeFactor : Nat
  origFee : Nat
  intFee : Nat
  token : Address
  treasury : Address
  oracle : Address
  minQuorum : Nat

def Config.privileged (c : Config) : PrivilegedConfig :=
  ⟨c.ltv, c.liqThr, c.closeFactor, c.origFee, c.intFee, c.token, c.treasury, c.oracle, c.minQuorum⟩

/-- The privileged part of everything else: registry, caps, whitelist, pause. -/
structure PrivilegedRegistry where
  oracles : Option (List Address)
  animalCaps : KeyedStore Symbol Int
  whitelist : Finset Address
  wlCount : Nat
  paused : Bool
  pauseExp : Nat
  pauseDur : Nat

def Governance.privileged (g : Governance) : PrivilegedRegistry :=
  ⟨g.oracles, g.animalCaps, g.whitelist, g.wlCount, g.paused, g.pauseExp, g.pauseDur⟩

/-- Parameters, token, treasury, oracles, caps, whitelist and pause. -/
def World.privileged (w : World) : Option PrivilegedConfig × PrivilegedRegistry :=
  (w.config.map Config.privileged, w.governance.privileged)

variable {env : Env} {w w' : World} {call : Call} {c : Config}

theorem ConfigEffect.privileged (h : ConfigEffect env w call w') (hc : w.config = some c) :
    w'.config.map Config.privileged = w.config.map Config.privileged ∨
      AdminCall env w c c.admin := by
  cases h with
  | initialized hnone => simp [hc] at hnone
  | ltv hadmin | liqThr hadmin | closeFactor hadmin | fees hadmin | oracle hadmin =>
      obtain rfl := Option.mem_unique hc hadmin.config
      exact .inr (hadmin.isAdmin.symm ▸ hadmin)
  | admin hc' _ _ h | prices hc' h | price hc' h =>
      rw [h, hc']
      exact .inl rfl
  | same h => exact .inl (congrArg _ h)

theorem GovernanceEffect.privileged (h : GovernanceEffect env w call w') (hc : w.config = some c) :
    w'.governance.privileged = w.governance.privileged ∨ AdminCall env w c c.admin := by
  cases h with
  | pause h => exact .inr (.of_checked (pause_ok h) hc)
  | unpause h => exact .inr (.of_checked (unpause_ok h) hc)
  | setPauseDuration h => exact .inr (.of_checked (setPauseDuration_ok h) hc)
  | setAnimalCap h => exact .inr (.of_checked (setAnimalCap_ok h) hc)
  | proposeNewAdmin h => exact .inr (.of_checked (proposeNewAdmin_ok h) hc)
  | addLiquidator h => exact .inr (.of_checked (addLiquidator_ok h) hc)
  | removeLiquidator h => exact .inr (.of_checked (removeLiquidator_ok h) hc)
  | addOracle h => exact .inr (.of_checked (addOracle_ok h) hc)
  | removeOracle h => exact .inr (.of_checked (removeOracle_ok h) hc)
  | proposeUpgrade h => exact .inr (.of_checked (proposeUpgrade_ok h) hc)
  | cancelUpgrade h => exact .inr (.of_checked (cancelUpgrade_ok h) hc)
  -- The two calls without the admin's signature touch nothing of it.
  | acceptAdminRole h =>
      obtain ⟨_, -, -, -, rfl⟩ := acceptAdminRole_ok h
      exact .inl rfl
  | executeUpgrade h =>
      obtain ⟨_, _, -, -, -, rfl⟩ := executeUpgrade_ok h
      exact .inl rfl
  | same h => exact .inl (congrArg Governance.privileged h)

/-! ## The two-step transfer -/

/-- The step is `admin`'s proposal of `newAdmin`, signed while in office. -/
def ProposesAdmin (asset : AssetContract) (t : Transition World Action)
    (newAdmin admin : Address) : Prop :=
  ∃ env c, t.before.config = some c ∧ c.admin = admin ∧ admin ∈ env.signers ∧
    Executed asset t env (.proposeNewAdmin admin newAdmin)

/-- The step is a successful proposal or acceptance. -/
def MovesAdmin (asset : AssetContract) (t : Transition World Action) : Prop :=
  ∃ env call, Executed asset t env call ∧ call.MovesAdmin

/-- The proposed admin with the one in office. -/
def World.succession (w : World) : Option (Address × Address) :=
  w.pendingAdmin.bind fun newAdmin => w.config.map fun c => (newAdmin, c.admin)

theorem ConfigEffect.admin_eq (h : ConfigEffect env w call w') (hc : w.config = some c) :
    ∃ c', w'.config = some c' ∧ (c'.admin = c.admin ∨
      call = .acceptAdminRole c'.admin ∧ w.pendingAdmin = some c'.admin ∧
        c'.admin ∈ env.signers) := by
  cases h with
  | initialized hnone => simp [hc] at hnone
  | ltv hadmin _ _ h | liqThr hadmin _ _ h | closeFactor hadmin _ _ h | fees hadmin _ _ h
  | oracle hadmin h =>
      obtain rfl := Option.mem_unique hc hadmin.config
      exact ⟨_, h, .inl rfl⟩
  | admin hc' hpending hauth h => exact ⟨_, h, .inr ⟨rfl, hpending, hauth⟩⟩
  | prices hc' h | price hc' h =>
      obtain rfl := Option.mem_unique hc hc'
      exact ⟨_, h, .inl rfl⟩
  | same h => exact ⟨c, h.trans hc, .inl rfl⟩

/-- Before the contract is initialised nobody can be proposed. -/
theorem reachable_pendingAdmin_none {w : World} (h : (protocol asset).Reachable w) :
    w.config = none → w.pendingAdmin = none := by
  apply reachable_invariant (fun w => w.config = none → w.pendingAdmin = none) ?_ ?_ ?_ h
  · intro timestamp ledger _
    rfl
  · intro env call w w' _ hinv hrun hnone
    have hbefore := (Call.run_configEffect hrun).config_none hnone
    rcases (Call.run_governanceEffect hrun).slots.2 with hsame | hmoves
    · exact hsame.trans (hinv hbefore)
    · cases call with
      | proposeNewAdmin admin newAdmin =>
          obtain ⟨c, hc, -⟩ := proposeNewAdmin_ok hrun
          simp [hbefore] at hc
      | acceptAdminRole newAdmin =>
          obtain ⟨c, hc, -⟩ := acceptAdminRole_ok hrun
          simp [hbefore] at hc
      | _ => exact hmoves.elim
  · intro w timestamp ledger hinv _ _
    exact hinv

/-- What a step can do to the succession: leave it, end it, or propose. -/
theorem step_succession {w w' : World} {a : Action} (hreach : (protocol asset).Reachable w)
    (step : (protocol asset).Step w a w') :
    (¬ MovesAdmin asset ⟨w, a, w'⟩ ∧ w'.succession = w.succession) ∨ w'.succession = none ∨
      ∃ parties : Address × Address, ProposesAdmin asset ⟨w, a, w'⟩ parties.1 parties.2 ∧
        w'.succession = some parties := by
  rcases protocol_step_cases step with ⟨env, call, hexec⟩ | ⟨hidle, timestamp, ledger, -, -, rfl⟩
  · have hrun : call.run asset.client env w = .ok w' := hexec.run
    by_cases hcall : call.MovesAdmin
    · cases call with
      | proposeNewAdmin admin newAdmin =>
          obtain ⟨c, hc, rfl, hauth, rfl⟩ := proposeNewAdmin_ok hrun
          refine .inr (.inr ⟨(newAdmin, c.admin), ⟨env, c, hc, rfl, hauth, hexec⟩, ?_⟩)
          simp [World.succession, World.publish, hc]
      | acceptAdminRole newAdmin =>
          obtain ⟨c, -, -, -, rfl⟩ := acceptAdminRole_ok hrun
          exact .inr (.inl rfl)
      | _ => exact hcall.elim
    · have hsame := (Call.run_governanceEffect hrun).slots.2.resolve_right hcall
      cases hc : w.config with
      | none =>
          -- An initialisation finds no proposal to inherit.
          have hnone := hsame.trans (reachable_pendingAdmin_none hreach hc)
          exact .inr (.inl (by simp [World.succession, hnone]))
      | some c =>
          refine .inl ⟨?_, ?_⟩
          · rintro ⟨env', call', hexec', hcall'⟩
            obtain rfl := hexec.only hexec'
            exact hcall hcall'
          · obtain ⟨c', hc', hadmin⟩ := (Call.run_configEffect hrun).admin_eq hc
            have hkept : c'.admin = c.admin := by
              refine hadmin.resolve_right ?_
              rintro ⟨rfl, -⟩
              exact hcall trivial
            simp [World.succession, hsame, hc, hc', hkept]
  · refine .inl ⟨?_, rfl⟩
    rintro ⟨env, call, hexec, -⟩
    exact hidle env call hexec

/-- Whoever is proposed was proposed by the admin in office, and neither replaced
nor accepted since. -/
theorem succession_origin {start w : World} {steps : List (Transition World Action)}
    (hstart : (protocol asset).Initial start) (hrun : (protocol asset).Run start steps w)
    {newAdmin : Address} (hc : w.config = some c) (hpending : w.pendingAdmin = some newAdmin) :
    ∃ earlier t since, steps = earlier ++ t :: since ∧
      ProposesAdmin asset t newAdmin c.admin ∧ ∀ s ∈ since, ¬ MovesAdmin asset s := by
  have hreach := TransitionSystem.Reachable.of_initial hstart
  obtain ⟨timestamp, ledger, rfl⟩ := hstart
  have hnone : (World.deployed timestamp ledger).succession = none := rfl
  have hsuccession : w.succession = some (newAdmin, c.admin) := by
    simp [World.succession, hc, hpending]
  exact hrun.exists_origin World.succession
    (fun t parties => ProposesAdmin asset t parties.1 parties.2) (fun t => ¬ MovesAdmin asset t)
    hreach hnone (fun _ _ _ => step_succession) hsuccession

/-! ## The frame of the administration -/

/-- The two pending slots move by the admin's proposals and cancellations, or
are used up by an acceptance or an upgrade after the timelock. -/
theorem pending_moves (hrun : call.run asset.client env w = .ok w') (hc : w.config = some c) :
    (w'.pendingAdmin ≠ w.pendingAdmin → c.admin ∈ env.signers ∨
      ∃ newAdmin, call = .acceptAdminRole newAdmin ∧ w'.pendingAdmin = none) ∧
    (w'.pendingWasm ≠ w.pendingWasm → c.admin ∈ env.signers ∨
      call = .executeUpgrade ∧ w'.pendingWasm = none ∧ ∃ proposed, w.upgradeTime = some proposed ∧
        U64.saturatingAdd proposed upgradeTimelockSecs ≤ w.timestamp) := by
  have heffect := Call.run_governanceEffect hrun
  refine ⟨fun hmoved => ?_, fun hmoved => ?_⟩
  · have hcall := heffect.slots.2.resolve_left hmoved
    cases call with
    | proposeNewAdmin admin newAdmin =>
        exact .inl (AdminCall.of_checked (proposeNewAdmin_ok hrun) hc).authorized
    | acceptAdminRole newAdmin =>
        obtain ⟨c', -, -, -, rfl⟩ := acceptAdminRole_ok hrun
        exact .inr ⟨newAdmin, rfl, rfl⟩
    | _ => exact hcall.elim
  · have hcall : call.UpgradesCode := by
      refine heffect.slots.1.resolve_left ?_
      intro hsame
      exact hmoved (congrArg UpgradeSlots.pendingWasm hsame)
    cases call with
    | proposeUpgrade admin hash =>
        exact .inl (AdminCall.of_checked (proposeUpgrade_ok hrun) hc).authorized
    | executeUpgrade =>
        obtain ⟨hash, proposed, -, hproposed, helapsed, rfl⟩ := executeUpgrade_ok hrun
        exact .inr ⟨rfl, rfl, proposed, hproposed, helapsed⟩
    | cancelUpgrade admin =>
        exact .inl (AdminCall.of_checked (cancelUpgrade_ok hrun) hc).authorized
    | _ => exact hcall.elim

/-- Whatever is called on an initialised contract: parameters, registries, pause
and both pending slots change under the admin's signature only, save for the
slots being used up, and a new admin has signed and is whom the admin in office
proposed last. -/
theorem administration_authorized {start w : World} {steps : List (Transition World Action)}
    (hstart : (protocol asset).Initial start) (hrun : (protocol asset).Run start steps w)
    (hc : w.config = some c) (env : Env) (call : Call) :
    let w' := w.invoke asset.client env call
    (w'.privileged ≠ w.privileged → c.admin ∈ env.signers) ∧
    (w'.pendingAdmin ≠ w.pendingAdmin → c.admin ∈ env.signers ∨
      ∃ newAdmin, call = .acceptAdminRole newAdmin ∧ w'.pendingAdmin = none) ∧
    (w'.pendingWasm ≠ w.pendingWasm → c.admin ∈ env.signers ∨
      call = .executeUpgrade ∧ w'.pendingWasm = none ∧ ∃ proposed, w.upgradeTime = some proposed ∧
        U64.saturatingAdd proposed upgradeTimelockSecs ≤ w.timestamp) ∧
    ∃ c', w'.config = some c' ∧ (c'.admin ≠ c.admin → c'.admin ∈ env.signers ∧
      ∃ earlier t since, steps = earlier ++ t :: since ∧
        ProposesAdmin asset t c'.admin c.admin ∧ ∀ s ∈ since, ¬ MovesAdmin asset s) := by
  intro w'
  rcases World.invoke_cases asset.client env w call with hok | hsame
  · have hok : call.run asset.client env w = .ok w' := hok
    have hpending := pending_moves hok hc
    refine ⟨?_, hpending.1, hpending.2, ?_⟩
    · intro hmoved
      rcases (Call.run_configEffect hok).privileged hc with hconfig | hadmin
      · rcases (Call.run_governanceEffect hok).privileged hc with hrest | hadmin
        · exact absurd (Prod.ext hconfig hrest) hmoved
        · exact hadmin.authorized
      · exact hadmin.authorized
    · obtain ⟨c', hc', hadmin⟩ := (Call.run_configEffect hok).admin_eq hc
      refine ⟨c', hc', ?_⟩
      intro hnew
      obtain ⟨-, hproposed, hauth⟩ := hadmin.resolve_left hnew
      exact ⟨hauth, succession_origin hstart hrun hc hproposed⟩
  · have hsame : w' = w := hsame
    rw [hsame]
    exact ⟨fun h => absurd rfl h, fun h => absurd rfl h, fun h => absurd rfl h, c, hc,
      fun h => absurd rfl h⟩

/-- The keeper, proposed once, takes over by signing the acceptance. -/
theorem sample_succession_authorized :
    ∃ steps w w' c', (protocol .standard).Run Sample.world steps w ∧
      w' = w.invoke AssetContract.standard.client ⟨[Sample.keeper]⟩
        (.acceptAdminRole Sample.keeper) ∧
      w'.config = some c' ∧ c'.admin = Sample.keeper ∧
      ∃ earlier t since, steps = earlier ++ t :: since ∧
        ProposesAdmin .standard t Sample.keeper Sample.admin := by
  have hrun : (protocol .standard).Run Sample.world [_, _] _ := Run.of_script
    [Sample.initialization 6000 8000,
      Sample.signedBy Sample.admin (.proposeNewAdmin Sample.admin Sample.keeper)] rfl
  obtain ⟨-, -, -, c', hc', hadmin⟩ := administration_authorized ⟨0, _, rfl⟩ hrun rfl
    ⟨[Sample.keeper]⟩ (.acceptAdminRole Sample.keeper)
  obtain rfl := Option.some.inj hc'
  obtain ⟨-, earlier, t, since, hsteps, hproposes, -⟩ := hadmin (by decide)
  exact ⟨_, _, _, _, hrun, rfl, rfl, rfl, earlier, t, since, hsteps, hproposes⟩

end StellarKraal
