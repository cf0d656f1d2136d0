import StellarKraal.Contract.GovernanceEffects

/-!
# Upgrades

New code is proposed by the admin and installed by anybody, a day later at the
earliest. What is installed is the last proposal, and each proposal at most once.
-/

namespace StellarKraal

open TransitionSystem (Transition)

variable {asset : AssetContract}

/-- The step proposes `hash`, signed by the admin then in force. -/
def ProposesUpgrade (asset : AssetContract) (t : Transition World Action) (hash : Nat) : Prop :=
  ∃ env c, t.before.config = some c ∧ c.admin ∈ env.signers ∧
    Executed asset t env (.proposeUpgrade c.admin hash)

/-- The step is a successful call of the upgrade procedure. -/
def UpgradesCode (asset : AssetContract) (t : Transition World Action) : Prop :=
  ∃ env call, Executed asset t env call ∧ call.UpgradesCode

/-- The pending hash with the time of its proposal. -/
def World.proposal (w : World) : Option (Nat × Nat) :=
  w.pendingWasm.bind fun hash => w.upgradeTime.map fun time => (hash, time)

theorem proposal_congr {w w' : World} (h : w'.upgrade = w.upgrade) : w'.proposal = w.proposal := by
  obtain ⟨-, hpending, htime⟩ := UpgradeSlots.mk.inj h
  rw [World.proposal, World.proposal, hpending, htime]

/-- What a step can do to the proposal: leave it, clear it, or be a new one. -/
theorem step_proposal {w w' : World} {a : Action} (step : (protocol asset).Step w a w') :
    (¬ UpgradesCode asset ⟨w, a, w'⟩ ∧ w'.proposal = w.proposal) ∨ w'.proposal = none ∨
      ∃ proposal : Nat × Nat, (ProposesUpgrade asset ⟨w, a, w'⟩ proposal.1 ∧
        w.timestamp = proposal.2) ∧ w'.proposal = some proposal := by
  rcases protocol_step_cases step with ⟨env, call, hexec⟩ | ⟨hidle, timestamp, ledger, -, -, rfl⟩
  · have hrun : call.run asset.client env w = .ok w' := hexec.run
    by_cases hcall : call.UpgradesCode
    · cases call with
      | proposeUpgrade admin hash =>
          obtain ⟨c, hc, rfl, hauth, rfl⟩ := proposeUpgrade_ok hrun
          exact .inr (.inr ⟨(hash, w.timestamp), ⟨⟨env, c, hc, hauth, hexec⟩, rfl⟩, rfl⟩)
      | executeUpgrade =>
          obtain ⟨hash, proposed, -, -, -, rfl⟩ := executeUpgrade_ok hrun
          exact .inr (.inl rfl)
      | cancelUpgrade admin =>
          obtain ⟨c, -, -, -, -, rfl⟩ := cancelUpgrade_ok hrun
          exact .inr (.inl rfl)
      | _ => exact hcall.elim
    · have hsame := (Call.run_governanceEffect hrun).slots.1.resolve_right hcall
      refine .inl ⟨?_, proposal_congr hsame⟩
      rintro ⟨env', call', hexec', hcall'⟩
      obtain rfl := hexec.only hexec'
      exact hcall hcall'
  · refine .inl ⟨?_, rfl⟩
    rintro ⟨env, call, hexec, -⟩
    exact hidle env call hexec

/-- A pending proposal was made in the run, at the recorded time, and nothing has
been proposed, cancelled or executed since. -/
theorem proposal_origin {start w : World} {steps : List (Transition World Action)}
    (hstart : (protocol asset).Initial start) (hrun : (protocol asset).Run start steps w)
    {hash time : Nat} (hproposal : w.proposal = some (hash, time)) :
    ∃ earlier t since, steps = earlier ++ t :: since ∧ ProposesUpgrade asset t hash ∧
      t.before.timestamp = time ∧ ∀ u ∈ since, ¬ UpgradesCode asset u := by
  have hreach := TransitionSystem.Reachable.of_initial hstart
  obtain ⟨timestamp, ledger, rfl⟩ := hstart
  have hnone : (World.deployed timestamp ledger).proposal = none := rfl
  obtain ⟨earlier, t, since, hsteps, ⟨hproposes, htime⟩, hsince⟩ :=
    hrun.exists_origin World.proposal
      (fun t proposal => ProposesUpgrade asset t proposal.1 ∧ t.before.timestamp = proposal.2)
      (fun t => ¬ UpgradesCode asset t) hreach hnone (fun _ _ _ _ => step_proposal) hproposal
  exact ⟨earlier, t, since, hsteps, hproposes, htime, hsince⟩

/-- Each upgrade installs a hash that the admin then in force proposed at least a
day before, and that has not been replaced, cancelled or installed since. -/
theorem upgrades_timelocked {start w : World} {earlier later : List (Transition World Action)}
    {t : Transition World Action} {env : Env} (hstart : (protocol asset).Initial start)
    (hrun : (protocol asset).Run start (earlier ++ t :: later) w)
    (htime : t.before.timestamp < 2 ^ 63)
    (hexec : Executed asset t env .executeUpgrade) :
    ∃ hash before p since, t.after.wasm = some hash ∧ earlier = before ++ p :: since ∧
      ProposesUpgrade asset p hash ∧
      p.before.timestamp + upgradeTimelockSecs ≤ t.before.timestamp ∧
      ∀ s ∈ since, ¬ UpgradesCode asset s := by
  obtain ⟨hprior, -⟩ := hrun.of_split
  have hinstall : executeUpgrade t.before = .ok t.after := hexec.run
  obtain ⟨hash, time, hpending, hproposed, helapsed, hafter⟩ := executeUpgrade_ok hinstall
  have hproposal : t.before.proposal = some (hash, time) := by
    rw [World.proposal, hpending, hproposed]
    rfl
  obtain ⟨before, p, since, rfl, hproposes, rfl, hsince⟩ :=
    proposal_origin hstart hprior hproposal
  refine ⟨hash, before, p, since, by rw [hafter], rfl, hproposes, ?_, hsince⟩
  -- Below 2 ^ 63 the deadline does not saturate.
  have hle : p.before.timestamp ≤ t.before.timestamp := run_timestamp_le hprior p (by simp)
  have hmax : U64.MAX = 2 ^ 64 - 1 := rfl
  have hlock : upgradeTimelockSecs = 86400 := rfl
  rw [U64.saturatingAdd] at helapsed
  omega

/-- A hash proposed at time zero and installed by somebody else a day later. -/
theorem sample_upgrade_timelocked :
    ∃ earlier t w hash, (protocol .standard).Run Sample.world (earlier ++ [t]) w ∧
      t.after.wasm = some 7 ∧ t.after.wasm = some hash ∧
      ∃ before p since, earlier = before ++ p :: since ∧ ProposesUpgrade .standard p hash ∧
        p.before.timestamp + upgradeTimelockSecs ≤ t.before.timestamp := by
  have hrun : (protocol .standard).Run Sample.world ([_, _, _] ++ [_]) _ := Run.of_script
    [Sample.initialization 6000 8000, Sample.signedBy Sample.admin (.proposeUpgrade Sample.admin 7),
      .tick 86400, .call ⟨[]⟩ .executeUpgrade] rfl
  obtain ⟨hash, before, p, since, hhash, hsplit, hproposes, htime, -⟩ :=
    upgrades_timelocked ⟨0, _, rfl⟩ hrun (by decide) (.of_isOk rfl)
  exact ⟨_, _, _, hash, hrun, rfl, hhash, before, p, since, hsplit, hproposes, htime⟩

end StellarKraal
