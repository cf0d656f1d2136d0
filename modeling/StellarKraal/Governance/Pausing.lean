import StellarKraal.Contract.ConfigEffects
import StellarKraal.Contract.GovernanceEffects
import StellarKraal.Contract.Unguarded

/-!
# How a pause begins and ends

A pause stores its expiry and is never cleared by the passing of time: the
readers compare the expiry with the clock. An expiry of zero stands for none,
and a duration of zero is accepted for the pauses to come.
-/

namespace StellarKraal

open TransitionSystem (Transition)

variable {asset : AssetContract} {w w' : World}

/-! ## Durations -/

theorem reachable_pauseDur (h : (protocol asset).Reachable w) : w.pauseDur ≤ maxPauseDuration := by
  apply reachable_invariant (fun w => w.pauseDur ≤ maxPauseDuration) (h := h)
  · intro timestamp ledger
    show 24 * 3600 ≤ 518400
    decide
  · intro env call w w' _ hdur hrun
    rcases (Call.run_governanceEffect hrun).footprint.pauseDur with hsame | hsets
    · exact hsame.trans_le hdur
    · cases call with
      | setPauseDuration admin duration =>
          obtain ⟨-, -, -, -, hmax, rfl⟩ := setPauseDuration_ok hrun
          exact hmax
      | _ => exact hsets.elim
  · intro w timestamp ledger hdur _ _
    exact hdur

/-! ## The switch along a run -/

/-- No call of the run pauses the contract. -/
def NoPause (asset : AssetContract) (steps : List (Transition World Action)) : Prop :=
  ∀ t ∈ steps, ∀ env admin, ¬ Executed asset t env (.pause admin)

/-- No call of the run lifts a pause. -/
def NoUnpause (asset : AssetContract) (steps : List (Transition World Action)) : Prop :=
  ∀ t ∈ steps, ∀ env admin, ¬ Executed asset t env (.unpause admin)

/-- The switch moves by pausing and unpausing only. -/
theorem step_pauseSwitch {a : Action} (step : (protocol asset).Step w a w') :
    w'.pauseSwitch = w.pauseSwitch ∨
      (∃ env admin, Executed asset ⟨w, a, w'⟩ env (.pause admin)) ∨
      ∃ env admin, Executed asset ⟨w, a, w'⟩ env (.unpause admin) := by
  rcases protocol_step_cases step with ⟨env, call, hexec⟩ | ⟨-, timestamp, ledger, -, -, rfl⟩
  · rcases (Call.run_governanceEffect hexec.run).footprint.pauseSwitch with hsame | hswitches
    · exact .inl hsame
    · cases call with
      | pause admin => exact .inr (.inl ⟨env, admin, hexec⟩)
      | unpause admin => exact .inr (.inr ⟨env, admin, hexec⟩)
      | _ => exact hswitches.elim
  · exact .inl rfl

theorem isPausedRaw_iff : isPausedRaw w = true ↔
    w.paused = true ∧ (w.pauseExp = 0 ∨ w.timestamp < w.pauseExp) := by
  unfold isPausedRaw
  split
  next h => simp_all
  next h =>
    split
    next hzero => simp_all
    next hexp => simp_all

/-- Without a further pause, the switch is off or keeps its expiry. -/
theorem run_pauseExp {steps : List (Transition World Action)} {v : World}
    (hrun : (protocol asset).Run w steps v) (hnone : NoPause asset steps) :
    v.paused = false ∨ v.pauseExp = w.pauseExp := by
  refine @TransitionSystem.Run.invariant_of_steps _ _ _
    (fun t => ∀ env admin, ¬ Executed asset t env (.pause admin))
    (fun v => v.paused = false ∨ v.pauseExp = w.pauseExp) ?_ _ _ _ hrun hnone (.inr rfl)
  intro s a s' hinv step hgood
  rcases step_pauseSwitch step with hsame | ⟨env, admin, h⟩ | ⟨env, admin, h⟩
  · obtain ⟨hpaused, hexp⟩ := PauseSwitch.mk.inj hsame
    rw [hpaused, hexp]
    exact hinv
  · exact absurd h (hgood env admin)
  · obtain ⟨-, -, -, -, -, hafter⟩ := unpause_ok h.run
    exact .inl (congrArg World.paused hafter)

/-- Before its expiry a pause that nobody lifts stays on: it cannot be renewed
either, for pausing is refused while it lasts. -/
theorem run_pauseSwitch {steps : List (Transition World Action)} {v : World}
    (hrun : (protocol asset).Run w steps v) (hnone : NoUnpause asset steps)
    (hpaused : w.paused = true) (hbefore : v.timestamp < w.pauseExp) :
    v.pauseSwitch = w.pauseSwitch := by
  refine @TransitionSystem.Run.invariant_of_steps _ _ _
    (fun t => ∀ env admin, ¬ Executed asset t env (.unpause admin))
    (fun v => v.timestamp < w.pauseExp → v.pauseSwitch = w.pauseSwitch) ?_ _ _ _ hrun hnone
    (fun _ => rfl) hbefore
  intro s a s' hinv step hgood hbefore
  have hearlier : s.timestamp < w.pauseExp := (step_timestamp_le step).trans_lt hbefore
  have hswitch := hinv hearlier
  rcases step_pauseSwitch step with hsame | ⟨env, admin, h⟩ | ⟨env, admin, h⟩
  · exact hsame.trans hswitch
  · obtain ⟨-, -, -, -, hrefused, -⟩ := pause_ok h.run
    obtain ⟨hon, hexp⟩ := PauseSwitch.mk.inj hswitch
    have hstill : isPausedRaw s = true :=
      isPausedRaw_iff.mpr ⟨hon.trans hpaused, .inr (hexp ▸ hearlier)⟩
    simp [hstill] at hrefused
  · exact absurd h (hgood env admin)

/-! ## What a pause is for -/

/-- Lending, liquidating, registering and appraising fail with `ContractPaused`,
whoever calls and whatever the arguments. -/
structure Blocked (asset : AssetContract) (w : World) : Prop where
  requestLoan : ∀ env borrower ids amount,
    StellarKraal.requestLoan asset.client env w borrower ids amount =
      .error (.error .contractPaused)
  liquidate : ∀ env liquidator loanId amount,
    StellarKraal.liquidate asset.client env w liquidator loanId amount =
      .error (.error .contractPaused)
  registerLivestock : ∀ env owner animalType count value,
    StellarKraal.registerLivestock env w owner animalType count value =
      .error (.error .contractPaused)
  updateAppraisal : ∀ env owner collateralId value,
    StellarKraal.updateAppraisal env w owner collateralId value = .error (.error .contractPaused)

theorem blocked_of_paused (hguard : w.guard = false) (hinit : w.config ≠ none)
    (hpaused : isPausedRaw w = true) : Blocked asset w := by
  -- The first two look at the state behind their guard, which differs in the guard only.
  have hchecks : ∀ guard, assertInitialized { w with guard } = .ok () ∧
      assertNotPaused { w with guard } = .error (.error .contractPaused) := fun guard =>
    ⟨assertInitialized_eq_ok.mpr (Option.ne_none_iff_exists'.mp hinit),
      assertNotPaused_eq_error.mpr ⟨hpaused, rfl⟩⟩
  obtain ⟨hinit', hrefused'⟩ := hchecks true
  obtain ⟨hinit, hrefused⟩ := hchecks w.guard
  constructor
  · intro env borrower ids amount
    simp [requestLoan, ReentrancyGuard.new, hguard, hinit', hrefused']
  · intro env liquidator loanId amount
    simp [liquidate, ReentrancyGuard.new, hguard, hinit', hrefused']
  · intro env owner animalType count value
    simp [registerLivestock, hinit, hrefused]
  · intro env owner collateralId value
    simp [updateAppraisal, hinit, hrefused]

/-- The world `w` right after a pause. For the rest of its ledger the contract is
paused and blocked, unless somebody lifts the pause; more than the longest
duration later it is not paused, unless somebody pauses again. -/
structure PauseWorks (asset : AssetContract) (w : World) : Prop where
  takesEffect : isPaused w = true ∧ ∀ steps v, (protocol asset).Run w steps v →
    NoUnpause asset steps → v.timestamp = w.timestamp → isPaused v = true ∧ Blocked asset v
  ends : ∀ steps v, (protocol asset).Run w steps v → NoPause asset steps →
    w.timestamp + maxPauseDuration < v.timestamp → isPaused v = false

/-- The second half needs no condition. -/
theorem pause_ends {env : Env} {admin : Address} (hreach : (protocol asset).Reachable w)
    (htime : 0 < w.timestamp) (hpause : pause env w admin = .ok w')
    {steps : List (Transition World Action)} {v : World}
    (hrun : (protocol asset).Run w' steps v) (hnone : NoPause asset steps)
    (hlate : w'.timestamp + maxPauseDuration < v.timestamp) : isPaused v = false := by
  have hdur := reachable_pauseDur hreach
  obtain ⟨-, -, -, -, -, -, rfl⟩ := pause_ok hpause
  have hlate : w.timestamp + maxPauseDuration < v.timestamp := hlate
  rw [isPaused, Bool.eq_false_iff]
  intro hpaused
  obtain ⟨hon, hexp⟩ := isPausedRaw_iff.mp hpaused
  rcases run_pauseExp hrun hnone with hoff | hkept
  · exact absurd (hoff.symm.trans hon) (by decide)
  · have hkept : v.pauseExp = w.timestamp + w.pauseDur := hkept
    omega

theorem run_initialized (hinit : w.config ≠ none) {steps : List (Transition World Action)}
    {v : World} (hrun : (protocol asset).Run w steps v) : v.config ≠ none := by
  induction hrun with
  | nil => exact hinit
  | snoc prior step ih =>
      rcases protocol_step_cases step with ⟨env, call, hexec⟩ | ⟨-, timestamp, ledger, -, -, rfl⟩
      · exact fun hnone => ih ((Call.run_configEffect hexec.run).config_none hnone)
      · exact ih

/-- Under a positive duration the contract is blocked until the pause expires. -/
theorem pause_blocks {env : Env} {admin : Address} (hreach : (protocol asset).Reachable w)
    (hpause : pause env w admin = .ok w') {steps : List (Transition World Action)} {v : World}
    (hrun : (protocol asset).Run w' steps v) (hnone : NoUnpause asset steps)
    (hearly : v.timestamp < w.timestamp + w.pauseDur) :
    isPaused v = true ∧ Blocked asset v := by
  have hreach' := (@reachable_call asset env (.pause admin) _ _ hreach hpause).run hrun
  obtain ⟨c, hc, -, -, -, -, rfl⟩ := pause_ok hpause
  obtain ⟨hon, hexp⟩ := PauseSwitch.mk.inj (run_pauseSwitch hrun hnone rfl hearly)
  have hpaused : isPausedRaw v = true := isPausedRaw_iff.mpr ⟨hon, .inr (hexp ▸ hearly)⟩
  have hinit : v.config ≠ none := by
    apply run_initialized _ hrun
    exact Option.ne_none_iff_exists'.mpr ⟨c, hc⟩
  exact ⟨hpaused, blocked_of_paused (reachable_unguarded hreach') hinit hpaused⟩

/-- A pause works exactly if the duration in force is not zero. -/
theorem pause_works_iff {env : Env} {admin : Address} (hreach : (protocol asset).Reachable w)
    (htime : 0 < w.timestamp) (hpause : pause env w admin = .ok w') :
    PauseWorks asset w' ↔ w.pauseDur ≠ 0 := by
  constructor
  · rintro ⟨⟨hpaused, -⟩, -⟩ hzero
    obtain ⟨-, -, -, -, -, -, rfl⟩ := pause_ok hpause
    obtain ⟨-, hexp | hnow⟩ := isPausedRaw_iff.mp hpaused
    · have hexp : w.timestamp + w.pauseDur = 0 := hexp
      omega
    · have hnow : w.timestamp < w.timestamp + w.pauseDur := hnow
      omega
  · intro hdur
    have htimestamp : w'.timestamp = w.timestamp := by
      obtain ⟨-, -, -, -, -, -, rfl⟩ := pause_ok hpause
      rfl
    have hblocks : ∀ steps v, (protocol asset).Run w' steps v → NoUnpause asset steps →
        v.timestamp = w'.timestamp → isPaused v = true ∧ Blocked asset v := by
      intro steps v hrun hnone hsame
      exact pause_blocks hreach hpause hrun hnone (by omega)
    refine ⟨⟨(hblocks [] w' .nil (by simp [NoUnpause]) rfl).1, hblocks⟩, ?_⟩
    intro steps v hrun hnone hlate
    exact pause_ends hreach htime hpause hrun hnone hlate

/-- A day's pause, the default. -/
theorem sample_pause_works : PauseWorks .standard (Sample.after
    [.tick 100, Sample.initialization 6000 8000,
      Sample.signedBy Sample.admin (.pause Sample.admin)]) :=
  (@pause_works_iff _ _ _ ⟨[Sample.admin]⟩ Sample.admin
    (Sample.after_reachable [.tick 100, Sample.initialization 6000 8000])
    (by decide) rfl).mpr (by decide)

/-- With the duration set to zero a pause succeeds and pauses nothing. -/
theorem zero_duration_pauses_nothing :
    ¬ ∀ (asset : AssetContract) (w w' : World) (env : Env) (admin : Address),
      (protocol asset).Reachable w → 0 < w.timestamp → pause env w admin = .ok w' →
        PauseWorks asset w' := by
  intro h
  have hworks := h .standard _ _ ⟨[Sample.admin]⟩ Sample.admin
    (Sample.after_reachable [.tick 100, Sample.initialization 6000 8000,
      Sample.signedBy Sample.admin (.setPauseDuration Sample.admin 0)]) (by decide) rfl
  exact absurd hworks.takesEffect.1 (by decide)

end StellarKraal
