import StellarKraal.Contract.ConfigEffects

/-!
# Risk parameters

Five numbers decide how much may be borrowed, when a loan may be liquidated and
what is charged. Seen from them, a call either moves the one or two it is for,
within the range its own check allows, or moves none.
-/

namespace StellarKraal

open TransitionSystem (Transition)

structure RiskParameters where
  ltv : Nat
  liqThr : Nat
  closeFactor : Nat
  origFee : Nat
  intFee : Nat
  deriving DecidableEq, Repr

def Config.risk (c : Config) : RiskParameters :=
  ⟨c.ltv, c.liqThr, c.closeFactor, c.origFee, c.intFee⟩

namespace RiskParameters

/-- The parameters right after initialisation. -/
def initial (ltv liqThr : Nat) : RiskParameters :=
  { ltv, liqThr, closeFactor := 5000, origFee := 50, intFee := 1000 }

/-- The coherence one would ask of the parameters. -/
structure Coherent (p : RiskParameters) : Prop where
  ltv_pos : 1 ≤ p.ltv
  ltv_max : p.ltv ≤ 9000
  ltv_le_liqThr : p.ltv ≤ p.liqThr
  liqThr_max : p.liqThr ≤ 10000
  closeFactor_pos : 1 ≤ p.closeFactor
  closeFactor_max : p.closeFactor ≤ 10000
  origFee_max : p.origFee ≤ 500
  intFee_max : p.intFee ≤ 500

/-- The ranges that every write keeps on its own. -/
structure InRange (p : RiskParameters) : Prop where
  ltv_pos : 1 ≤ p.ltv
  ltv_max : p.ltv ≤ 9000
  liqThr_pos : 1 ≤ p.liqThr
  closeFactor_pos : 1 ≤ p.closeFactor
  closeFactor_max : p.closeFactor ≤ 10000
  origFee_max : p.origFee ≤ 500
  intFee_max : p.intFee ≤ 500 ∨ p.intFee = 1000

/-- What a successful call may do to the parameters in force. -/
inductive Update (p : RiskParameters) : Call → RiskParameters → Prop
  | ltv {admin : Address} {bps : Nat} (hmin : 1000 ≤ bps) (hmax : bps ≤ 9000) :
      Update p (.setLtv admin bps) { p with ltv := bps }
  | liqThr {admin : Address} {bps : Nat} (hpos : 0 < bps) (hmax : bps ≤ 10000) :
      Update p (.setLiquidationThreshold admin bps) { p with liqThr := bps }
  | closeFactor {admin : Address} {bps : Nat} (hpos : 0 < bps) (hmax : bps ≤ 10000) :
      Update p (.setCloseFactor admin bps) { p with closeFactor := bps }
  | fees {admin : Address} {orig int : Nat} (horig : orig ≤ 500) (hint : int ≤ 500) :
      Update p (.updateFeeConfig admin orig int) { p with origFee := orig, intFee := int }
  | same {call : Call} : Update p call p

variable {p p' : RiskParameters} {call : Call}

theorem initial_inRange {ltv liqThr : Nat} (hpos : 0 < ltv) (hmax : ltv ≤ 9000)
    (hthr : ltv ≤ liqThr) : (initial ltv liqThr).InRange where
  ltv_pos := hpos
  ltv_max := hmax
  liqThr_pos := le_trans hpos hthr
  closeFactor_pos := by simp [initial]
  closeFactor_max := by simp [initial]
  origFee_max := by simp [initial]
  intFee_max := by simp [initial]

theorem Update.inRange (h : Update p call p') (hp : p.InRange) : p'.InRange := by
  cases h with
  | ltv hmin hmax => exact { hp with ltv_pos := le_trans (by decide) hmin, ltv_max := hmax }
  | liqThr hpos => exact { hp with liqThr_pos := hpos }
  | closeFactor hpos hmax => exact { hp with closeFactor_pos := hpos, closeFactor_max := hmax }
  | fees horig hint => exact { hp with origFee_max := horig, intFee_max := .inl hint }
  | same => exact hp

/-- A capped interest fee stays capped. -/
theorem Update.intFee_capped (h : Update p call p') (hp : p.intFee ≤ 500) : p'.intFee ≤ 500 := by
  cases h with
  | fees _ hint => exact hint
  | ltv | liqThr | closeFactor | same => exact hp

/-- Only a fee update moves the interest fee. -/
theorem Update.intFee_cases (h : Update p call p') :
    p'.intFee = p.intFee ∨ ∃ admin orig, call = .updateFeeConfig admin orig p'.intFee := by
  cases h with
  | @fees admin orig => exact .inr ⟨admin, orig, rfl⟩
  | ltv | liqThr | closeFactor | same => exact .inl rfl

theorem Update.liqThr_capped (h : Update p call p') (hp : p.liqThr ≤ 10000) :
    p'.liqThr ≤ 10000 := by
  cases h with
  | liqThr _ hmax => exact hmax
  | ltv | fees | closeFactor | same => exact hp

/-- The order of limit and threshold survives setters that respect it. -/
theorem Update.ordered (h : Update p call p') (hp : p.ltv ≤ p.liqThr)
    (hltv : ∀ admin bps, call = .setLtv admin bps → bps ≤ p.liqThr)
    (hthr : ∀ admin bps, call = .setLiquidationThreshold admin bps → p.ltv ≤ bps) :
    p'.ltv ≤ p'.liqThr := by
  cases h with
  | ltv => exact hltv _ _ rfl
  | liqThr => exact hthr _ _ rfl
  | closeFactor | fees | same => exact hp

end RiskParameters

open RiskParameters (Update)

variable {asset : AssetContract}

/-- The configuration after a call is a fresh one, or its parameters are an
update of those before. -/
theorem ConfigEffect.risk {env : Env} {w w' : World} {call : Call} {c' : Config}
    (h : ConfigEffect env w call w') (hc' : w'.config = some c') :
    (∃ admin oracle token treasury ltv thr quorum,
      call = .initializeContract admin oracle token treasury ltv thr quorum ∧ w.config = none ∧
        0 < ltv ∧ ltv ≤ 9000 ∧ ltv ≤ thr ∧ c'.risk = RiskParameters.initial ltv thr) ∨
      ∃ c, w.config = some c ∧ Update c.risk call c'.risk := by
  cases h with
  | initialized hnone hpos hmax hthr h =>
      obtain rfl := Option.mem_unique h hc'
      exact .inl ⟨_, _, _, _, _, _, _, rfl, hnone, hpos, hmax, hthr, rfl⟩
  | ltv hadmin hmin hmax h =>
      obtain rfl := Option.mem_unique h hc'
      exact .inr ⟨_, hadmin.config, .ltv hmin hmax⟩
  | liqThr hadmin hpos hmax h =>
      obtain rfl := Option.mem_unique h hc'
      exact .inr ⟨_, hadmin.config, .liqThr hpos hmax⟩
  | closeFactor hadmin hpos hmax h =>
      obtain rfl := Option.mem_unique h hc'
      exact .inr ⟨_, hadmin.config, .closeFactor hpos hmax⟩
  | fees hadmin horig hint h =>
      obtain rfl := Option.mem_unique h hc'
      exact .inr ⟨_, hadmin.config, .fees horig hint⟩
  | oracle hadmin h =>
      obtain rfl := Option.mem_unique h hc'
      exact .inr ⟨_, hadmin.config, .same⟩
  | admin hc _ _ h =>
      obtain rfl := Option.mem_unique h hc'
      exact .inr ⟨_, hc, .same⟩
  | prices hc h =>
      obtain rfl := Option.mem_unique h hc'
      exact .inr ⟨_, hc, .same⟩
  | price hc h =>
      obtain rfl := Option.mem_unique h hc'
      exact .inr ⟨_, hc, .same⟩
  | same h => exact .inr ⟨c', h.symm.trans hc', .same⟩

/-- In every reachable world the parameters are in range. -/
theorem reachable_inRange {w : World} (h : (protocol asset).Reachable w) :
    ∀ c, w.config = some c → c.risk.InRange := by
  apply reachable_invariant (fun w => ∀ c, w.config = some c → c.risk.InRange) (h := h)
  · intro timestamp ledger c hc
    contradiction
  · intro env call w w' _ hinv hrun c' hc'
    rcases (Call.run_configEffect hrun).risk hc' with
      ⟨_, _, _, _, _, _, _, -, -, hpos, hmax, hthr, hc'⟩ | ⟨c, hc, hupdate⟩
    · rw [hc']
      exact RiskParameters.initial_inRange hpos hmax hthr
    · exact hupdate.inRange (hinv c hc)
  · intro w timestamp ledger hinv _ _
    exact hinv

/-! ## Along a run -/

/-- The step is a fee update. -/
def UpdatesFees (asset : AssetContract) (t : Transition World Action) : Prop :=
  ∃ env admin orig int, Executed asset t env (.updateFeeConfig admin orig int)

/-- If the step initialises the contract, then with a threshold of at most 100 %. -/
def CapsThreshold (asset : AssetContract) (t : Transition World Action) : Prop :=
  ∀ env admin oracle token treasury ltv thr quorum,
    Executed asset t env (.initializeContract admin oracle token treasury ltv thr quorum) →
      thr ≤ 10000

/-- If the step sets the limit or the threshold, then in order with the other one. -/
def SetsInOrder (asset : AssetContract) (t : Transition World Action) : Prop :=
  (∀ env admin bps c, Executed asset t env (.setLtv admin bps) →
    t.before.config = some c → bps ≤ c.liqThr) ∧
  (∀ env admin bps c, Executed asset t env (.setLiquidationThreshold admin bps) →
    t.before.config = some c → c.ltv ≤ bps)

/-- What a run so far tells about the parameters in force. -/
structure RiskParameters.KeptBy (p : RiskParameters) (asset : AssetContract)
    (steps : List (Transition World Action)) : Prop where
  inRange : p.InRange
  fees : (∃ t ∈ steps, UpdatesFees asset t) → p.intFee ≤ 500
  threshold : (∀ t ∈ steps, CapsThreshold asset t) → p.liqThr ≤ 10000
  ordered : (∀ t ∈ steps, SetsInOrder asset t) → p.ltv ≤ p.liqThr

theorem UpdatesFees.intFee_capped {t : Transition World Action} {c' : Config}
    (h : UpdatesFees asset t) (hc' : t.after.config = some c') : c'.intFee ≤ 500 := by
  obtain ⟨env, admin, orig, int, hexec⟩ := h
  obtain ⟨c, -, -, -, -, -, hint, hworld⟩ := updateFeeConfig_ok hexec.run
  rw [hworld] at hc'
  obtain rfl := Option.some.inj hc'
  exact hint

namespace RiskParameters.KeptBy

variable {steps : List (Transition World Action)} {t : Transition World Action}

/-- The first call that can leave a configuration behind is the initialisation. -/
theorem initialized {env : Env} {admin oracle token treasury : Address} {ltv thr quorum : Nat}
    (hexec : Executed asset t env
      (.initializeContract admin oracle token treasury ltv thr quorum))
    (hnofees : ∀ s ∈ steps ++ [t], ¬ UpdatesFees asset s)
    (hpos : 0 < ltv) (hmax : ltv ≤ 9000) (hthr : ltv ≤ thr) :
    (initial ltv thr).KeptBy asset (steps ++ [t]) where
  inRange := initial_inRange hpos hmax hthr
  fees := fun ⟨s, hs, hfees⟩ => absurd hfees (hnofees s hs)
  threshold hcaps := hcaps t (List.mem_append_right _ List.mem_cons_self) _ _ _ _ _ _ _ _ hexec
  ordered _ := hthr

theorem updated {env : Env} {call : Call} {c c' : Config} (hexec : Executed asset t env call)
    (hc : t.before.config = some c) (hc' : t.after.config = some c')
    (hupdate : Update c.risk call c'.risk) (hkept : c.risk.KeptBy asset steps) :
    c'.risk.KeptBy asset (steps ++ [t]) where
  inRange := hupdate.inRange hkept.inRange
  fees := by
    rintro ⟨s, hs, hfees⟩
    rcases List.mem_append.mp hs with hs | hs
    · exact hupdate.intFee_capped (hkept.fees ⟨s, hs, hfees⟩)
    · obtain rfl := List.mem_singleton.mp hs
      exact hfees.intFee_capped hc'
  threshold hcaps :=
    hupdate.liqThr_capped (hkept.threshold fun s hs => hcaps s (List.mem_append_left _ hs))
  ordered hsets := by
    obtain ⟨hltv, hthr⟩ := hsets t (List.mem_append_right _ List.mem_cons_self)
    refine hupdate.ordered (hkept.ordered fun s hs => hsets s (List.mem_append_left _ hs)) ?_ ?_
    · rintro admin bps rfl
      exact hltv env admin bps c hexec hc
    · rintro admin bps rfl
      exact hthr env admin bps c hexec hc

/-- A step without a successful call adds nothing. -/
theorem idle {p : RiskParameters} (hidle : ∀ env call, ¬ Executed asset t env call)
    (hkept : p.KeptBy asset steps) : p.KeptBy asset (steps ++ [t]) where
  inRange := hkept.inRange
  fees := by
    rintro ⟨s, hs, hfees⟩
    rcases List.mem_append.mp hs with hs | hs
    · exact hkept.fees ⟨s, hs, hfees⟩
    · obtain rfl := List.mem_singleton.mp hs
      obtain ⟨env, admin, orig, int, hexec⟩ := hfees
      exact absurd hexec (hidle _ _)
  threshold hcaps := hkept.threshold fun s hs => hcaps s (List.mem_append_left _ hs)
  ordered hsets := hkept.ordered fun s hs => hsets s (List.mem_append_left _ hs)

end RiskParameters.KeptBy

/-- The run lemma: an uninitialised contract has seen no fee update, and the
parameters of an initialised one are kept by the run so far. -/
theorem run_keeps_parameters {start w : World} {steps : List (Transition World Action)}
    (hstart : (protocol asset).Initial start) (hrun : (protocol asset).Run start steps w) :
    (w.config = none → ∀ t ∈ steps, ¬ UpdatesFees asset t) ∧
      ∀ c, w.config = some c → c.risk.KeptBy asset steps := by
  induction hrun with
  -- The first half is what the initialisation needs: it starts a run without fee updates.
  | nil =>
      obtain ⟨timestamp, ledger, rfl⟩ := hstart
      exact ⟨fun _ t ht => absurd ht (List.not_mem_nil), fun c hc => nomatch hc⟩
  | @snoc steps w w' a prior step ih =>
      obtain ⟨hnone, hkept⟩ := ih
      rcases protocol_step_cases step with
        ⟨env, call, hexec⟩ | ⟨hidle, timestamp, ledger, -, -, rfl⟩
      · have heffect := Call.run_configEffect hexec.run
        have hnofees : w.config = none → ∀ t ∈ steps ++ [⟨w, a, w'⟩], ¬ UpdatesFees asset t := by
          intro hw t ht
          rcases List.mem_append.mp ht with ht | ht
          · exact hnone hw t ht
          · obtain rfl := List.mem_singleton.mp ht
            rintro ⟨env, admin, orig, int, hexec⟩
            obtain ⟨c, hc, -⟩ := updateFeeConfig_ok hexec.run
            exact absurd (hw.symm.trans hc) (by simp)
        refine ⟨fun hw' => hnofees (heffect.config_none hw'), fun c' hc' => ?_⟩
        rcases heffect.risk hc' with
          ⟨_, _, _, _, _, _, _, rfl, hw, hpos, hmax, hthr, hc'⟩ | ⟨c, hc, hupdate⟩
        · rw [hc']
          exact .initialized hexec (hnofees hw) hpos hmax hthr
        · exact (hkept c hc).updated hexec hc hc' hupdate
      · refine ⟨fun hw t ht => ?_, fun c hc => (hkept c hc).idle hidle⟩
        rcases List.mem_append.mp ht with ht | ht
        · exact hnone hw t ht
        · obtain rfl := List.mem_singleton.mp ht
          rintro ⟨env, admin, orig, int, hexec⟩
          exact hidle _ _ hexec

/-- The parameters in force, at any moment of any life of the contract. -/
theorem parameters_kept_by_runs {start w : World} {steps : List (Transition World Action)}
    {c : Config} (hstart : (protocol asset).Initial start)
    (hrun : (protocol asset).Run start steps w) (hc : w.config = some c) :
    c.risk.KeptBy asset steps :=
  (run_keeps_parameters hstart hrun).2 c hc

/-- After the first fee update nothing is left of the initial 10 %. -/
theorem sample_parameters_kept :
    ∃ steps w c, (protocol .standard).Run Sample.world steps w ∧ w.config = some c ∧
      c.risk = ⟨7000, 8000, 5000, 100, 200⟩ ∧ c.risk.KeptBy .standard steps := by
  have hrun : (protocol .standard).Run Sample.world _ _ := Run.of_script
    [Sample.initialization 6000 8000,
      Sample.signedBy Sample.admin (.updateFeeConfig Sample.admin 100 200),
      Sample.signedBy Sample.admin (.setLtv Sample.admin 7000)] rfl
  exact ⟨_, _, _, hrun, rfl, rfl, parameters_kept_by_runs ⟨0, _, rfl⟩ hrun rfl⟩

/-- The limit may be set above the threshold, and a new contract charges 10 % interest. -/
theorem parameters_incoherent :
    ¬ ∀ (asset : AssetContract) (w : World) (c : Config), (protocol asset).Reachable w →
      w.config = some c → c.risk.Coherent := by
  intro hcoherent
  have hrun : (protocol .standard).Run Sample.world _ _ := Run.of_script
    [Sample.initialization 6000 8000,
      Sample.signedBy Sample.admin (.setLtv Sample.admin 9000)] rfl
  have hw := hcoherent .standard _ _ ((Sample.world_reachable _).run hrun) rfl
  exact absurd hw.ltv_le_liqThr (by decide)

end StellarKraal
