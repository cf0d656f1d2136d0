import StellarKraal.Foundation.History
import StellarKraal.Lending.Appraisals

/-!
# Animal caps

The admin may cap what a herd of one type is accepted at. Two calls write the
appraised value; registration compares it with the cap and re-appraisal does not.
-/

namespace StellarKraal

open TransitionSystem (Transition HistoryVariable)

variable {asset : AssetContract}

/-! ## Writes to the appraised value -/

/-- A write to an appraised value: where, and the cap in force for the animal type. -/
structure ValueWrite where
  colId : Nat
  cap : Option Int

/-- The write a call makes if it succeeds. -/
def Call.valueWrite (w : World) : Call → Option ValueWrite
  | .registerLivestock _ animalType _ _ =>
      some ⟨w.collateralCounter + 1, w.animalCaps.lookup animalType⟩
  | .updateAppraisal _ colId _ =>
      (w.collaterals.lookup colId).map fun record => ⟨colId, w.animalCaps.lookup record.animalType⟩
  | _ => none

/-- The write a step makes. -/
def valueWriteOf (client : TokenClient) (t : Transition World Action) : Option ValueWrite :=
  match t.action with
  | .call env call =>
      if (call.run client env t.before).isOk then call.valueWrite t.before else none
  | .tick _ => none
  | .tokenActivity _ => none

/-- For each collateral, the cap that was in force when its value was last written. -/
def capAtWrite (client : TokenClient) : HistoryVariable World Action (Nat → Option Int) where
  start _ := none
  update caps t :=
    match valueWriteOf client t with
    | none => caps
    | some write => Function.update caps write.colId write.cap

theorem valueWriteOf_executed {t : Transition World Action} {env : Env} {call : Call}
    (h : Executed asset t env call) :
    valueWriteOf asset.client t = call.valueWrite t.before := by
  simp [valueWriteOf, h.action, h.isOk]

theorem valueWriteOf_idle {t : Transition World Action}
    (h : ∀ env call, ¬ Executed asset t env call)
    (hstep : (protocol asset).Step t.before t.action t.after) :
    valueWriteOf asset.client t = none := by
  cases haction : t.action with
  | tick | tokenActivity => simp [valueWriteOf, haction]
  | call env call => simp [valueWriteOf, haction, not_isOk_of_idle h hstep haction]

def World.valueOf (w : World) (colId : Nat) : Option Int :=
  (w.collaterals.lookup colId).map CollateralRecord.appraisedValue

/-- The step gives an animal no new appraisal above the cap on its type. -/
def AppraisesWithinCap (asset : AssetContract) (t : Transition World Action) : Prop :=
  ∀ env owner colId newValue record cap,
    Executed asset t env (.updateAppraisal owner colId newValue) →
      t.before.collaterals.lookup colId = some record →
        t.before.animalCaps.lookup record.animalType = some cap → newValue ≤ cap

/-- A step writes one value or none. -/
inductive ValueStep (asset : AssetContract) (t : Transition World Action) : Prop
  | writes {write : ValueWrite} {value : Int}
      (hwrite : valueWriteOf asset.client t = some write)
      (h : ∀ colId, t.after.valueOf colId =
        if colId = write.colId then some value else t.before.valueOf colId)
      (hgood : AppraisesWithinCap asset t ↔ ∀ cap, write.cap = some cap → value ≤ cap)
  | keeps (hwrite : valueWriteOf asset.client t = none)
      (h : ∀ colId, t.after.valueOf colId = t.before.valueOf colId)
      (hgood : AppraisesWithinCap asset t)

theorem valueOf_insert {w w' : World} {key : Nat} {col : CollateralRecord}
    (h : w'.collaterals = w.collaterals.insert key col) (colId : Nat) :
    w'.valueOf colId = if colId = key then some col.appraisedValue else w.valueOf colId := by
  rw [World.valueOf, h, KeyedStore.lookup_insert]
  split <;> rfl

/-- Only registration and re-appraisal write values. -/
theorem BookEffect.keeps_values {env : Env} {call : Call} {w w' : World}
    (h : BookEffect asset env w call w')
    (hregister : ∀ owner animalType count value,
      call ≠ .registerLivestock owner animalType count value)
    (happraise : ∀ owner colId newValue, call ≠ .updateAppraisal owner colId newValue)
    (colId : Nat) : w'.valueOf colId = w.valueOf colId := by
  have hvalue : ∀ w : World, w.valueOf colId = (w.appraisal colId).map Prod.snd := by
    intro w
    rw [World.valueOf, World.appraisal, Option.map_map]
    rfl
  rw [hvalue, hvalue, h.keeps_appraisal hregister happraise]

theorem value_step {t : Transition World Action}
    (hstep : (protocol asset).Step t.before t.action t.after) : ValueStep asset t := by
  rcases protocol_step_cases hstep with ⟨env, call, hexec⟩ | ⟨hidle, _, _, -, -, hafter⟩
  · have hwrite := valueWriteOf_executed hexec
    -- Of the two writers only the re-appraisal is bound by the condition.
    have hfree : (∀ owner colId newValue, call ≠ .updateAppraisal owner colId newValue) →
        AppraisesWithinCap asset t := fun hnot env' owner colId newValue _ _ hexec' =>
      absurd (hexec.only hexec') (hnot owner colId newValue)
    have heffect := Call.run_bookEffect hexec.run
    cases call with
    | registerLivestock owner animalType count value =>
        obtain ⟨id, hrun⟩ := Call.run_registerLivestock hexec.run
        obtain ⟨_, -, -, -, -, hcap, -, -, rfl, hafter⟩ := registerLivestock_ok hrun
        refine .writes hwrite (valueOf_insert (congrArg World.collaterals hafter)) ?_
        exact iff_of_true (hfree nofun) hcap
    | updateAppraisal owner colId newValue =>
        obtain ⟨_, record, -, -, -, -, hrecord, -, -, hafter⟩ := updateAppraisal_ok hexec.run
        simp only [Call.valueWrite, hrecord, Option.map_some] at hwrite
        refine .writes hwrite (valueOf_insert (congrArg World.collaterals hafter)) ?_
        constructor
        · intro hgood cap hcap
          exact hgood env owner colId newValue record cap hexec hrecord hcap
        · intro hwithin env' owner' colId' newValue' record' cap hexec' hrecord' hcap
          obtain ⟨-, rfl, rfl⟩ := Call.updateAppraisal.inj (hexec.only hexec')
          obtain rfl := Option.mem_unique hrecord hrecord'
          exact hwithin cap hcap
    | _ => exact .keeps hwrite (heffect.keeps_values nofun nofun) (hfree nofun)
  · refine .keeps (valueWriteOf_idle hidle hstep) (fun colId => by rw [hafter]; rfl) ?_
    exact fun _ _ _ _ _ _ hexec => absurd hexec (hidle _ _)

/-! ## Values and caps -/

/-- No value is above the cap that was in force when it was written. -/
def CapsBind (client : TokenClient) (steps : List (Transition World Action)) (w : World) : Prop :=
  ∀ colId col cap, w.collaterals.lookup colId = some col →
    (capAtWrite client).after steps colId = some cap → col.appraisedValue ≤ cap

theorem capsBind_iff {client : TokenClient} {steps : List (Transition World Action)} {w : World} :
    CapsBind client steps w ↔ ∀ colId value cap, w.valueOf colId = some value →
      (capAtWrite client).after steps colId = some cap → value ≤ cap := by
  constructor
  · intro h colId value cap hvalue hcap
    obtain ⟨col, hcol, rfl⟩ := Option.map_eq_some_iff.mp hvalue
    exact h colId col cap hcol hcap
  · intro h colId col cap hcol hcap
    exact h colId _ cap (by rw [World.valueOf, hcol]; rfl) hcap

/-- The step lemma, in both directions. -/
theorem ValueStep.capsBind_iff {steps : List (Transition World Action)} {w w' : World}
    {a : Action} (h : ValueStep asset ⟨w, a, w'⟩) (hw : CapsBind asset.client steps w) :
    CapsBind asset.client (steps ++ [⟨w, a, w'⟩]) w' ↔ AppraisesWithinCap asset ⟨w, a, w'⟩ := by
  rw [StellarKraal.capsBind_iff] at hw ⊢
  rw [TransitionSystem.HistoryVariable.after_snoc]
  cases h with
  | @writes write _ hwrite h hgood =>
      rw [hgood]
      simp only [capAtWrite, hwrite, h] at hw ⊢
      constructor
      · intro hafter cap hcap
        exact hafter _ _ cap (if_pos rfl) (by simpa using hcap)
      · intro hwithin colId value cap hvalue hcap
        by_cases hsame : colId = write.colId
        · subst hsame
          rw [if_pos rfl, Option.some.injEq] at hvalue
          rw [Function.update_self] at hcap
          exact hvalue ▸ hwithin cap hcap
        · rw [if_neg hsame] at hvalue
          rw [Function.update_of_ne hsame] at hcap
          exact hw colId value cap hvalue hcap
  | keeps hwrite h hgood =>
      refine iff_of_true ?_ hgood
      simp only [capAtWrite, hwrite] at hw ⊢
      simpa only [h] using hw

/-- In a life of the contract the caps bind at every moment exactly when every
re-appraisal stays within the cap of the animal type. -/
theorem caps_bind_iff_appraisals_within {start w : World}
    {steps : List (Transition World Action)} (hstart : (protocol asset).Initial start)
    (hrun : (protocol asset).Run start steps w) :
    (protocol asset).Throughout start steps (CapsBind asset.client) ↔
      ∀ t ∈ steps, AppraisesWithinCap asset t := by
  apply TransitionSystem.Throughout.iff_forall hrun
  · obtain ⟨timestamp, ledger, rfl⟩ := hstart
    intro colId col cap hcol
    nomatch hcol
  · intro earlier s a s' _ hs hstep
    exact (value_step (t := ⟨s, a, s'⟩) hstep).capsBind_iff hs

namespace Sample

def capping (cap : Int) : Action := signedBy admin (.setAnimalCap admin "cattle" cap)

end Sample

/-- A herd at the cap, appraised again under a higher one. -/
theorem sample_caps_bind :
    ∃ steps w, (protocol .standard).Run Sample.world steps w ∧ w.valueOf 1 = some 1500000 ∧
      ((protocol .standard).Throughout Sample.world steps
          (CapsBind AssetContract.standard.client) ↔
        ∀ t ∈ steps, AppraisesWithinCap .standard t) := by
  have hrun : (protocol .standard).Run Sample.world _ _ := Run.of_script
    [Sample.initialization 6000 8000, Sample.capping 1000000, Sample.registration 1000000,
      Sample.capping 2000000, Sample.appraisal 1500000] rfl
  exact ⟨_, _, hrun, rfl, caps_bind_iff_appraisals_within ⟨0, _, rfl⟩ hrun⟩

/-- A herd registered at the cap and appraised at twice the cap. -/
theorem appraisal_above_cap :
    ¬ ∀ (asset : AssetContract) (start w : World) (steps : List (Transition World Action)),
      (protocol asset).Initial start → (protocol asset).Run start steps w →
        CapsBind asset.client steps w := by
  intro hall
  have hrun : (protocol .standard).Run Sample.world _ _ := Run.of_script
    [Sample.initialization 6000 8000, Sample.capping 1000000, Sample.registration 1000000,
      Sample.appraisal 2000000] rfl
  have hbound := hall .standard _ _ _ ⟨0, _, rfl⟩ hrun 1 _ 1000000 rfl rfl
  exact absurd hbound (by decide)

end StellarKraal
