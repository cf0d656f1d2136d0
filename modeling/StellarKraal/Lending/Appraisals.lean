import StellarKraal.Foundation.Streams
import StellarKraal.Lending.Pledges

/-!
# Appraisal histories

Registration starts a collateral's history with its first value, and each appraisal
adds one. The record keeps the last three; a loan request rewrites the record, but
neither its history nor its value.
-/

namespace StellarKraal

open TransitionSystem (Transition)

/-- The value a call gives the collateral if it succeeds. -/
def Call.appraisal (colId : Nat) (w : World) : Call → Option Int
  | .registerLivestock _ _ _ value => if colId = w.collateralCounter + 1 then some value else none
  | .updateAppraisal _ id value => if colId = id then some value else none
  | _ => none

/-- The value a step gives the collateral. -/
def appraisalIn (client : TokenClient) (colId : Nat) (t : Transition World Action) :
    Option Int :=
  match t.action with
  | .call env call =>
      if (call.run client env t.before).isOk then call.appraisal colId t.before else none
  | .tick _ => none
  | .tokenActivity _ => none

/-- All values the collateral was given, the one at its registration first. -/
def appraisals (client : TokenClient) (colId : Nat) (steps : List (Transition World Action)) :
    List Int :=
  steps.filterMap (appraisalIn client colId)

/-- The history and the value of a stored record. -/
def World.appraisal (w : World) (colId : Nat) : Option (List Int × Int) :=
  (w.collaterals.lookup colId).map fun col => (col.appraisalHistory, col.appraisedValue)

/-- The appraisal a collateral with these values has. -/
def lastAppraisals (values : List Int) : Option (List Int × Int) :=
  values.getLast?.map fun value => (values.rtake 3, value)

variable {asset : AssetContract} {w w' : World} {colId : Nat}

/-- The last two of a full history and the new value are the last three. -/
theorem pushAppraisal_rtake (values : List Int) (value : Int) :
    pushAppraisal (values.rtake 3) value = (values ++ [value]).rtake 3 := by
  have hlast : (values.rtake 3).rtake 2 = values.rtake 2 := Trailing.rtake_rtake values 3 2
  rw [pushAppraisal, List.rtake_concat_succ, ← hlast]
  split
  next => rfl
  next hshort => rw [Trailing.rtake_of_length_le (by omega : (values.rtake 3).length ≤ 2)]

/-- One more value, first or later. -/
theorem lastAppraisals_push {values : List Int} {old : Option (List Int × Int)}
    (hold : old = lastAppraisals values) (value : Int) :
    some (pushAppraisal (old.elim [] Prod.fst) value, value) =
      lastAppraisals (values ++ [value]) := by
  have hhistory : old.elim [] Prod.fst = values.rtake 3 := by
    rw [hold, lastAppraisals]
    cases hlast : values.getLast? with
    | none =>
        obtain rfl := List.getLast?_eq_none_iff.mp hlast
        rfl
    | some last => rfl
  rw [hhistory, pushAppraisal_rtake, lastAppraisals, List.getLast?_concat, Option.map_some]

/-! ## Steps -/

theorem appraisalIn_executed {t : Transition World Action} {env : Env} {call : Call}
    (h : Executed asset t env call) :
    appraisalIn asset.client colId t = call.appraisal colId t.before := by
  simp [appraisalIn, h.action, h.isOk]

theorem appraisalIn_idle {t : Transition World Action}
    (h : ∀ env call, ¬ Executed asset t env call)
    (hstep : (protocol asset).Step t.before t.action t.after) :
    appraisalIn asset.client colId t = none := by
  cases haction : t.action with
  | tick | tokenActivity => simp [appraisalIn, haction]
  | call env call => simp [appraisalIn, haction, not_isOk_of_idle h hstep haction]

/-- A step gives the collateral a value, or leaves its history and value alone. -/
inductive AppraisalEffect (colId : Nat) (w w' : World) : Option Int → Prop
  | kept (hsame : w'.appraisal colId = w.appraisal colId) : AppraisalEffect colId w w' none
  | given {value : Int} (hafter : w'.appraisal colId =
      some (pushAppraisal ((w.appraisal colId).elim [] Prod.fst) value, value)) :
      AppraisalEffect colId w w' (some value)

theorem appraisal_congr (hcol : w'.collaterals = w.collaterals) :
    w'.appraisal colId = w.appraisal colId := by
  rw [World.appraisal, World.appraisal, hcol]

theorem appraisal_insert {key : Nat} {col : CollateralRecord}
    (hcol : w'.collaterals = w.collaterals.insert key col) :
    w'.appraisal colId =
      if colId = key then some (col.appraisalHistory, col.appraisedValue)
      else w.appraisal colId := by
  rw [World.appraisal, hcol, KeyedStore.lookup_insert]
  split <;> rfl

/-- Writing a record with one more value. -/
theorem AppraisalEffect.of_insert {key : Nat} {col : CollateralRecord} {value : Int}
    (hcol : w'.collaterals = w.collaterals.insert key col)
    (hhistory : col.appraisalHistory = pushAppraisal ((w.appraisal key).elim [] Prod.fst) value)
    (hvalue : col.appraisedValue = value) :
    AppraisalEffect colId w w' (if colId = key then some value else none) := by
  have hafter := @appraisal_insert w w' colId key col hcol
  split at hafter
  next hid =>
    rw [if_pos hid]
    subst hid
    exact .given (by rw [hafter, hhistory, hvalue])
  next hid =>
    rw [if_neg hid]
    exact .kept hafter

/-- Only registration and re-appraisal write histories and values. -/
theorem BookEffect.keeps_appraisal {env : Env} {call : Call} (h : BookEffect asset env w call w')
    (hregister : ∀ owner animalType count value,
      call ≠ .registerLivestock owner animalType count value)
    (happraise : ∀ owner id value, call ≠ .updateAppraisal owner id value) :
    w'.appraisal colId = w.appraisal colId := by
  cases h with
  | register => exact absurd rfl (hregister _ _ _ _)
  | appraise => exact absurd rfl (happraise _ _ _)
  | originate h =>
      -- Locking a record writes the loan into it and nothing else.
      rw [World.appraisal, h.collateral_lookup, Option.map_map, World.appraisal]
      congr 1
      funext col
      simp only [Function.comp_apply]
      split <;> rfl
  | repay h => exact appraisal_congr (by rw [h.world])
  | liquidate h => exact appraisal_congr (by rw [h.world])
  | withdraw h =>
      obtain ⟨_, -, -, -, -, rfl⟩ := emergencyWithdraw_ok h
      rfl
  | other h => exact appraisal_congr (congrArg Book.collaterals h)

theorem Call.run_appraisal {env : Env} {call : Call} (hsound : CollateralsSound w)
    (hrun : call.run asset.client env w = .ok w') :
    AppraisalEffect colId w w' (call.appraisal colId w) := by
  cases call with
  | registerLivestock owner animalType count value =>
      obtain ⟨id, h⟩ := Call.run_registerLivestock hrun
      obtain ⟨_, -, -, -, -, -, -, -, rfl, rfl⟩ := registerLivestock_ok h
      refine .of_insert rfl ?_ rfl
      rw [World.appraisal, hsound.next_fresh]
      rfl
  | updateAppraisal owner id value =>
      obtain ⟨_, record, -, -, -, -, hrecord, -, -, rfl⟩ := updateAppraisal_ok hrun
      refine .of_insert rfl ?_ rfl
      rw [World.appraisal, hrecord]
      rfl
  | _ => exact .kept ((Call.run_bookEffect hrun).keeps_appraisal nofun nofun)

/-- The step lemma. -/
theorem step_appraisal {a : Action} (hreach : (protocol asset).Reachable w)
    (hstep : (protocol asset).Step w a w') :
    AppraisalEffect colId w w' (appraisalIn asset.client colId ⟨w, a, w'⟩) := by
  rcases protocol_step_cases hstep with ⟨env, call, hexec⟩ | ⟨hidle, _, _, -, -, hafter⟩
  · rw [appraisalIn_executed hexec]
    exact Call.run_appraisal (reachable_collaterals hreach) hexec.run
  · rw [appraisalIn_idle hidle hstep]
    exact .kept (appraisal_congr (by rw [hafter]))

/-! ## Runs -/

theorem run_appraisal {start : World} {steps : List (Transition World Action)}
    (hstart : (protocol asset).Initial start) (hrun : (protocol asset).Run start steps w) :
    w.appraisal colId = lastAppraisals (appraisals asset.client colId steps) := by
  induction hrun with
  | nil =>
      obtain ⟨timestamp, ledger, rfl⟩ := hstart
      rfl
  | @snoc steps s s' a prior step ih =>
      have heffect := @step_appraisal _ _ _ colId a
        ((TransitionSystem.Reachable.of_initial hstart).run prior) step
      rw [appraisals] at ih ⊢
      rw [List.filterMap_append]
      cases hvalue : appraisalIn asset.client colId ⟨s, a, s'⟩ with
      | none =>
          rw [hvalue] at heffect
          obtain ⟨hsame⟩ := heffect
          simpa [hvalue, hsame] using ih
      | some value =>
          rw [hvalue] at heffect
          cases heffect with
          | given hafter => simpa [hvalue, hafter] using lastAppraisals_push ih value

/-- The history of a collateral is the last three of the values it was given, in order,
and the value is the last of them. Whatever gives it no value leaves both alone. -/
theorem appraisal_history_is_tail {start : World} {steps : List (Transition World Action)}
    (hstart : (protocol asset).Initial start) (hrun : (protocol asset).Run start steps w)
    (colId : Nat) :
    (w.collaterals.lookup colId = none ↔ appraisals asset.client colId steps = []) ∧
    (∀ col, w.collaterals.lookup colId = some col →
      col.appraisalHistory = (appraisals asset.client colId steps).rtake 3 ∧
        col.appraisalHistory.getLast? = some col.appraisedValue) ∧
    ∀ t ∈ steps, appraisalIn asset.client colId t = none →
      (t.after.collaterals.lookup colId).map
          (fun col => (col.appraisalHistory, col.appraisedValue)) =
        (t.before.collaterals.lookup colId).map
          fun col => (col.appraisalHistory, col.appraisedValue) := by
  have hall := @run_appraisal _ _ colId _ _ hstart hrun
  refine ⟨?_, ?_, ?_⟩
  · rw [← Option.map_eq_none_iff (f := fun col => (col.appraisalHistory, col.appraisedValue))]
    rw [World.appraisal] at hall
    rw [hall, lastAppraisals, Option.map_eq_none_iff, List.getLast?_eq_none_iff]
  · intro col hcol
    rw [World.appraisal, hcol, Option.map_some, lastAppraisals] at hall
    obtain ⟨value, hlast, hpair⟩ := Option.map_eq_some_iff.mp hall.symm
    obtain ⟨hhistory, rfl⟩ := Prod.mk.inj hpair
    rw [← hhistory, Trailing.getLast?_rtake (by decide)]
    exact ⟨rfl, hlast⟩
  · intro t ht hnone
    obtain ⟨hreach, hstep⟩ := hrun.mem_step (.of_initial hstart) ht
    have heffect := @step_appraisal _ _ _ colId _ hreach hstep
    rw [hnone] at heffect
    obtain ⟨hsame⟩ := heffect
    exact hsame

namespace Sample

def appraisal (newValue : Int) : Action :=
  signedBy farmer (.updateAppraisal farmer 1 newValue)

end Sample

/-- A herd appraised three times after its registration, with a loan taken in between. -/
theorem sample_appraisal_history :
    ∃ steps w col, (protocol .standard).Run Sample.world steps w ∧
      appraisals AssetContract.standard.client 1 steps = [1000000, 900000, 1100000, 1200000] ∧
      w.collaterals.lookup 1 = some col ∧ col.loanId = 1 ∧
      col.appraisalHistory = (appraisals AssetContract.standard.client 1 steps).rtake 3 ∧
      col.appraisalHistory.getLast? = some col.appraisedValue := by
  have hrun : (protocol .standard).Run Sample.world _ _ := Run.of_script
    [Sample.initialization 6000 8000, Sample.registration 1000000, Sample.appraisal 900000,
      Sample.request 500000, Sample.appraisal 1100000, Sample.appraisal 1200000] rfl
  obtain ⟨-, htail, -⟩ := appraisal_history_is_tail ⟨0, _, rfl⟩ hrun 1
  exact ⟨_, _, _, hrun, rfl, rfl, rfl, htail _ rfl⟩

end StellarKraal
