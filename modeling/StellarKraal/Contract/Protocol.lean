import StellarKraal.Foundation.TransitionSystem
import StellarKraal.Contract.Collateral
import StellarKraal.Contract.LendingEffects
import StellarKraal.Contract.Oracles

/-!
# The contract as a transition system

A step is a call by any set of signers, the passing of time, or token activity
that does not involve the contract's own funds. The host rolls a failed call
back, so a call that errs or traps leaves the world as it was.
-/

namespace StellarKraal

open TransitionSystem (Transition)

/-- The entry points with their arguments. The read-only ones write nothing and
are one constructor. -/
inductive Call
  | initializeContract (admin oracle token treasury : Address)
      (ltvBps liquidationThresholdBps minQuorum : Nat)
  | pause (admin : Address)
  | unpause (admin : Address)
  | setPauseDuration (admin : Address) (duration : Nat)
  | updateOracle (admin newOracle : Address) (newMinQuorum : Nat)
  | setAnimalCap (admin : Address) (animalType : Symbol) (maxValue : Int)
  | setLiquidationThreshold (admin : Address) (thresholdBps : Nat)
  | proposeNewAdmin (admin newAdmin : Address)
  | acceptAdminRole (newAdmin : Address)
  | registerLivestock (owner : Address) (animalType : Symbol) (count : Nat) (appraisedValue : Int)
  | requestLoan (borrower : Address) (collateralIds : List Nat) (amount : Int)
  | repayLoan (borrower : Address) (loanId : Nat) (amount : Int)
  | liquidate (liquidator : Address) (loanId : Nat) (repayAmount : Int)
  | setCloseFactor (admin : Address) (closeFactorBps : Nat)
  | addLiquidator (admin liquidator : Address)
  | removeLiquidator (admin liquidator : Address)
  | updateAppraisal (owner : Address) (collateralId : Nat) (newValue : Int)
  | updateFeeConfig (admin : Address) (originationFeeBps interestFeeBps : Nat)
  | emergencyWithdraw (admin recipient : Address)
  | setLtv (admin : Address) (ltvBps : Nat)
  | addOracle (admin oracle : Address)
  | removeOracle (admin oracle : Address)
  | submitOraclePrices (submitter : Address) (prices : List Int)
  | submitPrice (oracle : Address) (price : Int)
  | proposeUpgrade (admin : Address) (newWasmHash : Nat)
  | executeUpgrade
  | cancelUpgrade (admin : Address)
  | query

/-- The world a call ends in, its return value dropped. -/
def Call.run (client : TokenClient) (env : Env) (w : World) : Call → Result World
  | .initializeContract admin oracle token treasury ltvBps thrBps minQuorum =>
      StellarKraal.initializeContract env w admin oracle token treasury ltvBps thrBps minQuorum
  | .pause admin => StellarKraal.pause env w admin
  | .unpause admin => StellarKraal.unpause env w admin
  | .setPauseDuration admin duration => StellarKraal.setPauseDuration env w admin duration
  | .updateOracle admin newOracle quorum => StellarKraal.updateOracle env w admin newOracle quorum
  | .setAnimalCap admin animalType cap => StellarKraal.setAnimalCap env w admin animalType cap
  | .setLiquidationThreshold admin bps => StellarKraal.setLiquidationThreshold env w admin bps
  | .proposeNewAdmin admin newAdmin => StellarKraal.proposeNewAdmin env w admin newAdmin
  | .acceptAdminRole newAdmin => StellarKraal.acceptAdminRole env w newAdmin
  | .registerLivestock owner animalType count value => do
      let (w, _) ← StellarKraal.registerLivestock env w owner animalType count value
      return w
  | .requestLoan borrower ids amount => do
      let (w, _) ← StellarKraal.requestLoan client env w borrower ids amount
      return w
  | .repayLoan borrower loanId amount => StellarKraal.repayLoan client env w borrower loanId amount
  | .liquidate liquidator loanId amount =>
      StellarKraal.liquidate client env w liquidator loanId amount
  | .setCloseFactor admin bps => StellarKraal.setCloseFactor env w admin bps
  | .addLiquidator admin liquidator => StellarKraal.addLiquidator env w admin liquidator
  | .removeLiquidator admin liquidator => StellarKraal.removeLiquidator env w admin liquidator
  | .updateAppraisal owner colId value => StellarKraal.updateAppraisal env w owner colId value
  | .updateFeeConfig admin orig int => StellarKraal.updateFeeConfig env w admin orig int
  | .emergencyWithdraw admin recipient =>
      StellarKraal.emergencyWithdraw client env w admin recipient
  | .setLtv admin bps => StellarKraal.setLtv env w admin bps
  | .addOracle admin oracle => StellarKraal.addOracle env w admin oracle
  | .removeOracle admin oracle => StellarKraal.removeOracle env w admin oracle
  | .submitOraclePrices submitter prices => do
      let (w, _) ← StellarKraal.submitOraclePrices env w submitter prices
      return w
  | .submitPrice oracle price => StellarKraal.submitPrice env w oracle price
  | .proposeUpgrade admin hash => StellarKraal.proposeUpgrade env w admin hash
  | .executeUpgrade => StellarKraal.executeUpgrade w
  | .cancelUpgrade admin => StellarKraal.cancelUpgrade env w admin
  | .query => pure w

theorem Call.run_requestLoan {client : TokenClient} {env : Env} {w w' : World} {borrower : Address}
    {ids : List Nat} {amount : Int}
    (h : (Call.requestLoan borrower ids amount).run client env w = .ok w') :
    ∃ loanId, StellarKraal.requestLoan client env w borrower ids amount = .ok (w', loanId) := by
  simp only [Call.run, Except.bind_succeeds, Except.pure_succeeds] at h
  obtain ⟨⟨_, loanId⟩, h, rfl⟩ := h
  exact ⟨loanId, h⟩

theorem Call.run_registerLivestock {client : TokenClient} {env : Env} {w w' : World}
    {owner : Address} {animalType : Symbol} {count : Nat} {value : Int}
    (h : (Call.registerLivestock owner animalType count value).run client env w = .ok w') :
    ∃ id, StellarKraal.registerLivestock env w owner animalType count value = .ok (w', id) := by
  simp only [Call.run, Except.bind_succeeds, Except.pure_succeeds] at h
  obtain ⟨⟨_, id⟩, h, rfl⟩ := h
  exact ⟨id, h⟩

theorem Call.run_submitOraclePrices {client : TokenClient} {env : Env} {w w' : World}
    {submitter : Address} {prices : List Int}
    (h : (Call.submitOraclePrices submitter prices).run client env w = .ok w') :
    ∃ report, StellarKraal.submitOraclePrices env w submitter prices = .ok (w', report) := by
  simp only [Call.run, Except.bind_succeeds, Except.pure_succeeds] at h
  obtain ⟨⟨_, report⟩, h, rfl⟩ := h
  exact ⟨report, h⟩

/-- The world after a call, rolled back where the call failed. -/
def World.invoke (client : TokenClient) (env : Env) (w : World) (call : Call) : World :=
  match call.run client env w with
  | .ok w' => w'
  | .error _ => w

theorem World.invoke_cases (client : TokenClient) (env : Env) (w : World) (call : Call) :
    call.run client env w = .ok (w.invoke client env call) ∨ w.invoke client env call = w := by
  unfold World.invoke
  cases call.run client env w with
  | ok w' => exact .inl rfl
  | error e => exact .inr rfl

inductive Action
  | call (env : Env) (call : Call)
  | tick (timestamp : Nat)
  | tokenActivity (ledger : Ledger)

/-- Nobody else can move the contract's tokens away. -/
def Ledger.KeepsContractFunds (L L' : Ledger) : Prop :=
  ∀ token, L token .currentContract ≤ L' token .currentContract

/-- The world right after deployment: nothing stored, any balances. -/
def World.deployed (timestamp : Nat) (ledger : Ledger) : World := { timestamp, ledger }

/-- The contract deployed with `asset` as its token. -/
def protocol (asset : AssetContract) : TransitionSystem World Action where
  Initial w := ∃ timestamp ledger, w = World.deployed timestamp ledger
  Step w a w' :=
    match a with
    | .call env call => w' = w.invoke asset.client env call
    | .tick timestamp => w.timestamp ≤ timestamp ∧ timestamp ≤ U64.MAX ∧ w' = { w with timestamp }
    | .tokenActivity ledger => w.ledger.KeepsContractFunds ledger ∧ w' = { w with ledger }

variable {asset : AssetContract}

/-- The step is a call that succeeded. -/
structure Executed (asset : AssetContract) (t : Transition World Action) (env : Env)
    (call : Call) : Prop where
  action : t.action = .call env call
  run : call.run asset.client env t.before = .ok t.after

theorem Executed.of_isOk {env : Env} {call : Call} {w : World}
    (h : (call.run asset.client env w).isOk = true) :
    Executed asset ⟨w, .call env call, w.invoke asset.client env call⟩ env call := by
  refine ⟨rfl, ?_⟩
  unfold World.invoke
  cases hrun : call.run asset.client env w with
  | ok w' => rfl
  | error e => simp [hrun, Except.isOk, Except.toBool] at h

theorem Executed.isOk {t : Transition World Action} {env : Env} {call : Call}
    (h : Executed asset t env call) : (call.run asset.client env t.before).isOk = true := by
  rw [h.run]
  rfl

/-- A step executes one call. -/
theorem Executed.only {t : Transition World Action} {env env' : Env} {call call' : Call}
    (h : Executed asset t env call) (h' : Executed asset t env' call') : call = call' :=
  (Action.call.inj (h.action.symm.trans h'.action)).2

/-- Whether a step executes a call of some family is read off the call it executes. -/
theorem Executed.exists_iff {ι : Type*} {t : Transition World Action} {env : Env} {call : Call}
    (h : Executed asset t env call) (family : ι → Call) :
    (∃ env' i, Executed asset t env' (family i)) ↔ ∃ i, call = family i := by
  constructor
  · rintro ⟨_, i, h'⟩
    exact ⟨i, h.only h'⟩
  · rintro ⟨i, rfl⟩
    exact ⟨env, i, h⟩

/-- The call of a step that executes none has failed. -/
theorem not_isOk_of_idle {t : Transition World Action}
    (h : ∀ env call, ¬ Executed asset t env call)
    (hstep : (protocol asset).Step t.before t.action t.after) {env : Env} {call : Call}
    (haction : t.action = .call env call) :
    ¬ (call.run asset.client env t.before).isOk = true := by
  intro hok
  rw [haction] at hstep
  exact h env call ⟨haction, (show t.after = _ from hstep) ▸ (Executed.of_isOk hok).run⟩

/-- A step is a call that succeeded, or leaves everything but the time and the
balances as it was. -/
theorem protocol_step_cases {w w' : World} {a : Action} (h : (protocol asset).Step w a w') :
    (∃ env call, Executed asset ⟨w, a, w'⟩ env call) ∨
      (∀ env call, ¬ Executed asset ⟨w, a, w'⟩ env call) ∧
        ∃ timestamp ledger, w.timestamp ≤ timestamp ∧ w.ledger.KeepsContractFunds ledger ∧
          w' = { w with timestamp, ledger } := by
  cases a with
  | call env call =>
      obtain rfl := h
      cases hrun : call.run asset.client env w with
      | ok w' => exact .inl ⟨env, call, rfl, by simp [World.invoke, hrun]⟩
      | error e =>
          refine .inr ⟨?_, w.timestamp, w.ledger, le_rfl, fun _ => le_rfl, ?_⟩
          · rintro env' call' ⟨haction, hrun'⟩
            obtain ⟨rfl, rfl⟩ := Action.call.inj haction
            exact absurd (hrun.symm.trans hrun') (by simp)
          · simp [World.invoke, hrun]
  | tick timestamp =>
      obtain ⟨hle, -, rfl⟩ := h
      refine .inr ⟨?_, timestamp, w.ledger, hle, fun _ => le_rfl, rfl⟩
      rintro env call ⟨haction, -⟩
      contradiction
  | tokenActivity ledger =>
      obtain ⟨hkeeps, rfl⟩ := h
      refine .inr ⟨?_, w.timestamp, ledger, le_rfl, hkeeps, rfl⟩
      rintro env call ⟨haction, -⟩
      contradiction

/-- The invariant rule of the protocol: only successful calls need an argument
about the contract, and they start in a reachable world. -/
theorem reachable_invariant (invariant : World → Prop)
    (hdeployed : ∀ timestamp ledger, invariant (World.deployed timestamp ledger))
    (hcall : ∀ (env : Env) (call : Call) (w w' : World),
      (protocol asset).Reachable w → invariant w →
        call.run asset.client env w = .ok w' → invariant w')
    (hidle : ∀ (w : World) (timestamp : Nat) (ledger : Ledger), invariant w →
      w.timestamp ≤ timestamp → w.ledger.KeepsContractFunds ledger →
        invariant { w with timestamp, ledger })
    {w : World} (h : (protocol asset).Reachable w) : invariant w := by
  apply h.invariant
  · rintro _ ⟨timestamp, ledger, rfl⟩
    exact hdeployed timestamp ledger
  · rintro w a w' hreach hinv hstep
    rcases protocol_step_cases hstep with
      ⟨env, call, hexec⟩ | ⟨-, timestamp, ledger, hle, hkeeps, rfl⟩
    · exact hcall env call w w' hreach hinv hexec.run
    · exact hidle w timestamp ledger hinv hle hkeeps

theorem reachable_call {env : Env} {call : Call} {w w' : World}
    (hreach : (protocol asset).Reachable w) (hrun : call.run asset.client env w = .ok w') :
    (protocol asset).Reachable w' :=
  hreach.step (a := .call env call) (by simp [protocol, World.invoke, hrun])

/-- Calls and the passing of time, computed. -/
def World.perform (client : TokenClient) (w : World) : Action → Option World
  | .call env call => some (w.invoke client env call)
  | .tick timestamp =>
      if w.timestamp ≤ timestamp ∧ timestamp ≤ U64.MAX then some { w with timestamp } else none
  | .tokenActivity _ => none

theorem protocol_step_of_perform {w w' : World} {a : Action}
    (h : w.perform asset.client a = some w') : (protocol asset).Step w a w' := by
  cases a with
  | call env call => exact (Option.some.inj h).symm
  | tick timestamp =>
      simp only [World.perform, Option.ite_none_right_eq_some, Option.some.injEq] at h
      exact ⟨h.1.1, h.1.2, h.2.symm⟩
  | tokenActivity ledger => contradiction

/-- The transitions of a script of calls and ticks, and the world it ends in. -/
def World.replay (client : TokenClient) (w : World) (script : List Action) :
    Option (List (Transition World Action) × World) :=
  TransitionSystem.replay (World.perform client) w script

theorem Run.of_script {w w' : World} (script : List Action)
    {steps : List (Transition World Action)}
    (h : w.replay asset.client script = some (steps, w')) : (protocol asset).Run w steps w' :=
  TransitionSystem.Run.of_replay (fun _ _ _ => protocol_step_of_perform) h

/-! A small deployment for concrete scripts: one account in each role, and
balances large enough for every transfer. -/

namespace Sample

def admin : Address := .account 1
def oracle : Address := .account 2
def treasury : Address := .account 3
def farmer : Address := .account 4
def keeper : Address := .account 5
def token : Address := .contract 1

def world : World := .deployed 0 fun _ _ => 1000000000000000

/-- `call`, signed by `signer` alone. -/
def signedBy (signer : Address) (call : Call) : Action := .call ⟨[signer]⟩ call

def initialization (ltvBps thrBps : Nat) : Action :=
  signedBy admin (.initializeContract admin oracle token treasury ltvBps thrBps 1)

/-- The farmer registers ten cattle. -/
def registration (appraisedValue : Int) : Action :=
  signedBy farmer (.registerLivestock farmer "cattle" 10 appraisedValue)

/-- The farmer asks for a loan against the first registration. -/
def request (amount : Int) : Action := signedBy farmer (.requestLoan farmer [1] amount)

theorem world_reachable (asset : AssetContract) : (protocol asset).Reachable world :=
  .of_initial ⟨0, _, rfl⟩

/-- The sample world after a script. -/
def after (script : List Action) : World :=
  ((world.replay AssetContract.standard.client script).map (·.2)).getD world

theorem after_reachable (script : List Action) :
    (protocol .standard).Reachable (after script) := by
  unfold after
  cases h : world.replay AssetContract.standard.client script with
  | none => exact world_reachable _
  | some r => exact (world_reachable _).run (Run.of_script script h)

end Sample

/-! ## What a call does to the lending book -/

/-- Time, loans, collateral, their counters and all balances. -/
structure Book where
  timestamp : Nat
  loans : KeyedStore Nat LoanRecord
  collaterals : KeyedStore Nat CollateralRecord
  loanCounter : Nat
  collateralCounter : Nat
  ledger : Ledger

def World.book (w : World) : Book :=
  ⟨w.timestamp, w.loans, w.collaterals, w.loanCounter, w.collateralCounter, w.ledger⟩

/-- The six calls that touch the lending book, and all others together. -/
inductive BookEffect (asset : AssetContract) (env : Env) (w : World) : Call → World → Prop
  | register {owner : Address} {animalType : Symbol} {count : Nat} {value : Int} {w' : World}
      {id : Nat} (h : registerLivestock env w owner animalType count value = .ok (w', id)) :
      BookEffect asset env w (.registerLivestock owner animalType count value) w'
  | appraise {owner : Address} {colId : Nat} {value : Int} {w' : World}
      (h : updateAppraisal env w owner colId value = .ok w') :
      BookEffect asset env w (.updateAppraisal owner colId value) w'
  | originate {borrower : Address} {ids : List Nat} {amount : Int} {c : Config} {total : Int}
      {collaterals : KeyedStore Nat CollateralRecord} {w' : World} {loanId : Nat}
      (h : Originated env w borrower ids amount c total collaterals w' loanId) :
      BookEffect asset env w (.requestLoan borrower ids amount) w'
  | repay {borrower : Address} {loanId : Nat} {amount : Int} {c : Config} {loan : LoanRecord}
      {r : Repayment} {w' : World} (h : RepaidBy env w borrower loanId amount c loan r w') :
      BookEffect asset env w (.repayLoan borrower loanId amount) w'
  | liquidate {liquidator : Address} {loanId : Nat} {amount : Int} {c : Config}
      {loan : LoanRecord} {hf : Int} {w' : World}
      (h : LiquidatedBy env w liquidator loanId amount c loan hf w') :
      BookEffect asset env w (.liquidate liquidator loanId amount) w'
  | withdraw {admin recipient : Address} {w' : World}
      (h : emergencyWithdraw asset.client env w admin recipient = .ok w') :
      BookEffect asset env w (.emergencyWithdraw admin recipient) w'
  | other {call : Call} {w' : World} (h : w'.book = w.book) : BookEffect asset env w call w'

theorem Call.run_bookEffect {env : Env} {w w' : World} {call : Call}
    (h : call.run asset.client env w = .ok w') : BookEffect asset env w call w' := by
  cases call with
  | initializeContract =>
      obtain ⟨-, -, -, -, -, -, rfl⟩ := initializeContract_ok h
      exact .other rfl
  | pause =>
      obtain ⟨_, -, -, -, -, -, rfl⟩ := pause_ok h
      exact .other rfl
  | unpause =>
      obtain ⟨_, -, -, -, -, rfl⟩ := unpause_ok h
      exact .other rfl
  | setPauseDuration =>
      obtain ⟨_, -, -, -, -, rfl⟩ := setPauseDuration_ok h
      exact .other rfl
  | updateOracle =>
      obtain ⟨_, -, -, -, rfl⟩ := updateOracle_ok h
      exact .other rfl
  | setAnimalCap =>
      obtain ⟨_, -, -, -, -, rfl⟩ := setAnimalCap_ok h
      exact .other rfl
  | setLiquidationThreshold =>
      obtain ⟨_, -, -, -, -, -, rfl⟩ := setLiquidationThreshold_ok h
      exact .other rfl
  | proposeNewAdmin =>
      obtain ⟨_, -, -, -, rfl⟩ := proposeNewAdmin_ok h
      exact .other rfl
  | acceptAdminRole =>
      obtain ⟨_, -, -, -, rfl⟩ := acceptAdminRole_ok h
      exact .other rfl
  | registerLivestock =>
      obtain ⟨_, h⟩ := Call.run_registerLivestock h
      exact .register h
  | requestLoan =>
      obtain ⟨loanId, h⟩ := Call.run_requestLoan h
      obtain ⟨c, total, collaterals, h⟩ := requestLoan_ok h
      exact .originate h
  | repayLoan =>
      obtain ⟨c, loan, r, h⟩ := repayLoan_ok h
      exact .repay h
  | liquidate =>
      obtain ⟨c, loan, hf, h⟩ := liquidate_ok h
      exact .liquidate h
  | setCloseFactor =>
      obtain ⟨_, -, -, -, -, -, rfl⟩ := setCloseFactor_ok h
      exact .other rfl
  | addLiquidator =>
      obtain ⟨_, -, -, -, ⟨-, rfl⟩ | ⟨-, -, rfl⟩⟩ := addLiquidator_ok h
      · exact .other rfl
      · exact .other rfl
  | removeLiquidator =>
      obtain ⟨_, -, -, -, ⟨-, rfl⟩ | ⟨-, rfl⟩⟩ := removeLiquidator_ok h
      · exact .other rfl
      · exact .other rfl
  | updateAppraisal => exact .appraise h
  | updateFeeConfig =>
      obtain ⟨_, -, -, -, -, -, -, rfl⟩ := updateFeeConfig_ok h
      exact .other rfl
  | emergencyWithdraw => exact .withdraw h
  | setLtv =>
      obtain ⟨_, -, -, -, -, -, rfl⟩ := setLtv_ok h
      exact .other rfl
  | addOracle =>
      obtain ⟨_, -, -, -, -, -, -, rfl⟩ := addOracle_ok h
      exact .other rfl
  | removeOracle =>
      obtain ⟨_, -, -, -, -, rfl⟩ := removeOracle_ok h
      exact .other rfl
  | submitOraclePrices =>
      obtain ⟨_, h⟩ := Call.run_submitOraclePrices h
      obtain ⟨_, _, -, -, -, -, -, -, -, rfl⟩ := submitOraclePrices_ok h
      exact .other rfl
  | submitPrice =>
      obtain ⟨_, _, -, -, -, -, -, rfl⟩ := submitPrice_ok h
      exact .other rfl
  | proposeUpgrade =>
      obtain ⟨_, -, -, -, rfl⟩ := proposeUpgrade_ok h
      exact .other rfl
  | executeUpgrade =>
      obtain ⟨_, _, -, -, -, rfl⟩ := executeUpgrade_ok h
      exact .other rfl
  | cancelUpgrade =>
      obtain ⟨_, -, -, -, -, rfl⟩ := cancelUpgrade_ok h
      exact .other rfl
  | query =>
      obtain rfl := Except.pure_succeeds.mp h
      exact .other rfl

/-- Time passes between calls only. -/
theorem BookEffect.timestamp {env : Env} {w w' : World} {call : Call}
    (h : BookEffect asset env w call w') : w'.timestamp = w.timestamp := by
  cases h with
  | register h =>
      obtain ⟨_, -, -, -, -, -, -, -, -, rfl⟩ := registerLivestock_ok h
      rfl
  | appraise h =>
      obtain ⟨_, _, -, -, -, -, -, -, -, rfl⟩ := updateAppraisal_ok h
      rfl
  | originate h => rw [h.world]
  | repay h => rw [h.world]
  | liquidate h => rw [h.world]
  | withdraw h =>
      obtain ⟨_, -, -, -, -, rfl⟩ := emergencyWithdraw_ok h
      rfl
  | other h => exact congrArg Book.timestamp h

theorem step_timestamp_le {w w' : World} {a : Action} (step : (protocol asset).Step w a w') :
    w.timestamp ≤ w'.timestamp := by
  rcases protocol_step_cases step with ⟨env, call, hexec⟩ | ⟨-, timestamp, ledger, hle, -, rfl⟩
  · exact (Call.run_bookEffect hexec.run).timestamp.ge
  · exact hle

/-- No step of a run is later than its end. -/
theorem run_timestamp_le {start w : World} {steps : List (Transition World Action)}
    (hrun : (protocol asset).Run start steps w) :
    ∀ t ∈ steps, t.before.timestamp ≤ w.timestamp := by
  induction hrun with
  | nil => simp
  | snoc prior step ih =>
      have hstep := step_timestamp_le step
      intro t ht
      rcases List.mem_append.mp ht with ht | ht
      · exact (ih t ht).trans hstep
      · obtain rfl := List.mem_singleton.mp ht
        exact hstep

end StellarKraal
