import StellarKraal.Contract.Protocol

/-!
# What a call publishes

Events are only ever appended. The first topic names the kind; all kinds but the
repayment are listed here as one group.
-/

namespace StellarKraal

/-- The first topic, where it is a symbol. -/
def Event.kind (e : Event) : Option Symbol :=
  match e.topics with
  | .symbol s :: _ => some s
  | _ => none

/-- The first topics of all events but that of `repay_loan` itself. -/
def ordinaryKinds : List Symbol :=
  ["Pause", "Unpause", "Admin", "livestock", "loan", "FeeCol", "whitelist", "collat", "fee",
    "emergency", "TWAP", "upgrade"]

def Event.Ordinary (e : Event) : Prop := ∃ kind ∈ ordinaryKinds, e.kind = some kind

inductive EventEffect (env : Env) (w : World) : Call → World → Prop
  | ordinary {call : Call} {w' : World} (new : List Event) (h : w'.events = w.events ++ new)
      (hnew : ∀ e ∈ new, e.Ordinary) : EventEffect env w call w'
  | repaid {borrower : Address} {loanId : Nat} {amount : Int} {c : Config} {loan : LoanRecord}
      {r : Repayment} {w' : World} (h : RepaidBy env w borrower loanId amount c loan r w') :
      EventEffect env w (.repayLoan borrower loanId amount) w'

namespace EventEffect

variable {env : Env} {w w' : World} {call : Call}

theorem silent (h : w'.events = w.events) : EventEffect env w call w' :=
  .ordinary [] (by simpa using h) (by simp)

theorem single (e : Event) (h : w'.events = w.events ++ [e]) (he : e.Ordinary) :
    EventEffect env w call w' :=
  .ordinary [e] h (by simpa using he)

end EventEffect

theorem feeEvents_ordinary (kind : Symbol) (loanId : Nat) (fee : Int) :
    ∀ e ∈ feeEvents kind loanId fee, e.Ordinary := by
  unfold feeEvents
  split
  · intro e he
    obtain rfl := List.mem_singleton.mp he
    exact ⟨"FeeCol", by decide, rfl⟩
  · simp

theorem Call.run_eventEffect {asset : AssetContract} {env : Env} {w w' : World} {call : Call}
    (h : call.run asset.client env w = .ok w') : EventEffect env w call w' := by
  cases call with
  | initializeContract =>
      obtain ⟨-, -, -, -, -, -, rfl⟩ := initializeContract_ok h
      exact .silent rfl
  | pause =>
      obtain ⟨_, -, -, -, -, -, rfl⟩ := pause_ok h
      exact .single _ rfl ⟨"Pause", by decide, rfl⟩
  | unpause =>
      obtain ⟨_, -, -, -, -, rfl⟩ := unpause_ok h
      exact .single _ rfl ⟨"Unpause", by decide, rfl⟩
  | setPauseDuration =>
      obtain ⟨_, -, -, -, -, rfl⟩ := setPauseDuration_ok h
      exact .silent rfl
  | updateOracle =>
      obtain ⟨_, -, -, -, rfl⟩ := updateOracle_ok h
      exact .single _ rfl ⟨"Admin", by decide, rfl⟩
  | setAnimalCap =>
      obtain ⟨_, -, -, -, -, rfl⟩ := setAnimalCap_ok h
      exact .single _ rfl ⟨"Admin", by decide, rfl⟩
  | setLiquidationThreshold =>
      obtain ⟨_, -, -, -, -, -, rfl⟩ := setLiquidationThreshold_ok h
      exact .single _ rfl ⟨"Admin", by decide, rfl⟩
  | proposeNewAdmin =>
      obtain ⟨_, -, -, -, rfl⟩ := proposeNewAdmin_ok h
      exact .single _ rfl ⟨"Admin", by decide, rfl⟩
  | acceptAdminRole =>
      obtain ⟨_, -, -, -, rfl⟩ := acceptAdminRole_ok h
      exact .single _ rfl ⟨"Admin", by decide, rfl⟩
  | registerLivestock =>
      obtain ⟨_, h⟩ := Call.run_registerLivestock h
      obtain ⟨_, -, -, -, -, -, -, -, -, rfl⟩ := registerLivestock_ok h
      exact .single _ rfl ⟨"livestock", by decide, rfl⟩
  | requestLoan =>
      obtain ⟨loanId, h⟩ := Call.run_requestLoan h
      obtain ⟨c, _, _, h⟩ := requestLoan_ok h
      refine .ordinary _ (by rw [h.world, List.append_assoc]) fun e he => ?_
      rcases List.mem_append.mp he with he | he
      · exact feeEvents_ordinary _ _ _ e he
      · obtain rfl := List.mem_singleton.mp he
        exact ⟨"loan", by decide, rfl⟩
  | repayLoan =>
      obtain ⟨_, _, _, h⟩ := repayLoan_ok h
      exact .repaid h
  | liquidate =>
      obtain ⟨_, _, _, h⟩ := liquidate_ok h
      exact .single _ (by rw [h.world]) ⟨"loan", by decide, rfl⟩
  | setCloseFactor =>
      obtain ⟨_, -, -, -, -, -, rfl⟩ := setCloseFactor_ok h
      exact .silent rfl
  | addLiquidator =>
      obtain ⟨_, -, -, -, ⟨-, rfl⟩ | ⟨-, -, rfl⟩⟩ := addLiquidator_ok h
      · exact .silent rfl
      · exact .single _ rfl ⟨"whitelist", by decide, rfl⟩
  | removeLiquidator =>
      obtain ⟨_, -, -, -, ⟨-, rfl⟩ | ⟨-, rfl⟩⟩ := removeLiquidator_ok h
      · exact .silent rfl
      · exact .single _ rfl ⟨"whitelist", by decide, rfl⟩
  | updateAppraisal =>
      obtain ⟨_, _, -, -, -, -, -, -, -, rfl⟩ := updateAppraisal_ok h
      exact .single _ rfl ⟨"collat", by decide, rfl⟩
  | updateFeeConfig =>
      obtain ⟨_, -, -, -, -, -, -, rfl⟩ := updateFeeConfig_ok h
      exact .single _ rfl ⟨"fee", by decide, rfl⟩
  | emergencyWithdraw =>
      obtain ⟨_, -, -, -, -, rfl⟩ := emergencyWithdraw_ok h
      exact .single _ rfl ⟨"emergency", by decide, rfl⟩
  | setLtv =>
      obtain ⟨_, -, -, -, -, -, rfl⟩ := setLtv_ok h
      exact .single _ rfl ⟨"Admin", by decide, rfl⟩
  | addOracle =>
      obtain ⟨_, -, -, -, -, -, -, rfl⟩ := addOracle_ok h
      exact .silent rfl
  | removeOracle =>
      obtain ⟨_, -, -, -, -, rfl⟩ := removeOracle_ok h
      exact .silent rfl
  | submitOraclePrices =>
      obtain ⟨_, h⟩ := Call.run_submitOraclePrices h
      obtain ⟨_, _, -, -, -, -, -, -, -, rfl⟩ := submitOraclePrices_ok h
      exact .silent rfl
  | submitPrice =>
      obtain ⟨_, _, -, -, -, -, -, rfl⟩ := submitPrice_ok h
      exact .single _ rfl ⟨"TWAP", by decide, rfl⟩
  | proposeUpgrade =>
      obtain ⟨_, -, -, -, rfl⟩ := proposeUpgrade_ok h
      exact .single _ rfl ⟨"upgrade", by decide, rfl⟩
  | executeUpgrade =>
      obtain ⟨_, _, -, -, -, rfl⟩ := executeUpgrade_ok h
      exact .single _ rfl ⟨"upgrade", by decide, rfl⟩
  | cancelUpgrade =>
      obtain ⟨_, -, -, -, -, rfl⟩ := cancelUpgrade_ok h
      exact .single _ rfl ⟨"upgrade", by decide, rfl⟩
  | query =>
      obtain rfl := Except.pure_succeeds.mp h
      exact .silent rfl

end StellarKraal
