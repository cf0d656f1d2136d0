import StellarKraal.Contract.Notices

/-!
# What a call tells

The notices each successful call adds: the three loan calls and the withdrawal
by their own, all others as one group that moves no token and whose notices
carry the book along.
-/

namespace StellarKraal

variable {asset : AssetContract} {env : Env} {w w' : World} {call : Call}

/-- The notice of a positive fee. -/
def feeNotices (kind : Symbol) (loanId : Nat) (fee : Int) : List Notice :=
  if fee > 0 then [.feeCollected loanId kind fee] else []

theorem notices_feeEvents (kind : Symbol) (loanId : Nat) (fee : Int) :
    (feeEvents kind loanId fee).filterMap Event.notice = feeNotices kind loanId fee := by
  unfold feeEvents feeNotices
  split <;> rfl

theorem notices_append {new : List Event} (h : w'.events = w.events ++ new) :
    w'.notices = w.notices ++ new.filterMap Event.notice := by
  rw [World.notices, h, List.filterMap_append, World.notices]

inductive CallNotices (asset : AssetContract) (env : Env) (w : World) :
    Call → World → List Notice → Prop
  | lent {borrower : Address} {ids : List Nat} {amount : Int} {c : Config} {total : Int}
      {collaterals : KeyedStore Nat CollateralRecord} {w' : World} {loanId : Nat}
      (h : Originated env w borrower ids amount c total collaterals w' loanId) :
      CallNotices asset env w (.requestLoan borrower ids amount) w'
        (feeNotices "originate" loanId (originationFee c amount) ++
          [.requested loanId borrower amount (amount - originationFee c amount) total])
  | repaid {borrower : Address} {loanId : Nat} {amount : Int} {c : Config} {loan : LoanRecord}
      {r : Repayment} {w' : World} (h : RepaidBy env w borrower loanId amount c loan r w') :
      CallNotices asset env w (.repayLoan borrower loanId amount) w'
        (feeNotices "interest" loanId r.interestFee ++
          [.repaid borrower loanId r.principalPaid r.interestPaid
            (closeIfRepaid r.loan).outstanding])
  | liquidated {liquidator : Address} {loanId : Nat} {amount : Int} {c : Config}
      {loan : LoanRecord} {hf : Int} {w' : World}
      (h : LiquidatedBy env w liquidator loanId amount c loan hf w') :
      CallNotices asset env w (.liquidate liquidator loanId amount) w'
        [.liquidated loanId liquidator amount
          (closeIfLiquidated { loan with outstanding := loan.outstanding - amount }).outstanding
          (closeIfLiquidated { loan with outstanding := loan.outstanding - amount }).status]
  | withdrawn {admin recipient : Address} {c : Config} {w' : World} (hc : w.config = some c)
      (hledger : w'.ledger =
        if w.ledger c.token .currentContract > 0 then
          w.ledger.move c.token .currentContract recipient (w.ledger c.token .currentContract)
        else w.ledger)
      (hbook : w'.logBook = w.logBook) :
      CallNotices asset env w (.emergencyWithdraw admin recipient) w'
        [.withdrawn recipient (w.ledger c.token .currentContract)]
  | other {call : Call} {w' : World} {notices : List Notice}
      (hstill : ∀ n ∈ notices, ∀ treasury, n.transfer treasury = none)
      (hledger : w'.ledger = w.ledger)
      (hbook : notices.foldl LogBook.record w.logBook = w'.logBook) :
      CallNotices asset env w call w' notices

/-- A successful call appended events that read as these notices. -/
def Tells (asset : AssetContract) (env : Env) (w : World) (call : Call) (w' : World) : Prop :=
  ∃ new, w'.events = w.events ++ new ∧
    CallNotices asset env w call w' (new.filterMap Event.notice)

namespace Tells

/-- A call that published nothing a reader of the book reads. -/
theorem nothing (hledger : w'.ledger = w.ledger) (hbook : w.logBook = w'.logBook)
    {new : List Event} (hevents : w'.events = w.events ++ new)
    (hnew : new.filterMap Event.notice = []) : Tells asset env w call w' :=
  ⟨new, hevents, by rw [hnew]; exact .other (by simp) hledger hbook⟩

/-- A call that published one event and moved no token. -/
theorem one {e : Event} {notice : Notice} (hevents : w'.events = w.events ++ [e])
    (hnotice : e.notice = some notice) (hstill : ∀ treasury, notice.transfer treasury = none)
    (hledger : w'.ledger = w.ledger) (hbook : w.logBook.record notice = w'.logBook) :
    Tells asset env w call w' := by
  have hread : [e].filterMap Event.notice = [notice] := by simp [hnotice]
  exact ⟨[e], hevents, by rw [hread]; exact .other (by simpa using hstill) hledger hbook⟩

end Tells

/-- Reading one key of a store is an update where another is written. -/
theorem map_lookup_insert {κ ν β : Type*} [DecidableEq κ] (m : KeyedStore κ ν) (f : ν → β) (k : κ)
    (v : ν) : Function.update (fun k => (m.lookup k).map f) k (some (f v)) =
      fun k' => ((m.insert k v).lookup k').map f := by
  funext k'
  rw [Function.update_apply, KeyedStore.lookup_insert]
  split <;> rfl

theorem logBook_insert_collateral (w : World) (id : Nat) (col : CollateralRecord) :
    { w.logBook with
        collaterals := Function.update w.logBook.collaterals id (some col.registration) } =
      { w with collaterals := w.collaterals.insert id col }.logBook :=
  congrArg (fun collaterals => { w.logBook with collaterals })
    (map_lookup_insert w.collaterals CollateralRecord.registration id col)

theorem logBook_insert_cap (w : World) (animalType : Symbol) (maxValue : Int) :
    { w.logBook with
        animalCaps := Function.update w.logBook.animalCaps animalType (some maxValue) } =
      { w with animalCaps := w.animalCaps.insert animalType maxValue }.logBook := by
  have hcaps := map_lookup_insert w.animalCaps id animalType maxValue
  simp only [Option.map_id_fun, id] at hcaps
  exact congrArg (fun animalCaps => { w.logBook with animalCaps }) hcaps

namespace Tells

theorem registerLivestock {owner : Address} {animalType : Symbol} {count : Nat} {value : Int}
    (h : (Call.registerLivestock owner animalType count value).run asset.client env w = .ok w') :
    Tells asset env w (.registerLivestock owner animalType count value) w' := by
  obtain ⟨_, h⟩ := Call.run_registerLivestock h
  obtain ⟨_, -, -, -, -, -, -, -, -, rfl⟩ := registerLivestock_ok h
  exact .one rfl rfl (fun _ => rfl) rfl
    (logBook_insert_collateral w _ ⟨owner, animalType, count, value, 0, [value]⟩)

theorem requestLoan {borrower : Address} {ids : List Nat} {amount : Int}
    (h : (Call.requestLoan borrower ids amount).run asset.client env w = .ok w') :
    Tells asset env w (.requestLoan borrower ids amount) w' := by
  obtain ⟨loanId, h⟩ := Call.run_requestLoan h
  obtain ⟨c, _, _, h⟩ := requestLoan_ok h
  refine ⟨_, by rw [h.world, List.append_assoc], ?_⟩
  rw [List.filterMap_append, notices_feeEvents]
  exact .lent h

theorem repayLoan {borrower : Address} {loanId : Nat} {amount : Int}
    (h : (Call.repayLoan borrower loanId amount).run asset.client env w = .ok w') :
    Tells asset env w (.repayLoan borrower loanId amount) w' := by
  obtain ⟨_, _, _, h⟩ := repayLoan_ok h
  refine ⟨_, by rw [h.world, List.append_assoc], ?_⟩
  rw [List.filterMap_append, notices_feeEvents]
  exact .repaid h

theorem liquidate {liquidator : Address} {loanId : Nat} {amount : Int}
    (h : (Call.liquidate liquidator loanId amount).run asset.client env w = .ok w') :
    Tells asset env w (.liquidate liquidator loanId amount) w' := by
  obtain ⟨_, _, _, h⟩ := liquidate_ok h
  refine ⟨_, by rw [h.world], ?_⟩
  have hstatus := LoanStatus.ofScVal_toScVal
  simp only [List.filterMap_cons, Event.notice, noticeOf, hstatus, Option.map_some,
    List.filterMap_nil]
  exact .liquidated h

/-- Of a liquidator who is on the list nothing is told again. -/
theorem addLiquidator {admin liquidator : Address}
    (h : (Call.addLiquidator admin liquidator).run asset.client env w = .ok w') :
    Tells asset env w (.addLiquidator admin liquidator) w' := by
  obtain ⟨_, -, -, -, ⟨-, rfl⟩ | ⟨-, -, rfl⟩⟩ := addLiquidator_ok h
  · exact .nothing rfl rfl (List.append_nil _).symm rfl
  · exact .one rfl rfl (fun _ => rfl) rfl rfl

theorem removeLiquidator {admin liquidator : Address}
    (h : (Call.removeLiquidator admin liquidator).run asset.client env w = .ok w') :
    Tells asset env w (.removeLiquidator admin liquidator) w' := by
  obtain ⟨_, -, -, -, ⟨-, rfl⟩ | ⟨-, rfl⟩⟩ := removeLiquidator_ok h
  · exact .nothing rfl rfl (List.append_nil _).symm rfl
  · exact .one rfl rfl (fun _ => rfl) rfl rfl

theorem updateAppraisal {owner : Address} {colId : Nat} {value : Int}
    (h : (Call.updateAppraisal owner colId value).run asset.client env w = .ok w') :
    Tells asset env w (.updateAppraisal owner colId value) w' := by
  obtain ⟨_, record, -, -, -, -, hstored, -, -, rfl⟩ := updateAppraisal_ok h
  refine .one rfl rfl (fun _ => rfl) rfl ?_
  have hread : w.logBook.collaterals colId = some record.registration :=
    congrArg (Option.map CollateralRecord.registration) hstored
  simp only [LogBook.record, hread, Option.map_some]
  exact logBook_insert_collateral w colId { record with
    appraisalHistory := pushAppraisal record.appraisalHistory value
    appraisedValue := value }

end Tells

theorem Call.run_tells (h : call.run asset.client env w = .ok w') :
    Tells asset env w call w' := by
  cases call with
  | initializeContract =>
      obtain ⟨-, -, -, -, -, -, rfl⟩ := initializeContract_ok h
      exact .nothing rfl rfl (List.append_nil _).symm rfl
  | pause =>
      obtain ⟨_, -, -, -, -, -, rfl⟩ := pause_ok h
      exact .one rfl rfl (fun _ => rfl) rfl rfl
  | unpause =>
      obtain ⟨_, -, -, -, -, rfl⟩ := unpause_ok h
      exact .one rfl rfl (fun _ => rfl) rfl rfl
  | setPauseDuration =>
      obtain ⟨_, -, -, -, -, rfl⟩ := setPauseDuration_ok h
      exact .nothing rfl rfl (List.append_nil _).symm rfl
  | updateOracle =>
      obtain ⟨_, -, -, -, rfl⟩ := updateOracle_ok h
      exact .nothing rfl rfl rfl rfl
  | setAnimalCap admin animalType maxValue =>
      obtain ⟨_, -, -, -, -, rfl⟩ := setAnimalCap_ok h
      exact .one rfl rfl (fun _ => rfl) rfl (logBook_insert_cap w animalType maxValue)
  | setLiquidationThreshold =>
      obtain ⟨_, -, -, -, -, -, rfl⟩ := setLiquidationThreshold_ok h
      exact .nothing rfl rfl rfl rfl
  | proposeNewAdmin =>
      obtain ⟨_, -, -, -, rfl⟩ := proposeNewAdmin_ok h
      exact .one rfl rfl (fun _ => rfl) rfl rfl
  | acceptAdminRole =>
      obtain ⟨_, -, -, -, rfl⟩ := acceptAdminRole_ok h
      exact .one rfl rfl (fun _ => rfl) rfl rfl
  | registerLivestock => exact .registerLivestock h
  | requestLoan => exact .requestLoan h
  | repayLoan => exact .repayLoan h
  | liquidate => exact .liquidate h
  | setCloseFactor =>
      obtain ⟨_, -, -, -, -, -, rfl⟩ := setCloseFactor_ok h
      exact .nothing rfl rfl (List.append_nil _).symm rfl
  | addLiquidator => exact .addLiquidator h
  | removeLiquidator => exact .removeLiquidator h
  | updateAppraisal => exact .updateAppraisal h
  | updateFeeConfig =>
      obtain ⟨_, -, -, -, -, -, -, rfl⟩ := updateFeeConfig_ok h
      exact .nothing rfl rfl rfl rfl
  | emergencyWithdraw =>
      obtain ⟨_, hc, -, -, -, rfl⟩ := emergencyWithdraw_ok h
      exact ⟨_, rfl, .withdrawn hc rfl rfl⟩
  | setLtv =>
      obtain ⟨_, -, -, -, -, -, rfl⟩ := setLtv_ok h
      exact .nothing rfl rfl rfl rfl
  | addOracle =>
      obtain ⟨_, -, -, -, -, -, -, rfl⟩ := addOracle_ok h
      exact .nothing rfl rfl (List.append_nil _).symm rfl
  | removeOracle =>
      obtain ⟨_, -, -, -, -, rfl⟩ := removeOracle_ok h
      exact .nothing rfl rfl (List.append_nil _).symm rfl
  | submitOraclePrices =>
      obtain ⟨_, h⟩ := Call.run_submitOraclePrices h
      obtain ⟨_, _, -, -, -, -, -, -, -, rfl⟩ := submitOraclePrices_ok h
      exact .nothing rfl rfl (List.append_nil _).symm rfl
  | submitPrice =>
      obtain ⟨_, _, -, -, -, -, -, rfl⟩ := submitPrice_ok h
      exact .nothing rfl rfl rfl rfl
  | proposeUpgrade =>
      obtain ⟨_, -, -, -, rfl⟩ := proposeUpgrade_ok h
      exact .one rfl rfl (fun _ => rfl) rfl rfl
  | executeUpgrade =>
      obtain ⟨_, _, -, -, -, rfl⟩ := executeUpgrade_ok h
      exact .one rfl rfl (fun _ => rfl) rfl rfl
  | cancelUpgrade =>
      obtain ⟨_, -, -, -, -, rfl⟩ := cancelUpgrade_ok h
      exact .one rfl rfl (fun _ => rfl) rfl rfl
  | query =>
      obtain rfl := Except.pure_succeeds.mp h
      exact .nothing rfl rfl (List.append_nil _).symm rfl

end StellarKraal
