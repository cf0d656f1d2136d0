import StellarKraal.Contract.Frames

/-!
# A token that calls back

The token may be anything: during a transfer it may change all balances and call
the contract, with whatever signatures, before it lets the transfer through or not.
The guard keeps it out of the calls that would touch a loan in hand; all other calls
commute with what the interrupted one still has to write.
-/

namespace StellarKraal

open Except (refuseIf okOr)
open Reentrant (Meets Within)

variable {α β : Type}

/-- The contract, with any token. A new code would not be this contract any more. -/
def hostile : Reentrant World (Env × Call) TransferRequest Failure where
  handover r := r.world
  frame c w := c.2.frame c.1 w
  Callable c := c.2 ≠ .executeUpgrade
  Foreign w w' := ∃ ledger, w' = { w with ledger }

/-- The contract deployed with any token, by anyone's calls. -/
def hostileProtocol : TransitionSystem World Action where
  Initial w := ∃ timestamp ledger, w = World.deployed timestamp ledger
  Step w a w' :=
    match a with
    | .call env call => hostile.Settles (env, call) w w'
    | .tick timestamp => w.timestamp ≤ timestamp ∧ timestamp ≤ U64.MAX ∧ w' = { w with timestamp }
    | .tokenActivity ledger => w' = { w with ledger }

/-- An asset contract is one such token. -/
theorem hostileProtocol_of_protocol {asset : AssetContract} {w : World}
    (h : (protocol asset).Reachable w) : hostileProtocol.Reachable w := by
  apply h.mono
  · exact fun _ h => h
  · intro w a w' hstep
    cases a with
    | tick timestamp => exact hstep
    | tokenActivity ledger => exact hstep.2
    | call env call =>
        have hforeign : ∀ r w, asset.answer r = some w → hostile.Foreign (hostile.handover r) w :=
          fun _ _ => AssetContract.answer_ok
        have hserves := Reentrant.Serves.of_answers hostile hforeign (call.frame env w)
        have hover := Call.frame_withAsset asset env call w
        obtain rfl := hstep
        cases hrun : call.run asset.client env w with
        | ok w' =>
            rw [hrun] at hover
            rw [Frame.answered_of_withAsset_ok asset hover] at hserves
            simp only [World.invoke, hrun]
            exact .committed hserves
        | error f =>
            rw [hrun] at hover
            obtain ⟨w', hanswered⟩ := Frame.answered_of_withAsset_error asset hover
            rw [hanswered] at hserves
            simp only [World.invoke, hrun]
            exact .rolledBack hserves

/-! ## What a nested call can do

Everything is said of the guard first, and of the rest while the guard is up. -/

/-- A token that does nothing but let every transfer succeed. -/
def TokenClient.Quiet (client : TokenClient) : Prop :=
  ∀ w token sender receiver amount,
    ∃ ledger, client.transfer w token sender receiver amount = .ok { w with ledger }

/-- Calls one after another, all of which have to succeed. -/
def World.runAll (client : TokenClient) (w : World) (calls : List (Env × Call)) : Result World :=
  calls.foldlM (fun w c => c.2.run client c.1 w) w

/-- While the guard was up, from `w` to `w'`: the loans stand as they stood, and the
core is what the calls that were kept make of it from anywhere. -/
structure Undisturbed (w : World) (made : List (NestedCall (Env × Call) Failure))
    (kept : List (Env × Call)) (w' : World) : Prop where
  guard : w'.guard = true
  loans : w'.loans = w.loans
  refused : ∀ c ∈ made, c.call.2.guarded = true → c.result = .error (.error .alreadyInProgress)
  unguarded : ∀ c ∈ kept, c.2.guarded = false
  replayed : ∀ client : TokenClient, client.Quiet → ∀ v : World, v.core = w.core →
    ∃ v', v.runAll client kept = .ok v' ∧ v'.core = w'.core ∧ v'.loans = v.loans

def Permitted (w : World) (made : List (NestedCall (Env × Call) Failure))
    (kept : List (Env × Call)) (w' : World) : Prop :=
  w'.guard = w.guard ∧ (w.guard = true → Undisturbed w made kept w')

namespace Undisturbed

variable {w w' w'' : World} {made made' : List (NestedCall (Env × Call) Failure)}
  {kept kept' : List (Env × Call)}

theorem of_core_eq (hguard : w'.guard = true) (hloans : w'.loans = w.loans)
    (hcore : w'.core = w.core) : Undisturbed w [] [] w' where
  guard := hguard
  loans := hloans
  refused := by simp
  unguarded := by simp
  replayed _ _ v hv := ⟨v, rfl, hv.trans hcore.symm, rfl⟩

theorem trans (h : Undisturbed w made kept w') (h' : Undisturbed w' made' kept' w'') :
    Undisturbed w (made ++ made') (kept ++ kept') w'' where
  guard := h'.guard
  loans := h'.loans.trans h.loans
  refused c hc := (List.mem_append.mp hc).elim (h.refused c) (h'.refused c)
  unguarded c hc := (List.mem_append.mp hc).elim (h.unguarded c) (h'.unguarded c)
  replayed client hquiet v hv := by
    obtain ⟨v', hrun, hcore, hloans⟩ := h.replayed client hquiet v hv
    obtain ⟨v'', hrun', hcore', hloans'⟩ := h'.replayed client hquiet v' hcore
    refine ⟨v'', ?_, hcore', hloans'.trans hloans⟩
    rw [World.runAll, List.foldlM_append]
    exact Except.bind_succeeds.mpr ⟨v', hrun, hrun'⟩

/-- All that was made has been rolled back. -/
theorem rolledBack (hguard : w.guard = true)
    (hmade : ∀ c ∈ made, c.call.2.guarded = true → c.result = .error (.error .alreadyInProgress)) :
    Undisturbed w made [] w where
  guard := hguard
  loans := rfl
  refused := hmade
  unguarded := by simp
  replayed _ _ v hv := ⟨v, rfl, hv, rfl⟩

/-- A nested call that was not kept. -/
theorem attempted {call : Env × Call} {result : Result Unit}
    (hcall : call.2.guarded = true → result = .error (.error .alreadyInProgress))
    (hmade : ∀ c ∈ made, c.call.2.guarded = true → c.result = .error (.error .alreadyInProgress))
    (hguard : w.guard = true) : Undisturbed w (⟨call, result⟩ :: made) [] w := by
  apply rolledBack hguard
  intro c hc
  rcases List.mem_cons.mp hc with rfl | hc
  · exact hcall
  · exact hmade c hc

/-- A nested call that was kept. -/
theorem executed {call : Env × Call} (hcall : call.2.guarded = false) (hguard : w'.guard = true)
    (hloans : w'.loans = w.loans)
    (hrun : ∀ client : TokenClient, client.Quiet → ∀ v : World, v.core = w.core →
      ∃ v', call.2.run client call.1 v = .ok v' ∧ v'.core = w'.core ∧ v'.loans = v.loans) :
    Undisturbed w [⟨call, .ok ()⟩] [call] w' where
  guard := hguard
  loans := hloans
  refused := by simp [hcall]
  unguarded := by simp [hcall]
  replayed client hquiet v hv := by
    obtain ⟨v', hrun, hcore, hloans⟩ := hrun client hquiet v hv
    exact ⟨v', Except.bind_succeeds.mpr ⟨v', hrun, rfl⟩, hcore, hloans⟩

end Undisturbed

namespace Permitted

variable {w w' w'' : World} {made made' : List (NestedCall (Env × Call) Failure)}
  {kept kept' : List (Env × Call)}

theorem of_core_eq (hguard : w'.guard = w.guard) (hloans : w'.loans = w.loans)
    (hcore : w'.core = w.core) : Permitted w [] [] w' :=
  ⟨hguard, fun h => .of_core_eq (hguard.trans h) hloans hcore⟩

theorem trans (h : Permitted w made kept w') (h' : Permitted w' made' kept' w'') :
    Permitted w (made ++ made') (kept ++ kept') w'' :=
  ⟨h'.1.trans h.1, fun hguard => (h.2 hguard).trans (h'.2 (h.1.trans hguard))⟩

theorem rollback (h : Permitted w made kept w') : Permitted w made [] w :=
  ⟨rfl, fun hguard => .rolledBack hguard (h.2 hguard).refused⟩

end Permitted

/-- Whatever happens in the frame, and whatever is done to it at its transfers, is
permitted. -/
def Frame.Permits (x : Frame α) : Prop :=
  ∀ w, Meets hostile Permitted (x w) (Within Permitted w)

namespace Frame

variable {x : Frame α} {f : α → Frame β} {g : World → Result α} {w : World}
  {post : Result β × World → List (NestedCall (Env × Call) Failure) → List (Env × Call) → Prop}

theorem meets_bind (h : Meets hostile Permitted (x w) fun o made kept =>
      match o with
      | (.ok a, w') => Meets hostile Permitted (f a w') fun o' made' kept' =>
          post o' (made ++ made') (kept ++ kept')
      | (.error e, w') => post (.error e, w') made kept) :
    Meets hostile Permitted ((x >>= f) w) post := by
  rw [bind_apply]
  apply Meets.bind
  apply h.mono
  rintro ⟨_ | a, w'⟩ made kept ho
  · simpa using ho
  · exact ho

theorem meets_reads_bind (herror : ∀ e, g w = .error e → post (.error e, w) [] [])
    (hok : ∀ a, g w = .ok a → Meets hostile Permitted (f a w) post) :
    Meets hostile Permitted ((reads g >>= f) w) post := by
  apply meets_bind
  cases h : g w with
  | error e => simpa [reads, h] using herror e h
  | ok a => simpa [reads, h] using hok a h

theorem Permits.bind (hx : x.Permits) (hf : ∀ a, (f a).Permits) : (x >>= f).Permits := by
  intro w
  apply meets_bind
  apply (hx w).mono
  rintro ⟨_ | a, w'⟩ made kept hD
  · exact hD
  · apply (hf a w').mono
    rintro ⟨_ | b, w''⟩ made' kept' hD'
    · exact (hD.trans hD').rollback
    · exact hD.trans hD'

section

variable {token sender receiver : Address} {amount fee : Int} {loanId : Nat} {kind : Symbol}

theorem permits_pure {a : α} : (pure a : Frame α).Permits :=
  fun _ => .of_core_eq rfl rfl rfl

theorem permits_reads {f : World → Result α} : (reads f).Permits := by
  intro w
  unfold reads
  cases f w with
  | ok a => exact .of_core_eq rfl rfl rfl
  | error e => exact .of_core_eq rfl rfl rfl

theorem permits_publish {topics : List ScVal} {data : ScVal} :
    (writes (·.publish topics data)).Permits :=
  fun _ => .of_core_eq rfl rfl rfl

theorem permits_transfer : (transfer token sender receiver amount).Permits := by
  intro w made kept w' hD
  simp only [Meets.of_pure, Within, List.append_nil]
  exact ⟨hD, hD.rollback⟩

theorem permits_collectFee : (collectFee token loanId kind fee).Permits := by
  unfold collectFee
  split
  · exact permits_reads.bind fun _ => permits_transfer.bind fun _ => permits_publish
  · exact permits_pure

end

end Frame

/-! ## Nested calls -/

section

variable {env : Env} {call : Call} {w : World}

/-- With the guard up a guarded call is refused at once. -/
theorem Call.frame_of_guard (h : call.guarded = true) (hguard : w.guard = true) :
    call.frame env w = pure (.error (.error .alreadyInProgress), w) := by
  have hnew : ReentrancyGuard.new w = .error (.error .alreadyInProgress) := if_pos hguard
  cases call with
  | requestLoan =>
      rw [Call.frame, Frame.bind_apply, Frame.requestLoan, Frame.guarded, hnew]
      rfl
  | repayLoan => rw [Call.frame, Frame.repayLoan, Frame.guarded, hnew]
  | liquidate => rw [Call.frame, Frame.liquidate, Frame.guarded, hnew]
  | _ => contradiction

theorem Frame.meets_guarded (body : Frame α) (hguard : w.guard = false) :
    Meets hostile Permitted (guarded body w) fun o _ _ =>
      o.1 ≠ .error .trap → o.2.guard = false := by
  unfold guarded
  rw [ReentrancyGuard.new_eq_ok.mpr ⟨hguard, rfl⟩]
  apply Meets.bind
  apply Meets.of_forall
  rintro ⟨(_ | _) | _, w'⟩ made kept
  · exact fun _ => rfl
  · exact fun h => absurd rfl h
  · exact fun _ => rfl

/-- A guarded call that started with the guard down leaves it down, unless it traps. -/
theorem Call.meets_guarded (h : call.guarded = true) (hguard : w.guard = false) :
    Meets hostile Permitted (call.frame env w) fun o _ _ =>
      o.1 ≠ .error .trap → o.2.guard = false := by
  cases call with
  | requestLoan =>
      apply Frame.meets_bind
      apply (Frame.meets_guarded _ hguard).mono
      rintro ⟨e | loanId, w'⟩ made kept hdown
      · exact fun htrap => hdown fun h => htrap (congrArg _ (Except.error.inj h))
      · exact fun _ => hdown nofun
  | repayLoan => exact Frame.meets_guarded _ hguard
  | liquidate => exact Frame.meets_guarded _ hguard
  | _ => contradiction

theorem Call.not_guarded (h : call.callsToken = false) : call.guarded = false := by
  cases call with
  | emergencyWithdraw => rfl
  | _ => exact h

theorem emergencyWithdraw_quiet {client : TokenClient} (hquiet : client.Quiet) {c : Config}
    {admin recipient : Address} (hc : w.config = some c) (hadmin : c.admin = admin)
    (hauth : admin ∈ env.signers) (hpaused : isPausedRaw w = true) :
    ∃ w', emergencyWithdraw client env w admin recipient = .ok w' ∧ w'.core = w.core ∧
      w'.loans = w.loans := by
  unfold emergencyWithdraw
  rw [(requireAdmin_eq_ok (u := ())).mpr ⟨c, hc, hadmin, hauth⟩, Except.bind_of_ok,
    Except.refuseIf_of_not (by simp [hpaused]), Except.bind_of_ok,
    World.get_eq_ok.mpr ⟨c, hc, rfl⟩, Except.bind_of_ok]
  dsimp only
  split
  · obtain ⟨ledger, htransfer⟩ := hquiet w c.token .currentContract recipient
      (client.balance w c.token .currentContract)
    rw [htransfer]
    exact ⟨_, rfl, rfl, rfl⟩
  · exact ⟨_, rfl, rfl, rfl⟩

theorem Frame.meets_emergencyWithdraw (env : Env) (admin recipient : Address) (w : World) :
    Meets hostile Permitted (emergencyWithdraw env admin recipient w) fun o made kept =>
      Within Permitted w o (⟨(env, .emergencyWithdraw admin recipient), o.1⟩ :: made)
        ((env, .emergencyWithdraw admin recipient) :: kept) := by
  have hfailed : ∀ e made kept w', Permitted w made kept w' → Permitted w
      (⟨(env, .emergencyWithdraw admin recipient), .error e⟩ :: made) [] w :=
    fun _ _ _ _ h => ⟨rfl, fun hguard => .attempted nofun (h.2 hguard).refused hguard⟩
  have hrefused := fun e => hfailed e [] [] w (.of_core_eq rfl rfl rfl)
  unfold emergencyWithdraw
  apply meets_reads_bind (fun e _ => hrefused e)
  intro _ hadmin
  obtain ⟨c, hc, hadmin, hauth⟩ := requireAdmin_eq_ok.mp hadmin
  apply meets_reads_bind (fun e _ => hrefused e)
  intro _ hpaused
  apply meets_reads_bind (fun e _ => hrefused e)
  intro token _
  apply meets_reads_bind (fun e _ => hrefused e)
  intro balance _
  have hrest : Permits (do
      if balance > 0 then transfer token .currentContract recipient balance else pure ()
      writes (·.publish [.symbol "emergency"] (.vec [.address recipient, .i128 balance]))) := by
    split
    · exact permits_transfer.bind fun _ => permits_publish
    · exact permits_publish
  apply (hrest w).mono
  rintro ⟨e | _, w'⟩ made kept hD
  · exact hfailed e made [] w hD
  · -- The withdrawal itself comes first, and changes neither core nor loans.
    suffices hfirst : Permitted w [⟨(env, .emergencyWithdraw admin recipient), .ok ()⟩]
        [(env, .emergencyWithdraw admin recipient)] w from hfirst.trans hD
    refine ⟨rfl, fun hguard => .executed rfl hguard rfl ?_⟩
    intro client hquiet v hv
    have hconfig : v.config = some c := (congrArg World.config hv).trans hc
    have hpaused : isPausedRaw w = true := by simpa using hpaused
    obtain ⟨v', hrun, hcore, hloans⟩ := emergencyWithdraw_quiet hquiet hconfig hadmin hauth
      ((congrArg isPausedRaw hv).trans hpaused)
    exact ⟨v', hrun, hcore.trans hv, hloans⟩

/-- What a nested call does, and all that happens meanwhile, is permitted. -/
theorem Call.meets_permitted (env : Env) (call : Call) (w : World) :
    Meets hostile Permitted (call.frame env w) fun o made kept =>
      Within Permitted w o (⟨(env, call), o.1⟩ :: made) ((env, call) :: kept) := by
  cases htoken : call.callsToken with
  | false =>
      have hcall := Call.not_guarded htoken
      rw [Call.frame_eq_atOnce AssetContract.standard.client htoken, Frame.atOnce]
      cases hrun : call.run AssetContract.standard.client env w with
      | error e => exact ⟨rfl, .attempted (by simp [hcall]) (by simp)⟩
      | ok w' =>
          have hheld := run_held htoken hrun
          refine ⟨congrArg Held.guard hheld, fun hguard => .executed hcall
            ((congrArg Held.guard hheld).trans hguard) (congrArg Held.loans hheld) ?_⟩
          intro client _ v hv
          obtain ⟨v', hrun', hcore, hheld'⟩ := run_of_core_eq htoken hv hrun
          rw [run_client_eq client htoken] at hrun'
          exact ⟨v', hrun', hcore, congrArg Held.loans hheld'⟩
  | true =>
      cases hcall : call.guarded with
      | true =>
          cases hguard : w.guard with
          | true =>
              rw [Call.frame_of_guard hcall hguard]
              exact ⟨rfl, .attempted (fun _ => rfl) (by simp)⟩
          | false =>
              apply (Call.meets_guarded hcall hguard).mono
              rintro ⟨e | _, w'⟩ made kept hdown
              · exact ⟨rfl, fun h => absurd (hguard.symm.trans h) (by simp)⟩
              · exact ⟨(hdown (by simp)).trans hguard.symm,
                  fun h => absurd (hguard.symm.trans h) (by simp)⟩
      | false =>
          cases call with
          | emergencyWithdraw admin recipient => exact Frame.meets_emergencyWithdraw ..
          | _ => contradiction

end

/-- Nothing else can happen while the token has control. -/
theorem hostile_closed : hostile.Closed Permitted where
  refl _ := .of_core_eq rfl rfl rfl
  trans := .trans
  rollback := .rollback
  foreign := by
    rintro w _ ⟨ledger, rfl⟩
    exact .of_core_eq rfl rfl rfl
  nested c w _ := Call.meets_permitted c.1 c.2 w

/-- With any token the guard is down whenever no call is running. -/
theorem hostile_unguarded {w : World} (h : hostileProtocol.Reachable w) : w.guard = false := by
  apply h.invariant
  · rintro _ ⟨timestamp, ledger, rfl⟩
    rfl
  · intro w a w' _ hguard hstep
    cases a with
    | tick timestamp => exact hstep.2.2 ▸ hguard
    | tokenActivity ledger => exact (show w' = _ from hstep) ▸ hguard
    | call env call =>
        cases hstep with
        | committed body =>
            have hD := body.meets hostile_closed (Call.meets_permitted env call w)
            exact hD.1.trans hguard
        | rolledBack => exact hguard

/-! ## The interrupted call

With a quiet token each of the three calls writes what it writes with any other. -/

section

variable {client : TokenClient} {env : Env} {w w' : World}

theorem collectFee_quiet (hquiet : client.Quiet) {c : Config} (hc : w.config = some c)
    (token : Address) (loanId : Nat) (kind : Symbol) (fee : Int) :
    ∃ w', collectFee client w token loanId kind fee = .ok w' ∧ w'.core = w.core ∧
      w'.loans = w.loans := by
  unfold collectFee
  split
  · obtain ⟨ledger, htransfer⟩ := hquiet w token .currentContract c.treasury fee
    rw [World.get_eq_ok.mpr ⟨c, hc, rfl⟩, Except.bind_of_ok, htransfer]
    exact ⟨_, rfl, rfl, rfl⟩
  · exact ⟨w, rfl, rfl, rfl⟩

theorem requestLoan_quiet (hquiet : client.Quiet) (hguard : w.guard = false) {borrower : Address}
    {ids : List Nat} {amount : Int} {d : Frame.Disbursal}
    (h : Frame.admitLoan env { w with guard := true } borrower ids amount = .ok d) :
    ∃ w', (Call.requestLoan borrower ids amount).run client env w = .ok w' ∧
      w'.core = d.world.core ∧ w'.loans = d.world.loans := by
  obtain ⟨-, c, hc⟩ := admitLoan_ok h
  obtain ⟨w₁, hfee, hcore, hloans⟩ := collectFee_quiet hquiet hc d.token d.loanId "originate" d.fee
  obtain ⟨ledger, htransfer⟩ := hquiet w₁ d.token .currentContract borrower d.disbursement
  rw [Call.run, requestLoan_split, ReentrancyGuard.new_eq_ok.mpr ⟨hguard, rfl⟩,
    Except.bind_of_ok, h, Except.bind_of_ok, hfee, Except.bind_of_ok, htransfer]
  exact ⟨_, rfl, hcore, hloans⟩

theorem repayLoan_quiet (hquiet : client.Quiet) (hguard : w.guard = false) {borrower : Address}
    {loanId : Nat} {amount : Int} {r : Repayment} {token : Address}
    (h : Frame.admitRepayment env { w with guard := true } borrower loanId amount =
      .ok (r, token)) :
    ∃ w', (Call.repayLoan borrower loanId amount).run client env w = .ok w' ∧
      w'.core = w.core ∧ w'.loans = w.loans.insert loanId (closeIfRepaid r.loan) := by
  obtain ⟨c, hc⟩ := admitRepayment_ok h
  obtain ⟨ledger, htransfer⟩ := hquiet { w with guard := true } token borrower .currentContract
    r.repayAmount
  obtain ⟨w₁, hfee, hcore, hloans⟩ := collectFee_quiet
    (w := { w with guard := true, ledger }) hquiet hc token loanId "interest" r.interestFee
  rw [Call.run, repayLoan_split, ReentrancyGuard.new_eq_ok.mpr ⟨hguard, rfl⟩, Except.bind_of_ok,
    h, Except.bind_of_ok]
  dsimp only
  rw [htransfer, Except.bind_of_ok, hfee, show w.loans = w₁.loans from hloans.symm]
  exact ⟨_, rfl, hcore, rfl⟩

theorem liquidate_quiet (hquiet : client.Quiet) (hguard : w.guard = false) {liquidator : Address}
    {loanId : Nat} {amount outstanding : Int} {loan : LoanRecord} {token : Address}
    (h : Frame.admitLiquidation env { w with guard := true } liquidator loanId amount =
      .ok (loan, token))
    (hfits : okOr (I128.checkedSub loan.outstanding amount) (Failure.error .invalidAmount) =
      .ok outstanding) :
    ∃ w', (Call.liquidate liquidator loanId amount).run client env w = .ok w' ∧
      w'.core = w.core ∧
        w'.loans = w.loans.insert loanId (closeIfLiquidated { loan with outstanding }) := by
  obtain ⟨ledger, htransfer⟩ := hquiet { w with guard := true } token liquidator .currentContract
    amount
  rw [Call.run, liquidate_split, ReentrancyGuard.new_eq_ok.mpr ⟨hguard, rfl⟩, Except.bind_of_ok,
    h, Except.bind_of_ok]
  dsimp only
  rw [htransfer, Except.bind_of_ok, hfits]
  exact ⟨_, rfl, rfl, rfl⟩

end

/-- If the frame succeeds, `post` holds of what it returns and where it ends. -/
def Frame.Ends (x : Frame α) (w : World)
    (post : α → World → List (NestedCall (Env × Call) Failure) → List (Env × Call) → Prop) : Prop :=
  Meets hostile Permitted (x w) fun o made kept =>
    match o with
    | (.ok a, w') => post a w' made kept
    | (.error _, _) => True

namespace Frame.Ends

variable {x body : Frame α} {f : α → Frame β} {g : World → Result α} {w : World}
  {post : α → World → List (NestedCall (Env × Call) Failure) → List (Env × Call) → Prop}
  {post' : β → World → List (NestedCall (Env × Call) Failure) → List (Env × Call) → Prop}

theorem of_permits (hx : x.Permits)
    (h : ∀ a w' made kept, Permitted w made kept w' → post a w' made kept) : x.Ends w post := by
  apply (hx w).mono
  rintro ⟨_ | a, w'⟩ made kept hD
  · trivial
  · exact h a w' made kept hD

theorem bind (h : x.Ends w fun a w' made kept => (f a).Ends w' fun b w'' made' kept' =>
      post' b w'' (made ++ made') (kept ++ kept')) : (x >>= f).Ends w post' := by
  apply meets_bind
  apply h.mono
  rintro ⟨_ | a, w'⟩ made kept ho
  · trivial
  · exact ho

theorem reads_bind (h : ∀ a, g w = .ok a → (f a).Ends w post') : (reads g >>= f).Ends w post' :=
  meets_reads_bind (fun _ _ => trivial) h

theorem guarded (hguard : w.guard = false)
    (h : body.Ends { w with guard := true } fun a w' made kept =>
      post a (ReentrancyGuard.drop w') made kept) : (guarded body).Ends w post := by
  unfold Ends Frame.guarded
  rw [ReentrancyGuard.new_eq_ok.mpr ⟨hguard, rfl⟩]
  apply Meets.bind
  apply h.mono
  rintro ⟨(_ | _) | a, w'⟩ made kept ho
  · trivial
  · trivial
  · simpa using ho

end Frame.Ends

/-- From `w` to `w'` the call wrote the records it writes uninterrupted, followed by
what the calls made meanwhile write. -/
structure Harmless (w : World) (env : Env) (call : Call)
    (made : List (NestedCall (Env × Call) Failure)) (kept : List (Env × Call)) (w' : World) :
    Prop where
  refused : ∀ c ∈ made, c.call.2.guarded = true → c.result = .error (.error .alreadyInProgress)
  unguarded : ∀ c ∈ kept, c.2.guarded = false
  sequenced : ∀ client : TokenClient, client.Quiet →
    ∃ w₀ w₁, call.run client env w = .ok w₀ ∧ w₀.runAll client kept = .ok w₁ ∧
      w'.loans = w₁.loans ∧ w'.collaterals = w₁.collaterals

section

variable {w w₁ w₂ w' : World} {env : Env} {call : Call}
  {made : List (NestedCall (Env × Call) Failure)} {kept : List (Env × Call)}

/-- It is enough to know what the call still writes to the loans after its transfers. -/
theorem Undisturbed.harmless (h : Undisturbed w₁ made kept w₂)
    (update : KeyedStore Nat LoanRecord → KeyedStore Nat LoanRecord) (hcore : w'.core = w₂.core)
    (hloans : w'.loans = update w₂.loans)
    (hrun : ∀ client : TokenClient, client.Quiet → ∃ w₀, call.run client env w = .ok w₀ ∧
      w₀.core = w₁.core ∧ w₀.loans = update w₁.loans) :
    Harmless w env call made kept w' where
  refused := h.refused
  unguarded := h.unguarded
  sequenced client hquiet := by
    obtain ⟨w₀, hrun, hcore₀, hloans₀⟩ := hrun client hquiet
    obtain ⟨v, hkept, hcorev, hloansv⟩ := h.replayed client hquiet w₀ hcore₀
    have hcollaterals := congrArg World.collaterals (hcore.trans hcorev.symm)
    refine ⟨w₀, v, hrun, hkept, ?_, hcollaterals⟩
    rw [hloans, h.loans, hloansv, hloans₀]

theorem Call.ends_harmless (hcall : call.guarded = true) (hguard : w.guard = false) :
    (call.frame env).Ends w fun _ w' made kept => Harmless w env call made kept w' := by
  cases call with
  | requestLoan borrower ids amount =>
      apply Frame.Ends.bind
      apply Frame.Ends.guarded hguard
      apply Frame.Ends.reads_bind
      intro d hd
      -- All is written before the first transfer.
      apply Frame.Ends.bind
      apply Frame.Ends.of_permits (Frame.permits_collectFee.bind fun _ =>
        Frame.permits_transfer.bind fun _ => Frame.permits_publish.bind fun _ => Frame.permits_pure)
      intro _ w' made kept hD
      show Harmless w env _ (made ++ []) (kept ++ []) _
      rw [List.append_nil, List.append_nil]
      have hup := (admitLoan_ok hd).1
      exact (hD.2 hup).harmless id rfl rfl fun _ hquiet => requestLoan_quiet hquiet hguard hd
  | repayLoan borrower loanId amount =>
      apply Frame.Ends.guarded hguard
      apply Frame.Ends.reads_bind
      rintro ⟨r, token⟩ hr
      apply Frame.Ends.bind
      apply Frame.Ends.of_permits Frame.permits_transfer
      intro _ w₁ made₁ kept₁ hD₁
      apply Frame.Ends.bind
      apply Frame.Ends.of_permits Frame.permits_collectFee
      intro _ w₂ made₂ kept₂ hD₂
      show Harmless w env _ (made₁ ++ (made₂ ++ [])) (kept₁ ++ (kept₂ ++ [])) _
      rw [List.append_nil, List.append_nil]
      -- The loan written now stands where the one it was read from still stands.
      exact ((hD₁.trans hD₂).2 rfl).harmless (·.insert loanId (closeIfRepaid r.loan)) rfl rfl
        fun _ hquiet => repayLoan_quiet hquiet hguard hr
  | liquidate liquidator loanId amount =>
      apply Frame.Ends.guarded hguard
      apply Frame.Ends.reads_bind
      rintro ⟨loan, token⟩ hloan
      apply Frame.Ends.bind
      apply Frame.Ends.of_permits Frame.permits_transfer
      intro _ w₁ made kept hD
      apply Frame.Ends.reads_bind
      intro outstanding hfits
      show Harmless w env _ (made ++ []) (kept ++ []) _
      rw [List.append_nil, List.append_nil]
      exact (hD.2 rfl).harmless (·.insert loanId (closeIfLiquidated { loan with outstanding }))
        rfl rfl fun _ hquiet => liquidate_quiet hquiet hguard hloan hfits
  | _ => contradiction

/-- Whatever the token does during a guarded call that succeeds, it only adds calls
behind it. Once a guarded call has returned the guard is down; where it failed, the
world is again the one it started in. -/
theorem reentrancy_harmless {result : Result Unit} (hreach : hostileProtocol.Reachable w)
    (hcall : call.guarded = true)
    (h : hostile.Serves (call.frame env w) (result, w') made kept) :
    (result = .ok () → Harmless w env call made kept w') ∧
      (result ≠ .error .trap → w'.guard = false) ∧ w.guard = false := by
  have hguard := hostile_unguarded hreach
  refine ⟨?_, h.meets hostile_closed (Call.meets_guarded hcall hguard), hguard⟩
  rintro rfl
  exact h.meets hostile_closed (Call.ends_harmless hcall hguard)

end

namespace Sample

/-- The farmer pays back. -/
def payment : Env × Call := (⟨[farmer]⟩, .repayLoan farmer 1 200000)

/-- Meanwhile the token, in the farmer's name, asks for another loan … -/
def secondLoan : Env × Call := (⟨[farmer]⟩, .requestLoan farmer [1] 1000)

/-- … and appraises the herd anew. -/
def reappraisal : Env × Call := (⟨[farmer]⟩, .updateAppraisal farmer 1 900000)

def indebted : World := after [initialization 6000 8000, registration 1000000, request 600000]

end Sample

theorem sample_reentrancy_harmless :
    ∃ w' : World, Harmless Sample.indebted Sample.payment.1 Sample.payment.2
      [⟨Sample.secondLoan, .error (.error .alreadyInProgress)⟩, ⟨Sample.reappraisal, .ok ()⟩]
      [Sample.reappraisal] w' ∧ w'.guard = false := by
  have hduring : ∃ s, hostile.During { Sample.indebted with guard := true }
      [⟨Sample.secondLoan, .error (.error .alreadyInProgress)⟩, ⟨Sample.reappraisal, .ok ()⟩]
      [Sample.reappraisal] s :=
    ⟨_, .failed_at_once (by simp [hostile, Sample.secondLoan]) rfl
      (.succeeded_at_once (by simp [hostile, Sample.reappraisal]) rfl (.back _))⟩
  obtain ⟨s, hduring⟩ := hduring
  obtain ⟨w', hserves⟩ : ∃ w', hostile.Serves
      (Sample.payment.2.frame Sample.payment.1 Sample.indebted) (.ok (), w') _ _ :=
    ⟨_, .answered hduring (.done _)⟩
  obtain ⟨hharmless, hdown, -⟩ := reentrancy_harmless
    (hostileProtocol_of_protocol (Sample.after_reachable _)) rfl hserves
  exact ⟨w', hharmless rfl, hdown nofun⟩

end StellarKraal
