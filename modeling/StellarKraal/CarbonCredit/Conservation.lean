import StellarKraal.CarbonCredit.Token

/-!
# Credits are conserved

Only minting and burning change the sum of all balances: a transfer writes two of
them one after the other, and where both are the same account the second write
starts from the first. No balance becomes negative, and a call that is refused
has not written anything yet.
-/

namespace StellarKraal.CarbonCredit

open TransitionSystem (Transition)
open EStateM (FailsFirst NeverFails ReadsOnly)

/-- The sum of all balances. -/
def supply (w : State) : Int := KeyedStore.total id w.balances

/-- What a step mints. -/
def mintedIn (t : Transition State Action) : Int :=
  match t.action with
  | .call env (.mint receiver amount) =>
      if (Call.mint receiver amount).succeeds env t.before then amount else 0
  | _ => 0

/-- What a step burns. -/
def burnedIn (t : Transition State Action) : Int :=
  match t.action with
  | .call env (.burn sender amount) =>
      if (Call.burn sender amount).succeeds env t.before then amount else 0
  | _ => 0

def minted (steps : List (Transition State Action)) : Int := (steps.map mintedIn).sum

def burned (steps : List (Transition State Action)) : Int := (steps.map burnedIn).sum

/-! ## Moving credits -/

theorem total_moved (balances : KeyedStore Address Int) (sender receiver : Address)
    (amount : Int) :
    KeyedStore.total id (moved balances sender receiver amount) = KeyedStore.total id balances := by
  rw [moved, KeyedStore.total_credit, KeyedStore.total_credit]
  omega

/-- A credit, or a debit that is covered, leaves no balance negative. -/
theorem amountOf_credit_nonneg {balances : KeyedStore Address Int} {who : Address} {x : Int}
    (hall : ∀ owner, 0 ≤ balances.amountOf owner) (hcovered : 0 ≤ balances.amountOf who + x)
    (owner : Address) : 0 ≤ (balances.credit who x).amountOf owner := by
  have hbefore := hall owner
  rw [KeyedStore.amountOf_credit]
  split_ifs with howner
  · rw [howner]
    exact hcovered
  · omega

/-- A transfer of what the sender has, or of nothing, whoever the two parties are. -/
theorem transferred {w w' : State} {sender receiver : Address} {amount : Int}
    (hall : ∀ owner, 0 ≤ balance w owner) (hnonneg : 0 ≤ amount)
    (hcovered : amount ≤ balance w sender)
    (hbalances : w'.balances =
      if amount = 0 then w.balances else moved w.balances sender receiver amount) :
    (∀ owner, 0 ≤ balance w' owner) ∧ supply w' = supply w := by
  unfold balance at hall hcovered ⊢
  rw [supply, hbalances]
  split
  · exact ⟨hall, rfl⟩
  · have hdebited : ∀ owner, 0 ≤ (w.balances.credit sender (-amount)).amountOf owner :=
      amountOf_credit_nonneg hall (by omega)
    have hreceiver := hdebited receiver
    exact ⟨amountOf_credit_nonneg hdebited (by omega), total_moved _ _ _ _⟩

/-- The balances are sound: none is negative, and together they are what was
minted and not burned. -/
structure Conserved (steps : List (Transition State Action)) (w : State) : Prop where
  nonneg : ∀ owner, 0 ≤ balance w owner
  supply_eq : supply w = minted steps - burned steps

theorem conserved_construct (sequence : Nat) (admin : Address) :
    Conserved [] (construct sequence admin) := by
  refine ⟨fun owner => ?_, rfl⟩
  simp [balance, construct, KeyedStore.amountOf]

theorem mintedIn_of_failed {t : Transition State Action}
    (h : ∀ env call, t.action = .call env call → call.succeeds env t.before = false) :
    mintedIn t = 0 := by
  unfold mintedIn
  split
  next env receiver amount haction => rw [h env _ haction, if_neg Bool.false_ne_true]
  next => rfl

theorem burnedIn_of_failed {t : Transition State Action}
    (h : ∀ env call, t.action = .call env call → call.succeeds env t.before = false) :
    burnedIn t = 0 := by
  unfold burnedIn
  split
  next env sender amount haction => rw [h env _ haction, if_neg Bool.false_ne_true]
  next => rfl

/-- The step lemma: what one step mints and burns is what the supply changes by. -/
theorem step_supply {w w' : State} {a : Action} (hall : ∀ owner, 0 ≤ balance w owner)
    (hstep : system.Step w a w') : (∀ owner, 0 ≤ balance w' owner) ∧
      supply w' = supply w + mintedIn ⟨w, a, w'⟩ - burnedIn ⟨w, a, w'⟩ := by
  rcases step_cases hstep with ⟨env, call, hexec⟩ | ⟨hfailed, sequence, -, rfl⟩
  · have hsucceeds := hexec.succeeds
    obtain rfl : a = .call env call := hexec.action
    have hrun : call.program env w = .ok () w' := hexec.run
    cases call with
    | transfer sender receiver amount =>
        obtain ⟨-, hamount, hcovered, hafter⟩ := transfer_ok hrun
        obtain ⟨hall', hsupply⟩ := transferred hall hamount hcovered
          (congrArg State.balances hafter)
        exact ⟨hall', by simp [hsupply, mintedIn, burnedIn]⟩
    | transferFrom spender sender receiver amount =>
        obtain ⟨-, hamount, -, hcovered, hafter⟩ := transferFrom_ok hrun
        obtain ⟨hall', hsupply⟩ := transferred hall hamount hcovered
          (congrArg State.balances hafter)
        exact ⟨hall', by simp [hsupply, mintedIn, burnedIn]⟩
    | approve spender amount expirationLedger =>
        obtain ⟨-, -, rfl⟩ := approve_ok hrun
        exact ⟨hall, by simp [supply, mintedIn, burnedIn]⟩
    | mint receiver amount =>
        obtain ⟨_, -, -, hamount, rfl⟩ := mint_ok hrun
        have hbefore := hall receiver
        refine ⟨amountOf_credit_nonneg hall (add_nonneg hbefore hamount), ?_⟩
        simp only [supply, mintedIn, burnedIn, hsucceeds, if_true, KeyedStore.total_credit]
        omega
    | burn sender amount =>
        obtain ⟨-, hamount, hcovered, rfl⟩ := burn_ok hrun
        refine ⟨amountOf_credit_nonneg hall (sub_nonneg.mpr hcovered), ?_⟩
        simp only [supply, mintedIn, burnedIn, hsucceeds, if_true, KeyedStore.total_credit]
        omega
    | setAdmin newAdmin =>
        obtain ⟨_, -, -, rfl⟩ := setAdmin_ok hrun
        exact ⟨hall, by simp [supply, mintedIn, burnedIn]⟩
  · refine ⟨hall, ?_⟩
    rw [mintedIn_of_failed hfailed, burnedIn_of_failed hfailed]
    exact (by omega : supply w = supply w + 0 - 0)

theorem Conserved.step {steps : List (Transition State Action)} {w w' : State} {a : Action}
    (h : Conserved steps w) (hstep : system.Step w a w') :
    Conserved (steps ++ [⟨w, a, w'⟩]) w' := by
  obtain ⟨hall, hsupply⟩ := step_supply h.nonneg hstep
  refine ⟨hall, ?_⟩
  rw [hsupply, h.supply_eq, minted, burned, minted, burned, List.map_append, List.map_append,
    List.sum_append, List.sum_append, List.map_singleton, List.map_singleton,
    List.sum_singleton, List.sum_singleton]
  omega

/-- The run lemma. -/
theorem conserved_of_run {start w : State} {steps : List (Transition State Action)}
    (hstart : system.Initial start) (hrun : system.Run start steps w) : Conserved steps w := by
  induction hrun with
  | nil =>
      obtain ⟨sequence, admin, rfl⟩ := hstart
      exact conserved_construct sequence admin
  | snoc prior step ih => exact ih.step step

/-! ## Refusals come before all writes -/

/-- A failure that the caller gets as a typed error. -/
def Failure.Typed (f : Failure) : Prop := ∃ e, f = .error e

theorem requireAuth_readsOnly (env : Env) (who : Address) : ReadsOnly (requireAuth env who) :=
  fun _ _ _ h => (requireAuth_eq_ok.mp h).2.symm

theorem requireAuth_neverFails (env : Env) (who : Address) :
    NeverFails Failure.Typed (requireAuth env who) := by
  rintro w f w' h ⟨e, rfl⟩
  unfold requireAuth at h
  split at h
  · simp at h
  · simp at h

theorem refuseIf_readsOnly (c : Prop) [Decidable c] (e : Error) : ReadsOnly (refuseIf c e) :=
  fun _ _ _ h => (refuseIf_eq_ok.mp h).2.symm

theorem refuseIf_failsFirst (c : Prop) [Decidable c] (e : Error) :
    FailsFirst Failure.Typed (refuseIf c e) := by
  intro w f w' h _
  unfold refuseIf at h
  split at h
  · exact (EStateM.throw_eq_error.mp h).2.symm
  · simp at h

theorem orTrap_neverFails {α : Type} (o : Option α) : NeverFails Failure.Typed (orTrap o) := by
  rintro w f w' h ⟨e, rfl⟩
  cases o with
  | none => simp [orTrap] at h
  | some a => simp [orTrap] at h

theorem readBalance_readsOnly (addr : Address) : ReadsOnly (readBalance addr) :=
  fun _ _ _ h => (readBalance_eq_ok.mp h).2.symm

theorem readBalance_neverFails (addr : Address) :
    NeverFails Failure.Typed (readBalance addr) := by
  intro w f w' h
  simp only [readBalance, EStateM.bind_eq_error, EStateM.get_eq_error, EStateM.pure_eq_error,
    and_false, exists_false, or_false] at h

theorem readAllowance_readsOnly (owner spender : Address) :
    ReadsOnly (readAllowance owner spender) :=
  fun _ _ _ h => (readAllowance_eq_ok.mp h).2.symm

theorem readAllowance_neverFails (owner spender : Address) :
    NeverFails Failure.Typed (readAllowance owner spender) := by
  intro w f w' h
  simp only [readAllowance, EStateM.bind_eq_error, EStateM.get_eq_error, EStateM.pure_eq_error,
    and_false, exists_false, or_false] at h

theorem readAdmin_readsOnly : ReadsOnly readAdmin :=
  fun _ _ _ h => (readAdmin_eq_ok.mp h).2.symm

theorem get_neverFails : NeverFails Failure.Typed (get : Program State) := by
  intro w f w' h
  simp at h

theorem modify_neverFails (update : State → State) :
    NeverFails Failure.Typed (modify update : Program Unit) := by
  intro w f w' h
  simp at h

theorem readAdmin_neverFails : NeverFails Failure.Typed readAdmin :=
  get_neverFails.bind fun w => orTrap_neverFails w.admin

theorem provided_neverFails {c : Prop} [Decidable c] {block : Program Unit}
    (h : NeverFails Failure.Typed block) : NeverFails Failure.Typed (provided c block) := by
  intro w f w' hrun
  unfold provided at hrun
  split at hrun
  · exact h w f w' hrun
  · simp at hrun

theorem moveBalance_neverFails (sender receiver : Address) (senderBalance amount : Int) :
    NeverFails Failure.Typed (moveBalance sender receiver senderBalance amount) :=
  (orTrap_neverFails _).bind fun _ => (modify_neverFails _).bind fun _ =>
    (readBalance_neverFails _).bind fun _ => (orTrap_neverFails _).bind fun _ =>
      modify_neverFails _

theorem spendAllowance_neverFails (owner spender : Address) (amount : Int) :
    NeverFails Failure.Typed (spendAllowance owner spender amount) := by
  refine get_neverFails.bind fun w => ?_
  split
  · exact (orTrap_neverFails _).bind fun _ => modify_neverFails _
  · intro w f w' h
    simp at h

/-- No entry point returns an error after it has begun to write. -/
theorem program_failsFirst (env : Env) (call : Call) :
    FailsFirst Failure.Typed (call.program env) := by
  cases call with
  | transfer sender receiver amount =>
      refine (requireAuth_neverFails _ _).failsFirst.bind (requireAuth_readsOnly _ _) fun _ => ?_
      refine (refuseIf_failsFirst _ _).bind (refuseIf_readsOnly _ _) fun _ => ?_
      refine (readBalance_neverFails _).failsFirst.bind (readBalance_readsOnly _) fun _ => ?_
      refine (refuseIf_failsFirst _ _).bind (refuseIf_readsOnly _ _) fun _ => ?_
      exact ((provided_neverFails (moveBalance_neverFails _ _ _ _)).bind
        fun _ => modify_neverFails _).failsFirst
  | transferFrom spender sender receiver amount =>
      refine (requireAuth_neverFails _ _).failsFirst.bind (requireAuth_readsOnly _ _) fun _ => ?_
      refine (refuseIf_failsFirst _ _).bind (refuseIf_readsOnly _ _) fun _ => ?_
      refine (readAllowance_neverFails _ _).failsFirst.bind (readAllowance_readsOnly _ _)
        fun _ => ?_
      refine (refuseIf_failsFirst _ _).bind (refuseIf_readsOnly _ _) fun _ => ?_
      refine (readBalance_neverFails _).failsFirst.bind (readBalance_readsOnly _)
        fun senderBalance => ?_
      refine (refuseIf_failsFirst _ _).bind (refuseIf_readsOnly _ _) fun _ => ?_
      have hblock := (spendAllowance_neverFails sender spender amount).bind
        fun _ => moveBalance_neverFails sender receiver senderBalance amount
      exact ((provided_neverFails hblock).bind fun _ => modify_neverFails _).failsFirst
  | approve spender amount expirationLedger =>
      refine (requireAuth_neverFails _ _).failsFirst.bind (requireAuth_readsOnly _ _) fun _ => ?_
      refine (refuseIf_failsFirst _ _).bind (refuseIf_readsOnly _ _) fun _ => ?_
      exact ((modify_neverFails _).bind fun _ => modify_neverFails _).failsFirst
  | mint receiver amount =>
      refine readAdmin_neverFails.failsFirst.bind readAdmin_readsOnly fun _ => ?_
      refine (requireAuth_neverFails _ _).failsFirst.bind (requireAuth_readsOnly _ _) fun _ => ?_
      refine (refuseIf_failsFirst _ _).bind (refuseIf_readsOnly _ _) fun _ => ?_
      exact ((readBalance_neverFails _).bind fun _ => (orTrap_neverFails _).bind
        fun _ => (modify_neverFails _).bind fun _ => modify_neverFails _).failsFirst
  | burn sender amount =>
      refine (requireAuth_neverFails _ _).failsFirst.bind (requireAuth_readsOnly _ _) fun _ => ?_
      refine (refuseIf_failsFirst _ _).bind (refuseIf_readsOnly _ _) fun _ => ?_
      refine (readBalance_neverFails _).failsFirst.bind (readBalance_readsOnly _) fun _ => ?_
      refine (refuseIf_failsFirst _ _).bind (refuseIf_readsOnly _ _) fun _ => ?_
      exact ((orTrap_neverFails _).bind
        fun _ => (modify_neverFails _).bind fun _ => modify_neverFails _).failsFirst
  | setAdmin newAdmin =>
      exact (readAdmin_neverFails.bind fun _ => (requireAuth_neverFails _ _).bind
        fun _ => modify_neverFails _).failsFirst

/-- Along every run the balances add up to what was minted less what was burned,
none is negative, and a call that returns an error has changed no entry. -/
theorem credits_conserved {start w : State} {steps : List (Transition State Action)}
    (hstart : system.Initial start) (hrun : system.Run start steps w) :
    supply w = minted steps - burned steps ∧ (∀ owner, 0 ≤ balance w owner) ∧
      ∀ (env : Env) (call : Call) (e : Error) (w' : State),
        call.program env w = .error (.error e) w' →
          w'.balances = w.balances ∧ w'.allowances = w.allowances := by
  have hconserved := conserved_of_run hstart hrun
  refine ⟨hconserved.supply_eq, hconserved.nonneg, ?_⟩
  intro env call e w' hfailed
  obtain rfl := program_failsFirst env call w _ w' hfailed ⟨e, rfl⟩
  exact ⟨rfl, rfl⟩

/-- A spender moves credits from an account to itself and to another one, and some
are burned; a transfer of more than there is fails. -/
theorem sample_credits_conserved :
    ∃ steps w, system.Run (construct 100 Sample.admin) steps w ∧
      minted steps = 1000 ∧ burned steps = 300 ∧ balance w Sample.user1 = 500 ∧
      (supply w = minted steps - burned steps ∧ (∀ owner, 0 ≤ balance w owner) ∧
        ∀ (env : Env) (call : Call) (e : Error) (w' : State),
          call.program env w = .error (.error e) w' →
            w'.balances = w.balances ∧ w'.allowances = w.allowances) := by
  have hrun : system.Run (construct 100 Sample.admin) _ _ := Run.of_script
    [Sample.signedBy Sample.admin (.mint Sample.user1 1000),
      Sample.signedBy Sample.user1 (.approve Sample.user2 500 200),
      Sample.signedBy Sample.user2 (.transferFrom Sample.user2 Sample.user1 Sample.user1 100),
      Sample.signedBy Sample.user2 (.transferFrom Sample.user2 Sample.user1 Sample.user2 200),
      Sample.signedBy Sample.user1 (.burn Sample.user1 300),
      Sample.signedBy Sample.user1 (.transfer Sample.user1 Sample.user2 600)] rfl
  exact ⟨_, _, hrun, rfl, rfl, rfl, credits_conserved ⟨100, Sample.admin, rfl⟩ hrun⟩

end StellarKraal.CarbonCredit
