import StellarKraal.Foundation.History
import StellarKraal.CarbonCredit.Token

/-!
# Allowances bound what a spender takes

The entry of an owner and a spender is written by the owner's approvals and
lowered by what the spender moves, which is what leaves the owner's balance. Each
movement is checked against the entry as it reads in its ledger, so between two
approvals no more is moved than the first of them allows, and nothing once it has
expired.
-/

namespace StellarKraal.CarbonCredit

open TransitionSystem (Transition Since)

/-- The step is an approval for the pair. -/
def Approves (owner spender : Address) (amount : Int) (expirationLedger : Nat)
    (t : Transition State Action) : Prop :=
  ∃ env, Executed t env (.approve spender amount expirationLedger) ∧ env.caller = owner

/-- The step is not an approval for the pair, of whatever amount. -/
def NotApproving (owner spender : Address) (t : Transition State Action) : Prop :=
  ∀ amount expirationLedger, ¬ Approves owner spender amount expirationLedger t

/-- The latest approval for the pair is of `amount`, with the steps `since` after it. -/
def LatestApproval (owner spender : Address) (steps : List (Transition State Action))
    (amount : Int) (expirationLedger : Nat) (since : List (Transition State Action)) : Prop :=
  ∃ earlier t, steps = earlier ++ t :: since ∧ Approves owner spender amount expirationLedger t ∧
    ∀ u ∈ since, NotApproving owner spender u

/-- What leaves the owner's balance in a `transfer_from` of the spender. A transfer to the
owner itself leaves the balance as it was; what it takes out and puts back is its amount. -/
def movedIn (owner spender : Address) (t : Transition State Action) : Int :=
  match t.action with
  | .call env (.transferFrom payer sender receiver amount) =>
      if payer = spender ∧ sender = owner then
        if receiver = owner then
          if (Call.transferFrom payer sender receiver amount).succeeds env t.before then amount
          else 0
        else balance t.before owner - balance t.after owner
      else 0
  | _ => 0

def movedBy (owner spender : Address) (steps : List (Transition State Action)) : Int :=
  (steps.map (movedIn owner spender)).sum

/-- The step calls `approve` or `transfer_from` for the pair. -/
def Concerns (owner spender : Address) (t : Transition State Action) : Prop :=
  (∃ env amount expirationLedger, t.action = .call env (.approve spender amount expirationLedger) ∧
    env.caller = owner) ∨
  ∃ env receiver amount, t.action = .call env (.transferFrom spender owner receiver amount)

/-! ## What leaves a balance -/

theorem balance_moved (w : State) (sender receiver who : Address) (amount : Int) :
    (moved w.balances sender receiver amount).amountOf who =
      balance w who - (if who = sender then amount else 0) +
        if who = receiver then amount else 0 := by
  rw [moved, KeyedStore.amountOf_credit, KeyedStore.amountOf_credit, balance]
  split <;> omega

/-- A successful `transfer_from` takes its amount from the owner and gives it to the receiver. -/
theorem balance_transferFrom {env : Env} {spender sender receiver : Address} {amount : Int}
    {w w' : State} (h : transferFrom env spender sender receiver amount w = .ok () w')
    (who : Address) : balance w' who =
      balance w who - (if who = sender then amount else 0) +
        if who = receiver then amount else 0 := by
  obtain ⟨-, -, -, -, rfl⟩ := transferFrom_ok h
  rw [balance]
  dsimp only
  split
  next hzero => simp [hzero, balance]
  next => exact balance_moved w sender receiver who amount

/-- So what is moved in it is the amount. -/
theorem movedIn_transferFrom {env : Env} {spender owner receiver : Address} {amount : Int}
    {w w' : State} (h : transferFrom env spender owner receiver amount w = .ok () w')
    (hsucceeds : (Call.transferFrom spender owner receiver amount).succeeds env w = true) :
    movedIn owner spender ⟨w, .call env (.transferFrom spender owner receiver amount), w'⟩ =
      amount := by
  have hbalance := balance_transferFrom h owner
  rw [if_pos rfl] at hbalance
  simp only [movedIn, and_self, if_true, hsucceeds]
  split
  next => rfl
  next hother =>
    rw [if_neg fun heq => hother heq.symm] at hbalance
    omega

/-- A call that fails moves nothing. -/
theorem movedIn_of_failed {owner spender : Address} {t : Transition State Action}
    (hfailed : ∀ env call, t.action = .call env call → call.succeeds env t.before = false)
    (hbalances : t.after.balances = t.before.balances) : movedIn owner spender t = 0 := by
  unfold movedIn
  split
  next env payer sender receiver amount haction =>
    rw [hfailed env _ haction, balance, balance, hbalances, sub_self]
    simp
  next => rfl

/-! ## One step and one entry -/

/-- The entry after `amount` was moved. -/
def AllowanceValue.lower (value : AllowanceValue) (amount : Int) : AllowanceValue :=
  { value with amount := value.amount - amount }

@[simp] theorem AllowanceValue.lower_zero (value : AllowanceValue) : value.lower 0 = value := by
  simp [lower]

theorem AllowanceValue.lower_lower (value : AllowanceValue) (first second : Int) :
    (value.lower first).lower second = value.lower (first + second) := by
  simp [lower, sub_sub]

theorem map_lower_zero (entry : Option AllowanceValue) :
    entry.map (·.lower 0) = entry := by
  cases entry with
  | none => rfl
  | some value => simp

theorem lookup_spent (allowances : KeyedStore (Address × Address) AllowanceValue)
    (key key' : Address × Address) (amount : Int) :
    (spent allowances key amount).lookup key' =
      if key' = key then (allowances.lookup key').map (·.lower amount)
      else allowances.lookup key' := by
  unfold spent
  cases hentry : allowances.lookup key with
  | none =>
      dsimp only
      split
      next h => rw [h, hentry, Option.map_none]
      next => rfl
  | some value =>
      dsimp only
      rw [KeyedStore.lookup_insert]
      split
      next h => rw [h, hentry, Option.map_some, AllowanceValue.lower]
      next => rfl

/-- A positive allowance stands in an entry that has not expired. -/
theorem exists_entry_of_allowance {w : State} {owner spender : Address} {amount : Int}
    (hpos : 0 < amount) (h : amount ≤ allowance w owner spender) :
    ∃ value, w.allowances.lookup (owner, spender) = some value ∧ amount ≤ value.amount ∧
      w.sequence ≤ value.expirationLedger := by
  unfold allowance at h
  split at h
  next value hvalue =>
    split at h
    next hfresh => exact ⟨value, hvalue, h, hfresh⟩
    next => omega
  next => omega

/-- The step lowers the entry of the pair by what it moves, and moves nothing that
the entry does not cover. -/
structure Draws (owner spender : Address) (t : Transition State Action) : Prop where
  nonneg : 0 ≤ movedIn owner spender t
  covered : 0 < movedIn owner spender t →
    ∃ value, t.before.allowances.lookup (owner, spender) = some value ∧
      movedIn owner spender t ≤ value.amount ∧ t.before.sequence ≤ value.expirationLedger
  entry : t.after.allowances.lookup (owner, spender) =
    (t.before.allowances.lookup (owner, spender)).map (·.lower (movedIn owner spender t))

variable {owner spender : Address} {w w' : State} {a : Action}

/-- A step that moves nothing for the pair and leaves its entry alone. -/
theorem Draws.of_same {t : Transition State Action} (hmoved : movedIn owner spender t = 0)
    (hentry : t.after.allowances.lookup (owner, spender) =
      t.before.allowances.lookup (owner, spender)) : Draws owner spender t where
  nonneg := hmoved.ge
  covered hpos := absurd hmoved hpos.ne'
  entry := by rw [hmoved, map_lower_zero, hentry]

theorem draws_of_transferFrom {env : Env} {payer sender receiver : Address} {amount : Int}
    (hrun : transferFrom env payer sender receiver amount w = .ok () w')
    (hsucceeds : (Call.transferFrom payer sender receiver amount).succeeds env w = true) :
    Draws owner spender ⟨w, .call env (.transferFrom payer sender receiver amount), w'⟩ := by
  obtain ⟨-, hnonneg, hallowed, -, rfl⟩ := transferFrom_ok hrun
  by_cases hpair : payer = spender ∧ sender = owner
  · obtain ⟨rfl, rfl⟩ := hpair
    have hmoved := movedIn_transferFrom hrun hsucceeds
    refine ⟨?_, ?_, ?_⟩
    · rw [hmoved]
      exact hnonneg
    · rw [hmoved]
      exact fun hpos => exists_entry_of_allowance hpos hallowed
    · rw [hmoved]
      dsimp only
      split
      next hzero => rw [hzero, map_lower_zero]
      next => rw [lookup_spent, if_pos rfl]
  · apply Draws.of_same
    · exact if_neg hpair
    · dsimp only
      split
      next => rfl
      next =>
        rw [lookup_spent, if_neg]
        intro hkey
        obtain ⟨rfl, rfl⟩ := Prod.mk.inj hkey
        exact hpair ⟨rfl, rfl⟩

/-- The step lemma: an approval for the pair sets its entry, everything else draws on it. -/
theorem step_entry (hstep : system.Step w a w') :
    (∃ amount expirationLedger, Approves owner spender amount expirationLedger ⟨w, a, w'⟩ ∧
      0 ≤ amount ∧
      w'.allowances.lookup (owner, spender) = some ⟨amount, expirationLedger⟩) ∨
    NotApproving owner spender ⟨w, a, w'⟩ ∧ Draws owner spender ⟨w, a, w'⟩ := by
  rcases step_cases hstep with ⟨env, call, hexec⟩ | ⟨hfailed, sequence, -, rfl⟩
  · have hsucceeds := hexec.succeeds
    obtain rfl : a = .call env call := hexec.action
    have hrun : call.program env w = .ok () w' := hexec.run
    have hother : (∀ payee amount expirationLedger, call ≠ .approve payee amount expirationLedger) →
        NotApproving owner spender ⟨w, .call env call, w'⟩ := by
      rintro hcall amount expirationLedger ⟨env', hexec', -⟩
      exact hcall _ _ _ (Action.call.inj hexec'.action).2
    cases call with
    | transfer sender receiver amount =>
        refine .inr ⟨hother nofun, .of_same rfl ?_⟩
        obtain ⟨-, -, -, rfl⟩ := transfer_ok hrun
        rfl
    | transferFrom payer sender receiver amount =>
        exact .inr ⟨hother nofun, draws_of_transferFrom hrun hsucceeds⟩
    | approve payee amount expirationLedger =>
        by_cases hpair : env.caller = owner ∧ payee = spender
        · obtain ⟨rfl, rfl⟩ := hpair
          obtain ⟨-, hnonneg, rfl⟩ := approve_ok hrun
          exact .inl ⟨amount, expirationLedger, ⟨env, hexec, rfl⟩, hnonneg, AList.lookup_insert _⟩
        · refine .inr ⟨?_, .of_same rfl ?_⟩
          · rintro amount' expirationLedger' ⟨env', hexec', rfl⟩
            obtain ⟨rfl, hcall⟩ := Action.call.inj hexec'.action
            exact hpair ⟨rfl, (Call.approve.inj hcall).1⟩
          · obtain ⟨-, -, rfl⟩ := approve_ok hrun
            refine AList.lookup_insert_ne fun hkey => ?_
            obtain ⟨rfl, rfl⟩ := Prod.mk.inj hkey
            exact hpair ⟨rfl, rfl⟩
    | mint receiver amount =>
        refine .inr ⟨hother nofun, .of_same rfl ?_⟩
        obtain ⟨_, -, -, -, rfl⟩ := mint_ok hrun
        rfl
    | burn sender amount =>
        refine .inr ⟨hother nofun, .of_same rfl ?_⟩
        obtain ⟨-, -, -, rfl⟩ := burn_ok hrun
        rfl
    | setAdmin newAdmin =>
        refine .inr ⟨hother nofun, .of_same rfl ?_⟩
        obtain ⟨_, -, -, rfl⟩ := setAdmin_ok hrun
        rfl
  · refine .inr ⟨?_, .of_same ?_ rfl⟩
    · rintro amount expirationLedger ⟨env, hexec, -⟩
      exact absurd hexec.succeeds (by rw [hfailed env _ hexec.action]; exact Bool.false_ne_true)
    · exact movedIn_of_failed hfailed rfl

/-! ## Between two approvals -/

theorem movedBy_snoc (owner spender : Address) (steps : List (Transition State Action))
    (t : Transition State Action) :
    movedBy owner spender (steps ++ [t]) =
      movedBy owner spender steps + movedIn owner spender t := by
  simp [movedBy]

/-- After steps without an approval the entry is lowered by all that was moved, which
it has covered. -/
structure Drawn (owner spender : Address) (start : State)
    (since : List (Transition State Action)) (w : State) : Prop where
  entry : w.allowances.lookup (owner, spender) =
    (start.allowances.lookup (owner, spender)).map (·.lower (movedBy owner spender since))
  covered : ∀ value, start.allowances.lookup (owner, spender) = some value →
    0 ≤ value.amount → movedBy owner spender since ≤ value.amount
  unset : start.allowances.lookup (owner, spender) = none → movedBy owner spender since = 0

theorem drawn_of_run {start : State} {since : List (Transition State Action)}
    (hrun : system.Run start since w) (hquiet : ∀ u ∈ since, NotApproving owner spender u) :
    Drawn owner spender start since w := by
  induction hrun with
  | nil =>
      refine ⟨?_, fun _ _ hnonneg => hnonneg, fun _ => rfl⟩
      simp [movedBy]
  | @snoc since w w' a prior step ih =>
      obtain ⟨hentry, hcovered, hunset⟩ := ih fun u hu => hquiet u (List.mem_append_left _ hu)
      have hlast := hquiet _ (List.mem_append_right _ List.mem_cons_self)
      rcases @step_entry owner spender _ _ _ step with
        ⟨amount, expirationLedger, hset, -⟩ | ⟨-, hdraws⟩
      · exact absurd hset (hlast amount expirationLedger)
      have hbefore : w.allowances.lookup (owner, spender) =
          (start.allowances.lookup (owner, spender)).map (·.lower (movedBy owner spender since)) :=
        hentry
      have hnonneg := hdraws.nonneg
      refine ⟨?_, ?_, ?_⟩
      · have hafter := hdraws.entry
        dsimp only at hafter
        rw [hafter, hbefore, Option.map_map, movedBy_snoc]
        congr 1
        funext value
        exact value.lower_lower _ _
      · intro value hvalue hamount
        have hsofar := hcovered value hvalue hamount
        rw [movedBy_snoc]
        rcases hnonneg.eq_or_lt with hzero | hpos
        · omega
        · obtain ⟨left, hleft, hle, -⟩ := hdraws.covered hpos
          dsimp only at hleft
          rw [hbefore, hvalue, Option.map_some, Option.some.injEq] at hleft
          subst hleft
          simp only [AllowanceValue.lower] at hle
          omega
      · intro hnone
        have hsofar := hunset hnone
        rw [movedBy_snoc]
        rcases hnonneg.eq_or_lt with hzero | hpos
        · omega
        · obtain ⟨left, hleft, -⟩ := hdraws.covered hpos
          dsimp only at hleft
          rw [hbefore, hnone, Option.map_none] at hleft
          contradiction

theorem Approves.entry {t : Transition State Action} {amount : Int} {expirationLedger : Nat}
    (h : Approves owner spender amount expirationLedger t) :
    0 ≤ amount ∧
      t.after.allowances.lookup (owner, spender) = some ⟨amount, expirationLedger⟩ := by
  obtain ⟨env, hexec, rfl⟩ := h
  obtain ⟨-, hnonneg, hafter⟩ := approve_ok hexec.run
  rw [hafter]
  exact ⟨hnonneg, AList.lookup_insert _⟩

variable {start : State} {steps since : List (Transition State Action)}

/-- What the entry says, by the latest approval. -/
theorem entry_of_latestApproval {amount : Int} {expirationLedger : Nat}
    (hrun : system.Run start steps w)
    (h : LatestApproval owner spender steps amount expirationLedger since) :
    movedBy owner spender since ≤ amount ∧
      w.allowances.lookup (owner, spender) =
        some ⟨amount - movedBy owner spender since, expirationLedger⟩ := by
  obtain ⟨earlier, t, rfl, happroves, hquiet⟩ := h
  obtain ⟨hnonneg, hset⟩ := happroves.entry
  obtain ⟨middle, -, hafter⟩ := hrun.of_append
  obtain ⟨-, -, hsince⟩ := hafter.of_cons
  have hdrawn := drawn_of_run hsince hquiet
  refine ⟨hdrawn.covered _ hset hnonneg, ?_⟩
  rw [hdrawn.entry, hset, Option.map_some, AllowanceValue.lower]

theorem entry_of_notApproved (hstart : system.Initial start) (hrun : system.Run start steps w)
    (hquiet : ∀ t ∈ steps, NotApproving owner spender t) :
    w.allowances.lookup (owner, spender) = none ∧ movedBy owner spender steps = 0 := by
  obtain ⟨sequence, admin, rfl⟩ := hstart
  have hunset : (construct sequence admin).allowances.lookup (owner, spender) = none := rfl
  have hdrawn := drawn_of_run hrun hquiet
  refine ⟨?_, hdrawn.unset hunset⟩
  rw [hdrawn.entry, hunset, Option.map_none]

theorem latestApproval_or_none (owner spender : Address)
    (steps : List (Transition State Action)) :
    (∃ amount expirationLedger since,
      LatestApproval owner spender steps amount expirationLedger since) ∨
      ∀ t ∈ steps, NotApproving owner spender t := by
  rcases Since.last_or_none (fun t => ∃ amount expirationLedger,
    Approves owner spender amount expirationLedger t) steps with
      ⟨earlier, t, since, hsplit, ⟨amount, expirationLedger, happroves⟩, hquiet⟩ | hnone
  · refine .inl ⟨amount, expirationLedger, since, earlier, t, hsplit, happroves, ?_⟩
    exact fun u hu amount' expirationLedger' h => hquiet u hu ⟨amount', expirationLedger', h⟩
  · exact .inr fun t ht amount expirationLedger h => hnone t ht ⟨amount, expirationLedger, h⟩

theorem Approves.movedIn_eq {t : Transition State Action} {amount : Int} {expirationLedger : Nat}
    (h : Approves owner spender amount expirationLedger t) : movedIn owner spender t = 0 := by
  obtain ⟨env, hexec, -⟩ := h
  have haction : t.action = _ := hexec.action
  simp [movedIn, haction]

theorem movedIn_nonneg {t : Transition State Action}
    (hstep : system.Step t.before t.action t.after) : 0 ≤ movedIn owner spender t := by
  rcases @step_entry owner spender _ _ _ hstep with ⟨_, _, happroves, -⟩ | ⟨-, hdraws⟩
  · exact happroves.movedIn_eq.ge
  · exact hdraws.nonneg

/-- What is moved is moved under an approval that has not expired. -/
theorem moved_under_approval {earlier later : List (Transition State Action)}
    {t : Transition State Action} (hstart : system.Initial start)
    (hrun : system.Run start (earlier ++ t :: later) w) (hpos : 0 < movedIn owner spender t) :
    ∃ amount expirationLedger since,
      LatestApproval owner spender earlier amount expirationLedger since ∧
        t.before.sequence ≤ expirationLedger := by
  obtain ⟨hprior, hstep⟩ := hrun.of_split
  rcases @step_entry owner spender _ _ _ hstep with
    ⟨amount, expirationLedger, happroves, -⟩ | ⟨-, hdraws⟩
  · exact absurd happroves.movedIn_eq hpos.ne'
  obtain ⟨value, hvalue, -, hfresh⟩ := hdraws.covered hpos
  rcases latestApproval_or_none owner spender earlier with
    ⟨amount, expirationLedger, since, hlatest⟩ | hnone
  · refine ⟨amount, expirationLedger, since, hlatest, ?_⟩
    obtain ⟨-, hentry⟩ := entry_of_latestApproval hprior hlatest
    obtain rfl := Option.mem_unique hentry hvalue
    exact hfresh
  · obtain ⟨hunset, -⟩ := entry_of_notApproved hstart hprior hnone
    exact absurd (hunset.symm.trans hvalue) (by simp)

/-- A step that is no call for the pair leaves its entry alone. -/
theorem entry_of_unconcerned {t : Transition State Action}
    (hstep : system.Step t.before t.action t.after) (h : ¬ Concerns owner spender t) :
    t.after.allowances.lookup (owner, spender) =
      t.before.allowances.lookup (owner, spender) := by
  rcases @step_entry owner spender _ _ _ hstep with
    ⟨amount, expirationLedger, ⟨env, hexec, hcaller⟩, -⟩ | ⟨-, hdraws⟩
  · exact absurd (.inl ⟨env, amount, expirationLedger, hexec.action, hcaller⟩) h
  · have hnothing : movedIn owner spender t = 0 := by
      unfold movedIn
      split
      next env payer sender receiver amount haction =>
        refine if_neg fun hpair => h (.inr ⟨env, receiver, amount, ?_⟩)
        rw [haction, hpair.1, hpair.2]
      next => rfl
    have hentry := hdraws.entry
    dsimp only at hentry
    rw [hentry, hnothing, map_lower_zero]

/-- What the allowance of a pair promises after some steps. -/
structure Bounded (owner spender : Address) (steps : List (Transition State Action)) (w : State) :
    Prop where
  withinApproval : ∀ amount expirationLedger since,
    LatestApproval owner spender steps amount expirationLedger since →
      movedBy owner spender since ≤ amount ∧
        w.allowances.lookup (owner, spender) =
          some ⟨amount - movedBy owner spender since, expirationLedger⟩
  unapproved : (∀ t ∈ steps, NotApproving owner spender t) →
    w.allowances.lookup (owner, spender) = none ∧ movedBy owner spender steps = 0
  unexpired : ∀ earlier t later, steps = earlier ++ t :: later → 0 < movedIn owner spender t →
    ∃ amount expirationLedger since,
      LatestApproval owner spender earlier amount expirationLedger since ∧
        t.before.sequence ≤ expirationLedger
  nonneg : ∀ t ∈ steps, 0 ≤ movedIn owner spender t
  untouched : ∀ t ∈ steps, ¬ Concerns owner spender t →
    t.after.allowances.lookup (owner, spender) = t.before.allowances.lookup (owner, spender)

/-- In every run and for every pair: what was moved since the latest approval is
within it and is what the entry has been lowered by, nothing moves without an
approval or after its expiration, and other calls leave the entry alone. -/
theorem allowances_bound (owner spender : Address) (hstart : system.Initial start)
    (hrun : system.Run start steps w) : Bounded owner spender steps w where
  withinApproval _ _ _ hlatest := entry_of_latestApproval hrun hlatest
  unapproved := entry_of_notApproved hstart hrun
  unexpired := by
    rintro earlier t later rfl hpos
    exact moved_under_approval hstart hrun hpos
  nonneg t ht := movedIn_nonneg (hrun.mem_step (.of_initial hstart) ht).2
  untouched t ht hother := entry_of_unconcerned (hrun.mem_step (.of_initial hstart) ht).2 hother

/-- An approval of 300 after one of 100 that was used up; 200 of it are moved, the
owner's own account among the receivers, and nothing after its last ledger. -/
theorem sample_allowances_bound :
    ∃ steps w, system.Run (construct 100 Sample.admin) steps w ∧
      movedBy Sample.user1 Sample.user2 steps = 300 ∧
      w.allowances.lookup (Sample.user1, Sample.user2) = some ⟨100, 120⟩ ∧
      Bounded Sample.user1 Sample.user2 steps w := by
  have hrun : system.Run (construct 100 Sample.admin) _ _ := Run.of_script
    [Sample.signedBy Sample.admin (.mint Sample.user1 1000),
      Sample.signedBy Sample.user1 (.approve Sample.user2 100 110),
      Sample.signedBy Sample.user2 (.transferFrom Sample.user2 Sample.user1 Sample.user2 100),
      Sample.signedBy Sample.user1 (.approve Sample.user2 300 120),
      Sample.signedBy Sample.user2 (.transferFrom Sample.user2 Sample.user1 Sample.user1 150),
      Sample.signedBy Sample.user2 (.transferFrom Sample.user2 Sample.user1 Sample.user2 50),
      .close 121,
      Sample.signedBy Sample.user2 (.transferFrom Sample.user2 Sample.user1 Sample.user2 50)] rfl
  exact ⟨_, _, hrun, rfl, rfl, allowances_bound _ _ ⟨100, Sample.admin, rfl⟩ hrun⟩

end StellarKraal.CarbonCredit
