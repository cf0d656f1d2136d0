import StellarKraal.Monitoring.Dispatcher

/-!
# What the cooldown suppresses

The cooldown of a key begins when a post is begun. Nothing takes it back where the post
fails, so that a repeat of the anomaly is suppressed although nobody was alerted.
-/

namespace StellarKraal.Monitoring

open TransitionSystem (Transition HistoryVariable)

variable {Invocation : Type}

/-! ## The posts of a run -/

/-- The latest post of a key. -/
inductive Post
  | waiting (id : Nat)
  | accepted (time : Nat)
  | failed
  deriving DecidableEq

structure Posts where
  latest : String → Option Post
  /-- The keys of the alerts that the webhook accepted, with the time. -/
  accepted : List (String × Nat)

def Posts.answered (h : Posts) (id : Nat) (key : String) (now : Nat) (ok : Bool) : Posts where
  latest :=
    if h.latest key = some (.waiting id) then
      Function.update h.latest key (some (if ok then .accepted now else .failed))
    else h.latest
  accepted := if ok then h.accepted ++ [(key, now)] else h.accepted

/-- With the answer that the step begins with. -/
def Posts.settle (h : Posts) (t : Transition (Monitor Invocation) (Action Invocation)) : Posts :=
  match t.action with
  | .answer id answer =>
      match t.before.handlers id with
      | some waiting => h.answered id waiting.anomaly.dedupKey t.before.now answer.ok
      | none => h
  | _ => h

/-- With the post that a call waits for after the step. -/
def Posts.posted (h : Posts) (id : Nat) : Option (Waiting Invocation) → Posts
  | some waiting =>
      { h with
        latest := Function.update h.latest waiting.anomaly.dedupKey (some (.waiting id)) }
  | none => h

def posts (Invocation : Type) :
    HistoryVariable (Monitor Invocation) (Action Invocation) Posts where
  start := ⟨fun _ => none, []⟩
  update h t :=
    match acting t with
    | some id => (h.settle t).posted id (t.after.handlers id)
    | none => h.settle t

def Suppresses (t : Transition (Monitor Invocation) (Action Invocation)) (key : String) : Prop :=
  ∃ keys, t.after.suppressed = t.before.suppressed ++ keys ∧ key ∈ keys

/-- An alert of the key was accepted within the cooldown, or its post is in flight. -/
def Covered (cooldownMs : Nat) (h : Posts)
    (t : Transition (Monitor Invocation) (Action Invocation)) (key : String) : Prop :=
  (∃ time, (key, time) ∈ (h.settle t).accepted ∧ t.before.now < time + cooldownMs) ∨
    ∃ id waiting, acting t ≠ some id ∧ t.before.handlers id = some waiting ∧
      waiting.anomaly.dedupKey = key

/-- An anomaly recurs in its cooldown although the latest post of its key has failed. -/
def RecursAfterFailure (h : Posts)
    (t : Transition (Monitor Invocation) (Action Invocation)) : Prop :=
  ∃ key, Suppresses t key ∧ (h.settle t).latest key = some .failed

/-! ## What the latest post has come to -/

/-- A key in its cooldown has a post, with what has come of it. -/
def Traced (h : Posts) (s : Monitor Invocation) (key : String) (last : Nat)
    (present : Nat → Prop) : Prop :=
  (∃ id waiting, h.latest key = some (.waiting id) ∧ present id ∧
      s.handlers id = some waiting ∧ waiting.anomaly.dedupKey = key) ∨
    (∃ time, h.latest key = some (.accepted time) ∧ (key, time) ∈ h.accepted ∧ last ≤ time) ∨
      h.latest key = some .failed

structure Consistent (rules : List (AnomalyRule Invocation)) (h : Posts) (s : Monitor Invocation) :
    Prop where
  bounded : ∀ id waiting, s.handlers id = some waiting →
    id < s.delivered ∧ waiting.next ≤ rules.length
  past : ∀ key last, s.lastAlertedAtMs key = some last → last ≤ s.now
  traced : ∀ key last, s.lastAlertedAtMs key = some last → Traced h s key last fun _ => True

section Steps

variable {rules : List (AnomalyRule Invocation)} {cooldownMs : Nat} {h : Posts}
  {s s' : Monitor Invocation} {a : Action Invocation}

theorem Consistent.start (hfresh : s.Fresh) : Consistent rules (posts Invocation).start s where
  bounded id waiting hwaiting := by simp [hfresh.handlers] at hwaiting
  past key last hlast := by simp [hfresh.lastAlertedAtMs] at hlast
  traced key last hlast := by simp [hfresh.lastAlertedAtMs] at hlast

/-- An answer settles the latest post of a key only if it is the answer to that. -/
theorem answered_latest {id : Nat} {key answered : String} {now : Nat} {ok : Bool}
    (hother : h.latest key ≠ some (.waiting id)) :
    (h.answered id answered now ok).latest key = h.latest key := by
  simp only [Posts.answered]
  split
  next hlatest =>
    refine Function.update_of_ne (fun heq => hother ?_) _ _
    rw [heq, hlatest]
  next => rfl

theorem mem_answered {id : Nat} {answered : String} {now : Nat} {ok : Bool}
    {entry : String × Nat} (hmem : entry ∈ h.accepted) :
    entry ∈ (h.answered id answered now ok).accepted := by
  simp only [Posts.answered]
  split
  · exact List.mem_append_left _ hmem
  · exact hmem

theorem answered_own {id : Nat} {key : String} {now : Nat} {ok : Bool}
    (hlatest : h.latest key = some (.waiting id)) :
    (h.answered id key now ok).latest key = some (if ok then .accepted now else .failed) := by
  simp only [Posts.answered, if_pos hlatest, Function.update_self]

/-- Before the step's own post, the calls that are traced are those that do not act. -/
theorem Consistent.settle (hconsistent : Consistent rules h s) (s' : Monitor Invocation)
    {key : String} {last : Nat} (hlast : s.lastAlertedAtMs key = some last) :
    Traced (h.settle ⟨s, a, s'⟩) s key last fun id => acting ⟨s, a, s'⟩ ≠ some id := by
  have htraced := hconsistent.traced key last hlast
  have hunanswered : (∀ id waiting, s.handlers id = some waiting →
      acting ⟨s, a, s'⟩ ≠ some id) → Traced h s key last fun id => acting ⟨s, a, s'⟩ ≠ some id :=
    fun hothers => htraced.imp_left fun ⟨id, waiting, hlatest, _, hwaiting, hkey⟩ =>
      ⟨id, waiting, hlatest, hothers id waiting hwaiting, hwaiting, hkey⟩
  cases a with
  | deliver invocation =>
      refine hunanswered fun id waiting hwaiting heq => ?_
      have hlt := (hconsistent.bounded id waiting hwaiting).1
      exact absurd (Option.some.inj heq) (Nat.ne_of_gt hlt)
  | tick ms => exact hunanswered fun _ _ _ => nofun
  | answer id answer =>
      unfold Posts.settle
      cases hanswered : s.handlers id with
      | none =>
          simp only [hanswered]
          refine hunanswered fun id' waiting hwaiting heq => ?_
          obtain rfl : id = id' := Option.some.inj heq
          simp [hanswered] at hwaiting
      | some answered =>
          simp only [hanswered]
          rcases htraced with ⟨id', waiting, hlatest, -, hwaiting, hkey⟩ |
            ⟨time, hlatest, hmem, hle⟩ | hlatest
          · by_cases hid : id = id'
            · obtain rfl := hid
              obtain rfl := Option.some.inj (hanswered.symm.trans hwaiting)
              rw [hkey]
              refine .inr ?_
              cases hok : answer.ok with
              | true =>
                  refine .inl ⟨s.now, answered_own hlatest, ?_, hconsistent.past key last hlast⟩
                  simp [Posts.answered]
              | false => exact .inr (answered_own hlatest)
            · refine .inl ⟨id', waiting, ?_, fun heq => hid (Option.some.inj heq), hwaiting, hkey⟩
              rw [answered_latest (by simpa [hlatest] using Ne.symm hid), hlatest]
          · refine .inr (.inl ⟨time, ?_, mem_answered hmem, hle⟩)
            rw [answered_latest (by simp [hlatest]), hlatest]
          · refine .inr (.inr ?_)
            rw [answered_latest (by simp [hlatest]), hlatest]

/-- A suppressed key is covered unless its latest post has failed. -/
theorem Consistent.covered (hconsistent : Consistent rules h s) {key : String}
    (hwithin : s.withinCooldown cooldownMs key = true) (s' : Monitor Invocation) :
    Covered cooldownMs h ⟨s, a, s'⟩ key ∨
      (h.settle ⟨s, a, s'⟩).latest key = some .failed := by
  unfold Monitor.withinCooldown at hwithin
  split at hwithin
  next last hlast =>
    have hlt : s.now < last + cooldownMs := of_decide_eq_true hwithin
    rcases hconsistent.settle (a := a) s' hlast with ⟨id, waiting, -, hother, hwaiting, hkey⟩ |
      ⟨time, -, hmem, hle⟩ | hfailed
    · exact .inl (.inr ⟨id, waiting, hother, hwaiting, hkey⟩)
    · exact .inl (.inl ⟨time, hmem, by change s.now < _; omega⟩)
    · exact .inr hfailed
  next => contradiction

/-- After it, the call that acts is traced as well if it waits again. -/
theorem traced_stretch {stages start stop id : Nat} {delivery : Delivery Invocation}
    {s₁ : Monitor Invocation} {handler : Option (Waiting Invocation)}
    (hstretch : Stretch cooldownMs stages delivery start stop s s₁ handler)
    (htraced : ∀ key last, s.lastAlertedAtMs key = some last →
      Traced h s key last fun k => some id ≠ some k) {key : String} {last : Nat}
    (hlast : s₁.lastAlertedAtMs key = some last) :
    Traced (h.posted id handler) (s₁.withHandler id handler) key last fun _ => True := by
  have hkept : ∀ k waiting, some id ≠ some k → s.handlers k = some waiting →
      (s₁.withHandler id handler).handlers k = some waiting := fun k waiting hk hwaiting => by
    have hne : k ≠ id := by
      rintro rfl
      exact hk rfl
    rw [withHandler_handlers, if_neg hne, hstretch.handlers, hwaiting]
  have hold : s.lastAlertedAtMs key = some last →
      (h.posted id handler).latest key = h.latest key →
      Traced (h.posted id handler) (s₁.withHandler id handler) key last fun _ => True := by
    intro hlast hlatest
    have haccepted : (h.posted id handler).accepted = h.accepted := by cases handler <;> rfl
    unfold Traced
    rw [hlatest, haccepted]
    exact (htraced key last hlast).imp_left fun ⟨k, waiting, hwait, hk, hwaiting, hkey⟩ =>
      ⟨k, waiting, hwait, trivial, hkept k waiting hk hwaiting, hkey⟩
  rw [hstretch.lastAlertedAtMs] at hlast
  cases handler with
  | none => exact hold hlast rfl
  | some waiting =>
      by_cases hkey : key = waiting.anomaly.dedupKey
      · obtain rfl := hkey
        refine .inl ⟨id, waiting, Function.update_self .., trivial, ?_, rfl⟩
        rw [withHandler_handlers, if_pos rfl]
      · exact hold ((Function.update_of_ne hkey ..).symm.trans hlast)
          (Function.update_of_ne hkey ..)

theorem past_stretch {stages start stop : Nat} {delivery : Delivery Invocation}
    {s₁ : Monitor Invocation} {handler : Option (Waiting Invocation)}
    (hstretch : Stretch cooldownMs stages delivery start stop s s₁ handler)
    (hpast : ∀ key last, s.lastAlertedAtMs key = some last → last ≤ s.now) {key : String}
    {last : Nat} (hlast : s₁.lastAlertedAtMs key = some last) : last ≤ s₁.now := by
  rw [hstretch.lastAlertedAtMs] at hlast
  rw [hstretch.now]
  cases handler with
  | none => exact hpast key last hlast
  | some waiting =>
      dsimp only at hlast
      rw [Function.update_apply] at hlast
      split at hlast
      next => exact Nat.le_of_eq (Option.some.inj hlast).symm
      next => exact hpast key last hlast

theorem bounded_stretch {stages start stop id delivered : Nat} {delivery : Delivery Invocation}
    {s₁ : Monitor Invocation} {handler : Option (Waiting Invocation)}
    (hstretch : Stretch cooldownMs stages delivery start stop s s₁ handler)
    (hbounded : ∀ k waiting, s.handlers k = some waiting →
      k < s.delivered ∧ waiting.next ≤ stages)
    (hid : id < delivered) (hle : s.delivered ≤ delivered) {k : Nat}
    {waiting : Waiting Invocation}
    (hwaiting : (s₁.withHandler id handler).handlers k = some waiting) :
    k < delivered ∧ waiting.next ≤ stages := by
  rw [withHandler_handlers] at hwaiting
  split at hwaiting
  next hk =>
    have hstops : waiting.next = stop := by simpa [hwaiting] using hstretch.stops
    exact ⟨hk ▸ hid, hstops ▸ hstretch.le_stages⟩
  next =>
    obtain ⟨hk, hnext⟩ := hbounded k waiting (hstretch.handlers ▸ hwaiting)
    exact ⟨Nat.lt_of_lt_of_le hk hle, hnext⟩

theorem Consistent.step (hconsistent : Consistent rules h s)
    (hact : s.act cooldownMs rules a = some s') :
    Consistent rules ((posts Invocation).update h ⟨s, a, s'⟩) s' := by
  have hsettled := fun key last hlast =>
    @Consistent.settle _ rules h s a hconsistent s' key last hlast
  cases Effect.of_act (fun id waiting hw => (hconsistent.bounded id waiting hw).2) hact with
  | @deliver invocation stop s₁ handler hstretch =>
      have hown : (s₁.withHandler s.delivered handler).handlers s.delivered = handler := by
        rw [withHandler_handlers, if_pos rfl]
      have htraced := fun key last => @traced_stretch _ _ (h.settle ⟨s, .deliver invocation, _⟩) _
        _ _ _ _ _ _ _ hstretch hsettled key last
      refine ⟨fun k waiting => bounded_stretch hstretch hconsistent.bounded (Nat.lt_succ_self _)
        (Nat.le_succ _), fun key last => past_stretch hstretch hconsistent.past,
        fun key last hlast => ?_⟩
      change Traced ((h.settle _).posted s.delivered ((s₁.withHandler _ _).handlers _)) _ _ _ _
      rw [hown]
      exact htraced key last hlast
  | @answer id stop answer waiting s₁ handler hwaiting hstretch =>
      have hown : (s₁.withHandler id handler).handlers id = handler := by
        rw [withHandler_handlers, if_pos rfl]
      have hdelivered : (s₁.withHandler id handler).delivered = s.delivered := hstretch.delivered
      refine ⟨fun k waiting' hwaiting' => ?_, fun key last => past_stretch hstretch
        hconsistent.past, fun key last hlast => ?_⟩
      · rw [hdelivered]
        exact bounded_stretch hstretch hconsistent.bounded
          (hconsistent.bounded id waiting hwaiting).1 (Nat.le_refl _) hwaiting'
      · change Traced ((h.settle _).posted id ((s₁.withHandler _ _).handlers _)) _ _ _ _
        rw [hown]
        exact traced_stretch hstretch hsettled hlast
  | @tick ms =>
      refine ⟨hconsistent.bounded, fun key last hlast => ?_, hconsistent.traced⟩
      exact Nat.le_add_right_of_le (hconsistent.past key last hlast)

/-- What is suppressed was in its cooldown before the step. -/
theorem Consistent.within (hconsistent : Consistent rules h s)
    (hact : s.act cooldownMs rules a = some s') {key : String}
    (hsuppresses : Suppresses ⟨s, a, s'⟩ key) : s.withinCooldown cooldownMs key = true := by
  obtain ⟨keys, hkeys, hmem⟩ := hsuppresses
  have hstretch : ∀ {s₁ : Monitor Invocation} {delivery start stop handler},
      Stretch cooldownMs rules.length delivery start stop s s₁ handler →
        s₁.suppressed = s.suppressed ++ keys → s.withinCooldown cooldownMs key = true := by
    intro s₁ delivery start stop handler hstretch hkeys
    obtain ⟨suppressed, hsuppressed, hall⟩ := hstretch.suppressed
    exact hall key (List.append_cancel_left (hkeys.symm.trans hsuppressed) ▸ hmem)
  cases Effect.of_act (fun id waiting hw => (hconsistent.bounded id waiting hw).2) hact with
  | deliver hdeliver => exact hstretch hdeliver hkeys
  | answer hwaiting hanswer => exact hstretch hanswer hkeys
  | tick =>
      obtain rfl := List.self_eq_append_right.mp hkeys
      exact absurd hmem List.not_mem_nil

end Steps

/-- Everything that the step suppresses is covered. -/
def Warranted (cooldownMs : Nat) (h : Posts)
    (t : Transition (Monitor Invocation) (Action Invocation)) : Prop :=
  ∀ key, Suppresses t key → Covered cooldownMs h t key

/-- What a step of a run suppresses is covered, unless the latest post of its key has
failed. -/
theorem warranted_unless_failed {rules : List (AnomalyRule Invocation)} {cooldownMs : Nat}
    {start s : Monitor Invocation}
    {steps earlier later : List (Transition (Monitor Invocation) (Action Invocation))}
    {t : Transition (Monitor Invocation) (Action Invocation)}
    (hstart : (monitoring cooldownMs rules).Initial start)
    (hrun : (monitoring cooldownMs rules).Run start steps s)
    (hsplit : steps = earlier ++ t :: later)
    (hnone : ¬ RecursAfterFailure ((posts Invocation).after earlier) t) :
    Warranted cooldownMs ((posts Invocation).after earlier) t := by
  obtain rfl := hsplit
  obtain ⟨hprior, hstep⟩ := hrun.of_split
  have hconsistent : Consistent rules ((posts Invocation).after earlier) t.before :=
    hprior.history_invariant (posts Invocation) (fun _ => True) (fun _ _ => trivial)
      (Consistent.start hstart) fun _ _ _ _ hconsistent hact _ => hconsistent.step hact
  intro key hsuppresses
  rcases hconsistent.covered (hconsistent.within hstep hsuppresses) t.after with
    hcovered | hfailed
  · exact hcovered
  · exact absurd ⟨key, hsuppresses, hfailed⟩ hnone

namespace Sample

/-- The first post is answered so, and a minute later the anomaly recurs. -/
def recurring (answer : Answer) : List (Action String) :=
  [.deliver "mint", .answer 0 answer, .tick 60000]

end Sample

/-- The first alert is accepted, so the second is suppressed for good reason. -/
theorem sample_warranted : ∃ steps s earlier t,
    (monitoring 300000 Sample.rules).Run Sample.fresh steps s ∧ steps = earlier ++ [t] ∧
      Suppresses t "unauthorized-entry-point:failed" ∧
      Warranted 300000 ((posts String).after earlier) t := by
  have hrun := (@Sample.run_of_replay _ (Sample.recurring (.status 200)) _ rfl).snoc
    (show Monitor.act 300000 Sample.rules _ (.deliver "burn") = some _ from rfl)
  refine ⟨_, _, _, _, hrun, rfl, ⟨_, rfl, List.mem_cons_self⟩,
    warranted_unless_failed Sample.fresh_fresh hrun rfl ?_⟩
  rintro ⟨key, ⟨keys, hkeys, hmem⟩, hfailed⟩
  obtain rfl : ["unauthorized-entry-point:failed"] = keys := hkeys
  obtain rfl := List.mem_singleton.mp hmem
  exact absurd hfailed (by decide)

/-- The webhook answers the first alert with an error, and the second is suppressed. -/
theorem failed_alert_suppresses : ¬ ∀ (s : Monitor String) steps earlier t,
    (monitoring 300000 Sample.rules).Run Sample.fresh steps s → steps = earlier ++ [t] →
      Warranted 300000 ((posts String).after earlier) t := by
  intro hclaim
  have hrun := (@Sample.run_of_replay _ (Sample.recurring (.status 500)) _ rfl).snoc
    (show Monitor.act 300000 Sample.rules _ (.deliver "burn") = some _ from rfl)
  rcases hclaim _ _ _ _ hrun rfl "unauthorized-entry-point:failed"
    ⟨_, rfl, List.mem_cons_self⟩ with ⟨time, hmem, -⟩ | ⟨id, waiting, -, hwaiting, -⟩
  · exact absurd hmem List.not_mem_nil
  · change Function.update (Function.update (fun _ => none) 0 _) 0 none id = some waiting
      at hwaiting
    rw [Function.update_idem, Function.update_apply] at hwaiting
    split at hwaiting <;> contradiction

end StellarKraal.Monitoring
