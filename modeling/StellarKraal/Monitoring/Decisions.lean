import StellarKraal.Monitoring.Order

/-!
# What becomes of the anomalies

Between two waits, an anomaly that a call comes to is within its cooldown, or it is posted,
or it is left for the time after the post.
-/

namespace StellarKraal.Monitoring

open TransitionSystem (Transition)

variable {Invocation : Type}

/-- The rule returns the anomaly for the delivery after these calls. -/
def Returns (rules : List (AnomalyRule Invocation)) (i : Nat)
    (calls : List (Delivery Invocation)) (d : Delivery Invocation) (anomaly : Anomaly) : Prop :=
  ∃ rule found, rules[i]? = some rule ∧
    rule.evaluate (calls.map (·.invocation)) d.invocation = some found ∧ anomaly ∈ found

/-- The anomaly is within its cooldown, or the call posts it or keeps it, with the rule
`next` to come. -/
def Handled (cooldownMs : Nat) (s : Monitor Invocation) (handler : Option (Waiting Invocation))
    (next : Nat) (anomaly : Anomaly) : Prop :=
  s.withinCooldown cooldownMs anomaly.dedupKey = true ∨
    ∃ waiting, handler = some waiting ∧ waiting.next = next ∧
      anomaly ∈ waiting.anomaly :: waiting.anomalies

/-- What a call decides that has `left` anomalies of the rule before, and goes on with the
rule `start`. -/
structure Decided (cooldownMs : Nat) (rules : List (AnomalyRule Invocation))
    (d : Delivery Invocation) (left : List Anomaly) (start : Nat) (s : Monitor Invocation)
    (handler : Option (Waiting Invocation)) : Prop where
  before : ∀ anomaly ∈ left, Handled cooldownMs s handler start anomaly
  handled : ∀ i, start ≤ i → i < handler.elim rules.length (·.next) → ∀ anomaly,
    Returns rules i (s.calls i) d anomaly → Handled cooldownMs s handler (i + 1) anomaly
  kept : ∀ waiting ∈ handler, ∀ anomaly ∈ waiting.anomaly :: waiting.anomalies,
    waiting.next = start ∧ anomaly ∈ left ∨
      ∃ i, start ≤ i ∧ waiting.next = i + 1 ∧ Returns rules i (s.calls i) d anomaly
  due : ∀ waiting ∈ handler, s.withinCooldown cooldownMs waiting.anomaly.dedupKey = false

section Steps

variable {cooldownMs : Nat} {rules : List (AnomalyRule Invocation)} {s s' : Monitor Invocation}
  {d : Delivery Invocation} {anomalies left : List Anomaly} {start : Nat}
  {handler : Option (Waiting Invocation)}

theorem alert_eq_none (h : (s.alert cooldownMs anomalies).1 = none) :
    ∀ anomaly ∈ anomalies, s.withinCooldown cooldownMs anomaly.dedupKey = true := by
  induction anomalies generalizing s with
  | nil => exact fun anomaly hmem => absurd hmem List.not_mem_nil
  | cons first rest ih =>
      unfold Monitor.alert Monitor.shouldAlert at h
      cases hwithin : s.withinCooldown cooldownMs first.dedupKey with
      | false => simp [hwithin] at h
      | true =>
          simp only [hwithin, if_true] at h
          have hrest := ih h
          exact List.forall_mem_cons.mpr ⟨hwithin, hrest⟩

/-- The anomalies before the one that is posted are within their cooldowns. -/
theorem alert_eq_some {posted : Anomaly} {rest : List Anomaly}
    (h : (s.alert cooldownMs anomalies).1 = some (posted, rest)) :
    (∀ anomaly ∈ anomalies, s.withinCooldown cooldownMs anomaly.dedupKey = true ∨
      anomaly ∈ posted :: rest) ∧
    (∀ anomaly ∈ posted :: rest, anomaly ∈ anomalies) ∧
    s.withinCooldown cooldownMs posted.dedupKey = false := by
  induction anomalies generalizing s with
  | nil => simp [Monitor.alert] at h
  | cons first later ih =>
      unfold Monitor.alert Monitor.shouldAlert at h
      cases hwithin : s.withinCooldown cooldownMs first.dedupKey with
      | false =>
          simp only [hwithin, Bool.false_eq_true, if_false, Option.some.injEq] at h
          obtain ⟨rfl, rfl⟩ := Prod.mk.inj h
          exact ⟨fun _ hmem => .inr hmem, fun _ hmem => hmem, hwithin⟩
      | true =>
          simp only [hwithin, if_true] at h
          obtain ⟨hall, hsub, hdue⟩ := ih h
          refine ⟨List.forall_mem_cons.mpr ⟨.inl hwithin, hall⟩, fun anomaly hmem => ?_, hdue⟩
          exact List.mem_cons_of_mem _ (hsub anomaly hmem)

/-- What was suppressed in between changes no decision. -/
theorem Decided.of_same (h : Decided cooldownMs rules d left start s' handler)
    (hnow : s'.now = s.now) (hlast : s'.lastAlertedAtMs = s.lastAlertedAtMs)
    (hcalls : ∀ i, start ≤ i → s'.calls i = s.calls i) :
    Decided cooldownMs rules d left start s handler := by
  have hwithin : s'.withinCooldown cooldownMs = s.withinCooldown cooldownMs := by
    funext key
    rw [Monitor.withinCooldown, Monitor.withinCooldown, hlast, hnow]
  have hhandled : ∀ {next anomaly}, Handled cooldownMs s' handler next anomaly →
      Handled cooldownMs s handler next anomaly := by
    intro next anomaly
    exact Or.imp_left fun h => hwithin ▸ h
  refine ⟨fun anomaly hmem => hhandled (h.before anomaly hmem), ?_, ?_, ?_⟩
  · intro i hi hstop anomaly hreturns
    rw [← hcalls i hi] at hreturns
    exact hhandled (h.handled i hi hstop anomaly hreturns)
  · intro waiting hwaiting anomaly hmem
    refine (h.kept waiting hwaiting anomaly hmem).imp_right ?_
    rintro ⟨i, hi, hnext, hreturns⟩
    exact ⟨i, hi, hnext, hcalls i hi ▸ hreturns⟩
  · exact fun waiting hwaiting => hwithin ▸ h.due waiting hwaiting

theorem Decided.of_alert_none (h : Decided cooldownMs rules d [] start s handler)
    (hnone : ∀ anomaly ∈ anomalies, s.withinCooldown cooldownMs anomaly.dedupKey = true) :
    Decided cooldownMs rules d anomalies start s handler where
  before anomaly hmem := .inl (hnone anomaly hmem)
  handled := h.handled
  kept waiting hwaiting anomaly hmem :=
    .inr ((h.kept waiting hwaiting anomaly hmem).resolve_left fun hnil =>
      List.not_mem_nil hnil.2)
  due := h.due

/-- A post ends the stretch. -/
theorem Decided.of_alert_some {posted : Anomaly} {rest : List Anomaly}
    (h : (s.alert cooldownMs left).1 = some (posted, rest)) :
    Decided cooldownMs rules d left start s (some ⟨d, posted, rest, start⟩) := by
  obtain ⟨hall, hsub, hdue⟩ := alert_eq_some h
  refine ⟨fun anomaly hmem => ?_, fun i hi hstop => ?_, ?_, ?_⟩
  · exact (hall anomaly hmem).imp_right fun hmem => ⟨_, rfl, rfl, hmem⟩
  · exact absurd hstop (Nat.not_lt.mpr hi)
  · intro waiting hwaiting anomaly hmem
    obtain rfl := Option.some.inj hwaiting
    exact .inl ⟨rfl, hsub anomaly hmem⟩
  · intro waiting hwaiting
    obtain rfl := Option.some.inj hwaiting
    exact hdue

/-- One rule more at the beginning, whose anomalies are those left. -/
theorem Decided.called
    (h : Decided cooldownMs rules d left (start + 1) (s.called start d) handler)
    (hreturns : ∀ anomaly, Returns rules start (s.calls start) d anomaly ↔ anomaly ∈ left) :
    Decided cooldownMs rules d [] start s handler := by
  have hlater : Decided cooldownMs rules d left (start + 1) s handler :=
    h.of_same rfl rfl fun i hi => Function.update_of_ne (Nat.ne_of_gt hi) ..
  refine ⟨nofun, fun i hi hstop anomaly hanomaly => ?_, fun waiting hwaiting anomaly hmem => ?_,
    hlater.due⟩
  · rcases Nat.eq_or_lt_of_le hi with rfl | hi
    · exact hlater.before anomaly ((hreturns anomaly).mp hanomaly)
    · exact hlater.handled i hi hstop anomaly hanomaly
  · rcases hlater.kept waiting hwaiting anomaly hmem with ⟨hnext, hleft⟩ |
      ⟨i, hi, hnext, hanomaly⟩
    · exact .inr ⟨start, Nat.le_refl _, hnext, (hreturns anomaly).mpr hleft⟩
    · exact .inr ⟨i, Nat.le_of_succ_le hi, hnext, hanomaly⟩

theorem evaluate_decided {later : List (AnomalyRule Invocation)}
    (hlater : rules.drop start = later) (s : Monitor Invocation) :
    Decided cooldownMs rules d [] start s (s.evaluate cooldownMs d start later).1 := by
  induction later generalizing start s with
  | nil =>
      have hlength := List.drop_eq_nil_iff.mp hlater
      refine ⟨nofun, fun i hi hstop => ?_, nofun, nofun⟩
      exact absurd hstop (Nat.not_lt.mpr (Nat.le_trans hlength hi))
  | cons rule later ih =>
      have hrule : rules[start]? = some rule := by
        rw [← Nat.add_zero start, ← List.getElem?_drop, hlater, List.getElem?_cons_zero]
      have hrest : rules.drop (start + 1) = later := by
        rw [← List.drop_drop, hlater, List.drop_one, List.tail_cons]
      unfold Monitor.evaluate
      cases hfound : rule.evaluate ((s.calls start).map (·.invocation)) d.invocation with
      | none =>
          refine (ih hrest (s.called start d)).called fun anomaly =>
            iff_of_false ?_ List.not_mem_nil
          rintro ⟨rule', found, hrule', hfound', -⟩
          obtain rfl := Option.mem_unique hrule hrule'
          simp [hfound] at hfound'
      | some anomalies =>
          have hreturns : ∀ anomaly,
              Returns rules start (s.calls start) d anomaly ↔ anomaly ∈ anomalies := by
            refine fun anomaly => ⟨?_, fun hmem => ⟨rule, anomalies, hrule, hfound, hmem⟩⟩
            rintro ⟨rule', found, hrule', hfound', hmem⟩
            obtain rfl := Option.mem_unique hrule hrule'
            obtain rfl := Option.mem_unique hfound hfound'
            exact hmem
          have halerted := @alert_spec _ cooldownMs anomalies (s.called start d)
          have hnone := @alert_eq_none _ cooldownMs (s.called start d) anomalies
          have hsome := @Decided.of_alert_some _ cooldownMs rules (s.called start d) d anomalies
            (start + 1)
          dsimp only
          generalize (s.called start d).alert cooldownMs anomalies = result
            at halerted hnone hsome ⊢
          obtain ⟨posted, after⟩ := result
          cases posted with
          | none =>
              have hafter : ∀ i, start + 1 ≤ i → after.calls i = (s.called start d).calls i :=
                fun i _ => congrFun halerted.calls i
              have hdecided := (ih hrest after).of_same halerted.now halerted.lastAlertedAtMs hafter
              exact (hdecided.of_alert_none (hnone rfl)).called hreturns
          | some posted => exact (hsome rfl).called hreturns

theorem resume_decided (waiting : Waiting Invocation) (s : Monitor Invocation) :
    Decided cooldownMs rules waiting.delivery waiting.anomalies waiting.next s
      (s.resume cooldownMs rules waiting).1 := by
  have halerted := @alert_spec _ cooldownMs waiting.anomalies s
  have hnone := @alert_eq_none _ cooldownMs s waiting.anomalies
  have hsome := @Decided.of_alert_some _ cooldownMs rules s waiting.delivery waiting.anomalies
    waiting.next
  unfold Monitor.resume
  generalize s.alert cooldownMs waiting.anomalies = result at halerted hnone hsome ⊢
  obtain ⟨posted, after⟩ := result
  cases posted with
  | none =>
      have hafter : ∀ i, waiting.next ≤ i → after.calls i = s.calls i :=
        fun i _ => congrFun halerted.calls i
      have hdecided :=
        @evaluate_decided _ cooldownMs rules waiting.delivery waiting.next _ rfl after
      exact (hdecided.of_same halerted.now halerted.lastAlertedAtMs hafter).of_alert_none
        (hnone rfl)
  | some posted => exact hsome rfl

end Steps

/-! ## Steps -/

/-- What a step of the call `id` does, which has `left` anomalies of the rule before and
goes on with the rule `start`. -/
structure Advance (cooldownMs : Nat) (rules : List (AnomalyRule Invocation))
    (s s' : Monitor Invocation) (id : Nat) (d : Delivery Invocation) (left : List Anomaly)
    (start : Nat) (handler : Option (Waiting Invocation)) : Prop
    extends Decided cooldownMs rules d left start s handler where
  now : s'.now = s.now
  handlers : ∀ k, s'.handlers k = if k = id then handler else s.handlers k
  calls : ∀ i, s'.calls i = if start ≤ i ∧ i < handler.elim rules.length (·.next) then
    s.calls i ++ [d] else s.calls i
  lastAlertedAtMs : ∀ key, s'.lastAlertedAtMs key =
    if ∃ waiting ∈ handler, waiting.anomaly.dedupKey = key then some s.now
    else s.lastAlertedAtMs key
  le_stages : handler.elim rules.length (·.next) ≤ rules.length
  waits : ∀ waiting ∈ handler, waiting.delivery = d

/-- The steps of a monitor whose calls wait between rules that there are. -/
inductive Moves (cooldownMs : Nat) (rules : List (AnomalyRule Invocation))
    (s : Monitor Invocation) : Action Invocation → Monitor Invocation → Prop
  | deliver {invocation : Invocation} {s' : Monitor Invocation}
      {handler : Option (Waiting Invocation)}
      (hadvance : Advance cooldownMs rules s s' s.delivered ⟨s.delivered, invocation⟩ [] 0 handler)
      (hdelivered : s'.delivered = s.delivered + 1) :
      Moves cooldownMs rules s (.deliver invocation) s'
  | answer {id : Nat} {answer : Answer} {waiting : Waiting Invocation} {s' : Monitor Invocation}
      {handler : Option (Waiting Invocation)} (hwaiting : s.handlers id = some waiting)
      (hadvance : Advance cooldownMs rules s s' id waiting.delivery waiting.anomalies waiting.next
        handler)
      (hdelivered : s'.delivered = s.delivered) : Moves cooldownMs rules s (.answer id answer) s'
  | tick {ms : Nat} : Moves cooldownMs rules s (.tick ms) { s with now := s.now + ms }

section Moves

variable {cooldownMs : Nat} {rules : List (AnomalyRule Invocation)}
  {s s' s₁ : Monitor Invocation} {d : Delivery Invocation} {left : List Anomaly}
  {start stop id : Nat} {handler : Option (Waiting Invocation)}

theorem Advance.of_stretch (hdecided : Decided cooldownMs rules d left start s handler)
    (hstretch : Stretch cooldownMs rules.length d start stop s s₁ handler)
    (hnow : s'.now = s₁.now) (hhandlers : s'.handlers = (s₁.withHandler id handler).handlers)
    (hcalls : s'.calls = s₁.calls) (hlast : s'.lastAlertedAtMs = s₁.lastAlertedAtMs) :
    Advance cooldownMs rules s s' id d left start handler where
  toDecided := hdecided
  now := hnow.trans hstretch.now
  handlers k := by rw [hhandlers, withHandler_handlers, hstretch.handlers]
  calls i := by rw [hcalls, hstretch.calls, hstretch.stops]
  lastAlertedAtMs key := by
    rw [hlast, hstretch.lastAlertedAtMs]
    cases handler with
    | none => simp
    | some waiting =>
        simp only [Function.update_apply, Option.mem_def, Option.some.injEq, exists_eq_left',
          eq_comm (a := key)]
  le_stages := hstretch.stops ▸ hstretch.le_stages
  waits := hstretch.waits

theorem Moves.of_act {a : Action Invocation}
    (hnext : ∀ id waiting, s.handlers id = some waiting → waiting.next ≤ rules.length)
    (h : s.act cooldownMs rules a = some s') : Moves cooldownMs rules s a s' := by
  cases a with
  | deliver invocation =>
      obtain rfl := Option.some.inj h
      obtain ⟨stop, hstretch⟩ := @evaluate_spec _ cooldownMs ⟨s.delivered, invocation⟩ rules 0 s
      rw [Nat.zero_add] at hstretch
      exact .deliver (.of_stretch (evaluate_decided rfl s) hstretch rfl rfl rfl rfl) rfl
  | answer id answer =>
      obtain ⟨waiting, hwaiting, hact⟩ := Option.bind_eq_some_iff.mp h
      obtain rfl := Option.some.inj hact
      obtain ⟨stop, hstretch⟩ := resume_spec waiting (hnext id waiting hwaiting) s
      exact .answer hwaiting (.of_stretch (resume_decided waiting s) hstretch rfl rfl rfl rfl)
        hstretch.delivered
  | tick ms =>
      obtain rfl := Option.some.inj h
      exact .tick

end Moves

end StellarKraal.Monitoring
