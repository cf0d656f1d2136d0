import StellarKraal.Monitoring.Decisions

/-!
# No anomaly is lost

Every rule sees every invocation, and each anomaly that it finds is alerted or repeats an
alert of a cooldown before at most; what is alerted was found, and not alerted in the
cooldown before.
-/

namespace StellarKraal.Monitoring

open TransitionSystem (Transition)

variable {Invocation : Type}

def Arrives (t : Transition (Monitor Invocation) (Action Invocation))
    (d : Delivery Invocation) : Prop :=
  ∃ invocation, t.action = .deliver invocation ∧ d = ⟨t.before.delivered, invocation⟩

/-- The step posts the anomaly to the webhook. -/
def Alerts (t : Transition (Monitor Invocation) (Action Invocation)) (d : Delivery Invocation)
    (anomaly : Anomaly) : Prop :=
  ∃ id waiting, acting t = some id ∧ t.after.handlers id = some waiting ∧
    waiting.delivery = d ∧ waiting.anomaly = anomaly

/-- The rule has returned the anomaly for the delivery. -/
def Raised (rules : List (AnomalyRule Invocation)) (s : Monitor Invocation) (i : Nat)
    (d : Delivery Invocation) (anomaly : Anomaly) : Prop :=
  ∃ earlier later, s.calls i = earlier ++ d :: later ∧ Returns rules i earlier d anomaly

/-- The key was alerted at the time or after, or less than a cooldown before it. -/
def Told (cooldownMs : Nat) (steps : List (Transition (Monitor Invocation) (Action Invocation)))
    (key : String) (time : Nat) : Prop :=
  ∃ t ∈ steps, ∃ d anomaly, Alerts t d anomaly ∧ anomaly.dedupKey = key ∧
    (time ≤ t.before.now ∨ time < t.before.now + cooldownMs)

/-- The call of the delivery keeps the anomaly, and is past just this rule. -/
def Kept (s : Monitor Invocation) (i : Nat) (d : Delivery Invocation) (anomaly : Anomaly) : Prop :=
  ∃ waiting, s.handlers d.id = some waiting ∧ waiting.delivery = d ∧ waiting.next = i + 1 ∧
    anomaly ∈ waiting.anomalies

/-- Deliveries have numbers of their own. -/
structure Arrivals (steps : List (Transition (Monitor Invocation) (Action Invocation)))
    (s : Monitor Invocation) : Prop where
  past : ∀ t ∈ steps, t.before.now ≤ s.now
  arrived : ∀ t ∈ steps, ∀ d, Arrives t d → d.id < s.delivered
  unique : ∀ t ∈ steps, ∀ u ∈ steps, ∀ d e, Arrives t d → Arrives u e → d.id = e.id → d = e

structure Reported (cooldownMs : Nat) (rules : List (AnomalyRule Invocation))
    (steps : List (Transition (Monitor Invocation) (Action Invocation)))
    (s : Monitor Invocation) : Prop where
  waiting : ∀ id w, s.handlers id = some w →
    w.delivery.id = id ∧ w.next ≤ rules.length ∧ ∃ t ∈ steps, Arrives t w.delivery
  fed : ∀ t ∈ steps, ∀ d, Arrives t d → ∀ i < progress rules s d.id, d ∈ s.calls i
  known : ∀ i, ∀ d ∈ s.calls i, ∃ t ∈ steps, Arrives t d
  last : ∀ key time, s.lastAlertedAtMs key = some time →
    ∃ t ∈ steps, t.before.now = time ∧ ∃ d anomaly, Alerts t d anomaly ∧ anomaly.dedupKey = key
  alerted : ∀ t ∈ steps, ∀ d anomaly, Alerts t d anomaly →
    (∃ i, Raised rules s i d anomaly) ∧
      ∃ time, s.lastAlertedAtMs anomaly.dedupKey = some time ∧ t.before.now ≤ time
  kept : ∀ id w, s.handlers id = some w → ∀ anomaly ∈ w.anomalies,
    ∃ i, w.next = i + 1 ∧ Raised rules s i w.delivery anomaly
  lost : ∀ i d anomaly, Raised rules s i d anomaly → Kept s i d anomaly ∨
    ∀ t ∈ steps, Arrives t d → Told cooldownMs steps anomaly.dedupKey t.before.now

variable {cooldownMs : Nat} {rules : List (AnomalyRule Invocation)}
  {steps : List (Transition (Monitor Invocation) (Action Invocation))}
  {s s' : Monitor Invocation} {a : Action Invocation}
  {t : Transition (Monitor Invocation) (Action Invocation)} {id i start time : Nat}
  {d d' : Delivery Invocation} {left : List Anomaly} {anomaly : Anomaly}
  {handler : Option (Waiting Invocation)} {key : String}

theorem Told.later (h : Told cooldownMs steps key time) :
    Told cooldownMs (steps ++ [t]) key time := by
  obtain ⟨u, hu, h⟩ := h
  exact ⟨u, List.mem_append_left _ hu, h⟩

theorem exists_later {P : Transition (Monitor Invocation) (Action Invocation) → Prop}
    (h : ∃ t ∈ steps, P t) : ∃ t' ∈ steps ++ [t], P t' := by
  obtain ⟨t', ht', hP⟩ := h
  exact ⟨t', List.mem_append_left _ ht', hP⟩

theorem Moves.now_le (h : Moves cooldownMs rules s a s') : s.now ≤ s'.now := by
  cases h with
  | deliver hadvance => exact Nat.le_of_eq hadvance.now.symm
  | answer _ hadvance => exact Nat.le_of_eq hadvance.now.symm
  | tick => exact Nat.le_add_right _ _

theorem Moves.delivered_le (h : Moves cooldownMs rules s a s') : s.delivered ≤ s'.delivered := by
  cases h with
  | deliver _ hdelivered => exact hdelivered ▸ Nat.le_succ _
  | answer _ _ hdelivered => exact Nat.le_of_eq hdelivered.symm
  | tick => exact Nat.le_refl _

theorem Moves.arrives (h : Moves cooldownMs rules s a s') (hd : Arrives ⟨s, a, s'⟩ d) :
    d.id = s.delivered ∧ s.delivered < s'.delivered := by
  obtain ⟨invocation, rfl, rfl⟩ := hd
  cases h with
  | deliver _ hdelivered => exact ⟨rfl, hdelivered ▸ Nat.lt_succ_self _⟩

theorem Arrivals.step (h : Arrivals steps s) (hmoves : Moves cooldownMs rules s a s') :
    Arrivals (steps ++ [⟨s, a, s'⟩]) s' := by
  refine ⟨fun t ht => ?_, fun t ht d hd => ?_, fun t ht u hu d e hd he hid => ?_⟩
  · rcases List.mem_append.mp ht with ht | ht
    · exact Nat.le_trans (h.past t ht) hmoves.now_le
    · obtain rfl := List.mem_singleton.mp ht
      exact hmoves.now_le
  · rcases List.mem_append.mp ht with ht | ht
    · exact Nat.lt_of_lt_of_le (h.arrived t ht d hd) hmoves.delivered_le
    · obtain rfl := List.mem_singleton.mp ht
      obtain ⟨hid, hlt⟩ := hmoves.arrives hd
      exact hid ▸ hlt
  · rcases List.mem_append.mp ht with ht | ht <;> rcases List.mem_append.mp hu with hu | hu
    · exact h.unique t ht u hu d e hd he hid
    · obtain rfl := List.mem_singleton.mp hu
      exact absurd (hid.trans (hmoves.arrives he).1) (Nat.ne_of_lt (h.arrived t ht d hd))
    · obtain rfl := List.mem_singleton.mp ht
      exact absurd (hid.symm.trans (hmoves.arrives hd).1) (Nat.ne_of_lt (h.arrived u hu e he))
    · obtain rfl := List.mem_singleton.mp ht
      obtain rfl := List.mem_singleton.mp hu
      obtain ⟨invocation, haction, rfl⟩ := hd
      obtain ⟨invocation', haction', rfl⟩ := he
      obtain rfl := Action.deliver.inj (haction.symm.trans haction')
      rfl

/-! ## A step of a call -/

namespace Advance

variable (h : Advance cooldownMs rules s s' id d left start handler)
include h

theorem alerts_iff (hacting : acting ⟨s, a, s'⟩ = some id) :
    Alerts ⟨s, a, s'⟩ d' anomaly ↔
      ∃ waiting, handler = some waiting ∧ d' = d ∧ anomaly = waiting.anomaly := by
  constructor
  · rintro ⟨id', waiting, hacting', hwaiting, rfl, rfl⟩
    obtain rfl := Option.mem_unique hacting hacting'
    have hhandler := h.handlers id
    rw [if_pos rfl] at hhandler
    have hsame : handler = some waiting := hhandler.symm.trans hwaiting
    exact ⟨waiting, hsame, h.waits waiting hsame, rfl⟩
  · rintro ⟨waiting, rfl, rfl, rfl⟩
    exact ⟨id, waiting, hacting, by rw [h.handlers, if_pos rfl], h.waits waiting rfl, rfl⟩

theorem raised (hraised : Raised rules s i d' anomaly) : Raised rules s' i d' anomaly := by
  obtain ⟨earlier, later, hcalls, hreturns⟩ := hraised
  by_cases hnew : start ≤ i ∧ i < handler.elim rules.length (·.next)
  · refine ⟨earlier, later ++ [d], ?_, hreturns⟩
    rw [h.calls, if_pos hnew, hcalls, List.append_assoc, List.cons_append]
  · exact ⟨earlier, later, by rw [h.calls, if_neg hnew, hcalls], hreturns⟩

/-- What a rule has returned it returned before, or for this call. -/
theorem of_raised (hraised : Raised rules s' i d' anomaly) :
    Raised rules s i d' anomaly ∨ d' = d ∧ start ≤ i ∧
      i < handler.elim rules.length (·.next) ∧ Returns rules i (s.calls i) d anomaly := by
  obtain ⟨earlier, later, hcalls, hreturns⟩ := hraised
  rw [h.calls] at hcalls
  split at hcalls
  next hnew =>
    rcases List.eq_nil_or_concat later with rfl | ⟨rest, last, rfl⟩
    · obtain ⟨rfl, hlast⟩ := List.append_inj' hcalls rfl
      obtain rfl := List.singleton_inj.mp hlast
      exact .inr ⟨rfl, hnew.1, hnew.2, hreturns⟩
    · rw [List.concat_eq_append, ← List.cons_append, ← List.append_assoc] at hcalls
      obtain ⟨hcalls, -⟩ := List.append_inj' hcalls rfl
      exact .inl ⟨earlier, rest, hcalls, hreturns⟩
  next => exact .inl ⟨earlier, later, hcalls, hreturns⟩

theorem mem_calls (hmem : d' ∈ s'.calls i) : d' ∈ s.calls i ∨ d' = d := by
  rw [h.calls] at hmem
  split at hmem
  · exact (List.mem_append.mp hmem).imp_right List.mem_singleton.mp
  · exact .inl hmem

theorem calls_subset : s.calls i ⊆ s'.calls i := by
  rw [h.calls]
  split
  · exact List.subset_append_left _ _
  · exact List.Subset.refl _

/-- What the call posts or keeps has been raised, if what it had left was. -/
theorem raised_of_mem (hleft : ∀ anomaly ∈ left, ∃ i, start = i + 1 ∧ Raised rules s i d anomaly)
    {waiting : Waiting Invocation} (hwaiting : handler = some waiting)
    (hmem : anomaly ∈ waiting.anomaly :: waiting.anomalies) :
    ∃ i, waiting.next = i + 1 ∧ Raised rules s' i d anomaly := by
  rcases h.kept waiting hwaiting anomaly hmem with ⟨hnext, hmem⟩ | ⟨i, hi, hnext, hreturns⟩
  · obtain ⟨i, hstart, hraised⟩ := hleft anomaly hmem
    exact ⟨i, hnext.trans hstart, h.raised hraised⟩
  · refine ⟨i, hnext, s.calls i, [], ?_, hreturns⟩
    rw [h.calls, if_pos ⟨hi, by simp [hwaiting, hnext]⟩]

end Advance

theorem Moves.due (h : Moves cooldownMs rules s a s') (halerts : Alerts ⟨s, a, s'⟩ d anomaly) :
    s.withinCooldown cooldownMs anomaly.dedupKey = false := by
  cases h with
  | deliver hadvance =>
      obtain ⟨w, hw, -, rfl⟩ := (hadvance.alerts_iff rfl).mp halerts
      exact hadvance.due w hw
  | answer _ hadvance =>
      obtain ⟨w, hw, -, rfl⟩ := (hadvance.alerts_iff rfl).mp halerts
      exact hadvance.due w hw
  | tick =>
      obtain ⟨k, w, hacting, -⟩ := halerts
      contradiction

/-! ## Runs -/

namespace Reported

theorem told_of_within (h : Reported cooldownMs rules steps s)
    (hwithin : s.withinCooldown cooldownMs key = true) (htime : time ≤ s.now) :
    Told cooldownMs steps key time := by
  unfold Monitor.withinCooldown at hwithin
  split at hwithin
  next last hlast =>
    obtain ⟨t, ht, rfl, d, anomaly, halerts, hkey⟩ := h.last key last hlast
    have hlt := of_decide_eq_true hwithin
    exact ⟨t, ht, d, anomaly, halerts, hkey, .inr (Nat.lt_of_le_of_lt htime hlt)⟩
  next => contradiction

/-- What a call comes to is told, or it keeps it. -/
theorem of_handled (h : Reported cooldownMs rules steps s)
    (hadvance : Advance cooldownMs rules s s' id d left start handler)
    (hacting : acting ⟨s, a, s'⟩ = some id) (hid : d.id = id) (htime : time ≤ s.now)
    (hhandled : Handled cooldownMs s handler (i + 1) anomaly) : Kept s' i d anomaly ∨
      Told cooldownMs (steps ++ [⟨s, a, s'⟩]) anomaly.dedupKey time := by
  rcases hhandled with hwithin | ⟨waiting, hwaiting, hnext, hmem⟩
  · exact .inr (h.told_of_within hwithin htime).later
  · rcases List.mem_cons.mp hmem with rfl | hmem
    · exact .inr ⟨_, List.mem_append_right _ List.mem_cons_self, d, _,
        (hadvance.alerts_iff hacting).mpr ⟨waiting, hwaiting, rfl, rfl⟩, rfl, .inl htime⟩
    · refine .inl ⟨waiting, ?_, hadvance.waits waiting hwaiting, hnext, hmem⟩
      rw [hadvance.handlers, if_pos hid, hwaiting]

/-! One lemma for each field, for the call of a delivery that has arrived. -/

section Advancing

variable (h : Reported cooldownMs rules steps s)
  (hadvance : Advance cooldownMs rules s s' id d left start handler)
include h hadvance

theorem waiting_of_advance (hid : d.id = id) (hd : ∃ t ∈ steps ++ [⟨s, a, s'⟩], Arrives t d)
    (k : Nat) (w : Waiting Invocation) (hw : s'.handlers k = some w) :
    w.delivery.id = k ∧ w.next ≤ rules.length ∧
      ∃ t ∈ steps ++ [⟨s, a, s'⟩], Arrives t w.delivery := by
  rw [hadvance.handlers] at hw
  split at hw
  next hk =>
    have hnext := hadvance.le_stages
    rw [hw, Option.elim_some] at hnext
    obtain rfl := hadvance.waits w hw
    exact ⟨hid.trans hk.symm, hnext, hd⟩
  next =>
    obtain ⟨hdelivery, hnext, harrived⟩ := h.waiting k w hw
    exact ⟨hdelivery, hnext, exists_later harrived⟩

theorem fed_of_advance (harrivals' : Arrivals (steps ++ [⟨s, a, s'⟩]) s') (hid : d.id = id)
    (hd : ∃ t ∈ steps ++ [⟨s, a, s'⟩], Arrives t d)
    (hnew : ∀ e, Arrives ⟨s, a, s'⟩ e → e = d) (hstart : ∀ i < start, d ∈ s.calls i)
    (ht : t ∈ steps ++ [⟨s, a, s'⟩]) {e : Delivery Invocation} (he : Arrives t e)
    (hi : i < progress rules s' e.id) : e ∈ s'.calls i := by
  by_cases hk : e.id = id
  · obtain ⟨u, hu, harrives⟩ := hd
    obtain rfl := harrivals'.unique t ht u hu e d he harrives (hk.trans hid.symm)
    rw [progress, hadvance.handlers, if_pos hk] at hi
    rcases Nat.lt_or_ge i start with hlt | hle
    · exact hadvance.calls_subset (hstart i hlt)
    · rw [hadvance.calls, if_pos ⟨hle, hi⟩]
      exact List.mem_append_right _ List.mem_cons_self
  · rcases List.mem_append.mp ht with ht | ht
    · rw [progress, hadvance.handlers, if_neg hk] at hi
      exact hadvance.calls_subset (h.fed t ht e he i hi)
    · obtain rfl := List.mem_singleton.mp ht
      exact absurd (hnew e he ▸ hid) hk

theorem known_of_advance (hd : ∃ t ∈ steps ++ [⟨s, a, s'⟩], Arrives t d)
    {e : Delivery Invocation} (he : e ∈ s'.calls i) :
    ∃ t ∈ steps ++ [⟨s, a, s'⟩], Arrives t e := by
  rcases hadvance.mem_calls he with he | rfl
  · exact exists_later (h.known i e he)
  · exact hd

theorem last_of_advance (hacting : acting ⟨s, a, s'⟩ = some id)
    (htime : s'.lastAlertedAtMs key = some time) :
    ∃ t ∈ steps ++ [⟨s, a, s'⟩], t.before.now = time ∧
      ∃ d anomaly, Alerts t d anomaly ∧ anomaly.dedupKey = key := by
  rw [hadvance.lastAlertedAtMs] at htime
  split at htime
  next hkey =>
    obtain ⟨waiting, hwaiting, hkey⟩ := hkey
    exact ⟨_, List.mem_append_right _ List.mem_cons_self, Option.some.inj htime, d, _,
      (hadvance.alerts_iff hacting).mpr ⟨waiting, hwaiting, rfl, rfl⟩, hkey⟩
  next => exact exists_later (h.last key time htime)

theorem alerted_of_advance (harrivals : Arrivals steps s)
    (hacting : acting ⟨s, a, s'⟩ = some id)
    (hleft : ∀ anomaly ∈ left, ∃ i, start = i + 1 ∧ Raised rules s i d anomaly)
    (ht : t ∈ steps ++ [⟨s, a, s'⟩]) {e : Delivery Invocation} (halerts : Alerts t e anomaly) :
    (∃ i, Raised rules s' i e anomaly) ∧
      ∃ time, s'.lastAlertedAtMs anomaly.dedupKey = some time ∧ t.before.now ≤ time := by
  rw [hadvance.lastAlertedAtMs]
  rcases List.mem_append.mp ht with ht | ht
  · obtain ⟨⟨i, hraised⟩, time, htime, hle⟩ := h.alerted t ht e anomaly halerts
    refine ⟨⟨i, hadvance.raised hraised⟩, ?_⟩
    split
    · exact ⟨_, rfl, harrivals.past t ht⟩
    · exact ⟨time, htime, hle⟩
  · obtain rfl := List.mem_singleton.mp ht
    obtain ⟨waiting, hwaiting, rfl, rfl⟩ := (hadvance.alerts_iff hacting).mp halerts
    obtain ⟨i, -, hraised⟩ := hadvance.raised_of_mem hleft hwaiting List.mem_cons_self
    exact ⟨⟨i, hraised⟩, s.now, if_pos ⟨waiting, hwaiting, rfl⟩, Nat.le_refl _⟩

theorem kept_of_advance
    (hleft : ∀ anomaly ∈ left, ∃ i, start = i + 1 ∧ Raised rules s i d anomaly)
    {k : Nat} {w : Waiting Invocation} (hw : s'.handlers k = some w)
    (hmem : anomaly ∈ w.anomalies) :
    ∃ i, w.next = i + 1 ∧ Raised rules s' i w.delivery anomaly := by
  rw [hadvance.handlers] at hw
  split at hw
  next =>
    obtain rfl := hadvance.waits w hw
    exact hadvance.raised_of_mem hleft hw (List.mem_cons_of_mem _ hmem)
  next =>
    obtain ⟨i, hnext, hraised⟩ := h.kept k w hw anomaly hmem
    exact ⟨i, hnext, hadvance.raised hraised⟩

/-- What the call has to decide on is told or kept. -/
theorem lost_of_handled (harrivals' : Arrivals (steps ++ [⟨s, a, s'⟩]) s')
    (hacting : acting ⟨s, a, s'⟩ = some id) (hid : d.id = id)
    (hhandled : Handled cooldownMs s handler (i + 1) anomaly) :
    Kept s' i d anomaly ∨ ∀ t ∈ steps ++ [⟨s, a, s'⟩], Arrives t d →
      Told cooldownMs (steps ++ [⟨s, a, s'⟩]) anomaly.dedupKey t.before.now := by
  refine or_iff_not_imp_left.mpr fun hgone t ht _ => ?_
  refine (h.of_handled hadvance hacting hid ?_ hhandled).resolve_left hgone
  exact hadvance.now ▸ harrivals'.past t ht

/-- What a call keeps it still keeps, unless it is the one that advances. -/
theorem lost_of_kept (harrivals' : Arrivals (steps ++ [⟨s, a, s'⟩]) s')
    (hacting : acting ⟨s, a, s'⟩ = some id) (hid : d.id = id)
    (hd : ∃ t ∈ steps ++ [⟨s, a, s'⟩], Arrives t d)
    (hkept : ∀ i anomaly, Kept s i d anomaly → start = i + 1 ∧ anomaly ∈ left)
    {e : Delivery Invocation} (hkeeps : Kept s i e anomaly) :
    Kept s' i e anomaly ∨ ∀ t ∈ steps ++ [⟨s, a, s'⟩], Arrives t e →
      Told cooldownMs (steps ++ [⟨s, a, s'⟩]) anomaly.dedupKey t.before.now := by
  have hwaits := hkeeps
  obtain ⟨w, hw, rfl, hrest⟩ := hwaits
  by_cases hk : w.delivery.id = id
  · obtain ⟨-, -, u, hu, harrives⟩ := h.waiting _ w hw
    obtain ⟨v, hv, harrives'⟩ := hd
    obtain rfl := harrivals'.unique u (List.mem_append_left _ hu) v hv _ d harrives
      harrives' (hk.trans hid.symm)
    obtain ⟨rfl, hmem⟩ := hkept i anomaly hkeeps
    exact h.lost_of_handled hadvance harrivals' hacting hid (hadvance.before anomaly hmem)
  · exact .inl ⟨w, by rw [hadvance.handlers, if_neg hk, hw], rfl, hrest⟩

theorem lost_of_advance (harrivals : Arrivals steps s)
    (harrivals' : Arrivals (steps ++ [⟨s, a, s'⟩]) s')
    (hacting : acting ⟨s, a, s'⟩ = some id) (hid : d.id = id)
    (hd : ∃ t ∈ steps ++ [⟨s, a, s'⟩], Arrives t d)
    (hkept : ∀ i anomaly, Kept s i d anomaly → start = i + 1 ∧ anomaly ∈ left)
    {e : Delivery Invocation} (hraised : Raised rules s' i e anomaly) :
    Kept s' i e anomaly ∨ ∀ t ∈ steps ++ [⟨s, a, s'⟩], Arrives t e →
      Told cooldownMs (steps ++ [⟨s, a, s'⟩]) anomaly.dedupKey t.before.now := by
  rcases hadvance.of_raised hraised with hold | ⟨rfl, hi, hstop, hreturns⟩
  · rcases h.lost i e anomaly hold with hkeeps | htold
    · exact h.lost_of_kept hadvance harrivals' hacting hid hd hkept hkeeps
    · refine .inr fun t ht harrives => ?_
      rcases List.mem_append.mp ht with ht | ht
      · exact (htold t ht harrives).later
      · -- A delivery that arrives only now has been in no call before.
        obtain rfl := List.mem_singleton.mp ht
        obtain ⟨earlier, later, hcalls, -⟩ := hold
        have hmem : e ∈ s.calls i := hcalls ▸ List.mem_append_right _ List.mem_cons_self
        obtain ⟨u, hu, harrives'⟩ := h.known i e hmem
        obtain ⟨invocation, -, rfl⟩ := harrives
        exact absurd (harrivals.arrived u hu _ harrives') (Nat.lt_irrefl _)
  · exact h.lost_of_handled hadvance harrivals' hacting hid
      (hadvance.handled i hi hstop anomaly hreturns)

end Advancing

/-- The step lemma, for the call of a delivery that has arrived. -/
theorem advance (h : Reported cooldownMs rules steps s) (harrivals : Arrivals steps s)
    (harrivals' : Arrivals (steps ++ [⟨s, a, s'⟩]) s')
    (hadvance : Advance cooldownMs rules s s' id d left start handler)
    (hacting : acting ⟨s, a, s'⟩ = some id) (hid : d.id = id)
    (hd : ∃ t ∈ steps ++ [⟨s, a, s'⟩], Arrives t d)
    (hnew : ∀ e, Arrives ⟨s, a, s'⟩ e → e = d) (hstart : ∀ i < start, d ∈ s.calls i)
    (hleft : ∀ anomaly ∈ left, ∃ i, start = i + 1 ∧ Raised rules s i d anomaly)
    (hkept : ∀ i anomaly, Kept s i d anomaly → start = i + 1 ∧ anomaly ∈ left) :
    Reported cooldownMs rules (steps ++ [⟨s, a, s'⟩]) s' where
  waiting := h.waiting_of_advance hadvance hid hd
  fed _ ht _ he _ hi := h.fed_of_advance hadvance harrivals' hid hd hnew hstart ht he hi
  known _ _ he := h.known_of_advance hadvance hd he
  last _ _ htime := h.last_of_advance hadvance hacting htime
  alerted _ ht _ _ halerts := h.alerted_of_advance hadvance harrivals hacting hleft ht halerts
  kept _ _ hw _ hmem := h.kept_of_advance hadvance hleft hw hmem
  lost _ _ _ hraised :=
    h.lost_of_advance hadvance harrivals harrivals' hacting hid hd hkept hraised

theorem of_fresh (hfresh : s.Fresh) : Reported cooldownMs rules [] s where
  waiting id w hw := by simp [hfresh.handlers] at hw
  fed t ht := absurd ht List.not_mem_nil
  known i d hd := by simp [hfresh.calls] at hd
  last key time htime := by simp [hfresh.lastAlertedAtMs] at htime
  alerted t ht := absurd ht List.not_mem_nil
  kept id w hw := by simp [hfresh.handlers] at hw
  lost i d anomaly hraised := by
    obtain ⟨earlier, later, hcalls, -⟩ := hraised
    simp [hfresh.calls] at hcalls

theorem tick (h : Reported cooldownMs rules steps s) {ms : Nat}
    (haction : a = .tick ms) (hs' : s' = { s with now := s.now + ms }) :
    Reported cooldownMs rules (steps ++ [⟨s, a, s'⟩]) s' := by
  obtain rfl := haction
  obtain rfl := hs'
  have hnone : ∀ {e}, ¬ Arrives (⟨s, .tick ms, { s with now := s.now + ms }⟩ :
      Transition (Monitor Invocation) (Action Invocation)) e := by
    rintro e ⟨invocation, haction, -⟩
    contradiction
  refine ⟨fun k w hw => ?_, fun t ht e he => ?_, fun i e he => exists_later (h.known i e he),
    fun key time htime => exists_later (h.last key time htime), fun t ht e anomaly halerts => ?_,
    h.kept, fun i e anomaly hraised => ?_⟩
  · obtain ⟨hdelivery, hnext, harrived⟩ := h.waiting k w hw
    exact ⟨hdelivery, hnext, exists_later harrived⟩
  · rcases List.mem_append.mp ht with ht | ht
    · exact h.fed t ht e he
    · obtain rfl := List.mem_singleton.mp ht
      exact absurd he hnone
  · rcases List.mem_append.mp ht with ht | ht
    · exact h.alerted t ht e anomaly halerts
    · obtain rfl := List.mem_singleton.mp ht
      obtain ⟨k, w, hacting, -⟩ := halerts
      contradiction
  · refine (h.lost i e anomaly hraised).imp_right fun htold t ht harrives => ?_
    rcases List.mem_append.mp ht with ht | ht
    · exact (htold t ht harrives).later
    · obtain rfl := List.mem_singleton.mp ht
      exact absurd harrives hnone

theorem step (h : Reported cooldownMs rules steps s) (harrivals : Arrivals steps s)
    (hmoves : Moves cooldownMs rules s a s') :
    Reported cooldownMs rules (steps ++ [⟨s, a, s'⟩]) s' := by
  have harrivals' := harrivals.step hmoves
  cases hmoves with
  | @deliver invocation _ handler hadvance hdelivered =>
      have harrives : Arrives ⟨s, .deliver invocation, s'⟩ ⟨s.delivered, invocation⟩ :=
        ⟨invocation, rfl, rfl⟩
      refine h.advance harrivals harrivals' hadvance rfl rfl
        ⟨_, List.mem_append_right _ List.mem_cons_self, harrives⟩ ?_ nofun nofun ?_
      · rintro e ⟨invocation', haction, rfl⟩
        obtain rfl := Action.deliver.inj haction
        rfl
      · rintro i anomaly ⟨w, hw, hdelivery, -⟩
        obtain ⟨-, -, t, ht, harrived⟩ := h.waiting _ w hw
        have hlt := harrivals.arrived t ht _ harrived
        rw [hdelivery] at hlt
        exact absurd hlt (Nat.lt_irrefl _)
  | @answer k answer waiting _ handler hwaiting hadvance hdelivered =>
      obtain ⟨hid, hnext, t, ht, harrived⟩ := h.waiting k waiting hwaiting
      refine h.advance harrivals harrivals' hadvance rfl hid
        ⟨t, List.mem_append_left _ ht, harrived⟩ ?_ ?_ ?_ ?_
      · rintro e ⟨invocation', haction, -⟩
        contradiction
      · intro i hi
        refine h.fed t ht _ harrived i ?_
        rwa [progress, hid, hwaiting, Option.elim_some]
      · exact h.kept k waiting hwaiting
      · rintro i anomaly ⟨w, hw, -, hnext, hmem⟩
        obtain rfl := Option.mem_unique (hid ▸ hwaiting) hw
        exact ⟨hnext, hmem⟩
  | tick => exact h.tick rfl rfl

theorem of_run {start : Monitor Invocation} (hfresh : start.Fresh)
    (hrun : (monitoring cooldownMs rules).Run start steps s) :
    Reported cooldownMs rules steps s ∧ Arrivals steps s := by
  induction hrun with
  | nil => exact ⟨of_fresh hfresh, nofun, nofun, nofun⟩
  | snoc prior step ih =>
      obtain ⟨h, harrivals⟩ := ih
      have hmoves := Moves.of_act (fun id w hw => (h.waiting id w hw).2.1) step
      exact ⟨h.step harrivals hmoves, harrivals.step hmoves⟩

end Reported

/-- Once the call of a delivery waits no more, every rule has been called on it, and the key
of each anomaly that a rule returned was alerted since, or less than a cooldown before. -/
theorem anomalies_told {start : Monitor Invocation} (hfresh : start.Fresh)
    (hrun : (monitoring cooldownMs rules).Run start steps s) (ht : t ∈ steps)
    (hd : Arrives t d) (hdone : s.handlers d.id = none) :
    ∀ i < rules.length, ∃ earlier later, s.calls i = earlier ++ d :: later ∧
      ∀ anomaly, Returns rules i earlier d anomaly →
        Told cooldownMs steps anomaly.dedupKey t.before.now := by
  obtain ⟨hreported, -⟩ := Reported.of_run hfresh hrun
  intro i hi
  have hprogress : i < progress rules s d.id := by rwa [progress, hdone, Option.elim_none]
  obtain ⟨earlier, later, hcalls⟩ := List.append_of_mem (hreported.fed t ht d hd i hprogress)
  refine ⟨earlier, later, hcalls, fun anomaly hreturns => ?_⟩
  rcases hreported.lost i d anomaly ⟨earlier, later, hcalls, hreturns⟩ with hkept | htold
  · obtain ⟨w, hw, -⟩ := hkept
    simp [hdone] at hw
  · exact htold t ht hd

/-- What is alerted was returned by a rule for an invocation that was delivered, and its key
was not alerted in the cooldown before. -/
theorem alerts_due {start : Monitor Invocation}
    {earlier later : List (Transition (Monitor Invocation) (Action Invocation))}
    (hfresh : start.Fresh) (hrun : (monitoring cooldownMs rules).Run start steps s)
    (hsplit : steps = earlier ++ t :: later) (halerts : Alerts t d anomaly) :
    (∃ i, Raised rules t.after i d anomaly) ∧ (∃ u ∈ earlier ++ [t], Arrives u d) ∧
      ∀ u ∈ earlier, ∀ d' anomaly', Alerts u d' anomaly' →
        anomaly'.dedupKey = anomaly.dedupKey → u.before.now + cooldownMs ≤ t.before.now := by
  obtain rfl := hsplit
  obtain ⟨hprior, hstep⟩ := hrun.of_split
  obtain ⟨hreported, harrivals⟩ := Reported.of_run hfresh hprior
  have hmoves := Moves.of_act (fun id w hw => (hreported.waiting id w hw).2.1) hstep
  have hafter := hreported.step harrivals hmoves
  have hmem : t ∈ earlier ++ [t] := List.mem_append_right _ List.mem_cons_self
  refine ⟨(hafter.alerted t hmem d anomaly halerts).1, ?_, fun u hu d' anomaly' halerted hkey => ?_⟩
  · obtain ⟨id, w, -, hw, rfl, -⟩ := halerts
    exact (hafter.waiting id w hw).2.2
  · obtain ⟨-, time, htime, hle⟩ := hreported.alerted u hu d' anomaly' halerted
    have hdue := hmoves.due halerts
    rw [Monitor.withinCooldown, ← hkey, htime] at hdue
    have hover := of_decide_eq_false hdue
    omega

namespace Sample

/-- An invocation that is flagged, and the time after the answer to its alert. -/
def flagged (ms : Nat) : List (Action String) :=
  [.deliver "mint", .answer 0 (.status 200), .tick ms]

def failed : Anomaly := ⟨"unauthorized-entry-point", "unauthorized-entry-point:failed"⟩

end Sample

/-- A second that is flagged alike is not alerted, as the first was a minute before. -/
theorem sample_anomalies_told : ∃ steps s,
    (monitoring 300000 Sample.rules).Run Sample.fresh steps s ∧
      Told 300000 steps Sample.failed.dedupKey 60000 := by
  have hrun := (@Sample.run_of_replay _ (Sample.flagged 60000) _ rfl).snoc
    (show Monitor.act 300000 Sample.rules _ (.deliver "burn") = some _ from rfl)
  obtain ⟨earlier, later, -, htold⟩ := anomalies_told Sample.fresh_fresh hrun
    (List.mem_append_right _ List.mem_cons_self) ⟨"burn", rfl, rfl⟩ rfl 0 (by decide)
  exact ⟨_, _, hrun, htold Sample.failed ⟨_, _, rfl, rfl, List.mem_cons_self⟩⟩

/-- After the cooldown it is alerted again. -/
theorem sample_alerts_due : ∃ steps s t,
    (monitoring 300000 Sample.rules).Run Sample.fresh (steps ++ [t]) s ∧
      Alerts t ⟨1, "burn"⟩ Sample.failed ∧ ∀ u ∈ steps, ∀ d anomaly, Alerts u d anomaly →
        anomaly.dedupKey = Sample.failed.dedupKey → u.before.now + 300000 ≤ t.before.now := by
  have hrun := (@Sample.run_of_replay _ (Sample.flagged 300000) _ rfl).snoc
    (show Monitor.act 300000 Sample.rules _ (.deliver "burn") = some _ from rfl)
  refine ⟨_, _, _, hrun, ?halerts, (alerts_due Sample.fresh_fresh hrun rfl ?halerts).2.2⟩
  exact ⟨1, ⟨⟨1, "burn"⟩, Sample.failed, [], 1⟩, rfl, rfl, rfl, rfl⟩

end StellarKraal.Monitoring
