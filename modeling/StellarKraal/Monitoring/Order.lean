import StellarKraal.Foundation.Stages
import StellarKraal.Monitoring.Dispatcher

/-!
# The order in which rules see invocations

While a call waits for the webhook, the call of a later invocation may reach the rules
that the first has not come to.
-/

namespace StellarKraal.Monitoring

open Stages (Aligned)
open TransitionSystem (Transition HistoryVariable)

variable {Invocation : Type}

/-- The invocations as they were delivered. -/
def deliveries (Invocation : Type) :
    HistoryVariable (Monitor Invocation) (Action Invocation) (List (Delivery Invocation)) where
  start := []
  update h t :=
    match t.action with
    | .deliver invocation => h ++ [⟨t.before.delivered, invocation⟩]
    | _ => h

/-- Each rule has been called on the first deliveries in their order, and on all of them
if no call is waiting. -/
def SeenInOrder (rules : List (AnomalyRule Invocation)) (h : List (Delivery Invocation))
    (s : Monitor Invocation) : Prop :=
  ∀ i < rules.length, s.calls i <+: h ∧ ((∀ id, s.handlers id = none) → s.calls i = h)

/-- A call evaluates a rule that the call of an earlier invocation, which waits for the
webhook, has not come to. -/
def Overtakes (rules : List (AnomalyRule Invocation))
    (t : Transition (Monitor Invocation) (Action Invocation)) : Prop :=
  ∃ id i k waiting, acting t = some id ∧ i < rules.length ∧
    t.after.calls i ≠ t.before.calls i ∧ k < id ∧ t.before.handlers k = some waiting ∧
    waiting.next ≤ i

/-- The number of rules that the call is past; one that does not wait is through. -/
def progress (rules : List (AnomalyRule Invocation)) (s : Monitor Invocation) (id : Nat) : Nat :=
  (s.handlers id).elim rules.length (·.next)

structure Ordered (rules : List (AnomalyRule Invocation)) (h : List (Delivery Invocation))
    (s : Monitor Invocation) : Prop where
  ids : h.map (·.id) = List.range s.delivered
  waiting : ∀ id waiting, s.handlers id = some waiting →
    h[id]? = some waiting.delivery ∧ waiting.next ≤ rules.length
  aligned : Aligned rules.length h s.calls (progress rules s)

section Steps

variable {rules : List (AnomalyRule Invocation)} {cooldownMs : Nat} {h : List (Delivery Invocation)}
  {s s' : Monitor Invocation} {a : Action Invocation}

namespace Ordered

theorem length_eq (hordered : Ordered rules h s) : h.length = s.delivered := by
  simpa using congrArg List.length hordered.ids

theorem ids_arrive (hordered : Ordered rules h s) (invocation : Invocation) :
    (h ++ [(⟨s.delivered, invocation⟩ : Delivery Invocation)]).map (·.id) =
      List.range (s.delivered + 1) := by
  rw [List.map_append, hordered.ids, List.range_succ]
  rfl

theorem nodup (hordered : Ordered rules h s) : h.Nodup :=
  List.Nodup.of_map _ (hordered.ids ▸ List.nodup_range)

theorem start (hfresh : s.Fresh) : Ordered rules [] s where
  ids := by simp [hfresh.delivered]
  waiting id waiting hwaiting := by simp [hfresh.handlers] at hwaiting
  aligned := by
    rw [show s.calls = fun _ => [] from funext hfresh.calls]
    exact .nil _ _

theorem seenInOrder (hordered : Ordered rules h s) : SeenInOrder rules h s := by
  refine fun i hi => ⟨hordered.aligned.seen_prefix hi, fun hnone => ?_⟩
  exact hordered.aligned.eq_of_done (fun k _ => by simp [progress, hnone k]) hi

/-- A delivery that has not been fed to any rule. -/
theorem arrive (hordered : Ordered rules h s) (d : Delivery Invocation) :
    Aligned rules.length (h ++ [d]) s.calls
      (Function.update (progress rules s) s.delivered 0) := by
  refine Aligned.arrive (hordered.aligned.congr fun k hk => ?_) d ?_
  · rw [Function.update_of_ne (by have := hordered.length_eq; omega)]
  · rw [hordered.length_eq, Function.update_self]

theorem arrived (hordered : Ordered rules h s) (d : Delivery Invocation) :
    (h ++ [d])[s.delivered]? = some d := by
  rw [← hordered.length_eq, List.getElem?_concat_length]

end Ordered

theorem progress_withHandler {delivery : Delivery Invocation} {start stop : Nat} {id : Nat}
    {s₁ : Monitor Invocation} {handler : Option (Waiting Invocation)}
    (hstretch : Stretch cooldownMs rules.length delivery start stop s s₁ handler) :
    progress rules (s₁.withHandler id handler) =
      Function.update (progress rules s) id stop := by
  funext k
  rw [progress, withHandler_handlers, Function.update_apply]
  split
  next => exact hstretch.stops
  next => rw [hstretch.handlers, progress]

theorem waiting_withHandler (hordered : Ordered rules h s) {h' : List (Delivery Invocation)}
    {delivery : Delivery Invocation} {start stop : Nat} {id : Nat} {s₁ : Monitor Invocation}
    {handler : Option (Waiting Invocation)}
    (hstretch : Stretch cooldownMs rules.length delivery start stop s s₁ handler)
    (hextends : h <+: h') (hd : h'[id]? = some delivery) :
    ∀ k waiting, (s₁.withHandler id handler).handlers k = some waiting →
      h'[k]? = some waiting.delivery ∧ waiting.next ≤ rules.length := by
  intro k waiting hwaiting
  rw [withHandler_handlers] at hwaiting
  split at hwaiting
  next hk =>
    have hstops : waiting.next = stop := by simpa [hwaiting] using hstretch.stops
    rw [hk, hstretch.waits waiting hwaiting]
    exact ⟨hd, hstops ▸ hstretch.le_stages⟩
  next =>
    rw [hstretch.handlers] at hwaiting
    obtain ⟨hk, hnext⟩ := hordered.waiting k waiting hwaiting
    obtain ⟨later, rfl⟩ := hextends
    refine ⟨?_, hnext⟩
    rw [List.getElem?_append_left (List.getElem?_eq_some_iff.mp hk).1, hk]

theorem exists_behind {i k : Nat} (hi : i < rules.length) (hle : progress rules s k ≤ i) :
    ∃ waiting, s.handlers k = some waiting ∧ waiting.next ≤ i := by
  unfold progress at hle
  cases hwaiting : s.handlers k with
  | none =>
      rw [hwaiting, Option.elim_none] at hle
      omega
  | some waiting => exact ⟨waiting, rfl, by simpa [hwaiting] using hle⟩

/-- The rules of a stretch have seen its delivery next if no earlier call is behind it. -/
theorem aligned_stretch {h' : List (Delivery Invocation)} {past : Nat → Nat} {id stop : Nat}
    {delivery : Delivery Invocation} {s₁ : Monitor Invocation}
    {handler : Option (Waiting Invocation)} (haligned : Aligned rules.length h' s.calls past)
    (hd : h'[id]? = some delivery) (hpast : ∀ k < id, past k = progress rules s k)
    (hstretch : Stretch cooldownMs rules.length delivery (past id) stop s s₁ handler)
    (hgood : ∀ i < rules.length, s₁.calls i ≠ s.calls i → ∀ k < id, ∀ waiting,
      s.handlers k = some waiting → ¬ waiting.next ≤ i) :
    Aligned rules.length h' s₁.calls (Function.update past id stop) := by
  refine haligned.advance hd hstretch.le hstretch.calls fun i hi hstart hstop k hk => ?_
  rw [hpast k hk]
  by_contra hle
  obtain ⟨waiting, hwaiting, hnext⟩ := exists_behind hi (Nat.not_lt.mp hle)
  refine hgood i hi ?_ k hk waiting hwaiting hnext
  rw [hstretch.calls, if_pos ⟨hstart, hstop⟩]
  simp

/-- A step in which no call overtakes another keeps the order. -/
theorem Ordered.step (hordered : Ordered rules h s) (hact : s.act cooldownMs rules a = some s')
    (hgood : ¬ Overtakes rules ⟨s, a, s'⟩) :
    Ordered rules ((deliveries Invocation).update h ⟨s, a, s'⟩) s' := by
  cases Effect.of_act (fun id waiting hw => (hordered.waiting id waiting hw).2) hact with
  | @deliver invocation stop s₁ handler hstretch =>
      let d : Delivery Invocation := ⟨s.delivered, invocation⟩
      have hnew : Function.update (progress rules s) s.delivered 0 s.delivered = 0 :=
        Function.update_self ..
      have haligned := aligned_stretch (hordered.arrive d) (hordered.arrived d)
        (fun k hk => Function.update_of_ne (by omega) _ _) (hnew ▸ hstretch)
        fun i hi (hcalls : s₁.calls i ≠ s.calls i) k hk waiting hwaiting hnext =>
          hgood ⟨s.delivered, i, k, waiting, rfl, hi, hcalls, hk, hwaiting, hnext⟩
      rw [Function.update_idem, ← progress_withHandler hstretch] at haligned
      exact ⟨hordered.ids_arrive invocation, waiting_withHandler hordered hstretch
        (List.prefix_append h [d]) (hordered.arrived d), haligned⟩
  | @answer id stop answer waiting s₁ handler hwaiting hstretch =>
      obtain ⟨hd, -⟩ := hordered.waiting id waiting hwaiting
      have hnext : progress rules s id = waiting.next := by simp [progress, hwaiting]
      have haligned := aligned_stretch hordered.aligned hd (fun _ _ => rfl) (hnext ▸ hstretch)
        fun i hi (hcalls : s₁.calls i ≠ s.calls i) k hk behind hbehind hle =>
          hgood ⟨id, i, k, behind, rfl, hi, hcalls, hk, hbehind, hle⟩
      rw [← progress_withHandler hstretch] at haligned
      refine ⟨?_, waiting_withHandler hordered hstretch (List.prefix_refl h) hd, haligned⟩
      exact hordered.ids.trans (congrArg List.range hstretch.delivered.symm)
  | tick => exact ⟨hordered.ids, hordered.waiting, hordered.aligned⟩

/-- Where a call overtakes another, some rule has seen its invocation too early. -/
theorem Ordered.not_overtakes (hordered : Ordered rules h s)
    (hact : s.act cooldownMs rules a = some s')
    (hseen : SeenInOrder rules ((deliveries Invocation).update h ⟨s, a, s'⟩) s') :
    ¬ Overtakes rules ⟨s, a, s'⟩ := by
  rintro ⟨id, i, k, behind, hacting, hi, hcalls, hk, hbehind, hnext⟩
  have hprogress : progress rules s k ≤ i := by
    have hbehind : s.handlers k = some behind := hbehind
    rw [progress, hbehind]
    exact hnext
  have hinit := (hseen i hi).1
  have happend : ∀ (delivery : Delivery Invocation) start stop s₁ handler,
      Stretch cooldownMs rules.length delivery start stop s s₁ handler →
        s₁.calls i ≠ s.calls i → s₁.calls i = s.calls i ++ [delivery] := by
    intro delivery start stop s₁ handler hstretch hne
    rw [hstretch.calls] at hne ⊢
    split at hne
    next hin => rw [if_pos hin]
    next => contradiction
  cases Effect.of_act (fun id waiting hw => (hordered.waiting id waiting hw).2) hact with
  | @deliver invocation stop s₁ handler hstretch =>
      obtain rfl : s.delivered = id := Option.some.inj hacting
      let d : Delivery Invocation := ⟨s.delivered, invocation⟩
      have hnodup : (h ++ [d]).Nodup :=
        List.Nodup.of_map _ (hordered.ids_arrive invocation ▸ List.nodup_range)
      refine (hordered.arrive d).not_prefix_of_overtaken hnodup (hordered.arrived d) hi hk ?_ ?_
      · rw [Function.update_of_ne (Nat.ne_of_lt hk)]
        exact hprogress
      · rw [← happend _ _ _ _ _ hstretch hcalls]
        exact hinit
  | @answer id' stop answer waiting s₁ handler hwaiting hstretch =>
      obtain rfl : id' = id := Option.some.inj hacting
      obtain ⟨hd, -⟩ := hordered.waiting id' waiting hwaiting
      refine hordered.aligned.not_prefix_of_overtaken hordered.nodup hd hi hk hprogress ?_
      rw [← happend _ _ _ _ _ hstretch hcalls]
      exact hinit
  | tick => exact absurd rfl hcalls

end Steps

/-- In a run, each rule has at every moment seen the first invocations in their order, and
all of them where no call is waiting, exactly if no call overtakes another. -/
theorem seen_in_order_iff {rules : List (AnomalyRule Invocation)} {cooldownMs : Nat}
    {start s : Monitor Invocation}
    {steps : List (Transition (Monitor Invocation) (Action Invocation))}
    (hstart : (monitoring cooldownMs rules).Initial start)
    (hrun : (monitoring cooldownMs rules).Run start steps s) :
    (monitoring cooldownMs rules).Throughout start steps
        (fun earlier s => SeenInOrder rules ((deliveries Invocation).after earlier) s) ↔
      ∀ t ∈ steps, ¬ Overtakes rules t := by
  rw [TransitionSystem.Throughout.iff_forall_split (Q := fun earlier s =>
    Ordered rules ((deliveries Invocation).after earlier) s) hrun
    (fun _ t => ¬ Overtakes rules t) (fun _ _ hordered => hordered.seenInOrder)
    (Ordered.start hstart)]
  · exact TransitionSystem.Throughout.forall_split_iff
  · intro earlier s a s' _ hordered hact hgood
    rw [HistoryVariable.after_snoc]
    exact hordered.step hact hgood
  · intro earlier s a s' _ hordered hact hseen
    rw [HistoryVariable.after_snoc] at hseen
    exact hordered.not_overtakes hact hseen

theorem not_overtakes_of_all {rules : List (AnomalyRule Invocation)}
    {steps : List (Transition (Monitor Invocation) (Action Invocation))}
    (h : (steps.all fun t => (acting t).all fun id =>
      (List.range id).all fun k => (t.before.handlers k).isNone) = true) :
    ∀ t ∈ steps, ¬ Overtakes rules t := by
  rintro t ht ⟨id, i, k, waiting, hacting, -, -, hk, hwaiting, -⟩
  have hall := List.all_eq_true.mp h t ht
  rw [hacting, Option.all_some] at hall
  simpa [hwaiting] using List.all_eq_true.mp hall k (List.mem_range.mpr hk)

/-- The post is answered before the next invocation is delivered. -/
theorem sample_seen_in_order : ∃ steps s,
    (monitoring 300000 Sample.rules).Run Sample.fresh steps s ∧
    (s.calls 1).map (·.invocation) = ["mint", "burn"] ∧
    (monitoring 300000 Sample.rules).Throughout Sample.fresh steps
      (fun earlier s => SeenInOrder Sample.rules ((deliveries String).after earlier) s) := by
  have hrun := @Sample.run_of_replay _ [.deliver "mint", .answer 0 (.status 200), .deliver "burn"]
    _ rfl
  exact ⟨_, _, hrun, by decide,
    (seen_in_order_iff Sample.fresh_fresh hrun).mpr (not_overtakes_of_all (by decide))⟩

/-- While the first call waits for the webhook, the second invocation is delivered. Its
anomaly is suppressed, so the second rule sees it before the first invocation. -/
theorem second_overtakes : ¬ ∀ (s : Monitor String) steps,
    (monitoring 300000 Sample.rules).Run Sample.fresh steps s →
      SeenInOrder Sample.rules ((deliveries String).after steps) s := by
  intro hclaim
  have hrun := @Sample.run_of_replay _ [.deliver "mint", .deliver "burn", .answer 0 (.status 200)]
    _ rfl
  obtain ⟨hinit, -⟩ := hclaim _ _ hrun 1 (by decide)
  exact absurd (hinit.map (·.id)) (by decide)

end StellarKraal.Monitoring
