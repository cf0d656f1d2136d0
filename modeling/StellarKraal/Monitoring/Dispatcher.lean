import Mathlib.Logic.Function.Basic
import StellarKraal.Foundation.History

/-!
# The alert dispatcher

Each invocation is handled by a call of its own. The call feeds it to the rules one
after another and waits for the webhook at every alert, while other calls go on; what
runs between two such waits is not interrupted and takes no time.
-/

namespace StellarKraal.Monitoring

open TransitionSystem (Transition)

structure Anomaly where
  ruleId : String
  dedupKey : String
  deriving DecidableEq, Repr

/-- What `evaluate` returns depends on the invocations it was called with before, and on
the next; `none` where it throws. -/
structure AnomalyRule (Invocation : Type) where
  evaluate : (calls : List Invocation) → Invocation → Option (List Anomaly)

/-- An invocation as it is delivered, with a number of its own. -/
structure Delivery (Invocation : Type) where
  id : Nat
  invocation : Invocation

/-- A call of `handleInvocation` that waits for the webhook. -/
structure Waiting (Invocation : Type) where
  delivery : Delivery Invocation
  /-- The one that is posted, and those of its rule that come after it. -/
  anomaly : Anomaly
  anomalies : List Anomaly
  /-- The rule that is next. -/
  next : Nat

structure Monitor (Invocation : Type) where
  now : Nat
  /-- The calls of each rule's `evaluate`. -/
  calls : Nat → List (Delivery Invocation)
  lastAlertedAtMs : String → Option Nat
  /-- The keys of the anomalies that the log says are suppressed. -/
  suppressed : List String
  handlers : Nat → Option (Waiting Invocation)
  delivered : Nat

/-- How `fetch` ends. -/
inductive Answer
  | status (code : Nat)
  | throws

/-- `response.ok`. -/
def Answer.ok : Answer → Bool
  | .status code => decide (200 ≤ code) && decide (code < 300)
  | .throws => false

inductive Action (Invocation : Type)
  | deliver (invocation : Invocation)
  /-- The webhook answers the post that this call waits for. -/
  | answer (id : Nat) (answer : Answer)
  | tick (ms : Nat)

namespace Monitor

variable {Invocation : Type}

def withinCooldown (s : Monitor Invocation) (cooldownMs : Nat) (dedupKey : String) : Bool :=
  match s.lastAlertedAtMs dedupKey with
  | some last => decide (s.now < last + cooldownMs)
  | none => false

def shouldAlert (s : Monitor Invocation) (cooldownMs : Nat) (dedupKey : String) :
    Bool × Monitor Invocation :=
  if s.withinCooldown cooldownMs dedupKey then (false, s)
  else
    (true, { s with
      lastAlertedAtMs := Function.update s.lastAlertedAtMs dedupKey (some s.now) })

/-- The anomalies of a rule, up to the first that is posted. -/
def alert (cooldownMs : Nat) :
    List Anomaly → Monitor Invocation → Option (Anomaly × List Anomaly) × Monitor Invocation
  | [], s => (none, s)
  | anomaly :: anomalies, s =>
      match s.shouldAlert cooldownMs anomaly.dedupKey with
      | (true, s) => (some (anomaly, anomalies), s)
      | (false, s) =>
          alert cooldownMs anomalies { s with suppressed := s.suppressed ++ [anomaly.dedupKey] }

def called (s : Monitor Invocation) (rule : Nat) (delivery : Delivery Invocation) :
    Monitor Invocation :=
  { s with calls := Function.update s.calls rule (s.calls rule ++ [delivery]) }

/-- The rules from the `next` one on, up to the first alert. -/
def evaluate (cooldownMs : Nat) (delivery : Delivery Invocation) (next : Nat) :
    List (AnomalyRule Invocation) → Monitor Invocation →
      Option (Waiting Invocation) × Monitor Invocation
  | [], s => (none, s)
  | rule :: rules, s =>
      let found := rule.evaluate ((s.calls next).map (·.invocation)) delivery.invocation
      let s := s.called next delivery
      match found with
      | none => evaluate cooldownMs delivery (next + 1) rules s
      | some anomalies =>
          match s.alert cooldownMs anomalies with
          | (some (anomaly, anomalies), s) => (some ⟨delivery, anomaly, anomalies, next + 1⟩, s)
          | (none, s) => evaluate cooldownMs delivery (next + 1) rules s

/-- A call goes on once its post has been answered. -/
def resume (cooldownMs : Nat) (rules : List (AnomalyRule Invocation))
    (waiting : Waiting Invocation) (s : Monitor Invocation) :
    Option (Waiting Invocation) × Monitor Invocation :=
  match s.alert cooldownMs waiting.anomalies with
  | (some (anomaly, anomalies), s) => (some { waiting with anomaly, anomalies }, s)
  | (none, s) => evaluate cooldownMs waiting.delivery waiting.next (rules.drop waiting.next) s

def withHandler (s : Monitor Invocation) (id : Nat) (handler : Option (Waiting Invocation)) :
    Monitor Invocation :=
  { s with handlers := Function.update s.handlers id handler }

def act (cooldownMs : Nat) (rules : List (AnomalyRule Invocation)) (s : Monitor Invocation) :
    Action Invocation → Option (Monitor Invocation)
  | .deliver invocation =>
      let (handler, next) := s.evaluate cooldownMs ⟨s.delivered, invocation⟩ 0 rules
      some { next.withHandler s.delivered handler with delivered := s.delivered + 1 }
  | .answer id _ => do
      let waiting ← s.handlers id
      let (handler, next) := s.resume cooldownMs rules waiting
      return next.withHandler id handler
  | .tick ms => some { s with now := s.now + ms }

/-- A monitor that has been delivered nothing. -/
structure Fresh (s : Monitor Invocation) : Prop where
  calls : ∀ rule, s.calls rule = []
  lastAlertedAtMs : ∀ key, s.lastAlertedAtMs key = none
  handlers : ∀ id, s.handlers id = none
  delivered : s.delivered = 0

end Monitor

def monitoring {Invocation : Type} (cooldownMs : Nat) (rules : List (AnomalyRule Invocation)) :
    TransitionSystem (Monitor Invocation) (Action Invocation) where
  Initial := Monitor.Fresh
  Step s a s' := s.act cooldownMs rules a = some s'

/-- The call that the step is about. -/
def acting {Invocation : Type} (t : Transition (Monitor Invocation) (Action Invocation)) :
    Option Nat :=
  match t.action with
  | .deliver _ => some t.before.delivered
  | .answer id _ => some id
  | .tick _ => none

/-! ## Between two waits -/

section Effects

variable {Invocation : Type} {cooldownMs : Nat} {rules : List (AnomalyRule Invocation)}
  {s s' : Monitor Invocation}

/-- What the anomalies of a rule lead to: those within their cooldown are suppressed, and
the first that is not is posted. -/
structure Alerted (cooldownMs : Nat) (s s' : Monitor Invocation) (posted : Option Anomaly) :
    Prop where
  now : s'.now = s.now
  calls : s'.calls = s.calls
  handlers : s'.handlers = s.handlers
  delivered : s'.delivered = s.delivered
  suppressed : ∃ keys, s'.suppressed = s.suppressed ++ keys ∧
    ∀ key ∈ keys, s.withinCooldown cooldownMs key = true
  lastAlertedAtMs : s'.lastAlertedAtMs =
    match posted with
    | some anomaly => Function.update s.lastAlertedAtMs anomaly.dedupKey (some s.now)
    | none => s.lastAlertedAtMs

theorem alert_spec (anomalies : List Anomaly) (s : Monitor Invocation) :
    Alerted cooldownMs s (s.alert cooldownMs anomalies).2
      ((s.alert cooldownMs anomalies).1.map Prod.fst) := by
  induction anomalies generalizing s with
  | nil => exact ⟨rfl, rfl, rfl, rfl, ⟨[], by simp [Monitor.alert], nofun⟩, rfl⟩
  | cons anomaly anomalies ih =>
      unfold Monitor.alert Monitor.shouldAlert
      cases hwithin : s.withinCooldown cooldownMs anomaly.dedupKey with
      | false => exact ⟨rfl, rfl, rfl, rfl, ⟨[], by simp, nofun⟩, rfl⟩
      | true =>
          have h := ih { s with suppressed := s.suppressed ++ [anomaly.dedupKey] }
          obtain ⟨keys, hkeys, hall⟩ := h.suppressed
          refine ⟨h.now, h.calls, h.handlers, h.delivered, ⟨anomaly.dedupKey :: keys, ?_, ?_⟩,
            h.lastAlertedAtMs⟩
          · exact hkeys.trans (by simp)
          · exact List.forall_mem_cons.mpr ⟨hwithin, hall⟩

/-- What a call does between two waits: it feeds the delivery to the rules from `start` to
`stop`, and then waits for the post of an anomaly or is through with all of them. -/
structure Stretch (cooldownMs stages : Nat) (delivery : Delivery Invocation) (start stop : Nat)
    (s s' : Monitor Invocation) (handler : Option (Waiting Invocation)) : Prop where
  now : s'.now = s.now
  handlers : s'.handlers = s.handlers
  delivered : s'.delivered = s.delivered
  suppressed : ∃ keys, s'.suppressed = s.suppressed ++ keys ∧
    ∀ key ∈ keys, s.withinCooldown cooldownMs key = true
  lastAlertedAtMs : s'.lastAlertedAtMs =
    match handler with
    | some waiting => Function.update s.lastAlertedAtMs waiting.anomaly.dedupKey (some s.now)
    | none => s.lastAlertedAtMs
  le : start ≤ stop
  le_stages : stop ≤ stages
  calls : ∀ i, s'.calls i = if start ≤ i ∧ i < stop then s.calls i ++ [delivery] else s.calls i
  stops : handler.elim stages (·.next) = stop
  waits : ∀ waiting ∈ handler, waiting.delivery = delivery

namespace Stretch

variable {stages start stop : Nat} {delivery : Delivery Invocation} {s₁ : Monitor Invocation}
  {handler : Option (Waiting Invocation)}

/-- Anomalies that are all suppressed, and what follows. -/
theorem after (halerted : Alerted cooldownMs s s₁ none)
    (h : Stretch cooldownMs stages delivery start stop s₁ s' handler) :
    Stretch cooldownMs stages delivery start stop s s' handler where
  now := h.now.trans halerted.now
  handlers := h.handlers.trans halerted.handlers
  delivered := h.delivered.trans halerted.delivered
  suppressed := by
    have hwithin : s₁.withinCooldown cooldownMs = s.withinCooldown cooldownMs := by
      funext key
      rw [Monitor.withinCooldown, Monitor.withinCooldown, halerted.lastAlertedAtMs, halerted.now]
    obtain ⟨first, hfirst, hfirst'⟩ := halerted.suppressed
    obtain ⟨second, hsecond, hsecond'⟩ := h.suppressed
    refine ⟨first ++ second, by rw [hsecond, hfirst, List.append_assoc], fun key hkey => ?_⟩
    rcases List.mem_append.mp hkey with hkey | hkey
    · exact hfirst' key hkey
    · exact hwithin ▸ hsecond' key hkey
  lastAlertedAtMs := by
    rw [h.lastAlertedAtMs, halerted.lastAlertedAtMs, halerted.now]
  le := h.le
  le_stages := h.le_stages
  calls i := by rw [h.calls, halerted.calls]
  stops := h.stops
  waits := h.waits

/-- One rule more at the beginning. -/
theorem called (h : Stretch cooldownMs stages delivery (start + 1) stop
    (s.called start delivery) s' handler) :
    Stretch cooldownMs stages delivery start stop s s' handler where
  now := h.now
  handlers := h.handlers
  delivered := h.delivered
  suppressed := h.suppressed
  lastAlertedAtMs := h.lastAlertedAtMs
  le := by have := h.le; omega
  le_stages := h.le_stages
  calls i := by
    have hle := h.le
    rw [h.calls]
    by_cases hi : i = start
    · rw [if_neg (by omega), if_pos (by omega), hi]
      exact Function.update_self ..
    · have hsame : (s.called start delivery).calls i = s.calls i := Function.update_of_ne hi ..
      rw [hsame]
      exact if_congr (by omega) rfl rfl
  stops := h.stops
  waits := h.waits

end Stretch

theorem Alerted.refl (s : Monitor Invocation) : Alerted cooldownMs s s none :=
  ⟨rfl, rfl, rfl, rfl, ⟨[], by simp, nofun⟩, rfl⟩

/-- A post ends the stretch. -/
theorem Alerted.stretch {posted : Anomaly} (h : Alerted cooldownMs s s' (some posted))
    {stages next : Nat} (hnext : next ≤ stages) (delivery : Delivery Invocation)
    (anomalies : List Anomaly) :
    Stretch cooldownMs stages delivery next next s s'
      (some ⟨delivery, posted, anomalies, next⟩) where
  now := h.now
  handlers := h.handlers
  delivered := h.delivered
  suppressed := h.suppressed
  lastAlertedAtMs := h.lastAlertedAtMs
  le := Nat.le_refl _
  le_stages := hnext
  calls i := by rw [if_neg (by omega), h.calls]
  stops := rfl
  waits waiting hwaiting := Option.some.inj hwaiting ▸ rfl

theorem evaluate_spec (delivery : Delivery Invocation) (rules : List (AnomalyRule Invocation))
    (start : Nat) (s : Monitor Invocation) :
    ∃ stop, Stretch cooldownMs (start + rules.length) delivery start stop s
      (s.evaluate cooldownMs delivery start rules).2
      (s.evaluate cooldownMs delivery start rules).1 := by
  induction rules generalizing start s with
  | nil =>
      refine ⟨start, rfl, rfl, rfl, ⟨[], by simp [Monitor.evaluate], nofun⟩, rfl, Nat.le_refl _,
        Nat.le_refl _, ?_, rfl, nofun⟩
      intro i
      rw [if_neg (by omega)]
      rfl
  | cons rule rules ih =>
      have hlength : start + (rule :: rules).length = start + 1 + rules.length := by
        rw [List.length_cons]
        omega
      rw [hlength]
      have hnext := ih (start + 1)
      unfold Monitor.evaluate
      cases rule.evaluate ((s.calls start).map (·.invocation)) delivery.invocation with
      | none =>
          obtain ⟨stop, hstretch⟩ := hnext (s.called start delivery)
          exact ⟨stop, hstretch.called⟩
      | some anomalies =>
          have halerted := @alert_spec _ cooldownMs anomalies (s.called start delivery)
          dsimp only
          generalize (s.called start delivery).alert cooldownMs anomalies = result
            at halerted ⊢
          obtain ⟨posted, after⟩ := result
          cases posted with
          | none =>
              obtain ⟨stop, hstretch⟩ := hnext after
              exact ⟨stop, (hstretch.after halerted).called⟩
          | some posted => exact ⟨start + 1, (halerted.stretch (by omega) _ _).called⟩

theorem resume_spec (waiting : Waiting Invocation) (hnext : waiting.next ≤ rules.length)
    (s : Monitor Invocation) :
    ∃ stop, Stretch cooldownMs rules.length waiting.delivery waiting.next stop s
      (s.resume cooldownMs rules waiting).2 (s.resume cooldownMs rules waiting).1 := by
  have halerted := @alert_spec _ cooldownMs waiting.anomalies s
  unfold Monitor.resume
  generalize s.alert cooldownMs waiting.anomalies = result at halerted ⊢
  obtain ⟨posted, after⟩ := result
  cases posted with
  | some posted => exact ⟨waiting.next, halerted.stretch hnext _ _⟩
  | none =>
      obtain ⟨stop, hstretch⟩ := @evaluate_spec _ cooldownMs waiting.delivery
        (rules.drop waiting.next) waiting.next after
      rw [List.length_drop, Nat.add_sub_of_le hnext] at hstretch
      exact ⟨stop, hstretch.after halerted⟩

theorem withHandler_handlers {id k : Nat} {handler : Option (Waiting Invocation)} :
    (s.withHandler id handler).handlers k = if k = id then handler else s.handlers k :=
  Function.update_apply ..

/-- What an action does to a monitor whose calls wait between rules that there are. -/
inductive Effect (cooldownMs : Nat) (rules : List (AnomalyRule Invocation))
    (s : Monitor Invocation) : Action Invocation → Monitor Invocation → Prop
  | deliver {invocation : Invocation} {stop : Nat} {s₁ : Monitor Invocation}
      {handler : Option (Waiting Invocation)}
      (hstretch : Stretch cooldownMs rules.length ⟨s.delivered, invocation⟩ 0 stop s s₁ handler) :
      Effect cooldownMs rules s (.deliver invocation)
        { s₁.withHandler s.delivered handler with delivered := s.delivered + 1 }
  | answer {id stop : Nat} {answer : Answer} {waiting : Waiting Invocation}
      {s₁ : Monitor Invocation} {handler : Option (Waiting Invocation)}
      (hwaiting : s.handlers id = some waiting)
      (hstretch : Stretch cooldownMs rules.length waiting.delivery waiting.next stop s s₁ handler) :
      Effect cooldownMs rules s (.answer id answer) (s₁.withHandler id handler)
  | tick {ms : Nat} : Effect cooldownMs rules s (.tick ms) { s with now := s.now + ms }

theorem Effect.of_act {a : Action Invocation}
    (hnext : ∀ id waiting, s.handlers id = some waiting → waiting.next ≤ rules.length)
    (h : s.act cooldownMs rules a = some s') : Effect cooldownMs rules s a s' := by
  cases a with
  | deliver invocation =>
      obtain rfl := Option.some.inj h
      obtain ⟨stop, hstretch⟩ := @evaluate_spec _ cooldownMs ⟨s.delivered, invocation⟩ rules 0 s
      rw [Nat.zero_add] at hstretch
      exact .deliver hstretch
  | answer id answer =>
      obtain ⟨waiting, hwaiting, hact⟩ := Option.bind_eq_some_iff.mp h
      obtain rfl := Option.some.inj hact
      obtain ⟨stop, hstretch⟩ := resume_spec waiting (hnext id waiting hwaiting) s
      exact .answer hwaiting hstretch
  | tick ms =>
      obtain rfl := Option.some.inj h
      exact .tick

end Effects

namespace Sample

def fresh : Monitor String := ⟨0, fun _ => [], fun _ => none, [], fun _ => none, 0⟩

theorem fresh_fresh : fresh.Fresh := ⟨fun _ => rfl, fun _ => rfl, fun _ => rfl, rfl⟩

/-- One rule that flags every invocation, and one that flags none. -/
def rules : List (AnomalyRule String) :=
  [⟨fun _ _ => some [⟨"unauthorized-entry-point", "unauthorized-entry-point:failed"⟩]⟩,
    ⟨fun _ _ => some []⟩]

theorem run_of_replay {s : Monitor String} {actions : List (Action String)}
    {steps : List (Transition (Monitor String) (Action String))}
    (h : TransitionSystem.replay (Monitor.act 300000 rules) fresh actions = some (steps, s)) :
    (monitoring 300000 rules).Run fresh steps s :=
  TransitionSystem.Run.of_replay (fun _ _ _ hact => hact) h

end Sample

end StellarKraal.Monitoring
