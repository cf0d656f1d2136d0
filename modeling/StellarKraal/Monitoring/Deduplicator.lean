import StellarKraal.Foundation.Streams
import StellarKraal.Monitoring.Rules

/-!
# The alert deduplicator

A call for a key is accepted unless the last accepted call for the same key is too recent.
What was refused leaves no trace, so that a condition that persists is alerted again as
soon as its cooldown is over.
-/

namespace StellarKraal.Monitoring

structure AlertDeduplicator where
  cooldownMs : Number
  lastAlertedAtMs : String → Option Number

/-- A call of `shouldAlert`. -/
structure AlertCall where
  dedupKey : String
  nowMs : Number

namespace AlertDeduplicator

def withinCooldown (cooldownMs nowMs : Number) (last : Option Number) : Bool :=
  match last with
  | some last => nowMs - last < cooldownMs
  | none => false

def shouldAlert (d : AlertDeduplicator) (call : AlertCall) : Bool × AlertDeduplicator :=
  if withinCooldown d.cooldownMs call.nowMs (d.lastAlertedAtMs call.dedupKey) then (false, d)
  else
    (true, { d with
      lastAlertedAtMs := Function.update d.lastAlertedAtMs call.dedupKey (some call.nowMs) })

/-- The deduplicator of a new service. -/
def new (cooldownMs : Number) : AlertDeduplicator := ⟨cooldownMs, fun _ => none⟩

/-- The deduplicator after some calls. -/
def after (cooldownMs : Number) (calls : List AlertCall) : AlertDeduplicator :=
  calls.foldl (fun d call => (d.shouldAlert call).2) (new cooldownMs)

/-- The answer to a call after some others. -/
def accepts (cooldownMs : Number) (earlier : List AlertCall) (call : AlertCall) : Bool :=
  ((after cooldownMs earlier).shouldAlert call).1

def acceptedFrom (key : String) (d : AlertDeduplicator) : List AlertCall → List Number
  | [] => []
  | call :: rest =>
      let (accepted, d) := d.shouldAlert call
      if accepted ∧ call.dedupKey = key then call.nowMs :: acceptedFrom key d rest
      else acceptedFrom key d rest

/-- The times of the accepted calls for a key, in order. -/
def acceptedTimes (cooldownMs : Number) (key : String) (calls : List AlertCall) : List Number :=
  acceptedFrom key (new cooldownMs) calls

variable {cooldownMs : Number} {calls : List AlertCall} {call : AlertCall} {key : String}

/-! ## Key by key -/

/-- The last accepted time of a key after a call for it. -/
def record (cooldownMs : Number) (last : Option Number) (call : AlertCall) : Option Number :=
  if withinCooldown cooldownMs call.nowMs last then last else some call.nowMs

theorem shouldAlert_snd (d : AlertDeduplicator) (call : AlertCall) : (d.shouldAlert call).2 =
    ⟨d.cooldownMs, KeyedStates.step (fun call => some call.dedupKey) (record d.cooldownMs)
      d.lastAlertedAtMs call⟩ := by
  simp only [shouldAlert, KeyedStates.step, record]
  split
  next => rw [Function.update_eq_self]
  next => rfl

theorem after_eq (cooldownMs : Number) (calls : List AlertCall) : after cooldownMs calls =
    ⟨cooldownMs, calls.foldl (KeyedStates.step (fun call => some call.dedupKey)
      (record cooldownMs)) fun _ => none⟩ := by
  rw [after, new]
  generalize (fun _ => none : String → Option Number) = states
  induction calls generalizing states with
  | nil => rfl
  | cons call calls ih => rw [List.foldl_cons, shouldAlert_snd, ih, List.foldl_cons]

/-- Only the calls for a key count for it. -/
theorem lastAlertedAtMs_after : (after cooldownMs calls).lastAlertedAtMs key =
    (calls.filter (·.dedupKey = key)).foldl (record cooldownMs) none := by
  rw [after_eq]
  dsimp only
  rw [KeyedStates.foldl_step_apply]
  simp only [Option.some.injEq]

theorem lastAlertedAtMs_snoc : (after cooldownMs (calls ++ [call])).lastAlertedAtMs key =
    if call.dedupKey = key then
      record cooldownMs ((after cooldownMs calls).lastAlertedAtMs key) call
    else (after cooldownMs calls).lastAlertedAtMs key := by
  simp only [lastAlertedAtMs_after, List.filter_append]
  split
  next hkey => simp [hkey]
  next hkey => simp [hkey]

theorem accepts_eq : accepts cooldownMs calls call =
    !withinCooldown cooldownMs call.nowMs
      ((after cooldownMs calls).lastAlertedAtMs call.dedupKey) := by
  have hcooldown : (after cooldownMs calls).cooldownMs = cooldownMs := by rw [after_eq]
  rw [accepts, shouldAlert, hcooldown]
  split
  next h => simp [h]
  next h => simp [h]

theorem acceptedTimes_snoc : acceptedTimes cooldownMs key (calls ++ [call]) =
    acceptedTimes cooldownMs key calls ++
      if accepts cooldownMs calls call ∧ call.dedupKey = key then [call.nowMs] else [] := by
  rw [acceptedTimes, acceptedTimes, accepts, after]
  generalize new cooldownMs = d
  induction calls generalizing d with
  | nil => rfl
  | cons first rest ih =>
      simp only [List.cons_append, acceptedFrom, List.foldl_cons, ih]
      split <;> rfl

/-! ## What is accepted -/

/-- The last accepted time is kept, and those before it are a cooldown apart. -/
structure Spaced (cooldownMs : Number) (times : List Number) (last : Option Number) : Prop where
  last_eq : last = times.getLast?
  spaced : times.Pairwise fun earlier later => cooldownMs ≤ later - earlier

theorem Spaced.le_last {times : List Number} {last : Number}
    (h : Spaced cooldownMs times (some last)) (hcooldown : 0 ≤ cooldownMs) :
    ∀ t ∈ times, t ≤ last := by
  obtain ⟨init, rfl⟩ := List.getLast?_eq_some_iff.mp h.last_eq.symm
  intro t ht
  rcases List.mem_append.mp ht with hinit | hlast
  · have hgap := (List.pairwise_append.mp h.spaced).2.2 t hinit last List.mem_cons_self
    linarith
  · exact (List.mem_singleton.mp hlast).le

/-- A time is within the cooldown of the last one exactly if it is so of any. -/
theorem Spaced.withinCooldown_iff {times : List Number} {last : Option Number} {nowMs : Number}
    (h : Spaced cooldownMs times last) (hcooldown : 0 ≤ cooldownMs) :
    withinCooldown cooldownMs nowMs last = true ↔ ∃ t ∈ times, nowMs - t < cooldownMs := by
  cases last with
  | none =>
      rw [List.getLast?_eq_none_iff.mp h.last_eq.symm]
      simp [withinCooldown]
  | some last =>
      rw [withinCooldown, decide_eq_true_iff]
      constructor
      · exact fun hwithin => ⟨last, List.mem_of_getLast? h.last_eq.symm, hwithin⟩
      · rintro ⟨t, ht, hwithin⟩
        have hle := h.le_last hcooldown t ht
        linarith

/-- The step lemma: a time that is not within the cooldown is a cooldown after all others. -/
theorem Spaced.snoc {times : List Number} {last : Option Number} {nowMs : Number}
    (h : Spaced cooldownMs times last) (hcooldown : 0 ≤ cooldownMs)
    (hnow : ¬ withinCooldown cooldownMs nowMs last = true) :
    Spaced cooldownMs (times ++ [nowMs]) (some nowMs) where
  last_eq := List.getLast?_concat.symm
  spaced := by
    rw [h.withinCooldown_iff hcooldown] at hnow
    push Not at hnow
    rw [List.pairwise_append]
    refine ⟨h.spaced, List.pairwise_singleton _ _, fun t ht later hlater => ?_⟩
    obtain rfl := List.mem_singleton.mp hlater
    exact hnow t ht

theorem after_spaced (hcooldown : 0 ≤ cooldownMs) (calls : List AlertCall) (key : String) :
    Spaced cooldownMs (acceptedTimes cooldownMs key calls)
      ((after cooldownMs calls).lastAlertedAtMs key) := by
  induction calls using List.reverseRecOn with
  | nil => exact ⟨rfl, .nil⟩
  | append_singleton calls call ih =>
      rw [acceptedTimes_snoc, lastAlertedAtMs_snoc, accepts_eq]
      by_cases hkey : call.dedupKey = key
      · subst hkey
        by_cases hwithin : withinCooldown cooldownMs call.nowMs
            ((after cooldownMs calls).lastAlertedAtMs call.dedupKey) = true
        · simpa [record, hwithin] using ih
        · simpa [record, hwithin] using ih.snoc hcooldown hwithin
      · simpa [hkey] using ih

/-- Accepted calls for a key are a cooldown apart, a call is refused exactly if one was
accepted for its key less than a cooldown before, and calls for other keys do not matter. -/
theorem cooldown_spaces_alerts (hcooldown : 0 ≤ cooldownMs) (calls : List AlertCall) :
    (∀ key, (acceptedTimes cooldownMs key calls).Pairwise fun earlier later =>
      cooldownMs ≤ later - earlier) ∧
    ∀ call, (accepts cooldownMs calls call = false ↔
        ∃ t ∈ acceptedTimes cooldownMs call.dedupKey calls, call.nowMs - t < cooldownMs) ∧
      ∀ calls', calls'.filter (·.dedupKey = call.dedupKey) =
          calls.filter (·.dedupKey = call.dedupKey) →
        accepts cooldownMs calls' call = accepts cooldownMs calls call := by
  refine ⟨fun key => (after_spaced hcooldown calls key).spaced, fun call => ⟨?_, ?_⟩⟩
  · rw [accepts_eq, Bool.not_eq_false',
      (after_spaced hcooldown calls call.dedupKey).withinCooldown_iff hcooldown]
  · intro calls' hsame
    rw [accepts_eq, accepts_eq, lastAlertedAtMs_after, lastAlertedAtMs_after, hsame]

/-! One key that recurs, and another one in between. -/

namespace Sample

def recurring : List AlertCall := [⟨"spike", 0⟩, ⟨"other", 100⟩, ⟨"spike", 600⟩]

end Sample

/-- A second call is refused, and the third is not held back by it. -/
theorem sample_cooldown : accepts 900 [⟨"spike", 0⟩, ⟨"other", 100⟩] ⟨"spike", 600⟩ = false ∧
    accepts 900 Sample.recurring ⟨"spike", 900⟩ = true := by
  have hspaced := @cooldown_spaces_alerts 900 (by norm_num)
  obtain ⟨-, hall⟩ := hspaced Sample.recurring
  obtain ⟨-, hbefore⟩ := hspaced [⟨"spike", 0⟩, ⟨"other", 100⟩]
  refine ⟨(hbefore ⟨"spike", 600⟩).1.mpr ⟨0, by decide +kernel, by norm_num⟩, ?_⟩
  have hfresh : ¬ ∃ t ∈ acceptedTimes 900 "spike" Sample.recurring, (900 : Number) - t < 900 := by
    decide +kernel
  exact Bool.eq_true_of_not_eq_false fun hrefused => hfresh ((hall ⟨"spike", 900⟩).1.mp hrefused)

end AlertDeduplicator

/-! ## In the dispatcher -/

namespace Monitor

variable {Invocation : Type}

/-- The deduplicator of a monitor. -/
def deduplicator (s : Monitor Invocation) (cooldownMs : Nat) : AlertDeduplicator where
  cooldownMs
  lastAlertedAtMs key := (s.lastAlertedAtMs key).map Nat.cast

/-- The dispatcher asks its deduplicator at the current time. -/
theorem shouldAlert_deduplicator (s : Monitor Invocation) (cooldownMs : Nat) (dedupKey : String) :
    (s.deduplicator cooldownMs).shouldAlert ⟨dedupKey, s.now⟩ =
      ((s.shouldAlert cooldownMs dedupKey).1,
        (s.shouldAlert cooldownMs dedupKey).2.deduplicator cooldownMs) := by
  have hwithin : AlertDeduplicator.withinCooldown cooldownMs s.now
      ((s.lastAlertedAtMs dedupKey).map Nat.cast) = s.withinCooldown cooldownMs dedupKey := by
    rw [withinCooldown]
    cases s.lastAlertedAtMs dedupKey with
    | none => rfl
    | some last =>
        refine decide_eq_decide.mpr ?_
        rw [sub_lt_iff_lt_add']
        exact_mod_cast Iff.rfl
  have hupdate : Function.update (fun key => (s.lastAlertedAtMs key).map (Nat.cast : Nat → Number))
      dedupKey (some s.now) =
        fun key => (Function.update s.lastAlertedAtMs dedupKey (some s.now) key).map Nat.cast := by
    funext key
    by_cases hkey : key = dedupKey
    · subst hkey
      simp
    · simp [hkey]
  rw [AlertDeduplicator.shouldAlert, shouldAlert]
  simp only [deduplicator, hwithin, hupdate]
  split
  next => rfl
  next => rfl

end Monitor

end StellarKraal.Monitoring
