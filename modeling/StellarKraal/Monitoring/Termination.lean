import StellarKraal.Foundation.TextInput
import StellarKraal.Monitoring.VolumeWindows

/-!
# Windows of no width

The width of the windows comes from the environment, where zero is accepted. A window that
has no width is over at once, and so is the next; the first invocation of a contract never
leaves the loop.
-/

namespace StellarKraal.Monitoring.VolumeSpike

open WhileLoop (Yields)

def optionalPositiveInt : Environment.Variables → String → Nat → Except String Nat :=
  Environment.nonNegativeInt

def volumeWindowSeconds (env : Environment.Variables) : Except String Nat :=
  optionalPositiveInt env "VOLUME_WINDOW_SECONDS" 60

/-- The configuration with the width that the environment sets. -/
def Config.withSeconds (config : Config) (seconds : Nat) : Config :=
  { config with volumeWindowSeconds := seconds }

/-- With an accepted width every call of `evaluate` in the stream ends. -/
def EvaluationsEnd (env : Environment.Variables) (config : Config)
    (stream : List NormalizedInvocation) : Prop :=
  ∀ seconds, volumeWindowSeconds env = .ok seconds → ∃ states,
    Yields (fun fuel => statesAfter fuel (config.withSeconds seconds) stream) states

/-- With an accepted width every round of the loop brings the window nearer to the time. -/
def RoundsDescend (env : Environment.Variables) (config : Config) : Prop :=
  ∀ seconds, volumeWindowSeconds env = .ok seconds → ∀ (now : Number) (state : WindowState),
    now - (state.roll (config.withSeconds seconds)).windowStartMs < now - state.windowStartMs

variable {env : Environment.Variables} {config : Config} {stream : List NormalizedInvocation}
  {fuel seconds : Nat}

theorem windowMs_withSeconds : (config.withSeconds seconds).windowMs = seconds * 1000 := rfl

/-- A window that starts at the current time is over again and again. -/
theorem advance_withSeconds_zero (now : Number) :
    advance fuel (config.withSeconds 0) now none = none := by
  rw [advance, WhileLoop.run_eq_none fun state => state.windowStartMs = now]
  · rfl
  · intro state hstart
    have hwidth : (config.withSeconds 0).windowMs = 0 := by simp [windowMs_withSeconds]
    simp [WindowState.isOver, WindowState.roll, hwidth, hstart]
  · rfl

/-- Until the first timestamp there is no state of any contract. -/
theorem statesAfter_withSeconds_zero (h : ∃ invocation ∈ stream, invocation.occurredAtMs ≠ none) :
    statesAfter fuel (config.withSeconds 0) stream = none := by
  unfold statesAfter
  induction stream with
  | nil => simp at h
  | cons invocation rest ih =>
      rw [List.foldlM_cons]
      cases htime : invocation.occurredAtMs with
      | none =>
          have hrest : ∃ invocation ∈ rest, invocation.occurredAtMs ≠ none := by
            simpa [htime] using h
          simpa [evaluate, htime] using ih hrest
      | some nowMs => simp [evaluate, htime, advance_withSeconds_zero]

theorem statesAfter_of_no_times (config : Config)
    (h : ∀ invocation ∈ stream, invocation.occurredAtMs = none) :
    statesAfter fuel config stream = some fun _ => none := by
  unfold statesAfter
  induction stream with
  | nil => rfl
  | cons invocation rest ih =>
      obtain ⟨htime, hrest⟩ := List.forall_mem_cons.mp h
      rw [List.foldlM_cons]
      simpa [evaluate, htime] using ih hrest

/-- Every call ends, and every round of a loop descends, unless the accepted width is zero;
without any timestamp no loop is entered. -/
theorem evaluations_end_iff (env : Environment.Variables) (config : Config)
    (stream : List NormalizedInvocation) :
    (EvaluationsEnd env config stream ↔ volumeWindowSeconds env ≠ .ok 0 ∨
      ∀ invocation ∈ stream, invocation.occurredAtMs = none) ∧
    (RoundsDescend env config ↔ volumeWindowSeconds env ≠ .ok 0) := by
  refine ⟨⟨?_, ?_⟩, ?_, ?_⟩
  · intro hends
    by_contra! hstuck
    obtain ⟨hzero, hsome⟩ := hstuck
    obtain ⟨states, hyields⟩ := hends 0 hzero
    exact Yields.not_of_none (fun _ => statesAfter_withSeconds_zero hsome) hyields
  · rintro (hnonzero | hnone) seconds haccepted
    · have hwindow : 0 < (config.withSeconds seconds).windowMs := by
        have hpos : 0 < seconds := Nat.pos_of_ne_zero fun h => hnonzero (h ▸ haccepted)
        rw [windowMs_withSeconds]
        positivity
      obtain ⟨states, hyields, -⟩ := statesAfter_yields hwindow stream
      exact ⟨states, hyields⟩
    · exact ⟨_, .of_eq fun _ => statesAfter_of_no_times _ hnone⟩
  · intro hdescends hzero
    have hround := hdescends 0 hzero 0 ⟨0, 0, []⟩
    simp [WindowState.roll, windowMs_withSeconds] at hround
  · intro hnonzero seconds haccepted now state
    have hpos : (0 : Number) < seconds :=
      Nat.cast_pos.mpr (Nat.pos_of_ne_zero fun h => hnonzero (h ▸ haccepted))
    rw [WindowState.roll, windowMs_withSeconds]
    linarith

/-- A width of zero is accepted, and the first invocation is never evaluated. -/
theorem zero_width_never_ends :
    ¬ ∀ (env : Environment.Variables) (config : Config) (stream : List NormalizedInvocation),
      (∀ invocation ∈ stream, invocation.occurredAtMs ≠ none) →
        EvaluationsEnd env config stream := by
  intro hall
  let env : Environment.Variables := fun _ => some "0"
  have haccepted : volumeWindowSeconds env = .ok 0 :=
    @Environment.nonNegativeInt_toString env "VOLUME_WINDOW_SECONDS" 0 rfl 60
  obtain ⟨states, hyields⟩ := hall env Sample.perSecond [Sample.invocation "credit" 0]
    (by simp [Sample.invocation]) 0 haccepted
  refine Yields.not_of_none (fun _ => statesAfter_withSeconds_zero ?_) hyields
  simp [Sample.invocation]

end StellarKraal.Monitoring.VolumeSpike
