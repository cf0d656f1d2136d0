import Mathlib.Data.List.Nodup
import Mathlib.Logic.Function.Basic

/-!
# Event emitters

A channel calls its listeners in the order in which they were added. What an emission
calls is settled when it begins, so a listener may remove itself meanwhile.
-/

/-- The listeners of each channel, oldest first. -/
abbrev Emitter (Channel Listener : Type*) := Channel → List Listener

namespace Emitter

variable {Channel Listener : Type*}

/-- Nothing listens twice on one channel. -/
def Distinct (e : Emitter Channel Listener) : Prop := ∀ channel, (e channel).Nodup

variable {e : Emitter Channel Listener} {channel other : Channel} {listener l : Listener}

section Listeners

variable [DecidableEq Channel]

def on (e : Emitter Channel Listener) (channel : Channel) (listener : Listener) :
    Emitter Channel Listener :=
  Function.update e channel (e channel ++ [listener])

/-- Only the last of its places goes, where a listener was added more than once. -/
def off [DecidableEq Listener] (e : Emitter Channel Listener) (channel : Channel)
    (listener : Listener) : Emitter Channel Listener :=
  Function.update e channel ((e channel).reverse.erase listener).reverse

theorem mem_on : l ∈ e.on channel listener other ↔
    l ∈ e other ∨ other = channel ∧ l = listener := by
  unfold on
  by_cases h : other = channel
  · obtain rfl := h
    simp
  · simp [h]

theorem Distinct.on (h : e.Distinct) (hfresh : listener ∉ e channel) :
    (e.on channel listener).Distinct := by
  intro other
  unfold Emitter.on
  by_cases hother : other = channel
  · obtain rfl := hother
    rw [Function.update_self]
    exact (List.nodup_append_comm).mp (List.nodup_cons.mpr ⟨hfresh, h other⟩)
  · rw [Function.update_of_ne hother]
    exact h other

theorem Distinct.off [DecidableEq Listener] (h : e.Distinct) :
    (e.off channel listener).Distinct := by
  intro other
  unfold Emitter.off
  by_cases hother : other = channel
  · obtain rfl := hother
    rw [Function.update_self]
    exact List.nodup_reverse.mpr ((List.nodup_reverse.mpr (h other)).erase _)
  · rw [Function.update_of_ne hother]
    exact h other

theorem Distinct.mem_off [DecidableEq Listener] (h : e.Distinct) :
    l ∈ e.off channel listener other ↔ l ∈ e other ∧ ¬ (other = channel ∧ l = listener) := by
  unfold Emitter.off
  by_cases hother : other = channel
  · obtain rfl := hother
    rw [Function.update_self, List.mem_reverse,
      (List.nodup_reverse.mpr (h other)).mem_erase_iff, List.mem_reverse]
    simp [and_comm]
  · simp [hother]

end Listeners

/-! ## Emissions -/

/-- Calls the listeners of a channel, each of which may change the state. -/
def emit {State : Type*} (e : Emitter Channel Listener) (channel : Channel)
    (call : Listener → State → State) (s : State) : State :=
  (e channel).foldl (fun s listener => call listener s) s

section Calls

variable {State : Type*} {call : Listener → State → State} {P : State → Prop} {s : State}

theorem emit_invariant (hinv : ∀ listener ∈ e channel, ∀ s, P s → P (call listener s))
    (hs : P s) : P (e.emit channel call s) := by
  unfold emit
  generalize e channel = listeners at hinv
  induction listeners generalizing s with
  | nil => exact hs
  | cons first rest ih =>
      obtain ⟨hfirst, hrest⟩ := List.forall_mem_cons.mp hinv
      exact ih (hfirst s hs) hrest

/-- What only one listener's call changes, it changes once if it listens, and no emission
changes it otherwise. -/
theorem emit_own [DecidableEq Listener] {Own : Type*} (own : State → Own) (change : Own → Own)
    (hinv : ∀ listener ∈ e channel, ∀ s, P s → P (call listener s))
    (hown : ∀ s, P s → own (call l s) = change (own s))
    (hothers : ∀ listener s, listener ≠ l → P s → own (call listener s) = own s)
    (hdistinct : (e channel).Nodup) (hs : P s) :
    own (e.emit channel call s) = if l ∈ e channel then change (own s) else own s := by
  unfold emit
  generalize e channel = listeners at hinv hdistinct
  induction listeners generalizing s with
  | nil => rfl
  | cons first rest ih =>
      obtain ⟨hfirst, hrest⟩ := List.nodup_cons.mp hdistinct
      obtain ⟨hinv, hinvs⟩ := List.forall_mem_cons.mp hinv
      rw [List.foldl_cons, ih (hinv s hs) hinvs hrest]
      by_cases hl : first = l
      · obtain rfl := hl
        rw [if_neg hfirst, if_pos List.mem_cons_self, hown s hs]
      · simp only [hothers first s hl hs, List.mem_cons, or_iff_right (Ne.symm hl)]

end Calls

end Emitter
