import Mathlib.Data.List.Induction

/-!
# Labelled transition systems and their recorded runs

A run keeps every transition it takes, with the states before and after it.
Conditions on the steps of a run, counts and sums over them are then ordinary
facts about one list, and each induction over runs is done here once.
-/

/-- Initial states and labelled steps. -/
structure TransitionSystem (State Action : Type*) where
  Initial : State → Prop
  Step : State → Action → State → Prop

namespace TransitionSystem

variable {State Action : Type*}

/-- One recorded step of a run. -/
structure Transition (State Action : Type*) where
  before : State
  action : Action
  after : State

variable (S : TransitionSystem State Action)

/-- The runs from `start`, with the transitions taken so far, oldest first. -/
inductive Run (start : State) : List (Transition State Action) → State → Prop
  | nil : Run start [] start
  | snoc {steps : List (Transition State Action)} {s s' : State} {a : Action}
      (prior : Run start steps s) (step : S.Step s a s') :
      Run start (steps ++ [⟨s, a, s'⟩]) s'

/-- A state some run from an initial state ends in. -/
def Reachable (s : State) : Prop :=
  ∃ start steps, S.Initial start ∧ S.Run start steps s

variable {S}

namespace Run

/-- The invariant rule for runs whose recorded transitions all satisfy a side
condition. The condition of a step may mention the states around it. -/
theorem invariant_of_steps (good : Transition State Action → Prop) {invariant : State → Prop}
    (hstep : ∀ s a s', invariant s → S.Step s a s' → good ⟨s, a, s'⟩ → invariant s')
    {start s : State} {steps : List (Transition State Action)} (hrun : S.Run start steps s)
    (hgood : ∀ t ∈ steps, good t) (hstart : invariant start) : invariant s := by
  induction hrun with
  | nil => exact hstart
  | snoc _ step ih =>
      have hlast := hgood _ (List.mem_append_right _ List.mem_cons_self)
      exact hstep _ _ _ (ih fun t ht => hgood t (List.mem_append_left _ ht)) step hlast

theorem trans {start middle s : State} {first second : List (Transition State Action)}
    (hfirst : S.Run start first middle) (hsecond : S.Run middle second s) :
    S.Run start (first ++ second) s := by
  induction hsecond with
  | nil => simpa using hfirst
  | snoc _ step ih => simpa only [← List.append_assoc] using ih.snoc step

theorem single {s s' : State} {a : Action} (step : S.Step s a s') : S.Run s [⟨s, a, s'⟩] s' :=
  Run.nil.snoc step

end Run

namespace Reachable

theorem of_initial {s : State} (h : S.Initial s) : S.Reachable s :=
  ⟨s, [], h, .nil⟩

theorem run {s s' : State} {steps : List (Transition State Action)}
    (h : S.Reachable s) (hrun : S.Run s steps s') : S.Reachable s' := by
  obtain ⟨start, first, hstart, hfirst⟩ := h
  exact ⟨start, first ++ steps, hstart, hfirst.trans hrun⟩

theorem step {s s' : State} {a : Action} (h : S.Reachable s) (hstep : S.Step s a s') :
    S.Reachable s' :=
  h.run (Run.single hstep)

/-- A predicate that holds initially and is kept by every step holds of every
reachable state. The step may use that the state before it is reachable, so
invariants proved earlier are available to later ones. -/
theorem invariant {invariant : State → Prop} (hinit : ∀ s, S.Initial s → invariant s)
    (hstep : ∀ s a s', S.Reachable s → invariant s → S.Step s a s' → invariant s')
    {s : State} (h : S.Reachable s) : invariant s := by
  obtain ⟨start, steps, hstart, hrun⟩ := h
  induction hrun with
  | nil => exact hinit start hstart
  | snoc prior step ih => exact hstep _ _ _ ⟨start, _, hstart, prior⟩ ih step

/-- A system that allows more reaches more. -/
theorem mono {T : TransitionSystem State Action} (hinit : ∀ s, S.Initial s → T.Initial s)
    (hstep : ∀ s a s', S.Step s a s' → T.Step s a s') {s : State} (h : S.Reachable s) :
    T.Reachable s :=
  h.invariant (fun s hs => .of_initial (hinit s hs)) fun s a s' _ ih hs => ih.step (hstep s a s' hs)

end Reachable

/-- Every transition of a run from a reachable state is a step out of a
reachable state. -/
theorem Run.mem_step {start s : State} {steps : List (Transition State Action)}
    (hrun : S.Run start steps s) (hstart : S.Reachable start) {t : Transition State Action}
    (ht : t ∈ steps) : S.Reachable t.before ∧ S.Step t.before t.action t.after := by
  induction hrun with
  | nil => simp at ht
  | snoc prior step ih =>
      rcases List.mem_append.mp ht with ht | ht
      · exact ih ht
      · obtain rfl := List.mem_singleton.mp ht
        exact ⟨hstart.run prior, step⟩

/-- Without transitions a run stays where it is. -/
theorem Run.of_nil {start s : State} (h : S.Run start [] s) : s = start := by
  generalize hall : ([] : List (Transition State Action)) = all at h
  cases h with
  | nil => rfl
  | snoc prior step => simp at hall

/-- The last transition of a run is a step out of the state the others lead to. -/
theorem Run.of_snoc {start s : State} {steps : List (Transition State Action)}
    {t : Transition State Action} (h : S.Run start (steps ++ [t]) s) :
    S.Run start steps t.before ∧ S.Step t.before t.action t.after ∧ t.after = s := by
  generalize hall : steps ++ [t] = all at h
  cases h with
  | nil => simp at hall
  | snoc prior step =>
      obtain ⟨rfl, hlast⟩ := List.append_inj' hall rfl
      obtain rfl := List.singleton_inj.mp hlast
      exact ⟨prior, step, rfl⟩

/-- A run ends where its last transition does. -/
theorem Run.unique {start s s' : State} {steps : List (Transition State Action)}
    (h : S.Run start steps s) (h' : S.Run start steps s') : s = s' := by
  cases h with
  | nil => exact h'.of_nil.symm
  | snoc prior step => exact h'.of_snoc.2.2

/-- Any transition of a run is a step out of the state the earlier ones lead to. -/
theorem Run.of_split {start s : State} {before after : List (Transition State Action)}
    {t : Transition State Action} (h : S.Run start (before ++ t :: after) s) :
    S.Run start before t.before ∧ S.Step t.before t.action t.after := by
  induction after using List.reverseRecOn generalizing s with
  | nil =>
      obtain ⟨hprior, hstep, -⟩ := h.of_snoc
      exact ⟨hprior, hstep⟩
  | append_singleton rest last ih =>
      rw [← List.cons_append, ← List.append_assoc] at h
      exact ih h.of_snoc.1

theorem Run.of_append {start s : State} {first second : List (Transition State Action)}
    (h : S.Run start (first ++ second) s) :
    ∃ middle, S.Run start first middle ∧ S.Run middle second s := by
  induction second using List.reverseRecOn generalizing s with
  | nil => exact ⟨s, by simpa using h, .nil⟩
  | append_singleton second last ih =>
      rw [← List.append_assoc] at h
      obtain ⟨hprior, hstep, rfl⟩ := h.of_snoc
      obtain ⟨middle, hfirst, hsecond⟩ := ih hprior
      exact ⟨middle, hfirst, hsecond.snoc hstep⟩

/-- The first transition of a run begins where the run does. -/
theorem Run.of_cons {start s : State} {steps : List (Transition State Action)}
    {t : Transition State Action} (h : S.Run start (t :: steps) s) :
    t.before = start ∧ S.Step start t.action t.after ∧ S.Run t.after steps s := by
  obtain ⟨middle, hfirst, hrest⟩ := @Run.of_append _ _ _ _ _ [t] steps h
  obtain ⟨hnone, hstep, rfl⟩ := @Run.of_snoc _ _ _ _ _ [] t hfirst
  obtain hbefore := hnone.of_nil
  exact ⟨hbefore, hbefore ▸ hstep, hrest⟩

/-- Where a value comes from. If every step leaves the value alone, clears it or
sets it, then a value present at the end of a run was set by one of the steps,
and all later steps left it alone. -/
theorem Run.exists_origin {Value : Type*} (read : State → Option Value)
    (Sets : Transition State Action → Value → Prop) (Keeps : Transition State Action → Prop)
    {start : State} (hreach : S.Reachable start) (hstart : read start = none)
    (hstep : ∀ s a s', S.Reachable s → S.Step s a s' →
      (Keeps ⟨s, a, s'⟩ ∧ read s' = read s) ∨ read s' = none ∨
        ∃ value, Sets ⟨s, a, s'⟩ value ∧ read s' = some value)
    {s : State} {steps : List (Transition State Action)} (hrun : S.Run start steps s)
    {value : Value} (hread : read s = some value) :
    ∃ earlier t since, steps = earlier ++ t :: since ∧ Sets t value ∧ ∀ u ∈ since, Keeps u := by
  induction hrun with
  | nil => simp [hstart] at hread
  | @snoc steps s s' a prior step ih =>
      rcases hstep s a s' (hreach.run prior) step with ⟨hkeeps, hsame⟩ | hclear | ⟨set, hsets, hset⟩
      · obtain ⟨earlier, t, since, rfl, hsets, hsince⟩ := ih (hsame.symm.trans hread)
        refine ⟨earlier, t, since ++ [⟨s, a, s'⟩], by simp, hsets, ?_⟩
        intro u hu
        rcases List.mem_append.mp hu with hu | hu
        · exact hsince u hu
        · obtain rfl := List.mem_singleton.mp hu
          exact hkeeps
      · simp [hclear] at hread
      · obtain rfl := Option.mem_unique hset hread
        exact ⟨steps, ⟨s, a, s'⟩, [], rfl, hsets, by simp⟩

/-! ## Scripts

Where the enabled steps can be computed, a list of actions determines the run
that takes them. -/

/-- Follow the actions of a script, recording the transitions. -/
def replay (perform : State → Action → Option State) :
    State → List Action → Option (List (Transition State Action) × State)
  | s, [] => some ([], s)
  | s, a :: script =>
      match perform s a with
      | none => none
      | some s' => (replay perform s' script).map fun r => (⟨s, a, s'⟩ :: r.1, r.2)

/-- Only the actions of the script need to be steps. -/
theorem Run.of_replay_mem {perform : State → Action → Option State} {script : List Action}
    (hperform : ∀ a ∈ script, ∀ s s', perform s a = some s' → S.Step s a s')
    {start s : State} {steps : List (Transition State Action)}
    (h : replay perform start script = some (steps, s)) : S.Run start steps s := by
  induction script generalizing start steps with
  | nil =>
      obtain ⟨rfl, rfl⟩ := Prod.mk.inj (Option.some.inj h)
      exact .nil
  | cons a script ih =>
      obtain ⟨hfirst, hlater⟩ := List.forall_mem_cons.mp hperform
      simp only [replay] at h
      split at h
      next => contradiction
      next s' hs' =>
        obtain ⟨⟨rest, last⟩, hrest, heq⟩ := Option.map_eq_some_iff.mp h
        obtain ⟨rfl, rfl⟩ := Prod.mk.inj heq
        exact (Run.single (hfirst start s' hs')).trans (ih hlater hrest)

theorem Run.of_replay {perform : State → Action → Option State}
    (hperform : ∀ s a s', perform s a = some s' → S.Step s a s')
    {script : List Action} {start s : State} {steps : List (Transition State Action)}
    (h : replay perform start script = some (steps, s)) : S.Run start steps s :=
  Run.of_replay_mem (fun a _ s s' => hperform s a s') h

/-- The recorded actions are those of the script. -/
theorem action_mem_of_replay {perform : State → Action → Option State} {script : List Action}
    {start s : State} {steps : List (Transition State Action)}
    (h : replay perform start script = some (steps, s)) :
    ∀ t ∈ steps, t.action ∈ script := by
  induction script generalizing start steps with
  | nil =>
      obtain ⟨rfl, -⟩ := Prod.mk.inj (Option.some.inj h)
      exact fun t ht => absurd ht List.not_mem_nil
  | cons a script ih =>
      simp only [replay] at h
      split at h
      next => contradiction
      next s' hs' =>
        obtain ⟨⟨rest, last⟩, hrest, heq⟩ := Option.map_eq_some_iff.mp h
        obtain ⟨rfl, rfl⟩ := Prod.mk.inj heq
        rintro t ht
        rcases List.mem_cons.mp ht with rfl | ht
        · exact List.mem_cons_self
        · exact List.mem_cons_of_mem _ (ih hrest t ht)

end TransitionSystem
