import StellarKraal.Foundation.TransitionSystem

/-!
# Runs seen from a component

A system that contains another one takes its steps, and steps of its own that leave it
alone. Each of its runs, seen from the component, is a run of the component.
-/

namespace TransitionSystem

variable {State Action State' Action' : Type*}

/-- The component's part in a step, where it has one. -/
def Transition.view (state : State → State') (action : Action → Option Action')
    (t : Transition State Action) : Option (Transition State' Action') :=
  (action t.action).map fun a => ⟨state t.before, a, state t.after⟩

/-- `T` is the part of `S` that `state` and `action` show. -/
structure Component (S : TransitionSystem State Action) (T : TransitionSystem State' Action')
    (state : State → State') (action : Action → Option Action') : Prop where
  initial : ∀ s, S.Initial s → T.Initial (state s)
  step : ∀ s a s' a', S.Step s a s' → action a = some a' → T.Step (state s) a' (state s')
  other : ∀ s a s', S.Step s a s' → action a = none → state s' = state s

namespace Component

variable {S : TransitionSystem State Action} {T : TransitionSystem State' Action'}
  {state : State → State'} {action : Action → Option Action'}

theorem run (h : Component S T state action) {start s : State}
    {steps : List (Transition State Action)} (hrun : S.Run start steps s) :
    T.Run (state start) (steps.filterMap (Transition.view state action)) (state s) := by
  induction hrun with
  | nil => exact .nil
  | @snoc steps s s' a prior step ih =>
      rw [List.filterMap_append]
      cases ha : action a with
      | none =>
          have hnone : Transition.view state action ⟨s, a, s'⟩ = none := by
            simp [Transition.view, ha]
          rw [List.filterMap_cons_none hnone, List.filterMap_nil, List.append_nil,
            h.other s a s' step ha]
          exact ih
      | some a' =>
          have hsome : Transition.view state action ⟨s, a, s'⟩ =
              some ⟨state s, a', state s'⟩ := by
            simp [Transition.view, ha]
          rw [List.filterMap_cons_some hsome, List.filterMap_nil]
          exact ih.snoc (h.step s a s' a' step ha)

theorem reachable (h : Component S T state action) {s : State} (hs : S.Reachable s) :
    T.Reachable (state s) := by
  obtain ⟨start, steps, hstart, hrun⟩ := hs
  exact ⟨state start, _, h.initial start hstart, h.run hrun⟩

end Component

end TransitionSystem
