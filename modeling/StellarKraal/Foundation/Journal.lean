import StellarKraal.Foundation.TransitionSystem

/-!
# Journals

A system that only ever appends to a log is told by it. Where the entries each
step appends turn the view of the state before it into the view after it,
reading the whole log gives the view of any reachable state.
-/

namespace TransitionSystem

/-- A log kept in the state, a view of the state, and what one entry does to the view. -/
structure Journal (State Entry View : Type*) where
  log : State → List Entry
  view : State → View
  blank : View
  record : View → Entry → View

namespace Journal

variable {State Action Entry View : Type*} {S : TransitionSystem State Action}
variable (J : Journal State Entry View)

/-- The view as it is read off a log. -/
def read (entries : List Entry) : View := entries.foldl J.record J.blank

/-- Entries were appended that account for the change of the view. -/
def Accounts (s s' : State) : Prop :=
  ∃ new, J.log s' = J.log s ++ new ∧ new.foldl J.record (J.view s) = J.view s'

variable {J}

theorem Accounts.of_same {s s' : State} (hlog : J.log s' = J.log s) (hview : J.view s' = J.view s) :
    J.Accounts s s' :=
  ⟨[], by rw [hlog, List.append_nil], hview.symm⟩

theorem Accounts.read_log {s s' : State} (h : J.Accounts s s')
    (hs : J.read (J.log s) = J.view s) : J.read (J.log s') = J.view s' := by
  obtain ⟨new, hlog, hview⟩ := h
  calc J.read (J.log s') = new.foldl J.record (J.read (J.log s)) := by
        rw [hlog, read, List.foldl_append, read]
    _ = J.view s' := by rw [hs, hview]

/-- The log alone gives the view of every reachable state. -/
theorem read_log (hinit : ∀ s, S.Initial s → J.log s = [] ∧ J.view s = J.blank)
    (hstep : ∀ s a s', S.Reachable s → S.Step s a s' → J.Accounts s s') {s : State}
    (h : S.Reachable s) : J.read (J.log s) = J.view s := by
  refine @Reachable.invariant _ _ S (fun s => J.read (J.log s) = J.view s) ?_ ?_ s h
  · intro s hs
    obtain ⟨hlog, hview⟩ := hinit s hs
    rw [hlog, hview]
    rfl
  · intro s a s' hreach hs step
    exact (hstep s a s' hreach step).read_log hs

end Journal

end TransitionSystem
