import StellarKraal.Foundation.Script

/-!
# Code that is called back

A contract hands over control in the middle of a call. Before it answers, the other
side may change what is its own and call the contract again, and such a call may
hand over control itself. A call that fails leaves nothing behind.
-/

/-- A contract as those it hands control to see it. -/
structure Reentrant (State Call Query ε : Type) where
  /-- The state control is handed over in. -/
  handover : Query → State
  /-- A call, to its result and the state it ends in. No answer means the other
  side failed. -/
  frame : Call → State → Script (fun _ : Query => Option State) (Except ε Unit × State)
  Callable : Call → Prop
  /-- What the other side may change by itself. -/
  Foreign : State → State → Prop

/-- A call made while another one is running, and how it ended. -/
structure NestedCall (Call ε : Type) where
  call : Call
  result : Except ε Unit

namespace Reentrant

variable {State Call Query ε α β : Type} (S : Reentrant State Call Query ε)

mutual

/-- The script comes to this outcome. All calls made meanwhile are listed, and
those of them that were not rolled back, each in the order they began. -/
inductive Serves : Script (fun _ : Query => Option State) (Except ε Unit × State) →
    Except ε Unit × State → List (NestedCall Call ε) → List Call → Prop
  | done (outcome : Except ε Unit × State) : Serves (.done outcome) outcome [] []
  | answered {query : Query} {next : Option State → Script _ _} {s : State}
      {outcome : Except ε Unit × State} {made made' : List (NestedCall Call ε)}
      {kept kept' : List Call} (during : During (S.handover query) made kept s)
      (rest : Serves (next (some s)) outcome made' kept') :
      Serves (.ask query next) outcome (made ++ made') (kept ++ kept')
  | refused {query : Query} {next : Option State → Script _ _} {s : State}
      {outcome : Except ε Unit × State} {made made' : List (NestedCall Call ε)}
      {kept kept' : List Call} (during : During (S.handover query) made kept s)
      (rest : Serves (next none) outcome made' kept') :
      Serves (.ask query next) outcome (made ++ made') kept'

/-- What may happen from one state to another while the other side has control. -/
inductive During : State → List (NestedCall Call ε) → List Call → State → Prop
  | back (s : State) : During s [] [] s
  | foreign {s s' s'' : State} {made : List (NestedCall Call ε)} {kept : List Call}
      (change : S.Foreign s s') (rest : During s' made kept s'') : During s made kept s''
  | succeeded {call : Call} {s s' s'' : State} {made made' : List (NestedCall Call ε)}
      {kept kept' : List Call} (callable : S.Callable call)
      (body : Serves (S.frame call s) (.ok (), s') made kept) (rest : During s' made' kept' s'') :
      During s (⟨call, .ok ()⟩ :: (made ++ made')) (call :: (kept ++ kept')) s''
  | failed {call : Call} {e : ε} {s s' s'' : State} {made made' : List (NestedCall Call ε)}
      {kept kept' : List Call} (callable : S.Callable call)
      (body : Serves (S.frame call s) (.error e, s') made kept) (rest : During s made' kept' s'') :
      During s (⟨call, .error e⟩ :: (made ++ made')) kept' s''

end

/-- A call from outside, from the state before to the state after. -/
inductive Settles (call : Call) (s : State) : State → Prop
  | committed {s' : State} {made : List (NestedCall Call ε)} {kept : List Call}
      (body : S.Serves (S.frame call s) (.ok (), s') made kept) : Settles call s s'
  | rolledBack {e : ε} {s' : State} {made : List (NestedCall Call ε)} {kept : List Call}
      (body : S.Serves (S.frame call s) (.error e, s') made kept) : Settles call s s

/-- Answers that change only what is foreign are among those that may come. -/
theorem Serves.of_answers {answer : Query → Option State}
    (h : ∀ query s, answer query = some s → S.Foreign (S.handover query) s)
    (script : Script (fun _ : Query => Option State) (Except ε Unit × State)) :
    S.Serves script (script.answered answer) [] [] := by
  induction script with
  | done outcome => exact .done outcome
  | ask query next ih =>
      rw [Script.answered]
      cases hanswer : answer query with
      | none => exact .refused (.back _) (ih none)
      | some s => exact .answered (.foreign (h query s hanswer) (.back s)) (ih (some s))

section

variable {S} {call : Call} {s s' s'' : State} {made : List (NestedCall Call ε)} {kept : List Call}

/-- A nested call that reaches nobody else, and fails. -/
theorem During.failed_at_once {e : ε} (callable : S.Callable call)
    (body : S.frame call s = pure (.error e, s')) (rest : S.During s made kept s'') :
    S.During s (⟨call, .error e⟩ :: made) kept s'' := by
  have hdone : S.Serves (S.frame call s) (.error e, s') [] [] := by
    rw [body]
    exact .done _
  exact .failed callable hdone rest

/-- A nested call that reaches nobody else, and succeeds. -/
theorem During.succeeded_at_once (callable : S.Callable call)
    (body : S.frame call s = pure (.ok (), s')) (rest : S.During s' made kept s'') :
    S.During s (⟨call, .ok ()⟩ :: made) (call :: kept) s'' := by
  have hdone : S.Serves (S.frame call s) (.ok (), s') [] [] := by
    rw [body]
    exact .done _
  exact .succeeded callable hdone rest

end

/-! ## Rely and guarantee

A relation that holds of all that may happen while the other side has control is
found by assuming it of each handover and proving it of each call. -/

/-- The script ends as `post` allows if each handover goes as `D` allows. -/
def Meets (D : State → List (NestedCall Call ε) → List Call → State → Prop) :
    Script (fun _ : Query => Option State) α →
      (α → List (NestedCall Call ε) → List Call → Prop) → Prop
  | .done outcome, post => post outcome [] []
  | .ask query next, post =>
      ∀ made kept s, D (S.handover query) made kept s →
        Meets D (next (some s)) (fun outcome made' kept' =>
          post outcome (made ++ made') (kept ++ kept')) ∧
        Meets D (next none) fun outcome made' kept' => post outcome (made ++ made') kept'

/-- What started in `s` and ended so has gone as `D` allows. -/
def Within (D : State → List (NestedCall Call ε) → List Call → State → Prop) (s : State) :
    Except ε α × State → List (NestedCall Call ε) → List Call → Prop
  | (.ok _, s'), made, kept => D s made kept s'
  | (.error _, _), made, _ => D s made [] s

/-- `D` allows what the other side may do, given that it does at each handover. -/
structure Closed (D : State → List (NestedCall Call ε) → List Call → State → Prop) : Prop where
  refl : ∀ s, D s [] [] s
  trans : ∀ {s made kept s' made' kept' s''}, D s made kept s' → D s' made' kept' s'' →
    D s (made ++ made') (kept ++ kept') s''
  rollback : ∀ {s made kept s'}, D s made kept s' → D s made [] s
  foreign : ∀ {s s'}, S.Foreign s s' → D s [] [] s'
  nested : ∀ call s, S.Callable call → Meets S D (S.frame call s) fun outcome made kept =>
    Within D s outcome (⟨call, outcome.1⟩ :: made) (call :: kept)

variable {S} {D : State → List (NestedCall Call ε) → List Call → State → Prop}

mutual

theorem Serves.meets (hD : S.Closed D) :
    ∀ {script : Script (fun _ : Query => Option State) (Except ε Unit × State)}
      {outcome : Except ε Unit × State} {made : List (NestedCall Call ε)} {kept : List Call}
      {post : Except ε Unit × State → List (NestedCall Call ε) → List Call → Prop},
      S.Serves script outcome made kept → Meets S D script post → post outcome made kept
  | _, _, _, _, _, .done _, hpost => hpost
  | _, _, _, _, _, .answered during rest, hpost =>
      rest.meets hD (hpost _ _ _ (during.holds hD)).1
  | _, _, _, _, _, .refused during rest, hpost =>
      rest.meets hD (hpost _ _ _ (during.holds hD)).2

/-- The rule: what is closed under calls holds of whatever happens. -/
theorem During.holds (hD : S.Closed D) :
    ∀ {s s' : State} {made : List (NestedCall Call ε)} {kept : List Call},
      S.During s made kept s' → D s made kept s'
  | _, _, _, _, .back s => hD.refl s
  | _, _, _, _, .foreign change rest => hD.trans (hD.foreign change) (rest.holds hD)
  | _, _, _, _, .succeeded callable body rest =>
      hD.trans (body.meets hD (hD.nested _ _ callable)) (rest.holds hD)
  | _, _, _, _, .failed callable body rest =>
      hD.trans (body.meets hD (hD.nested _ _ callable)) (rest.holds hD)

end

namespace Meets

@[simp] theorem of_pure {outcome : α}
    {post : α → List (NestedCall Call ε) → List Call → Prop} :
    Meets S D (pure outcome) post ↔ post outcome [] [] := Iff.rfl

theorem mono {post post' : α → List (NestedCall Call ε) → List Call → Prop}
    {script : Script (fun _ : Query => Option State) α} (h : Meets S D script post)
    (hpost : ∀ outcome made kept, post outcome made kept → post' outcome made kept) :
    Meets S D script post' := by
  induction script generalizing post post' with
  | done outcome => exact hpost outcome [] [] h
  | ask query next ih =>
      intro made kept s hD
      obtain ⟨hsome, hnone⟩ := h made kept s hD
      exact ⟨ih _ hsome fun _ _ _ => hpost _ _ _, ih _ hnone fun _ _ _ => hpost _ _ _⟩

theorem of_forall {post : α → List (NestedCall Call ε) → List Call → Prop}
    (h : ∀ outcome made kept, post outcome made kept)
    (script : Script (fun _ : Query => Option State) α) : Meets S D script post := by
  induction script generalizing post with
  | done outcome => exact h outcome [] []
  | ask query next ih => exact fun _ _ _ _ => ⟨ih _ fun _ _ _ => h _ _ _, ih _ fun _ _ _ => h _ _ _⟩

/-- One script after another. -/
theorem bind {post : β → List (NestedCall Call ε) → List Call → Prop}
    {script : Script (fun _ : Query => Option State) α}
    {f : α → Script (fun _ : Query => Option State) β}
    (h : Meets S D script fun middle made kept =>
      Meets S D (f middle) fun outcome made' kept' =>
        post outcome (made ++ made') (kept ++ kept')) :
    Meets S D (script >>= f) post := by
  induction script generalizing post with
  | done middle => exact h
  | ask query next ih =>
      intro made kept s hD
      obtain ⟨hsome, hnone⟩ := h made kept s hD
      simp only [List.append_assoc] at hsome hnone
      exact ⟨ih _ hsome, ih _ hnone⟩

end Meets

end Reentrant
