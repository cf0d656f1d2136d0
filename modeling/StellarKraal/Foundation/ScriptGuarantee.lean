import StellarKraal.Foundation.Script

/-!
# What a script guarantees to others

Several scripts may share a store, each served one query at a time. What one of
them does then depends on replies the others had a hand in. It is described by
what it relies on in the replies, what it asks as long as it can, and how it ends.
-/

namespace Script

variable {Query State : Type} {Answer : Query → Type} {α β : Type}

/-- The script with its next query served. -/
def step (serve : Service Answer State) : Script Answer α → State → Script Answer α × State
  | .done result, s => (.done result, s)
  | .ask query next, s => (next (serve query s).1, (serve query s).2)

/-- As long as the replies are such as `rely` allows, the script asks only what
`asks` allows, and ends only as `ends` allows. -/
def Guarantees (rely : (query : Query) → Answer query → Prop) (asks : Query → Prop)
    (ends : α → Prop) : Script Answer α → Prop
  | .done result => ends result
  | .ask query next =>
      asks query ∧ ∀ answer, rely query answer → (next answer).Guarantees rely asks ends

namespace Guarantees

variable {rely rely' : (query : Query) → Answer query → Prop} {asks asks' : Query → Prop}

theorem mono {ends ends' : α → Prop} {script : Script Answer α}
    (h : script.Guarantees rely asks ends) (hrely : ∀ query answer, rely' query answer →
      rely query answer) (hasks : ∀ query, asks query → asks' query)
    (hends : ∀ result, ends result → ends' result) : script.Guarantees rely' asks' ends' := by
  induction script with
  | done result => exact hends result h
  | ask query next ih =>
      refine ⟨hasks query h.1, ?_⟩
      intro answer hanswer
      exact ih answer (h.2 answer (hrely query answer hanswer))

theorem mono_ends {ends ends' : α → Prop} {script : Script Answer α}
    (h : script.Guarantees rely asks ends) (hends : ∀ result, ends result → ends' result) :
    script.Guarantees rely asks ends' :=
  h.mono (fun _ _ h => h) (fun _ h => h) hends

/-- One script after another. -/
theorem bind {middle : α → Prop} {ends : β → Prop} {script : Script Answer α}
    {f : α → Script Answer β} (h : script.Guarantees rely asks middle)
    (hf : ∀ result, middle result → (f result).Guarantees rely asks ends) :
    (script >>= f).Guarantees rely asks ends := by
  induction script with
  | done result => exact hf result h
  | ask query next ih => exact ⟨h.1, fun answer hanswer => ih answer (h.2 answer hanswer)⟩

section

variable {ends : α → Prop} {serve : Service Answer State} {script rest : Script Answer α}
  {s s' : State}

/-- The step rule: a reply of the expected kind leaves a script with the same
guarantee. -/
theorem step (h : script.Guarantees rely asks ends) (hstep : script.step serve s = (rest, s'))
    (hserve : ∀ query, rely query (serve query s).1) : rest.Guarantees rely asks ends := by
  cases script with
  | done result =>
      obtain ⟨rfl, -⟩ := Prod.mk.inj hstep
      exact h
  | ask query next =>
      obtain ⟨rfl, -⟩ := Prod.mk.inj hstep
      exact h.2 _ (hserve query)

/-- What allowed queries keep of the store, a step keeps. -/
theorem step_store (h : script.Guarantees rely asks ends)
    (hstep : script.step serve s = (rest, s')) (kept : State → Prop) (hs : kept s)
    (hserve : ∀ query, asks query → kept (serve query s).2) : kept s' := by
  cases script with
  | done result =>
      obtain ⟨-, rfl⟩ := Prod.mk.inj hstep
      exact hs
  | ask query next =>
      obtain ⟨-, rfl⟩ := Prod.mk.inj hstep
      exact hserve query h.1

end

end Guarantees

/-- Whatever result the script ends with, `last` holds of it, the last query and its
answer. -/
def EndsAfter (last : (query : Query) → Answer query → α → Prop) : Script Answer α → Prop
  | .done _ => True
  | .ask query next => ∀ answer, (next answer).EndsAfter last ∧
      ∀ result, next answer = .done result → last query answer result

namespace EndsAfter

variable {last : (query : Query) → Answer query → α → Prop} {serve : Service Answer State}
  {script rest : Script Answer α} {s s' : State}

theorem step (h : script.EndsAfter last) (hstep : script.step serve s = (rest, s')) :
    rest.EndsAfter last := by
  cases script with
  | done result =>
      obtain ⟨rfl, -⟩ := Prod.mk.inj hstep
      trivial
  | ask query next =>
      obtain ⟨rfl, -⟩ := Prod.mk.inj hstep
      exact (h _).1

/-- A step that ends the script serves its last query. -/
theorem of_done {result : α} (h : script.EndsAfter last)
    (hstep : script.step serve s = (.done result, s')) : (script = .done result ∧ s' = s) ∨
      ∃ query, last query (serve query s).1 result ∧ s' = (serve query s).2 := by
  cases script with
  | done result' =>
      obtain ⟨hresult, rfl⟩ := Prod.mk.inj hstep
      exact .inl ⟨hresult, rfl⟩
  | ask query next =>
      obtain ⟨hresult, rfl⟩ := Prod.mk.inj hstep
      exact .inr ⟨query, (h _).2 result hresult, rfl⟩

end EndsAfter

end Script
