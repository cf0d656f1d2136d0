import Mathlib.Init

/-!
# Scripts over a shared store

Sequential code that reaches shared state only through queries, each answered at
once. The code is data: what it asks next, for every answer. Running it needs a
service that answers; other scripts may be served in between, at queries only.
-/

inductive Script {Query : Type} (Answer : Query → Type) (α : Type) : Type
  | done (result : α)
  | ask (query : Query) (next : Answer query → Script Answer α)

namespace Script

variable {Query State : Type} {Answer : Query → Type} {α β : Type}

def bind : Script Answer α → (α → Script Answer β) → Script Answer β
  | .done result, f => f result
  | .ask query next, f => .ask query fun answer => (next answer).bind f

instance : Monad (Script Answer) where
  pure := .done
  bind := bind

/-- How a store answers a query, and what the query makes of it. -/
abbrev Service (Answer : Query → Type) (State : Type) : Type :=
  (query : Query) → State → Answer query × State

/-- The script alone with the store. -/
def run (serve : Service Answer State) : Script Answer α → State → α × State
  | .done result, s => (result, s)
  | .ask query next, s => (next (serve query s).1).run serve (serve query s).2

@[simp] theorem run_pure (serve : Service Answer State) (result : α) (s : State) :
    run serve (pure result) s = (result, s) := rfl

@[simp] theorem run_bind (serve : Service Answer State) (script : Script Answer α)
    (f : α → Script Answer β) (s : State) :
    (script >>= f).run serve s = (f (script.run serve s).1).run serve (script.run serve s).2 := by
  induction script generalizing s with
  | done result => rfl
  | ask query next ih => exact ih _ _

/-- The script's result where each answer depends on the query alone. -/
def answered (answer : (query : Query) → Answer query) : Script Answer α → α
  | .done result => result
  | .ask query next => (next (answer query)).answered answer

@[simp] theorem answered_pure (answer : (query : Query) → Answer query) (result : α) :
    (pure result : Script Answer α).answered answer = result := rfl

@[simp] theorem answered_bind (answer : (query : Query) → Answer query) (script : Script Answer α)
    (f : α → Script Answer β) :
    (script >>= f).answered answer = (f (script.answered answer)).answered answer := by
  induction script with
  | done result => rfl
  | ask query next ih => exact ih _

/-- Whether every reply the script gets is `good`. -/
def allReplies (good : (query : Query) → Answer query → Bool) (serve : Service Answer State) :
    Script Answer α → State → Bool
  | .done _, _ => true
  | .ask query next, s =>
      good query (serve query s).1 &&
        (next (serve query s).1).allReplies good serve (serve query s).2

/-- Scripts one after another, each to its end. -/
def runAll (serve : Service Answer State) : List (Script Answer α) → State → State
  | [], s => s
  | script :: rest, s => runAll serve rest (script.run serve s).2

/-- Scripts that ask nothing leave the store alone. -/
theorem runAll_of_done {serve : Service Answer State} {scripts : List (Script Answer α)}
    (h : ∀ script ∈ scripts, ∃ result, script = .done result) (s : State) :
    runAll serve scripts s = s := by
  induction scripts with
  | nil => rfl
  | cons script rest ih =>
      obtain ⟨result, rfl⟩ := h script List.mem_cons_self
      exact ih fun other hother => h other (List.mem_cons_of_mem _ hother)

end Script
