import Mathlib.Logic.Relation
import StellarKraal.Foundation.Script

/-!
# Scripts in a moving environment

The state a script reaches through its queries may move by itself between them, and
after the script has ended; what a query is answered may be one of many things. A
script ensures something of its result if that holds however it was answered, from
then on and however the state moves.
-/

namespace Script

variable {Query State : Type} {Answer : Query → Type} {α β : Type}

/-- Which answers a query may get in a state, and the state it leaves then. -/
abbrev Answering (Answer : Query → Type) (State : Type) : Type :=
  (query : Query) → State → Answer query → State → Prop

def Ensures (answers : Answering Answer State) (drift : State → State → Prop)
    (ends : α → State → Prop) : Script Answer α → State → Prop
  | .done result, s => ∀ s', Relation.ReflTransGen drift s s' → ends result s'
  | .ask query next, s => ∀ s', Relation.ReflTransGen drift s s' →
      ∀ answer s'', answers query s' answer s'' → (next answer).Ensures answers drift ends s''

/-- No move of the environment leaves `p`. -/
def Stable (drift : State → State → Prop) (p : State → Prop) : Prop :=
  ∀ ⦃s s'⦄, p s → drift s s' → p s'

namespace Stable

variable {drift : State → State → Prop} {p q : State → Prop}

theorem and (hp : Stable drift p) (hq : Stable drift q) : Stable drift fun s => p s ∧ q s :=
  fun _ _ h hdrift => ⟨hp h.1 hdrift, hq h.2 hdrift⟩

theorem reflTransGen (hp : Stable drift p) {s s' : State} (h : p s)
    (hdrift : Relation.ReflTransGen drift s s') : p s' := by
  induction hdrift with
  | refl => exact h
  | tail _ hlast ih => exact hp ih hlast

end Stable

namespace Ensures

variable {answers : Answering Answer State} {drift : State → State → Prop}
  {ends ends' : α → State → Prop}

theorem mono {script : Script Answer α} {s : State} (h : script.Ensures answers drift ends s)
    (hends : ∀ result s, ends result s → ends' result s) :
    script.Ensures answers drift ends' s := by
  induction script generalizing s with
  | done result => exact fun s' hdrift => hends result s' (h s' hdrift)
  | ask query next ih =>
      intro s' hdrift answer s'' hanswer
      exact ih answer (h s' hdrift answer s'' hanswer)

/-- One script after another. -/
theorem bind {ends : β → State → Prop} {script : Script Answer α} {f : α → Script Answer β}
    {s : State} (h : script.Ensures answers drift
      (fun result s => (f result).Ensures answers drift ends s) s) :
    (script >>= f).Ensures answers drift ends s := by
  induction script generalizing s with
  | done result => exact h s .refl
  | ask query next ih =>
      intro s' hdrift answer s'' hanswer
      exact ih answer (h s' hdrift answer s'' hanswer)

theorem done {p : State → Prop} (hp : Stable drift p) {result : α} {s : State} (h : p s)
    (hends : ∀ s, p s → ends result s) : (Script.done result).Ensures answers drift ends s :=
  fun s' hdrift => hends s' (hp.reflTransGen h hdrift)

/-- What is known when the query is made has to be known still when it is answered. -/
theorem ask {p : State → Prop} (hp : Stable drift p) {query : Query}
    {next : Answer query → Script Answer α} {s : State} (h : p s)
    (hnext : ∀ s, p s → ∀ answer s', answers query s answer s' →
      (next answer).Ensures answers drift ends s') :
    (Script.ask query next).Ensures answers drift ends s :=
  fun s' hdrift => hnext s' (hp.reflTransGen h hdrift)

/-! What is ensured stays ensured as the script and its environment take steps. -/

theorem of_drift {script : Script Answer α} {s s' : State}
    (h : script.Ensures answers drift ends s) (hdrift : drift s s') :
    script.Ensures answers drift ends s' := by
  cases script with
  | done result => exact fun s'' hdrift' => h s'' (hdrift'.head hdrift)
  | ask query next => exact fun s'' hdrift' => h s'' (hdrift'.head hdrift)

theorem of_answer {query : Query} {next : Answer query → Script Answer α} {s s' : State}
    (h : (Script.ask query next).Ensures answers drift ends s) {answer : Answer query}
    (hanswer : answers query s answer s') : (next answer).Ensures answers drift ends s' :=
  h s .refl answer s' hanswer

theorem result {result : α} {s : State} (h : (Script.done result).Ensures answers drift ends s) :
    ends result s :=
  h s .refl

end Ensures

end Script
