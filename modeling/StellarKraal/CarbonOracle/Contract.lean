import StellarKraal.Foundation.BubbleSort
import StellarKraal.Foundation.TransitionSystem
import StellarKraal.Contract.Host

/-!
# The carbon price oracle

Registered oracles submit prices, each overwriting its last one, and the median
of those not too old is computed when it is read. The admin keeps the registry;
it is the caller's address that the stored admin is compared with.
-/

namespace StellarKraal.CarbonOracle

open Except (refuseIf okOr)
open TransitionSystem (Transition)

/-- A panic with its message, or a trap (authorisation, unwrap, overflow). -/
inductive Panic
  | message (text : String)
  | trap
  deriving DecidableEq, Repr

abbrev Result := Except Panic

/-- The instance entries `Admin`, `MaxAgeLedgers` and `Oracles`, which `init`
writes together. -/
structure Settings where
  admin : Address
  maxAgeLedgers : Nat
  oracles : List Address
  deriving DecidableEq, Repr

/-- The contract's storage and the ledger it is read in. Under `Price(a)` stand
the price and the ledger of its submission. -/
structure State where
  sequence : Nat
  settings : Option Settings := none
  prices : KeyedStore Address (Nat × Nat) := ∅

def requireAuth (env : Env) (who : Address) : Result Unit :=
  refuseIf (who ∉ env.signers) .trap

@[simp] theorem requireAuth_eq_ok {env : Env} {who : Address} {u : Unit} :
    requireAuth env who = .ok u ↔ who ∈ env.signers := by
  simp [requireAuth]

/-! ## Entry points -/

/-- Nobody has to sign. -/
def init (w : State) (admin : Address) (maxAgeLedgers : Nat) : Result State := do
  refuseIf (w.settings.isSome = true) (.message "already initialized")
  return { w with settings := some { admin, maxAgeLedgers, oracles := [] } }

theorem init_ok {w w' : State} {admin : Address} {maxAgeLedgers : Nat}
    (h : init w admin maxAgeLedgers = .ok w') :
    w.settings = none ∧
      w' = { w with settings := some { admin, maxAgeLedgers, oracles := [] } } := by
  simp only [init, Except.bind_succeeds, Except.refuseIf_eq_ok, Except.pure_succeeds,
    Option.not_isSome_iff_eq_none] at h
  obtain ⟨_, hnone, rfl⟩ := h
  exact ⟨hnone, rfl⟩

/-- The checks of the two admin calls. -/
def requireAdmin (env : Env) (w : State) (admin : Address) : Result Settings := do
  requireAuth env admin
  let settings ← okOr w.settings .trap
  refuseIf (admin ≠ settings.admin) (.message "unauthorized")
  return settings

@[simp] theorem requireAdmin_eq_ok {env : Env} {w : State} {admin : Address}
    {settings : Settings} : requireAdmin env w admin = .ok settings ↔
      admin ∈ env.signers ∧ w.settings = some settings ∧ admin = settings.admin := by
  simp only [requireAdmin, Except.bind_succeeds, requireAuth_eq_ok, Except.okOr_eq_ok,
    Except.refuseIf_eq_ok, Except.pure_succeeds, not_not]
  constructor
  · rintro ⟨_, hauth, _, hsettings, _, hadmin, rfl⟩
    exact ⟨hauth, hsettings, hadmin⟩
  · rintro ⟨hauth, hsettings, hadmin⟩
    exact ⟨(), hauth, settings, hsettings, (), hadmin, rfl⟩

def addOracle (env : Env) (w : State) (admin oracle : Address) : Result State := do
  let settings ← requireAdmin env w admin
  if oracle ∈ settings.oracles then pure w
  else
    return { w with settings := some { settings with oracles := settings.oracles ++ [oracle] } }

theorem addOracle_ok {env : Env} {w w' : State} {admin oracle : Address}
    (h : addOracle env w admin oracle = .ok w') :
    ∃ s, w.settings = some s ∧ s.admin = admin ∧ admin ∈ env.signers ∧
      ((oracle ∈ s.oracles ∧ w' = w) ∨ (oracle ∉ s.oracles ∧
        w' = { w with settings := some { s with oracles := s.oracles ++ [oracle] } })) := by
  simp only [addOracle, Except.bind_succeeds, requireAdmin_eq_ok] at h
  obtain ⟨s, ⟨hauth, hs, rfl⟩, h⟩ := h
  refine ⟨s, hs, rfl, hauth, ?_⟩
  split at h
  next hmem => exact .inl ⟨hmem, (Except.pure_succeeds.mp h).symm⟩
  next hmem => exact .inr ⟨hmem, (Except.pure_succeeds.mp h).symm⟩

/-- The price is removed whether or not the oracle was registered. -/
def removeOracle (env : Env) (w : State) (admin oracle : Address) : Result State := do
  let settings ← requireAdmin env w admin
  return { w with
    settings := some { settings with oracles := settings.oracles.erase oracle }
    prices := w.prices.erase oracle }

theorem removeOracle_ok {env : Env} {w w' : State} {admin oracle : Address}
    (h : removeOracle env w admin oracle = .ok w') :
    ∃ s, w.settings = some s ∧ s.admin = admin ∧ admin ∈ env.signers ∧
      w' = { w with
        settings := some { s with oracles := s.oracles.erase oracle }
        prices := w.prices.erase oracle } := by
  simp only [removeOracle, Except.bind_succeeds, requireAdmin_eq_ok, Except.pure_succeeds] at h
  obtain ⟨s, ⟨hauth, hs, rfl⟩, rfl⟩ := h
  exact ⟨s, hs, rfl, hauth, rfl⟩

def submitPrice (env : Env) (w : State) (oracle : Address) (price : Nat) : Result State := do
  requireAuth env oracle
  let settings ← okOr w.settings .trap
  refuseIf (oracle ∉ settings.oracles) (.message "unauthorized oracle")
  return { w with prices := w.prices.insert oracle (price, w.sequence) }

theorem submitPrice_ok {env : Env} {w w' : State} {oracle : Address} {price : Nat}
    (h : submitPrice env w oracle price = .ok w') :
    ∃ s, w.settings = some s ∧ oracle ∈ env.signers ∧ oracle ∈ s.oracles ∧
      w' = { w with prices := w.prices.insert oracle (price, w.sequence) } := by
  simp only [submitPrice, Except.bind_succeeds, requireAuth_eq_ok, Except.okOr_eq_ok,
    Except.refuseIf_eq_ok, Except.pure_succeeds, not_not] at h
  obtain ⟨_, hauth, s, hs, _, hmem, rfl⟩ := h
  exact ⟨s, hs, hauth, hmem, rfl⟩

/-! ## The median -/

/-- What the registered `oracle` has to say, if it is not too old. -/
def freshPrice (w : State) (maxAge : Nat) (oracle : Address) : Option Nat :=
  match w.prices.lookup oracle with
  | some (price, ledgerSeq) =>
      if w.sequence ≥ ledgerSeq ∧ w.sequence - ledgerSeq ≤ maxAge then some price else none
  | none => none

def validPrices (w : State) (settings : Settings) : List Nat :=
  settings.oracles.filterMap (freshPrice w settings.maxAgeLedgers)

/-- The buffer has twenty cells, zero beyond the prices copied in. -/
def pricesArray (prices : List Nat) : List Nat :=
  prices ++ List.replicate (20 - prices.length) 0

def getMedianPrice (w : State) : Result Nat := do
  let settings ← okOr w.settings .trap
  let prices := validPrices w settings
  let len := prices.length
  refuseIf (len = 0) (.message "no valid oracle submissions")
  refuseIf (len > 20) (.message "too many oracles")
  let sorted := BubbleSort.bubbleSort (pricesArray prices) len
  if len % 2 = 1 then return sorted.getD (len / 2) 0
  else
    let mid1 := sorted.getD (len / 2 - 1) 0
    let mid2 := sorted.getD (len / 2) 0
    -- The sum is a checked `u64` addition.
    let sum ← okOr (U64.checkedAdd mid1 mid2) .trap
    return sum / 2

/-! ## The contract as a transition system -/

inductive Call
  | init (admin : Address) (maxAgeLedgers : Nat)
  | addOracle (admin oracle : Address)
  | removeOracle (admin oracle : Address)
  | submitPrice (oracle : Address) (price : Nat)
  | getMedianPrice

def Call.run (env : Env) (w : State) : Call → Result State
  | .init admin maxAgeLedgers => CarbonOracle.init w admin maxAgeLedgers
  | .addOracle admin oracle => CarbonOracle.addOracle env w admin oracle
  | .removeOracle admin oracle => CarbonOracle.removeOracle env w admin oracle
  | .submitPrice oracle price => CarbonOracle.submitPrice env w oracle price
  | .getMedianPrice => do
      let _ ← CarbonOracle.getMedianPrice w
      return w

/-- The arguments fit their types. -/
def Call.Typed : Call → Prop
  | .init _ maxAgeLedgers => maxAgeLedgers ≤ U32.MAX
  | .submitPrice _ price => price ≤ U64.MAX
  | _ => True

instance : DecidablePred Call.Typed
  | .init _ maxAgeLedgers => inferInstanceAs (Decidable (maxAgeLedgers ≤ U32.MAX))
  | .submitPrice _ price => inferInstanceAs (Decidable (price ≤ U64.MAX))
  | .addOracle _ _ | .removeOracle _ _ | .getMedianPrice => inferInstanceAs (Decidable True)

/-- The state after a call, rolled back where the call failed. -/
def State.invoke (env : Env) (w : State) (call : Call) : State :=
  match call.run env w with
  | .ok w' => w'
  | .error _ => w

inductive Action
  | call (env : Env) (call : Call)
  | close (sequence : Nat)

/-- Calls by any signers, and ledgers closing. -/
def system : TransitionSystem State Action where
  Initial w := ∃ sequence, w = { sequence }
  Step w a w' :=
    match a with
    | .call env call => call.Typed ∧ w' = w.invoke env call
    | .close sequence => w.sequence ≤ sequence ∧ sequence ≤ U32.MAX ∧ w' = { w with sequence }

/-- The step is a call that succeeded. -/
structure Executed (t : Transition State Action) (env : Env) (call : Call) : Prop where
  action : t.action = .call env call
  run : call.run env t.before = .ok t.after

/-- A step is a call that succeeded, or changes the ledger number at most. -/
theorem step_cases {w w' : State} {a : Action} (h : system.Step w a w') :
    (∃ env call, call.Typed ∧ Executed ⟨w, a, w'⟩ env call) ∨
      ∃ sequence, w.sequence ≤ sequence ∧ w' = { w with sequence } := by
  cases a with
  | call env call =>
      obtain ⟨htyped, rfl⟩ := h
      cases hrun : call.run env w with
      | ok w' => exact .inl ⟨env, call, htyped, rfl, by simp [State.invoke, hrun]⟩
      | error e => exact .inr ⟨w.sequence, le_rfl, by simp [State.invoke, hrun]⟩
  | close sequence =>
      obtain ⟨hle, -, rfl⟩ := h
      exact .inr ⟨sequence, hle, rfl⟩

/-- The steps, computed. -/
def State.perform (w : State) : Action → Option State
  | .call env call => if call.Typed then some (w.invoke env call) else none
  | .close sequence =>
      if w.sequence ≤ sequence ∧ sequence ≤ U32.MAX then some { w with sequence } else none

theorem step_of_perform {w w' : State} {a : Action} (h : w.perform a = some w') :
    system.Step w a w' := by
  cases a with
  | call env call =>
      simp only [State.perform, Option.ite_none_right_eq_some, Option.some.injEq] at h
      exact ⟨h.1, h.2.symm⟩
  | close sequence =>
      simp only [State.perform, Option.ite_none_right_eq_some, Option.some.injEq] at h
      exact ⟨h.1.1, h.1.2, h.2.symm⟩

/-! Scripts for concrete deployments, each call signed by the address it names. -/

namespace Sample

def admin : Address := .account 1

def oracle (i : Nat) : Address := .account (i + 10)

def initialization (maxAgeLedgers : Nat) : Action := .call ⟨[]⟩ (.init admin maxAgeLedgers)

def registration (i : Nat) : Action := .call ⟨[admin]⟩ (.addOracle admin (oracle i))

def removal (i : Nat) : Action := .call ⟨[admin]⟩ (.removeOracle admin (oracle i))

def submission (i price : Nat) : Action := .call ⟨[oracle i]⟩ (.submitPrice (oracle i) price)

/-- What a script leads to from a deployment in ledger 100. -/
def after (script : List Action) : State :=
  ((TransitionSystem.replay State.perform { sequence := 100 } script).map (·.2)).getD
    { sequence := 100 }

theorem after_reachable (script : List Action) : system.Reachable (after script) := by
  have hstart : system.Reachable { sequence := 100 } := .of_initial ⟨100, rfl⟩
  unfold after
  cases h : TransitionSystem.replay State.perform { sequence := 100 } script with
  | none => exact hstart
  | some r => exact hstart.run (TransitionSystem.Run.of_replay (fun _ _ _ => step_of_perform) h)

/-- `n` oracles that have all submitted `price`. -/
def crowd (n price : Nat) : State :=
  after (initialization 50 ::
    (List.range n).flatMap fun i => [registration i, submission i price])

end Sample

end StellarKraal.CarbonOracle
