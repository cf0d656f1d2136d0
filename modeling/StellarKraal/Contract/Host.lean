import StellarKraal.Foundation.Outcome
import StellarKraal.Foundation.MachineArithmetic
import StellarKraal.Contract.Types

/-!
# The host: authorisation, token calls and storage access

The token is reached through a `TokenClient`, which may do anything to the world
before it answers. An `AssetContract` is the standard case: its transfers move
exactly the amount asked for or fail, and touch nothing but balances.
-/

namespace StellarKraal

open Except (refuseIf okOr)

/-- The addresses whose `require_auth` succeeds in the current call. -/
structure Env where
  signers : List Address

def Env.requireAuth (env : Env) (who : Address) : Result Unit :=
  refuseIf (who ∉ env.signers) .trap

@[simp] theorem Env.requireAuth_eq_ok {env : Env} {who : Address} {u : Unit} :
    env.requireAuth who = .ok u ↔ who ∈ env.signers := by
  simp [Env.requireAuth]

@[simp] theorem Env.requireAuth_eq_error {env : Env} {who : Address} {f : Failure} :
    env.requireAuth who = .error f ↔ who ∉ env.signers ∧ .trap = f := by
  simp [Env.requireAuth]

/-! ## Token calls -/

namespace Ledger

def set (L : Ledger) (token holder : Address) (amount : Int) : Ledger :=
  fun t h => if t = token ∧ h = holder then amount else L t h

/-- Debit the sender, then credit the receiver. -/
def move (L : Ledger) (token sender receiver : Address) (amount : Int) : Ledger :=
  let debited := L.set token sender (L token sender - amount)
  debited.set token receiver (debited token receiver + amount)

/-- A holder's balance after a transfer, whoever the two parties are. -/
theorem move_apply (L : Ledger) (token sender receiver holder : Address) (amount : Int) :
    L.move token sender receiver amount token holder =
      L token holder + (if holder = receiver then amount else 0) -
        (if holder = sender then amount else 0) := by
  simp only [move, set, true_and]
  split_ifs <;> simp_all

end Ledger

/-- The interface the contract calls its token through. -/
structure TokenClient where
  transfer : World → (token sender receiver : Address) → (amount : Int) → Result World
  balance : World → (token holder : Address) → Int

/-- A standard asset contract. Whether a transfer goes through is its own
business (trust lines, frozen holders); what it does then is fixed. -/
structure AssetContract where
  transfer : Ledger → (token sender receiver : Address) → (amount : Int) → Option Ledger
  transfer_moves : ∀ {L L' : Ledger} {token sender receiver : Address} {amount : Int},
    transfer L token sender receiver amount = some L' →
      0 ≤ amount ∧ amount ≤ L token sender ∧ L' = L.move token sender receiver amount

/-- The asset contract that refuses only negative and uncovered amounts. -/
def AssetContract.standard : AssetContract where
  transfer L token sender receiver amount :=
    if 0 ≤ amount ∧ amount ≤ L token sender then some (L.move token sender receiver amount)
    else none
  transfer_moves h := by
    split at h
    next hcovered => exact ⟨hcovered.1, hcovered.2, (Option.some.inj h).symm⟩
    next => contradiction

namespace AssetContract

/-- Calls to the token as the lending contract sees them. -/
def client (asset : AssetContract) : TokenClient where
  transfer w token sender receiver amount :=
    match asset.transfer w.ledger token sender receiver amount with
    | some L => .ok { w with ledger := L }
    | none => .error .trap
  balance w token holder := w.ledger token holder

theorem client_transfer_ok {asset : AssetContract} {w w' : World}
    {token sender receiver : Address} {amount : Int}
    (h : asset.client.transfer w token sender receiver amount = .ok w') :
    0 ≤ amount ∧ amount ≤ w.ledger token sender ∧
      w' = { w with ledger := w.ledger.move token sender receiver amount } := by
  simp only [client] at h
  split at h
  next L hL =>
    obtain ⟨hpos, hcovered, rfl⟩ := asset.transfer_moves hL
    exact ⟨hpos, hcovered, (Except.ok.inj h).symm⟩
  next => contradiction

theorem client_transfer_error {asset : AssetContract} {w : World}
    {token sender receiver : Address} {amount : Int} {f : Failure}
    (h : asset.client.transfer w token sender receiver amount = .error f) : f = .trap := by
  simp only [client] at h
  split at h
  next => contradiction
  next => exact (Except.error.inj h).symm

end AssetContract

/-! ## Storage access -/

namespace World

/-- `instance().get(&KEY).unwrap()`. -/
def get {α : Type} (w : World) (key : Config → α) : Result α :=
  okOr (w.config.map key) .trap

/-- `instance().get(&KEY).unwrap_or(default)`. -/
def getOr {α : Type} (w : World) (key : Config → α) (default : α) : α :=
  (w.config.map key).getD default

def publish (w : World) (topics : List ScVal) (data : ScVal) : World :=
  { w with events := w.events ++ [⟨topics, data⟩] }

def setConfig (w : World) (update : Config → Config) : World :=
  { w with config := w.config.map update }

@[simp] theorem get_eq_ok {α : Type} {w : World} {key : Config → α} {a : α} :
    w.get key = .ok a ↔ ∃ c, w.config = some c ∧ key c = a := by
  simp [get]

@[simp] theorem get_eq_error {α : Type} {w : World} {key : Config → α} {f : Failure} :
    w.get key = .error f ↔ w.config = none ∧ .trap = f := by
  simp [get]

end World

/-! ## Guards -/

/-- `ReentrancyGuard::new`. -/
def ReentrancyGuard.new (w : World) : Result World :=
  if w.guard then .error (.error .alreadyInProgress) else .ok { w with guard := true }

/-- `Drop` for the guard. -/
def ReentrancyGuard.drop (w : World) : World := { w with guard := false }

@[simp] theorem ReentrancyGuard.new_eq_ok {w w' : World} :
    ReentrancyGuard.new w = .ok w' ↔ w.guard = false ∧ { w with guard := true } = w' := by
  unfold ReentrancyGuard.new
  split <;> simp_all

@[simp] theorem ReentrancyGuard.new_eq_error {w : World} {f : Failure} :
    ReentrancyGuard.new w = .error f ↔ w.guard = true ∧ .error .alreadyInProgress = f := by
  unfold ReentrancyGuard.new
  split <;> simp_all

def assertInitialized (w : World) : Result Unit :=
  refuseIf (w.config.isNone = true) (.error .notInitialized)

def assertAdmin (w : World) (caller : Address) : Result Unit := do
  let admin ← w.get (·.admin)
  refuseIf (caller ≠ admin) (.error .unauthorized)

def isPausedRaw (w : World) : Bool :=
  if !w.paused then false
  -- A pause without expiry lasts until it is lifted.
  else if w.pauseExp = 0 then true
  else decide (w.timestamp < w.pauseExp)

def assertNotPaused (w : World) : Result Unit :=
  refuseIf (isPausedRaw w = true) (.error .contractPaused)

/-- The next id after `counter`; the caller stores it back as the counter. -/
def nextId (counter : Nat) : Result Nat :=
  okOr (U64.checkedAdd counter 1) (.error .arithmeticOverflow)

@[simp] theorem assertInitialized_eq_ok {w : World} {u : Unit} :
    assertInitialized w = .ok u ↔ ∃ c, w.config = some c := by
  cases h : w.config <;> simp [assertInitialized, h]

@[simp] theorem assertInitialized_eq_error {w : World} {f : Failure} :
    assertInitialized w = .error f ↔ w.config = none ∧ .error .notInitialized = f := by
  simp [assertInitialized]

@[simp] theorem assertAdmin_eq_ok {w : World} {caller : Address} {u : Unit} :
    assertAdmin w caller = .ok u ↔ ∃ c, w.config = some c ∧ c.admin = caller := by
  simp only [assertAdmin, Except.bind_succeeds, World.get_eq_ok, Except.refuseIf_eq_ok, not_not]
  constructor
  · rintro ⟨_, ⟨c, hc, rfl⟩, rfl⟩
    exact ⟨c, hc, rfl⟩
  · rintro ⟨c, hc, rfl⟩
    exact ⟨_, ⟨c, hc, rfl⟩, rfl⟩

@[simp] theorem assertNotPaused_eq_ok {w : World} {u : Unit} :
    assertNotPaused w = .ok u ↔ isPausedRaw w = false := by
  simp [assertNotPaused]

@[simp] theorem assertNotPaused_eq_error {w : World} {f : Failure} :
    assertNotPaused w = .error f ↔ isPausedRaw w = true ∧ .error .contractPaused = f := by
  simp [assertNotPaused]

@[simp] theorem nextId_eq_ok {counter id : Nat} :
    nextId counter = .ok id ↔ counter + 1 ≤ U64.MAX ∧ counter + 1 = id := by
  simp [nextId]

end StellarKraal
