import Mathlib.Logic.Function.Basic
import StellarKraal.Foundation.TransitionSystem

/-!
# The wallet manager

The operations of the manager wait for a wallet's adapter and go on when it answers.
Meanwhile other operations may run, on the same state and the same stored session.
-/

namespace StellarKraal.Wallet

open TransitionSystem (Transition)

inductive WalletId
  | freighter
  | xBull
  | lobstr
  | walletConnect
  deriving DecidableEq

/-- The name of the adapter. -/
def WalletId.name : WalletId → String
  | .freighter => "Freighter"
  | .xBull => "xBull"
  | .lobstr => "LOBSTR"
  | .walletConnect => "WalletConnect"

inductive WalletState
  | disconnected
  | connecting
  | connected
  | error
  deriving DecidableEq

structure WalletMetadata where
  id : WalletId
  isInstalled : Bool
  isAvailable : Bool

def DEFAULT_ORDER : List WalletId := [.freighter, .xBull, .lobstr, .walletConnect]

/-- What `detectWallets` returns; a wallet that throws counts as not installed. -/
def walletMetadata (installed : WalletId → Bool) : List WalletMetadata :=
  DEFAULT_ORDER.map fun id => ⟨id, installed id, installed id || id == .walletConnect⟩

structure WalletManagerState where
  state : WalletState
  address : Option String
  walletId : Option WalletId
  error : Option String
  wallets : Option (List WalletMetadata)

structure WalletSession where
  address : String
  walletId : WalletId
  connectedAt : Nat

/-- The item under the session's key. -/
inductive Item
  | session (session : WalletSession)
  | unreadable

def SESSION_MAX_AGE_MS : Nat := 24 * 60 * 60 * 1000

/-- What an adapter throws: the message of an `Error`, or something else. -/
structure Thrown where
  message : Option String

/-- How a call of the manager ends. -/
inductive Settled
  | resolved
  /-- With the error code `WALLET_NOT_INSTALLED`. -/
  | notInstalled (message : String) (walletId : WalletId)
  | rejected (thrown : Thrown)

/-- What a call that has begun waits for. -/
inductive Call
  /-- `initialize`, for `detectWallets`, and for `isConnected`, which every adapter has, and
  `getAddress`. -/
  | initializing
  | probing (saved : WalletSession)
  | restoring (saved : WalletSession)
  /-- `connect`, for `detect` and `connect` of the adapter. -/
  | detecting (walletId : WalletId)
  | connecting (walletId : WalletId)
  /-- `disconnect`, for that of the adapter; `switchWallet` goes on with the next wallet. -/
  | disconnecting (walletId : WalletId) (next : Option WalletId)

structure WalletManager where
  state : WalletManagerState
  initialized : Bool
  /-- The stored item; `none` without a window, or where the storage is denied. -/
  localStorage : Option (Option Item)
  now : Nat
  calls : Nat → Option Call
  settled : Nat → Option Settled
  started : Nat

inductive Action
  | initializeManager
  | connect (walletId : WalletId)
  | disconnect
  | switchWallet (walletId : WalletId)
  | clearError
  /-- Answers to the call with this number. -/
  | detectWallets (call : Nat) (installed : WalletId → Bool)
  | isConnected (call : Nat) (answer : Except Thrown Bool)
  | getAddress (call : Nat) (answer : Except Thrown String)
  | detect (call : Nat) (answer : Except Thrown Bool)
  /-- The session of a connection is `saved` unless there is no room for it. -/
  | connected (call : Nat) (answer : Except Thrown String) (saved : Bool)
  | disconnected (call : Nat) (answer : Except Thrown Unit)
  | tick (ms : Nat)

namespace WalletManager

def loadSession (s : WalletManager) : Option WalletSession :=
  match s.localStorage.join with
  | some (.session session) =>
      if SESSION_MAX_AGE_MS < s.now - session.connectedAt then none else some session
  | _ => none

def saveSession (s : WalletManager) (session : WalletSession) (saved : Bool) : WalletManager :=
  if saved then { s with localStorage := s.localStorage.map fun _ => some (.session session) }
  else s

def clearSession (s : WalletManager) : WalletManager :=
  { s with localStorage := s.localStorage.map fun _ => none }

/-- The call waits. -/
def waits (s : WalletManager) (call : Nat) (wait : Call) : WalletManager :=
  { s with calls := Function.update s.calls call (some wait) }

/-- The call has come to its end. -/
def settle (s : WalletManager) (call : Nat) (settled : Settled) : WalletManager :=
  { s with
    calls := Function.update s.calls call none
    settled := Function.update s.settled call (some settled) }

/-- A new call, which is handled up to its first wait. -/
def enter (s : WalletManager) (handle : Nat → WalletManager → WalletManager) : WalletManager :=
  handle s.started { s with started := s.started + 1 }

/-- `initialize`. -/
def initializeManager (call : Nat) (s : WalletManager) : WalletManager :=
  if s.initialized then s.settle call .resolved
  else { s with initialized := true }.waits call .initializing

def connect (walletId : WalletId) (call : Nat) (s : WalletManager) : WalletManager :=
  s.waits call (.detecting walletId)

/-- The session and the state after a disconnection. -/
def reset (s : WalletManager) : WalletManager :=
  let s := s.clearSession
  { s with state := { s.state with
      state := .disconnected, address := none, walletId := none, error := none } }

/-- What comes after a disconnection. -/
def proceed (next : Option WalletId) (call : Nat) (s : WalletManager) : WalletManager :=
  match next with
  | some walletId => s.connect walletId call
  | none => s.settle call .resolved

def disconnect (call : Nat) (s : WalletManager) : WalletManager :=
  match s.state.walletId with
  | some walletId => s.waits call (.disconnecting walletId none)
  | none => s.reset.settle call .resolved

def switchWallet (walletId : WalletId) (call : Nat) (s : WalletManager) : WalletManager :=
  match s.state.walletId with
  | some current => s.waits call (.disconnecting current (some walletId))
  | none => s.connect walletId call

/-- `initialize` once the wallets are known. -/
def restore (s : WalletManager) (call : Nat) (installed : WalletId → Bool) : WalletManager :=
  let s := { s with state := { s.state with wallets := some (walletMetadata installed) } }
  match s.loadSession with
  | some saved => s.waits call (.probing saved)
  | none => s.settle call .resolved

def afterProbe (s : WalletManager) (call : Nat) (saved : WalletSession) :
    Except Thrown Bool → WalletManager
  | .ok true => s.waits call (.restoring saved)
  | .ok false | .error _ => s.clearSession.settle call .resolved

def afterAddress (s : WalletManager) (call : Nat) (saved : WalletSession) :
    Except Thrown String → WalletManager
  | .ok address =>
      { s with state := { s.state with
          state := .connected, address := some address, walletId := some saved.walletId,
          error := none } }.settle call .resolved
  | .error _ => s.clearSession.settle call .resolved

/-- Whether `connect` goes on after `detect`. -/
def goesOn (walletId : WalletId) (isInstalled : Bool) : Bool :=
  isInstalled || walletId == .walletConnect

def afterDetect (s : WalletManager) (call : Nat) (walletId : WalletId) :
    Except Thrown Bool → WalletManager
  | .ok isInstalled =>
      if goesOn walletId isInstalled then
        { s with state := { s.state with state := .connecting, error := none } }.waits call
          (.connecting walletId)
      else s.settle call (.notInstalled (walletId.name ++ " is not installed") walletId)
  | .error thrown => s.settle call (.rejected thrown)

def afterConnect (s : WalletManager) (call : Nat) (walletId : WalletId) (saved : Bool) :
    Except Thrown String → WalletManager
  | .ok address =>
      let s := { s with state := { s.state with
        state := .connected, address := some address, walletId := some walletId, error := none } }
      (s.saveSession ⟨address, walletId, s.now⟩ saved).settle call .resolved
  | .error thrown =>
      { s with state := { s.state with
          state := .error, error := some (thrown.message.getD "Connection failed") } }.settle call
        (.rejected thrown)

def act (s : WalletManager) : Action → Option WalletManager
  | .initializeManager => some (s.enter initializeManager)
  | .connect walletId => some (s.enter (connect walletId))
  | .disconnect => some (s.enter disconnect)
  | .switchWallet walletId => some (s.enter (switchWallet walletId))
  | .clearError => some { s with state := { s.state with error := none } }
  | .detectWallets call installed =>
      match s.calls call with
      | some .initializing => some (s.restore call installed)
      | _ => none
  | .isConnected call answer =>
      match s.calls call with
      | some (.probing saved) => some (s.afterProbe call saved answer)
      | _ => none
  | .getAddress call answer =>
      match s.calls call with
      | some (.restoring saved) => some (s.afterAddress call saved answer)
      | _ => none
  | .detect call answer =>
      match s.calls call with
      | some (.detecting walletId) => some (s.afterDetect call walletId answer)
      | _ => none
  | .connected call answer saved =>
      match s.calls call with
      | some (.connecting walletId) => some (s.afterConnect call walletId saved answer)
      | _ => none
  | .disconnected call _ =>
      match s.calls call with
      | some (.disconnecting _ next) => some (s.reset.proceed next call)
      | _ => none
  | .tick ms => some { s with now := s.now + ms }

/-- A new manager, with whatever an earlier one has stored. -/
structure Fresh (s : WalletManager) : Prop where
  state : s.state = ⟨.disconnected, none, none, none, none⟩
  initialized : s.initialized = false
  calls : ∀ call, s.calls call = none

end WalletManager

def walletManager : TransitionSystem WalletManager Action where
  Initial := WalletManager.Fresh
  Step s a s' := s.act a = some s'

/-! ## What a step is about -/

inductive Turn
  /-- A connection is attempted, or has failed. -/
  | attempt
  | connection
  | disconnection
  | other
  deriving DecidableEq

def turn (t : Transition WalletManager Action) : Turn :=
  match t.action with
  | .disconnect => if t.before.state.walletId.isNone then .disconnection else .other
  | .disconnected .. => .disconnection
  | .detect call (.ok isInstalled) =>
      match t.before.calls call with
      | some (.detecting walletId) =>
          if WalletManager.goesOn walletId isInstalled then .attempt else .other
      | _ => .other
  | .connected _ (.error _) _ => .attempt
  | .connected _ (.ok _) _ | .getAddress _ (.ok _) => .connection
  | _ => .other

/-- The stored item. -/
def WalletManager.item (s : WalletManager) : Option Item := s.localStorage.join

/-- What the step does to the state and the storage. -/
inductive Effect (s s' : WalletManager) : Turn → Prop
  | attempt (state : s'.state.state = .connecting ∨ s'.state.state = .error)
      (address : s'.state.address = s.state.address)
      (walletId : s'.state.walletId = s.state.walletId) (item : s'.item = s.item) :
      Effect s s' .attempt
  | connection (state : s'.state.state = .connected) (address : s'.state.address.isSome)
      (walletId : s'.state.walletId.isSome) : Effect s s' .connection
  | disconnection (state : s'.state.state = .disconnected) (address : s'.state.address = none)
      (walletId : s'.state.walletId = none) (item : s'.item = none) : Effect s s' .disconnection
  | other (state : s'.state.state = s.state.state) (address : s'.state.address = s.state.address)
      (walletId : s'.state.walletId = s.state.walletId)
      (item : s'.item = s.item ∨ s'.item = none) : Effect s s' .other

/-- The call that the step is about. -/
inductive Touches (s s' : WalletManager) (kind : Turn) : Prop
  | begins (started : s'.started = s.started + 1)
      (others : ∀ k, k ≠ s.started → s'.calls k = s.calls k)
  /-- An answer to a disconnection ends it. -/
  | answers {call : Nat} {wait : Call} (waits : s.calls call = some wait)
      (ends : kind = .disconnection ∨ ∀ walletId next, wait ≠ .disconnecting walletId next)
      (started : s'.started = s.started) (others : ∀ k, k ≠ call → s'.calls k = s.calls k)
  | none (started : s'.started = s.started) (calls : s'.calls = s.calls)

section Steps

variable {s s' : WalletManager} {a : Action}

theorem item_clearSession (s : WalletManager) : s.clearSession.item = none := by
  unfold WalletManager.clearSession WalletManager.item
  cases s.localStorage <;> rfl

theorem Effect.same (state : s'.state.state = s.state.state)
    (address : s'.state.address = s.state.address) (walletId : s'.state.walletId = s.state.walletId)
    (item : s'.item = s.item) : Effect s s' .other :=
  .other state address walletId (.inl item)

/-- A call goes on, and leaves the other calls alone. -/
structure Continues (s s' : WalletManager) (call : Nat) (kind : Turn) : Prop where
  effect : Effect s s' kind
  started : s'.started = s.started
  others : ∀ k, k ≠ call → s'.calls k = s.calls k

namespace Continues

variable {call : Nat} {kind : Turn} {walletId : WalletId}

theorem others_of_update {calls : Nat → Option Call} {next : Option Call} (k : Nat)
    (hk : k ≠ call) : Function.update calls call next k = calls k :=
  Function.update_of_ne hk ..

/-- The number of a new call is taken first. -/
theorem begins (h : Continues { s with started := s.started + 1 } s' s.started kind) :
    Effect s s' kind ∧ Touches s s' kind :=
  ⟨by cases h.effect <;> constructor <;> assumption, .begins h.started h.others⟩

theorem answers (h : Continues s s' call kind) {wait : Call} (hwaits : s.calls call = some wait)
    (hends : kind = .disconnection ∨ ∀ walletId next, wait ≠ .disconnecting walletId next) :
    Effect s s' kind ∧ Touches s s' kind :=
  ⟨h.effect, .answers hwaits hends h.started h.others⟩

theorem clears (s : WalletManager) (settled : Settled) :
    Continues s (s.clearSession.settle call settled) call .other :=
  ⟨.other rfl rfl rfl (.inr (item_clearSession s)), rfl, others_of_update⟩

theorem initializeManager : Continues s (s.initializeManager call) call .other := by
  unfold WalletManager.initializeManager
  split
  next => exact ⟨.same rfl rfl rfl rfl, rfl, others_of_update⟩
  next => exact ⟨.same rfl rfl rfl rfl, rfl, others_of_update⟩

theorem connect : Continues s (s.connect walletId call) call .other :=
  ⟨.same rfl rfl rfl rfl, rfl, others_of_update⟩

theorem disconnect : Continues s (s.disconnect call) call
    (if s.state.walletId.isNone then .disconnection else .other) := by
  unfold WalletManager.disconnect
  cases s.state.walletId with
  | some current => exact ⟨.same rfl rfl rfl rfl, rfl, others_of_update⟩
  | none => exact ⟨.disconnection rfl rfl rfl (item_clearSession s), rfl, others_of_update⟩

theorem switchWallet : Continues s (s.switchWallet walletId call) call .other := by
  unfold WalletManager.switchWallet
  split
  next => exact ⟨.same rfl rfl rfl rfl, rfl, others_of_update⟩
  next => exact connect

theorem restore (installed : WalletId → Bool) :
    Continues s (s.restore call installed) call .other := by
  unfold WalletManager.restore
  dsimp only
  split
  next => exact ⟨.same rfl rfl rfl rfl, rfl, others_of_update⟩
  next => exact ⟨.same rfl rfl rfl rfl, rfl, others_of_update⟩

theorem afterProbe (saved : WalletSession) (answer : Except Thrown Bool) :
    Continues s (s.afterProbe call saved answer) call .other := by
  unfold WalletManager.afterProbe
  split
  next => exact ⟨.same rfl rfl rfl rfl, rfl, others_of_update⟩
  next => exact clears s _
  next => exact clears s _

theorem afterAddress (saved : WalletSession) (answer : Except Thrown String) :
    Continues s (s.afterAddress call saved answer) call
      (if answer.isOk then .connection else .other) := by
  cases answer with
  | ok address => exact ⟨.connection rfl rfl rfl, rfl, others_of_update⟩
  | error thrown => exact clears s _

theorem afterDetect (isInstalled : Bool) :
    Continues s (s.afterDetect call walletId (.ok isInstalled)) call
      (if WalletManager.goesOn walletId isInstalled then .attempt else .other) := by
  unfold WalletManager.afterDetect
  dsimp only
  split
  next => exact ⟨.attempt (.inl rfl) rfl rfl rfl, rfl, others_of_update⟩
  next => exact ⟨.same rfl rfl rfl rfl, rfl, others_of_update⟩

theorem afterConnect (walletId : WalletId) (saved : Bool) (answer : Except Thrown String) :
    Continues s (s.afterConnect call walletId saved answer) call
      (if answer.isOk then .connection else .attempt) := by
  cases answer with
  | ok address =>
      unfold WalletManager.afterConnect WalletManager.saveSession
      cases saved with
      | true => exact ⟨.connection rfl rfl rfl, rfl, others_of_update⟩
      | false => exact ⟨.connection rfl rfl rfl, rfl, others_of_update⟩
  | error thrown => exact ⟨.attempt (.inr rfl) rfl rfl rfl, rfl, others_of_update⟩

theorem proceed (next : Option WalletId) :
    Continues s (s.reset.proceed next call) call .disconnection := by
  have hitem := item_clearSession s
  cases next with
  | some walletId => exact ⟨.disconnection rfl rfl rfl hitem, rfl, others_of_update⟩
  | none => exact ⟨.disconnection rfl rfl rfl hitem, rfl, others_of_update⟩

end Continues

theorem act_spec (h : s.act a = some s') :
    Effect s s' (turn ⟨s, a, s'⟩) ∧ Touches s s' (turn ⟨s, a, s'⟩) := by
  cases a with
  | initializeManager =>
      obtain rfl := Option.some.inj h
      exact Continues.initializeManager.begins
  | connect walletId =>
      obtain rfl := Option.some.inj h
      exact Continues.connect.begins
  | disconnect =>
      obtain rfl := Option.some.inj h
      exact Continues.disconnect.begins
  | switchWallet walletId =>
      obtain rfl := Option.some.inj h
      exact Continues.switchWallet.begins
  | clearError =>
      obtain rfl := Option.some.inj h
      exact ⟨.same rfl rfl rfl rfl, .none rfl rfl⟩
  | detectWallets call installed =>
      simp only [WalletManager.act] at h
      split at h <;> try contradiction
      next hcall =>
        obtain rfl := Option.some.inj h
        exact (Continues.restore installed).answers hcall (.inr nofun)
  | isConnected call answer =>
      simp only [WalletManager.act] at h
      split at h <;> try contradiction
      next saved hcall =>
        obtain rfl := Option.some.inj h
        exact (Continues.afterProbe saved answer).answers hcall (.inr nofun)
  | getAddress call answer =>
      simp only [WalletManager.act] at h
      split at h <;> try contradiction
      next saved hcall =>
        obtain rfl := Option.some.inj h
        have hspec := (Continues.afterAddress saved answer).answers hcall (.inr nofun)
        cases answer <;> exact hspec
  | detect call answer =>
      simp only [WalletManager.act] at h
      split at h <;> try contradiction
      next walletId hcall =>
        obtain rfl := Option.some.inj h
        cases answer with
        | ok isInstalled =>
            simp only [turn, hcall]
            exact (Continues.afterDetect isInstalled).answers hcall (.inr nofun)
        | error thrown =>
            exact ⟨.same rfl rfl rfl rfl,
              .answers hcall (.inr nofun) rfl Continues.others_of_update⟩
  | connected call answer saved =>
      simp only [WalletManager.act] at h
      split at h <;> try contradiction
      next walletId hcall =>
        obtain rfl := Option.some.inj h
        have hspec := (Continues.afterConnect walletId saved answer).answers hcall (.inr nofun)
        cases answer <;> exact hspec
  | disconnected call answer =>
      simp only [WalletManager.act] at h
      split at h <;> try contradiction
      next walletId next hcall =>
        obtain rfl := Option.some.inj h
        exact (Continues.proceed next).answers hcall (.inl rfl)
  | tick ms =>
      obtain rfl := Option.some.inj h
      exact ⟨.same rfl rfl rfl rfl, .none rfl rfl⟩

end Steps

namespace Sample

def fresh : WalletManager where
  state := ⟨.disconnected, none, none, none, none⟩
  initialized := false
  localStorage := some none
  now := 0
  calls := fun _ => none
  settled := fun _ => none
  started := 0

theorem fresh_fresh : fresh.Fresh := ⟨rfl, rfl, fun _ => rfl⟩

theorem run_of_replay {s : WalletManager} {actions : List Action}
    {steps : List (Transition WalletManager Action)}
    (h : TransitionSystem.replay WalletManager.act fresh actions = some (steps, s)) :
    walletManager.Run fresh steps s :=
  TransitionSystem.Run.of_replay (fun _ _ _ hact => hact) h

end Sample

end StellarKraal.Wallet
