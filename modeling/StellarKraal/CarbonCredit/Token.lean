import StellarKraal.Foundation.Programs
import StellarKraal.Foundation.MachineArithmetic
import StellarKraal.Foundation.TransitionSystem
import StellarKraal.Contract.Types

/-!
# The carbon credit token

Balances and allowances, written by separate reads and writes of the instance
storage. The source does not compile as it stands; its slips of the pen are read
as the names they stand for, and the caller of `approve` is the owner who signs.
-/

namespace StellarKraal.CarbonCredit

open TransitionSystem (Transition)

inductive Error
  | negativeAmount
  | insufficientBalance
  | insufficientAllowance
  | unauthorized
  deriving DecidableEq, Repr

/-- How a call fails: with a typed error, or by a trap (authorisation, a missing
entry, an overflow check). -/
inductive Failure
  | error (e : Error)
  | trap
  deriving DecidableEq, Repr

structure AllowanceValue where
  amount : Int
  expirationLedger : Nat
  deriving DecidableEq, Repr

/-- The instance storage, the ledger it is read in and the published events. -/
structure State where
  sequence : Nat
  events : List Event := []
  admin : Option Address := none
  balances : KeyedStore Address Int := ∅
  allowances : KeyedStore (Address × Address) AllowanceValue := ∅

abbrev Program := EStateM Failure State

/-- The addresses whose `require_auth` succeeds, and who called the contract. -/
structure Env where
  signers : List Address
  caller : Address

/-! ## Building blocks -/

def requireAuth (env : Env) (who : Address) : Program Unit :=
  if who ∈ env.signers then pure () else throw .trap

/-- `if c { return Err(e) }`. -/
def refuseIf (c : Prop) [Decidable c] (e : Error) : Program Unit :=
  if c then throw (.error e) else pure ()

/-- `if c { … }`. -/
def provided (c : Prop) [Decidable c] (block : Program Unit) : Program Unit :=
  if c then block else pure ()

/-- An `expect`, or the overflow check of an operation. -/
def orTrap {α : Type} (o : Option α) : Program α :=
  match o with
  | some a => pure a
  | none => throw .trap

def publish (topics : List ScVal) (data : ScVal) : Program Unit :=
  modify fun w => { w with events := w.events ++ [⟨topics, data⟩] }

def balance (w : State) (owner : Address) : Int := w.balances.amountOf owner

/-- An allowance reads as nothing after its expiration ledger. -/
def allowance (w : State) (owner spender : Address) : Int :=
  match w.allowances.lookup (owner, spender) with
  | some value => if w.sequence ≤ value.expirationLedger then value.amount else 0
  | none => 0

def readBalance (addr : Address) : Program Int := return balance (← get) addr

def writeBalance (addr : Address) (amount : Int) : Program Unit :=
  modify fun w => { w with balances := w.balances.insert addr amount }

def readAdmin : Program Address := do orTrap (← get).admin

def readAllowance (owner spender : Address) : Program Int :=
  return allowance (← get) owner spender

/-- The two writes of a transfer: the receiver's balance is read after the
sender's was written. -/
def moveBalance (sender receiver : Address) (senderBalance amount : Int) : Program Unit := do
  writeBalance sender (← orTrap (I128.checkedSub senderBalance amount))
  let receiverBalance ← readBalance receiver
  writeBalance receiver (← orTrap (I128.checkedAdd receiverBalance amount))

/-- The entry itself is lowered, whether or not it has expired. -/
def spendAllowance (owner spender : Address) (amount : Int) : Program Unit := do
  match (← get).allowances.lookup (owner, spender) with
  | some value =>
      let left ← orTrap (I128.checkedSub value.amount amount)
      modify fun w => { w with
        allowances := w.allowances.insert (owner, spender) { value with amount := left } }
  | none => pure ()

/-! ## Entry points -/

/-- What `__constructor` leaves; its other entries are the token's metadata. -/
def construct (sequence : Nat) (admin : Address) : State where
  sequence := sequence
  admin := some admin

def transfer (env : Env) (sender receiver : Address) (amount : Int) : Program Unit := do
  requireAuth env sender
  refuseIf (amount < 0) .negativeAmount
  let senderBalance ← readBalance sender
  refuseIf (senderBalance < amount) .insufficientBalance
  provided (amount ≠ 0) (moveBalance sender receiver senderBalance amount)
  publish [.symbol "transfer", .address sender, .address receiver] (.i128 amount)

def transferFrom (env : Env) (spender sender receiver : Address) (amount : Int) :
    Program Unit := do
  requireAuth env spender
  refuseIf (amount < 0) .negativeAmount
  let allowed ← readAllowance sender spender
  refuseIf (allowed < amount) .insufficientAllowance
  let senderBalance ← readBalance sender
  refuseIf (senderBalance < amount) .insufficientBalance
  provided (amount ≠ 0) do
    spendAllowance sender spender amount
    moveBalance sender receiver senderBalance amount
  publish [.symbol "transfer", .address sender, .address receiver] (.i128 amount)

def approve (env : Env) (spender : Address) (amount : Int) (expirationLedger : Nat) :
    Program Unit := do
  let owner := env.caller
  requireAuth env owner
  refuseIf (amount < 0) .negativeAmount
  modify fun w => { w with
    allowances := w.allowances.insert (owner, spender) { amount, expirationLedger } }
  publish [.symbol "approve", .address owner, .address spender]
    (.vec [.i128 amount, .u32 expirationLedger])

def mint (env : Env) (receiver : Address) (amount : Int) : Program Unit := do
  requireAuth env (← readAdmin)
  refuseIf (amount < 0) .negativeAmount
  let receiverBalance ← readBalance receiver
  writeBalance receiver (← orTrap (I128.checkedAdd receiverBalance amount))
  publish [.symbol "mint", .address receiver] (.i128 amount)

def burn (env : Env) (sender : Address) (amount : Int) : Program Unit := do
  requireAuth env sender
  refuseIf (amount < 0) .negativeAmount
  let senderBalance ← readBalance sender
  refuseIf (senderBalance < amount) .insufficientBalance
  writeBalance sender (← orTrap (I128.checkedSub senderBalance amount))
  publish [.symbol "burn", .address sender] (.i128 amount)

def setAdmin (env : Env) (newAdmin : Address) : Program Unit := do
  requireAuth env (← readAdmin)
  modify fun w => { w with admin := some newAdmin }

/-! ## What the building blocks do -/

section Blocks

variable {w w' : State} {env : Env} {f : Failure} {u : Unit}

@[simp] theorem requireAuth_eq_ok {who : Address} :
    requireAuth env who w = .ok u w' ↔ who ∈ env.signers ∧ w = w' := by
  unfold requireAuth
  split
  · simp_all
  · simp_all

@[simp] theorem refuseIf_eq_ok {c : Prop} [Decidable c] {e : Error} :
    refuseIf c e w = .ok u w' ↔ ¬ c ∧ w = w' := by
  unfold refuseIf
  split
  · simp_all
  · simp_all

@[simp] theorem orTrap_eq_ok {α : Type} {o : Option α} {a : α} :
    orTrap o w = .ok a w' ↔ o = some a ∧ w = w' := by
  cases o with
  | none => simp [orTrap]
  | some a => simp [orTrap]

@[simp] theorem publish_eq_ok {topics : List ScVal} {data : ScVal} :
    publish topics data w = .ok u w' ↔ { w with events := w.events ++ [⟨topics, data⟩] } = w' :=
  EStateM.modify_eq_ok

@[simp] theorem readBalance_eq_ok {addr : Address} {amount : Int} :
    readBalance addr w = .ok amount w' ↔ balance w addr = amount ∧ w = w' := by
  simp only [readBalance, EStateM.bind_eq_ok, EStateM.get_eq_ok, EStateM.pure_eq_ok]
  constructor
  · rintro ⟨_, _, ⟨rfl, rfl⟩, h⟩
    exact h
  · exact fun h => ⟨w, w, ⟨rfl, rfl⟩, h⟩

@[simp] theorem writeBalance_eq_ok {addr : Address} {amount : Int} :
    writeBalance addr amount w = .ok u w' ↔
      { w with balances := w.balances.insert addr amount } = w' :=
  EStateM.modify_eq_ok

@[simp] theorem readAdmin_eq_ok {admin : Address} :
    readAdmin w = .ok admin w' ↔ w.admin = some admin ∧ w = w' := by
  simp only [readAdmin, EStateM.bind_eq_ok, EStateM.get_eq_ok, orTrap_eq_ok]
  constructor
  · rintro ⟨_, _, ⟨rfl, rfl⟩, h⟩
    exact h
  · exact fun h => ⟨w, w, ⟨rfl, rfl⟩, h⟩

@[simp] theorem readAllowance_eq_ok {owner spender : Address} {amount : Int} :
    readAllowance owner spender w = .ok amount w' ↔
      allowance w owner spender = amount ∧ w = w' := by
  simp only [readAllowance, EStateM.bind_eq_ok, EStateM.get_eq_ok, EStateM.pure_eq_ok]
  constructor
  · rintro ⟨_, _, ⟨rfl, rfl⟩, h⟩
    exact h
  · exact fun h => ⟨w, w, ⟨rfl, rfl⟩, h⟩

theorem provided_eq_ok {c : Prop} [Decidable c] {block : Program Unit} :
    provided c block w = .ok u w' ↔ (c ∧ block w = .ok u w') ∨ (¬ c ∧ w = w') := by
  unfold provided
  split
  · simp_all
  · simp_all

end Blocks

/-- The balances after a transfer, whoever the two parties are. -/
def moved (balances : KeyedStore Address Int) (sender receiver : Address) (amount : Int) :
    KeyedStore Address Int :=
  (balances.credit sender (-amount)).credit receiver amount

theorem moveBalance_ok {w w' : State} {sender receiver : Address} {amount : Int} {u : Unit}
    (h : moveBalance sender receiver (balance w sender) amount w = .ok u w') :
    w' = { w with balances := moved w.balances sender receiver amount } := by
  simp only [moveBalance, EStateM.bind_eq_ok, orTrap_eq_ok, I128.checkedSub_eq_some,
    I128.checkedAdd_eq_some, writeBalance_eq_ok, readBalance_eq_ok] at h
  obtain ⟨_, _, ⟨⟨-, rfl⟩, rfl⟩, _, _, rfl, _, _, ⟨rfl, rfl⟩, _, _, ⟨⟨-, rfl⟩, rfl⟩, rfl⟩ := h
  rfl

/-- The allowances after `amount` was spent from the entry under `key`, if there is one. -/
def spent (allowances : KeyedStore (Address × Address) AllowanceValue) (key : Address × Address)
    (amount : Int) : KeyedStore (Address × Address) AllowanceValue :=
  match allowances.lookup key with
  | some value => allowances.insert key { value with amount := value.amount - amount }
  | none => allowances

theorem spendAllowance_ok {w w' : State} {owner spender : Address} {amount : Int} {u : Unit}
    (h : spendAllowance owner spender amount w = .ok u w') :
    w' = { w with allowances := spent w.allowances (owner, spender) amount } := by
  simp only [spendAllowance, EStateM.bind_eq_ok, EStateM.get_eq_ok] at h
  obtain ⟨_, _, ⟨rfl, rfl⟩, h⟩ := h
  cases hentry : w.allowances.lookup (owner, spender) with
  | none =>
      simp only [hentry, EStateM.pure_eq_ok] at h
      rw [spent, hentry, ← h.2]
  | some value =>
      simp only [hentry, EStateM.bind_eq_ok, orTrap_eq_ok, I128.checkedSub_eq_some,
        EStateM.modify_eq_ok] at h
      obtain ⟨_, _, ⟨⟨-, rfl⟩, rfl⟩, rfl⟩ := h
      rw [spent, hentry]

/-! ## What a successful call did -/

section Calls

variable {w w' : State} {env : Env} {sender receiver spender : Address} {amount : Int} {u : Unit}

theorem transfer_ok (h : transfer env sender receiver amount w = .ok u w') :
    sender ∈ env.signers ∧ 0 ≤ amount ∧ amount ≤ balance w sender ∧
      w' = { w with
        balances := if amount = 0 then w.balances else moved w.balances sender receiver amount
        events := w.events ++
          [⟨[.symbol "transfer", .address sender, .address receiver], .i128 amount⟩] } := by
  simp only [transfer, EStateM.bind_eq_ok, requireAuth_eq_ok, refuseIf_eq_ok, readBalance_eq_ok,
    provided_eq_ok, publish_eq_ok, not_lt] at h
  obtain ⟨_, _, ⟨hauth, rfl⟩, _, _, ⟨hnonneg, rfl⟩, _, _, ⟨rfl, rfl⟩, _, _, ⟨hcovered, rfl⟩,
    _, _, hblock, rfl⟩ := h
  refine ⟨hauth, hnonneg, hcovered, ?_⟩
  rcases hblock with ⟨hne, hblock⟩ | ⟨hzero, rfl⟩
  · obtain rfl := moveBalance_ok hblock
    rw [if_neg hne]
  · rw [if_pos (not_not.mp hzero)]

theorem transferFrom_ok (h : transferFrom env spender sender receiver amount w = .ok u w') :
    spender ∈ env.signers ∧ 0 ≤ amount ∧ amount ≤ allowance w sender spender ∧
      amount ≤ balance w sender ∧
      w' = { w with
        balances := if amount = 0 then w.balances else moved w.balances sender receiver amount
        allowances :=
          if amount = 0 then w.allowances else spent w.allowances (sender, spender) amount
        events := w.events ++
          [⟨[.symbol "transfer", .address sender, .address receiver], .i128 amount⟩] } := by
  simp only [transferFrom, EStateM.bind_eq_ok, requireAuth_eq_ok, refuseIf_eq_ok,
    readAllowance_eq_ok, readBalance_eq_ok, provided_eq_ok, publish_eq_ok, not_lt] at h
  obtain ⟨_, _, ⟨hauth, rfl⟩, _, _, ⟨hnonneg, rfl⟩, _, _, ⟨rfl, rfl⟩, _, _, ⟨hallowed, rfl⟩,
    _, _, ⟨rfl, rfl⟩, _, _, ⟨hcovered, rfl⟩, _, _, hblock, rfl⟩ := h
  refine ⟨hauth, hnonneg, hallowed, hcovered, ?_⟩
  rcases hblock with ⟨hne, _, lowered, hspend, hmove⟩ | ⟨hzero, rfl⟩
  · obtain rfl := spendAllowance_ok hspend
    -- Spending leaves the balances alone, so the sender's is still the one that was read.
    obtain rfl := @moveBalance_ok
      { w with allowances := spent w.allowances (sender, spender) amount } _ _ _ _ _ hmove
    rw [if_neg hne, if_neg hne]
  · rw [if_pos (not_not.mp hzero), if_pos (not_not.mp hzero)]

theorem approve_ok {expirationLedger : Nat}
    (h : approve env spender amount expirationLedger w = .ok u w') :
    env.caller ∈ env.signers ∧ 0 ≤ amount ∧
      w' = { w with
        allowances := w.allowances.insert (env.caller, spender) ⟨amount, expirationLedger⟩
        events := w.events ++ [⟨[.symbol "approve", .address env.caller, .address spender],
          .vec [.i128 amount, .u32 expirationLedger]⟩] } := by
  simp only [approve, EStateM.bind_eq_ok, requireAuth_eq_ok, refuseIf_eq_ok,
    EStateM.modify_eq_ok, publish_eq_ok, not_lt] at h
  obtain ⟨_, _, ⟨hauth, rfl⟩, _, _, ⟨hnonneg, rfl⟩, _, _, rfl, rfl⟩ := h
  exact ⟨hauth, hnonneg, rfl⟩

theorem mint_ok (h : mint env receiver amount w = .ok u w') :
    ∃ admin, w.admin = some admin ∧ admin ∈ env.signers ∧ 0 ≤ amount ∧
      w' = { w with
        balances := w.balances.credit receiver amount
        events := w.events ++ [⟨[.symbol "mint", .address receiver], .i128 amount⟩] } := by
  simp only [mint, EStateM.bind_eq_ok, readAdmin_eq_ok, requireAuth_eq_ok, refuseIf_eq_ok,
    readBalance_eq_ok, orTrap_eq_ok, I128.checkedAdd_eq_some, writeBalance_eq_ok, publish_eq_ok,
    not_lt] at h
  obtain ⟨admin, _, ⟨hadmin, rfl⟩, _, _, ⟨hauth, rfl⟩, _, _, ⟨hnonneg, rfl⟩, _, _, ⟨rfl, rfl⟩,
    _, _, ⟨⟨-, rfl⟩, rfl⟩, _, _, rfl, rfl⟩ := h
  exact ⟨admin, hadmin, hauth, hnonneg, rfl⟩

theorem burn_ok (h : burn env sender amount w = .ok u w') :
    sender ∈ env.signers ∧ 0 ≤ amount ∧ amount ≤ balance w sender ∧
      w' = { w with
        balances := w.balances.credit sender (-amount)
        events := w.events ++ [⟨[.symbol "burn", .address sender], .i128 amount⟩] } := by
  simp only [burn, EStateM.bind_eq_ok, requireAuth_eq_ok, refuseIf_eq_ok, readBalance_eq_ok,
    orTrap_eq_ok, I128.checkedSub_eq_some, writeBalance_eq_ok, publish_eq_ok, not_lt] at h
  obtain ⟨_, _, ⟨hauth, rfl⟩, _, _, ⟨hnonneg, rfl⟩, _, _, ⟨rfl, rfl⟩, _, _, ⟨hcovered, rfl⟩,
    _, _, ⟨⟨-, rfl⟩, rfl⟩, _, _, rfl, rfl⟩ := h
  exact ⟨hauth, hnonneg, hcovered, rfl⟩

theorem setAdmin_ok {newAdmin : Address} (h : setAdmin env newAdmin w = .ok u w') :
    ∃ admin, w.admin = some admin ∧ admin ∈ env.signers ∧
      w' = { w with admin := some newAdmin } := by
  simp only [setAdmin, EStateM.bind_eq_ok, readAdmin_eq_ok, requireAuth_eq_ok,
    EStateM.modify_eq_ok] at h
  obtain ⟨admin, _, ⟨hadmin, rfl⟩, _, _, ⟨hauth, rfl⟩, rfl⟩ := h
  exact ⟨admin, hadmin, hauth, rfl⟩

end Calls

/-! ## The contract as a transition system -/

inductive Call
  | transfer (sender receiver : Address) (amount : Int)
  | transferFrom (spender sender receiver : Address) (amount : Int)
  | approve (spender : Address) (amount : Int) (expirationLedger : Nat)
  | mint (receiver : Address) (amount : Int)
  | burn (sender : Address) (amount : Int)
  | setAdmin (newAdmin : Address)

def Call.program (env : Env) : Call → Program Unit
  | .transfer sender receiver amount => CarbonCredit.transfer env sender receiver amount
  | .transferFrom spender sender receiver amount =>
      CarbonCredit.transferFrom env spender sender receiver amount
  | .approve spender amount expirationLedger =>
      CarbonCredit.approve env spender amount expirationLedger
  | .mint receiver amount => CarbonCredit.mint env receiver amount
  | .burn sender amount => CarbonCredit.burn env sender amount
  | .setAdmin newAdmin => CarbonCredit.setAdmin env newAdmin

/-- The state after a call; the host rolls back what a failed one has written. -/
def State.invoke (env : Env) (w : State) (call : Call) : State :=
  match call.program env w with
  | .ok _ w' => w'
  | .error _ _ => w

/-- Whether the call succeeds. -/
def Call.succeeds (env : Env) (w : State) (call : Call) : Bool :=
  match call.program env w with
  | .ok _ _ => true
  | .error _ _ => false

inductive Action
  | call (env : Env) (call : Call)
  | close (sequence : Nat)

/-- Calls with any signers, caller and arguments, and ledgers closing. -/
def system : TransitionSystem State Action where
  Initial w := ∃ sequence admin, w = construct sequence admin
  Step w a w' :=
    match a with
    | .call env call => w' = w.invoke env call
    | .close sequence => w.sequence ≤ sequence ∧ sequence ≤ U32.MAX ∧ w' = { w with sequence }

/-- The step is a call that succeeded. -/
structure Executed (t : Transition State Action) (env : Env) (call : Call) : Prop where
  action : t.action = .call env call
  run : call.program env t.before = .ok () t.after

theorem Executed.succeeds {t : Transition State Action} {env : Env} {call : Call}
    (h : Executed t env call) : call.succeeds env t.before = true := by
  rw [Call.succeeds, h.run]

/-- A step is a call that succeeded, or a failed call or a ledger, which leave all
entries alone. -/
theorem step_cases {w w' : State} {a : Action} (h : system.Step w a w') :
    (∃ env call, Executed ⟨w, a, w'⟩ env call) ∨
      (∀ env call, a = .call env call → call.succeeds env w = false) ∧
        ∃ sequence, w.sequence ≤ sequence ∧ w' = { w with sequence } := by
  cases a with
  | call env call =>
      obtain rfl := h
      cases hrun : call.program env w with
      | ok u w' => exact .inl ⟨env, call, rfl, by simp [State.invoke, hrun]⟩
      | error e w' =>
          refine .inr ⟨?_, w.sequence, le_rfl, by simp [State.invoke, hrun]⟩
          intro env' call' haction
          obtain ⟨rfl, rfl⟩ := Action.call.inj haction
          rw [Call.succeeds, hrun]
  | close sequence =>
      obtain ⟨hle, -, rfl⟩ := h
      exact .inr ⟨fun _ _ haction => (nomatch haction), sequence, hle, rfl⟩

/-- The steps, computed. -/
def State.perform (w : State) : Action → Option State
  | .call env call => some (w.invoke env call)
  | .close sequence =>
      if w.sequence ≤ sequence ∧ sequence ≤ U32.MAX then some { w with sequence } else none

theorem step_of_perform {w w' : State} {a : Action} (h : w.perform a = some w') :
    system.Step w a w' := by
  cases a with
  | call env call => exact (Option.some.inj h).symm
  | close sequence =>
      simp only [State.perform, Option.ite_none_right_eq_some, Option.some.injEq] at h
      exact ⟨h.1.1, h.1.2, h.2.symm⟩

theorem Run.of_script {w w' : State} (script : List Action)
    {steps : List (Transition State Action)}
    (h : TransitionSystem.replay State.perform w script = some (steps, w')) :
    system.Run w steps w' :=
  TransitionSystem.Run.of_replay (fun _ _ _ => step_of_perform) h

/-! Accounts for concrete scripts, each call signed and made by one of them. -/

namespace Sample

def admin : Address := .account 1
def user1 : Address := .account 2
def user2 : Address := .account 3

def signedBy (who : Address) (call : Call) : Action := .call ⟨[who], who⟩ call

end Sample

end StellarKraal.CarbonCredit
