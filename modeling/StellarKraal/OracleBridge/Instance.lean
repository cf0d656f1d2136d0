import StellarKraal.OracleBridge.Promotion

/-!
# A running instance

The bridge process: what it does when it starts, and the callbacks of its timers.
A callback runs to its end before the next one starts, but other processes reach
the same files in between its accesses.
-/

namespace StellarKraal.OracleBridge

open Operation (ask)

/-- Which timers are set: none before the start is over, the sync timer, the submit
and backup timers, or none after a switch that failed. -/
inductive Mode
  | starting
  | standby
  | primary
  | stuck
  deriving DecidableEq, Repr

/-- The mode and the state in memory after a callback; `none` if the process exits. -/
abbrev Outcome := Option (Mode × BridgeState)

/-! ## Roles -/

/-- `role === 'primary'`. -/
def saysPrimary : Option Json → Bool
  | some (.string role) => role = "primary"
  | _ => false

def BridgeState.isPrimary (state : BridgeState) : Bool := saysPrimary (state.get "role")

def File.isPrimary (file : File) : Bool := saysPrimary file.role

/-! ## The callbacks -/

/-- Apart from setting the timers it takes one backup; errors are logged. -/
def startPrimaryLoops : Script Query.Reply Unit := do
  let _ ← createBackup.run
  return ()

/-- The sync timer is cleared first, so a throw leaves the process without timers. -/
def switchToPrimary (config : BridgeConfig) (state : BridgeState) : Script Query.Reply Outcome := do
  match ← (loadOrInitState config).run with
  | .error _ => return some (.stuck, state)
  | .ok loaded =>
      startPrimaryLoops
      return some (.primary, loaded)

def syncFromBackup (config : BridgeConfig) : Operation BridgeState := do
  let _ ← restoreFromBackup (some .standby)
  loadOrInitState config

/-- The warm-sync half of a tick; an error is logged, and the old state is kept. -/
def warmSync (config : BridgeConfig) (state : BridgeState) : Script Query.Reply Outcome := do
  match ← (syncFromBackup config).run with
  | .error _ => return some (.standby, state)
  | .ok synced => return some (.standby, synced)

def tick (config : BridgeConfig) (state : BridgeState) : Script Query.Reply Outcome := do
  match ← loadState.run with
  | .error _ => return some (.standby, state)
  | .ok onDisk =>
      if BridgeState.isPrimary (onDisk.elim [] Json.fields) then switchToPrimary config state
      else warmSync config state

/-- `lastProcessedLedger + 1`, whatever the file had there; `NaN` is written as `null`,
and composite values are not followed further. -/
def nextLedger : Option Json → Json
  | some (.number n) => .number (n + 1)
  | some .null => .number 1
  | some (.bool b) => .number (if b then 2 else 1)
  | some (.string s) => .string (s ++ "1")
  | some (.array _) | some (.object _) | none => .null

/-- The state after a submission that got through. -/
def BridgeState.submitted (state : BridgeState) (price : Rat) (submittedAt : String) :
    BridgeState :=
  JsonObject.set
    (JsonObject.set (state.set "lastSubmittedPrice" (some (.number price))) "lastSubmittedAt"
      (some (.string submittedAt)))
    "lastProcessedLedger" (some (nextLedger (state.get "lastProcessedLedger")))

def startup (config : BridgeConfig) : Script Query.Reply Outcome := do
  match ← (loadOrInitState config).run with
  | .error _ => return none
  | .ok state =>
      let _ ← (saveState state).run
      if state.isPrimary then
        startPrimaryLoops
        return some (.primary, state)
      else return some (.standby, state)

/-- The timers' callbacks. A submission is one once its price is through; what goes
before touches no file, and one that fails is only logged. -/
inductive Callback
  | tick
  | backup
  | submitted (price : Rat) (submittedAt : String)

def Callback.mode : Callback → Mode
  | .tick => .standby
  | .backup | .submitted _ _ => .primary

def Callback.script (config : BridgeConfig) (state : BridgeState) :
    Callback → Script Query.Reply Outcome
  | .tick => OracleBridge.tick config state
  | .backup => do
      let _ ← createBackup.run
      return some (.primary, state)
  | .submitted price submittedAt => do
      let _ ← (saveState (state.submitted price submittedAt)).run
      return some (.primary, state.submitted price submittedAt)

/-! ## A process and its directory -/

structure Process where
  config : BridgeConfig
  mode : Mode
  /-- The `state` variable. -/
  state : BridgeState
  /-- What is left of the callback in progress. -/
  running : Option (Script Query.Reply Outcome)

namespace Process

def started (config : BridgeConfig) : Process := ⟨config, .starting, [], some (startup config)⟩

/-- The process with `rest` left to do; `none` if it exits. -/
def continued (process : Process) : Script Query.Reply Outcome → Option Process
  | .done none => none
  | .done (some (mode, state)) => some { process with mode, state, running := none }
  | .ask query next => some { process with running := some (.ask query next) }

/-- An idle process has come to its present mode and state. -/
def rest (process : Process) : Script Query.Reply Outcome :=
  process.running.getD (.done (some (process.mode, process.state)))

theorem continued_rest {process process' : Process} {rest : Script Query.Reply Outcome}
    (h : process.continued rest = some process') : process'.rest = rest := by
  cases rest with
  | done outcome =>
      cases outcome with
      | none => contradiction
      | some result =>
          obtain rfl := Option.some.inj h
          rfl
  | ask query next =>
      obtain rfl := Option.some.inj h
      rfl

/-- Only a callback that ends changes the mode. -/
theorem continued_mode {process process' : Process} {rest : Script Query.Reply Outcome}
    (h : process.continued rest = some process') : process'.config = process.config ∧
      (process'.mode = process.mode ∨ process'.running = none) := by
  cases rest with
  | done outcome =>
      cases outcome with
      | none => contradiction
      | some result =>
          obtain rfl := Option.some.inj h
          exact ⟨rfl, .inr rfl⟩
  | ask query next =>
      obtain rfl := Option.some.inj h
      exact ⟨rfl, .inl rfl⟩

end Process

/-- A state directory, with the bridge process and the `promote` commands on it.
A promotion that has ended is a script that is done. -/
structure Site where
  file : File
  process : Option Process
  promotions : List (Script Query.Reply (Except BridgeError BridgeState))
  /-- Whether a process that stopped here was in primary mode. -/
  formerPrimary : Bool

namespace Site

inductive Action
  | start (config : BridgeConfig)
  | stop
  /-- A timer fires while no callback is in progress. -/
  | fire (callback : Callback)
  /-- The callback in progress makes its next access, and with the last one ends. -/
  | advance (outside : Outside)
  | promote
  /-- The same of the `k`-th promotion. -/
  | advancePromotion (k : Nat) (outside : Outside)

/-- One action at a site, with the latest backup before and after it. -/
def act (site : Site) (latest : File) : Action → Option (Site × File)
  | .start config =>
      match site.process with
      | none => some ({ site with process := some (.started config) }, latest)
      | some _ => none
  | .stop => do
      let process ← site.process
      let formerPrimary := site.formerPrimary || process.mode = .primary
      return ({ site with process := none, formerPrimary }, latest)
  | .fire callback => do
      let process ← site.process
      if process.running.isNone ∧ callback.mode = process.mode then
        let script := callback.script process.config process.state
        return ({ site with process := some { process with running := some script } }, latest)
      else none
  | .advance outside => do
      let process ← site.process
      let script ← process.running
      let (rest, files) := script.step (serve outside) ⟨site.file, latest⟩
      return ({ site with file := files.state, process := process.continued rest }, files.latest)
  | .promote =>
      some ({ site with promotions := site.promotions ++ [OracleBridge.promote.run] }, latest)
  | .advancePromotion k outside => do
      let script ← site.promotions[k]?
      let (rest, files) := script.step (serve outside) ⟨site.file, latest⟩
      return ({ site with file := files.state, promotions := site.promotions.set k rest },
        files.latest)

/-- What an action that is possible does. -/
inductive Effect (site : Site) (latest : File) : Action → Site → File → Prop
  | start (config : BridgeConfig) (hprocess : site.process = none) :
      Effect site latest (.start config) { site with process := some (.started config) } latest
  | stop {process : Process} (hprocess : site.process = some process) :
      Effect site latest .stop { site with
        process := none, formerPrimary := site.formerPrimary || process.mode = .primary } latest
  | fire {process : Process} (callback : Callback) (hprocess : site.process = some process)
      (hidle : process.running = none) (hmode : callback.mode = process.mode) :
      Effect site latest (.fire callback) { site with
        process := some { process with
          running := some (callback.script process.config process.state) } } latest
  | advance {process : Process} {script : Script Query.Reply Outcome} (outside : Outside)
      (hprocess : site.process = some process) (hrunning : process.running = some script) :
      Effect site latest (.advance outside) { site with
        file := (script.step (serve outside) ⟨site.file, latest⟩).2.state
        process := process.continued (script.step (serve outside) ⟨site.file, latest⟩).1 }
        (script.step (serve outside) ⟨site.file, latest⟩).2.latest
  | promote : Effect site latest .promote { site with
      promotions := site.promotions ++ [OracleBridge.promote.run] } latest
  | advancePromotion {k : Nat} {script : Script Query.Reply (Except BridgeError BridgeState)}
      (outside : Outside) (hk : site.promotions[k]? = some script) :
      Effect site latest (.advancePromotion k outside) { site with
        file := (script.step (serve outside) ⟨site.file, latest⟩).2.state
        promotions := site.promotions.set k
          (script.step (serve outside) ⟨site.file, latest⟩).1 }
        (script.step (serve outside) ⟨site.file, latest⟩).2.latest

theorem Effect.of_act {site site' : Site} {latest latest' : File} {action : Action}
    (h : site.act latest action = some (site', latest')) :
    Effect site latest action site' latest' := by
  cases action with
  | start config =>
      simp only [act] at h
      split at h
      next hprocess =>
        obtain ⟨rfl, rfl⟩ := Prod.mk.inj (Option.some.inj h)
        exact .start config hprocess
      next => contradiction
  | stop =>
      obtain ⟨process, hprocess, hstop⟩ := Option.bind_eq_some_iff.mp h
      obtain ⟨rfl, rfl⟩ := Prod.mk.inj (Option.some.inj hstop)
      exact .stop hprocess
  | fire callback =>
      obtain ⟨process, hprocess, hfire⟩ := Option.bind_eq_some_iff.mp h
      split at hfire
      next hready =>
        obtain ⟨rfl, rfl⟩ := Prod.mk.inj (Option.some.inj hfire)
        exact .fire callback hprocess (by simpa using hready.1) hready.2
      next => contradiction
  | advance outside =>
      obtain ⟨process, hprocess, hadvance⟩ := Option.bind_eq_some_iff.mp h
      obtain ⟨script, hrunning, hadvance⟩ := Option.bind_eq_some_iff.mp hadvance
      obtain ⟨rfl, rfl⟩ := Prod.mk.inj (Option.some.inj hadvance)
      exact .advance outside hprocess hrunning
  | promote =>
      obtain ⟨rfl, rfl⟩ := Prod.mk.inj (Option.some.inj h)
      exact .promote
  | advancePromotion k outside =>
      obtain ⟨script, hk, hadvance⟩ := Option.bind_eq_some_iff.mp h
      obtain ⟨rfl, rfl⟩ := Prod.mk.inj (Option.some.inj hadvance)
      exact .advancePromotion outside hk

end Site

end StellarKraal.OracleBridge
