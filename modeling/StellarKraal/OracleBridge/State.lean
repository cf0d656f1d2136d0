import StellarKraal.Foundation.ScriptGuarantee
import StellarKraal.OracleBridge.Json
import Mathlib.Control.Monad.Basic

/-!
# The oracle bridge's files

An instance keeps its state in a JSON file of its own and shares the latest backup
with the others. Code reads and writes whole files; what it reads is whatever the
file parses to, cast to the type it expects.
-/

namespace StellarKraal.OracleBridge

/-! ## Configuration and state -/

/-- The two values of `BRIDGE_ROLE`. -/
inductive BridgeRole
  | primary
  | standby
  deriving DecidableEq, Repr

def BridgeRole.toJson : BridgeRole → Json
  | .primary => .string "primary"
  | .standby => .string "standby"

structure BridgeConfig where
  role : BridgeRole
  network : String
  rpcUrl : String
  contractId : String
  signingKeySecretRef : String

/-- A `BridgeState`, with whatever other fields its file has. -/
abbrev BridgeState := JsonObject

def BridgeState.withRole (state : BridgeState) (role : BridgeRole) : BridgeState :=
  state.set "role" (some role.toJson)

/-! ## Files -/

inductive File
  | missing
  /-- Text that is not JSON. -/
  | malformed
  | holds (value : Json)

/-- What a throw carries; the texts only reach the log. -/
inductive BridgeError
  | malformedFile
  | noState
  | noBackup
  | unsupportedFormatVersion (formatVersion : Option Json)
  | missingRequiredField (field : String)
  /-- A property of `undefined` or `null` was read. -/
  | typeError
  | unresolvedSecret (ref : Option Json)

/-- Accesses to the files of one instance and to the shared `latest.json`, the clock
and the secrets provider. -/
inductive Query
  | readState
  | writeState (state : BridgeState)
  | readLatest
  | writeLatest (manifest : Json)
  | now
  | resolveSecret (ref : Option Json)

/-- The provider may throw, which is `none`. -/
def Query.Reply : Query → Type
  | .readState => File
  | .writeState _ => Unit
  | .readLatest => File
  | .writeLatest _ => Unit
  | .now => String
  | .resolveSecret _ => Option String

/-- Code that may throw. -/
abbrev Operation := ExceptT BridgeError (Script Query.Reply)

namespace Operation

def ask (query : Query) : Operation query.Reply :=
  ExceptT.mk (.ask query fun reply => .done (.ok reply))

end Operation

open Operation (ask)

/-- `JSON.parse` of a file read whole; `none` where there is no file. -/
def parseFile : File → Operation (Option Json)
  | .missing => pure none
  | .malformed => throw .malformedFile
  | .holds value => pure (some value)

/-! ## The state file -/

/-- The state on disk; a file that says `null` counts as none. -/
def loadState : Operation (Option Json) := do
  match ← parseFile (← ask .readState) with
  | none | some .null => return none
  | some value => return some value

def saveState (state : BridgeState) : Operation BridgeState := do
  let next := state.set "updatedAt" (some (.string (← ask .now)))
  ask (.writeState next)
  return next

def defaultState (config : BridgeConfig) : Operation BridgeState := do
  return [("role", config.role.toJson), ("contractId", .string config.contractId),
    ("network", .string config.network), ("rpcUrl", .string config.rpcUrl),
    ("signingKeySecretRef", .string config.signingKeySecretRef), ("lastSubmittedPrice", .null),
    ("lastSubmittedAt", .null), ("lastProcessedLedger", .number 0),
    ("updatedAt", .string (← ask .now))]

def loadOrInitState (config : BridgeConfig) : Operation BridgeState := do
  match ← loadState with
  | some value => return value.fields
  | none => defaultState config

/-! ## Backups -/

/-- The snapshot behind `latest.json`; the copy under its own name is read by nobody. -/
def createBackup : Operation Unit := do
  match ← loadState with
  | none => throw .noState
  | some state =>
      if state.truthy then
        ask (.writeLatest (.object [("formatVersion", .number 1),
          ("createdAt", .string (← ask .now)), ("state", state)]))
      else throw .noState

def readLatestBackup : Operation (Option Json) := do
  parseFile (← ask .readLatest)

def requiredFields : List String := ["contractId", "network", "rpcUrl", "signingKeySecretRef"]

/-- The state in a manifest that passes the checks of a restore. -/
def checkedState (manifest : Json) : Except BridgeError BridgeState :=
  let formatVersion := manifest.fields.get "formatVersion"
  match formatVersion with
  | some (.number 1) =>
      match manifest.fields.get "state" with
      | none | some .null => throw .typeError
      | some state =>
          match requiredFields.find? fun field => !(state.fields.get field).any Json.truthy with
          | some field => throw (.missingRequiredField field)
          | none => return state.fields
  | _ => throw (.unsupportedFormatVersion formatVersion)

/-- Restoring the latest backup. Without `asRole` the result takes the role that is
in the backup. -/
def restoreFromBackup (asRole : Option BridgeRole) : Operation BridgeState := do
  match ← readLatestBackup with
  | none => throw .noBackup
  | some manifest =>
      if manifest.truthy then
        let state ← ExceptT.mk (.done (checkedState manifest))
        saveState (state.set "role" ((asRole.map BridgeRole.toJson) <|> state.get "role"))
      else throw .noBackup

end StellarKraal.OracleBridge
