import Mathlib.Data.Finset.Card
import Mathlib.Logic.Function.Basic
import StellarKraal.Auth.Session
import StellarKraal.Foundation.History
import StellarKraal.Foundation.ScriptGuarantee

/-!
# Rate-limit counters in the database

The store behind the limiters keeps a row for each key. A request increments its
key's row when it starts, with two queries between which those of other requests are
served. A limiter that skips successful requests decrements the key's row again when
the response has been sent.
-/

namespace StellarKraal.RateLimit

open Auth (AuthenticatedAs Jwt)
open TransitionSystem (Transition HistoryVariable)

/-! ## The store -/

structure Row where
  hits : Int
  resetTime : Nat
  deriving DecidableEq, Repr

/-- The `rateLimit` rows by their key. -/
abbrev Table := String → Option Row

structure IncrementResponse where
  totalHits : Int
  resetTime : Nat
  deriving DecidableEq, Repr

inductive Query
  | now
  /-- `deleteMany` of the rows with a `resetTime` before `now`. -/
  | deleteExpired (now : Nat)
  | upsert (key : String) (resetTime : Nat)

/-- Queries on the table may throw. -/
def Query.Reply : Query → Type
  | .now => Nat
  | .deleteExpired _ => Option Unit
  | .upsert _ _ => Option Row

/-- The clock, and whether the query is one that fails. -/
structure Outside where
  now : Nat
  fails : Bool

def Table.deleteExpired (table : Table) (now : Nat) : Table := fun key =>
  (table key).filter fun row => !decide (row.resetTime < now)

/-- The row after another hit. -/
def Table.hit (table : Table) (key : String) (resetTime : Nat) : Row :=
  match table key with
  | some row => { row with hits := row.hits + 1 }
  | none => ⟨1, resetTime⟩

def serve (outside : Outside) : Script.Service Query.Reply Table
  | .now, table => (outside.now, table)
  | .deleteExpired now, table =>
      if outside.fails then (none, table) else (some (), table.deleteExpired now)
  | .upsert key resetTime, table =>
      if outside.fails then (none, table)
      else
        let record := table.hit key resetTime
        (some record, Function.update table key (some record))

def ask (query : Query) : Script Query.Reply query.Reply := .ask query .done

/-- The second query of an increment; `none` where it throws. -/
def upsert (key : String) (resetTime : Nat) : Script Query.Reply (Option IncrementResponse) := do
  let record : Option Row ← ask (.upsert key resetTime)
  return record.map fun record => ⟨record.hits, record.resetTime⟩

def increment (windowMs : Nat) (key : String) :
    Script Query.Reply (Option IncrementResponse) := do
  let now : Nat ← ask .now
  let deleted : Option Unit ← ask (.deleteExpired now)
  match deleted with
  | none => return none
  | some () => upsert key (now + windowMs)

def decrement (outside : Outside) (key : String) (table : Table) : Table :=
  match table key with
  | some row =>
      if outside.fails then table
      else Function.update table key (some { row with hits := row.hits - 1 })
  | none => table

/-! ## Limiters and requests -/

/-- What `rateLimit` is configured with, as far as it concerns the counters. -/
structure Limiter (Req : Type) where
  keyGenerator : Req → String
  windowMs : Nat
  skipSuccessfulRequests : Bool

inductive Phase
  /-- In the limiter. -/
  | counting (rest : Script Query.Reply (Option IncrementResponse))
  | counted (response : IncrementResponse)
  /-- The store threw. -/
  | failed
  /-- A successful response has been sent. -/
  | finished

def Phase.ofScript : Script Query.Reply (Option IncrementResponse) → Phase
  | .done (some response) => counted response
  | .done none => failed
  | .ask query next => counting (.ask query next)

structure Request (Req : Type) where
  limiter : Limiter Req
  req : Req
  phase : Phase

def Request.key {Req : Type} (request : Request Req) : String :=
  request.limiter.keyGenerator request.req

structure Server (Req : Type) where
  table : Table
  requests : Nat → Option (Request Req)

inductive Action (Req : Type)
  | arrive (id : Nat) (limiter : Limiter Req) (req : Req)
  /-- The next query of the request's increment. -/
  | query (id : Nat) (outside : Outside)
  /-- The response has been sent, and was a success. -/
  | succeed (id : Nat) (outside : Outside)

namespace Server

variable {Req : Type}

def withRequest (s : Server Req) (id : Nat) (request : Request Req) : Server Req :=
  { s with requests := Function.update s.requests id (some request) }

def act (s : Server Req) : Action Req → Option (Server Req)
  | .arrive id limiter req =>
      match s.requests id with
      | some _ => none
      | none => some (s.withRequest id
          ⟨limiter, req, .ofScript (increment limiter.windowMs (limiter.keyGenerator req))⟩)
  | .query id outside => do
      let request ← s.requests id
      match request.phase with
      | .counting script =>
          let (rest, table) := script.step (serve outside) s.table
          return { s with table }.withRequest id { request with phase := .ofScript rest }
      | _ => none
  | .succeed id outside => do
      let request ← s.requests id
      match request.phase with
      | .counted _ =>
          let table :=
            if request.limiter.skipSuccessfulRequests then decrement outside request.key s.table
            else s.table
          return { s with table }.withRequest id { request with phase := .finished }
      | _ => none

/-- A server that has had no requests, over a table without rows. -/
def Fresh (s : Server Req) : Prop := (∀ key, s.table key = none) ∧ ∀ id, s.requests id = none

end Server

def limiting (Req : Type) : TransitionSystem (Server Req) (Action Req) where
  Initial := Server.Fresh
  Step s a s' := s.act a = some s'

/-! ## The limiters of the server -/

/-- `${req.ip}`. -/
def ipText (req : Auth.Request) : String := req.ip.getD "undefined"

def userOrIpKeyGenerator (req : Auth.Request) : String :=
  match req.user.bind fun user => user.get "id" with
  | some id => if id.truthy then "user:" ++ id.toText else "ip:" ++ ipText req
  | none => "ip:" ++ ipText req

structure Settings where
  rateLimitWindowMs : Nat
  rateLimitAuthBlockDurationMs : Nat

def globalLimiter (env : Settings) : Limiter Auth.Request where
  keyGenerator := userOrIpKeyGenerator
  windowMs := env.rateLimitWindowMs
  skipSuccessfulRequests := false

def authLimiter (env : Settings) : Limiter Auth.Request where
  keyGenerator req := "auth:" ++ ipText req
  windowMs := env.rateLimitAuthBlockDurationMs
  skipSuccessfulRequests := true

def expensiveOpLimiter : Limiter Auth.Request where
  keyGenerator req := "expensive:" ++ userOrIpKeyGenerator req
  windowMs := 60 * 1000
  skipSuccessfulRequests := false

/-- The users of issued tokens are looked up by a field the tokens do not have. -/
theorem userOrIpKeyGenerator_of_authenticated {jwt : Jwt} (hjwt : jwt.Faithful) {userId : String}
    {req : Auth.Request} (h : AuthenticatedAs jwt userId req) :
    userOrIpKeyGenerator req = "ip:" ++ ipText req := by
  obtain ⟨user, huser, -, hid⟩ := h.exists_user hjwt
  simp [userOrIpKeyGenerator, huser, hid]

end StellarKraal.RateLimit
