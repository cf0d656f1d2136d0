import Mathlib.Data.List.Infix
import StellarKraal.Auth.OneLogin
import StellarKraal.Auth.Session
import StellarKraal.Foundation.KeyedStore
import StellarKraal.Foundation.TextInput

/-!
# Accounts and who speaks for them

From the challenge to a request that is let in: a login verifies a signature, looks up or
creates the user of the key, and issues a token, and later requests show the token. The
handlers stop at every query, and the process may be started again with other secrets.
-/

namespace StellarKraal.Auth

open OracleBridge (Json JsonObject)
open TextInput (trim)
open TransitionSystem (Transition)

/-! ## The handlers -/

/-- A response that is an error, or an error that is handed to the error handler. -/
inductive Failure
  | refused (status : Nat) (error : String) (detail : Option String)
  | thrown (message : String)

def authErrorPatterns : List String :=
  ["challenge", "nonce", "signature", "expired", "public key", "unauthorized"]

def isAuthError (message : String) : Bool :=
  authErrorPatterns.any fun pattern => decide (pattern.toList <:+: message.toLower.toList)

/-- The `catch` of `getChallenge`. -/
def challengeFailure (message : String) : Failure :=
  if message = "Invalid Stellar public key" then .refused 400 message none else .thrown message

/-- The `catch` of `login`. -/
def loginFailure (message : String) : Failure :=
  if isAuthError message then .refused 401 "Authentication failed" (some message)
  else .thrown message

def requireText (body : JsonObject) (key error : String) : Except Failure String :=
  match body.get key with
  | some (.string text) => if text = "" then .error (.refused 400 error none) else .ok text
  | _ => .error (.refused 400 error none)

def loginFields (body : JsonObject) : Except Failure (String × String) := do
  let publicKey ← requireText body "publicKey" "publicKey is required"
  let signedTransaction ← requireText body "signedTransaction"
    "signedTransaction (XDR) is required"
  return (trim publicKey, trim signedTransaction)

section Handlers

variable {Buffer Hash Signature : Type} (sdk : StellarSdk String Buffer Hash Signature)
  (env : Settings)

def getChallenge (publicKey : Option Json) (now : Nat) (uuid : String) (s : Challenges) :
    Except Failure String × Challenges :=
  match publicKey with
  | some (.string text) =>
      if trim text = "" then
        (.error (.refused 400 "publicKey query parameter is required" none), s)
      else
        let (built, challenges) := buildChallenge sdk env (trim text) now uuid s
        (built.mapError challengeFailure, challenges)
  | _ => (.error (.refused 400 "publicKey query parameter is required" none), s)

/-- `login` up to the look-up of the user. -/
def login (body : JsonObject) (now : Nat) (s : Challenges) :
    Except Failure PublicKey × Challenges :=
  match loginFields body with
  | .error failure => (.error failure, s)
  | .ok (publicKey, signedTransaction) =>
      let (verified, challenges) := verifyChallenge sdk env publicKey now signedTransaction s
      (verified.mapError loginFailure, challenges)

end Handlers

/-- Users by public key. -/
abbrev Users := KeyedStore PublicKey User

/-- `create`; the key is unique in the table, and so is the id. -/
def createUser (users : Users) (publicKey newId : String) : Option (Users × User) :=
  if (users.lookup publicKey).isSome ∨ users.entries.any (fun entry => entry.2.id = newId) then none
  else
    let user : User := ⟨newId, publicKey, "FARMER"⟩
    some (users.insert publicKey user, user)

/-- The guard for roles, after `requireAuth`. -/
def requireRole (roles : List String) (user : Option JsonObject) : Except Failure Unit :=
  match user with
  | none => .error (.refused 401 "Unauthorized" none)
  | some user =>
      let allowed := match user.get "role" with
        | some (.string role) => decide (role ∈ roles)
        | _ => false
      if allowed then .ok ()
      else .error (.refused 403 "Forbidden"
        (some ("Required role: " ++ String.intercalate " or " roles)))

/-! ## The server -/

structure Server where
  secrets : TokenSettings
  challenges : Challenges := fun _ => none
  users : Users
  /-- Logins that were verified, before the look-up of their user. -/
  finding : List PublicKey := []
  /-- Those whose key was not found. -/
  creating : List PublicKey := []
  /-- Every token that was issued, and for whom. -/
  issued : List (String × User) := []
  /-- What was attached to each request that was let in. -/
  admitted : List JsonObject := []

inductive Action
  | getChallenge (publicKey : Option Json) (now : Nat) (uuid : String)
  | login (body : JsonObject) (now : Nat)
  | find (index now : Nat)
  | create (index : Nat) (newId : String) (now : Nat)
  | request (req : Request) (now : Nat)
  /-- What is in memory is lost. -/
  | restart (secrets : TokenSettings)

variable {Buffer Hash Signature : Type}

section Steps

variable (sdk : StellarSdk String Buffer Hash Signature) (env : Settings) (jwt : Jwt)

/-- The end of `authenticateUser`. -/
def Server.issue (s : Server) (user : User) (now : Nat) : Server :=
  match issueJwt jwt s.secrets ⟨user.id, user.publicKey, user.role⟩ now with
  | .ok token => { s with issued := s.issued ++ [(token, user)] }
  | .error _ => s

def Server.act (s : Server) : Action → Option Server
  | .getChallenge publicKey now uuid =>
      some { s with challenges := (getChallenge sdk env publicKey now uuid s.challenges).2 }
  | .login body now =>
      let (verified, challenges) := Auth.login sdk env body now s.challenges
      match verified with
      | .ok key => some { s with challenges, finding := s.finding ++ [key] }
      | .error _ => some { s with challenges }
  | .find index now =>
      s.finding[index]?.map fun key =>
        let finding := s.finding.eraseIdx index
        match s.users.lookup key with
        | some user => Server.issue jwt { s with finding } user now
        | none => { s with finding, creating := s.creating ++ [key] }
  | .create index newId now =>
      s.creating[index]?.map fun key =>
        let creating := s.creating.eraseIdx index
        match createUser s.users key newId with
        | some (users, user) => Server.issue jwt { s with users, creating } user now
        | none => { s with creating }
  | .request req now =>
      match requireAuth jwt s.secrets req now with
      | .ok handed => some { s with admitted := s.admitted ++ handed.user.toList }
      | .error _ => some s
  | .restart secrets =>
      some { s with secrets, challenges := fun _ => none, finding := [], creating := [] }

/-- A table that each user is in once, and nothing issued yet. -/
structure Server.Fresh (s : Server) : Prop where
  challenges : s.challenges = fun _ => none
  keys : ∀ key user, s.users.lookup key = some user → user.publicKey = key
  ids : ∀ key key' user user', s.users.lookup key = some user → s.users.lookup key' = some user' →
    user.id = user'.id → key = key'
  finding : s.finding = []
  creating : s.creating = []
  issued : s.issued = []
  admitted : s.admitted = []

def authentication : TransitionSystem Server Action where
  Initial := Server.Fresh
  Step s a s' := s.act sdk env jwt a = some s'

/-- No token verifies that the server did not issue. -/
def Unforged (t : Transition Server Action) : Prop :=
  ∀ req now, t.action = .request req now → ∀ token, extractToken req = some token →
    ∀ payload, verifyJwt jwt t.before.secrets token now = .ok payload →
      ∃ user, (token, user) ∈ t.before.issued

end Steps

end StellarKraal.Auth
