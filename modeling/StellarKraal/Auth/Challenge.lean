import Mathlib.Logic.Function.Basic
import StellarKraal.Foundation.History
import StellarKraal.Foundation.Outcome

/-!
# Login challenges

The server hands out a transaction that carries a nonce and remembers the nonce for
the client's key. Who returns a transaction with that nonce and the client's
signature is logged in. All clients share one map, and each of the two calls runs
without interruption.
-/

namespace StellarKraal.Auth

open Except (refuseIf okOr)
open TransitionSystem (Transition Since)

/-! ## Transactions -/

abbrev PublicKey := String

/-- In seconds; a `maxTime` of zero has no special meaning. -/
structure TimeBounds where
  minTime : Nat
  maxTime : Nat
  deriving DecidableEq, Repr

/-- Of the other kinds of operations only the XDR is kept. -/
inductive Operation (Buffer : Type)
  | manageData (source : Option PublicKey) (name : String) (value : Option Buffer)
  | other (xdr : Buffer)
  deriving DecidableEq

/-- What the hash of a transaction covers; `preconditions` are those besides the
time bounds. -/
structure Body (Buffer : Type) where
  source : PublicKey
  fee : Nat
  sequence : Nat
  memo : Option Buffer
  timeBounds : Option TimeBounds
  preconditions : List Buffer
  operations : List (Operation Buffer)
  deriving DecidableEq

structure Transaction (Buffer Signature : Type) where
  body : Body Buffer
  signatures : List Signature
  deriving DecidableEq

/-- The parts of the SDK and of `Buffer` that the service calls. Decoding may throw;
a verification that throws counts as failed. -/
structure StellarSdk (Xdr Buffer Hash Signature : Type) where
  isValidEd25519PublicKey : String → Bool
  publicKey : (secretKey : String) → PublicKey
  hash : (networkPassphrase : String) → Body Buffer → Hash
  sign : (secretKey : String) → Hash → Signature
  verify : PublicKey → Hash → Signature → Bool
  toXdr : Transaction Buffer Signature → Xdr
  fromXdr : (networkPassphrase : String) → Xdr → Option (Transaction Buffer Signature)
  bufferFrom : String → Buffer
  bufferToString : Buffer → String

structure Settings where
  authServerSecretKey : String
  networkPassphrase : String

/-! ## The service -/

structure PendingChallenge where
  nonce : String
  expiresAt : Nat
  deriving DecidableEq, Repr

/-- `pendingChallenges`. -/
abbrev Challenges := PublicKey → Option PendingChallenge

def Challenges.delete (s : Challenges) (key : PublicKey) : Challenges :=
  Function.update s key none

def challengeTtlSeconds : Nat := 300

/-- `nonce.slice(0, 7)`. -/
def noncePrefix (nonce : String) : String := String.ofList (nonce.toList.take 7)

/-- The UUID without its dashes. -/
def nonceOf (uuid : String) : String := String.ofList (uuid.toList.filter (· ≠ '-'))

/-- `text.split(':')`. -/
def splitColons (text : String) : List String := (text.toList.splitOn ':').map String.ofList

variable {Xdr Buffer Hash Signature : Type}

section Service

variable (sdk : StellarSdk Xdr Buffer Hash Signature) (env : Settings)

/-- The account has sequence zero; building the transaction increments it. -/
def challengeBody (clientPublicKey : String) (now : Nat) (nonce : String) : Body Buffer where
  source := sdk.publicKey env.authServerSecretKey
  fee := 100
  sequence := 1
  memo := none
  timeBounds := some ⟨now / 1000, now / 1000 + challengeTtlSeconds⟩
  preconditions := []
  operations := [.manageData (some clientPublicKey) "stellarkraal_auth"
    (some (sdk.bufferFrom (clientPublicKey ++ ":" ++ noncePrefix nonce)))]

/-- Signed by the server. -/
def challengeTransaction (clientPublicKey : String) (now : Nat) (nonce : String) :
    Transaction Buffer Signature :=
  let body := challengeBody sdk env clientPublicKey now nonce
  ⟨body, [sdk.sign env.authServerSecretKey (sdk.hash env.networkPassphrase body)]⟩

/-- `now` is in milliseconds. -/
def buildChallenge (clientPublicKey : String) (now : Nat) (uuid : String) (s : Challenges) :
    Except String Xdr × Challenges :=
  if ¬ sdk.isValidEd25519PublicKey clientPublicKey then (.error "Invalid Stellar public key", s)
  else
    let nonce := nonceOf uuid
    (.ok (sdk.toXdr (challengeTransaction sdk env clientPublicKey now nonce)),
      Function.update s clientPublicKey (some ⟨nonce, now + challengeTtlSeconds * 1000⟩))

/-- The type and the name that the operation is looked up by. -/
def Operation.isAuth : Operation Buffer → Bool
  | .manageData _ name _ => name == "stellarkraal_auth"
  | .other _ => false

def Operation.value? : Operation Buffer → Option Buffer
  | .manageData _ _ value => value
  | .other _ => none

/-- What `verifyChallenge` checks of an envelope, once the challenge is known. -/
def checkEnvelope (clientPublicKey : String) (now : Nat) (nonce : String) (signedXdr : Xdr) :
    Except String Unit := do
  let tx ← okOr (sdk.fromXdr env.networkPassphrase signedXdr) "Invalid transaction XDR"
  let bounds ← okOr tx.body.timeBounds "Transaction time bounds expired"
  refuseIf (now / 1000 > bounds.maxTime) "Transaction time bounds expired"
  refuseIf (now / 1000 < bounds.minTime) "Transaction time bounds not yet valid"
  let value ← okOr ((tx.body.operations.find? Operation.isAuth).bind Operation.value?)
    "Missing stellarkraal_auth manage_data operation"
  let parts := splitColons (sdk.bufferToString value)
  refuseIf (parts[0]? ≠ some clientPublicKey) "Public key mismatch in challenge payload"
  refuseIf (parts[1]? ≠ some (noncePrefix nonce)) "Nonce mismatch"
  let txHash := sdk.hash env.networkPassphrase tx.body
  refuseIf (¬ tx.signatures.any fun sig => sdk.verify clientPublicKey txHash sig)
    "Missing valid client signature on challenge transaction"

def verifyChallenge (clientPublicKey : String) (now : Nat) (signedXdr : Xdr) (s : Challenges) :
    Except String PublicKey × Challenges :=
  if ¬ sdk.isValidEd25519PublicKey clientPublicKey then (.error "Invalid Stellar public key", s)
  else
    match s clientPublicKey with
    | none => (.error "No pending challenge for this public key", s)
    | some pending =>
        if now > pending.expiresAt then (.error "Challenge has expired", s.delete clientPublicKey)
        else
          match checkEnvelope sdk env clientPublicKey now pending.nonce signedXdr with
          | .error message => (.error message, s)
          | .ok () => (.ok clientPublicKey, s.delete clientPublicKey)

end Service

/-! ## What is checked -/

namespace Transaction

variable (tx : Transaction Buffer Signature)

def InTime (now : Nat) : Prop :=
  ∃ bounds, tx.body.timeBounds = some bounds ∧ bounds.minTime ≤ now / 1000 ∧
    now / 1000 ≤ bounds.maxTime

/-- The first login operation begins with this key and this part of a nonce. -/
def Names (sdk : StellarSdk Xdr Buffer Hash Signature) (clientPublicKey start : String) : Prop :=
  ∃ value, (tx.body.operations.find? Operation.isAuth).bind Operation.value? = some value ∧
    (splitColons (sdk.bufferToString value))[0]? = some clientPublicKey ∧
    (splitColons (sdk.bufferToString value))[1]? = some start

def SignedBy (sdk : StellarSdk Xdr Buffer Hash Signature) (env : Settings)
    (clientPublicKey : String) : Prop :=
  ∃ sig ∈ tx.signatures,
    sdk.verify clientPublicKey (sdk.hash env.networkPassphrase tx.body) sig = true

/-- All that a login asks of the transaction. -/
structure Answers (sdk : StellarSdk Xdr Buffer Hash Signature) (env : Settings)
    (clientPublicKey : String) (now : Nat) (nonce : String) : Prop where
  inTime : tx.InTime now
  names : tx.Names sdk clientPublicKey (noncePrefix nonce)
  signed : tx.SignedBy sdk env clientPublicKey

end Transaction

section Checks

variable {sdk : StellarSdk Xdr Buffer Hash Signature} {env : Settings} {key : PublicKey}
  {now : Nat} {signedXdr : Xdr} {s : Challenges}

theorem checkEnvelope_eq_ok {nonce : String} :
    checkEnvelope sdk env key now nonce signedXdr = .ok () ↔
      ∃ tx, sdk.fromXdr env.networkPassphrase signedXdr = some tx ∧
        tx.Answers sdk env key now nonce := by
  simp only [checkEnvelope, Except.bind_succeeds, Except.okOr_eq_ok, Except.refuseIf_eq_ok,
    exists_const, not_lt, gt_iff_lt, ne_eq, not_not, List.any_eq_true]
  constructor
  · rintro ⟨tx, htx, bounds, hbounds, hmax, hmin, value, hvalue, hkey, hnonce, hsigned⟩
    exact ⟨tx, htx, ⟨bounds, hbounds, hmin, hmax⟩, ⟨value, hvalue, hkey, hnonce⟩, hsigned⟩
  · rintro ⟨tx, htx, ⟨bounds, hbounds, hmin, hmax⟩, ⟨value, hvalue, hkey, hnonce⟩, hsigned⟩
    exact ⟨tx, htx, bounds, hbounds, hmax, hmin, value, hvalue, hkey, hnonce, hsigned⟩

theorem verifyChallenge_eq_ok {result : PublicKey} :
    (verifyChallenge sdk env key now signedXdr s).1 = .ok result ↔
      result = key ∧ sdk.isValidEd25519PublicKey key = true ∧ ∃ pending, s key = some pending ∧
        now ≤ pending.expiresAt ∧ ∃ tx, sdk.fromXdr env.networkPassphrase signedXdr = some tx ∧
          tx.Answers sdk env key now pending.nonce := by
  unfold verifyChallenge
  split
  next hinvalid => simp [hinvalid]
  next hvalid =>
    cases hpending : s key with
    | none => simp
    | some pending =>
        by_cases hexpired : now > pending.expiresAt
        · simp [hexpired]
        · simp only [hexpired, if_false]
          have hchecked : checkEnvelope sdk env key now pending.nonce signedXdr = .ok () ↔ _ :=
            checkEnvelope_eq_ok
          cases hcheck : checkEnvelope sdk env key now pending.nonce signedXdr with
          | error message =>
              rw [hcheck, iff_false_left nofun] at hchecked
              simp [hchecked]
          | ok done =>
              rw [hcheck, iff_true_left rfl] at hchecked
              refine ⟨fun h => ?_, fun h => congrArg Except.ok h.1.symm⟩
              exact ⟨(Except.ok.inj h).symm, not_not.mp hvalid, pending, rfl, not_lt.mp hexpired,
                hchecked⟩

/-- A verification leaves the map alone or removes the key's challenge; the latter
where it succeeds or finds the challenge expired. -/
theorem verifyChallenge_challenges :
    (verifyChallenge sdk env key now signedXdr s).2 = s.delete key ∧
        ((verifyChallenge sdk env key now signedXdr s).1 = .ok key ∨
          (verifyChallenge sdk env key now signedXdr s).1 = .error "Challenge has expired") ∨
      (verifyChallenge sdk env key now signedXdr s).2 = s ∧
        ∃ message, (verifyChallenge sdk env key now signedXdr s).1 = .error message := by
  unfold verifyChallenge
  split
  · exact .inr ⟨rfl, _, rfl⟩
  · cases s key with
    | none => exact .inr ⟨rfl, _, rfl⟩
    | some pending =>
        simp only
        split
        · exact .inl ⟨rfl, .inr rfl⟩
        · cases checkEnvelope sdk env key now pending.nonce signedXdr with
          | error message => exact .inr ⟨rfl, _, rfl⟩
          | ok done => exact .inl ⟨rfl, .inl rfl⟩

end Checks

/-! ## Runs -/

inductive Call (Xdr : Type)
  | buildChallenge (clientPublicKey : String) (now : Nat) (uuid : String)
  | verifyChallenge (clientPublicKey : String) (now : Nat) (signedXdr : Xdr)

section Runs

variable (sdk : StellarSdk Xdr Buffer Hash Signature) (env : Settings)

def Call.run : Call Xdr → Challenges → Challenges
  | .buildChallenge clientPublicKey now uuid, s =>
      (Auth.buildChallenge sdk env clientPublicKey now uuid s).2
  | .verifyChallenge clientPublicKey now signedXdr, s =>
      (Auth.verifyChallenge sdk env clientPublicKey now signedXdr s).2

/-- The service from its start. -/
def logins : TransitionSystem Challenges (Call Xdr) where
  Initial s := s = fun _ => none
  Step s call s' := s' = call.run sdk env s

/-- The step builds this challenge for the key. -/
def BuildsChallenge (key : PublicKey) (now : Nat) (uuid : String)
    (t : Transition Challenges (Call Xdr)) : Prop :=
  t.action = .buildChallenge key now uuid ∧ sdk.isValidEd25519PublicKey key = true

/-- The step is a successful `buildChallenge` for the key. -/
def builds (key : PublicKey) (t : Transition Challenges (Call Xdr)) : Bool :=
  match t.action with
  | .buildChallenge clientPublicKey _ _ =>
      clientPublicKey == key && sdk.isValidEd25519PublicKey key
  | .verifyChallenge _ _ _ => false

/-- The step is a successful `verifyChallenge` for the key. -/
def logsIn (key : PublicKey) (t : Transition Challenges (Call Xdr)) : Bool :=
  match t.action with
  | .buildChallenge _ _ _ => false
  | .verifyChallenge clientPublicKey now signedXdr =>
      clientPublicKey == key && (verifyChallenge sdk env key now signedXdr t.before).1.isOk

/-- The latest challenge of the key, not used since. -/
def Latest (key : PublicKey) (now : Nat) (uuid : String)
    (steps : List (Transition Challenges (Call Xdr))) : Prop :=
  Since (BuildsChallenge sdk key now uuid)
    (fun u => builds sdk key u = false ∧ logsIn sdk env key u = false) steps

theorem logins_of_replay {calls : List (Call Xdr)} {s : Challenges}
    {steps : List (Transition Challenges (Call Xdr))}
    (h : TransitionSystem.replay (fun s call => some (call.run sdk env s)) (fun _ => none) calls =
      some (steps, s)) : (logins sdk env).Run (fun _ => none) steps s :=
  TransitionSystem.Run.of_replay (fun _ _ _ hcall => (Option.some.inj hcall).symm) h

end Runs

namespace Sample

abbrev Digest := String × Body String

abbrev Seal := PublicKey × Digest

/-- Hashes and signatures as terms: neither collides, and only the key's owner has its
signatures. -/
def sdk : StellarSdk (Transaction String Seal) String Digest Seal where
  isValidEd25519PublicKey key := key.toList.head? == some 'G' && !key.toList.contains ':'
  publicKey secretKey := "G" ++ secretKey
  hash networkPassphrase body := (networkPassphrase, body)
  sign secretKey hash := ("G" ++ secretKey, hash)
  verify key hash sig := sig = (key, hash)
  toXdr := id
  fromXdr _ := some
  bufferFrom := id
  bufferToString := id

def env : Settings := ⟨"SERVER", "Test SDF Network ; September 2015"⟩

def client : PublicKey := "GCLIENT"

/-- A client signs a transaction. -/
def signed (body : Body String) : Transaction String Seal :=
  ⟨body, [sdk.sign "CLIENT" (sdk.hash env.networkPassphrase body)]⟩

def challenge : Body String := challengeBody sdk env client 60000 "0123456789abcdef"

def requested : Call (Transaction String Seal) :=
  .buildChallenge client 60000 "01234567-89abcdef"

end Sample

end StellarKraal.Auth
