import Mathlib.Logic.Function.Basic
import StellarKraal.OracleBridge.JsonText

/-!
# Session tokens

A login issues a token that names the user. Requests carry it in a cookie or a header,
and what it was signed with is attached to them once it has been verified.
-/

namespace StellarKraal.Auth

open OracleBridge (Json JsonObject)

structure TokenPayload where
  sub : String
  publicKey : String
  role : String
  deriving DecidableEq

def TokenPayload.toJson (payload : TokenPayload) : JsonObject :=
  [("sub", .string payload.sub), ("publicKey", .string payload.publicKey),
    ("role", .string payload.role)]

/-- The two functions of `jsonwebtoken`, for HS256; both may throw. -/
structure Jwt where
  sign : (payload : JsonObject) → (secret expiresIn : String) → (now : Nat) → Except String String
  verify : (token secret : String) → (now : Nat) → Except String JsonObject

/-- The payload of a token is what was signed, with the times of issue and expiry. -/
def Jwt.Faithful (jwt : Jwt) : Prop :=
  ∀ payload secret expiresIn issuedAt token,
    jwt.sign payload secret expiresIn issuedAt = .ok token →
    ∀ secret' now decoded, jwt.verify token secret' now = .ok decoded →
      ∀ key, key ≠ "iat" → key ≠ "exp" → decoded.get key = payload.get key

structure TokenSettings where
  jwtSecret : String
  jwtExpiresIn : String
  jwtSecretPrevious : String
  /-- As a timestamp; `none` where it is not set. -/
  jwtSecretRotatedAt : Option Int
  jwtRotationOverlapMs : Nat

structure User where
  id : String
  publicKey : String
  role : String
  deriving DecidableEq

/-- The part of an Express request that decides who it is from. -/
structure Request where
  sessionCookie : Option Json
  authorization : Option String
  ip : Option String
  user : Option JsonObject

/-- A response with status 401. -/
structure Unauthorized where
  error : String
  detail : Option String
  deriving DecidableEq

def withinRotationOverlap (env : TokenSettings) (now : Nat) : Bool :=
  match env.jwtSecretRotatedAt with
  | some rotatedAtMs =>
      env.jwtSecretPrevious ≠ "" && decide ((now : Int) - rotatedAtMs < env.jwtRotationOverlapMs)
  | none => false

/-- The cookie if it is a non-empty string, else what follows `Bearer `. -/
def extractToken (req : Request) : Option String :=
  let fromHeader : Option String := do
    let authHeader ← req.authorization
    if "Bearer ".toList <+: authHeader.toList then
      some (String.ofList (authHeader.toList.drop 7))
    else none
  match req.sessionCookie with
  | some (.string cookieToken) => if cookieToken ≠ "" then some cookieToken else fromHeader
  | _ => fromHeader

section Tokens

variable (jwt : Jwt) (env : TokenSettings)

def issueJwt (payload : TokenPayload) (now : Nat) : Except String String :=
  jwt.sign payload.toJson env.jwtSecret env.jwtExpiresIn now

def verifyJwt (token : String) (now : Nat) : Except String JsonObject :=
  match jwt.verify token env.jwtSecret now with
  | .ok payload => .ok payload
  | .error err =>
      if withinRotationOverlap env now then jwt.verify token env.jwtSecretPrevious now
      else .error err

/-- The user of the key is found, or created under a new identifier. -/
def authenticateUser (publicKey : String) (now : Nat) (newId : String)
    (users : String → Option User) :
    Except String (String × User) × (String → Option User) :=
  let user := (users publicKey).getD ⟨newId, publicKey, "FARMER"⟩
  let issued := issueJwt jwt env ⟨user.id, user.publicKey, user.role⟩ now
  (issued.map fun token => (token, user), Function.update users publicKey (some user))

/-- The request as it is handed on. -/
def requireAuth (req : Request) (now : Nat) : Except Unauthorized Request :=
  match extractToken req with
  | none | some "" => .error ⟨"Missing session cookie or Authorization header", none⟩
  | some token =>
      match verifyJwt jwt env token now with
      | .ok payload => .ok { req with user := some payload }
      | .error message => .error ⟨"Unauthorized", some message⟩

end Tokens

/-! ## Whom a request is from -/

/-- The token was issued to the user with this identifier by `authenticateUser`. -/
def IssuedTo (jwt : Jwt) (userId token : String) : Prop :=
  ∃ env publicKey now newId users user,
    (authenticateUser jwt env publicKey now newId users).1 = .ok (token, user) ∧ user.id = userId

/-- The request has come through `requireAuth` with such a token. -/
def AuthenticatedAs (jwt : Jwt) (userId : String) (req : Request) : Prop :=
  ∃ env now received token, extractToken received = some token ∧ IssuedTo jwt userId token ∧
    requireAuth jwt env received now = .ok req

theorem IssuedTo.exists_payload {jwt : Jwt} {userId token : String}
    (h : IssuedTo jwt userId token) :
    ∃ payload secret expiresIn now, payload.sub = userId ∧
      jwt.sign (TokenPayload.toJson payload) secret expiresIn now = .ok token := by
  obtain ⟨env, publicKey, now, newId, users, user, hissued, rfl⟩ := h
  simp only [authenticateUser] at hissued
  generalize (users publicKey).getD ⟨newId, publicKey, "FARMER"⟩ = found at hissued
  cases hsigned : issueJwt jwt env ⟨found.id, found.publicKey, found.role⟩ now with
  | error message => simp [hsigned, Except.map] at hissued
  | ok signed =>
      simp only [hsigned, Except.map, Except.ok.injEq, Prod.mk.injEq] at hissued
      obtain ⟨rfl, rfl⟩ := hissued
      exact ⟨_, _, _, _, rfl, hsigned⟩

/-- Either secret may have verified the token. -/
theorem verifyJwt_eq_ok {jwt : Jwt} {env : TokenSettings} {token : String} {now : Nat}
    {payload : JsonObject} (h : verifyJwt jwt env token now = .ok payload) :
    ∃ secret, jwt.verify token secret now = .ok payload := by
  unfold verifyJwt at h
  split at h
  next verified hverified => exact ⟨_, hverified.trans h⟩
  next err _ =>
    split at h
    · exact ⟨_, h⟩
    · contradiction

theorem requireAuth_eq_ok {jwt : Jwt} {env : TokenSettings} {req handed : Request} {now : Nat}
    {token : String} (htoken : extractToken req = some token)
    (h : requireAuth jwt env req now = .ok handed) :
    ∃ payload, verifyJwt jwt env token now = .ok payload ∧
      handed = { req with user := some payload } := by
  unfold requireAuth at h
  rw [htoken] at h
  split at h
  next => contradiction
  next => contradiction
  next found _ heq =>
    obtain rfl := Option.some.inj heq
    cases hverified : verifyJwt jwt env token now with
    | error message => simp [hverified] at h
    | ok payload => exact ⟨payload, rfl, by simpa [hverified, eq_comm] using h⟩

/-- What is attached to a request names the user as `sub`, and has no `id`. -/
theorem AuthenticatedAs.exists_user {jwt : Jwt} (hjwt : jwt.Faithful) {userId : String}
    {req : Request} (h : AuthenticatedAs jwt userId req) :
    ∃ user, req.user = some user ∧ user.get "sub" = some (.string userId) ∧
      user.get "id" = none := by
  obtain ⟨env, now, received, token, htoken, hissued, hhanded⟩ := h
  obtain ⟨payload, hverified, rfl⟩ := requireAuth_eq_ok htoken hhanded
  obtain ⟨secret, hdecoded⟩ := verifyJwt_eq_ok hverified
  obtain ⟨signed, _, _, _, rfl, hsigned⟩ := hissued.exists_payload
  have hfields := hjwt _ _ _ _ _ hsigned _ _ _ hdecoded
  refine ⟨payload, rfl, ?_, ?_⟩
  · rw [hfields "sub" (by decide) (by decide)]
    rfl
  · rw [hfields "id" (by decide) (by decide)]
    rfl

end StellarKraal.Auth
