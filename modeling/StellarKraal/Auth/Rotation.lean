import StellarKraal.Auth.Session
import StellarKraal.Foundation.TransitionSystem

/-!
# Rotating the token secret

The secret changes by restarts with other settings. A rotation leaves the secret before it
accepted for a while; after an emergency the sessions that were open have to log in again.
-/

namespace StellarKraal.Auth

open OracleBridge (JsonObject)
open TransitionSystem (Transition)

/-- A token verifies with the secret it was signed with, of those given, until it expires. -/
def Jwt.Hs256 (jwt : Jwt) (expiresAt : String → Nat → Nat) (secrets : List String) : Prop :=
  ∀ payload, ∀ secret ∈ secrets, ∀ expiresIn issuedAt token,
    jwt.sign payload secret expiresIn issuedAt = .ok token → ∀ secret' ∈ secrets, ∀ now,
      (∃ decoded, jwt.verify token secret' now = .ok decoded) ↔
        secret' = secret ∧ now < expiresAt expiresIn issuedAt

/-- The checks of the environment at startup. -/
def TokenSettings.Starts (env : TokenSettings) : Prop :=
  env.jwtSecret ≠ "" ∧ (env.jwtSecretPrevious = "" ↔ env.jwtSecretRotatedAt = none)

namespace Rotation

/-- What the script prints, written over the environment it was run in. -/
def rotateJwtSecret (env : TokenSettings) (newSecret : String) (rotatedAt : Int) :
    TokenSettings :=
  if env.jwtSecret ≠ "" then
    { env with
      jwtSecret := newSecret
      jwtSecretPrevious := env.jwtSecret
      jwtSecretRotatedAt := some rotatedAt }
  else { env with jwtSecret := newSecret }

/-- The third step of the procedure. -/
def unsetPrevious (env : TokenSettings) : TokenSettings :=
  { env with jwtSecretPrevious := "", jwtSecretRotatedAt := none }

/-- The emergency rotation. -/
def replaceSecret (env : TokenSettings) (newSecret : String) : TokenSettings :=
  { unsetPrevious env with jwtSecret := newSecret }

structure Deployment where
  now : Nat
  settings : TokenSettings
  /-- Every secret that has been in use. -/
  secrets : List String

inductive Operation
  | issue (payload : TokenPayload)
  | rotate (newSecret : String) (rotatedAt : Int)
  | retire
  | replace (newSecret : String)
  | wait (ms : Nat)

/-- New secrets are random, and a secret is retired only when its window has closed. -/
def Deployment.perform (d : Deployment) : Operation → Option Deployment
  | .issue _ => some d
  | .rotate newSecret rotatedAt =>
      if newSecret ≠ "" ∧ newSecret ∉ d.secrets then
        some { d with
          settings := rotateJwtSecret d.settings newSecret rotatedAt
          secrets := newSecret :: d.secrets }
      else none
  | .retire =>
      if withinRotationOverlap d.settings d.now then none
      else some { d with settings := unsetPrevious d.settings }
  | .replace newSecret =>
      if newSecret ≠ "" ∧ newSecret ∉ d.secrets then
        some { d with
          settings := replaceSecret d.settings newSecret
          secrets := newSecret :: d.secrets }
      else none
  | .wait ms => some { d with now := d.now + ms }

def deployments : TransitionSystem Deployment Operation where
  Initial d := d.settings.Starts ∧ d.secrets = [d.settings.jwtSecret, d.settings.jwtSecretPrevious]
  Step d operation d' := d.perform operation = some d'

/-- The times of the rotations among the steps, with `none` for an emergency. -/
def changes (steps : List (Transition Deployment Operation)) : List (Option Int) :=
  steps.filterMap fun t =>
    match t.action with
    | .rotate _ rotatedAt => some (some rotatedAt)
    | .replace _ => some none
    | _ => none

/-- What the settings are, so that the server starts with them. -/
structure Deployment.Valid (d : Deployment) : Prop where
  starts : d.settings.Starts
  current : d.settings.jwtSecret ∈ d.secrets
  previous : d.settings.jwtSecretPrevious ≠ "" → d.settings.jwtSecretPrevious ∈ d.secrets

/-- Where a secret stands that was the current one before these changes. -/
inductive Standing (secret : String) (d : Deployment) (since : List (Option Int)) : Prop
  | current (unchanged : since = []) (same : d.settings.jwtSecret = secret)
  | previous (rotatedAt : Int) (once : since = [some rotatedAt])
      (replaced : d.settings.jwtSecret ≠ secret) (same : d.settings.jwtSecretPrevious = secret)
      (window : d.settings.jwtSecretRotatedAt = some rotatedAt)
  | gone (changed : since ≠ [])
      (closed : ∀ rotatedAt, since = [some rotatedAt] →
        rotatedAt + d.settings.jwtRotationOverlapMs ≤ d.now)
      (replaced : d.settings.jwtSecret ≠ secret) (other : d.settings.jwtSecretPrevious ≠ secret)

section Steps

variable {d d' : Deployment} {operation : Operation}

/-- What an operation can do. -/
theorem perform_cases (h : d.perform operation = some d') :
    (∃ payload, operation = .issue payload) ∧ d' = d ∨
    (∃ newSecret rotatedAt, operation = .rotate newSecret rotatedAt ∧ newSecret ≠ "" ∧
      newSecret ∉ d.secrets ∧
      d' = { d with
        settings := rotateJwtSecret d.settings newSecret rotatedAt
        secrets := newSecret :: d.secrets }) ∨
    (operation = .retire ∧ withinRotationOverlap d.settings d.now = false ∧
      d' = { d with settings := unsetPrevious d.settings }) ∨
    (∃ newSecret, operation = .replace newSecret ∧ newSecret ≠ "" ∧ newSecret ∉ d.secrets ∧
      d' = { d with
        settings := replaceSecret d.settings newSecret
        secrets := newSecret :: d.secrets }) ∨
    ∃ ms, operation = .wait ms ∧ d' = { d with now := d.now + ms } := by
  cases operation with
  | issue payload => exact .inl ⟨⟨payload, rfl⟩, (Option.some.inj h).symm⟩
  | rotate newSecret rotatedAt =>
      simp only [Deployment.perform, Option.ite_none_right_eq_some] at h
      obtain ⟨⟨hne, hfresh⟩, heq⟩ := h
      exact .inr (.inl ⟨newSecret, rotatedAt, rfl, hne, hfresh, (Option.some.inj heq).symm⟩)
  | retire =>
      simp only [Deployment.perform, Option.ite_none_left_eq_some, Bool.not_eq_true] at h
      exact .inr (.inr (.inl ⟨rfl, h.1, (Option.some.inj h.2).symm⟩))
  | replace newSecret =>
      simp only [Deployment.perform, Option.ite_none_right_eq_some] at h
      obtain ⟨⟨hne, hfresh⟩, heq⟩ := h
      exact .inr (.inr (.inr (.inl ⟨newSecret, rfl, hne, hfresh, (Option.some.inj heq).symm⟩)))
  | wait ms => exact .inr (.inr (.inr (.inr ⟨ms, rfl, (Option.some.inj h).symm⟩)))

/-- A server that runs has a secret. -/
theorem rotateJwtSecret_of_starts {env : TokenSettings} (hstarts : env.Starts)
    (newSecret : String) (rotatedAt : Int) :
    rotateJwtSecret env newSecret rotatedAt =
      { env with
        jwtSecret := newSecret
        jwtSecretPrevious := env.jwtSecret
        jwtSecretRotatedAt := some rotatedAt } :=
  if_pos hstarts.1

theorem Deployment.Valid.perform (hvalid : d.Valid) (h : d.perform operation = some d') :
    d'.Valid ∧ d.secrets ⊆ d'.secrets ∧
      d'.settings.jwtRotationOverlapMs = d.settings.jwtRotationOverlapMs := by
  rcases perform_cases h with ⟨-, rfl⟩ | ⟨newSecret, rotatedAt, -, hne, -, rfl⟩ | ⟨-, -, rfl⟩ |
    ⟨newSecret, -, hne, -, rfl⟩ | ⟨ms, -, rfl⟩
  · exact ⟨hvalid, List.Subset.refl _, rfl⟩
  · rw [rotateJwtSecret_of_starts hvalid.starts]
    refine ⟨⟨⟨hne, ?_⟩, List.mem_cons_self, fun _ => ?_⟩, List.subset_cons_self _ _, rfl⟩
    · simpa using hvalid.starts.1
    · exact List.mem_cons_of_mem _ hvalid.current
  · exact ⟨⟨⟨hvalid.starts.1, by simp [unsetPrevious]⟩, hvalid.current,
      fun h => absurd rfl h⟩, List.Subset.refl _, rfl⟩
  · exact ⟨⟨⟨hne, by simp [replaceSecret, unsetPrevious]⟩, List.mem_cons_self,
      fun h => absurd rfl h⟩, List.subset_cons_self _ _, rfl⟩
  · exact ⟨⟨hvalid.starts, hvalid.current, hvalid.previous⟩, List.Subset.refl _, rfl⟩

theorem Standing.replaced_of_ne_nil {secret : String} {since : List (Option Int)}
    (h : Standing secret d since) (hchanged : since ≠ []) : d.settings.jwtSecret ≠ secret := by
  cases h with
  | current unchanged _ => exact absurd unchanged hchanged
  | previous _ _ replaced => exact replaced
  | gone _ _ replaced => exact replaced

/-- The first change decides how long the secret is accepted, the second ends it. -/
theorem Standing.snoc {secret : String} {since : List (Option Int)} {change : Option Int}
    (h : Standing secret d since) (hcurrent : d'.settings.jwtSecret ≠ secret)
    (hfirst : d.settings.jwtSecret = secret → Standing secret d' [change])
    (hlater : d.settings.jwtSecret ≠ secret → d'.settings.jwtSecretPrevious ≠ secret) :
    Standing secret d' (since ++ [change]) := by
  rcases eq_or_ne since [] with rfl | hchanged
  · cases h with
    | current _ same => exact hfirst same
    | previous _ once => simp at once
    | gone changed => exact absurd rfl changed
  · refine .gone (by simp) (fun rotatedAt hsince => ?_) hcurrent
      (hlater (h.replaced_of_ne_nil hchanged))
    have hlength := congrArg List.length hsince
    have := List.length_pos_of_ne_nil hchanged
    simp only [List.length_append, List.length_singleton] at hlength
    omega

/-- Time only closes windows. -/
theorem Standing.later {secret : String} {since : List (Option Int)} (h : Standing secret d since)
    (ms : Nat) : Standing secret { d with now := d.now + ms } since := by
  cases h with
  | current unchanged same => exact .current unchanged same
  | previous rotatedAt once replaced same window =>
      exact .previous rotatedAt once replaced same window
  | gone changed closed replaced other =>
      refine .gone changed (fun rotatedAt hsince => (closed rotatedAt hsince).trans ?_) replaced
        other
      push_cast
      omega

/-- A secret whose window has closed can be unset. -/
theorem Standing.retire {secret : String} {since : List (Option Int)} (h : Standing secret d since)
    (hsecret : secret ≠ "") (hclosed : withinRotationOverlap d.settings d.now = false) :
    Standing secret { d with settings := unsetPrevious d.settings } since := by
  cases h with
  | current unchanged same => exact .current unchanged same
  | previous rotatedAt once replaced same window =>
      refine .gone (by simp [once]) (fun rotatedAt' hsince => ?_) replaced hsecret.symm
      obtain rfl : rotatedAt = rotatedAt' := by simpa [once] using hsince
      simp only [withinRotationOverlap, window, same, hsecret, ne_eq, not_false_eq_true,
        decide_true, Bool.true_and, decide_eq_false_iff_not, not_lt] at hclosed
      change rotatedAt + d.settings.jwtRotationOverlapMs ≤ d.now
      omega
  | gone changed closed replaced other => exact .gone changed closed replaced hsecret.symm

/-- Operations other than a change leave a secret where it stands, a change moves it on. -/
theorem Standing.perform {secret : String} {since : List (Option Int)} (hsecret : secret ≠ "")
    (hmem : secret ∈ d.secrets) (hvalid : d.Valid) (hstanding : Standing secret d since)
    (h : d.perform operation = some d') :
    Standing secret d' (since ++ changes [⟨d, operation, d'⟩]) := by
  rcases perform_cases h with ⟨⟨payload, rfl⟩, rfl⟩ | ⟨newSecret, rotatedAt, rfl, -, hfresh, rfl⟩ |
    ⟨rfl, hclosed, rfl⟩ | ⟨newSecret, rfl, -, hfresh, rfl⟩ | ⟨ms, rfl, rfl⟩
  · exact (List.append_nil since).symm ▸ hstanding
  · have hne : newSecret ≠ secret := fun heq => hfresh (heq ▸ hmem)
    rw [rotateJwtSecret_of_starts hvalid.starts]
    exact hstanding.snoc hne (fun hcurrent => .previous _ rfl hne hcurrent rfl) id
  · exact (List.append_nil since).symm ▸ hstanding.retire hsecret hclosed
  · have hne : newSecret ≠ secret := fun heq => hfresh (heq ▸ hmem)
    exact hstanding.snoc hne (fun _ => .gone (by simp) (by simp) hne hsecret.symm)
      fun _ => hsecret.symm
  · exact (List.append_nil since).symm ▸ hstanding.later ms

end Steps

section Verification

variable {jwt : Jwt} {env : TokenSettings} {token secret : String} {now : Nat}

/-- A token is accepted with the secret, or with the one before it while the window is open. -/
theorem verifyJwt_succeeds :
    (∃ decoded, verifyJwt jwt env token now = .ok decoded) ↔
      (∃ decoded, jwt.verify token env.jwtSecret now = .ok decoded) ∨
        withinRotationOverlap env now = true ∧
          ∃ decoded, jwt.verify token env.jwtSecretPrevious now = .ok decoded := by
  unfold verifyJwt
  split
  next decoded hverified => simp [hverified]
  next err hfailed =>
    cases withinRotationOverlap env now with
    | true => simp [hfailed]
    | false => simp [hfailed]

theorem withinRotationOverlap_eq_true :
    withinRotationOverlap env now = true ↔ env.jwtSecretPrevious ≠ "" ∧
      ∃ rotatedAt, env.jwtSecretRotatedAt = some rotatedAt ∧
        (now : Int) < rotatedAt + env.jwtRotationOverlapMs := by
  unfold withinRotationOverlap
  cases env.jwtSecretRotatedAt with
  | none => simp
  | some rotatedAt =>
      have hwindow : (now : Int) - rotatedAt < env.jwtRotationOverlapMs ↔
          (now : Int) < rotatedAt + env.jwtRotationOverlapMs := by omega
      simp [hwindow]

/-- Which tokens the settings accept. -/
theorem accepted_iff_secret {expiresAt : String → Nat → Nat} {d : Deployment}
    (hjwt : jwt.Hs256 expiresAt d.secrets) (hvalid : d.Valid) (hmem : secret ∈ d.secrets)
    {payload : JsonObject} {expiresIn : String} {issuedAt : Nat}
    (hsigned : jwt.sign payload secret expiresIn issuedAt = .ok token) :
    (∃ decoded, verifyJwt jwt d.settings token d.now = .ok decoded) ↔
      d.now < expiresAt expiresIn issuedAt ∧ (d.settings.jwtSecret = secret ∨
        withinRotationOverlap d.settings d.now = true ∧
          d.settings.jwtSecretPrevious = secret) := by
  have hverify := hjwt _ _ hmem _ _ _ hsigned
  rw [verifyJwt_succeeds, hverify _ hvalid.current]
  constructor
  · rintro (⟨hsame, htime⟩ | ⟨hwindow, haccepted⟩)
    · exact ⟨htime, .inl hsame⟩
    · have hprevious := hvalid.previous (withinRotationOverlap_eq_true.mp hwindow).1
      obtain ⟨hsame, htime⟩ := (hverify _ hprevious _).mp haccepted
      exact ⟨htime, .inr ⟨hwindow, hsame⟩⟩
  · rintro ⟨htime, hsame | ⟨hwindow, hsame⟩⟩
    · exact .inl ⟨hsame, htime⟩
    · exact .inr ⟨hwindow, (hverify _ (hsame ▸ hmem) _).mpr ⟨hsame, htime⟩⟩

end Verification

section Runs

variable {jwt : Jwt} {start d : Deployment} {steps : List (Transition Deployment Operation)}

theorem changes_append (first second : List (Transition Deployment Operation)) :
    changes (first ++ second) = changes first ++ changes second :=
  List.filterMap_append

theorem Deployment.Valid.of_initial (hstart : deployments.Initial start) : start.Valid where
  starts := hstart.1
  current := by simp [hstart.2]
  previous _ := by simp [hstart.2]

theorem Deployment.Valid.of_run (hvalid : start.Valid) (hrun : deployments.Run start steps d) :
    d.Valid ∧ start.secrets ⊆ d.secrets ∧
      d.settings.jwtRotationOverlapMs = start.settings.jwtRotationOverlapMs := by
  induction hrun with
  | nil => exact ⟨hvalid, List.Subset.refl _, rfl⟩
  | snoc prior step ih =>
      obtain ⟨hprior, hsecrets, hoverlap⟩ := ih
      obtain ⟨hlast, hsecrets', hoverlap'⟩ := hprior.perform step
      exact ⟨hlast, List.Subset.trans hsecrets hsecrets', hoverlap'.trans hoverlap⟩

/-- Where the secret of the start stands at the end. -/
theorem Standing.of_run (hvalid : start.Valid) (hrun : deployments.Run start steps d) :
    Standing start.settings.jwtSecret d (changes steps) := by
  induction hrun with
  | nil => exact .current rfl rfl
  | snoc prior step ih =>
      obtain ⟨hprior, hsecrets, -⟩ := hvalid.of_run prior
      rw [changes_append]
      exact ih.perform hvalid.starts.1 (hsecrets hvalid.current) hprior step

/-- The settings accept a secret as long as it stands. -/
theorem Standing.accepted_iff {secret : String} {since : List (Option Int)} (hsecret : secret ≠ "")
    (h : Standing secret d since) :
    (d.settings.jwtSecret = secret ∨
      withinRotationOverlap d.settings d.now = true ∧ d.settings.jwtSecretPrevious = secret) ↔
    since = [] ∨ ∃ rotatedAt : Int, since = [some rotatedAt] ∧
      (d.now : Int) < rotatedAt + d.settings.jwtRotationOverlapMs := by
  rw [withinRotationOverlap_eq_true]
  cases h with
  | current unchanged same => exact iff_of_true (.inl same) (.inl unchanged)
  | previous rotatedAt once replaced same window => simp [once, replaced, same, window, hsecret]
  | gone changed closed replaced other =>
      refine iff_of_false (by simp [replaced, other]) ?_
      rintro (hsince | ⟨rotatedAt, hsince, htime⟩)
      · exact changed hsince
      · exact absurd htime (not_lt.mpr (closed rotatedAt hsince))

/-- A token is accepted until it expires, as long as the secret it was signed with is the
current one, or was replaced once, by a rotation whose window is open. -/
theorem accepted_while_standing {expiresAt : String → Nat → Nat}
    {earlier later : List (Transition Deployment Operation)}
    {t : Transition Deployment Operation} {payload : TokenPayload} {token : String}
    (hstart : deployments.Initial start)
    (hrun : deployments.Run start (earlier ++ t :: later) d)
    (hjwt : jwt.Hs256 expiresAt d.secrets) (hissue : t.action = .issue payload)
    (hissued : issueJwt jwt t.before.settings payload t.before.now = .ok token) :
    d.settings.Starts ∧
    ((∃ decoded, verifyJwt jwt d.settings token d.now = .ok decoded) ↔
      d.now < expiresAt t.before.settings.jwtExpiresIn t.before.now ∧
      (changes later = [] ∨ ∃ rotatedAt : Int, changes later = [some rotatedAt] ∧
        (d.now : Int) < rotatedAt + start.settings.jwtRotationOverlapMs)) := by
  obtain ⟨middle, hfirst, hrest⟩ := hrun.of_append
  obtain ⟨rfl, -, -⟩ := hrest.of_cons
  obtain ⟨hbefore, -, hoverlap⟩ := (Deployment.Valid.of_initial hstart).of_run hfirst
  obtain ⟨hvalid, hsecrets, hoverlap'⟩ := hbefore.of_run hrest
  have hnone : changes (t :: later) = changes later := by
    simp [changes, hissue]
  have hstanding := Standing.of_run hbefore hrest
  rw [hnone] at hstanding
  refine ⟨hvalid.starts, ?_⟩
  rw [accepted_iff_secret hjwt hvalid (hsecrets hbefore.current) hissued,
    hstanding.accepted_iff hbefore.starts.1, hoverlap', hoverlap]

end Runs

/-! ## One rotation -/

namespace Sample

def client : TokenPayload := ⟨"u1", "GCLIENT", "FARMER"⟩

def decoded : JsonObject := client.toJson ++ [("iat", .number 120), ("exp", .number 604920)]

/-- Tokens of one client, issued at one time. -/
def jwt : Jwt where
  sign _ secret _ _ :=
    if secret = "first" then .ok "c.1.s"
    else if secret = "second" then .ok "c.2.s"
    else .error "not implemented"
  verify token secret now :=
    if token = "c.1.s" ∧ secret = "first" ∨ token = "c.2.s" ∧ secret = "second" then
      if now < 604920000 then .ok decoded else .error "jwt expired"
    else .error "invalid signature"

theorem jwt_hs256 (secrets : List String) : jwt.Hs256 (fun _ _ => 604920000) secrets := by
  intro payload secret _ expiresIn issuedAt token hsigned secret' _ now
  have hverify : (∃ result, jwt.verify token secret' now = .ok result) ↔
      (token = "c.1.s" ∧ secret' = "first" ∨ token = "c.2.s" ∧ secret' = "second") ∧
        now < 604920000 := by
    simp only [jwt]
    split_ifs with hkey htime <;> simp_all
  rw [hverify]
  simp only [jwt] at hsigned
  split at hsigned
  next hsecret =>
    obtain rfl := Except.ok.inj hsigned
    simp [hsecret]
  next =>
    split at hsigned
    next hsecret =>
      obtain rfl := Except.ok.inj hsigned
      simp [hsecret]
    next => contradiction

def deployment : Deployment where
  now := 120000
  settings := ⟨"first", "7d", "", none, 3600000⟩
  secrets := ["first", ""]

theorem deployment_initial : deployments.Initial deployment :=
  ⟨⟨by decide, by decide⟩, rfl⟩

/-- A rotation ten seconds after the token was issued, and some more time. -/
def script (ms : Nat) : List Operation :=
  [.issue client, .wait 10000, .rotate "second" 130000, .wait ms]

def rotated : TokenSettings := ⟨"second", "7d", "first", some 130000, 3600000⟩

end Sample

/-- The token of the client is accepted for the hour after the rotation. -/
theorem sample_accepted_while_standing :
    (∃ result, verifyJwt Sample.jwt Sample.rotated "c.1.s" 3729999 = .ok result) ∧
      ¬∃ result, verifyJwt Sample.jwt Sample.rotated "c.1.s" 3730000 = .ok result := by
  have haccepted (ms : Nat) :
      (∃ result, verifyJwt Sample.jwt Sample.rotated "c.1.s" (130000 + ms) = .ok result) ↔
        130000 + ms < 604920000 ∧ ms < 3600000 := by
    have hreplay : ∃ t later, TransitionSystem.replay Deployment.perform Sample.deployment
        (Sample.script ms) =
          some (t :: later, ⟨130000 + ms, Sample.rotated, ["second", "first", ""]⟩) ∧
        t.before = Sample.deployment ∧ t.action = .issue Sample.client ∧
        changes later = [some 130000] :=
      ⟨_, _, rfl, rfl, rfl, rfl⟩
    obtain ⟨t, later, hreplay, hbefore, hissue, hchanges⟩ := hreplay
    have hrun : deployments.Run Sample.deployment ([] ++ t :: later) _ :=
      .of_replay (fun _ _ _ => id) hreplay
    have hissued : issueJwt Sample.jwt t.before.settings Sample.client t.before.now =
        .ok "c.1.s" := by
      rw [hbefore]
      rfl
    obtain ⟨-, hiff⟩ := accepted_while_standing Sample.deployment_initial hrun
      (Sample.jwt_hs256 _) hissue hissued
    rw [hiff, hchanges]
    simp [Sample.deployment]
    omega
  exact ⟨(haccepted 3599999).mpr (by decide),
    fun h => absurd ((haccepted 3600000).mp h) (by decide)⟩

end Rotation

end StellarKraal.Auth
