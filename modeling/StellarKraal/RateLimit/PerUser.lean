import StellarKraal.RateLimit.UserWindows

/-!
# Limits per user

The limiter for expensive operations is meant to count by user. It counts by address,
so a request is charged for those of other users there and not for the user's own from
elsewhere.
-/

namespace StellarKraal.RateLimit

open Auth (AuthenticatedAs Jwt)
open TransitionSystem (Transition HistoryVariable)

/-! ## Charges -/

/-- The requests counted at the address since its row was created. -/
def atAddress (earlier : List (Transition (Server Auth.Request) (Action Auth.Request)))
    (s : Server Auth.Request) (address : String) : Finset Nat :=
  (((windows Auth.Request).after earlier).counted ("expensive:ip:" ++ address)).filter fun id =>
    (s.requests id).map (fun request => ipText request.req) = some address

/-- The total that the step charges the request. -/
def charge {Req : Type} (t : Transition (Server Req) (Action Req)) (id : Nat) : Option Int :=
  match t.after.requests id with
  | some ⟨_, _, .counted response⟩ => some response.totalHits
  | _ => none

/-! ## Runs of authenticated requests -/

/-- Requests come through `requireAuth`, each as its user, and to `expensiveOpLimiter`. -/
def Authenticated (jwt : Jwt) (userOf : Nat → String)
    (t : Transition (Server Auth.Request) (Action Auth.Request)) : Prop :=
  ∀ id limiter req, t.action = .arrive id limiter req →
    limiter = expensiveOpLimiter ∧ AuthenticatedAs jwt (userOf id) req

structure ByAddress (h : Windows) (s : Server Auth.Request) : Prop where
  accurate : Accurate h s
  limiter : ∀ id request, s.requests id = some request → request.limiter = expensiveOpLimiter
  key : ∀ id request, s.requests id = some request →
    request.key = "expensive:ip:" ++ ipText request.req
  refunded : h.refunded = ∅

section Runs

variable {jwt : Jwt} {userOf : Nat → String} {start s s' : Server Auth.Request}
  {h : Windows} {a : Action Auth.Request}
  {steps : List (Transition (Server Auth.Request) (Action Auth.Request))}

theorem ByAddress.no_refund (hby : ByAddress h s) : refunds ⟨s, a, s'⟩ = none := by
  unfold refunds
  split
  next id outside _ =>
    split
    next request hrequest =>
      simp [hby.limiter id request hrequest, expensiveOpLimiter]
    next => rfl
  next => rfl

/-- A request that is not new has the limiter and the data it arrived with. -/
theorem request_of_act {id : Nat} {request : Request Auth.Request} (hact : s.act a = some s')
    (hrequest : s'.requests id = some request) :
    a = .arrive id request.limiter request.req ∨
      ∃ old, s.requests id = some old ∧ request.limiter = old.limiter ∧ request.req = old.req := by
  cases Effect.of_act hact with
  | @arrive id' limiter req hnew =>
      rcases eq_or_of_withRequest hrequest with ⟨rfl, rfl⟩ | hold
      · exact .inl rfl
      · exact .inr ⟨request, hold, rfl, rfl⟩
  | @query id' outside old script hold hphase =>
      rcases eq_or_of_withRequest hrequest with ⟨rfl, rfl⟩ | hkept
      · exact .inr ⟨old, hold, rfl, rfl⟩
      · exact .inr ⟨request, hkept, rfl, rfl⟩
  | @succeed id' outside old response hold hphase =>
      rcases eq_or_of_withRequest hrequest with ⟨rfl, rfl⟩ | hkept
      · exact .inr ⟨old, hold, rfl, rfl⟩
      · exact .inr ⟨request, hkept, rfl, rfl⟩

theorem ByAddress.step (hjwt : jwt.Faithful) (hby : ByAddress h s) (hact : s.act a = some s')
    (hauth : Authenticated jwt userOf ⟨s, a, s'⟩) :
    ByAddress ((windows Auth.Request).update h ⟨s, a, s'⟩) s' where
  accurate := hby.accurate.step hact fun id request hrefunds => by
    simp [hby.no_refund] at hrefunds
  limiter id request hrequest := by
    rcases request_of_act hact hrequest with harrive | ⟨old, hold, hlimiter, -⟩
    · exact (hauth id _ _ harrive).1
    · exact hlimiter.trans (hby.limiter id old hold)
  key id request hrequest := by
    rcases request_of_act hact hrequest with harrive | ⟨old, hold, hlimiter, hreq⟩
    · obtain ⟨hlimiter, huser⟩ := hauth id _ _ harrive
      rw [Request.key, hlimiter]
      change "expensive:" ++ userOrIpKeyGenerator request.req = _
      rw [userOrIpKeyGenerator_of_authenticated hjwt huser, ← String.append_assoc]
      rfl
    · rw [Request.key, hlimiter, hreq]
      exact hby.key id old hold
  refunded := by simp [windows, hby.refunded, hby.no_refund]

theorem ByAddress.of_run (hjwt : jwt.Faithful) (hstart : (limiting Auth.Request).Initial start)
    (hrun : (limiting Auth.Request).Run start steps s)
    (hauth : ∀ t ∈ steps, Authenticated jwt userOf t) :
    ByAddress ((windows Auth.Request).after steps) s := by
  refine hrun.history_invariant (windows Auth.Request) (Authenticated jwt userOf) hauth ?_
    fun _ _ _ _ hby hact hauth => hby.step hjwt hact hauth
  refine ⟨Accurate.start hstart, ?_, ?_, rfl⟩ <;>
  · intro id request hrequest
    simp [hstart.2 id] at hrequest

/-- The charged requests of an address's key are those counted at the address. -/
theorem ByAddress.charged_eq (hby : ByAddress ((windows Auth.Request).after steps) s)
    (address : String) :
    ((windows Auth.Request).after steps).charged s ("expensive:ip:" ++ address) =
      atAddress steps s address := by
  refine Finset.filter_congr fun id _ => ?_
  cases hrequest : s.requests id with
  | none => simp
  | some request =>
      simp [hby.key id request hrequest, hby.refunded, String.ext_iff]

/-- A hit adds one to the requests charged so far. -/
theorem Accurate.hit_hits (haccurate : Accurate h s) (key : String) (resetTime : Nat) :
    (s.table.hit key resetTime).hits = 1 + ((h.charged s key).card : Int) := by
  unfold Table.hit
  split
  next row hrow =>
    simp only [haccurate.hits key row hrow]
    omega
  next hnone => simp [Windows.charged, haccurate.closed key hnone]

/-- A step that counts a request serves one that is there. -/
theorem request_of_counts {id : Nat} (hact : s.act a = some s')
    (hcounts : counts ⟨s, a, s'⟩ = some id) : ∃ request, s.requests id = some request := by
  cases Effect.of_act hact with
  | arrive hnew => contradiction
  | succeed hrequest hphase => contradiction
  | @query id' outside request script hrequest hphase =>
      simp only [counts, withRequest_requests, if_true] at hcounts
      split at hcounts
      next =>
        obtain rfl := Option.some.inj hcounts
        exact ⟨request, hrequest⟩
      next => contradiction

/-- What a request is charged is one more than was counted at its address. -/
theorem charge_eq {id : Nat} {request : Request Auth.Request}
    (hby : ByAddress ((windows Auth.Request).after steps) s) (hact : s.act a = some s')
    (hrequest : s.requests id = some request) (hcounts : counts ⟨s, a, s'⟩ = some id) :
    charge ⟨s, a, s'⟩ id = some (1 + ((atAddress steps s (ipText request.req)).card : Int)) := by
  rw [← hby.charged_eq, ← hby.key id request hrequest]
  cases Effect.of_act hact with
  | arrive hnew => contradiction
  | succeed hold hphase => contradiction
  | @query id' outside old script hold hphase =>
      have hserved := (hby.accurate.stage id' old script hold hphase).served outside s.table
      generalize Phase.ofScript (script.step (serve outside) s.table).1 = phase
        at hserved hcounts ⊢
      generalize (script.step (serve outside) s.table).2 = table at hserved hcounts ⊢
      cases hserved with
      | waits hrest => simp [counts, withRequest_requests] at hcounts
      | cleans now hrest => simp [counts, withRequest_requests] at hcounts
      | throws => simp [counts, withRequest_requests] at hcounts
      | counts resetTime =>
          obtain rfl : id' = id := by simpa [counts, withRequest_requests] using hcounts
          obtain rfl := Option.some.inj (hold.symm.trans hrequest)
          simp [charge, withRequest_requests, hby.accurate.hit_hits]

end Runs

/-! ## Addresses of one user -/

/-- A counted request is charged for its user's requests, and for these alone. -/
def ChargedPerUser (userOf : Nat → String)
    (earlier : List (Transition (Server Auth.Request) (Action Auth.Request)))
    (t : Transition (Server Auth.Request) (Action Auth.Request)) : Prop :=
  ∀ id request, counts t = some id → t.before.requests id = some request →
    charge t id = some (1 + ((ofUser userOf earlier (userOf id)).card : Int)) ∧
      atAddress earlier t.before (ipText request.req) = ofUser userOf earlier (userOf id)

/-- A counted request comes from an address where only its user has been counted since the
row was created, and the user's present window has requests from nowhere else. -/
def OwnAddress (userOf : Nat → String)
    (earlier : List (Transition (Server Auth.Request) (Action Auth.Request)))
    (t : Transition (Server Auth.Request) (Action Auth.Request)) : Prop :=
  ∀ id request, counts t = some id → t.before.requests id = some request →
    (∀ i ∈ atAddress earlier t.before (ipText request.req), userOf i = userOf id) ∧
      ∀ i ∈ ofUser userOf earlier (userOf id),
        (t.before.requests i).map (fun request => ipText request.req) = some (ipText request.req)

/-- A run of authenticated requests, from a fresh server. -/
def AuthenticatedRun (jwt : Jwt) (userOf : Nat → String)
    (steps : List (Transition (Server Auth.Request) (Action Auth.Request))) : Prop :=
  ∃ start s, (limiting Auth.Request).Initial start ∧ (limiting Auth.Request).Run start steps s ∧
    ∀ t ∈ steps, Authenticated jwt userOf t

/-- Every request counted in the run is. -/
def EachOwn (userOf : Nat → String)
    (steps : List (Transition (Server Auth.Request) (Action Auth.Request))) : Prop :=
  ∀ earlier t later, steps = earlier ++ t :: later → OwnAddress userOf earlier t

section Runs

variable {jwt : Jwt} {userOf : Nat → String} {start s s' : Server Auth.Request}
  {h : Windows} {a : Action Auth.Request}
  {steps : List (Transition (Server Auth.Request) (Action Auth.Request))}

/-- Requests keep the address they arrived from. -/
theorem addresses_of_run (addressOf : String → String)
    (hstart : (limiting Auth.Request).Initial start)
    (hrun : (limiting Auth.Request).Run start steps s)
    (haddress : ∀ t ∈ steps, ∀ id limiter req, t.action = .arrive id limiter req →
      ipText req = addressOf (userOf id)) :
    ∀ i request, s.requests i = some request → ipText request.req = addressOf (userOf i) := by
  induction hrun with
  | nil =>
      intro i request hrequest
      simp [hstart.2 i] at hrequest
  | @snoc earlier s s' a prior step ih =>
      intro i request hrequest
      rcases request_of_act step hrequest with harrive | ⟨old, hold, -, hreq⟩
      · exact haddress _ (List.mem_append_right _ List.mem_cons_self) i _ _ harrive
      · rw [hreq]
        exact ih (fun t ht => haddress t (List.mem_append_left _ ht)) i old hold

theorem ByAddress.own (hby : ByAddress ((windows Auth.Request).after steps) s)
    (hown : OwnAddress userOf steps ⟨s, a, s'⟩) (id : Nat) (request : Request Auth.Request)
    (hcounts : counts ⟨s, a, s'⟩ = some id) (hrequest : s.requests id = some request) :
    Own userOf ((windows Auth.Request).after steps) s
      ((userWindows Auth.Request userOf).after steps) request id := by
  obtain ⟨haddress, huser⟩ := hown id request hcounts hrequest
  constructor
  · rw [hby.key id request hrequest, hby.charged_eq]
    exact haddress
  · intro window hwindow i hi
    have hmem : i ∈ ofUser userOf steps (userOf id) := by
      rw [ofUser, hwindow]
      exact hi
    obtain ⟨other, hother, hip⟩ := Option.map_eq_some_iff.mp (huser i hmem)
    rw [hother, Option.map_some, hby.key i other hother, hip, hby.key id request hrequest]

theorem InStep.of_run (hjwt : jwt.Faithful) (hstart : (limiting Auth.Request).Initial start)
    (hrun : (limiting Auth.Request).Run start steps s)
    (hauth : ∀ t ∈ steps, Authenticated jwt userOf t) (hown : EachOwn userOf steps) :
    InStep userOf ((windows Auth.Request).after steps) s
      ((userWindows Auth.Request userOf).after steps) := by
  induction hrun with
  | nil => exact InStep.start hstart
  | @snoc earlier s s' a prior step ih =>
      obtain ⟨hearlier, hlast⟩ := TransitionSystem.Throughout.forall_split_snoc.mp hown
      have hauth' := fun u hu => hauth u (List.mem_append_left _ hu)
      have hby := ByAddress.of_run hjwt hstart prior hauth'
      rw [HistoryVariable.after_snoc, HistoryVariable.after_snoc]
      exact (ih hauth' hearlier).step hby.accurate step hby.no_refund
        fun id request hcounts hrequest => hby.own hlast id request hcounts hrequest

/-- In step, the requests of the row are those of the user. -/
theorem InStep.charged_eq (hin : InStep userOf h s ((userWindows Auth.Request userOf).after steps))
    (haccurate : Accurate h s) {id : Nat} {request : Request Auth.Request}
    (hown : Own userOf h s ((userWindows Auth.Request userOf).after steps) request id) :
    h.charged s request.key = ofUser userOf steps (userOf id) := by
  cases hrow : s.table request.key with
  | some row =>
      obtain ⟨user, hpair⟩ := hin.rows request.key (by simp [hrow])
      obtain rfl := hin.user_eq hpair hown.1
      obtain ⟨window, -, hwindow, -, -, hrequests⟩ := hpair
      rw [hrequests, ofUser, hwindow, Option.map_some, Option.getD_some]
  | none =>
      have hempty : h.charged s request.key = ∅ := by
        simp [Windows.charged, haccurate.closed request.key hrow]
      rw [hempty, ofUser]
      cases hwindow : (userWindows Auth.Request userOf).after steps (userOf id) with
      | none => rfl
      | some window =>
          obtain ⟨key, hpair⟩ := hin.users (userOf id) (by simp [hwindow])
          obtain rfl := hin.key_eq hpair hown.2
          obtain ⟨-, row, -, hsome, -⟩ := hpair
          simp [hrow] at hsome

end Runs

/-- A counted request of its own is charged for its user's requests. -/
theorem ChargedPerUser.of_run {jwt : Jwt} (hjwt : jwt.Faithful) {userOf : Nat → String}
    {start s s' : Server Auth.Request} {a : Action Auth.Request}
    {earlier : List (Transition (Server Auth.Request) (Action Auth.Request))}
    (hstart : (limiting Auth.Request).Initial start)
    (hprior : (limiting Auth.Request).Run start earlier s) (hstep : s.act a = some s')
    (hauth : ∀ t ∈ earlier, Authenticated jwt userOf t) (hearlier : EachOwn userOf earlier)
    (hown : OwnAddress userOf earlier ⟨s, a, s'⟩) : ChargedPerUser userOf earlier ⟨s, a, s'⟩ := by
  intro id request hcounts hrequest
  have hby := ByAddress.of_run hjwt hstart hprior hauth
  have hin := InStep.of_run hjwt hstart hprior hauth hearlier
  have hsame : atAddress earlier s (ipText request.req) = ofUser userOf earlier (userOf id) := by
    rw [← hby.charged_eq, ← hby.key id request hrequest]
    exact hin.charged_eq hby.accurate (hby.own hown id request hcounts hrequest)
  refine ⟨?_, hsame⟩
  rw [charge_eq hby hstep hrequest hcounts, hsame]

theorem ChargedPerUser.own {userOf : Nat → String}
    {earlier : List (Transition (Server Auth.Request) (Action Auth.Request))}
    {t : Transition (Server Auth.Request) (Action Auth.Request)}
    (h : ChargedPerUser userOf earlier t) : OwnAddress userOf earlier t := by
  intro id request hcounts hrequest
  obtain ⟨-, hsame⟩ := h id request hcounts hrequest
  constructor
  · rw [hsame]
    exact fun i hi => (served_of_mem_ofUser hi).1
  · rw [← hsame]
    exact fun i hi => (Finset.mem_filter.mp hi).2

theorem AuthenticatedRun.exists_request {jwt : Jwt} {userOf : Nat → String}
    {steps earlier later : List (Transition (Server Auth.Request) (Action Auth.Request))}
    {t : Transition (Server Auth.Request) (Action Auth.Request)} {id : Nat}
    (hrun : AuthenticatedRun jwt userOf steps) (hsplit : steps = earlier ++ t :: later)
    (hcounts : counts t = some id) : ∃ request, t.before.requests id = some request := by
  obtain ⟨start, s, -, hrun, -⟩ := hrun
  subst hsplit
  obtain ⟨-, hstep⟩ := hrun.of_split
  exact request_of_counts hstep hcounts

theorem AuthenticatedRun.charged {jwt : Jwt} (hjwt : jwt.Faithful) {userOf : Nat → String}
    {steps : List (Transition (Server Auth.Request) (Action Auth.Request))}
    (hrun : AuthenticatedRun jwt userOf steps) (hown : EachOwn userOf steps) :
    ∀ earlier t later, steps = earlier ++ t :: later → ChargedPerUser userOf earlier t := by
  obtain ⟨start, s, hstart, hrun, hauth⟩ := hrun
  rintro earlier t later rfl
  obtain ⟨hprior, hstep⟩ := hrun.of_split
  refine ChargedPerUser.of_run hjwt hstart hprior hstep
    (fun u hu => hauth u (List.mem_append_left _ hu)) ?_ (hown earlier t later rfl)
  rintro first u rest rfl
  exact hown first u (rest ++ t :: later) (by simp)

/-- Users of one address each, none of which they share. -/
theorem EachOwn.of_addresses {jwt : Jwt} {userOf : Nat → String} (addressOf : String → String)
    (hinj : ∀ i j, addressOf (userOf i) = addressOf (userOf j) → userOf i = userOf j)
    {steps : List (Transition (Server Auth.Request) (Action Auth.Request))}
    (hrun : AuthenticatedRun jwt userOf steps)
    (haddress : ∀ t ∈ steps, ∀ id limiter req, t.action = .arrive id limiter req →
      ipText req = addressOf (userOf id)) : EachOwn userOf steps := by
  obtain ⟨start, s, hstart, hrun, -⟩ := hrun
  rintro earlier t later rfl id request hcounts hrequest
  obtain ⟨hprior, -⟩ := hrun.of_split
  have hips := addresses_of_run addressOf hstart hprior fun u hu =>
    haddress u (List.mem_append_left _ hu)
  constructor
  · intro i hi
    obtain ⟨other, hother, hip⟩ := Option.map_eq_some_iff.mp (Finset.mem_filter.mp hi).2
    apply hinj
    rw [← hips i other hother, ← hips id request hrequest, hip]
  · intro i hi
    obtain ⟨huser, u, hu, query, hserved⟩ := served_of_mem_ofUser hi
    obtain ⟨other, hother⟩ := exists_request_of_served hprior u hu i query hserved
    rw [hother, Option.map_some, hips i other hother, hips id request hrequest, huser]

/-- In a run of authenticated requests every one counted is charged for its user's requests
exactly if all come from addresses of their own. A request is then charged the same in any
other such run with the same requests of its user and the same clean-ups. -/
theorem charged_per_user_iff {jwt : Jwt} (hjwt : jwt.Faithful) {userOf : Nat → String}
    {steps : List (Transition (Server Auth.Request) (Action Auth.Request))}
    (hrun : AuthenticatedRun jwt userOf steps) :
    ((∀ earlier t later, steps = earlier ++ t :: later → ChargedPerUser userOf earlier t) ↔
      EachOwn userOf steps) ∧
    ∀ userOf' steps', AuthenticatedRun jwt userOf' steps' →
      EachOwn userOf steps → EachOwn userOf' steps' →
        ∀ earlier t later earlier' t' later' id id', steps = earlier ++ t :: later →
          steps' = earlier' ++ t' :: later' → counts t = some id → counts t' = some id' →
            userOf id = userOf' id' →
              earlier.filterMap (seenBy userOf (userOf id)) =
                earlier'.filterMap (seenBy userOf' (userOf id)) → charge t id = charge t' id' := by
  refine ⟨⟨fun h earlier t later hsplit => (h earlier t later hsplit).own, hrun.charged hjwt⟩, ?_⟩
  intro userOf' steps' hrun' hown hown' earlier t later earlier' t' later' id id' hsplit hsplit'
    hcounts hcounts' huser hseen
  obtain ⟨request, hrequest⟩ := hrun.exists_request hsplit hcounts
  obtain ⟨request', hrequest'⟩ := hrun'.exists_request hsplit' hcounts'
  obtain ⟨hcharge, -⟩ := hrun.charged hjwt hown earlier t later hsplit id request hcounts hrequest
  obtain ⟨hcharge', -⟩ :=
    hrun'.charged hjwt hown' earlier' t' later' hsplit' id' request' hcounts' hrequest'
  rw [hcharge, hcharge', ofUser_eq, ofUser_eq, hseen, huser]

namespace Sample

def alice : Auth.TokenPayload := ⟨"alice", "GALICE", "FARMER"⟩

def bob : Auth.TokenPayload := ⟨"bob", "GBOB", "FARMER"⟩

def decoded (payload : Auth.TokenPayload) : OracleBridge.JsonObject :=
  payload.toJson ++ [("iat", .number 1000), ("exp", .number 87400)]

/-- Tokens of the two users. -/
def jwt : Jwt where
  sign payload _ _ _ :=
    match payload with
    | [("sub", .string sub), ("publicKey", .string publicKey), ("role", .string role)] =>
        if (⟨sub, publicKey, role⟩ : Auth.TokenPayload) = alice then .ok "a.l.ice"
        else if (⟨sub, publicKey, role⟩ : Auth.TokenPayload) = bob then .ok "b.o.b"
        else .error "not implemented"
    | _ => .error "not implemented"
  verify token _ _ :=
    if token = "a.l.ice" then .ok (decoded alice)
    else if token = "b.o.b" then .ok (decoded bob)
    else .error "jwt malformed"

theorem decoded_get (payload : Auth.TokenPayload) {key : String} (hiat : key ≠ "iat")
    (hexp : key ≠ "exp") : (decoded payload).get key = payload.toJson.get key := by
  have hiat' : (key == "iat") = false := by simpa using hiat
  have hexp' : (key == "exp") = false := by simpa using hexp
  simp [decoded, OracleBridge.JsonObject.get, List.lookup_append, List.lookup_cons, hiat', hexp']

theorem jwt_faithful : jwt.Faithful := by
  intro payload secret expiresIn issuedAt token hsigned secret' now result hverified key hiat hexp
  simp only [jwt] at hsigned hverified
  split at hsigned
  next sub publicKey role =>
    split at hsigned
    next halice =>
      obtain rfl := Except.ok.inj hsigned
      obtain rfl := Except.ok.inj hverified
      rw [decoded_get alice hiat hexp, ← halice]
      rfl
    next =>
      split at hsigned
      next hbob =>
        obtain rfl := Except.ok.inj hsigned
        obtain rfl := Except.ok.inj hverified
        rw [decoded_get bob hiat hexp, ← hbob]
        rfl
      next => contradiction
  next => contradiction

/-- A request that has come through `requireAuth`. -/
def authenticated (payload : Auth.TokenPayload) (token ip : String) : Auth.Request :=
  ⟨some (.string token), none, some ip, some (decoded payload)⟩

def tokenSettings : Auth.TokenSettings := ⟨"secret", "24h", "", none, 3600000⟩

theorem authenticated_alice (ip : String) :
    AuthenticatedAs jwt "alice" (authenticated alice "a.l.ice" ip) :=
  ⟨tokenSettings, 2000, ⟨some (.string "a.l.ice"), none, some ip, none⟩, "a.l.ice", rfl,
    ⟨tokenSettings, "GALICE", 1000, "alice", fun _ => none,
      ⟨"alice", "GALICE", "FARMER"⟩, rfl, rfl⟩, rfl⟩

theorem authenticated_bob (ip : String) :
    AuthenticatedAs jwt "bob" (authenticated bob "b.o.b" ip) :=
  ⟨tokenSettings, 2000, ⟨some (.string "b.o.b"), none, some ip, none⟩, "b.o.b", rfl,
    ⟨tokenSettings, "GBOB", 1000, "bob", fun _ => none,
      ⟨"bob", "GBOB", "FARMER"⟩, rfl, rfl⟩, rfl⟩

/-- The first request of one user, then one of another; all but its last query. -/
def before (payload : Auth.TokenPayload) (token : String) : List (Action Auth.Request) :=
  counted 1 expensiveOpLimiter (authenticated alice "a.l.ice" "203.0.113.7") 2000 ++
    [.arrive 2 expensiveOpLimiter (authenticated payload token "203.0.113.7"),
      .query 2 ⟨3000, false⟩, .query 2 ⟨3000, false⟩]

theorem authenticated_of_before {userOf : Nat → String} {payload : Auth.TokenPayload}
    {token : String} (hfirst : userOf 1 = "alice")
    (hsecond : AuthenticatedAs jwt (userOf 2) (authenticated payload token "203.0.113.7"))
    {t : Transition (Server Auth.Request) (Action Auth.Request)}
    (ht : t.action ∈ before payload token) : Authenticated jwt userOf t := by
  intro id limiter req harrive
  simp only [before, counted, harrive, List.mem_append, List.mem_cons, Action.arrive.injEq,
    List.not_mem_nil, reduceCtorEq, or_false] at ht
  rcases ht with ⟨rfl, rfl, rfl⟩ | ⟨rfl, rfl, rfl⟩
  · exact ⟨rfl, hfirst ▸ authenticated_alice _⟩
  · exact ⟨rfl, hsecond⟩

theorem address_of_before {payload : Auth.TokenPayload} {token : String}
    {t : Transition (Server Auth.Request) (Action Auth.Request)}
    (ht : t.action ∈ before payload token) (id : Nat) (limiter : Limiter Auth.Request)
    (req : Auth.Request) (harrive : t.action = .arrive id limiter req) :
    ipText req = "203.0.113.7" := by
  simp only [before, counted, harrive, List.mem_append, List.mem_cons, Action.arrive.injEq,
    List.not_mem_nil, reduceCtorEq, or_false] at ht
  rcases ht with ⟨-, -, rfl⟩ | ⟨-, -, rfl⟩ <;> rfl

theorem own_of_before {steps : List (Transition (Server Auth.Request) (Action Auth.Request))}
    {s : Server Auth.Request} (hrun : (limiting Auth.Request).Run fresh steps s)
    (hactions : ∀ t ∈ steps, t.action ∈ before alice "a.l.ice" ∨
      t.action = .query 2 ⟨3000, false⟩) :
    AuthenticatedRun jwt (fun _ => "alice") steps ∧ EachOwn (fun _ => "alice") steps := by
  have hauth : AuthenticatedRun jwt (fun _ => "alice") steps := by
    refine ⟨fresh, s, fresh_fresh, hrun, fun t ht => ?_⟩
    rcases hactions t ht with hbefore | hquery
    · exact authenticated_of_before rfl (authenticated_alice _) hbefore
    · intro id limiter req harrive
      simp [hquery] at harrive
  refine ⟨hauth, EachOwn.of_addresses (fun _ => "203.0.113.7") (fun _ _ _ => rfl) hauth ?_⟩
  intro t ht id limiter req harrive
  rcases hactions t ht with hbefore | hquery
  · exact address_of_before hbefore id limiter req harrive
  · simp [hquery] at harrive

end Sample

/-- A user's second request from the same address is charged two. -/
theorem sample_charged : ∃ steps s t, (limiting Auth.Request).Run Sample.fresh steps s ∧
    t ∈ steps ∧ charge t 2 = some 2 := by
  have hreplay : TransitionSystem.replay Server.act Sample.fresh
    (Sample.before Sample.alice "a.l.ice") = some (_, _) := rfl
  have hrun := (Sample.run_of_replay hreplay).snoc
    (show Server.act _ (.query 2 ⟨3000, false⟩) = some _ from rfl)
  obtain ⟨hauth, hown⟩ := Sample.own_of_before hrun fun t ht => by
    rcases List.mem_append.mp ht with ht | ht
    · exact .inl (TransitionSystem.action_mem_of_replay hreplay t ht)
    · exact .inr (congrArg Transition.action (List.mem_singleton.mp ht))
  refine ⟨_, _, _, hrun, List.mem_append_right _ List.mem_cons_self, ?_⟩
  obtain ⟨hcharge, -⟩ :=
    (charged_per_user_iff Sample.jwt_faithful hauth).1.mpr hown _ _ [] rfl 2 _ rfl rfl
  exact hcharge.trans (by decide)

/-- Another user's first request from the address is charged two as well. -/
theorem stranger_charged :
    ¬ ∀ (userOf : Nat → String) (s : Server Auth.Request) steps earlier t id,
      (limiting Auth.Request).Run Sample.fresh steps s →
        (∀ t ∈ steps, Authenticated Sample.jwt userOf t) → steps = earlier ++ [t] →
          counts t = some id →
            charge t id = some (1 + ((ofUser userOf earlier (userOf id)).card : Int)) := by
  intro hclaim
  have hreplay : TransitionSystem.replay Server.act Sample.fresh
    (Sample.before Sample.bob "b.o.b") = some (_, _) := rfl
  have hrun := (Sample.run_of_replay hreplay).snoc
    (show Server.act _ (.query 2 ⟨3000, false⟩) = some _ from rfl)
  have hcharge := hclaim (fun id => if id = 1 then "alice" else "bob") _ _ _ _ 2 hrun ?_ rfl rfl
  · exact absurd hcharge (by decide)
  · intro t ht
    rcases List.mem_append.mp ht with ht | ht
    · exact Sample.authenticated_of_before rfl (Sample.authenticated_bob _)
        (TransitionSystem.action_mem_of_replay hreplay t ht)
    · obtain rfl := List.mem_singleton.mp ht
      exact nofun

end StellarKraal.RateLimit
