import StellarKraal.Auth.Accounts

/-!
# Who is let in

A request is let in for its token. Behind every token there is a user of the table and a
login that showed the signature of the user's key, whatever else was served in between.
-/

namespace StellarKraal.Auth

open OracleBridge (Json JsonObject)
open TextInput (trim)
open TransitionSystem (Transition)

section Facts

variable {Buffer Hash Signature : Type} {sdk : StellarSdk String Buffer Hash Signature}
  {env : Settings} {jwt : Jwt}

/-! ## What each handler does -/

theorem login_ok {body : JsonObject} {now : Nat} {s : Challenges} {key : PublicKey}
    (h : (login sdk env body now s).1 = .ok key) :
    ∃ pending signedTransaction tx, s key = some pending ∧ now ≤ pending.expiresAt ∧
      loginFields body = .ok (key, signedTransaction) ∧
      sdk.fromXdr env.networkPassphrase signedTransaction = some tx ∧
      tx.Answers sdk env key now pending.nonce := by
  unfold login at h
  split at h
  next => contradiction
  next publicKey signedTransaction hfields =>
    obtain ⟨rfl, -, pending, hpending, htime, tx, htx, hanswers⟩ :=
      verifyChallenge_eq_ok.mp (Except.mapError_eq_ok.mp h)
    exact ⟨pending, signedTransaction, tx, hpending, htime, hfields, htx, hanswers⟩

/-- A login adds no challenge. -/
theorem login_challenges {body : JsonObject} {now : Nat} {s : Challenges} {key : PublicKey}
    {pending : PendingChallenge} (h : (login sdk env body now s).2 key = some pending) :
    s key = some pending := by
  unfold login at h
  split at h
  next => exact h
  next publicKey signedTransaction _ =>
    rcases @verifyChallenge_challenges _ _ _ _ sdk env publicKey now signedTransaction s with
      ⟨hdelete, -⟩ | ⟨hsame, -⟩
    · simp only [hdelete, Challenges.delete, Function.update_apply] at h
      split at h
      next => contradiction
      next => exact h
    · rwa [hsame] at h

/-- A challenge that `getChallenge` leaves was there before, or it is the one it built. -/
theorem getChallenge_challenges {publicKey : Option Json} {now : Nat} {uuid : String}
    {s : Challenges} {key : PublicKey} {pending : PendingChallenge}
    (h : (getChallenge sdk env publicKey now uuid s).2 key = some pending) :
    s key = some pending ∨ (∃ text, publicKey = some (.string text) ∧ trim text = key) ∧
      pending = ⟨nonceOf uuid, now + challengeTtlSeconds * 1000⟩ := by
  unfold getChallenge at h
  split at h
  next text =>
    split at h
    next => exact .inl h
    next =>
      simp only [buildChallenge] at h
      split at h
      next => exact .inl h
      next =>
        simp only [Function.update_apply] at h
        split at h
        next heq => exact .inr ⟨⟨text, rfl, heq.symm⟩, (Option.some.inj h).symm⟩
        next => exact .inl h
  next => exact .inl h

theorem createUser_eq_some {users users' : Users} {publicKey newId : String} {user : User}
    (h : createUser users publicKey newId = some (users', user)) :
    users.lookup publicKey = none ∧
      (∀ key other, users.lookup key = some other → other.id ≠ newId) ∧
      user = ⟨newId, publicKey, "FARMER"⟩ ∧ users' = users.insert publicKey user := by
  unfold createUser at h
  split at h
  next => contradiction
  next hnew =>
    obtain ⟨rfl, rfl⟩ := Prod.mk.inj (Option.some.inj h)
    simp only [not_or, Bool.not_eq_true, Option.isSome_eq_false_iff, Option.isNone_iff_eq_none,
      List.any_eq_false, decide_eq_true_eq] at hnew
    refine ⟨hnew.1, fun key other hother => ?_, rfl, rfl⟩
    exact hnew.2 ⟨key, other⟩ (AList.mem_lookup_iff.mp hother)

/-! ## Who is let in -/

/-- `getChallenge` built this challenge for the key. -/
def Built (steps : List (Transition Server Action)) (key : PublicKey)
    (pending : PendingChallenge) : Prop :=
  ∃ t ∈ steps, ∃ text now uuid, t.action = .getChallenge (some (.string text)) now uuid ∧
    trim text = key ∧ pending = ⟨nonceOf uuid, now + challengeTtlSeconds * 1000⟩

/-- A login showed a transaction that the key's owner signed, and that answers in time a
challenge built for the key before. -/
def LoggedIn (sdk : StellarSdk String Buffer Hash Signature) (env : Settings)
    (steps : List (Transition Server Action)) (key : PublicKey) : Prop :=
  ∃ earlier t later pending body now signedTransaction tx,
    steps = earlier ++ t :: later ∧ Built earlier key pending ∧
    t.action = .login body now ∧ loginFields body = .ok (key, signedTransaction) ∧
    now ≤ pending.expiresAt ∧ sdk.fromXdr env.networkPassphrase signedTransaction = some tx ∧
    tx.Answers sdk env key now pending.nonce

/-- What is attached to a request names the user. -/
structure Names (payload : JsonObject) (user : User) : Prop where
  sub : payload.get "sub" = some (.string user.id)
  publicKey : payload.get "publicKey" = some (.string user.publicKey)
  role : payload.get "role" = some (.string user.role)

def SignedFor (jwt : Jwt) (token : String) (user : User) : Prop :=
  ∃ secret expiresIn now, jwt.sign
    (TokenPayload.toJson ⟨user.id, user.publicKey, user.role⟩) secret expiresIn now = .ok token

/-- The user is in the table, and logged in before. -/
def Known (sdk : StellarSdk String Buffer Hash Signature) (env : Settings)
    (steps : List (Transition Server Action)) (users : Users) (user : User) : Prop :=
  users.lookup user.publicKey = some user ∧ LoggedIn sdk env steps user.publicKey

structure Accounted (sdk : StellarSdk String Buffer Hash Signature) (env : Settings) (jwt : Jwt)
    (start : Server) (steps : List (Transition Server Action)) (s : Server) : Prop where
  keys : ∀ key user, s.users.lookup key = some user → user.publicKey = key
  ids : ∀ key key' user user', s.users.lookup key = some user → s.users.lookup key' = some user' →
    user.id = user'.id → key = key'
  roles : ∀ key user, s.users.lookup key = some user →
    user.role = "FARMER" ∨ start.users.lookup key = some user
  challenges : ∀ key pending, s.challenges key = some pending → Built steps key pending
  finding : ∀ key ∈ s.finding, LoggedIn sdk env steps key
  creating : ∀ key ∈ s.creating, LoggedIn sdk env steps key
  issued : ∀ token user, (token, user) ∈ s.issued →
    SignedFor jwt token user ∧ Known sdk env steps s.users user
  admitted : ∀ payload ∈ s.admitted, ∃ user, Names payload user ∧ Known sdk env steps s.users user

section Runs

variable {start s s' : Server} {steps : List (Transition Server Action)}
  {t : Transition Server Action} {users users' : Users} {user : User}

theorem LoggedIn.later {key : PublicKey} (h : LoggedIn sdk env steps key) :
    LoggedIn sdk env (steps ++ [t]) key := by
  obtain ⟨earlier, t', later, pending, body, now, signed, tx, rfl, h⟩ := h
  exact ⟨earlier, t', later ++ [t], pending, body, now, signed, tx, by simp, h⟩

theorem Known.later (h : Known sdk env steps users user)
    (hkept : ∀ key user, users.lookup key = some user → users'.lookup key = some user) :
    Known sdk env (steps ++ [t]) users' user :=
  ⟨hkept _ _ h.1, h.2.later⟩

/-- What a step does not touch stays accounted for. -/
theorem Accounted.later (h : Accounted sdk env jwt start steps s) :
    Accounted sdk env jwt start (steps ++ [t]) s where
  keys := h.keys
  ids := h.ids
  roles := h.roles
  challenges key pending hpending := by
    obtain ⟨t', ht', hbuilt⟩ := h.challenges key pending hpending
    exact ⟨t', List.mem_append_left _ ht', hbuilt⟩
  finding key hkey := (h.finding key hkey).later
  creating key hkey := (h.creating key hkey).later
  issued token user hissued :=
    ⟨(h.issued token user hissued).1, (h.issued token user hissued).2.later fun _ _ h => h⟩
  admitted payload hpayload := by
    obtain ⟨user, hnames, hknown⟩ := h.admitted payload hpayload
    exact ⟨user, hnames, hknown.later fun _ _ h => h⟩

theorem Accounted.issue (h : Accounted sdk env jwt start steps s)
    (hknown : Known sdk env steps s.users user) (now : Nat) :
    Accounted sdk env jwt start steps (Server.issue jwt s user now) := by
  unfold Server.issue
  split
  next token htoken =>
    refine { h with issued := fun token' user' hissued => ?_ }
    rcases List.mem_append.mp hissued with hissued | hissued
    · exact h.issued token' user' hissued
    · obtain ⟨rfl, rfl⟩ := Prod.mk.inj (List.mem_singleton.mp hissued)
      exact ⟨⟨_, _, _, htoken⟩, hknown⟩
  next => exact h

/-- A created user is the only one with its key and its id. -/
theorem Accounted.create (h : Accounted sdk env jwt start steps s) {key newId : String}
    (hcreate : createUser s.users key newId = some (users', user)) :
    Accounted sdk env jwt start steps { s with users := users' } := by
  obtain ⟨hfresh, hnew, rfl, rfl⟩ := createUser_eq_some hcreate
  have hkept : ∀ key' user, s.users.lookup key' = some user →
      (s.users.insert key ⟨newId, key, "FARMER"⟩).lookup key' = some user :=
    fun key' user hstored => KeyedStore.lookup_insert_of_fresh hfresh hstored
  refine { h with keys := ?_, ids := ?_, roles := ?_, issued := ?_, admitted := ?_ }
  · intro key' user hstored
    rcases KeyedStore.lookup_insert_cases hstored with ⟨rfl, rfl⟩ | ⟨-, hstored⟩
    · rfl
    · exact h.keys key' user hstored
  · intro key₁ key₂ user₁ user₂ h₁ h₂ hid
    rcases KeyedStore.lookup_insert_cases h₁ with ⟨rfl, rfl⟩ | ⟨-, hold₁⟩ <;>
      rcases KeyedStore.lookup_insert_cases h₂ with ⟨rfl, rfl⟩ | ⟨-, hold₂⟩
    · rfl
    · exact absurd hid.symm (hnew key₂ user₂ hold₂)
    · exact absurd hid (hnew key₁ user₁ hold₁)
    · exact h.ids key₁ key₂ user₁ user₂ hold₁ hold₂ hid
  · intro key' user hstored
    rcases KeyedStore.lookup_insert_cases hstored with ⟨rfl, rfl⟩ | ⟨-, hstored⟩
    · exact .inl rfl
    · exact h.roles key' user hstored
  · intro token user hissued
    obtain ⟨hsigned, hstored, hlogin⟩ := h.issued token user hissued
    exact ⟨hsigned, hkept _ _ hstored, hlogin⟩
  · intro payload hpayload
    obtain ⟨user, hnames, hstored, hlogin⟩ := h.admitted payload hpayload
    exact ⟨user, hnames, hkept _ _ hstored, hlogin⟩

/-! One lemma for each action of the server. -/

theorem Accounted.after_getChallenge (h : Accounted sdk env jwt start steps s)
    {publicKey : Option Json} {now : Nat} {uuid : String}
    (hact : s.act sdk env jwt (.getChallenge publicKey now uuid) = some s') :
    Accounted sdk env jwt start (steps ++ [⟨s, .getChallenge publicKey now uuid, s'⟩]) s' := by
  obtain rfl := Option.some.inj hact
  refine { h.later with challenges := fun key pending hpending => ?_ }
  rcases getChallenge_challenges hpending with hold | ⟨⟨text, rfl, hkey⟩, heq⟩
  · exact h.later.challenges key pending hold
  · exact ⟨_, List.mem_append_right _ List.mem_cons_self, text, now, uuid, rfl, hkey, heq⟩

theorem Accounted.after_login (h : Accounted sdk env jwt start steps s) {body : JsonObject}
    {now : Nat} (hact : s.act sdk env jwt (.login body now) = some s') :
    Accounted sdk env jwt start (steps ++ [⟨s, .login body now, s'⟩]) s' := by
  have hless : ∀ key pending, (login sdk env body now s.challenges).2 key = some pending →
      s.challenges key = some pending := fun key pending => login_challenges
  simp only [Server.act] at hact
  split at hact
  next key hverified =>
    obtain rfl := Option.some.inj hact
    obtain ⟨pending, signed, tx, hpending, htime, hfields, htx⟩ := login_ok hverified
    refine { h.later with
      challenges := fun key pending hkey => h.later.challenges key pending (hless key pending hkey)
      finding := fun key' hkey' => ?_ }
    rcases List.mem_append.mp hkey' with hold | hnew
    · exact (h.finding key' hold).later
    · obtain rfl := List.mem_singleton.mp hnew
      exact ⟨steps, _, [], pending, body, now, signed, tx, rfl, h.challenges key' pending hpending,
        rfl, hfields, htime, htx⟩
  next =>
    obtain rfl := Option.some.inj hact
    exact { h.later with
      challenges := fun key pending hkey =>
        h.later.challenges key pending (hless key pending hkey) }

theorem Accounted.after_find (h : Accounted sdk env jwt start steps s) {index now : Nat}
    (hact : s.act sdk env jwt (.find index now) = some s') :
    Accounted sdk env jwt start (steps ++ [⟨s, .find index now, s'⟩]) s' := by
  obtain ⟨key, hkey, rfl⟩ := Option.map_eq_some_iff.mp hact
  have hlogin := h.finding key (List.mem_of_getElem? hkey)
  have hrest : ∀ key' ∈ s.finding.eraseIdx index, key' ∈ s.finding := fun key' hkey' =>
    List.mem_of_mem_eraseIdx hkey'
  dsimp only
  split
  next user huser =>
    have hown := h.keys key user huser
    have hless : Accounted sdk env jwt start steps
        { s with finding := s.finding.eraseIdx index } :=
      { h with finding := fun key' hkey' => h.finding key' (hrest key' hkey') }
    have hknown : Known sdk env steps s.users user := by
      rw [← hown] at huser hlogin
      exact ⟨huser, hlogin⟩
    exact (hless.issue hknown now).later
  next =>
    refine { h.later with
      finding := fun key' hkey' => (h.finding key' (hrest key' hkey')).later
      creating := fun key' hkey' => ?_ }
    rcases List.mem_append.mp hkey' with hold | hnew
    · exact (h.creating key' hold).later
    · obtain rfl := List.mem_singleton.mp hnew
      exact hlogin.later

theorem Accounted.after_create (h : Accounted sdk env jwt start steps s) {index now : Nat}
    {newId : String} (hact : s.act sdk env jwt (.create index newId now) = some s') :
    Accounted sdk env jwt start (steps ++ [⟨s, .create index newId now, s'⟩]) s' := by
  obtain ⟨key, hkey, rfl⟩ := Option.map_eq_some_iff.mp hact
  have hless : Accounted sdk env jwt start steps
      { s with creating := s.creating.eraseIdx index } :=
    { h with creating := fun key' hkey' => h.creating key' (List.mem_of_mem_eraseIdx hkey') }
  dsimp only
  split
  next users user hcreate =>
    obtain ⟨-, -, rfl, rfl⟩ := createUser_eq_some hcreate
    have hknown : Known sdk env steps (s.users.insert key ⟨newId, key, "FARMER"⟩)
        ⟨newId, key, "FARMER"⟩ :=
      ⟨AList.lookup_insert s.users, h.creating key (List.mem_of_getElem? hkey)⟩
    exact ((hless.create hcreate).issue hknown now).later
  next => exact hless.later

/-- What a request is handed on with names the user its token was issued to. -/
theorem Accounted.names_of_requireAuth (hjwt : jwt.Faithful)
    (h : Accounted sdk env jwt start steps s) {req handed : Request} {now : Nat}
    (hunforged : Unforged jwt ⟨s, .request req now, s'⟩)
    (hhanded : requireAuth jwt s.secrets req now = .ok handed) :
    ∃ payload user, handed = { req with user := some payload } ∧ Names payload user ∧
      Known sdk env steps s.users user := by
  obtain ⟨token, htoken⟩ : ∃ token, extractToken req = some token := by
    unfold requireAuth at hhanded
    split at hhanded
    next => contradiction
    next => contradiction
    next token _ heq => exact ⟨token, heq⟩
  obtain ⟨payload, hverified, rfl⟩ := requireAuth_eq_ok htoken hhanded
  obtain ⟨user, hissued⟩ := hunforged req now rfl token htoken payload hverified
  obtain ⟨⟨secret, expiresIn, issuedAt, hsigned⟩, hknown⟩ := h.issued token user hissued
  obtain ⟨secret', hdecoded⟩ := verifyJwt_eq_ok hverified
  have hfields := hjwt _ _ _ _ _ hsigned _ _ _ hdecoded
  refine ⟨payload, user, rfl, ⟨?_, ?_, ?_⟩, hknown⟩
  · exact (hfields "sub" (by decide) (by decide)).trans rfl
  · exact (hfields "publicKey" (by decide) (by decide)).trans rfl
  · exact (hfields "role" (by decide) (by decide)).trans rfl

theorem Accounted.after_request (hjwt : jwt.Faithful) (h : Accounted sdk env jwt start steps s)
    {req : Request} {now : Nat} (hunforged : Unforged jwt ⟨s, .request req now, s'⟩)
    (hact : s.act sdk env jwt (.request req now) = some s') :
    Accounted sdk env jwt start (steps ++ [⟨s, .request req now, s'⟩]) s' := by
  simp only [Server.act] at hact
  split at hact
  next handed hhanded =>
    obtain rfl := Option.some.inj hact
    obtain ⟨payload, user, rfl, hnames, hknown⟩ := h.names_of_requireAuth hjwt hunforged hhanded
    refine { h.later with admitted := fun payload' hpayload => ?_ }
    rcases List.mem_append.mp hpayload with hold | hnew
    · exact h.later.admitted payload' hold
    · obtain rfl := List.mem_singleton.mp hnew
      exact ⟨user, hnames, hknown.later fun _ _ h => h⟩
  next =>
    obtain rfl := Option.some.inj hact
    exact h.later

theorem Accounted.step (hjwt : jwt.Faithful) (h : Accounted sdk env jwt start steps s)
    {a : Action} (hunforged : Unforged jwt ⟨s, a, s'⟩) (hact : s.act sdk env jwt a = some s') :
    Accounted sdk env jwt start (steps ++ [⟨s, a, s'⟩]) s' := by
  cases a with
  | getChallenge => exact h.after_getChallenge hact
  | login => exact h.after_login hact
  | find => exact h.after_find hact
  | create => exact h.after_create hact
  | request => exact h.after_request hjwt hunforged hact
  | restart =>
      obtain rfl := Option.some.inj hact
      exact { h.later with challenges := nofun, finding := nofun, creating := nofun }

theorem Accounted.of_run (hjwt : jwt.Faithful) (hstart : start.Fresh)
    (hunforged : ∀ t ∈ steps, Unforged jwt t)
    (hrun : (authentication sdk env jwt).Run start steps s) :
    Accounted sdk env jwt start steps s := by
  induction hrun with
  | nil =>
      exact ⟨hstart.keys, hstart.ids, fun _ _ h => .inr h, by simp [hstart.challenges],
        by simp [hstart.finding], by simp [hstart.creating], by simp [hstart.issued],
        by simp [hstart.admitted]⟩
  | snoc prior step ih =>
      have hlast := hunforged _ (List.mem_append_right _ List.mem_cons_self)
      exact (ih fun t ht => hunforged t (List.mem_append_left _ ht)).step hjwt hlast step

/-- Whoever is let in is a user of the table, by id, key and role as they are there; and
before, a login showed a transaction that the user's key has signed in answer to a
challenge for that key. -/
theorem admitted_logged_in (hjwt : jwt.Faithful) (hstart : start.Fresh)
    (hunforged : ∀ t ∈ steps, Unforged jwt t)
    (hrun : (authentication sdk env jwt).Run start steps s) {payload : JsonObject}
    (hpayload : payload ∈ s.admitted) :
    ∃ user, s.users.lookup user.publicKey = some user ∧ Names payload user ∧
      LoggedIn sdk env steps user.publicKey := by
  obtain ⟨user, hnames, hstored, hlogin⟩ :=
    (Accounted.of_run hjwt hstart hunforged hrun).admitted payload hpayload
  exact ⟨user, hstored, hnames, hlogin⟩

open Classical in
/-- The key of the user with this id. -/
noncomputable def keyOfId (users : Users) (id : String) : PublicKey :=
  if h : ∃ key user, users.lookup key = some user ∧ user.id = id then h.choose else ""

theorem Accounted.keyOfId_eq (h : Accounted sdk env jwt start steps s) {key : PublicKey}
    (hstored : s.users.lookup key = some user) : keyOfId s.users user.id = key := by
  have hexists : ∃ key' user', s.users.lookup key' = some user' ∧ user'.id = user.id :=
    ⟨key, user, hstored, rfl⟩
  rw [keyOfId, dif_pos hexists]
  obtain ⟨user', hstored', hid⟩ := hexists.choose_spec
  exact h.ids _ key user' user hstored' hstored hid

theorem requireRole_ok {roles : List String} {payload : JsonObject}
    (h : requireRole roles (some payload) = .ok ()) :
    ∃ role ∈ roles, payload.get "role" = some (.string role) := by
  simp only [requireRole] at h
  split at h
  next role hrole =>
    split at h
    next hmem => exact ⟨role, of_decide_eq_true hmem, hrole⟩
    next => contradiction
  next => simp at h

/-- However logins interleave, one id and one key belong together in all that is let in;
and where farmers are not let in, only those are who had the role from the start. -/
theorem admitted_consistently (hjwt : jwt.Faithful) (hstart : start.Fresh)
    (hunforged : ∀ t ∈ steps, Unforged jwt t)
    (hrun : (authentication sdk env jwt).Run start steps s) :
    (∃ publicKeyOf : String → PublicKey, ∀ payload ∈ s.admitted, ∃ id,
      payload.get "sub" = some (.string id) ∧
      payload.get "publicKey" = some (.string (publicKeyOf id)) ∧
      ∀ other ∈ s.admitted, other.get "publicKey" = payload.get "publicKey" →
        other.get "sub" = payload.get "sub") ∧
    ∀ payload ∈ s.admitted, ∀ roles, requireRole roles (some payload) = .ok () →
      "FARMER" ∈ roles ∨ ∃ key user, payload.get "publicKey" = some (.string key) ∧
        start.users.lookup key = some user ∧ user.role ∈ roles := by
  have haccounted := Accounted.of_run hjwt hstart hunforged hrun
  refine ⟨⟨keyOfId s.users, fun payload hpayload => ?_⟩, fun payload hpayload roles hallowed => ?_⟩
  · obtain ⟨user, hnames, hstored, -⟩ := haccounted.admitted payload hpayload
    refine ⟨user.id, hnames.sub, ?_, fun other hother hsame => ?_⟩
    · rw [haccounted.keyOfId_eq hstored]
      exact hnames.publicKey
    · obtain ⟨user', hnames', hstored', -⟩ := haccounted.admitted other hother
      have hkey : user'.publicKey = user.publicKey := by
        simpa [hnames.publicKey, hnames'.publicKey] using hsame
      rw [hkey] at hstored'
      obtain rfl := Option.mem_unique hstored hstored'
      rw [hnames.sub, hnames'.sub]
  · obtain ⟨user, hnames, hstored, -⟩ := haccounted.admitted payload hpayload
    obtain ⟨role, hmem, hrole⟩ := requireRole_ok hallowed
    obtain rfl : user.role = role := by simpa [hnames.role] using hrole
    rcases haccounted.roles _ user hstored with hfarmer | hseeded
    · exact .inl (hfarmer ▸ hmem)
    · exact .inr ⟨_, user, hnames.publicKey, hseeded, hmem⟩

end Runs

end Facts

namespace Sample

/-- With the signed challenge as the one text that decodes. -/
def textSdk : StellarSdk String String Digest Seal :=
  { sdk with
    toXdr := fun tx => if tx = signed challenge then "signed" else "challenge"
    fromXdr := fun _ text => if text = "signed" then some (signed challenge) else none }

def farmer : TokenPayload := ⟨"u1", client, "FARMER"⟩

def decoded : JsonObject := farmer.toJson ++ [("iat", .number 120), ("exp", .number 604920)]

/-- Tokens of one user. -/
def jwt : Jwt where
  sign payload _ _ _ :=
    match payload with
    | [("sub", .string sub), ("publicKey", .string publicKey), ("role", .string role)] =>
        if (⟨sub, publicKey, role⟩ : TokenPayload) = farmer then .ok "f.a.r"
        else .error "not implemented"
    | _ => .error "not implemented"
  verify token _ _ := if token = "f.a.r" then .ok decoded else .error "jwt malformed"

theorem jwt_faithful : jwt.Faithful := by
  intro payload secret expiresIn issuedAt token hsigned secret' now result hverified key hiat hexp
  have hiat' : (key == "iat") = false := by simpa using hiat
  have hexp' : (key == "exp") = false := by simpa using hexp
  simp only [jwt] at hsigned hverified
  split at hsigned
  next sub publicKey role =>
    split at hsigned
    next hfarmer =>
      obtain rfl := Except.ok.inj hsigned
      obtain rfl := Except.ok.inj hverified
      change decoded.get key = (TokenPayload.toJson ⟨sub, publicKey, role⟩).get key
      rw [hfarmer]
      simp [decoded, JsonObject.get, List.lookup_append, List.lookup_cons, hiat', hexp']
    next => contradiction
  next => contradiction

def administrator : User := ⟨"a1", "GADMIN", "ADMIN"⟩

def server : Server where
  secrets := ⟨"secret", "7d", "", none, 0⟩
  users := (∅ : Users).insert "GADMIN" administrator

theorem server_fresh : server.Fresh := by
  have honly : ∀ key user, server.users.lookup key = some user →
      key = "GADMIN" ∧ user = administrator := by
    intro key user hstored
    rcases KeyedStore.lookup_insert_cases hstored with h | ⟨-, hnone⟩
    · exact h
    · simp at hnone
  refine ⟨rfl, fun key user hstored => ?_, fun key key' user user' h h' _ => ?_, rfl, rfl, rfl, rfl⟩
  · obtain ⟨rfl, rfl⟩ := honly key user hstored
    rfl
  · rw [(honly key user h).1, (honly key' user' h').1]

/-- The request that shows the token. -/
def shown : Request := ⟨none, some "Bearer f.a.r", none, none⟩

/-- The first login of a new client. -/
def firstLogin : List Action :=
  [.getChallenge (some (.string " GCLIENT")) 60000 "01234567-89abcdef",
    .login [("publicKey", .string client), ("signedTransaction", .string "signed")] 120000,
    .find 0 120000, .create 0 "u1" 120000]

theorem exists_admitted : ∃ steps s, (authentication textSdk env jwt).Run server steps s ∧
    (∀ t ∈ steps, Unforged jwt t) ∧ decoded ∈ s.admitted := by
  have hreplay : ((TransitionSystem.replay (Server.act textSdk env jwt) server firstLogin).map
      fun r => r.2.issued) = some [("f.a.r", ⟨"u1", client, "FARMER"⟩)] := by
    decide +kernel
  obtain ⟨⟨steps, s⟩, hsteps, hissued⟩ := Option.map_eq_some_iff.mp hreplay
  have hrun : (authentication textSdk env jwt).Run server steps s :=
    .of_replay (fun _ _ _ h => h) hsteps
  have hrequest : (authentication textSdk env jwt).Step s (.request shown 130000)
      { s with admitted := s.admitted ++ [decoded] } := rfl
  refine ⟨_, _, hrun.snoc hrequest, fun t ht req now haction token htoken payload hverified => ?_,
    List.mem_append_right _ List.mem_cons_self⟩
  rcases List.mem_append.mp ht with ht | ht
  · have hmem := TransitionSystem.action_mem_of_replay hsteps t ht
    simp [haction, firstLogin] at hmem
  · obtain rfl := List.mem_singleton.mp ht
    obtain ⟨rfl, -⟩ := Action.request.inj haction
    obtain rfl : "f.a.r" = token := Option.some.inj htoken
    refine ⟨⟨"u1", client, "FARMER"⟩, ?_⟩
    rw [show s.issued = _ from hissued]
    exact List.mem_cons_self

end Sample

theorem sample_admitted_logged_in : ∃ steps,
    LoggedIn Sample.textSdk Sample.env steps Sample.client := by
  obtain ⟨steps, s, hrun, hunforged, hpayload⟩ := Sample.exists_admitted
  obtain ⟨user, -, hnames, hlogin⟩ :=
    admitted_logged_in Sample.jwt_faithful Sample.server_fresh hunforged hrun hpayload
  have hkey : Sample.client = user.publicKey := Json.string.inj (Option.some.inj hnames.publicKey)
  exact ⟨steps, hkey ▸ hlogin⟩

/-- The farmer is not let in where only administrators are. -/
theorem sample_admitted_consistently :
    requireRole ["ADMIN"] (some Sample.decoded) ≠ .ok () := by
  obtain ⟨steps, s, hrun, hunforged, hpayload⟩ := Sample.exists_admitted
  intro hallowed
  obtain ⟨-, hroles⟩ :=
    admitted_consistently Sample.jwt_faithful Sample.server_fresh hunforged hrun
  rcases hroles _ hpayload _ hallowed with hmem | ⟨key, user, hkey, hstored, -⟩
  · exact absurd hmem (by decide)
  · obtain rfl : Sample.client = key := Json.string.inj (Option.some.inj hkey)
    have hnone : Sample.server.users.lookup Sample.client = none := by decide
    simp [hnone] at hstored

end StellarKraal.Auth
