import StellarKraal.Auth.OneLogin

/-!
# Which transactions log in

A verification looks at the fields of the transaction it is given and not at the
server's signature, so the transaction need not be the one that was issued. It needs a
signature of the key's owner. What the owners sign is recorded here beside the
service's calls, and signatures cannot be made in any other way.
-/

namespace StellarKraal.Auth

open TransitionSystem (Transition Throughout Since)

variable {Xdr Buffer Hash Signature : Type}

section Definitions

variable (sdk : StellarSdk Xdr Buffer Hash Signature) (env : Settings)

/-- The hash of the transaction that the latest `buildChallenge` for the key returned. -/
def IssuedHash (steps : List (Transition Challenges (Call Xdr))) (key : PublicKey)
    (hash : Hash) : Prop :=
  ∃ builtAt uuid, Latest sdk env key builtAt uuid steps ∧
    hash = sdk.hash env.networkPassphrase (challengeBody sdk env key builtAt (nonceOf uuid))

/-- If this envelope logs in after the run, its transaction is the issued one. -/
def OnlyIssued (steps : List (Transition Challenges (Call Xdr))) (s : Challenges)
    (key : PublicKey) (now : Nat) (signedXdr : Xdr) : Prop :=
  (verifyChallenge sdk env key now signedXdr s).1 = .ok key →
    ∃ tx, sdk.fromXdr env.networkPassphrase signedXdr = some tx ∧
      IssuedHash sdk env steps key (sdk.hash env.networkPassphrase tx.body)

/-- Hashes do not collide, an owner's signatures verify, XDR and text can be read back,
and a key has no colon. -/
structure StellarSdk.Correct (networkPassphrase : String) : Prop where
  hash_injective : Function.Injective (sdk.hash networkPassphrase)
  verify_sign : ∀ secretKey hash,
    sdk.verify (sdk.publicKey secretKey) hash (sdk.sign secretKey hash) = true
  fromXdr_toXdr : ∀ tx, sdk.fromXdr networkPassphrase (sdk.toXdr tx) = some tx
  toString_from : ∀ text, sdk.bufferToString (sdk.bufferFrom text) = text
  colon_notMem : ∀ key, sdk.isValidEd25519PublicKey key = true → ':' ∉ key.toList

/-! ## What is signed -/

/-- The pending challenges, the transactions that `buildChallenge` has returned for each
key, and what has been signed with each secret key. -/
structure Wallets (Buffer : Type) where
  challenges : Challenges
  handed : List (PublicKey × Body Buffer)
  signed : List (String × Body Buffer)

/-- A call of the service, or a signature by whoever has the secret key. -/
inductive Deed (Xdr Buffer : Type)
  | call (call : Call Xdr)
  | sign (secretKey : String) (body : Body Buffer)

/-- A UUID has hexadecimal digits and dashes only. -/
def Deed.Possible : Deed Xdr Buffer → Prop
  | .call (.buildChallenge _ _ uuid) => ':' ∉ uuid.toList
  | .call (.verifyChallenge _ _ _) => True
  | .sign _ _ => True

/-- The server signs the challenges it hands out. -/
def Deed.perform : Deed Xdr Buffer → Wallets Buffer → Wallets Buffer
  | .call (.buildChallenge clientPublicKey now uuid), w =>
      let challenges := (Call.buildChallenge clientPublicKey now uuid).run sdk env w.challenges
      let body := challengeBody sdk env clientPublicKey now (nonceOf uuid)
      if ¬ sdk.isValidEd25519PublicKey clientPublicKey then { w with challenges }
      else ⟨challenges, w.handed ++ [(clientPublicKey, body)],
        w.signed ++ [(env.authServerSecretKey, body)]⟩
  | .call (.verifyChallenge clientPublicKey now signedXdr), w =>
      { w with challenges :=
          (Call.verifyChallenge clientPublicKey now signedXdr).run sdk env w.challenges }
  | .sign secretKey body, w => { w with signed := w.signed ++ [(secretKey, body)] }

/-- The service among its users, from its start. -/
def wallets : TransitionSystem (Wallets Buffer) (Deed Xdr Buffer) where
  Initial w := w = ⟨fun _ => none, [], []⟩
  Step w deed w' := deed.Possible ∧ w' = deed.perform sdk env w

/-- The call of the service that the step is, if it is one. -/
def served (t : Transition (Wallets Buffer) (Deed Xdr Buffer)) :
    Option (Transition Challenges (Call Xdr)) :=
  match t.action with
  | .call call => some ⟨t.before.challenges, call, t.after.challenges⟩
  | .sign _ _ => none

/-- The key's owner has signed this. -/
def Wallets.Signed (w : Wallets Buffer) (key : PublicKey) (body : Body Buffer) : Prop :=
  ∃ secretKey, sdk.publicKey secretKey = key ∧ (secretKey, body) ∈ w.signed

/-- All signatures of the key on this envelope come from its owner. -/
def Wallets.Unforged (w : Wallets Buffer) (key : PublicKey) (signedXdr : Xdr) : Prop :=
  ∀ tx, sdk.fromXdr env.networkPassphrase signedXdr = some tx → ∀ sig ∈ tx.signatures,
    sdk.verify key (sdk.hash env.networkPassphrase tx.body) sig = true →
      ∃ body, w.Signed sdk key body ∧
        sdk.hash env.networkPassphrase body = sdk.hash env.networkPassphrase tx.body

/-- After the run, of all envelopes that can be made only the issued one logs in. -/
def OnlyIssuedNow (key : PublicKey) (steps : List (Transition (Wallets Buffer) (Deed Xdr Buffer)))
    (w : Wallets Buffer) : Prop :=
  ∀ now signedXdr, w.Unforged sdk env key signedXdr →
    OnlyIssued sdk env (steps.filterMap served) w.challenges key now signedXdr

/-! ## What should be signed -/

/-- The transaction names the key and the beginning of the nonce, and its time bounds hold
at some moment before the challenge runs out. -/
def Fits (key : PublicKey) (pending : PendingChallenge) (body : Body Buffer) : Prop :=
  ∃ tx : Transaction Buffer Signature, tx.body = body ∧
    (∃ now ≤ pending.expiresAt, tx.InTime now) ∧ tx.Names sdk key (noncePrefix pending.nonce)

/-- A challenge handed out for the key, which runs out in the same second. -/
def Wallets.HandedWith (w : Wallets Buffer) (key : PublicKey) (pending : PendingChallenge)
    (body : Body Buffer) : Prop :=
  (key, body) ∈ w.handed ∧
    ∃ bounds, body.timeBounds = some bounds ∧ bounds.maxTime = pending.expiresAt / 1000

/-- Besides challenges of the same second the key's owner signs nothing that fits the
pending one, and the nonce of a new one is not that of anything it has signed before. -/
def Prudent (key : PublicKey) (t : Transition (Wallets Buffer) (Deed Xdr Buffer)) : Prop :=
  match t.action with
  | .call (.buildChallenge clientPublicKey now uuid) =>
      clientPublicKey = key → sdk.isValidEd25519PublicKey key = true →
        ∀ body, t.before.Signed sdk key body →
          Fits sdk key ⟨nonceOf uuid, now + challengeTtlSeconds * 1000⟩ body →
            t.after.HandedWith key ⟨nonceOf uuid, now + challengeTtlSeconds * 1000⟩ body
  | .call (.verifyChallenge _ _ _) => True
  | .sign secretKey body =>
      sdk.publicKey secretKey = key → ∀ pending, t.before.challenges key = some pending →
        Fits sdk key pending body → t.after.HandedWith key pending body

/-- What the owner has signed, and fits the pending challenge, was handed out with it. -/
def AsHanded (key : PublicKey) (w : Wallets Buffer) : Prop :=
  ∀ pending, w.challenges key = some pending → ∀ body, w.Signed sdk key body →
    Fits sdk key pending body → w.HandedWith key pending body

end Definitions

section Wallets

variable {sdk : StellarSdk Xdr Buffer Hash Signature} {env : Settings} {key : PublicKey}
  {w w' start : Wallets Buffer} {deed : Deed Xdr Buffer} {body : Body Buffer}
  {pending : PendingChallenge} {steps : List (Transition (Wallets Buffer) (Deed Xdr Buffer))}

/-! ### The service in the run -/

@[simp] theorem perform_call_challenges (call : Call Xdr) :
    ((Deed.call call : Deed Xdr Buffer).perform sdk env w).challenges =
      call.run sdk env w.challenges := by
  cases call with
  | buildChallenge clientPublicKey now uuid =>
      simp only [Deed.perform]
      split <;> rfl
  | verifyChallenge clientPublicKey now signedXdr => rfl

/-- The calls of a run, taken alone, are a run of the service. -/
theorem logins_run (hstart : (wallets sdk env).Initial start)
    (hrun : (wallets sdk env).Run start steps w) :
    (logins sdk env).Run (fun _ => none) (steps.filterMap served) w.challenges := by
  obtain rfl := hstart
  induction hrun with
  | nil => exact .nil
  | snoc prior step ih =>
      obtain ⟨-, rfl⟩ := step
      rw [List.filterMap_append]
      rename_i a
      cases a with
      | call call => exact ih.snoc (perform_call_challenges call)
      | sign secretKey body => simpa [served, List.filterMap_cons, Deed.perform] using ih

/-- What becomes of the handed out challenges. -/
theorem perform_handed (step : (wallets sdk env).Step w deed w') (key : PublicKey)
    (body : Body Buffer) :
    (key, body) ∈ w'.handed ↔ (key, body) ∈ w.handed ∨
      ∃ now uuid, deed = .call (.buildChallenge key now uuid) ∧
        sdk.isValidEd25519PublicKey key = true ∧
        body = challengeBody sdk env key now (nonceOf uuid) := by
  obtain ⟨-, rfl⟩ := step
  cases deed with
  | call call =>
      cases call with
      | buildChallenge clientPublicKey now uuid =>
          simp only [Deed.perform]
          split
          next hinvalid => grind
          next hvalid => grind
      | verifyChallenge clientPublicKey now signedXdr => simp [Deed.perform]
  | sign secretKey signed => simp [Deed.perform]

/-- What becomes of the signatures of one key. -/
theorem perform_signed (step : (wallets sdk env).Step w deed w') (key : PublicKey)
    (body : Body Buffer) :
    w'.Signed sdk key body ↔ w.Signed sdk key body ∨
      (∃ secretKey, deed = .sign secretKey body ∧ sdk.publicKey secretKey = key) ∨
      ∃ clientPublicKey now uuid, deed = .call (.buildChallenge clientPublicKey now uuid) ∧
        sdk.isValidEd25519PublicKey clientPublicKey = true ∧
        sdk.publicKey env.authServerSecretKey = key ∧
        body = challengeBody sdk env clientPublicKey now (nonceOf uuid) := by
  obtain ⟨-, rfl⟩ := step
  unfold Wallets.Signed
  cases deed with
  | call call =>
      cases call with
      | buildChallenge clientPublicKey now uuid =>
          simp only [Deed.perform]
          split
          next hinvalid => grind
          next hvalid => grind
      | verifyChallenge clientPublicKey now signedXdr => simp [Deed.perform]
  | sign secretKey signed => simp only [Deed.perform]; grind

/-- Only challenges are handed out, to valid keys. -/
theorem challenge_of_handed (hstart : (wallets sdk env).Initial start)
    (hrun : (wallets sdk env).Run start steps w) (h : (key, body) ∈ w.handed) :
    ∃ now uuid, sdk.isValidEd25519PublicKey key = true ∧ ':' ∉ uuid.toList ∧
      body = challengeBody sdk env key now (nonceOf uuid) := by
  induction hrun with
  | nil =>
      obtain rfl := hstart
      simp at h
  | snoc prior step ih =>
      rcases (perform_handed step key body).mp h with h | ⟨now, uuid, rfl, hvalid, rfl⟩
      · exact ih h
      · exact ⟨now, uuid, hvalid, step.1, rfl⟩

/-- Whatever is built is handed out. -/
theorem handed_of_builds (hrun : (wallets sdk env).Run start steps w)
    {t : Transition Challenges (Call Xdr)} (ht : t ∈ steps.filterMap served) {now : Nat}
    {uuid : String} (hbuilds : BuildsChallenge sdk key now uuid t) :
    (key, challengeBody sdk env key now (nonceOf uuid)) ∈ w.handed := by
  induction hrun with
  | nil => simp at ht
  | snoc prior step ih =>
      rw [perform_handed step]
      rw [List.filterMap_append, List.mem_append] at ht
      rcases ht with ht | ht
      · exact .inl (ih ht)
      · rename_i a
        cases a with
        | call call =>
            obtain rfl := List.mem_singleton.mp ht
            obtain ⟨rfl, hvalid⟩ : call = .buildChallenge key now uuid ∧ _ := hbuilds
            exact .inr ⟨now, uuid, rfl, hvalid, rfl⟩
        | sign secretKey signed => simp [served, List.filterMap_cons] at ht

/-! ### What names a challenge -/

theorem splitColons_joined {first second : String} (hfirst : ':' ∉ first.toList)
    (hsecond : ':' ∉ second.toList) :
    splitColons (first ++ ":" ++ second) = [first, second] := by
  have hparts : (first ++ ":" ++ second).toList =
      [':'].intercalate [first.toList, second.toList] := by
    simp [List.intercalate]
  rw [splitColons, hparts, List.splitOn_intercalate]
  · simp
  · simp [hfirst, hsecond]
  · simp

theorem colon_notMem_noncePrefix {uuid : String} (h : ':' ∉ uuid.toList) :
    ':' ∉ (noncePrefix (nonceOf uuid)).toList := by
  rw [noncePrefix, nonceOf, String.toList_ofList, String.toList_ofList]
  exact fun hmem => h (List.mem_of_mem_filter (List.mem_of_mem_take hmem))

/-- A challenge names the key and the nonce that it was built for. -/
theorem names_challenge (hsdk : sdk.Correct env.networkPassphrase) {clientPublicKey : PublicKey}
    (hvalid : sdk.isValidEd25519PublicKey clientPublicKey = true) {uuid nonceStart : String}
    (huuid : ':' ∉ uuid.toList) {now : Nat} {tx : Transaction Buffer Signature}
    (hbody : tx.body = challengeBody sdk env clientPublicKey now (nonceOf uuid))
    (h : tx.Names sdk key nonceStart) :
    key = clientPublicKey ∧ nonceStart = noncePrefix (nonceOf uuid) := by
  obtain ⟨value, hvalue, hkey, hnonce⟩ := h
  rw [hbody] at hvalue
  obtain rfl : sdk.bufferFrom (clientPublicKey ++ ":" ++ noncePrefix (nonceOf uuid)) = value :=
    Option.some.inj hvalue
  rw [hsdk.toString_from, splitColons_joined (hsdk.colon_notMem _ hvalid)
    (colon_notMem_noncePrefix huuid)] at hkey hnonce
  exact ⟨(Option.some.inj hkey).symm, (Option.some.inj hnonce).symm⟩

/-- A challenge depends on the second and on the beginning of the nonce only. -/
theorem challengeBody_congr {now now' : Nat} {nonce nonce' : String}
    (hnow : now / 1000 = now' / 1000) (hnonce : noncePrefix nonce = noncePrefix nonce') :
    challengeBody sdk env key now nonce = challengeBody sdk env key now' nonce' := by
  rw [challengeBody, challengeBody, hnow, hnonce]

/-! ### What logs in -/

theorem Latest.isValid {steps : List (Transition Challenges (Call Xdr))} {now : Nat}
    {uuid : String} (h : Latest sdk env key now uuid steps) :
    sdk.isValidEd25519PublicKey key = true := by
  obtain ⟨_, _, _, -, hbuilds, -⟩ := h
  exact hbuilds.2

theorem Latest.unique {steps : List (Transition Challenges (Call Xdr))} {now now' : Nat}
    {uuid uuid' : String} (h : Latest sdk env key now uuid steps)
    (h' : Latest sdk env key now' uuid' steps) : now = now' ∧ uuid = uuid' := by
  induction steps using List.reverseRecOn with
  | nil => exact absurd h Since.not_nil
  | append_singleton steps last ih =>
      rcases Since.snoc_iff.mp h with hlast | ⟨hearlier, hnone, -⟩ <;>
        rcases Since.snoc_iff.mp h' with hlast' | ⟨hearlier', hnone', -⟩
      · have heq := hlast.1.symm.trans hlast'.1
        simpa using heq
      · simp [builds_iff.mpr ⟨now, uuid, hlast⟩] at hnone'
      · simp [builds_iff.mpr ⟨now', uuid', hlast'⟩] at hnone
      · exact ih hearlier hearlier'

/-- What the key's owner has signed can be sent. -/
theorem exists_unforged (hsdk : sdk.Correct env.networkPassphrase)
    (hsigned : w.Signed sdk key body) :
    ∃ tx signedXdr, tx.body = body ∧ sdk.fromXdr env.networkPassphrase signedXdr = some tx ∧
      tx.SignedBy sdk env key ∧ w.Unforged sdk env key signedXdr := by
  obtain ⟨secretKey, rfl, -⟩ := id hsigned
  let sig := sdk.sign secretKey (sdk.hash env.networkPassphrase body)
  refine ⟨⟨body, [sig]⟩, sdk.toXdr ⟨body, [sig]⟩, rfl, hsdk.fromXdr_toXdr _, ?_, ?_⟩
  · exact ⟨sig, List.mem_singleton_self sig, hsdk.verify_sign secretKey _⟩
  · rintro tx htx - - -
    obtain rfl := Option.some.inj ((hsdk.fromXdr_toXdr _).symm.trans htx)
    exact ⟨body, hsigned, rfl⟩

/-- Nothing but the issued transaction logs in exactly as long as what the owner has
signed, and fits the pending challenge, was handed out with it. -/
theorem onlyIssuedNow_iff (hsdk : sdk.Correct env.networkPassphrase)
    (hstart : (wallets sdk env).Initial start) (hrun : (wallets sdk env).Run start steps w) :
    OnlyIssuedNow sdk env key steps w ↔ AsHanded sdk key w := by
  have hlogins := logins_run hstart hrun
  constructor
  · rintro honly pending hpending body hsigned ⟨fitting, rfl, ⟨now, htime, hinTime⟩, hnames⟩
    obtain ⟨tx, signedXdr, hbody, htx, hsignedBy, hunforged⟩ := exists_unforged hsdk hsigned
    obtain ⟨builtAt, uuid, hlatest, rfl⟩ := pending_latest rfl hlogins hpending
    have hanswers : tx.Answers sdk env key now (nonceOf uuid) := by
      refine ⟨?_, ?_, hsignedBy⟩
      · simpa only [Transaction.InTime, hbody] using hinTime
      · simpa only [Transaction.Names, hbody] using hnames
    have hok : (verifyChallenge sdk env key now signedXdr w.challenges).1 = .ok key :=
      verifyChallenge_eq_ok.mpr ⟨rfl, hlatest.isValid, _, hpending, htime, tx, htx, hanswers⟩
    obtain ⟨tx', htx', builtAt', uuid', hlatest', hhash⟩ := honly now signedXdr hunforged hok
    obtain rfl := Option.some.inj (htx.symm.trans htx')
    obtain ⟨rfl, rfl⟩ := hlatest.unique hlatest'
    have hissued := hsdk.hash_injective hhash
    rw [← hbody, hissued]
    refine ⟨?_, _, rfl, ?_⟩
    · obtain ⟨earlier, t, since, hsteps, hbuilds, -⟩ := hlatest
      exact handed_of_builds hrun (hsteps ▸ List.mem_append_cons_self) hbuilds
    · simp only [challengeTtlSeconds]
      omega
  · intro hhanded now signedXdr hunforged hok
    obtain ⟨-, -, pending, hpending, htime, tx, htx, hinTime, hnames, sig, hsig, hverify⟩ :=
      verifyChallenge_eq_ok.mp hok
    obtain ⟨builtAt, uuid, hlatest, rfl⟩ := pending_latest rfl hlogins hpending
    obtain ⟨body, hsigned, hhash⟩ := hunforged tx htx sig hsig hverify
    obtain rfl := hsdk.hash_injective hhash
    obtain ⟨hmem, bounds, hbounds, hmax⟩ :=
      hhanded _ hpending _ hsigned ⟨tx, rfl, ⟨now, htime, hinTime⟩, hnames⟩
    obtain ⟨builtAt', uuid', hvalid, huuid, hbody⟩ := challenge_of_handed hstart hrun hmem
    obtain ⟨-, hnonce⟩ := names_challenge hsdk hvalid huuid hbody hnames
    refine ⟨tx, htx, builtAt, uuid, hlatest, ?_⟩
    rw [hbody]
    refine congrArg _ (challengeBody_congr ?_ hnonce.symm)
    rw [hbody] at hbounds
    obtain rfl := Option.some.inj hbounds
    simp only [challengeTtlSeconds] at hmax
    omega

/-! ### What a step adds -/

theorem handedWith_mono (step : (wallets sdk env).Step w deed w')
    (h : w.HandedWith key pending body) : w'.HandedWith key pending body :=
  ⟨(perform_handed step key body).mpr (.inl h.1), h.2⟩

theorem AsHanded.sign_iff {secretKey : String} (h : AsHanded sdk key w)
    (step : (wallets sdk env).Step w (.sign secretKey body) w') :
    AsHanded sdk key w' ↔ Prudent sdk key ⟨w, .sign secretKey body, w'⟩ := by
  have hsame : w'.challenges = w.challenges := by rw [step.2]; rfl
  simp only [AsHanded, Prudent, hsame]
  constructor
  · intro hafter howner pending hpending
    apply hafter pending hpending body
    exact (perform_signed step key body).mpr (.inr (.inl ⟨_, rfl, howner⟩))
  · intro hprudent pending hpending signed hsigned hfits
    rcases (perform_signed step key signed).mp hsigned with
      hbefore | ⟨_, heq, howner⟩ | ⟨_, _, _, heq, -⟩
    · exact handedWith_mono step (h pending hpending signed hbefore hfits)
    · obtain ⟨rfl, rfl⟩ := Deed.sign.inj heq
      exact hprudent howner pending hpending hfits
    · contradiction

theorem AsHanded.verify {clientPublicKey : PublicKey} {now : Nat} {signedXdr : Xdr}
    (h : AsHanded sdk key w)
    (step : (wallets sdk env).Step w
      (.call (.verifyChallenge clientPublicKey now signedXdr)) w') : AsHanded sdk key w' := by
  obtain ⟨-, rfl⟩ := step
  intro pending hpending
  refine h pending ?_
  rcases @verifyChallenge_challenges _ _ _ _ sdk env clientPublicKey now signedXdr w.challenges with
    ⟨hdelete, -⟩ | ⟨hsame, -⟩
  · simp only [perform_call_challenges, Call.run, hdelete, Challenges.delete] at hpending
    by_cases hkey : key = clientPublicKey
    · simp [hkey] at hpending
    · rwa [Function.update_of_ne hkey] at hpending
  · simpa only [perform_call_challenges, Call.run, hsame] using hpending

/-- What a successful `buildChallenge` makes of the challenges. -/
theorem build_challenges {now : Nat} {uuid : String}
    (step : (wallets sdk env).Step w (.call (.buildChallenge key now uuid)) w')
    (hvalid : sdk.isValidEd25519PublicKey key = true) :
    w'.challenges = Function.update w.challenges key
      (some ⟨nonceOf uuid, now + challengeTtlSeconds * 1000⟩) := by
  rw [step.2, perform_call_challenges]
  simp [Call.run, Auth.buildChallenge, hvalid]

theorem AsHanded.build_iff (hsdk : sdk.Correct env.networkPassphrase) {now : Nat} {uuid : String}
    {clientPublicKey : PublicKey} (h : AsHanded sdk key w)
    (step : (wallets sdk env).Step w (.call (.buildChallenge clientPublicKey now uuid)) w') :
    AsHanded sdk key w' ↔
      Prudent sdk key ⟨w, .call (.buildChallenge clientPublicKey now uuid), w'⟩ := by
  by_cases hvalid : sdk.isValidEd25519PublicKey clientPublicKey = true
  swap
  · -- The call fails and changes nothing.
    have hsame : w' = w := by
      rw [step.2]
      simp [Deed.perform, Call.run, Auth.buildChallenge, hvalid]
    refine iff_of_true (hsame ▸ h) ?_
    rintro rfl hvalid'
    exact absurd hvalid' hvalid
  have hchallenges := build_challenges step hvalid
  by_cases hkey : clientPublicKey = key
  · subst hkey
    have hpending : w'.challenges clientPublicKey =
        some ⟨nonceOf uuid, now + challengeTtlSeconds * 1000⟩ := by
      rw [hchallenges, Function.update_self]
    constructor
    · intro hafter _ _ body hsigned
      exact hafter _ hpending body ((perform_signed step _ body).mpr (.inl hsigned))
    · intro hprudent pending hpending' body hsigned hfits
      obtain rfl := Option.some.inj (hpending.symm.trans hpending')
      rcases (perform_signed step _ body).mp hsigned with
        hbefore | ⟨_, heq, -⟩ | ⟨_, _, _, heq, -, -, rfl⟩
      · exact hprudent rfl hvalid body hbefore hfits
      · contradiction
      · -- The server is its own client.
        obtain ⟨rfl, rfl, rfl⟩ := Call.buildChallenge.inj (Deed.call.inj heq)
        refine ⟨(perform_handed step _ _).mpr (.inr ⟨now, uuid, rfl, hvalid, rfl⟩), _, rfl, ?_⟩
        simp only [challengeTtlSeconds]
        omega
  · refine iff_of_true ?_ fun heq => absurd heq hkey
    intro pending hpending body hsigned hfits
    rw [hchallenges, Function.update_of_ne (Ne.symm hkey)] at hpending
    rcases (perform_signed step key body).mp hsigned with
      hbefore | ⟨_, heq, -⟩ | ⟨_, _, _, heq, -, -, rfl⟩
    · exact handedWith_mono step (h pending hpending body hbefore hfits)
    · contradiction
    · -- What the server signs here names another key.
      obtain ⟨rfl, rfl, rfl⟩ := Call.buildChallenge.inj (Deed.call.inj heq)
      obtain ⟨tx, hbody, -, hnames⟩ := hfits
      exact absurd (names_challenge hsdk hvalid step.1 hbody hnames).1.symm hkey

theorem AsHanded.step_iff (hsdk : sdk.Correct env.networkPassphrase) (h : AsHanded sdk key w)
    (step : (wallets sdk env).Step w deed w') :
    AsHanded sdk key w' ↔ Prudent sdk key ⟨w, deed, w'⟩ := by
  match deed, step with
  | .sign _ _, step => exact h.sign_iff step
  | .call (.verifyChallenge _ _ _), step => exact iff_of_true (h.verify step) trivial
  | .call (.buildChallenge _ _ _), step => exact h.build_iff hsdk step

/-- At every moment of a run only the issued transaction logs in for the key, exactly if
all the run's signatures and challenges for the key are prudent. -/
theorem only_issued_iff (hsdk : sdk.Correct env.networkPassphrase)
    (hstart : (wallets sdk env).Initial start) (hrun : (wallets sdk env).Run start steps w)
    (key : PublicKey) :
    (wallets sdk env).Throughout start steps (OnlyIssuedNow sdk env key) ↔
      ∀ t ∈ steps, Prudent sdk key t := by
  apply Throughout.iff_forall hrun
  · rw [onlyIssuedNow_iff hsdk hstart .nil]
    obtain rfl := hstart
    intro pending hpending
    contradiction
  · intro earlier v deed v' hearlier honly step
    rw [onlyIssuedNow_iff hsdk hstart (hearlier.snoc step)]
    exact AsHanded.step_iff hsdk ((onlyIssuedNow_iff hsdk hstart hearlier).mp honly) step

end Wallets

theorem wallets_of_replay {sdk : StellarSdk Xdr Buffer Hash Signature} {env : Settings}
    {deeds : List (Deed Xdr Buffer)} (hdeeds : ∀ deed ∈ deeds, deed.Possible)
    {w : Wallets Buffer} {steps : List (Transition (Wallets Buffer) (Deed Xdr Buffer))}
    (h : TransitionSystem.replay (fun w deed => some (Deed.perform sdk env deed w))
      ⟨fun _ => none, [], []⟩ deeds = some (steps, w)) :
    (wallets sdk env).Run ⟨fun _ => none, [], []⟩ steps w := by
  refine TransitionSystem.Run.of_replay_mem ?_ h
  intro deed hdeed v v' hperform
  exact ⟨hdeeds deed hdeed, (Option.some.inj hperform).symm⟩

namespace Sample

theorem sdk_correct : sdk.Correct env.networkPassphrase where
  hash_injective _ _ h := (Prod.mk.inj h).2
  verify_sign secretKey hash := by simp [sdk]
  fromXdr_toXdr _ := rfl
  toString_from _ := rfl
  colon_notMem key hvalid := by
    simp only [sdk, Bool.and_eq_true] at hvalid
    simpa using hvalid.2

/-- The client signs what it was given. -/
def signedAsGiven : List (Deed (Transaction String Seal) String) :=
  [.call requested, .sign "CLIENT" challenge]

/-- A payment of the client's, with the login among its operations. -/
def payment : Body String where
  source := client
  fee := 200
  sequence := 42
  memo := some "invoice"
  timeBounds := some ⟨0, 4000000000⟩
  preconditions := []
  operations := [.other "payment", .manageData none "stellarkraal_auth" (some "GCLIENT:0123456")]

/-- The client signs the payment instead. -/
def signedPayment : List (Deed (Transaction String Seal) String) :=
  [.call requested, .sign "CLIENT" payment]

end Sample

/-- A client that signs what it was given logs in with nothing else. -/
theorem sample_only_issued : ∃ steps w,
    (wallets Sample.sdk Sample.env).Run ⟨fun _ => none, [], []⟩ steps w ∧
      (wallets Sample.sdk Sample.env).Throughout ⟨fun _ => none, [], []⟩ steps
        (OnlyIssuedNow Sample.sdk Sample.env Sample.client) ∧
      (verifyChallenge Sample.sdk Sample.env Sample.client 120000
        (Sample.signed Sample.challenge) w.challenges).1 = .ok Sample.client := by
  have hrun := @wallets_of_replay _ _ _ _ Sample.sdk Sample.env Sample.signedAsGiven
    (by simp [Sample.signedAsGiven, Sample.requested, Deed.Possible]) _ _ rfl
  refine ⟨_, _, hrun, ?_, by decide⟩
  apply (only_issued_iff Sample.sdk_correct rfl hrun Sample.client).mpr
  simp only [List.forall_mem_cons]
  refine ⟨?_, ?_, by simp⟩
  · rintro - - body ⟨secretKey, -, hmem⟩
    contradiction
  · rintro - pending hpending -
    obtain rfl := Option.some.inj hpending
    exact ⟨by decide, _, rfl, by decide⟩

/-- The client asks for a challenge, signs the payment instead, and is logged in. -/
theorem payment_logs_in : ∃ steps w,
    (wallets Sample.sdk Sample.env).Run ⟨fun _ => none, [], []⟩ steps w ∧
      w.Unforged Sample.sdk Sample.env Sample.client (Sample.signed Sample.payment) ∧
      (verifyChallenge Sample.sdk Sample.env Sample.client 120000
        (Sample.signed Sample.payment) w.challenges).1 = .ok Sample.client ∧
      ¬ OnlyIssued Sample.sdk Sample.env (steps.filterMap served) w.challenges Sample.client
        120000 (Sample.signed Sample.payment) := by
  have hrun := @wallets_of_replay _ _ _ _ Sample.sdk Sample.env Sample.signedPayment
    (by simp [Sample.signedPayment, Sample.requested, Deed.Possible]) _ _ rfl
  refine ⟨_, _, hrun, ?_, by decide, fun honly => ?_⟩
  · rintro tx htx - - -
    obtain rfl : Sample.signed Sample.payment = tx := Option.some.inj htx
    exact ⟨Sample.payment, ⟨"CLIENT", by decide, by decide⟩, rfl⟩
  · obtain ⟨tx, htx, builtAt, uuid, -, hhash⟩ := honly (by decide)
    obtain rfl : Sample.signed Sample.payment = tx := Option.some.inj htx
    -- The issued transaction has one operation.
    have hoperations : 2 = 1 := congrArg (fun hash => hash.2.operations.length) hhash
    contradiction

end StellarKraal.Auth
