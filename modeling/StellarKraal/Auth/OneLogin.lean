import StellarKraal.Auth.Challenge

/-!
# A challenge is good for one login

The map holds a key's latest challenge until it is used or found expired.
-/

namespace StellarKraal.Auth

open TransitionSystem (Transition Since)

variable {Xdr Buffer Hash Signature : Type} {sdk : StellarSdk Xdr Buffer Hash Signature}
  {env : Settings} {key : PublicKey} {s s' start : Challenges} {call : Call Xdr}
  {steps : List (Transition Challenges (Call Xdr))}

theorem builds_iff {t : Transition Challenges (Call Xdr)} :
    builds sdk key t = true ↔ ∃ now uuid, BuildsChallenge sdk key now uuid t := by
  unfold builds BuildsChallenge
  cases t.action with
  | buildChallenge clientPublicKey now uuid =>
      simp only [Bool.and_eq_true, beq_iff_eq, Call.buildChallenge.injEq]
      constructor
      · rintro ⟨rfl, hvalid⟩
        exact ⟨now, uuid, ⟨rfl, rfl, rfl⟩, hvalid⟩
      · rintro ⟨_, _, ⟨rfl, -, -⟩, hvalid⟩
        exact ⟨rfl, hvalid⟩
  | verifyChallenge clientPublicKey now signedXdr => simp

theorem logsIn_iff {t : Transition Challenges (Call Xdr)} :
    logsIn sdk env key t = true ↔ ∃ now signedXdr,
      t.action = .verifyChallenge key now signedXdr ∧
        (verifyChallenge sdk env key now signedXdr t.before).1 = .ok key := by
  unfold logsIn
  cases t.action with
  | buildChallenge clientPublicKey now uuid => simp
  | verifyChallenge clientPublicKey now signedXdr =>
      simp only [Bool.and_eq_true, beq_iff_eq, Call.verifyChallenge.injEq]
      constructor
      · rintro ⟨rfl, hok⟩
        cases hresult : (verifyChallenge sdk env clientPublicKey now signedXdr t.before).1 with
        | error message => simp [hresult, Except.isOk, Except.toBool] at hok
        | ok result =>
            obtain ⟨rfl, -⟩ := verifyChallenge_eq_ok.mp hresult
            exact ⟨now, signedXdr, ⟨rfl, rfl, rfl⟩, hresult⟩
      · rintro ⟨now', signedXdr', ⟨rfl, rfl, rfl⟩, hresult⟩
        rw [hresult]
        exact ⟨rfl, rfl⟩

theorem BuildsChallenge.not_logsIn {now : Nat} {uuid : String}
    {t : Transition Challenges (Call Xdr)} (h : BuildsChallenge sdk key now uuid t) :
    logsIn sdk env key t = false := by
  simp [logsIn, h.1]

/-- What a step does to the challenge of one key. -/
theorem step_challenge (step : (logins sdk env).Step s call s') (key : PublicKey) :
    (∃ now uuid, BuildsChallenge sdk key now uuid ⟨s, call, s'⟩ ∧
        s' key = some ⟨nonceOf uuid, now + challengeTtlSeconds * 1000⟩) ∨
      (logsIn sdk env key ⟨s, call, s'⟩ = true ∧ (s key).isSome = true ∧ s' key = none) ∨
      (builds sdk key ⟨s, call, s'⟩ = false ∧ logsIn sdk env key ⟨s, call, s'⟩ = false ∧
        (s' key = s key ∨ s' key = none)) := by
  obtain rfl : s' = call.run sdk env s := step
  cases call with
  | buildChallenge clientPublicKey now uuid =>
      simp only [Call.run, Auth.buildChallenge, BuildsChallenge, builds, logsIn]
      by_cases hvalid : sdk.isValidEd25519PublicKey clientPublicKey = true
      · by_cases hkey : clientPublicKey = key
        · subst hkey
          refine .inl ⟨now, uuid, ⟨rfl, hvalid⟩, ?_⟩
          simp [hvalid]
        · refine .inr (.inr ⟨by simp [hkey], trivial, .inl ?_⟩)
          simp [hvalid, Function.update_of_ne (Ne.symm hkey)]
      · refine .inr (.inr ⟨?_, trivial, .inl ?_⟩)
        · by_cases hkey : clientPublicKey = key
          · simpa [hkey] using hvalid
          · simp [hkey]
        · simp [hvalid]
  | verifyChallenge clientPublicKey now signedXdr =>
      by_cases hkey : clientPublicKey = key
      · subst hkey
        rcases @verifyChallenge_challenges _ _ _ _ sdk env clientPublicKey now signedXdr s with
          ⟨hdelete, hok | hexpired⟩ | ⟨hsame, message, herror⟩
        · obtain ⟨-, -, pending, hpending, -⟩ := verifyChallenge_eq_ok.mp hok
          refine .inr (.inl ⟨logsIn_iff.mpr ⟨now, signedXdr, rfl, hok⟩, ?_, ?_⟩)
          · simp [hpending]
          · simp [Call.run, hdelete, Challenges.delete]
        · refine .inr (.inr ⟨rfl, ?_, .inr ?_⟩)
          · simp [logsIn, hexpired, Except.isOk, Except.toBool]
          · simp [Call.run, hdelete, Challenges.delete]
        · refine .inr (.inr ⟨rfl, ?_, .inl ?_⟩)
          · simp [logsIn, herror, Except.isOk, Except.toBool]
          · simp [Call.run, hsame]
      · refine .inr (.inr ⟨rfl, by simp [logsIn, hkey], .inl ?_⟩)
        rcases @verifyChallenge_challenges _ _ _ _ sdk env clientPublicKey now signedXdr s with
          ⟨hdelete, -⟩ | ⟨hsame, -⟩
        · simp [Call.run, hdelete, Challenges.delete, Function.update_of_ne (Ne.symm hkey)]
        · simp [Call.run, hsame]

/-- Whatever is pending was built by the latest `buildChallenge` for the key, and not
used since. -/
theorem pending_latest (hstart : (logins sdk env).Initial start)
    (hrun : (logins sdk env).Run start steps s) {pending : PendingChallenge}
    (hpending : s key = some pending) : ∃ now uuid, Latest sdk env key now uuid steps ∧
      pending = ⟨nonceOf uuid, now + challengeTtlSeconds * 1000⟩ := by
  induction hrun generalizing pending with
  | nil =>
      obtain rfl := hstart
      simp at hpending
  | snoc prior step ih =>
      rcases step_challenge step key with ⟨now, uuid, hbuilds, hset⟩ | ⟨-, -, hnone⟩ |
        ⟨hbuilds, hlogsIn, hsame | hnone⟩
      · exact ⟨now, uuid, Since.snoc_iff.mpr (.inl hbuilds),
          Option.some.inj (hpending.symm.trans hset)⟩
      · simp [hnone] at hpending
      · obtain ⟨now, uuid, hlatest, heq⟩ := ih (hsame.symm.trans hpending)
        exact ⟨now, uuid, Since.snoc_iff.mpr (.inr ⟨hlatest, hbuilds, hlogsIn⟩), heq⟩
      · simp [hnone] at hpending

/-- Every login has used up a challenge, and the pending one is another. -/
theorem logins_le_builds (hstart : (logins sdk env).Initial start)
    (hrun : (logins sdk env).Run start steps s) (key : PublicKey) :
    steps.countP (logsIn sdk env key) + (if (s key).isSome then 1 else 0) ≤
      steps.countP (builds sdk key) := by
  induction hrun with
  | nil =>
      obtain rfl := hstart
      simp
  | snoc prior step ih =>
      simp only [List.countP_append, List.countP_singleton]
      rcases step_challenge step key with ⟨now, uuid, hbuilds, hset⟩ | ⟨hlogsIn, hsome, hnone⟩ |
        ⟨hbuilds, hlogsIn, hsame | hnone⟩
      · have hone : builds sdk key ⟨_, _, _⟩ = true := builds_iff.mpr ⟨now, uuid, hbuilds⟩
        simp only [hone, hbuilds.not_logsIn, hset, Option.isSome_some, if_true,
          Bool.false_eq_true, if_false]
        omega
      · simp only [hlogsIn, hsome, hnone, Option.isSome_none, if_true, Bool.false_eq_true,
          if_false] at ih ⊢
        omega
      · simp only [hbuilds, hlogsIn, hsame, Bool.false_eq_true, if_false]
        exact ih
      · simp only [hbuilds, hlogsIn, hnone, Option.isSome_none, Bool.false_eq_true, if_false]
        omega

/-- In every run the key's logins are at most as many as its challenges. Each login
answers the latest challenge, in time and with its nonce, and no other login has since
that was built. A verification that fails other than by expiry changes nothing. -/
theorem challenge_for_one_login (hstart : (logins sdk env).Initial start)
    (hrun : (logins sdk env).Run start steps s) (key : PublicKey) :
    steps.countP (logsIn sdk env key) ≤ steps.countP (builds sdk key) ∧
    (∀ now signedXdr, (verifyChallenge sdk env key now signedXdr s).1 = .ok key →
      ∃ builtAt uuid tx, Latest sdk env key builtAt uuid steps ∧
        now ≤ builtAt + challengeTtlSeconds * 1000 ∧
        sdk.fromXdr env.networkPassphrase signedXdr = some tx ∧
        tx.Names sdk key (noncePrefix (nonceOf uuid))) ∧
    ∀ now signedXdr message, (verifyChallenge sdk env key now signedXdr s).1 = .error message →
      message ≠ "Challenge has expired" → (verifyChallenge sdk env key now signedXdr s).2 = s := by
  refine ⟨?_, ?_, ?_⟩
  · have := logins_le_builds hstart hrun key
    omega
  · intro now signedXdr hok
    obtain ⟨-, -, pending, hpending, htime, tx, htx, hanswers⟩ := verifyChallenge_eq_ok.mp hok
    obtain ⟨builtAt, uuid, hlatest, rfl⟩ := pending_latest hstart hrun hpending
    exact ⟨builtAt, uuid, tx, hlatest, htime, htx, hanswers.names⟩
  · intro now signedXdr message herror hother
    rcases @verifyChallenge_challenges _ _ _ _ sdk env key now signedXdr s with
      ⟨-, hok | hexpired⟩ | ⟨hsame, -⟩
    · simp [herror] at hok
    · exact absurd (Except.error.inj (herror.symm.trans hexpired)) hother
    · exact hsame

/-- The client logs in a minute after it asked for the challenge. -/
theorem sample_login : ∃ steps s, (logins Sample.sdk Sample.env).Run (fun _ => none) steps s ∧
    (∃ builtAt uuid, Latest Sample.sdk Sample.env Sample.client builtAt uuid steps ∧
      120000 ≤ builtAt + challengeTtlSeconds * 1000) ∧
    steps.countP (logsIn Sample.sdk Sample.env Sample.client) ≤ 1 := by
  have hrun := @logins_of_replay _ _ _ _ Sample.sdk Sample.env [Sample.requested] _ _ rfl
  obtain ⟨hcount, hlogin, -⟩ := challenge_for_one_login rfl hrun Sample.client
  obtain ⟨builtAt, uuid, -, hlatest, htime, -⟩ :=
    hlogin 120000 (Sample.signed Sample.challenge) (by decide)
  exact ⟨_, _, hrun, ⟨builtAt, uuid, hlatest, htime⟩, hcount⟩

end StellarKraal.Auth
