import StellarKraal.Idempotency.Requests

/-!
# One handler per key

Two requests with one key both get past their lookup if the second looks before the
response of the first is stored: the sentinel of the first is taken for the remains
of a request that broke off. Where no lookup falls into such a window the row is
there before the second lookup, and nothing takes it away until it expires.
-/

namespace StellarKraal.Idempotency

open TransitionSystem (Transition)

/-! ## Requests with the key -/

/-- Past its lookup of the key, without a stored response to replay. -/
def Phase.passed (key : String) : Phase → Bool
  | .checking (.ask (.findUnique key') _) => decide (key' ≠ key)
  | .checking _ | .handling _ | .responded _ _ _ => true
  | .replayed _ | .rejected | .failed => false

/-- The handler was called. -/
def Phase.started : Phase → Bool
  | .handling _ | .responded _ _ _ => true
  | _ => false

/-- The response is stored. -/
def Phase.stored : Phase → Bool
  | .responded _ storing _ =>
      match storing with
      | .done stored => stored
      | .ask _ _ => false
  | _ => false

theorem Phase.passed_of_started (key : String) {phase : Phase} (h : phase.started = true) :
    phase.passed key = true := by
  cases phase with
  | handling wrapped => rfl
  | responded response storing removing => rfl
  | _ => contradiction

section

variable {User : Type}

def Request.Passed (key : String) (request : Request User) : Prop :=
  request.idempotencyKey = some key ∧ request.phase.passed key = true

def Action.outside : Action User → Option Outside
  | .check _ outside | .store _ outside | .remove _ outside | .cleanup outside => some outside
  | .arrive _ _ _ | .respond _ _ => none

/-! ## Conditions on steps -/

/-- The stored key has not expired by any clock that is read. -/
def Unexpired (key : String) (t : Transition (Server User) (Action User)) : Prop :=
  ∀ outside row, t.action.outside = some outside → t.before.table key = some row →
    outside.now ≤ row.expiresAt

/-- No request arrives whose sentinel is the key. -/
def NotSentinel (key : String) (t : Transition (Server User) (Action User)) : Prop :=
  ∀ id user key', t.action = .arrive id user (some key') → processingKey key' ≠ key

/-- All requests carry the key. -/
def Carries (key : String) (t : Transition (Server User) (Action User)) : Prop :=
  ∀ id user idempotencyKey, t.action = .arrive id user idempotencyKey → idempotencyKey = some key

theorem Carries.notSentinel {key : String} {t : Transition (Server User) (Action User)}
    (h : Carries key t) : NotSentinel key t := by
  intro id user key' haction
  obtain rfl := Option.some.inj (h id user (some key') haction)
  exact processingKey_ne key'

/-- When a lookup of the key finds nothing, all other requests that got past theirs
have their responses stored; one that fails has none of them before it. -/
def LooksUpAlone (key : String) (t : Transition (Server User) (Action User)) : Prop :=
  ∀ id outside request, t.action = .check id outside → t.before.requests id = some request →
    request.idempotencyKey = some key → request.phase.passed key = false →
    (outside.fails = true ∨ t.before.table key = none) →
    ∀ id' request', id' ≠ id → t.before.requests id' = some request' → request'.Passed key →
      outside.fails = false ∧ request'.phase.stored = true

end

/-! ## The invariant -/

/-- Queries that leave the key's row where it is; the key's own requests do not look
it up again. -/
def Query.Spares (key : String) (idempotencyKey : Option String) (query : Query) : Prop :=
  query ≠ .delete key ∧ (idempotencyKey = some key → query ≠ .findUnique key)

/-- A script that has ended with `true` after this reply has left a row for the key. -/
def Shows (key : String) (query : Query) (reply : query.Reply) (stored : Bool) : Prop :=
  stored = true → ∀ outside table, (serve outside query table).1 = reply →
    ((serve outside query table).2 key).isSome = true

/-- What the scripts of a request may still do, with respect to one key. -/
def Phase.Shape (key : String) (idempotencyKey : Option String) : Phase → Prop
  | .checking script =>
      (idempotencyKey = some key ∧ script = .ask (.findUnique key) (afterLookup key)) ∨
        script.Guarantees (fun _ _ => True) (Query.Spares key idempotencyKey) fun verdict =>
          ∀ wrapped, verdict = some (.next wrapped) → wrapped = idempotencyKey
  | .handling wrapped => (∀ key', wrapped = some key' → idempotencyKey = some key') ∧
      (idempotencyKey = some key → wrapped = some key)
  | .responded _ storing removing =>
      storing.Guarantees (fun _ _ => True) (Query.Spares key idempotencyKey) (fun _ => True) ∧
        removing.Guarantees (fun _ _ => True) (Query.Spares key idempotencyKey) (fun _ => True) ∧
        (idempotencyKey = some key → storing.EndsAfter (Shows key))
  | .replayed _ | .rejected | .failed => True

section

variable {key : String} {idempotencyKey : Option String}

theorem spares_of_key_ne {query : Query} (h : query.key ≠ some key) :
    query.Spares key idempotencyKey := by
  refine ⟨?_, fun _ => ?_⟩
  · rintro rfl
    exact h rfl
  · rintro rfl
    exact h rfl

theorem spares_of_sentinel {key' : String} (hsentinel : processingKey key' ≠ key) {query : Query}
    (h : query.key = some (processingKey key')) : query.Spares key idempotencyKey := by
  apply spares_of_key_ne
  rw [h]
  exact fun hsame => hsentinel (Option.some.inj hsame)

/-- The middleware of a request with another key. -/
theorem middleware_spares {key' : String} (hkey : key' ≠ key)
    (hsentinel : processingKey key' ≠ key) :
    (.ask (.findUnique key') (afterLookup key') : Script Query.Reply (Option Verdict)).Guarantees
      (fun _ _ => True) (Query.Spares key (some key'))
      fun verdict => ∀ wrapped, verdict = some (Verdict.next wrapped) → wrapped = some key' := by
  have hother : Option.some key' ≠ some key := fun h => hkey (Option.some.inj h)
  refine ⟨spares_of_key_ne hother, fun (reply : Option Lookup) _ => ?_⟩
  rcases afterLookup_cases (spares_of_key_ne nofun) (spares_of_key_ne hother)
    (fun query => spares_of_sentinel hsentinel) reply with ⟨_, _, -, hrest⟩ | hrest
  · rw [hrest]
    exact nofun
  · apply hrest.mono_ends
    rintro verdict (rfl | rfl) wrapped hwrapped
    · contradiction
    · cases hwrapped
      rfl

theorem storeResponse_shows (key : String) (response : Response) (ttlHours : Nat) :
    (storeResponse key response ttlHours).EndsAfter (Shows key) := by
  refine fun (now : Nat) => ⟨fun (creation : Creation) => ?_, nofun⟩
  cases creation with
  | failed => exact ⟨trivial, fun stored hstored => by cases hstored; exact nofun⟩
  | conflict =>
      refine ⟨fun updated => ⟨trivial, fun stored hstored => ?_⟩, nofun⟩
      obtain rfl : updated = stored := by cases hstored; rfl
      rintro hupdated outside table hreply
      have hsuccess : (serve outside (.update key response) table).1 = true :=
        hreply.trans hupdated
      simp only [serve] at hsuccess ⊢
      split at hsuccess
      next row hrow =>
        split at hsuccess
        · contradiction
        · simp [*]
      next => contradiction
  | created =>
      refine ⟨trivial, fun stored _ _ outside table hreply => ?_⟩
      have hcreated : (serve outside (.create key ⟨response, now + ttlHours * hour⟩) table).1 =
        Creation.created := hreply
      simp only [serve] at hcreated ⊢
      split at hcreated
      · contradiction
      · split at hcreated
        · contradiction
        · simp [*]

/-- A query that spares the key leaves its row there, if it is. -/
theorem serve_isSome {outside : Outside} {query : Query} {table : Table}
    (h : query.Spares key idempotencyKey) (hrow : (table key).isSome = true) :
    ((serve outside query table).2 key).isSome = true := by
  have hupdate (key' : String) (row : Row) :
      (Function.update table key' (some row) key).isSome = true := by
    by_cases hkey : key = key'
    · simp [hkey]
    · rwa [Function.update_of_ne hkey]
  have hwrites := serve_writes outside query table
  generalize (serve outside query table).2 = table' at hwrites ⊢
  cases hwrites with
  | nothing => exact hrow
  | create => exact hupdate _ _
  | update _ => exact hupdate _ _
  | @delete key' =>
      have hkey : key ≠ key' := fun hkey => h.1 (hkey ▸ rfl)
      rwa [Function.update_of_ne hkey]

theorem Phase.Shape.checked {rest : Script Query.Reply (Option Verdict)}
    (h : rest.Guarantees (fun _ _ => True) (Query.Spares key idempotencyKey) fun verdict =>
      ∀ wrapped, verdict = some (.next wrapped) → wrapped = idempotencyKey) :
    (Phase.checked rest).Shape key idempotencyKey := by
  cases rest with
  | ask query next => exact .inr h
  | done verdict =>
      rcases verdict with _ | wrapped | response | _
      · trivial
      · obtain rfl := h wrapped rfl
        exact ⟨fun _ h => h, fun h => h⟩
      · trivial
      · trivial

theorem Phase.Shape.respond {wrapped : Option String} (response : Response)
    (h : (Phase.handling wrapped).Shape key idempotencyKey)
    (hnames : ∀ key', idempotencyKey = some key' → processingKey key' ≠ key) :
    (Phase.respond response wrapped).Shape key idempotencyKey := by
  obtain ⟨hwrapped, hkey⟩ := h
  cases wrapped with
  | none => exact ⟨trivial, trivial, fun h => nomatch hkey h⟩
  | some key' =>
      have hsentinel := hnames key' (hwrapped key' rfl)
      have hspares (query : Query) (hdelete : ∀ key, query ≠ .delete key)
          (hfind : ∀ key, query ≠ .findUnique key) : query.Spares key idempotencyKey :=
        ⟨hdelete key, fun _ => hfind key⟩
      refine ⟨?_, ?_, fun h => ?_⟩
      · apply storeResponse_guarantees
        · exact hspares _ nofun nofun
        · exact fun _ _ => hspares _ nofun nofun
        · exact hspares _ nofun nofun
      · apply removeKey_guarantees
        exact spares_of_key_ne fun h => hsentinel (Option.some.inj h)
      · obtain rfl := Option.some.inj (hkey h)
        exact storeResponse_shows key' response 24

theorem Phase.passed_of_spares {script : Script Query.Reply (Option Verdict)}
    {rely : (query : Query) → query.Reply → Prop} {ends : Option Verdict → Prop}
    (h : script.Guarantees rely (Query.Spares key (some key)) ends) :
    (Phase.checking script).passed key = true := by
  cases script with
  | done verdict => rfl
  | ask query next =>
      cases query with
      | findUnique key' =>
          have hother : Query.findUnique key' ≠ .findUnique key := h.1.2 rfl
          simpa [Phase.passed] using hother
      | _ => rfl

theorem Phase.not_stored_checked (rest : Script Query.Reply (Option Verdict)) :
    ¬ (Phase.checked rest).stored = true := by
  rcases rest with (_ | _ | _ | _) | _ <;> exact Bool.false_ne_true

theorem step_isSome {α : Type} {script rest : Script Query.Reply α} {outside : Outside}
    {table table' : Table} {ends : α → Prop}
    (h : script.Guarantees (fun _ _ => True) (Query.Spares key idempotencyKey) ends)
    (hstep : script.step (serve outside) table = (rest, table')) :
    rest.Guarantees (fun _ _ => True) (Query.Spares key idempotencyKey) ends ∧
      ((table key).isSome = true → (table' key).isSome = true) := by
  refine ⟨h.step hstep fun _ => trivial, fun hrow => ?_⟩
  apply h.step_store hstep (fun table : Table => (table key).isSome = true) hrow
  exact fun query hquery => serve_isSome hquery hrow

end

/-! ## Steps -/

variable {User : Type}

namespace Server

structure Once (key : String) (s : Server User) : Prop where
  names : ∀ id request key', s.requests id = some request →
    request.idempotencyKey = some key' → processingKey key' ≠ key
  shape : ∀ id request, s.requests id = some request →
    request.phase.Shape key request.idempotencyKey
  /-- At most one request has got past its lookup. -/
  unique : ∀ id id' request request', s.requests id = some request →
    s.requests id' = some request' → request.Passed key → request'.Passed key → id = id'
  stored : ∀ id request, s.requests id = some request → request.Passed key →
    request.phase.stored = true → (s.table key).isSome = true

theorem Once.others {key : String} {s : Server User} {id : Nat} {request : Request User}
    (h : s.Once key) (hrequest : s.requests id = some request) (hpassed : request.Passed key) :
    ∀ id' request', id' ≠ id → s.requests id' = some request' → ¬ request'.Passed key := by
  intro id' request' hid hrequest' hpassed'
  exact hid (h.unique id' id request' request hrequest' hrequest hpassed' hpassed)

/-- A request arrives or goes on. It must not get past its lookup as a second one. -/
theorem Once.withRequest {key : String} {s : Server User} {id : Nat} {request : Request User}
    {table : Table} (h : s.Once key)
    (hnames : ∀ key', request.idempotencyKey = some key' → processingKey key' ≠ key)
    (hshape : request.phase.Shape key request.idempotencyKey)
    (htable : (s.table key).isSome = true → (table key).isSome = true)
    (halone : request.Passed key → ∀ id' request', id' ≠ id →
      s.requests id' = some request' → ¬ request'.Passed key)
    (hstored : request.phase.stored = true → request.idempotencyKey = some key →
      (table key).isSome = true) : ({ s with table }.withRequest id request).Once key where
  names id' request' key' hrequest' hkey' := by
    rcases withRequest_requests hrequest' with ⟨rfl, rfl⟩ | ⟨-, hbefore⟩
    · exact hnames key' hkey'
    · exact h.names id' request' key' hbefore hkey'
  shape id' request' hrequest' := by
    rcases withRequest_requests hrequest' with ⟨rfl, rfl⟩ | ⟨-, hbefore⟩
    · exact hshape
    · exact h.shape id' request' hbefore
  unique id₁ id₂ request₁ request₂ hrequest₁ hrequest₂ hpassed₁ hpassed₂ := by
    rcases withRequest_requests hrequest₁ with ⟨rfl, rfl⟩ | ⟨hid₁, hbefore₁⟩
    · rcases withRequest_requests hrequest₂ with ⟨rfl, rfl⟩ | ⟨hid₂, hbefore₂⟩
      · rfl
      · exact absurd hpassed₂ (halone hpassed₁ id₂ request₂ hid₂ hbefore₂)
    · rcases withRequest_requests hrequest₂ with ⟨rfl, rfl⟩ | ⟨hid₂, hbefore₂⟩
      · exact absurd hpassed₁ (halone hpassed₂ id₁ request₁ hid₁ hbefore₁)
      · exact h.unique id₁ id₂ request₁ request₂ hbefore₁ hbefore₂ hpassed₁ hpassed₂
  stored id' request' hrequest' hpassed' hstored' := by
    rcases withRequest_requests hrequest' with ⟨rfl, rfl⟩ | ⟨-, hbefore⟩
    · exact hstored hstored' hpassed'.1
    · exact htable (h.stored id' request' hbefore hpassed' hstored')

theorem Once.arrive {key : String} {s : Server User} {id : Nat} {user : User}
    {idempotencyKey : Option String} (hkey : key ≠ "") (h : s.Once key)
    (hnames : ∀ key', idempotencyKey = some key' → processingKey key' ≠ key) :
    (s.withRequest id
      ⟨user, idempotencyKey, .checked (idempotencyMiddleware idempotencyKey)⟩).Once key := by
  have hnotStored (hstored : (Phase.checked (idempotencyMiddleware idempotencyKey)).stored = true) :
      idempotencyKey = some key → (s.table key).isSome = true :=
    absurd hstored (Phase.not_stored_checked _)
  rcases idempotencyMiddleware_cases idempotencyKey with
    ⟨key', hlength, rfl⟩ | hbad | ⟨hnone, hnext⟩
  · rw [idempotencyMiddleware_eq hlength] at hnotStored ⊢
    refine h.withRequest hnames ?_ (fun h => h) ?_ hnotStored
    · by_cases hsame : key' = key
      · subst hsame
        exact .inl ⟨rfl, rfl⟩
      · exact .inr (middleware_spares hsame (hnames key' rfl))
    · rintro ⟨hmine, hpassed⟩
      simp [Phase.checked, Phase.passed, Option.some.inj hmine] at hpassed
  · rw [hbad] at hnotStored ⊢
    exact h.withRequest hnames trivial (fun h => h)
      (fun hpassed => absurd hpassed.2 Bool.false_ne_true) hnotStored
  · rw [hnext] at hnotStored ⊢
    have hother : idempotencyKey ≠ some key := by
      rcases hnone with rfl | rfl
      · exact nofun
      · exact fun hempty => hkey (Option.some.inj hempty).symm
    exact h.withRequest hnames ⟨nofun, fun hmine => absurd hmine hother⟩ (fun h => h)
      (fun hpassed => absurd hpassed.1 hother) hnotStored

/-- The middleware's next query. Its lookup of the key is where it may get past. -/
theorem Once.check {key : String} {s : Server User} {id : Nat} {request : Request User}
    {script rest : Script Query.Reply (Option Verdict)} {outside : Outside} {table : Table}
    (h : s.Once key) (hrequest : s.requests id = some request)
    (hphase : request.phase = .checking script)
    (hstep : script.step (serve outside) s.table = (rest, table))
    (hunexpired : ∀ row, s.table key = some row → outside.now ≤ row.expiresAt)
    (halone : LooksUpAlone key ⟨s, .check id outside, s⟩) :
    (s.goesOn id request table (.checked rest)).Once key := by
  have hnames := fun key' => h.names id request key' hrequest
  have hnotStored (rest : Script Query.Reply (Option Verdict)) (table : Table)
      (hstored : (Phase.checked rest).stored = true) :
      request.idempotencyKey = some key → (table key).isSome = true :=
    absurd hstored (Phase.not_stored_checked rest)
  have hshape := h.shape id request hrequest
  rw [hphase] at hshape
  rcases hshape with ⟨hkey, rfl⟩ | hguarantees
  · -- The lookup: the row is there and is replayed, or nobody else has got past theirs.
    obtain ⟨rfl, rfl⟩ := Prod.mk.inj hstep
    have hproceed (hmiss : outside.fails = true ∨ s.table key = none) :
        (s.goesOn id request s.table (.checked (proceed key))).Once key := by
      have hshape : (Phase.checked (proceed key)).Shape key request.idempotencyKey := by
        apply Phase.Shape.checked
        apply (proceed_guarantees (spares_of_key_ne nofun)
          fun query => spares_of_sentinel (processingKey_ne key)).mono_ends
        rintro verdict (rfl | rfl) wrapped hwrapped
        · contradiction
        · cases hwrapped
          exact hkey.symm
      refine h.withRequest hnames hshape (fun h => h)
        (fun _ id' request' hid hrequest' hpassed' => ?_) (hnotStored (proceed key) s.table)
      obtain ⟨hworks, hstored⟩ := halone id outside request rfl hrequest hkey
        (by simp [hphase, Phase.passed]) hmiss id' request' hid hrequest' hpassed'
      have hrow := h.stored id' request' hrequest' hpassed' hstored
      rcases hmiss with hfails | habsent
      · simp [hfails] at hworks
      · simp [habsent] at hrow
    cases hfails : outside.fails with
    | true =>
        have hrest : afterLookup key (serve outside (.findUnique key) s.table).1 = proceed key := by
          simp only [serve, hfails]
          rfl
        rw [hrest]
        exact hproceed (.inl hfails)
    | false =>
        cases hrow : s.table key with
        | none =>
            have hrest : afterLookup key (serve outside (.findUnique key) s.table).1 =
                proceed key := by
              simp only [serve, hfails, hrow]
              rfl
            rw [hrest]
            exact hproceed (.inr hrow)
        | some row =>
            have hrest : afterLookup key (serve outside (.findUnique key) s.table).1 =
                .done (some (.replay row.response)) := by
              have hfresh := Nat.not_lt.mpr (hunexpired row hrow)
              simp only [serve, hfails, hrow]
              exact if_neg hfresh
            rw [hrest]
            exact h.withRequest hnames trivial (fun h => h)
              (fun hpassed => absurd hpassed.2 Bool.false_ne_true)
              (hnotStored (.done (some (.replay row.response))) s.table)
  · obtain ⟨hrest, htable⟩ := step_isSome hguarantees hstep
    refine h.withRequest hnames (.checked hrest) htable (fun hpassed => ?_) (hnotStored _ _)
    apply h.others hrequest ⟨hpassed.1, ?_⟩
    rw [hphase]
    exact Phase.passed_of_spares (hpassed.1 ▸ hguarantees)

theorem Once.step {key : String} (hkey : key ≠ "") {s s' : Server User} {a : Action User}
    (h : s.Once key) (hact : s.act a = some s') (hnames : NotSentinel key ⟨s, a, s'⟩)
    (hunexpired : Unexpired key ⟨s, a, s'⟩) (halone : LooksUpAlone key ⟨s, a, s'⟩) :
    s'.Once key := by
  cases Effect.of_act hact with
  | arrive hnew =>
      exact h.arrive hkey fun key' hkey' => hnames _ _ key' (congrArg _ hkey')
  | check hrequest hphase hstep =>
      exact h.check hrequest hphase hstep (fun row => hunexpired _ row rfl) halone
  | @respond id response request wrapped hrequest hphase =>
      have hnames := fun key' => h.names id request key' hrequest
      have hshape := h.shape id request hrequest
      rw [hphase] at hshape
      refine h.withRequest hnames (hshape.respond response hnames) (fun h => h)
        (fun hpassed => h.others hrequest ⟨hpassed.1, by rw [hphase]; rfl⟩) fun hstored hmine => ?_
      obtain rfl := hshape.2 hmine
      contradiction
  | @store id outside request response storing rest removing table hrequest hphase hstep =>
      have hnames := fun key' => h.names id request key' hrequest
      obtain ⟨hstoring, hremoving, hshows⟩ : (Phase.responded response storing removing).Shape key
        request.idempotencyKey := hphase ▸ h.shape id request hrequest
      obtain ⟨hrest, htable⟩ := step_isSome hstoring hstep
      have hpassed (hmine : request.idempotencyKey = some key) : request.Passed key :=
        ⟨hmine, by rw [hphase]; rfl⟩
      refine h.withRequest hnames ⟨hrest, hremoving, fun hmine => (hshows hmine).step hstep⟩ htable
        (fun hnew => h.others hrequest (hpassed hnew.1)) fun hstored hmine => ?_
      obtain rfl : rest = .done true := by
        rcases rest with (_ | _) | _
        · contradiction
        · rfl
        · contradiction
      rcases (hshows hmine).of_done hstep with ⟨hbefore, rfl⟩ | ⟨query, hshown, rfl⟩
      · exact h.stored id request hrequest (hpassed hmine) (by rw [hphase, hbefore]; rfl)
      · exact hshown rfl outside s.table rfl
  | @remove id outside request response storing removing rest table hrequest hphase hstep =>
      have hnames := fun key' => h.names id request key' hrequest
      obtain ⟨hstoring, hremoving, hshows⟩ : (Phase.responded response storing removing).Shape key
        request.idempotencyKey := hphase ▸ h.shape id request hrequest
      obtain ⟨hrest, htable⟩ := step_isSome hremoving hstep
      have hpassed (hmine : request.idempotencyKey = some key) : request.Passed key :=
        ⟨hmine, by rw [hphase]; rfl⟩
      refine h.withRequest hnames ⟨hstoring, hrest, hshows⟩ htable
        (fun hnew => h.others hrequest (hpassed hnew.1)) fun hstored hmine => ?_
      exact htable (h.stored id request hrequest (hpassed hmine) (by rw [hphase]; exact hstored))
  | cleanup outside =>
      refine ⟨h.names, h.shape, h.unique, fun id request hrequest hpassed hstored => ?_⟩
      have hthere := h.stored id request hrequest hpassed hstored
      obtain ⟨row, hrow⟩ := Option.isSome_iff_exists.mp hthere
      have hfresh := hunexpired outside row rfl hrow
      simp only [cleanupExpiredKeys, hrow]
      split
      · rfl
      · simp [Option.filter, hfresh]

/-! ## Runs -/

theorem Fresh.once {s : Server User} (h : s.Fresh) (key : String) : s.Once key where
  names id request key' hrequest := by simp [h id] at hrequest
  shape id request hrequest := by simp [h id] at hrequest
  unique id id' request request' hrequest := by simp [h id] at hrequest
  stored id request hrequest := by simp [h id] at hrequest

end Server

/-- While its row does not expire, a key runs one handler at most, if its requests look
it up one after the other: each lookup that finds nothing comes after the responses of
all others that got past theirs are stored, and none of these comes before one that fails. -/
theorem handler_runs_once {key : String} (hkey : key ≠ "") {start s : Server User}
    {steps : List (Transition (Server User) (Action User))} (hstart : start.Fresh)
    (hrun : (Server.system User).Run start steps s) (hnames : ∀ t ∈ steps, NotSentinel key t)
    (hunexpired : ∀ t ∈ steps, Unexpired key t) (halone : ∀ t ∈ steps, LooksUpAlone key t)
    {id id' : Nat} {request request' : Request User} (hrequest : s.requests id = some request)
    (hrequest' : s.requests id' = some request') (hmine : request.idempotencyKey = some key)
    (hmine' : request'.idempotencyKey = some key) (hstarted : request.phase.started = true)
    (hstarted' : request'.phase.started = true) : id = id' := by
  have honce : s.Once key := by
    apply hrun.invariant_of_steps
      (fun t => NotSentinel key t ∧ Unexpired key t ∧ LooksUpAlone key t) ?_
      (fun t ht => ⟨hnames t ht, hunexpired t ht, halone t ht⟩) (hstart.once key)
    intro s a s' honce hstep hgood
    exact honce.step hkey hstep hgood.1 hgood.2.1 hgood.2.2
  exact honce.unique id id' request request' hrequest hrequest'
    ⟨hmine, Phase.passed_of_started key hstarted⟩ ⟨hmine', Phase.passed_of_started key hstarted'⟩

/-! Two requests of one farmer with one key, in turn and together. -/

namespace Sample

/-- The first request is through, with its response stored, before the second looks. -/
def inTurn : List (Action String) :=
  answered 1 "amina" ++ arrival 2 "amina" :: checks 2 1

/-- Both look before either stores anything. -/
def together : List (Action String) :=
  [arrival 1 "amina", arrival 2 "amina"] ++ checks 1 1 ++ checks 2 1 ++ checks 1 3 ++ checks 2 4

end Sample

section

variable {start s : Server User} {steps : List (Transition (Server User) (Action User))}
  {key : String}

theorem carries_of_all (h : steps.all (fun t => match t.action with
    | .arrive _ _ idempotencyKey => decide (idempotencyKey = some key)
    | _ => true) = true) : ∀ t ∈ steps, Carries key t := by
  intro t ht id user idempotencyKey haction
  have hkey := List.all_eq_true.mp h t ht
  simpa [haction] using hkey

theorem unexpired_of_all (h : steps.all (fun t => match t.action.outside with
    | some outside => (t.before.table key).all fun row => decide (outside.now ≤ row.expiresAt)
    | none => true) = true) : ∀ t ∈ steps, Unexpired key t := by
  intro t ht outside row houtside hrow
  have hfresh := List.all_eq_true.mp h t ht
  simpa [houtside, hrow] using hfresh

/-- Lookups made while the row is there or no other request is. -/
theorem looksUpAlone_of_all (hstart : start.Fresh) (hrun : (Server.system User).Run start steps s)
    (h : steps.all (fun t => match t.action with
      | .check id outside => !outside.fails && ((t.before.table key).isSome ||
          steps.all fun t' => match t'.action with
            | .arrive id' _ _ => decide (id' = id) || (t.before.requests id').isNone
            | _ => true)
      | _ => true) = true) : ∀ t ∈ steps, LooksUpAlone key t := by
  intro t ht id outside request haction hrequest hmine hlooking hmiss id' request' hid hrequest'
  have hlookup := List.all_eq_true.mp h t ht
  simp only [haction, Bool.and_eq_true, Bool.or_eq_true] at hlookup
  obtain ⟨hworks, hrow | hothers⟩ := hlookup
  · rcases hmiss with hfails | habsent
    · simp [hfails] at hworks
    · simp [habsent] at hrow
  · obtain ⟨earlier, later, rfl⟩ := List.append_of_mem ht
    obtain ⟨t', ht', harrival⟩ := Server.arrived hstart hrun.of_split.1 hrequest'
    have hnone := List.all_eq_true.mp hothers t' (List.mem_append_left _ ht')
    simp [harrival, hid, hrequest'] at hnone

end

/-- The second of two requests in turn is replayed, and one handler has run. -/
theorem sample_handler_once :
    ∃ steps s, (Server.system String).Run Sample.idle steps s ∧
      (s.requests 1).map (·.phase.started) = some true ∧
      (s.requests 2).map (·.phase.started) = some false ∧
      ∀ id id' request request', s.requests id = some request → s.requests id' = some request' →
        request.idempotencyKey = some Sample.key → request'.idempotencyKey = some Sample.key →
        request.phase.started = true → request'.phase.started = true → id = id' := by
  have hrun : (Server.system String).Run Sample.idle _ _ :=
    TransitionSystem.Run.of_replay (fun _ _ _ h => h)
      (show TransitionSystem.replay Server.act _ Sample.inTurn = some (_, _) from rfl)
  refine ⟨_, _, hrun, rfl, rfl, fun id id' request request' hrequest hrequest' hmine hmine' => ?_⟩
  exact handler_runs_once (by decide) Sample.idle_fresh hrun
    (fun t ht => (carries_of_all rfl t ht).notSentinel) (unexpired_of_all rfl)
    (looksUpAlone_of_all Sample.idle_fresh hrun rfl) hrequest hrequest' hmine hmine'

/-- Two requests together both run the handler. -/
theorem handler_runs_twice :
    ¬ ∀ (key : String) (start s : Server String)
      (steps : List (Transition (Server String) (Action String))), start.Fresh →
      (Server.system String).Run start steps s →
      (∀ t ∈ steps, Carries key t) → (∀ t ∈ steps, Unexpired key t) →
      ∀ id id' request request', s.requests id = some request → s.requests id' = some request' →
        request.phase.started = true → request'.phase.started = true → id = id' := by
  intro hall
  have hrun : (Server.system String).Run Sample.idle _ _ :=
    TransitionSystem.Run.of_replay (fun _ _ _ h => h)
      (show TransitionSystem.replay Server.act _ Sample.together = some (_, _) from rfl)
  have hsame := hall Sample.key _ _ _ Sample.idle_fresh hrun (carries_of_all rfl)
    (unexpired_of_all rfl) 1 2 _ _ rfl rfl rfl rfl
  contradiction

end StellarKraal.Idempotency
