import StellarKraal.Idempotency.Requests

/-!
# Where responses come from

A row holds what a handler sent for its key, or is a sentinel. So is what a request
is replayed, unless its key is the sentinel of another.
-/

namespace StellarKraal.Idempotency

variable {User : Type}

/-- Queries that write rows do it as `allowed`. -/
def Query.Stores (allowed : String → Response → Prop) : Query → Prop
  | .create key row => allowed key row.response
  | .update key response => allowed key response
  | _ => True

/-- A row shows its own response where it was written, and the old one elsewhere. -/
theorem update_response {table : Table} {key key' : String} {row : Row} {response : Response}
    (h : (Function.update table key' (some row) key).map (·.response) = some response) :
    key = key' ∧ row.response = response ∨ (table key).map (·.response) = some response := by
  by_cases hkey : key = key'
  · subst hkey
    rw [Function.update_self] at h
    exact .inl ⟨rfl, Option.some.inj h⟩
  · rw [Function.update_of_ne hkey] at h
    exact .inr h

theorem serve_response {allowed : String → Response → Prop} {outside : Outside} {query : Query}
    {table : Table} (h : query.Stores allowed) {key : String} {response : Response}
    (hrow : ((serve outside query table).2 key).map (·.response) = some response) :
    (table key).map (·.response) = some response ∨ allowed key response := by
  have hwrites := serve_writes outside query table
  generalize (serve outside query table).2 = table' at hwrites hrow
  cases hwrites with
  | nothing => exact .inl hrow
  | @create key' row =>
      rcases update_response hrow with ⟨rfl, rfl⟩ | hold
      · exact .inr h
      · exact .inl hold
  | @update key' response' row _ =>
      rcases update_response hrow with ⟨rfl, rfl⟩ | hold
      · exact .inr h
      · exact .inl hold
  | @delete key' =>
      by_cases hkey : key = key'
      · subst hkey
        simp at hrow
      · rw [Function.update_of_ne hkey] at hrow
        exact .inl hrow

/-- A key as the middleware takes it: with another it does not look anything up. -/
def Usable (key : String) : Prop := 8 ≤ key.length

/-- The sentinel that a request with this header may write. -/
def IsSentinel (idempotencyKey : Option String) (key : String) : Prop :=
  ∃ key', Usable key' ∧ idempotencyKey = some key' ∧ key = processingKey key'

/-- What the scripts of a request may still do to the table. -/
def Phase.Sound (idempotencyKey : Option String) : Phase → Prop
  | .checking script =>
      (∃ key, Usable key ∧ idempotencyKey = some key ∧
          script = .ask (.findUnique key) (afterLookup key)) ∨
        script.Guarantees (fun _ _ => True)
          (Query.Stores fun key _ => IsSentinel idempotencyKey key) fun verdict =>
            verdict = none ∨ verdict = some (.next idempotencyKey)
  | .handling wrapped => ∀ key, wrapped = some key → idempotencyKey = some key
  | .responded response storing removing =>
      storing.Guarantees (fun _ _ => True)
          (Query.Stores fun key stored => idempotencyKey = some key ∧ stored = response)
          (fun _ => True) ∧
        removing.Guarantees (fun _ _ => True) (Query.Stores fun _ _ => False) (fun _ => True)
  | .replayed _ | .rejected | .failed => True

section

variable {idempotencyKey : Option String}

theorem Phase.Sound.checked {rest : Script Query.Reply (Option Verdict)}
    (h : rest.Guarantees (fun _ _ => True)
      (Query.Stores fun key _ => IsSentinel idempotencyKey key) fun verdict =>
        verdict = none ∨ verdict = some (.next idempotencyKey)) :
    (Phase.checked rest).Sound idempotencyKey := by
  cases rest with
  | ask query next => exact .inr h
  | done verdict =>
      rcases h with rfl | rfl
      · trivial
      · exact fun _ hwrapped => hwrapped

/-- The only rows the middleware writes are sentinels. -/
theorem stores_sentinel {key : String} {query : Query} (hkey : Usable key)
    (h : query.key = some (processingKey key)) :
    query.Stores fun key' _ => IsSentinel (some key) key' := by
  cases query with
  | create key' row => exact ⟨key, hkey, rfl, Option.some.inj h⟩
  | update key' response => exact ⟨key, hkey, rfl, Option.some.inj h⟩
  | _ => trivial

/-- Past the lookup nothing is replayed any more. -/
theorem Phase.checked_ne_replayed {rest : Script Query.Reply (Option Verdict)}
    {rely : (query : Query) → query.Reply → Prop} {asks : Query → Prop}
    (h : rest.Guarantees rely asks fun verdict =>
      verdict = none ∨ verdict = some (.next idempotencyKey)) (response : Response) :
    Phase.checked rest ≠ .replayed response := by
  cases rest with
  | ask query next => exact nofun
  | done verdict => rcases h with rfl | rfl <;> exact nofun

theorem Phase.Sound.arrive (idempotencyKey : Option String) :
    (Phase.checked (idempotencyMiddleware idempotencyKey)).Sound idempotencyKey ∧
      ∀ response, Phase.checked (idempotencyMiddleware idempotencyKey) ≠ .replayed response := by
  rcases idempotencyMiddleware_cases idempotencyKey with ⟨key, hlength, rfl⟩ | hbad | ⟨-, hnext⟩
  · rw [idempotencyMiddleware_eq hlength]
    exact ⟨.inl ⟨key, hlength, rfl, rfl⟩, nofun⟩
  · rw [hbad]
    exact ⟨trivial, nofun⟩
  · rw [hnext]
    exact ⟨nofun, nofun⟩

theorem Phase.Sound.respond {wrapped : Option String} (response : Response)
    (h : (Phase.handling wrapped).Sound idempotencyKey) :
    (Phase.respond response wrapped).Sound idempotencyKey := by
  cases wrapped with
  | none => exact ⟨trivial, trivial⟩
  | some key =>
      have hkey : idempotencyKey = some key := h key rfl
      refine ⟨?_, removeKey_guarantees trivial⟩
      exact storeResponse_guarantees trivial (fun row hrow => ⟨hkey, hrow⟩) ⟨hkey, rfl⟩

end

/-- The handler of a request with the key has sent the response. -/
def Request.Answered (key : String) (response : Response) (request : Request User) : Prop :=
  request.idempotencyKey = some key ∧
    ∃ storing removing, request.phase = .responded response storing removing

namespace Server

/-- Every row and every replay goes back to a handler's response, sentinels apart. -/
structure Traced (s : Server User) : Prop where
  sound : ∀ id request, s.requests id = some request →
    request.phase.Sound request.idempotencyKey
  rows : ∀ key response, (s.table key).map (·.response) = some response →
    (∃ id request, s.requests id = some request ∧ request.Answered key response) ∨
      ∃ id request, s.requests id = some request ∧ IsSentinel request.idempotencyKey key
  replays : ∀ id request response, s.requests id = some request →
    request.phase = .replayed response → ∃ id' request' key, s.requests id' = some request' ∧
      Usable key ∧ request.idempotencyKey = some key ∧ request'.Answered key response

/-- A request arrives or goes on; one that was answered stays so. -/
theorem Traced.withRequest {s : Server User} {id : Nat} {request : Request User} {table : Table}
    (h : s.Traced)
    (hkept : ∀ before, s.requests id = some before →
      before.idempotencyKey = request.idempotencyKey ∧
        ∀ key response, before.Answered key response → request.Answered key response)
    (hsound : request.phase.Sound request.idempotencyKey)
    (hrows : ∀ key response, (table key).map (·.response) = some response →
      (s.table key).map (·.response) = some response ∨ request.Answered key response ∨
        IsSentinel request.idempotencyKey key)
    (hreplay : ∀ response, request.phase = .replayed response →
      ∃ id' request' key, s.requests id' = some request' ∧ Usable key ∧
        request.idempotencyKey = some key ∧ request'.Answered key response) :
    ({ s with table }.withRequest id request).Traced := by
  have hself : ({ s with table }.withRequest id request).requests id = some request :=
    Function.update_self _ _ _
  have hcarry (id' : Nat) (before : Request User) (hbefore : s.requests id' = some before) :
      ∃ after, ({ s with table }.withRequest id request).requests id' = some after ∧
        after.idempotencyKey = before.idempotencyKey ∧
        ∀ key response, before.Answered key response → after.Answered key response := by
    by_cases hid : id' = id
    · subst hid
      obtain ⟨hkey, hanswered⟩ := hkept before hbefore
      exact ⟨request, hself, hkey.symm, hanswered⟩
    · refine ⟨before, ?_, rfl, fun _ _ h => h⟩
      exact (Function.update_of_ne hid _ _).trans hbefore
  refine ⟨fun id' request' hrequest' => ?_, fun key response hrow => ?_,
    fun id' request' response hrequest' hphase => ?_⟩
  · rcases withRequest_requests hrequest' with ⟨rfl, rfl⟩ | ⟨-, hbefore⟩
    · exact hsound
    · exact h.sound id' request' hbefore
  · rcases hrows key response hrow with hold | hanswered | hsentinel
    · rcases h.rows key response hold with
        ⟨id', before, hbefore, hanswered⟩ | ⟨id', before, hbefore, hsentinel⟩
      · obtain ⟨after, hafter, -, hkeeps⟩ := hcarry id' before hbefore
        exact .inl ⟨id', after, hafter, hkeeps key response hanswered⟩
      · obtain ⟨after, hafter, hkey, -⟩ := hcarry id' before hbefore
        exact .inr ⟨id', after, hafter, hkey ▸ hsentinel⟩
    · exact .inl ⟨id, request, hself, hanswered⟩
    · exact .inr ⟨id, request, hself, hsentinel⟩
  · have hfound : ∃ id' before key, s.requests id' = some before ∧ Usable key ∧
        request'.idempotencyKey = some key ∧ before.Answered key response := by
      rcases withRequest_requests hrequest' with ⟨rfl, rfl⟩ | ⟨-, hbefore⟩
      · exact hreplay response hphase
      · exact h.replays id' request' response hbefore hphase
    obtain ⟨id'', before, key, hbefore, husable, hkey, hanswered⟩ := hfound
    obtain ⟨after, hafter, -, hkeeps⟩ := hcarry id'' before hbefore
    exact ⟨id'', after, key, hafter, husable, hkey, hkeeps key response hanswered⟩

theorem step_response {α : Type} {allowed : String → Response → Prop}
    {script rest : Script Query.Reply α} {outside : Outside} {table table' : Table}
    {ends : α → Prop} (h : script.Guarantees (fun _ _ => True) (Query.Stores allowed) ends)
    (hstep : script.step (serve outside) table = (rest, table')) :
    rest.Guarantees (fun _ _ => True) (Query.Stores allowed) ends ∧
      ∀ key response, (table' key).map (·.response) = some response →
        (table key).map (·.response) = some response ∨ allowed key response := by
  refine ⟨h.step hstep fun _ => trivial, ?_⟩
  apply h.step_store hstep (fun table' : Table => ∀ key response,
    (table' key).map (·.response) = some response →
      (table key).map (·.response) = some response ∨ allowed key response)
  · exact fun key response hrow => .inl hrow
  · exact fun query hquery key response hrow => serve_response hquery hrow

/-- No key of a request is the sentinel of another's. -/
def NoSentinel (s : Server User) : Prop :=
  ∀ id id' request request' key, s.requests id = some request →
    s.requests id' = some request' → Usable key → request.idempotencyKey = some key →
    ¬ IsSentinel request'.idempotencyKey key

/-- A request that goes on keeps its answer, if its next phase has the same. -/
theorem kept_of_answered {s : Server User} {id : Nat} {request : Request User}
    (hrequest : s.requests id = some request) (phase : Phase)
    (hphase : ∀ response storing removing, request.phase = .responded response storing removing →
      ∃ storing' removing', phase = .responded response storing' removing') :
    ∀ before, s.requests id = some before → before.idempotencyKey = request.idempotencyKey ∧
      ∀ key response, before.Answered key response →
        Request.Answered key response { request with phase } := by
  intro before hbefore
  obtain rfl := Option.some.inj (hrequest.symm.trans hbefore)
  refine ⟨rfl, fun key response hanswered => ?_⟩
  obtain ⟨hkey, storing, removing, hresponded⟩ := hanswered
  exact ⟨hkey, hphase response storing removing hresponded⟩

/-- The middleware's next query; a row that is replayed is traced back. -/
theorem Traced.check {s : Server User} {id : Nat} {outside : Outside} {request : Request User}
    {script rest : Script Query.Reply (Option Verdict)} {table : Table} (h : s.Traced)
    (hkeys : s.NoSentinel) (hrequest : s.requests id = some request)
    (hphase : request.phase = .checking script)
    (hstep : script.step (serve outside) s.table = (rest, table)) :
    (s.goesOn id request table (.checked rest)).Traced := by
  have hkept (rest : Script Query.Reply (Option Verdict)) :=
    kept_of_answered hrequest (.checked rest) fun response storing removing hresponded =>
      nomatch hphase.symm.trans hresponded
  have hsound := h.sound id request hrequest
  rw [hphase] at hsound
  rcases hsound with ⟨key, husable, hkey, rfl⟩ | hguarantees
  · obtain ⟨rfl, rfl⟩ := Prod.mk.inj hstep
    rcases afterLookup_cases trivial trivial (fun _ => stores_sentinel husable)
      (serve outside (.findUnique key) s.table).1 with ⟨row, now, hreply, hrest⟩ | hrest
    · have hrow : (s.table key).map (·.response) = some row.response := by
        rw [record_of_serve hreply, Option.map_some]
      rw [hrest]
      refine h.withRequest (hkept _) trivial (fun _ _ hrow => .inl hrow)
        fun response hreplayed => ?_
      obtain rfl := Phase.replayed.inj hreplayed
      rcases h.rows key row.response hrow with
        ⟨id', request', hrequest', hanswered⟩ | ⟨id', request', hrequest', hsentinel⟩
      · exact ⟨id', request', key, hrequest', husable, hkey, hanswered⟩
      · exact absurd hsentinel (hkeys id id' request request' key hrequest hrequest' husable hkey)
    · rw [← hkey] at hrest
      exact h.withRequest (hkept _) (.checked hrest) (fun _ _ hrow => .inl hrow)
        fun response hreplayed => absurd hreplayed (Phase.checked_ne_replayed hrest response)
  · obtain ⟨hrest, hrows⟩ := step_response hguarantees hstep
    exact h.withRequest (hkept _) (.checked hrest)
      (fun key response hrow => (hrows key response hrow).imp_right .inr)
      fun response hreplayed => absurd hreplayed (Phase.checked_ne_replayed hrest response)

theorem Traced.step {s s' : Server User} {a : Action User} (h : s.Traced)
    (hact : s.act a = some s') (hkeys : s.NoSentinel) : s'.Traced := by
  cases Effect.of_act hact with
  | @arrive id user idempotencyKey hnew =>
      obtain ⟨hsound, hreplay⟩ := Phase.Sound.arrive idempotencyKey
      refine h.withRequest (fun before hbefore => ?_) hsound
        (fun key response hrow => .inl hrow)
        (fun response hphase => absurd hphase (hreplay response))
      simp [hnew] at hbefore
  | check hrequest hphase hstep => exact h.check hkeys hrequest hphase hstep
  | @respond id response request wrapped hrequest hphase =>
      have hsound := h.sound id request hrequest
      rw [hphase] at hsound
      refine h.withRequest
        (kept_of_answered hrequest (.respond response wrapped) fun _ _ _ hresponded => ?_)
        (hsound.respond response) (fun _ _ hrow => .inl hrow) fun response' hreplayed => ?_
      · simp [hphase] at hresponded
      · cases wrapped <;> contradiction
  | @store id outside request response storing rest removing table hrequest hphase hstep =>
      obtain ⟨hstoring, hremoving⟩ : (Phase.responded response storing removing).Sound
        request.idempotencyKey := hphase ▸ h.sound id request hrequest
      obtain ⟨hrest, hrows⟩ := step_response hstoring hstep
      refine h.withRequest
        (kept_of_answered hrequest (.responded response rest removing) fun _ _ _ hresponded => ?_)
        ⟨hrest, hremoving⟩ (fun key stored hrow => ?_) nofun
      · obtain ⟨rfl, -, -⟩ := Phase.responded.inj (hphase.symm.trans hresponded)
        exact ⟨_, _, rfl⟩
      · rcases hrows key stored hrow with hold | ⟨hkey, rfl⟩
        · exact .inl hold
        · exact .inr (.inl ⟨hkey, _, _, rfl⟩)
  | @remove id outside request response storing removing rest table hrequest hphase hstep =>
      obtain ⟨hstoring, hremoving⟩ : (Phase.responded response storing removing).Sound
        request.idempotencyKey := hphase ▸ h.sound id request hrequest
      obtain ⟨hrest, hrows⟩ := step_response hremoving hstep
      refine h.withRequest
        (kept_of_answered hrequest (.responded response storing rest) fun _ _ _ hresponded => ?_)
        ⟨hstoring, hrest⟩ (fun key stored hrow => .inl ?_) nofun
      · obtain ⟨rfl, -, -⟩ := Phase.responded.inj (hphase.symm.trans hresponded)
        exact ⟨_, _, rfl⟩
      · exact (hrows key stored hrow).resolve_right fun h => h
  | cleanup outside =>
      refine ⟨h.sound, fun key response hrow => h.rows key response ?_, h.replays⟩
      obtain ⟨row, hkept, rfl⟩ := Option.map_eq_some_iff.mp hrow
      rw [of_cleanupExpiredKeys hkept, Option.map_some]

end Server

end StellarKraal.Idempotency
