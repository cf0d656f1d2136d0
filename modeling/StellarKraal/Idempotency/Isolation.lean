import StellarKraal.Idempotency.Provenance

/-!
# Responses and users

The table knows keys, not users, and a sentinel is a key like any other. What a
request is given stems from its own user as long as no two users share a key and no
key is the sentinel of another.
-/

namespace StellarKraal.Idempotency

open TransitionSystem (Transition)

variable {User : Type}

/-- A server without requests or stored responses. -/
def Server.Empty (s : Server User) : Prop := s.Fresh ∧ ∀ key, s.table key = none

/-- Requests with one key are one user's, and no key is a sentinel. Keys that the
middleware does not take do not matter. -/
def Separated (steps : List (Transition (Server User) (Action User))) : Prop :=
  ∀ t ∈ steps, ∀ t' ∈ steps, ∀ id id' user user' key key',
    t.action = .arrive id user (some key) → t'.action = .arrive id' user' (some key') →
    Usable key → Usable key' → (key = key' → user = user') ∧ key ≠ processingKey key'

/-- The keys of a user's requests, and their sentinels. -/
def Owned (user : User) (steps : List (Transition (Server User) (Action User))) (key : String) :
    Prop :=
  ∃ t ∈ steps, ∃ id key', t.action = .arrive id user (some key') ∧ Usable key' ∧
    (key = key' ∨ key = processingKey key')

theorem Separated.owned {steps : List (Transition (Server User) (Action User))}
    (h : Separated steps) {user user' : User} {key : String} {id : Nat}
    {t : Transition (Server User) (Action User)} (ht : t ∈ steps)
    (haction : t.action = .arrive id user' (some key)) (husable : Usable key) :
    (Owned user steps key ↔ user' = user) ∧
      (Owned user steps (processingKey key) ↔ user' = user) := by
  refine ⟨⟨?_, ?_⟩, ⟨?_, ?_⟩⟩
  · rintro ⟨t', ht', id', key', haction', husable', rfl | rfl⟩
    · exact (h t ht t' ht' id id' user' user key key haction haction' husable husable').1 rfl
    · exact absurd rfl
        (h t ht t' ht' id id' user' user _ key' haction haction' husable husable').2
  · rintro rfl
    exact ⟨t, ht, id, key, haction, husable, .inl rfl⟩
  · rintro ⟨t', ht', id', key', haction', husable', hsame | hsame⟩
    · exact absurd hsame.symm
        (h t' ht' t ht id' id user user' key' key haction' haction husable' husable).2
    · exact (h t ht t' ht' id id' user' user key key' haction haction' husable husable').1
        (processingKey_injective hsame)
  · rintro rfl
    exact ⟨t, ht, id, key, haction, husable, .inr rfl⟩

theorem Separated.traced {start s : Server User}
    {steps : List (Transition (Server User) (Action User))} (hstart : start.Empty)
    (hrun : (Server.system User).Run start steps s) (h : Separated steps) : s.Traced := by
  induction hrun with
  | nil =>
      refine ⟨fun id request hrequest => ?_, fun key response hrow => ?_,
        fun id request response hrequest => ?_⟩
      · simp [hstart.1 id] at hrequest
      · simp [hstart.2 key] at hrow
      · simp [hstart.1 id] at hrequest
  | @snoc steps s s' a prior step ih =>
      have hprior : Separated steps := fun t ht t' ht' =>
        h t (List.mem_append_left _ ht) t' (List.mem_append_left _ ht')
      refine (ih hprior).step step fun id id' request request' key hrequest hrequest' husable
        hkey ⟨key', husable', hkey', hsame⟩ => ?_
      obtain ⟨t, ht, haction⟩ := Server.arrived hstart.1 prior hrequest
      obtain ⟨t', ht', haction'⟩ := Server.arrived hstart.1 prior hrequest'
      rw [hkey] at haction
      rw [hkey'] at haction'
      exact (hprior t ht t' ht' id id' _ _ key key' haction haction' husable husable').2 hsame

/-! ## Queries and keys -/

/-- Queries about some keys only. -/
def Query.Concerns (keys : String → Prop) (query : Query) : Prop :=
  ∀ key, query.key = some key → keys key

section

variable {keys : String → Prop} {outside : Outside} {query : Query} {table table' : Table}

/-- A query sees and changes no rows but those it is about. -/
theorem serve_congr (outside : Outside) (h : query.Concerns keys)
    (htable : ∀ key, keys key → table key = table' key) :
    (serve outside query table).1 = (serve outside query table').1 ∧
      ∀ key, keys key → (serve outside query table).2 key = (serve outside query table').2 key := by
  have hupdate (key' : String) (row : Option Row) (key : String) (hkey : keys key) :
      Function.update table key' row key = Function.update table' key' row key := by
    by_cases hsame : key = key'
    · simp [hsame]
    · rw [Function.update_of_ne hsame, Function.update_of_ne hsame, htable key hkey]
  cases query with
  | now => exact ⟨rfl, htable⟩
  | findUnique key =>
      refine ⟨?_, htable⟩
      simp only [serve, htable key (h key rfl)]
  | create key row =>
      simp only [serve, htable key (h key rfl)]
      split
      · exact ⟨rfl, htable⟩
      · split
        · exact ⟨rfl, htable⟩
        · exact ⟨rfl, hupdate key _⟩
  | update key response =>
      simp only [serve, htable key (h key rfl)]
      split
      · split
        · exact ⟨rfl, htable⟩
        · exact ⟨rfl, hupdate key _⟩
      · exact ⟨rfl, htable⟩
  | delete key =>
      simp only [serve, htable key (h key rfl)]
      split
      · exact ⟨rfl, htable⟩
      · exact ⟨rfl, hupdate key _⟩

theorem serve_others (h : query.Concerns keys) {key : String} (hkey : ¬ keys key) :
    (serve outside query table).2 key = table key := by
  have hne (key' : String) (hkey' : query.key = some key') : key ≠ key' := by
    rintro rfl
    exact hkey (h key hkey')
  have hwrites := serve_writes outside query table
  generalize (serve outside query table).2 = after at hwrites ⊢
  cases hwrites with
  | nothing => rfl
  | create => exact Function.update_of_ne (hne _ rfl) _ _
  | update _ => exact Function.update_of_ne (hne _ rfl) _ _
  | delete => exact Function.update_of_ne (hne _ rfl) _ _

variable {α : Type} {script : Script Query.Reply α} {ends : α → Prop}

theorem step_congr (h : script.Guarantees (fun _ _ => True) (Query.Concerns keys) ends)
    (htable : ∀ key, keys key → table key = table' key) :
    (script.step (serve outside) table).1 = (script.step (serve outside) table').1 ∧
      ∀ key, keys key →
        (script.step (serve outside) table).2 key = (script.step (serve outside) table').2 key := by
  cases script with
  | done result => exact ⟨rfl, htable⟩
  | ask query next =>
      obtain ⟨hreply, hrows⟩ := serve_congr outside h.1 htable
      exact ⟨congrArg next hreply, hrows⟩

theorem step_others (h : script.Guarantees (fun _ _ => True) (Query.Concerns keys) ends)
    {key : String} (hkey : ¬ keys key) :
    (script.step (serve outside) table).2 key = table key := by
  apply h.step_store rfl (fun table' : Table => table' key = table key) rfl
  exact fun query hquery => serve_others hquery hkey

end

/-- What is left of a request is about some keys only. -/
def Phase.Concerns (keys : String → Prop) : Phase → Prop
  | .checking script =>
      script.Guarantees (fun _ _ => True) (Query.Concerns keys) fun verdict =>
        ∀ key, verdict = some (.next (some key)) → keys key ∧ keys (processingKey key)
  | .handling wrapped => ∀ key, wrapped = some key → keys key ∧ keys (processingKey key)
  | .responded _ storing removing =>
      storing.Guarantees (fun _ _ => True) (Query.Concerns keys) (fun _ => True) ∧
        removing.Guarantees (fun _ _ => True) (Query.Concerns keys) (fun _ => True)
  | .replayed _ | .rejected | .failed => True

section

variable {keys : String → Prop}

theorem concerns_of_key {key : String} (hkey : keys key) {query : Query}
    (h : query.key = some key) : query.Concerns keys := by
  intro key' hkey'
  obtain rfl := Option.some.inj (h.symm.trans hkey')
  exact hkey

theorem Phase.Concerns.checked {rest : Script Query.Reply (Option Verdict)}
    (h : rest.Guarantees (fun _ _ => True) (Query.Concerns keys) fun verdict =>
      ∀ key, verdict = some (.next (some key)) → keys key ∧ keys (processingKey key)) :
    (Phase.checked rest).Concerns keys := by
  cases rest with
  | ask query next => exact h
  | done verdict =>
      rcases verdict with _ | wrapped | response | _
      · trivial
      · exact fun key hkey => h key (congrArg _ (congrArg _ hkey))
      · trivial
      · trivial

theorem Phase.Concerns.arrive {idempotencyKey : Option String}
    (h : ∀ key, idempotencyKey = some key → Usable key → keys key ∧ keys (processingKey key)) :
    (Phase.checked (idempotencyMiddleware idempotencyKey)).Concerns keys := by
  rcases idempotencyMiddleware_cases idempotencyKey with ⟨key, hlength, rfl⟩ | hbad | ⟨-, hnext⟩
  · rw [idempotencyMiddleware_eq hlength]
    obtain ⟨hkey, hprocessing⟩ := h key rfl hlength
    refine ⟨concerns_of_key hkey rfl, fun (reply : Option Lookup) _ => ?_⟩
    rcases afterLookup_cases nofun (concerns_of_key hkey rfl)
      (fun query hquery => concerns_of_key hprocessing hquery) reply with ⟨_, _, -, hrest⟩ | hrest
    · rw [hrest]
      exact nofun
    · apply hrest.mono_ends
      rintro verdict (rfl | rfl) key' hkey'
      · contradiction
      · cases hkey'
        exact ⟨hkey, hprocessing⟩
  · rw [hbad]
    trivial
  · rw [hnext]
    exact nofun

theorem Phase.Concerns.respond {wrapped : Option String} (response : Response)
    (h : (Phase.handling wrapped).Concerns keys) :
    (Phase.respond response wrapped).Concerns keys := by
  cases wrapped with
  | none => exact ⟨trivial, trivial⟩
  | some key =>
      obtain ⟨hkey, hprocessing⟩ := h key rfl
      refine ⟨?_, removeKey_guarantees (concerns_of_key hprocessing rfl)⟩
      exact storeResponse_guarantees nofun (fun _ _ => concerns_of_key hkey rfl)
        (concerns_of_key hkey rfl)

end

/-! ## The server as one user sees it -/

variable [DecidableEq User]

namespace Server

/-- `mirror` has the requests of one user, and the rows of the keys that are theirs. -/
structure Mirrors (own : String → Prop) (user : User) (s mirror : Server User) : Prop where
  requests : ∀ id, mirror.requests id = (s.requests id).filter fun request => request.user = user
  table : ∀ key, own key → s.table key = mirror.table key
  /-- Each request is about keys of its user's only. -/
  concerns : ∀ id request, s.requests id = some request →
    request.phase.Concerns fun key => own key ↔ request.user = user

/-- Actions of the user's requests, and the cleanups. -/
def shows (user : User) (t : Transition (Server User) (Action User)) : Bool :=
  match t.action with
  | .arrive _ user' _ => user' = user
  | .check id _ | .respond id _ | .store id _ | .remove id _ =>
      (t.before.requests id).any fun request => request.user = user
  | .cleanup _ => true

/-- The mirror takes the step if it shows it, and stays as it is else. -/
def Followed (own : String → Prop) (user : User) (mirror : Server User)
    (t : Transition (Server User) (Action User)) : Prop :=
  (shows user t = true → ∃ mirror', mirror.act t.action = some mirror' ∧
    Mirrors own user t.after mirror') ∧
  (shows user t = false → Mirrors own user t.after mirror)

section

variable {own : String → Prop} {user : User} {s mirror : Server User} {id : Nat}
  {request : Request User} {table table' : Table}

theorem Mirrors.requests_own (h : Mirrors own user s mirror)
    (hrequest : s.requests id = some request) (huser : request.user = user) :
    mirror.requests id = some request := by
  rw [h.requests, hrequest]
  simp [Option.filter, huser]

/-- A request of the user arrives or goes on, on both sides. -/
theorem Mirrors.withRequest_own (h : Mirrors own user s mirror) (huser : request.user = user)
    (htable : ∀ key, own key → table key = table' key)
    (hconcerns : request.phase.Concerns fun key => own key ↔ request.user = user) :
    Mirrors own user ({ s with table }.withRequest id request)
      ({ mirror with table := table' }.withRequest id request) where
  requests id' := by
    by_cases hid : id' = id
    · subst hid
      simp [withRequest, Option.filter, huser]
    · simp only [withRequest, Function.update_of_ne hid]
      exact h.requests id'
  table := htable
  concerns id' request' hrequest' := by
    rcases withRequest_requests hrequest' with ⟨rfl, rfl⟩ | ⟨-, hbefore⟩
    · exact hconcerns
    · exact h.concerns id' request' hbefore

/-- A request of another user arrives or goes on, which the mirror does not show. -/
theorem Mirrors.withRequest_other (h : Mirrors own user s mirror) (huser : request.user ≠ user)
    (hbefore : ∀ before, s.requests id = some before → before.user = request.user)
    (htable : ∀ key, own key → table key = s.table key)
    (hconcerns : request.phase.Concerns fun key => own key ↔ request.user = user) :
    Mirrors own user ({ s with table }.withRequest id request) mirror where
  requests id' := by
    by_cases hid : id' = id
    · subst hid
      rw [h.requests]
      cases hrequest : s.requests id' with
      | none => simp [withRequest, Option.filter, huser]
      | some before =>
          simp [withRequest, Option.filter, hbefore before hrequest, huser]
    · simp only [withRequest, Function.update_of_ne hid]
      exact h.requests id'
  table key hkey := (htable key hkey).trans (h.table key hkey)
  concerns id' request' hrequest' := by
    rcases withRequest_requests hrequest' with ⟨rfl, rfl⟩ | ⟨-, hbefore'⟩
    · exact hconcerns
    · exact h.concerns id' request' hbefore'

/-- A request goes on, by an action that the mirror answers in the same way if the
request is the user's. -/
theorem Mirrors.goesOn {phase : Phase} {a : Action User} (h : Mirrors own user s mirror)
    (hrequest : s.requests id = some request)
    (hshows : ∀ s', shows user ⟨s, a, s'⟩ = decide (request.user = user))
    (hconcerns : phase.Concerns fun key => own key ↔ request.user = user)
    (hown : request.user = user → ∃ table',
      mirror.act a = some (mirror.goesOn id request table' phase) ∧
        ∀ key, own key → table key = table' key)
    (hother : request.user ≠ user → ∀ key, own key → table key = s.table key) :
    Followed own user mirror ⟨s, a, s.goesOn id request table phase⟩ := by
  rw [Followed, hshows]
  refine ⟨fun huser => ?_, fun huser => ?_⟩
  · rw [decide_eq_true_eq] at huser
    obtain ⟨table', hact, htable⟩ := hown huser
    exact ⟨_, hact, h.withRequest_own huser htable hconcerns⟩
  · rw [decide_eq_false_iff_not] at huser
    refine h.withRequest_other huser (fun before hbefore => ?_) (hother huser) hconcerns
    rw [Option.some.inj (hbefore.symm.trans hrequest)]

/-- A script that steps in both, on tables that agree on the user's keys. -/
theorem Mirrors.step_script {α : Type} {script rest : Script Query.Reply α} {ends : α → Prop}
    {outside : Outside} (h : Mirrors own user s mirror)
    (hscript : script.Guarantees (fun _ _ => True)
      (Query.Concerns fun key => own key ↔ request.user = user) ends)
    (hstep : script.step (serve outside) s.table = (rest, table)) :
    rest.Guarantees (fun _ _ => True) (Query.Concerns fun key => own key ↔ request.user = user)
        ends ∧
      (request.user = user → ∃ table', script.step (serve outside) mirror.table = (rest, table') ∧
        ∀ key, own key → table key = table' key) ∧
      (request.user ≠ user → ∀ key, own key → table key = s.table key) := by
  refine ⟨hscript.step hstep fun _ => trivial, fun huser => ?_, fun huser key hkey => ?_⟩
  · have htable : ∀ key, (own key ↔ request.user = user) → s.table key = mirror.table key :=
      fun key hkey => h.table key (hkey.mpr huser)
    obtain ⟨hsame, hrows⟩ := step_congr hscript htable
    rw [hstep] at hsame hrows
    refine ⟨(script.step (serve outside) mirror.table).2, Prod.ext hsame.symm rfl, ?_⟩
    exact fun key hkey => hrows key (iff_of_true hkey huser)
  · have hkept : (script.step (serve outside) s.table).2 key = s.table key :=
      step_others hscript fun hown => huser (hown.mp hkey)
    rwa [hstep] at hkept

end

theorem Mirrors.step {own : String → Prop} {user : User} {s s' mirror : Server User}
    {a : Action User} (h : Mirrors own user s mirror) (hact : s.act a = some s')
    (harrive : ∀ id user' key, a = .arrive id user' (some key) → Usable key →
      (own key ↔ user' = user) ∧ (own (processingKey key) ↔ user' = user)) :
    Followed own user mirror ⟨s, a, s'⟩ := by
  cases Effect.of_act hact with
  | @arrive id user' idempotencyKey hnew =>
      have hconcerns : (Phase.checked (idempotencyMiddleware idempotencyKey)).Concerns
          fun key => own key ↔ user' = user :=
        .arrive fun key hkey husable => harrive id user' key (congrArg _ hkey) husable
      refine ⟨fun huser => ?_, fun huser => ?_⟩
      · have huser : user' = user := by simpa [shows] using huser
        have hmirror : mirror.requests id = none := by
          rw [h.requests, hnew]
          rfl
        refine ⟨_, ?_, h.withRequest_own huser h.table hconcerns⟩
        simp only [act, hmirror]
      · have huser : user' ≠ user := by simpa [shows] using huser
        exact h.withRequest_other huser (by simp [hnew]) (fun _ _ => rfl) hconcerns
  | @check id outside request script rest table hrequest hphase hstep =>
      have hscript : (Phase.checking script).Concerns _ := hphase ▸ h.concerns id request hrequest
      obtain ⟨hrest, hown, hother⟩ := h.step_script hscript hstep
      refine h.goesOn hrequest (fun s' => by simp [shows, hrequest]) (.checked hrest)
        (fun huser => ?_) hother
      obtain ⟨table', hstep', htable⟩ := hown huser
      refine ⟨table', ?_, htable⟩
      simp [act, h.requests_own hrequest huser, hphase, hstep']
  | @respond id response request wrapped hrequest hphase =>
      have hwrapped : (Phase.handling wrapped).Concerns _ := hphase ▸ h.concerns id request hrequest
      refine h.goesOn hrequest (fun s' => by simp [shows, hrequest]) (hwrapped.respond response)
        (fun huser => ⟨mirror.table, ?_, h.table⟩) fun _ _ _ => rfl
      simp [act, h.requests_own hrequest huser, hphase]
  | @store id outside request response storing rest removing table hrequest hphase hstep =>
      obtain ⟨hstoring, hremoving⟩ : (Phase.responded response storing removing).Concerns _ :=
        hphase ▸ h.concerns id request hrequest
      obtain ⟨hrest, hown, hother⟩ := h.step_script hstoring hstep
      refine h.goesOn hrequest (fun s' => by simp [shows, hrequest]) ⟨hrest, hremoving⟩
        (fun huser => ?_) hother
      obtain ⟨table', hstep', htable⟩ := hown huser
      refine ⟨table', ?_, htable⟩
      simp [act, h.requests_own hrequest huser, hphase, hstep']
  | @remove id outside request response storing removing rest table hrequest hphase hstep =>
      obtain ⟨hstoring, hremoving⟩ : (Phase.responded response storing removing).Concerns _ :=
        hphase ▸ h.concerns id request hrequest
      obtain ⟨hrest, hown, hother⟩ := h.step_script hremoving hstep
      refine h.goesOn hrequest (fun s' => by simp [shows, hrequest]) ⟨hstoring, hrest⟩
        (fun huser => ?_) hother
      obtain ⟨table', hstep', htable⟩ := hown huser
      refine ⟨table', ?_, htable⟩
      simp [act, h.requests_own hrequest huser, hphase, hstep']
  | cleanup outside =>
      refine ⟨fun _ => ⟨_, rfl, h.requests, fun key hkey => ?_, h.concerns⟩, fun hhidden => ?_⟩
      · simp only [cleanupExpiredKeys, h.table key hkey]
      · contradiction

/-- What happens to a user's requests, in order. -/
def seenBy (user : User) (steps : List (Transition (Server User) (Action User))) :
    List (Action User) :=
  (steps.filter (shows user)).map (·.action)

theorem Fresh.mirrors {s : Server User} (h : s.Fresh) (own : String → Prop) (user : User) :
    Mirrors own user s s where
  requests id := by simp [h id]
  table _ _ := rfl
  concerns id request hrequest := by simp [h id] at hrequest

/-- What one user sees of a run is a run as well. -/
theorem exists_mirror (own : String → Prop) (user : User) {start s : Server User}
    {steps : List (Transition (Server User) (Action User))} (hstart : start.Fresh)
    (hrun : (system User).Run start steps s)
    (harrive : ∀ t ∈ steps, ∀ id user' key, t.action = .arrive id user' (some key) → Usable key →
      (own key ↔ user' = user) ∧ (own (processingKey key) ↔ user' = user)) :
    ∃ mirror, (seenBy user steps).foldlM act start = some mirror ∧ Mirrors own user s mirror := by
  induction hrun with
  | nil => exact ⟨start, rfl, hstart.mirrors own user⟩
  | @snoc steps s s' a prior step ih =>
      obtain ⟨mirror, hmirror, hmirrors⟩ := ih fun t ht => harrive t (List.mem_append_left _ ht)
      obtain ⟨hshown, hhidden⟩ := hmirrors.step step
        (harrive ⟨s, a, s'⟩ (List.mem_append_right _ List.mem_cons_self))
      have hlast : seenBy user (steps ++ [⟨s, a, s'⟩]) =
          seenBy user steps ++ seenBy user [⟨s, a, s'⟩] := by
        rw [seenBy, List.filter_append, List.map_append, seenBy, seenBy]
      rw [hlast, List.foldlM_append, hmirror]
      cases hshows : shows user ⟨s, a, s'⟩ with
      | true =>
          obtain ⟨mirror', hact, hmirrors'⟩ := hshown hshows
          refine ⟨mirror', ?_, hmirrors'⟩
          simp [seenBy, hshows, hact]
      | false =>
          refine ⟨mirror, ?_, hhidden hshows⟩
          simp [seenBy, hshows]

end Server

/-- Users do not see each other's responses, if no two use one key and no key is the
sentinel of another: what is replayed is what a request of the same user with the same
key was answered, and two runs in which the same happens to a user's requests leave
them with the same, whatever else arrives. -/
theorem responses_isolated {start s : Server User}
    {steps : List (Transition (Server User) (Action User))} (hstart : start.Empty)
    (hrun : (Server.system User).Run start steps s) (hseparated : Separated steps) :
    (∀ id request response, s.requests id = some request → request.phase = .replayed response →
      ∃ id' request' storing removing, s.requests id' = some request' ∧
        request'.user = request.user ∧ request'.idempotencyKey = request.idempotencyKey ∧
        request'.phase = .responded response storing removing) ∧
    ∀ (user : User) (steps' : List (Transition (Server User) (Action User))) (s' : Server User),
      (Server.system User).Run start steps' s' → Separated steps' →
      Server.seenBy user steps' = Server.seenBy user steps →
      ∀ id, (s'.requests id).filter (fun request => request.user = user) =
        (s.requests id).filter fun request => request.user = user := by
  refine ⟨fun id request response hrequest hphase => ?_,
    fun user steps' s' hrun' hseparated' hseen id => ?_⟩
  · have htraced := hseparated.traced hstart hrun
    obtain ⟨id', request', key, hrequest', husable, hkey, hkey', storing, removing, hresponded⟩ :=
      htraced.replays id request response hrequest hphase
    obtain ⟨t, ht, haction⟩ := Server.arrived hstart.1 hrun hrequest
    obtain ⟨t', ht', haction'⟩ := Server.arrived hstart.1 hrun hrequest'
    rw [hkey] at haction
    rw [hkey'] at haction'
    have huser :=
      (hseparated t' ht' t ht id' id _ _ key key haction' haction husable husable).1 rfl
    exact ⟨id', request', storing, removing, hrequest', huser, hkey'.trans hkey.symm, hresponded⟩
  · obtain ⟨mirror, hmirror, hmirrors⟩ := Server.exists_mirror (Owned user steps) user hstart.1 hrun
      fun _ ht _ _ _ haction husable => hseparated.owned ht haction husable
    obtain ⟨mirror', hmirror', hmirrors'⟩ :=
      Server.exists_mirror (Owned user steps') user hstart.1 hrun'
        fun _ ht _ _ _ haction husable => hseparated'.owned ht haction husable
    rw [hseen] at hmirror'
    obtain rfl := Option.some.inj (hmirror.symm.trans hmirror')
    rw [← hmirrors.requests, ← hmirrors'.requests]

/-! A farmer who tries again, next to another, and two farmers with one key. -/

namespace Sample

theorem idle_empty : idle.Empty :=
  ⟨idle_fresh, fun _ => rfl⟩

def apart : List (Action String) :=
  answered 1 "amina" ++ [.arrive 3 "brian" (some "retire-batch-02")] ++
    arrival 2 "amina" :: checks 2 1 ++ checks 3 4

def shared : List (Action String) :=
  answered 1 "amina" ++ arrival 2 "brian" :: checks 2 1

end Sample

theorem separated_of_all {steps : List (Transition (Server String) (Action String))}
    (h : steps.all (fun t => steps.all fun t' => match t.action, t'.action with
      | .arrive _ user (some key), .arrive _ user' (some key') =>
          (decide (key ≠ key') || decide (user = user')) && decide (key ≠ processingKey key')
      | _, _ => true) = true) : Separated steps := by
  intro t ht t' ht' id id' user user' key key' haction haction' _ _
  have hpair := List.all_eq_true.mp (List.all_eq_true.mp h t ht) t' ht'
  simp only [haction, haction', Bool.and_eq_true, Bool.or_eq_true, decide_eq_true_eq] at hpair
  exact ⟨fun hsame => hpair.1.resolve_left fun hne => hne hsame, hpair.2⟩

/-- What the farmer who tries again is replayed is what was sent before. -/
theorem sample_responses_isolated :
    ∃ steps s request, (Server.system String).Run Sample.idle steps s ∧
      s.requests 2 = some request ∧ request.phase = .replayed ⟨200, "[]"⟩ ∧
      ∃ id' request' storing removing, s.requests id' = some request' ∧
        request'.user = request.user ∧ request'.idempotencyKey = request.idempotencyKey ∧
        request'.phase = .responded ⟨200, "[]"⟩ storing removing := by
  have hrun : (Server.system String).Run Sample.idle _ _ :=
    TransitionSystem.Run.of_replay (fun _ _ _ h => h)
      (show TransitionSystem.replay Server.act _ Sample.apart = some (_, _) from rfl)
  have hisolated := responses_isolated Sample.idle_empty hrun (separated_of_all rfl)
  exact ⟨_, _, _, hrun, rfl, rfl, hisolated.1 2 _ _ rfl rfl⟩

theorem arrivals_of_all {steps : List (Transition (Server String) (Action String))}
    (user : String) (id : Nat)
    (h : steps.all (fun t => match t.action with
      | .arrive id' user' _ => decide (user' ≠ user) || decide (id' = id)
      | _ => true) = true) :
    ∀ t ∈ steps, ∀ id' idempotencyKey, t.action = .arrive id' user idempotencyKey → id' = id := by
  intro t ht id' idempotencyKey haction
  have harrival := List.all_eq_true.mp h t ht
  simpa [haction] using harrival

/-- The second farmer is replayed what the first was sent. -/
theorem response_crosses_users :
    ¬ ∀ (start s : Server String) (steps : List (Transition (Server String) (Action String))),
      start.Empty → (Server.system String).Run start steps s →
      ∀ id request response, s.requests id = some request → request.phase = .replayed response →
        ∃ id' request' storing removing, s.requests id' = some request' ∧
          request'.user = request.user ∧ request'.idempotencyKey = request.idempotencyKey ∧
          request'.phase = .responded response storing removing := by
  intro hall
  have hrun : (Server.system String).Run Sample.idle _ _ :=
    TransitionSystem.Run.of_replay (fun _ _ _ h => h)
      (show TransitionSystem.replay Server.act _ Sample.shared = some (_, _) from rfl)
  obtain ⟨id', request', storing, removing, hrequest', huser, -, hresponded⟩ :=
    hall _ _ _ Sample.idle_empty hrun 2 _ ⟨200, "[]"⟩ rfl rfl
  obtain ⟨t, ht, haction⟩ := Server.arrived Sample.idle_fresh hrun hrequest'
  rw [huser] at haction
  -- Brian has sent nothing else.
  obtain rfl := arrivals_of_all "brian" 2 rfl t ht id' _ haction
  obtain rfl := Option.some.inj hrequest'
  cases hresponded

end StellarKraal.Idempotency
