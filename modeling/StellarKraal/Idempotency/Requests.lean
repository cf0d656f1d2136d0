import StellarKraal.Idempotency.Service
import StellarKraal.Foundation.TransitionSystem

/-!
# Requests in flight

Requests of authenticated users on the one route behind the middleware. A request
goes through the middleware, its handler runs for as long as it likes, and the
wrapped `res.json` starts two scripts that nobody waits for.
-/

namespace StellarKraal.Idempotency

inductive Phase
  /-- In the middleware. -/
  | checking (rest : Script Query.Reply (Option Verdict))
  /-- The handler runs, with `res.json` wrapped for a key or not. -/
  | handling (wrapped : Option String)
  /-- The handler has answered; the response is being stored and the sentinel removed. -/
  | responded (response : Response) (storing : Script Query.Reply Bool)
      (removing : Script Query.Reply Unit)
  | replayed (response : Response)
  | rejected
  /-- The middleware threw. -/
  | failed

namespace Phase

def checked : Script Query.Reply (Option Verdict) → Phase
  | .done (some (.next wrapped)) => handling wrapped
  | .done (some (.replay response)) => replayed response
  | .done (some .badRequest) => rejected
  | .done none => failed
  | .ask query next => checking (.ask query next)

/-- The handler's `res.json`. -/
def respond (response : Response) : Option String → Phase
  | none => responded response (.done true) (.done ())
  | some key =>
      responded response (storeResponse key response 24) (removeKey (processingKey key))

end Phase

structure Request (User : Type) where
  user : User
  /-- The `Idempotency-Key` header. -/
  idempotencyKey : Option String
  phase : Phase

/-- The table and the requests so far. -/
structure Server (User : Type) where
  table : Table
  requests : Nat → Option (Request User)

inductive Action (User : Type)
  | arrive (id : Nat) (user : User) (idempotencyKey : Option String)
  /-- The middleware's next query. -/
  | check (id : Nat) (outside : Outside)
  | respond (id : Nat) (response : Response)
  /-- The next query for the response of a request. -/
  | store (id : Nat) (outside : Outside)
  /-- The next query for its sentinel. -/
  | remove (id : Nat) (outside : Outside)
  | cleanup (outside : Outside)

namespace Server

variable {User : Type}

def withRequest (s : Server User) (id : Nat) (request : Request User) : Server User :=
  { s with requests := Function.update s.requests id (some request) }

theorem withRequest_requests {s : Server User} {id id' : Nat} {request request' : Request User}
    (h : (s.withRequest id request).requests id' = some request') :
    (id' = id ∧ request' = request) ∨ (id' ≠ id ∧ s.requests id' = some request') := by
  by_cases hid : id' = id
  · subst hid
    simp only [withRequest, Function.update_self] at h
    exact .inl ⟨rfl, (Option.some.inj h).symm⟩
  · simp only [withRequest, Function.update_of_ne hid] at h
    exact .inr ⟨hid, h⟩

/-- The request goes on to `phase`, with a query's effect on the table. -/
def goesOn (s : Server User) (id : Nat) (request : Request User) (table : Table) (phase : Phase) :
    Server User :=
  { s with table }.withRequest id { request with phase }

def act (s : Server User) : Action User → Option (Server User)
  | .arrive id user idempotencyKey =>
      match s.requests id with
      | some _ => none
      | none => some (s.withRequest id
          ⟨user, idempotencyKey, .checked (idempotencyMiddleware idempotencyKey)⟩)
  | .check id outside => do
      let request ← s.requests id
      match request.phase with
      | .checking script =>
          let (rest, table) := script.step (serve outside) s.table
          return s.goesOn id request table (.checked rest)
      | _ => none
  | .respond id response => do
      let request ← s.requests id
      match request.phase with
      | .handling wrapped => return s.goesOn id request s.table (.respond response wrapped)
      | _ => none
  | .store id outside => do
      let request ← s.requests id
      match request.phase with
      | .responded response storing removing =>
          let (rest, table) := storing.step (serve outside) s.table
          return s.goesOn id request table (.responded response rest removing)
      | _ => none
  | .remove id outside => do
      let request ← s.requests id
      match request.phase with
      | .responded response storing removing =>
          let (rest, table) := removing.step (serve outside) s.table
          return s.goesOn id request table (.responded response storing rest)
      | _ => none
  | .cleanup outside => some { s with table := cleanupExpiredKeys outside s.table }

/-- What an action that is possible does. -/
inductive Effect (s : Server User) : Action User → Server User → Prop
  | arrive {id : Nat} {user : User} {idempotencyKey : Option String} (hnew : s.requests id = none) :
      Effect s (.arrive id user idempotencyKey) (s.withRequest id
        ⟨user, idempotencyKey, .checked (idempotencyMiddleware idempotencyKey)⟩)
  | check {id : Nat} {outside : Outside} {request : Request User}
      {script rest : Script Query.Reply (Option Verdict)} {table : Table}
      (hrequest : s.requests id = some request) (hphase : request.phase = .checking script)
      (hstep : script.step (serve outside) s.table = (rest, table)) :
      Effect s (.check id outside) (s.goesOn id request table (.checked rest))
  | respond {id : Nat} {response : Response} {request : Request User} {wrapped : Option String}
      (hrequest : s.requests id = some request) (hphase : request.phase = .handling wrapped) :
      Effect s (.respond id response) (s.goesOn id request s.table (.respond response wrapped))
  | store {id : Nat} {outside : Outside} {request : Request User} {response : Response}
      {storing rest : Script Query.Reply Bool} {removing : Script Query.Reply Unit} {table : Table}
      (hrequest : s.requests id = some request)
      (hphase : request.phase = .responded response storing removing)
      (hstep : storing.step (serve outside) s.table = (rest, table)) :
      Effect s (.store id outside)
        (s.goesOn id request table (.responded response rest removing))
  | remove {id : Nat} {outside : Outside} {request : Request User} {response : Response}
      {storing : Script Query.Reply Bool} {removing rest : Script Query.Reply Unit} {table : Table}
      (hrequest : s.requests id = some request)
      (hphase : request.phase = .responded response storing removing)
      (hstep : removing.step (serve outside) s.table = (rest, table)) :
      Effect s (.remove id outside)
        (s.goesOn id request table (.responded response storing rest))
  | cleanup (outside : Outside) :
      Effect s (.cleanup outside) { s with table := cleanupExpiredKeys outside s.table }

theorem Effect.of_act {s s' : Server User} {a : Action User} (h : s.act a = some s') :
    s.Effect a s' := by
  cases a with
  | arrive id user idempotencyKey =>
      simp only [act] at h
      split at h
      next => contradiction
      next hnew =>
        obtain rfl := Option.some.inj h
        exact .arrive hnew
  | cleanup outside =>
      obtain rfl := Option.some.inj h
      exact .cleanup outside
  | check id outside =>
      obtain ⟨request, hrequest, hact⟩ := Option.bind_eq_some_iff.mp h
      split at hact
      next script hphase =>
        obtain rfl := Option.some.inj hact
        exact .check hrequest hphase rfl
      next => contradiction
  | respond id response =>
      obtain ⟨request, hrequest, hact⟩ := Option.bind_eq_some_iff.mp h
      split at hact
      next wrapped hphase =>
        obtain rfl := Option.some.inj hact
        exact .respond hrequest hphase
      next => contradiction
  | store id outside =>
      obtain ⟨request, hrequest, hact⟩ := Option.bind_eq_some_iff.mp h
      split at hact
      next response storing removing hphase =>
        obtain rfl := Option.some.inj hact
        exact .store hrequest hphase rfl
      next => contradiction
  | remove id outside =>
      obtain ⟨request, hrequest, hact⟩ := Option.bind_eq_some_iff.mp h
      split at hact
      next response storing removing hphase =>
        obtain rfl := Option.some.inj hact
        exact .remove hrequest hphase rfl
      next => contradiction

/-- A server that has had no requests. -/
def Fresh (s : Server User) : Prop := ∀ id, s.requests id = none

def system (User : Type) : TransitionSystem (Server User) (Action User) where
  Initial := Fresh
  Step s a s' := s.act a = some s'

/-- Every request of a run has arrived in it. -/
theorem arrived {start s : Server User}
    {steps : List (TransitionSystem.Transition (Server User) (Action User))} (hstart : start.Fresh)
    (hrun : (system User).Run start steps s) {id : Nat} {request : Request User}
    (h : s.requests id = some request) :
    ∃ t ∈ steps, t.action = .arrive id request.user request.idempotencyKey := by
  induction hrun generalizing request with
  | nil => simp [hstart id] at h
  | @snoc steps s s' a prior step ih =>
      have hearlier {request : Request User} (hbefore : s.requests id = some request) :
          ∃ t ∈ steps ++ [⟨s, a, s'⟩],
            t.action = .arrive id request.user request.idempotencyKey := by
        obtain ⟨t, ht, haction⟩ := ih hbefore
        exact ⟨t, List.mem_append_left _ ht, haction⟩
      have hsame {id' : Nat} {request' : Request User} {table : Table} {phase : Phase}
          (hs' : s' = s.goesOn id' request' table phase)
          (hrequest' : s.requests id' = some request') :
          ∃ t ∈ steps ++ [⟨s, a, s'⟩],
            t.action = .arrive id request.user request.idempotencyKey := by
        subst hs'
        rcases withRequest_requests h with ⟨rfl, rfl⟩ | ⟨-, hbefore⟩
        · have hfound := hearlier hrequest'
          exact hfound
        · exact hearlier hbefore
      cases Effect.of_act step with
      | arrive hnew =>
          rcases withRequest_requests h with ⟨rfl, rfl⟩ | ⟨-, hbefore⟩
          · exact ⟨_, List.mem_append_right _ List.mem_cons_self, rfl⟩
          · exact hearlier hbefore
      | check hrequest => exact hsame rfl hrequest
      | respond hrequest => exact hsame rfl hrequest
      | store hrequest => exact hsame rfl hrequest
      | remove hrequest => exact hsame rfl hrequest
      | cleanup outside => exact hearlier h

end Server

/-! A server whose queries all work, and requests with one key. -/

namespace Sample

def key : String := "retire-batch-01"

def working : Outside := ⟨0, false⟩

def idle : Server String := ⟨fun _ => none, fun _ => none⟩

theorem idle_fresh : idle.Fresh :=
  fun _ => rfl

def arrival (id : Nat) (user : String) : Action String := .arrive id user (some key)

def checks (id n : Nat) : List (Action String) := List.replicate n (.check id working)

/-- A request whose handler answers and whose response is stored. -/
def answered (id : Nat) (user : String) : List (Action String) :=
  arrival id user :: checks id 4 ++ .respond id ⟨200, "[]"⟩ :: List.replicate 2 (.store id working)

end Sample

end StellarKraal.Idempotency
