import StellarKraal.Foundation.ScriptGuarantee
import Mathlib.Logic.Function.Basic

/-!
# Idempotency keys

The table of stored responses, the service's queries on it, and the middleware that
looks a request's key up before its handler runs. Each query is one step, and those
of other requests come in between.
-/

namespace StellarKraal.Idempotency

/-! ## The table -/

/-- A status code and a body, which is the JSON text that is stored and sent. -/
structure Response where
  statusCode : Nat
  body : String
  deriving DecidableEq, Repr

structure Row where
  response : Response
  expiresAt : Nat
  deriving DecidableEq, Repr

/-- The `idempotencyKey` rows by their unique key. -/
abbrev Table := String → Option Row

/-- What `findUnique` found, and the time when the reply is looked at. -/
structure Lookup where
  record : Option Row
  now : Nat

/-- `conflict` is the error code `P2002`. -/
inductive Creation
  | created
  | conflict
  | failed

/-- Queries on the table, and the clock. -/
inductive Query
  | findUnique (key : String)
  | create (key : String) (row : Row)
  | update (key : String) (response : Response)
  | delete (key : String)
  | now
  deriving DecidableEq

/-- A lookup that throws has no reply; updates and deletions say whether they did not. -/
def Query.Reply : Query → Type
  | .findUnique _ => Option Lookup
  | .create _ _ => Creation
  | .update _ _ => Bool
  | .delete _ => Bool
  | .now => Nat

/-- The clock, and whether the query is one that fails. -/
structure Outside where
  now : Nat
  fails : Bool

def serve (outside : Outside) : Script.Service Query.Reply Table
  | .findUnique key, table =>
      (if outside.fails then none else some ⟨table key, outside.now⟩, table)
  | .create key row, table =>
      if outside.fails then (.failed, table)
      else if (table key).isSome then (.conflict, table)
      else (.created, Function.update table key (some row))
  | .update key response, table =>
      match table key with
      | some row =>
          if outside.fails then (false, table)
          else (true, Function.update table key (some { row with response }))
      | none => (false, table)
  | .delete key, table =>
      if outside.fails || (table key).isNone then (false, table)
      else (true, Function.update table key none)
  | .now, table => (outside.now, table)

/-- What queries do to the table: one row at most is written. -/
inductive Query.Writes (table : Table) : Query → Table → Prop
  | nothing {query : Query} : Writes table query table
  | create {key : String} {row : Row} :
      Writes table (.create key row) (Function.update table key (some row))
  | update {key : String} {response : Response} {row : Row} (hrow : table key = some row) :
      Writes table (.update key response) (Function.update table key (some { row with response }))
  | delete {key : String} : Writes table (.delete key) (Function.update table key none)

theorem serve_writes (outside : Outside) (query : Query) (table : Table) :
    query.Writes table (serve outside query table).2 := by
  cases query with
  | findUnique key => exact .nothing
  | now => exact .nothing
  | create key row =>
      simp only [serve]
      split
      · exact .nothing
      · split
        · exact .nothing
        · exact .create
  | update key response =>
      simp only [serve]
      split
      next row hrow =>
        split
        · exact .nothing
        · exact .update hrow
      next => exact .nothing
  | delete key =>
      simp only [serve]
      split
      · exact .nothing
      · exact .delete

theorem record_of_serve {outside : Outside} {key : String} {table : Table} {record : Option Row}
    {now : Nat} (h : (serve outside (.findUnique key) table).1 = some (Lookup.mk record now)) :
    table key = record := by
  cases hfails : outside.fails with
  | true => simp [serve, hfails] at h
  | false =>
      simp only [serve, hfails] at h
      exact (Lookup.mk.inj (Option.some.inj h)).1

/-! ## The service -/

def hour : Nat := 3600000

def ask (query : Query) : Script Query.Reply query.Reply := .ask query .done

/-- A failed deletion is only logged. -/
def removeKey (key : String) : Script Query.Reply Unit := do
  let _ ← ask (.delete key)
  return ()

def getStoredResponse (key : String) : Script Query.Reply (Option Response) := do
  let reply : Option Lookup ← ask (.findUnique key)
  match reply with
  | some ⟨some record, now⟩ =>
      if now > record.expiresAt then
        removeKey key
        return none
      else return some record.response
  | some ⟨none, _⟩ | none => return none

/-- `false` where the call throws. A row that is already there keeps its expiry. -/
def storeResponse (key : String) (response : Response) (ttlHours : Nat) :
    Script Query.Reply Bool := do
  let now : Nat ← ask .now
  let creation : Creation ← ask (.create key ⟨response, now + ttlHours * hour⟩)
  match creation with
  | .created => return true
  | .conflict => ask (.update key response)
  | .failed => return false

/-- The deletion of all expired rows; an error is only logged. -/
def cleanupExpiredKeys (outside : Outside) (table : Table) : Table := fun key =>
  if outside.fails then table key else (table key).filter fun row => !(row.expiresAt < outside.now)

theorem of_cleanupExpiredKeys {outside : Outside} {table : Table} {key : String} {row : Row}
    (h : cleanupExpiredKeys outside table key = some row) : table key = some row := by
  simp only [cleanupExpiredKeys] at h
  split at h
  · exact h
  · exact (Option.filter_eq_some_iff.mp h).1

/-! ## The middleware -/

def processingKey (key : String) : String := key ++ "_processing"

/-- The body is `JSON.stringify` of a status of `processing`. -/
def processing : Response := ⟨202, "\x7b\"status\":\"processing\"\x7d"⟩

inductive Verdict
  /-- `next()`; with a key, `res.json` is wrapped to store what the handler sends. -/
  | next (wrapped : Option String)
  | replay (response : Response)
  | badRequest

/-- What follows a lookup without a result: the sentinel, and on to the handler. -/
def proceed (key : String) : Script Query.Reply (Option Verdict) := do
  let processingState ← getStoredResponse (processingKey key)
  if processingState.isSome then removeKey (processingKey key)
  if ← storeResponse (processingKey key) processing 1 then return some (.next (some key))
  else return none

/-- `none` where it throws, which leaves the request without a response. -/
def idempotencyMiddleware (idempotencyKey : Option String) :
    Script Query.Reply (Option Verdict) := do
  match idempotencyKey with
  | none | some "" => return some (.next none)
  | some key =>
      if key.length < 8 then return some .badRequest
      else
        match ← getStoredResponse key with
        | some storedResponse => return some (.replay storedResponse)
        | none => proceed key

theorem processingKey_ne (key : String) : processingKey key ≠ key := by
  intro h
  have hlength := congrArg String.length h
  simp [processingKey] at hlength

theorem processingKey_injective : Function.Injective processingKey :=
  fun _ _ h => (String.append_left_inj _).mp h

/-! ## What the scripts ask -/

/-- The key a query is about. -/
def Query.key : Query → Option String
  | .findUnique key | .create key _ | .update key _ | .delete key => some key
  | .now => none

section

variable {rely : (query : Query) → query.Reply → Prop} {asks : Query → Prop} {key : String}

theorem removeKey_guarantees (hdelete : asks (.delete key)) :
    (removeKey key).Guarantees rely asks fun _ => True :=
  ⟨hdelete, fun _ _ => trivial⟩

theorem getStoredResponse_guarantees (hfind : asks (.findUnique key))
    (hdelete : asks (.delete key)) :
    (getStoredResponse key).Guarantees rely asks fun _ => True := by
  refine ⟨hfind, fun (reply : Option Lookup) _ => ?_⟩
  rcases reply with _ | ⟨_ | row, now⟩
  · trivial
  · trivial
  · by_cases hexpired : now > row.expiresAt
    · change Script.Guarantees rely asks _ (if now > row.expiresAt then _ else _)
      rw [if_pos hexpired]
      exact ⟨hdelete, fun _ _ => trivial⟩
    · change Script.Guarantees rely asks _ (if now > row.expiresAt then _ else _)
      rw [if_neg hexpired]
      trivial

theorem storeResponse_guarantees {response : Response} {ttlHours : Nat} (hnow : asks .now)
    (hcreate : ∀ row : Row, row.response = response → asks (.create key row))
    (hupdate : asks (.update key response)) :
    (storeResponse key response ttlHours).Guarantees rely asks fun _ => True := by
  refine ⟨hnow, fun now _ => ⟨hcreate _ rfl, fun (creation : Creation) _ => ?_⟩⟩
  cases creation with
  | created => trivial
  | conflict => exact ⟨hupdate, fun _ _ => trivial⟩
  | failed => trivial

/-- Past the lookup only the sentinel is asked about, and the way leads to the
handler or ends in a throw. -/
theorem proceed_guarantees (hnow : asks .now)
    (hasks : ∀ query : Query, query.key = some (processingKey key) → asks query) :
    (proceed key).Guarantees rely asks fun verdict =>
      verdict = none ∨ verdict = some (.next (some key)) := by
  apply Script.Guarantees.bind (getStoredResponse_guarantees (hasks _ rfl) (hasks _ rfl))
  intro processingState _
  have hstore : (do
      if ← storeResponse (processingKey key) processing 1 then return some (.next (some key))
      else return none : Script Query.Reply (Option Verdict)).Guarantees rely asks fun verdict =>
        verdict = none ∨ verdict = some (.next (some key)) := by
    apply Script.Guarantees.bind
      (storeResponse_guarantees hnow (fun _ _ => hasks _ rfl) (hasks _ rfl))
    intro stored _
    cases stored with
    | true => exact .inr rfl
    | false => exact .inl rfl
  cases hfound : processingState.isSome with
  | true =>
      simp only [if_true]
      apply Script.Guarantees.bind (removeKey_guarantees (hasks _ rfl))
      exact fun _ _ => hstore
  | false => exact hstore

end

/-- The rest of the middleware, with the reply to the lookup of the key. -/
def afterLookup (key : String) : Option Lookup → Script Query.Reply (Option Verdict)
  | some ⟨some record, now⟩ =>
      if now > record.expiresAt then .ask (.delete key) fun _ => proceed key
      else .done (some (.replay record.response))
  | some ⟨none, _⟩ | none => proceed key

/-- A lookup finds a row and replays it, or the request goes on to its sentinel. -/
theorem afterLookup_cases {rely : (query : Query) → query.Reply → Prop} {asks : Query → Prop}
    {key : String} (hnow : asks .now) (hdelete : asks (.delete key))
    (hasks : ∀ query : Query, query.key = some (processingKey key) → asks query)
    (reply : Option Lookup) :
    (∃ row now, reply = some ⟨some row, now⟩ ∧
      afterLookup key reply = .done (some (.replay row.response))) ∨
    (afterLookup key reply).Guarantees rely asks fun verdict =>
      verdict = none ∨ verdict = some (.next (some key)) := by
  have hproceed : (proceed key).Guarantees rely asks _ := proceed_guarantees hnow hasks
  rcases reply with _ | ⟨_ | row, now⟩
  · exact .inr hproceed
  · exact .inr hproceed
  · rw [afterLookup]
    split
    · exact .inr ⟨hdelete, fun _ _ => hproceed⟩
    · exact .inl ⟨row, now, rfl, rfl⟩

theorem idempotencyMiddleware_eq {key : String} (hlength : 8 ≤ key.length) :
    idempotencyMiddleware (some key) = .ask (.findUnique key) (afterLookup key) := by
  have hnonempty : key ≠ "" := by
    rintro rfl
    simp at hlength
  have hlookup : (do
      match ← getStoredResponse key with
      | some storedResponse => return some (.replay storedResponse)
      | none => proceed key : Script Query.Reply (Option Verdict)) =
        .ask (.findUnique key) (afterLookup key) := by
    change Script.ask (Query.findUnique key) _ = _
    congr 1
    funext reply
    rcases (reply : Option Lookup) with _ | ⟨_ | record, now⟩
    · rfl
    · rfl
    · change Script.bind (if now > record.expiresAt then _ else _) _ = _
      by_cases hexpired : now > record.expiresAt
      · rw [afterLookup, if_pos hexpired, if_pos hexpired]
        rfl
      · rw [afterLookup, if_neg hexpired, if_neg hexpired]
        rfl
  simp only [idempotencyMiddleware, if_neg (Nat.not_lt.mpr hlength)]
  exact hlookup

theorem idempotencyMiddleware_cases (idempotencyKey : Option String) :
    (∃ key, 8 ≤ key.length ∧ idempotencyKey = some key) ∨
    idempotencyMiddleware idempotencyKey = .done (some .badRequest) ∨
    (idempotencyKey = none ∨ idempotencyKey = some "") ∧
      idempotencyMiddleware idempotencyKey = .done (some (.next none)) := by
  cases idempotencyKey with
  | none => exact .inr (.inr ⟨.inl rfl, rfl⟩)
  | some key =>
      by_cases hempty : key = ""
      · subst hempty
        exact .inr (.inr ⟨.inr rfl, rfl⟩)
      · by_cases hlength : key.length < 8
        · refine .inr (.inl ?_)
          simp only [idempotencyMiddleware, if_pos hlength]
          rfl
        · exact .inl ⟨key, Nat.not_lt.mp hlength, rfl⟩

end StellarKraal.Idempotency
