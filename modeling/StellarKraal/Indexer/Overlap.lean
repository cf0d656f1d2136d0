import StellarKraal.Foundation.ScriptGuarantee
import StellarKraal.Indexer.Poller

/-!
# Overlapping polls

The interval starts a poll whether or not the one before has finished, and all of
them share the cursor and the database. A handler reads the row of its loan, looks
at it, and writes some queries later without looking again.
-/

namespace StellarKraal.Indexer

open TransitionSystem (Transition)

/-! ## The service -/

/-- A run of `pollEvents`: before the RPC has answered, within `processEvent` for an
event of its page, and after the last one. -/
inductive Poll
  | requesting (startLedger : Nat)
  | processing (event : SorobanEvent) (script : Script Query.Reply Unit)
      (rest : List SorobanEvent)
  | finished

/-- `visible` counts the events of the chain that the RPC knows of. -/
structure Backend where
  currentStartLedger : Nat
  db : Database
  visible : Nat
  polls : List Poll

inductive Action
  | appear
  /-- The interval fires. -/
  | fire
  /-- The RPC answers, or the request is rejected. -/
  | respond (poll : Nat)
  | reject (poll : Nat)
  /-- The next query of the event at hand, which may throw. -/
  | query (poll : Nat) (throws : Bool)
  /-- `processEvent` has returned: the cursor moves behind the event. -/
  | next (poll : Nat)

section System

variable (rt : Runtime) (accepts : Loan → Bool) (chain : List SorobanEvent)

/-- A query is answered by the database, or throws and changes nothing. -/
def attempt (throws : Bool) : Script.Service Query.Reply Database :=
  if throws then fun _ db => (none, db) else serve accepts

/-- What a poll goes on with. -/
def Poll.start : List SorobanEvent → Poll
  | [] => .finished
  | event :: rest => .processing event (processEvent rt event) rest

def Backend.perform (s : Backend) : Action → Option Backend
  | .appear => if s.visible < chain.length then some { s with visible := s.visible + 1 } else none
  | .fire => some { s with polls := s.polls ++ [.requesting s.currentStartLedger] }
  | .respond i =>
      match s.polls[i]? with
      | some (.requesting startLedger) =>
          some { s with
            polls := s.polls.set i (.start rt (getEvents (chain.take s.visible) startLedger)) }
      | _ => none
  | .reject i =>
      match s.polls[i]? with
      | some (.requesting _) => some { s with polls := s.polls.set i .finished }
      | _ => none
  | .query i throws =>
      match s.polls[i]? with
      | some (.processing event (.ask query continuation) rest) =>
          let (reply, db) := attempt accepts throws query s.db
          some { s with db, polls := s.polls.set i (.processing event (continuation reply) rest) }
      | _ => none
  | .next i =>
      match s.polls[i]? with
      | some (.processing event (.done _) rest) =>
          some { s with
            currentStartLedger := max s.currentStartLedger (event.ledger + 1)
            polls := s.polls.set i (.start rt rest) }
      | _ => none

end System

/-- The poller before its first run, over whatever is in the database. -/
def polling (rt : Runtime) (accepts : Loan → Bool) (chain : List SorobanEvent) :
    TransitionSystem Backend Action where
  Initial s := s.polls = []
  Step s a s' := s.perform rt accepts chain a = some s'

/-! ## Terminal rows -/

def RowState.Terminal (row : RowState) : Prop := row.status = .repaid ∨ row.status = .liquidated

/-- What a terminal row may become: a terminal row that is no older. -/
def RowState.Kept (row : RowState) (later : Option RowState) : Prop :=
  ∃ row', later = some row' ∧ row'.Terminal ∧
    ∀ ledger ∈ row.lastEventLedger, ∃ ledger' ∈ row'.lastEventLedger, ledger ≤ ledger'

theorem RowState.Kept.refl {row : RowState} (h : row.Terminal) : row.Kept (some row) :=
  ⟨row, rfl, h, fun ledger hledger => ⟨ledger, hledger, le_rfl⟩⟩

def KeepsTerminal (before after : Database) : Prop :=
  ∀ id row, before.rowState id = some row → row.Terminal → row.Kept (after.rowState id)

theorem KeepsTerminal.refl (db : Database) : KeepsTerminal db db := by
  intro id row hrow hterminal
  rw [hrow]
  exact .refl hterminal

/-- The creation of a loan reaches its write when the loan's row is terminal. -/
def OpensTerminal (t : Transition Backend Action) : Prop :=
  ∃ i event create update continuation rest row, t.action = .query i false ∧
    t.before.polls[i]? =
      some (.processing event (.ask (.upsertLoan create update) continuation) rest) ∧
    t.before.db.rowState create.contractLoanId = some row ∧ row.Terminal

theorem ClosingStatus.terminal (status : ClosingStatus) (ledger : Option Nat) :
    RowState.Terminal ⟨status.toLoanStatus, ledger⟩ := by
  cases status with
  | repaid => exact .inl rfl
  | liquidated => exact .inr rfl

/-! ## What a handler asks

Handlers are described relative to the rows the poller began with: those that were
terminal then are so whenever they are read.
-/

section Asking

variable (initial : Database) (events : List LoanEvent)

/-- The replies to expect. -/
def Truthful : (query : Query) → query.Reply → Prop
  | .findLoan id, reply => ∀ found : Option Loan, reply = some found →
      ∀ row, initial.rowState id = some row → row.Terminal → row.Kept (found.map Loan.state)
  | _, _ => True

/-- The writes to the loan table that handlers make, given such replies. -/
def MayAsk : Query → Prop
  | .upsertLoan create update => create.status = .active ∧ update.status = .active ∧
      ∀ row, initial.rowState create.contractLoanId = some row → ¬ row.Terminal
  | .updateLoan contractLoanId update =>
      ∃ event ∈ events, ∃ status, event.kind = .closed status ∧
        event.contractLoanId = contractLoanId ∧
        update = ⟨status.toLoanStatus, event.source.ledger⟩ ∧
        ∀ row, initial.rowState contractLoanId = some row → row.Terminal →
          ∀ ledger ∈ row.lastEventLedger, ledger ≤ event.source.ledger
  | _ => True

abbrev Behaves {α : Type} (script : Script Query.Reply α) : Prop :=
  script.Guarantees (Truthful initial) (MayAsk initial events) fun _ => True

end Asking

section Behaves

variable {α β : Type} {initial : Database} {events : List LoanEvent}

theorem Behaves.ask {query : Query} (h : MayAsk initial events query) :
    Behaves initial events (Handler.ask query).run :=
  ⟨h, fun _ _ => trivial⟩

theorem Behaves.ask_bind {query : Query} {f : query.Row → Handler β}
    (h : MayAsk initial events query)
    (hf : ∀ row, Truthful initial query (some row) → Behaves initial events (f row).run) :
    Behaves initial events (Handler.ask query >>= f).run := by
  refine ⟨h, fun reply hreply => ?_⟩
  cases reply with
  | none => trivial
  | some row => exact hf row hreply

theorem Behaves.bind {handler : Handler α} {f : α → Handler β}
    (h : Behaves initial events handler.run) (hf : ∀ a, Behaves initial events (f a).run) :
    Behaves initial events (handler >>= f).run := by
  refine Script.Guarantees.bind h fun result _ => ?_
  cases result with
  | none => trivial
  | some a => exact hf a

/-- Reading a decoded value asks nothing. -/
theorem Behaves.orThrow_bind {value : Option α} {f : α → Handler β}
    (hf : ∀ a, value = some a → Behaves initial events (f a).run) :
    Behaves initial events (Handler.orThrow value >>= f).run := by
  cases value with
  | none => trivial
  | some a => exact hf a rfl

theorem Behaves.caught {handler : Handler Unit} (h : Behaves initial events handler.run) :
    Behaves initial events (Handler.caught handler) :=
  Script.Guarantees.bind h fun _ _ => trivial

/-- The guard of a creation stops at a row that was terminal from the start. -/
theorem Truthful.isTerminal {id : String} {existing : Option Loan}
    (h : Truthful initial (.findLoan id) (some existing)) {row : RowState}
    (hrow : initial.rowState id = some row) (hterminal : row.Terminal) :
    isTerminal existing = true := by
  obtain ⟨row', hexisting, hterminal', -⟩ := h existing rfl row hrow hterminal
  obtain ⟨loan, rfl, rfl⟩ := Option.map_eq_some_iff.mp hexisting
  rcases hterminal' with hstatus | hstatus
  · simp [Indexer.isTerminal, show loan.status = .repaid from hstatus]
  · simp [Indexer.isTerminal, show loan.status = .liquidated from hstatus]

/-- The guard of a closing event lets only newer events pass. -/
theorem Truthful.le_of_not_isReplayed {id : String} {existing : Option Loan}
    (h : Truthful initial (.findLoan id) (some existing)) {event : SorobanEvent}
    (hguard : isReplayed event existing = false) {row : RowState}
    (hrow : initial.rowState id = some row) (hterminal : row.Terminal) :
    ∀ ledger ∈ row.lastEventLedger, ledger ≤ event.ledger := by
  intro ledger hledger
  obtain ⟨row', hexisting, -, hledgers⟩ := h existing rfl row hrow hterminal
  obtain ⟨loan, rfl, rfl⟩ := Option.map_eq_some_iff.mp hexisting
  obtain ⟨ledger', hledger', hle⟩ := hledgers ledger hledger
  rw [isReplayed_some, hledger'] at hguard
  exact hle.trans (not_le.mp (of_decide_eq_false hguard)).le

variable {rt : Runtime}

/-- The event's value names the loan. -/
structure LoanEvent.Parses (rt : Runtime) (event : LoanEvent) : Prop where
  name : ∃ first rest, event.source.topic = first :: rest ∧
    rt.scValToNative first = some (.string event.kind.eventName)
  data : ∃ data id, rt.scValToNative event.source.value = some data ∧
    data.property "loan_id" = some id ∧ id.toText = event.contractLoanId

theorem LoanEvent.Decodes.parses {db : Database} {event : LoanEvent} (h : event.Decodes rt db) :
    event.Parses rt := by
  obtain ⟨data, id, hdata, hid, htext, -⟩ := h.data
  exact ⟨h.name, data, id, hdata, hid, htext⟩

theorem handleLoanCreated_behaves (event : SorobanEvent) :
    Behaves initial events (handleLoanCreated rt event).run := by
  unfold handleLoanCreated
  refine .orThrow_bind fun _ _ => .orThrow_bind fun loanId _ => .orThrow_bind fun _ _ =>
    .orThrow_bind fun _ _ => .orThrow_bind fun _ _ => .orThrow_bind fun _ _ =>
    .orThrow_bind fun _ _ => .ask_bind trivial fun existing hexisting => ?_
  split
  next => trivial
  next hguard =>
    refine .ask_bind trivial fun user _ => ?_
    cases user with
    | none => trivial
    | some user =>
        refine .ask_bind trivial fun livestock _ => ?_
        cases livestock with
        | none => trivial
        | some livestock =>
            refine .ask ⟨rfl, rfl, fun row hrow hterminal => ?_⟩
            exact hguard (.inr (hexisting.isTerminal hrow hterminal))

theorem handleLoanStatusChange_behaves {event : LoanEvent} (hevent : event ∈ events)
    {status : ClosingStatus} (h : event.Parses rt) (hkind : event.kind = .closed status) :
    Behaves initial events (handleLoanStatusChange rt event.source status).run := by
  obtain ⟨data, loanId, hdata, hloanId, htext⟩ := h.data
  unfold handleLoanStatusChange
  refine .orThrow_bind fun data' hdata' => .orThrow_bind fun loanId' hloanId' => ?_
  obtain rfl := Option.some.inj (hdata.symm.trans hdata')
  obtain rfl := Option.some.inj (hloanId.symm.trans hloanId')
  refine .ask_bind trivial fun existing hexisting => ?_
  split
  next => trivial
  next hguard =>
    have hupdate : Behaves initial events (Handler.ask (.updateLoan loanId.toText
        ⟨status.toLoanStatus, event.source.ledger⟩)).run :=
      .ask ⟨event, hevent, status, hkind, htext.symm, rfl, fun row hrow hterminal =>
        hexisting.le_of_not_isReplayed (by simpa using hguard) hrow hterminal⟩
    split
    next =>
      refine .bind (.ask_bind trivial fun livestock _ => ?_) fun _ => hupdate
      cases livestock with
      | none => trivial
      | some livestock => exact .ask trivial
    next => exact hupdate

/-- An event of the chain is one of `events`, or one that nothing is asked for: of
another kind, or not decodable. -/
def Understood (rt : Runtime) (events : List LoanEvent) (event : SorobanEvent) : Prop :=
  processEvent rt event = pure () ∨ ∃ e ∈ events, e.source = event ∧ e.Parses rt

theorem processEvent_behaves {event : SorobanEvent} (h : Understood rt events event) :
    Behaves initial events (processEvent rt event) := by
  rcases h with hnothing | ⟨event, hevent, rfl, hparses⟩
  · rw [hnothing]
    trivial
  · obtain ⟨first, rest, htopic, hname⟩ := hparses.name
    simp only [processEvent, htopic, hname]
    cases hkind : event.kind with
    | created => exact .caught (handleLoanCreated_behaves event.source)
    | closed status =>
        have hbehaves : Behaves initial events _ :=
          .caught (handleLoanStatusChange_behaves hevent hparses hkind)
        cases status with
        | repaid => simpa [LoanEventKind.eventName] using hbehaves
        | liquidated => simpa [LoanEventKind.eventName] using hbehaves

end Behaves

/-! ## What a query does to the rows -/

/-- The row of `id` after a query, where it was `before`. -/
inductive RowMove (query : Query) (id : String) (before : Option RowState) :
    Option RowState → Prop
  | same : RowMove query id before before
  | opened {create : Loan} {update : LoanUpdate} {row : RowState}
      (hquery : query = .upsertLoan create update) (hid : create.contractLoanId = id)
      (hrow : row.status = create.status ∨ row.status = update.status) :
      RowMove query id before (some row)
  | closed {update : LoanUpdate} (hquery : query = .updateLoan id update) :
      RowMove query id before (some ⟨update.status, some update.lastEventLedger⟩)

variable {rt : Runtime} {accepts : Loan → Bool} {initial : Database} {events : List LoanEvent}

theorem attempt_rowMove (throws : Bool) (query : Query) (db : Database) (id : String) :
    RowMove query id (db.rowState id) ((attempt accepts throws query db).2.rowState id) := by
  cases throws with
  | true => exact .same
  | false =>
      change RowMove query id _ ((serve accepts query db).2.rowState id)
      cases query with
      | findLoan | findUser | findLivestock | findLoanLivestock => exact .same
      | updateLivestock row verification =>
          simp only [serve]
          split <;> exact .same
      | upsertLoan create update =>
          simp only [serve]
          split
          next loan hrow =>
            simp only [rowState_insert]
            split
            next heq => exact .opened rfl heq.symm (.inr rfl)
            next => exact .same
          next hrow =>
            split
            · simp only [rowState_insert]
              split
              next heq => exact .opened rfl heq.symm (.inl rfl)
              next => exact .same
            · exact .same
      | updateLoan contractLoanId update =>
          simp only [serve]
          split
          next loan hrow =>
            simp only [rowState_insert]
            split
            next heq => exact .closed (heq ▸ rfl)
            next => exact .same
          next => exact .same

/-- A reply is made of the rows as they are. -/
theorem attempt_truthful (throws : Bool) {query : Query} {db : Database}
    (h : KeepsTerminal initial db) :
    Truthful initial query (attempt accepts throws query db).1 := by
  cases query with
  | findLoan id =>
      intro found hfound row hrow hterminal
      cases throws with
      | true => contradiction
      | false =>
          obtain rfl := Option.some.inj hfound
          exact h id row hrow hterminal
  | _ => trivial

/-- No query touches the rows that were terminal from the start, but to close them
again by a newer event. -/
theorem KeepsTerminal.after {query : Query} {db : Database} (h : KeepsTerminal initial db)
    (hasks : MayAsk initial events query) (throws : Bool) :
    KeepsTerminal initial (attempt accepts throws query db).2 := by
  intro id row hrow hterminal
  have hmove := @attempt_rowMove accepts throws query db id
  generalize hafter : (attempt accepts throws query db).2.rowState id = later at hmove
  cases hmove with
  | same => exact hafter ▸ h id row hrow hterminal
  | opened hquery hid =>
      subst hquery hid
      exact absurd hterminal (hasks.2.2 row hrow)
  | closed hquery =>
      subst hquery
      obtain ⟨event, -, status, -, -, rfl, hnewer⟩ := hasks
      refine ⟨_, rfl, status.terminal _, fun ledger hledger => ?_⟩
      exact ⟨_, rfl, hnewer row hrow hterminal ledger hledger⟩

/-- Every terminal row was there from the start, or is as the closing event of its
loan leaves it. -/
def ClosedByEvents (initial : Database) (events : List LoanEvent) (db : Database) : Prop :=
  ∀ id row, db.rowState id = some row → row.Terminal → initial.rowState id = some row ∨
    ∃ event ∈ events, ∃ status, event.kind = .closed status ∧ event.contractLoanId = id ∧
      row = ⟨status.toLoanStatus, some event.source.ledger⟩

theorem ClosedByEvents.after {query : Query} {db : Database}
    (h : ClosedByEvents initial events db) (hasks : MayAsk initial events query) (throws : Bool) :
    ClosedByEvents initial events (attempt accepts throws query db).2 := by
  intro id row hrow hterminal
  have hmove := @attempt_rowMove accepts throws query db id
  rw [hrow] at hmove
  generalize hbefore : db.rowState id = before at hmove
  cases hmove with
  | same => exact h id row hbefore hterminal
  | opened hquery hid hstatus =>
      subst hquery hid
      rw [hasks.1, hasks.2.1, or_self] at hstatus
      simp [RowState.Terminal, hstatus] at hterminal
  | closed hquery =>
      subst hquery
      obtain ⟨event, hevent, status, hkind, hid, rfl, -⟩ := hasks
      exact .inr ⟨event, hevent, status, hkind, hid, rfl⟩

/-! ## Runs -/

/-- A poll is somewhere in `processEvent`, and has only events of the chain to come. -/
def Poll.Sound (initial : Database) (events : List LoanEvent) (chain : List SorobanEvent) :
    Poll → Prop
  | .processing _ script rest => Behaves initial events script ∧ ∀ event ∈ rest, event ∈ chain
  | .requesting _ | .finished => True

structure Backend.Sound (initial : Database) (events : List LoanEvent)
    (chain : List SorobanEvent) (s : Backend) : Prop where
  polls : ∀ poll ∈ s.polls, poll.Sound initial events chain
  kept : KeepsTerminal initial s.db
  closed : ClosedByEvents initial events s.db

variable {chain : List SorobanEvent}

theorem Poll.start_sound (hchain : ∀ event ∈ chain, Understood rt events event)
    {page : List SorobanEvent} (hpage : ∀ event ∈ page, event ∈ chain) :
    (Poll.start rt page).Sound initial events chain := by
  cases page with
  | nil => trivial
  | cons event rest =>
      exact ⟨processEvent_behaves (hchain event (hpage event List.mem_cons_self)),
        fun other hother => hpage other (List.mem_cons_of_mem _ hother)⟩

theorem Backend.Sound.withPoll {s : Backend} (h : s.Sound initial events chain) {poll : Poll}
    (hpoll : poll.Sound initial events chain) (i : Nat) :
    ∀ p ∈ s.polls.set i poll, p.Sound initial events chain := by
  intro p hp
  rcases List.mem_or_eq_of_mem_set hp with hp | rfl
  · exact h.polls p hp
  · exact hpoll

/-- A step serves a query of some poll, or leaves the database alone. -/
theorem perform_cases {s s' : Backend} {a : Action}
    (h : s.perform rt accepts chain a = some s') :
    (∃ i throws event query continuation rest, a = .query i throws ∧
      s.polls[i]? = some (.processing event (.ask query continuation) rest) ∧
      s' = { s with
        db := (attempt accepts throws query s.db).2
        polls := s.polls.set i
          (.processing event (continuation (attempt accepts throws query s.db).1) rest) }) ∨
    s'.db = s.db ∧ ∀ poll ∈ s'.polls, poll ∈ s.polls ∨ (∃ l, poll = .requesting l) ∨
      ∃ page, poll = .start rt page ∧ ((∀ event ∈ page, event ∈ chain) ∨
        ∃ event script, .processing event script page ∈ s.polls) := by
  cases a with
  | query i throws =>
      simp only [Backend.perform] at h
      split at h
      next event query continuation rest hpoll =>
        exact .inl ⟨i, throws, event, query, continuation, rest, rfl, hpoll,
          (Option.some.inj h).symm⟩
      next => contradiction
  | appear =>
      simp only [Backend.perform, Option.ite_none_right_eq_some, Option.some.injEq] at h
      obtain ⟨-, rfl⟩ := h
      exact .inr ⟨rfl, fun poll hpoll => .inl hpoll⟩
  | fire =>
      obtain rfl := Option.some.inj h
      refine .inr ⟨rfl, fun poll hpoll => ?_⟩
      rcases List.mem_append.mp hpoll with hpoll | hpoll
      · exact .inl hpoll
      · exact .inr (.inl ⟨_, List.mem_singleton.mp hpoll⟩)
  | respond i =>
      simp only [Backend.perform] at h
      split at h
      next startLedger hi =>
        obtain rfl := Option.some.inj h
        refine .inr ⟨rfl, fun poll hpoll => ?_⟩
        rcases List.mem_or_eq_of_mem_set hpoll with hpoll | rfl
        · exact .inl hpoll
        · refine .inr (.inr ⟨_, rfl, .inl fun event hevent => ?_⟩)
          exact List.mem_of_mem_take (List.mem_of_mem_filter (List.mem_of_mem_take hevent))
      next => contradiction
  | reject i =>
      simp only [Backend.perform] at h
      split at h
      next startLedger hi =>
        obtain rfl := Option.some.inj h
        refine .inr ⟨rfl, fun poll hpoll => ?_⟩
        rcases List.mem_or_eq_of_mem_set hpoll with hpoll | rfl
        · exact .inl hpoll
        · exact .inr (.inr ⟨[], rfl, .inl (by simp)⟩)
      next => contradiction
  | next i =>
      simp only [Backend.perform] at h
      split at h
      next event result rest hi =>
        obtain rfl := Option.some.inj h
        refine .inr ⟨rfl, fun poll hpoll => ?_⟩
        rcases List.mem_or_eq_of_mem_set hpoll with hpoll | rfl
        · exact .inl hpoll
        · exact .inr (.inr ⟨rest, rfl, .inr ⟨event, _, List.mem_of_getElem? hi⟩⟩)
      next => contradiction

theorem step_sound (hchain : ∀ event ∈ chain, Understood rt events event) {s s' : Backend}
    {a : Action} (h : s.Sound initial events chain)
    (step : (polling rt accepts chain).Step s a s') : s'.Sound initial events chain := by
  rcases perform_cases step with
    ⟨i, throws, event, query, continuation, rest, -, hi, rfl⟩ | ⟨hdb, hpolls⟩
  · obtain ⟨⟨hasks, hcontinues⟩, hrest⟩ := h.polls _ (List.mem_of_getElem? hi)
    have hpoll : Poll.Sound initial events chain (.processing event
        (continuation (attempt accepts throws query s.db).1) rest) :=
      ⟨hcontinues _ (attempt_truthful throws h.kept), hrest⟩
    exact ⟨h.withPoll hpoll i, h.kept.after hasks throws, h.closed.after hasks throws⟩
  · refine ⟨fun poll hpoll => ?_, hdb ▸ h.kept, hdb ▸ h.closed⟩
    rcases hpolls poll hpoll with hold | ⟨l, rfl⟩ | ⟨page, rfl, hpage | ⟨event, script, hold⟩⟩
    · exact h.polls poll hold
    · trivial
    · exact Poll.start_sound hchain hpage
    · exact Poll.start_sound hchain (h.polls _ hold).2

theorem run_sound (hchain : ∀ event ∈ chain, Understood rt events event) {start s : Backend}
    {steps : List (Transition Backend Action)} (hstart : (polling rt accepts chain).Initial start)
    (hrun : (polling rt accepts chain).Run start steps s) :
    s.Sound start.db events chain := by
  refine hrun.invariant_of_steps (fun _ => True) (fun s a s' h step _ => step_sound hchain h step)
    (fun _ _ => trivial) ?_
  refine ⟨?_, .refl _, fun id row hrow _ => .inl hrow⟩
  rw [show start.polls = [] from hstart]
  simp

/-- A loan's closing event is one. -/
theorem closing_unique {history : List LoanEvent} (h : history = [] ∨ LoanHistory history)
    {event event' : LoanEvent} {status status' : ClosingStatus} (hevent : event ∈ history)
    (hkind : event.kind = .closed status) (hevent' : event' ∈ history)
    (hkind' : event'.kind = .closed status') : event' = event := by
  rcases h with rfl | h
  · contradiction
  · cases h with
    | opened hcreated =>
        obtain rfl := List.mem_singleton.mp hevent
        rw [hcreated] at hkind
        contradiction
    | ended hcreated hclosed =>
        simp only [List.mem_cons, List.not_mem_nil, or_false] at hevent hevent'
        rcases hevent with rfl | rfl
        · rw [hcreated] at hkind
          contradiction
        · rcases hevent' with rfl | rfl
          · rw [hcreated] at hkind'
            contradiction
          · rfl

theorem attempt_keepsTerminal
    (hhistory : ∀ id, ofLoan id events = [] ∨ LoanHistory (ofLoan id events)) {throws : Bool}
    {query : Query} {db : Database} (hasks : MayAsk initial events query)
    (hclosed : ClosedByEvents initial events db)
    (hopens : throws = false → ∀ create update row, query = .upsertLoan create update →
      db.rowState create.contractLoanId = some row → ¬ row.Terminal) :
    KeepsTerminal db (attempt accepts throws query db).2 := by
  cases throws with
  | true => exact .refl db
  | false =>
      intro id row hrow hterminal
      have hmove := @attempt_rowMove accepts false query db id
      generalize (attempt accepts false query db).2.rowState id = later at hmove ⊢
      cases hmove with
      | same => exact hrow ▸ .refl hterminal
      | opened hquery hid =>
          subst hid
          exact absurd hterminal (hopens rfl _ _ row hquery hrow)
      | closed hquery =>
          subst hquery
          obtain ⟨e, he, status, hkind, hid, rfl, hnewer⟩ := hasks
          refine ⟨_, rfl, status.terminal _, fun ledger hledger => ⟨_, rfl, ?_⟩⟩
          rcases hclosed id row hrow hterminal with
            hinitial | ⟨e', he', status', hkind', hid', rfl⟩
          · exact hnewer row hinitial hterminal ledger hledger
          · -- The row was closed by this very event.
            obtain rfl := closing_unique (hhistory id)
              (List.mem_filter.mpr ⟨he, by simpa using hid⟩) hkind
              (List.mem_filter.mpr ⟨he', by simpa using hid'⟩) hkind'
            obtain rfl := Option.some.inj hledger
            exact le_rfl

/-- The step lemma: a terminal row is lost to a creation only. -/
theorem keepsTerminal_iff (hhistory : ∀ id, ofLoan id events = [] ∨ LoanHistory (ofLoan id events))
    {s s' : Backend} {a : Action} (h : s.Sound initial events chain)
    (step : (polling rt accepts chain).Step s a s') :
    KeepsTerminal s.db s'.db ↔ ¬ OpensTerminal ⟨s, a, s'⟩ := by
  constructor
  · rintro hkeeps ⟨i, event, create, update, continuation, rest, row, rfl, hi, hrow, hterminal⟩
    obtain ⟨⟨⟨-, hactive, -⟩, -⟩, -⟩ := h.polls _ (List.mem_of_getElem? hi)
    obtain ⟨loan, hloan, rfl⟩ := Option.map_eq_some_iff.mp hrow
    obtain rfl : _ = s' := by
      simpa [polling, Backend.perform, hi, attempt, serve, hloan] using step
    obtain ⟨row', hrow', hterminal', -⟩ := hkeeps _ _ hrow hterminal
    rw [rowState_insert, if_pos rfl] at hrow'
    obtain rfl := Option.some.inj hrow'
    simp [RowState.Terminal, Loan.state, LoanUpdate.apply, hactive] at hterminal'
  · intro hopens
    rcases perform_cases step with
      ⟨i, throws, event, query, continuation, rest, rfl, hi, rfl⟩ | ⟨hdb, -⟩
    · obtain ⟨⟨hasks, -⟩, -⟩ := h.polls _ (List.mem_of_getElem? hi)
      refine attempt_keepsTerminal hhistory hasks h.closed ?_
      rintro rfl create update row rfl hrow hterminal
      exact hopens ⟨i, event, create, update, continuation, rest, row, rfl, hi, hrow, hterminal⟩
    · rw [hdb]
      exact .refl _

/-- A terminal row is never set back, however the polls overlap, exactly if no creation
gets to its write when the row of its loan is terminal. -/
theorem terminal_stays_iff (hchain : ∀ event ∈ chain, Understood rt events event)
    (hhistory : ∀ id, ofLoan id events = [] ∨ LoanHistory (ofLoan id events)) {start s : Backend}
    {steps : List (Transition Backend Action)} (hstart : (polling rt accepts chain).Initial start)
    (hrun : (polling rt accepts chain).Run start steps s) :
    (∀ t ∈ steps, KeepsTerminal t.before.db t.after.db) ↔ ∀ t ∈ steps, ¬ OpensTerminal t := by
  refine forall₂_congr fun t ht => ?_
  obtain ⟨before, after, rfl⟩ := List.append_of_mem ht
  obtain ⟨hprior, hstep⟩ := hrun.of_split
  exact keepsTerminal_iff hhistory (run_sound hchain hstart hprior) hstep

namespace Sample

open StellarKraal.Sample (runtime database)

/-- A loan that is created and repaid. -/
def loanEvents : List LoanEvent := [creation, repayment 2]

def service : Backend := ⟨1, database, 0, []⟩

theorem service_idle : (polling runtime (fun _ => true)
    (loanEvents.map LoanEvent.source)).Initial service := rfl

theorem understood :
    ∀ event ∈ loanEvents.map LoanEvent.source, Understood runtime loanEvents event := by
  intro event hevent
  obtain ⟨e, he, rfl⟩ := List.mem_map.mp hevent
  exact .inr ⟨e, he, rfl, (decodes 2 e he).parses⟩

theorem loanHistory (id : String) :
    ofLoan id loanEvents = [] ∨ LoanHistory (ofLoan id loanEvents) := by
  by_cases hid : "1" = id
  · subst hid
    exact .inr (.ended rfl rfl)
  · simp [ofLoan, loanEvents, creation, repayment, hid]

/-- One poll that handles both events. -/
def onePoll : List Action :=
  [.appear, .appear, .fire, .respond 0, .query 0 false, .query 0 false, .query 0 false,
    .query 0 false, .next 0, .query 0 false, .query 0 false, .next 0]

/-- Two polls: the first is about to create the row when the second has created it and
closed it. -/
def overtaken : List Action :=
  [.appear, .fire, .respond 0, .query 0 false, .query 0 false, .query 0 false,
    .fire, .appear, .respond 1, .query 1 false, .query 1 false, .query 1 false, .query 1 false,
    .next 1, .query 1 false, .query 1 false, .query 0 false]

end Sample

/-- Creations get to their writes while there is no row. -/
theorem not_opensTerminal_of_all {steps : List (Transition Backend Action)}
    (h : steps.all (fun t => match t.action with
      | .query i _ =>
          match t.before.polls[i]? with
          | some (.processing _ (.ask (.upsertLoan create _) _) _) =>
              (t.before.db.rowState create.contractLoanId).isNone
          | _ => true
      | _ => true) = true) : ∀ t ∈ steps, ¬ OpensTerminal t := by
  rintro t ht ⟨i, event, create, update, continuation, rest, row, haction, hi, hrow, -⟩
  have hnone := List.all_eq_true.mp h t ht
  simp [haction, hi, hrow] at hnone

/-- One poll keeps the repaid row. -/
theorem sample_terminal_stays :
    ∃ steps s, (polling StellarKraal.Sample.runtime (fun _ => true)
        (Sample.loanEvents.map LoanEvent.source)).Run Sample.service steps s ∧
      s.db.rowState "1" = some ⟨.repaid, some 2⟩ ∧
      ∀ t ∈ steps, KeepsTerminal t.before.db t.after.db := by
  have hrun : (polling StellarKraal.Sample.runtime (fun _ => true)
      (Sample.loanEvents.map LoanEvent.source)).Run Sample.service _ _ :=
    TransitionSystem.Run.of_replay (fun _ _ _ h => h)
      (show TransitionSystem.replay _ _ Sample.onePoll = some (_, _) from rfl)
  have hstays := terminal_stays_iff Sample.understood Sample.loanHistory Sample.service_idle hrun
  exact ⟨_, _, hrun, rfl, hstays.mpr (not_opensTerminal_of_all rfl)⟩

/-- The slow creation of a loan that was repaid meanwhile sets it back. -/
theorem repaid_loan_reopened :
    ¬ ∀ (rt : Runtime) (accepts : Loan → Bool) (chain : List SorobanEvent)
      (events : List LoanEvent), (∀ event ∈ chain, Understood rt events event) →
      (∀ id, ofLoan id events = [] ∨ LoanHistory (ofLoan id events)) →
      ∀ start s steps, (polling rt accepts chain).Initial start →
        (polling rt accepts chain).Run start steps s →
        ∀ t ∈ steps, KeepsTerminal t.before.db t.after.db := by
  intro hall
  have hrun : (polling StellarKraal.Sample.runtime (fun _ => true)
      (Sample.loanEvents.map LoanEvent.source)).Run Sample.service _ _ :=
    TransitionSystem.Run.of_replay (fun _ _ _ h => h)
      (show TransitionSystem.replay _ _ Sample.overtaken = some (_, _) from rfl)
  have hkeeps := hall _ _ _ _ Sample.understood Sample.loanHistory _ _ _ Sample.service_idle hrun _
    (List.mem_of_getElem? (i := 16) rfl)
  obtain ⟨row, hrow, hterminal, -⟩ := hkeeps "1" ⟨.repaid, some 2⟩ rfl (.inl rfl)
  obtain rfl : (⟨.active, some 1⟩ : RowState) = row := Option.some.inj hrow
  rcases hterminal with h | h <;> contradiction

end StellarKraal.Indexer
