import StellarKraal.Indexer.Mirror

/-!
# The row of a loan

Seen from one loan, the index is a small state machine: its row has a status and
the ledger of the last event processed, and only the loan's own events move it.
-/

namespace StellarKraal.Indexer

/-! ## Running a handler -/

namespace Handler

variable {State α β : Type} {service : Script.Service Query.Reply State}

/-- A handler run alone with the database; `none` where it threw. -/
def exec (service : Script.Service Query.Reply State) (handler : Handler α) (s : State) :
    Option α × State :=
  Script.run service handler.run s

@[simp] theorem exec_pure (a : α) (s : State) : exec service (pure a) s = (some a, s) := rfl

@[simp] theorem exec_ask (query : Query) (s : State) :
    exec service (ask query) s = service query s := rfl

@[simp] theorem exec_upsertLoan (create : Loan) (update : LoanUpdate) (s : State) :
    exec service (α := Unit) (ask (.upsertLoan create update)) s =
      service (.upsertLoan create update) s := rfl

@[simp] theorem exec_updateLoan (contractLoanId : String) (update : LoanUpdate) (s : State) :
    exec service (α := Unit) (ask (.updateLoan contractLoanId update)) s =
      service (.updateLoan contractLoanId update) s := rfl

@[simp] theorem exec_updateLivestock (id : String) (status : VerificationStatus) (s : State) :
    exec service (α := Unit) (ask (.updateLivestock id status)) s =
      service (.updateLivestock id status) s := rfl

@[simp] theorem exec_orThrow (value : Option α) (s : State) :
    exec service (orThrow value) s = (value, s) := rfl

theorem exec_bind (handler : Handler α) (f : α → Handler β) (s : State) :
    exec service (handler >>= f) s =
      match exec service handler s with
      | (some a, s') => exec service (f a) s'
      | (none, s') => (none, s') := by
  unfold exec
  rw [OptionT.run_bind, Option.elimM, Script.run_bind]
  rcases Script.run service handler.run s with ⟨_ | a, s'⟩
  · rfl
  · rfl

theorem run_caught (handler : Handler Unit) (s : State) :
    ((caught handler).run service s).2 = (exec service handler s).2 := by
  simp [caught, exec]

end Handler

/-! ## The events of a loan -/

inductive LoanEventKind
  | created
  | closed (status : ClosingStatus)

def LoanEventKind.eventName : LoanEventKind → String
  | .created => "LoanCreated"
  | .closed .repaid => "LoanRepaid"
  | .closed .liquidated => "AssetLiquidated"

/-- The status the event is about. -/
def LoanEventKind.status : LoanEventKind → LoanStatus
  | .created => .active
  | .closed status => status.toLoanStatus

/-- A reported event with what it means: an event of that kind of that loan. -/
structure LoanEvent where
  source : SorobanEvent
  kind : LoanEventKind
  contractLoanId : String

/-- The event decodes to what it means. A creation names a borrower and an animal
that have rows. -/
structure LoanEvent.Decodes (rt : Runtime) (db : Database) (event : LoanEvent) : Prop where
  name : ∃ first rest, event.source.topic = first :: rest ∧
    rt.scValToNative first = some (.string event.kind.eventName)
  data : ∃ data id, rt.scValToNative event.source.value = some data ∧
    data.property "loan_id" = some id ∧ id.toText = event.contractLoanId ∧
    (event.kind matches .created → ∃ borrower collateral,
      data.property "borrower" = some borrower ∧ (db.users.lookup borrower.toText).isSome ∧
      data.property "collateral_id" = some collateral ∧
      (db.livestockTagged collateral.toText).isSome)

/-- What the guards of the handlers look at. -/
structure RowState where
  status : LoanStatus
  lastEventLedger : Option Nat

def Loan.state (loan : Loan) : RowState := ⟨loan.status, loan.lastEventLedger⟩

def Database.rowState (db : Database) (contractLoanId : String) : Option RowState :=
  (db.loans.lookup contractLoanId).map Loan.state

/-- What an event of the loan makes of its row: nothing where its ledger is not
newer, nothing of a closed row by a creation, and no row without one. -/
def LoanEvent.next (event : LoanEvent) : Option RowState → Option RowState
  | none =>
      match event.kind with
      | .created => some ⟨.active, some event.source.ledger⟩
      | .closed _ => none
  | some row =>
      if row.lastEventLedger.any (event.source.ledger ≤ ·) then some row
      else
        match event.kind with
        | .created =>
            if row.status = .active then some ⟨.active, some event.source.ledger⟩ else some row
        | .closed status => some ⟨status.toLoanStatus, some event.source.ledger⟩

theorem isReplayed_some (event : SorobanEvent) (loan : Loan) :
    isReplayed event (some loan) = loan.state.lastEventLedger.any (event.ledger ≤ ·) := by
  obtain ⟨_, _, _, _, _, _, _, lastEventLedger⟩ := loan
  cases lastEventLedger <;> rfl

theorem isTerminal_some (loan : Loan) :
    isTerminal (some loan) = decide (loan.status ≠ .active) := by
  cases hstatus : loan.status <;> simp [isTerminal, hstatus]

/-- The two guards of a creation, and the one of a closing event. -/
theorem LoanEvent.next_created {event : LoanEvent} (hkind : event.kind = .created) (loan : Loan) :
    event.next (some loan.state) =
      if isReplayed event.source (some loan) ∨ isTerminal (some loan) then some loan.state
      else some ⟨.active, some event.source.ledger⟩ := by
  simp only [next, hkind, isReplayed_some, isTerminal_some, decide_eq_true_eq]
  by_cases hactive : loan.status = .active
  · simp [hactive, Loan.state]
  · simp [hactive, Loan.state]

theorem LoanEvent.next_closed {event : LoanEvent} {status : ClosingStatus}
    (hkind : event.kind = .closed status) (loan : Loan) :
    event.next (some loan.state) =
      if isReplayed event.source (some loan) then some loan.state
      else some ⟨status.toLoanStatus, some event.source.ledger⟩ := by
  simp only [next, hkind, isReplayed_some]

/-- Properties that objects have are read from the same values that have any. -/
theorem Native.property_eq_some {data value : Native} {key : String}
    (h : data.property key = some value) (key' : String) :
    ∃ value', data.property key' = some value' := by
  cases data with
  | undefined | null => simp [property] at h
  | _ => simp [property]

/-! ## One event -/

/-- The database with every row to be created accepted. -/
abbrev accepting : Script.Service Query.Reply Database := serve fun _ => true

/-- The tables the handlers take their references from. -/
structure Database.KeepsReferences (db db' : Database) : Prop where
  users : db'.users = db.users
  tagged : ∀ animalId, (db.livestockTagged animalId).isSome → (db'.livestockTagged animalId).isSome

/-- Livestock is stored under its own id. -/
def Database.LivestockKeyed (db : Database) : Prop :=
  ∀ id row, db.livestock.lookup id = some row → row.id = id

/-- The event has moved the row of its loan, and no other row. -/
structure LoanEvent.Applied (event : LoanEvent) (db db' : Database) : Prop where
  rows : ∀ id, db'.rowState id =
    if id = event.contractLoanId then event.next (db.rowState id) else db.rowState id
  references : db.KeepsReferences db'
  keyed : db'.LivestockKeyed

theorem rowState_insert (db : Database) (contractLoanId : String) (loan : Loan) (id : String) :
    Database.rowState { db with loans := db.loans.insert contractLoanId loan } id =
      if id = contractLoanId then some loan.state else db.rowState id := by
  simp only [Database.rowState, KeyedStore.lookup_insert]
  split
  · rfl
  · rfl

theorem handleLoanCreated_applied {rt : Runtime} {db : Database} {event : LoanEvent}
    (h : event.Decodes rt db) (hkind : event.kind = .created) (hkeyed : db.LivestockKeyed) :
    event.Applied db (Handler.exec accepting (handleLoanCreated rt event.source) db).2 := by
  obtain ⟨data, loanId, hdata, hloanId, htext, hknown⟩ := h.data
  obtain ⟨borrower, collateral, hborrower, huser, hcollateral, htagged⟩ := hknown (by simp [hkind])
  obtain ⟨principal, hprincipal⟩ := Native.property_eq_some hloanId "principal"
  obtain ⟨rate, hrate⟩ := Native.property_eq_some hloanId "interest_rate_bps"
  obtain ⟨duration, hduration⟩ := Native.property_eq_some hloanId "duration_days"
  obtain ⟨user, huser⟩ := Option.isSome_iff_exists.mp huser
  obtain ⟨livestock, hlivestock⟩ := Option.isSome_iff_exists.mp htagged
  simp only [handleLoanCreated, Handler.exec_bind, Handler.exec_orThrow, Handler.exec_ask,
    hdata, hloanId, hborrower, hprincipal, hrate, hduration, hcollateral, serve]
  rw [htext]
  cases hrow : db.loans.lookup event.contractLoanId with
  | none =>
      rw [if_neg (by simp [isReplayed, isTerminal])]
      simp only [Handler.exec_bind, Handler.exec_ask, serve, huser, hlivestock]
      simp only [Handler.exec_upsertLoan, serve, hrow, if_true]
      refine ⟨fun id => ?_, ⟨rfl, fun _ htag => htag⟩, hkeyed⟩
      rw [rowState_insert]
      split
      next heq =>
        rw [heq, Database.rowState, hrow]
        simp [LoanEvent.next, hkind, Loan.state]
      next => rfl
  | some loan =>
      have hstate : db.rowState event.contractLoanId = some loan.state := by
        rw [Database.rowState, hrow]
        rfl
      have hnext := LoanEvent.next_created hkind loan
      by_cases hskip : isReplayed event.source (some loan) ∨ isTerminal (some loan)
      · rw [if_pos hskip] at hnext ⊢
        refine ⟨fun id => ?_, ⟨rfl, fun _ htag => htag⟩, hkeyed⟩
        split
        next heq => rw [heq, hstate, hnext, ← hstate]; rfl
        next => rfl
      · rw [if_neg hskip] at hnext ⊢
        simp only [Handler.exec_bind, Handler.exec_ask, serve, huser, hlivestock]
        simp only [Handler.exec_upsertLoan, serve, hrow]
        refine ⟨fun id => ?_, ⟨rfl, fun _ htag => htag⟩, hkeyed⟩
        rw [rowState_insert]
        split
        next heq => rw [heq, hstate, hnext]; rfl
        next => rfl

/-! ## Closing events -/

theorem livestockTagged_isSome_iff {db : Database} {animalId : String} :
    (db.livestockTagged animalId).isSome ↔
      ∃ id row, db.livestock.lookup id = some row ∧ row.animalId = animalId := by
  simp only [Database.livestockTagged, Option.isSome_map, List.find?_isSome, decide_eq_true_eq]
  constructor
  · rintro ⟨⟨id, row⟩, hmem, htag⟩
    exact ⟨id, row, AList.mem_lookup_iff.mpr hmem, htag⟩
  · rintro ⟨id, row, hlookup, htag⟩
    exact ⟨⟨id, row⟩, AList.mem_lookup_iff.mp hlookup, htag⟩

theorem releaseLivestock_exec {db : Database} (hkeyed : db.LivestockKeyed)
    (contractLoanId : String) :
    ∃ db', Handler.exec accepting (releaseLivestock contractLoanId) db = (some (), db') ∧
      db'.loans = db.loans ∧ db.KeepsReferences db' ∧ db'.LivestockKeyed := by
  simp only [releaseLivestock, Handler.exec_bind, Handler.exec_ask, serve]
  cases hrow : (db.loans.lookup contractLoanId).bind fun loan =>
      db.livestock.lookup loan.livestockId with
  | none => exact ⟨db, rfl, rfl, ⟨rfl, fun _ h => h⟩, hkeyed⟩
  | some livestock =>
      obtain ⟨loan, -, hlivestock⟩ := Option.bind_eq_some_iff.mp hrow
      have hid : db.livestock.lookup livestock.id = some livestock := by
        rw [hkeyed _ _ hlivestock]
        exact hlivestock
      simp only [Handler.exec_updateLivestock, serve, hid]
      refine ⟨_, rfl, rfl, ⟨rfl, ?_⟩, ?_⟩
      · -- The row keeps its tag.
        intro animalId htagged
        obtain ⟨id, row, hlookup, htag⟩ := livestockTagged_isSome_iff.mp htagged
        apply livestockTagged_isSome_iff.mpr
        by_cases heq : id = livestock.id
        · subst heq
          obtain rfl := Option.mem_unique hid hlookup
          exact ⟨_, _, AList.lookup_insert _, htag⟩
        · exact ⟨id, row, (AList.lookup_insert_ne heq).trans hlookup, htag⟩
      · intro id row hlookup
        rcases KeyedStore.lookup_insert_cases hlookup with ⟨rfl, rfl⟩ | ⟨-, hold⟩
        · rfl
        · exact hkeyed id row hold

/-- The last query of a closing event, once the guard is passed. -/
theorem updateLoan_applied {db db' : Database} {event : LoanEvent} {status : ClosingStatus}
    (hkind : event.kind = .closed status) (hloans : db'.loans = db.loans)
    (hreplayed : isReplayed event.source (db.loans.lookup event.contractLoanId) = false)
    (hreferences : db.KeepsReferences db') (hkeyed : db'.LivestockKeyed) :
    event.Applied db (accepting (.updateLoan event.contractLoanId
      ⟨status.toLoanStatus, event.source.ledger⟩) db').2 := by
  simp only [serve, hloans]
  cases hrow : db.loans.lookup event.contractLoanId with
  | none =>
      refine ⟨fun id => ?_, hreferences, hkeyed⟩
      simp only [Database.rowState, hloans]
      split
      next heq =>
        rw [heq, hrow]
        simp [LoanEvent.next, hkind]
      next => rfl
  | some loan =>
      rw [hrow] at hreplayed
      have hnext := LoanEvent.next_closed hkind loan
      rw [hreplayed, if_neg (by simp)] at hnext
      refine ⟨fun id => ?_, ⟨hreferences.users, hreferences.tagged⟩, hkeyed⟩
      simp only [Database.rowState, KeyedStore.lookup_insert]
      split
      next heq =>
        rw [heq, hrow]
        exact hnext.symm
      next => rfl

theorem handleLoanStatusChange_applied {rt : Runtime} {db : Database} {event : LoanEvent}
    {status : ClosingStatus} (h : event.Decodes rt db) (hkind : event.kind = .closed status)
    (hkeyed : db.LivestockKeyed) :
    event.Applied db
      (Handler.exec accepting (handleLoanStatusChange rt event.source status) db).2 := by
  obtain ⟨data, loanId, hdata, hloanId, htext, -⟩ := h.data
  simp only [handleLoanStatusChange, Handler.exec_bind, Handler.exec_orThrow, Handler.exec_ask,
    hdata, hloanId, serve]
  rw [htext]
  by_cases hreplayed : isReplayed event.source (db.loans.lookup event.contractLoanId)
  · rw [if_pos hreplayed]
    refine ⟨fun id => ?_, ⟨rfl, fun _ htag => htag⟩, hkeyed⟩
    split
    next heq =>
      cases hrow : db.loans.lookup event.contractLoanId with
      | none => simp [hrow, isReplayed] at hreplayed
      | some loan =>
          have hnext := LoanEvent.next_closed hkind loan
          rw [← hrow, if_pos hreplayed] at hnext
          have hstate : db.rowState event.contractLoanId = some loan.state := by
            rw [Database.rowState, hrow]
            rfl
          rw [heq, hstate, hnext, ← hstate]
          rfl
    next => rfl
  · have hfresh : isReplayed event.source (db.loans.lookup event.contractLoanId) = false := by
      simpa using hreplayed
    rw [if_neg hreplayed]
    cases status with
    | repaid => exact updateLoan_applied hkind rfl hfresh ⟨rfl, fun _ htag => htag⟩ hkeyed
    | liquidated =>
        obtain ⟨db', hrelease, hloans, hreferences, hkeyed'⟩ :=
          releaseLivestock_exec hkeyed event.contractLoanId
        have hexec : Handler.exec accepting (releaseLivestock event.contractLoanId >>= fun _ =>
            (Handler.ask (.updateLoan event.contractLoanId ⟨.liquidated, event.source.ledger⟩) :
              Handler Unit)) db = _ := Handler.exec_bind _ _ db
        rw [hrelease] at hexec
        have happlied := updateLoan_applied hkind hloans hfresh hreferences hkeyed'
        exact (congrArg (event.Applied db ·.2) hexec).mpr happlied

/-! ## Lists of events -/

/-- The step lemma: whichever handler the event goes to. -/
theorem processEvent_applied {rt : Runtime} {db : Database} {event : LoanEvent}
    (h : event.Decodes rt db) (hkeyed : db.LivestockKeyed) :
    event.Applied db ((processEvent rt event.source).run accepting db).2 := by
  obtain ⟨first, rest, htopic, hname⟩ := h.name
  simp only [processEvent, htopic, hname]
  cases hkind : event.kind with
  | created =>
      simp only [LoanEventKind.eventName, if_true, Handler.run_caught]
      exact handleLoanCreated_applied h hkind hkeyed
  | closed status =>
      have happlied := handleLoanStatusChange_applied h hkind hkeyed
      cases status with
      | repaid => simpa [LoanEventKind.eventName, Handler.run_caught] using happlied
      | liquidated => simpa [LoanEventKind.eventName, Handler.run_caught] using happlied

theorem LoanEvent.Decodes.of_keepsReferences {rt : Runtime} {db db' : Database} {event : LoanEvent}
    (h : event.Decodes rt db) (hkeeps : db.KeepsReferences db') : event.Decodes rt db' where
  name := h.name
  data := by
    obtain ⟨data, id, hdata, hid, htext, hknown⟩ := h.data
    refine ⟨data, id, hdata, hid, htext, fun hcreated => ?_⟩
    obtain ⟨borrower, collateral, hborrower, huser, hcollateral, htagged⟩ := hknown hcreated
    rw [← hkeeps.users] at huser
    exact ⟨borrower, collateral, hborrower, huser, hcollateral, hkeeps.tagged _ htagged⟩

/-- The events of one loan, in order. -/
def ofLoan (contractLoanId : String) (events : List LoanEvent) : List LoanEvent :=
  events.filter (·.contractLoanId = contractLoanId)

/-- The index, read loan by loan: each row is what the loan's own events make of
it, whatever other events stand between them. -/
theorem indexEvents_rowState {rt : Runtime} {db : Database} {events : List LoanEvent}
    (hdecodes : ∀ event ∈ events, event.Decodes rt db) (hkeyed : db.LivestockKeyed) (id : String) :
    (indexEvents rt (fun _ => true) (events.map LoanEvent.source) db).rowState id =
      (ofLoan id events).foldl (fun row event => event.next row) (db.rowState id) := by
  induction events generalizing db with
  | nil => rfl
  | cons event rest ih =>
      have happlied := processEvent_applied (hdecodes event List.mem_cons_self) hkeyed
      have hrest := ih (fun other hother => (hdecodes other
        (List.mem_cons_of_mem _ hother)).of_keepsReferences happlied.references) happlied.keyed
      rw [happlied.rows] at hrest
      refine hrest.trans ?_
      by_cases hid : event.contractLoanId = id
      · simp [ofLoan, hid]
      · simp [ofLoan, hid, Ne.symm hid]

/-! ## The final status -/

/-- A loan is created, and closed at most once after that. -/
inductive LoanHistory : List LoanEvent → Prop
  | opened {created : LoanEvent} (hcreated : created.kind = .created) : LoanHistory [created]
  | ended {created closed : LoanEvent} {status : ClosingStatus}
      (hcreated : created.kind = .created) (hclosed : closed.kind = .closed status) :
      LoanHistory [created, closed]

/-- The status set by the last event. -/
def lastStatus (history : List LoanEvent) : Option LoanStatus :=
  history.getLast?.map (·.kind.status)

/-- The history without the events after the first that are in no newer ledger. -/
def newerEvents : List LoanEvent → List LoanEvent
  | [] => []
  | created :: rest => created :: rest.filter (created.source.ledger < ·.source.ledger)

theorem LoanHistory.foldl_next {history : List LoanEvent} (h : LoanHistory history) :
    (history.foldl (fun row event => event.next row) none).map RowState.status =
      lastStatus (newerEvents history) := by
  cases h with
  | opened hcreated =>
      simp [LoanEvent.next, lastStatus, newerEvents, hcreated, LoanEventKind.status]
  | @ended created closed status hcreated hclosed =>
      by_cases hnewer : created.source.ledger < closed.source.ledger
      · simp [LoanEvent.next, lastStatus, newerEvents, hcreated, hclosed, LoanEventKind.status,
          hnewer, not_le.mpr hnewer]
      · simp [LoanEvent.next, lastStatus, newerEvents, hcreated, LoanEventKind.status, hnewer,
          not_lt.mp hnewer]

/-- However the events of many loans are mixed: a loan that had no row ends with
the status of its last event, where a closing event counts only if its ledger is
newer than that of the creation. -/
theorem indexed_status_eq_last_newer {rt : Runtime} {db : Database} {events : List LoanEvent}
    (hdecodes : ∀ event ∈ events, event.Decodes rt db) (hkeyed : db.LivestockKeyed) {id : String}
    (hnew : db.rowState id = none) (hhistory : LoanHistory (ofLoan id events)) :
    ((indexEvents rt (fun _ => true) (events.map LoanEvent.source) db).rowState id).map
        RowState.status = lastStatus (newerEvents (ofLoan id events)) := by
  rw [indexEvents_rowState hdecodes hkeyed, hnew]
  exact hhistory.foldl_next

namespace Sample

open StellarKraal.Sample (runtime database)

/-- The loan of the sample herd, created in ledger 1. -/
def creation : LoanEvent where
  source := ⟨1, [.symbol "LoanCreated"], .map [(.symbol "loan_id", .u64 1),
    (.symbol "borrower", .address (.account 4)), (.symbol "principal", .i128 5000000000),
    (.symbol "interest_rate_bps", .u32 1000), (.symbol "duration_days", .u32 90),
    (.symbol "collateral_id", .u64 1)]⟩
  kind := .created
  contractLoanId := "1"

/-- Its repayment. -/
def repayment (ledger : Nat) : LoanEvent where
  source := ⟨ledger, [.symbol "LoanRepaid"], .map [(.symbol "loan_id", .u64 1)]⟩
  kind := .closed .repaid
  contractLoanId := "1"

theorem creation_decodes : creation.Decodes runtime database where
  name := ⟨_, _, rfl, rfl⟩
  data := ⟨_, _, rfl, rfl, rfl, fun _ => ⟨_, _, rfl, rfl, rfl, rfl⟩⟩

theorem repayment_decodes (ledger : Nat) : (repayment ledger).Decodes runtime database where
  name := ⟨_, _, rfl, rfl⟩
  data := ⟨_, _, rfl, rfl, rfl, nofun⟩

theorem decodes (ledger : Nat) :
    ∀ event ∈ [creation, repayment ledger], event.Decodes runtime database := by
  simp [creation_decodes, repayment_decodes]

theorem database_keyed : database.LivestockKeyed := by
  intro id row hlookup
  rcases KeyedStore.lookup_insert_cases hlookup with ⟨rfl, rfl⟩ | ⟨-, hold⟩
  · rfl
  · contradiction

end Sample

/-- Repaid in a later ledger, the loan ends as repaid. -/
theorem sample_indexed_status :
    ((indexEvents StellarKraal.Sample.runtime (fun _ => true)
      ([Sample.creation, Sample.repayment 2].map LoanEvent.source)
      StellarKraal.Sample.database).rowState "1").map RowState.status = some .repaid :=
  indexed_status_eq_last_newer (Sample.decodes 2) Sample.database_keyed rfl (.ended rfl rfl)

/-- Repaid in the ledger it was created in, it stays active. -/
theorem same_ledger_repayment_ignored :
    ¬ ∀ (rt : Runtime) (db : Database) (events : List LoanEvent) (id : String),
      events.Pairwise (fun a b => a.source.ledger ≤ b.source.ledger) →
      (∀ event ∈ events, event.Decodes rt db) → db.LivestockKeyed → db.rowState id = none →
      LoanHistory (ofLoan id events) →
        ((indexEvents rt (fun _ => true) (events.map LoanEvent.source) db).rowState id).map
          RowState.status = lastStatus (ofLoan id events) := by
  intro hall
  have hlast := hall _ _ [Sample.creation, Sample.repayment 1] "1" (by decide) (Sample.decodes 1)
    Sample.database_keyed rfl (.ended rfl rfl)
  rw [indexEvents_rowState (Sample.decodes 1) Sample.database_keyed] at hlast
  exact absurd hlast (by decide)

end StellarKraal.Indexer
