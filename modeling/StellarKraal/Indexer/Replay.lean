import StellarKraal.Indexer.LoanRows

/-!
# Events delivered again

Once an event has been processed, its loan's row tells against it: the row is of
the event's ledger or a later one, or a creation finds a closed loan, or there is
no row for a closing event to change. None of this is undone by later events, and
a handler that is told so leaves every table as it was.
-/

namespace StellarKraal.Indexer

variable {rt : Runtime} {db : Database}

/-- What makes the handlers pass over an event, given the row of its loan. -/
def LoanEvent.Spent (event : LoanEvent) : Option RowState → Prop
  | none => event.kind ≠ .created
  | some row => row.lastEventLedger.any (event.source.ledger ≤ ·) ∨
      event.kind = .created ∧ row.status ≠ .active

/-! ## Spent events change nothing -/

theorem handleLoanCreated_spent {event : LoanEvent} (h : event.Decodes rt db)
    (hkind : event.kind = .created) (hspent : event.Spent (db.rowState event.contractLoanId)) :
    (Handler.exec accepting (handleLoanCreated rt event.source) db).2 = db := by
  obtain ⟨data, loanId, hdata, hloanId, htext, hknown⟩ := h.data
  obtain ⟨borrower, collateral, hborrower, -, hcollateral, -⟩ := hknown (by simp [hkind])
  obtain ⟨principal, hprincipal⟩ := Native.property_eq_some hloanId "principal"
  obtain ⟨rate, hrate⟩ := Native.property_eq_some hloanId "interest_rate_bps"
  obtain ⟨duration, hduration⟩ := Native.property_eq_some hloanId "duration_days"
  simp only [handleLoanCreated, Handler.exec_bind, Handler.exec_orThrow, Handler.exec_ask,
    hdata, hloanId, hborrower, hprincipal, hrate, hduration, hcollateral, serve]
  rw [htext]
  cases hrow : db.loans.lookup event.contractLoanId with
  | none =>
      rw [Database.rowState, hrow] at hspent
      exact absurd hkind hspent
  | some loan =>
      rw [Database.rowState, hrow] at hspent
      have hskip : isReplayed event.source (some loan) ∨ isTerminal (some loan) := by
        rw [isReplayed_some, isTerminal_some, decide_eq_true_eq]
        exact hspent.imp id And.right
      rw [if_pos hskip]
      rfl

theorem handleLoanStatusChange_spent {event : LoanEvent} {status : ClosingStatus}
    (h : event.Decodes rt db) (hkind : event.kind = .closed status)
    (hspent : event.Spent (db.rowState event.contractLoanId)) :
    (Handler.exec accepting (handleLoanStatusChange rt event.source status) db).2 = db := by
  obtain ⟨data, loanId, hdata, hloanId, htext, -⟩ := h.data
  simp only [handleLoanStatusChange, Handler.exec_bind, Handler.exec_orThrow, Handler.exec_ask,
    hdata, hloanId, serve]
  rw [htext]
  cases hrow : db.loans.lookup event.contractLoanId with
  | some loan =>
      rw [Database.rowState, hrow] at hspent
      have hreplayed : isReplayed event.source (some loan) = true := by
        rw [isReplayed_some]
        exact hspent.resolve_right fun h => by simp [hkind] at h
      rw [if_pos hreplayed]
      rfl
  | none =>
      -- Without a row there is no livestock to release, and the update throws.
      rw [if_neg (by simp [isReplayed])]
      cases status with
      | repaid => simp [serve, hrow]
      | liquidated =>
          have hrelease : Handler.exec accepting (releaseLivestock event.contractLoanId) db =
              (some (), db) := by
            simp only [releaseLivestock, Handler.exec_bind, Handler.exec_ask, serve, hrow]
            rfl
          have hexec : Handler.exec accepting (releaseLivestock event.contractLoanId >>= fun _ =>
              (Handler.ask (.updateLoan event.contractLoanId ⟨.liquidated, event.source.ledger⟩) :
                Handler Unit)) db = _ := Handler.exec_bind _ _ db
          rw [hrelease] at hexec
          refine (congrArg Prod.snd hexec).trans ?_
          simp [serve, hrow]

/-- Delivered again, a spent event leaves the database as it is. -/
theorem processEvent_spent {event : LoanEvent} (h : event.Decodes rt db)
    (hspent : event.Spent (db.rowState event.contractLoanId)) :
    ((processEvent rt event.source).run accepting db).2 = db := by
  obtain ⟨first, rest, htopic, hname⟩ := h.name
  simp only [processEvent, htopic, hname]
  cases hkind : event.kind with
  | created =>
      simp only [LoanEventKind.eventName, if_true, Handler.run_caught]
      exact handleLoanCreated_spent h hkind hspent
  | closed status =>
      have hsame := handleLoanStatusChange_spent h hkind hspent
      cases status with
      | repaid => simpa [LoanEventKind.eventName, Handler.run_caught] using hsame
      | liquidated => simpa [LoanEventKind.eventName, Handler.run_caught] using hsame

theorem indexEvents_spent {events : List LoanEvent}
    (hdecodes : ∀ event ∈ events, event.Decodes rt db)
    (hspent : ∀ event ∈ events, event.Spent (db.rowState event.contractLoanId)) :
    indexEvents rt (fun _ => true) (events.map LoanEvent.source) db = db := by
  induction events with
  | nil => rfl
  | cons event rest ih =>
      have hsame := processEvent_spent (hdecodes event List.mem_cons_self)
        (hspent event List.mem_cons_self)
      have hrest := ih (fun other hother => hdecodes other (List.mem_cons_of_mem _ hother))
        fun other hother => hspent other (List.mem_cons_of_mem _ hother)
      simp only [indexEvents, List.map_cons, Script.runAll] at hrest ⊢
      rw [hsame]
      exact hrest

/-! ## Processed events are spent -/

/-- Processing an event spends it. -/
theorem LoanEvent.spent_next (event : LoanEvent) (row : Option RowState) :
    event.Spent (event.next row) := by
  cases row with
  | none =>
      cases hkind : event.kind with
      | created => simp [next, Spent, hkind]
      | closed status => simp [next, Spent, hkind]
  | some row =>
      by_cases hreplayed : row.lastEventLedger.any (event.source.ledger ≤ ·)
      · rw [next, if_pos hreplayed]
        exact .inl hreplayed
      · rw [next, if_neg hreplayed]
        cases hkind : event.kind with
        | closed status => simp [Spent]
        | created =>
            by_cases hactive : row.status = .active
            · simp [hactive, Spent]
            · simp [hactive, Spent, hkind]

/-- An event of the same ledger or a later one leaves it spent. -/
theorem LoanEvent.Spent.next {event later : LoanEvent} {row : Option RowState}
    (h : event.Spent row) (hle : event.source.ledger ≤ later.source.ledger) :
    event.Spent (later.next row) := by
  cases row with
  | none =>
      cases hkind : later.kind with
      | created => simp [LoanEvent.next, Spent, hkind, hle]
      | closed status => simpa [LoanEvent.next, hkind] using h
  | some row =>
      by_cases hreplayed : row.lastEventLedger.any (later.source.ledger ≤ ·)
      · rw [LoanEvent.next, if_pos hreplayed]
        exact h
      · rw [LoanEvent.next, if_neg hreplayed]
        cases hkind : later.kind with
        | closed status => simp [Spent, hle]
        | created =>
            by_cases hactive : row.status = .active
            · simp [hactive, Spent, hle]
            · simpa [hactive] using h

/-- Along a history in ledger order every event stays spent. -/
theorem spent_foldl {history : List LoanEvent} {row : Option RowState}
    (horder : history.Pairwise (·.source.ledger ≤ ·.source.ledger)) :
    ∀ event ∈ history, event.Spent (history.foldl (fun row e => e.next row) row) := by
  induction history using List.reverseRecOn with
  | nil => simp
  | append_singleton history last ih =>
      obtain ⟨hearlier, -, hlast⟩ := List.pairwise_append.mp horder
      rw [List.foldl_append, List.foldl_cons, List.foldl_nil]
      intro event hevent
      rcases List.mem_append.mp hevent with hevent | hevent
      · exact (ih hearlier event hevent).next (hlast event hevent last List.mem_cons_self)
      · obtain rfl := List.mem_singleton.mp hevent
        exact event.spent_next _

theorem indexEvents_decodes {events : List LoanEvent} {event : LoanEvent}
    (hdecodes : ∀ e ∈ events, e.Decodes rt db) (hkeyed : db.LivestockKeyed)
    (h : event.Decodes rt db) :
    event.Decodes rt (indexEvents rt (fun _ => true) (events.map LoanEvent.source) db) := by
  induction events generalizing db with
  | nil => exact h
  | cons first rest ih =>
      have happlied := processEvent_applied (hdecodes first List.mem_cons_self) hkeyed
      exact ih (fun e he => (hdecodes e (List.mem_cons_of_mem _ he)).of_keepsReferences
        happlied.references) happlied.keyed (h.of_keepsReferences happlied.references)

/-- After all events of a chain, in its order, delivering any of them again, in any
order and any number of times, changes nothing in the database. -/
theorem replay_changes_nothing {events replayed : List LoanEvent}
    (hdecodes : ∀ event ∈ events, event.Decodes rt db) (hkeyed : db.LivestockKeyed)
    (horder : events.Pairwise (·.source.ledger ≤ ·.source.ledger))
    (hreplayed : ∀ event ∈ replayed, event ∈ events) :
    indexEvents rt (fun _ => true) (replayed.map LoanEvent.source)
        (indexEvents rt (fun _ => true) (events.map LoanEvent.source) db) =
      indexEvents rt (fun _ => true) (events.map LoanEvent.source) db := by
  apply indexEvents_spent
  · exact fun event hevent => indexEvents_decodes hdecodes hkeyed
      (hdecodes event (hreplayed event hevent))
  · intro event hevent
    rw [indexEvents_rowState hdecodes hkeyed]
    exact spent_foldl (horder.filter _) event
      (List.mem_filter.mpr ⟨hreplayed event hevent, by simp⟩)

/-- The creation and the repayment of a loan, and a repayment of it that is too old
to count, delivered a second time. -/
theorem sample_replay :
    indexEvents StellarKraal.Sample.runtime (fun _ => true)
        ([Sample.repayment 3, Sample.repayment 1, Sample.creation].map LoanEvent.source)
        (indexEvents StellarKraal.Sample.runtime (fun _ => true)
          ([Sample.creation, Sample.repayment 1, Sample.repayment 3].map LoanEvent.source)
          StellarKraal.Sample.database) =
      indexEvents StellarKraal.Sample.runtime (fun _ => true)
        ([Sample.creation, Sample.repayment 1, Sample.repayment 3].map LoanEvent.source)
        StellarKraal.Sample.database :=
  replay_changes_nothing (by simp [Sample.creation_decodes, Sample.repayment_decodes])
    Sample.database_keyed (by decide) (by simp)

end StellarKraal.Indexer
