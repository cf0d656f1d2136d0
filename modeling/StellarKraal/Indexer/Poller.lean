import StellarKraal.Foundation.PagedLog
import StellarKraal.Indexer.LoanRows

/-!
# The event poller

Each poll asks the RPC for a page of events from `currentStartLedger` on, hands
them to `processEvent` one after another and moves the cursor behind each.
Nothing moves it back, so what a poll misses or fails at is not tried again.
-/

namespace StellarKraal.Indexer

/-- The `limit` of the request. -/
def pageLimit : Nat := 100

/-- The RPC on a chain of events in ledger order. -/
def getEvents (chain : List SorobanEvent) (startLedger : Nat) : List SorobanEvent :=
  PagedLog.page SorobanEvent.ledger chain pageLimit startLedger

/-- The poller's cursor and the database it writes to. `handed` records every call
of `processEvent`, and whether all queries of its handler were answered. -/
structure Poller (Store : Type) where
  currentStartLedger : Nat
  store : Store
  handed : List (SorobanEvent × Bool)

section Polling

variable {Store : Type} (rt : Runtime) (database : Script.Service Query.Reply Store)

/-- No query that `processEvent` makes for the event throws. -/
def completes (event : SorobanEvent) (store : Store) : Bool :=
  (processEvent rt event).allReplies (fun _ reply => reply.isSome) database store

namespace Poller

/-- The body of the loop over a page. -/
def handle (poller : Poller Store) (event : SorobanEvent) : Poller Store where
  currentStartLedger := max poller.currentStartLedger (event.ledger + 1)
  store := ((processEvent rt event).run database poller.store).2
  handed := poller.handed ++ [(event, completes rt database event poller.store)]

def pollEvents (chain : List SorobanEvent) (poller : Poller Store) : Poller Store :=
  (getEvents chain poller.currentStartLedger).foldl (handle rt database) poller

/-- One poll after another. -/
def polls (chain : List SorobanEvent) : Nat → Poller Store → Poller Store
  | 0, poller => poller
  | n + 1, poller => pollEvents rt database chain (polls chain n poller)

def start (startLedger : Nat) (store : Store) : Poller Store := ⟨startLedger, store, []⟩

/-- The events that were processed without a failed query. -/
def completed (poller : Poller Store) : List SorobanEvent :=
  (poller.handed.filter (·.2)).map (·.1)

/-- Every event before the cursor was handed over and completed, as often as it
occurs in the chain. -/
def Lossless (chain : List SorobanEvent) (poller : Poller Store) : Prop :=
  (PagedLog.before SorobanEvent.ledger chain poller.currentStartLedger).Sublist poller.completed

end Poller

/-! ## One poll -/

/-- What becomes of the events of a page. -/
def outcomes : List SorobanEvent → Store → List (SorobanEvent × Bool)
  | [], _ => []
  | event :: rest, store =>
      (event, completes rt database event store) ::
        outcomes rest ((processEvent rt event).run database store).2

theorem outcomes_events (page : List SorobanEvent) (store : Store) :
    (outcomes rt database page store).map (·.1) = page := by
  induction page generalizing store with
  | nil => rfl
  | cons event rest ih => rw [outcomes, List.map_cons, ih]

/-- The next poll's page ends with a ledger, and no query made for it throws. -/
structure PollsWhole (chain : List SorobanEvent) (poller : Poller Store) : Prop where
  page : PagedLog.Whole SorobanEvent.ledger chain pageLimit poller.currentStartLedger
  queries : ∀ outcome ∈ outcomes rt database (getEvents chain poller.currentStartLedger)
    poller.store, outcome.2 = true

variable {rt database}

theorem foldl_handle_cursor (page : List SorobanEvent) (poller : Poller Store) :
    (page.foldl (Poller.handle rt database) poller).currentStartLedger =
      PagedLog.advance SorobanEvent.ledger poller.currentStartLedger page := by
  induction page generalizing poller with
  | nil => rfl
  | cons event rest ih => exact ih _

theorem foldl_handle_handed (page : List SorobanEvent) (poller : Poller Store) :
    (page.foldl (Poller.handle rt database) poller).handed =
      poller.handed ++ outcomes rt database page poller.store := by
  induction page generalizing poller with
  | nil => simp [outcomes]
  | cons event rest ih =>
      rw [List.foldl_cons, ih]
      simp [Poller.handle, outcomes]

/-- The events a poll adds to the completed ones. -/
def completedBy (outcomes : List (SorobanEvent × Bool)) : List SorobanEvent :=
  (outcomes.filter (·.2)).map (·.1)

theorem completedBy_sublist (page : List SorobanEvent) (store : Store) :
    (completedBy (outcomes rt database page store)).Sublist page := by
  have hsub := (List.filter_sublist (p := (·.2))
    (l := outcomes rt database page store)).map (·.1)
  rwa [outcomes_events] at hsub

/-- All of the page completes exactly if no query throws. -/
theorem completedBy_eq_iff (page : List SorobanEvent) (store : Store) :
    completedBy (outcomes rt database page store) = page ↔
      ∀ outcome ∈ outcomes rt database page store, outcome.2 = true := by
  rw [← List.filter_eq_self]
  constructor
  · intro hall
    apply List.filter_sublist.eq_of_length
    rw [← List.length_map (·.1), ← completedBy, hall, ← outcomes_events rt database page store,
      List.length_map, outcomes_events]
  · intro hall
    rw [completedBy, hall, outcomes_events]

theorem pollEvents_completed (chain : List SorobanEvent) (poller : Poller Store) :
    (poller.pollEvents rt database chain).completed = poller.completed ++
      completedBy (outcomes rt database (getEvents chain poller.currentStartLedger)
        poller.store) := by
  rw [Poller.pollEvents, Poller.completed, foldl_handle_handed]
  simp [Poller.completed, completedBy]

/-- The step lemma. -/
theorem pollEvents_lossless_iff {chain : List SorobanEvent}
    (hchain : PagedLog.Ordered SorobanEvent.ledger chain) {poller : Poller Store}
    (hlength : poller.completed.length ≤
      (PagedLog.before SorobanEvent.ledger chain poller.currentStartLedger).length) :
    (poller.pollEvents rt database chain).Lossless chain ↔
      poller.Lossless chain ∧ PollsWhole rt database chain poller := by
  rw [Poller.Lossless, pollEvents_completed, Poller.pollEvents, foldl_handle_cursor, getEvents,
    PagedLog.before_sublist_iff hchain hlength (completedBy_sublist _ _), completedBy_eq_iff]
  constructor
  · rintro ⟨hlossless, hpage, hqueries⟩
    exact ⟨hlossless, hpage, hqueries⟩
  · rintro ⟨hlossless, hpage, hqueries⟩
    exact ⟨hlossless, hpage, hqueries⟩

/-- No poll completes more than it moves the cursor over. -/
theorem pollEvents_length_le {chain : List SorobanEvent}
    (hchain : PagedLog.Ordered SorobanEvent.ledger chain) {poller : Poller Store}
    (hlength : poller.completed.length ≤
      (PagedLog.before SorobanEvent.ledger chain poller.currentStartLedger).length) :
    (poller.pollEvents rt database chain).completed.length ≤
      (PagedLog.before SorobanEvent.ledger chain
        (poller.pollEvents rt database chain).currentStartLedger).length := by
  have hnew : (completedBy (outcomes rt database (getEvents chain poller.currentStartLedger)
      poller.store)).length ≤ _ := (completedBy_sublist _ _).length_le
  rw [pollEvents_completed, Poller.pollEvents, foldl_handle_cursor, getEvents,
    PagedLog.before_advance hchain]
  rw [getEvents] at hnew
  simp only [List.length_append]
  omega

/-! ## Any number of polls -/

theorem polls_length_le {chain : List SorobanEvent}
    (hchain : PagedLog.Ordered SorobanEvent.ledger chain) (startLedger : Nat) (store : Store)
    (n : Nat) :
    ((Poller.start startLedger store).polls rt database chain n).completed.length ≤
      (PagedLog.before SorobanEvent.ledger chain ((Poller.start startLedger store).polls
        rt database chain n).currentStartLedger).length := by
  induction n with
  | zero => exact Nat.zero_le _
  | succ n ih => exact pollEvents_length_le hchain ih

theorem start_lossless_iff {chain : List SorobanEvent} {startLedger : Nat} {store : Store} :
    (Poller.start startLedger store).Lossless chain ↔
      ∀ event ∈ chain, startLedger ≤ event.ledger := by
  change (PagedLog.before SorobanEvent.ledger chain startLedger).Sublist [] ↔ _
  simp [PagedLog.before, List.sublist_nil]

/-- After any number of polls no event before the cursor is lost, exactly if the
chain starts no earlier than the poller and in every poll the page ended with a
ledger and no query threw. -/
theorem polls_lossless_iff {chain : List SorobanEvent}
    (hchain : PagedLog.Ordered SorobanEvent.ledger chain) (startLedger : Nat) (store : Store)
    (n : Nat) :
    ((Poller.start startLedger store).polls rt database chain n).Lossless chain ↔
      (∀ event ∈ chain, startLedger ≤ event.ledger) ∧
        ∀ k < n, PollsWhole rt database chain
          ((Poller.start startLedger store).polls rt database chain k) := by
  induction n with
  | zero =>
      rw [Poller.polls, start_lossless_iff]
      exact ⟨fun hstart => ⟨hstart, fun k hk => absurd hk (Nat.not_lt_zero k)⟩, And.left⟩
  | succ n ih =>
      rw [Poller.polls, pollEvents_lossless_iff hchain (polls_length_le hchain _ _ n), ih,
        Nat.forall_lt_succ_right, and_assoc]

end Polling

/-! ## Two losses -/

namespace Sample

/-- A registration, as the RPC reports it. -/
def registered : SorobanEvent := ⟨1, [.symbol "livestock", .symbol "registered"], .void⟩

/-- A poller on the sample database, whose queries fail as `faults` says. -/
def poller (faults : List Bool) : Poller (Database × List Bool) :=
  .start 1 (StellarKraal.Sample.database, faults)

def polled (faults : List Bool) (chain : List SorobanEvent) (n : Nat) :
    Poller (Database × List Bool) :=
  (poller faults).polls StellarKraal.Sample.runtime (serveWithFaults fun _ => true) chain n

end Sample

/-- One poll of two events in two ledgers loses neither. -/
theorem sample_polls_lossless :
    (Sample.polled [] [Sample.registered, { Sample.registered with ledger := 2 }] 1).Lossless
      [Sample.registered, { Sample.registered with ledger := 2 }] := by
  refine (polls_lossless_iff (by decide) 1 _ 1).mpr ⟨by decide, ?_⟩
  intro k hk
  obtain rfl := Nat.lt_one_iff.mp hk
  exact ⟨by decide, by decide⟩

/-- A hundred registrations and a loan in one ledger: the loan does not fit the
page, and the cursor moves past its ledger. -/
theorem full_ledger_loses_event :
    ¬ ∀ (chain : List SorobanEvent) (n : Nat), PagedLog.Ordered SorobanEvent.ledger chain →
      (∀ event ∈ chain, 1 ≤ event.ledger) → (Sample.polled [] chain n).Lossless chain := by
  intro hall
  let chain := List.replicate 100 Sample.registered ++ [Sample.creation.source]
  have hlength := (hall chain 1 (by decide +kernel) (by decide +kernel)).length_le
  have hpassed : (PagedLog.before SorobanEvent.ledger chain
      (Sample.polled [] chain 1).currentStartLedger).length = 101 := by decide +kernel
  have hdone : (Sample.polled [] chain 1).completed.length = 100 := by decide +kernel
  omega

/-- A loan whose first query throws is not looked at again. -/
theorem failed_query_loses_event :
    ¬ ∀ n, (Sample.polled [true] [Sample.creation.source] n).Lossless [Sample.creation.source] := by
  intro hall
  have hsub : [Sample.creation.source].Sublist [] := hall 1
  simp at hsub

end StellarKraal.Indexer
