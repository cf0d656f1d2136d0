import StellarKraal.Contract.EventEffects
import StellarKraal.Indexer.EventIndexer
import StellarKraal.Lending.LoanRecords

/-!
# The index against the contract

The loan table should have a row of the right status for every loan on chain. The
contract names its events differently from what the indexer tracks, so the table
stays as it was, whatever the contract does.
-/

namespace StellarKraal

open TransitionSystem (Transition)
open Indexer (Database SorobanEvent Runtime indexEvents)

variable {asset : AssetContract}

/-! ## What the contract publishes -/

def publishedKinds : List Symbol := "loan_repaid" :: ordinaryKinds

theorem reachable_events_published {w : World} (h : (protocol asset).Reachable w) :
    ∀ e ∈ w.events, ∃ kind ∈ publishedKinds, e.kind = some kind := by
  apply reachable_invariant
    (fun w => ∀ e ∈ w.events, ∃ kind ∈ publishedKinds, e.kind = some kind) (h := h)
  · intro timestamp ledger e he
    nomatch he
  · intro env call w w' _ hw hrun e he
    have hordinary : ∀ e : Event, e.Ordinary → ∃ kind ∈ publishedKinds, e.kind = some kind :=
      fun e ⟨kind, hmem, hkind⟩ => ⟨kind, List.mem_cons_of_mem _ hmem, hkind⟩
    cases Call.run_eventEffect hrun with
    | ordinary new hevents hnew =>
        rw [hevents] at he
        rcases List.mem_append.mp he with he | he
        · exact hw e he
        · exact hordinary e (hnew e he)
    | repaid hrepaid =>
        rw [hrepaid.world, List.append_assoc] at he
        rcases List.mem_append.mp he with he | he
        · exact hw e he
        rcases List.mem_append.mp he with he | he
        · exact hordinary e (feeEvents_ordinary _ _ _ e he)
        · obtain rfl := List.mem_singleton.mp he
          exact ⟨"loan_repaid", List.mem_cons_self, rfl⟩
  · intro w timestamp ledger hw _ _
    exact hw

theorem publishedKinds_untracked : ∀ kind ∈ publishedKinds, kind ∉ Indexer.trackedEvents := by
  decide

/-- The indexer skips everything the contract publishes. -/
theorem indexEvents_published {w : World} {rt : Runtime} {accepts : Indexer.Loan → Bool}
    {events : List SorobanEvent} (hreach : (protocol asset).Reachable w)
    (hrt : rt.DecodesSymbols) (hevents : events.map SorobanEvent.toEvent = w.events)
    (db : Database) : indexEvents rt accepts events db = db := by
  -- Each event's script is done before its first query, so no table is touched.
  refine Script.runAll_of_done ?_ db
  intro script hscript
  obtain ⟨event, hevent, rfl⟩ := List.mem_map.mp hscript
  have hmem : event.toEvent ∈ w.events := hevents ▸ List.mem_map_of_mem hevent
  obtain ⟨kind, hkind, htopic⟩ := reachable_events_published hreach _ hmem
  refine ⟨(), ?_⟩
  unfold Event.kind at htopic
  split at htopic
  next name rest htopics =>
    obtain rfl := Option.some.inj htopic
    exact Indexer.processEvent_untracked hrt htopics (publishedKinds_untracked _ hkind)
  next => contradiction

/-! ## Loans on chain -/

/-- The step is a successful `request_loan`. -/
def RequestsLoan (asset : AssetContract) (t : Transition World Action) : Prop :=
  ∃ env borrower ids amount, Executed asset t env (.requestLoan borrower ids amount)

theorem LoanEffect.stays_stored {w w' : World} {id : Nat} (h : LoanEffect w w')
    (hnone : w'.loans.lookup id = none) : w.loans.lookup id = none := by
  cases h with
  | same hloans => rwa [← hloans]
  | originate _ hloans | payment _ _ _ _ hloans =>
      rw [hloans, KeyedStore.lookup_insert] at hnone
      split at hnone
      · contradiction
      · exact hnone

/-- The step lemma: loans come from requests only, and are never removed. -/
theorem no_loans_step {w w' : World} {a : Action} (step : (protocol asset).Step w a w') :
    (∀ id, w'.loans.lookup id = none) ↔
      (∀ id, w.loans.lookup id = none) ∧ ¬ RequestsLoan asset ⟨w, a, w'⟩ := by
  constructor
  · intro hnone
    constructor
    · intro id
      rcases protocol_step_cases step with ⟨env, call, hexec⟩ | ⟨-, timestamp, ledger, -, -, rfl⟩
      · exact (Call.run_bookEffect hexec.run).loans.stays_stored (hnone id)
      · exact hnone id
    · rintro ⟨env, borrower, ids, amount, hexec⟩
      obtain ⟨loanId, hrequest⟩ := Call.run_requestLoan hexec.run
      obtain ⟨c, total, collaterals, h⟩ := requestLoan_ok hrequest
      exact Option.some_ne_none _ (h.stored_after.symm.trans (hnone loanId))
  · rintro ⟨hnone, hquiet⟩
    rcases protocol_step_cases step with ⟨env, call, hexec⟩ | ⟨-, timestamp, ledger, -, -, rfl⟩
    · cases (Call.run_bookEffect hexec.run).loanCall with
      | originate => exact absurd ⟨env, _, _, _, hexec⟩ hquiet
      | repay h => exact absurd (h.stored.symm.trans (hnone _)) (Option.some_ne_none _)
      | liquidate h => exact absurd (h.stored.symm.trans (hnone _)) (Option.some_ne_none _)
      | same hloans =>
          have hloans : w'.loans = w.loans := hloans
          rwa [hloans]
    · exact hnone

/-- The run lemma: without loans at the start there are none exactly as long as
none is requested. -/
theorem no_loans_iff {start w : World} {steps : List (Transition World Action)}
    (hinit : (protocol asset).Initial start) (hrun : (protocol asset).Run start steps w) :
    (∀ id, w.loans.lookup id = none) ↔ ∀ t ∈ steps, ¬ RequestsLoan asset t := by
  induction hrun with
  | nil =>
      obtain ⟨timestamp, ledger, rfl⟩ := hinit
      exact iff_of_true (fun id => rfl) (fun t ht => nomatch ht)
  | snoc prior step ih =>
      rw [no_loans_step step, ih, List.forall_mem_append, List.forall_mem_singleton]

/-! ## The mirror -/

/-- The row status for a status on chain. -/
def LoanStatus.toRow : LoanStatus → Indexer.LoanStatus
  | .active => .active
  | .repaid => .repaid
  | .liquidated => .liquidated

/-- Every loan on chain has a row under its id, with its status. -/
def Mirrors (w : World) (db : Database) : Prop :=
  ∀ id loan, w.loans.lookup id = some loan →
    ∃ row, db.loans.lookup (toString id) = some row ∧ row.status = loan.status.toRow

/-- Every borrower and every pledged collateral has a row. -/
def Knows (rt : Runtime) (w : World) (db : Database) : Prop :=
  ∀ id loan, w.loans.lookup id = some loan →
    (∃ key user, rt.scValToNative (.address loan.borrower) = some (.string key) ∧
      db.users.lookup key = some user) ∧
    ∀ colId ∈ loan.collateralIds, ∃ row, db.livestockTagged (toString colId) = some row

/-- Indexing a run never makes the table mirror it: it does if it did before, and
starting without rows only if the run requested no loan. -/
theorem index_mirrors_iff {start w : World} {steps : List (Transition World Action)} {rt : Runtime}
    {accepts : Indexer.Loan → Bool} {events : List SorobanEvent} {db : Database}
    (hinit : (protocol asset).Initial start) (hrun : (protocol asset).Run start steps w)
    (hrt : rt.DecodesSymbols) (hevents : events.map SorobanEvent.toEvent = w.events) :
    (Mirrors w (indexEvents rt accepts events db) ↔ Mirrors w db) ∧
      (db.loans = ∅ → (Mirrors w (indexEvents rt accepts events db) ↔
        ∀ t ∈ steps, ¬ RequestsLoan asset t)) := by
  rw [indexEvents_published ((TransitionSystem.Reachable.of_initial hinit).run hrun) hrt hevents]
  refine ⟨Iff.rfl, fun hempty => ?_⟩
  rw [← no_loans_iff hinit hrun]
  constructor
  · intro hmirrors id
    cases hloan : w.loans.lookup id with
    | none => rfl
    | some loan =>
        obtain ⟨row, hrow, -⟩ := hmirrors id loan hloan
        simp [hempty] at hrow
  · intro hnone id loan hloan
    exact absurd (hloan.symm.trans (hnone id)) (Option.some_ne_none _)

namespace Sample

def accountKey : Address → String
  | .currentContract => "C"
  | .account key => "G" ++ toString key
  | .contract id => "C" ++ toString id

def runtime : Runtime := .standard accountKey fun _ => 0

theorem runtime_decodesSymbols : runtime.DecodesSymbols := fun _ => rfl

/-- The events of a world, reported in one ledger. -/
def reported (w : World) : List SorobanEvent := w.events.map (SorobanEvent.report 0)

theorem reported_events (w : World) : (reported w).map SorobanEvent.toEvent = w.events := by
  simp [reported, SorobanEvent.report, SorobanEvent.toEvent, Function.comp_def]

/-- The farmer and the first herd, and no loans. -/
def database : Database where
  users := AList.insert "G4" ⟨"farmer", "G4"⟩ ∅
  livestock := AList.insert "herd" ⟨"herd", "1", .verified⟩ ∅

end Sample

/-- One loan on chain, and a table that stays empty. -/
theorem sample_index_mirrors_iff :
    ∃ steps w loan, (protocol .standard).Run Sample.world steps w ∧
      w.loans.lookup 1 = some loan ∧
      (Mirrors w (indexEvents Sample.runtime (fun _ => true) (Sample.reported w) Sample.database) ↔
        ∀ t ∈ steps, ¬ RequestsLoan .standard t) := by
  have hrun : (protocol .standard).Run Sample.world _ _ := Run.of_script
    [Sample.initialization 6000 8000, Sample.registration 1000000, Sample.request 600000] rfl
  exact ⟨_, _, _, hrun, rfl, (index_mirrors_iff ⟨0, _, rfl⟩ hrun Sample.runtime_decodesSymbols
    (Sample.reported_events _)).2 rfl⟩

/-- A granted loan has no row, though the database knows its borrower and its herd. -/
theorem loan_not_indexed :
    ¬ ∀ (asset : AssetContract) (start w : World) (steps : List (Transition World Action))
      (rt : Runtime) (accepts : Indexer.Loan → Bool) (events : List SorobanEvent) (db : Database),
      (protocol asset).Initial start → (protocol asset).Run start steps w → rt.DecodesSymbols →
        events.map SorobanEvent.toEvent = w.events → Knows rt w db →
          Mirrors w (indexEvents rt accepts events db) := by
  intro hall
  have hrun : (protocol .standard).Run Sample.world _ _ := Run.of_script
    [Sample.initialization 6000 8000, Sample.registration 1000000, Sample.request 600000] rfl
  have hknows : Knows Sample.runtime (Sample.after
      [Sample.initialization 6000 8000, Sample.registration 1000000, Sample.request 600000])
      Sample.database := by
    intro id loan hloan
    obtain rfl | hne := eq_or_ne id 1
    · cases hloan
      refine ⟨⟨_, _, rfl, rfl⟩, fun colId hmem => ?_⟩
      obtain rfl := List.mem_singleton.mp hmem
      exact ⟨_, rfl⟩
    · change AList.lookup id (AList.insert 1 _ (∅ : KeyedStore Nat LoanRecord)) = _ at hloan
      rw [AList.lookup_insert_ne hne] at hloan
      contradiction
  have hmirrors := hall .standard _ _ _ Sample.runtime (fun _ => true) _ Sample.database
    ⟨0, _, rfl⟩ hrun Sample.runtime_decodesSymbols (Sample.reported_events _) hknows
  obtain ⟨row, hrow, -⟩ := hmirrors 1 _ rfl
  rw [indexEvents_published ((Sample.world_reachable _).run hrun) Sample.runtime_decodesSymbols
    (Sample.reported_events _)] at hrow
  simp [Sample.database] at hrow

end StellarKraal
