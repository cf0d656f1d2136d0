import Mathlib.Data.List.Dedup
import StellarKraal.Foundation.TextInput
import StellarKraal.Indexer.Database
import StellarKraal.OracleBridge.State
import StellarKraal.Retirement.Submission

/-!
# Bulk retirement

The handler checks the list and the rows of its loans before anything is submitted,
and then reports the chunks of the batch loan by loan. The row of a loan is closed
when its chunk has succeeded, by one query for each chunk.
-/

namespace StellarKraal.Retirement

open OracleBridge (Json JsonObject)
open TextInput (isNonEmpty)

/-! ## Loan rows -/

/-- Dates as the times they stand for. -/
structure Loan where
  id : String
  contractLoanId : String
  borrowerId : String
  status : Indexer.LoanStatus
  repaidAt : Option Nat
  lastSyncedAt : Option Nat
  deriving DecidableEq

/-- The loan table, in the order in which queries return its rows. -/
structure LoanTable where
  rows : List Loan
  unique : (rows.map Loan.id).Nodup

def Loan.repay (loan : Loan) (repaidAt lastSyncedAt : Nat) : Loan :=
  { loan with
    status := .repaid
    repaidAt := some repaidAt
    lastSyncedAt := some lastSyncedAt }

namespace LoanTable

/-- `where: { id: { in: ids } }` -/
def findMany (table : LoanTable) (ids : List String) : List Loan :=
  table.rows.filter (·.id ∈ ids)

def updateMany (table : LoanTable) (ids : List String) (repaidAt lastSyncedAt : Nat) :
    LoanTable where
  rows := table.rows.map fun loan =>
    if loan.id ∈ ids then loan.repay repaidAt lastSyncedAt else loan
  unique := by
    have hids : (table.rows.map fun loan =>
        if loan.id ∈ ids then loan.repay repaidAt lastSyncedAt else loan).map Loan.id =
          table.rows.map Loan.id := by
      rw [List.map_map]
      refine List.map_congr_left fun loan _ => ?_
      simp only [Function.comp_apply]
      split <;> rfl
    exact hids ▸ table.unique

end LoanTable

/-! ## The handler -/

/-- What the handler waits for. -/
inductive Effect
  | findMany (ids : List String)
  | submit (contractLoanIds : List String)
  | updateMany (ids : List String)

abbrev Effect.Value : Effect → Type
  | .findMany _ => List Loan
  | .submit _ => String
  | .updateMany _ => Unit

abbrev Effect.Reply (effect : Effect) : Type := Except Thrown effect.Value

abbrev Handler : Type → Type := ExceptT Thrown (Script Effect.Reply)

def ask (effect : Effect) : Handler effect.Value := ExceptT.mk (.ask effect .done)

/-- `submitRetirementChunk`, as far as it concerns the handler. -/
def submitChunk (contractLoanIds : List String) : Handler String := ask (.submit contractLoanIds)

inductive RetirementOutcome
  | retired
  | failed
  | skipped
  deriving DecidableEq, Repr

structure RetirementResult where
  loanId : String
  status : RetirementOutcome
  reason : Option String
  txHash : Option String

structure Summary where
  retired : Nat
  failed : Nat
  skipped : Nat

inductive ResponseBody
  | error (error : String)
  | tooLarge (error : String) (maxBatchSize submitted : Nat)
  /-- Loan ids with the reasons. -/
  | invalid (error : String) (invalid : List (String × String))
  | report (summary : Summary) (results : List RetirementResult)

structure Response where
  status : Nat
  body : ResponseBody

structure Settings where
  maxBatchSize : Nat
  maxOpsPerTx : ℕ+

def Json.isNonEmptyString : Json → Bool
  | .string s => isNonEmpty s
  | _ => false

def Json.string? : Json → Option String
  | .string s => some s
  | _ => none

/-- `body.loanIds`, where reading it does not throw. -/
def loanIdsOf : Option Json → Except Thrown (Option Json)
  | none => .error (some "Cannot destructure property 'loanIds' of 'req.body' as it is undefined.")
  | some .null =>
      .error (some "Cannot destructure property 'loanIds' of 'req.body' as it is null.")
  | some (.object fields) => .ok (JsonObject.get fields "loanIds")
  | some _ => .ok none

/-- The checks of the list itself. -/
def screen (maxBatchSize : Nat) : Option Json → Except Response (List String)
  | some (.array items) =>
      if items.length = 0 then .error ⟨400, .error "loanIds must be a non-empty array"⟩
      else if ¬ items.all Json.isNonEmptyString then
        .error ⟨400, .error "loanIds must contain only non-empty strings"⟩
      else
        let loanIds := items.filterMap Json.string?
        if maxBatchSize < loanIds.length then
          .error ⟨422, .tooLarge s!"Batch exceeds maximum of {maxBatchSize} credits per request"
            maxBatchSize loanIds.length⟩
        else if loanIds.dedup.length ≠ loanIds.length then
          .error ⟨422, .error "loanIds must not contain duplicates"⟩
        else .ok loanIds
  | _ => .error ⟨400, .error "loanIds must be a non-empty array"⟩

/-- `new Map(loans.map((l) => [l.id, l])).get(id)`: the last entry for a key counts. -/
def loanById (loans : List Loan) (id : String) : Option Loan :=
  loans.reverse.find? (·.id = id)

def statusText : Indexer.LoanStatus → String
  | .active => "ACTIVE"
  | .repaid => "REPAID"
  | .liquidated => "LIQUIDATED"
  | .defaulted => "DEFAULTED"

/-- Why the loan cannot be retired by the user. -/
def validationError (userId : String) (loan : Option Loan) : Option String :=
  match loan with
  | none => some "Loan not found"
  | some loan =>
      if loan.borrowerId ≠ userId then some "Not the borrower of this loan"
      else if loan.status ≠ .active then
        some s!"Loan is not ACTIVE (current status: {statusText loan.status})"
      else none

def validationErrors (userId : String) (loans : List Loan) (loanIds : List String) :
    List (String × String) :=
  loanIds.filterMap fun id =>
    (validationError userId (loanById loans id)).map fun reason => (id, reason)

/-- All ids have a row when this is reached. -/
def targets (loans : List Loan) (loanIds : List String) : List RetirementTarget :=
  loanIds.filterMap fun id => (loanById loans id).map fun loan => ⟨loan.id, loan.contractLoanId⟩

/-- The result of a loan of the chunk. -/
def RetirementResult.ofChunk (chunk : RetirementChunkResult) (loanId : String) : RetirementResult :=
  match chunk.status with
  | .success => { loanId, status := .retired, reason := none, txHash := chunk.txHash }
  | .failed => { loanId, status := .failed, reason := chunk.error, txHash := none }
  | .skipped => { loanId, status := .skipped, reason := chunk.error, txHash := none }

/-- The loop over the chunks, with the results so far. -/
def recordChunks : List RetirementChunkResult → List RetirementResult →
    Handler (List RetirementResult)
  | [], results => pure results
  | chunk :: rest, results =>
      if chunk.status = .success then do
        ask (.updateMany chunk.loanIds)
        recordChunks rest (results ++ chunk.loanIds.map (.ofChunk chunk))
      else recordChunks rest (results ++ chunk.loanIds.map (.ofChunk chunk))

def summarize (results : List RetirementResult) : Summary where
  retired := (results.filter (·.status = .retired)).length
  failed := (results.filter (·.status = .failed)).length
  skipped := (results.filter (·.status = .skipped)).length

def report (results : List RetirementResult) : Response :=
  let summary := summarize results
  let allRetired := summary.failed = 0 ∧ summary.skipped = 0
  ⟨if allRetired then 200 else 207, .report summary results⟩

/-- The response, or what is passed to `next`. -/
def bulkRetireLoans (settings : Settings) (userId : String) (body : Option Json) :
    Handler Response := do
  let loanIds ← ExceptT.mk (pure (loanIdsOf body))
  match screen settings.maxBatchSize loanIds with
  | .error response => pure response
  | .ok loanIds =>
      let loans : List Loan ← ask (.findMany loanIds)
      let errors := validationErrors userId loans loanIds
      if errors.length > 0 then
        pure ⟨422, .invalid
          "Batch rejected: one or more credits failed pre-submission validation" errors⟩
      else do
        let chunkResults ← ExceptT.lift (retireLoansOnChain submitChunk
          (targets loans loanIds) settings.maxOpsPerTx)
        let results ← recordChunks chunkResults []
        return report results

/-! ## Running it -/

/-- What is not up to the handler: how the submissions end, one after another, which
queries are rejected, and the two readings of the clock for an update. -/
structure Outside where
  submission : Nat → Except Thrown String
  fault : Nat → Option Thrown
  now : Nat → Nat × Nat

/-- The loan table, with the submissions and the number of queries so far. -/
structure Backend where
  loans : LoanTable
  submissions : List (List String)
  queries : Nat

def serve (outside : Outside) : Script.Service Effect.Reply Backend
  | .findMany ids, s =>
      let s' := { s with queries := s.queries + 1 }
      match outside.fault s.queries with
      | some err => (.error err, s')
      | none => (.ok (s.loans.findMany ids), s')
  | .submit contractLoanIds, s =>
      (outside.submission s.submissions.length,
        { s with submissions := s.submissions ++ [contractLoanIds] })
  | .updateMany ids, s =>
      let s' := { s with queries := s.queries + 1 }
      match outside.fault s.queries with
      | some err => (.error err, s')
      | none =>
          let (repaidAt, lastSyncedAt) := outside.now s.queries
          (.ok (), { s' with loans := s.loans.updateMany ids repaidAt lastSyncedAt })

/-- The handler alone with the backend. -/
def exec {α : Type} (outside : Outside) (handler : Handler α) (s : Backend) :
    Except Thrown α × Backend :=
  handler.run.run (serve outside) s

section Exec

variable {α β : Type} {outside : Outside}

@[simp] theorem exec_pure (a : α) (s : Backend) : exec outside (pure a) s = (.ok a, s) := rfl

@[simp] theorem exec_ask (effect : Effect) (s : Backend) :
    exec outside (ask effect) s = serve outside effect s := rfl

@[simp] theorem exec_mk_pure (result : Except Thrown α) (s : Backend) :
    exec outside (ExceptT.mk (pure result)) s = (result, s) := rfl

theorem exec_lift (script : Script Effect.Reply α) (s : Backend) :
    exec outside (ExceptT.lift script) s =
      (.ok (script.run (serve outside) s).1, (script.run (serve outside) s).2) :=
  Script.run_bind _ _ _ _

theorem exec_bind (handler : Handler α) (f : α → Handler β) (s : Backend) :
    exec outside (handler >>= f) s =
      match exec outside handler s with
      | (.ok a, s') => exec outside (f a) s'
      | (.error err, s') => (.error err, s') := by
  refine (Script.run_bind _ _ _ _).trans ?_
  rw [exec, ExceptT.run]
  rcases Script.run (serve outside) handler s with ⟨_ | _, _⟩ <;> rfl

end Exec

/-! ## The checks -/

theorem all_isNonEmptyString {items : List Json} (h : items.all Json.isNonEmptyString = true) :
    items = (items.filterMap Json.string?).map .string := by
  induction items with
  | nil => rfl
  | cons item rest ih =>
      rw [List.all_cons, Bool.and_eq_true] at h
      cases item with
      | string s => simpa [Json.string?] using ih h.2
      | _ => simp [Json.isNonEmptyString] at h

theorem screen_ok {maxBatchSize : Nat} {body : Option Json} {loanIds : List String}
    (h : screen maxBatchSize body = .ok loanIds) :
    body = some (.array (loanIds.map .string)) ∧ loanIds ≠ [] ∧
      loanIds.length ≤ maxBatchSize ∧ loanIds.Nodup := by
  unfold screen at h
  split at h
  next items =>
    dsimp only at h
    split_ifs at h with hempty hstrings hsize hdup
    obtain rfl := Except.ok.inj h
    have hitems := all_isNonEmptyString (by simpa using hstrings)
    refine ⟨congrArg (some ∘ Json.array) hitems, ?_, not_lt.mp hsize, ?_⟩
    · intro hnil
      rw [hnil] at hitems
      simp [hitems] at hempty
    · have hsame := (List.dedup_sublist (items.filterMap Json.string?)).eq_of_length
        (not_not.mp hdup)
      exact hsame ▸ List.nodup_dedup _
  next => contradiction

/-- Rows are told apart by their ids. -/
theorem find?_eq_some_iff {rows : List Loan} (hunique : (rows.map Loan.id).Nodup) {id : String}
    {loan : Loan} : rows.find? (·.id = id) = some loan ↔ loan ∈ rows ∧ loan.id = id := by
  constructor
  · intro h
    exact ⟨List.mem_of_find?_eq_some h, by simpa using List.find?_some h⟩
  · rintro ⟨hmem, hid⟩
    have hsome : (rows.find? (·.id = id)).isSome :=
      List.find?_isSome.mpr ⟨loan, hmem, by simpa using hid⟩
    obtain ⟨found, hfound⟩ := Option.isSome_iff_exists.mp hsome
    have hsame : found.id = id := by simpa using List.find?_some hfound
    rw [hfound, List.inj_on_of_nodup_map hunique (List.mem_of_find?_eq_some hfound) hmem
      (hsame.trans hid.symm)]

theorem loanById_findMany (table : LoanTable) {loanIds : List String} {id : String}
    (hid : id ∈ loanIds) {loan : Loan} :
    loanById (table.findMany loanIds) id = some loan ↔ loan ∈ table.rows ∧ loan.id = id := by
  have hunique : ((table.findMany loanIds).reverse.map Loan.id).Nodup := by
    rw [List.map_reverse, List.nodup_reverse]
    exact table.unique.sublist (List.filter_sublist.map _)
  rw [loanById, find?_eq_some_iff hunique, LoanTable.findMany, List.mem_reverse, List.mem_filter]
  constructor
  · rintro ⟨⟨hmem, -⟩, hsame⟩
    exact ⟨hmem, hsame⟩
  · rintro ⟨hmem, rfl⟩
    exact ⟨⟨hmem, by simpa using hid⟩, rfl⟩

theorem validationError_eq_none_iff {userId : String} {loan : Option Loan} :
    validationError userId loan = none ↔
      ∃ row, loan = some row ∧ row.borrowerId = userId ∧ row.status = .active := by
  cases loan with
  | none => simp [validationError]
  | some row =>
      simp only [validationError]
      split_ifs <;> simp_all

/-- The list asks for loans that the user can retire. -/
structure Valid (settings : Settings) (userId : String) (table : LoanTable)
    (body : Option Json) (loanIds : List String) : Prop where
  listed : ∃ fields, body = some (.object fields) ∧
    JsonObject.get fields "loanIds" = some (.array (loanIds.map .string))
  nonempty : loanIds ≠ []
  size : loanIds.length ≤ settings.maxBatchSize
  distinct : loanIds.Nodup
  active : ∀ id ∈ loanIds, ∃ loan ∈ table.rows,
    loan.id = id ∧ loan.borrowerId = userId ∧ loan.status = .active

theorem validationErrors_eq_nil_iff {userId : String} {table : LoanTable}
    {loanIds : List String} : validationErrors userId (table.findMany loanIds) loanIds = [] ↔
      ∀ id ∈ loanIds, ∃ loan ∈ table.rows,
        loan.id = id ∧ loan.borrowerId = userId ∧ loan.status = .active := by
  rw [validationErrors, List.filterMap_eq_nil_iff]
  refine forall₂_congr fun id hid => ?_
  simp only [Option.map_eq_none_iff, validationError_eq_none_iff, loanById_findMany table hid]
  constructor
  · rintro ⟨loan, ⟨hmem, hsame⟩, hborrower, hstatus⟩
    exact ⟨loan, hmem, hsame, hborrower, hstatus⟩
  · rintro ⟨loan, hmem, hsame, hborrower, hstatus⟩
    exact ⟨loan, ⟨hmem, hsame⟩, hborrower, hstatus⟩

theorem targets_ids {userId : String} {table : LoanTable} {loanIds : List String}
    (h : validationErrors userId (table.findMany loanIds) loanIds = []) :
    (targets (table.findMany loanIds) loanIds).map (·.id) = loanIds := by
  rw [targets, List.map_filterMap]
  refine (List.filterMap_congr fun id hid => ?_).trans List.filterMap_some
  obtain ⟨loan, hmem, hsame, -⟩ := validationErrors_eq_nil_iff.mp h id hid
  rw [(loanById_findMany table hid).mpr ⟨hmem, hsame⟩]
  exact congrArg some hsame

/-! ## The chunks -/

section Chunks

variable {outside : Outside}

/-- The submissions leave the table alone, and their results cover the chunks. -/
theorem retireChunks_run (chunks : List (List RetirementTarget))
    (results : List RetirementChunkResult) (s : Backend) :
    let r := (retireChunks submitChunk chunks results false).run (serve outside) s
    r.1.map (·.loanIds) = results.map (·.loanIds) ++ chunks.map (·.map (·.id)) ∧
      r.2.loans = s.loans := by
  induction chunks generalizing results s with
  | nil => simp [retireChunks]
  | cons chunk rest ih =>
      simp only [retireChunks, Script.run_bind]
      generalize hrun : Script.run (serve outside) _ s = r
      have hloans : r.2.loans = s.loans := hrun ▸ rfl
      rcases r with ⟨err | txHash, s'⟩
      · simpa [retireChunks_aborted, RetirementChunkResult.ofChunk,
          RetirementChunkResult.skipped] using hloans
      · have hrest := ih (results ++ [.ofChunk chunk .success (some txHash) none]) s'
        simpa [RetirementChunkResult.ofChunk] using hrest.imp_right (·.trans hloans)

/-- The row after the updates: closed if its loan was retired, and untouched if not. -/
def Updated (retired : String → Prop) (loan loan' : Loan) : Prop :=
  (retired loan.id → ∃ repaidAt lastSyncedAt, loan' = loan.repay repaidAt lastSyncedAt) ∧
    (¬ retired loan.id → loan' = loan)

/-- The chunk that has the loan succeeded. -/
def Succeeded (chunkResults : List RetirementChunkResult) (id : String) : Prop :=
  ∃ chunk ∈ chunkResults, chunk.status = .success ∧ id ∈ chunk.loanIds

theorem updated_updateMany {retired retired' : String → Prop} {table : LoanTable}
    {ids : List String} {repaidAt lastSyncedAt : Nat} {rows : List Loan}
    (h : List.Forall₂ (Updated retired) (table.updateMany ids repaidAt lastSyncedAt).rows rows)
    (hretired : ∀ id, retired' id ↔ id ∈ ids ∨ retired id) :
    List.Forall₂ (Updated retired') table.rows rows := by
  refine (List.forall₂_map_left_iff.mp h).imp fun loan loan' hloan => ?_
  unfold Updated
  rw [hretired]
  by_cases hid : loan.id ∈ ids
  · rw [if_pos hid] at hloan
    refine ⟨fun _ => ?_, fun hnot => absurd (.inl hid) hnot⟩
    by_cases hlater : retired loan.id
    · obtain ⟨repaidAt', lastSyncedAt', rfl⟩ := hloan.1 hlater
      exact ⟨repaidAt', lastSyncedAt', rfl⟩
    · exact ⟨repaidAt, lastSyncedAt, hloan.2 hlater⟩
  · rw [if_neg hid] at hloan
    simpa [Updated, hid] using hloan

/-- All results, loan by loan. -/
def resultsOf (chunkResults : List RetirementChunkResult) : List RetirementResult :=
  chunkResults.flatMap fun chunk => chunk.loanIds.map (.ofChunk chunk)

theorem recordChunks_exec {chunks : List RetirementChunkResult}
    {results results' : List RetirementResult} {s s' : Backend}
    (h : exec outside (recordChunks chunks results) s = (.ok results', s')) :
    results' = results ++ resultsOf chunks ∧
      List.Forall₂ (Updated (Succeeded chunks)) s.loans.rows s'.loans.rows := by
  induction chunks generalizing results s with
  | nil =>
      obtain ⟨hresults, rfl⟩ := Prod.mk.inj h
      obtain rfl := Except.ok.inj hresults
      refine ⟨by simp [resultsOf], List.forall₂_same.mpr fun loan _ => ?_⟩
      simp [Updated, Succeeded]
  | cons chunk rest ih =>
      rw [recordChunks] at h
      split at h
      next hsuccess =>
        rw [exec_bind, exec_ask] at h
        simp only [serve] at h
        cases hfault : outside.fault s.queries with
        | some err => simp [hfault] at h
        | none =>
            simp only [hfault] at h
            obtain ⟨rfl, hrows⟩ := ih h
            refine ⟨by simp [resultsOf], updated_updateMany hrows fun id => ?_⟩
            simp [Succeeded, hsuccess]
      next hsuccess =>
        obtain ⟨rfl, hrows⟩ := ih h
        refine ⟨by simp [resultsOf], hrows.imp fun loan loan' hloan => ?_⟩
        simpa [Updated, Succeeded, hsuccess] using hloan

end Chunks

/-! ## A request -/

def Summary.total (summary : Summary) : Nat := summary.retired + summary.failed + summary.skipped

/-- What a report of the batch says, and what has happened to the rows. -/
structure Reports (loanIds : List String) (chunkResults : List RetirementChunkResult)
    (before after : LoanTable) (response : Response) : Prop where
  body : response.body = .report (summarize (resultsOf chunkResults)) (resultsOf chunkResults)
  /-- Each loan is in one chunk. -/
  chunks : chunkResults.flatMap (·.loanIds) = loanIds
  order : (resultsOf chunkResults).map (·.loanId) = loanIds
  total : (summarize (resultsOf chunkResults)).total = loanIds.length
  status : response.status = 200 ↔ ∀ result ∈ resultsOf chunkResults, result.status = .retired
  rows : List.Forall₂ (Updated (Succeeded chunkResults)) before.rows after.rows

@[simp] theorem RetirementResult.ofChunk_loanId (chunk : RetirementChunkResult) (id : String) :
    (RetirementResult.ofChunk chunk id).loanId = id := by
  unfold ofChunk
  split <;> rfl

theorem resultsOf_loanIds (chunkResults : List RetirementChunkResult) :
    (resultsOf chunkResults).map (·.loanId) = chunkResults.flatMap (·.loanIds) := by
  simp [resultsOf, List.map_flatMap, Function.comp_def]

theorem summarize_total (results : List RetirementResult) :
    (summarize results).total = results.length := by
  simp only [Summary.total, summarize]
  induction results with
  | nil => rfl
  | cons result rest ih =>
      simp only [List.filter_cons, List.length_cons, ← ih]
      cases result.status <;> simp <;> omega

theorem report_status (results : List RetirementResult) :
    (report results).status = 200 ↔ ∀ result ∈ results, result.status = .retired := by
  simp only [report, summarize, List.length_eq_zero_iff, List.filter_eq_nil_iff, ite_eq_left_iff,
    Nat.reduceEqDiff, imp_false, not_not, decide_eq_true_eq]
  constructor
  · rintro ⟨hfailed, hskipped⟩ result hresult
    cases hstatus : result.status with
    | retired => rfl
    | failed => exact absurd hstatus (hfailed result hresult)
    | skipped => exact absurd hstatus (hskipped result hresult)
  · intro hall
    constructor <;> intro result hresult <;> simp [hall result hresult]

theorem retireLoansOnChain_run (outside : Outside) (loans : List RetirementTarget)
    (maxOpsPerChunk : ℕ+) (s : Backend) :
    let r := (retireLoansOnChain submitChunk loans maxOpsPerChunk).run (serve outside) s
    r.1.flatMap (·.loanIds) = loans.map (·.id) ∧ r.2.loans = s.loans := by
  obtain ⟨hids, htable⟩ := @retireChunks_run outside (chunkArray loans maxOpsPerChunk) [] s
  refine ⟨?_, htable⟩
  rw [List.map_nil, List.nil_append] at hids
  rw [List.flatMap_def, retireLoansOnChain, hids, ← List.map_flatten, flatten_chunkArray]

variable {outside : Outside} {settings : Settings} {userId : String}

/-- What is left to do once all checks have passed. -/
theorem report_exec {loans : List RetirementTarget} {response : Response} {s s' : Backend}
    (h : exec outside (do
      let chunkResults ← ExceptT.lift (retireLoansOnChain submitChunk loans settings.maxOpsPerTx)
      let results ← recordChunks chunkResults []
      return report results) s = (.ok response, s')) :
    Reports (loans.map (·.id))
      ((retireLoansOnChain submitChunk loans settings.maxOpsPerTx).run (serve outside) s).1
      s.loans s'.loans response := by
  obtain ⟨hids, htable⟩ := retireLoansOnChain_run outside loans settings.maxOpsPerTx s
  rw [exec_bind, exec_lift] at h
  dsimp only at h
  generalize (retireLoansOnChain submitChunk loans settings.maxOpsPerTx).run (serve outside) s =
    r at *
  rw [exec_bind] at h
  cases hrecord : exec outside (recordChunks r.1 []) r.2 with
  | mk result s'' =>
      cases result with
      | error err => simp [hrecord] at h
      | ok results =>
          obtain ⟨hresults, hrows⟩ := recordChunks_exec hrecord
          rw [List.nil_append] at hresults
          subst hresults
          rw [hrecord] at h
          obtain ⟨hresponse, rfl⟩ := Prod.mk.inj h
          obtain rfl := Except.ok.inj hresponse
          have horder := (resultsOf_loanIds r.1).trans hids
          exact
            { body := rfl
              chunks := hids
              order := horder
              total := by rw [summarize_total, ← horder, List.length_map]
              status := report_status _
              rows := htable ▸ hrows }

theorem screen_error {maxBatchSize : Nat} {listed : Option Json} {response : Response}
    (h : screen maxBatchSize listed = .error response) :
    response.status = 400 ∨ response.status = 422 := by
  unfold screen at h
  split at h
  next =>
    dsimp only at h
    split_ifs at h <;> obtain rfl := Except.error.inj h <;> simp
  next =>
    obtain rfl := Except.error.inj h
    exact .inl rfl

theorem loanIdsOf_some {body : Option Json} {value : Json} (h : loanIdsOf body = .ok (some value)) :
    ∃ fields, body = some (.object fields) ∧ JsonObject.get fields "loanIds" = some value := by
  cases body with
  | none => simp [loanIdsOf] at h
  | some json =>
      cases json with
      | object fields => exact ⟨fields, rfl, Except.ok.inj h⟩
      | null | bool | number | string | array => simp [loanIdsOf] at h

theorem Valid.unique {table : LoanTable} {body : Option Json} {loanIds loanIds' : List String}
    (h : Valid settings userId table body loanIds)
    (h' : Valid settings userId table body loanIds') : loanIds = loanIds' := by
  obtain ⟨fields, rfl, hlisted⟩ := h.listed
  obtain ⟨fields', hfields, hlisted'⟩ := h'.listed
  obtain rfl := Json.object.inj (Option.some.inj hfields)
  have hitems := Json.array.inj (Option.some.inj (hlisted.symm.trans hlisted'))
  exact List.map_injective_iff.mpr (fun _ _ => Json.string.inj) hitems

/-- The checks reject the request, or the list is valid and its batch is submitted. -/
theorem bulkRetireLoans_exec (outside : Outside) (settings : Settings) (userId : String)
    (body : Option Json) (s : Backend) :
    let r := exec outside (bulkRetireLoans settings userId body) s
    (r.2.submissions = s.submissions ∧ r.2.loans = s.loans ∧
      ∀ response, r.1 = .ok response → response.status = 400 ∨ response.status = 422) ∨
    ∃ loanIds, Valid settings userId s.loans body loanIds ∧
      r = exec outside (do
        let chunkResults ← ExceptT.lift (retireLoansOnChain submitChunk
          (targets (s.loans.findMany loanIds) loanIds) settings.maxOpsPerTx)
        let results ← recordChunks chunkResults []
        return report results) { s with queries := s.queries + 1 } := by
  intro r
  simp only [r, bulkRetireLoans]
  rw [exec_bind, exec_mk_pure]
  cases hbody : loanIdsOf body with
  | error err => exact .inl ⟨rfl, rfl, by simp⟩
  | ok listed =>
      dsimp only
      cases hscreen : screen settings.maxBatchSize listed with
      | error response =>
          refine .inl ⟨rfl, rfl, ?_⟩
          rintro _ ⟨⟩
          exact screen_error hscreen
      | ok loanIds =>
          dsimp only
          rw [exec_bind, exec_ask]
          simp only [serve]
          cases outside.fault s.queries with
          | some err => exact .inl ⟨rfl, rfl, by simp⟩
          | none =>
              dsimp only
              split
              next =>
                refine .inl ⟨rfl, rfl, ?_⟩
                rintro _ ⟨⟩
                exact .inr rfl
              next herrors =>
                obtain ⟨rfl, hnonempty, hsize, hdistinct⟩ := screen_ok hscreen
                have hnone := List.eq_nil_of_length_eq_zero (Nat.eq_zero_of_not_pos herrors)
                exact .inr ⟨loanIds, ⟨loanIdsOf_some hbody, hnonempty, hsize, hdistinct,
                  validationErrors_eq_nil_iff.mp hnone⟩, rfl⟩

/-- A list that is not valid leaves everything as it is. A valid one is reported loan
by loan whenever the handler answers, whatever becomes of its chunks: the rows of the
chunks that succeeded are closed, and no others change. -/
theorem bulk_retirement (outside : Outside) (settings : Settings) (userId : String)
    (body : Option Json) (s : Backend) :
    let r := exec outside (bulkRetireLoans settings userId body) s
    ((∀ loanIds, ¬ Valid settings userId s.loans body loanIds) →
      r.2.submissions = s.submissions ∧ r.2.loans = s.loans) ∧
    ∀ loanIds, Valid settings userId s.loans body loanIds → ∀ response, r.1 = .ok response →
      response.status = 200 ∨ response.status = 207 →
      Reports loanIds ((retireLoansOnChain submitChunk
          (targets (s.loans.findMany loanIds) loanIds) settings.maxOpsPerTx).run (serve outside)
          { s with queries := s.queries + 1 }).1 s.loans r.2.loans response := by
  intro r
  rcases bulkRetireLoans_exec outside settings userId body s with
    ⟨hsubmissions, hloans, hstatus⟩ | ⟨loanIds, hvalid, hr⟩
  · refine ⟨fun _ => ⟨hsubmissions, hloans⟩, ?_⟩
    intro loanIds hvalid response hresponse hanswer
    have hrejected := hstatus response hresponse
    omega
  · refine ⟨fun hinvalid => absurd hvalid (hinvalid loanIds), ?_⟩
    intro loanIds' hvalid' response hresponse _
    obtain rfl := hvalid.unique hvalid'
    have hids := targets_ids (validationErrors_eq_nil_iff.mpr hvalid.active)
    have hreports := report_exec (hr.symm.trans (Prod.ext hresponse rfl))
    rwa [hids] at hreports

namespace Sample

/-- A farmer's two loans, in the order in which they are stored. -/
def backend : Backend where
  loans := ⟨[⟨"a", "1", "farmer", .active, none, none⟩, ⟨"b", "2", "farmer", .active, none, none⟩],
    by decide⟩
  submissions := []
  queries := 0

/-- The first submission succeeds, and no other. -/
def firstSucceeds : Outside where
  submission n := if n = 0 then .ok "hash" else .error none
  fault _ := none
  now _ := (5, 5)

def request : Option Json := some (.object [("loanIds", .array (["b", "a"].map .string))])

theorem request_valid : Valid ⟨100, 1⟩ "farmer" backend.loans request ["b", "a"] where
  listed := ⟨_, rfl, rfl⟩
  nonempty := by decide
  size := by decide
  distinct := by decide
  active := by decide

end Sample

/-- Of two loans in chunks of one, the first is retired, and the second is not. -/
theorem sample_bulk_retirement :
    ∃ response chunkResults after, response.status = 207 ∧
      Reports ["b", "a"] chunkResults Sample.backend.loans after response ∧
      after.rows.map Loan.status = [.active, .repaid] :=
  ⟨_, _, _, rfl, (bulk_retirement Sample.firstSucceeds ⟨100, 1⟩ "farmer" Sample.request
    Sample.backend).2 _ Sample.request_valid _ rfl (.inr rfl), rfl⟩

end StellarKraal.Retirement
