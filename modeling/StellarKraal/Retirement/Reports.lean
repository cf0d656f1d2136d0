import Mathlib.Data.List.Nodup
import StellarKraal.Foundation.ScriptEnvironment
import StellarKraal.Foundation.TransitionSystem
import StellarKraal.Retirement.Submission

/-!
# What a report says about the chain

The network decides about a transaction at its own time. The submission learns of it
from the RPC, whose calls may be rejected whatever became of the request, and whose
`NOT_FOUND` says nothing.
-/

namespace StellarKraal.Retirement

open TransitionSystem (Transition)

/-! ## The network -/

/-- What has become of a transaction. -/
inductive Fate
  /-- Not accepted, or dropped. -/
  | absent
  | pending
  /-- Included in a ledger. -/
  | succeeded
  | failed
  deriving DecidableEq, Repr

/-- Fates by transaction hash. `handed` lists the transactions given to
`sendTransaction`, and `polls` counts the calls of `getTransaction` since the last. -/
structure Network where
  fate : String → Fate
  handed : List Transaction := []
  polls : Nat := 0

/-- How a call ends, as the RPC and the way to it have it. -/
inductive Outcome
  | throws (err : Thrown) (accepted : Bool)
  | account (sequence : Nat)
  | simulated (result : Except String String)
  | assembled (resources : String)
  | sent (status : SendStatus) (errorResult : String) (accepted : Bool)
  | found (status : TransactionStatus)

namespace Network

/-- The transaction can still be included, or is. -/
def Live (net : Network) (txHash : String) : Prop :=
  net.fate txHash = .pending ∨ net.fate txHash = .succeeded

def decide (net : Network) (txHash : String) (fate : Fate) : Network :=
  { net with fate := Function.update net.fate txHash fate }

/-- What `getTransaction` may say of a transaction. -/
def Shows : Fate → TransactionStatus → Bool
  | _, .notFound => true
  | fate, .success => fate = .succeeded
  | fate, .failed => fate = .failed

variable (hash : Transaction → String)

/-- A request that arrived may have been accepted even if its reply is lost. -/
def submit (net : Network) (tx : Transaction) (accepted : Bool) : Network where
  fate :=
    if accepted ∧ net.fate (hash tx) = .absent then Function.update net.fate (hash tx) .pending
    else net.fate
  handed := net.handed ++ [tx]
  polls := 0

def poll (net : Network) : Network := { net with polls := net.polls + 1 }

/-- The reply to a call that ends so, and the network then. -/
def answer (net : Network) : (call : RpcCall) → Outcome → Option (call.Reply × Network)
  | .sendTransaction tx, .throws err accepted => some (.error err, net.submit hash tx accepted)
  | .getTransaction _, .throws err _ => some (.error err, net.poll)
  | _, .throws err _ => some (.error err, net)
  | .getAccount, .account sequence => some (.ok sequence, net)
  | .simulateTransaction _, .simulated result => some (.ok result, net)
  | .assembleTransaction _ _, .assembled resources => some (.ok resources, net)
  | .sendTransaction tx, .sent status errorResult accepted =>
      if status = .error ∧ accepted then none
      else some (.ok ⟨status, hash tx, errorResult⟩, net.submit hash tx accepted)
  | .getTransaction txHash, .found status =>
      if Shows (net.fate txHash) status then some (.ok status, net.poll) else none
  | _, _ => none

end Network

/-- A run of `retireLoansOnChain`. -/
structure Retiring where
  net : Network
  script : Script RpcCall.Reply (List RetirementChunkResult)

inductive Action
  | answer (outcome : Outcome)
  /-- A pending transaction is included or dropped. -/
  | decide (txHash : String) (fate : Fate)

def Retiring.perform (hash : Transaction → String) (s : Retiring) : Action → Option Retiring
  | .answer outcome =>
      match s.script with
      | .ask call next => (s.net.answer hash call outcome).map fun r => ⟨r.2, next r.1⟩
      | .done _ => none
  | .decide txHash fate =>
      if s.net.fate txHash = .pending then some { s with net := s.net.decide txHash fate }
      else none

def retiring (hash : Transaction → String) (loans : List RetirementTarget)
    (maxOpsPerChunk : ℕ+) : TransitionSystem Retiring Action where
  Initial s :=
    s.script = retireLoansOnChain submitRetirementChunk loans maxOpsPerChunk ∧ s.net.handed = []
  Step s a s' := s.perform hash a = some s'

section

variable (hash : Transaction → String)

/-- The result of the chunk at an index is what the chain has: the transaction handed
over for the chunk retires its loans if the chunk is a success, and does not otherwise. -/
def Network.Bears (net : Network) (index : Nat) (result : RetirementChunkResult) : Prop :=
  match result.status with
  | .success => ∃ tx, net.handed[index]? = some tx ∧
      tx.contractLoanIds = result.contractLoanIds ∧ net.fate (hash tx) = .succeeded
  | .failed | .skipped => ∀ tx, net.handed[index]? = some tx →
      tx.contractLoanIds = result.contractLoanIds ∧ net.fate (hash tx) ≠ .succeeded

/-- A transaction that was handed over has retired the loan. -/
def Network.Retired (net : Network) (contractLoanId : String) : Prop :=
  ∃ tx ∈ net.handed, contractLoanId ∈ tx.contractLoanIds ∧ net.fate (hash tx) = .succeeded

def RpcCall.transaction : RpcCall → Option String
  | .sendTransaction tx => some (hash tx)
  | .getTransaction txHash => some txHash
  | .getAccount | .simulateTransaction _ | .assembleTransaction _ _ => none

/-- The call is the last that is made for its transaction, without a decision. -/
def Abandons (polls : Nat) : RpcCall → Outcome → Prop
  | .sendTransaction _, .throws _ _ => True
  | .sendTransaction _, .sent status _ _ => status = .error
  | .getTransaction _, .throws _ _ => True
  | .getTransaction _, .found status => status = .notFound ∧ polls + 1 = maxAttempts
  | _, _ => False

/-- The step abandons a transaction that the network has. -/
def AbandonsLive (t : Transition Retiring Action) : Prop :=
  ∃ call next outcome txHash, t.before.script = .ask call next ∧ t.action = .answer outcome ∧
    call.transaction hash = some txHash ∧ Abandons t.before.net.polls call outcome ∧
    t.after.net.Live txHash

end

/-! ## What stays as it is -/

/-- The network decides about some pending transaction. -/
def Drift (net net' : Network) : Prop :=
  ∃ txHash fate, net.fate txHash = .pending ∧ net' = net.decide txHash fate

/-- The transactions handed over, of which those in `confirmed` have succeeded. -/
structure Network.Knows (hash : Transaction → String) (confirmed handed : List Transaction)
    (net : Network) : Prop where
  handed : net.handed = handed
  confirmed : ∀ tx ∈ confirmed, net.fate (hash tx) = .succeeded

variable {hash : Transaction → String} {confirmed handed : List Transaction}

theorem drift_fate_of_ne {net net' : Network} (h : Drift net net') {txHash : String}
    (hdecided : net.fate txHash ≠ .pending) : net'.fate txHash = net.fate txHash := by
  obtain ⟨txHash', fate, hpending, rfl⟩ := h
  refine Function.update_of_ne ?_ _ _
  rintro rfl
  exact hdecided hpending

theorem knows_stable : Script.Stable Drift (Network.Knows hash confirmed handed) := by
  intro net net' h hdrift
  refine ⟨?_, fun tx htx => ?_⟩
  · obtain ⟨txHash, fate, -, rfl⟩ := hdrift
    exact h.handed
  · have hsucceeded := h.confirmed tx htx
    rw [drift_fate_of_ne hdrift (by simp [hsucceeded]), hsucceeded]

theorem polls_stable (n : Nat) : Script.Stable Drift (·.polls = n) := by
  rintro net net' h ⟨txHash, fate, -, rfl⟩
  exact h

theorem not_live_stable (txHash : String) : Script.Stable Drift (¬ ·.Live txHash) := by
  intro net net' h hdrift hlive
  have hsame := drift_fate_of_ne hdrift fun hpending => h (.inl hpending)
  rw [Network.Live, hsame] at hlive
  exact h hlive

theorem Network.Knows.submit {net : Network} (h : net.Knows hash confirmed handed)
    (tx : Transaction) (accepted : Bool) :
    (net.submit hash tx accepted).Knows hash confirmed (handed ++ [tx]) := by
  refine ⟨by rw [Network.submit, h.handed], fun tx' htx' => ?_⟩
  have hsucceeded := h.confirmed tx' htx'
  simp only [Network.submit]
  split
  next habsent =>
    rw [Function.update_of_ne, hsucceeded]
    intro hsame
    rw [← hsame, hsucceeded] at habsent
    simp at habsent
  next => exact hsucceeded

theorem Network.Knows.poll {net : Network} (h : net.Knows hash confirmed handed) :
    net.poll.Knows hash confirmed handed :=
  ⟨h.handed, h.confirmed⟩

/-! ## What a submission ensures -/

/-- The answers that abandon no transaction the network has. -/
def answers (hash : Transaction → String) : Script.Answering RpcCall.Reply Network :=
  fun call net reply net' => ∃ outcome, net.answer hash call outcome = some (reply, net') ∧
    ∀ txHash, call.transaction hash = some txHash → Abandons net.polls call outcome →
      ¬ net'.Live txHash

abbrev Ensures {α : Type} (hash : Transaction → String) (script : Script RpcCall.Reply α)
    (ends : α → Network → Prop) (net : Network) : Prop :=
  script.Ensures (answers hash) Drift ends net

/-- The rule for a call: what follows if it throws, and if it returns. -/
theorem rpc_ensures {α : Type} {call : RpcCall} {f : call.Value → Submission α} {p : Network → Prop}
    {ends : Except Thrown α → Network → Prop} (hp : Script.Stable Drift p) {net : Network}
    (h : p net) (hthrows : ∀ net err net', p net → answers hash call net (.error err) net' →
      Ensures hash (throw err : Submission α).run ends net')
    (hreturns : ∀ net value net', p net → answers hash call net (.ok value) net' →
      Ensures hash (f value).run ends net') :
    Ensures hash (rpc call >>= f).run ends net := by
  refine Script.Ensures.ask hp h fun net hnet reply net' hanswer => ?_
  cases reply with
  | error err => exact hthrows net err net' hnet hanswer
  | ok value => exact hreturns net value net' hnet hanswer

/-- What a poll that is answered tells of the transaction. -/
theorem answers_getTransaction {txHash : String} {net net' : Network}
    {reply : Except Thrown TransactionStatus}
    (h : answers hash (.getTransaction txHash) net reply net') : net' = net.poll ∧
      match reply with
      | .ok .success => net'.fate txHash = .succeeded
      | .ok .notFound => net.polls + 1 = maxAttempts → ¬ net'.Live txHash
      | .ok .failed | .error _ => ¬ net'.Live txHash := by
  obtain ⟨outcome, hanswer, hlive⟩ := h
  cases outcome with
  | throws err accepted =>
      obtain ⟨rfl, rfl⟩ := Prod.mk.inj (Option.some.inj hanswer)
      exact ⟨rfl, hlive txHash rfl trivial⟩
  | found status =>
      simp only [Network.answer, Option.ite_none_right_eq_some, Option.some.injEq] at hanswer
      obtain ⟨hshows, hanswer⟩ := hanswer
      obtain ⟨rfl, rfl⟩ := Prod.mk.inj hanswer
      refine ⟨rfl, ?_⟩
      cases status with
      | success => exact of_decide_eq_true hshows
      | failed =>
          have hfailed : net.poll.fate txHash = .failed := of_decide_eq_true hshows
          simp [Network.Live, hfailed]
      | notFound => exact fun hlast => hlive txHash rfl ⟨rfl, hlast⟩
  | account | simulated | assembled | sent => contradiction

/-- How the wait for a transaction ends. -/
def Waited {α : Type} (hash : Transaction → String) (confirmed handed : List Transaction)
    (txHash : String) (result : Except Thrown α) (net : Network) : Prop :=
  net.Knows hash confirmed handed ∧
    match result with
    | .ok _ => net.fate txHash = .succeeded
    | .error _ => ¬ net.Live txHash

theorem waited_stable {α : Type} {txHash : String} (result : Except Thrown α) :
    Script.Stable Drift (Waited hash confirmed handed txHash result) := by
  intro net net' ⟨hknows, hresult⟩ hdrift
  refine ⟨knows_stable hknows hdrift, ?_⟩
  cases result with
  | ok value =>
      have hsucceeded : net.fate txHash = .succeeded := hresult
      exact (drift_fate_of_ne hdrift (by simp [hsucceeded])).trans hsucceeded
  | error err => exact not_live_stable txHash hresult hdrift

theorem waitForTransaction_ensures {txHash : String} {attempts polls : Nat}
    (hattempts : polls + attempts = maxAttempts) {net : Network}
    (h : net.Knows hash confirmed handed) (hpolls : net.polls = polls)
    (hlast : attempts = 0 → ¬ net.Live txHash) :
    Ensures hash (waitForTransaction txHash attempts).run (Waited hash confirmed handed txHash)
      net := by
  induction attempts generalizing polls net with
  | zero => exact .done (waited_stable _) ⟨h, hlast rfl⟩ fun _ h => h
  | succ attempts ih =>
      refine rpc_ensures (knows_stable.and (polls_stable polls)) ⟨h, hpolls⟩ ?_ ?_
      · intro net err net' hnet hanswer
        obtain ⟨rfl, hdead⟩ := answers_getTransaction hanswer
        exact .done (waited_stable _) ⟨hnet.1.poll, hdead⟩ fun _ h => h
      · intro net status net' hnet hanswer
        obtain ⟨rfl, hstatus⟩ := answers_getTransaction hanswer
        cases status with
        | success => exact .done (waited_stable _) ⟨hnet.1.poll, hstatus⟩ fun _ h => h
        | failed => exact .done (waited_stable _) ⟨hnet.1.poll, hstatus⟩ fun _ h => h
        | notFound =>
            refine ih (show polls + 1 + attempts = maxAttempts by omega) hnet.1.poll
              (congrArg (· + 1) hnet.2) ?_
            rintro rfl
            exact hstatus (by rw [hnet.2]; exact hattempts)

/-- Until a transaction is sent, the network learns nothing. -/
theorem answers_of_no_transaction {call : RpcCall} {net net' : Network} {reply : call.Reply}
    (hcall : call.transaction hash = none) (h : answers hash call net reply net') : net' = net := by
  obtain ⟨outcome, hanswer, -⟩ := h
  cases call with
  | getAccount | simulateTransaction | assembleTransaction =>
      cases outcome <;> simp only [Network.answer, Option.some.injEq, Prod.mk.injEq,
        reduceCtorEq] at hanswer <;> exact hanswer.2.symm
  | sendTransaction | getTransaction => contradiction

theorem answers_sendTransaction {tx : Transaction} {net net' : Network}
    {reply : Except Thrown SendResult} (h : answers hash (.sendTransaction tx) net reply net') :
    (∃ accepted, net' = net.submit hash tx accepted) ∧
      match reply with
      | .ok result => result.hash = hash tx ∧ (result.status = .error → ¬ net'.Live (hash tx))
      | .error _ => ¬ net'.Live (hash tx) := by
  obtain ⟨outcome, hanswer, hlive⟩ := h
  cases outcome with
  | throws err accepted =>
      obtain ⟨rfl, rfl⟩ := Prod.mk.inj (Option.some.inj hanswer)
      exact ⟨⟨accepted, rfl⟩, hlive _ rfl trivial⟩
  | sent status errorResult accepted =>
      simp only [Network.answer, Option.ite_none_left_eq_some, Option.some.injEq] at hanswer
      obtain ⟨rfl, rfl⟩ := Prod.mk.inj hanswer.2
      exact ⟨⟨accepted, rfl⟩, rfl, fun herror => hlive _ rfl herror⟩
  | account | simulated | assembled | found => contradiction

/-- How the submission of a chunk ends, after those of the chunks before. -/
def Submitted (hash : Transaction → String) (confirmed : List Transaction)
    (contractLoanIds : List String) : Except Thrown String → Network → Prop
  | .ok _, net => ∃ tx, net.Knows hash (confirmed ++ [tx]) (confirmed ++ [tx]) ∧
      tx.contractLoanIds = contractLoanIds
  | .error _, net => net.Knows hash confirmed confirmed ∨
      ∃ tx, net.Knows hash confirmed (confirmed ++ [tx]) ∧
        tx.contractLoanIds = contractLoanIds ∧ ¬ net.Live (hash tx)

theorem submitted_stable {contractLoanIds : List String} (result : Except Thrown String) :
    Script.Stable Drift (Submitted hash confirmed contractLoanIds result) := by
  intro net net' h hdrift
  cases result with
  | ok txHash =>
      obtain ⟨tx, hknows, hids⟩ := h
      exact ⟨tx, knows_stable hknows hdrift, hids⟩
  | error err =>
      rcases h with hknows | ⟨tx, hknows, hids, hdead⟩
      · exact .inl (knows_stable hknows hdrift)
      · exact .inr ⟨tx, knows_stable hknows hdrift, hids, not_live_stable _ hdead hdrift⟩

theorem throw_unsent {contractLoanIds : List String} {net : Network} (err : Thrown)
    (h : net.Knows hash confirmed confirmed) :
    Ensures hash (throw err : Submission String).run (Submitted hash confirmed contractLoanIds)
      net :=
  .done (submitted_stable (.error err)) (Or.inl h) fun _ h => h

theorem throw_sent {tx : Transaction} {net : Network} (err : Thrown)
    (h : net.Knows hash confirmed (confirmed ++ [tx])) (hdead : ¬ net.Live (hash tx)) :
    Ensures hash (throw err : Submission String).run
      (Submitted hash confirmed tx.contractLoanIds) net :=
  .done (submitted_stable (.error err)) (Or.inr ⟨tx, h, rfl, hdead⟩) fun _ h => h

theorem submission_bind {α β : Type} {script : Submission α} {f : α → Submission β}
    {ends : Except Thrown β → Network → Prop} {net : Network}
    (h : Ensures hash script.run (fun result net => match result with
      | .ok a => Ensures hash (f a).run ends net
      | .error err => Ensures hash (throw err : Submission β).run ends net) net) :
    Ensures hash (script >>= f).run ends net := by
  refine Script.Ensures.bind (h.mono fun result net hresult => ?_)
  cases result with
  | ok a => exact hresult
  | error err => exact hresult

/-- The last part of a submission. -/
theorem wait_ensures {tx : Transaction} {net : Network} (hpolls : net.polls = 0)
    (h : net.Knows hash confirmed (confirmed ++ [tx])) :
    Ensures hash (do
      waitForTransaction (hash tx) maxAttempts
      return hash tx : Submission String).run
      (Submitted hash confirmed tx.contractLoanIds) net := by
  have hwait := waitForTransaction_ensures (Nat.zero_add _) h hpolls
    (show maxAttempts = 0 → ¬ net.Live (hash tx) by simp [maxAttempts])
  refine submission_bind (hwait.mono fun result net' ⟨hknows, hresult⟩ => ?_)
  cases result with
  | ok value =>
      refine .done (submitted_stable (.ok (hash tx))) ⟨tx, ⟨hknows.handed, ?_⟩, rfl⟩ fun _ h => h
      simpa [or_imp, forall_and] using ⟨hknows.confirmed, hresult⟩
  | error err => exact throw_sent err hknows hresult

/-- From the sending on. -/
theorem send_ensures {contractLoanIds : List String} {tx : Transaction}
    (htx : tx.contractLoanIds = contractLoanIds) {net : Network}
    (h : net.Knows hash confirmed confirmed) :
    Ensures hash (do
      let sendResult ← rpc (.sendTransaction tx)
      if sendResult.status = .error then
        throw (some s!"Transaction submission failed: {sendResult.errorResult}")
      else do
        waitForTransaction sendResult.hash maxAttempts
        return sendResult.hash : Submission String).run
      (Submitted hash confirmed contractLoanIds) net := by
  subst htx
  refine rpc_ensures knows_stable h ?_ ?_
  · intro net err net' hnet hanswer
    obtain ⟨⟨accepted, rfl⟩, hdead⟩ := answers_sendTransaction hanswer
    exact throw_sent err (hnet.submit _ _) hdead
  · intro net sendResult net' hnet hanswer
    obtain ⟨⟨accepted, rfl⟩, hhash, hdead⟩ := answers_sendTransaction hanswer
    split
    next herror => exact throw_sent _ (hnet.submit _ _) (hdead herror)
    next => rw [hhash]; exact wait_ensures rfl (hnet.submit _ _)

theorem submitRetirementChunk_ensures {contractLoanIds : List String} {net : Network}
    (h : net.Knows hash confirmed confirmed) :
    Ensures hash (submitRetirementChunk contractLoanIds).run
      (Submitted hash confirmed contractLoanIds) net := by
  unfold submitRetirementChunk
  refine rpc_ensures knows_stable h ?_ ?_
  · intro net err net' hnet hanswer
    obtain rfl := answers_of_no_transaction rfl hanswer
    exact throw_unsent err hnet
  · intro net sequence net' hnet hanswer
    obtain rfl := answers_of_no_transaction rfl hanswer
    refine rpc_ensures knows_stable hnet ?_ ?_
    · intro net err net' hnet hanswer
      obtain rfl := answers_of_no_transaction rfl hanswer
      exact throw_unsent err hnet
    · intro net simResult net' hnet hanswer
      obtain rfl := answers_of_no_transaction rfl hanswer
      cases simResult with
      | error message => exact throw_unsent _ hnet
      | ok simulated =>
          refine rpc_ensures knows_stable hnet ?_ ?_
          · intro net err net' hnet hanswer
            obtain rfl := answers_of_no_transaction rfl hanswer
            exact throw_unsent err hnet
          · intro net resources net' hnet hanswer
            obtain rfl := answers_of_no_transaction rfl hanswer
            exact send_ensures rfl hnet

/-! ## What a batch ensures -/

def Reported (result : RetirementChunkResult) (tx : Transaction) : Prop :=
  result.status = .success ∧ tx.contractLoanIds = result.contractLoanIds

/-- The successes come first, and have succeeded. At most one transaction more was
handed over, for the first of the others. -/
structure Settled (hash : Transaction → String) (contractLoanIds : List String)
    (results : List RetirementChunkResult) (net : Network) : Prop where
  loans : results.flatMap (·.contractLoanIds) = contractLoanIds
  handed : ∃ confirmed successes others, results = successes ++ others ∧
    List.Forall₂ Reported successes confirmed ∧ (∀ result ∈ others, result.status ≠ .success) ∧
    (net.Knows hash confirmed confirmed ∨
      ∃ tx result rest, net.Knows hash confirmed (confirmed ++ [tx]) ∧ ¬ net.Live (hash tx) ∧
        others = result :: rest ∧ tx.contractLoanIds = result.contractLoanIds)

theorem settled_stable (contractLoanIds : List String) (results : List RetirementChunkResult) :
    Script.Stable Drift (Settled hash contractLoanIds results) := by
  rintro net net' ⟨hloans, confirmed, successes, others, hresults, hsuccesses, hothers, hhanded⟩
    hdrift
  refine ⟨hloans, confirmed, successes, others, hresults, hsuccesses, hothers, ?_⟩
  rcases hhanded with hknows | ⟨tx, result, rest, hknows, hdead, hfirst⟩
  · exact .inl (knows_stable hknows hdrift)
  · exact .inr ⟨tx, result, rest, knows_stable hknows hdrift,
      not_live_stable _ hdead hdrift, hfirst⟩

theorem retireChunks_ensures {chunks : List (List RetirementTarget)}
    {results : List RetirementChunkResult} {net : Network}
    (h : net.Knows hash confirmed confirmed) (hresults : List.Forall₂ Reported results confirmed) :
    Ensures hash (retireChunks submitRetirementChunk chunks results false)
      (Settled hash (results.flatMap (·.contractLoanIds) ++
        chunks.flatten.map (·.contractLoanId))) net := by
  induction chunks generalizing results confirmed net with
  | nil =>
      refine .done (settled_stable _ results) ?_ fun _ h => h
      exact ⟨by simp, confirmed, results, [], by simp, hresults, by simp, .inl h⟩
  | cons chunk rest ih =>
      refine Script.Ensures.bind ((submitRetirementChunk_ensures h).mono fun result net' hend => ?_)
      cases result with
      | ok txHash =>
          obtain ⟨tx, hknows, hids⟩ := hend
          have hnext : Reported (.ofChunk chunk .success (some txHash) none) tx := ⟨rfl, hids⟩
          have hrest := ih hknows (List.rel_append hresults (.cons hnext .nil))
          simpa [RetirementChunkResult.ofChunk] using hrest
      | error err =>
          simp only [retireChunks_aborted]
          refine .done (settled_stable _ _) ⟨?_, ?_⟩ fun _ h => h
          · simp [RetirementChunkResult.ofChunk, RetirementChunkResult.skipped, List.flatMap_def,
              Function.comp_def, List.map_flatten]
          · refine ⟨confirmed, results, _ :: rest.map .skipped, List.append_assoc _ _ _, hresults,
              ?_, ?_⟩
            · simp [RetirementChunkResult.ofChunk, RetirementChunkResult.skipped]
            · rcases hend with hknows | ⟨tx, hknows, hids, hdead⟩
              · exact .inl hknows
              · exact .inr ⟨tx, _, _, hknows, hdead, rfl, hids⟩

theorem Reported.bears {result : RetirementChunkResult} {tx : Transaction}
    (h : Reported result tx) {net : Network} {index : Nat}
    (htx : net.handed[index]? = some tx) (hsucceeded : net.fate (hash tx) = .succeeded) :
    net.Bears hash index result := by
  obtain ⟨hsuccess, hids⟩ := h
  simp only [Network.Bears, hsuccess]
  exact ⟨tx, htx, hids, hsucceeded⟩

theorem bears_of_not_success {result : RetirementChunkResult} (h : result.status ≠ .success)
    {net : Network} {index : Nat} (htx : ∀ tx, net.handed[index]? = some tx →
      tx.contractLoanIds = result.contractLoanIds ∧ ¬ net.Live (hash tx)) :
    net.Bears hash index result := by
  have hbears : ∀ tx, net.handed[index]? = some tx →
      tx.contractLoanIds = result.contractLoanIds ∧ net.fate (hash tx) ≠ .succeeded :=
    fun tx hhanded => ⟨(htx tx hhanded).1, fun hsucceeded => (htx tx hhanded).2 (.inr hsucceeded)⟩
  unfold Network.Bears
  cases hstatus : result.status with
  | success => contradiction
  | failed => exact hbears
  | skipped => exact hbears

theorem Settled.bears {contractLoanIds : List String} {results : List RetirementChunkResult}
    {net : Network} (h : Settled hash contractLoanIds results net) {index : Nat}
    {result : RetirementChunkResult} (hresult : results[index]? = some result) :
    net.Bears hash index result := by
  obtain ⟨confirmed, successes, others, rfl, hsuccesses, hothers, hhanded⟩ := h.handed
  have hlength := hsuccesses.length_eq
  rcases lt_or_ge index successes.length with hlt | hge
  · -- One of the successes: its transaction is among the confirmed ones.
    rw [List.getElem?_append_left hlt, List.getElem?_eq_getElem hlt] at hresult
    obtain rfl := Option.some.inj hresult
    have hconfirmed : index < confirmed.length := hlength ▸ hlt
    have hreported : Reported successes[index] confirmed[index] := hsuccesses.get hlt hconfirmed
    rcases hhanded with hknows | ⟨tx, first, rest, hknows, -⟩
    · refine hreported.bears ?_ (hknows.confirmed _ (List.getElem_mem _))
      rw [hknows.handed, List.getElem?_eq_getElem hconfirmed]
    · refine hreported.bears ?_ (hknows.confirmed _ (List.getElem_mem _))
      rw [hknows.handed, List.getElem?_append_left hconfirmed, List.getElem?_eq_getElem hconfirmed]
  · rw [List.getElem?_append_right hge] at hresult
    refine bears_of_not_success (hothers result (List.mem_of_getElem? hresult)) fun tx htx => ?_
    rcases hhanded with hknows | ⟨last, first, rest, hknows, hdead, rfl, hids⟩
    · rw [hknows.handed, List.getElem?_eq_none (hlength ▸ hge)] at htx
      contradiction
    · rw [hknows.handed, List.getElem?_append_right (hlength ▸ hge), ← hlength,
        List.getElem?_singleton, Option.ite_none_right_eq_some] at htx
      obtain ⟨hindex, hlast⟩ := htx
      obtain rfl := Option.some.inj hlast
      rw [hindex, List.getElem?_cons_zero] at hresult
      obtain rfl := Option.some.inj hresult
      exact ⟨hids, hdead⟩

/-- No more transactions than chunks. -/
theorem Settled.handed_le {contractLoanIds : List String} {results : List RetirementChunkResult}
    {net : Network} (h : Settled hash contractLoanIds results net) :
    net.handed.length ≤ results.length := by
  obtain ⟨confirmed, successes, others, rfl, hsuccesses, -, hhanded⟩ := h.handed
  rw [List.length_append, hsuccesses.length_eq]
  rcases hhanded with hknows | ⟨tx, first, rest, hknows, -, rfl, -⟩
  · rw [hknows.handed]
    omega
  · rw [hknows.handed]
    simp

theorem Network.Bears.of_handed {net : Network} {index : Nat} {result : RetirementChunkResult}
    (h : net.Bears hash index result) {tx : Transaction} (htx : net.handed[index]? = some tx) :
    tx.contractLoanIds = result.contractLoanIds ∧
      (net.fate (hash tx) = .succeeded ↔ result.status = .success) := by
  unfold Network.Bears at h
  cases hstatus : result.status with
  | success =>
      rw [hstatus] at h
      obtain ⟨tx', htx', hids, hsucceeded⟩ := h
      obtain rfl := Option.some.inj (htx.symm.trans htx')
      simp [hids, hsucceeded]
  | failed | skipped =>
      rw [hstatus] at h
      obtain ⟨hids, hnot⟩ := h tx htx
      simp [hids, hnot]

/-- Of distinct loans, those of a chunk are retired if it is a success, and none of them
is otherwise. -/
theorem Settled.retired_iff {contractLoanIds : List String} {results : List RetirementChunkResult}
    {net : Network} (h : Settled hash contractLoanIds results net)
    (hdistinct : contractLoanIds.Nodup) {index : Nat} {result : RetirementChunkResult}
    (hresult : results[index]? = some result) {id : String} (hid : id ∈ result.contractLoanIds) :
    net.Retired hash id ↔ result.status = .success := by
  constructor
  · rintro ⟨tx, htx, hmem, hsucceeded⟩
    obtain ⟨index', htx⟩ := List.getElem?_of_mem htx
    have hlt : index' < results.length :=
      (List.getElem?_eq_some_iff.mp htx).1.trans_le h.handed_le
    obtain ⟨hids, hstatus⟩ := (h.bears (List.getElem?_eq_getElem hlt)).of_handed htx
    rw [hids] at hmem
    rw [← h.loans, List.nodup_flatMap] at hdistinct
    obtain ⟨hlt', rfl⟩ := List.getElem?_eq_some_iff.mp hresult
    have hsame : index' = index := by
      by_contra hne
      rcases lt_or_gt_of_ne hne with hless | hless
      · exact List.pairwise_iff_getElem.mp hdistinct.2 _ _ _ _ hless hmem hid
      · exact List.pairwise_iff_getElem.mp hdistinct.2 _ _ _ _ hless hid hmem
    subst hsame
    exact hstatus.mp hsucceeded
  · intro hsuccess
    have hbears := h.bears hresult
    simp only [Network.Bears, hsuccess] at hbears
    obtain ⟨tx, htx, hids, hsucceeded⟩ := hbears
    exact ⟨tx, List.mem_of_getElem? htx, hids ▸ hid, hsucceeded⟩

/-! ## Runs -/

variable {loans : List RetirementTarget} {maxOpsPerChunk : ℕ+}

/-- The step lemma: what is ensured stays ensured. -/
theorem step_ensures {s s' : Retiring} {a : Action}
    {ends : List RetirementChunkResult → Network → Prop}
    (h : Ensures hash s.script ends s.net) (step : (retiring hash loans maxOpsPerChunk).Step s a s')
    (hkeeps : ¬ AbandonsLive hash ⟨s, a, s'⟩) : Ensures hash s'.script ends s'.net := by
  obtain ⟨net, script⟩ := s
  cases a with
  | answer outcome =>
      cases script with
      | done results => contradiction
      | ask call next =>
          obtain ⟨⟨reply, net'⟩, hanswer, rfl⟩ := Option.map_eq_some_iff.mp step
          refine h.of_answer ⟨outcome, hanswer, fun txHash hcall habandons hlive => ?_⟩
          exact hkeeps ⟨call, next, outcome, txHash, rfl, rfl, hcall, habandons, hlive⟩
  | decide txHash fate =>
      simp only [retiring, Retiring.perform, Option.ite_none_right_eq_some,
        Option.some.injEq] at step
      obtain ⟨hpending, rfl⟩ := step
      exact h.of_drift ⟨txHash, fate, hpending, rfl⟩

theorem run_settled {start s : Retiring} {steps : List (Transition Retiring Action)}
    (hstart : (retiring hash loans maxOpsPerChunk).Initial start)
    (hrun : (retiring hash loans maxOpsPerChunk).Run start steps s)
    (hkeeps : ∀ t ∈ steps, ¬ AbandonsLive hash t) {results : List RetirementChunkResult}
    (hdone : s.script = .done results) :
    Settled hash (loans.map (·.contractLoanId)) results s.net := by
  have hensures : Ensures hash s.script (Settled hash (loans.map (·.contractLoanId))) s.net := by
    refine hrun.invariant_of_steps (fun t => ¬ AbandonsLive hash t)
      (fun s a s' h step hkeeps => step_ensures h step hkeeps) hkeeps ?_
    have hchunks := @retireChunks_ensures hash [] (chunkArray loans maxOpsPerChunk) [] start.net
      ⟨hstart.2, by simp⟩ .nil
    rw [flatten_chunkArray, List.flatMap_nil, List.nil_append] at hchunks
    rw [hstart.1]
    exact hchunks
  rw [hdone] at hensures
  exact hensures.result

/-- As long as no transaction is abandoned that the network has: once the batch is
reported, every chunk is and stays on chain what its report says. Where no loan is listed
twice, the loans of a chunk are then retired exactly if it is reported as a success. -/
theorem reports_bear_out {start s : Retiring} {steps : List (Transition Retiring Action)}
    (hstart : (retiring hash loans maxOpsPerChunk).Initial start)
    (hrun : (retiring hash loans maxOpsPerChunk).Run start steps s)
    (hkeeps : ∀ t ∈ steps, ¬ AbandonsLive hash t) {results : List RetirementChunkResult}
    (hdone : s.script = .done results) {index : Nat} {result : RetirementChunkResult}
    (hresult : results[index]? = some result) :
    s.net.Bears hash index result ∧
      ((loans.map (·.contractLoanId)).Nodup → ∀ id ∈ result.contractLoanIds,
        (s.net.Retired hash id ↔ result.status = .success)) := by
  have hsettled := run_settled hstart hrun hkeeps hdone
  exact ⟨hsettled.bears hresult, fun hdistinct id hid =>
    hsettled.retired_iff hdistinct hresult hid⟩

namespace Sample

/-- A hash that tells the transactions of the runs below apart. -/
def digest (tx : Transaction) : String := String.join tx.contractLoanIds

/-- A batch of two loans, one in a chunk, before anything is asked. -/
def batch : Retiring :=
  ⟨⟨fun _ => .absent, [], 0⟩,
    retireLoansOnChain submitRetirementChunk [⟨"a", "1"⟩, ⟨"b", "2"⟩] 1⟩

/-- Up to the reply to `sendTransaction`. -/
def sending : List Action :=
  [.answer (.account 7), .answer (.simulated (.ok "")), .answer (.assembled ""),
    .answer (.sent .pending "" true)]

/-- One loan is retired, and the other one's transaction fails. -/
def seen : List Action :=
  sending ++ [.answer (.found .notFound), .decide "1" .succeeded, .answer (.found .success)] ++
    sending ++ [.decide "2" .failed, .answer (.found .failed)]

/-- The first poll is rejected, and the transaction included after that. -/
def unseen : List Action :=
  sending ++ [.answer (.throws none false), .decide "1" .succeeded]

end Sample

/-- Calls that do not throw, and decisions that are seen. -/
theorem not_abandonsLive_of_all {steps : List (Transition Retiring Action)}
    (h : steps.all (fun t => match t.action with
      | .answer (.throws _ _) => false
      | .answer (.sent status _ _) => status ≠ .error
      | .answer (.found status) => status ≠ .notFound || t.before.net.polls + 1 ≠ maxAttempts
      | _ => true) = true) : ∀ t ∈ steps, ¬ AbandonsLive hash t := by
  rintro t ht ⟨call, next, outcome, txHash, -, haction, -, habandons, -⟩
  have hanswer := List.all_eq_true.mp h t ht
  rw [haction] at hanswer
  cases call <;> cases outcome <;> simp_all [Abandons]

/-- A loan that is retired, and one that is not. -/
theorem sample_reports_bear_out :
    ∃ steps s retired failed, (retiring Sample.digest [⟨"a", "1"⟩, ⟨"b", "2"⟩] 1).Run Sample.batch
        steps s ∧ s.script = .done [retired, failed] ∧
      retired.status = .success ∧ s.net.Bears Sample.digest 0 retired ∧
      s.net.Retired Sample.digest "1" ∧
      failed.status = .failed ∧ s.net.Bears Sample.digest 1 failed ∧
      ¬ s.net.Retired Sample.digest "2" := by
  have hrun : (retiring Sample.digest [⟨"a", "1"⟩, ⟨"b", "2"⟩] 1).Run Sample.batch _ _ :=
    TransitionSystem.Run.of_replay (fun _ _ _ h => h)
      (show TransitionSystem.replay _ _ Sample.seen = some (_, _) from rfl)
  have hbears := @reports_bear_out _ _ _ _ _ _ ⟨rfl, rfl⟩ hrun (not_abandonsLive_of_all rfl) _ rfl
  obtain ⟨hfirst, hretired⟩ := @hbears 0 _ rfl
  obtain ⟨hsecond, hfailed⟩ := @hbears 1 _ rfl
  refine ⟨_, _, _, _, hrun, rfl, rfl, hfirst, ?_, rfl, hsecond, ?_⟩
  · exact (hretired (by decide) "1" (by simp [RetirementChunkResult.ofChunk])).mpr rfl
  · rw [hfailed (by decide) "2" (by simp [RetirementChunkResult.ofChunk])]
    simp [RetirementChunkResult.ofChunk]

/-- A chunk is reported as failed, and its loan is retired. -/
theorem failed_chunk_retired :
    ¬ ∀ (hash : Transaction → String) (loans : List RetirementTarget) (maxOpsPerChunk : ℕ+)
      (start s : Retiring) (steps : List (Transition Retiring Action)),
      (loans.map (·.contractLoanId)).Nodup →
      (retiring hash loans maxOpsPerChunk).Initial start →
      (retiring hash loans maxOpsPerChunk).Run start steps s →
      ∀ results, s.script = .done results → ∀ result ∈ results, result.status ≠ .success →
        ∀ id ∈ result.contractLoanIds, ¬ s.net.Retired hash id := by
  intro hall
  have hrun : (retiring Sample.digest [⟨"a", "1"⟩, ⟨"b", "2"⟩] 1).Run Sample.batch _ _ :=
    TransitionSystem.Run.of_replay (fun _ _ _ h => h)
      (show TransitionSystem.replay _ _ Sample.unseen = some (_, _) from rfl)
  have hnone := hall _ _ _ _ _ _ (by decide) ⟨rfl, rfl⟩ hrun _ rfl _ List.mem_cons_self
    (by simp [RetirementChunkResult.ofChunk]) "1" (by simp [RetirementChunkResult.ofChunk])
  exact hnone ⟨_, List.mem_cons_self, List.mem_cons_self, rfl⟩

end StellarKraal.Retirement
