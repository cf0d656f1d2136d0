import StellarKraal.CarbonOracle.Median
import StellarKraal.Foundation.History

/-!
# The median and the submissions

A book kept from outside knows, from the calls that succeeded, who is registered and
what everybody has submitted last since the last removal. The median is that of the
submissions in the book that are in the window; the order of the calls does not show.
-/

namespace StellarKraal.CarbonOracle

open OrderStatistics (Middle)
open TransitionSystem (Transition HistoryVariable)

/-! ## The book -/

/-- The registered oracles, and the last price of each address with its ledger. -/
structure Book where
  oracles : Finset Address
  latest : Address → Option (Nat × Nat)

/-- What a call that succeeds in a ledger means for the book. -/
def Book.record (book : Book) (sequence : Nat) : Call → Book
  | .init _ _ => book
  | .addOracle _ oracle => { book with oracles := insert oracle book.oracles }
  | .removeOracle _ oracle =>
      { oracles := book.oracles.erase oracle
        latest := Function.update book.latest oracle none }
  | .submitPrice oracle price =>
      { book with latest := Function.update book.latest oracle (some (price, sequence)) }
  | .getMedianPrice => book

/-- The book, kept along a run. -/
def bookkeeping : HistoryVariable State Action Book where
  start := { oracles := ∅, latest := fun _ => none }
  update book t :=
    match t.action with
    | .call env call =>
        if (call.run env t.before).isOk then book.record t.before.sequence call else book
    | .close _ => book

theorem bookkeeping_call (book : Book) (env : Env) (call : Call) (w w' : State) :
    bookkeeping.update book ⟨w, .call env call, w'⟩ =
      if (call.run env w).isOk then book.record w.sequence call else book := rfl

/-- The price counts if its ledger `s` is in the window: `current - maxAge ≤ s ≤ current`. -/
def inWindow (current maxAge : Nat) : Option (Nat × Nat) → Option Nat
  | some (price, s) => if current ≤ s + maxAge ∧ s ≤ current then some price else none
  | none => none

/-- The prices in the window, one for each registered oracle that has one. -/
def Book.pricesInWindow (book : Book) (current maxAge : Nat) : Multiset Nat :=
  book.oracles.val.filterMap fun oracle => inWindow current maxAge (book.latest oracle)

/-! ## The storage -/

/-- The storage says what the book says. -/
structure Book.Matches (book : Book) (w : State) : Prop where
  oracles : (registered w).toFinset = book.oracles
  prices : ∀ oracle, w.prices.lookup oracle = book.latest oracle

variable {w w' : State} {book : Book}

theorem Book.Matches.after_call {env : Env} {call : Call} (h : book.Matches w)
    (hconsistent : Consistent w) (hrun : call.run env w = .ok w') :
    (book.record w.sequence call).Matches w' := by
  obtain ⟨horacles, hprices⟩ := h
  cases call with
  | init admin maxAge =>
      obtain ⟨hnone, rfl⟩ := init_ok hrun
      rw [registered, hnone] at horacles
      exact ⟨horacles, hprices⟩
  | addOracle admin oracle =>
      obtain ⟨s, hs, -, -, hcases⟩ := addOracle_ok hrun
      rw [registered_of_settings hs] at horacles
      rcases hcases with ⟨hmem, rfl⟩ | ⟨-, rfl⟩
      · have hlisted : oracle ∈ book.oracles := horacles ▸ List.mem_toFinset.mpr hmem
        refine ⟨?_, hprices⟩
        rw [registered_of_settings hs, horacles]
        exact (Finset.insert_eq_of_mem hlisted).symm
      · refine ⟨?_, hprices⟩
        rw [registered_of_settings rfl, List.toFinset_append, horacles, Finset.union_comm]
        rfl
  | removeOracle admin oracle =>
      have hnodup := hconsistent.nodup
      obtain ⟨s, hs, -, -, rfl⟩ := removeOracle_ok hrun
      rw [registered_of_settings hs] at horacles hnodup
      refine ⟨?_, fun other => ?_⟩
      · rw [registered_of_settings rfl]
        ext other
        simp only [Book.record, ← horacles, List.mem_toFinset, hnodup.mem_erase_iff,
          Finset.mem_erase]
      · rcases eq_or_ne other oracle with rfl | hne
        · simp [Book.record]
        · simp [Book.record, AList.lookup_erase_ne hne, hprices, hne]
  | submitPrice oracle price =>
      obtain ⟨s, hs, -, -, rfl⟩ := submitPrice_ok hrun
      refine ⟨horacles, fun other => ?_⟩
      rcases eq_or_ne other oracle with rfl | hne
      · simp [Book.record]
      · simp [Book.record, AList.lookup_insert_ne hne, hprices, hne]
  | getMedianPrice =>
      simp only [Call.run, Except.bind_succeeds, Except.pure_succeeds] at hrun
      obtain ⟨-, -, rfl⟩ := hrun
      exact ⟨horacles, hprices⟩

/-- The step lemma. -/
theorem Book.Matches.after_step {a : Action} (h : book.Matches w) (hconsistent : Consistent w)
    (hstep : system.Step w a w') : (bookkeeping.update book ⟨w, a, w'⟩).Matches w' := by
  cases a with
  | call env call =>
      obtain ⟨-, rfl⟩ := hstep
      cases hrun : call.run env w with
      | ok w' =>
          have hafter : w.invoke env call = w' := by rw [State.invoke, hrun]
          rw [hafter, bookkeeping_call, hrun]
          exact h.after_call hconsistent hrun
      | error e =>
          have hafter : w.invoke env call = w := by rw [State.invoke, hrun]
          rw [hafter, bookkeeping_call, hrun]
          exact h
  | close sequence =>
      obtain ⟨-, -, rfl⟩ := hstep
      exact ⟨h.oracles, h.prices⟩

theorem run_matches {start : State} {steps : List (Transition State Action)}
    (hstart : system.Initial start) (hrun : system.Run start steps w) :
    (bookkeeping.after steps).Matches w := by
  induction hrun with
  | nil =>
      obtain ⟨sequence, rfl⟩ := hstart
      exact ⟨rfl, fun _ => rfl⟩
  | snoc prior step ih =>
      have hreach := (TransitionSystem.Reachable.of_initial hstart).run prior
      rw [HistoryVariable.after_snoc]
      exact ih.after_step (reachable_consistent hreach) step

/-! ## The median -/

/-- The middle entry, or the floor of the mean of the two middle ones. -/
def IsMedian (prices : List Nat) (m : Nat) : Prop :=
  ∃ low high, Middle prices low high ∧ m = (low + high) / 2

theorem IsMedian.perm {prices prices' : List Nat} {m : Nat} (h : IsMedian prices m)
    (hperm : prices'.Perm prices) : IsMedian prices' m := by
  obtain ⟨low, high, hmid, rfl⟩ := h
  exact ⟨low, high, hmid.perm hperm, rfl⟩

/-- The prices that count are those of the book. -/
theorem Book.Matches.validPrices {s : Settings} (h : book.Matches w) (hnodup : (registered w).Nodup)
    (hs : w.settings = some s) :
    (validPrices w s : Multiset Nat) = book.pricesInWindow w.sequence s.maxAgeLedgers := by
  rw [registered_of_settings hs] at hnodup
  have horacles : book.oracles.val = (s.oracles : Multiset Address) := by
    rw [← h.oracles, registered_of_settings hs, List.toFinset_val, hnodup.dedup]
  rw [CarbonOracle.validPrices, Book.pricesInWindow, horacles, Multiset.filterMap_coe]
  congr 2
  funext oracle
  rw [freshPrice, h.prices oracle]
  cases book.latest oracle with
  | none => rfl
  | some submission =>
      simp only [inWindow]
      congr 1
      exact propext (by omega)

theorem getMedianPrice_ok {m : Nat} (h : getMedianPrice w = .ok m) :
    ∃ s, w.settings = some s ∧ IsMedian (validPrices w s) m := by
  cases hs : w.settings with
  | none => simp [getMedianPrice, hs] at h
  | some s =>
      have hne : validPrices w s ≠ [] := fun hempty => by
        simp [getMedianPrice_empty hs hempty] at h
      have hfew : (validPrices w s).length ≤ 20 := by
        by_contra hmany
        simp [getMedianPrice_crowded hs (not_le.mp hmany)] at h
      obtain ⟨low, high, hmid⟩ := Middle.exists hne
      rw [getMedianPrice_eq hs hfew hmid] at h
      split at h
      · exact ⟨s, rfl, low, high, hmid, (Except.ok.inj h).symm⟩
      · contradiction

/-- The median depends on the prices that count, not on how they are listed. -/
theorem getMedianPrice_perm {s s' : Settings} (hs : w.settings = some s)
    (hs' : w'.settings = some s') (hperm : (validPrices w' s').Perm (validPrices w s)) :
    getMedianPrice w' = getMedianPrice w := by
  rcases eq_or_ne (validPrices w s) [] with hempty | hne
  · have hempty' : validPrices w' s' = [] := List.perm_nil.mp (hempty ▸ hperm)
    rw [getMedianPrice_empty hs hempty, getMedianPrice_empty hs' hempty']
  · rcases le_or_gt (validPrices w s).length 20 with hfew | hmany
    · obtain ⟨low, high, hmid⟩ := Middle.exists hne
      rw [getMedianPrice_eq hs hfew hmid, getMedianPrice_eq hs' (hperm.length_eq ▸ hfew)
        (hmid.perm hperm), hperm.length_eq]
    · rw [getMedianPrice_crowded hs hmany, getMedianPrice_crowded hs' (hperm.length_eq ▸ hmany)]

/-- What is read is the median of the prices in the window, each registered oracle's last
one since its last removal. In the same ledger and for the same window, another order of
calls with the same oracles and the same last prices leads to the same answer. -/
theorem median_of_latest_prices {start : State} {steps : List (Transition State Action)}
    (hstart : system.Initial start) (hrun : system.Run start steps w) {m : Nat}
    (hmedian : getMedianPrice w = .ok m) :
    ∃ s, w.settings = some s ∧
      (∀ prices : List Nat, (prices : Multiset Nat) =
          (bookkeeping.after steps).pricesInWindow w.sequence s.maxAgeLedgers →
        IsMedian prices m) ∧
      ∀ start' steps' w' s', system.Initial start' → system.Run start' steps' w' →
        w'.settings = some s' → s'.maxAgeLedgers = s.maxAgeLedgers → w'.sequence = w.sequence →
          bookkeeping.after steps' = bookkeeping.after steps → getMedianPrice w' = .ok m := by
  have hprices : ∀ {start w : State} {steps : List (Transition State Action)} {s : Settings},
      system.Initial start → system.Run start steps w → w.settings = some s →
        (validPrices w s : Multiset Nat) =
          (bookkeeping.after steps).pricesInWindow w.sequence s.maxAgeLedgers := by
    intro start w steps s hstart hrun hs
    have hreach := (TransitionSystem.Reachable.of_initial hstart).run hrun
    exact (run_matches hstart hrun).validPrices (reachable_consistent hreach).nodup hs
  obtain ⟨s, hs, hvalid⟩ := getMedianPrice_ok hmedian
  have hbook := hprices hstart hrun hs
  refine ⟨s, hs, ?_, ?_⟩
  · intro prices hlisted
    exact hvalid.perm (Multiset.coe_eq_coe.mp (hlisted.trans hbook.symm))
  · intro start' steps' w' s' hstart' hrun' hs' hage hledger hsame
    have hbook' := hprices hstart' hrun' hs'
    rw [hage, hledger, hsame, ← hbook] at hbook'
    rw [getMedianPrice_perm hs hs' (Multiset.coe_eq_coe.mp hbook'), hmedian]

namespace Sample

/-- Two prices are submitted before they are final, and one oracle is removed and
registered again. -/
def changes : List Action :=
  [initialization 50, registration 1, registration 2, submission 1 10, submission 2 30,
    submission 2 40, removal 1, registration 3, submission 3 60, registration 1]

/-- The transitions of a script from a deployment in ledger 100. -/
def transitions (script : List Action) : List (Transition State Action) :=
  ((TransitionSystem.replay State.perform { sequence := 100 } script).map (·.1)).getD []

end Sample

/-- The oracle that is registered again does not count, the other two do. -/
theorem sample_median_of_latest_prices :
    getMedianPrice (Sample.after Sample.changes) = .ok 50 ∧ IsMedian [60, 40] 50 := by
  have hreplay : TransitionSystem.replay State.perform { sequence := 100 } Sample.changes =
      some (Sample.transitions Sample.changes, Sample.after Sample.changes) := rfl
  have hrun := TransitionSystem.Run.of_replay (fun _ _ _ => step_of_perform) hreplay
  have hmedian : getMedianPrice (Sample.after Sample.changes) = .ok 50 := by decide
  obtain ⟨s, hs, hprices, -⟩ := median_of_latest_prices ⟨100, rfl⟩ hrun hmedian
  obtain rfl := Option.some.inj hs
  exact ⟨hmedian, hprices [60, 40] (by decide +kernel)⟩

end StellarKraal.CarbonOracle
