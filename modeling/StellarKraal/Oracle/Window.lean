import StellarKraal.Foundation.LastChain
import StellarKraal.Oracle.PriceFeed

/-!
# The window of the running average

A price that comes at most the window after the one before it is added to the sum;
nothing is ever taken out. Old prices therefore stay in the sum as long as the feed
is kept up, and the window is respected exactly by feeds that pause often enough.
-/

namespace StellarKraal

open TransitionSystem (Transition)

variable {asset : AssetContract}

/-! ## Series of quotes -/

/-- The next quote extends the sum that ends in this one: a quote at time zero reads
as none, and one older than the window restarts the sum. -/
def Quote.ExtendedBy (window : Nat) (quote next : Quote) : Prop :=
  quote.time ≠ 0 ∧ next.time - quote.time ≤ window

instance (window : Nat) : DecidableRel (Quote.ExtendedBy window) := fun _ _ => by
  unfold Quote.ExtendedBy
  infer_instance

/-- Every unbroken series of consecutive quotes, each extending the one before it,
spans at most the window. -/
def SeriesFit (window : Nat) (quotes : List Quote) : Prop :=
  ∀ series first last, series <:+: quotes → series.IsChain (Quote.ExtendedBy window) →
    series.head? = some first → series.getLast? = some last → last.time - first.time ≤ window

/-- The same, said of the series each prefix of the quotes ends in. -/
theorem seriesFit_iff_lastChain {window : Nat} {quotes : List Quote} :
    SeriesFit window quotes ↔ ∀ earlier, earlier <+: quotes →
      ∀ quote ∈ earlier.lastChain (Quote.ExtendedBy window), ∀ last ∈ earlier.getLast?,
        last.time - quote.time ≤ window := by
  constructor
  · intro hfit earlier hinit quote hquote last hlast
    have hchain := List.isChain_lastChain (R := Quote.ExtendedBy window) earlier
    have hsuffix := List.lastChain_suffix (R := Quote.ExtendedBy window) earlier
    rw [← List.getLast?_lastChain (R := Quote.ExtendedBy window)] at hlast
    obtain ⟨front, back, heq⟩ := List.append_of_mem hquote
    rw [heq] at hchain hsuffix hlast
    have hinfix : quote :: back <:+: quotes :=
      ((List.suffix_append _ _).trans hsuffix).isInfix.trans hinit.isInfix
    apply hfit _ quote last hinfix hchain.right_of_append rfl
    rwa [List.getLast?_append_of_ne_nil _ (List.cons_ne_nil _ _)] at hlast
  · rintro hlasts series first last ⟨front, back, rfl⟩ hchain hfirst hlast
    have hne : series ≠ [] := by
      rintro rfl
      simp at hfirst
    apply hlasts (front ++ series) (List.prefix_append _ _) first
    · apply (List.suffix_lastChain (List.suffix_append _ _) hchain).subset
      exact List.mem_of_mem_head? hfirst
    · rwa [List.getLast?_append_of_ne_nil _ hne]

/-! ## The sum as a series -/

theorem quotes_snoc (client : TokenClient) (steps : List (Transition World Action))
    (t : Transition World Action) :
    quotes client (steps ++ [t]) = quotes client steps ++ (quoteOf client t).toList := by
  rw [quotes, List.filterMap_append, quotes]
  cases hquote : quoteOf client t <;> simp [hquote]

/-- Whether a price restarts the sum is decided by its time and the last quote. -/
theorem restartsAverage_iff {sum : List Quote} {w : World} {c : Config} {quote : Quote}
    (hc : w.config = some c) (hfeed : FeedOf sum c) (htime : quote.time = w.timestamp)
    (hne : sum ≠ []) :
    ¬ RestartsAverage w ↔ ∀ last ∈ sum.getLast?, last.ExtendedBy 3600 quote := by
  obtain ⟨last, hlast⟩ := Option.ne_none_iff_exists'.mp (mt List.getLast?_eq_none_iff.mp hne)
  have hlastTime := hfeed.time_eq
  rw [hlast, Option.map_some, Option.getD_some] at hlastTime
  simp only [RestartsAverage, World.getOr, hc, Option.map_some, Option.getD_some, hlastTime,
    hfeed.window, hlast, Option.mem_some_iff, forall_eq', Quote.ExtendedBy, htime, not_or, not_lt]

/-- The contributing quotes are the series that all quotes end in. -/
theorem run_contributing_eq {start w : World} {steps : List (Transition World Action)}
    (hstart : (protocol asset).Initial start) (hrun : (protocol asset).Run start steps w) :
    (contributing asset.client).after steps =
      (quotes asset.client steps).lastChain (Quote.ExtendedBy 3600) := by
  induction hrun with
  | nil => rfl
  | @snoc steps w w' a prior step ih =>
      rw [TransitionSystem.HistoryVariable.after_snoc, quotes_snoc]
      have hsound := run_feedSound hstart prior
      cases feed_step (t := ⟨w, a, w'⟩) step with
      | opens hquote | keeps hquote =>
          simpa only [contributing, hquote, Option.toList_none, List.append_nil] using ih
      | @records c quote twap hquote hc htime =>
          have hfeed := hsound.2 c hc
          simp only [contributing, hquote, Option.toList_some, List.lastChain_concat]
          simp only [contributing] at ih hfeed
          rw [ih] at hfeed ⊢
          generalize (quotes asset.client steps).lastChain (Quote.ExtendedBy 3600) = sum at hfeed
          -- An empty sum is restarted and extended alike.
          rcases eq_or_ne sum [] with rfl | hne
          · simp [List.extendChain]
          · rw [List.extendChain]
            simp only [← restartsAverage_iff hc hfeed htime hne, ite_not]

/-! ## The window -/

/-- Every price in the running sum was submitted within the window of the last one. -/
def AveragesWindow (client : TokenClient) (steps : List (Transition World Action)) (w : World) :
    Prop :=
  ∀ c, w.config = some c → ∀ quote ∈ (contributing client).after steps,
    c.lastPriceTime - quote.time ≤ c.twapWindow

theorem run_averagesWindow_iff {start w : World} {steps : List (Transition World Action)}
    (hstart : (protocol asset).Initial start) (hrun : (protocol asset).Run start steps w) :
    AveragesWindow asset.client steps w ↔
      ∀ quote ∈ (quotes asset.client steps).lastChain (Quote.ExtendedBy 3600),
        ∀ last ∈ (quotes asset.client steps).getLast?, last.time - quote.time ≤ 3600 := by
  have hsound := run_feedSound hstart hrun
  rw [run_contributing_eq hstart hrun] at hsound
  rw [AveragesWindow, run_contributing_eq hstart hrun]
  constructor
  · intro h quote hquote last hlast
    have hinitialized : w.config ≠ none := fun hnone => by simp [hsound.1 hnone] at hquote
    obtain ⟨c, hc⟩ := Option.ne_none_iff_exists'.mp hinitialized
    have hfeed := hsound.2 c hc
    have htime := hfeed.time_eq
    rw [List.getLast?_lastChain, hlast, Option.map_some, Option.getD_some] at htime
    have hwithin := h c hc quote hquote
    rwa [htime, hfeed.window] at hwithin
  · intro h c hc quote hquote
    have hfeed := hsound.2 c hc
    have hne : quotes asset.client steps ≠ [] := by
      rintro hnil
      simp [hnil, List.lastChain] at hquote
    obtain ⟨last, hlast⟩ :=
      Option.ne_none_iff_exists'.mp (mt List.getLast?_eq_none_iff.mp hne)
    have htime := hfeed.time_eq
    rw [List.getLast?_lastChain, hlast, Option.map_some, Option.getD_some] at htime
    rw [htime, hfeed.window]
    exact h quote hquote last hlast

/-- In a life of the contract the average stays within its window at every moment
exactly when no unbroken series of submissions is longer than the window. -/
theorem average_within_window_iff {start w : World} {steps : List (Transition World Action)}
    (hstart : (protocol asset).Initial start) (hrun : (protocol asset).Run start steps w) :
    (protocol asset).Throughout start steps (AveragesWindow asset.client) ↔
      SeriesFit 3600 (quotes asset.client steps) := by
  rw [seriesFit_iff_lastChain]
  constructor
  · intro hwindow earlier hinit
    -- Every prefix of the quotes is what some prefix of the steps has recorded.
    obtain ⟨later, heq⟩ := hinit
    obtain ⟨first, rest, rfl, rfl, -⟩ := List.filterMap_eq_append_iff.mp heq.symm
    obtain ⟨v, hv⟩ := TransitionSystem.Throughout.exists_state hrun (List.prefix_append first rest)
    exact (run_averagesWindow_iff hstart hv).mp (hwindow first v (List.prefix_append _ _) hv)
  · intro hfit earlier v hinit hv
    exact (run_averagesWindow_iff hstart hv).mpr (hfit _ (hinit.filterMap _))

/-- A submission of the sample oracle at a given time. -/
def Sample.quoted (timestamp : Nat) (price : Int) : List Action :=
  [.tick timestamp, Sample.signedBy Sample.oracle (.submitPrice Sample.oracle price)]

/-- Two prices an hour apart are averaged, a third after a pause starts anew. -/
theorem sample_average_within_window :
    ∃ steps w c, (protocol .standard).Run Sample.world steps w ∧ w.config = some c ∧
      c.twapPrice = 500 ∧
      ((protocol .standard).Throughout Sample.world steps
          (AveragesWindow AssetContract.standard.client) ↔
        SeriesFit 3600 (quotes AssetContract.standard.client steps)) := by
  have hrun : (protocol .standard).Run Sample.world _ _ := Run.of_script
    ([Sample.initialization 6000 8000] ++ Sample.quoted 1 100 ++ Sample.quoted 3601 200 ++
      Sample.quoted 7202 500) rfl
  exact ⟨_, _, _, hrun, rfl, rfl, average_within_window_iff ⟨0, _, rfl⟩ hrun⟩

/-- One price an hour: after the third, the first is two hours old and still counted. -/
theorem old_price_still_averaged :
    ¬ ∀ (asset : AssetContract) (start w : World) (steps : List (Transition World Action)),
      (protocol asset).Initial start → (protocol asset).Run start steps w →
        AveragesWindow asset.client steps w := by
  intro hall
  have hrun : (protocol .standard).Run Sample.world _ _ := Run.of_script
    ([Sample.initialization 6000 8000] ++ Sample.quoted 1 100 ++ Sample.quoted 3601 100 ++
      Sample.quoted 7201 100) rfl
  have hwindow := hall .standard _ _ _ ⟨0, _, rfl⟩ hrun _ rfl ⟨1, 100⟩ (by decide)
  exact absurd hwindow (by decide)

end StellarKraal
