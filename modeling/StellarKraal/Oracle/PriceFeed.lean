import StellarKraal.Foundation.History
import StellarKraal.Oracle.PriceAccess

/-!
# The price feed over a run

The contract keeps a sum and a count, not the prices they were formed from. The
history of a run does: every accepted submission is a quote, and the quotes since
the last restart of the sum are the ones it was formed from.
-/

namespace StellarKraal

open TransitionSystem (Transition HistoryVariable)

variable {asset : AssetContract}

/-- A recorded price and its time. -/
structure Quote where
  time : Nat
  price : Int
  deriving DecidableEq, Repr

/-- The price a call records if it succeeds. -/
def Call.recordedPrice : Call → Option Int
  | .submitPrice _ price => some price
  | .submitOraclePrices _ prices => (medianOf prices).toOption
  | _ => none

/-- The quote a step adds to the feed. -/
def quoteOf (client : TokenClient) (t : Transition World Action) : Option Quote :=
  match t.action with
  | .call env call =>
      if (call.run client env t.before).isOk then
        call.recordedPrice.map fun price => ⟨t.before.timestamp, price⟩
      else none
  | .tick _ => none
  | .tokenActivity _ => none

/-- All quotes of a run, oldest first. -/
def quotes (client : TokenClient) (steps : List (Transition World Action)) : List Quote :=
  steps.filterMap (quoteOf client)

/-- A price recorded now starts a new sum. -/
def RestartsAverage (w : World) : Prop :=
  w.getOr (·.lastPriceTime) 0 = 0 ∨
    w.timestamp - w.getOr (·.lastPriceTime) 0 > w.getOr (·.twapWindow) 3600

instance (w : World) : Decidable (RestartsAverage w) := by
  unfold RestartsAverage
  infer_instance

theorem nextTwap_of_restart {w : World} (price : Int) (h : RestartsAverage w) :
    nextTwap w price = (price, 1) :=
  if_pos h

theorem nextTwap_of_extend {w : World} (price : Int) (h : ¬ RestartsAverage w) :
    nextTwap w price = (I128.addOrMax (w.getOr (·.twapSum) 0) price,
      U32.saturatingAdd (w.getOr (·.twapCount) 0) 1) :=
  if_neg h

/-- The quotes in the running sum: those since its last restart. -/
def contributing (client : TokenClient) : HistoryVariable World Action (List Quote) where
  start := []
  update sum t :=
    match quoteOf client t with
    | none => sum
    | some quote => if RestartsAverage t.before then [quote] else sum ++ [quote]

/-! ## What a step does to the feed -/

/-- The fields of the feed: what submissions write, and the window. -/
def Config.feed (c : Config) : PriceRecord × Nat := (c.priceRecord, c.twapWindow)

/-- A submission records its quote, the initialisation opens an empty feed, and
everything else leaves the feed alone. -/
inductive FeedStep (client : TokenClient) (t : Transition World Action) : Prop
  | records {c : Config} {quote : Quote} {twap : Int} (hquote : quoteOf client t = some quote)
      (hc : t.before.config = some c) (htime : quote.time = t.before.timestamp)
      (hpos : 0 < quote.price)
      (htwap : I128.checkedDiv (nextTwap t.before quote.price).1
        (nextTwap t.before quote.price).2 = some twap)
      (h : t.after.config = some (c.withPrice t.before quote.price twap))
  | opens {c : Config} (hquote : quoteOf client t = none) (hnone : t.before.config = none)
      (hc : t.after.config = some c) (hfeed : c.feed = (⟨0, 0, 0, 0, 0⟩, 3600))
  | keeps (hquote : quoteOf client t = none)
      (h : t.after.config.map Config.feed = t.before.config.map Config.feed)

theorem quoteOf_executed {t : Transition World Action} {env : Env} {call : Call}
    (h : Executed asset t env call) :
    quoteOf asset.client t =
      call.recordedPrice.map fun price => ⟨t.before.timestamp, price⟩ := by
  simp [quoteOf, h.action, h.isOk]

theorem quoteOf_idle {t : Transition World Action}
    (h : ∀ env call, ¬ Executed asset t env call)
    (hstep : (protocol asset).Step t.before t.action t.after) :
    quoteOf asset.client t = none := by
  cases haction : t.action with
  | tick | tokenActivity => simp [quoteOf, haction]
  | call env call => simp [quoteOf, haction, not_isOk_of_idle h hstep haction]

theorem ConfigEffect.feed {env : Env} {w w' : World} {call : Call}
    (h : ConfigEffect env w call w') (hnot : call.recordedPrice = none)
    (hprices : ∀ submitter prices, call ≠ .submitOraclePrices submitter prices) :
    (∃ c, w.config = none ∧ w'.config = some c ∧ c.feed = (⟨0, 0, 0, 0, 0⟩, 3600)) ∨
      w'.config.map Config.feed = w.config.map Config.feed := by
  cases h with
  | initialized hnone _ _ _ h => exact .inl ⟨_, hnone, h, rfl⟩
  | ltv hadmin _ _ h | liqThr hadmin _ _ h | closeFactor hadmin _ _ h | fees hadmin _ _ h
  | oracle hadmin h =>
      rw [h, hadmin.config]
      exact .inr rfl
  | admin hc _ _ h =>
      rw [h, hc]
      exact .inr rfl
  | prices => exact absurd rfl (hprices _ _)
  | price => contradiction
  | same h => exact .inr (by rw [h])

theorem feed_step {t : Transition World Action}
    (hstep : (protocol asset).Step t.before t.action t.after) : FeedStep asset.client t := by
  rcases protocol_step_cases hstep with
    ⟨env, call, hexec⟩ | ⟨hidle, timestamp, ledger, -, -, hafter⟩
  · have hquote := quoteOf_executed hexec
    by_cases hprices : ∃ submitter prices, call = .submitOraclePrices submitter prices
    · obtain ⟨submitter, prices, rfl⟩ := hprices
      obtain ⟨report, hrun⟩ := Call.run_submitOraclePrices hexec.run
      obtain ⟨c, hadmissible⟩ := submitOraclePrices_admissible hrun
      obtain ⟨median, hmedian, hpos, -⟩ :=
        medianOf_succeeds hadmissible.nonempty hadmissible.fits hadmissible.valid
      obtain ⟨c, twap, hc, -, -, -, -, hmedian', htwap, hworld⟩ := submitOraclePrices_ok hrun
      obtain rfl := Except.ok.inj (hmedian.symm.trans hmedian')
      simp only [Call.recordedPrice, hmedian, Except.toOption, Option.map_some] at hquote
      exact .records hquote hc rfl hpos htwap (congrArg World.config hworld)
    · by_cases hprice : ∃ oracle price, call = .submitPrice oracle price
      · obtain ⟨oracle, price, rfl⟩ := hprice
        obtain ⟨c, twap, hc, -, -, hpos, htwap, hworld⟩ := submitPrice_ok hexec.run
        exact .records hquote hc rfl hpos htwap (congrArg World.config hworld)
      · have hnot : call.recordedPrice = none := by
          cases call with
          | submitPrice oracle price => exact absurd ⟨oracle, price, rfl⟩ hprice
          | submitOraclePrices submitter prices => exact absurd ⟨submitter, prices, rfl⟩ hprices
          | _ => rfl
        rw [hnot, Option.map_none] at hquote
        rcases (Call.run_configEffect hexec.run).feed hnot
            (fun submitter prices heq => hprices ⟨submitter, prices, heq⟩) with
          ⟨c, hnone, hc, hfeed⟩ | hsame
        · exact .opens hquote hnone hc hfeed
        · exact .keeps hquote hsame
  · exact .keeps (quoteOf_idle hidle hstep) (by rw [hafter])

/-! ## What the feed stores -/

/-- The stored feed, computed from the quotes in its running sum. -/
structure FeedOf (sum : List Quote) (c : Config) : Prop where
  window : c.twapWindow = 3600
  sum_eq : c.twapSum = (sum.map Quote.price).foldl I128.addOrMax 0
  count_eq : c.twapCount = min sum.length U32.MAX
  time_eq : c.lastPriceTime = ((sum.getLast?).map Quote.time).getD 0
  price_eq : c.twapPrice = c.twapSum.tdiv c.twapCount
  positive : ∀ quote ∈ sum, 0 < quote.price

theorem FeedOf.of_empty {c : Config} (h : c.feed = (⟨0, 0, 0, 0, 0⟩, 3600)) : FeedOf [] c := by
  simp only [Config.feed, Config.priceRecord, Prod.mk.injEq, PriceRecord.mk.injEq] at h
  obtain ⟨⟨-, htime, hsum, hcount, hprice⟩, hwindow⟩ := h
  exact ⟨hwindow, hsum, by simp [hcount], htime, by simp [hprice, hsum, hcount], by simp⟩

/-- The feed depends on its own fields only. -/
theorem FeedOf.congr {sum : List Quote} {c c' : Config} (h : FeedOf sum c)
    (heq : c'.feed = c.feed) : FeedOf sum c' := by
  simp only [Config.feed, Config.priceRecord, Prod.mk.injEq, PriceRecord.mk.injEq] at heq
  obtain ⟨⟨-, htime, hsum, hcount, hprice⟩, hwindow⟩ := heq
  exact ⟨hwindow.trans h.window, hsum.trans h.sum_eq, hcount.trans h.count_eq,
    htime.trans h.time_eq, by rw [hprice, h.price_eq, hsum, hcount], h.positive⟩

section Recording

variable {w : World} {c : Config} {sum : List Quote} {quote : Quote} {twap : Int}

/-- The first quote of a new sum. -/
theorem FeedOf.restart (h : FeedOf sum c) (htime : quote.time = w.timestamp)
    (hpos : 0 < quote.price) (hrestart : RestartsAverage w)
    (htwap : I128.checkedDiv (nextTwap w quote.price).1 (nextTwap w quote.price).2 = some twap) :
    FeedOf [quote] (c.withPrice w quote.price twap) := by
  obtain ⟨-, hfits, hdiv⟩ := I128.checkedDiv_eq_some.mp htwap
  rw [nextTwap_of_restart _ hrestart, Nat.cast_one, Int.tdiv_one] at hfits
  refine ⟨h.window, ?_, ?_, htime.symm, hdiv.symm, by simpa using hpos⟩
  · simp [Config.withPrice, nextTwap_of_restart _ hrestart, I128.addOrMax, I128.checkedAdd,
      I128.narrow_of_mem hfits.1 hfits.2]
  · simp [Config.withPrice, nextTwap_of_restart _ hrestart, U32.MAX]

/-- One more quote in the sum. -/
theorem FeedOf.extend (h : FeedOf sum c) (hc : w.config = some c)
    (htime : quote.time = w.timestamp) (hpos : 0 < quote.price) (hextend : ¬ RestartsAverage w)
    (htwap : I128.checkedDiv (nextTwap w quote.price).1 (nextTwap w quote.price).2 = some twap) :
    FeedOf (sum ++ [quote]) (c.withPrice w quote.price twap) := by
  obtain ⟨-, -, hdiv⟩ := I128.checkedDiv_eq_some.mp htwap
  refine ⟨h.window, ?_, ?_, by simp [Config.withPrice, htime], hdiv.symm, ?_⟩
  · simp [Config.withPrice, nextTwap_of_extend _ hextend, World.getOr, hc, h.sum_eq]
  · simp only [Config.withPrice, nextTwap_of_extend _ hextend, World.getOr, hc, Option.map_some,
      Option.getD_some, h.count_eq, U32.saturatingAdd, List.length_append, List.length_singleton]
    omega
  · intro other hother
    rcases List.mem_append.mp hother with hother | hother
    · exact h.positive other hother
    · obtain rfl := List.mem_singleton.mp hother
      exact hpos

end Recording

/-- What an initialised contract stores, and nothing before. -/
def FeedSound (sum : List Quote) (w : World) : Prop :=
  (w.config = none → sum = []) ∧ ∀ c, w.config = some c → FeedOf sum c

theorem FeedStep.feedSound {client : TokenClient} {t : Transition World Action}
    {sum : List Quote} (h : FeedStep client t) (hsound : FeedSound sum t.before) :
    FeedSound ((contributing client).update sum t) t.after := by
  cases h with
  | @records c quote twap hquote hc htime hpos htwap h =>
      refine ⟨fun hnone => by simp [h] at hnone, fun c' hc' => ?_⟩
      obtain rfl := Option.mem_unique h hc'
      simp only [contributing, hquote]
      split
      next hrestart => exact (hsound.2 c hc).restart htime hpos hrestart htwap
      next hextend => exact (hsound.2 c hc).extend hc htime hpos hextend htwap
  | opens hquote hnone hc hfeed =>
      simp only [contributing, hquote, hsound.1 hnone]
      refine ⟨fun _ => rfl, fun c' hc' => ?_⟩
      obtain rfl := Option.mem_unique hc hc'
      exact .of_empty hfeed
  | keeps hquote h =>
      simp only [contributing, hquote]
      refine ⟨fun hnone => hsound.1 (by simpa [hnone] using h.symm), fun c' hc' => ?_⟩
      rw [hc', Option.map_some] at h
      obtain ⟨c, hc, heq⟩ := Option.map_eq_some_iff.mp h.symm
      exact (hsound.2 c hc).congr heq.symm

/-- The run lemma: sum, count, time and average are those of the contributing quotes. -/
theorem run_feedSound {start w : World} {steps : List (Transition World Action)}
    (hstart : (protocol asset).Initial start) (hrun : (protocol asset).Run start steps w) :
    FeedSound ((contributing asset.client).after steps) w := by
  apply hrun.history_invariant (contributing asset.client) (fun _ => True) (fun _ _ => trivial)
  · obtain ⟨timestamp, ledger, rfl⟩ := hstart
    exact ⟨fun _ => rfl, fun c hc => nomatch hc⟩
  · intro sum w a w' hsound hstep _
    exact (feed_step (t := ⟨w, a, w'⟩) hstep).feedSound hsound

end StellarKraal
