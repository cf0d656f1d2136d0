import StellarKraal.Oracle.Average
import StellarKraal.Oracle.Staleness

/-!
# Repeating a price

A price enters the sum once for every time it is submitted, however little time
lies between two submissions. Repeating the last price in the same ledger therefore
moves the average towards it, unless the average's remainder absorbs the difference.
-/

namespace StellarKraal

open TransitionSystem (Transition)

variable {asset : AssetContract} {w w' : World} {price : Int}

/-- One successful submission, through either entry point, that records `price`. -/
def Records (asset : AssetContract) (price : Int) (w w' : World) : Prop :=
  ∃ env call, Call.recordedPrice call = some price ∧ call.run asset.client env w = .ok w'

/-- So many submissions of `price`, one after another. -/
inductive Repeats (asset : AssetContract) (price : Int) : Nat → World → World → Prop
  | zero (w : World) : Repeats asset price 0 w w
  | succ {k : Nat} {w w' w'' : World} (prior : Repeats asset price k w w')
      (last : Records asset price w' w'') : Repeats asset price (k + 1) w w''

/-! ## The sum after a repetition -/

/-- The quote that a submission of `price` leaves now. -/
def World.quote (w : World) (price : Int) : Quote := ⟨w.timestamp, price⟩

theorem Records.timestamp (h : Records asset price w w') : w'.timestamp = w.timestamp := by
  obtain ⟨env, call, -, hrun⟩ := h
  exact (Call.run_bookEffect hrun).timestamp

/-- A submission restarts the sum or adds to it. -/
theorem Records.feedSound {sum : List Quote} (h : Records asset price w w')
    (hsound : FeedSound sum w) :
    FeedSound (if RestartsAverage w then [w.quote price] else sum ++ [w.quote price]) w' := by
  obtain ⟨env, call, hprice, hrun⟩ := h
  have hexec : Executed asset ⟨w, .call env call, w'⟩ env call := ⟨rfl, hrun⟩
  have hstep : (protocol asset).Step w (.call env call) w' := by
    simp [protocol, World.invoke, hrun]
  have hquote : quoteOf asset.client ⟨w, .call env call, w'⟩ = some (w.quote price) := by
    rw [quoteOf_executed hexec, hprice]
    rfl
  have hafter := (feed_step (t := ⟨w, .call env call, w'⟩) hstep).feedSound hsound
  simpa only [contributing, hquote] using hafter

theorem Records.initialized (h : Records asset price w w') : ∃ c, w'.config = some c := by
  obtain ⟨env, call, hprice, hrun⟩ := h
  cases call with
  | submitPrice oracle price =>
      obtain ⟨c, twap, -, -, -, -, -, rfl⟩ := submitPrice_ok hrun
      exact ⟨_, rfl⟩
  | submitOraclePrices submitter prices =>
      obtain ⟨report, hrun⟩ := Call.run_submitOraclePrices hrun
      obtain ⟨c, twap, -, -, -, -, -, -, -, rfl⟩ := submitOraclePrices_ok hrun
      exact ⟨_, rfl⟩
  | _ => simp [Call.recordedPrice] at hprice

/-- Where the sum's last quote is of the current ledger, the next one does not restart
it, unless ledger times are still zero. -/
theorem restartsAverage_now {sum : List Quote} {c : Config} (hc : w.config = some c)
    (h : FeedOf (sum ++ [w.quote price]) c) : RestartsAverage w ↔ w.timestamp = 0 := by
  have hlast : c.lastPriceTime = w.timestamp := by
    rw [h.time_eq, List.getLast?_concat]
    rfl
  simp only [RestartsAverage, World.getOr, hc, Option.map_some, Option.getD_some, hlast]
  omega

/-- The sum ends in the repeated price, once for the first submission and once for each
repetition. -/
theorem Repeats.feedSound {sum : List Quote} {k : Nat} (h : Repeats asset price k w w')
    (hsound : FeedSound (sum ++ [w.quote price]) w) (hinit : ∃ c, w.config = some c)
    (htime : w.timestamp ≠ 0) :
    FeedSound (sum ++ [w.quote price] ++ List.replicate k (w.quote price)) w' ∧
      (∃ c, w'.config = some c) ∧ w'.timestamp = w.timestamp := by
  induction h with
  | zero w => simpa using ⟨hsound, hinit⟩
  | @succ k w w' w'' prior last ih =>
      obtain ⟨hprior, ⟨c, hc⟩, hnow⟩ := ih hsound hinit htime
      have hquote : w'.quote price = w.quote price := by rw [World.quote, hnow, World.quote]
      have hgroup : sum ++ [w.quote price] ++ List.replicate k (w.quote price) =
          sum ++ List.replicate k (w.quote price) ++ [w'.quote price] := by
        rw [hquote, List.append_assoc, List.append_assoc, ← List.replicate_succ',
          List.singleton_append, ← List.replicate_succ]
      have hextend : ¬ RestartsAverage w' := by
        rw [restartsAverage_now hc (hgroup ▸ hprior.2 c hc), hnow]
        exact htime
      have hafter := last.feedSound hprior
      rw [if_neg hextend, hquote, List.append_assoc, ← List.replicate_succ'] at hafter
      exact ⟨hafter, last.initialized, last.timestamp.trans hnow⟩

/-- At time zero each quote stands alone. -/
theorem Repeats.feedSound_alone {k : Nat} (h : Repeats asset price k w w')
    (hsound : FeedSound [w.quote price] w) (hinit : ∃ c, w.config = some c)
    (htime : w.timestamp = 0) :
    FeedSound [w.quote price] w' ∧ (∃ c, w'.config = some c) ∧ w'.timestamp = 0 := by
  induction h with
  | zero w => exact ⟨hsound, hinit, htime⟩
  | @succ k w w' w'' prior last ih =>
      obtain ⟨hprior, ⟨c, hc⟩, hnow⟩ := ih hsound hinit htime
      have hquote : w'.quote price = w.quote price := by
        rw [World.quote, hnow, World.quote, htime]
      have hrestart : RestartsAverage w' := by
        have hlast : FeedOf ([] ++ [w'.quote price]) c := hquote ▸ hprior.2 c hc
        rw [restartsAverage_now hc hlast]
        exact hnow
      have hafter := last.feedSound hprior
      rw [if_pos hrestart, hquote] at hafter
      exact ⟨hafter, last.initialized, last.timestamp.trans hnow⟩

/-! ## The average after a repetition -/

/-- What the average cuts off the sum. -/
def Config.averageRemainder (c : Config) : Int := c.twapSum - c.twapPrice * c.twapCount

/-- The repetitions that the count still takes. -/
def Config.countedRepeats (c : Config) (k : Nat) : Int :=
  (min (c.twapCount + k) U32.MAX : Nat) - c.twapCount

/-- What the repetitions add to the sum beyond the average for each of them. -/
def Config.repeatDrift (c : Config) (price : Int) (k : Nat) : Int :=
  min (c.twapSum + k * price) I128.MAX - c.twapSum - c.twapPrice * c.countedRepeats k

/-- The remainder of the average absorbs the repetitions: with what they add it is
still one. -/
def Config.Absorbs (c : Config) (price : Int) (k : Nat) : Prop :=
  0 ≤ c.averageRemainder + c.repeatDrift price k ∧
    c.averageRemainder + c.repeatDrift price k < c.twapCount + c.countedRepeats k

/-- Before either limit, `k` repetitions of a price below the average take `k` times
the difference from the remainder, and those of a price above it add to it. -/
theorem Config.absorbs_iff {c : Config} {k : Nat} (hcount : c.twapCount + k ≤ U32.MAX)
    (hsum : c.twapSum + k * price ≤ I128.MAX) :
    c.Absorbs price k ↔ k * (c.twapPrice - price) ≤ c.averageRemainder ∧
      k * (price - c.twapPrice - 1) < c.twapCount - c.averageRemainder := by
  have hcounted : c.countedRepeats k = k := by
    rw [countedRepeats, min_eq_left hcount]
    omega
  have hdrift : c.repeatDrift price k = k * price - k * c.twapPrice := by
    rw [repeatDrift, min_eq_left hsum, hcounted]
    ring
  rw [Absorbs, hdrift, hcounted, mul_sub, mul_sub, mul_sub]
  constructor
  · rintro ⟨hlower, hupper⟩
    constructor <;> linarith
  · rintro ⟨hlower, hupper⟩
    constructor <;> linarith

theorem FeedOf.twapSum_nonneg {sum : List Quote} {c : Config} (h : FeedOf sum c) :
    0 ≤ c.twapSum := by
  have hpos : ∀ p ∈ sum.map Quote.price, 0 < p := by
    intro p hp
    obtain ⟨quote, hquote, rfl⟩ := List.mem_map.mp hp
    exact h.positive quote hquote
  rw [h.sum_eq, foldl_addOrMax hpos]
  exact le_min (List.sum_nonneg fun p hp => (hpos p hp).le) I128.MAX_pos.le

/-- Sum and count after `k` more quotes of the same price. -/
theorem FeedOf.repeated {sum : List Quote} {quote : Quote} {k : Nat} {c c' : Config}
    (h : FeedOf (sum ++ [quote]) c)
    (h' : FeedOf (sum ++ [quote] ++ List.replicate k quote) c') :
    c'.twapSum = min (c.twapSum + k * quote.price) I128.MAX ∧
      c'.twapCount = min (c.twapCount + k) U32.MAX := by
  have hprice : 0 < quote.price := h.positive quote (by simp)
  have hmore : 0 ≤ (k : Int) * quote.price := by positivity
  have hpos : ∀ {quotes : List Quote}, (∀ q ∈ quotes, 0 < q.price) →
      ∀ p ∈ quotes.map Quote.price, 0 < p := by
    intro quotes hquotes p hp
    obtain ⟨q, hq, rfl⟩ := List.mem_map.mp hp
    exact hquotes q hq
  constructor
  · rw [h'.sum_eq, foldl_addOrMax (hpos h'.positive), h.sum_eq, foldl_addOrMax (hpos h.positive),
      List.map_append, List.sum_append, List.map_replicate, List.sum_replicate, nsmul_eq_mul]
    omega
  · rw [h'.count_eq, h.count_eq, List.length_append, List.length_replicate]
    omega

/-- The average stays if and only if its remainder absorbs the repetitions. -/
theorem FeedOf.twapPrice_eq_iff {sum : List Quote} {quote : Quote} {k : Nat} {c c' : Config}
    (h : FeedOf (sum ++ [quote]) c)
    (h' : FeedOf (sum ++ [quote] ++ List.replicate k quote) c') :
    c'.twapPrice = c.twapPrice ↔ c.Absorbs quote.price k := by
  obtain ⟨hsum, hcount⟩ := h.repeated h'
  have hpositive : 0 < c'.twapCount := by
    rw [h'.count_eq]
    exact lt_min (by simp) (by decide)
  have hcounted : (c'.twapCount : Int) = c.twapCount + c.countedRepeats k := by
    rw [Config.countedRepeats, hcount]
    ring
  have hremainder : c'.twapSum - c.twapPrice * c'.twapCount =
      c.averageRemainder + c.repeatDrift quote.price k := by
    rw [Config.averageRemainder, Config.repeatDrift, ← hsum, hcounted]
    ring
  rw [h'.price_eq, Int.tdiv_eq_iff h'.twapSum_nonneg (by exact_mod_cast hpositive),
    Config.Absorbs, ← hremainder, ← hcounted]
  constructor
  · rintro ⟨hlower, hupper⟩
    constructor <;> linarith
  · rintro ⟨hlower, hupper⟩
    constructor <;> linarith

/-- The average is a function of the quotes in the sum. -/
theorem FeedOf.twapPrice_congr {sum : List Quote} {c c' : Config} (h : FeedOf sum c)
    (h' : FeedOf sum c') : c'.twapPrice = c.twapPrice := by
  rw [h.price_eq, h'.price_eq, h.sum_eq, h'.sum_eq, h.count_eq, h'.count_eq]

theorem restartsAverage_at_zero (hreach : (protocol asset).Reachable w) (htime : w.timestamp = 0) :
    RestartsAverage w := by
  refine .inl ?_
  cases hc : w.config with
  | none => simp [World.getOr, hc]
  | some c =>
      obtain ⟨hdated, -⟩ := reachable_pricesDated hreach c hc
      rw [htime, Nat.le_zero] at hdated
      simpa [World.getOr, hc] using hdated

/-- After a first submission of `price` in some reachable state, `k` repetitions in
the same ledger leave the average alone exactly if the ledger time is zero or the
remainder of the average absorbs them. -/
theorem repetition_keeps_average_iff {w₁ w₂ : World} {c₁ c₂ : Config} {k : Nat}
    (hreach : (protocol asset).Reachable w) (hfirst : Records asset price w w₁)
    (hrepeated : Repeats asset price k w₁ w₂) (hc₁ : w₁.config = some c₁)
    (hc₂ : w₂.config = some c₂) :
    c₂.twapPrice = c₁.twapPrice ↔ w.timestamp = 0 ∨ c₁.Absorbs price k := by
  obtain ⟨start, steps, hstart, hrun⟩ := hreach
  have hsound := hfirst.feedSound (run_feedSound hstart hrun)
  have hquote : w₁.quote price = w.quote price := by rw [World.quote, hfirst.timestamp, World.quote]
  have hinit : ∃ c, w₁.config = some c := ⟨c₁, hc₁⟩
  -- The sum the repetitions start from ends in the quote of the first submission.
  obtain ⟨earlier, hearlier⟩ : ∃ earlier, FeedSound (earlier ++ [w₁.quote price]) w₁ := by
    rw [hquote]
    split at hsound
    · exact ⟨[], hsound⟩
    · exact ⟨_, hsound⟩
  by_cases htime : w.timestamp = 0
  · refine iff_of_true ?_ (.inl htime)
    rw [if_pos (restartsAverage_at_zero ⟨start, steps, hstart, hrun⟩ htime), ← hquote] at hsound
    obtain ⟨hafter, -, -⟩ := hrepeated.feedSound_alone hsound hinit (hfirst.timestamp.trans htime)
    exact (hsound.2 c₁ hc₁).twapPrice_congr (hafter.2 c₂ hc₂)
  · rw [or_iff_right htime]
    obtain ⟨hafter, -, -⟩ := hrepeated.feedSound hearlier hinit
      (by rw [hfirst.timestamp]; exact htime)
    exact (hearlier.2 c₁ hc₁).twapPrice_eq_iff (hafter.2 c₂ hc₂)

/-- The sample oracle submits once more. -/
def Sample.submitted (price : Int) (w : World) : World :=
  w.invoke AssetContract.standard.client ⟨[Sample.oracle]⟩ (.submitPrice Sample.oracle price)

theorem records_submitted (h : ((Call.submitPrice Sample.oracle price).run
    AssetContract.standard.client ⟨[Sample.oracle]⟩ w).isOk = true) :
    Records .standard price w (Sample.submitted price w) :=
  ⟨_, _, rfl, (Executed.of_isOk h).run⟩

/-- A quote that opens a sum may be repeated as often as the limits allow. -/
theorem sample_repetition_keeps_average :
    ∃ w w₁ w₂ c₁ c₂, (protocol .standard).Reachable w ∧ Records .standard 500 w w₁ ∧
      Repeats .standard 500 2 w₁ w₂ ∧ w₁.config = some c₁ ∧ w₂.config = some c₂ ∧
      c₂.twapPrice = 500 ∧
      (c₂.twapPrice = c₁.twapPrice ↔ w.timestamp = 0 ∨ c₁.Absorbs 500 2) := by
  have hreach := Sample.after_reachable
    ([Sample.initialization 6000 8000] ++ Sample.quoted 1 100 ++ [.tick 7202])
  have hfirst : Records .standard 500 _ (Sample.submitted 500 (Sample.after
      ([Sample.initialization 6000 8000] ++ Sample.quoted 1 100 ++ [.tick 7202]))) :=
    records_submitted rfl
  have hrepeated := ((Repeats.zero _).succ (@records_submitted (Sample.submitted 500 (Sample.after
    ([Sample.initialization 6000 8000] ++ Sample.quoted 1 100 ++ [.tick 7202]))) 500 rfl)).succ
      (records_submitted rfl)
  exact ⟨_, _, _, _, _, hreach, hfirst, hrepeated, rfl, rfl, rfl,
    repetition_keeps_average_iff hreach hfirst hrepeated rfl rfl⟩

/-- Within the window of a price of 100, a price of 200 makes the average 150, and
submitting it again in the same second 166. -/
theorem repetition_moves_average :
    ¬ ∀ (asset : AssetContract) (price : Int) (k : Nat) (w w₁ w₂ : World) (c₁ c₂ : Config),
      (protocol asset).Reachable w → Records asset price w w₁ → Repeats asset price k w₁ w₂ →
        w₁.config = some c₁ → w₂.config = some c₂ → c₂.twapPrice = c₁.twapPrice := by
  intro hall
  have hreach := Sample.after_reachable
    ([Sample.initialization 6000 8000] ++ Sample.quoted 1 100 ++ [.tick 1200])
  have hsame := hall .standard 200 1 _ _ _ _ _ hreach (records_submitted rfl)
    ((Repeats.zero _).succ (records_submitted rfl)) rfl rfl
  exact absurd hsame (by decide)

end StellarKraal
