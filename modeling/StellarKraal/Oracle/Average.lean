import StellarKraal.Foundation.Averages
import StellarKraal.Oracle.Window

/-!
# The running average as an average

The sum saturates at `i128::MAX` and the count at `u32::MAX`, each on its own. The
stored price is an average of what was submitted exactly as long as neither limit
pushes the quotient out of the range of the prices.
-/

namespace StellarKraal

open TransitionSystem (Transition)

variable {asset : AssetContract}

/-- Saturating additions of positive prices cut the exact sum off once. -/
theorem foldl_addOrMax {prices : List Int} (hpos : ∀ p ∈ prices, 0 < p) :
    prices.foldl I128.addOrMax 0 = min prices.sum I128.MAX := by
  induction prices using List.reverseRecOn with
  | nil => rfl
  | append_singleton prices price ih =>
      obtain ⟨hprices, hprice⟩ := List.forall_mem_append.mp hpos
      have hnonneg : 0 ≤ prices.sum := List.sum_nonneg fun p hp => (hprices p hp).le
      have hprice := hprice price List.mem_cons_self
      have hmax := I128.MAX_pos
      have hmin : I128.MIN ≤ 0 := by decide
      rw [List.foldl_append, ih hprices, List.sum_append, List.sum_singleton]
      simp only [List.foldl_cons, List.foldl_nil, I128.addOrMax, I128.checkedAdd, I128.narrow]
      split <;> simp only [Option.getD_some, Option.getD_none] <;> omega

/-- The average lies between two of the prices. -/
def AverageBetween (prices : List Int) (average : Int) : Prop :=
  (∃ price ∈ prices, price ≤ average) ∧ ∃ price ∈ prices, average ≤ price

/-- The prices of a sum are small enough for the two limits: the multiple of one of
them by the stored count fits, and the count does, or the sum does not outgrow it. -/
structure WithinLimits (prices : List Int) : Prop where
  multiple_fits : ∃ price ∈ prices, price * (min prices.length U32.MAX : Nat) ≤ I128.MAX
  count_fits : prices.length ≤ U32.MAX ∨
    ∃ price ∈ prices, min prices.sum I128.MAX < (price + 1) * U32.MAX

theorem FeedOf.averageBetween_iff {sum : List Quote} {c : Config} (h : FeedOf sum c)
    (hcount : 0 < c.twapCount) :
    AverageBetween (sum.map Quote.price) c.twapPrice ↔ WithinLimits (sum.map Quote.price) := by
  have hpos : ∀ price ∈ sum.map Quote.price, 0 < price := by
    intro price hprice
    obtain ⟨quote, hquote, rfl⟩ := List.mem_map.mp hprice
    exact h.positive quote hquote
  have hlen : c.twapCount = min (sum.map Quote.price).length U32.MAX := by
    rw [h.count_eq, List.length_map]
  have htotal : c.twapSum = min (sum.map Quote.price).sum I128.MAX :=
    h.sum_eq.trans (foldl_addOrMax hpos)
  generalize sum.map Quote.price = prices at *
  have hne : prices ≠ [] := by
    rintro rfl
    simp [hlen] at hcount
  have hnonneg : ∀ price ∈ prices, 0 ≤ price := fun price hprice => (hpos price hprice).le
  have hlower := List.exists_le_average_iff hne hnonneg I128.MAX_pos.le hcount
    (hlen ▸ min_le_left _ _) htotal
  have hupper := List.exists_average_le_iff hne (by decide) hlen
    (htotal ▸ le_min (List.sum_nonneg hnonneg) I128.MAX_pos.le) (htotal ▸ min_le_left _ _)
  rw [AverageBetween, h.price_eq, hlower, hupper, hlen, htotal]
  exact ⟨fun ⟨hmultiple, hcounted⟩ => ⟨hmultiple, hcounted⟩,
    fun ⟨hmultiple, hcounted⟩ => ⟨hmultiple, hcounted⟩⟩

/-- At any moment of a life of the contract with prices in its sum, the average is
one exactly when the prices are within the limits. -/
theorem average_between_iff {start w : World} {steps : List (Transition World Action)}
    {c : Config} (hstart : (protocol asset).Initial start)
    (hrun : (protocol asset).Run start steps w) (hc : w.config = some c)
    (hcount : 0 < c.twapCount) :
    AverageBetween (((contributing asset.client).after steps).map Quote.price) c.twapPrice ↔
      WithinLimits (((contributing asset.client).after steps).map Quote.price) :=
  ((run_feedSound hstart hrun).2 c hc).averageBetween_iff hcount

/-- Prices below `MAX_PRICE` are within the limits until the count is exhausted. -/
theorem WithinLimits.of_bounded {prices : List Int} (hne : prices ≠ [])
    (hprices : ∀ p ∈ prices, p < maxPrice) (hlen : prices.length ≤ U32.MAX) :
    WithinLimits prices := by
  refine ⟨?_, .inl hlen⟩
  obtain ⟨price, hprice⟩ := List.exists_mem_of_ne_nil prices hne
  refine ⟨price, hprice, ?_⟩
  have hbound := hprices price hprice
  have hcap : maxPrice = 1000000000000000000 := rfl
  have hmax : I128.MAX = 170141183460469231731687303715884105727 := rfl
  have hcount : U32.MAX = 4294967295 := rfl
  rw [min_eq_left hlen]
  have hlen : (prices.length : Int) ≤ 4294967295 := by exact_mod_cast hlen
  have hnonneg : (0 : Int) ≤ prices.length := Int.natCast_nonneg _
  rw [hcap] at hbound
  nlinarith

/-- Three prices within an hour. -/
theorem sample_average_between :
    ∃ steps w c, (protocol .standard).Run Sample.world steps w ∧ w.config = some c ∧
      c.twapPrice = 233 ∧
      (AverageBetween (((contributing AssetContract.standard.client).after steps).map
          Quote.price) c.twapPrice ↔
        WithinLimits (((contributing AssetContract.standard.client).after steps).map
          Quote.price)) := by
  have hrun : (protocol .standard).Run Sample.world _ _ := Run.of_script
    ([Sample.initialization 6000 8000] ++ Sample.quoted 1 100 ++ Sample.quoted 1200 200 ++
      Sample.quoted 2400 400) rfl
  exact ⟨_, _, _, hrun, rfl, rfl, average_between_iff ⟨0, _, rfl⟩ hrun rfl (by decide)⟩

/-- The largest price twice: the sum is cut off, and the average is half of either. -/
theorem average_below_all_prices :
    ¬ ∀ (asset : AssetContract) (start w : World) (steps : List (Transition World Action))
      (c : Config), (protocol asset).Initial start → (protocol asset).Run start steps w →
        w.config = some c → 0 < c.twapCount →
          AverageBetween (((contributing asset.client).after steps).map Quote.price)
            c.twapPrice := by
  intro hall
  have hrun : (protocol .standard).Run Sample.world _ _ := Run.of_script
    ([Sample.initialization 6000 8000] ++ Sample.quoted 1 I128.MAX ++
      Sample.quoted 2 I128.MAX) rfl
  obtain ⟨⟨price, hprice, hle⟩, -⟩ := hall .standard _ _ _ _ ⟨0, _, rfl⟩ hrun rfl (by decide)
  obtain rfl : price = I128.MAX := by
    rcases List.mem_cons.mp hprice with rfl | hprice
    · rfl
    · exact List.mem_singleton.mp hprice
  exact absurd hle (by decide)

end StellarKraal
