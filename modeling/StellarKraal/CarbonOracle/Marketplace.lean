import StellarKraal.CarbonOracle.Latest

/-!
# The cost of a purchase

The marketplace charges the median price for each credit, as the contract tells it that the
caller names. Where that is the oracle contract, and while most of the oracles that count are
honest, the others can neither move the cost out of what honest prices allow nor keep it from
being computed.
-/

namespace StellarKraal.CarbonOracle

open Except (refuseIf)
open OrderStatistics (Middle)
open TransitionSystem (Transition)

/-- What the contract at each address answers to `get_median_price`. -/
abbrev OracleClient := Address → Result Nat

/-- The product is a checked `u64` multiplication. -/
def calculatePurchaseCost (client : OracleClient) (oracleId : Address) (amount : Nat) :
    Result Nat := do
  let medianPrice ← client oracleId
  refuseIf (medianPrice * amount > U64.MAX) .trap
  return medianPrice * amount

/-- The oracles whose prices count. -/
def contributing (w : State) (s : Settings) : List Address :=
  s.oracles.filter fun oracle => (freshPrice w s.maxAgeLedgers oracle).isSome

/-- What the honest oracles submitted and is not too old lies between the two prices. -/
def HonestBetween (honest : Address → Bool) (low high : Nat)
    (steps : List (Transition State Action)) (w : State) (s : Settings) : Prop :=
  ∀ t ∈ steps, ∀ env oracle price, Executed t env (.submitPrice oracle price) →
    honest oracle = true → w.sequence ≤ t.before.sequence + s.maxAgeLedgers →
      low ≤ price ∧ price ≤ high

section Runs

variable {start w : State} {s : Settings} {steps : List (Transition State Action)}
  {oracle : Address} {honest : Address → Bool} {low high price amount : Nat}

/-- A price that counts was submitted by its oracle, in the window. -/
theorem exists_submission (hstart : system.Initial start) (hrun : system.Run start steps w)
    (hfresh : freshPrice w s.maxAgeLedgers oracle = some price) :
    ∃ t ∈ steps, ∃ env, Executed t env (.submitPrice oracle price) ∧
      w.sequence ≤ t.before.sequence + s.maxAgeLedgers := by
  unfold freshPrice at hfresh
  split at hfresh
  next price' ledgerSeq hstored =>
    split at hfresh
    next hwindow =>
      obtain rfl := Option.some.inj hfresh
      have hnone : start.prices.lookup oracle = none := by
        obtain ⟨sequence, rfl⟩ := hstart
        rfl
      obtain ⟨earlier, t, since, rfl, ⟨env, price, hexec, heq⟩, -⟩ := hrun.exists_origin
        (fun w => w.prices.lookup oracle)
        (fun t value => ∃ env price, Executed t env (.submitPrice oracle price) ∧
          value = (price, t.before.sequence)) (fun _ => True)
        (.of_initial hstart) hnone (fun w a w' _ step => by
          by_cases hsame : w'.prices.lookup oracle = w.prices.lookup oracle
          · exact .inl ⟨trivial, hsame⟩
          · rcases (step_authorized step).price oracle hsame with
              ⟨env, price, hexec, -, hset⟩ | ⟨hcleared, -⟩
            · exact .inr (.inr ⟨_, ⟨env, price, hexec, rfl⟩, hset⟩)
            · exact .inr (.inl hcleared)) hstored
      obtain ⟨rfl, rfl⟩ := Prod.mk.inj heq
      refine ⟨t, by simp, env, hexec, ?_⟩
      omega
    next => contradiction
  next => contradiction

theorem length_contributing : (contributing w s).length = (validPrices w s).length := by
  rw [contributing, validPrices, List.length_filterMap_eq_countP, List.countP_eq_length_filter]

/-- The prices of the honest are among those that count. -/
theorem countP_honest_le (hstart : system.Initial start) (hrun : system.Run start steps w)
    (hhonest : HonestBetween honest low high steps w s) :
    (contributing w s).countP honest ≤
      (validPrices w s).countP fun price => decide (low ≤ price ∧ price ≤ high) := by
  rw [contributing, validPrices, List.countP_filter, List.countP_filterMap]
  refine List.countP_mono_left fun oracle _ hcounts => ?_
  rw [Bool.and_eq_true, Option.isSome_iff_exists] at hcounts
  obtain ⟨htrusted, price, hfresh⟩ := hcounts
  obtain ⟨t, ht, env, hexec, hwindow⟩ := exists_submission hstart hrun hfresh
  simpa [hfresh] using hhonest t ht env oracle price hexec htrusted hwindow

/-- While most of the oracles that count are honest, a cost that is asked of their contract
lies between what the honest prices come to, and there is one where these are small enough to
compute with. -/
theorem purchase_cost_bounded {client : OracleClient} {oracleId : Address}
    (hclient : client oracleId = getMedianPrice w) (hstart : system.Initial start)
    (hrun : system.Run start steps w) (hs : w.settings = some s)
    (hhonest : HonestBetween honest low high steps w s)
    (hmajority : (contributing w s).length < 2 * (contributing w s).countP honest) :
    (∀ cost, calculatePurchaseCost client oracleId amount = .ok cost →
      low * amount ≤ cost ∧ cost ≤ high * amount) ∧
    ((contributing w s).length ≤ 20 →
      (contributing w s).length % 2 = 1 ∨ high + high ≤ U64.MAX → high * amount ≤ U64.MAX →
        ∃ cost, calculatePurchaseCost client oracleId amount = .ok cost) := by
  have hcounts := countP_honest_le hstart hrun hhonest
  rw [length_contributing] at hmajority ⊢
  have hne : validPrices w s ≠ [] := by
    intro hempty
    rw [hempty, List.countP_nil] at hcounts
    rw [hempty, List.length_nil] at hmajority
    omega
  obtain ⟨lower, upper, hmid⟩ := Middle.exists hne
  obtain ⟨⟨hlow, hlow'⟩, hhigh, hhigh'⟩ :=
    hmid.of_majority (hmajority.trans_le (Nat.mul_le_mul_left 2 hcounts))
  constructor
  · intro cost hcost
    simp only [calculatePurchaseCost, hclient, Except.bind_succeeds, Except.pure_succeeds] at hcost
    obtain ⟨m, hm, -, -, rfl⟩ := hcost
    obtain ⟨s', hs', lower', upper', hmid', rfl⟩ := getMedianPrice_ok hm
    obtain rfl := Option.mem_unique hs hs'
    obtain ⟨rfl, rfl⟩ := hmid.unique hmid'
    exact ⟨Nat.mul_le_mul_right amount (by omega), Nat.mul_le_mul_right amount (by omega)⟩
  · intro hfew hfits hproduct
    have hmedian : getMedianPrice w = .ok ((lower + upper) / 2) := by
      rw [getMedianPrice_eq hs hfew hmid, if_pos (hfits.imp_right fun h => by omega)]
    have hcost : (lower + upper) / 2 * amount ≤ high * amount :=
      Nat.mul_le_mul_right amount (by omega)
    refine ⟨(lower + upper) / 2 * amount, ?_⟩
    rw [calculatePurchaseCost, hclient, hmedian, Except.bind_of_ok,
      Except.refuseIf_of_not (not_lt.mpr (hcost.trans hproduct))]
    rfl

end Runs

namespace Sample

/-- Two honest oracles, and one whose price is far off. -/
def outlier : List Action :=
  [initialization 100, registration 1, registration 2, registration 3, submission 1 1000,
    submission 2 1050, submission 3 5000]

def trusted (who : Address) : Bool := who ≠ oracle 3

/-- Where the oracle contract is. -/
def oracleId : Address := .contract 77

/-- Nothing else answers. -/
def client : OracleClient := fun contractId =>
  if contractId = oracleId then getMedianPrice (after outlier) else .error .trap

end Sample

/-- Three credits cost three times an honest price. -/
theorem sample_purchase_cost_bounded :
    ∃ cost, calculatePurchaseCost Sample.client Sample.oracleId 3 = .ok cost ∧
      3000 ≤ cost ∧ cost ≤ 3150 := by
  have hreplay : TransitionSystem.replay State.perform { sequence := 100 } Sample.outlier =
      some (Sample.transitions Sample.outlier, Sample.after Sample.outlier) := rfl
  have hrun := TransitionSystem.Run.of_replay (fun _ _ _ => step_of_perform) hreplay
  have hhonest : ∀ s, HonestBetween Sample.trusted 1000 1050
      (Sample.transitions Sample.outlier) (Sample.after Sample.outlier) s := by
    intro s t ht env oracle price hexec htrusted _
    have hmem := TransitionSystem.action_mem_of_replay hreplay t ht
    rw [hexec.action] at hmem
    simp only [Sample.outlier, Sample.initialization, Sample.registration, Sample.submission,
      List.mem_cons, Action.call.injEq, Call.submitPrice.injEq, reduceCtorEq, and_false, false_or,
      List.not_mem_nil, or_false] at hmem
    rcases hmem with ⟨-, rfl, rfl⟩ | ⟨-, rfl, rfl⟩ | ⟨-, rfl, rfl⟩
    · decide
    · decide
    · exact absurd htrusted (by decide)
  obtain ⟨hbounds, hexists⟩ := @purchase_cost_bounded _ _ _ _ Sample.trusted 1000 1050 3
    Sample.client Sample.oracleId rfl ⟨100, rfl⟩ hrun rfl (hhonest _) (by decide)
  obtain ⟨cost, hcost⟩ := hexists (by decide) (by decide) (by decide)
  exact ⟨cost, hcost, hbounds cost hcost⟩

end StellarKraal.CarbonOracle
