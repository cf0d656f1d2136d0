import StellarKraal.Contract.GovernanceEffects
import StellarKraal.Contract.ConfigEffects
import StellarKraal.Oracle.Median

/-!
# When a price submission is accepted

Both entry points are total on valid prices: past their checks nothing traps, so
who may move the price is decided by the checks alone.
-/

namespace StellarKraal

open Except (refuseIf okOr)

variable {env : Env} {w : World} {c : Config}

/-! ## Recording a price -/

/-- The running sum and count of a valid price have an average. -/
theorem nextTwap_divides {price : Int} (hpos : 0 < price) (hmax : price ≤ I128.MAX) :
    ∃ twap, I128.checkedDiv (nextTwap w price).1 (nextTwap w price).2 = some twap := by
  unfold nextTwap
  dsimp only
  split
  · exact ⟨_, I128.checkedDiv_succeeds (le_trans (by decide) hpos.le) hmax Int.one_pos⟩
  · obtain ⟨hlo, hhi⟩ := I128.addOrMax_mem (w.getOr (·.twapSum) 0) price
    have hcount : 0 < U32.saturatingAdd (w.getOr (·.twapCount) 0) 1 :=
      lt_min (Nat.succ_pos _) (by decide)
    exact ⟨_, I128.checkedDiv_succeeds hlo hhi (by exact_mod_cast hcount)⟩

theorem storePrice_succeeds (hc : w.config = some c) {price : Int} (hpos : 0 < price)
    (hmax : price ≤ I128.MAX) :
    ∃ twap, I128.checkedDiv (nextTwap w price).1 (nextTwap w price).2 = some twap ∧
      storePrice w price = .ok ({ w with config := some (c.withPrice w price twap) }, twap) := by
  obtain ⟨twap, htwap⟩ := nextTwap_divides (w := w) hpos hmax
  refine ⟨twap, htwap, ?_⟩
  simp [storePrice, htwap, World.setConfig, hc, Config.withPrice, pure, Except.pure]

/-! ## Single prices -/

/-- A signed positive price is accepted from the `ORACLE` slot and nobody else. -/
theorem submitPrice_accepted_iff (hc : w.config = some c) {oracle : Address} {price : Int}
    (hsigned : oracle ∈ env.signers) (hpos : 0 < price) (hmax : price ≤ I128.MAX) :
    (∃ w', submitPrice env w oracle price = .ok w') ↔ oracle = c.oracle := by
  constructor
  · rintro ⟨w', h⟩
    obtain ⟨c', _, hc', -, hslot, -⟩ := submitPrice_ok h
    obtain rfl := Option.mem_unique hc hc'
    exact hslot.symm
  · rintro rfl
    obtain ⟨twap, -, hstore⟩ := storePrice_succeeds hc hpos hmax
    simp [submitPrice, assertInitialized, Env.requireAuth, World.get, hc, hstore,
      Except.refuseIf_of_not, hsigned, not_le.mpr hpos, pure, Except.pure]

/-! ## Price lists -/

/-- The checks `submit_oracle_prices` makes, and the size its buffer has. -/
structure Admissible (env : Env) (w : World) (c : Config) (submitter : Address)
    (prices : List Int) : Prop where
  config : w.config = some c
  signed : submitter ∈ env.signers
  complete : prices.length = (getOracles w).length
  nonempty : prices ≠ []
  fits : prices.length ≤ 5
  valid : ∀ p ∈ prices, 0 < p ∧ p < maxPrice
  quorum : c.minQuorum ≤ prices.length

/-- Counting outliers cannot overflow on valid prices. -/
theorem countFlagged_succeeds {median : Int} {prices : List Int} (hpos : 0 < median)
    (hlt : median < maxPrice) (hprices : ∀ p ∈ prices, 0 < p ∧ p < maxPrice) :
    ∃ flagged, countFlagged median prices = .ok flagged := by
  refine Except.foldlM_succeeds (fun flagged price hprice => ?_) 0
  obtain ⟨hprice_pos, hprice_lt⟩ := hprices price hprice
  have hmin : I128.MIN = -170141183460469231731687303715884105728 := rfl
  have hmax : I128.MAX = 170141183460469231731687303715884105727 := rfl
  have hcap : maxPrice = 1000000000000000000 := rfl
  have hdiff : ∃ diff, (if price > median then I128.checkedSub price median
      else I128.checkedSub median price) = some diff ∧ 0 ≤ diff ∧ diff < maxPrice := by
    split
    · exact ⟨_, I128.narrow_of_nonneg (by omega) (by omega), by omega, by omega⟩
    · exact ⟨_, I128.narrow_of_nonneg (by omega) (by omega), by omega, by omega⟩
  obtain ⟨diff, hdiff, hnonneg, hdiff_lt⟩ := hdiff
  rw [hdiff, Except.okOr_some, Except.bind_of_ok, if_pos hpos, I128.checkedMul,
    I128.narrow_of_nonneg (by omega) (by omega), Except.okOr_some, Except.bind_of_ok,
    I128.checkedMul, I128.narrow_of_nonneg (by omega) (by omega), Except.okOr_some,
    Except.bind_of_ok]
  exact ⟨_, rfl⟩

theorem Admissible.accepted {submitter : Address} {prices : List Int}
    (h : Admissible env w c submitter prices) :
    ∃ median twap report, medianOf prices = .ok median ∧ 0 < median ∧
      I128.checkedDiv (nextTwap w median).1 (nextTwap w median).2 = some twap ∧
      submitOraclePrices env w submitter prices =
        .ok ({ w with config := some (c.withPrice w median twap) }, report) := by
  obtain ⟨median, hmedian, hpos, hlt⟩ := medianOf_succeeds h.nonempty h.fits h.valid
  obtain ⟨twap, htwap, hstore⟩ := storePrice_succeeds h.config hpos
    (le_trans hlt.le (by decide))
  obtain ⟨flagged, hflagged⟩ := countFlagged_succeeds hpos hlt h.valid
  have hvalid : ¬ ∃ price ∈ prices, price ≤ 0 ∨ price ≥ maxPrice := by
    rintro ⟨price, hprice, hbad⟩
    have hrange := h.valid price hprice
    omega
  have hquorum : ¬ (getOracles w).length <
      w.getOr (·.minQuorum) (if (getOracles w).length ≥ 3 then 3 else (getOracles w).length) := by
    simpa [World.getOr, h.config, h.complete] using h.quorum
  refine ⟨median, twap, ⟨median, prices.length, flagged⟩, hmedian, hpos, htwap, ?_⟩
  simp only [submitOraclePrices, assertInitialized, h.config, Env.requireAuth, h.signed,
    h.complete, Except.refuseIf_of_not, hvalid, hquorum, hmedian, hstore, hflagged,
    Option.isNone_some, Bool.false_eq_true, not_true_eq_false, not_false_eq_true,
    Except.bind_of_ok, ne_eq]
  rfl

theorem submitOraclePrices_admissible {w' : World} {submitter : Address} {prices : List Int}
    {report : OracleReport}
    (h : submitOraclePrices env w submitter prices = .ok (w', report)) :
    ∃ c, Admissible env w c submitter prices := by
  obtain ⟨c, _, hc, hsigned, hcomplete, hvalid, hquorum, hmedian, -, -⟩ := submitOraclePrices_ok h
  simp only [medianOf, Except.bind_succeeds, Except.refuseIf_eq_ok, not_lt] at hmedian
  obtain ⟨_, hfits, hmedian⟩ := hmedian
  refine ⟨c, hc, hsigned, hcomplete, ?_, hfits, hvalid, hquorum⟩
  rintro rfl
  simp [Except.refuseIf] at hmedian

/-! ## The registry -/

/-- Before initialisation there is no list; afterwards it has at most five
different members. -/
structure RegistrySound (w : World) : Prop where
  unset : w.config = none → w.oracles = none
  nodup : (getOracles w).Nodup
  atMostFive : (getOracles w).length ≤ 5

theorem RegistrySound.of_unset {w : World} (h : w.oracles = none) : RegistrySound w := by
  have hslot : getOracles w = (w.config.map fun c => [c.oracle]).getD [] := by
    rw [getOracles, h]
  refine ⟨fun _ => h, ?_, ?_⟩
  · rw [hslot]
    cases w.config <;> simp
  · rw [hslot]
    cases w.config <;> simp

theorem RegistrySound.of_list {w : World} {oracles : List Address} (hc : w.config = some c)
    (h : w.oracles = some oracles) (hnodup : oracles.Nodup) (hlen : oracles.length ≤ 5) :
    RegistrySound w := by
  have hlist : getOracles w = oracles := by
    rw [getOracles, h]
  exact ⟨fun hnone => absurd (hc.symm.trans hnone) (by simp), hlist ▸ hnodup, hlist ▸ hlen⟩

variable {asset : AssetContract}

theorem reachable_registrySound {w : World} (h : (protocol asset).Reachable w) :
    RegistrySound w := by
  apply reachable_invariant RegistrySound (h := h)
  · intro timestamp ledger
    exact .of_unset rfl
  · intro env call w w' _ hw hrun
    have hsame : w'.oracles = w.oracles → RegistrySound w' := by
      intro horacles
      cases hlist : w.oracles with
      | none => exact .of_unset (horacles.trans hlist)
      | some oracles =>
          have hmembers : getOracles w = oracles := by rw [getOracles, hlist]
          have hinitialized : w'.config ≠ none := fun hnone => by
            have hunset := hw.unset ((Call.run_configEffect hrun).config_none hnone)
            simp [hlist] at hunset
          obtain ⟨c, hc⟩ := Option.ne_none_iff_exists'.mp hinitialized
          exact .of_list hc (horacles.trans hlist) (hmembers ▸ hw.nodup)
            (hmembers ▸ hw.atMostFive)
    rcases (Call.run_governanceEffect hrun).oracles with h | ⟨_, _, h⟩ | ⟨_, _, h⟩
    · exact hsame h
    · obtain ⟨c, hc, -, -, -, hnew, hroom, rfl⟩ := addOracle_ok h
      refine .of_list hc rfl (List.nodup_append.mpr ⟨hw.nodup, List.nodup_singleton _, ?_⟩) ?_
      · rintro a ha b hb rfl
        exact hnew (List.mem_singleton.mp hb ▸ ha)
      · rw [List.length_append, List.length_singleton]
        exact hroom
    · obtain ⟨c, hc, -, -, -, rfl⟩ := removeOracle_ok h
      exact .of_list hc rfl (hw.nodup.erase _) (List.length_erase_le.trans hw.atMostFive)
  · intro w timestamp ledger hw _ _
    exact ⟨hw.unset, hw.nodup, hw.atMostFive⟩

end StellarKraal
