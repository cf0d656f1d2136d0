import StellarKraal.Oracle.Submission

/-!
# Who moves the price

`submit_price` asks the `ORACLE` slot and `submit_oracle_prices` asks nobody:
neither consults the list that `get_oracles` reports. Both statements below say
exactly in which states and runs that makes no difference.
-/

namespace StellarKraal

open TransitionSystem (Transition)

variable {asset : AssetContract}

/-! ## Single prices and the registry -/

/-- A signed positive price is accepted from the registered oracles and nobody else. -/
def FollowsRegistry (w : World) : Prop :=
  ∀ env oracle price, oracle ∈ Env.signers env → 0 < price → price ≤ I128.MAX →
    ((∃ w', submitPrice env w oracle price = .ok w') ↔ oracle ∈ getOracles w)

/-- A list without repetitions whose one member is `a`. -/
theorem eq_singleton_of_nodup {α : Type*} {l : List α} {a : α} (hnodup : l.Nodup)
    (hmem : ∀ x, x = a ↔ x ∈ l) : l = [a] := by
  cases l with
  | nil => simp at hmem
  | cons head tail =>
      obtain rfl := (hmem head).mpr List.mem_cons_self
      cases tail with
      | nil => rfl
      | cons second rest =>
          obtain rfl := (hmem second).mpr (by simp)
          simp at hnodup

/-- Single-price submission follows the registry exactly while the registry is
the `ORACLE` slot and nothing else. -/
theorem follows_registry_iff {w : World} (hreach : (protocol asset).Reachable w) :
    FollowsRegistry w ↔ ∀ c, w.config = some c → getOracles w = [c.oracle] := by
  have hregistry := reachable_registrySound hreach
  constructor
  · intro hfollows c hc
    apply eq_singleton_of_nodup hregistry.nodup
    intro oracle
    rw [← hfollows ⟨[oracle]⟩ oracle 1 List.mem_cons_self Int.one_pos (by decide),
      submitPrice_accepted_iff hc List.mem_cons_self Int.one_pos (by decide)]
  · intro hslot env oracle price hsigned hpos hmax
    cases hc : w.config with
    | none =>
        have hempty : getOracles w = [] := by
          rw [getOracles, hregistry.unset hc, hc]
          rfl
        refine iff_of_false ?_ (by simp [hempty])
        rintro ⟨w', h⟩
        obtain ⟨c, -, hc', -⟩ := submitPrice_ok h
        simp [hc] at hc'
    | some c =>
        rw [submitPrice_accepted_iff hc hsigned hpos hmax, hslot c hc, List.mem_singleton]

/-- Right after initialisation the registry is the slot. -/
theorem sample_follows_registry :
    FollowsRegistry (Sample.after [Sample.initialization 6000 8000]) :=
  (follows_registry_iff (Sample.after_reachable _)).mpr fun c hc => by
    obtain rfl := Option.some.inj hc
    rfl

/-- An oracle that was added cannot submit. -/
theorem added_oracle_cannot_submit :
    ¬ ∀ (asset : AssetContract) (w : World), (protocol asset).Reachable w → FollowsRegistry w := by
  intro hall
  have hfollows := hall .standard _ (Sample.after_reachable
    [Sample.initialization 6000 8000,
      Sample.signedBy Sample.admin (.addOracle Sample.admin (.account 6))])
  obtain ⟨w', haccepted⟩ := (hfollows ⟨[.account 6]⟩ (.account 6) 100 (by decide) (by decide)
    (by decide)).mpr (by decide)
  obtain ⟨c, _, hc, -, hslot, -⟩ := submitPrice_ok haccepted
  obtain rfl := Option.some.inj hc
  exact absurd hslot (by decide)

/-! ## Price lists and the registry -/

/-- What both entry points record. -/
structure PriceRecord where
  lastPrice : Int
  lastPriceTime : Nat
  twapSum : Int
  twapCount : Nat
  twapPrice : Int
  deriving DecidableEq, Repr

def Config.priceRecord (c : Config) : PriceRecord :=
  ⟨c.lastPrice, c.lastPriceTime, c.twapSum, c.twapCount, c.twapPrice⟩

def World.priceRecord (w : World) : Option PriceRecord := w.config.map Config.priceRecord

/-- If the step is a list submission that changes the record, a registered oracle
submitted it. -/
def MovedByOracle (t : Transition World Action) : Prop :=
  ∀ env submitter prices, t.action = .call env (.submitOraclePrices submitter prices) →
    t.after.priceRecord ≠ t.before.priceRecord → submitter ∈ getOracles t.before

/-- Recording `median` now would write what is there: a repetition at time zero,
where every price restarts the average, or of the last price with sum and count
at their bounds. -/
structure Recorded (w : World) (c : Config) (median : Int) : Prop where
  price : c.lastPrice = median
  time : c.lastPriceTime = w.timestamp
  average : (w.timestamp = 0 ∧ c.twapSum = median ∧ c.twapCount = 1 ∧ c.twapPrice = median) ∨
    (w.timestamp ≠ 0 ∧ c.twapSum = I128.MAX ∧ c.twapCount = U32.MAX ∧
      c.twapPrice = I128.MAX.tdiv U32.MAX)

/-- If the step is a list submission past all checks by somebody who is not
registered, it repeats what is recorded. -/
def OutsidersRepeat (t : Transition World Action) : Prop :=
  ∀ env submitter prices c, t.action = .call env (.submitOraclePrices submitter prices) →
    Admissible env t.before c submitter prices → submitter ∉ getOracles t.before →
      ∃ median, medianOf prices = .ok median ∧ Recorded t.before c median

section Recording

variable {w : World} {c : Config} {median twap : Int}

theorem nextTwap_of_zero (hc : w.config = some c) (htime : c.lastPriceTime = 0) :
    nextTwap w median = (median, 1) := by
  simp [nextTwap, World.getOr, hc, htime]

theorem nextTwap_of_now (hc : w.config = some c) (htime : c.lastPriceTime = w.timestamp)
    (hpos : w.timestamp ≠ 0) :
    nextTwap w median =
      (I128.addOrMax c.twapSum median, U32.saturatingAdd c.twapCount 1) := by
  simp [nextTwap, World.getOr, hc, htime, hpos]

/-- Recording a positive median leaves the record as it was exactly when the
median is recorded already. -/
theorem withPrice_priceRecord_iff (hc : w.config = some c) (hpos : 0 < median)
    (htwap : I128.checkedDiv (nextTwap w median).1 (nextTwap w median).2 = some twap) :
    (c.withPrice w median twap).priceRecord = c.priceRecord ↔ Recorded w c median := by
  simp only [Config.priceRecord, Config.withPrice, PriceRecord.mk.injEq]
  obtain ⟨-, -, rfl⟩ := I128.checkedDiv_eq_some.mp htwap
  clear htwap
  constructor
  · rintro ⟨hprice, htime, hsum, hcount, htwap⟩
    refine ⟨hprice.symm, htime.symm, ?_⟩
    -- At time zero every price restarts the average; later a price of the same second extends it.
    by_cases hzero : w.timestamp = 0
    · rw [nextTwap_of_zero hc (htime ▸ hzero)] at hsum hcount htwap
      exact .inl ⟨hzero, hsum.symm, hcount.symm, by simpa using htwap.symm⟩
    · rw [nextTwap_of_now hc htime.symm hzero] at hsum hcount htwap
      rw [hsum, hcount] at htwap
      have hsum := (I128.addOrMax_eq_self_iff hpos).mp hsum
      have hcount := U32.saturatingAdd_one_eq_self_iff.mp hcount
      exact .inr ⟨hzero, hsum, hcount, by rw [← htwap, hsum, hcount]⟩
  · rintro ⟨hprice, htime, ⟨hzero, hsum, hcount, htwap⟩ | ⟨hnow, hsum, hcount, htwap⟩⟩
    · rw [nextTwap_of_zero hc (htime.trans hzero)]
      exact ⟨hprice.symm, htime.symm, hsum.symm, hcount.symm, by simpa using htwap.symm⟩
    · rw [nextTwap_of_now hc htime hnow, (I128.addOrMax_eq_self_iff hpos).mpr hsum,
        U32.saturatingAdd_one_eq_self_iff.mpr hcount]
      exact ⟨hprice.symm, htime.symm, rfl, rfl, by rw [hsum, hcount, htwap]⟩

end Recording

theorem World.priceRecord_of_config {w : World} {c : Config} (hc : w.config = some c) :
    w.priceRecord = some c.priceRecord := by
  rw [World.priceRecord, hc, Option.map_some]

/-- An admissible submission goes through, whoever made it, and changes the
record unless it repeats it. -/
theorem Admissible.unchanged_iff {env : Env} {w : World} {c : Config} {submitter : Address}
    {prices : List Int} (h : Admissible env w c submitter prices) (asset : AssetContract) :
    ∃ median, medianOf prices = .ok median ∧
      ((w.invoke asset.client env (.submitOraclePrices submitter prices)).priceRecord =
        w.priceRecord ↔ Recorded w c median) := by
  obtain ⟨median, twap, report, hmedian, hpos, htwap, hrun⟩ := h.accepted
  refine ⟨median, hmedian, ?_⟩
  rw [← withPrice_priceRecord_iff h.config hpos htwap, World.priceRecord_of_config h.config,
    World.invoke]
  simp [Call.run, hrun, pure, Except.pure, World.priceRecord]

/-- A submission that changes anything was admissible. -/
theorem Admissible.of_changed {env : Env} {w : World} {submitter : Address} {prices : List Int}
    (h : w.invoke asset.client env (.submitOraclePrices submitter prices) ≠ w) :
    ∃ c, Admissible env w c submitter prices := by
  rcases World.invoke_cases asset.client env w (.submitOraclePrices submitter prices) with
    hrun | hsame
  · obtain ⟨report, hrun⟩ := Call.run_submitOraclePrices hrun
    exact submitOraclePrices_admissible hrun
  · exact absurd hsame h

/-- The step lemma, in both directions. -/
theorem step_movedByOracle_iff {w w' : World} {a : Action} (hstep : (protocol asset).Step w a w') :
    MovedByOracle ⟨w, a, w'⟩ ↔ OutsidersRepeat ⟨w, a, w'⟩ := by
  constructor
  · rintro hmoved env submitter prices c rfl hadmissible houtsider
    obtain rfl : w' = _ := hstep
    obtain ⟨median, hmedian, hunchanged⟩ := hadmissible.unchanged_iff asset
    refine ⟨median, hmedian, hunchanged.mp ?_⟩
    by_contra hchanged
    exact houtsider (hmoved env submitter prices rfl hchanged)
  -- What changed the record was admissible, and an outsider's submission would repeat it.
  · rintro hrepeat env submitter prices rfl hchanged
    obtain rfl : w' = _ := hstep
    by_contra houtsider
    have hne : w.invoke asset.client env (.submitOraclePrices submitter prices) ≠ w :=
      fun hsame => hchanged (congrArg World.priceRecord hsame)
    obtain ⟨c, hadmissible⟩ := Admissible.of_changed hne
    obtain ⟨median, hmedian, hrecorded⟩ :=
      hrepeat env submitter prices c rfl hadmissible houtsider
    obtain ⟨median', hmedian', hunchanged⟩ := hadmissible.unchanged_iff asset
    obtain rfl := Except.ok.inj (hmedian.symm.trans hmedian')
    exact hchanged (hunchanged.mpr hrecorded)

/-- In a life of the contract only registered oracles move the price by list
submissions exactly when outsiders, past the checks on the list itself, only ever
repeat what is recorded. -/
theorem price_moved_by_oracles_iff {start w : World} {steps : List (Transition World Action)}
    (hstart : (protocol asset).Initial start) (hrun : (protocol asset).Run start steps w) :
    (∀ t ∈ steps, MovedByOracle t) ↔ ∀ t ∈ steps, OutsidersRepeat t := by
  apply forall₂_congr
  intro t ht
  obtain ⟨-, hstep⟩ := hrun.mem_step (.of_initial hstart) ht
  exact step_movedByOracle_iff hstep

/-- The registered oracle submits the first price. -/
theorem sample_price_moved_by_oracle :
    ∃ steps w, (protocol .standard).Run Sample.world steps w ∧
      w.priceRecord = some ⟨100, 0, 100, 1, 100⟩ ∧
      ((∀ t ∈ steps, MovedByOracle t) ↔ ∀ t ∈ steps, OutsidersRepeat t) := by
  have hrun : (protocol .standard).Run Sample.world _ _ := Run.of_script
    [Sample.initialization 6000 8000,
      Sample.signedBy Sample.oracle (.submitOraclePrices Sample.oracle [100])] rfl
  exact ⟨_, _, hrun, rfl, price_moved_by_oracles_iff ⟨0, _, rfl⟩ hrun⟩

/-- Anybody may set the price: an account that is not registered records 1. -/
theorem outsider_sets_price :
    ¬ ∀ (asset : AssetContract) (start w : World) (steps : List (Transition World Action)),
      (protocol asset).Initial start → (protocol asset).Run start steps w →
        ∀ t ∈ steps, MovedByOracle t := by
  intro hall
  have hrun : (protocol .standard).Run Sample.world _ _ := Run.of_script
    [Sample.initialization 6000 8000,
      Sample.signedBy (.account 9) (.submitOraclePrices (.account 9) [1])] rfl
  have hmoved := hall .standard _ _ _ ⟨0, _, rfl⟩ hrun _
    (List.mem_cons_of_mem _ List.mem_cons_self)
  exact absurd (hmoved _ _ _ rfl (by decide)) (by decide)

end StellarKraal
