import StellarKraal.Oracle.PriceAccess

/-!
# The two ways to submit a price

Both record a price in the same fields by the same computation, but check it by
code of their own. A list of one price and a single price from the only oracle
differ in one check; and the list may be empty, which the median does not expect.
-/

namespace StellarKraal

open Except (refuseIf okOr)

variable {env : Env} {w : World} {c : Config}

/-! ## One oracle -/

theorem medianOf_singleton (price : Int) : medianOf [price] = .ok price := by
  simp [medianOf, exchangeSort, priceBuffer, Except.refuseIf, pure, Except.pure]

/-- Both entry points accept `price` from `oracle` or neither does, and what they
record is the same. -/
structure EntryPointsAgree (env : Env) (w : World) (oracle : Address) (price : Int) : Prop where
  accept : (∃ w', submitPrice env w oracle price = .ok w') ↔
    ∃ w' report, submitOraclePrices env w oracle [price] = .ok (w', report)
  record : ∀ w₁ w₂ report, submitPrice env w oracle price = .ok w₁ →
    submitOraclePrices env w oracle [price] = .ok (w₂, report) →
      w₁.config.map Config.priceRecord = w₂.config.map Config.priceRecord

theorem same_record {oracle : Address} {price : Int} {w₁ w₂ : World} {report : OracleReport}
    (hsingle : submitPrice env w oracle price = .ok w₁)
    (hlist : submitOraclePrices env w oracle [price] = .ok (w₂, report)) :
    w₁.config.map Config.priceRecord = w₂.config.map Config.priceRecord := by
  obtain ⟨c₁, twap₁, hc₁, -, -, -, htwap₁, rfl⟩ := submitPrice_ok hsingle
  obtain ⟨c₂, twap₂, hc₂, -, -, -, -, hmedian, htwap₂, rfl⟩ := submitOraclePrices_ok hlist
  obtain rfl := Option.mem_unique hc₁ hc₂
  obtain hmedian : price = report.median :=
    Except.ok.inj ((medianOf_singleton price).symm.trans hmedian)
  rw [← hmedian] at htwap₂ ⊢
  obtain rfl := Option.some.inj (htwap₁.symm.trans htwap₂)
  rfl

/-- Where the registry is the `ORACLE` slot alone and one price is a quorum, the
entry points agree on every price its oracle signs exactly up to `MAX_PRICE`:
`submit_price` has no such bound. -/
theorem entry_points_agree_iff {price : Int} (hc : w.config = some c)
    (hregistry : getOracles w = [c.oracle]) (hquorum : c.minQuorum ≤ 1)
    (hfits : price ≤ I128.MAX) :
    EntryPointsAgree env w c.oracle price ↔ (c.oracle ∈ env.signers → price < maxPrice) := by
  have haccepted : (∃ w' report, submitOraclePrices env w c.oracle [price] = .ok (w', report)) ↔
      c.oracle ∈ env.signers ∧ 0 < price ∧ price < maxPrice := by
    constructor
    · rintro ⟨w', report, h⟩
      obtain ⟨_, _, -, hsigned, -, hvalid, -⟩ := submitOraclePrices_ok h
      exact ⟨hsigned, hvalid price List.mem_cons_self⟩
    · rintro ⟨hsigned, hpos, hlt⟩
      have hadmissible : Admissible env w c c.oracle [price] :=
        ⟨hc, hsigned, by rw [hregistry]; rfl, by simp, by simp, by simpa using ⟨hpos, hlt⟩, hquorum⟩
      obtain ⟨_, _, report, -, -, -, h⟩ := hadmissible.accepted
      exact ⟨_, report, h⟩
  have hsingle : (∃ w', submitPrice env w c.oracle price = .ok w') ↔
      c.oracle ∈ env.signers ∧ 0 < price := by
    constructor
    · rintro ⟨w', h⟩
      obtain ⟨_, _, -, hsigned, -, hpos, -⟩ := submitPrice_ok h
      exact ⟨hsigned, hpos⟩
    · rintro ⟨hsigned, hpos⟩
      exact (submitPrice_accepted_iff hc hsigned hpos hfits).mpr rfl
  constructor
  · intro hagree hsigned
    by_cases hpos : 0 < price
    · exact (haccepted.mp (hagree.accept.mp (hsingle.mpr ⟨hsigned, hpos⟩))).2.2
    · exact lt_of_le_of_lt (not_lt.mp hpos) (by decide)
  · intro hbound
    refine ⟨?_, fun _ _ _ => same_record⟩
    rw [hsingle, haccepted]
    exact ⟨fun h => ⟨h.1, h.2, hbound h.1⟩, fun h => ⟨h.1, h.2.1⟩⟩

/-- The largest price both accept. -/
theorem sample_entry_points_agree :
    EntryPointsAgree ⟨[Sample.oracle]⟩ (Sample.after [Sample.initialization 6000 8000])
      Sample.oracle (maxPrice - 1) :=
  (@entry_points_agree_iff _ (Sample.after [Sample.initialization 6000 8000]) _ _ rfl rfl le_rfl
    (by decide)).mpr fun _ => by decide

/-- `MAX_PRICE` itself is taken from `submit_price` only. -/
theorem max_price_divides_entry_points :
    ¬ ∀ (asset : AssetContract) (env : Env) (w : World) (c : Config) (price : Int),
      (protocol asset).Reachable w → w.config = some c → getOracles w = [c.oracle] →
      c.minQuorum ≤ 1 → I128.MIN ≤ price → price ≤ I128.MAX →
        EntryPointsAgree env w c.oracle price := by
  intro hall
  have hagree := hall .standard ⟨[Sample.oracle]⟩ _ _ maxPrice
    (Sample.after_reachable [Sample.initialization 6000 8000]) rfl rfl le_rfl (by decide)
    (by decide)
  obtain ⟨w', report, h⟩ := hagree.accept.mp ⟨_, rfl⟩
  obtain ⟨_, _, -, -, -, hvalid, -⟩ := submitOraclePrices_ok h
  exact absurd (hvalid maxPrice List.mem_cons_self).2 (lt_irrefl _)

/-! ## No answer -/

/-- Nothing is submitted to a contract that has no oracle left and asks for no quorum. -/
structure Vacuous (w : World) (prices : List Int) : Prop where
  noPrices : prices = []
  noOracles : getOracles w = []
  noQuorum : ∃ c, w.config = some c ∧ c.minQuorum = 0

/-- A submission that the submitter has signed ends with a report or a typed error. -/
def Answers (env : Env) (w : World) (submitter : Address) (prices : List Int) : Prop :=
  submitter ∈ env.signers → submitOraclePrices env w submitter prices ≠ .error .trap

theorem vacuous_traps {submitter : Address} {prices : List Int} (h : Vacuous w prices)
    (hsigned : submitter ∈ env.signers) :
    submitOraclePrices env w submitter prices = .error .trap := by
  obtain ⟨rfl, hempty, c, hc, hquorum⟩ := h
  have htrap : medianOf [] = .error .trap := rfl
  simp [submitOraclePrices, assertInitialized, Env.requireAuth, hc, hsigned, hempty, htrap,
    World.getOr, hquorum, Except.refuseIf]

/-- Past its checks a submission to a sound registry traps only if it is vacuous. -/
theorem vacuous_of_trap {submitter : Address} {prices : List Int} (hregistry : RegistrySound w)
    (hsigned : submitter ∈ env.signers)
    (h : submitOraclePrices env w submitter prices = .error .trap) : Vacuous w prices := by
  cases hc : w.config with
  | none => simp [submitOraclePrices, assertInitialized, hc, Except.refuseIf] at h
  | some c =>
      have hchecks : prices.length = (getOracles w).length ∧
          (∀ p ∈ prices, 0 < p ∧ p < maxPrice) ∧ c.minQuorum ≤ prices.length := by
        simp only [submitOraclePrices, Except.bind_fails, Env.requireAuth_eq_error,
          assertInitialized_eq_error, Except.refuseIf_eq_error, Except.refuseIf_eq_ok, not_not,
          not_lt, not_exists, not_and, not_or, not_le, reduceCtorEq, and_false, false_or,
          hsigned, not_true_eq_false, false_and] at h
        obtain ⟨_, _, _, _, _, hlength, _, hvalid, _, hquorum, -⟩ := h
        exact ⟨hlength, hvalid, by simpa [World.getOr, hc] using hquorum⟩
      obtain ⟨hlength, hvalid, hquorum⟩ := hchecks
      by_cases hne : prices = []
      · subst hne
        exact ⟨rfl, List.length_eq_zero_iff.mp hlength.symm, c, hc, Nat.le_zero.mp hquorum⟩
      · have hadmissible : Admissible env w c submitter prices :=
          ⟨hc, hsigned, hlength, hne, hlength ▸ hregistry.atMostFive, hvalid, hquorum⟩
        obtain ⟨_, _, _, -, -, -, haccepted⟩ := hadmissible.accepted
        simp [haccepted] at h

/-- In every reachable state a submission answers unless it is vacuous. -/
theorem submission_answers_iff {asset : AssetContract} (hreach : (protocol asset).Reachable w)
    (env : Env) (submitter : Address) (prices : List Int) :
    Answers env w submitter prices ↔ (submitter ∈ env.signers → ¬ Vacuous w prices) := by
  have hregistry := reachable_registrySound hreach
  constructor
  · exact fun hanswers hsigned hvacuous => hanswers hsigned (vacuous_traps hvacuous hsigned)
  · exact fun hnot hsigned htrap => hnot hsigned (vacuous_of_trap hregistry hsigned htrap)

/-- With an oracle in the registry even an empty list is answered. -/
theorem sample_submission_answers :
    Answers ⟨[Sample.farmer]⟩ (Sample.after [Sample.initialization 6000 8000]) Sample.farmer [] :=
  (submission_answers_iff (Sample.after_reachable [Sample.initialization 6000 8000]) _ _ _).mpr
    fun _ hvacuous => absurd hvacuous.noOracles (by decide)

/-- Initialised without a quorum and with its one oracle removed, the contract traps
on the empty list. -/
theorem empty_submission_traps :
    ¬ ∀ (asset : AssetContract) (env : Env) (w : World) (submitter : Address) (prices : List Int),
      (protocol asset).Reachable w → Answers env w submitter prices := by
  intro hall
  have hreach := Sample.after_reachable
    [Sample.signedBy Sample.admin (.initializeContract Sample.admin Sample.oracle Sample.token
        Sample.treasury 6000 8000 0),
      Sample.signedBy Sample.admin (.removeOracle Sample.admin Sample.oracle)]
  exact hall _ ⟨[Sample.farmer]⟩ _ Sample.farmer [] hreach (by decide) rfl

end StellarKraal
