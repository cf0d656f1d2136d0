import StellarKraal.Lending.Paused
import StellarKraal.Lending.References
import StellarKraal.Risk.Progress

/-!
# The borrowing limit and the list it is computed from

`request_loan` adds up the value of every id the borrower lists, and locks each of
them once. An id listed twice counts twice, so the limit bounds what is lent by
what is pledged exactly for lists without repetitions.
-/

namespace StellarKraal

open Except (refuseIf okOr)

/-- The effective value of what is listed, each collateral counted once. -/
def distinctValue (w : World) (ids : List Nat) : Int :=
  ∑ colId ∈ ids.toFinset, effectiveValueOf w colId

/-- Whoever borrows against this list, at whatever time and how much ever, stays
within the limit on what is listed, each collateral counted once. -/
def LimitCountsOnce (ids : List Nat) : Prop :=
  ∀ (asset : AssetContract) (w w' : World) (c : Config) (env : Env) (borrower : Address)
    (amount : Int) (loanId : Nat), (protocol asset).Reachable w → w.config = some c →
      requestLoan asset.client env w borrower ids amount = .ok (w', loanId) →
        amount * 10000 ≤ c.ltv * distinctValue w ids

theorem collateralValue_of_nodup {ids : List Nat} (w : World) (h : ids.Nodup) :
    collateralValue w ids = distinctValue w ids :=
  (List.sum_toFinset (effectiveValueOf w) h).symm

theorem limit_of_nodup {ids : List Nat} (h : ids.Nodup) : LimitCountsOnce ids := by
  intro asset w w' c env borrower amount loanId _ hc hrequest
  obtain ⟨c', total, collaterals, horiginated⟩ := requestLoan_ok hrequest
  obtain rfl := Option.mem_unique hc horiginated.config
  have hscaled := horiginated.scaled_amount_le
  rw [pledgedValue_ok horiginated.pledged, collateralValue_of_nodup w h] at hscaled
  rwa [mul_comm (c.ltv : Int)]

/-- Ids start at one: nothing is ever lent against a list with a zero. -/
theorem limit_of_zero_mem {ids : List Nat} (h : 0 ∈ ids) : LimitCountsOnce ids := by
  intro asset w w' c env borrower amount loanId hreach _ hrequest
  obtain ⟨c', total, collaterals, horiginated⟩ := requestLoan_ok hrequest
  obtain ⟨col, hcol, -⟩ := pledgedValue_owned horiginated.pledged 0 h
  have hpos := (((reachable_ids hreach).2 0).mp ⟨col, hcol⟩).1
  omega

/-! ## When a request goes through -/

section Requests

variable {asset : AssetContract} {env : Env} {w : World} {borrower : Address} {ids : List Nat}
  {amount total : Int} {c : Config}

/-- The first loop over animals of the borrower fails only where the sum does not fit. -/
theorem pledgedValue_eq (hsound : CollateralsSound w)
    (howned : ∀ colId ∈ ids, ∃ col, w.collaterals.lookup colId = some col ∧ col.owner = borrower)
    (hfits : collateralValue w ids ≤ I128.MAX) :
    pledgedValue w borrower ids = .ok (collateralValue w ids) := by
  have hround : ∀ acc, ∀ colId ∈ ids, 0 ≤ acc → acc + effectiveValueOf w colId ≤ I128.MAX →
      addPledgedValue w borrower acc colId = .ok (acc + effectiveValueOf w colId) := by
    intro acc colId hlisted hacc hbelow
    have hsum := add_nonneg hacc (effectiveValueOf_nonneg hsound colId)
    obtain ⟨col, hcol, howner⟩ := howned colId hlisted
    have hvalue : effectiveValueOf w colId = getCollateralEffectiveValue w col := by
      simp [effectiveValueOf, hcol]
    rw [hvalue] at hbelow hsum ⊢
    simp only [addPledgedValue, Except.bind_succeeds, Except.okOr_eq_ok, Except.refuseIf_eq_ok,
      not_not]
    exact ⟨col, hcol, (), howner, I128.narrow_of_nonneg hsum hbelow⟩
  have hloop := Except.foldlM_eq_sum (fun colId _ => effectiveValueOf_nonneg hsound colId)
    hround le_rfl (by rwa [zero_add])
  rwa [zero_add] at hloop

/-- The second loop succeeds over stored records. -/
theorem lockCollaterals_succeeds {collaterals : KeyedStore Nat CollateralRecord} (loanId : Nat)
    (hstored : ∀ colId ∈ ids, ∃ col, collaterals.lookup colId = some col) :
    ∃ locked, lockCollaterals collaterals loanId ids = .ok locked := by
  induction ids generalizing collaterals with
  | nil => exact ⟨collaterals, rfl⟩
  | cons head tail ih =>
      obtain ⟨col, hcol⟩ := hstored head List.mem_cons_self
      have hrest : ∀ colId ∈ tail, ∃ col',
          (collaterals.insert head { col with loanId }).lookup colId = some col' := by
        intro colId hlisted
        rw [KeyedStore.lookup_insert]
        split
        · exact ⟨_, rfl⟩
        · exact hstored colId (List.mem_cons_of_mem head hlisted)
      obtain ⟨locked, hlocked⟩ := ih hrest
      refine ⟨locked, ?_⟩
      simp only [lockCollaterals, List.foldlM_cons, Except.bind_succeeds, Except.okOr_eq_ok,
        Except.pure_succeeds]
      exact ⟨_, ⟨col, hcol, rfl⟩, hlocked⟩

theorem collectFee_succeeds (hpays : asset.PaysCovered) (hc : w.config = some c) (loanId : Nat)
    (kind : Symbol) {fee : Int} (hcovered : fee ≤ w.ledger c.token .currentContract) :
    ∃ w', collectFee asset.client w c.token loanId kind fee = .ok w' := by
  unfold collectFee
  split
  next hfee =>
    obtain ⟨L, hpaid⟩ := hpays w.ledger c.token .currentContract c.treasury fee hfee.le hcovered
    simp only [Except.bind_succeeds, World.get_eq_ok, Except.pure_succeeds]
    exact ⟨_, _, ⟨c, hc, rfl⟩, { w with ledger := L }, by simp [AssetContract.client, hpaid], rfl⟩
  next => exact ⟨w, rfl⟩

/-- Everything `request_loan` asks for, and the money to pay the loan out. -/
structure Requestable (env : Env) (w : World) (borrower : Address) (ids : List Nat)
    (amount total : Int) (c : Config) : Prop where
  config : w.config = some c
  notPaused : isPausedRaw w = false
  positive : 0 < amount
  nonempty : ids ≠ []
  authorized : borrower ∈ env.signers
  pledged : pledgedValue w borrower ids = .ok total
  withinLimit : amount * 10000 ≤ total * c.ltv
  limitFits : total * c.ltv ≤ I128.MAX
  feeFits : amount * c.origFee ≤ I128.MAX
  feeShare : c.origFee ≤ 10000
  counterFits : w.loanCounter + 1 ≤ U64.MAX
  funded : amount ≤ w.ledger c.token .currentContract

/-- The converse of the inversion. -/
theorem Requestable.succeeds (h : Requestable env w borrower ids amount total c)
    (hpays : asset.PaysCovered) (hreach : (protocol asset).Reachable w) :
    ∃ w' loanId, requestLoan asset.client env w borrower ids amount = .ok (w', loanId) := by
  have hpos := h.positive
  have hlimit := h.withinLimit
  have hfunded := h.funded
  have hmin : I128.MIN ≤ 0 := by decide
  have hmaxLoan : amount ≤ (total * c.ltv).tdiv 10000 :=
    (Int.le_tdiv_iff (by omega) (by decide)).mpr hlimit
  have hfee : 0 ≤ originationFee c amount := share_nonneg c.origFee hpos.le
  have hfee_le : originationFee c amount ≤ amount := share_le hpos.le h.feeShare
  have hscaledFee : 0 ≤ amount * c.origFee := by positivity
  have hlimitFits := h.limitFits
  have hdisbursed : I128.MIN ≤ amount - originationFee c amount ∧
      amount - originationFee c amount ≤ I128.MAX := by omega
  have hstored : ∀ colId ∈ ids, ∃ col, w.collaterals.lookup colId = some col := by
    intro colId hlisted
    obtain ⟨col, hcol, -⟩ := pledgedValue_owned h.pledged colId hlisted
    exact ⟨col, hcol⟩
  obtain ⟨collaterals, hlocked⟩ := lockCollaterals_succeeds (w.loanCounter + 1) hstored
  obtain ⟨w₁, hw₁⟩ : ∃ w₁, w₁ = { w with
      guard := true
      loanCounter := w.loanCounter + 1
      loans := w.loans.insert (w.loanCounter + 1)
        (newLoan w (w.loanCounter + 1) borrower ids total amount)
      collaterals } := ⟨_, rfl⟩
  have hc₁ : w₁.config = some c := hw₁ ▸ h.config
  have hledger₁ : w₁.ledger = w.ledger := by rw [hw₁]
  have hcovered : originationFee c amount ≤ w₁.ledger c.token .currentContract := by
    rw [hledger₁]
    omega
  obtain ⟨w₂, hcharged⟩ :=
    collectFee_succeeds hpays hc₁ (w.loanCounter + 1) "originate" hcovered
  -- What is left after the fee covers the disbursement, whoever the treasury is.
  have hledger₂ : w₂.ledger = w.ledger.payFee c (originationFee c amount) := by
    rw [collectFee_ok hcharged hc₁, hledger₁]
  have hleft := Ledger.le_payFee w.ledger c hfee
  obtain ⟨L, hpaid⟩ := hpays w₂.ledger c.token .currentContract borrower
    (amount - originationFee c amount) (by omega) (by rw [hledger₂]; omega)
  have htransfer : asset.client.transfer w₂ c.token .currentContract borrower
      (amount - originationFee c amount) = .ok { w₂ with ledger := L } := by
    simp [AssetContract.client, hpaid]
  subst hw₁
  simp only [requestLoan, Except.bind_succeeds, ReentrancyGuard.new_eq_ok, assertInitialized_eq_ok,
    assertNotPaused_eq_ok, Except.refuseIf_eq_ok, Env.requireAuth_eq_ok, World.get_eq_ok,
    Except.okOr_eq_ok, I128.checkedMul_eq_some, I128.checkedSub_eq_some, nextId_eq_ok,
    Except.pure_succeeds, not_le, not_lt]
  exact ⟨_, _, _, ⟨reachable_unguarded hreach, rfl⟩, (), ⟨c, h.config⟩, (), h.notPaused, (), hpos,
    (), h.nonempty, (), h.authorized, total, h.pledged, _, ⟨c, h.config, rfl⟩, _,
    ⟨⟨by omega, hlimitFits⟩, rfl⟩, (), hmaxLoan, _, ⟨c, h.config, rfl⟩, _,
    ⟨⟨by omega, h.feeFits⟩, rfl⟩, _, ⟨hdisbursed, rfl⟩, _, ⟨h.counterFits, rfl⟩,
    collaterals, hlocked, _, ⟨c, h.config, rfl⟩, w₂, hcharged, _, htransfer, rfl⟩

end Requests

/-! ## Lists with repetitions -/

namespace Sample

/-- One animal of the farmer's. -/
def herd : CollateralRecord := ⟨farmer, "cattle", 1, 10000, 0, [10000]⟩

/-- The farmer has registered `n` animals, and nothing else has happened. -/
structure Stocked (n : Nat) (w : World) : Prop where
  reachable : (protocol .standard).Reachable w
  config : w.config = some (initialConfig admin oracle token treasury 6000 8000 1)
  notPaused : isPausedRaw w = false
  uncapped : w.animalCaps = ∅
  noLoans : w.loanCounter = 0
  ledger : w.ledger = world.ledger
  counter : w.collateralCounter = n
  herds : ∀ colId, 1 ≤ colId → colId ≤ n → w.collaterals.lookup colId = some herd

theorem Stocked.price {n : Nat} {w : World} (h : Stocked n w) :
    getEffectiveOraclePrice w = none := by
  simp [getEffectiveOraclePrice, World.getOr, h.config, initialConfig]

theorem Stocked.register {n : Nat} {w : World} (h : Stocked n w) (hn : n + 1 ≤ U64.MAX) :
    ∃ w', Stocked (n + 1) w' := by
  have hprice := h.price
  obtain ⟨w', id, hrun⟩ : ∃ w' id,
      registerLivestock ⟨[farmer]⟩ w farmer "cattle" 1 10000 = .ok (w', id) := by
    simp only [registerLivestock, Except.bind_succeeds, assertInitialized_eq_ok,
      assertNotPaused_eq_ok, Except.refuseIf_eq_ok, checkAnimalCap_eq_ok, checkOracleBound_eq_ok,
      Env.requireAuth_eq_ok, nextId_eq_ok, Except.pure_succeeds]
    exact ⟨_, _, (), ⟨_, h.config⟩, (), h.notPaused, (), by decide, (), by simp [h.uncapped], (),
      by simp [hprice], (), by simp, _, ⟨by rw [h.counter]; exact hn, rfl⟩, rfl⟩
  have hcall : (Call.registerLivestock farmer "cattle" 1 10000).run
      AssetContract.standard.client ⟨[farmer]⟩ w = .ok w' := by
    simp [Call.run, hrun]
  obtain ⟨c, -, -, -, -, -, -, -, rfl, rfl⟩ := registerLivestock_ok hrun
  refine ⟨_, reachable_call h.reachable hcall, h.config, h.notPaused, h.uncapped, h.noLoans,
    h.ledger, congrArg (· + 1) h.counter, ?_⟩
  intro colId hpos hle
  simp only [World.publish, KeyedStore.lookup_insert, h.counter]
  split
  · rfl
  · exact h.herds colId hpos (by omega)

theorem exists_stocked {n : Nat} (hn : n ≤ U64.MAX) : ∃ w, Stocked n w := by
  induction n with
  | zero =>
      refine ⟨after [initialization 6000 8000], after_reachable _, rfl, rfl, rfl, rfl, rfl, rfl, ?_⟩
      intro colId hpos hle
      omega
  | succ n ih =>
      obtain ⟨w, hw⟩ := ih (by omega)
      exact hw.register hn

/-- Every animal is worth its appraisal. -/
theorem Stocked.value {n : Nat} {w : World} (h : Stocked n w) {colId : Nat}
    (hlisted : 1 ≤ colId ∧ colId ≤ n) : effectiveValueOf w colId = 10000 := by
  simp [effectiveValueOf, h.herds colId hlisted.1 hlisted.2, getCollateralEffectiveValue, h.price,
    herd]

section Lists

variable {n : Nat} {w : World} {ids : List Nat}

theorem Stocked.collateralValue_eq (h : Stocked n w) (hids : ∀ colId ∈ ids, 1 ≤ colId ∧ colId ≤ n) :
    collateralValue w ids = ids.length * 10000 := by
  rw [collateralValue, List.map_congr_left fun colId hmem => h.value (hids colId hmem)]
  simp

theorem Stocked.distinctValue_eq (h : Stocked n w) (hids : ∀ colId ∈ ids, 1 ≤ colId ∧ colId ≤ n) :
    distinctValue w ids = ids.toFinset.card * 10000 := by
  rw [distinctValue, Finset.sum_congr rfl fun colId hmem =>
    h.value (hids colId (List.mem_toFinset.mp hmem))]
  simp

/-- The farmer may borrow 6000 for every time an animal is listed. -/
theorem Stocked.requestable (h : Stocked n w) (hids : ∀ colId ∈ ids, 1 ≤ colId ∧ colId ≤ n)
    (hne : ids ≠ []) (hlength : ids.length ≤ U32.MAX) :
    Requestable ⟨[farmer]⟩ w farmer ids (ids.length * 6000) (ids.length * 10000)
      (initialConfig admin oracle token treasury 6000 8000 1) := by
  have hmax32 : U32.MAX = 4294967295 := rfl
  have hmax : I128.MAX = 170141183460469231731687303715884105727 := rfl
  have hpos := List.length_pos_iff.mpr hne
  have htotal := h.collateralValue_eq hids
  have howned : ∀ colId ∈ ids, ∃ col, w.collaterals.lookup colId = some col ∧
      col.owner = farmer := fun colId hmem =>
    ⟨herd, h.herds colId (hids colId hmem).1 (hids colId hmem).2, rfl⟩
  have hpledged := pledgedValue_eq (reachable_collaterals h.reachable) howned (by omega)
  rw [htotal] at hpledged
  refine ⟨h.config, h.notPaused, by omega, hne, by simp, hpledged, ?_, ?_, ?_, by decide, ?_, ?_⟩
  · simp only [initialConfig]
    omega
  · simp only [initialConfig]
    omega
  · simp only [initialConfig]
    omega
  · rw [h.noLoans]
    decide
  · rw [h.ledger]
    show (ids.length : Int) * 6000 ≤ 1000000000000000
    omega

end Lists

end Sample

/-- A list with repetitions has fewer ids than entries, and the farmer borrows on each entry. -/
theorem not_limit_of_repeated {ids : List Nat} (hids : ∀ colId ∈ ids, colId ≤ U64.MAX)
    (hlength : ids.length ≤ U32.MAX) (hrepeated : ¬ ids.Nodup) (hzero : 0 ∉ ids) :
    ¬ LimitCountsOnce ids := by
  obtain ⟨w, hw⟩ := Sample.exists_stocked (le_refl U64.MAX)
  have hlisted : ∀ colId ∈ ids, 1 ≤ colId ∧ colId ≤ U64.MAX := by
    intro colId hmem
    exact ⟨Nat.pos_of_ne_zero (ne_of_mem_of_not_mem hmem hzero), hids colId hmem⟩
  have hne : ids ≠ [] := by
    rintro rfl
    exact hrepeated List.nodup_nil
  have hcard : ids.toFinset.card ≠ ids.length := fun heq =>
    hrepeated (Multiset.coe_nodup.mp (Multiset.toFinset_card_eq_card_iff_nodup.mp heq))
  have hfewer : ids.toFinset.card < ids.length :=
    lt_of_le_of_ne (List.toFinset_card_le ids) hcard
  obtain ⟨w', loanId, hrequest⟩ := (hw.requestable hlisted hne hlength).succeeds
    AssetContract.standard_paysCovered hw.reachable
  intro hlimit
  have hbound := hlimit _ _ _ _ _ _ _ _ hw.reachable hw.config hrequest
  rw [hw.distinctValue_eq hlisted] at hbound
  simp only [initialConfig] at hbound
  omega

/-- The limit bounds every loan by what is pledged exactly for the lists that repeat
nothing. A list with the id zero, which no collateral has, is always refused. -/
theorem limit_counts_once_iff {ids : List Nat} (hids : ∀ colId ∈ ids, colId ≤ U64.MAX)
    (hlength : ids.length ≤ U32.MAX) : LimitCountsOnce ids ↔ ids.Nodup ∨ 0 ∈ ids := by
  constructor
  · intro hlimit
    by_contra hneither
    rw [not_or] at hneither
    exact not_limit_of_repeated hids hlength hneither.1 hneither.2 hlimit
  · rintro (hnodup | hzero)
    · exact limit_of_nodup hnodup
    · exact limit_of_zero_mem hzero

/-- Two herds, each listed once: for 1200000 against two millions at 60 % the law holds. -/
theorem sample_limit_counts_once :
    LimitCountsOnce [1, 2] ∧ ∃ w w', requestLoan AssetContract.standard.client ⟨[Sample.farmer]⟩
      w Sample.farmer [1, 2] 1200000 = .ok (w', 1) ∧ distinctValue w [1, 2] = 2000000 := by
  have hrequest : requestLoan AssetContract.standard.client ⟨[Sample.farmer]⟩
      (Sample.after [Sample.initialization 6000 8000, Sample.registration 1000000,
        Sample.registration 1000000]) Sample.farmer [1, 2] 1200000 = .ok (_, 1) := rfl
  refine ⟨(limit_counts_once_iff (by decide) (by decide)).mpr (.inl (by decide)), _, _,
    hrequest, ?_⟩
  rw [← collateralValue_of_nodup _ (by decide)]
  rfl

/-- One herd worth a million, listed twice: 1200000 are lent where 600000 is the limit. -/
theorem herd_listed_twice : ¬ ∀ ids, LimitCountsOnce ids := by
  intro hall
  have hreach := Sample.after_reachable
    [Sample.initialization 6000 8000, Sample.registration 1000000]
  have hrequest : requestLoan AssetContract.standard.client ⟨[Sample.farmer]⟩
      (Sample.after [Sample.initialization 6000 8000, Sample.registration 1000000])
      Sample.farmer [1, 1] 1200000 = .ok (_, 1) := rfl
  have hdistinct : distinctValue (Sample.after [Sample.initialization 6000 8000,
      Sample.registration 1000000]) [1, 1] = 1000000 := by
    rw [distinctValue, show [1, 1].toFinset = {1} from rfl, Finset.sum_singleton]
    rfl
  have hbound := hall [1, 1] _ _ _ _ _ _ _ _ hreach rfl hrequest
  rw [hdistinct] at hbound
  exact absurd hbound (by decide)

end StellarKraal
