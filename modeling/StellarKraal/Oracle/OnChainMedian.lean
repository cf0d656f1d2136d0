import StellarKraal.Foundation.OrderStatistics
import StellarKraal.Oracle.Submission

/-!
# The median that a submission stores

The buffer is sorted by exchanges, and the prices in its front cells are then the
order statistics of the list. The registry keeps the list short enough for the
buffer, so every cell the computation asks for is there.
-/

namespace StellarKraal

open Except (refuseIf okOr)
open OrderStatistics (Middle kthSmallest)

/-! ## Sorting by exchanges -/

theorem length_exchange (arr : List Int) (i j : Nat) : (exchange arr i j).length = arr.length := by
  unfold exchange
  split
  · simp
  · rfl

theorem getD_set {arr : List Int} {i : Nat} (hi : i < arr.length) (x : Int) (k : Nat) :
    (arr.set i x).getD k 0 = if k = i then x else arr.getD k 0 := by
  simp only [List.getD_eq_getElem?_getD, List.getElem?_set]
  by_cases h : i = k
  · rw [if_pos h, if_pos h.symm, if_pos hi, Option.getD_some]
  · rw [if_neg h, if_neg (Ne.symm h)]

/-- An exchange leaves the smaller of the two entries first. -/
theorem getD_exchange {arr : List Int} {i j : Nat} (hij : i < j) (hj : j < arr.length) (k : Nat) :
    (exchange arr i j).getD k 0 =
      if k = i then min (arr.getD i 0) (arr.getD j 0)
      else if k = j then max (arr.getD i 0) (arr.getD j 0)
      else arr.getD k 0 := by
  have hi : i < arr.length := hij.trans hj
  unfold exchange
  split
  next hswap =>
    rw [getD_set (by simpa using hj), getD_set hi]
    split_ifs <;> omega
  next hswap =>
    split_ifs with hki hkj
    · subst hki
      omega
    · subst hkj
      omega
    · rfl

/-- The first `i` of the first `n` cells are final: none that comes later is smaller. -/
def SortedUpTo (n i : Nat) (arr : List Int) : Prop :=
  ∀ a b, a < i → a < b → b < n → arr.getD a 0 ≤ arr.getD b 0

/-- The inner loop brings the smallest of the remaining entries to cell `i`. -/
theorem exchangePass_sorted {n i : Nat} {arr : List Int} (hn : n ≤ arr.length) (hi : i < n)
    (h : SortedUpTo n i arr) :
    SortedUpTo n (i + 1)
      ((List.range' (i + 1) (n - (i + 1))).foldl (fun arr j => exchange arr i j) arr) := by
  suffices hrounds : ∀ m ≤ n - (i + 1), ∀ arr',
      arr' = (List.range' (i + 1) m).foldl (fun arr j => exchange arr i j) arr →
        arr'.length = arr.length ∧ SortedUpTo n i arr' ∧
          ∀ k, i < k → k ≤ i + m → arr'.getD i 0 ≤ arr'.getD k 0 by
    obtain ⟨-, hfinal, hsmallest⟩ := hrounds _ le_rfl _ rfl
    intro a b ha hab hb
    rcases Nat.lt_succ_iff_lt_or_eq.mp ha with ha | rfl
    · exact hfinal a b ha hab hb
    · exact hsmallest b hab (by omega)
  -- After `m` rounds no entry up to `i + m` is smaller than the one in cell `i`.
  intro m
  induction m with
  | zero =>
      rintro - arr' rfl
      exact ⟨rfl, h, fun k hik hk => by omega⟩
  | succ m ih =>
      rintro hm arr' rfl
      obtain ⟨hlength, hfinal, hsmallest⟩ := ih (by omega) _ rfl
      rw [List.range'_concat, List.foldl_append, List.foldl_cons, List.foldl_nil, Nat.one_mul]
      generalize (List.range' (i + 1) m).foldl (fun arr j => exchange arr i j) arr = prior at *
      have hj : i + 1 + m < prior.length := by omega
      have hcell := getD_exchange (show i < i + 1 + m by omega) hj
      refine ⟨(length_exchange _ _ _).trans hlength, ?_, ?_⟩
      · intro a b ha hab hb
        have hone := hfinal a i ha ha hi
        have htwo := hfinal a (i + 1 + m) ha (by omega) (by omega)
        have hother := hfinal a b ha hab hb
        rw [hcell, hcell]
        split_ifs <;> omega
      · intro k hik hk
        have hother := hsmallest k hik
        rw [hcell, hcell]
        split_ifs <;> omega

theorem exchangeSort_sorted {n : Nat} {arr : List Int} (hn : n ≤ arr.length) :
    SortedUpTo n n (exchangeSort arr n) := by
  suffices hpasses : ∀ i ≤ n, ∀ arr', arr' = (List.range i).foldl (fun arr i =>
      (List.range' (i + 1) (n - (i + 1))).foldl (fun arr j => exchange arr i j) arr) arr →
        Rearranges n arr arr' ∧ SortedUpTo n i arr' by
    exact (hpasses n le_rfl _ rfl).2
  intro i
  induction i with
  | zero =>
      rintro - arr' rfl
      exact ⟨.refl n _, fun a b ha => by omega⟩
  | succ i ih =>
      rintro hi arr' rfl
      obtain ⟨hrearranges, hsorted⟩ := ih (by omega) _ rfl
      rw [List.range_succ, List.foldl_append, List.foldl_cons, List.foldl_nil]
      have hlength := hrearranges.length_eq
      exact ⟨hrearranges.trans (exchangePass_rearranges (by omega) hi),
        exchangePass_sorted (by omega) hi hsorted⟩

/-! ## The median -/

/-- In the front cells stand the order statistics of the submitted prices. -/
theorem exchangeSort_cell {prices : List Int} (hlen : prices.length ≤ 5) {k : Nat} {x : Int}
    (h : kthSmallest prices k = some x) :
    (exchangeSort (priceBuffer prices) prices.length).getD k 0 = x := by
  have hsize := length_exchangeSort hlen
  have hsorted := exchangeSort_sorted (hlen.trans (length_priceBuffer hlen).ge)
  have hfront : (exchangeSort (priceBuffer prices) prices.length).take prices.length =
      prices.insertionSort (· ≤ ·) := by
    refine List.Perm.eq_of_pairwise' ?_ (List.pairwise_insertionSort _ prices)
      ((exchangeSort_take_perm hlen).trans (List.perm_insertionSort _ prices).symm)
    refine List.pairwise_iff_getElem.mpr fun a b ha hb hab => ?_
    rw [List.length_take] at ha hb
    have hle := hsorted a b (by omega) hab (by omega)
    rw [List.getD_eq_getElem _ _ (by omega), List.getD_eq_getElem _ _ (by omega)] at hle
    rw [List.getElem_take, List.getElem_take]
    exact hle
  obtain ⟨hk, hx⟩ := List.getElem?_eq_some_iff.mp h
  rw [List.length_insertionSort] at hk
  rw [List.getD_eq_getElem _ _ (by omega), ← hx]
  simp only [← hfront, List.getElem_take]

/-- The middle entry of the sorted list where their number is odd, otherwise the mean
of the two in the middle, rounded down. -/
structure ExactMedian (prices : List Int) (median : Int) : Prop where
  odd : prices.length % 2 = 1 →
    (prices.insertionSort (· ≤ ·))[prices.length / 2]? = some median
  even : prices.length % 2 = 0 → ∃ low high,
    (prices.insertionSort (· ≤ ·))[prices.length / 2 - 1]? = some low ∧
      (prices.insertionSort (· ≤ ·))[prices.length / 2]? = some high ∧ median = (low + high) / 2

theorem ExactMedian.of_middle {prices : List Int} {low high : Int} (h : Middle prices low high) :
    ExactMedian prices ((low + high) / 2) where
  odd hodd := by
    obtain rfl := h.eq_of_odd hodd
    have hmean : (low + low) / 2 = low := by omega
    rw [hmean]
    exact h.high
  even heven := by
    have hindex : prices.length / 2 - 1 = (prices.length - 1) / 2 := by omega
    exact ⟨low, high, hindex ▸ h.low, h.high, rfl⟩

/-- What a valid list is reduced to, by its two middle prices. -/
theorem medianOf_eq {prices : List Int} {low high : Int} (hlen : prices.length ≤ 5)
    (hprices : ∀ p ∈ prices, 0 < p ∧ p < maxPrice) (h : Middle prices low high) :
    medianOf prices = .ok ((low + high) / 2) := by
  have hlow := exchangeSort_cell hlen h.low
  have hhigh := exchangeSort_cell hlen h.high
  obtain ⟨hlow_pos, hlow_lt⟩ := hprices low (OrderStatistics.kthSmallest_mem h.low)
  obtain ⟨hhigh_pos, hhigh_lt⟩ := hprices high (OrderStatistics.kthSmallest_mem h.high)
  have hcap : maxPrice = 1000000000000000000 := rfl
  have hmax : I128.MAX = 170141183460469231731687303715884105727 := rfl
  have hne : prices.length ≠ 0 := by
    have hindex := (List.getElem?_eq_some_iff.mp h.high).1
    rw [List.length_insertionSort] at hindex
    omega
  simp only [medianOf, Except.refuseIf_of_not (not_lt.mpr hlen), Except.bind_of_ok]
  split
  next hodd =>
    obtain rfl := h.eq_of_odd hodd
    have hmean : (low + low) / 2 = low := by omega
    rw [hmean, hhigh]
    rfl
  next heven =>
    have hindex : prices.length / 2 - 1 = (prices.length - 1) / 2 := by omega
    have hmid : ¬ prices.length / 2 = 0 := by omega
    rw [hindex, hlow, hhigh, Except.refuseIf_of_not hmid, Except.bind_of_ok, I128.checkedAdd,
      I128.narrow_of_nonneg (by omega) (by omega), Except.okOr_some, Except.bind_of_ok,
      Int.tdiv_eq_ediv_of_nonneg (by omega)]
    rfl

/-! ## The outliers -/

/-- More than half the median away from it. -/
def Flagged (median price : Int) : Prop := median < 2 * |price - median|

instance (median : Int) : DecidablePred (Flagged median) := fun _ => Int.decLt _ _

theorem countFlagged_ok {median : Int} {prices : List Int} {flagged : Nat} (hpos : 0 < median)
    (h : countFlagged median prices = .ok flagged) :
    flagged = prices.countP (fun p => decide (Flagged median p)) := by
  have hsum := Except.foldlM_adds (g := fun p => if Flagged median p then 1 else 0) ?_ h
  · rw [hsum, zero_add]
    clear hsum h
    induction prices with
    | nil => rfl
    | cons head tail ih =>
        rw [List.map_cons, List.sum_cons, ih, List.countP_cons, Nat.add_comm]
        simp only [decide_eq_true_eq]
  · intro count price next hround
    simp only [Except.bind_succeeds, Except.okOr_eq_ok, if_pos hpos] at hround
    obtain ⟨diff, hdiff, scaledDiff, hscaled, bound, hbound, hround⟩ := hround
    obtain ⟨-, rfl⟩ := I128.checkedMul_eq_some.mp hscaled
    obtain ⟨-, rfl⟩ := I128.checkedMul_eq_some.mp hbound
    have habs : diff = |price - median| := by
      split at hdiff
      · obtain ⟨-, rfl⟩ := I128.checkedSub_eq_some.mp hdiff
        rw [abs_of_pos (by omega)]
      · obtain ⟨-, rfl⟩ := I128.checkedSub_eq_some.mp hdiff
        rw [abs_of_nonpos (by omega)]
        omega
    have hflag : diff * 100 > median * 50 ↔ Flagged median price := by
      rw [Flagged, ← habs]
      omega
    simp only [hflag] at hround
    have hround := Except.pure_succeeds.mp hround
    rw [← hround]
    split <;> rfl

/-! ## The report -/

theorem submitOraclePrices_report {env : Env} {w w' : World} {submitter : Address}
    {prices : List Int} {report : OracleReport}
    (h : submitOraclePrices env w submitter prices = .ok (w', report)) :
    report.responses = prices.length ∧
      countFlagged report.median prices = .ok report.flaggedCount := by
  simp only [submitOraclePrices, Except.bind_succeeds, Except.pure_succeeds, Prod.mk.injEq] at h
  obtain ⟨_, -, _, -, _, -, _, -, _, -, median, -, ⟨stored, twap⟩, -, flagged, hflagged, -,
    rfl⟩ := h
  exact ⟨rfl, hflagged⟩

variable {env : Env} {w : World} {c : Config} {submitter : Address} {prices : List Int}

/-- The outcome of an admissible submission, by its two middle prices. -/
theorem Admissible.submit_eq (h : Admissible env w c submitter prices) {low high : Int}
    (hmid : Middle prices low high) :
    ∃ twap, I128.checkedDiv (nextTwap w ((low + high) / 2)).1 (nextTwap w ((low + high) / 2)).2 =
        some twap ∧
      submitOraclePrices env w submitter prices =
        .ok ({ w with config := some (c.withPrice w ((low + high) / 2) twap) },
          ⟨(low + high) / 2, prices.length,
            prices.countP fun p => decide (Flagged ((low + high) / 2) p)⟩) := by
  obtain ⟨median, twap, report, hmedian, hpos, htwap, haccepted⟩ := h.accepted
  obtain rfl := Except.ok.inj ((medianOf_eq h.fits h.valid hmid).symm.trans hmedian)
  obtain ⟨_, _, -, -, -, -, -, hreported, -, -⟩ := submitOraclePrices_ok haccepted
  obtain ⟨hresponses, hflagged⟩ := submitOraclePrices_report haccepted
  obtain hsame := Except.ok.inj (hmedian.symm.trans hreported)
  rw [← hsame] at hflagged
  refine ⟨twap, htwap, ?_⟩
  rw [haccepted, ← countFlagged_ok hpos hflagged, ← hresponses, hsame]

theorem Admissible.perm {prices' : List Int} (h : Admissible env w c submitter prices)
    (hperm : prices'.Perm prices) : Admissible env w c submitter prices' where
  config := h.config
  signed := h.signed
  complete := hperm.length_eq.trans h.complete
  nonempty hnil := h.nonempty (hnil ▸ hperm).nil_eq.symm
  fits := hperm.length_eq.trans_le h.fits
  valid p hp := h.valid p (hperm.mem_iff.mp hp)
  quorum := h.quorum.trans hperm.length_eq.ge

/-- The order of the list changes nothing in the outcome. -/
theorem Admissible.submit_perm {prices' : List Int} (h : Admissible env w c submitter prices)
    (hperm : prices'.Perm prices) :
    submitOraclePrices env w submitter prices' = submitOraclePrices env w submitter prices := by
  obtain ⟨low, high, hmid⟩ := Middle.exists h.nonempty
  obtain ⟨twap, htwap, heq⟩ := h.submit_eq hmid
  obtain ⟨twap', htwap', heq'⟩ := (h.perm hperm).submit_eq (hmid.perm hperm)
  obtain rfl := Option.mem_unique htwap htwap'
  rw [heq, heq', hperm.length_eq, hperm.countP_eq]

/-- What a report says about the submitted list. -/
structure MedianReport (env : Env) (w : World) (submitter : Address) (prices : List Int)
    (report : OracleReport) : Prop where
  exact : ExactMedian prices report.median
  permuted : ∀ prices', prices'.Perm prices →
    submitOraclePrices env w submitter prices' = submitOraclePrices env w submitter prices
  between : ∃ smallest ∈ prices, ∃ largest ∈ prices,
    (∀ p ∈ prices, smallest ≤ p ∧ p ≤ largest) ∧
      smallest ≤ report.median ∧ report.median ≤ largest
  majority : ∀ lo hi, prices.length < 2 * prices.countP (fun p => decide (lo ≤ p ∧ p ≤ hi)) →
    lo ≤ report.median ∧ report.median ≤ hi
  responses : report.responses = prices.length
  flagged : report.flaggedCount = prices.countP fun p => decide (Flagged report.median p)

theorem medianReport_of_ok {w' : World} {report : OracleReport}
    (h : submitOraclePrices env w submitter prices = .ok (w', report)) :
    MedianReport env w submitter prices report := by
  obtain ⟨c, hadmissible⟩ := submitOraclePrices_admissible h
  obtain ⟨low, high, hmid⟩ := Middle.exists hadmissible.nonempty
  obtain ⟨twap, -, heq⟩ := hadmissible.submit_eq hmid
  obtain ⟨-, rfl⟩ := Prod.mk.inj (Except.ok.inj (h.symm.trans heq))
  have hpos := List.length_pos_of_ne_nil hadmissible.nonempty
  have hbounds : ∀ p ∈ prices, prices.minimum_of_length_pos hpos ≤ p ∧
      p ≤ prices.maximum_of_length_pos hpos := fun p hp =>
    ⟨List.minimum_of_length_pos_le_of_mem hp hpos, List.le_maximum_of_length_pos_of_mem hp hpos⟩
  refine ⟨.of_middle hmid, fun prices' => hadmissible.submit_perm, ?_, ?_, rfl, rfl⟩
  · obtain ⟨⟨hlow, hlow'⟩, hhigh, hhigh'⟩ := hmid.bounds hbounds
    refine ⟨_, List.minimum_of_length_pos_mem hpos, _, List.maximum_of_length_pos_mem hpos,
      hbounds, ?_, ?_⟩
    · dsimp only
      omega
    · dsimp only
      omega
  · intro lo hi hmajority
    obtain ⟨⟨hlow, hlow'⟩, hhigh, hhigh'⟩ := hmid.of_majority hmajority
    dsimp only
    omega

/-! ## The cells of the buffer

The same computation with every access checked against the bounds of its list. -/

/-- `arr[i]`. -/
def readCell (arr : List Int) (i : Nat) : Result Int := okOr arr[i]? .trap

/-- `arr[i] = x`. -/
def writeCell (arr : List Int) (i : Nat) (x : Int) : Result (List Int) := do
  refuseIf (arr.length ≤ i) .trap
  return arr.set i x

def fillCells (prices : List Int) : Result (List Int) :=
  (List.range prices.length).foldlM (fun arr i => do writeCell arr i (← readCell prices i))
    (List.replicate 5 0)

def exchangeCells (arr : List Int) (i j : Nat) : Result (List Int) := do
  let a ← readCell arr i
  let b ← readCell arr j
  if a > b then do
    let arr ← writeCell arr i b
    writeCell arr j a
  else pure arr

def sortCells (arr : List Int) (n : Nat) : Result (List Int) :=
  (List.range n).foldlM
    (fun arr i =>
      (List.range' (i + 1) (n - (i + 1))).foldlM (fun arr j => exchangeCells arr i j) arr)
    arr

theorem readCell_eq {arr : List Int} {i : Nat} (h : i < arr.length) :
    readCell arr i = .ok (arr.getD i 0) := by
  rw [readCell, List.getElem?_eq_getElem h, List.getD_eq_getElem _ _ h]
  rfl

theorem writeCell_eq {arr : List Int} {i : Nat} (h : i < arr.length) (x : Int) :
    writeCell arr i x = .ok (arr.set i x) := by
  rw [writeCell, Except.refuseIf_of_not (not_le.mpr h)]
  rfl

theorem fillCells_eq (hlen : prices.length ≤ 5) : fillCells prices = .ok (priceBuffer prices) := by
  refine (Except.foldlM_eq_foldl (fun arr : List Int => arr.length = 5) ?_ (by simp)).1
  intro arr i hi harr
  have hprice := List.mem_range.mp hi
  rw [readCell_eq hprice, Except.bind_of_ok, writeCell_eq (by omega)]
  exact ⟨rfl, by rw [List.length_set, harr]⟩

theorem exchangeCells_eq {arr : List Int} {i j : Nat} (hi : i < arr.length) (hj : j < arr.length) :
    exchangeCells arr i j = .ok (exchange arr i j) := by
  rw [exchangeCells, readCell_eq hi, Except.bind_of_ok, readCell_eq hj, Except.bind_of_ok, exchange]
  split
  · rw [writeCell_eq hi, Except.bind_of_ok, writeCell_eq (by simpa using hj)]
  · rfl

theorem sortCells_eq {arr : List Int} {n : Nat} (hn : n ≤ arr.length) :
    sortCells arr n = .ok (exchangeSort arr n) := by
  refine (Except.foldlM_eq_foldl (fun arr' : List Int => arr'.length = arr.length) ?_ rfl).1
  intro arr' i hi harr'
  have hi := List.mem_range.mp hi
  refine Except.foldlM_eq_foldl (fun arr'' : List Int => arr''.length = arr.length) ?_ harr'
  intro arr'' j hj harr''
  obtain ⟨-, hj⟩ := List.mem_range'_1.mp hj
  exact ⟨exchangeCells_eq (by omega) (by omega), (length_exchange _ _ _).trans harr''⟩

/-- Filling and sorting the buffer stays within its bounds, computes what the
unchecked computation does, and leaves every cell the median is read from. -/
structure WithinBuffer (prices : List Int) : Prop where
  fill : fillCells prices = .ok (priceBuffer prices)
  sort : sortCells (priceBuffer prices) prices.length =
    .ok (exchangeSort (priceBuffer prices) prices.length)
  read : ∀ k ≤ prices.length / 2,
    readCell (exchangeSort (priceBuffer prices) prices.length) k =
      .ok ((exchangeSort (priceBuffer prices) prices.length).getD k 0)

theorem withinBuffer (hlen : prices.length ≤ 5) : WithinBuffer prices where
  fill := fillCells_eq hlen
  sort := sortCells_eq (hlen.trans (length_priceBuffer hlen).ge)
  read k hk := readCell_eq (by rw [length_exchangeSort hlen]; omega)

/-- In every reachable state: whatever a submission reports is the exact median of
its list with all that follows, and a list as long as the registry fits the buffer. -/
theorem on_chain_median {asset : AssetContract} (hreach : (protocol asset).Reachable w) :
    (∀ env submitter prices w' report,
      submitOraclePrices env w submitter prices = .ok (w', report) →
        MedianReport env w submitter prices report) ∧
      ∀ prices : List Int, prices.length = (getOracles w).length → WithinBuffer prices :=
  ⟨fun _ _ _ _ _ => medianReport_of_ok, fun _ hcomplete =>
    withinBuffer (hcomplete.trans_le (reachable_registrySound hreach).atMostFive)⟩

/-- Four oracles, two of them far off. -/
theorem sample_on_chain_median :
    let w := Sample.after ([Sample.initialization 6000 8000] ++ [6, 7, 8].map fun key =>
      Sample.signedBy Sample.admin (.addOracle Sample.admin (.account key)))
    (∃ w', submitOraclePrices ⟨[Sample.farmer]⟩ w Sample.farmer [100, 9, 103, 900] =
      .ok (w', ⟨101, 4, 2⟩)) ∧
    (∀ env submitter prices w' report,
      submitOraclePrices env w submitter prices = .ok (w', report) →
        MedianReport env w submitter prices report) ∧
    ∀ prices : List Int, prices.length = (getOracles w).length → WithinBuffer prices :=
  ⟨⟨_, rfl⟩, on_chain_median (Sample.after_reachable _)⟩

end StellarKraal
