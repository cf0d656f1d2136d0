import Mathlib.Data.List.Sort
import StellarKraal.Foundation.DecimalText
import StellarKraal.Foundation.TextInput
import StellarKraal.Foundation.Streams
import StellarKraal.PriceEvents.Dates

/-!
# The price chart

The chart of a credit is made of its stored price events, in the order of their times and
from the first on; the limit of the request cuts it off at the other end. So it reaches the
present as long as all events of the credit fit into it, and stands still from then on.
-/

namespace StellarKraal.PriceEvents

open TextInput (isNonEmpty)

/-! ## The table -/

deriving instance DecidableEq for PriceEventType

/-- A stored price event, with the time in milliseconds. -/
structure PriceEventRow extends NewPriceEvent where
  id : String
  timestamp : Nat

/-- The table, and which of the queries for it fail. -/
structure PriceEventTable where
  rows : List PriceEventRow
  findManyFails : Bool
  findFirstFails : Bool

namespace PriceEventTable

variable (table : PriceEventTable) (creditId : String)

def eventsOf : List PriceEventRow := table.rows.filter (·.creditId = creditId)

/-- `orderBy: { timestamp: 'asc' }` -/
def ascending : List PriceEventRow :=
  (table.eventsOf creditId).insertionSort (·.timestamp ≤ ·.timestamp)

/-- The events of a credit by time, `take` of them; `NaN` is refused. -/
def findMany (take : Option Nat) : Option (List PriceEventRow) :=
  match take with
  | none => none
  | some take => if table.findManyFails then none else some ((table.ascending creditId).take take)

/-- The last event of a type; the query itself may fail or find nothing. -/
def findFirst (type : PriceEventType) : Option (Option PriceEventRow) :=
  if table.findFirstFails then none
  else some (((table.eventsOf creditId).filter (·.type = type)).insertionSort
    (·.timestamp ≥ ·.timestamp)).head?

end PriceEventTable

/-! ## The service -/

structure PriceHistoryPoint where
  timestamp : String
  priceUSDC : Rat
  volume : Option Rat
  type : PriceEventType
  txHash : Option String
  deriving DecidableEq

def PriceEventRow.point (event : PriceEventRow) : PriceHistoryPoint where
  timestamp := toISOString event.timestamp
  priceUSDC := event.priceUSDC
  volume := event.volume
  type := event.type
  txHash := event.txHash

/-- Fetch price history for a credit: up to `limit` events, by time. -/
def getPriceHistory (table : PriceEventTable) (creditId : String) (limit : Option Nat) :
    List PriceHistoryPoint :=
  match table.findMany creditId limit with
  | some events => events.map PriceEventRow.point
  | none => []

structure OraclePrice where
  priceUSDC : Rat
  timestamp : String

/-- The latest oracle price for a credit; `none` where there is none, or the query fails. -/
def getLatestOraclePrice (table : PriceEventTable) (creditId : String) : Option OraclePrice :=
  match table.findFirst creditId .oracleUpdate with
  | some (some latest) => some ⟨latest.priceUSDC, toISOString latest.timestamp⟩
  | some none => none
  | none => none

/-! ## The controller -/

structure ChartTable where
  columns : List String
  rows : List (List String)

/-- The `meta` part of the response. A limit that is not a number is written as `null`. -/
structure ChartMeta where
  limit : Option Nat
  count : Nat
  message : Option String

structure PriceChart where
  creditId : String
  oraclePrice : Option OraclePrice
  history : List PriceHistoryPoint
  table : ChartTable
  dataAvailable : Bool
  lastUpdated : Option String
  chartMeta : ChartMeta

inductive ChartBody
  | error (error : String)
  | chart (chart : PriceChart)

structure ChartResponse where
  status : Nat
  body : ChartBody

/-- The `limit` of the query, brought into `1..1000`. -/
def chartLimit (limit : Option String) : Option Nat :=
  (TextInput.parseInt (limit.getD "200")).map fun n => (min 1000 (max 1 n)).toNat

def PriceHistoryPoint.row (point : PriceHistoryPoint) : List String :=
  [point.timestamp, String.ofList (DecimalText.toFixed 2 point.priceUSDC),
    (point.volume.map fun volume => String.ofList (DecimalText.numberText volume)).getD "—",
    point.type.name, point.txHash.getD "—"]

/-- `limit` is the text of the query's `limit`, if it has one. -/
def getPriceChartData (table : PriceEventTable) (creditId : String) (limit : Option String) :
    ChartResponse :=
  if ¬ isNonEmpty creditId then ⟨400, .error "creditId is required"⟩
  else
    let limit := chartLimit limit
    let history := getPriceHistory table creditId limit
    let dataAvailable : Bool := 0 < history.length
    ⟨200, .chart {
      creditId := creditId
      oraclePrice := getLatestOraclePrice table creditId
      history := history
      table := {
        columns := ["Date / Time", "Price (USDC)", "Volume", "Type", "Transaction"]
        rows := history.map PriceHistoryPoint.row }
      dataAvailable := dataAvailable
      lastUpdated := if dataAvailable then history.getLast?.map (·.timestamp) else none
      chartMeta := {
        limit := limit
        count := history.length
        message :=
          if dataAvailable then none else some "No price history recorded for this credit yet." } }⟩

/-- The limit of a request is the number it names. -/
theorem chartLimit_toString {limit : Nat} (hpos : 1 ≤ limit) (hmax : limit ≤ 1000) :
    chartLimit (some (toString limit)) = some limit := by
  rw [chartLimit, Option.getD_some, TextInput.parseInt_toString, Option.map_some]
  congr 1
  omega

/-! ## The order of the events -/

section Order

variable {table : PriceEventTable} {creditId : String}

/-- No event of the list is later. -/
def IsLatest (events : List PriceEventRow) (event : PriceEventRow) : Prop :=
  event ∈ events ∧ ∀ other ∈ events, other.timestamp ≤ event.timestamp

theorem ascending_perm : (table.ascending creditId).Perm (table.eventsOf creditId) :=
  List.perm_insertionSort _ _

theorem ascending_pairwise :
    (table.ascending creditId).Pairwise (·.timestamp ≤ ·.timestamp) := by
  have : Std.Total fun a b : PriceEventRow => a.timestamp ≤ b.timestamp :=
    ⟨fun a b => Nat.le_total a.timestamp b.timestamp⟩
  have : IsTrans PriceEventRow fun a b => a.timestamp ≤ b.timestamp :=
    ⟨fun _ _ _ => Nat.le_trans⟩
  exact List.pairwise_insertionSort _ _

theorem isLatest_getLast (hne : table.ascending creditId ≠ []) :
    IsLatest (table.eventsOf creditId) ((table.ascending creditId).getLast hne) := by
  refine ⟨ascending_perm.mem_iff.mp (List.getLast_mem hne), fun other hother => ?_⟩
  have hpairs := @ascending_pairwise table creditId
  have hmem := ascending_perm.mem_iff.mpr hother
  rw [← List.dropLast_concat_getLast hne, List.mem_append] at hmem
  rw [← List.dropLast_concat_getLast hne] at hpairs
  rcases hmem with hbefore | hlast
  · exact (List.pairwise_append.mp hpairs).2.2 _ hbefore _ List.mem_cons_self
  · rw [List.mem_singleton.mp hlast]

theorem IsLatest.unique {events : List PriceEventRow}
    (hdistinct : (events.map (·.timestamp)).Nodup) {latest latest' : PriceEventRow}
    (h : IsLatest events latest) (h' : IsLatest events latest') : latest = latest' :=
  List.inj_on_of_nodup_map hdistinct h.1 h'.1 (le_antisymm (h'.2 _ h.1) (h.2 _ h'.1))

/-- The latest event comes last: where times are distinct there is no other. -/
theorem getLast?_ascending (hdistinct : ((table.eventsOf creditId).map (·.timestamp)).Nodup)
    {latest : PriceEventRow} (hlatest : IsLatest (table.eventsOf creditId) latest) :
    (table.ascending creditId).getLast? = some latest := by
  have hne : table.ascending creditId ≠ [] :=
    List.ne_nil_of_mem (ascending_perm.mem_iff.mpr hlatest.1)
  rw [List.getLast?_eq_some_getLast hne, (isLatest_getLast hne).unique hdistinct hlatest]

/-- Distinct times have distinct texts. -/
theorem timestamps_nodup (hdistinct : ((table.eventsOf creditId).map (·.timestamp)).Nodup) :
    ((table.ascending creditId).map (·.point.timestamp)).Nodup := by
  have htimes := (ascending_perm.map (·.timestamp)).nodup_iff.mpr hdistinct
  have htexts := htimes.map toISOString_injective
  rwa [List.map_map] at htexts

end Order

/-! ## The chart and the present -/

section Present

variable {table : PriceEventTable} {creditId : String} {limit : Nat}

/-- The chart of up to `limit` points ends with the latest event of the credit and is updated
at its time, and a chart with a higher limit differs only in older events that come first. -/
def ReachesPresent (table : PriceEventTable) (creditId : String) (limit : Nat) : Prop :=
  ∃ chart,
    getPriceChartData table creditId (some (toString limit)) = ⟨200, .chart chart⟩ ∧
      (∀ latest, IsLatest (table.eventsOf creditId) latest →
        chart.history.getLast? = some latest.point ∧
          chart.lastUpdated = some (toISOString latest.timestamp)) ∧
      ∀ more, limit ≤ more → more ≤ 1000 → ∃ longer,
        getPriceChartData table creditId (some (toString more)) = ⟨200, .chart longer⟩ ∧
          chart.history <:+ longer.history

/-- A request with a limit is answered with the first events. -/
theorem getPriceChartData_charted (hcredit : isNonEmpty creditId)
    (hqueries : table.findManyFails = false) (hpos : 1 ≤ limit) (hmax : limit ≤ 1000) :
    ∃ chart, getPriceChartData table creditId (some (toString limit)) = ⟨200, .chart chart⟩ ∧
      chart.history = ((table.ascending creditId).take limit).map PriceEventRow.point ∧
      chart.lastUpdated = chart.history.getLast?.map (·.timestamp) := by
  have hhistory : getPriceHistory table creditId (some limit) =
      ((table.ascending creditId).take limit).map PriceEventRow.point := by
    simp only [getPriceHistory, PriceEventTable.findMany, hqueries, Bool.false_eq_true, if_false]
  rw [getPriceChartData, if_neg (not_not_intro hcredit), chartLimit_toString hpos hmax]
  refine ⟨_, rfl, hhistory, ?_⟩
  dsimp only
  split
  next => rfl
  next hempty =>
    rw [decide_eq_true_eq, Nat.pos_iff_ne_zero, not_not, List.length_eq_zero_iff] at hempty
    rw [hempty]
    rfl

/-- The first events end at the time of the latest only if they are all. -/
theorem getLast?_take_timestamps_iff
    (hdistinct : ((table.eventsOf creditId).map (·.timestamp)).Nodup) (hpos : 1 ≤ limit) :
    ((table.ascending creditId).take limit).getLast?.map (·.point.timestamp) =
        (table.ascending creditId).getLast?.map (·.point.timestamp) ↔
      (table.eventsOf creditId).length ≤ limit := by
  rw [← List.getLast?_map, ← List.getLast?_map, List.map_take,
    Trailing.getLast?_take_iff hpos (timestamps_nodup hdistinct), List.length_map,
    ascending_perm.length_eq]

/-- The chart reaches the present exactly as long as all events of the credit fit into it. -/
theorem chart_reaches_present_iff (hcredit : isNonEmpty creditId)
    (hqueries : table.findManyFails = false)
    (hdistinct : ((table.eventsOf creditId).map (·.timestamp)).Nodup) (hpos : 1 ≤ limit)
    (hmax : limit ≤ 1000) :
    ReachesPresent table creditId limit ↔ (table.eventsOf creditId).length ≤ limit := by
  obtain ⟨chart, hchart, hhistory, hupdated⟩ :=
    getPriceChartData_charted hcredit hqueries hpos hmax
  constructor
  · rintro ⟨chart', hchart', hpresent, -⟩
    obtain rfl : chart' = chart := by
      simpa using hchart'.symm.trans hchart
    rcases eq_or_ne (table.ascending creditId) [] with hnone | hne
    · rw [← ascending_perm.length_eq, hnone]
      exact Nat.zero_le limit
    · have hlast := (hpresent _ (isLatest_getLast hne)).2
      rw [hupdated, hhistory, List.getLast?_map, Option.map_map] at hlast
      refine (getLast?_take_timestamps_iff hdistinct hpos).mp (hlast.trans ?_)
      rw [List.getLast?_eq_some_getLast hne]
      rfl
  · intro hfits
    have hall : ∀ more, limit ≤ more →
        (table.ascending creditId).take more = table.ascending creditId := fun more hle =>
      List.take_of_length_le (ascending_perm.length_eq.trans_le (hfits.trans hle))
    rw [hall limit le_rfl] at hhistory
    refine ⟨chart, hchart, fun latest hlatest => ?_, fun more hle hmore => ?_⟩
    · have hlast : chart.history.getLast? = some latest.point := by
        rw [hhistory, List.getLast?_map, getLast?_ascending hdistinct hlatest, Option.map_some]
      exact ⟨hlast, by rw [hupdated, hlast]; rfl⟩
    · obtain ⟨longer, hlonger, hhistory', -⟩ :=
        getPriceChartData_charted hcredit hqueries (hpos.trans hle) hmore
      rw [hall more hle, ← hhistory] at hhistory'
      exact ⟨longer, hlonger, hhistory' ▸ List.suffix_rfl⟩

end Present

namespace Sample

def row (timestamp : Nat) (priceUSDC : Rat) : PriceEventRow where
  creditId := "CC-1"
  type := .trade
  priceUSDC := priceUSDC
  volume := some 3
  txHash := none
  ledger := none
  id := toString timestamp
  timestamp := timestamp

def twoTrades : PriceEventTable where
  rows := [row 1000 12, row 2000 15]
  findManyFails := false
  findFirstFails := false

end Sample

/-- Two points have room for both trades. -/
theorem two_points_reach_present : ReachesPresent Sample.twoTrades "CC-1" 2 :=
  (chart_reaches_present_iff (by decide) rfl (by decide) (by decide) (by decide)).mpr (by decide)

/-- A chart of one point ends with the first trade and is said to be updated then. -/
theorem second_trade_missing :
    ((Sample.twoTrades.eventsOf "CC-1").map (·.timestamp)).Nodup ∧
      IsLatest (Sample.twoTrades.eventsOf "CC-1") (Sample.row 2000 15) ∧
      ¬ ReachesPresent Sample.twoTrades "CC-1" 1 := by
  have hlatest : IsLatest (Sample.twoTrades.eventsOf "CC-1") (Sample.row 2000 15) := by
    refine ⟨List.mem_cons_of_mem _ List.mem_cons_self, ?_⟩
    decide
  refine ⟨by decide, hlatest, ?_⟩
  rintro ⟨chart, hchart, hpresent, -⟩
  obtain ⟨chart', hchart', hhistory, hupdated⟩ :=
    @getPriceChartData_charted Sample.twoTrades "CC-1" 1 (by decide) rfl (by decide) (by decide)
  obtain rfl : chart = chart' := by
    simpa using hchart.symm.trans hchart'
  have hlast := (hpresent _ hlatest).2
  rw [hupdated, hhistory] at hlast
  exact absurd hlast (by decide)

end StellarKraal.PriceEvents
