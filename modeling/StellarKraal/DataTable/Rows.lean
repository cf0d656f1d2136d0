import Mathlib.Algebra.Order.Floor.Ring
import Mathlib.Data.List.Infix
import Mathlib.Data.PNat.Basic
import Mathlib.Data.Rat.Floor
import Mathlib.Tactic.Linarith
import StellarKraal.Foundation.TextInput

/-!
# The rows of a table

The rows that match a text are sorted by a column and cut into pages. Of a long page only
the rows around the visible part are drawn.
-/

namespace StellarKraal.DataTable

/-- What an accessor returns; of a React node only the text that `String(v ?? '')` makes of it. -/
inductive Cell
  | number (value : ℚ)
  | text (value : String)
  | node (shown : String)

/-- What the browser makes of numbers and texts. -/
structure Browser where
  numberText : ℚ → String
  toLowerCase : String → String
  localeCompare : String → String → Int

/-- `localeCompare` puts texts into one order. -/
structure Browser.Collates (browser : Browser) : Prop where
  swap : ∀ a b, browser.localeCompare a b ≤ 0 ↔ 0 ≤ browser.localeCompare b a
  trans : ∀ a b c, browser.localeCompare a b ≤ 0 → browser.localeCompare b c ≤ 0 →
    browser.localeCompare a c ≤ 0

structure Column (Row : Type) where
  key : String
  accessor : Row → Cell
  sortable : Bool

inductive SortDirection
  | ascending
  | descending
  | none
  deriving DecidableEq

structure SortState where
  columnKey : String
  direction : SortDirection
  deriving DecidableEq

variable {Row : Type}

def SortState.dir (sort : SortState) : ℚ := if sort.direction = .ascending then 1 else -1

section Order

variable (browser : Browser)

def Cell.shown : Cell → String
  | .number value => browser.numberText value
  | .text value => value
  | .node shown => shown

def compareCells : Cell → Cell → ℚ
  | .number va, .number vb => va - vb
  | va, vb => browser.localeCompare (va.shown browser) (vb.shown browser)

/-- The comparison of the sort, as whether it is not positive. -/
def Column.le (col : Column Row) (dir : ℚ) (a b : Row) : Bool :=
  compareCells browser (col.accessor a) (col.accessor b) * dir ≤ 0

def sortData (data : List Row) (sort : SortState) (columns : List (Column Row)) : List Row :=
  if sort.direction = .none then data
  else
    match columns.find? (·.key = sort.columnKey) with
    | none => data
    | some col => data.mergeSort (col.le browser sort.dir)

/-- Of the cells only texts and numbers are searched. -/
def Cell.contains (q : String) : Cell → Bool
  | .number value => q.toList <:+: (browser.toLowerCase (browser.numberText value)).toList
  | .text value => q.toList <:+: (browser.toLowerCase value).toList
  | .node _ => false

def rowMatches (query : String) (columns : List (Column Row)) (row : Row) : Bool :=
  columns.any fun col => (col.accessor row).contains browser (browser.toLowerCase query)

def filterData (data : List Row) (query : String) (columns : List (Column Row)) : List Row :=
  if TextInput.trim query = "" then data else data.filter (rowMatches browser query columns)

end Order

def nextSortDirection : SortDirection → SortDirection
  | .none => .ascending
  | .ascending => .descending
  | .descending => .none

/-- The rows of a page; pages are counted from 1. -/
def pageRows (sorted : List Row) (pageSize : ℕ+) (page : Nat) : List Row :=
  sorted.extract ((page - 1) * pageSize) (page * pageSize)

def pageCount (sorted : List Row) (pageSize : ℕ+) : Nat :=
  max 1 ((sorted.length + pageSize - 1) / pageSize)

structure VirtualItem (Row : Type) where
  item : Row
  index : Nat
  top : ℚ

def visibleItems (items : List Row) (rowHeight containerHeight scrollTop : ℚ) (overscan : Nat) :
    List (VirtualItem Row) :=
  let startIdx := (⌊scrollTop / rowHeight⌋ - overscan).toNat
  let visibleCount := ⌈containerHeight / rowHeight⌉.toNat
  let endIdx := min items.length (startIdx + visibleCount + overscan * 2)
  (List.range' startIdx (endIdx - startIdx)).filterMap fun i =>
    items[i]?.map fun item => ⟨item, i, i * rowHeight⟩

/-! ## Sorting -/

section Sorting

variable {browser : Browser} {columns : List (Column Row)} {data : List Row} {sort : SortState}

/-- All cells of the column are numbers, or none is. -/
def Column.Uniform (col : Column Row) : Prop :=
  (∃ value : Row → ℚ, ∀ row, col.accessor row = .number (value row)) ∨
    ∀ row value, col.accessor row ≠ .number value

theorem compareCells_of_uniform {col : Column Row} (huniform : col.Uniform) :
    (∃ value : Row → ℚ, ∀ a b,
      compareCells browser (col.accessor a) (col.accessor b) = value a - value b) ∨
    ∃ shown : Row → String, ∀ a b,
      compareCells browser (col.accessor a) (col.accessor b) =
        browser.localeCompare (shown a) (shown b) := by
  rcases huniform with ⟨value, hnumber⟩ | htext
  · exact .inl ⟨value, fun a b => by rw [hnumber a, hnumber b]; rfl⟩
  · refine .inr ⟨fun row => (col.accessor row).shown browser, fun a b => ?_⟩
    cases ha : col.accessor a with
    | number value => exact absurd ha (htext a value)
    | text value => simp [compareCells, ha]
    | node shown => simp [compareCells, ha]

theorem column_le_trans {col : Column Row} (huniform : col.Uniform) (hcollates : browser.Collates)
    {dir : ℚ} (hdir : dir = 1 ∨ dir = -1) (a b c : Row) (hab : col.le browser dir a b)
    (hbc : col.le browser dir b c) : col.le browser dir a c := by
  simp only [Column.le, decide_eq_true_eq] at hab hbc ⊢
  rcases compareCells_of_uniform huniform with ⟨value, hvalue⟩ | ⟨shown, hshown⟩
  · rw [hvalue] at hab hbc ⊢
    rcases hdir with rfl | rfl <;> linarith
  · rw [hshown] at hab hbc ⊢
    rcases hdir with rfl | rfl
    · simp only [mul_one, Int.cast_nonpos] at hab hbc ⊢
      exact hcollates.trans _ _ _ hab hbc
    · simp only [mul_neg, mul_one, Left.neg_nonpos_iff, Int.cast_nonneg_iff] at hab hbc ⊢
      rw [← hcollates.swap] at hab hbc ⊢
      exact hcollates.trans _ _ _ hbc hab

theorem column_le_total {col : Column Row} (huniform : col.Uniform) (hcollates : browser.Collates)
    {dir : ℚ} (hdir : dir = 1 ∨ dir = -1) (a b : Row) :
    col.le browser dir a b || col.le browser dir b a := by
  simp only [Column.le, Bool.or_eq_true, decide_eq_true_eq]
  rcases compareCells_of_uniform huniform with ⟨value, hvalue⟩ | ⟨shown, hshown⟩
  · rw [hvalue, hvalue]
    rcases le_total (value a) (value b) with h | h <;> rcases hdir with rfl | rfl
    · exact .inl (by linarith)
    · exact .inr (by linarith)
    · exact .inr (by linarith)
    · exact .inl (by linarith)
  · rw [hshown, hshown]
    have hswap := hcollates.swap (shown b) (shown a)
    rcases le_total (browser.localeCompare (shown a) (shown b)) 0 with h | h <;>
      rcases hdir with rfl | rfl
    · exact .inl (by simpa using h)
    · exact .inr (by simpa using (hcollates.swap _ _).mp h)
    · exact .inr (by simpa using hswap.mpr h)
    · exact .inl (by simpa using h)

/-- A column of numbers or of texts puts the rows in order, and leaves those that are tied in
the order of the data. -/
structure SortedBy (browser : Browser) (col : Column Row) (dir : ℚ) (data sorted : List Row) :
    Prop where
  ordered : sorted.Pairwise fun a b => col.le browser dir a b
  stable : ∀ row, sorted.filter (fun other => col.le browser dir row other &&
      col.le browser dir other row) =
    data.filter fun other => col.le browser dir row other && col.le browser dir other row

theorem sortData_perm (browser : Browser) (data : List Row) (sort : SortState)
    (columns : List (Column Row)) : (sortData browser data sort columns).Perm data := by
  unfold sortData
  split
  · exact .refl _
  · split
    next => exact .refl _
    next col _ => exact data.mergeSort_perm _

/-- Tied elements are among the sorted ones in their own order. -/
theorem filter_tied_mergeSort {α : Type*} {le : α → α → Bool}
    (trans : ∀ a b c, le a b → le b c → le a c)
    (total : ∀ a b, le a b || le b a) (items : List α) (x : α) :
    (items.mergeSort le).filter (fun y => le x y && le y x) =
      items.filter fun y => le x y && le y x := by
  have htied : (items.filter fun y => le x y && le y x).Pairwise fun a b => le a b := by
    refine List.pairwise_of_forall_mem_list fun a ha b hb => ?_
    have ha' := List.of_mem_filter ha
    have hb' := List.of_mem_filter hb
    rw [Bool.and_eq_true] at ha' hb'
    exact trans a x b ha'.2 hb'.1
  have hsublist := (List.sublist_mergeSort trans total htied List.filter_sublist).filter
    fun y => le x y && le y x
  rw [List.filter_filter] at hsublist
  simp only [Bool.and_self] at hsublist
  exact (hsublist.eq_of_length ((List.mergeSort_perm items le).filter _).length_eq.symm).symm

theorem sortData_sortedBy (hcollates : browser.Collates) {col : Column Row}
    (hcol : columns.find? (·.key = sort.columnKey) = some col) (huniform : col.Uniform)
    (hsort : sort.direction ≠ .none) :
    SortedBy browser col sort.dir data (sortData browser data sort columns) := by
  have hdir : sort.dir = 1 ∨ sort.dir = -1 := by
    unfold SortState.dir
    split
    · exact .inl rfl
    · exact .inr rfl
  have htrans := column_le_trans huniform hcollates hdir
  have htotal := column_le_total huniform hcollates hdir
  rw [sortData, if_neg hsort]
  simp only [hcol]
  exact ⟨List.pairwise_mergeSort htrans htotal data, filter_tied_mergeSort htrans htotal data⟩

end Sorting

/-! ## Pages -/

section Pages

variable (sorted : List Row) (pageSize : ℕ+)

theorem flatten_pageRows (n : Nat) :
    ((List.range' 1 n).map (pageRows sorted pageSize)).flatten = sorted.take (n * pageSize) := by
  induction n with
  | zero => simp
  | succ n ih =>
      have hpage : pageRows sorted pageSize (1 + n) =
          (sorted.drop (n * pageSize)).take pageSize := by
        rw [pageRows, List.extract_eq_take_drop, Nat.add_sub_cancel_left, Nat.add_comm 1,
          Nat.succ_mul, Nat.add_sub_cancel_left]
      rw [List.range'_1_concat, List.map_append, List.flatten_append, ih, List.map_singleton,
        List.flatten_singleton, hpage, Nat.succ_mul, List.take_add]

/-- The pages are the rows, in order. -/
theorem flatten_pages :
    ((List.range' 1 (pageCount sorted pageSize)).map (pageRows sorted pageSize)).flatten =
      sorted := by
  rw [flatten_pageRows]
  apply List.take_of_length_le
  have hsize : 0 < (pageSize : Nat) := pageSize.pos
  have hdiv := Nat.lt_div_mul_add (a := sorted.length + pageSize - 1) hsize
  have hcount := Nat.mul_le_mul_right (pageSize : Nat)
    (le_max_right 1 ((sorted.length + pageSize - 1) / pageSize))
  rw [pageCount]
  omega

end Pages

/-! ## Rows that are drawn -/

section Virtualization

variable {items : List Row} {rowHeight containerHeight scrollTop : ℚ} {overscan : Nat}

/-- Some of the row is between the top and the bottom of the visible part. -/
def InView (rowHeight containerHeight scrollTop : ℚ) (index : Nat) : Prop :=
  index * rowHeight < scrollTop + containerHeight ∧ scrollTop < (index + 1) * rowHeight

/-- With rows to spare, all that can be seen is drawn, at its place. -/
theorem mem_visibleItems (hrow : 0 < rowHeight) (hheight : 0 < containerHeight)
    (hspare : 0 < overscan) {index : Nat} {item : Row} (hitem : items[index]? = some item)
    (hview : InView rowHeight containerHeight scrollTop index) :
    ⟨item, index, index * rowHeight⟩ ∈
      visibleItems items rowHeight containerHeight scrollTop overscan := by
  obtain ⟨hlength, -⟩ := List.getElem?_eq_some_iff.mp hitem
  have hfloor : ⌊scrollTop / rowHeight⌋ ≤ index := by
    rw [← Int.lt_add_one_iff, Int.floor_lt, div_lt_iff₀ hrow]
    push_cast
    exact hview.2
  have hceil : (index : ℤ) < ⌊scrollTop / rowHeight⌋ + 1 + ⌈containerHeight / rowHeight⌉ := by
    have htop := Int.lt_floor_add_one (scrollTop / rowHeight)
    have hbottom := Int.le_ceil (containerHeight / rowHeight)
    have hlast : (index : ℚ) < scrollTop / rowHeight + containerHeight / rowHeight := by
      rw [← add_div, lt_div_iff₀ hrow]
      exact hview.1
    exact_mod_cast hlast.trans (add_lt_add_of_lt_of_le htop hbottom)
  have hcount : 0 ≤ ⌈containerHeight / rowHeight⌉ := Int.ceil_nonneg (by positivity)
  refine List.mem_filterMap.mpr ⟨index, ?_, by simp [hitem]⟩
  rw [List.mem_range'_1]
  omega

theorem zipIdx_eq_filterMap (items : List Row) :
    items.zipIdx = (List.range' 0 items.length).filterMap fun i =>
      items[i]?.map fun item => (item, i) := by
  induction items using List.reverseRecOn with
  | nil => rfl
  | append_singleton items last ih =>
      have hbefore : (List.range' 0 items.length).filterMap (fun i =>
          (items ++ [last])[i]?.map fun item => (item, i)) = items.zipIdx := by
        rw [ih]
        refine List.filterMap_congr fun i hi => ?_
        rw [List.getElem?_append_left (by simpa using hi)]
      rw [List.zipIdx_append, List.length_append, List.length_singleton, List.range'_concat,
        List.filterMap_append, hbefore]
      simp

/-- What is drawn are rows of the page with their numbers, each once and in order. -/
theorem visibleItems_sublist :
    ((visibleItems items rowHeight containerHeight scrollTop overscan).map fun drawn =>
      (drawn.item, drawn.index)).Sublist items.zipIdx := by
  have hdrawn (indices : List Nat) : (indices.filterMap fun i =>
      items[i]?.map fun item => (⟨item, i, i * rowHeight⟩ : VirtualItem Row)).map
        (fun drawn => (drawn.item, drawn.index)) =
      indices.filterMap fun i => items[i]?.map fun item => (item, i) := by
    rw [List.map_filterMap]
    refine List.filterMap_congr fun i _ => ?_
    rw [Option.map_map]
    rfl
  rw [visibleItems, hdrawn, zipIdx_eq_filterMap]
  apply List.Sublist.filterMap
  generalize (⌊scrollTop / rowHeight⌋ - overscan).toNat = startIdx
  generalize startIdx + ⌈containerHeight / rowHeight⌉.toNat + overscan * 2 = endIdx
  rcases Nat.lt_or_ge items.length startIdx with hover | hstart
  · rw [Nat.sub_eq_zero_of_le (by omega), List.range'_zero]
    exact List.nil_sublist _
  · have hsplit : List.range' 0 startIdx ++ List.range' startIdx (items.length - startIdx) =
        List.range' 0 items.length := by
      simpa [hstart] using @List.range'_append_1 0 startIdx (items.length - startIdx)
    rw [← hsplit]
    refine List.Sublist.trans ?_ (List.sublist_append_right _ _)
    exact List.range'_sublist_right.mpr (by omega)

end Virtualization

end StellarKraal.DataTable
