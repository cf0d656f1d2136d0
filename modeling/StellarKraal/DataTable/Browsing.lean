import Mathlib.Data.List.ReduceOption
import Mathlib.Data.String.Basic
import StellarKraal.DataTable.Rows
import StellarKraal.Foundation.TransitionSystem

/-!
# Browsing a table

A view of the rows: what is typed filters them after a pause, a header sorts them, the
buttons turn the pages. The rows themselves stay the same, and nothing is loading. A long page
has a container of its own that scrolls; it comes and goes with the length of the page.
-/

namespace StellarKraal.DataTable

structure Props (Row : Type) where
  columns : List (Column Row)
  data : List Row
  enableFilter : Bool
  enablePagination : Bool
  pageSize : ℕ+
  enableVirtualization : Bool
  rowHeight : ℚ
  tableHeight : ℚ
  rowHeight_pos : 0 < rowHeight
  tableHeight_pos : 0 < tableHeight

/-- A pause that is waited for: the text then, and the filter that was in force. -/
structure Debounce where
  localValue : String
  value : String
  deriving DecidableEq

/-- The element that scrolls. -/
structure Container where
  top : ℚ
  /-- The browser has moved it and has yet to say so. -/
  moved : Bool
  deriving DecidableEq

structure View where
  localValue : String
  filterQuery : String
  timer : Option Debounce
  sort : SortState
  currentPage : Nat
  /-- As the scroll handler last had it, of whichever container. -/
  scrollTop : ℚ
  /-- While it is mounted. -/
  container : Option Container
  deriving DecidableEq

inductive Action
  | type (text : String)
  | clear
  | timeout
  | header (colKey : String)
  | press (page : Nat)
  | scroll (top : ℚ)
  /-- The scroll event of a container that the browser has moved. -/
  | report

/-- The page numbers that are offered, with `none` for an ellipsis. -/
def getPageNumbers (current total : Nat) : List (Option Nat) :=
  if total ≤ 7 then (List.range' 1 total).map some
  else
    let start := max 2 (current - 1)
    let last := min (total - 1) (current + 1)
    some 1 :: (if current > 3 then [none] else []) ++
      (List.range' start (last + 1 - start)).map some ++
      (if current < total - 2 then [none] else []) ++ [some total]

/-- Without the ellipses. -/
def offered (current total : Nat) : List Nat := (getPageNumbers current total).reduceOption

variable {Row : Type}

section Rendering

variable (browser : Browser) (props : Props Row) (v : View)

def sortedRows : List Row :=
  sortData browser (filterData browser props.data v.filterQuery props.columns) v.sort props.columns

def totalPages : Nat :=
  if props.enablePagination then pageCount (sortedRows browser props v) props.pageSize else 1

def paginated : List Row :=
  if props.enablePagination then
    pageRows (sortedRows browser props v) props.pageSize v.currentPage
  else sortedRows browser props v

def shouldVirtualize : Bool :=
  props.enableVirtualization && decide ((paginated browser props v).length > 100)

/-- The rows that are drawn, with their numbers on the page. -/
def rendered : List (Row × Nat) :=
  if shouldVirtualize browser props v then
    (visibleItems (paginated browser props v) props.rowHeight props.tableHeight v.scrollTop 5).map
      fun drawn => (drawn.item, drawn.index)
  else (paginated browser props v).zipIdx

/-- How far the container scrolls down. -/
def scrollEnd : ℚ :=
  let totalHeight := (paginated browser props v).length * props.rowHeight
  max 0 (totalHeight - props.tableHeight)

/-- The pages the buttons go to: the first, the one before, those with a number, the one
after, the last. -/
def buttons : List Nat :=
  let total := totalPages browser props v
  [1, v.currentPage - 1] ++ offered v.currentPage total ++ [v.currentPage + 1, total]

end Rendering

namespace View

/-- A text that changed has its own pause. -/
def setLocalValue (v : View) (text : String) : View :=
  if text = v.localValue then v
  else { v with localValue := text, timer := some ⟨text, v.filterQuery⟩ }

/-- A filter that changed goes into the box. -/
def setFilterQuery (v : View) (query : String) : View :=
  if query = v.filterQuery then v
  else ({ v with filterQuery := query } : View).setLocalValue query

def handleClear (v : View) : View := (v.setFilterQuery "").setLocalValue ""

def handleTimeout (v : View) (timer : Debounce) : View :=
  let rested := { v with timer := none }
  if timer.localValue ≠ timer.value then rested.setFilterQuery timer.localValue else rested

def handleSort (v : View) (colKey : String) : View :=
  let dir := if v.sort.columnKey = colKey then nextSortDirection v.sort.direction else .ascending
  { v with sort := ⟨colKey, dir⟩ }

def goTo (v : View) (total page : Nat) : View :=
  if page < 1 ∨ page > total ∨ page = v.currentPage then v else { v with currentPage := page }

end View

section Steps

variable (browser : Browser) (props : Props Row)

/-- A container that is mounted anew is at its top. One that stays is moved up where it
scrolled further than it does now. -/
def View.commit (v : View) : View :=
  let limit := scrollEnd browser props v
  { v with container :=
      if shouldVirtualize browser props v then
        match v.container with
        | none => some ⟨0, false⟩
        | some c => some (if c.top ≤ limit then c else ⟨limit, true⟩)
      else none }

/-- A changed filter is shown with the old page first; the effect then goes to page 1. -/
def View.rerender (v before : View) : View :=
  let committed := v.commit browser props
  if v.filterQuery = before.filterQuery then committed
  else ({ committed with currentPage := 1 } : View).commit browser props

/-- What the handlers set. -/
def View.handle (v : View) : Action → Option View
  | .type text => if props.enableFilter then some (v.setLocalValue text) else none
  | .clear => if props.enableFilter then some v.handleClear else none
  | .timeout => v.timer.map v.handleTimeout
  | .header colKey =>
      if props.columns.any fun col => col.key = colKey ∧ col.sortable then
        some (v.handleSort colKey)
      else none
  | .press page =>
      let total := totalPages browser props v
      if props.enablePagination ∧ total > 1 ∧ page ∈ buttons browser props v then
        some (v.goTo total page)
      else none
  | .scroll top =>
      v.container.bind fun c =>
        if top ≠ c.top ∧ 0 ≤ top ∧ top ≤ scrollEnd browser props v then
          some { v with scrollTop := top, container := some ⟨top, false⟩ }
        else none
  | .report =>
      v.container.bind fun c =>
        if c.moved then some { v with scrollTop := c.top, container := some ⟨c.top, false⟩ }
        else none

/-- Once the effects have run. -/
def View.perform (v : View) (a : Action) : Option View :=
  (v.handle browser props a).map (·.rerender browser props v)

/-- As it is mounted. -/
def View.mounted : View :=
  ({ localValue := ""
     filterQuery := ""
     timer := if props.enableFilter then some ⟨"", ""⟩ else none
     sort := ⟨"", .none⟩
     currentPage := 1
     scrollTop := 0
     container := none } : View).commit browser props

end Steps

def browsing (browser : Browser) (props : Props Row) : TransitionSystem View Action where
  Initial v := v = .mounted browser props
  Step v a v' := v.perform browser props a = some v'

/-! ## Page numbers -/

theorem offered_eq (current total : Nat) :
    offered current total =
      if total ≤ 7 then List.range' 1 total
      else 1 :: List.range' (max 2 (current - 1))
        (min (total - 1) (current + 1) + 1 - max 2 (current - 1)) ++ [total] := by
  have hnone (condition : Prop) [Decidable condition] :
      (if condition then [none] else ([] : List (Option Nat))).reduceOption = [] := by
    split <;> rfl
  have hsome (pages : List Nat) : (pages.map some).reduceOption = pages := by
    rw [List.reduceOption, List.filterMap_map]
    exact List.filterMap_some
  unfold offered getPageNumbers
  split
  · exact hsome _
  · simp only [List.cons_append, List.reduceOption_cons_of_some, List.reduceOption_append, hnone,
      hsome, List.nil_append, List.append_nil, List.reduceOption_singleton, Option.toList_some]

/-- The numbers go up, are those of pages, and the current page is one of them. -/
theorem offered_spec {current total : Nat} (hfirst : 1 ≤ current) (hlast : current ≤ total) :
    (offered current total).Pairwise (· < ·) ∧
      (∀ page ∈ offered current total, 1 ≤ page ∧ page ≤ total) ∧
      current ∈ offered current total := by
  rw [offered_eq]
  split
  · refine ⟨List.pairwise_lt_range', fun page hpage => ?_, ?_⟩
    · rw [List.mem_range'_1] at hpage
      omega
    · rw [List.mem_range'_1]
      omega
  next hmany =>
    refine ⟨?_, fun page hpage => ?_, ?_⟩
    · rw [List.cons_append, List.pairwise_cons, List.pairwise_append]
      refine ⟨fun page hpage => ?_, List.pairwise_lt_range', List.pairwise_singleton _ _,
        fun page hpage other hother => ?_⟩
      · rw [List.mem_append, List.mem_range'_1, List.mem_singleton] at hpage
        omega
      · rw [List.mem_range'_1] at hpage
        rw [List.mem_singleton] at hother
        omega
    · simp only [List.cons_append, List.mem_cons, List.mem_append, List.mem_range'_1,
        List.not_mem_nil, or_false] at hpage
      omega
    · simp only [List.cons_append, List.mem_cons, List.mem_append, List.mem_range'_1,
        List.not_mem_nil, or_false]
      omega

/-! ## What holds of every view -/

section Views

variable {browser : Browser} {props : Props Row} {v v' w : View}

/-- The text in the box is the filter or waits to become it. -/
structure View.Synced (v : View) : Prop where
  waiting : ∀ timer, v.timer = some timer → timer.localValue = v.localValue ∧
    (timer.value = v.filterQuery ∨ v.localValue = v.filterQuery)
  settled : v.timer = none → v.filterQuery = v.localValue

/-- The page exists, and so does the container of a long page. -/
structure View.Valid (browser : Browser) (props : Props Row) (v : View) : Prop
    extends v.Synced where
  first : 1 ≤ v.currentPage
  last : v.currentPage ≤ totalPages browser props v
  mounted : v.container.isSome = shouldVirtualize browser props v
  within : ∀ c, v.container = some c → 0 ≤ c.top

/-- Two views of the same rows in the same order, with the same text in the box. -/
structure View.SameQuery (v v' : View) : Prop where
  localValue : v'.localValue = v.localValue
  filterQuery : v'.filterQuery = v.filterQuery
  sort : v'.sort = v.sort

theorem View.SameQuery.refl (v : View) : v.SameQuery v := ⟨rfl, rfl, rfl⟩

theorem View.SameQuery.trans (h : v.SameQuery w) (h' : w.SameQuery v') : v.SameQuery v' :=
  ⟨h'.localValue.trans h.localValue, h'.filterQuery.trans h.filterQuery, h'.sort.trans h.sort⟩

theorem View.SameQuery.sortedRows (h : v.SameQuery v') :
    sortedRows browser props v' = sortedRows browser props v := by
  rw [DataTable.sortedRows, h.filterQuery, h.sort, ← DataTable.sortedRows]

theorem View.SameQuery.paginated (h : v.SameQuery v') (hpage : v'.currentPage = v.currentPage) :
    paginated browser props v' = paginated browser props v := by
  rw [DataTable.paginated, h.sortedRows, hpage, ← DataTable.paginated]

/-- The number of pages depends on the filter alone. -/
theorem totalPages_congr (h : v'.filterQuery = v.filterQuery) :
    totalPages browser props v' = totalPages browser props v := by
  have hlength : (sortedRows browser props v').length = (sortedRows browser props v).length := by
    unfold sortedRows
    rw [(sortData_perm browser _ v'.sort _).length_eq, (sortData_perm browser _ v.sort _).length_eq,
      h]
  unfold totalPages pageCount
  rw [hlength]

theorem totalPages_pos : 1 ≤ totalPages browser props v := by
  unfold totalPages
  split
  · exact le_max_left _ _
  · exact le_rfl

theorem scrollEnd_nonneg : 0 ≤ scrollEnd browser props v := le_max_left _ _

/-! ### Rendering -/

theorem commit_mounted :
    (v.commit browser props).container.isSome = shouldVirtualize browser props v := by
  unfold View.commit
  dsimp only
  split
  next hvirtual =>
    rw [hvirtual]
    split <;> rfl
  next hshort => simpa using hshort

theorem commit_within (h : ∀ c, v.container = some c → 0 ≤ c.top) :
    ∀ c, (v.commit browser props).container = some c → 0 ≤ c.top := by
  intro c hc
  unfold View.commit at hc
  dsimp only at hc
  split at hc
  next =>
    split at hc
    next =>
      obtain rfl := Option.some.inj hc
      exact le_rfl
    next old hold =>
      obtain rfl := Option.some.inj hc
      split
      · exact h old hold
      · exact scrollEnd_nonneg
  next => contradiction

theorem commit_of_within {c : Container} (hvirtual : shouldVirtualize browser props v = true)
    (hc : v.container = some c) (hend : c.top ≤ scrollEnd browser props v) :
    (v.commit browser props).container = some c := by
  rw [View.commit, hc, if_pos hvirtual]
  exact congrArg some (if_pos hend)

theorem length_paginated_le : (paginated browser props v).length ≤ props.data.length := by
  have hsorted : (sortedRows browser props v).length ≤ props.data.length := by
    rw [sortedRows, (sortData_perm _ _ _ _).length_eq, filterData]
    split
    · exact le_rfl
    · exact List.length_filter_le _ _
  unfold paginated
  split
  · rw [pageRows, List.extract_eq_take_drop]
    exact ((List.take_sublist _ _).trans (List.drop_sublist _ _)).length_le.trans hsorted
  · exact hsorted

/-- Of few rows no page is long. -/
theorem commit_of_few (hfew : props.data.length ≤ 100) (v : View) :
    v.commit browser props = { v with container := none } := by
  have hshort : ¬ shouldVirtualize browser props v = true := by
    rw [shouldVirtualize, Bool.and_eq_true, decide_eq_true_eq]
    exact fun hvirtual => absurd (length_paginated_le.trans hfew) (not_le.mpr hvirtual.2)
  rw [View.commit, if_neg hshort]

theorem View.Synced.rerender (hsynced : w.Synced)
    (hpage : w.filterQuery = v.filterQuery →
      1 ≤ w.currentPage ∧ w.currentPage ≤ totalPages browser props w)
    (hwithin : ∀ c, w.container = some c → 0 ≤ c.top) :
    (w.rerender browser props v).Valid browser props := by
  unfold View.rerender
  dsimp only
  split
  next hsame =>
    exact { waiting := hsynced.waiting, settled := hsynced.settled, first := (hpage hsame).1,
            last := (hpage hsame).2, mounted := commit_mounted, within := commit_within hwithin }
  next =>
    exact { waiting := hsynced.waiting, settled := hsynced.settled, first := le_rfl,
            last := totalPages_pos, mounted := commit_mounted,
            within := commit_within (commit_within hwithin) }

/-! ### Handlers -/

theorem View.Synced.setLocalValue (h : v.Synced) (text : String) :
    (v.setLocalValue text).Synced := by
  unfold View.setLocalValue
  split
  · exact h
  · refine ⟨fun timer htimer => ?_, fun hnone => ?_⟩
    · obtain rfl := Option.some.inj htimer
      exact ⟨rfl, .inl rfl⟩
    · contradiction

theorem View.Synced.setFilterQuery (h : v.Synced) (query : String) :
    (v.setFilterQuery query).Synced := by
  unfold View.setFilterQuery View.setLocalValue
  split
  · exact h
  · split
    next hsame =>
      exact ⟨fun timer htimer => ⟨(h.waiting timer htimer).1, .inr hsame.symm⟩, fun _ => hsame⟩
    next =>
      refine ⟨fun timer htimer => ?_, fun hnone => ?_⟩
      · obtain rfl := Option.some.inj htimer
        exact ⟨rfl, .inr rfl⟩
      · contradiction

/-- When the pause is over, the filter is the text in the box. -/
theorem handleTimeout_eq (h : v.Synced) {timer : Debounce} (htimer : v.timer = some timer) :
    v.handleTimeout timer = { v with timer := none, filterQuery := v.localValue } := by
  obtain ⟨hlocal, hvalue⟩ := h.waiting timer htimer
  unfold View.handleTimeout View.setFilterQuery View.setLocalValue
  by_cases hsame : v.filterQuery = v.localValue
  · simp [hlocal, hsame]
  · have hne : timer.localValue ≠ timer.value := by
      rcases hvalue with hvalue | hvalue
      · rw [hlocal, hvalue]
        exact Ne.symm hsame
      · exact absurd hvalue.symm hsame
    simp [hlocal, Ne.symm hsame, hlocal ▸ hne]

/-- Typing and clearing leave the page and the container to the effects. -/
theorem setLocalValue_kept (v : View) (text : String) :
    (v.setLocalValue text).filterQuery = v.filterQuery ∧
      (v.setLocalValue text).currentPage = v.currentPage ∧
      (v.setLocalValue text).container = v.container := by
  unfold View.setLocalValue
  split <;> exact ⟨rfl, rfl, rfl⟩

theorem setFilterQuery_kept (v : View) (query : String) :
    (v.setFilterQuery query).currentPage = v.currentPage ∧
      (v.setFilterQuery query).container = v.container := by
  unfold View.setFilterQuery
  split
  · exact ⟨rfl, rfl⟩
  · exact (setLocalValue_kept _ _).2

/-- As long as a handler leaves the page and the container, its view becomes a valid one. -/
theorem View.Valid.rerender (h : v.Valid browser props) (hsynced : w.Synced)
    (hpage : w.currentPage = v.currentPage) (hcontainer : w.container = v.container) :
    (w.rerender browser props v).Valid browser props := by
  refine hsynced.rerender (fun hsame => ?_) (hcontainer ▸ h.within)
  rw [hpage, totalPages_congr hsame]
  exact ⟨h.first, h.last⟩

theorem View.Valid.goTo (h : v.Valid browser props) (page : Nat) :
    ((v.goTo (totalPages browser props v) page).rerender browser props v).Valid browser props := by
  unfold View.goTo
  split
  next => exact h.rerender h.toSynced rfl rfl
  next hpage =>
    push Not at hpage
    have hsynced : ({ v with currentPage := page } : View).Synced := ⟨h.waiting, h.settled⟩
    exact hsynced.rerender (fun _ => ⟨hpage.1, hpage.2.1.trans_eq (totalPages_congr rfl).symm⟩)
      h.within

/-- A scroll event stays within the container. -/
theorem View.Valid.scrolled (h : v.Valid browser props) {top : ℚ} (htop : 0 ≤ top) :
    (({ v with scrollTop := top, container := some ⟨top, false⟩ } : View).rerender browser props
      v).Valid browser props := by
  have hsynced : ({ v with scrollTop := top, container := some ⟨top, false⟩ } : View).Synced :=
    ⟨h.waiting, h.settled⟩
  refine hsynced.rerender (fun _ => ⟨h.first, h.last.trans_eq (totalPages_congr rfl).symm⟩) ?_
  intro c hc
  obtain rfl := Option.some.inj hc
  exact htop

theorem View.Valid.perform (h : v.Valid browser props) {a : Action}
    (hperform : v.perform browser props a = some v') : v'.Valid browser props := by
  obtain ⟨w, hw, rfl⟩ := Option.map_eq_some_iff.mp hperform
  cases a with
  | type text =>
      obtain ⟨-, hw⟩ := Option.ite_none_right_eq_some.mp hw
      obtain rfl := Option.some.inj hw
      obtain ⟨-, hpage, hcontainer⟩ := setLocalValue_kept v text
      exact h.rerender (h.toSynced.setLocalValue text) hpage hcontainer
  | clear =>
      obtain ⟨-, hw⟩ := Option.ite_none_right_eq_some.mp hw
      obtain rfl := Option.some.inj hw
      obtain ⟨-, hpage, hcontainer⟩ := setLocalValue_kept (v.setFilterQuery "") ""
      obtain ⟨hpage', hcontainer'⟩ := setFilterQuery_kept v ""
      exact h.rerender ((h.toSynced.setFilterQuery "").setLocalValue "") (hpage.trans hpage')
        (hcontainer.trans hcontainer')
  | timeout =>
      obtain ⟨timer, htimer, rfl⟩ := Option.map_eq_some_iff.mp hw
      rw [handleTimeout_eq h.toSynced htimer]
      exact h.rerender ⟨nofun, fun _ => rfl⟩ rfl rfl
  | header colKey =>
      obtain ⟨-, hw⟩ := Option.ite_none_right_eq_some.mp hw
      obtain rfl := Option.some.inj hw
      exact h.rerender ⟨h.waiting, h.settled⟩ rfl rfl
  | press page =>
      obtain ⟨-, hw⟩ := Option.ite_none_right_eq_some.mp hw
      exact Option.some.inj hw ▸ h.goTo page
  | scroll top =>
      obtain ⟨c, -, hw⟩ := Option.bind_eq_some_iff.mp hw
      obtain ⟨⟨-, htop, -⟩, hw⟩ := Option.ite_none_right_eq_some.mp hw
      exact Option.some.inj hw ▸ h.scrolled htop
  | report =>
      obtain ⟨c, hc, hw⟩ := Option.bind_eq_some_iff.mp hw
      obtain ⟨-, hw⟩ := Option.ite_none_right_eq_some.mp hw
      exact Option.some.inj hw ▸ h.scrolled (h.within c hc)

theorem View.Valid.of_reachable (h : (browsing browser props).Reachable v) :
    v.Valid browser props := by
  refine h.invariant (fun v hv => ?_) fun v a v' _ hvalid hstep => hvalid.perform hstep
  obtain rfl : v = .mounted browser props := hv
  refine { waiting := fun timer htimer => ?_, settled := fun _ => rfl, first := le_rfl,
           last := totalPages_pos, mounted := commit_mounted, within := commit_within nofun }
  simp only [View.mounted, View.commit, Option.ite_none_right_eq_some, Option.some.injEq] at htimer
  obtain ⟨-, rfl⟩ := htimer
  exact ⟨rfl, .inl rfl⟩

theorem View.Valid.run (h : v.Valid browser props)
    {steps : List (TransitionSystem.Transition View Action)}
    (hrun : (browsing browser props).Run v steps v') : v'.Valid browser props :=
  hrun.invariant_of_steps (fun _ => True) (fun _ _ _ hvalid step _ => hvalid.perform step)
    (fun _ _ => trivial) h

/-! ## What is shown -/

/-- What a view shows of the rows that match. -/
structure Shows (browser : Browser) (props : Props Row) (v : View) : Prop where
  settled : v.timer = none → v.filterQuery = v.localValue
  exactly : (sortedRows browser props v).Perm
    (filterData browser props.data v.filterQuery props.columns)
  sorted : ∀ col, props.columns.find? (·.key = v.sort.columnKey) = some col → col.Uniform →
    v.sort.direction ≠ .none → SortedBy browser col v.sort.dir
      (filterData browser props.data v.filterQuery props.columns) (sortedRows browser props v)
  pages : props.enablePagination →
    ((List.range' 1 (totalPages browser props v)).map
      (pageRows (sortedRows browser props v) props.pageSize)).flatten = sortedRows browser props v
  numbers : 1 ≤ v.currentPage ∧ v.currentPage ≤ totalPages browser props v ∧
    (offered v.currentPage (totalPages browser props v)).Pairwise (· < ·) ∧
    v.currentPage ∈ offered v.currentPage (totalPages browser props v)
  nonempty : sortedRows browser props v ≠ [] → paginated browser props v ≠ []
  drawn : (rendered browser props v).Sublist (paginated browser props v).zipIdx
  visible : ∀ index row, (paginated browser props v)[index]? = some row →
    InView props.rowHeight props.tableHeight v.scrollTop index →
      (row, index) ∈ rendered browser props v

theorem mem_pageRows {sorted : List Row} {pageSize : ℕ+} {index : Nat} {row : Row}
    (h : sorted[index]? = some row) :
    (pageRows sorted pageSize (index / pageSize + 1))[index % pageSize]? = some row := by
  have hsize : index % (pageSize : Nat) < pageSize := Nat.mod_lt _ pageSize.pos
  have hsplit := Nat.div_add_mod' index pageSize
  rw [pageRows, List.extract_eq_take_drop, Nat.add_sub_cancel, Nat.succ_mul,
    Nat.add_sub_cancel_left, List.getElem?_take_of_lt hsize, List.getElem?_drop, hsplit]
  exact h

theorem lt_pageCount {sorted : List Row} {pageSize : ℕ+} {index : Nat}
    (h : index < sorted.length) : index / pageSize + 1 ≤ pageCount sorted pageSize := by
  have hsize : 0 < (pageSize : Nat) := pageSize.pos
  refine le_trans ?_ (le_max_right _ _)
  rw [Nat.le_div_iff_mul_le hsize, Nat.succ_mul]
  have hfloor := Nat.div_mul_le_self index pageSize
  omega

theorem pageRows_ne_nil {sorted : List Row} {pageSize : ℕ+} {page : Nat} (hne : sorted ≠ [])
    (hfirst : 1 ≤ page) (hlast : page ≤ pageCount sorted pageSize) :
    pageRows sorted pageSize page ≠ [] := by
  have hsize : 0 < (pageSize : Nat) := pageSize.pos
  have hlength : (page - 1) * pageSize < sorted.length := by
    have hpos := List.length_pos_of_ne_nil hne
    rcases Nat.eq_or_lt_of_le hfirst with rfl | hlater
    · simpa using hpos
    · have hceil : page ≤ (sorted.length + pageSize - 1) / pageSize := by
        rcases le_max_iff.mp hlast with hone | hceil
        · omega
        · exact hceil
      have hmul := (Nat.le_div_iff_mul_le hsize).mp hceil
      rw [Nat.sub_mul, Nat.one_mul]
      omega
  intro hnil
  have hlen := congrArg List.length hnil
  rw [pageRows, List.extract_eq_take_drop, List.length_take, List.length_drop, Nat.sub_mul,
    Nat.one_mul] at hlen
  have hmul : (pageSize : Nat) ≤ page * pageSize := Nat.le_mul_of_pos_left _ hfirst
  rw [Nat.sub_mul, Nat.one_mul] at hlength
  simp only [List.length_nil] at hlen
  omega

theorem mem_rendered {index : Nat} {row : Row}
    (hrow : (paginated browser props v)[index]? = some row)
    (hview : InView props.rowHeight props.tableHeight v.scrollTop index) :
    (row, index) ∈ rendered browser props v := by
  unfold rendered
  split
  · exact List.mem_map_of_mem (f := fun drawn => (drawn.item, drawn.index))
      (mem_visibleItems props.rowHeight_pos props.tableHeight_pos (Nat.succ_pos 4) hrow
        hview)
  · rwa [List.mem_zipIdx_iff_getElem?]

/-- Once the effects have run, every view shows the rows that match, each on one page and in the
order of the column, and draws those that can be seen. -/
theorem rows_shown (hcollates : browser.Collates) (h : (browsing browser props).Reachable v) :
    Shows browser props v := by
  have hvalid := View.Valid.of_reachable h
  obtain ⟨hup, -, hcurrent⟩ := offered_spec hvalid.first hvalid.last
  refine ⟨hvalid.settled, sortData_perm _ _ _ _, fun col hcol huniform hsort =>
    sortData_sortedBy hcollates hcol huniform hsort, fun henabled => ?_,
    ⟨hvalid.first, hvalid.last, hup, hcurrent⟩, fun hne => ?_, ?_, fun index row => mem_rendered⟩
  · rw [totalPages, if_pos henabled]
    exact flatten_pages _ _
  · have hlast := hvalid.last
    unfold totalPages at hlast
    unfold paginated
    split
    next henabled =>
      rw [if_pos henabled] at hlast
      exact pageRows_ne_nil hne hvalid.first hlast
    next => exact hne
  · unfold rendered
    split
    · exact visibleItems_sublist
    · exact .refl _

/-! ## What can be reached -/

/-- A step that keeps the filter shows one commit. -/
theorem perform_of_handle {a : Action} (h : v.handle browser props a = some w)
    (hfilter : w.filterQuery = v.filterQuery) :
    v.perform browser props a = some (w.commit browser props) := by
  rw [View.perform, h, Option.map_some, View.rerender, if_pos hfilter]

/-- A button for another page goes there. -/
theorem perform_press (hvalid : v.Valid browser props) (henabled : props.enablePagination)
    {page : Nat} (hbutton : page ∈ buttons browser props v) (hfirst : 1 ≤ page)
    (hlast : page ≤ totalPages browser props v) (hne : page ≠ v.currentPage) :
    v.perform browser props (.press page) =
      some (({ v with currentPage := page } : View).commit browser props) := by
  have hmany : totalPages browser props v > 1 := by
    have := hvalid.first
    have := hvalid.last
    omega
  have hguard : ¬(page < 1 ∨ page > totalPages browser props v ∨ page = v.currentPage) := by
    omega
  have hhandle : v.handle browser props (.press page) = some { v with currentPage := page } := by
    simp only [View.handle, henabled, hmany, hbutton, and_self, if_true, View.goTo, if_neg hguard]
  exact perform_of_handle hhandle rfl

/-- Any page can be turned to, one after the other. -/
theorem exists_run_to_page (hvalid : v.Valid browser props) (henabled : props.enablePagination)
    {page : Nat} (hfirst : 1 ≤ page) (hlast : page ≤ totalPages browser props v) :
    ∃ steps v', (browsing browser props).Run v steps v' ∧ v.SameQuery v' ∧
      v'.currentPage = page := by
  rcases Nat.le_total v.currentPage page with hforward | hback
  · induction page, hforward using Nat.le_induction with
    | base => exact ⟨[], v, .nil, .refl v, rfl⟩
    | succ page hforward ih =>
        obtain ⟨steps, v', hrun, hsame, rfl⟩ := ih (hvalid.first.trans hforward) (by omega)
        have hpages : totalPages browser props v' = totalPages browser props v :=
          totalPages_congr hsame.filterQuery
        have hstep := perform_press (hvalid.run hrun) henabled
          (show v'.currentPage + 1 ∈ buttons browser props v' by simp [buttons]) hfirst
          (by rwa [hpages]) (Nat.succ_ne_self _)
        exact ⟨_, _, hrun.snoc hstep, hsame.trans ⟨rfl, rfl, rfl⟩, rfl⟩
  · refine Nat.decreasingInduction' (P := fun page => ∃ steps v',
      (browsing browser props).Run v steps v' ∧ v.SameQuery v' ∧ v'.currentPage = page)
      (fun earlier hless hlater ⟨steps, v', hrun, hsame, hpage⟩ => ?_) hback
      ⟨[], v, .nil, .refl v, rfl⟩
    have hbound := hvalid.last
    have hpages : totalPages browser props v' = totalPages browser props v :=
      totalPages_congr hsame.filterQuery
    have hstep := perform_press (hvalid.run hrun) henabled
      (show earlier ∈ buttons browser props v' by simp [buttons, hpage]) (hfirst.trans hlater)
      (by omega) (by omega)
    exact ⟨_, _, hrun.snoc hstep, hsame.trans ⟨rfl, rfl, rfl⟩, rfl⟩

/-- After the pause the typed text is the filter. -/
theorem exists_run_to_settled (hvalid : v.Valid browser props) :
    ∃ steps v', (browsing browser props).Run v steps v' ∧
      v'.localValue = v.localValue ∧ v'.filterQuery = v.localValue ∧ v'.sort = v.sort := by
  cases htimer : v.timer with
  | none => exact ⟨[], v, .nil, rfl, hvalid.settled htimer, rfl⟩
  | some timer =>
      have hstep : v.perform browser props .timeout =
          some ((v.handleTimeout timer).rerender browser props v) := by
        rw [View.perform, View.handle, htimer, Option.map_some, Option.map_some]
      refine ⟨_, _, .single hstep, ?_⟩
      rw [handleTimeout_eq hvalid.toSynced htimer, View.rerender]
      dsimp only
      split <;> exact ⟨rfl, rfl, rfl⟩

/-- A row of the filter is on one of the pages. -/
theorem exists_run_to_row (hvalid : v.Valid browser props) {row : Row}
    (hrow : row ∈ sortedRows browser props v) :
    ∃ steps v', ∃ index : Nat, (browsing browser props).Run v steps v' ∧ v.SameQuery v' ∧
      (paginated browser props v')[index]? = some row := by
  obtain ⟨index, hindex⟩ := List.getElem?_of_mem hrow
  by_cases henabled : props.enablePagination
  · obtain ⟨hlength, -⟩ := List.getElem?_eq_some_iff.mp hindex
    obtain ⟨steps, v', hrun, hsame, hpage⟩ := exists_run_to_page hvalid henabled
      (Nat.succ_pos (index / props.pageSize)) (by
        rw [totalPages, if_pos henabled]
        exact lt_pageCount hlength)
    refine ⟨steps, v', index % props.pageSize, hrun, hsame, ?_⟩
    rw [paginated, if_pos henabled, hsame.sortedRows, hpage]
    exact mem_pageRows hindex
  · refine ⟨[], v, index, .nil, .refl v, ?_⟩
    rw [paginated, if_neg henabled]
    exact hindex

/-- The container is at the reported position. -/
def View.At (v : View) (top : ℚ) : Prop :=
  v.scrollTop = top ∧ ∃ c, v.container = some c ∧ c.top = top

/-- Elsewhere in the container a scroll goes there. -/
theorem exists_scroll {c : Container} (hvirtual : shouldVirtualize browser props v = true)
    (hc : v.container = some c) {top : ℚ} (hne : top ≠ c.top) (hpos : 0 ≤ top)
    (hend : top ≤ scrollEnd browser props v) :
    ∃ steps v', (browsing browser props).Run v steps v' ∧ v.SameQuery v' ∧
      v'.currentPage = v.currentPage ∧ v'.At top := by
  have hhandle : v.handle browser props (.scroll top) =
      some { v with scrollTop := top, container := some ⟨top, false⟩ } := by
    rw [View.handle, hc, Option.bind_some, if_pos ⟨hne, hpos, hend⟩]
  have hcommitted : (({ v with scrollTop := top, container := some ⟨top, false⟩ } : View).commit
      browser props).container = some ⟨top, false⟩ := commit_of_within hvirtual rfl hend
  exact ⟨_, _, .single (perform_of_handle hhandle rfl), ⟨rfl, rfl, rfl⟩, rfl, rfl, _, hcommitted,
    rfl⟩

/-- A container that scrolls can be brought anywhere. -/
theorem exists_run_to_top (hvalid : v.Valid browser props)
    (hvirtual : shouldVirtualize browser props v = true) {top : ℚ} (hpos : 0 ≤ top)
    (hend : top ≤ scrollEnd browser props v) (hscrolls : 0 < scrollEnd browser props v) :
    ∃ steps v', (browsing browser props).Run v steps v' ∧ v.SameQuery v' ∧
      v'.currentPage = v.currentPage ∧ v'.At top := by
  obtain ⟨c, hc⟩ := Option.isSome_iff_exists.mp (hvalid.mounted.trans hvirtual)
  by_cases hne : top = c.top
  · -- It is there but may not have said so: away and back again.
    obtain ⟨other, hother, hpos', hend'⟩ : ∃ other, other ≠ top ∧ 0 ≤ other ∧
        other ≤ scrollEnd browser props v := by
      by_cases hzero : top = 0
      · exact ⟨_, fun h => hscrolls.ne' (h.trans hzero), hscrolls.le, le_rfl⟩
      · exact ⟨0, Ne.symm hzero, le_rfl, hscrolls.le⟩
    obtain ⟨away, w, hrun, hsame, hpage, -, c', hc', rfl⟩ :=
      exists_scroll hvirtual hc (hne ▸ hother) hpos' hend'
    have hrows : paginated browser props w = paginated browser props v := hsame.paginated hpage
    obtain ⟨back, v', hrun', hsame', hpage', hat⟩ := @exists_scroll _ browser props w c'
      (by rw [shouldVirtualize, hrows]; exact hvirtual) hc' top (Ne.symm hother) hpos
      (by rw [scrollEnd, hrows]; exact hend)
    exact ⟨_, v', hrun.trans hrun', hsame.trans hsame', hpage'.trans hpage, hat⟩
  · exact exists_scroll hvirtual hc hne hpos hend

/-- A long page scrolls, where it is higher than the table. -/
theorem scrollEnd_pos (htable : props.tableHeight < 101 * props.rowHeight)
    (hvirtual : shouldVirtualize browser props v = true) : 0 < scrollEnd browser props v := by
  have hlong : 101 ≤ (paginated browser props v).length := by
    rw [shouldVirtualize, Bool.and_eq_true, decide_eq_true_eq] at hvirtual
    exact hvirtual.2
  have hheight : 101 * props.rowHeight ≤ (paginated browser props v).length * props.rowHeight :=
    mul_le_mul_of_nonneg_right (by exact_mod_cast hlong) props.rowHeight_pos.le
  exact lt_max_of_lt_right (sub_pos.mpr (htable.trans_le hheight))

/-- A row of the page can be scrolled to. -/
theorem exists_run_to_view (htable : props.tableHeight < 101 * props.rowHeight)
    (hvalid : v.Valid browser props) {row : Row} {index : Nat}
    (hrow : (paginated browser props v)[index]? = some row) :
    ∃ steps v', (browsing browser props).Run v steps v' ∧ v.SameQuery v' ∧
      (paginated browser props v')[index]? = some row ∧ (row, index) ∈ rendered browser props v' ∧
      (shouldVirtualize browser props v' = true → ∃ top, v'.At top ∧
        InView props.rowHeight props.tableHeight top index) := by
  have hrowHeight := props.rowHeight_pos
  have htableHeight := props.tableHeight_pos
  by_cases hvirtual : shouldVirtualize browser props v = true
  · have hindex : ((index : ℚ) + 1) * props.rowHeight ≤
        (paginated browser props v).length * props.rowHeight := by
      obtain ⟨hlength, -⟩ := List.getElem?_eq_some_iff.mp hrow
      exact mul_le_mul_of_nonneg_right (by exact_mod_cast hlength) hrowHeight.le
    -- as far down as the row, or as the container scrolls
    obtain ⟨top, htop⟩ : ∃ top, top = min (index * props.rowHeight) (scrollEnd browser props v) :=
      ⟨_, rfl⟩
    have hview : InView props.rowHeight props.tableHeight top index := by
      have hrowTop := min_le_left (index * props.rowHeight) (scrollEnd browser props v)
      have hend : (paginated browser props v).length * props.rowHeight - props.tableHeight ≤
          scrollEnd browser props v := le_max_right _ _
      refine ⟨?_, by linarith⟩
      rcases min_choice (index * props.rowHeight) (scrollEnd browser props v) with hmin | hmin <;>
        linarith
    have hpos : 0 ≤ top := htop ▸ le_min (by positivity) scrollEnd_nonneg
    obtain ⟨steps, v', hrun, hsame, hpage, hat⟩ := exists_run_to_top hvalid hvirtual hpos
      (htop ▸ min_le_right _ _) (scrollEnd_pos htable hvirtual)
    have hrows : paginated browser props v' = paginated browser props v := hsame.paginated hpage
    have hrow' : (paginated browser props v')[index]? = some row := by rwa [hrows]
    refine ⟨steps, v', hrun, hsame, hrow', mem_rendered hrow' ?_, fun _ => ⟨top, hat, hview⟩⟩
    rwa [hat.1]
  · refine ⟨[], v, .nil, .refl v, hrow, ?_, fun h => absurd h hvirtual⟩
    rw [rendered, if_neg hvirtual, List.mem_zipIdx_iff_getElem?]
    exact hrow

/-- Every row that matches the text in the box can be brought into view, whatever was done:
where a page is long, the container is then where the handler has it, with the row in sight.
This needs a table lower than the shortest page with a container of its own: another cannot
scroll, and so never corrects what the handler had of an earlier container. -/
theorem rows_within_reach (htable : props.tableHeight < 101 * props.rowHeight)
    (h : (browsing browser props).Reachable v) {row : Row}
    (hrow : row ∈ filterData browser props.data v.localValue props.columns) :
    ∃ steps v' index, (browsing browser props).Run v steps v' ∧
      v'.localValue = v.localValue ∧ v'.filterQuery = v.localValue ∧ v'.sort = v.sort ∧
      (paginated browser props v')[index]? = some row ∧ (row, index) ∈ rendered browser props v' ∧
      (shouldVirtualize browser props v' = true → ∃ top, v'.At top ∧
        InView props.rowHeight props.tableHeight top index) := by
  have hvalid := View.Valid.of_reachable h
  obtain ⟨waiting, settled, hwait, hlocal, hfilter, hsort⟩ := exists_run_to_settled hvalid
  have hsorted : row ∈ sortedRows browser props settled := by
    rw [sortedRows, (sortData_perm _ _ _ _).mem_iff, hfilter]
    exact hrow
  have hsettled := hvalid.run hwait
  obtain ⟨turning, turned, index, hturn, hsame, hindex⟩ := exists_run_to_row hsettled hsorted
  obtain ⟨scrolling, v', hscroll, hsame', hindex', hdrawn, hview⟩ :=
    exists_run_to_view htable (hsettled.run hturn) hindex
  have hquery := hsame.trans hsame'
  exact ⟨_, v', index, (hwait.trans hturn).trans hscroll, hquery.localValue.trans hlocal,
    hquery.filterQuery.trans hfilter, hquery.sort.trans hsort, hindex', hdrawn, hview⟩

end Views

/-! ## Two listings -/

namespace Sample

def compareTexts (a b : String) : Int := if a < b then -1 else if b < a then 1 else 0

/-- A browser that compares texts by their characters. -/
def browser : Browser where
  numberText value := toString value.num
  toLowerCase := String.toLower
  localeCompare := compareTexts

theorem compareTexts_nonpos {a b : String} : compareTexts a b ≤ 0 ↔ a ≤ b := by
  unfold compareTexts
  rcases lt_trichotomy a b with h | rfl | h
  · simp [h, h.le]
  · simp
  · simp [h, h.not_gt]

theorem compareTexts_nonneg {a b : String} : 0 ≤ compareTexts a b ↔ b ≤ a := by
  unfold compareTexts
  rcases lt_trichotomy a b with h | rfl | h
  · simp [h]
  · simp
  · simp [h.le, h.not_gt, h]

theorem browser_collates : browser.Collates where
  swap _ _ := compareTexts_nonpos.trans compareTexts_nonneg.symm
  trans _ _ _ hab hbc :=
    compareTexts_nonpos.mpr ((compareTexts_nonpos.mp hab).trans (compareTexts_nonpos.mp hbc))

structure CreditListing where
  projectName : String
  pricePerUnit : Nat
  deriving DecidableEq

def props : Props CreditListing where
  columns := [⟨"projectName", fun listing => .text listing.projectName, true⟩,
    ⟨"pricePerUnit", fun listing => .number listing.pricePerUnit, true⟩]
  data := [⟨"Mangroves", 31⟩, ⟨"Peatland", 24⟩, ⟨"Savanna", 18⟩]
  enableFilter := true
  enablePagination := true
  pageSize := 2
  enableVirtualization := true
  rowHeight := 48
  tableHeight := 500
  rowHeight_pos := by norm_num
  tableHeight_pos := by norm_num

/-- The cheapest first, and a filter that is still waited for. -/
def script : List Action := [.timeout, .header "pricePerUnit", .type "PEAT"]

def typed : View where
  localValue := "PEAT"
  filterQuery := ""
  timer := some ⟨"PEAT", ""⟩
  sort := ⟨"pricePerUnit", .ascending⟩
  currentPage := 1
  scrollTop := 0
  container := none

theorem typed_reachable : (browsing browser props).Reachable typed := by
  have hfew (v : View) : v.commit browser props = { v with container := none } :=
    commit_of_few (by decide) v
  have hperform : View.perform browser props = fun v a => (v.handle browser props a).map fun w =>
      if w.filterQuery = v.filterQuery then { w with container := none }
      else { w with currentPage := 1, container := none } := by
    funext v a
    simp only [View.perform, View.rerender, hfew]
  have hreplay : (TransitionSystem.replay (View.perform browser props) (.mounted browser props)
      script).map (·.2) = some typed := by
    rw [hperform, View.mounted, hfew]
    rfl
  obtain ⟨⟨steps, v⟩, hreplay, rfl⟩ := Option.map_eq_some_iff.mp hreplay
  exact ⟨_, steps, rfl, .of_replay (fun _ _ _ => id) hreplay⟩

end Sample

theorem sample_rows_shown : Shows Sample.browser Sample.props Sample.typed :=
  rows_shown Sample.browser_collates Sample.typed_reachable

theorem sample_rows_within_reach :
    ∃ steps v', ∃ index : Nat, (browsing Sample.browser Sample.props).Run Sample.typed steps v' ∧
      v'.filterQuery = "PEAT" ∧
      (⟨"Peatland", 24⟩, index) ∈ rendered Sample.browser Sample.props v' := by
  have hrow : ⟨"Peatland", 24⟩ ∈ filterData Sample.browser Sample.props.data
      Sample.typed.localValue Sample.props.columns := by decide +kernel
  obtain ⟨steps, v', index, hrun, -, hfilter, -, -, hdrawn, -⟩ :=
    rows_within_reach (by norm_num [Sample.props]) Sample.typed_reachable hrow
  exact ⟨steps, v', index, hrun, hfilter, hdrawn⟩

end StellarKraal.DataTable
