import Mathlib.Algebra.Order.Field.Basic
import Mathlib.Algebra.Order.Floor.Semiring
import Mathlib.Data.List.Count
import Mathlib.Data.List.DropRight
import Mathlib.Logic.Function.Basic

/-!
# What is kept of a stream

What something that reads a stream entry by entry may keep of it: the last entries, how
many there are in each window of time, or a state for each key.
-/

/-! ## The last entries

A log that keeps its last `n` entries is `List.rtake n` of all that was ever written
to it. Trimming before or after a write comes to the same. -/

namespace Trailing

variable {α : Type*} {l : List α} {n m : Nat}

theorem length_rtake (l : List α) (n : Nat) : (l.rtake n).length = min n l.length := by
  rw [List.rtake, List.length_drop]
  omega

theorem rtake_of_length_le (h : l.length ≤ n) : l.rtake n = l := by
  rw [List.rtake, Nat.sub_eq_zero_of_le h, List.drop_zero]

theorem rtake_rtake (l : List α) (n m : Nat) : (l.rtake n).rtake m = l.rtake (min m n) := by
  rw [List.rtake, length_rtake, List.rtake, List.drop_drop, List.rtake]
  congr 1
  omega

/-- All entries but the oldest, where there are more than fit. -/
theorem push_shift (l : List α) (n : Nat) (x : α) :
    (if (l.rtake n ++ [x]).length > n then (l.rtake n ++ [x]).tail else l.rtake n ++ [x]) =
      (l ++ [x]).rtake n := by
  have hlength : (l.rtake n ++ [x]).length = min n l.length + 1 := by
    rw [List.length_append, length_rtake, List.length_singleton]
  split
  next hfull =>
    cases n with
    | zero => simp
    | succ n =>
        have hrest : (l.rtake (n + 1)).drop 1 = l.rtake n := by
          rw [List.rtake, List.drop_drop, List.rtake]
          congr 1
          omega
        have hne : l.rtake (n + 1) ≠ [] := by
          rw [← List.length_pos_iff_ne_nil, length_rtake]
          omega
        rw [List.rtake_concat_succ, List.tail_append_of_ne_nil hne, ← List.drop_one, hrest]
  next hroom =>
    rw [rtake_of_length_le (by omega : l.length ≤ n), rtake_of_length_le]
    rw [List.length_append, List.length_singleton]
    omega

theorem getLast?_rtake (hn : 0 < n) (l : List α) : (l.rtake n).getLast? = l.getLast? := by
  rw [List.rtake, List.getLast?_drop]
  split
  next hall =>
    have hnil : l = [] := List.eq_nil_of_length_eq_zero (by omega)
    rw [hnil, List.getLast?_nil]
  next => rfl

/-- The first entries, where all differ, end with the last one only if they are all. -/
theorem getLast?_take_iff (hn : 0 < n) (hnodup : l.Nodup) :
    (l.take n).getLast? = l.getLast? ↔ l.length ≤ n := by
  constructor
  · intro hlast
    by_contra hlong
    rw [List.getLast?_take, if_neg hn.ne', List.getElem?_eq_getElem (by omega), Option.some_or,
      ← List.getElem?_eq_getElem, List.getLast?_eq_getElem?,
      List.getElem?_inj (by omega) hnodup] at hlast
    omega
  · intro hfits
    rw [List.take_of_length_le hfits]

/-- The last of values that are numbered from zero on. -/
theorem rtake_map_range (f : Nat → α) (k n : Nat) :
    ((List.range k).map f).rtake n = (List.range' (k - min k n) (min k n)).map f := by
  have hrest : (List.range k).drop (k - n) = List.range' (k - min k n) (min k n) := by
    rw [List.range_eq_range', List.drop_range']
    congr 1 <;> omega
  rw [List.rtake, List.length_map, List.length_range, ← List.map_drop, hrest]

end Trailing

/-! ## Windows of one width, end to end

The windows follow one another from a first moment on. Every moment from then on lies in
one of them, and what is counted in a window does not change once the next has begun. -/

namespace TumblingWindows

variable {K : Type*} [Field K] [LinearOrder K]

/-- How many of the times lie in window `j`. -/
def countIn (start width : K) (times : List K) (j : Nat) : Nat :=
  times.countP fun t => start + j * width ≤ t ∧ t < start + (j + 1) * width

/-- How many of the times lie in window `j` or later. -/
def countFrom (start width : K) (times : List K) (j : Nat) : Nat :=
  times.countP fun t => start + j * width ≤ t

variable {start width t : K} {times : List K} {j : Nat}

/-- While no time is later than window `j`, all from there on are in it. -/
theorem countFrom_eq_countIn (h : ∀ t ∈ times, t < start + (j + 1) * width) :
    countFrom start width times j = countIn start width times j := by
  refine List.countP_congr fun t ht => ?_
  simp only [decide_eq_true_eq]
  exact (and_iff_left (h t ht)).symm

theorem countFrom_next (h : ∀ t ∈ times, t < start + (j + 1) * width) :
    countFrom start width times (j + 1) = 0 := by
  refine List.countP_eq_zero.mpr fun t ht => ?_
  simp only [decide_eq_true_eq, not_le]
  exact_mod_cast h t ht

/-- A new time counts in its own window. -/
theorem countFrom_snoc (ht : start + j * width ≤ t) :
    countFrom start width (times ++ [t]) j = countFrom start width times j + 1 := by
  rw [countFrom, List.countP_append, countFrom]
  simp [ht]

variable [IsStrictOrderedRing K]

/-- It does not count in an earlier one. -/
theorem countIn_snoc (hwidth : 0 < width) {i : Nat} (hi : i < j) (ht : start + j * width ≤ t) :
    countIn start width (times ++ [t]) i = countIn start width times i := by
  have hafter : ¬ t < start + (i + 1) * width := by
    refine not_lt.mpr (le_trans ?_ ht)
    have hnext : ((i + 1 : Nat) : K) ≤ j := by exact_mod_cast hi
    push_cast at hnext
    exact add_le_add_right (mul_le_mul_of_nonneg_right hnext hwidth.le) start
  rw [countIn, List.countP_append, countIn]
  simp [hafter]

variable [FloorSemiring K]

/-- The number of the window in which `t` lies. -/
def index (start width t : K) : Nat := ⌊(t - start) / width⌋₊

theorem le_index_iff (hwidth : 0 < width) (ht : start ≤ t) :
    j ≤ index start width t ↔ start + j * width ≤ t := by
  rw [index, Nat.le_floor_iff (div_nonneg (sub_nonneg.mpr ht) hwidth.le), le_div_iff₀ hwidth,
    le_sub_iff_add_le']

theorem lt_next (hwidth : 0 < width) (ht : start ≤ t) :
    t < start + (index start width t + 1) * width := by
  have hnext := (not_congr (le_index_iff (j := index start width t + 1) hwidth ht)).mp (by omega)
  push_cast at hnext
  exact not_le.mp hnext

theorem index_mono (hwidth : 0 < width) {t' : K} (h : t ≤ t') :
    index start width t ≤ index start width t' :=
  Nat.floor_le_floor (div_le_div_of_nonneg_right (sub_le_sub_right h start) hwidth.le)

end TumblingWindows

/-! ## A state for each key

An event reads and writes the state of its own key, if it has one. What is kept for a key
is then what the events of this key alone lead to, whatever comes in between. -/

namespace KeyedStates

variable {Key Event State : Type*} [DecidableEq Key]

def step (key : Event → Option Key) (next : State → Event → State) (states : Key → State)
    (e : Event) : Key → State :=
  match key e with
  | some k => Function.update states k (next (states k) e)
  | none => states

variable {key : Event → Option Key} {next : State → Event → State}

theorem step_apply (states : Key → State) (e : Event) (k : Key) :
    step key next states e k = if key e = some k then next (states k) e else states k := by
  cases hkey : key e with
  | none => simp [step, hkey]
  | some other =>
      simp only [step, hkey, Function.update_apply, Option.some.injEq, eq_comm (a := k)]
      split
      next hsame => rw [hsame]
      next => rfl

/-- The events of other keys make no difference. -/
theorem foldl_step_apply (states : Key → State) (events : List Event) (k : Key) :
    events.foldl (step key next) states k =
      (events.filter (key · = some k)).foldl next (states k) := by
  induction events generalizing states with
  | nil => rfl
  | cons e events ih =>
      rw [List.foldl_cons, ih, step_apply]
      by_cases hkey : key e = some k
      · simp [hkey]
      · simp [hkey]

end KeyedStates
