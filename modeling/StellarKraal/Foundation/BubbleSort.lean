import Mathlib.Data.List.GetD
import Mathlib.Data.List.Sort
import Mathlib.Order.Lattice

/-!
# Bubble sort on a prefix of a buffer

The sort compares neighbouring cells and never looks past the cells in use, so
what stands behind them stays there. One pass carries the largest cell of the
unsorted front to its end.
-/

namespace BubbleSort

variable {α : Type*} [LinearOrder α] [Inhabited α]

/-- `if cells[j] > cells[j + 1] { cells.swap(j, j + 1) }`. -/
def compareSwap (cells : List α) (j : Nat) : List α :=
  if cells.getD j default > cells.getD (j + 1) default then
    (cells.set j (cells.getD (j + 1) default)).set (j + 1) (cells.getD j default)
  else cells

/-- The inner loop: `k` comparisons from the front. -/
def pass (cells : List α) (k : Nat) : List α :=
  (List.range k).foldl compareSwap cells

/-- Both loops, over the first `n` cells. -/
def bubbleSort (cells : List α) (n : Nat) : List α :=
  (List.range n).foldl (fun cells i => pass cells (n - 1 - i)) cells

/-! ## One pass -/

theorem compareSwap_head (a b : α) (rest : List α) :
    compareSwap (a :: b :: rest) 0 = min a b :: max a b :: rest := by
  rcases le_total a b with h | h
  · simp [compareSwap, not_lt.mpr h, h]
  · rcases h.lt_or_eq with hlt | rfl
    · simp [compareSwap, hlt, h]
    · simp [compareSwap]

theorem compareSwap_cons (a : α) (cells : List α) (j : Nat) :
    compareSwap (a :: cells) (j + 1) = a :: compareSwap cells j := by
  simp only [compareSwap, List.getD_cons_succ, List.set_cons_succ]
  split <;> rfl

theorem foldl_compareSwap_cons (a : α) (cells : List α) (js : List Nat) :
    (js.map Nat.succ).foldl compareSwap (a :: cells) = a :: js.foldl compareSwap cells := by
  induction js generalizing cells with
  | nil => rfl
  | cons j js ih => rw [List.map_cons, List.foldl_cons, compareSwap_cons, ih, List.foldl_cons]

/-- The smaller of the first two cells is done, the larger goes on. -/
theorem pass_succ (a b : α) (rest : List α) (k : Nat) :
    pass (a :: b :: rest) (k + 1) = min a b :: pass (max a b :: rest) k := by
  rw [pass, List.range_succ_eq_map, List.foldl_cons, compareSwap_head, foldl_compareSwap_cons,
    pass]

/-- A pass over a front of `k + 1` cells leaves a largest one of them at its end. -/
theorem pass_carries_max (k : Nat) (front back : List α) (hlen : front.length = k + 1) :
    ∃ rest largest, pass (front ++ back) k = rest ++ largest :: back ∧
      (rest ++ [largest]).Perm front ∧ ∀ x ∈ rest, x ≤ largest := by
  induction k generalizing front with
  | zero =>
      obtain ⟨a, rfl⟩ := List.length_eq_one_iff.mp hlen
      exact ⟨[], a, rfl, .refl _, by simp⟩
  | succ k ih =>
      match front, hlen with
      | a :: b :: front, hlen =>
          obtain ⟨rest, largest, hpass, hperm, hmax⟩ :=
            ih (max a b :: front) (by simpa using hlen)
          refine ⟨min a b :: rest, largest, ?_, ?_, ?_⟩
          · rw [List.cons_append, List.cons_append, pass_succ, ← List.cons_append, hpass]
            rfl
          · have hpair : [min a b, max a b].Perm [a, b] := by
              rcases le_total a b with h | h
              · simp [h]
              · rw [min_eq_right h, max_eq_left h]
                exact .swap _ _ _
            have hcells : (min a b :: max a b :: front).Perm (a :: b :: front) :=
              hpair.append_right front
            exact (hperm.cons (min a b)).trans hcells
          · intro x hx
            rcases List.mem_cons.mp hx with rfl | hx
            · have hmem : max a b ∈ rest ++ [largest] :=
                hperm.mem_iff.mpr List.mem_cons_self
              have hle : max a b ≤ largest := by
                rcases List.mem_append.mp hmem with h | h
                · exact hmax _ h
                · exact (List.mem_singleton.mp h).le
              exact (min_le_left a b).trans ((le_max_left a b).trans hle)
            · exact hmax x hx

/-! ## All passes -/

/-- What `i` passes over `cells` have achieved: the last `i` of them are in order,
behind smaller ones. -/
structure Sorted (cells : List α) (i : Nat) (front back : List α) : Prop where
  perm : (front ++ back).Perm cells
  length : back.length = i
  ordered : back.Pairwise (· ≤ ·)
  bounded : ∀ x ∈ front, ∀ y ∈ back, x ≤ y

omit [Inhabited α] in
theorem Sorted.next {cells front back rest : List α} {largest : α} {i : Nat}
    (h : Sorted cells i front back) (hperm : (rest ++ [largest]).Perm front)
    (hmax : ∀ x ∈ rest, x ≤ largest) : Sorted cells (i + 1) rest (largest :: back) where
  perm := by
    rw [List.append_cons]
    exact (hperm.append_right back).trans h.perm
  length := by simp [h.length]
  ordered := by
    refine List.pairwise_cons.mpr ⟨?_, h.ordered⟩
    exact h.bounded largest (hperm.mem_iff.mp (by simp))
  bounded x hx y hy := by
    rcases List.mem_cons.mp hy with rfl | hy
    · exact hmax x hx
    · exact h.bounded x (hperm.mem_iff.mp (by simp [hx])) y hy

theorem passes_sorted (cells rest : List α) {i : Nat} (hi : i ≤ cells.length) :
    ∃ front back, (List.range i).foldl (fun cs j => pass cs (cells.length - 1 - j))
        (cells ++ rest) = front ++ back ++ rest ∧ Sorted cells i front back := by
  induction i with
  | zero => exact ⟨cells, [], by simp, by simp, rfl, .nil, by simp⟩
  | succ i ih =>
      obtain ⟨front, back, hfold, hsorted⟩ := ih (by omega)
      have hlength := hsorted.perm.length_eq
      rw [List.length_append, hsorted.length] at hlength
      obtain ⟨rest', largest, hpass, hperm, hmax⟩ :=
        pass_carries_max (cells.length - 1 - i) front (back ++ rest) (by omega)
      refine ⟨rest', largest :: back, ?_, hsorted.next hperm hmax⟩
      rw [List.range_succ, List.foldl_append, hfold, List.foldl_cons, List.foldl_nil,
        List.append_assoc, hpass]
      simp

/-- Bubble sort sorts the cells in use and leaves the rest of the buffer alone. -/
theorem bubbleSort_append (cells rest : List α) :
    bubbleSort (cells ++ rest) cells.length = cells.insertionSort (· ≤ ·) ++ rest := by
  obtain ⟨front, back, hfold, hsorted⟩ := passes_sorted cells rest le_rfl
  have hlength := hsorted.perm.length_eq
  rw [List.length_append, hsorted.length] at hlength
  obtain rfl : front = [] := List.length_eq_zero_iff.mp (by omega)
  have hback : back = cells.insertionSort (· ≤ ·) :=
    List.Perm.eq_of_pairwise' hsorted.ordered (List.pairwise_insertionSort _ cells)
      (hsorted.perm.trans (List.perm_insertionSort _ cells).symm)
  rw [bubbleSort, hfold, hback, List.nil_append]

end BubbleSort
