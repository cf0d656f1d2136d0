import Mathlib.Data.List.Sort
import Mathlib.Algebra.Order.Field.Basic
import Mathlib.Tactic.Linarith

/-!
# Order statistics of a list

The `k`-th smallest entry is bounded by counting: it is at least `lo` where at
most `k` entries are smaller. The two middle entries therefore lie in every
interval that holds more than half of the list.
-/

namespace OrderStatistics

variable {α : Type*} [LinearOrder α]

/-- The entry that `k` others stand before when the list is sorted. -/
def kthSmallest (l : List α) (k : Nat) : Option α := (l.insertionSort (· ≤ ·))[k]?

variable {l : List α} {k : Nat} {x lo hi : α}

theorem exists_kthSmallest (hk : k < l.length) : ∃ x, kthSmallest l k = some x := by
  have hsorted : k < (l.insertionSort (· ≤ ·)).length := by simpa using hk
  exact ⟨_, List.getElem?_eq_getElem hsorted⟩

theorem kthSmallest_mem (h : kthSmallest l k = some x) : x ∈ l :=
  (List.mem_insertionSort _).mp (List.mem_of_getElem? h)

theorem kthSmallest_mono {i j : Nat} {y : α} (hi : kthSmallest l i = some x)
    (hj : kthSmallest l j = some y) (hij : i ≤ j) : x ≤ y := by
  obtain ⟨hi', rfl⟩ := List.getElem?_eq_some_iff.mp hi
  obtain ⟨hj', rfl⟩ := List.getElem?_eq_some_iff.mp hj
  rcases hij.eq_or_lt with rfl | hlt
  · exact le_rfl
  · exact List.pairwise_iff_getElem.mp (List.pairwise_insertionSort _ l) i j hi' hj' hlt

/-- Monotone functions carry order statistics along. -/
theorem kthSmallest_map {β : Type*} [LinearOrder β] {f : α → β} (hf : Monotone f)
    (l : List α) (k : Nat) : kthSmallest (l.map f) k = (kthSmallest l k).map f := by
  have hsorted : ((l.insertionSort (· ≤ ·)).map f).Pairwise (· ≤ ·) :=
    (List.pairwise_insertionSort _ l).map f fun _ _ hle => hf hle
  have hsame : (l.map f).insertionSort (· ≤ ·) = (l.insertionSort (· ≤ ·)).map f :=
    List.Perm.eq_of_pairwise' (List.pairwise_insertionSort _ _) hsorted
      ((List.perm_insertionSort _ _).trans ((List.perm_insertionSort _ l).symm.map f))
  rw [kthSmallest, hsame, List.getElem?_map, kthSmallest]

/-- The order in which a list is given does not matter. -/
theorem kthSmallest_perm {l' : List α} (h : l'.Perm l) (k : Nat) :
    kthSmallest l' k = kthSmallest l k := by
  have hsorted : l'.insertionSort (· ≤ ·) = l.insertionSort (· ≤ ·) :=
    List.Perm.eq_of_pairwise' (List.pairwise_insertionSort _ l') (List.pairwise_insertionSort _ l)
      ((List.perm_insertionSort _ l').trans (h.trans (List.perm_insertionSort _ l).symm))
  rw [kthSmallest, hsorted, kthSmallest]

theorem sorted_split (h : kthSmallest l k = some x) :
    ∃ before after, (before ++ x :: after).Perm l ∧ before.length = k ∧
      (∀ y ∈ before, y ≤ x) ∧ ∀ y ∈ after, x ≤ y := by
  have hsorted := List.pairwise_insertionSort (· ≤ ·) l
  obtain ⟨hk, hx⟩ := List.getElem?_eq_some_iff.mp h
  have hsplit : l.insertionSort (· ≤ ·) = (l.insertionSort (· ≤ ·)).take k ++
      x :: (l.insertionSort (· ≤ ·)).drop (k + 1) := by
    rw [← hx, List.getElem_cons_drop, List.take_append_drop]
  rw [hsplit, List.pairwise_append] at hsorted
  obtain ⟨-, hafter, hbefore⟩ := hsorted
  refine ⟨_, _, hsplit ▸ List.perm_insertionSort _ l, ?_, ?_, ?_⟩
  · exact List.length_take_of_le hk.le
  · exact fun y hy => hbefore y hy x List.mem_cons_self
  · exact (List.pairwise_cons.mp hafter).1

/-- At most `k` entries are below `lo`, so the `k`-th smallest is not. -/
theorem le_kthSmallest (h : kthSmallest l k = some x)
    (hfew : l.countP (fun y => decide (y < lo)) ≤ k) : lo ≤ x := by
  by_contra hlt
  rw [not_le] at hlt
  obtain ⟨before, after, hperm, hlength, hle, -⟩ := sorted_split h
  have hbelow : before.countP (fun y => decide (y < lo)) = before.length :=
    List.countP_eq_length.mpr fun y hy => decide_eq_true ((hle y hy).trans_lt hlt)
  have hx : (x :: after).countP (fun y => decide (y < lo)) ≥ 1 := by
    rw [List.countP_cons_of_pos (by simpa using hlt)]
    omega
  rw [← hperm.countP_eq, List.countP_append] at hfew
  omega

/-- So many entries are at most `hi` that the `k`-th smallest is one of them. -/
theorem kthSmallest_le (h : kthSmallest l k = some x)
    (hfew : l.countP (fun y => decide (hi < y)) + k < l.length) : x ≤ hi := by
  by_contra hlt
  rw [not_le] at hlt
  obtain ⟨before, after, hperm, hlength, -, hge⟩ := sorted_split h
  have habove : (x :: after).countP (fun y => decide (hi < y)) = (x :: after).length := by
    refine List.countP_eq_length.mpr fun y hy => decide_eq_true ?_
    rcases List.mem_cons.mp hy with rfl | hy
    · exact hlt
    · exact hlt.trans_le (hge y hy)
  rw [← hperm.countP_eq, List.countP_append, ← hperm.length_eq, List.length_append] at hfew
  omega

/-! ## The middle -/

/-- `low` and `high` stand in the middle of the sorted list; they are the same
entry where the length is odd. -/
structure Middle (l : List α) (low high : α) : Prop where
  low : kthSmallest l ((l.length - 1) / 2) = some low
  high : kthSmallest l (l.length / 2) = some high

variable {low high : α}

theorem Middle.exists (hne : l ≠ []) : ∃ low high, Middle l low high := by
  have hpos := List.length_pos_of_ne_nil hne
  obtain ⟨low, hlow⟩ := exists_kthSmallest (l := l) (k := (l.length - 1) / 2) (by omega)
  obtain ⟨high, hhigh⟩ := exists_kthSmallest (l := l) (k := l.length / 2) (by omega)
  exact ⟨low, high, hlow, hhigh⟩

theorem Middle.eq_of_odd (h : Middle l low high) (hodd : l.length % 2 = 1) : low = high := by
  have hsame : (l.length - 1) / 2 = l.length / 2 := by omega
  exact Option.some.inj (h.low.symm.trans (hsame ▸ h.high))

theorem Middle.unique {low' high' : α} (h : Middle l low high) (h' : Middle l low' high') :
    low' = low ∧ high' = high :=
  ⟨Option.some.inj (h'.low.symm.trans h.low), Option.some.inj (h'.high.symm.trans h.high)⟩

theorem Middle.le (h : Middle l low high) : low ≤ high :=
  kthSmallest_mono h.low h.high (by omega)

/-- No entry lies strictly between the two. -/
theorem Middle.outside (h : Middle l low high) {y : α} (hy : y ∈ l) : y ≤ low ∨ high ≤ y := by
  obtain ⟨k, hk⟩ := List.mem_iff_getElem?.mp ((List.mem_insertionSort (· ≤ ·)).mpr hy)
  rcases le_or_gt k ((l.length - 1) / 2) with hle | hlt
  · exact .inl (kthSmallest_mono hk h.low hle)
  · exact .inr (kthSmallest_mono h.high hk (by omega))

theorem Middle.perm {l' : List α} (h : Middle l low high) (hperm : l'.Perm l) :
    Middle l' low high where
  low := by rw [kthSmallest_perm hperm, hperm.length_eq, h.low]
  high := by rw [kthSmallest_perm hperm, hperm.length_eq, h.high]

theorem Middle.map {β : Type*} [LinearOrder β] {f : α → β} (hf : Monotone f)
    (h : Middle l low high) : Middle (l.map f) (f low) (f high) where
  low := by rw [kthSmallest_map hf, List.length_map, h.low, Option.map_some]
  high := by rw [kthSmallest_map hf, List.length_map, h.high, Option.map_some]

theorem Middle.bounds (h : Middle l low high) {a b : α} (hall : ∀ y ∈ l, a ≤ y ∧ y ≤ b) :
    (a ≤ low ∧ low ≤ b) ∧ a ≤ high ∧ high ≤ b :=
  ⟨hall low (kthSmallest_mem h.low), hall high (kthSmallest_mem h.high)⟩

/-- The middle of a list of equals. -/
theorem Middle.of_replicate {n : Nat} (hn : 0 < n) (a : α) : Middle (List.replicate n a) a a := by
  have hsorted : (List.replicate n a).insertionSort (· ≤ ·) = List.replicate n a :=
    (List.pairwise_replicate.mpr (.inr le_rfl)).insertionSort_eq
  constructor <;> rw [kthSmallest, hsorted, List.length_replicate,
    List.getElem?_replicate_of_lt (by omega)]

/-- Between two halves of equals. -/
theorem Middle.of_halves {n : Nat} (hn : 0 < n) (hle : low ≤ high) :
    Middle (List.replicate n low ++ List.replicate n high) low high := by
  have hsorted : (List.replicate n low ++ List.replicate n high).insertionSort (· ≤ ·) =
      List.replicate n low ++ List.replicate n high := by
    refine List.Pairwise.insertionSort_eq (List.pairwise_append.mpr ⟨?_, ?_, ?_⟩)
    · exact List.pairwise_replicate.mpr (.inr le_rfl)
    · exact List.pairwise_replicate.mpr (.inr le_rfl)
    · intro x hx y hy
      rwa [List.eq_of_mem_replicate hx, List.eq_of_mem_replicate hy]
  have hlength : (List.replicate n low ++ List.replicate n high).length = n + n := by
    rw [List.length_append, List.length_replicate, List.length_replicate]
  constructor
  · rw [kthSmallest, hsorted, hlength, List.getElem?_append_left (by simp; omega),
      List.getElem?_replicate_of_lt (by omega)]
  · rw [kthSmallest, hsorted, hlength, List.getElem?_append_right (by simp; omega),
      List.getElem?_replicate_of_lt (by simp; omega)]

/-- More than half of the list lies between `lo` and `hi`, so the middle does. -/
theorem Middle.of_majority (h : Middle l low high)
    (hmajority : l.length < 2 * l.countP (fun y => decide (lo ≤ y ∧ y ≤ hi))) :
    (lo ≤ low ∧ low ≤ hi) ∧ lo ≤ high ∧ high ≤ hi := by
  have hbelow : l.countP (fun y => decide (y < lo)) +
      l.countP (fun y => decide (lo ≤ y ∧ y ≤ hi)) ≤ l.length := by
    rw [List.length_eq_countP_add_countP (fun y => decide (y < lo)) (l := l)]
    refine Nat.add_le_add_left (List.countP_mono_left fun y _ hy => ?_) _
    simp only [decide_eq_true_eq] at hy
    simpa using hy.1
  have habove : l.countP (fun y => decide (hi < y)) +
      l.countP (fun y => decide (lo ≤ y ∧ y ≤ hi)) ≤ l.length := by
    rw [List.length_eq_countP_add_countP (fun y => decide (hi < y)) (l := l)]
    refine Nat.add_le_add_left (List.countP_mono_left fun y _ hy => ?_) _
    simp only [decide_eq_true_eq] at hy
    simpa using hy.2
  refine ⟨⟨le_kthSmallest h.low (by omega), kthSmallest_le h.low (by omega)⟩,
    le_kthSmallest h.high (by omega), kthSmallest_le h.high (by omega)⟩

end OrderStatistics
