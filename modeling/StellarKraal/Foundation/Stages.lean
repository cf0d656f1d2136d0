import Mathlib.Data.List.Nodup
import Mathlib.Logic.Function.Basic

/-!
# Items that pass stages

Items arrive one after another, and each goes through the same stages at its own pace.
A stage keeps what it has seen. All stages see the items in the order of arrival as
long as none overtakes another.
-/

namespace Stages

variable {α : Type*} {arrived : List α} {seen seen' : Nat → List α} {progress : Nat → Nat}
  {stages item start stop : Nat} {a : α}

/-- Every stage has seen the items that are past it, and these arrived before the others. -/
def Aligned (stages : Nat) (arrived : List α) (seen : Nat → List α) (progress : Nat → Nat) :
    Prop :=
  ∀ i < stages, seen i = arrived.take (seen i).length ∧
    ∀ k < arrived.length, k < (seen i).length ↔ i < progress k

namespace Aligned

theorem nil (stages : Nat) (progress : Nat → Nat) :
    Aligned stages ([] : List α) (fun _ => []) progress := by
  simp [Aligned]

theorem length_le (h : Aligned stages arrived seen progress) {i : Nat} (hi : i < stages) :
    (seen i).length ≤ arrived.length := by
  have hlength := congrArg List.length (h i hi).1
  rw [List.length_take] at hlength
  omega

theorem seen_prefix (h : Aligned stages arrived seen progress) {i : Nat} (hi : i < stages) :
    seen i <+: arrived :=
  (h i hi).1 ▸ List.take_prefix _ _

theorem congr (h : Aligned stages arrived seen progress) {progress' : Nat → Nat}
    (hsame : ∀ k < arrived.length, progress' k = progress k) :
    Aligned stages arrived seen progress' :=
  fun i hi => ⟨(h i hi).1, fun k hk => by rw [(h i hi).2 k hk, hsame k hk]⟩

/-- Where all items are past all stages, each stage has seen all. -/
theorem eq_of_done (h : Aligned stages arrived seen progress)
    (hdone : ∀ k < arrived.length, progress k = stages) {i : Nat} (hi : i < stages) :
    seen i = arrived := by
  obtain ⟨htake, hpast⟩ := h i hi
  rw [htake]
  refine List.take_of_length_le ?_
  by_contra hlt
  have := (hpast (seen i).length (by omega)).mpr (by rw [hdone _ (by omega)]; exact hi)
  omega

/-- An item arrives and has not passed any stage. -/
theorem arrive (h : Aligned stages arrived seen progress) (a : α)
    (hnew : progress arrived.length = 0) : Aligned stages (arrived ++ [a]) seen progress := by
  intro i hi
  obtain ⟨htake, hpast⟩ := h i hi
  have hle := h.length_le hi
  refine ⟨?_, fun k hk => ?_⟩
  · rwa [List.take_append_of_le_length hle]
  · rw [List.length_append, List.length_singleton] at hk
    by_cases hlast : k = arrived.length
    · rw [hlast, hnew]
      omega
    · exact hpast k (by omega)

/-- An item goes on to a later stage, past stages that all items before it have passed. -/
theorem advance (h : Aligned stages arrived seen progress) (ha : arrived[item]? = some a)
    (hle : progress item ≤ stop)
    (hseen : ∀ i, seen' i = if progress item ≤ i ∧ i < stop then seen i ++ [a] else seen i)
    (hbehind : ∀ i < stages, progress item ≤ i → i < stop → ∀ k < item, i < progress k) :
    Aligned stages arrived seen' (Function.update progress item stop) := by
  obtain ⟨hitem, ha⟩ := List.getElem?_eq_some_iff.mp ha
  intro i hi
  obtain ⟨htake, hpast⟩ := h i hi
  by_cases hin : progress item ≤ i ∧ i < stop
  · have hlength : (seen i).length = item := by
      have hself := hpast item hitem
      have hbefore : ∀ k < item, k < (seen i).length := fun k hk =>
        (hpast k (by omega)).mpr (hbehind i hi hin.1 hin.2 k hk)
      rcases Nat.eq_zero_or_pos item with hzero | hpos
      · omega
      · have := hbefore (item - 1) (by omega)
        omega
    rw [hseen i, if_pos hin]
    refine ⟨?_, fun k hk => ?_⟩
    · rw [List.length_append, List.length_singleton, hlength, List.take_add_one,
        List.getElem?_eq_getElem hitem, ha, htake, hlength]
      rfl
    · rw [List.length_append, List.length_singleton, hlength]
      by_cases hk' : k = item
      · rw [hk', Function.update_self]
        omega
      · rw [Function.update_of_ne hk', ← hpast k hk, hlength]
        omega
  · rw [hseen i, if_neg hin]
    refine ⟨htake, fun k hk => ?_⟩
    by_cases hk' : k = item
    · rw [hk', Function.update_self, hpast item hitem]
      omega
    · rw [Function.update_of_ne hk', hpast k hk]

/-- A stage that sees an item before one that arrived earlier is out of order. -/
theorem not_prefix_of_overtaken (h : Aligned stages arrived seen progress)
    (hnodup : arrived.Nodup) (ha : arrived[item]? = some a) {i k : Nat} (hi : i < stages)
    (hk : k < item) (hbehind : progress k ≤ i) : ¬ seen i ++ [a] <+: arrived := by
  intro hseen
  obtain ⟨hitem, ha⟩ := List.getElem?_eq_some_iff.mp ha
  have hlength : (seen i).length ≤ k := by
    have := (h i hi).2 k (by omega)
    omega
  have hlast : a = arrived[(seen i).length] := by
    simpa using hseen.getElem (i := (seen i).length) (by simp)
  have hsame := (List.Nodup.getElem_inj_iff hnodup).mp (ha.trans hlast)
  omega

end Aligned

end Stages
