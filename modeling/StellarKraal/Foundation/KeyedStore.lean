import Mathlib.Data.List.AList
import Mathlib.Algebra.BigOperators.Group.List.Basic
import Mathlib.Tactic.Abel

/-!
# Keyed stores

Persistent storage is a finite map. Mathlib's association lists with distinct
keys already have the lookup laws; this file adds the one form in which proofs
use them, totals of a quantity over all stored values, and accounts.
-/

/-- A finite map with one value under each key. -/
abbrev KeyedStore (κ ν : Type*) := AList fun _ : κ => ν

namespace KeyedStore

variable {κ ν : Type*} [DecidableEq κ]

/-- Reading after a write, at any key. -/
theorem lookup_insert (m : KeyedStore κ ν) (k k' : κ) (v : ν) :
    (m.insert k v).lookup k' = if k' = k then some v else m.lookup k' := by
  split
  next h => rw [h, AList.lookup_insert]
  next h => exact AList.lookup_insert_ne h

/-- What a write leaves under any key was there before or is the new value. -/
theorem lookup_insert_cases {m : KeyedStore κ ν} {k k' : κ} {v v' : ν}
    (h : (m.insert k v).lookup k' = some v') :
    (k' = k ∧ v' = v) ∨ (k' ≠ k ∧ m.lookup k' = some v') := by
  rw [lookup_insert] at h
  split at h
  next heq => exact .inl ⟨heq, (Option.some.inj h).symm⟩
  next hne => exact .inr ⟨hne, h⟩

/-- A write under a fresh key leaves what is stored. -/
theorem lookup_insert_of_fresh {m : KeyedStore κ ν} {k k' : κ} {v v' : ν} (h : m.lookup k = none)
    (hstored : m.lookup k' = some v') : (m.insert k v).lookup k' = some v' := by
  rw [lookup_insert, if_neg, hstored]
  rintro rfl
  simp [h] at hstored

/-- The same keys with other values. -/
def mapValues {ν' : Type*} (f : κ → ν → ν') (m : KeyedStore κ ν) : KeyedStore κ ν' :=
  (m.entries.map (Sigma.map id f)).toAList

@[simp] theorem lookup_mapValues {ν' : Type*} (f : κ → ν → ν') (m : KeyedStore κ ν) (k : κ) :
    (m.mapValues f).lookup k = (m.lookup k).map (f k) := by
  rw [mapValues, AList.lookup_to_alist]
  exact List.dlookup_map₂ k

section Numbered

variable {m m' : KeyedStore Nat ν} {n : Nat}

/-- Stored under exactly the ids that a counter from one up to `n` has given out. -/
def Numbered (m : KeyedStore Nat ν) (n : Nat) : Prop :=
  ∀ id, (∃ v, m.lookup id = some v) ↔ 1 ≤ id ∧ id ≤ n

theorem Numbered.empty : (∅ : KeyedStore Nat ν).Numbered 0 := by
  intro id
  refine iff_of_false ?_ (by omega)
  rintro ⟨v, hv⟩
  simp at hv

/-- A write under the next id. -/
theorem Numbered.insert_next (h : m.Numbered n) (v : ν) :
    Numbered (m.insert (n + 1) v) (n + 1) := by
  intro id
  rw [lookup_insert]
  split
  next heq => exact iff_of_true ⟨v, rfl⟩ (by omega)
  next hne =>
    rw [h id]
    omega

/-- The ids are what counts, not what is stored under them. -/
theorem Numbered.of_same_ids (h : m.Numbered n)
    (hsame : ∀ id, (∃ v, m'.lookup id = some v) ↔ ∃ v, m.lookup id = some v) : m'.Numbered n :=
  fun id => (hsame id).trans (h id)

/-- A write over a stored value. -/
theorem Numbered.overwrite (h : m.Numbered n) {k : Nat} {old : ν} (hstored : m.lookup k = some old)
    (v : ν) : Numbered (m.insert k v) n := by
  apply h.of_same_ids
  intro id
  rw [lookup_insert]
  split
  next heq => exact iff_of_true ⟨v, rfl⟩ ⟨old, heq ▸ hstored⟩
  next => exact Iff.rfl

end Numbered

section Total

variable {M : Type*} [AddCommMonoid M] (f : ν → M)

/-- The sum of a quantity over all stored values. -/
def total (m : KeyedStore κ ν) : M := (m.entries.map fun e => f e.2).sum

/-- A write under a fresh key adds the new value. -/
theorem total_insert_fresh {m : KeyedStore κ ν} {k : κ} (v : ν) (h : m.lookup k = none) :
    total f (m.insert k v) = f v + total f m := by
  rw [total, AList.entries_insert_of_notMem (AList.lookup_eq_none.mp h)]
  simp [total]

/-- A write over a stored value exchanges the old value for the new one. -/
theorem total_insert_of_lookup {m : KeyedStore κ ν} {k : κ} {old : ν} (v : ν)
    (h : m.lookup k = some old) : total f (m.insert k v) + f old = total f m + f v := by
  have hmem : k ∈ m.entries.keys := by
    rw [← List.dlookup_isSome]
    exact Option.isSome_of_mem h
  obtain ⟨stored, front, back, -, hentries, herase⟩ := List.exists_of_kerase hmem
  have hold : stored = old := by
    have hstored : stored ∈ m.lookup k := by
      rw [AList.mem_lookup_iff, hentries]
      simp
    exact Option.mem_unique hstored h
  subst hold
  rw [total, total, AList.entries_insert, herase, hentries]
  simp only [List.map_cons, List.map_append, List.sum_cons, List.sum_append]
  abel

end Total

/-! ## Accounts

A store of amounts under which nothing stored counts as zero. -/

section Accounts

variable {M : Type*} [AddCommGroup M]

def amountOf (m : KeyedStore κ M) (k : κ) : M := (m.lookup k).getD 0

/-- Add `x`, which may be negative, to the amount under `k`. -/
def credit (m : KeyedStore κ M) (k : κ) (x : M) : KeyedStore κ M :=
  m.insert k (m.amountOf k + x)

theorem amountOf_credit (m : KeyedStore κ M) (k k' : κ) (x : M) :
    (credit m k x).amountOf k' = m.amountOf k' + if k' = k then x else 0 := by
  rw [amountOf, credit, lookup_insert]
  split
  next h => rw [h, Option.getD_some]
  next => rw [add_zero, amountOf]

/-- A credit changes the sum of all amounts by what is added. -/
theorem total_credit (m : KeyedStore κ M) (k : κ) (x : M) :
    total id (credit m k x) = total id m + x := by
  cases h : m.lookup k with
  | none =>
      rw [credit, total_insert_fresh id _ h, amountOf, h, Option.getD_none, zero_add, id, add_comm]
  | some old =>
      have hwrite := total_insert_of_lookup id (m.amountOf k + x) h
      rw [amountOf, h, Option.getD_some] at hwrite
      rw [credit, amountOf, h, Option.getD_some]
      apply add_right_cancel (b := id old)
      rw [hwrite, id, id]
      abel

end Accounts

end KeyedStore
