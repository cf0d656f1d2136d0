import Mathlib.Data.List.Chain
import Mathlib.Data.List.Induction

/-!
# The chain a list ends in

Reading a list from the front, a chain is continued while each element is related
to the one before it and started anew where it is not. What is open at the end is
the longest suffix that is a chain.
-/

namespace List

variable {α : Type*} (R : α → α → Prop) [DecidableRel R]

/-- The chain with one more element, or that element alone. -/
def extendChain (chain : List α) (a : α) : List α :=
  if ∀ last ∈ chain.getLast?, R last a then chain ++ [a] else [a]

def lastChain (l : List α) : List α := l.foldl (extendChain R) []

variable {R}

theorem lastChain_concat (l : List α) (a : α) :
    lastChain R (l ++ [a]) = extendChain R (lastChain R l) a := by
  simp [lastChain]

@[simp] theorem getLast?_extendChain (chain : List α) (a : α) :
    (extendChain R chain a).getLast? = some a := by
  unfold extendChain
  split <;> simp

@[simp] theorem getLast?_lastChain (l : List α) : (lastChain R l).getLast? = l.getLast? := by
  induction l using List.reverseRecOn with
  | nil => rfl
  | append_singleton l a _ => simp [lastChain_concat]

theorem isChain_lastChain (l : List α) : (lastChain R l).IsChain R := by
  induction l using List.reverseRecOn with
  | nil => exact .nil
  | append_singleton l a ih =>
      rw [lastChain_concat, extendChain]
      split
      next hrelated =>
        apply ih.append (.singleton a)
        intro last hlast next hnext
        obtain rfl := Option.some.inj hnext
        exact hrelated last hlast
      next => exact .singleton a

theorem lastChain_suffix (l : List α) : lastChain R l <:+ l := by
  induction l using List.reverseRecOn with
  | nil => exact suffix_rfl
  | append_singleton l a ih =>
      rw [lastChain_concat, extendChain]
      split
      · exact suffix_concat_iff.mpr (.inr ⟨_, rfl, ih⟩)
      · exact suffix_append l [a]

/-- No chain at the end of the list is longer. -/
theorem suffix_lastChain {chain l : List α} (hsuffix : chain <:+ l) (hchain : chain.IsChain R) :
    chain <:+ lastChain R l := by
  induction l using List.reverseRecOn generalizing chain with
  | nil => exact hsuffix
  | append_singleton l a ih =>
      rcases suffix_concat_iff.mp hsuffix with rfl | ⟨front, rfl, hfront⟩
      · exact nil_suffix
      · obtain ⟨hinit, -, hrelated⟩ := isChain_append.mp hchain
        rw [lastChain_concat, extendChain]
        split
        next => exact suffix_concat_iff.mpr (.inr ⟨front, rfl, ih hfront hinit⟩)
        -- The chain was broken here, so nothing of it lies before `a`.
        next hbroken =>
          rcases eq_nil_or_concat front with rfl | ⟨rest, last, rfl⟩
          · exact suffix_rfl
          · refine absurd ?_ hbroken
            intro opened hopen
            rw [getLast?_lastChain] at hopen
            obtain ⟨before, rfl⟩ := hfront
            obtain rfl : last = opened := by simpa [← append_assoc] using hopen
            exact hrelated last (by simp) a rfl

end List
