import StellarKraal.Foundation.TransitionSystem

/-!
# History variables

Some properties speak of what a state no longer shows: which inputs a total was
formed from, or what was in force when a field was written. A history variable is
computed from the recorded transitions alone, so it adds nothing to the system.
-/

namespace TransitionSystem

/-- A quantity that is updated at every recorded transition. -/
structure HistoryVariable (State Action History : Type*) where
  start : History
  update : History → Transition State Action → History

variable {State Action History : Type*} {S : TransitionSystem State Action}

namespace HistoryVariable

/-- The value after the transitions of a run so far. -/
def after (H : HistoryVariable State Action History) (steps : List (Transition State Action)) :
    History :=
  steps.foldl H.update H.start

variable (H : HistoryVariable State Action History)

@[simp] theorem after_snoc (steps : List (Transition State Action))
    (t : Transition State Action) : H.after (steps ++ [t]) = H.update (H.after steps) t := by
  simp [after]

end HistoryVariable

/-- The invariant rule for a state and a history variable together, along runs
whose transitions all satisfy a side condition. -/
theorem Run.history_invariant (H : HistoryVariable State Action History)
    (good : Transition State Action → Prop) {invariant : History → State → Prop}
    {start s : State} {steps : List (Transition State Action)} (hrun : S.Run start steps s)
    (hgood : ∀ t ∈ steps, good t) (hstart : invariant H.start start)
    (hstep : ∀ h s a s', invariant h s → S.Step s a s' → good ⟨s, a, s'⟩ →
      invariant (H.update h ⟨s, a, s'⟩) s') : invariant (H.after steps) s := by
  induction hrun with
  | nil => exact hstart
  | snoc prior step ih =>
      rw [HistoryVariable.after_snoc]
      apply hstep _ _ _ _ (ih fun t ht => hgood t (List.mem_append_left _ ht)) step
      exact hgood _ (List.mem_append_right _ List.mem_cons_self)

variable (S) in
/-- At every moment of a run, `P` holds of the transitions so far and the state. -/
def Throughout (start : State) (steps : List (Transition State Action))
    (P : List (Transition State Action) → State → Prop) : Prop :=
  ∀ earlier s, earlier <+: steps → S.Run start earlier s → P earlier s

namespace Throughout

variable {start s : State} {steps : List (Transition State Action)}
  {P Q : List (Transition State Action) → State → Prop}

/-- Every prefix of a run is a run. -/
theorem exists_state (hrun : S.Run start steps s) {earlier : List (Transition State Action)}
    (h : earlier <+: steps) : ∃ s, S.Run start earlier s := by
  induction hrun with
  | nil => exact ⟨start, List.prefix_nil.mp h ▸ .nil⟩
  | snoc prior step ih =>
      rcases List.prefix_concat_iff.mp h with rfl | h
      · exact ⟨_, prior.snoc step⟩
      · exact ih h

theorem nil (h : P [] start) : S.Throughout start [] P := by
  intro earlier s hinit hrun
  obtain rfl := List.prefix_nil.mp hinit
  obtain rfl := hrun.of_nil
  exact h

/-- One more step adds one more moment. -/
theorem snoc_iff {s' : State} {a : Action} (prior : S.Run start steps s) (step : S.Step s a s') :
    S.Throughout start (steps ++ [⟨s, a, s'⟩]) P ↔
      S.Throughout start steps P ∧ P (steps ++ [⟨s, a, s'⟩]) s' := by
  constructor
  · intro h
    refine ⟨fun earlier v hinit => h earlier v (hinit.trans (List.prefix_append _ _)), ?_⟩
    exact h _ _ (List.prefix_refl _) (prior.snoc step)
  · rintro ⟨hearlier, hlast⟩ earlier v hinit hv
    rcases List.prefix_concat_iff.mp hinit with rfl | hinit
    · obtain ⟨-, -, rfl⟩ := hv.of_snoc
      exact hlast
    · exact hearlier earlier v hinit hv

/-- If every step that starts where `P` holds keeps it exactly when the step is
`good`, then `P` holds at every moment exactly when all steps are good. -/
theorem iff_forall (hrun : S.Run start steps s) (good : Transition State Action → Prop)
    (hstart : P [] start)
    (hstep : ∀ earlier s a s', S.Run start earlier s → P earlier s → S.Step s a s' →
      (P (earlier ++ [⟨s, a, s'⟩]) s' ↔ good ⟨s, a, s'⟩)) :
    S.Throughout start steps P ↔ ∀ t ∈ steps, good t := by
  induction hrun with
  | nil => exact iff_of_true (nil hstart) (by simp)
  | @snoc steps s s' a prior step ih =>
      rw [List.forall_mem_append, List.forall_mem_singleton, ← ih, snoc_iff prior step]
      refine and_congr_right fun hearlier => ?_
      exact hstep steps s a s' prior (hearlier steps s (List.prefix_refl _) prior) step

/-- All steps of a run, each seen with the steps before it. -/
theorem forall_split_snoc {α : Type*} {good : List α → α → Prop} {entries : List α} {last : α} :
    (∀ earlier t later, entries ++ [last] = earlier ++ t :: later → good earlier t) ↔
      (∀ earlier t later, entries = earlier ++ t :: later → good earlier t) ∧
        good entries last := by
  constructor
  · intro h
    refine ⟨?_, h entries last [] rfl⟩
    rintro earlier t later rfl
    exact h earlier t (later ++ [last]) (by simp)
  · rintro ⟨hentries, hlast⟩ earlier t later hsplit
    rcases List.eq_nil_or_concat later with rfl | ⟨rest, u, rfl⟩
    · obtain ⟨rfl, hlast'⟩ := List.append_inj' hsplit rfl
      exact List.singleton_inj.mp hlast' ▸ hlast
    · rw [List.concat_eq_append, ← List.cons_append, ← List.append_assoc] at hsplit
      exact hentries earlier t rest (List.append_inj' hsplit rfl).1

theorem forall_split_iff {α : Type*} {good : α → Prop} {entries : List α} :
    (∀ earlier t later, entries = earlier ++ t :: later → good t) ↔ ∀ t ∈ entries, good t := by
  constructor
  · intro h t ht
    obtain ⟨earlier, later, hsplit⟩ := List.append_of_mem ht
    exact h earlier t later hsplit
  · rintro h earlier t later rfl
    exact h t (by simp)

/-- The same where a step may be good or not for what came before it, and where what
good steps keep is stronger than `P`. -/
theorem iff_forall_split (hrun : S.Run start steps s)
    (good : List (Transition State Action) → Transition State Action → Prop)
    (himp : ∀ earlier s, Q earlier s → P earlier s) (hstart : Q [] start)
    (hkeeps : ∀ earlier s a s', S.Run start earlier s → Q earlier s → S.Step s a s' →
      good earlier ⟨s, a, s'⟩ → Q (earlier ++ [⟨s, a, s'⟩]) s')
    (hbreaks : ∀ earlier s a s', S.Run start earlier s → Q earlier s → S.Step s a s' →
      P (earlier ++ [⟨s, a, s'⟩]) s' → good earlier ⟨s, a, s'⟩) :
    S.Throughout start steps P ↔
      ∀ earlier t later, steps = earlier ++ t :: later → good earlier t := by
  have hboth : (S.Throughout start steps P ↔
      ∀ earlier t later, steps = earlier ++ t :: later → good earlier t) ∧
        (S.Throughout start steps P → Q steps s) := by
    induction hrun with
    | nil => exact ⟨iff_of_true (nil (himp [] start hstart)) (by simp), fun _ => hstart⟩
    | @snoc steps s s' a prior step ih =>
        obtain ⟨hiff, hkept⟩ := ih
        rw [forall_split_snoc, ← hiff, snoc_iff prior step]
        have hlast : S.Throughout start steps P →
            (P (steps ++ [⟨s, a, s'⟩]) s' ↔ good steps ⟨s, a, s'⟩) := by
          intro hearlier
          have hQ := hkept hearlier
          exact ⟨hbreaks steps s a s' prior hQ step, fun hgood =>
            himp _ _ (hkeeps steps s a s' prior hQ step hgood)⟩
        refine ⟨and_congr_right hlast, ?_⟩
        rintro ⟨hearlier, hP⟩
        exact hkeeps steps s a s' prior (hkept hearlier) step ((hlast hearlier).mp hP)
  exact hboth.1

end Throughout

/-! ## Since -/

/-- Some entry of the list is a `P`, and every entry after it a `Q`. -/
def Since {α : Type*} (P Q : α → Prop) (entries : List α) : Prop :=
  ∃ earlier t since, entries = earlier ++ t :: since ∧ P t ∧ ∀ u ∈ since, Q u

namespace Since

variable {α : Type*} {P Q : α → Prop}

@[simp] theorem not_nil : ¬ Since P Q [] := by
  rintro ⟨earlier, t, since, hsplit, -⟩
  simp at hsplit

/-- The last entry starts the period, or prolongs it. -/
theorem snoc_iff {entries : List α} {last : α} :
    Since P Q (entries ++ [last]) ↔ P last ∨ Since P Q entries ∧ Q last := by
  constructor
  · rintro ⟨earlier, t, since, hsplit, hP, hQ⟩
    rcases List.eq_nil_or_concat since with rfl | ⟨rest, u, rfl⟩
    · obtain ⟨-, hlast⟩ := List.append_inj' hsplit rfl
      obtain rfl := List.singleton_inj.mp hlast
      exact .inl hP
    · rw [List.concat_eq_append, ← List.cons_append, ← List.append_assoc] at hsplit
      obtain ⟨rfl, hlast⟩ := List.append_inj' hsplit rfl
      obtain rfl := List.singleton_inj.mp hlast
      refine .inr ⟨⟨earlier, t, rest, rfl, hP, fun v hv => hQ v ?_⟩, hQ _ ?_⟩
      · simp [hv]
      · simp
  · rintro (hP | ⟨⟨earlier, t, since, rfl, hP, hQ⟩, hlast⟩)
    · exact ⟨entries, last, [], rfl, hP, by simp⟩
    · refine ⟨earlier, t, since ++ [last], by simp, hP, ?_⟩
      rintro u hu
      rcases List.mem_append.mp hu with hu | hu
      · exact hQ u hu
      · exact List.mem_singleton.mp hu ▸ hlast

/-- Either some entry is the last `P`, or none is. -/
theorem last_or_none (P : α → Prop) (entries : List α) :
    Since P (fun u => ¬ P u) entries ∨ ∀ t ∈ entries, ¬ P t := by
  induction entries using List.reverseRecOn with
  | nil => exact .inr (by simp)
  | append_singleton entries last ih =>
      rw [snoc_iff, List.forall_mem_append, List.forall_mem_singleton]
      by_cases hlast : P last
      · exact .inl (.inl hlast)
      · rcases ih with hsince | hnone
        · exact .inl (.inr ⟨hsince, hlast⟩)
        · exact .inr ⟨hnone, hlast⟩

end Since

end TransitionSystem
