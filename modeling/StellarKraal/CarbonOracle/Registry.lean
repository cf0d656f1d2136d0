import StellarKraal.CarbonOracle.Contract

/-!
# The registry of the carbon oracle

The list of oracles stands in the instance storage, each price under a key of
its own. Three entry points with two different signers keep them together: no
price outlives the registration it was submitted under.
-/

namespace StellarKraal.CarbonOracle

open TransitionSystem (Transition)

variable {w w' : State}

/-- The `Oracles` list, empty before `init`. -/
def registered (w : State) : List Address := (w.settings.map (·.oracles)).getD []

theorem registered_of_settings {s : Settings} (hs : w.settings = some s) :
    registered w = s.oracles := by
  rw [registered, hs]
  rfl

structure Consistent (w : State) : Prop where
  nodup : (registered w).Nodup
  owned : ∀ a v, w.prices.lookup a = some v → a ∈ registered w

/-! ## What the calls do -/

theorem Consistent.of_addOracle {env : Env} {admin oracle : Address} (h : Consistent w)
    (hrun : addOracle env w admin oracle = .ok w') : Consistent w' := by
  obtain ⟨s, hs, -, -, ⟨-, rfl⟩ | ⟨hnew, rfl⟩⟩ := addOracle_ok hrun
  · exact h
  · obtain ⟨hnodup, howned⟩ := h
    rw [registered_of_settings hs] at hnodup
    refine ⟨hnodup.append (List.nodup_singleton oracle) (by simpa using hnew), ?_⟩
    intro a v hv
    have hmem := howned a v hv
    rw [registered_of_settings hs] at hmem
    exact List.mem_append_left _ hmem

theorem Consistent.of_removeOracle {env : Env} {admin oracle : Address} (h : Consistent w)
    (hrun : removeOracle env w admin oracle = .ok w') : Consistent w' := by
  obtain ⟨s, hs, -, -, rfl⟩ := removeOracle_ok hrun
  obtain ⟨hnodup, howned⟩ := h
  rw [registered_of_settings hs] at hnodup
  refine ⟨hnodup.erase oracle, ?_⟩
  intro a v hv
  have hother : a ≠ oracle := by
    rintro rfl
    simp at hv
  rw [AList.lookup_erase_ne hother] at hv
  have hmem := howned a v hv
  rw [registered_of_settings hs] at hmem
  exact (List.mem_erase_of_ne hother).mpr hmem

theorem Consistent.of_submitPrice {env : Env} {oracle : Address} {price : Nat}
    (h : Consistent w) (hrun : submitPrice env w oracle price = .ok w') : Consistent w' := by
  obtain ⟨s, hs, -, hmem, rfl⟩ := submitPrice_ok hrun
  refine ⟨h.nodup, ?_⟩
  intro a v hv
  rcases KeyedStore.lookup_insert_cases hv with ⟨rfl, -⟩ | ⟨-, hold⟩
  · exact (registered_of_settings hs).symm ▸ hmem
  · exact h.owned a v hold

theorem reachable_consistent (hreach : system.Reachable w) : Consistent w := by
  apply hreach.invariant
  · rintro _ ⟨sequence, rfl⟩
    exact ⟨List.nodup_nil, by simp⟩
  · intro w a w' _ h step
    rcases step_cases step with ⟨env, call, -, hexec⟩ | ⟨sequence, -, rfl⟩
    · have hrun : call.run env w = .ok w' := hexec.run
      cases call with
      | init admin maxAge =>
          obtain ⟨hnone, rfl⟩ := init_ok hrun
          refine ⟨List.nodup_nil, fun a v hv => ?_⟩
          have hmem := h.owned a v hv
          simp [registered, hnone] at hmem
      | addOracle => exact h.of_addOracle hrun
      | removeOracle => exact h.of_removeOracle hrun
      | submitPrice => exact h.of_submitPrice hrun
      | getMedianPrice =>
          simp only [Call.run, Except.bind_succeeds, Except.pure_succeeds] at hrun
          obtain ⟨-, -, rfl⟩ := hrun
          exact h
    · exact ⟨h.nodup, h.owned⟩

/-! ## Who may do it -/

/-- The call is signed by the admin in the storage. -/
def SignedByAdmin (env : Env) (w : State) : Prop :=
  ∃ s, w.settings = some s ∧ s.admin ∈ env.signers

/-- A step that changes the registry is a call signed by the admin, and the price
of an oracle is written by a call it has signed itself, or removed by the admin. -/
structure StepAuthorized (w : State) (a : Action) (w' : State) : Prop where
  registry : registered w' ≠ registered w →
    ∃ env call, Executed ⟨w, a, w'⟩ env call ∧ SignedByAdmin env w
  price : ∀ oracle, w'.prices.lookup oracle ≠ w.prices.lookup oracle →
    (∃ env price, Executed ⟨w, a, w'⟩ env (.submitPrice oracle price) ∧ oracle ∈ env.signers ∧
      w'.prices.lookup oracle = some (price, w.sequence)) ∨
    w'.prices.lookup oracle = none ∧
      ∃ env admin, Executed ⟨w, a, w'⟩ env (.removeOracle admin oracle) ∧ SignedByAdmin env w

theorem StepAuthorized.of_same {a : Action} (hregistry : registered w' = registered w)
    (hprices : w'.prices = w.prices) : StepAuthorized w a w' where
  registry h := absurd hregistry h
  price oracle h := absurd (by rw [hprices]) h

theorem step_authorized {a : Action} (step : system.Step w a w') : StepAuthorized w a w' := by
  rcases step_cases step with ⟨env, call, -, hexec⟩ | ⟨sequence, -, rfl⟩
  · have hrun : call.run env w = .ok w' := hexec.run
    cases call with
    | init admin maxAge =>
        obtain ⟨hnone, rfl⟩ := init_ok hrun
        exact .of_same (by simp [registered, hnone]) rfl
    | addOracle admin oracle =>
        obtain ⟨s, hs, rfl, hauth, ⟨-, rfl⟩ | ⟨-, rfl⟩⟩ := addOracle_ok hrun
        · exact .of_same rfl rfl
        · exact ⟨fun _ => ⟨env, _, hexec, s, hs, hauth⟩, fun oracle h => absurd rfl h⟩
    | removeOracle admin oracle =>
        obtain ⟨s, hs, rfl, hauth, rfl⟩ := removeOracle_ok hrun
        refine ⟨fun _ => ⟨env, _, hexec, s, hs, hauth⟩, fun oracle' h => .inr ?_⟩
        have hsame : oracle' = oracle := by
          by_contra hother
          exact h (AList.lookup_erase_ne hother)
        subst hsame
        exact ⟨AList.lookup_erase _ _, env, s.admin, hexec, s, hs, hauth⟩
    | submitPrice oracle price =>
        obtain ⟨s, hs, hauth, -, rfl⟩ := submitPrice_ok hrun
        refine ⟨fun h => absurd rfl h, fun oracle' h => .inl ?_⟩
        have hsame : oracle' = oracle := by
          by_contra hother
          exact h (AList.lookup_insert_ne hother)
        subst hsame
        exact ⟨env, price, hexec, hauth, AList.lookup_insert _⟩
    | getMedianPrice =>
        simp only [Call.run, Except.bind_succeeds, Except.pure_succeeds] at hrun
        obtain ⟨-, -, rfl⟩ := hrun
        exact .of_same rfl rfl
  · exact .of_same rfl rfl

/-! ## Contributions to the median -/

/-- `oracle` is registered with a price that is not too old. -/
def Contributes (w : State) (oracle : Address) : Prop :=
  ∃ s price, w.settings = some s ∧ oracle ∈ s.oracles ∧
    freshPrice w s.maxAgeLedgers oracle = some price

theorem Contributes.stored {oracle : Address} (h : Contributes w oracle) :
    ∃ v, w.prices.lookup oracle = some v := by
  obtain ⟨s, price, -, -, hfresh⟩ := h
  unfold freshPrice at hfresh
  split at hfresh
  next price ledgerSeq hstored => exact ⟨_, hstored⟩
  next => contradiction

/-- Whoever contributes after its removal has submitted since. -/
theorem resubmitted {start : State} (hreach : system.Reachable start) {oracle : Address}
    (hnone : start.prices.lookup oracle = none) {steps : List (Transition State Action)}
    (hrun : system.Run start steps w) (hcontributes : Contributes w oracle) :
    ∃ t ∈ steps, ∃ env price, Executed t env (.submitPrice oracle price) := by
  obtain ⟨v, hv⟩ := hcontributes.stored
  obtain ⟨earlier, t, since, rfl, hsets, -⟩ := hrun.exists_origin
    (fun w => w.prices.lookup oracle)
    (fun t _ => ∃ env price, Executed t env (.submitPrice oracle price)) (fun _ => True)
    hreach hnone (fun s a s' _ step => by
      by_cases hsame : s'.prices.lookup oracle = s.prices.lookup oracle
      · exact .inl ⟨trivial, hsame⟩
      · rcases (step_authorized step).price oracle hsame with
          ⟨env, price, hexec, -, hset⟩ | ⟨hcleared, -⟩
        · exact .inr (.inr ⟨_, ⟨env, price, hexec⟩, hset⟩)
        · exact .inr (.inl hcleared)) hv
  exact ⟨t, by simp, hsets⟩

/-- In every reachable state the oracles are distinct and every stored price is a
registered oracle's. Only the admin changes the registry, and only the oracle
writes its price. An oracle that is removed counts again when it has submitted
again, whenever it is registered. -/
theorem registry_invariant (hreach : system.Reachable w) :
    Consistent w ∧
    (∀ a w', system.Step w a w' → StepAuthorized w a w') ∧
    ∀ env admin oracle w', removeOracle env w admin oracle = .ok w' →
      ∀ steps v, system.Run w' steps v → Contributes v oracle →
        ∃ t ∈ steps, ∃ env price, Executed t env (.submitPrice oracle price) := by
  refine ⟨reachable_consistent hreach, fun a w' step => step_authorized step, ?_⟩
  intro env admin oracle w' hremove steps v hrun hcontributes
  have hstep : system.Step w (.call env (.removeOracle admin oracle)) w' :=
    ⟨trivial, by simp [State.invoke, Call.run, hremove]⟩
  have hnone : w'.prices.lookup oracle = none := by
    obtain ⟨s, -, -, -, rfl⟩ := removeOracle_ok hremove
    exact AList.lookup_erase _ _
  exact resubmitted (hreach.step hstep) hnone hrun hcontributes

/-- One of two oracles is removed and registered again: the other one's price is
the median, and its own is gone. -/
theorem sample_registry_invariant :
    let w := Sample.after [Sample.initialization 50, Sample.registration 1,
      Sample.registration 2, Sample.submission 1 40, Sample.submission 2 60, Sample.removal 1,
      Sample.registration 1]
    Consistent w ∧ registered w = [Sample.oracle 2, Sample.oracle 1] ∧
      w.prices.lookup (Sample.oracle 1) = none ∧ getMedianPrice w = .ok 60 :=
  ⟨(registry_invariant (Sample.after_reachable _)).1, by decide, by decide, by decide⟩

end StellarKraal.CarbonOracle
