import StellarKraal.Contract.Protocol

/-!
# Collateral records

Registration adds a record under a fresh id, an appraisal changes what it is
worth, and a loan request locks the records it lists. No record is ever removed.
-/

namespace StellarKraal

/-! ## Locking -/

/-- The locking loop names the new loan in every listed record and leaves the
others alone. -/
theorem lockCollaterals_lookup {collaterals locked : KeyedStore Nat CollateralRecord}
    {loanId : Nat} {ids : List Nat} (h : lockCollaterals collaterals loanId ids = .ok locked)
    (colId : Nat) :
    locked.lookup colId = (collaterals.lookup colId).map fun col =>
      if colId ∈ ids then { col with loanId } else col := by
  induction ids generalizing collaterals with
  | nil =>
      obtain rfl := Except.pure_succeeds.mp h
      cases collaterals.lookup colId <;> simp
  | cons head tail ih =>
      simp only [lockCollaterals, List.foldlM_cons, Except.bind_succeeds, Except.okOr_eq_ok,
        Except.pure_succeeds] at h
      obtain ⟨_, ⟨col, hcol, rfl⟩, hrest⟩ := h
      rw [ih hrest, KeyedStore.lookup_insert]
      by_cases heq : colId = head
      · subst heq
        simp [hcol]
      · simp [heq]

/-- The loop succeeds only over stored records. -/
theorem lockCollaterals_stored {collaterals locked : KeyedStore Nat CollateralRecord}
    {loanId : Nat} {ids : List Nat} (h : lockCollaterals collaterals loanId ids = .ok locked) :
    ∀ colId ∈ ids, ∃ col, collaterals.lookup colId = some col := by
  induction ids generalizing collaterals with
  | nil => simp
  | cons head tail ih =>
      simp only [lockCollaterals, List.foldlM_cons, Except.bind_succeeds, Except.okOr_eq_ok,
        Except.pure_succeeds] at h
      obtain ⟨_, ⟨col, hcol, rfl⟩, hrest⟩ := h
      intro colId hmem
      rcases List.mem_cons.mp hmem with rfl | hmem
      · exact ⟨col, hcol⟩
      · obtain ⟨found, hfound⟩ := ih hrest colId hmem
        rcases KeyedStore.lookup_insert_cases hfound with ⟨rfl, -⟩ | ⟨-, hold⟩
        · exact ⟨col, hcol⟩
        · exact ⟨found, hold⟩

/-! ## What a call does to the records -/

inductive CollateralEffect (w w' : World) : Prop
  | same (hcol : w'.collaterals = w.collaterals)
      (hcounter : w'.collateralCounter = w.collateralCounter)
  | register {owner : Address} {animalType : Symbol} {count : Nat} {value : Int}
      (hvalue : 0 < value) (hcount : 0 < count)
      (hcol : w'.collaterals = w.collaterals.insert (w.collateralCounter + 1)
        ⟨owner, animalType, count, value, 0, [value]⟩)
      (hcounter : w'.collateralCounter = w.collateralCounter + 1)
  | appraise {colId : Nat} {record : CollateralRecord} {value : Int} (hvalue : 0 < value)
      (hstored : w.collaterals.lookup colId = some record)
      (hcol : w'.collaterals = w.collaterals.insert colId { record with
        appraisalHistory := pushAppraisal record.appraisalHistory value
        appraisedValue := value })
      (hcounter : w'.collateralCounter = w.collateralCounter)
  | lock {loanId : Nat} {ids : List Nat}
      (hlocked : lockCollaterals w.collaterals loanId ids = .ok w'.collaterals)
      (hcounter : w'.collateralCounter = w.collateralCounter)

variable {asset : AssetContract}

theorem BookEffect.collaterals {env : Env} {call : Call} {w w' : World}
    (h : BookEffect asset env w call w') : CollateralEffect w w' := by
  cases h with
  | register h =>
      obtain ⟨_, -, -, hvalue, hcount, -, -, -, rfl, rfl⟩ := registerLivestock_ok h
      exact .register hvalue hcount rfl rfl
  | appraise h =>
      obtain ⟨_, record, -, -, hvalue, -, hstored, -, -, rfl⟩ := updateAppraisal_ok h
      exact .appraise hvalue hstored rfl rfl
  | originate h =>
      obtain ⟨hlocked, hworld⟩ := And.intro h.locked h.world
      subst hworld
      exact .lock hlocked rfl
  | repay h =>
      obtain rfl := h.world
      exact .same rfl rfl
  | liquidate h =>
      obtain rfl := h.world
      exact .same rfl rfl
  | withdraw h =>
      obtain ⟨_, -, -, -, -, rfl⟩ := emergencyWithdraw_ok h
      exact .same rfl rfl
  | other h =>
      exact .same (congrArg Book.collaterals h) (congrArg Book.collateralCounter h)

/-! ## Invariants -/

/-- Animals that exist and are worth something. -/
structure CollateralRecord.Sound (col : CollateralRecord) : Prop where
  count_pos : 0 < col.count
  value_pos : 0 < col.appraisedValue

/-- Stored records are sound, and the counter has given out their ids. -/
structure CollateralsSound (w : World) : Prop where
  sound : ∀ colId col, w.collaterals.lookup colId = some col → col.Sound
  numbered : ∀ colId col, w.collaterals.lookup colId = some col → colId ≤ w.collateralCounter

theorem CollateralsSound.next_fresh {w : World} (h : CollateralsSound w) :
    w.collaterals.lookup (w.collateralCounter + 1) = none := by
  cases hlookup : w.collaterals.lookup (w.collateralCounter + 1) with
  | none => rfl
  | some col => exact absurd (h.numbered _ col hlookup) (Nat.not_succ_le_self _)

/-- The step lemma: every record after the call is sound and numbered. -/
theorem CollateralEffect.keeps_sound {w w' : World} (h : CollateralEffect w w')
    (hw : CollateralsSound w) : CollateralsSound w' := by
  suffices hall : ∀ colId col, w'.collaterals.lookup colId = some col →
      col.Sound ∧ colId ≤ w'.collateralCounter from
    ⟨fun colId col hcol => (hall colId col hcol).1, fun colId col hcol => (hall colId col hcol).2⟩
  intro colId col hlookup
  cases h with
  | same hcol hcounter =>
      rw [hcol] at hlookup
      exact ⟨hw.sound _ _ hlookup, hcounter ▸ hw.numbered _ _ hlookup⟩
  | register hvalue hcount hcol hcounter =>
      rw [hcol] at hlookup
      rw [hcounter]
      rcases KeyedStore.lookup_insert_cases hlookup with ⟨rfl, rfl⟩ | ⟨-, hold⟩
      · exact ⟨⟨hcount, hvalue⟩, le_rfl⟩
      · exact ⟨hw.sound _ _ hold, Nat.le_succ_of_le (hw.numbered _ _ hold)⟩
  | appraise hvalue hstored hcol hcounter =>
      rw [hcol] at hlookup
      rw [hcounter]
      rcases KeyedStore.lookup_insert_cases hlookup with ⟨rfl, rfl⟩ | ⟨-, hold⟩
      · exact ⟨⟨(hw.sound _ _ hstored).count_pos, hvalue⟩, hw.numbered _ _ hstored⟩
      · exact ⟨hw.sound _ _ hold, hw.numbered _ _ hold⟩
  | lock hlocked hcounter =>
      rw [lockCollaterals_lookup hlocked] at hlookup
      rw [hcounter]
      obtain ⟨old, hold, rfl⟩ := Option.map_eq_some_iff.mp hlookup
      refine ⟨?_, hw.numbered _ _ hold⟩
      split
      · exact ⟨(hw.sound _ _ hold).count_pos, (hw.sound _ _ hold).value_pos⟩
      · exact hw.sound _ _ hold

theorem reachable_collaterals {w : World} (h : (protocol asset).Reachable w) :
    CollateralsSound w := by
  apply reachable_invariant CollateralsSound (h := h)
  · intro timestamp ledger
    exact ⟨fun _ _ hcol => (nomatch hcol), fun _ _ hcol => (nomatch hcol)⟩
  · intro env call w w' _ hw hrun
    exact (Call.run_bookEffect hrun).collaterals.keeps_sound hw
  · intro w timestamp ledger hw _ _
    exact ⟨hw.sound, hw.numbered⟩

end StellarKraal
