import StellarKraal.Livestock.Lifecycle

/-!
# Who verified a row

Every row that is verified was marked so by its own mint, by an admin, or by the indexer
after a liquidation. The mark is written some steps after what led to it, so pending
updates carry their origin along.
-/

namespace StellarKraal.Livestock

open Auth (TokenPayload)
open OracleBridge (Json)
open TransitionSystem (Transition)

variable {settings : Settings}

/-- The mint of the row was submitted and confirmed. -/
def MintConfirmed (settings : Settings) (steps : List (Transition Backend Action)) (id : String)
    (row : Row) : Prop :=
  ∃ t ∈ steps, ∃ index txHash firstFails secondFails m,
    t.action = .settle index (some txHash) firstFails secondFails ∧
      t.before.confirming[index]? = some m ∧ m.rowId = id ∧
      m.invocation ∈ t.before.minted ∧ MintedFor settings row m.invocation

/-- An admin asked for this status. -/
def AdminPatched (steps : List (Transition Backend Action)) (id status : String) : Prop :=
  ∃ t ∈ steps, ∃ user body value, t.action = .patch user id body ∧ user.role = "ADMIN" ∧
    Json.parse body = some value ∧ value.fields.get "verificationStatus" = some (.string status)

def LiquidationIndexed (steps : List (Transition Backend Action)) (id : String) : Prop :=
  ∃ t ∈ steps, t.action = .liquidationIndexed id

def VerifiedBy (settings : Settings) (steps : List (Transition Backend Action)) (id : String)
    (row : Row) : Prop :=
  MintConfirmed settings steps id row ∨ AdminPatched steps id "VERIFIED" ∨
    LiquidationIndexed steps id

/-- What the steps so far explain of a state. -/
structure Explained (settings : Settings) (steps : List (Transition Backend Action))
    (b : Backend) : Prop where
  verified : ∀ id row, b.rows.lookup id = some row → row.verificationStatus = "VERIFIED" →
    VerifiedBy settings steps id row
  updates : ∀ u ∈ b.updating, ∀ status, u.verificationStatus = some (.string status) →
    AdminPatched steps u.rowId status

section Explanation

variable {steps : List (Transition Backend Action)} {t : Transition Backend Action} {b : Backend}
  {id : String} {row row' : Row}

theorem AdminPatched.mono {steps' : List (Transition Backend Action)} {status : String}
    (h : AdminPatched steps id status) (hsteps : steps ⊆ steps') :
    AdminPatched steps' id status := by
  obtain ⟨t', ht', h⟩ := h
  exact ⟨t', hsteps ht', h⟩

theorem VerifiedBy.mono {steps' : List (Transition Backend Action)}
    (h : VerifiedBy settings steps id row) (hsteps : steps ⊆ steps') (hrow : row.Becomes row') :
    VerifiedBy settings steps' id row' := by
  rcases h with ⟨t', ht', index, txHash, f, f', m, haction, hm, hid, hsent, hminted⟩ | h |
    ⟨t', ht', h⟩
  · exact .inl ⟨t', hsteps ht', index, txHash, f, f', m, haction, hm, hid, hsent,
      hminted.of_becomes hrow⟩
  · exact .inr (.inl (h.mono hsteps))
  · exact .inr (.inr ⟨t', hsteps ht', h⟩)

/-- What was explained stays so while rows are rewritten and none gets verified
otherwise. -/
theorem Explained.keep {b' : Backend} (h : Explained settings steps b)
    (hrows : KeepsRows b.rows b'.rows)
    (hverified : ∀ id row', b'.rows.lookup id = some row' → row'.verificationStatus = "VERIFIED" →
      VerifiedBy settings (steps ++ [t]) id row' ∨
        ∃ row, b.rows.lookup id = some row ∧ row.verificationStatus = "VERIFIED")
    (hupdating : ∀ u ∈ b'.updating, u ∈ b.updating) :
    Explained settings (steps ++ [t]) b' where
  verified id row' hrow' hstatus := by
    rcases hverified id row' hrow' hstatus with hby | ⟨row, hrow, hold⟩
    · exact hby
    · obtain ⟨row₀, hrow₀, hbecomes⟩ := hrows.back id row' hrow'
      obtain rfl := Option.mem_unique hrow hrow₀
      exact (h.verified id row hrow hold).mono (List.subset_append_left _ _) hbecomes
  updates u hu status hstatus :=
    (h.updates u (hupdating u hu) status hstatus).mono (List.subset_append_left _ _)

/-- Where no row was touched, those that are verified were so before. -/
theorem Explained.same {b' : Backend} (h : Explained settings steps b) (hrows : b'.rows = b.rows)
    (hupdating : b'.updating = b.updating) : Explained settings (steps ++ [t]) b' := by
  apply h.keep
  · exact hrows ▸ .refl b.rows
  · exact fun _ row hrow hstatus => .inr ⟨row, hrows ▸ hrow, hstatus⟩
  · exact fun _ hu => hupdating ▸ hu

/-- A new row is only appraised. -/
theorem Explained.create (h : Explained settings steps b) {p : PendingRegistration}
    {appraisal : AppraisalResult} {registering : List PendingRegistration}
    {minting : List PendingMint} :
    Explained settings (steps ++ [t])
      { b with rows := b.rows.insert id (newRow p id appraisal), registering, minting } where
  verified id' row hrow hstatus := by
    rcases KeyedStore.lookup_insert_cases hrow with ⟨rfl, rfl⟩ | ⟨-, hrow⟩
    · simp [newRow] at hstatus
    · exact (h.verified id' row hrow hstatus).mono (List.subset_append_left _ _) (.refl row)
  updates u hu status hstatus :=
    (h.updates u hu status hstatus).mono (List.subset_append_left _ _)

/-- A settled mint verifies a row only where it was confirmed. -/
theorem Explained.settle (h : Explained settings steps b) {rowId : String}
    {outcome : Option String} {firstFails secondFails : Bool}
    {minting confirming : List PendingMint}
    (hconfirmed : ∀ txHash, outcome = some txHash → ∀ row, b.rows.lookup rowId = some row →
      MintConfirmed settings (steps ++ [t]) rowId row) :
    Explained settings (steps ++ [t])
      { b with rows := settleMint b.rows rowId outcome firstFails secondFails, minting,
               confirming } := by
  refine h.keep (settleMint_keeps b.rows rowId outcome firstFails secondFails) ?_ fun u hu => hu
  intro id row' hrow' hstatus
  rcases settleMint_cases b.rows rowId outcome firstFails secondFails with
    heq | ⟨row, hrow, ⟨txHash, houtcome, heq⟩ | heq⟩ <;>
      simp only [heq] at hrow'
  · exact .inr ⟨row', hrow', hstatus⟩
  · rcases KeyedStore.lookup_insert_cases hrow' with ⟨rfl, rfl⟩ | ⟨-, hrow'⟩
    · have hby : VerifiedBy settings (steps ++ [t]) id row :=
        .inl (hconfirmed txHash houtcome row hrow)
      exact .inl (hby.mono (List.Subset.refl _) ⟨rfl, rfl, rfl, rfl, fun _ h => h⟩)
    · exact .inr ⟨row', hrow', hstatus⟩
  · rcases KeyedStore.lookup_insert_cases hrow' with ⟨rfl, rfl⟩ | ⟨-, hrow'⟩
    · simp at hstatus
    · exact .inr ⟨row', hrow', hstatus⟩

/-- A patch that goes on has a status only from an admin. -/
theorem Explained.patch (h : Explained settings steps b) {user : TokenPayload} {body : String}
    {value : Json} {u : PendingUpdate} (haction : t.action = .patch user id body)
    (hparse : Json.parse body = some value)
    (hu : updateLivestock b.rows user id value.fields = .ok u) :
    Explained settings (steps ++ [t]) { b with updating := b.updating ++ [u] } := by
  have hbody := wellFormed_fields (Json.wellFormed_of_parse hparse)
  obtain ⟨rfl, hadmin, -⟩ := updateLivestock_ok hbody hu
  refine ⟨(h.same rfl rfl : Explained settings (steps ++ [t]) b).verified, ?_⟩
  intro v hv status hstatus
  rcases List.mem_append.mp hv with hv | hv
  · exact (h.updates v hv status hstatus).mono (List.subset_append_left _ _)
  · obtain rfl := List.mem_singleton.mp hv
    obtain ⟨hrole, hsets⟩ := hadmin _ hstatus
    exact ⟨t, List.mem_append_right _ List.mem_cons_self, user, body, value, haction, hrole, hparse,
      hsets⟩

/-- The write of a patch verifies a row only where an admin asked for it. -/
theorem Explained.write (h : Explained settings steps b) (hsound : Sound settings b)
    {u : PendingUpdate} (hu : u ∈ b.updating) {updating : List PendingUpdate}
    (hupdating : ∀ v ∈ updating, v ∈ b.updating) :
    Explained settings (steps ++ [t])
      { b with rows := (writeUpdate b.rows u).getD b.rows, updating } := by
  refine h.keep (hsound.keepsRows_write hu) ?_ hupdating
  intro id row' hrow' hstatus
  cases hwrite : writeUpdate b.rows u with
  | none =>
      simp only [hwrite] at hrow'
      exact .inr ⟨row', hrow', hstatus⟩
  | some rows =>
      obtain ⟨row, status, hrow, rfl, hwho⟩ := writeUpdate_eq_some hwrite
      simp only [hwrite] at hrow'
      rcases KeyedStore.lookup_insert_cases hrow' with ⟨rfl, rfl⟩ | ⟨-, hrow'⟩
      · rcases hwho with rfl | hwho
        · exact .inr ⟨row, hrow, hstatus⟩
        · dsimp only at hstatus
          subst hstatus
          exact .inl (.inr (.inl ((h.updates u hu _ hwho).mono (List.subset_append_left _ _))))
      · exact .inr ⟨row', hrow', hstatus⟩

theorem Explained.indexed (h : Explained settings steps b) (hrow : b.rows.lookup id = some row)
    (haction : t.action = .liquidationIndexed id) :
    Explained settings (steps ++ [t])
      { b with rows := b.rows.insert id { row with verificationStatus := "VERIFIED" } } := by
  refine h.keep (.of_insert hrow ⟨rfl, rfl, rfl, rfl, fun _ h => h⟩) ?_ fun u hu => hu
  intro id' row' hrow' hstatus
  rcases KeyedStore.lookup_insert_cases hrow' with ⟨rfl, rfl⟩ | ⟨-, hrow'⟩
  · exact .inl (.inr (.inr ⟨t, List.mem_append_right _ List.mem_cons_self, haction⟩))
  · exact .inr ⟨row', hrow', hstatus⟩

end Explanation

/-- The step lemma. -/
theorem Explained.step {steps : List (Transition Backend Action)} {b b' : Backend} {a : Action}
    (h : Explained settings steps b) (hsound : Sound settings b)
    (hstep : (backend settings).Step b a b') :
    Explained settings (steps ++ [⟨b, a, b'⟩]) b' := by
  obtain ⟨-, step⟩ := hstep
  generalize ht : (⟨b, a, b'⟩ : Transition Backend Action) = t
  cases a with
  | register user body =>
      obtain ⟨value, -, rfl⟩ := Option.map_eq_some_iff.mp step
      split
      · exact h.same rfl rfl
      · exact h.same rfl rfl
  | create index id oracles =>
      obtain ⟨p, -, rfl⟩ := Option.map_eq_some_iff.mp step
      dsimp only
      split
      next rows mint reply hcreate =>
        obtain ⟨appraisal, -, -, -, rfl, -⟩ := createLivestock_ok hcreate
        exact h.create
      next => exact h.same rfl rfl
  | submit index =>
      obtain ⟨m, -, rfl⟩ := Option.map_eq_some_iff.mp step
      exact h.same rfl rfl
  | abandon index secondFails =>
      obtain ⟨m, -, rfl⟩ := Option.map_eq_some_iff.mp step
      exact h.settle nofun
  | settle index outcome firstFails secondFails =>
      obtain ⟨m, hm, rfl⟩ := Option.map_eq_some_iff.mp step
      apply h.settle
      rintro txHash rfl row hrow
      obtain ⟨hsent, row', hrow', hminted⟩ := hsound.confirming m (List.mem_of_getElem? hm)
      obtain rfl := Option.mem_unique hrow hrow'
      subst ht
      exact ⟨_, List.mem_append_right _ List.mem_cons_self, index, txHash, firstFails, secondFails,
        m, rfl, hm, rfl, hsent, hminted⟩
  | patch user id body =>
      obtain ⟨value, hparse, rfl⟩ := Option.map_eq_some_iff.mp step
      split
      next u hu => exact h.patch (by rw [← ht]) hparse hu
      next => exact h.same rfl rfl
  | write index =>
      obtain ⟨u, hu, rfl⟩ := Option.map_eq_some_iff.mp step
      exact h.write hsound (List.mem_of_getElem? hu) fun v hv => List.mem_of_mem_eraseIdx hv
  | liquidationIndexed id =>
      obtain ⟨rows, hrows, rfl⟩ := Option.map_eq_some_iff.mp step
      obtain ⟨row, hrow, rfl⟩ := updateRow_eq_some.mp hrows
      exact h.indexed hrow (by rw [← ht])

/-- The run lemma. -/
theorem Explained.of_run {b : Backend} {steps : List (Transition Backend Action)}
    (hrun : (backend settings).Run {} steps b) : Explained settings steps b := by
  have hstart : (backend settings).Reachable {} := .of_initial rfl
  induction hrun with
  | nil => exact ⟨nofun, nofun⟩
  | snoc prior step ih => exact ih.step (reachable_sound (hstart.run prior)) step

/-- Where a row is verified, its own mint was confirmed, or an admin patched it, or a
liquidation of its loan was indexed. -/
theorem verified_origin {b : Backend} {steps : List (Transition Backend Action)} {id : String}
    {row : Row} (hrun : (backend settings).Run {} steps b) (hrow : b.rows.lookup id = some row)
    (hstatus : row.verificationStatus = "VERIFIED") : VerifiedBy settings steps id row :=
  (Explained.of_run hrun).verified id row hrow hstatus

/-- The bull was verified in a run that follows its registration. -/
theorem sample_verified_origin : ∃ steps b, (backend Sample.deployment).Run {} steps b ∧
    b.rows.lookup "a" = some Sample.patched ∧
    VerifiedBy Sample.deployment steps "a" Sample.patched := by
  obtain ⟨steps, b, steps', b', hrun, hrun', -, -, hrow⟩ := Sample.exists_runs
  exact ⟨_, b', hrun.trans hrun', hrow, verified_origin (hrun.trans hrun') hrow rfl⟩

/-! ## Submitted mints -/

theorem minted_subset_step {b b' : Backend} {a : Action} (hstep : (backend settings).Step b a b') :
    b.minted ⊆ b'.minted := by
  obtain ⟨-, step⟩ := hstep
  cases a with
  | submit index =>
      obtain ⟨m, -, rfl⟩ := Option.map_eq_some_iff.mp step
      exact List.subset_append_left _ _
  | register user body | patch user id body =>
      obtain ⟨value, -, rfl⟩ := Option.map_eq_some_iff.mp step
      split <;> exact List.Subset.refl _
  | create index id oracles =>
      obtain ⟨p, -, rfl⟩ := Option.map_eq_some_iff.mp step
      dsimp only
      split <;> exact List.Subset.refl _
  | abandon | settle | write | liquidationIndexed =>
      obtain ⟨m, -, rfl⟩ := Option.map_eq_some_iff.mp step
      exact List.Subset.refl _

/-- What was ever submitted is not forgotten. -/
theorem minted_subset {b : Backend} {steps : List (Transition Backend Action)}
    {t : Transition Backend Action} (hrun : (backend settings).Run {} steps b) (ht : t ∈ steps) :
    t.before.minted ⊆ b.minted := by
  induction hrun with
  | nil => contradiction
  | snoc prior step ih =>
      have hlast := minted_subset_step step
      rcases List.mem_append.mp ht with ht | ht
      · exact List.Subset.trans (ih ht) hlast
      · obtain rfl := List.mem_singleton.mp ht
        exact hlast

end StellarKraal.Livestock
