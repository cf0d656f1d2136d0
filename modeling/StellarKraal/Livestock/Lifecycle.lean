import StellarKraal.Livestock.Registration

/-!
# What holds of registered livestock

However requests interleave, a tag has one row and at most one mint, and what was appraised stays
what the row says: patches write back what they read a while ago, but never touch the
fields that were appraised. A row is verified by its own mint, by an admin, or by the
indexer after a liquidation.
-/

namespace StellarKraal.Livestock

open Aggregation (Number OracleAdapter)
open Auth (TokenPayload)
open Except (refuseIf okOr)
open FloatingPoint (binary64)
open OracleBridge (Json JsonObject)
open OracleBridge.JsonText (WellFormed)
open TransitionSystem (Transition)

variable {settings : Settings}

/-! ## The table -/

theorem findAnimal_isSome_iff {rows : Rows} {animalId : String} :
    (findAnimal rows animalId).isSome ↔
      ∃ id row, rows.lookup id = some row ∧ row.animalId = animalId := by
  simp only [findAnimal, Option.isSome_map, List.find?_isSome, decide_eq_true_eq]
  constructor
  · rintro ⟨⟨id, row⟩, hmem, htag⟩
    exact ⟨id, row, AList.mem_lookup_iff.mpr hmem, htag⟩
  · rintro ⟨id, row, hlookup, htag⟩
    exact ⟨⟨id, row⟩, AList.mem_lookup_iff.mp hlookup, htag⟩

theorem updateRow_eq_some {rows rows' : Rows} {id : String} {f : Row → Row} :
    updateRow rows id f = some rows' ↔
      ∃ row, rows.lookup id = some row ∧ rows.insert id (f row) = rows' := by
  simp [updateRow]

/-- The row was rewritten without touching what was registered. -/
structure Row.Becomes (row row' : Row) : Prop where
  id : row'.id = row.id
  animalId : row'.animalId = row.animalId
  ownerId : row'.ownerId = row.ownerId
  appraisedValueUSDC : row'.appraisedValueUSDC = row.appraisedValueUSDC
  describes : ∀ m, Describes row.metadata m → Describes row'.metadata m

theorem Row.Becomes.refl (row : Row) : row.Becomes row := ⟨rfl, rfl, rfl, rfl, fun _ h => h⟩

theorem Row.Becomes.trans {row row' row'' : Row} (h : row.Becomes row') (h' : row'.Becomes row'') :
    row.Becomes row'' where
  id := h'.id.trans h.id
  animalId := h'.animalId.trans h.animalId
  ownerId := h'.ownerId.trans h.ownerId
  appraisedValueUSDC := h'.appraisedValueUSDC.trans h.appraisedValueUSDC
  describes m := h'.describes m ∘ h.describes m

/-- The same rows, some of them rewritten. -/
structure KeepsRows (rows rows' : Rows) : Prop where
  forth : ∀ id row, rows.lookup id = some row →
    ∃ row', rows'.lookup id = some row' ∧ row.Becomes row'
  back : ∀ id row', rows'.lookup id = some row' →
    ∃ row, rows.lookup id = some row ∧ row.Becomes row'

theorem KeepsRows.refl (rows : Rows) : KeepsRows rows rows :=
  ⟨fun _ row h => ⟨row, h, .refl row⟩, fun _ row h => ⟨row, h, .refl row⟩⟩

theorem KeepsRows.of_insert {rows : Rows} {id : String} {row row' : Row}
    (hstored : rows.lookup id = some row) (h : row.Becomes row') :
    KeepsRows rows (rows.insert id row') := by
  constructor
  · intro id' other hother
    rw [KeyedStore.lookup_insert]
    split
    next heq =>
      obtain rfl := Option.mem_unique hstored (heq ▸ hother)
      exact ⟨row', rfl, h⟩
    next => exact ⟨other, hother, .refl other⟩
  · intro id' other hother
    rcases KeyedStore.lookup_insert_cases hother with ⟨rfl, rfl⟩ | ⟨-, hold⟩
    · exact ⟨row, hstored, h⟩
    · exact ⟨other, hold, .refl other⟩

/-! ## What the handlers do -/

section Handlers

variable {rows rows' : Rows} {user : TokenPayload} {body : JsonObject} {id : String}

theorem assignTruthy_fields {key : String} (hkey : key = "imageUrl" ∨ key = "location")
    {object : JsonObject} {value : Option Json} (hobject : WellFormed (.object object))
    (hvalue : ∀ v ∈ value, WellFormed v) :
    WellFormed (.object (assignTruthy object key value)) ∧
      readMetadata (assignTruthy object key value) = readMetadata object := by
  unfold assignTruthy
  split
  next value =>
    split
    · exact ⟨wellFormed_assign hobject (hvalue value rfl), readMetadata_assign hkey object value⟩
    · exact ⟨hobject, rfl⟩
  next => exact ⟨hobject, rfl⟩

theorem assignDefined_fields {key : String} (hkey : key = "imageUrl" ∨ key = "location")
    {object : JsonObject} {value : Option Json} (hobject : WellFormed (.object object))
    (hvalue : ∀ v ∈ value, WellFormed v) :
    WellFormed (.object (assignDefined object key value)) ∧
      readMetadata (assignDefined object key value) = readMetadata object := by
  unfold assignDefined
  split
  next value =>
    exact ⟨wellFormed_assign hobject (hvalue value rfl), readMetadata_assign hkey object value⟩
  next => exact ⟨hobject, rfl⟩

theorem requireNumber_ok {accepts : Number → Bool} {key error : String}
    {n : Number} (h : requireNumber accepts body key error = .ok n) :
    body.get key = some (.number n) ∧ accepts n = true := by
  unfold requireNumber at h
  split at h
  next heq =>
    split at h
    next haccepts =>
      obtain rfl := Except.ok.inj h
      exact ⟨heq, haccepts⟩
    next => contradiction
  next => contradiction

theorem wellFormed_fields {value : Json} (h : WellFormed value) :
    WellFormed (.object value.fields) := by
  cases value with
  | object => exact h
  | null | bool | number | string | array => exact ⟨List.nodup_nil, trivial⟩

/-- What a validated request stores describes the animal that is appraised. -/
theorem validateRegistration_ok {r : RegistrationRequest} (hbody : WellFormed (.object body))
    (h : validateRegistration body = .ok r) :
    WellFormed (.object r.toJson) ∧ readMetadata r.toJson = some r.metadata := by
  have hfield : ∀ key, ∀ v ∈ body.get key, WellFormed v := fun key v hv =>
    OracleBridge.Disk.wellFormed_get hbody hv
  simp only [validateRegistration, Except.bind_succeeds, Except.pure_succeeds] at h
  obtain ⟨animalId, -, type, -, breed, -, weightKg, hweight, ageMonths, hage, health, -, rfl⟩ := h
  have hweight : DecimalText.IsDecimal weightKg := hfield _ _ (requireNumber_ok hweight).1
  have hage : DecimalText.IsDecimal ageMonths := hfield _ _ (requireNumber_ok hage).1
  have hfields : WellFormed (.object
      (LivestockMetadata.fields ⟨type, breed, weightKg, ageMonths, health⟩)) :=
    ⟨by simp [LivestockMetadata.fields], trivial, trivial, hweight, hage, trivial, trivial⟩
  obtain ⟨himage, hread⟩ := assignTruthy_fields (.inl rfl) hfields (hfield "imageUrl")
  obtain ⟨hlocation, hread'⟩ := assignTruthy_fields (.inr rfl) himage (hfield "location")
  exact ⟨hlocation, hread'.trans (hread.trans (readMetadata_fields _))⟩

theorem registerLivestock_ok {p : PendingRegistration} (hbody : WellFormed (.object body))
    (h : registerLivestock rows user body = .ok p) :
    (WellFormed (.object p.request.toJson) ∧
      readMetadata p.request.toJson = some p.request.metadata) ∧
      p.userId = user.sub ∧ p.publicKey = user.publicKey := by
  simp only [registerLivestock, Except.bind_succeeds, Except.mapError_eq_ok] at h
  obtain ⟨request, hvalid, h⟩ := h
  split at h
  next => contradiction
  next =>
    obtain rfl := Except.pure_succeeds.mp h
    exact ⟨validateRegistration_ok hbody hvalid, rfl, rfl⟩

/-- A row is created under a fresh id for a fresh tag, with its appraisal, and is to be
minted. -/
theorem createLivestock_ok {p : PendingRegistration} {mint : PendingMint} {reply : Reply}
    {oracles : List OracleAdapter} {maxDeviationPct : Number}
    (h : createLivestock oracles maxDeviationPct rows p id = .ok (rows', mint, reply)) :
    ∃ appraisal,
      appraiseLivestock oracles maxDeviationPct p.request.metadata = .ok appraisal ∧
      (∀ id' row, rows.lookup id' = some row → row.animalId ≠ p.request.animalId) ∧
      rows.lookup id = none ∧ rows' = rows.insert id (newRow p id appraisal) ∧
      mint = ⟨id, mintCollateral p.request.animalId p.publicKey appraisal.collateralValueUSDC⟩ := by
  simp only [createLivestock, Except.bind_succeeds, Except.refuseIf_eq_ok, Except.pure_succeeds,
    Prod.mk.injEq, not_or] at h
  obtain ⟨appraisal, happraisal, _, ⟨htag, hid⟩, rfl, rfl, -⟩ := h
  refine ⟨appraisal, happraisal, fun id' row hrow heq => ?_, by simpa using hid, rfl, rfl⟩
  exact htag (findAnimal_isSome_iff.mpr ⟨id', row, hrow, heq⟩)

/-- What an update will write describes the same animal as what it has read. -/
theorem updateLivestock_ok {u : PendingUpdate} (hbody : WellFormed (.object body))
    (h : updateLivestock rows user id body = .ok u) :
    u.rowId = id ∧ (∀ status, u.verificationStatus = some status →
        user.role = "ADMIN" ∧ body.get "verificationStatus" = some status) ∧
      ∃ row, rows.lookup id = some row ∧ (user.role = "ADMIN" ∨ row.ownerId = user.sub) ∧
        ∀ m, Describes row.metadata m → Describes u.metadata m := by
  have hfield : ∀ key, ∀ v ∈ body.get key, WellFormed v := fun key v hv =>
    OracleBridge.Disk.wellFormed_get hbody hv
  simp only [updateLivestock, Except.bind_succeeds, Except.okOr_eq_ok, Except.refuseIf_eq_ok,
    Except.pure_succeeds, not_and_or, not_not] at h
  obtain ⟨row, hrow, _, hallowed, rfl⟩ := h
  refine ⟨rfl, ?_, row, hrow, hallowed, ?_⟩
  · intro status hstatus
    dsimp only at hstatus
    split at hstatus
    next hrole => exact ⟨hrole, hstatus⟩
    next => contradiction
  · rintro m ⟨object, hparse, hobject, hread⟩
    obtain ⟨himage, hread₁⟩ := assignDefined_fields (.inl rfl) hobject (hfield "imageUrl")
    obtain ⟨hlocation, hread₂⟩ := assignDefined_fields (.inr rfl) himage (hfield "location")
    have hcurrent : (safeParseJson row.metadata).fields = object := by
      rw [safeParseJson, hparse]
      rfl
    dsimp only
    rw [hcurrent]
    exact describes_stringify hlocation (hread₂.trans (hread₁.trans hread))

theorem writeUpdate_eq_some {u : PendingUpdate} (h : writeUpdate rows u = some rows') :
    ∃ row status, rows.lookup u.rowId = some row ∧
      rows' = rows.insert u.rowId
        { row with metadata := u.metadata, verificationStatus := status } ∧
      (status = row.verificationStatus ∨ u.verificationStatus = some (.string status)) := by
  unfold writeUpdate at h
  split at h
  next =>
    obtain ⟨row, hrow, rfl⟩ := updateRow_eq_some.mp h
    exact ⟨row, _, hrow, rfl, .inl rfl⟩
  next status hstatus =>
    obtain ⟨row, hrow, rfl⟩ := updateRow_eq_some.mp h
    exact ⟨row, status, hrow, rfl, .inr hstatus⟩
  next => contradiction

/-- A settled mint marks its row as verified, with its transaction, or as rejected. -/
theorem settleMint_cases (rows : Rows) (rowId : String) (outcome : Option String)
    (firstFails secondFails : Bool) :
    settleMint rows rowId outcome firstFails secondFails = rows ∨
      ∃ row, rows.lookup rowId = some row ∧
        ((∃ txHash, outcome = some txHash ∧
          settleMint rows rowId outcome firstFails secondFails = rows.insert rowId
            { row with verificationStatus := "VERIFIED", appraisalTxHash := some txHash }) ∨
        settleMint rows rowId outcome firstFails secondFails = rows.insert rowId
          { row with verificationStatus := "REJECTED" }) := by
  unfold settleMint
  cases hrow : rows.lookup rowId with
  | none => cases outcome <;> cases firstFails <;> cases secondFails <;> simp [updateRow, hrow]
  | some row =>
      cases outcome <;> cases firstFails <;> cases secondFails <;> simp [updateRow, hrow]

theorem settleMint_keeps (rows : Rows) (rowId : String) (outcome : Option String)
    (firstFails secondFails : Bool) :
    KeepsRows rows (settleMint rows rowId outcome firstFails secondFails) := by
  rcases settleMint_cases rows rowId outcome firstFails secondFails with
    heq | ⟨row, hrow, ⟨txHash, -, heq⟩ | heq⟩
  · rw [heq]
    exact .refl rows
  · rw [heq]
    exact .of_insert hrow ⟨rfl, rfl, rfl, rfl, fun _ h => h⟩
  · rw [heq]
    exact .of_insert hrow ⟨rfl, rfl, rfl, rfl, fun _ h => h⟩

end Handlers

/-! ## The invariant -/

/-- The row holds the appraisal of the animal that its metadata describes. -/
def Appraised (settings : Settings) (row : Row) : Prop :=
  ∃ m oracles r, Describes row.metadata m ∧ oracles ∈ settings.answers ∧
    appraiseLivestock oracles settings.maxDeviationPct m = .ok r ∧
    row.appraisedValueUSDC = some r.collateralValueUSDC

/-- The mint of a row. -/
def MintedFor (settings : Settings) (row : Row) (i : MintInvocation) : Prop :=
  i.livestockId = row.animalId ∧ i.ownerPublicKey = settings.publicKeyOf row.ownerId ∧
    ∃ value, row.appraisedValueUSDC = some value ∧ i.valueStroops = toStroops value

/-- The row that waits for the mint is the one it mints. -/
def Awaited (settings : Settings) (rows : Rows) (m : PendingMint) : Prop :=
  ∃ row, rows.lookup m.rowId = some row ∧ MintedFor settings row m.invocation

structure Sound (settings : Settings) (b : Backend) : Prop where
  ids : ∀ id row, b.rows.lookup id = some row → row.id = id
  tags : ∀ id id' row row', b.rows.lookup id = some row → b.rows.lookup id' = some row' →
    row.animalId = row'.animalId → id = id'
  appraised : ∀ id row, b.rows.lookup id = some row → Appraised settings row
  requests : ∀ p ∈ b.registering, p.publicKey = settings.publicKeyOf p.userId ∧
    WellFormed (.object p.request.toJson) ∧
    readMetadata p.request.toJson = some p.request.metadata
  updates : ∀ u ∈ b.updating, ∃ row, b.rows.lookup u.rowId = some row ∧
    ∀ m, Describes row.metadata m → Describes u.metadata m
  mintedOnce : ((b.minted ++ b.minting.map (·.invocation)).map (·.livestockId)).Nodup
  mintedRow : ∀ i ∈ b.minted, ∃ id row, b.rows.lookup id = some row ∧ MintedFor settings row i
  minting : ∀ m ∈ b.minting, Awaited settings b.rows m
  confirming : ∀ m ∈ b.confirming, m.invocation ∈ b.minted ∧ Awaited settings b.rows m

theorem Sound.empty : Sound settings {} where
  ids := nofun
  tags := nofun
  appraised := nofun
  requests := nofun
  updates := nofun
  mintedOnce := List.nodup_nil
  mintedRow := nofun
  minting := nofun
  confirming := nofun

theorem Appraised.of_becomes {row row' : Row} (h : Appraised settings row)
    (hrow : row.Becomes row') : Appraised settings row' := by
  obtain ⟨m, oracles, r, hm, horacles, hr, hvalue⟩ := h
  exact ⟨m, oracles, r, hrow.describes m hm, horacles, hr, hrow.appraisedValueUSDC.trans hvalue⟩

theorem MintedFor.of_becomes {row row' : Row} {i : MintInvocation} (h : MintedFor settings row i)
    (hrow : row.Becomes row') : MintedFor settings row' i := by
  obtain ⟨htag, hkey, value, hvalue, hstroops⟩ := h
  exact ⟨htag.trans hrow.animalId.symm, hrow.ownerId ▸ hkey, value,
    hrow.appraisedValueUSDC.trans hvalue, hstroops⟩

theorem Awaited.keep {rows rows' : Rows} {m : PendingMint} (h : Awaited settings rows m)
    (hrows : KeepsRows rows rows') : Awaited settings rows' m := by
  obtain ⟨row, hrow, hminted⟩ := h
  obtain ⟨row', hrow', hbecomes⟩ := hrows.forth _ row hrow
  exact ⟨row', hrow', hminted.of_becomes hbecomes⟩

/-- What is left by anything but a creation or a submission is as sound as before. -/
theorem Sound.keep {b : Backend} (h : Sound settings b) {rows : Rows}
    (hrows : KeepsRows b.rows rows)
    {updating : List PendingUpdate} (hupdating : ∀ u ∈ updating, u ∈ b.updating)
    {minting confirming : List PendingMint} (hminting : minting.Sublist b.minting)
    (hconfirming : ∀ m ∈ confirming, m ∈ b.confirming) :
    Sound settings { b with rows, updating, minting, confirming } where
  ids id row' hrow' := by
    obtain ⟨row, hrow, hbecomes⟩ := hrows.back id row' hrow'
    exact hbecomes.id.trans (h.ids id row hrow)
  tags id id' row₁ row₂ h₁ h₂ htag := by
    obtain ⟨old₁, hold₁, hbecomes₁⟩ := hrows.back id row₁ h₁
    obtain ⟨old₂, hold₂, hbecomes₂⟩ := hrows.back id' row₂ h₂
    exact h.tags id id' old₁ old₂ hold₁ hold₂
      (hbecomes₁.animalId.symm.trans (htag.trans hbecomes₂.animalId))
  appraised id row' hrow' := by
    obtain ⟨row, hrow, hbecomes⟩ := hrows.back id row' hrow'
    exact (h.appraised id row hrow).of_becomes hbecomes
  requests := h.requests
  updates u hu := by
    obtain ⟨row, hrow, hdescribes⟩ := h.updates u (hupdating u hu)
    obtain ⟨row', hrow', hbecomes⟩ := hrows.forth _ row hrow
    refine ⟨row', hrow', fun m hm => ?_⟩
    -- The rewritten row still describes the one animal the old one did.
    obtain ⟨m₀, -, -, hm₀, -⟩ := h.appraised _ row hrow
    obtain rfl := (hbecomes.describes m₀ hm₀).unique hm
    exact hdescribes m₀ hm₀
  mintedOnce := h.mintedOnce.sublist (((hminting.map _).append_left _).map _)
  mintedRow i hi := by
    obtain ⟨id, row, hrow, hminted⟩ := h.mintedRow i hi
    obtain ⟨row', hrow', hbecomes⟩ := hrows.forth id row hrow
    exact ⟨id, row', hrow', hminted.of_becomes hbecomes⟩
  minting m hm := (h.minting m (hminting.subset hm)).keep hrows
  confirming m hm := by
    obtain ⟨hminted, hawaited⟩ := h.confirming m (hconfirming m hm)
    exact ⟨hminted, hawaited.keep hrows⟩

/-- A mint that is submitted was to be submitted before. -/
theorem Sound.submit {b : Backend} (h : Sound settings b) {index : Nat} {m : PendingMint}
    (hm : b.minting[index]? = some m) :
    Sound settings { b with
      minting := b.minting.eraseIdx index
      confirming := b.confirming ++ [m]
      minted := b.minted ++ [m.invocation] } := by
  obtain ⟨hindex, hget⟩ := List.getElem?_eq_some_iff.mp hm
  have hawaited := h.minting m (List.mem_of_getElem? hm)
  refine { h with mintedOnce := ?_, mintedRow := ?_, minting := ?_, confirming := ?_ }
  · have hperm : (m :: b.minting.eraseIdx index).Perm b.minting :=
      hget ▸ List.getElem_cons_eraseIdx_perm hindex
    refine (List.Perm.nodup_iff ?_).mpr h.mintedOnce
    apply List.Perm.map
    rw [List.append_assoc]
    exact (hperm.map (·.invocation)).append_left b.minted
  · intro i hi
    rcases List.mem_append.mp hi with hi | hi
    · exact h.mintedRow i hi
    · obtain rfl := List.mem_singleton.mp hi
      exact ⟨m.rowId, hawaited⟩
  · exact fun m' hm' => h.minting m' (List.mem_of_mem_eraseIdx hm')
  · intro m' hm'
    rcases List.mem_append.mp hm' with hm' | hm'
    · obtain ⟨hminted, hawaited'⟩ := h.confirming m' hm'
      exact ⟨List.mem_append_left _ hminted, hawaited'⟩
    · obtain rfl := List.mem_singleton.mp hm'
      exact ⟨List.mem_append_right _ List.mem_cons_self, hawaited⟩

/-- No mint is for a tag that no row has. -/
theorem Sound.no_mint {b : Backend} (h : Sound settings b) {tag : String}
    (htag : ∀ id row, b.rows.lookup id = some row → row.animalId ≠ tag) :
    tag ∉ (b.minted ++ b.minting.map (·.invocation)).map (·.livestockId) := by
  intro hmem
  obtain ⟨i, hi, heq⟩ := List.mem_map.mp hmem
  rcases List.mem_append.mp hi with hi | hi
  · obtain ⟨id, row, hrow, hminted⟩ := h.mintedRow i hi
    exact htag id row hrow (hminted.1.symm.trans heq)
  · obtain ⟨m, hm, rfl⟩ := List.mem_map.mp hi
    obtain ⟨row, hrow, hminted⟩ := h.minting m hm
    exact htag _ row hrow (hminted.1.symm.trans heq)

/-- A creation adds one row for a new tag, which no mint was for. -/
theorem Sound.create {b : Backend} (h : Sound settings b) {p : PendingRegistration}
    (hp : p ∈ b.registering) {id : String} {oracles : List OracleAdapter}
    (horacles : oracles ∈ settings.answers) {rows : Rows} {mint : PendingMint} {reply : Reply}
    (hcreate : createLivestock oracles settings.maxDeviationPct b.rows p id =
      .ok (rows, mint, reply))
    {registering : List PendingRegistration}
    (hregistering : ∀ q ∈ registering, q ∈ b.registering) :
    Sound settings { b with rows, registering, minting := b.minting ++ [mint] } := by
  obtain ⟨appraisal, happraisal, htag, hfresh, rfl, rfl⟩ := createLivestock_ok hcreate
  obtain ⟨hkey, hobject, hread⟩ := h.requests p hp
  have hkept : ∀ id' row, b.rows.lookup id' = some row →
      (b.rows.insert id (newRow p id appraisal)).lookup id' = some row :=
    fun id' row hrow => KeyedStore.lookup_insert_of_fresh hfresh hrow
  have hawaited : ∀ m, Awaited settings b.rows m →
      Awaited settings (b.rows.insert id (newRow p id appraisal)) m := by
    rintro m ⟨row, hrow, hminted⟩
    exact ⟨row, hkept _ row hrow, hminted⟩
  constructor
  case ids =>
    intro id' row hrow
    rcases KeyedStore.lookup_insert_cases hrow with ⟨rfl, rfl⟩ | ⟨-, hrow⟩
    · rfl
    · exact h.ids id' row hrow
  case tags =>
    intro id₁ id₂ row₁ row₂ h₁ h₂ heq
    rcases KeyedStore.lookup_insert_cases h₁ with ⟨rfl, rfl⟩ | ⟨-, hold₁⟩ <;>
      rcases KeyedStore.lookup_insert_cases h₂ with ⟨rfl, rfl⟩ | ⟨-, hold₂⟩
    · rfl
    · exact absurd heq.symm (htag id₂ row₂ hold₂)
    · exact absurd heq (htag id₁ row₁ hold₁)
    · exact h.tags id₁ id₂ row₁ row₂ hold₁ hold₂ heq
  case appraised =>
    intro id' row hrow
    rcases KeyedStore.lookup_insert_cases hrow with ⟨rfl, rfl⟩ | ⟨-, hrow⟩
    · exact ⟨p.request.metadata, oracles, appraisal, describes_stringify hobject hread, horacles,
        happraisal, rfl⟩
    · exact h.appraised id' row hrow
  case requests => exact fun q hq => h.requests q (hregistering q hq)
  case updates =>
    intro u hu
    obtain ⟨row, hrow, hdescribes⟩ := h.updates u hu
    exact ⟨row, hkept _ row hrow, hdescribes⟩
  case mintedOnce =>
    have honce := h.mintedOnce.append (List.nodup_singleton p.request.animalId)
      (List.disjoint_singleton.mpr (h.no_mint htag))
    simpa only [mintCollateral, List.map_append, List.append_assoc, List.map_cons,
      List.map_nil] using honce
  case mintedRow =>
    intro i hi
    obtain ⟨id', row, hrow, hminted⟩ := h.mintedRow i hi
    exact ⟨id', row, hkept _ row hrow, hminted⟩
  case minting =>
    intro m hm
    rcases List.mem_append.mp hm with hm | hm
    · exact hawaited m (h.minting m hm)
    · obtain rfl := List.mem_singleton.mp hm
      exact ⟨_, AList.lookup_insert b.rows, rfl, hkey, _, rfl, rfl⟩
  case confirming =>
    intro m hm
    obtain ⟨hminted, hm⟩ := h.confirming m hm
    exact ⟨hminted, hawaited m hm⟩

/-- Rows are rewritten, never removed. -/
def RowsGrow (rows rows' : Rows) : Prop :=
  ∀ id row, rows.lookup id = some row → ∃ row', rows'.lookup id = some row' ∧ row.Becomes row'

/-- What a pending update writes keeps what was registered. -/
theorem Sound.keepsRows_write {b : Backend} (h : Sound settings b) {u : PendingUpdate}
    (hu : u ∈ b.updating) : KeepsRows b.rows ((writeUpdate b.rows u).getD b.rows) := by
  cases hwrite : writeUpdate b.rows u with
  | none => exact .refl b.rows
  | some rows =>
      obtain ⟨row, status, hrow, rfl, -⟩ := writeUpdate_eq_some hwrite
      obtain ⟨row', hrow', hdescribes⟩ := h.updates u hu
      obtain rfl := Option.mem_unique hrow hrow'
      exact .of_insert hrow ⟨rfl, rfl, rfl, rfl, hdescribes⟩

/-- A request that `registerLivestock` passes on is its sender's, and tells its animal. -/
theorem Sound.register {b : Backend} (h : Sound settings b) {user : TokenPayload}
    (huser : user.publicKey = settings.publicKeyOf user.sub) {value : Json}
    (hbody : WellFormed value) {p : PendingRegistration}
    (hp : registerLivestock b.rows user value.fields = .ok p) :
    Sound settings { b with registering := b.registering ++ [p] } := by
  refine { h with requests := fun q hq => ?_ }
  rcases List.mem_append.mp hq with hq | hq
  · exact h.requests q hq
  · obtain rfl := List.mem_singleton.mp hq
    obtain ⟨hrequest, hsub, hkey⟩ := registerLivestock_ok (wellFormed_fields hbody) hp
    refine ⟨?_, hrequest⟩
    rw [hsub, hkey]
    exact huser

theorem Sound.patch {b : Backend} (h : Sound settings b) {user : TokenPayload} {id : String}
    {value : Json} (hbody : WellFormed value) {u : PendingUpdate}
    (hu : updateLivestock b.rows user id value.fields = .ok u) :
    Sound settings { b with updating := b.updating ++ [u] } := by
  refine { h with updates := fun v hv => ?_ }
  rcases List.mem_append.mp hv with hv | hv
  · exact h.updates v hv
  · obtain rfl := List.mem_singleton.mp hv
    obtain ⟨rfl, -, row, hrow, -, hdescribes⟩ := updateLivestock_ok (wellFormed_fields hbody) hu
    exact ⟨row, hrow, hdescribes⟩

/-- The step lemma. -/
theorem Sound.step {b b' : Backend} {a : Action} (h : Sound settings b)
    (hstep : (backend settings).Step b a b') : Sound settings b' ∧ RowsGrow b.rows b'.rows := by
  obtain ⟨hadmissible, step⟩ := hstep
  have hsame : RowsGrow b.rows b.rows := (KeepsRows.refl b.rows).forth
  cases a with
  | register user body =>
      obtain ⟨value, hparse, rfl⟩ := Option.map_eq_some_iff.mp step
      have hbody := Json.wellFormed_of_parse hparse
      split
      next p hp => exact ⟨h.register hadmissible hbody hp, hsame⟩
      next => exact ⟨h, hsame⟩
  | create index id oracles =>
      obtain ⟨p, hp, rfl⟩ := Option.map_eq_some_iff.mp step
      have hrest : ∀ q ∈ b.registering.eraseIdx index, q ∈ b.registering := fun q hq =>
        List.mem_of_mem_eraseIdx hq
      dsimp only
      split
      next rows mint reply hcreate =>
        refine ⟨h.create (List.mem_of_getElem? hp) hadmissible hcreate hrest, ?_⟩
        obtain ⟨appraisal, -, -, hfresh, rfl, -⟩ := createLivestock_ok hcreate
        intro id' row hrow
        exact ⟨row, KeyedStore.lookup_insert_of_fresh hfresh hrow, .refl row⟩
      next => exact ⟨{ h with requests := fun q hq => h.requests q (hrest q hq) }, hsame⟩
  | submit index =>
      obtain ⟨m, hm, rfl⟩ := Option.map_eq_some_iff.mp step
      exact ⟨h.submit hm, hsame⟩
  | abandon index secondFails =>
      obtain ⟨m, -, rfl⟩ := Option.map_eq_some_iff.mp step
      have hkeeps := settleMint_keeps b.rows m.rowId none false secondFails
      exact ⟨h.keep hkeeps (fun u hu => hu) (List.eraseIdx_sublist _ _) fun m hm => hm,
        hkeeps.forth⟩
  | settle index outcome firstFails secondFails =>
      obtain ⟨m, -, rfl⟩ := Option.map_eq_some_iff.mp step
      have hkeeps := settleMint_keeps b.rows m.rowId outcome firstFails secondFails
      exact ⟨h.keep hkeeps (fun u hu => hu) (.refl _) fun m hm => List.mem_of_mem_eraseIdx hm,
        hkeeps.forth⟩
  | patch user id body =>
      obtain ⟨value, hparse, rfl⟩ := Option.map_eq_some_iff.mp step
      have hbody := Json.wellFormed_of_parse hparse
      split
      next u hu => exact ⟨h.patch hbody hu, hsame⟩
      next => exact ⟨h, hsame⟩
  | write index =>
      obtain ⟨u, hu, rfl⟩ := Option.map_eq_some_iff.mp step
      have hkeeps := h.keepsRows_write (List.mem_of_getElem? hu)
      exact ⟨h.keep hkeeps (fun v hv => List.mem_of_mem_eraseIdx hv) (.refl _) fun m hm => hm,
        hkeeps.forth⟩
  | liquidationIndexed id =>
      obtain ⟨rows, hrows, rfl⟩ := Option.map_eq_some_iff.mp step
      obtain ⟨row, hrow, rfl⟩ := updateRow_eq_some.mp hrows
      have hkeeps : KeepsRows b.rows
          (b.rows.insert id { row with verificationStatus := "VERIFIED" }) :=
        .of_insert hrow ⟨rfl, rfl, rfl, rfl, fun _ h => h⟩
      exact ⟨h.keep hkeeps (fun u hu => hu) (.refl _) fun m hm => hm, hkeeps.forth⟩

theorem reachable_sound {b : Backend} (h : (backend settings).Reachable b) : Sound settings b := by
  apply h.invariant
  · rintro _ rfl
    exact .empty
  · exact fun b a b' _ hb step => (hb.step step).1

theorem run_rowsGrow {b b' : Backend} {steps : List (Transition Backend Action)}
    (hreach : (backend settings).Reachable b) (hrun : (backend settings).Run b steps b') :
    RowsGrow b.rows b'.rows := by
  induction hrun with
  | nil => exact (KeepsRows.refl _).forth
  | snoc prior step ih =>
      intro id row hrow
      obtain ⟨middle, hmiddle, hbecomes⟩ := ih id row hrow
      obtain ⟨row', hrow', hlast⟩ :=
        ((reachable_sound (hreach.run prior)).step step).2 id middle hmiddle
      exact ⟨row', hrow', hbecomes.trans hlast⟩

/-! ## One row and at most one mint for a tag -/

theorem mathRound_of_near {x : Number} {n : Int} (h : |x - n| < 1 / 2) : mathRound x = n := by
  obtain ⟨hlow, hhigh⟩ := abs_lt.mp h
  rw [mathRound, Int.floor_eq_iff]
  constructor <;> linarith

/-- Up to two hundred million dollars the roundings leave a number of cents as it is. -/
theorem toStroops_of_cents {value : Number} {n : Int} (hn : value * 10 ^ 2 = n)
    (hsmall : |value| ≤ 2 * 10 ^ 8) : (toStroops value : Number) = value * 10 ^ 7 := by
  have hwhole : value * 10 ^ 7 = ((n * 100000 : Int) : Number) := by
    push_cast
    rw [← hn]
    ring
  have hvalue := abs_le.mp (FloatingPoint.abs_round_sub_le 52 value)
  have hproduct := abs_le.mp (FloatingPoint.abs_round_sub_le 52 (binary64 value * 1e7))
  have hsize : |value| / 2 ^ (52 + 1) ≤ 2 * 10 ^ 8 / 2 ^ (52 + 1) := by gcongr
  have hbound : |binary64 value * 1e7| ≤ 2 * 10 ^ 15 + 1 := by
    obtain ⟨hlow, hhigh⟩ := abs_le.mp hsmall
    rw [abs_le]
    norm_num at hvalue hsize ⊢
    constructor <;> linarith
  have hproductSize : |binary64 value * 1e7| / 2 ^ (52 + 1) ≤
      (2 * 10 ^ 15 + 1) / 2 ^ (52 + 1) := by gcongr
  have hnear : |binary64 (binary64 value * 1e7) - (n * 100000 : Int)| < 1 / 2 := by
    rw [← hwhole, abs_lt]
    norm_num at hvalue hproduct hsize hproductSize ⊢
    constructor <;> linarith
  rw [toStroops, mathRound_of_near hnear, ← hwhole]

theorem toStroops_collateralValue {price : Number} {m : LivestockMetadata}
    (hsmall : |collateralValue price m| ≤ 2 * 10 ^ 8) :
    (toStroops (collateralValue price m) : Number) = collateralValue price m * 10 ^ 7 := by
  obtain ⟨n, hn⟩ := DecimalText.exists_fixedValue_multiple (hsmall.trans_lt (by norm_num))
  exact toStroops_of_cents hn hsmall

/-- The mint of a row is for its value. -/
theorem Sound.stroops {b : Backend} (h : Sound settings b) {id : String} {row : Row}
    (hrow : b.rows.lookup id = some row) {value : Number}
    (hvalue : row.appraisedValueUSDC = some value) (hsmall : |value| ≤ 2 * 10 ^ 8) :
    (toStroops value : Number) = value * 10 ^ 7 := by
  obtain ⟨m, oracles, r, -, -, hr, happraised⟩ := h.appraised id row hrow
  obtain ⟨-, -, price, -, -, hcollateral⟩ := appraiseLivestock_ok hr
  obtain rfl := Option.some.inj (hvalue.symm.trans happraised)
  rw [hcollateral] at hsmall ⊢
  exact toStroops_collateralValue hsmall

theorem Sound.minted_nodup {b : Backend} (h : Sound settings b) :
    (b.minted.map (·.livestockId)).Nodup := by
  have honce := h.mintedOnce
  rw [List.map_append] at honce
  exact honce.of_append_left

/-- Two requests never both register a tag. No tag is minted twice, and what is minted is
the value of a row, to the key of its owner: up to two hundred million dollars to the
stroop. -/
theorem registered_once {b : Backend} (hreach : (backend settings).Reachable b) :
    (∀ id id' row row', b.rows.lookup id = some row → b.rows.lookup id' = some row' →
      row.animalId = row'.animalId → id = id') ∧
    (b.minted.map (·.livestockId)).Nodup ∧
    ∀ i ∈ b.minted, ∃ id row value, b.rows.lookup id = some row ∧ row.animalId = i.livestockId ∧
      i.ownerPublicKey = settings.publicKeyOf row.ownerId ∧
      row.appraisedValueUSDC = some value ∧ i.valueStroops = toStroops value ∧
      (|value| ≤ 2 * 10 ^ 8 → (i.valueStroops : Number) = value * 10 ^ 7) := by
  have hsound := reachable_sound hreach
  refine ⟨hsound.tags, hsound.minted_nodup, fun i hi => ?_⟩
  obtain ⟨id, row, hrow, htag, hkey, value, hvalue, hstroops⟩ := hsound.mintedRow i hi
  refine ⟨id, row, value, hrow, htag.symm, hkey, hvalue, hstroops, fun hsmall => ?_⟩
  rw [hstroops]
  exact hsound.stroops hrow hvalue hsmall

namespace Sample

def deployment : Settings where
  maxDeviationPct := 15
  answers := {feeds}
  publicKeyOf sub := "G" ++ sub

def owner : TokenPayload := ⟨"ALICE", "GALICE", "FARMER"⟩

def bullBody : String :=
  "\x7b\"animalId\":\"T-1\",\"type\":\"CATTLE\",\"breed\":\"Angus\",\"weightKg\":400," ++
    "\"ageMonths\":36,\"healthStatus\":\"GOOD\"\x7d"

/-- The tag is registered twice before either row is created. -/
def registration : List Action :=
  [.register owner bullBody, .register owner bullBody, .create 0 "a" feeds, .create 0 "b" feeds,
    .submit 0]

def patch : List Action :=
  [.patch owner "a" "\x7b\"location\":\"North\"\x7d", .settle 0 (some "tx") false false, .write 0]

def registered : Row where
  id := "a"
  animalId := "T-1"
  ownerId := "ALICE"
  metadata := "\x7b\"type\":\"CATTLE\",\"breed\":\"Angus\",\"weightKg\":400,\"ageMonths\":36," ++
    "\"healthStatus\":\"GOOD\"\x7d"
  appraisedValueUSDC := some 743.40
  appraisalTxHash := none
  verificationStatus := "APPRAISED"

def patched : Row :=
  { registered with
    metadata := "\x7b\"type\":\"CATTLE\",\"breed\":\"Angus\",\"weightKg\":400,\"ageMonths\":36," ++
      "\"healthStatus\":\"GOOD\",\"location\":\"North\"\x7d"
    appraisalTxHash := some "tx"
    verificationStatus := "VERIFIED" }

def mint : MintInvocation := ⟨"T-1", "GALICE", 7434000000⟩

theorem exists_runs : ∃ steps b steps' b', (backend deployment).Run {} steps b ∧
    (backend deployment).Run b steps' b' ∧ b.rows.lookup "a" = some registered ∧
    b.minted = [mint] ∧ b'.rows.lookup "a" = some patched := by
  have hreplay : ((TransitionSystem.replay (Backend.step 15) {} registration).bind fun r =>
      (TransitionSystem.replay (Backend.step 15) r.2 patch).map fun r' =>
        (r.2.rows.lookup "a", r.2.minted, r'.2.rows.lookup "a")) =
          some (some registered, [mint], some patched) := by
    decide +kernel
  obtain ⟨⟨steps, b⟩, hfirst, hrest⟩ := Option.bind_eq_some_iff.mp hreplay
  obtain ⟨⟨steps', b'⟩, hsecond, heq⟩ := Option.map_eq_some_iff.mp hrest
  obtain ⟨hb, hminted, hb'⟩ := Prod.ext_iff.mp heq |>.imp id Prod.mk.inj
  have hadmits : ∀ a ∈ registration ++ patch, a.Admissible deployment := by
    simp only [registration, patch, List.forall_mem_append, List.forall_mem_cons]
    exact ⟨⟨rfl, rfl, Set.mem_singleton feeds, Set.mem_singleton feeds, trivial, nofun⟩,
      trivial, trivial, trivial, nofun⟩
  refine ⟨steps, b, steps', b', ?_, ?_, hb, hminted, hb'⟩
  · exact TransitionSystem.Run.of_replay_mem
      (fun a ha s s' hs => And.intro (hadmits a (List.mem_append_left _ ha)) hs) hfirst
  · exact TransitionSystem.Run.of_replay_mem
      (fun a ha s s' hs => And.intro (hadmits a (List.mem_append_right _ ha)) hs) hsecond

end Sample

/-- Of the two requests only one registered the bull, and minted it to its owner. -/
theorem sample_registered_once : ∃ b, (backend Sample.deployment).Reachable b ∧
    b.minted = [Sample.mint] ∧ ∃ id row, b.rows.lookup id = some row ∧
      row.animalId = "T-1" ∧ row.appraisedValueUSDC.isSome = true := by
  obtain ⟨steps, b, -, -, hrun, -, -, hminted, -⟩ := Sample.exists_runs
  have hreach : (backend Sample.deployment).Reachable b := .run (.of_initial rfl) hrun
  obtain ⟨id, row, value, hrow, htag, -, hvalue, -⟩ :=
    (registered_once hreach).2.2 Sample.mint (hminted ▸ List.mem_singleton_self _)
  exact ⟨b, hreach, hminted, id, row, hrow, htag, by rw [hvalue]; rfl⟩

/-! ## What was appraised stays -/

/-- Whatever is patched, minted or indexed later, and in whatever order: the row keeps its
tag, its owner and its value, and its text describes the animal that was appraised. -/
theorem registered_facts_kept {b b' : Backend} {steps : List (Transition Backend Action)}
    {id : String} {row : Row} (hreach : (backend settings).Reachable b)
    (hrun : (backend settings).Run b steps b') (hrow : b.rows.lookup id = some row) :
    ∃ row', b'.rows.lookup id = some row' ∧ row'.animalId = row.animalId ∧
      row'.ownerId = row.ownerId ∧ row'.appraisedValueUSDC = row.appraisedValueUSDC ∧
      ∃ m oracles r, Describes row.metadata m ∧ Describes row'.metadata m ∧
        oracles ∈ settings.answers ∧
        appraiseLivestock oracles settings.maxDeviationPct m = .ok r ∧
        row'.appraisedValueUSDC = some r.collateralValueUSDC := by
  obtain ⟨row', hrow', hbecomes⟩ := run_rowsGrow hreach hrun id row hrow
  obtain ⟨m, oracles, r, hm, horacles, hr, hvalue⟩ := (reachable_sound hreach).appraised id row hrow
  exact ⟨row', hrow', hbecomes.animalId, hbecomes.ownerId, hbecomes.appraisedValueUSDC, m, oracles,
    r, hm, hbecomes.describes m hm, horacles, hr, hbecomes.appraisedValueUSDC.trans hvalue⟩

/-- A place was added to the bull's text; it is the bull that was appraised. -/
theorem sample_registered_facts_kept : ∃ m r, Describes Sample.registered.metadata m ∧
    Describes Sample.patched.metadata m ∧ appraiseLivestock Sample.feeds 15 m = .ok r ∧
    r.collateralValueUSDC = 743.40 := by
  obtain ⟨steps, b, steps', b', hrun, hrun', hrow, -, hrow'⟩ := Sample.exists_runs
  have hreach : (backend Sample.deployment).Reachable b := .run (.of_initial rfl) hrun
  obtain ⟨row, hlast, -, -, -, m, oracles, r, hbefore, hafter, hanswers, hr, hvalue⟩ :=
    registered_facts_kept hreach hrun' hrow
  obtain rfl := Option.mem_unique hrow' hlast
  obtain rfl := Set.mem_singleton_iff.mp hanswers
  exact ⟨m, r, hbefore, hafter, hr, (Option.some.inj hvalue).symm⟩

end StellarKraal.Livestock
