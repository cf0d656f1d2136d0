import StellarKraal.Contract.Pricing

/-!
# Registering, appraising and reading collateral
-/

namespace StellarKraal

open Except (refuseIf okOr)

/-- The per-animal cap, where one is set. -/
def checkAnimalCap (w : World) (animalType : Symbol) (value : Int) : Result Unit :=
  match w.animalCaps.lookup animalType with
  | some maxValue => refuseIf (value > maxValue) (.error .invalidAmount)
  | none => pure ()

/-- An appraisal may not exceed what the oracle price allows for `count` animals. -/
def checkOracleBound (w : World) (count : Nat) (value : Int) : Result Unit :=
  match getEffectiveOraclePrice w with
  | some oraclePrice =>
      refuseIf (value > oracleMaxTotal w count oraclePrice) (.error .invalidPrice)
  | none => pure ()

theorem checkAnimalCap_eq_ok {w : World} {animalType : Symbol} {value : Int} {u : Unit} :
    checkAnimalCap w animalType value = .ok u ↔
      ∀ maxValue, w.animalCaps.lookup animalType = some maxValue → value ≤ maxValue := by
  unfold checkAnimalCap
  split <;> simp_all [Except.pure_succeeds]

theorem checkOracleBound_eq_ok {w : World} {count : Nat} {value : Int} {u : Unit} :
    checkOracleBound w count value = .ok u ↔
      ∀ price, getEffectiveOraclePrice w = some price → value ≤ oracleMaxTotal w count price := by
  unfold checkOracleBound
  split <;> simp_all [Except.pure_succeeds]

def registerLivestock (env : Env) (w : World) (owner : Address) (animalType : Symbol)
    (count : Nat) (appraisedValue : Int) : Result (World × Nat) := do
  assertInitialized w
  assertNotPaused w
  refuseIf (appraisedValue ≤ 0 ∨ count = 0) (.error .invalidAmount)
  checkAnimalCap w animalType appraisedValue
  checkOracleBound w count appraisedValue
  env.requireAuth owner
  let id ← nextId w.collateralCounter
  let record : CollateralRecord := {
    owner, animalType, count, appraisedValue
    loanId := 0
    appraisalHistory := [appraisedValue] }
  return ({ w with
      collateralCounter := id
      collaterals := w.collaterals.insert id record }.publish
    [.symbol "livestock", .symbol "registered"]
    (.vec [.u64 id, .address owner, .symbol animalType, .u32 count, .i128 appraisedValue]), id)

theorem registerLivestock_ok {env : Env} {w w' : World} {owner : Address} {animalType : Symbol}
    {count : Nat} {value : Int} {id : Nat}
    (h : registerLivestock env w owner animalType count value = .ok (w', id)) :
    ∃ c, w.config = some c ∧ isPausedRaw w = false ∧ 0 < value ∧ 0 < count ∧
      (∀ cap, w.animalCaps.lookup animalType = some cap → value ≤ cap) ∧
      (∀ price, getEffectiveOraclePrice w = some price →
        value ≤ oracleMaxTotal w count price) ∧
      owner ∈ env.signers ∧ id = w.collateralCounter + 1 ∧
      w' = { w with
          collateralCounter := id
          collaterals :=
            w.collaterals.insert id ⟨owner, animalType, count, value, 0, [value]⟩ }.publish
        [.symbol "livestock", .symbol "registered"]
        (.vec [.u64 id, .address owner, .symbol animalType, .u32 count, .i128 value]) := by
  simp only [registerLivestock, Except.bind_succeeds, assertInitialized_eq_ok,
    assertNotPaused_eq_ok, Except.refuseIf_eq_ok, checkAnimalCap_eq_ok, checkOracleBound_eq_ok,
    Env.requireAuth_eq_ok, nextId_eq_ok, Except.pure_succeeds, Prod.mk.injEq, not_or,
    not_le] at h
  obtain ⟨_, ⟨c, hc⟩, _, hpaused, _, ⟨hvalue, hcount⟩, _, hcap, _, horacle, _, hauth, _,
    ⟨_, rfl⟩, rfl, rfl⟩ := h
  exact ⟨c, hc, hpaused, hvalue, Nat.pos_of_ne_zero hcount, hcap, horacle, hauth, rfl, rfl⟩

/-- The last two entries of a full history stay, then the new value is appended. -/
def pushAppraisal (history : List Int) (value : Int) : List Int :=
  (if history.length ≥ 3 then history.drop (history.length - 2) else history) ++ [value]

def updateAppraisal (env : Env) (w : World) (owner : Address) (collateralId : Nat)
    (newValue : Int) : Result World := do
  assertInitialized w
  assertNotPaused w
  refuseIf (newValue ≤ 0) (.error .invalidAmount)
  env.requireAuth owner
  let record ← okOr (w.collaterals.lookup collateralId) (.error .collateralNotFound)
  refuseIf (record.owner ≠ owner) (.error .unauthorized)
  -- The cap on the animal type is checked at registration only.
  checkOracleBound w record.count newValue
  let record := { record with
    appraisalHistory := pushAppraisal record.appraisalHistory newValue
    appraisedValue := newValue }
  return { w with collaterals := w.collaterals.insert collateralId record }.publish
    [.symbol "collat", .symbol "appraised"] (.vec [.u64 collateralId, .i128 newValue])

theorem updateAppraisal_ok {env : Env} {w w' : World} {owner : Address} {collateralId : Nat}
    {newValue : Int} (h : updateAppraisal env w owner collateralId newValue = .ok w') :
    ∃ c record, w.config = some c ∧ isPausedRaw w = false ∧ 0 < newValue ∧
      owner ∈ env.signers ∧ w.collaterals.lookup collateralId = some record ∧
      record.owner = owner ∧
      (∀ price, getEffectiveOraclePrice w = some price →
        newValue ≤ oracleMaxTotal w record.count price) ∧
      w' = { w with
          collaterals := w.collaterals.insert collateralId { record with
            appraisalHistory := pushAppraisal record.appraisalHistory newValue
            appraisedValue := newValue } }.publish
        [.symbol "collat", .symbol "appraised"] (.vec [.u64 collateralId, .i128 newValue]) := by
  simp only [updateAppraisal, Except.bind_succeeds, assertInitialized_eq_ok,
    assertNotPaused_eq_ok, Except.refuseIf_eq_ok, checkOracleBound_eq_ok, Env.requireAuth_eq_ok,
    Except.okOr_eq_ok, Except.pure_succeeds, not_not, not_le] at h
  obtain ⟨_, ⟨c, hc⟩, _, hpaused, _, hvalue, _, hauth, record, hrecord, _, howner, _, horacle,
    rfl⟩ := h
  exact ⟨c, record, hc, hpaused, hvalue, hauth, hrecord, howner, horacle, rfl⟩

/-! ## Queries -/

def getAppraisalHistory (w : World) (collateralId : Nat) : Result (List Int) := do
  let record ← okOr (w.collaterals.lookup collateralId) (.error .collateralNotFound)
  return record.appraisalHistory

def getLoan (w : World) (loanId : Nat) : Result LoanRecord :=
  okOr (w.loans.lookup loanId) (.error .loanNotFound)

def getCollateral (w : World) (collateralId : Nat) : Result CollateralRecord :=
  okOr (w.collaterals.lookup collateralId) (.error .collateralNotFound)

def getLoanCollaterals (w : World) (loanId : Nat) : Result (List CollateralRecord) := do
  let loan ← okOr (w.loans.lookup loanId) (.error .loanNotFound)
  loan.collateralIds.mapM fun colId =>
    okOr (w.collaterals.lookup colId) (.error .collateralNotFound)

/-- Whether the loan a collateral names is stored as liquidated. -/
def isLiquidatedCollateral (w : World) (col : CollateralRecord) : Bool :=
  decide (col.loanId > 0) &&
    ((w.loans.lookup col.loanId).map fun loan => decide (loan.status = .liquidated)).getD false

/-- The count is a `u32` whose increments are checked. -/
def getCollateralCount (w : World) (owner : Address) : Result Nat :=
  (List.range' 1 w.collateralCounter).foldlM (fun count id =>
    match w.collaterals.lookup id with
    | some col =>
        if col.owner = owner ∧ isLiquidatedCollateral w col = false then
          okOr (U32.checkedAdd count 1) .trap
        else pure count
    | none => pure count) 0

def getLoans (w : World) (ids : List Nat) : Result (List LoanRecord) := do
  refuseIf (ids.length > 20) (.error .invalidAmount)
  return ids.filterMap w.loans.lookup

end StellarKraal
