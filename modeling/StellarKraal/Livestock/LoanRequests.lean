import StellarKraal.Foundation.Components
import StellarKraal.Indexer.Database
import StellarKraal.Livestock.Verification

/-!
# Loan requests

A borrower asks for a loan on a registered animal and is handed the parameters of the
call that takes it. The animal and the active loans are looked up one after the other,
while registrations, patches and mints go on and the indexer follows the chain.
-/

namespace StellarKraal.Livestock

open Aggregation (Number OracleAdapter AnimalType)
open Auth (TokenPayload)
open Except (refuseIf okOr)
open OracleBridge (Json JsonObject)
open TransitionSystem (Transition Component)

/-! ## The handler -/

/-- A row of the loan table, as far as it is read here. -/
structure LoanRow where
  id : String
  livestockId : String
  status : Indexer.LoanStatus

/-- Loans by contract loan id. -/
abbrev LoanRows := KeyedStore String LoanRow

/-- `findFirst({ where: { livestockId, status: LoanStatus.ACTIVE } })` -/
def findActiveLoan (loans : LoanRows) (livestockId : String) : Option LoanRow :=
  (loans.entries.find? fun entry =>
    entry.2.livestockId = livestockId ∧ entry.2.status = .active).map (·.2)

/-- The fields of a loan request that has passed validation. -/
structure LoanRequest where
  livestockId : String
  principalUSDC : Number
  durationDays : Number

def validateLoanRequest (body : JsonObject) : Except String LoanRequest := do
  let livestockId ← requireText body "livestockId" "livestockId is required"
  let principalUSDC ← requireNumber (fun n => !decide (n ≤ 0)) body "principalUSDC"
    "principalUSDC must be a positive number"
  let durationDays ← requireNumber (fun n => !decide (n < 1 ∨ 730 < n)) body "durationDays"
    "durationDays must be between 1 and 730"
  return { livestockId, principalUSDC, durationDays }

/-- A loan request whose animal was found fit, before the active loans are looked up. -/
structure PendingLoanRequest where
  user : TokenPayload
  request : LoanRequest
  livestock : Row

/-- The principal is more than the animal was appraised at. -/
def exceedsValue (livestock : Row) (principalUSDC : Number) : Option Number :=
  livestock.appraisedValueUSDC.filter fun value => decide (value < principalUSDC)

/-- `requestLoan` up to the look-up of the active loans. -/
def requestLoan (rows : Rows) (user : TokenPayload) (body : JsonObject) :
    Except Reply PendingLoanRequest := do
  let request ← (validateLoanRequest body).mapError (refusal 400)
  let livestock ← okOr (rows.lookup request.livestockId) (refusal 404 "Livestock not found")
  refuseIf (livestock.ownerId ≠ user.sub)
    (refusal 403 "Forbidden: not the owner of this livestock")
  refuseIf (livestock.verificationStatus ≠ "VERIFIED")
    ⟨422, [("error", .string "Livestock is not yet verified on-chain"),
      ("verificationStatus", .string livestock.verificationStatus)]⟩
  match exceedsValue livestock request.principalUSDC with
  | some value =>
      throw ⟨422, [("error", .string "Requested principal exceeds appraised collateral value"),
        ("maxPrincipalUSDC", .number value)]⟩
  | none => return { user, request, livestock }

/-- The parameters of the call on chain. -/
structure LoanParams where
  borrower : String
  collateralId : String
  principalUSDC : Number
  durationDays : Number
  deriving DecidableEq

/-- The rest of `requestLoan`. -/
def answerLoanRequest (loans : LoanRows) (p : PendingLoanRequest) : Except Reply LoanParams :=
  match findActiveLoan loans p.livestock.id with
  | some activeLoan =>
      .error ⟨409, [("error", .string "This livestock already has an active loan"),
        ("loanId", .string activeLoan.id)]⟩
  | none => .ok {
      borrower := p.user.publicKey
      collateralId := p.livestock.animalId
      principalUSDC := p.request.principalUSDC
      durationDays := p.request.durationDays }

def validated (contractId : String) (params : LoanParams) : Reply where
  status := 200
  body := [("message",
      .string "Loan request validated. Submit the following parameters to the Soroban contract."),
    ("contractId", .string contractId), ("functionName", .string "create_loan"),
    ("params", .object [("borrower", .string params.borrower),
      ("collateralId", .string params.collateralId),
      ("principalUSDC", .number params.principalUSDC),
      ("durationDays", .number params.durationDays)])]

/-! ## The whole backend -/

/-- Parameters that were handed out, and to whom and for which row. -/
structure Offer where
  userId : String
  livestockId : String
  params : LoanParams
  deriving DecidableEq

structure Desk where
  backend : Backend := {}
  loans : LoanRows := ∅
  requesting : List PendingLoanRequest := []
  /-- Every request that was answered with parameters. -/
  offers : List Offer := []

inductive DeskAction
  | livestock (action : Action)
  | request (user : TokenPayload) (body : String)
  | answer (index : Nat)
  /-- The indexer's upsert; only a new row takes the ids. -/
  | loanCreated (contractLoanId id livestockId : String)
  | loanClosed (contractLoanId : String) (status : Indexer.LoanStatus)

def DeskAction.livestock? : DeskAction → Option Action
  | .livestock action => some action
  | _ => none

def upsertLoan (loans : LoanRows) (contractLoanId id livestockId : String) : LoanRows :=
  match loans.lookup contractLoanId with
  | some loan => loans.insert contractLoanId { loan with status := .active }
  | none => loans.insert contractLoanId { id, livestockId, status := .active }

def Desk.step (maxDeviationPct : Number) (d : Desk) : DeskAction → Option Desk
  | .livestock action =>
      (d.backend.step maxDeviationPct action).map fun backend => { d with backend }
  | .request user body =>
      (Json.parse body).map fun body =>
        match requestLoan d.backend.rows user body.fields with
        | .ok p => { d with requesting := d.requesting ++ [p] }
        | .error _ => d
  | .answer index =>
      d.requesting[index]?.map fun p =>
        let requesting := d.requesting.eraseIdx index
        match answerLoanRequest d.loans p with
        | .ok params =>
            { d with requesting, offers := d.offers ++ [⟨p.user.sub, p.livestock.id, params⟩] }
        | .error _ => { d with requesting }
  | .loanCreated contractLoanId id livestockId =>
      some { d with loans := upsertLoan d.loans contractLoanId id livestockId }
  | .loanClosed contractLoanId status =>
      (d.loans.lookup contractLoanId).map fun loan =>
        { d with loans := d.loans.insert contractLoanId { loan with status } }

def DeskAction.Admissible (settings : Settings) : DeskAction → Prop
  | .livestock action => action.Admissible settings
  | .request user _ => user.publicKey = settings.publicKeyOf user.sub
  | _ => True

def desk (settings : Settings) : TransitionSystem Desk DeskAction where
  Initial d := d = {}
  Step d a d' := a.Admissible settings ∧ d.step settings.maxDeviationPct a = some d'

/-- The registrations, patches and mints of a run. -/
def livestockSteps (steps : List (Transition Desk DeskAction)) : List (Transition Backend Action) :=
  steps.filterMap (Transition.view Desk.backend DeskAction.livestock?)

variable {settings : Settings}

/-- Loan requests leave the livestock alone. -/
theorem desk_component :
    Component (desk settings) (backend settings) Desk.backend DeskAction.livestock? where
  initial := by
    rintro _ rfl
    rfl
  step := by
    rintro d a d' action ⟨hadmissible, hstep⟩ haction
    cases a <;> simp only [DeskAction.livestock?, Option.some.injEq, reduceCtorEq] at haction
    obtain rfl := haction
    obtain ⟨b, hb, rfl⟩ := Option.map_eq_some_iff.mp hstep
    exact ⟨hadmissible, hb⟩
  other := by
    rintro d a d' ⟨-, hstep⟩ haction
    cases a with
    | livestock action => simp [DeskAction.livestock?] at haction
    | request user body =>
        obtain ⟨value, -, rfl⟩ := Option.map_eq_some_iff.mp hstep
        split <;> rfl
    | answer index =>
        obtain ⟨p, -, rfl⟩ := Option.map_eq_some_iff.mp hstep
        dsimp only
        split <;> rfl
    | loanCreated contractLoanId id livestockId =>
        obtain rfl := Option.some.inj hstep
        rfl
    | loanClosed contractLoanId status =>
        obtain ⟨loan, -, rfl⟩ := Option.map_eq_some_iff.mp hstep
        rfl

theorem desk_rowsGrow {d d' : Desk} {a : DeskAction} (hreach : (desk settings).Reachable d)
    (hstep : (desk settings).Step d a d') : RowsGrow d.backend.rows d'.backend.rows := by
  cases ha : a.livestock? with
  | none =>
      rw [desk_component.other d a d' hstep ha]
      exact (KeepsRows.refl _).forth
  | some action =>
      exact ((reachable_sound (desk_component.reachable hreach)).step
        (desk_component.step d a d' action hstep ha)).2

/-! ## What a request was checked for -/

theorem requestLoan_ok {rows : Rows} {user : TokenPayload} {body : JsonObject}
    {p : PendingLoanRequest} (h : requestLoan rows user body = .ok p) :
    p.user = user ∧ rows.lookup p.request.livestockId = some p.livestock ∧
      p.livestock.ownerId = user.sub ∧ p.livestock.verificationStatus = "VERIFIED" ∧
      0 < p.request.principalUSDC ∧
      (∀ value, p.livestock.appraisedValueUSDC = some value → p.request.principalUSDC ≤ value) ∧
      1 ≤ p.request.durationDays ∧ p.request.durationDays ≤ 730 := by
  simp only [requestLoan, Except.bind_succeeds, Except.mapError_eq_ok, Except.okOr_eq_ok,
    Except.refuseIf_eq_ok, not_not] at h
  obtain ⟨request, hvalid, row, hrow, _, howner, _, hverified, h⟩ := h
  simp only [validateLoanRequest, Except.bind_succeeds, Except.pure_succeeds] at hvalid
  obtain ⟨livestockId, -, principalUSDC, hprincipal, durationDays, hduration, rfl⟩ := hvalid
  split at h
  next => contradiction
  next hfits =>
    obtain rfl := Except.pure_succeeds.mp h
    have hpositive := (requireNumber_ok hprincipal).2
    have hbounds := (requireNumber_ok hduration).2
    simp only [Bool.not_eq_true', decide_eq_false_iff_not, not_le, not_or, not_lt]
      at hpositive hbounds
    refine ⟨rfl, hrow, howner, hverified, hpositive, fun value hvalue => ?_, hbounds⟩
    have hvalue : row.appraisedValueUSDC = some value := hvalue
    simpa [exceedsValue, hvalue, Option.filter] using hfits

/-- What was checked of a request, of the table as it is now. -/
structure Vetted (settings : Settings) (steps : List (Transition Desk DeskAction)) (rows : Rows)
    (p : PendingLoanRequest) : Prop where
  stored : ∃ row, rows.lookup p.livestock.id = some row ∧ p.livestock.Becomes row
  owner : p.livestock.ownerId = p.user.sub
  key : p.user.publicKey = settings.publicKeyOf p.user.sub
  positive : 0 < p.request.principalUSDC
  ceiling : ∀ value, p.livestock.appraisedValueUSDC = some value →
    p.request.principalUSDC ≤ value
  duration : 1 ≤ p.request.durationDays ∧ p.request.durationDays ≤ 730
  verified : VerifiedBy settings (livestockSteps steps) p.livestock.id p.livestock

/-- The offer was made in a step before which no loan of its animal was active. -/
def OfferedWhenFree (steps : List (Transition Desk DeskAction)) (offer : Offer) : Prop :=
  ∃ t ∈ steps, t.after.offers = t.before.offers ++ [offer] ∧
    ∀ id loan, t.before.loans.lookup id = some loan → loan.livestockId = offer.livestockId →
      loan.status ≠ .active

/-- The offer answers a request that was vetted. -/
def Offered (settings : Settings) (steps : List (Transition Desk DeskAction)) (rows : Rows)
    (offer : Offer) : Prop :=
  OfferedWhenFree steps offer ∧ ∃ p, Vetted settings steps rows p ∧
    offer = ⟨p.user.sub, p.livestock.id, ⟨p.user.publicKey, p.livestock.animalId,
      p.request.principalUSDC, p.request.durationDays⟩⟩

structure DeskSound (settings : Settings) (steps : List (Transition Desk DeskAction))
    (d : Desk) : Prop where
  requesting : ∀ p ∈ d.requesting, Vetted settings steps d.backend.rows p
  offers : ∀ offer ∈ d.offers, Offered settings steps d.backend.rows offer

section Steps

variable {steps : List (Transition Desk DeskAction)} {t : Transition Desk DeskAction}
  {rows rows' : Rows}

theorem Vetted.later {p : PendingLoanRequest} (h : Vetted settings steps rows p)
    (hrows : RowsGrow rows rows') : Vetted settings (steps ++ [t]) rows' p where
  stored := by
    obtain ⟨row, hrow, hbecomes⟩ := h.stored
    obtain ⟨row', hrow', hlast⟩ := hrows _ row hrow
    exact ⟨row', hrow', hbecomes.trans hlast⟩
  owner := h.owner
  key := h.key
  positive := h.positive
  ceiling := h.ceiling
  duration := h.duration
  verified := by
    refine h.verified.mono ?_ (.refl p.livestock)
    rw [livestockSteps, livestockSteps, List.filterMap_append]
    exact List.subset_append_left _ _

theorem Offered.later {offer : Offer} (h : Offered settings steps rows offer)
    (hrows : RowsGrow rows rows') : Offered settings (steps ++ [t]) rows' offer := by
  obtain ⟨⟨t', ht', hfree⟩, p, hp, heq⟩ := h
  exact ⟨⟨t', List.mem_append_left _ ht', hfree⟩, p, hp.later hrows, heq⟩

theorem findActiveLoan_eq_none {loans : LoanRows} {livestockId : String}
    (h : findActiveLoan loans livestockId = none) :
    ∀ id loan, loans.lookup id = some loan → loan.livestockId = livestockId →
      loan.status ≠ .active := by
  intro id loan hloan hlivestock hactive
  have hmem : (⟨id, loan⟩ : Sigma fun _ => LoanRow) ∈ loans.entries :=
    AList.mem_lookup_iff.mp hloan
  simp only [findActiveLoan, Option.map_eq_none_iff, List.find?_eq_none] at h
  simpa [hlivestock, hactive] using h _ hmem

theorem answerLoanRequest_ok {loans : LoanRows} {p : PendingLoanRequest} {params : LoanParams}
    (h : answerLoanRequest loans p = .ok params) :
    findActiveLoan loans p.livestock.id = none ∧ params = ⟨p.user.publicKey, p.livestock.animalId,
      p.request.principalUSDC, p.request.durationDays⟩ := by
  unfold answerLoanRequest at h
  split at h
  next => contradiction
  next hnone => exact ⟨hnone, (Except.ok.inj h).symm⟩

/-- Where nothing was requested or answered, all stays as it was checked. -/
theorem DeskSound.keep {d d' : Desk} (h : DeskSound settings steps d)
    (hrows : RowsGrow d.backend.rows d'.backend.rows)
    (hrequesting : ∀ p ∈ d'.requesting, p ∈ d.requesting) (hoffers : d'.offers = d.offers) :
    DeskSound settings (steps ++ [t]) d' where
  requesting p hp := (h.requesting p (hrequesting p hp)).later hrows
  offers offer hoffer := (h.offers offer (hoffers ▸ hoffer)).later hrows

theorem DeskSound.step {d d' : Desk} {a : DeskAction} (h : DeskSound settings steps d)
    (hrun : (desk settings).Run {} steps d) (hstep : (desk settings).Step d a d') :
    DeskSound settings (steps ++ [⟨d, a, d'⟩]) d' := by
  have hreach : (desk settings).Reachable d := .run (.of_initial rfl) hrun
  have hsound := reachable_sound (desk_component.reachable hreach)
  have hgrow := desk_rowsGrow hreach hstep
  have hsame := (KeepsRows.refl d.backend.rows).forth
  obtain ⟨hadmissible, step⟩ := hstep
  cases a with
  | livestock action =>
      obtain ⟨b, -, rfl⟩ := Option.map_eq_some_iff.mp step
      exact h.keep hgrow (fun p hp => hp) rfl
  | request user body =>
      obtain ⟨value, -, rfl⟩ := Option.map_eq_some_iff.mp step
      split
      next p hp =>
        obtain ⟨rfl, hrow, howner, hverified, hpositive, hceiling, hduration⟩ := requestLoan_ok hp
        have hid := hsound.ids _ _ hrow
        rw [← hid] at hrow
        have hby := (Explained.of_run (desk_component.run hrun)).verified _ _ hrow hverified
        refine ⟨fun q hq => ?_, fun offer hoffer => (h.offers offer hoffer).later hsame⟩
        rcases List.mem_append.mp hq with hq | hq
        · exact (h.requesting q hq).later hsame
        · obtain rfl := List.mem_singleton.mp hq
          exact (Vetted.mk ⟨q.livestock, hrow, .refl q.livestock⟩ howner hadmissible hpositive
            hceiling hduration hby).later hsame
      next => exact h.keep hsame (fun p hp => hp) rfl
  | answer index =>
      obtain ⟨p, hp, rfl⟩ := Option.map_eq_some_iff.mp step
      have hrest : ∀ q ∈ d.requesting.eraseIdx index, q ∈ d.requesting := fun q hq =>
        List.mem_of_mem_eraseIdx hq
      generalize ht : (⟨d, .answer index, _⟩ : Transition Desk DeskAction) = t
      have hlast : t ∈ steps ++ [t] := List.mem_append_right _ List.mem_cons_self
      revert ht
      dsimp only
      split
      next params hparams =>
        rintro rfl
        obtain ⟨hnone, rfl⟩ := answerLoanRequest_ok hparams
        refine ⟨fun q hq => (h.requesting q (hrest q hq)).later hsame, fun offer hoffer => ?_⟩
        rcases List.mem_append.mp hoffer with hoffer | hoffer
        · exact (h.offers offer hoffer).later hsame
        · obtain rfl := List.mem_singleton.mp hoffer
          have hvetted := h.requesting p (List.mem_of_getElem? hp)
          exact ⟨⟨_, hlast, rfl, findActiveLoan_eq_none hnone⟩, p, hvetted.later hsame, rfl⟩
      next => exact fun _ => h.keep hsame hrest rfl
  | loanCreated contractLoanId id livestockId =>
      obtain rfl := Option.some.inj step
      exact h.keep hgrow (fun p hp => hp) rfl
  | loanClosed contractLoanId status =>
      obtain ⟨loan, -, rfl⟩ := Option.map_eq_some_iff.mp step
      exact h.keep hgrow (fun p hp => hp) rfl

theorem DeskSound.of_run {d : Desk} (hrun : (desk settings).Run {} steps d) :
    DeskSound settings steps d := by
  induction hrun with
  | nil => exact ⟨nofun, nofun⟩
  | snoc prior step ih => exact ih.step prior step

/-! ## What parameters are handed out for -/

/-- Whatever else is served and indexed meanwhile: parameters are handed out while no loan
of the animal is active, to the owner of a verified row, for no more than the animal that
the row describes was appraised at. The row was verified by its own mint, which was submitted
then, or by an admin or a liquidation; and no tag is minted twice, this one only to the
borrower's key and for the whole value. -/
theorem offer_backed {d : Desk} {offer : Offer} (hrun : (desk settings).Run {} steps d)
    (hoffer : offer ∈ d.offers) :
    OfferedWhenFree steps offer ∧ (d.backend.minted.map (·.livestockId)).Nodup ∧
    ∃ row m oracles r,
      d.backend.rows.lookup offer.livestockId = some row ∧ row.ownerId = offer.userId ∧
      row.animalId = offer.params.collateralId ∧
      Describes row.metadata m ∧ oracles ∈ settings.answers ∧
      appraiseLivestock oracles settings.maxDeviationPct m = .ok r ∧
      0 < offer.params.principalUSDC ∧ offer.params.principalUSDC ≤ r.collateralValueUSDC ∧
      (MintConfirmed settings (livestockSteps steps) offer.livestockId row ∧
          (∃ i ∈ d.backend.minted, i.livestockId = offer.params.collateralId) ∨
        AdminPatched (livestockSteps steps) offer.livestockId "VERIFIED" ∨
        LiquidationIndexed (livestockSteps steps) offer.livestockId) ∧
      ∀ i ∈ d.backend.minted, i.livestockId = offer.params.collateralId →
        i.ownerPublicKey = offer.params.borrower ∧
        i.valueStroops = toStroops r.collateralValueUSDC ∧
        (r.collateralValueUSDC ≤ 2 * 10 ^ 8 →
          offer.params.principalUSDC * 10 ^ 7 ≤ i.valueStroops) := by
  obtain ⟨hfree, p, hp, rfl⟩ := (DeskSound.of_run hrun).offers offer hoffer
  have hsound := reachable_sound (desk_component.reachable (.run (.of_initial rfl) hrun))
  obtain ⟨row, hrow, hbecomes⟩ := hp.stored
  obtain ⟨m, oracles, r, hm, horacles, hr, hvalue⟩ := hsound.appraised _ row hrow
  have hceiling := hp.ceiling _ (hbecomes.appraisedValueUSDC.symm.trans hvalue)
  have howner : row.ownerId = p.user.sub := hbecomes.ownerId.trans hp.owner
  refine ⟨hfree, hsound.minted_nodup, row, m, oracles, r, hrow, howner, hbecomes.animalId, hm,
    horacles, hr, hp.positive, hceiling, ?_, ?_⟩
  · refine (hp.verified.mono (List.Subset.refl _) hbecomes).imp_left fun hconfirmed => ?_
    refine ⟨hconfirmed, ?_⟩
    obtain ⟨t, ht, _, _, _, _, mint, -, -, -, hsent, hminted⟩ := hconfirmed
    exact ⟨mint.invocation, minted_subset (desk_component.run hrun) ht hsent,
      hminted.1.trans hbecomes.animalId⟩
  · intro i hi htag
    obtain ⟨id, row', hrow', htag', hkey, value, hvalue', hstroops⟩ := hsound.mintedRow i hi
    obtain rfl : id = p.livestock.id :=
      hsound.tags _ _ row' row hrow' hrow (htag'.symm.trans (htag.trans hbecomes.animalId.symm))
    obtain rfl := Option.mem_unique hrow hrow'
    obtain rfl := Option.some.inj (hvalue.symm.trans hvalue')
    refine ⟨?_, hstroops, fun hsmall => ?_⟩
    · rw [hkey, howner]
      exact hp.key.symm
    · have hpositive := (hp.positive.trans_le hceiling).le
      rw [hstroops, hsound.stroops hrow hvalue (by rwa [abs_of_nonneg hpositive])]
      exact mul_le_mul_of_nonneg_right hceiling (by norm_num)

/-- As long as most feeds that answer are honest, no request is validated for more than
the animal is worth at the highest honest price, up to the allowed deviation. -/
theorem offer_within_honest_price {lo hi : AnimalType → String → Number}
    (hlo : ∀ type breed, 0 < lo type breed) (hpct : 0 ≤ settings.maxDeviationPct)
    (hfeeds : ∀ oracles ∈ settings.answers, ∀ type breed,
      HonestFeeds oracles type breed (lo type breed) (hi type breed))
    {d : Desk} {offer : Offer} (hrun : (desk settings).Run {} steps d) (hoffer : offer ∈ d.offers) :
    ∃ row m, d.backend.rows.lookup offer.livestockId = some row ∧ Describes row.metadata m ∧
      offer.params.principalUSDC ≤
        collateralValue (hi m.type m.breed * (1 + settings.maxDeviationPct / 100)) m := by
  obtain ⟨-, p, hp, rfl⟩ := (DeskSound.of_run hrun).offers offer hoffer
  have hsound := reachable_sound (desk_component.reachable (.run (.of_initial rfl) hrun))
  obtain ⟨row, hrow, hbecomes⟩ := hp.stored
  obtain ⟨m, oracles, r, hm, horacles, hr, hvalue⟩ := hsound.appraised _ row hrow
  have hceiling := hp.ceiling _ (hbecomes.appraisedValueUSDC.symm.trans hvalue)
  have hhonest := hfeeds oracles horacles m.type m.breed
  exact ⟨row, m, hrow, hm, hceiling.trans (hhonest.collateral_le (hlo _ _) hpct hr)⟩

end Steps

namespace Sample

/-- The bull is registered and minted, and its owner asks for 700 dollars. -/
def borrowing : List DeskAction :=
  [.livestock (.register owner bullBody), .livestock (.create 0 "a" feeds),
    .livestock (.submit 0), .livestock (.settle 0 (some "tx") false false),
    .loanCreated "7" "l" "b",
    .request owner "\x7b\"livestockId\":\"a\",\"principalUSDC\":700,\"durationDays\":90\x7d",
    .answer 0]

def offer : Offer := ⟨"ALICE", "a", ⟨"GALICE", "T-1", 700, 90⟩⟩

theorem exists_offer : ∃ steps d, (desk deployment).Run {} steps d ∧ offer ∈ d.offers ∧
    d.backend.minted = [mint] := by
  have hreplay : ((TransitionSystem.replay (Desk.step 15) {} borrowing).map fun r =>
      (r.2.offers, r.2.backend.minted)) = some ([offer], [mint]) := by
    decide +kernel
  obtain ⟨⟨steps, d⟩, hrun, heq⟩ := Option.map_eq_some_iff.mp hreplay
  obtain ⟨hoffers, hminted⟩ := Prod.mk.inj heq
  have hadmits : ∀ a ∈ borrowing, a.Admissible deployment := by
    simp only [borrowing, List.forall_mem_cons]
    exact ⟨rfl, Set.mem_singleton feeds, trivial, trivial, trivial, rfl, trivial, nofun⟩
  refine ⟨steps, d, TransitionSystem.Run.of_replay_mem
    (fun a ha s s' hs => And.intro (hadmits a ha) hs) hrun, ?_, hminted⟩
  rw [show d.offers = [offer] from hoffers]
  exact List.mem_singleton_self offer

end Sample

/-- The bull's one mint was submitted to the key that borrows, for more than is lent. -/
theorem sample_offer_backed : ∃ steps d, (desk Sample.deployment).Run {} steps d ∧
    OfferedWhenFree steps Sample.offer ∧ d.backend.minted = [Sample.mint] ∧
    ∃ r : AppraisalResult, Sample.mint.valueStroops = toStroops r.collateralValueUSDC ∧
      Sample.offer.params.principalUSDC ≤ r.collateralValueUSDC := by
  obtain ⟨steps, d, hrun, hoffer, hminted⟩ := Sample.exists_offer
  obtain ⟨hfree, -, -, -, -, r, -, -, -, -, -, -, -, hceiling, -, hmint⟩ := offer_backed hrun hoffer
  have hstroops := (hmint Sample.mint (hminted ▸ List.mem_singleton_self _) rfl).2.1
  exact ⟨steps, d, hrun, hfree, hminted, r, hstroops, hceiling⟩

/-- One feed of three is far off; the others say about three dollars. -/
theorem sample_offer_within_honest_price : ∃ m,
    Sample.offer.params.principalUSDC ≤ collateralValue (3 * (1 + 15 / 100)) m := by
  have hfeeds : ∀ oracles ∈ Sample.deployment.answers, ∀ type breed,
      HonestFeeds oracles type breed 2.9 3 := by
    rintro oracles rfl type breed
    have hcount : HonestFeeds Sample.feeds .cattle "Angus" 2.9 3 := by
      unfold HonestFeeds
      decide +kernel
    exact hcount
  obtain ⟨steps, d, hrun, hoffer, -⟩ := Sample.exists_offer
  obtain ⟨row, m, -, -, hle⟩ := offer_within_honest_price (fun _ _ => by norm_num)
    (by norm_num [Sample.deployment]) hfeeds hrun hoffer
  exact ⟨m, hle⟩

end StellarKraal.Livestock
