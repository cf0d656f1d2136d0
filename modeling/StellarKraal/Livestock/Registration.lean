import StellarKraal.Auth.Session
import StellarKraal.Foundation.FloatingPoint
import StellarKraal.Foundation.KeyedStore
import StellarKraal.Foundation.TransitionSystem
import StellarKraal.Livestock.Metadata
import StellarKraal.OracleBridge.ParsedJson

/-!
# Registering livestock

The handlers stop at every query. Between the look-up of a tag and the creation of its
row, and between reading a row and writing it back, other requests are served. Once the row
is there, its mint is prepared while the response goes out. The account may not be found or
the simulation may fail, and nothing is submitted then; what is submitted settles at any time
after.
-/

namespace StellarKraal.Livestock

open Aggregation (Number OracleAdapter)
open Auth (TokenPayload)
open Except (refuseIf okOr)
open FloatingPoint (binary64)
open OracleBridge (Json JsonObject)

/-- A row of the table. The creation and update times are not read here. -/
structure Row where
  id : String
  animalId : String
  ownerId : String
  metadata : String
  appraisedValueUSDC : Option Number
  appraisalTxHash : Option String
  verificationStatus : String
  deriving DecidableEq

abbrev Rows := KeyedStore String Row

/-- `findUnique({ where: { animalId } })` -/
def findAnimal (rows : Rows) (animalId : String) : Option Row :=
  (rows.entries.find? fun entry => entry.2.animalId = animalId).map (·.2)

/-- `update`, which throws where there is no such row. -/
def updateRow (rows : Rows) (id : String) (f : Row → Row) : Option Rows :=
  (rows.lookup id).map fun row => rows.insert id (f row)

structure Reply where
  status : Nat
  body : JsonObject

def refusal (status : Nat) (error : String) : Reply := ⟨status, [("error", .string error)]⟩

/-! ## Minting -/

/-- `Math.round` -/
def mathRound (x : Number) : Int := ⌊x + 1 / 2⌋

/-- The arguments of a `mint_collateral` transaction. -/
structure MintInvocation where
  livestockId : String
  ownerPublicKey : String
  valueStroops : Int
  deriving DecidableEq

/-- `Math.round(appraisedValueUSDC * 1e7)`. The value is the double nearest to a number of
cents, and the product is rounded to a double before it is to a whole number. -/
def toStroops (appraisedValueUSDC : Number) : Int :=
  mathRound (binary64 (binary64 appraisedValueUSDC * 1e7))

/-- What `mintCollateral` has invoked. -/
def mintCollateral (livestockId ownerPublicKey : String) (appraisedValueUSDC : Number) :
    MintInvocation where
  livestockId := livestockId
  ownerPublicKey := ownerPublicKey
  valueStroops := toStroops appraisedValueUSDC

/-- A mint under way, and the row that waits for it. -/
structure PendingMint where
  rowId : String
  invocation : MintInvocation

/-- What the settled promise does to the table; each of its two updates may fail. A
failed first update ends in the `catch`, as a failed mint does. -/
def settleMint (rows : Rows) (rowId : String) (outcome : Option String)
    (firstFails secondFails : Bool) : Rows :=
  let verified := outcome.bind fun txHash =>
    if firstFails then none
    else updateRow rows rowId fun row =>
      { row with verificationStatus := "VERIFIED", appraisalTxHash := some txHash }
  match verified with
  | some rows => rows
  | none =>
      if secondFails then rows
      else (updateRow rows rowId fun row => { row with verificationStatus := "REJECTED" }).getD rows

/-! ## Registration -/

/-- A registration whose tag was not found, before its row is created. -/
structure PendingRegistration where
  userId : String
  publicKey : String
  request : RegistrationRequest

/-- `registerLivestock` up to the look-up of the tag. -/
def registerLivestock (rows : Rows) (user : TokenPayload) (body : JsonObject) :
    Except Reply PendingRegistration := do
  let request ← (validateRegistration body).mapError (refusal 400)
  match findAnimal rows request.animalId with
  | some existing =>
      throw ⟨409, [("error", .string "Animal ID already registered"),
        ("livestockId", .string existing.id)]⟩
  | none => return { userId := user.sub, publicKey := user.publicKey, request }

def AppraisalResult.toJson (r : AppraisalResult) : JsonObject :=
  [("marketValueUSDC", .number r.marketValueUSDC),
    ("collateralValueUSDC", .number r.collateralValueUSDC),
    ("ltvRatio", .number r.ltvRatio), ("confidence", .number r.confidence),
    ("breakdown", .object [("basePrice", .number r.breakdown.basePrice),
      ("weightAdjustment", .number r.breakdown.weightAdjustment),
      ("ageMultiplier", .number r.breakdown.ageMultiplier),
      ("healthMultiplier", .number r.breakdown.healthMultiplier)])]

/-- The row as it is created. -/
def newRow (p : PendingRegistration) (id : String) (appraisal : AppraisalResult) : Row where
  id := id
  animalId := p.request.animalId
  ownerId := p.userId
  metadata := (Json.object p.request.toJson).stringify 0
  appraisedValueUSDC := some appraisal.collateralValueUSDC
  appraisalTxHash := none
  verificationStatus := "APPRAISED"

def created (row : Row) (appraisal : AppraisalResult) : Reply where
  status := 201
  body := [("message",
      .string "Livestock registered and appraised. On-chain verification pending."),
    ("livestock", .object [("id", .string row.id), ("animalId", .string row.animalId),
      ("verificationStatus", .string row.verificationStatus),
      ("appraisedValueUSDC", .number appraisal.collateralValueUSDC)]),
    ("appraisal", .object appraisal.toJson)]

/-- The rest of `registerLivestock`: what it creates, has minted and replies. An error is
handed to the error handler; the tag is unique in the table, and so is the id. -/
def createLivestock (oracles : List OracleAdapter) (maxDeviationPct : Number) (rows : Rows)
    (p : PendingRegistration) (id : String) : Except String (Rows × PendingMint × Reply) := do
  let appraisal ← appraiseLivestock oracles maxDeviationPct p.request.metadata
  let row := newRow p id appraisal
  refuseIf ((findAnimal rows row.animalId).isSome ∨ (rows.lookup id).isSome) "P2002"
  let mint := mintCollateral row.animalId p.publicKey appraisal.collateralValueUSDC
  return (rows.insert id row, ⟨id, mint⟩, created row appraisal)

/-! ## Updates -/

/-- What a `PATCH` writes, computed from the row it has read. -/
structure PendingUpdate where
  rowId : String
  metadata : String
  verificationStatus : Option Json

/-- `JSON.parse`, and the text itself where it throws. -/
def safeParseJson (text : String) : Json := (Json.parse text).getD (.string text)

/-- `updateLivestock` up to its write. Only fields of objects are spread here; a stored
text always is one. -/
def updateLivestock (rows : Rows) (user : TokenPayload) (id : String) (body : JsonObject) :
    Except Reply PendingUpdate := do
  let livestock ← okOr (rows.lookup id) (refusal 404 "Livestock not found")
  refuseIf (user.role ≠ "ADMIN" ∧ livestock.ownerId ≠ user.sub)
    (refusal 403 "Forbidden: not the owner")
  let currentMeta := (safeParseJson livestock.metadata).fields
  let updatedMeta := assignDefined (assignDefined currentMeta "imageUrl" (body.get "imageUrl"))
    "location" (body.get "location")
  return {
    rowId := id
    metadata := (Json.object updatedMeta).stringify 0
    verificationStatus := if user.role = "ADMIN" then body.get "verificationStatus" else none }

/-- The write. A status that is no string is refused by the table. -/
def writeUpdate (rows : Rows) (u : PendingUpdate) : Option Rows :=
  match u.verificationStatus with
  | none => updateRow rows u.rowId fun row => { row with metadata := u.metadata }
  | some (.string verificationStatus) =>
      updateRow rows u.rowId fun row => { row with metadata := u.metadata, verificationStatus }
  | some _ => none

/-! ## All requests together -/

structure Backend where
  rows : Rows := ∅
  registering : List PendingRegistration := []
  /-- Before `sendTransaction`. -/
  minting : List PendingMint := []
  /-- After it. -/
  confirming : List PendingMint := []
  updating : List PendingUpdate := []
  /-- Every `mint_collateral` that was ever submitted. -/
  minted : List MintInvocation := []

/-- A request that arrives, or one that goes on. -/
inductive Action
  | register (user : TokenPayload) (body : String)
  /-- With the feeds as they answer now. -/
  | create (index : Nat) (id : String) (oracles : List OracleAdapter)
  /-- `sendTransaction` is called. -/
  | submit (index : Nat)
  /-- Something throws before it. -/
  | abandon (index : Nat) (secondFails : Bool)
  | settle (index : Nat) (outcome : Option String) (firstFails secondFails : Bool)
  | patch (user : TokenPayload) (id body : String)
  | write (index : Nat)
  /-- The indexer marks the collateral of a liquidated loan as available again. -/
  | liquidationIndexed (id : String)

def Backend.step (maxDeviationPct : Number) (b : Backend) : Action → Option Backend
  | .register user body =>
      (Json.parse body).map fun body =>
        match registerLivestock b.rows user body.fields with
        | .ok p => { b with registering := b.registering ++ [p] }
        | .error _ => b
  | .create index id oracles =>
      b.registering[index]?.map fun p =>
        let registering := b.registering.eraseIdx index
        match createLivestock oracles maxDeviationPct b.rows p id with
        | .ok (rows, mint, _) => { b with rows, registering, minting := b.minting ++ [mint] }
        | .error _ => { b with registering }
  | .submit index =>
      b.minting[index]?.map fun m =>
        { b with
          minting := b.minting.eraseIdx index
          confirming := b.confirming ++ [m]
          minted := b.minted ++ [m.invocation] }
  | .abandon index secondFails =>
      b.minting[index]?.map fun m =>
        { b with
          rows := settleMint b.rows m.rowId none false secondFails
          minting := b.minting.eraseIdx index }
  | .settle index outcome firstFails secondFails =>
      b.confirming[index]?.map fun m =>
        { b with
          rows := settleMint b.rows m.rowId outcome firstFails secondFails
          confirming := b.confirming.eraseIdx index }
  | .patch user id body =>
      (Json.parse body).map fun body =>
        match updateLivestock b.rows user id body.fields with
        | .ok u => { b with updating := b.updating ++ [u] }
        | .error _ => b
  | .write index =>
      b.updating[index]?.map fun u =>
        { b with
          rows := (writeUpdate b.rows u).getD b.rows
          updating := b.updating.eraseIdx index }
  | .liquidationIndexed id =>
      (updateRow b.rows id fun row => { row with verificationStatus := "VERIFIED" }).map
        fun rows => { b with rows }

/-- Where the backend runs: what the feeds may answer, and the key of each user, which is
in every token of the user. -/
structure Settings where
  maxDeviationPct : Number
  answers : Set (List OracleAdapter)
  publicKeyOf : String → String

def Action.Admissible (settings : Settings) : Action → Prop
  | .register user _ => user.publicKey = settings.publicKeyOf user.sub
  | .create _ _ oracles => oracles ∈ settings.answers
  | _ => True

/-- The backend from an empty table on. -/
def backend (settings : Settings) : TransitionSystem Backend Action where
  Initial b := b = {}
  Step b a b' := a.Admissible settings ∧ b.step settings.maxDeviationPct a = some b'

end StellarKraal.Livestock
