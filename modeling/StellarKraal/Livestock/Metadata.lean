import StellarKraal.Livestock.Appraisal
import StellarKraal.OracleBridge.JsonText

/-!
# Animals as JSON

What a registration request must contain, how the metadata of an animal is stored as
text, and that the animal is read back from it whatever is changed beside it.
-/

namespace StellarKraal.Livestock

open Aggregation (Number AnimalType)
open DecimalText (IsDecimal)
open OracleBridge (Json JsonObject)
open OracleBridge.JsonText (WellFormed FieldsWellFormed)

/-! ## Writing over a field -/

/-- `{ ...object, [key]: value }`: a field that is there keeps its place. -/
def assign : JsonObject → String → Json → JsonObject
  | [], key, value => [(key, value)]
  | field :: rest, key, value =>
      if field.1 = key then (key, value) :: rest else field :: assign rest key value

theorem get_assign_of_ne (object : JsonObject) {key key' : String} (value : Json)
    (h : key' ≠ key) : (assign object key value).get key' = object.get key' := by
  have hother : (key' == key) = false := by simpa using h
  induction object with
  | nil => simp [assign, JsonObject.get, h]
  | cons field rest ih =>
      unfold assign
      split
      next heq =>
        rw [JsonObject.get, JsonObject.get, List.lookup_cons, hother, List.lookup_cons, heq, hother]
      next =>
        rw [JsonObject.get, JsonObject.get, List.lookup_cons, List.lookup_cons]
        split
        · rfl
        · exact ih

theorem mem_keys_assign {object : JsonObject} {key key' : String} {value : Json}
    (h : key' ∈ (assign object key value).map Prod.fst) :
    key' = key ∨ key' ∈ object.map Prod.fst := by
  induction object with
  | nil => simpa [assign] using h
  | cons field rest ih =>
      unfold assign at h
      split at h
      next => grind
      next => grind

theorem wellFormed_assign {object : JsonObject} {key : String} {value : Json}
    (hobject : WellFormed (.object object)) (hvalue : WellFormed value) :
    WellFormed (.object (assign object key value)) := by
  induction object with
  | nil => exact ⟨List.nodup_singleton _, hvalue, trivial⟩
  | cons field rest ih =>
      obtain ⟨hnodup, hfield, hrest⟩ := hobject
      obtain ⟨hnew, hnodup⟩ := List.nodup_cons.mp hnodup
      unfold assign
      split
      next heq => exact ⟨List.nodup_cons.mpr ⟨heq ▸ hnew, hnodup⟩, hvalue, hrest⟩
      next hne =>
        obtain ⟨hnodup', hrest'⟩ := ih ⟨hnodup, hrest⟩
        refine ⟨List.nodup_cons.mpr ⟨fun hmem => ?_, hnodup'⟩, hfield, hrest'⟩
        rcases mem_keys_assign hmem with heq | hold
        · exact hne heq
        · exact hnew hold

/-! ## Names -/

/-- `includes` on the list of the names. -/
def AnimalType.ofText (text : String) : Option AnimalType :=
  [AnimalType.cattle, .goat, .sheep, .pig, .donkey].find? (·.text = text)

def HealthStatus.text : HealthStatus → String
  | .excellent => "EXCELLENT"
  | .good => "GOOD"
  | .fair => "FAIR"
  | .poor => "POOR"

def HealthStatus.ofText (text : String) : Option HealthStatus :=
  [HealthStatus.excellent, .good, .fair, .poor].find? (·.text = text)

theorem AnimalType.ofText_text (type : AnimalType) : AnimalType.ofText type.text = some type := by
  cases type <;> decide

theorem HealthStatus.ofText_text (health : HealthStatus) :
    HealthStatus.ofText health.text = some health := by
  cases health <;> decide

/-! ## The request -/

/-- The fields of a registration that has passed validation. -/
structure RegistrationRequest where
  animalId : String
  metadata : LivestockMetadata
  imageUrl : Option Json
  location : Option Json

def requireText (body : JsonObject) (key error : String) : Except String String :=
  match body.get key with
  | some (.string text) => if text = "" then .error error else .ok text
  | _ => .error error

def requireName {α : Type} (ofText : String → Option α) (body : JsonObject) (key error : String) :
    Except String α :=
  match body.get key with
  | some (.string text) => Except.okOr (ofText text) error
  | _ => .error error

def requireNumber (accepts : Number → Bool) (body : JsonObject) (key error : String) :
    Except String Number :=
  match body.get key with
  | some (.number n) => if accepts n then .ok n else .error error
  | _ => .error error

def validateRegistration (body : JsonObject) : Except String RegistrationRequest := do
  let animalId ← requireText body "animalId" "animalId is required"
  let type ← requireName AnimalType.ofText body "type"
    "type must be one of CATTLE, GOAT, SHEEP, PIG, DONKEY"
  let breed ← requireText body "breed" "breed is required"
  let weightKg ← requireNumber (fun n => !decide (n ≤ 0)) body "weightKg"
    "weightKg must be a positive number"
  let ageMonths ← requireNumber (fun n => !decide (n < 0)) body "ageMonths"
    "ageMonths must be a non-negative number"
  let healthStatus ← requireName HealthStatus.ofText body "healthStatus"
    "healthStatus must be one of EXCELLENT, GOOD, FAIR, POOR"
  return {
    animalId
    metadata := { type, breed, weightKg, ageMonths, healthStatus }
    imageUrl := body.get "imageUrl"
    location := body.get "location" }

/-! ## The stored text -/

def LivestockMetadata.fields (m : LivestockMetadata) : JsonObject :=
  [("type", .string m.type.text), ("breed", .string m.breed), ("weightKg", .number m.weightKg),
    ("ageMonths", .number m.ageMonths), ("healthStatus", .string m.healthStatus.text)]

/-- `...(value && { key: value })` -/
def assignTruthy (object : JsonObject) (key : String) (value : Option Json) : JsonObject :=
  match value with
  | some value => if value.truthy then assign object key value else object
  | none => object

/-- `...(value !== undefined && { key: value })` -/
def assignDefined (object : JsonObject) (key : String) (value : Option Json) : JsonObject :=
  match value with
  | some value => assign object key value
  | none => object

def RegistrationRequest.toJson (r : RegistrationRequest) : JsonObject :=
  assignTruthy (assignTruthy r.metadata.fields "imageUrl" r.imageUrl) "location" r.location

/-- The animal that an object describes. -/
def readMetadata (object : JsonObject) : Option LivestockMetadata :=
  match object.get "type", object.get "breed", object.get "weightKg", object.get "ageMonths",
    object.get "healthStatus" with
  | some (.string type), some (.string breed), some (.number weightKg), some (.number ageMonths),
      some (.string healthStatus) => do
      let type ← AnimalType.ofText type
      let healthStatus ← HealthStatus.ofText healthStatus
      return { type, breed, weightKg, ageMonths, healthStatus }
  | _, _, _, _, _ => none

/-- The text is JSON that describes `m`, whatever else it says. -/
def Describes (text : String) (m : LivestockMetadata) : Prop :=
  ∃ object, Json.parse text = some (.object object) ∧ WellFormed (.object object) ∧
    readMetadata object = some m

theorem Describes.unique {text : String} {m m' : LivestockMetadata} (h : Describes text m)
    (h' : Describes text m') : m = m' := by
  obtain ⟨object, hparse, -, hread⟩ := h
  obtain ⟨object', hparse', -, hread'⟩ := h'
  obtain rfl := Json.object.inj (Option.some.inj (hparse.symm.trans hparse'))
  exact Option.some.inj (hread.symm.trans hread')

theorem describes_stringify {object : JsonObject} {m : LivestockMetadata}
    (hobject : WellFormed (.object object)) (hread : readMetadata object = some m) :
    Describes ((Json.object object).stringify 0) m :=
  ⟨object, Json.parse_stringify hobject 0, hobject, hread⟩

/-- The two fields that may be changed say nothing of the animal. -/
theorem readMetadata_assign {key : String} (hkey : key = "imageUrl" ∨ key = "location")
    (object : JsonObject) (value : Json) :
    readMetadata (assign object key value) = readMetadata object := by
  have hget : ∀ name ∈ ["type", "breed", "weightKg", "ageMonths", "healthStatus"],
      (assign object key value).get name = object.get name := by
    intro name hname
    apply get_assign_of_ne
    rcases hkey with rfl | rfl <;> revert hname <;> revert name <;> decide
  simp only [List.forall_mem_cons] at hget
  obtain ⟨htype, hbreed, hweight, hage, hhealth, -⟩ := hget
  simp only [readMetadata, htype, hbreed, hweight, hage, hhealth]

theorem readMetadata_fields (m : LivestockMetadata) : readMetadata m.fields = some m := by
  have htype := AnimalType.ofText_text m.type
  have hhealth := HealthStatus.ofText_text m.healthStatus
  simp [readMetadata, LivestockMetadata.fields, JsonObject.get, List.lookup_cons, htype, hhealth]

end StellarKraal.Livestock
