import Mathlib.Control.Monad.Basic
import Mathlib.Data.Rat.Init

/-!
# JSON values

What `JSON.parse` returns, and objects as lists of their fields.
-/

namespace StellarKraal.OracleBridge

inductive Json
  | null
  | bool (b : Bool)
  | number (n : Rat)
  | string (s : String)
  | array (items : List Json)
  | object (fields : List (String × Json))

abbrev JsonObject := List (String × Json)

namespace JsonObject

/-- `object[key]`; `none` where it is `undefined`. -/
def get (object : JsonObject) (key : String) : Option Json := object.lookup key

/-- `{ ...object, [key]: value }`, as it is stringified: `undefined` drops the key. -/
def set (object : JsonObject) (key : String) (value : Option Json) : JsonObject :=
  let others := object.filter (·.1 ≠ key)
  match value with
  | some value => (key, value) :: others
  | none => others

@[simp] theorem get_set_self (object : JsonObject) (key : String) (value : Option Json) :
    (object.set key value).get key = value := by
  cases value with
  | some value => simp [set, get]
  | none =>
      simp only [set, get, List.lookup_eq_none_iff, List.mem_filter, decide_eq_true_eq]
      rintro field ⟨-, hfield⟩
      simpa using Ne.symm hfield

theorem get_filter_ne (object : JsonObject) {key key' : String} (h : key' ≠ key) :
    (object.filter (·.1 ≠ key)).lookup key' = object.lookup key' := by
  induction object with
  | nil => rfl
  | cons field rest ih =>
      by_cases hname : field.1 = key
      · have hother : (key' == field.1) = false := by simpa [hname] using h
        rw [List.filter_cons_of_neg (by simpa using hname), List.lookup_cons, hother]
        exact ih
      · rw [List.filter_cons_of_pos (by simpa using hname), List.lookup_cons, List.lookup_cons, ih]

theorem get_set_of_ne (object : JsonObject) {key key' : String} (value : Option Json)
    (h : key' ≠ key) : (object.set key value).get key' = object.get key' := by
  have hothers := get_filter_ne object h
  cases value with
  | some value =>
      have hother : (key' == key) = false := by simpa using h
      rw [get, set, List.lookup_cons, hother]
      exact hothers
  | none => exact hothers

end JsonObject

namespace Json

/-- The named properties of a value that is not `null`. -/
def fields : Json → JsonObject
  | .object fields => fields
  | _ => []

def truthy : Json → Bool
  | .null => false
  | .bool b => b
  | .number n => decide (n ≠ 0)
  | .string s => decide (s ≠ "")
  | .array _ | .object _ => true

end Json

end StellarKraal.OracleBridge
