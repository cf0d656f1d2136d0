import Mathlib.Data.List.DropRight
import Mathlib.Data.List.TakeWhile

/-!
# Text that was typed in

What `trim` of ECMAScript removes, and how `parseInt` reads a decimal integer: white space
before it and anything after it is passed over. The integer is not rounded to a binary
floating-point number. Settings are read so from environment variables.
-/

namespace TextInput

/-- What `trim` removes: white space and line terminators. -/
def isSpace (c : Char) : Bool :=
  c.toNat ∈ [0x9, 0xA, 0xB, 0xC, 0xD, 0x20, 0xA0, 0x1680, 0x2028, 0x2029, 0x202F, 0x205F, 0x3000,
    0xFEFF] ∨ 0x2000 ≤ c.toNat ∧ c.toNat ≤ 0x200A

/-- `text.trim().length > 0` -/
def isNonEmpty (text : String) : Bool := text.toList.any (!isSpace ·)

/-- `text.trim()` -/
def trim (text : String) : String :=
  String.ofList ((text.toList.dropWhile isSpace).rdropWhile isSpace)

/-- The digits up to the first other character; `none` where there are none. -/
def leadingDigits (chars : List Char) : Option Nat :=
  let digits := chars.takeWhile Char.isDigit
  if digits = [] then none else some (Nat.ofDigitChars 10 digits 0)

def parseSigned : List Char → Option Int
  | '-' :: chars => (leadingDigits chars).map fun n => -n
  | '+' :: chars => (leadingDigits chars).map Int.ofNat
  | chars => (leadingDigits chars).map Int.ofNat

/-- `parseInt(text, 10)`, where `none` is `NaN`. -/
def parseInt (text : String) : Option Int := parseSigned (text.toList.dropWhile isSpace)

example : parseInt " -12.5 s" = some (-12) := by decide +kernel

theorem not_isSpace_of_isDigit {c : Char} (h : c.isDigit) : isSpace c = false := by
  simp only [Char.isDigit, Bool.and_eq_true, decide_eq_true_eq, ge_iff_le,
    UInt32.le_iff_toNat_le] at h
  change 48 ≤ c.toNat ∧ c.toNat ≤ 57 at h
  rw [isSpace, decide_eq_false_iff_not]
  simp only [List.mem_cons, List.not_mem_nil, or_false]
  omega

/-- The text of a natural number is read as that number. -/
theorem parseInt_toString (n : Nat) : parseInt (toString n) = some (n : Int) := by
  have hdigits : ∀ c ∈ Nat.toDigits 10 n, c.isDigit := fun c hc =>
    Nat.isDigit_of_mem_toDigits (by decide) (by decide) hc
  have hlist : (toString n).toList = Nat.toDigits 10 n := Nat.toList_repr
  have hread : leadingDigits (Nat.toDigits 10 n) = some n := by
    rw [leadingDigits, List.takeWhile_eq_self_iff.mpr hdigits, if_neg Nat.toDigits_ne_nil,
      Nat.ofDigitChars_ten_toDigits]
  obtain ⟨first, rest, hsplit⟩ := List.exists_cons_of_ne_nil (@Nat.toDigits_ne_nil n 10)
  rw [hsplit] at hdigits hread
  have hfirst := hdigits first List.mem_cons_self
  rw [parseInt, hlist, hsplit, List.dropWhile_cons_of_neg (by simp [not_isSpace_of_isDigit hfirst])]
  unfold parseSigned
  split
  next heq => simp [(List.cons.inj heq).1, Char.isDigit] at hfirst
  next heq => simp [(List.cons.inj heq).1, Char.isDigit] at hfirst
  next => rw [hread]; rfl

end TextInput

namespace Environment

open TextInput (parseInt)

/-- `process.env` -/
abbrev Variables := String → Option String

/-- A setting that may be any natural number, zero included. -/
def nonNegativeInt (env : Variables) (key : String) (defaultValue : Nat) : Except String Nat :=
  match env key with
  | none => pure defaultValue
  | some raw =>
      if raw = "" then pure defaultValue
      else
        match parseInt raw with
        | some (.ofNat parsed) => pure parsed
        | _ => throw s!"Environment variable {key} must be a non-negative integer, got: \"{raw}\""

/-- Every natural number can be set. -/
theorem nonNegativeInt_toString {env : Variables} {key : String} {n : Nat}
    (h : env key = some (toString n)) (defaultValue : Nat) :
    nonNegativeInt env key defaultValue = .ok n := by
  have hne : toString n ≠ "" := by
    intro hempty
    have hread := TextInput.parseInt_toString n
    rw [hempty] at hread
    contradiction
  simp only [nonNegativeInt, h, if_neg hne, TextInput.parseInt_toString]
  rfl

end Environment
