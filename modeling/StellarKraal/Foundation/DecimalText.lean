import Mathlib.Algebra.Order.Field.Rat
import Mathlib.Data.List.DropRight
import Mathlib.Data.List.TakeWhile
import Mathlib.Data.Nat.GCD.Basic
import Mathlib.Data.Nat.Prime.Basic
import Mathlib.Data.Rat.Floor
import Mathlib.Data.Rat.Lemmas
import Mathlib.Tactic.FieldSimp
import Mathlib.Tactic.IntervalCases
import Mathlib.Tactic.NormNum

/-!
# Decimal numbers as text

How `Number::toString` of ECMAScript writes a finite number, and how JSON reads one
back. A binary floating-point number is represented by the shortest decimal that
denotes it, which is the one that is written.
-/

namespace DecimalText

/-! ## Writing -/

/-- The digits `digits` with a decimal exponent, `digits` neither beginning nor ending
with zeros: in full up to 21 places before the point and 6 zeros after it, else in
scientific notation. -/
def layout (digits : List Char) (exponent : Int) : List Char :=
  let n := digits.length + exponent
  if 0 ≤ exponent ∧ n ≤ 21 then digits ++ List.replicate exponent.toNat '0'
  else if 0 < n ∧ n ≤ 21 then digits.take n.toNat ++ '.' :: digits.drop n.toNat
  else if -6 < n ∧ n ≤ 0 then '0' :: '.' :: (List.replicate (-n).toNat '0' ++ digits)
  else
    let fraction := digits.drop 1
    digits.take 1 ++ (if fraction = [] then [] else '.' :: fraction) ++
      'e' :: (if n - 1 < 0 then '-' else '+') :: Nat.toDigits 10 (n - 1).natAbs

/-- The first number of decimal places after which `x` ends. -/
def decimalPlaces (x : Rat) : Nat :=
  ((List.range (Nat.log2 x.den + 1)).find? fun places => (x * 10 ^ places).den == 1).getD 0

def positiveText (x : Rat) : List Char :=
  let places := decimalPlaces x
  let chars := Nat.toDigits 10 (x * 10 ^ places).num.toNat
  let digits := chars.rdropWhile (· == '0')
  layout digits ((chars.length - digits.length : Nat) - places)

def numberText (x : Rat) : List Char :=
  if x = 0 then ['0'] else if x < 0 then '-' :: positiveText (-x) else positiveText x

/-- `toFixed(places)` with a positive number of decimal places: the nearest such decimal, and
the one that is larger in size of two. -/
def toFixed (places : Nat) (x : Rat) : List Char :=
  if 10 ^ 21 ≤ |x| then numberText x
  else
    let n := ⌊|x| * 10 ^ places + 1 / 2⌋₊
    (if x < 0 then ['-'] else []) ++ Nat.toDigits 10 (n / 10 ^ places) ++
      '.' :: (Nat.toDigits 10 (n % 10 ^ places)).leftpad places '0'

example : toFixed 2 (-12.375) = "-12.38".toList := by decide +kernel

/-! ## Reading -/

/-- `[.digits]`. -/
def readFraction : List Char → Option (List Char × List Char)
  | '.' :: chars =>
      if chars.takeWhile Char.isDigit = [] then none
      else some (chars.takeWhile Char.isDigit, chars.dropWhile Char.isDigit)
  | chars => some ([], chars)

def readDigits (negative : Bool) (chars : List Char) : Option (Int × List Char) :=
  let digits := chars.takeWhile Char.isDigit
  if digits = [] then none
  else
    let value : Int := Nat.ofDigitChars 10 digits 0
    some (if negative then -value else value, chars.dropWhile Char.isDigit)

/-- `[e[sign]digits]`. -/
def readExponent : List Char → Option (Int × List Char)
  | [] => some (0, [])
  | c :: chars =>
      if c = 'e' ∨ c = 'E' then
        match chars with
        | '-' :: chars => readDigits true chars
        | '+' :: chars => readDigits false chars
        | chars => readDigits false chars
      else some (0, c :: chars)

/-- A number without a sign; it does not begin with a superfluous zero. -/
def readUnsigned (chars : List Char) : Option (Rat × List Char) := do
  let whole := chars.takeWhile Char.isDigit
  if whole = [] ∨ (whole.head? = some '0' ∧ whole.length ≠ 1) then none
  else
    let (fraction, chars) ← readFraction (chars.dropWhile Char.isDigit)
    let (exponent, chars) ← readExponent chars
    return ((Nat.ofDigitChars 10 (whole ++ fraction) 0 : Rat) * 10 ^ (exponent - fraction.length),
      chars)

def readNumber : List Char → Option (Rat × List Char)
  | '-' :: chars => (readUnsigned chars).map fun r => (-r.1, r.2)
  | chars => readUnsigned chars

/-! ## Reading what was written -/

/-- Nothing that would prolong a number. -/
def Ends (rest : List Char) : Prop :=
  ∀ c ∈ rest.head?, c.isDigit = false ∧ c ≠ '.' ∧ c ≠ 'e' ∧ c ≠ 'E'

theorem takeWhile_eq_nil {p : Char → Bool} {rest : List Char}
    (h : ∀ c ∈ rest.head?, p c = false) : rest.takeWhile p = [] := by
  cases rest with
  | nil => rfl
  | cons c rest => simp [h c rfl]

theorem Ends.takeWhile {rest : List Char} (h : Ends rest) : rest.takeWhile Char.isDigit = [] :=
  takeWhile_eq_nil fun c hc => (h c hc).1

section Reading

variable {digits rest : List Char}

theorem takeWhile_digits (hdigits : ∀ c ∈ digits, c.isDigit)
    (hrest : rest.takeWhile Char.isDigit = []) :
    (digits ++ rest).takeWhile Char.isDigit = digits := by
  rw [List.takeWhile_append_of_pos hdigits, hrest, List.append_nil]

theorem dropWhile_digits (hdigits : ∀ c ∈ digits, c.isDigit)
    (hrest : rest.takeWhile Char.isDigit = []) :
    (digits ++ rest).dropWhile Char.isDigit = rest := by
  rw [List.dropWhile_append_of_pos hdigits]
  simpa [hrest] using List.takeWhile_append_dropWhile (p := Char.isDigit) (l := rest)

theorem readFraction_of_ends (hrest : rest.head? ≠ some '.') :
    readFraction rest = some ([], rest) := by
  unfold readFraction
  split
  · simp at hrest
  · rfl

theorem readFraction_point (hne : digits ≠ []) (hdigits : ∀ c ∈ digits, c.isDigit)
    (hrest : rest.takeWhile Char.isDigit = []) :
    readFraction ('.' :: (digits ++ rest)) = some (digits, rest) := by
  simp [readFraction, takeWhile_digits hdigits hrest, dropWhile_digits hdigits hrest, hne]

theorem readExponent_of_ends (hrest : Ends rest) : readExponent rest = some (0, rest) := by
  cases rest with
  | nil => rfl
  | cons c rest =>
      obtain ⟨-, -, he, hE⟩ := hrest c rfl
      simp [readExponent, he, hE]

theorem isDigit_of_toDigits (n : Nat) : ∀ c ∈ Nat.toDigits 10 n, c.isDigit := fun _ hc =>
  Nat.isDigit_of_mem_toDigits (by decide) (by decide) hc

theorem readDigits_toDigits (negative : Bool) (n : Nat) (hrest : rest.takeWhile Char.isDigit = []) :
    readDigits negative (Nat.toDigits 10 n ++ rest) =
      some (if negative then -(n : Int) else n, rest) := by
  have hdigits := isDigit_of_toDigits n
  simp [readDigits, takeWhile_digits hdigits hrest, dropWhile_digits hdigits hrest,
    Nat.toDigits_ne_nil]

theorem readExponent_signed (e : Int) (hrest : rest.takeWhile Char.isDigit = []) :
    readExponent ('e' :: (if e < 0 then '-' else '+') :: (Nat.toDigits 10 e.natAbs ++ rest)) =
      some (e, rest) := by
  by_cases hneg : e < 0
  · simp only [hneg, if_true, readExponent, true_or, readDigits_toDigits true _ hrest]
    simp only [Option.some.injEq, Prod.mk.injEq, and_true]
    omega
  · simp only [hneg, if_false, readExponent, true_or, if_true,
      readDigits_toDigits false _ hrest, Bool.false_eq_true]
    simp only [Option.some.injEq, Prod.mk.injEq, and_true]
    omega

/-- The parts of a number, read one after the other. -/
theorem readUnsigned_eq {fraction tail tail' : List Char} {e : Int} (hne : digits ≠ [])
    (hdigits : ∀ c ∈ digits, c.isDigit) (hzero : digits.head? = some '0' → digits.length = 1)
    (htail : tail.takeWhile Char.isDigit = [])
    (hfraction : readFraction tail = some (fraction, tail'))
    (hexponent : readExponent tail' = some (e, rest)) :
    readUnsigned (digits ++ tail) =
      some ((Nat.ofDigitChars 10 (digits ++ fraction) 0 : Rat) * 10 ^ (e - fraction.length),
        rest) := by
  have hstart : ¬ (digits = [] ∨ digits.head? = some '0' ∧ digits.length ≠ 1) := by
    rintro (h | ⟨h, hlength⟩)
    · exact hne h
    · exact hlength (hzero h)
  simp [readUnsigned, takeWhile_digits hdigits htail, dropWhile_digits hdigits htail, hstart,
    hfraction, hexponent]

end Reading

/-- The digits of a positive number, from the first that is not zero. -/
structure Significant (digits : List Char) : Prop where
  ne_nil : digits ≠ []
  isDigit : ∀ c ∈ digits, c.isDigit
  head_ne : digits.head? ≠ some '0'

theorem isDigit_zeros (k : Nat) : ∀ c ∈ List.replicate k '0', c.isDigit := by
  intro c hc
  rw [List.eq_of_mem_replicate hc]
  rfl

theorem ofDigitChars_zeros (digits : List Char) (k : Nat) :
    Nat.ofDigitChars 10 (digits ++ List.replicate k '0') 0 =
      10 ^ k * Nat.ofDigitChars 10 digits 0 := by
  rw [Nat.ofDigitChars_append, Nat.ofDigitChars_replicate_zero]

theorem ofDigitChars_zero_append (digits : List Char) (k : Nat) :
    Nat.ofDigitChars 10 (List.replicate k '0' ++ digits) 0 = Nat.ofDigitChars 10 digits 0 := by
  rw [Nat.ofDigitChars_append, Nat.ofDigitChars_replicate_zero, mul_zero]

section Layout

variable {digits rest : List Char} {exponent : Int}

/-- The digits before the point. -/
theorem Significant.take_ne_nil (hdigits : Significant digits) {k : Nat} (hk : 0 < k) :
    digits.take k ≠ [] := by
  rw [Ne, List.take_eq_nil_iff]
  rintro (h | h)
  · omega
  · exact hdigits.ne_nil h

theorem Significant.take_head (hdigits : Significant digits) (k : Nat) :
    (digits.take k).head? ≠ some '0' := by
  rw [List.head?_take]
  split
  · simp
  · exact hdigits.head_ne

theorem Ends.head_ne_point (hrest : Ends rest) : rest.head? ≠ some '.' := fun h =>
  (hrest '.' h).2.1 rfl

theorem readUnsigned_full (hdigits : Significant digits) (hrest : Ends rest) (zeros : Nat) :
    readUnsigned (digits ++ List.replicate zeros '0' ++ rest) =
      some ((Nat.ofDigitChars 10 digits 0 : Rat) * 10 ^ (zeros : Int), rest) := by
  rw [@readUnsigned_eq _ _ [] _ _ _ (by simp [hdigits.ne_nil]) ?_ ?_ hrest.takeWhile
    (readFraction_of_ends hrest.head_ne_point) (readExponent_of_ends hrest)]
  · simp [ofDigitChars_zeros, mul_comm]
  · intro c hc
    rcases List.mem_append.mp hc with hc | hc
    · exact hdigits.isDigit c hc
    · exact isDigit_zeros _ c hc
  · intro h
    rw [List.head?_append_of_ne_nil _ hdigits.ne_nil] at h
    exact absurd h hdigits.head_ne

theorem readUnsigned_split (hdigits : Significant digits) (hrest : Ends rest) {k : Nat}
    (hpos : 0 < k) (hk : k < digits.length) :
    readUnsigned (digits.take k ++ '.' :: digits.drop k ++ rest) =
      some ((Nat.ofDigitChars 10 digits 0 : Rat) * 10 ^ ((k : Int) - digits.length), rest) := by
  rw [List.append_assoc, List.cons_append]
  rw [readUnsigned_eq (hdigits.take_ne_nil hpos)
    (fun c hc => hdigits.isDigit c (List.mem_of_mem_take hc))
    (fun h => absurd h (hdigits.take_head k)) rfl
    (readFraction_point (List.drop_eq_nil_iff.not.mpr (by omega))
      (fun c hc => hdigits.isDigit c (List.mem_of_mem_drop hc)) hrest.takeWhile)
    (readExponent_of_ends hrest)]
  have hlength : (0 : Int) - (digits.drop k).length = k - digits.length := by
    rw [List.length_drop]
    omega
  rw [List.take_append_drop, hlength]

theorem readUnsigned_below (hdigits : Significant digits) (hrest : Ends rest) (zeros : Nat) :
    readUnsigned ('0' :: '.' :: (List.replicate zeros '0' ++ digits) ++ rest) =
      some ((Nat.ofDigitChars 10 digits 0 : Rat) * 10 ^ (-(zeros : Int) - digits.length),
        rest) := by
  have hfraction : readFraction ('.' :: (List.replicate zeros '0' ++ digits ++ rest)) =
      some (List.replicate zeros '0' ++ digits, rest) := by
    refine readFraction_point (by simp [hdigits.ne_nil]) ?_ hrest.takeWhile
    intro c hc
    rcases List.mem_append.mp hc with hc | hc
    · exact isDigit_zeros _ c hc
    · exact hdigits.isDigit c hc
  have hread := @readUnsigned_eq ['0'] _ _ _ _ _ (by simp)
    (List.forall_mem_singleton.mpr rfl) (fun _ => rfl) rfl
    hfraction (readExponent_of_ends hrest)
  have hvalue : Nat.ofDigitChars 10 (['0'] ++ (List.replicate zeros '0' ++ digits)) 0 =
      Nat.ofDigitChars 10 digits 0 := ofDigitChars_zero_append digits (zeros + 1)
  have hlength : (0 : Int) - (List.replicate zeros '0' ++ digits).length =
      -(zeros : Int) - digits.length := by
    rw [List.length_append, List.length_replicate]
    omega
  rw [hvalue, hlength] at hread
  exact hread

theorem readUnsigned_scientific (hdigits : Significant digits) (hrest : Ends rest) (e : Int) :
    readUnsigned (digits.take 1 ++ (if digits.drop 1 = [] then [] else '.' :: digits.drop 1) ++
        'e' :: (if e < 0 then '-' else '+') :: Nat.toDigits 10 e.natAbs ++ rest) =
      some ((Nat.ofDigitChars 10 digits 0 : Rat) * 10 ^ (e - (digits.length - 1)), rest) := by
  have hexponent := readExponent_signed e hrest.takeWhile
  have hlength : e - (digits.drop 1).length = e - (digits.length - 1) := by
    have := List.length_pos_of_ne_nil hdigits.ne_nil
    rw [List.length_drop]
    omega
  have hread : ∀ tail, tail.takeWhile Char.isDigit = [] →
      readFraction tail = some (digits.drop 1, _) → readUnsigned (digits.take 1 ++ tail) = _ :=
    fun tail htail hfraction => readUnsigned_eq (hdigits.take_ne_nil Nat.one_pos)
      (fun c hc => hdigits.isDigit c (List.mem_of_mem_take hc))
      (fun h => absurd h (hdigits.take_head 1)) htail hfraction hexponent
  rw [List.take_append_drop, hlength] at hread
  simp only [List.append_assoc, List.cons_append]
  by_cases hone : digits.drop 1 = []
  · rw [if_pos hone, List.nil_append]
    refine hread _ rfl ?_
    rw [hone]
    exact readFraction_of_ends (by simp)
  · rw [if_neg hone, List.cons_append]
    refine hread _ rfl (readFraction_point hone ?_ rfl)
    exact fun c hc => hdigits.isDigit c (List.mem_of_mem_drop hc)

/-- Whichever form the text has, it is read as the digits with their exponent. -/
theorem readUnsigned_layout (hdigits : Significant digits) (hrest : Ends rest) :
    readUnsigned (layout digits exponent ++ rest) =
      some ((Nat.ofDigitChars 10 digits 0 : Rat) * 10 ^ exponent, rest) := by
  have hlength := List.length_pos_of_ne_nil hdigits.ne_nil
  by_cases hfull : 0 ≤ exponent ∧ digits.length + exponent ≤ 21
  · obtain ⟨zeros, rfl⟩ := Int.eq_ofNat_of_zero_le hfull.1
    simp only [layout, if_pos hfull]
    exact readUnsigned_full hdigits hrest zeros
  by_cases hsplit : 0 < digits.length + exponent ∧ digits.length + exponent ≤ 21
  · obtain ⟨k, hk⟩ := Int.eq_ofNat_of_zero_le hsplit.1.le
    have hexponent : exponent = k - digits.length := by omega
    simp only [layout, if_neg hfull, if_pos hsplit]
    rw [hk, Int.toNat_natCast, readUnsigned_split hdigits hrest (by omega) (by omega), hexponent]
  by_cases hbelow : -6 < digits.length + exponent ∧ digits.length + exponent ≤ 0
  · obtain ⟨zeros, hzeros⟩ := Int.eq_ofNat_of_zero_le (neg_nonneg.mpr hbelow.2)
    have hexponent : exponent = -(zeros : Int) - digits.length := by omega
    simp only [layout, if_neg hfull, if_neg hsplit, if_pos hbelow]
    rw [hzeros, Int.toNat_natCast, readUnsigned_below hdigits hrest, hexponent]
  · have hexponent : digits.length + exponent - 1 - (digits.length - 1) = exponent := by omega
    simp only [layout, if_neg hfull, if_neg hsplit, if_neg hbelow]
    rw [readUnsigned_scientific hdigits hrest, hexponent]

end Layout

/-! ## Decimal numbers -/

def IsDecimal (x : Rat) : Prop := ∃ places : Nat, (x * 10 ^ places).den = 1

theorem IsDecimal.neg {x : Rat} (h : IsDecimal x) : IsDecimal (-x) := by
  obtain ⟨places, hplaces⟩ := h
  exact ⟨places, by rwa [neg_mul, Rat.den_neg_eq_den]⟩

theorem den_mul_natCast_eq_one_iff (x : Rat) (n : Nat) : (x * n).den = 1 ↔ x.den ∣ n := by
  have hquotient : x * n = ((x.num * n : Int) : Rat) / ((x.den : Int) : Rat) := by
    push_cast
    rw [mul_div_right_comm, Rat.num_div_den]
  rw [hquotient, Rat.den_div_intCast_eq_one_iff _ _ (by exact_mod_cast x.den_nz),
    Int.natCast_dvd, Int.natAbs_mul, Int.natAbs_natCast,
    Nat.Coprime.dvd_mul_left (Nat.Coprime.symm x.reduced)]

/-- As many places as the denominator has binary digits are enough. -/
theorem dvd_ten_pow_log2 {n k : Nat} (h : n ∣ 10 ^ k) : n ∣ 10 ^ Nat.log2 n := by
  have hpos : n ≠ 0 := fun hzero => by simp [hzero] at h
  rw [show 10 = 2 * 5 from rfl, mul_pow] at h
  obtain ⟨a, b, ha, hb, rfl⟩ := (Nat.dvd_mul).mp h
  obtain ⟨i, -, rfl⟩ := (Nat.dvd_prime_pow Nat.prime_two).mp ha
  obtain ⟨j, -, rfl⟩ := (Nat.dvd_prime_pow Nat.prime_five).mp hb
  have hle : ∀ e, 2 ^ e ≤ 2 ^ i * 5 ^ j → e ≤ Nat.log2 (2 ^ i * 5 ^ j) := fun e he =>
    (Nat.le_log2 hpos).mpr he
  have hi := hle i (Nat.le_mul_of_pos_right _ (by positivity))
  have hj := hle j ((Nat.pow_le_pow_left (by decide) j).trans
    (Nat.le_mul_of_pos_left _ (by positivity)))
  generalize Nat.log2 (2 ^ i * 5 ^ j) = places at hi hj
  rw [show 10 = 2 * 5 from rfl, mul_pow]
  exact Nat.mul_dvd_mul (Nat.pow_dvd_pow 2 hi) (Nat.pow_dvd_pow 5 hj)

theorem decimalPlaces_spec {x : Rat} (h : IsDecimal x) : (x * 10 ^ decimalPlaces x).den = 1 := by
  obtain ⟨k, hk⟩ := h
  have hpow : ∀ places : Nat, (x * 10 ^ places).den = 1 ↔ x.den ∣ 10 ^ places := fun places => by
    simpa using den_mul_natCast_eq_one_iff x (10 ^ places)
  have hfound : ((List.range (Nat.log2 x.den + 1)).find?
      fun places => (x * 10 ^ places).den == 1).isSome := by
    rw [List.find?_isSome]
    refine ⟨Nat.log2 x.den, by simp, ?_⟩
    simpa [hpow] using dvd_ten_pow_log2 ((hpow k).mp hk)
  obtain ⟨places, hplaces⟩ := Option.isSome_iff_exists.mp hfound
  have hden := List.find?_some hplaces
  rw [decimalPlaces, hplaces]
  simpa using hden

theorem head_toDigits {n : Nat} (hn : 0 < n) : (Nat.toDigits 10 n).head? ≠ some '0' := by
  induction n using Nat.strongRecOn with
  | ind n ih =>
      rw [Nat.toDigits_eq_if (by decide)]
      split
      next hlt =>
        interval_cases n <;> decide
      next hle =>
        rw [List.head?_append_of_ne_nil _ Nat.toDigits_ne_nil]
        exact ih (n / 10) (by omega) (by omega)

/-- The digits without the zeros at the end, and the number they denote. -/
theorem significant_of_pos {n : Nat} (hn : 0 < n) :
    let digits := (Nat.toDigits 10 n).rdropWhile (· == '0')
    Significant digits ∧
      n = 10 ^ ((Nat.toDigits 10 n).length - digits.length) * Nat.ofDigitChars 10 digits 0 := by
  intro digits
  have hsplit : digits ++ (Nat.toDigits 10 n).rtakeWhile (· == '0') = Nat.toDigits 10 n :=
    List.rdropWhile_append_rtakeWhile
  have hzeros : (Nat.toDigits 10 n).rtakeWhile (· == '0') =
      List.replicate ((Nat.toDigits 10 n).length - digits.length) '0' := by
    rw [List.eq_replicate_iff]
    refine ⟨?_, fun c hc => by simpa using List.mem_rtakeWhile_imp hc⟩
    have hlength := congrArg List.length hsplit
    rw [List.length_append] at hlength
    omega
  rw [hzeros] at hsplit
  have hne : digits ≠ [] := by
    intro hnil
    have hall := List.rdropWhile_eq_nil_iff.mp hnil
    cases hdigits : Nat.toDigits 10 n with
    | nil => exact Nat.toDigits_ne_nil hdigits
    | cons c rest =>
        refine head_toDigits hn ?_
        have hc := hall c (by simp [hdigits])
        simpa [hdigits] using hc
  refine ⟨⟨hne, ?_, ?_⟩, ?_⟩
  · intro c hc
    exact isDigit_of_toDigits n c ((List.rdropWhile_prefix _ _).subset hc)
  · intro hhead
    refine head_toDigits hn ?_
    rw [← hsplit, List.head?_append_of_ne_nil _ hne, hhead]
  · rw [← ofDigitChars_zeros, hsplit, Nat.ofDigitChars_ten_toDigits]

section Numbers

variable {x : Rat} {rest : List Char}

theorem readUnsigned_positiveText (hpos : 0 < x) (hx : IsDecimal x) (hrest : Ends rest) :
    readUnsigned (positiveText x ++ rest) = some (x, rest) := by
  have hden := decimalPlaces_spec hx
  rw [positiveText]
  generalize decimalPlaces x = places at hden
  have hscaled : 0 < x * 10 ^ places := by positivity
  have hnum : (((x * 10 ^ places).num.toNat : Nat) : Rat) = x * 10 ^ places := by
    have hcast : (((x * 10 ^ places).num.toNat : Int)) = (x * 10 ^ places).num :=
      Int.toNat_of_nonneg (Rat.num_nonneg.mpr hscaled.le)
    rw [← Int.cast_natCast, hcast]
    exact (Rat.den_eq_one_iff _).mp hden
  generalize (x * 10 ^ places).num.toNat = n at hnum
  have hn : 0 < n := by
    have : (0 : Rat) < n := hnum ▸ hscaled
    exact_mod_cast this
  obtain ⟨hdigits, hvalue⟩ := significant_of_pos hn
  rw [readUnsigned_layout hdigits hrest]
  have hcast := congrArg (Nat.cast (R := Rat)) hvalue
  rw [hnum] at hcast
  push_cast at hcast
  have hten : (10 : Rat) ≠ 0 := by norm_num
  rw [zpow_sub₀ hten, zpow_natCast, zpow_natCast, ← mul_div_assoc, mul_comm, ← hcast,
    mul_div_cancel_right₀ _ (pow_ne_zero _ hten)]

theorem readUnsigned_minus (chars : List Char) : readUnsigned ('-' :: chars) = none := by
  simp [readUnsigned]

theorem readNumber_of_readUnsigned {chars : List Char} {result : Rat × List Char}
    (h : readUnsigned chars = some result) : readNumber chars = some result := by
  unfold readNumber
  split
  next chars => simp [readUnsigned_minus] at h
  next => exact h

/-- What is read back is what was written. -/
theorem readNumber_numberText (hx : IsDecimal x) (hrest : Ends rest) :
    readNumber (numberText x ++ rest) = some (x, rest) := by
  unfold numberText
  split
  next hzero =>
    refine readNumber_of_readUnsigned ?_
    have hread := @readUnsigned_eq ['0'] _ _ _ _ _ (by simp)
      (List.forall_mem_singleton.mpr rfl) (fun _ => rfl)
      hrest.takeWhile (readFraction_of_ends hrest.head_ne_point) (readExponent_of_ends hrest)
    have hvalue : Nat.ofDigitChars 10 (['0'] ++ []) 0 = 0 := rfl
    rw [hread, hvalue, hzero, Nat.cast_zero, zero_mul]
  next hne =>
    split
    next hneg =>
      have hread := readUnsigned_positiveText (neg_pos.mpr hneg) hx.neg hrest
      simp [readNumber, hread]
    next hnonneg =>
      have hpos : 0 < x := lt_of_le_of_ne (not_lt.mp hnonneg) (Ne.symm hne)
      exact readNumber_of_readUnsigned (readUnsigned_positiveText hpos hx hrest)

/-- A number begins with a digit or a minus sign. -/
theorem head_of_readNumber {chars : List Char} {result : Rat × List Char}
    (h : readNumber chars = some result) :
    ∃ c rest, chars = c :: rest ∧ (c = '-' ∨ c.isDigit = true) := by
  unfold readNumber at h
  split at h
  next rest => exact ⟨'-', rest, rfl, .inl rfl⟩
  next =>
    cases chars with
    | nil => simp [readUnsigned] at h
    | cons c rest =>
        refine ⟨c, rest, rfl, .inr ?_⟩
        by_contra hc
        simp [readUnsigned, hc] at h

end Numbers

end DecimalText
