import Mathlib.Order.Monotone.Basic
import StellarKraal.PriceEvents.Service

/-!
# The text of a time names the time

Two times in milliseconds with the same ISO text are the same. A date determines its day,
since the year and the day of the year are found again in it, and the fields of the text have
a fixed width but for the year, which stands first.
-/

namespace StellarKraal.PriceEvents

/-! ## Dates -/

/-- The days of a period without its leap days. -/
def commonDays (inPeriod : Nat) : Nat :=
  inPeriod - inPeriod / 1460 + inPeriod / 36524 - inPeriod / 146096

/-- The days of a period before one of its years. -/
def yearStart (yearOfPeriod : Nat) : Nat :=
  365 * yearOfPeriod + yearOfPeriod / 4 - yearOfPeriod / 100

theorem commonDays_mono : Monotone commonDays := by
  refine monotone_nat_of_le_succ fun day => ?_
  have hleap : (day + 1) / 1460 ≤ day / 1460 + 1 := by omega
  have hcentury : day / 36524 ≤ (day + 1) / 36524 := Nat.div_le_div_right (Nat.le_succ day)
  have hle := Nat.div_le_self day 1460
  rw [commonDays, commonDays, show 146096 = 36524 * 4 from rfl, ← Nat.div_div_eq_div_mul,
    ← Nat.div_div_eq_div_mul]
  generalize (day + 1) / 36524 = century at *
  generalize day / 36524 = century' at *
  generalize (day + 1) / 1460 = leap at *
  generalize day / 1460 = leap' at *
  omega

/-- A year begins with its first day: the day before is a day of the year before. -/
theorem commonDays_yearStart : ∀ year < 400, 365 * year ≤ commonDays (yearStart year) ∧
    (year = 0 ∨ commonDays (yearStart year - 1) < 365 * year) := by
  decide +kernel

section Period

variable {inPeriod : Nat} (h : inPeriod < 146097)
include h

theorem yearOfPeriod_lt : commonDays inPeriod / 365 < 400 := by
  have hlast : commonDays inPeriod ≤ commonDays 146096 := commonDays_mono (by omega)
  exact (Nat.div_lt_iff_lt_mul (by decide)).mpr (lt_of_le_of_lt hlast (by decide))

theorem yearStart_le : yearStart (commonDays inPeriod / 365) ≤ inPeriod := by
  by_contra hlt
  rcases (commonDays_yearStart _ (yearOfPeriod_lt h)).2 with hzero | hbefore
  · simp [hzero, yearStart] at hlt
  · have hmono := commonDays_mono
      (show inPeriod ≤ yearStart (commonDays inPeriod / 365) - 1 by omega)
    have hdiv := Nat.div_mul_le_self (commonDays inPeriod) 365
    omega

theorem le_yearEnd : inPeriod ≤ yearStart (commonDays inPeriod / 365) + 365 := by
  have hyear := yearOfPeriod_lt h
  have hdiv : commonDays inPeriod < 365 * (commonDays inPeriod / 365 + 1) :=
    Nat.lt_mul_div_succ _ (by decide)
  generalize hy : commonDays inPeriod / 365 = year at *
  rcases (show year = 399 ∨ year + 1 < 400 by omega) with rfl | hnext
  · simp only [yearStart]
    omega
  · by_contra hlate
    have hlength : yearStart (year + 1) ≤ yearStart year + 366 := by
      simp only [yearStart]
      omega
    have hmono := commonDays_mono (show yearStart (year + 1) ≤ inPeriod by omega)
    have hstart := (commonDays_yearStart (year + 1) hnext).1
    omega

end Period

/-- A date from its year, month and day, all counted from 0 and the months from March on. -/
def dateOf (year month day : Nat) : Nat × Nat × Nat :=
  if month < 10 then (year, month + 3, day + 1) else (year + 1, month - 9, day + 1)

/-- The days up to a year, month and day counted so. -/
def daysUpTo (year month day : Nat) : Nat :=
  146097 * (year / 400) + yearStart (year % 400) + (153 * month + 2) / 5 + day

theorem civil_eq_dateOf (days : Nat) : ∃ year month day, month ≤ 11 ∧ day ≤ 30 ∧
    days + 719468 = daysUpTo year month day ∧ civil days = dateOf year month day := by
  have hcivil := civil.eq_1 days
  generalize days + 719468 = shifted at hcivil ⊢
  have hperiod : shifted % 146097 < 146097 := by omega
  have hyear := yearOfPeriod_lt hperiod
  have hstart := yearStart_le hperiod
  have hend := le_yearEnd hperiod
  have hsplit := Nat.div_add_mod shifted 146097
  simp only [← commonDays.eq_1, ← yearStart.eq_1] at hcivil
  generalize shifted % 146097 = inPeriod at *
  generalize commonDays inPeriod / 365 = year at *
  generalize shifted / 146097 = period at *
  obtain ⟨dayOfYear, rfl⟩ := Nat.exists_eq_add_of_le hstart
  rw [Nat.add_sub_cancel_left] at hcivil
  have hmonth : (5 * dayOfYear + 2) / 153 ≤ 11 := by omega
  have hfirst : (153 * ((5 * dayOfYear + 2) / 153) + 2) / 5 ≤ dayOfYear := by omega
  have hlast : dayOfYear ≤ (153 * ((5 * dayOfYear + 2) / 153) + 2) / 5 + 30 := by omega
  generalize (5 * dayOfYear + 2) / 153 = month at *
  refine ⟨400 * period + year, month, dayOfYear - (153 * month + 2) / 5, hmonth, by omega, ?_, ?_⟩
  · rw [daysUpTo, show (400 * period + year) / 400 = period by omega,
      show (400 * period + year) % 400 = year by omega]
    omega
  · rw [hcivil, dateOf]
    rcases lt_or_ge month 10 with hspring | hwinter
    · rw [if_pos hspring, if_pos hspring, if_neg (by omega)]
    · rw [if_neg hwinter.not_gt, if_neg hwinter.not_gt, if_pos (by omega)]

theorem dateOf_injective {year month day year' month' day' : Nat} (hmonth : month ≤ 11)
    (hmonth' : month' ≤ 11) (h : dateOf year month day = dateOf year' month' day') :
    year = year' ∧ month = month' ∧ day = day' := by
  unfold dateOf at h
  split at h <;> split at h <;> simp only [Prod.mk.injEq] at h <;> omega

theorem civil_injective : Function.Injective civil := by
  intro days days' h
  obtain ⟨year, month, day, hmonth, -, hdays, hcivil⟩ := civil_eq_dateOf days
  obtain ⟨year', month', day', hmonth', -, hdays', hcivil'⟩ := civil_eq_dateOf days'
  obtain ⟨rfl, rfl, rfl⟩ := dateOf_injective hmonth hmonth' (hcivil.symm.trans (h.trans hcivil'))
  exact Nat.add_right_cancel (hdays.trans hdays'.symm)

/-- Months and days have at most two digits. -/
theorem civil_lt (days : Nat) : (civil days).2.1 < 10 ^ 2 ∧ (civil days).2.2 < 10 ^ 2 := by
  obtain ⟨year, month, day, hmonth, hday, -, hcivil⟩ := civil_eq_dateOf days
  rw [hcivil, dateOf]
  split <;> dsimp only <;> omega

/-! ## Fields -/

theorem ofDigitChars_padded (width n : Nat) :
    Nat.ofDigitChars 10 (padded width n).toList 0 = n := by
  rw [padded, String.toList_ofList, List.leftpad, Nat.ofDigitChars_append,
    Nat.ofDigitChars_replicate_zero, mul_zero, Nat.ofDigitChars_ten_toDigits]

theorem padded_injective (width : Nat) : Function.Injective (padded width) := fun m n h => by
  rw [← ofDigitChars_padded width m, h, ofDigitChars_padded]

theorem length_padded {width n : Nat} (hwidth : 0 < width) (h : n < 10 ^ width) :
    (padded width n).toList.length = width := by
  have hlength := (Nat.length_toDigits_le_iff (by decide) hwidth).mpr h
  rw [padded, String.toList_ofList, List.length_leftpad, max_eq_left hlength]

/-- The last field of a text, with the separator after it, can be taken off. -/
theorem append_field_inj {front front' : String} {width m n : Nat} (separator : String)
    (hwidth : 0 < width) (hm : m < 10 ^ width) (hn : n < 10 ^ width)
    (h : front ++ padded width m ++ separator = front' ++ padded width n ++ separator) :
    front = front' ∧ m = n := by
  have hlist := congrArg String.toList ((String.append_left_inj separator).mp h)
  rw [String.toList_append, String.toList_append] at hlist
  obtain ⟨hfront, hfield⟩ := List.append_inj' hlist
    (by rw [length_padded hwidth hm, length_padded hwidth hn])
  exact ⟨String.toList_injective hfront, padded_injective width (String.toList_injective hfield)⟩

theorem plus_append_ne_padded (width n : Nat) (text : String) : "+" ++ text ≠ padded width n := by
  intro h
  have hplus : '+' ∈ (padded width n).toList := by
    rw [← h, String.toList_append]
    exact List.mem_append_left _ (by decide)
  rw [padded, String.toList_ofList, List.leftpad, List.mem_append, List.mem_replicate] at hplus
  rcases hplus with ⟨-, hzero⟩ | hdigit
  · exact absurd hzero (by decide)
  · exact absurd (Nat.isDigit_of_mem_toDigits (by decide) (by decide) hdigit) (by decide)

/-! ## Times -/

def yearText (year : Nat) : String := if year ≤ 9999 then padded 4 year else "+" ++ padded 6 year

theorem yearText_injective : Function.Injective yearText := by
  intro year year' h
  unfold yearText at h
  split at h <;> split at h
  · exact padded_injective 4 h
  · exact absurd h.symm (plus_append_ne_padded 4 year _)
  · exact absurd h (plus_append_ne_padded 4 year' _)
  · exact padded_injective 6 ((String.append_right_inj _).mp h)

theorem toISOString_eq (ms : Nat) : toISOString ms =
    yearText (civil (ms / 86400000)).1 ++ "-" ++ padded 2 (civil (ms / 86400000)).2.1 ++ "-" ++
      padded 2 (civil (ms / 86400000)).2.2 ++ "T" ++ padded 2 (ms / 3600000 % 24) ++ ":" ++
      padded 2 (ms / 60000 % 60) ++ ":" ++ padded 2 (ms / 1000 % 60) ++ "." ++
      padded 3 (ms % 1000) ++ "Z" := rfl

/-- The fields are taken off from the right; the year remains. -/
theorem toISOString_injective : Function.Injective toISOString := by
  intro ms ms' h
  obtain ⟨hmonth, hday⟩ := civil_lt (ms / 86400000)
  obtain ⟨hmonth', hday'⟩ := civil_lt (ms' / 86400000)
  rw [toISOString_eq, toISOString_eq] at h
  obtain ⟨h, hms⟩ := append_field_inj "Z" (by decide) (by omega) (by omega) h
  obtain ⟨h, hsecond⟩ := append_field_inj "." (by decide) (by omega) (by omega) h
  obtain ⟨h, hminute⟩ := append_field_inj ":" (by decide) (by omega) (by omega) h
  obtain ⟨h, hhour⟩ := append_field_inj ":" (by decide) (by omega) (by omega) h
  obtain ⟨h, hsameDay⟩ := append_field_inj "T" (by decide) hday hday' h
  obtain ⟨h, hsameMonth⟩ := append_field_inj "-" (by decide) hmonth hmonth' h
  have hsameYear := yearText_injective ((String.append_left_inj "-").mp h)
  have hsameDate := civil_injective (Prod.ext hsameYear (Prod.ext hsameMonth hsameDay))
  omega

end StellarKraal.PriceEvents
