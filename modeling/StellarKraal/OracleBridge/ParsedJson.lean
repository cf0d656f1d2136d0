import StellarKraal.OracleBridge.BackupFiles

/-!
# What a parser hands over

A value that was read from text is well formed: its numbers are decimals, and no object
has two fields with one name.
-/

namespace StellarKraal.OracleBridge.JsonText

open DecimalText (IsDecimal readNumber readUnsigned)
open Disk (fieldsWellFormed_iff)

/-! ## Numbers -/

theorem isDecimal_scaled (n : Nat) (e : Int) : IsDecimal ((n : Rat) * 10 ^ e) := by
  refine ⟨(-e).toNat, ?_⟩
  have hscaled : (n : Rat) * 10 ^ e * 10 ^ (-e).toNat = ((n * 10 ^ e.toNat : Nat) : Rat) := by
    rw [mul_assoc, ← zpow_natCast (10 : Rat) (-e).toNat, ← zpow_add₀ (by norm_num)]
    have hsum : e + ((-e).toNat : Int) = (e.toNat : Int) := by omega
    rw [hsum, zpow_natCast]
    push_cast
    rfl
  rw [hscaled]
  rfl

theorem isDecimal_of_readUnsigned {chars : List Char} {r : Rat × List Char}
    (h : readUnsigned chars = some r) : IsDecimal r.1 := by
  unfold readUnsigned at h
  dsimp only at h
  split at h
  next => contradiction
  next =>
    simp only [Option.bind_eq_bind, Option.bind_eq_some_iff, Option.pure_def,
      Option.some.injEq] at h
    obtain ⟨-, -, -, -, rfl⟩ := h
    exact isDecimal_scaled _ _

theorem isDecimal_of_readNumber {chars : List Char} {r : Rat × List Char}
    (h : readNumber chars = some r) : IsDecimal r.1 := by
  unfold readNumber at h
  split at h
  next =>
    obtain ⟨r', hr', rfl⟩ := Option.map_eq_some_iff.mp h
    exact (isDecimal_of_readUnsigned hr').neg
  next => exact isDecimal_of_readUnsigned h

/-! ## Objects -/

theorem lastFields_sublist (fields : List (String × Json)) :
    (lastFields fields).Sublist fields := by
  induction fields with
  | nil => exact .slnil
  | cons field fields ih =>
      simp only [lastFields]
      split
      · exact ih.cons field
      · exact ih.cons_cons field

theorem lastFields_nodup (fields : List (String × Json)) :
    ((lastFields fields).map Prod.fst).Nodup := by
  induction fields with
  | nil => exact List.nodup_nil
  | cons field fields ih =>
      simp only [lastFields]
      split
      next => exact ih
      next hnew => exact List.nodup_cons.mpr ⟨by simpa using hnew, ih⟩

theorem wellFormed_lastFields {fields : List (String × Json)} (h : FieldsWellFormed fields) :
    WellFormed (.object (lastFields fields)) :=
  ⟨lastFields_nodup fields, fieldsWellFormed_iff.mpr fun field hfield =>
    fieldsWellFormed_iff.mp h field ((lastFields_sublist fields).subset hfield)⟩

/-! ## Values -/

/-- What is read with this much fuel is well formed. -/
structure ReadsWellFormed (fuel : Nat) : Prop where
  value : ∀ chars r, readValue fuel chars = some r → WellFormed r.1
  items : ∀ chars r, readItems fuel chars = some r → ItemsWellFormed r.1
  fields : ∀ chars r, readFields fuel chars = some r → FieldsWellFormed r.1

theorem ReadsWellFormed.readValue_succ {fuel : Nat} (ih : ReadsWellFormed fuel)
    {chars : List Char} {r : Json × List Char} (h : readValue (fuel + 1) chars = some r) :
    WellFormed r.1 := by
  rw [readValue] at h
  split at h
  next => obtain rfl := Option.some.inj h; trivial
  next => obtain rfl := Option.some.inj h; trivial
  next => obtain rfl := Option.some.inj h; trivial
  next =>
    obtain ⟨_, -, rfl⟩ := Option.map_eq_some_iff.mp h
    trivial
  next =>
    split at h
    next => obtain rfl := Option.some.inj h; trivial
    next =>
      obtain ⟨items, hitems, rfl⟩ := Option.map_eq_some_iff.mp h
      exact ih.items _ _ hitems
  next =>
    split at h
    next => obtain rfl := Option.some.inj h; exact ⟨List.nodup_nil, trivial⟩
    next =>
      obtain ⟨fields, hfields, rfl⟩ := Option.map_eq_some_iff.mp h
      exact wellFormed_lastFields (ih.fields _ _ hfields)
  next =>
    obtain ⟨n, hn, rfl⟩ := Option.map_eq_some_iff.mp h
    exact isDecimal_of_readNumber hn

theorem ReadsWellFormed.readItems_succ {fuel : Nat} (ih : ReadsWellFormed fuel)
    {chars : List Char} {r : List Json × List Char}
    (h : readItems (fuel + 1) chars = some r) : ItemsWellFormed r.1 := by
  rw [readItems] at h
  simp only [Option.bind_eq_bind, Option.bind_eq_some_iff] at h
  obtain ⟨⟨item, rest⟩, hitem, h⟩ := h
  split at h
  next =>
    simp only [Option.bind_eq_some_iff, Option.pure_def, Option.some.injEq] at h
    obtain ⟨items, hitems, rfl⟩ := h
    exact ⟨ih.value _ _ hitem, ih.items _ _ hitems⟩
  next =>
    obtain rfl := Option.some.inj h
    exact ⟨ih.value _ _ hitem, trivial⟩
  next => contradiction

theorem ReadsWellFormed.readFields_succ {fuel : Nat} (ih : ReadsWellFormed fuel)
    {chars : List Char} {r : List (String × Json) × List Char}
    (h : readFields (fuel + 1) chars = some r) : FieldsWellFormed r.1 := by
  rw [readFields] at h
  split at h
  next =>
    simp only [Option.bind_eq_bind, Option.bind_eq_some_iff] at h
    obtain ⟨⟨key, rest⟩, -, h⟩ := h
    split at h
    next =>
      simp only [Option.bind_eq_some_iff] at h
      obtain ⟨⟨value, rest⟩, hvalue, h⟩ := h
      split at h
      next =>
        simp only [Option.bind_eq_some_iff, Option.pure_def, Option.some.injEq] at h
        obtain ⟨fields, hfields, rfl⟩ := h
        exact ⟨ih.value _ _ hvalue, ih.fields _ _ hfields⟩
      next =>
        obtain rfl := Option.some.inj h
        exact ⟨ih.value _ _ hvalue, trivial⟩
      next => contradiction
    next => contradiction
  next => contradiction

theorem readsWellFormed (fuel : Nat) : ReadsWellFormed fuel := by
  induction fuel with
  | zero => exact ⟨nofun, nofun, nofun⟩
  | succ fuel ih =>
      exact ⟨fun _ _ => ih.readValue_succ, fun _ _ => ih.readItems_succ,
        fun _ _ => ih.readFields_succ⟩

end JsonText

open JsonText (WellFormed)

theorem Json.wellFormed_of_parse {text : String} {value : Json}
    (h : Json.parse text = some value) : WellFormed value := by
  unfold Json.parse at h
  split at h
  next hread =>
    obtain ⟨-, rfl⟩ := Option.ite_none_right_eq_some.mp h |>.imp_right Option.some.inj
    exact (JsonText.readsWellFormed _).value _ _ hread
  next => contradiction

end StellarKraal.OracleBridge
