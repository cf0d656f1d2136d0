import StellarKraal.Foundation.DecimalText
import StellarKraal.OracleBridge.Json

/-!
# JSON texts

`JSON.stringify` and `JSON.parse`. Strings are sequences of Unicode scalar values; an
unpaired surrogate, which only an escape in a text can denote, is read as U+FFFD.
-/

namespace StellarKraal.OracleBridge

open DecimalText (Ends IsDecimal numberText readNumber)

/-! ## Strings -/

namespace JsonText

def hexValue (c : Char) : Option Nat :=
  if c.isDigit then some (c.toNat - 48)
  else if 'a' ≤ c ∧ c ≤ 'f' then some (c.toNat - 87)
  else if 'A' ≤ c ∧ c ≤ 'F' then some (c.toNat - 55)
  else none

/-- What stands for the character after a backslash. -/
def shortEscape : Char → Option Char
  | '"' => some '"'
  | '\\' => some '\\'
  | '\x08' => some 'b'
  | '\x0c' => some 'f'
  | '\n' => some 'n'
  | '\r' => some 'r'
  | '\t' => some 't'
  | _ => none

/-- A character as it is written between quotes. -/
def escape (c : Char) : List Char :=
  match shortEscape c with
  | some e => ['\\', e]
  | none =>
      if c.toNat < 32 then
        ['\\', 'u', '0', '0', Nat.digitChar (c.toNat / 16), Nat.digitChar (c.toNat % 16)]
      else [c]

def quote (chars : List Char) : List Char := '"' :: (chars.flatMap escape ++ ['"'])

/-- What a string is made of in a text: characters, and code units by their number. -/
inductive Piece
  | char (c : Char)
  | unit (n : Nat)
  deriving DecidableEq

def unescape : Char → Option Char
  | '"' => some '"'
  | '\\' => some '\\'
  | '/' => some '/'
  | 'b' => some '\x08'
  | 'f' => some '\x0c'
  | 'n' => some '\n'
  | 'r' => some '\r'
  | 't' => some '\t'
  | _ => none

/-- The pieces up to the closing quote. -/
def readPieces : List Char → Option (List Piece × List Char)
  | [] => none
  | '"' :: rest => some ([], rest)
  | '\\' :: 'u' :: a :: b :: c :: d :: rest => do
      let a ← hexValue a
      let b ← hexValue b
      let c ← hexValue c
      let d ← hexValue d
      let (pieces, rest) ← readPieces rest
      return (.unit (((a * 16 + b) * 16 + c) * 16 + d) :: pieces, rest)
  | '\\' :: c :: rest => do
      let c ← unescape c
      let (pieces, rest) ← readPieces rest
      return (.char c :: pieces, rest)
  | c :: rest =>
      if c.toNat < 32 then none
      else do
        let (pieces, rest) ← readPieces rest
        return (.char c :: pieces, rest)

/-- Two surrogates that follow each other are one character. -/
def joinPieces : List Piece → List Char
  | [] => []
  | .char c :: pieces => c :: joinPieces pieces
  | .unit high :: .unit low :: pieces =>
      if 0xD800 ≤ high ∧ high < 0xDC00 ∧ 0xDC00 ≤ low ∧ low < 0xE000 then
        Char.ofNat (0x10000 + (high - 0xD800) * 0x400 + (low - 0xDC00)) :: joinPieces pieces
      else if 0xD800 ≤ high ∧ high < 0xE000 then '\uFFFD' :: joinPieces (.unit low :: pieces)
      else Char.ofNat high :: joinPieces (.unit low :: pieces)
  | .unit n :: pieces =>
      (if 0xD800 ≤ n ∧ n < 0xE000 then '\uFFFD' else Char.ofNat n) :: joinPieces pieces

/-- What follows an opening quote. -/
def readString (chars : List Char) : Option (String × List Char) :=
  (readPieces chars).map fun r => (String.ofList (joinPieces r.1), r.2)

theorem unescape_of_shortEscape {c e : Char} (h : shortEscape c = some e) :
    e ≠ 'u' ∧ unescape e = some c := by
  unfold shortEscape at h
  split at h
  all_goals first | contradiction | obtain rfl := Option.some.inj h; decide

theorem hexValue_digitChar : ∀ n < 16, hexValue (Nat.digitChar n) = some n := by decide

theorem readPieces_short {e c : Char} (he : e ≠ 'u') (hc : unescape e = some c)
    (rest : List Char) : readPieces ('\\' :: e :: rest) =
      (readPieces rest).map fun r => (.char c :: r.1, r.2) := by
  simp only [readPieces, he, hc, false_imp_iff, implies_true, Option.bind_eq_bind,
    Option.bind_some]
  cases readPieces rest <;> rfl

theorem readPieces_char {c : Char} (hquote : c ≠ '"') (hbackslash : c ≠ '\\')
    (hprintable : ¬ c.toNat < 32) (rest : List Char) :
    readPieces (c :: rest) = (readPieces rest).map fun r => (.char c :: r.1, r.2) := by
  simp only [readPieces, hbackslash, hprintable, false_imp_iff, implies_true, if_false]
  cases readPieces rest <;> rfl

/-- A control character, by its number. -/
theorem readPieces_control {n : Nat} (hn : n < 32) (rest : List Char) :
    readPieces ('\\' :: 'u' :: '0' :: '0' :: Nat.digitChar (n / 16) :: Nat.digitChar (n % 16) ::
        rest) = (readPieces rest).map fun r => (.unit n :: r.1, r.2) := by
  have hzero : hexValue '0' = some 0 := by decide
  have hvalue : ((0 * 16 + 0) * 16 + n / 16) * 16 + n % 16 = n := by omega
  simp only [readPieces, hzero, hexValue_digitChar _ (show n / 16 < 16 by omega),
    hexValue_digitChar _ (show n % 16 < 16 by omega), Option.bind_eq_bind, Option.bind_some, hvalue]
  cases readPieces rest <;> rfl

theorem joinPieces_unit {n : Nat} (hn : n < 0xD800) (pieces : List Piece) :
    joinPieces (.unit n :: pieces) = Char.ofNat n :: joinPieces pieces := by
  have hlow : ¬ 0xD800 ≤ n := by omega
  cases pieces with
  | nil => simp [joinPieces, hlow]
  | cons piece pieces => cases piece <;> simp [joinPieces, hlow]

/-- Each character is written as one piece that is read back as the character. -/
theorem exists_piece (c : Char) : ∃ piece,
    (∀ rest, readPieces (escape c ++ rest) =
      (readPieces rest).map fun r => (piece :: r.1, r.2)) ∧
    ∀ pieces, joinPieces (piece :: pieces) = c :: joinPieces pieces := by
  have hchar : ∀ pieces, joinPieces (.char c :: pieces) = c :: joinPieces pieces :=
    fun pieces => by rw [joinPieces]
  unfold escape
  cases hshort : shortEscape c with
  | some e =>
      obtain ⟨he, hc⟩ := unescape_of_shortEscape hshort
      exact ⟨.char c, readPieces_short he hc, hchar⟩
  | none =>
      by_cases hcontrol : c.toNat < 32
      · refine ⟨.unit c.toNat, fun rest => ?_, fun pieces => ?_⟩
        · rw [if_pos hcontrol]
          exact readPieces_control hcontrol rest
        · rw [joinPieces_unit (by omega), Char.ofNat_toNat]
      · refine ⟨.char c, fun rest => ?_, hchar⟩
        rw [if_neg hcontrol]
        refine readPieces_char ?_ ?_ hcontrol rest
        all_goals
          rintro rfl
          contradiction

theorem readString_quote (s : String) (rest : List Char) :
    readString (s.toList.flatMap escape ++ '"' :: rest) = some (s, rest) := by
  have hpieces : ∀ chars : List Char, ∃ pieces,
      readPieces (chars.flatMap escape ++ '"' :: rest) = some (pieces, rest) ∧
        joinPieces pieces = chars := by
    intro chars
    induction chars with
    | nil => exact ⟨[], by simp [readPieces], by rw [joinPieces]⟩
    | cons c chars ih =>
        obtain ⟨pieces, hread, hjoin⟩ := ih
        obtain ⟨piece, hpiece, hvalue⟩ := exists_piece c
        refine ⟨piece :: pieces, ?_, by rw [hvalue, hjoin]⟩
        rw [List.flatMap_cons, List.append_assoc, hpiece, hread]
        rfl
  obtain ⟨pieces, hread, hjoin⟩ := hpieces s.toList
  simp [readString, hread, hjoin]

/-! ## Values -/

/-- A line break with its indentation; a gap of zero writes everything on one line. -/
def newline (gap depth : Nat) : List Char :=
  if gap = 0 then [] else '\n' :: List.replicate (gap * depth) ' '

def colon (gap : Nat) : List Char := if gap = 0 then [':'] else [':', ' ']

mutual

def write (gap depth : Nat) : Json → List Char
  | .null => ['n', 'u', 'l', 'l']
  | .bool true => ['t', 'r', 'u', 'e']
  | .bool false => ['f', 'a', 'l', 's', 'e']
  | .number n => numberText n
  | .string s => quote s.toList
  | .array [] => ['[', ']']
  | .array items =>
      '[' :: (newline gap (depth + 1) ++ writeItems gap (depth + 1) items ++
        newline gap depth ++ [']'])
  | .object [] => ['{', '}']
  | .object fields =>
      '{' :: (newline gap (depth + 1) ++ writeFields gap (depth + 1) fields ++
        newline gap depth ++ ['}'])

def writeItems (gap depth : Nat) : List Json → List Char
  | [] => []
  | [item] => write gap depth item
  | item :: items =>
      write gap depth item ++ ',' :: (newline gap depth ++ writeItems gap depth items)

def writeFields (gap depth : Nat) : List (String × Json) → List Char
  | [] => []
  | [(key, value)] => quote key.toList ++ colon gap ++ write gap depth value
  | (key, value) :: fields =>
      quote key.toList ++ colon gap ++ write gap depth value ++
        ',' :: (newline gap depth ++ writeFields gap depth fields)

end

def isSpace (c : Char) : Bool := c == ' ' || c == '\t' || c == '\n' || c == '\r'

def skipSpace (chars : List Char) : List Char := chars.dropWhile isSpace

/-- Of fields with one name the last counts. -/
def lastFields : List (String × Json) → JsonObject
  | [] => []
  | (key, value) :: fields =>
      let others := lastFields fields
      if (others.map Prod.fst).contains key then others else (key, value) :: others

mutual

/-- Each level of nesting takes two units of fuel and two characters. -/
def readValue : Nat → List Char → Option (Json × List Char)
  | 0, _ => none
  | fuel + 1, chars =>
      match skipSpace chars with
      | 'n' :: 'u' :: 'l' :: 'l' :: rest => some (.null, rest)
      | 't' :: 'r' :: 'u' :: 'e' :: rest => some (.bool true, rest)
      | 'f' :: 'a' :: 'l' :: 's' :: 'e' :: rest => some (.bool false, rest)
      | '"' :: rest => (readString rest).map fun r => (.string r.1, r.2)
      | '[' :: rest =>
          match skipSpace rest with
          | ']' :: rest => some (.array [], rest)
          | _ => (readItems fuel rest).map fun r => (.array r.1, r.2)
      | '{' :: rest =>
          match skipSpace rest with
          | '}' :: rest => some (.object [], rest)
          | _ => (readFields fuel rest).map fun r => (.object (lastFields r.1), r.2)
      | chars => (readNumber chars).map fun r => (.number r.1, r.2)

def readItems : Nat → List Char → Option (List Json × List Char)
  | 0, _ => none
  | fuel + 1, chars => do
      let (item, rest) ← readValue fuel chars
      match skipSpace rest with
      | ',' :: rest =>
          let (items, rest) ← readItems fuel rest
          return (item :: items, rest)
      | ']' :: rest => return ([item], rest)
      | _ => none

def readFields : Nat → List Char → Option (List (String × Json) × List Char)
  | 0, _ => none
  | fuel + 1, chars =>
      match skipSpace chars with
      | '"' :: rest => do
          let (key, rest) ← readString rest
          match skipSpace rest with
          | ':' :: rest =>
              let (value, rest) ← readValue fuel rest
              match skipSpace rest with
              | ',' :: rest =>
                  let (fields, rest) ← readFields fuel rest
                  return ((key, value) :: fields, rest)
              | '}' :: rest => return ([(key, value)], rest)
              | _ => none
          | _ => none
      | _ => none

end

end JsonText

namespace Json

/-- `JSON.stringify`, with this many spaces of indentation. -/
def stringify (value : Json) (gap : Nat) : String := String.ofList (JsonText.write gap 0 value)

/-- `JSON.parse`; `none` where it throws. -/
def parse (text : String) : Option Json :=
  match JsonText.readValue (text.toList.length + 1) text.toList with
  | some (value, rest) => if JsonText.skipSpace rest = [] then some value else none
  | none => none

mutual

/-- `String(value)`. -/
def toText : Json → String
  | .null => "null"
  | .bool b => if b then "true" else "false"
  | .number n => String.ofList (numberText n)
  | .string s => s
  | .array items => ",".intercalate (itemTexts items)
  | .object _ => "[object Object]"

/-- A `null` among the items is written as nothing. -/
def itemTexts : List Json → List String
  | [] => []
  | .null :: items => "" :: itemTexts items
  | item :: items => item.toText :: itemTexts items

end

end Json

/-! ## Reading what was written -/

namespace JsonText

mutual

/-- A value that JSON can express: decimal numbers, and no two fields with one name. -/
def WellFormed : Json → Prop
  | .null | .bool _ | .string _ => True
  | .number n => IsDecimal n
  | .array items => ItemsWellFormed items
  | .object fields => (fields.map Prod.fst).Nodup ∧ FieldsWellFormed fields

def ItemsWellFormed : List Json → Prop
  | [] => True
  | item :: items => WellFormed item ∧ ItemsWellFormed items

def FieldsWellFormed : List (String × Json) → Prop
  | [] => True
  | (_, value) :: fields => WellFormed value ∧ FieldsWellFormed fields

end

theorem lastFields_of_nodup {fields : List (String × Json)}
    (h : (fields.map Prod.fst).Nodup) : lastFields fields = fields := by
  induction fields with
  | nil => rfl
  | cons field fields ih =>
      obtain ⟨hnew, hrest⟩ := List.nodup_cons.mp h
      simp only [lastFields, ih hrest]
      rw [if_neg (by simpa using hnew)]

theorem skipSpace_newline (gap depth : Nat) (rest : List Char) :
    skipSpace (newline gap depth ++ rest) = skipSpace rest := by
  unfold newline skipSpace
  split
  · rfl
  · rw [List.cons_append, List.dropWhile_cons_of_pos (by rfl), List.dropWhile_append_of_pos]
    intro c hc
    rw [List.eq_of_mem_replicate hc]
    rfl

theorem skipSpace_cons {c : Char} (h : isSpace c = false) (rest : List Char) :
    skipSpace (c :: rest) = c :: rest := by
  simp [skipSpace, h]

/-- A line break, or at once what follows it. -/
theorem ends_newline {gap depth : Nat} {rest : List Char} (h : Ends rest) :
    Ends (newline gap depth ++ rest) := by
  unfold newline
  split
  · exact h
  · intro c hc
    obtain rfl := Option.some.inj hc
    decide

theorem ends_cons {c : Char} (h : c.isDigit = false ∧ c ≠ '.' ∧ c ≠ 'e' ∧ c ≠ 'E')
    (rest : List Char) : Ends (c :: rest) := by
  intro d hd
  obtain rfl := Option.some.inj hd
  exact h

section Round

variable {gap depth fuel : Nat} {rest tail chars : List Char}

theorem readValue_congr {other : List Char} (h : skipSpace chars = skipSpace other) :
    readValue fuel chars = readValue fuel other := by
  cases fuel with
  | zero => rfl
  | succ fuel => rw [readValue, readValue, h]

/-- The characters that begin a number are none of those that begin anything else. -/
theorem ne_of_number {c d : Char} (hc : c = '-' ∨ c.isDigit = true) (hminus : d ≠ '-')
    (hdigit : d.isDigit = false) : c ≠ d := by
  rintro rfl
  rcases hc with rfl | hc
  · exact hminus rfl
  · simp [hdigit] at hc

theorem isSpace_of_number {c : Char} (hc : c = '-' ∨ c.isDigit = true) : isSpace c = false := by
  have hne := fun d => @ne_of_number c d hc
  simp [isSpace, hne ' ' (by decide) (by decide), hne '\t' (by decide) (by decide),
    hne '\n' (by decide) (by decide), hne '\r' (by decide) (by decide)]

theorem readValue_of_readNumber {n : Rat} (h : readNumber chars = some (n, rest)) :
    readValue (fuel + 1) chars = some (.number n, rest) := by
  obtain ⟨c, chars, rfl, hc⟩ := DecimalText.head_of_readNumber h
  rw [readValue, skipSpace_cons (isSpace_of_number hc)]
  split
  next heq => exact absurd (List.cons.inj heq).1 (ne_of_number hc (by decide) (by decide))
  next heq => exact absurd (List.cons.inj heq).1 (ne_of_number hc (by decide) (by decide))
  next heq => exact absurd (List.cons.inj heq).1 (ne_of_number hc (by decide) (by decide))
  next heq => exact absurd (List.cons.inj heq).1 (ne_of_number hc (by decide) (by decide))
  next heq => exact absurd (List.cons.inj heq).1 (ne_of_number hc (by decide) (by decide))
  next heq => exact absurd (List.cons.inj heq).1 (ne_of_number hc (by decide) (by decide))
  next =>
    rw [h]
    rfl

/-- A value begins with a character that neither ends a list nor is skipped. -/
theorem head_write {value : Json} (hvalue : WellFormed value) :
    ∃ c chars, write gap depth value = c :: chars ∧ isSpace c = false ∧ c ≠ ']' := by
  unfold write
  split
  case h_4 n =>
    have hread := @DecimalText.readNumber_numberText n [] hvalue (by simp [Ends])
    obtain ⟨c, chars, hchars, hc⟩ := DecimalText.head_of_readNumber hread
    exact ⟨c, chars, by simpa using hchars, isSpace_of_number hc,
      ne_of_number hc (by decide) (by decide)⟩
  all_goals exact ⟨_, _, rfl, by decide, by decide⟩

/-- What has been written is read back with this much fuel. -/
structure Reads (gap fuel : Nat) : Prop where
  value : ∀ depth value rest, WellFormed value → Ends rest →
    (write gap depth value).length ≤ fuel →
      readValue fuel (write gap depth value ++ rest) = some (value, rest)
  items : ∀ depth items tail rest, items ≠ [] → ItemsWellFormed items → Ends tail →
    skipSpace tail = ']' :: rest → (writeItems gap depth items).length < fuel →
      readItems fuel (writeItems gap depth items ++ tail) = some (items, rest)
  fields : ∀ depth fields tail rest, fields ≠ [] → FieldsWellFormed fields → Ends tail →
    skipSpace tail = '}' :: rest → (writeFields gap depth fields).length < fuel →
      readFields fuel (writeFields gap depth fields ++ tail) = some (fields, rest)

theorem skipSpace_write {value : Json} (hvalue : WellFormed value) :
    skipSpace (write gap depth value ++ rest) = write gap depth value ++ rest := by
  obtain ⟨c, chars, hchars, hspace, -⟩ := @head_write gap depth _ hvalue
  rw [hchars, List.cons_append, skipSpace_cons hspace]

theorem readItems_congr {other : List Char} (h : skipSpace chars = skipSpace other) :
    readItems fuel chars = readItems fuel other := by
  cases fuel with
  | zero => rfl
  | succ fuel => rw [readItems, readItems, readValue_congr h]

theorem readFields_congr {other : List Char} (h : skipSpace chars = skipSpace other) :
    readFields fuel chars = readFields fuel other := by
  cases fuel with
  | zero => rfl
  | succ fuel => rw [readFields, readFields, h]

theorem head_writeItems {item : Json} {items : List Json} (hitem : WellFormed item) :
    ∃ c chars, writeItems gap depth (item :: items) = c :: chars ∧ isSpace c = false ∧
      c ≠ ']' := by
  obtain ⟨c, chars, hchars, hc⟩ := @head_write gap depth _ hitem
  cases items with
  | nil => exact ⟨c, chars, by rw [writeItems, hchars], hc⟩
  | cons next items => exact ⟨c, _, by rw [writeItems, hchars, List.cons_append]; nofun, hc⟩

theorem head_writeFields (field : String × Json) (fields : List (String × Json)) :
    ∃ chars, writeFields gap depth (field :: fields) = '"' :: chars := by
  obtain ⟨key, value⟩ := field
  cases fields with
  | nil =>
      simp only [writeFields, quote, List.cons_append]
      exact ⟨_, rfl⟩
  | cons next fields =>
      simp only [writeFields, quote, List.cons_append]
      exact ⟨_, rfl⟩

theorem ends_close {c : Char} (hc : c = ']' ∨ c = '}') : Ends (newline gap depth ++ c :: rest) := by
  refine ends_newline (ends_cons ?_ rest)
  rcases hc with rfl | rfl <;> decide

theorem skipSpace_close {c : Char} (hc : isSpace c = false) :
    skipSpace (newline gap depth ++ c :: rest) = c :: rest := by
  rw [skipSpace_newline, skipSpace_cons hc]

theorem Reads.step_value (ih : Reads gap fuel) {value : Json} (hvalue : WellFormed value)
    (hrest : Ends rest) (hfuel : (write gap depth value).length ≤ fuel + 1) :
    readValue (fuel + 1) (write gap depth value ++ rest) = some (value, rest) := by
  have hskip := @skipSpace_write gap depth rest _ hvalue
  cases value with
  | null => rw [readValue, hskip]; rfl
  | bool b => cases b <;> · rw [readValue, hskip]; rfl
  | number n => exact readValue_of_readNumber (DecimalText.readNumber_numberText hvalue hrest)
  | string s =>
      rw [readValue, hskip]
      simp only [write, quote, List.cons_append, List.append_assoc, List.nil_append,
        readString_quote, Option.map_some]
  | array items =>
      cases items with
      | nil => rw [readValue, hskip]; rfl
      | cons item items =>
          obtain ⟨c, chars, hchars, hspace, hbracket⟩ :=
            @head_writeItems gap (depth + 1) item items hvalue.1
          have hread := ih.items (depth + 1) (item :: items)
            (newline gap depth ++ ']' :: rest) rest (by simp) hvalue (ends_close (.inl rfl))
            (skipSpace_close (by decide)) (by simp [write] at hfuel; omega)
          rw [readValue, hskip]
          simp only [write, List.cons_append, List.append_assoc, List.nil_append]
          rw [readItems_congr (skipSpace_newline gap (depth + 1) _), hread, skipSpace_newline,
            hchars, List.cons_append, skipSpace_cons hspace]
          split
          next heq => exact absurd (List.cons.inj heq).1 hbracket
          next => rfl
  | object fields =>
      cases fields with
      | nil => rw [readValue, hskip]; rfl
      | cons field fields =>
          obtain ⟨chars, hchars⟩ := @head_writeFields gap (depth + 1) field fields
          have hread := ih.fields (depth + 1) (field :: fields)
            (newline gap depth ++ '}' :: rest) rest (by simp) hvalue.2 (ends_close (.inr rfl))
            (skipSpace_close (by decide)) (by simp [write] at hfuel; omega)
          rw [readValue, hskip]
          simp only [write, List.cons_append, List.append_assoc, List.nil_append]
          rw [readFields_congr (skipSpace_newline gap (depth + 1) _), hread, skipSpace_newline,
            hchars, List.cons_append, skipSpace_cons (by decide)]
          simp only [Option.map_some, lastFields_of_nodup hvalue.1]
          rfl

theorem Reads.step_items (ih : Reads gap fuel) {items : List Json} (hne : items ≠ [])
    (hitems : ItemsWellFormed items) (htail : Ends tail) (hclose : skipSpace tail = ']' :: rest)
    (hfuel : (writeItems gap depth items).length < fuel + 1) :
    readItems (fuel + 1) (writeItems gap depth items ++ tail) = some (items, rest) := by
  match items with
  | [] => contradiction
  | [item] =>
      simp only [writeItems] at hfuel ⊢
      rw [readItems, ih.value depth item tail hitems.1 htail (by omega)]
      simp only [Option.bind_eq_bind, Option.bind_some, hclose]
      rfl
  | item :: next :: items =>
      simp only [writeItems, List.length_append, List.length_cons, List.append_assoc,
        List.cons_append] at hfuel ⊢
      rw [readItems, ih.value depth item _ hitems.1 (ends_cons (by decide) _) (by omega)]
      simp only [Option.bind_eq_bind, Option.bind_some,
        skipSpace_cons (show isSpace ',' = false from rfl)]
      rw [readItems_congr (skipSpace_newline gap depth _),
        ih.items depth (next :: items) tail rest (by simp) hitems.2 htail hclose (by omega)]
      rfl

theorem readValue_colon (value : List Char) :
    skipSpace (colon gap ++ value) = ':' :: (colon gap).tail ++ value ∧
      readValue fuel ((colon gap).tail ++ value) = readValue fuel value := by
  unfold colon
  split
  · exact ⟨rfl, rfl⟩
  · exact ⟨rfl, readValue_congr rfl⟩

/-- A name with its value, up to what follows it. -/
theorem Reads.field (ih : Reads gap fuel) {key : String} {value : Json}
    (hvalue : WellFormed value) (htail : Ends tail)
    (hfuel : (write gap depth value).length ≤ fuel) :
    readFields (fuel + 1) (quote key.toList ++ colon gap ++ write gap depth value ++ tail) =
      match skipSpace tail with
      | ',' :: rest => (readFields fuel rest).map fun r => ((key, value) :: r.1, r.2)
      | '}' :: rest => some ([(key, value)], rest)
      | _ => none := by
  obtain ⟨hcolon, hskip⟩ := @readValue_colon gap fuel (write gap depth value ++ tail)
  simp only [quote, List.cons_append, List.append_assoc, List.nil_append]
  rw [readFields, skipSpace_cons (by decide)]
  simp only [readString_quote, Option.bind_eq_bind, Option.bind_some, hcolon, List.cons_append,
    hskip, ih.value depth value tail hvalue htail hfuel]
  split
  next rest _ => cases readFields fuel rest <;> rfl
  next => rfl
  next => rfl

theorem Reads.step_fields (ih : Reads gap fuel) {fields : List (String × Json)}
    (hne : fields ≠ []) (hfields : FieldsWellFormed fields) (htail : Ends tail)
    (hclose : skipSpace tail = '}' :: rest)
    (hfuel : (writeFields gap depth fields).length < fuel + 1) :
    readFields (fuel + 1) (writeFields gap depth fields ++ tail) = some (fields, rest) := by
  match fields with
  | [] => contradiction
  | [(key, value)] =>
      simp only [writeFields, List.length_append] at hfuel ⊢
      rw [ih.field hfields.1 htail (by omega), hclose]
      rfl
  | (key, value) :: next :: fields =>
      simp only [writeFields, List.length_append, List.length_cons] at hfuel ⊢
      rw [List.append_assoc _ _ tail, List.cons_append, List.append_assoc (newline gap depth),
        ih.field hfields.1 (ends_cons (by decide) _) (by omega), skipSpace_cons (by decide)]
      change Option.map _ (readFields fuel (newline gap depth ++ _)) = _
      rw [readFields_congr (skipSpace_newline gap depth _),
        ih.fields depth (next :: fields) tail rest (by simp) hfields.2 htail hclose (by omega)]
      rfl

theorem reads (gap fuel : Nat) : Reads gap fuel := by
  induction fuel with
  | zero =>
      refine ⟨fun depth value rest hvalue _ hfuel => ?_, fun _ _ _ _ _ _ _ _ hfuel => ?_,
        fun _ _ _ _ _ _ _ _ hfuel => ?_⟩
      · obtain ⟨c, chars, hchars, -⟩ := @head_write gap depth value hvalue
        simp [hchars] at hfuel
      · omega
      · omega
  | succ fuel ih =>
      exact ⟨fun _ _ _ => ih.step_value, fun _ _ _ _ => ih.step_items,
        fun _ _ _ _ => ih.step_fields⟩

end Round

end JsonText

/-- A value is read back from its text, whatever the indentation. -/
theorem Json.parse_stringify {value : Json} (hvalue : JsonText.WellFormed value) (gap : Nat) :
    Json.parse (value.stringify gap) = some value := by
  have hread := (JsonText.reads gap ((JsonText.write gap 0 value).length + 1)).value 0 value []
    hvalue (by simp [Ends]) (by omega)
  rw [List.append_nil] at hread
  simp [Json.parse, Json.stringify, hread, JsonText.skipSpace]

end StellarKraal.OracleBridge
