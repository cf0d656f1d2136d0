import Mathlib.Data.NNRat.Floor
import StellarKraal.Idempotency.Service

/-!
# How long a response can be read

The calls of the service, one after another. A response stored under a free key expires
when its time to live is over; one stored over a row keeps the expiry of that row, which
can be long past.
-/

namespace StellarKraal.Idempotency

/-! ## Calls in order -/

/-- The time to live is a number of hours. -/
inductive ServiceCall
  | store (key : String) (response : Response) (ttlHours : ℚ≥0)
  | get (key : String)
  | remove (key : String)
  | cleanup

structure Event where
  time : Nat
  call : ServiceCall

/-- What a lookup answers, and the table a call leaves. Only a create can fail, with a
conflict. `setHours` drops the fraction of an hour. -/
def Event.run (e : Event) (table : Table) : Option Response × Table :=
  let outside : Outside := ⟨e.time, false⟩
  match e.call with
  | .store key response ttlHours =>
      (none, ((storeResponse key response ⌊ttlHours⌋₊).run (serve outside) table).2)
  | .get key => (getStoredResponse key).run (serve outside) table
  | .remove key => (none, ((removeKey key).run (serve outside) table).2)
  | .cleanup => (none, cleanupExpiredKeys outside table)

def runEvents (table : Table) (events : List Event) : Table :=
  events.foldl (fun table e => (e.run table).2) table

/-- The call stores the key again, or removes it. -/
def Event.Rewrites (e : Event) (key : String) : Prop :=
  match e.call with
  | .store other _ _ | .remove other => other = key
  | .get _ | .cleanup => False

/-! ## What a call does to a row -/

variable {table : Table} {key : String} {row : Row} {response : Response}

theorem run_ask (outside : Outside) (query : Query) (table : Table) :
    (ask query).run (serve outside) table = serve outside query table := rfl

theorem removeKey_run (now : Nat) (key : String) (table : Table) :
    ((removeKey key).run (serve ⟨now, false⟩) table).2 = Function.update table key none := by
  have hdelete : (serve ⟨now, false⟩ (.delete key) table).2 = Function.update table key none := by
    cases hrow : table key with
    | none => simp [serve, hrow]
    | some row => simp [serve, hrow]
  rw [removeKey, Script.run_bind, ask, Script.run, Script.run, Script.run_pure, hdelete]

theorem getStoredResponse_run (now : Nat) (key : String) (table : Table) :
    (getStoredResponse key).run (serve ⟨now, false⟩) table =
      match table key with
      | some row =>
          if now > row.expiresAt then (none, Function.update table key none)
          else (some row.response, table)
      | none => (none, table) := by
  refine (Script.run_bind _ (ask (.findUnique key)) _ table).trans ?_
  cases hrow : table key with
  | none => simp [run_ask, serve, hrow]
  | some row =>
      have hremove : ((removeKey key).run (serve ⟨now, false⟩) table).2 =
          Function.update table key none := removeKey_run now key table
      by_cases hexpired : now > row.expiresAt
      · simp [run_ask, serve, hrow, hexpired, hremove]
      · simp [run_ask, serve, hrow, hexpired]

theorem storeResponse_run (now ttlHours : Nat) (key : String) (response : Response)
    (table : Table) :
    ((storeResponse key response ttlHours).run (serve ⟨now, false⟩) table).2 =
      Function.update table key (some (match table key with
        | some row => { row with response }
        | none => ⟨response, now + ttlHours * hour⟩)) := by
  refine congrArg Prod.snd (Script.run_bind _ (ask .now) _ table) |>.trans ?_
  refine congrArg Prod.snd (Script.run_bind _ (ask (.create key _)) _ table) |>.trans ?_
  cases hrow : table key with
  | none => simp [run_ask, serve, hrow]
  | some row =>
      have hupdate : (serve ⟨now, false⟩ (.update key response) table).2 =
          Function.update table key (some { row with response }) := by
        simp only [serve, hrow, Bool.false_eq_true, if_false]
      simp only [run_ask, serve, hrow, Option.isSome_some, Bool.false_eq_true, if_false, if_true]
      exact hupdate

theorem Event.run_get (time : Nat) (hrow : table key = some row) :
    (Event.run ⟨time, .get key⟩ table).1 =
      if time > row.expiresAt then none else some row.response := by
  refine congrArg Prod.fst (getStoredResponse_run time key table) |>.trans ?_
  simp only [hrow]
  split <;> rfl

/-- A row outlives every call until its expiry that does not rewrite it. -/
theorem Event.run_keeps {e : Event} (hrow : table key = some row) (htime : e.time ≤ row.expiresAt)
    (hkeeps : ¬ e.Rewrites key) : (e.run table).2 key = some row := by
  obtain ⟨time, call⟩ := e
  cases call with
  | store other response ttlHours =>
      have hne : key ≠ other := fun h => hkeeps h.symm
      rw [run, storeResponse_run, Function.update_of_ne hne, hrow]
  | get other =>
      refine (congrFun (congrArg Prod.snd (getStoredResponse_run time other table)) key).trans ?_
      rcases eq_or_ne key other with rfl | hne
      · have hfresh : ¬ time > row.expiresAt := not_lt.mpr htime
        simp only [hrow, if_neg hfresh]
      · split
        · split
          · exact (Function.update_of_ne hne ..).trans hrow
          · exact hrow
        · exact hrow
  | remove other =>
      have hne : key ≠ other := fun h => hkeeps h.symm
      rw [run, removeKey_run, Function.update_of_ne hne, hrow]
  | cleanup =>
      have hfresh : ¬ row.expiresAt < time := not_lt.mpr htime
      simp [run, cleanupExpiredKeys, hrow, hfresh]

theorem runEvents_keeps {events : List Event} (hrow : table key = some row)
    (htime : ∀ e ∈ events, e.time ≤ row.expiresAt) (hkeeps : ∀ e ∈ events, ¬ e.Rewrites key) :
    runEvents table events key = some row := by
  induction events generalizing table with
  | nil => exact hrow
  | cons e rest ih =>
      exact ih (Event.run_keeps hrow (htime e List.mem_cons_self) (hkeeps e List.mem_cons_self))
        (fun e he => htime e (List.mem_cons_of_mem _ he))
        fun e he => hkeeps e (List.mem_cons_of_mem _ he)

/-! ## When the promise is kept -/

/-- The expiry of the row after a store at time `t`. -/
def expiryAfter (table : Table) (key : String) (t : Nat) (ttlHours : ℚ≥0) : Nat :=
  match table key with
  | some row => row.expiresAt
  | none => t + ⌊ttlHours⌋₊ * hour

theorem Event.run_store (table : Table) (key : String) (response : Response) (t : Nat)
    (ttlHours : ℚ≥0) : (Event.run ⟨t, .store key response ttlHours⟩ table).2 key =
      some ⟨response, expiryAfter table key t ttlHours⟩ := by
  rw [run, storeResponse_run, Function.update_self, expiryAfter]
  cases table key <;> rfl

/-- There is no row under the key and the time is a whole number of hours, up to a
millisecond, or there is a row that does not expire before the time is over. -/
def Lasts (table : Table) (key : String) (t : Nat) (ttlHours : ℚ≥0) : Prop :=
  match table key with
  | some row => t + ⌊ttlHours * hour⌋₊ ≤ row.expiresAt
  | none => ⌊ttlHours * hour⌋₊ ≤ ⌊ttlHours⌋₊ * hour

theorem lasts_iff {t : Nat} {ttlHours : ℚ≥0} : Lasts table key t ttlHours ↔
    t + ⌊ttlHours * hour⌋₊ ≤ expiryAfter table key t ttlHours := by
  rw [Lasts, expiryAfter]
  cases table key with
  | none => simp
  | some row => rfl

/-- A response that is stored can be read until its time to live is over, whatever else is
called except for the key, exactly if there is no row to overwrite or it lasts that long. -/
theorem readable_iff_lasts (start : Table) (earlier : List Event) (t : Nat) (key : String)
    (response : Response) (ttlHours : ℚ≥0) :
    (∀ (later : List Event) (time : Nat),
      (t :: (later.map (·.time) ++ [time])).Pairwise (· ≤ ·) →
        (∀ e ∈ later, ¬ e.Rewrites key) → (time : ℚ≥0) ≤ t + ttlHours * hour →
          (Event.run ⟨time, .get key⟩
            (runEvents start (earlier ++ ⟨t, .store key response ttlHours⟩ :: later))).1 =
              some response) ↔
      Lasts (runEvents start earlier) key t ttlHours := by
  have hstored : runEvents start (earlier ++ [⟨t, .store key response ttlHours⟩]) key =
      some ⟨response, expiryAfter (runEvents start earlier) key t ttlHours⟩ := by
    rw [runEvents, List.foldl_append]
    exact Event.run_store _ key response t ttlHours
  rw [lasts_iff]
  constructor
  · intro hall
    -- The last moment at which the response is promised.
    have hread := hall [] (t + ⌊ttlHours * hour⌋₊) (by simp) (by simp) (by
      push_cast
      exact add_le_add_right (Nat.floor_le zero_le) _)
    rw [Event.run_get _ hstored, Option.ite_none_left_eq_some] at hread
    exact not_lt.mp hread.1
  · intro hlasts later time horder hkeeps hpromised
    have htime : time ≤ expiryAfter (runEvents start earlier) key t ttlHours := by
      refine le_trans ?_ hlasts
      rw [Nat.add_comm, ← Nat.floor_add_natCast zero_le, add_comm]
      exact Nat.le_floor hpromised
    have hbefore : ∀ e ∈ later, e.time ≤ time := by
      intro e he
      have hlast := (List.pairwise_append.mp (List.pairwise_cons.mp horder).2).2.2
      exact hlast _ (List.mem_map_of_mem he) _ List.mem_cons_self
    have hrow := runEvents_keeps hstored (fun e he => (hbefore e he).trans htime) hkeeps
    rw [runEvents, runEvents, ← List.foldl_append, List.append_assoc] at hrow
    change runEvents start (earlier ++ ⟨t, .store key response ttlHours⟩ :: later) key = _ at hrow
    rw [Event.run_get _ hrow, if_neg (not_lt.mpr htime)]

/-- Stored for a day, stored again after twenty-three hours, and gone two hours later. -/
theorem restored_response_expires :
    ¬ ∀ (start : Table) (earlier later : List Event) (t time : Nat) (key : String)
      (response : Response) (ttlHours : ℚ≥0),
      ((earlier.map (·.time)) ++ t :: (later.map (·.time) ++ [time])).Pairwise (· ≤ ·) →
        (∀ e ∈ later, ¬ e.Rewrites key) → (time : ℚ≥0) ≤ t + ttlHours * hour →
          (Event.run ⟨time, .get key⟩
            (runEvents start (earlier ++ ⟨t, .store key response ttlHours⟩ :: later))).1 =
              some response := by
  intro hall
  let first : Event := ⟨0, .store "order-17" ⟨201, "1"⟩ 24⟩
  have hread := hall (fun _ => none) [first] [] (23 * hour) (25 * hour) "order-17" ⟨201, "2"⟩ 24
    (by simp [first, hour]) (by simp) (by norm_num [hour])
  have hrow : runEvents (fun _ => none) [first, ⟨23 * hour, .store "order-17" ⟨201, "2"⟩ 24⟩]
      "order-17" = some ⟨⟨201, "2"⟩, 24 * hour⟩ := by
    simp [runEvents, first, Event.run_store, expiryAfter]
  change (Event.run ⟨25 * hour, .get "order-17"⟩ (runEvents (fun _ => none)
    [first, ⟨23 * hour, .store "order-17" ⟨201, "2"⟩ 24⟩])).1 = _ at hread
  rw [Event.run_get _ hrow, if_pos (by decide)] at hread
  contradiction

end StellarKraal.Idempotency
