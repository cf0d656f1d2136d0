import Mathlib.Data.Finset.Option
import StellarKraal.RateLimit.Store

/-!
# Windows

A key's window lasts from the creation of its row to the deletion. Nothing in a row
says which window it is of, so a decrement that comes late is taken off the hits of
requests it has nothing to do with.
-/

namespace StellarKraal.RateLimit

open TransitionSystem (Transition HistoryVariable)

variable {Req : Type}

/-! ## What an action does -/

/-- Where an increment stands. -/
inductive Counting (windowMs : Nat) (key : String) :
    Script Query.Reply (Option IncrementResponse) → Prop
  | starting : Counting windowMs key (increment windowMs key)
  | cleaning (now : Nat) : Counting windowMs key (do
      let deleted : Option Unit ← ask (.deleteExpired now)
      match deleted with
      | none => return none
      | some () => upsert key (now + windowMs))
  | upserting (resetTime : Nat) : Counting windowMs key (upsert key resetTime)

/-- What the next query of an increment leads to. -/
inductive Served (windowMs : Nat) (key : String) (table : Table) : Phase → Table → Prop
  | waits {rest : Script Query.Reply (Option IncrementResponse)}
      (hrest : Counting windowMs key rest) : Served windowMs key table (.counting rest) table
  | cleans {rest : Script Query.Reply (Option IncrementResponse)} (now : Nat)
      (hrest : Counting windowMs key rest) :
      Served windowMs key table (.counting rest) (table.deleteExpired now)
  | throws : Served windowMs key table .failed table
  | counts (resetTime : Nat) :
      Served windowMs key table
        (.counted ⟨(table.hit key resetTime).hits, (table.hit key resetTime).resetTime⟩)
        (Function.update table key (some (table.hit key resetTime)))

theorem Counting.served {windowMs : Nat} {key : String}
    {script : Script Query.Reply (Option IncrementResponse)} (h : Counting windowMs key script)
    (outside : Outside) (table : Table) :
    Served windowMs key table (.ofScript (script.step (serve outside) table).1)
      (script.step (serve outside) table).2 := by
  cases h with
  | starting => exact .waits (.cleaning outside.now)
  | cleaning now =>
      cases hfails : outside.fails with
      | true =>
          simp only [Script.step, serve, hfails, if_true]
          exact .throws
      | false =>
          simp only [Script.step, serve, hfails, Bool.false_eq_true, if_false]
          exact .cleans now (.upserting _)
  | upserting resetTime =>
      cases hfails : outside.fails with
      | true =>
          simp only [upsert, ask, Script.step, serve, hfails, if_true, bind, Script.bind]
          exact .throws
      | false =>
          simp only [upsert, ask, Script.step, serve, hfails, Bool.false_eq_true, if_false, bind,
            Script.bind]
          exact .counts resetTime

inductive Effect (s : Server Req) : Action Req → Server Req → Prop
  | arrive {id : Nat} {limiter : Limiter Req} {req : Req} (hnew : s.requests id = none) :
      Effect s (.arrive id limiter req) (s.withRequest id
        ⟨limiter, req, .counting (increment limiter.windowMs (limiter.keyGenerator req))⟩)
  | query {id : Nat} {outside : Outside} {request : Request Req}
      {script : Script Query.Reply (Option IncrementResponse)}
      (hrequest : s.requests id = some request) (hphase : request.phase = .counting script) :
      Effect s (.query id outside)
        ({ s with table := (script.step (serve outside) s.table).2 }.withRequest id
          { request with phase := .ofScript (script.step (serve outside) s.table).1 })
  | succeed {id : Nat} {outside : Outside} {request : Request Req} {response : IncrementResponse}
      (hrequest : s.requests id = some request) (hphase : request.phase = .counted response) :
      Effect s (.succeed id outside)
        ({ s with
          table :=
            if request.limiter.skipSuccessfulRequests then decrement outside request.key s.table
            else s.table }.withRequest id { request with phase := .finished })

theorem Effect.of_act {s s' : Server Req} {a : Action Req} (h : s.act a = some s') :
    Effect s a s' := by
  cases a with
  | arrive id limiter req =>
      simp only [Server.act] at h
      split at h
      next => contradiction
      next hnew =>
        obtain rfl := Option.some.inj h
        exact .arrive hnew
  | query id outside =>
      obtain ⟨request, hrequest, hact⟩ := Option.bind_eq_some_iff.mp h
      split at hact
      next script hphase =>
        obtain rfl := Option.some.inj hact
        exact .query hrequest hphase
      next => contradiction
  | succeed id outside =>
      obtain ⟨request, hrequest, hact⟩ := Option.bind_eq_some_iff.mp h
      split at hact
      next response hphase =>
        obtain rfl := Option.some.inj hact
        exact .succeed hrequest hphase
      next => contradiction

theorem withRequest_requests {s : Server Req} {id id' : Nat} {request : Request Req} :
    (s.withRequest id request).requests id' =
      if id' = id then some request else s.requests id' :=
  Function.update_apply ..

theorem eq_or_of_withRequest {s : Server Req} {id id' : Nat} {request request' : Request Req}
    (h : (s.withRequest id request).requests id' = some request') :
    (id' = id ∧ request' = request) ∨ s.requests id' = some request' := by
  rw [withRequest_requests] at h
  split at h
  next heq => exact .inl ⟨heq, (Option.some.inj h).symm⟩
  next => exact .inr h

@[simp] theorem withRequest_table {s : Server Req} {id : Nat} {request : Request Req} :
    (s.withRequest id request).table = s.table := rfl

/-! ## The windows of a run -/

/-- The request whose hit the step stores. -/
def counts (t : Transition (Server Req) (Action Req)) : Option Nat :=
  match t.action with
  | .query id _ =>
      match t.after.requests id with
      | some ⟨_, _, .counted _⟩ => some id
      | _ => none
  | _ => none

/-- The request whose decrement the step carries out. -/
def refunds (t : Transition (Server Req) (Action Req)) : Option Nat :=
  match t.action with
  | .succeed id outside =>
      match t.before.requests id with
      | some request =>
          if request.limiter.skipSuccessfulRequests && !outside.fails then some id else none
      | none => none
  | _ => none

structure Windows where
  /-- The requests, of any key, that were counted in the key's present window. -/
  counted : String → Finset Nat
  /-- The requests that have been decremented. -/
  refunded : Finset Nat

def windows (Req : Type) : HistoryVariable (Server Req) (Action Req) Windows where
  start := ⟨fun _ => ∅, ∅⟩
  update h t :=
    { counted := fun key =>
        if (t.after.table key).isSome then
          (if (t.before.table key).isSome then h.counted key else ∅) ∪ (counts t).toFinset
        else ∅
      refunded := h.refunded ∪ (refunds t).toFinset }

/-- The requests of the key that were counted in its present window and have not been
decremented. -/
def Windows.charged (h : Windows) (s : Server Req) (key : String) : Finset Nat :=
  (h.counted key).filter fun id => (s.requests id).map Request.key = some key ∧ id ∉ h.refunded

/-- The stored hits are not negative and cover the key's charged requests. -/
def NeverUnder (h : Windows) (s : Server Req) : Prop :=
  ∀ key row, s.table key = some row → 0 ≤ row.hits ∧ ((h.charged s key).card : Int) ≤ row.hits

/-- A decrement takes a hit off a row that was created after its request was counted. -/
def Late (earlier : List (Transition (Server Req) (Action Req)))
    (t : Transition (Server Req) (Action Req)) : Prop :=
  ∃ id request, refunds t = some id ∧ t.before.requests id = some request ∧
    (t.before.table request.key).isSome = true ∧
    id ∉ ((windows Req).after earlier).counted request.key

/-! ## Accurate counters -/

structure Accurate (h : Windows) (s : Server Req) : Prop where
  stage : ∀ id request rest, s.requests id = some request → request.phase = .counting rest →
    Counting request.limiter.windowMs request.key rest
  past : ∀ key, ∀ id ∈ h.counted key, ∃ request, s.requests id = some request ∧
    ∀ rest, request.phase ≠ .counting rest
  refunded : ∀ id ∈ h.refunded, ∃ request, s.requests id = some request ∧
    request.phase = .finished
  closed : ∀ key, s.table key = none → h.counted key = ∅
  hits : ∀ key row, s.table key = some row → row.hits = (h.charged s key).card

theorem Accurate.neverUnder {h : Windows} {s : Server Req} (haccurate : Accurate h s) :
    NeverUnder h s := by
  intro key row hrow
  rw [haccurate.hits key row hrow]
  exact ⟨Int.natCast_nonneg _, le_rfl⟩

theorem Accurate.start {s : Server Req} (hfresh : s.Fresh) :
    Accurate (windows Req).start s where
  stage id request rest hrequest := by simp [hfresh.2 id] at hrequest
  past key id hmem := by simp [windows] at hmem
  refunded id hmem := by simp [windows] at hmem
  closed key _ := rfl
  hits key row hrow := by simp [hfresh.1 key] at hrow

section Steps

variable {h h' : Windows} {s s' : Server Req} {id : Nat}

theorem charged_congr {key : String} (hcounted : h'.counted key = h.counted key)
    (hkeys : ∀ i ∈ h.counted key,
      (s'.requests i).map Request.key = (s.requests i).map Request.key)
    (hrefunded : ∀ i ∈ h.counted key, i ∈ h'.refunded ↔ i ∈ h.refunded) :
    h'.charged s' key = h.charged s key := by
  unfold Windows.charged
  rw [hcounted]
  refine Finset.filter_congr fun i hi => ?_
  rw [hkeys i hi, hrefunded i hi]

/-- Rows disappear, and their windows with them. -/
theorem Accurate.shrink (haccurate : Accurate h s) {table : Table}
    (hrows : ∀ key row, table key = some row → s.table key = some row)
    (hopen : ∀ key, (table key).isSome = true → h'.counted key = h.counted key)
    (hclosed : ∀ key, table key = none → h'.counted key = ∅)
    (hrefunded : h'.refunded = h.refunded) : Accurate h' { s with table } where
  stage := haccurate.stage
  past key i hi := by
    cases hrow : table key with
    | none => simp [hclosed key hrow] at hi
    | some row => exact haccurate.past key i (hopen key (by simp [hrow]) ▸ hi)
  refunded i hi := haccurate.refunded i (hrefunded ▸ hi)
  closed := hclosed
  hits key row hrow := by
    rw [haccurate.hits key row (hrows key row hrow)]
    rw [charged_congr (hopen key (by simp [show table key = some row from hrow]))]
    · intro i _
      rfl
    · intro i _
      rw [hrefunded]

/-- A request goes on without a change of the table. -/
theorem Accurate.reassign (haccurate : Accurate h s) {request : Request Req}
    (hkey : ∀ old, s.requests id = some old → old.key = request.key)
    (hstage : ∀ rest, request.phase = .counting rest →
      Counting request.limiter.windowMs request.key rest)
    (hpast : ∀ key, id ∈ h.counted key → ∀ rest, request.phase ≠ .counting rest)
    (hfinished : id ∈ h.refunded → request.phase = .finished) :
    Accurate h (s.withRequest id request) where
  stage i request' rest hrequest' hphase := by
    rcases eq_or_of_withRequest hrequest' with ⟨-, rfl⟩ | hold
    · exact hstage rest hphase
    · exact haccurate.stage i request' rest hold hphase
  past key i hi := by
    rw [withRequest_requests]
    split
    next heq => exact ⟨request, rfl, hpast key (heq ▸ hi)⟩
    next => exact haccurate.past key i hi
  refunded i hi := by
    rw [withRequest_requests]
    split
    next heq => exact ⟨request, rfl, hfinished (heq ▸ hi)⟩
    next => exact haccurate.refunded i hi
  closed := haccurate.closed
  hits key row hrow := by
    rw [haccurate.hits key row hrow, charged_congr rfl]
    · intro i hi
      rw [withRequest_requests]
      split
      next heq =>
        obtain ⟨old, hold, -⟩ := haccurate.past key i hi
        rw [hold, Option.map_some, Option.map_some, hkey old (heq ▸ hold)]
      next => rfl
    · intro i _
      rfl

theorem mem_charged {key : String} {i : Nat} : i ∈ h.charged s key ↔
    i ∈ h.counted key ∧ (s.requests i).map Request.key = some key ∧ i ∉ h.refunded :=
  Finset.mem_filter

/-- A request in the limiter has not been counted in any window. -/
theorem Accurate.not_mem_of_counting (haccurate : Accurate h s) {request : Request Req}
    {script : Script Query.Reply (Option IncrementResponse)}
    (hrequest : s.requests id = some request) (hphase : request.phase = .counting script)
    (key : String) : id ∉ h.counted key := by
  intro hmem
  obtain ⟨request', hrequest', hpast⟩ := haccurate.past key id hmem
  obtain rfl := Option.some.inj (hrequest.symm.trans hrequest')
  exact hpast script hphase

/-- Only finished requests have been decremented. -/
theorem Accurate.not_refunded (haccurate : Accurate h s) {request : Request Req}
    (hrequest : s.requests id = some request) (hphase : request.phase ≠ .finished) :
    id ∉ h.refunded := by
  intro hmem
  obtain ⟨request', hrequest', hfinished⟩ := haccurate.refunded id hmem
  obtain rfl := Option.some.inj (hrequest.symm.trans hrequest')
  exact hphase hfinished

/-- A request that is counted is charged to its own key. -/
theorem Accurate.charged_count (haccurate : Accurate h s) {request : Request Req}
    {script : Script Query.Reply (Option IncrementResponse)} {response : IncrementResponse}
    (hrequest : s.requests id = some request) (hphase : request.phase = .counting script)
    {table : Table} {key : String} (hcounted : h'.counted key = insert id (h.counted key))
    (hrefunded : h'.refunded = h.refunded) :
    h'.charged ({ s with table }.withRequest id { request with phase := .counted response }) key =
      if key = request.key then insert id (h.charged s key) else h.charged s key := by
  have hfresh := haccurate.not_mem_of_counting hrequest hphase key
  have hunpaid := haccurate.not_refunded hrequest (by simp [hphase])
  have hmem : ∀ i, i ∈ h'.charged ({ s with table }.withRequest id
      { request with phase := .counted response }) key ↔
        (i = id ∧ key = request.key) ∨ i ∈ h.charged s key := by
    intro i
    rw [mem_charged, mem_charged, hcounted, hrefunded, Finset.mem_insert, withRequest_requests]
    by_cases hi : i = id
    · subst hi
      simp [hfresh, hunpaid, Request.key, eq_comm]
    · simp [hi]
  ext i
  rw [hmem]
  split
  next hkey => simp [hkey]
  next hkey => simp [hkey]

theorem Accurate.count (haccurate : Accurate h s) {request : Request Req}
    {script : Script Query.Reply (Option IncrementResponse)} {response : IncrementResponse}
    (hrequest : s.requests id = some request) (hphase : request.phase = .counting script)
    (resetTime : Nat) {table : Table}
    (htable : table = Function.update s.table request.key
      (some (s.table.hit request.key resetTime)))
    (hopen : ∀ key, (table key).isSome = true → h'.counted key = insert id (h.counted key))
    (hclosed : ∀ key, table key = none → h'.counted key = ∅)
    (hrefunded : h'.refunded = h.refunded) :
    Accurate h' ({ s with table }.withRequest id { request with phase := .counted response }) where
  stage i request' rest hrequest' hphase' := by
    rcases eq_or_of_withRequest hrequest' with ⟨-, rfl⟩ | hold
    · contradiction
    · exact haccurate.stage i request' rest hold hphase'
  past key i hi := by
    rw [withRequest_requests]
    split
    next => exact ⟨_, rfl, by simp⟩
    next hne =>
      cases hrow : table key with
      | none => simp [hclosed key hrow] at hi
      | some row =>
          rw [hopen key (by simp [hrow])] at hi
          exact haccurate.past key i ((Finset.mem_insert.mp hi).resolve_left hne)
  refunded i hi := by
    rw [hrefunded] at hi
    obtain ⟨request', hrequest', hfinished⟩ := haccurate.refunded i hi
    rw [withRequest_requests]
    split
    next heq =>
      subst heq
      exact absurd hi (haccurate.not_refunded hrequest (by simp [hphase]))
    next => exact ⟨request', hrequest', hfinished⟩
  closed := hclosed
  hits key row hrow := by
    have hrow' : table key = some row := hrow
    rw [haccurate.charged_count hrequest hphase (hopen key (by simp [hrow'])) hrefunded]
    rw [htable, Function.update_apply] at hrow'
    split at hrow'
    next hkey =>
      obtain rfl := Option.some.inj hrow'
      obtain rfl := hkey
      have hnew : id ∉ h.charged s request.key := fun hmem =>
        haccurate.not_mem_of_counting hrequest hphase _ (mem_charged.mp hmem).1
      rw [if_pos rfl, Finset.card_insert_of_notMem hnew]
      cases hold : s.table request.key with
      | none =>
          have hempty : h.charged s request.key = ∅ := by
            simp [Windows.charged, haccurate.closed request.key hold]
          simp [Table.hit, hold, hempty]
      | some old =>
          have := haccurate.hits request.key old hold
          simp only [Table.hit, hold]
          omega
    next hkey =>
      rw [if_neg hkey]
      exact haccurate.hits key row hrow'

theorem decrement_isSome (outside : Outside) (k : String) (table : Table) (key : String) :
    (decrement outside k table key).isSome = (table key).isSome := by
  unfold decrement
  cases hrow : table k with
  | none => rfl
  | some row =>
      simp only
      split
      · rfl
      · by_cases hkey : key = k
        · simp [hkey, hrow]
        · rw [Function.update_of_ne hkey]

/-- A request that is decremented is no longer charged to its key. -/
theorem charged_refund {request : Request Req} (hrequest : s.requests id = some request)
    {table : Table} {key : String} (hcounted : h'.counted key = h.counted key)
    (hrefunded : h'.refunded = insert id h.refunded) :
    h'.charged ({ s with table }.withRequest id { request with phase := .finished }) key =
      if key = request.key then (h.charged s key).erase id else h.charged s key := by
  have hmem : ∀ i, i ∈ h'.charged ({ s with table }.withRequest id
      { request with phase := .finished }) key ↔ i ≠ id ∧ i ∈ h.charged s key := by
    intro i
    rw [mem_charged, mem_charged, hcounted, hrefunded, Finset.mem_insert, withRequest_requests]
    by_cases hi : i = id
    · simp [hi]
    · simp [hi]
  ext i
  rw [hmem]
  split
  next hkey => rw [Finset.mem_erase]
  next hkey =>
    refine and_iff_right_of_imp ?_
    rintro hcharged rfl
    have hown : (s.requests i).map Request.key = some key := (mem_charged.mp hcharged).2.1
    rw [hrequest] at hown
    exact hkey (Option.some.inj hown).symm

/-- A decrement of a request that was counted in the present window of its key. -/
theorem Accurate.refund (haccurate : Accurate h s) {request : Request Req}
    {response : IncrementResponse} (hrequest : s.requests id = some request)
    (hphase : request.phase = .counted response) {outside : Outside}
    (hworks : outside.fails = false)
    (hpresent : (s.table request.key).isSome = true → id ∈ h.counted request.key)
    (hcounted : ∀ key, h'.counted key = h.counted key)
    (hrefunded : h'.refunded = insert id h.refunded) :
    Accurate h' ({ s with table := decrement outside request.key s.table }.withRequest id
      { request with phase := .finished }) where
  stage i request' rest hrequest' hphase' := by
    rcases eq_or_of_withRequest hrequest' with ⟨-, rfl⟩ | hold
    · contradiction
    · exact haccurate.stage i request' rest hold hphase'
  past key i hi := by
    rw [withRequest_requests]
    split
    next => exact ⟨_, rfl, by simp⟩
    next => exact haccurate.past key i (hcounted key ▸ hi)
  refunded i hi := by
    rw [withRequest_requests]
    split
    next => exact ⟨_, rfl, rfl⟩
    next hne =>
      rw [hrefunded] at hi
      exact haccurate.refunded i ((Finset.mem_insert.mp hi).resolve_left hne)
  closed key hnone := by
    rw [hcounted]
    have hsame := decrement_isSome outside request.key s.table key
    apply haccurate.closed
    rw [← Option.isNone_iff_eq_none, ← Option.not_isSome, ← hsame]
    simp [show decrement outside request.key s.table key = none from hnone]
  hits key row hrow := by
    have hrow' : decrement outside request.key s.table key = some row := hrow
    rw [charged_refund hrequest (hcounted key) hrefunded]
    cases hold : s.table request.key with
    | none =>
        simp only [decrement, hold] at hrow'
        have hkey : key ≠ request.key := by
          rintro rfl
          simp [hold] at hrow'
        rw [if_neg hkey]
        exact haccurate.hits key row hrow'
    | some old =>
        simp only [decrement, hold, hworks, Bool.false_eq_true, if_false, Function.update_apply]
          at hrow'
        split at hrow'
        next hkey =>
          obtain rfl := Option.some.inj hrow'
          obtain rfl := hkey
          have hunpaid := haccurate.not_refunded hrequest (by simp [hphase])
          have hmem : id ∈ h.charged s request.key :=
            mem_charged.mpr ⟨hpresent (by simp [hold]), by simp [hrequest], hunpaid⟩
          rw [if_pos rfl, Finset.card_erase_of_mem hmem]
          have hhits := haccurate.hits request.key old hold
          have hpos := Finset.card_pos.mpr ⟨id, hmem⟩
          simp only
          omega
        next hkey =>
          rw [if_neg hkey]
          exact haccurate.hits key row hrow'

end Steps

/-! ## Runs -/

section Runs

variable {h : Windows} {s s' : Server Req} {a : Action Req}

/-- A step that counts nothing closes windows and opens none. -/
theorem counted_of_quiet (haccurate : Accurate h s) (hcounts : counts ⟨s, a, s'⟩ = none)
    {key : String} (hsome : (s'.table key).isSome = true) :
    ((windows Req).update h ⟨s, a, s'⟩).counted key = h.counted key := by
  simp only [windows, hsome, if_true, hcounts, Option.toFinset_none, Finset.union_empty]
  split
  · rfl
  next hnone => exact (haccurate.closed key (by simpa using hnone)).symm

theorem counted_of_closed {key : String} (hnone : s'.table key = none) :
    ((windows Req).update h ⟨s, a, s'⟩).counted key = ∅ := by
  simp [windows, hnone]

theorem refunded_of_quiet (hrefunds : refunds ⟨s, a, s'⟩ = none) :
    ((windows Req).update h ⟨s, a, s'⟩).refunded = h.refunded := by
  simp [windows, hrefunds]

/-- A step that touches no window, before the request goes on. -/
theorem Accurate.quiet (haccurate : Accurate h s) {table : Table} (htable : s'.table = table)
    (hrows : ∀ key row, table key = some row → s.table key = some row)
    (hcounts : counts ⟨s, a, s'⟩ = none) (hrefunds : refunds ⟨s, a, s'⟩ = none) :
    Accurate ((windows Req).update h ⟨s, a, s'⟩) { s with table } := by
  subst htable
  exact haccurate.shrink hrows (fun key hsome => counted_of_quiet haccurate hcounts hsome)
    (fun key hnone => counted_of_closed hnone) (refunded_of_quiet hrefunds)

theorem Accurate.arrive (haccurate : Accurate h s) {id : Nat} {limiter : Limiter Req} {req : Req}
    (hnew : s.requests id = none)
    (hs' : s' = s.withRequest id
      ⟨limiter, req, .counting (increment limiter.windowMs (limiter.keyGenerator req))⟩) :
    Accurate ((windows Req).update h ⟨s, .arrive id limiter req, s'⟩) s' := by
  have hsame : Accurate ((windows Req).update h ⟨s, .arrive id limiter req, s'⟩) s :=
    haccurate.quiet (by rw [hs']; rfl) (fun key row hrow => hrow) rfl rfl
  rw [hs'] at hsame ⊢
  refine hsame.reassign (by simp [hnew]) ?_ ?_ ?_
  · rintro rest hrest
    obtain rfl := Phase.counting.inj hrest
    exact .starting
  · intro key hmem
    obtain ⟨request, hrequest, -⟩ := hsame.past key id hmem
    simp [hnew] at hrequest
  · intro hmem
    obtain ⟨request, hrequest, -⟩ := hsame.refunded id hmem
    simp [hnew] at hrequest

/-- A query of an increment. -/
theorem Accurate.query (haccurate : Accurate h s) {id : Nat} {outside : Outside}
    {request : Request Req} {script : Script Query.Reply (Option IncrementResponse)}
    (hrequest : s.requests id = some request) (hphase : request.phase = .counting script)
    {phase : Phase} {table : Table}
    (hserved : Served request.limiter.windowMs request.key s.table phase table) :
    Accurate ((windows Req).update h ⟨s, .query id outside,
        { s with table }.withRequest id { request with phase }⟩)
      ({ s with table }.withRequest id { request with phase }) := by
  -- The table of a query that counts nothing, then the request on it.
  have hquiet : counts ⟨s, .query id outside,
        { s with table }.withRequest id { request with phase }⟩ = none →
      (∀ key row, table key = some row → s.table key = some row) →
      (∀ rest, phase = .counting rest → Counting request.limiter.windowMs request.key rest) →
      Accurate ((windows Req).update h ⟨s, .query id outside,
          { s with table }.withRequest id { request with phase }⟩)
        ({ s with table }.withRequest id { request with phase }) := by
    intro hcounts hrows hstage
    have hshrunk := @Accurate.quiet _ h s _ (.query id outside) haccurate table rfl hrows hcounts
      rfl
    refine hshrunk.reassign ?_ (fun rest hrest => hstage rest hrest) ?_ ?_
    · intro old hold
      obtain rfl := Option.some.inj (hrequest.symm.trans hold)
      rfl
    · intro key hmem
      exact absurd hmem (hshrunk.not_mem_of_counting hrequest hphase key)
    · intro hmem
      exact absurd hmem (hshrunk.not_refunded hrequest (by simp [hphase]))
  cases hserved with
  | waits hrest =>
      refine hquiet (by simp [counts, withRequest_requests]) (fun _ _ hrow => hrow) ?_
      rintro rest' hrest'
      exact Phase.counting.inj hrest' ▸ hrest
  | cleans now hrest =>
      refine hquiet (by simp [counts, withRequest_requests]) ?_ ?_
      · intro key row hrow
        exact (Option.filter_eq_some_iff.mp hrow).1
      · rintro rest' hrest'
        exact Phase.counting.inj hrest' ▸ hrest
  | throws =>
      refine hquiet (by simp [counts, withRequest_requests]) (fun _ _ hrow => hrow) ?_
      rintro rest' hrest'
      contradiction
  | counts resetTime =>
      refine haccurate.count hrequest hphase resetTime rfl ?_ ?_ (refunded_of_quiet rfl)
      · intro key hsome
        have hbefore : (if (s.table key).isSome then h.counted key else ∅) = h.counted key := by
          split
          · rfl
          next hnone => exact (haccurate.closed key (by simpa using hnone)).symm
        simp only [windows, withRequest_table, hsome, if_true, hbefore, counts,
          withRequest_requests, Option.toFinset_some, Finset.union_comm _ {id}]
        rfl
      · intro key hnone
        exact counted_of_closed hnone

/-- A successful request that is decremented in the window it was counted in. -/
theorem Accurate.decremented (haccurate : Accurate h s) {id : Nat} {outside : Outside}
    {request : Request Req} {response : IncrementResponse}
    (hrequest : s.requests id = some request) (hphase : request.phase = .counted response)
    (hskip : request.limiter.skipSuccessfulRequests = true) (hworks : outside.fails = false)
    (hintime : (s.table request.key).isSome = true → id ∈ h.counted request.key)
    (hs' : s' = { s with table := decrement outside request.key s.table }.withRequest id
      { request with phase := .finished }) :
    Accurate ((windows Req).update h ⟨s, .succeed id outside, s'⟩) s' := by
  have hrefunds : refunds ⟨s, .succeed id outside, s'⟩ = some id := by
    simp [refunds, hrequest, hskip, hworks]
  have htable : s'.table = decrement outside request.key s.table := by rw [hs']; rfl
  nth_rewrite 2 [hs']
  refine haccurate.refund hrequest hphase hworks hintime ?_ ?_
  · intro key
    have hrow := decrement_isSome outside request.key s.table key
    rw [← htable] at hrow
    cases hsome : (s.table key).isSome with
    | true => exact counted_of_quiet haccurate rfl (hrow.trans hsome)
    | false =>
        rw [haccurate.closed key (by simpa using hsome)]
        exact counted_of_closed (by simpa using hrow.trans hsome)
  · simp only [windows, hrefunds, Option.toFinset_some, Finset.union_comm _ {id}]
    rfl

/-- The counters stay accurate unless a decrement comes late. -/
theorem Accurate.step (haccurate : Accurate h s) (hact : s.act a = some s')
    (hintime : ∀ id request, refunds ⟨s, a, s'⟩ = some id → s.requests id = some request →
      (s.table request.key).isSome = true → id ∈ h.counted request.key) :
    Accurate ((windows Req).update h ⟨s, a, s'⟩) s' := by
  cases Effect.of_act hact with
  | arrive hnew => exact haccurate.arrive hnew rfl
  | @query id outside request script hrequest hphase =>
      have hstage := haccurate.stage id request script hrequest hphase
      exact haccurate.query hrequest hphase (hstage.served outside s.table)
  | @succeed id outside request response hrequest hphase =>
      by_cases hpaid : request.limiter.skipSuccessfulRequests = true ∧ outside.fails = false
      · obtain ⟨hskip, hworks⟩ := hpaid
        have hrefunds : ∀ s', refunds ⟨s, .succeed id outside, s'⟩ = some id := by
          simp [refunds, hrequest, hskip, hworks]
        simp only [hskip, if_true]
        exact haccurate.decremented hrequest hphase hskip hworks
          (fun hsome => hintime id request (hrefunds _) hrequest hsome) rfl
      · have hrefunds : ∀ s', refunds ⟨s, .succeed id outside, s'⟩ = none := by
          intro s'
          simpa [refunds, hrequest] using hpaid
        have htable : (if request.limiter.skipSuccessfulRequests = true then
            decrement outside request.key s.table else s.table) = s.table := by
          split
          next hskip =>
            have hfails : outside.fails = true := by simpa [hskip] using hpaid
            cases hrow : s.table request.key <;> simp [decrement, hrow, hfails]
          next => rfl
        rw [htable]
        have hsame : Accurate ((windows Req).update h ⟨s, .succeed id outside,
            s.withRequest id { request with phase := .finished }⟩) s :=
          haccurate.quiet rfl (fun key row hrow => hrow) rfl (hrefunds _)
        refine hsame.reassign ?_ (by simp) (by simp) (fun _ => rfl)
        intro old hold
        obtain rfl := Option.some.inj (hrequest.symm.trans hold)
        rfl

/-- A late decrement leaves its key's hits short by one. -/
theorem Accurate.not_late (haccurate : Accurate h s) (hact : s.act a = some s')
    (hunder : NeverUnder ((windows Req).update h ⟨s, a, s'⟩) s') {id : Nat} {request : Request Req}
    (hrefunds : refunds ⟨s, a, s'⟩ = some id) (hrequest : s.requests id = some request)
    (hsome : (s.table request.key).isSome = true) : id ∈ h.counted request.key := by
  by_contra hlate
  cases Effect.of_act hact with
  | arrive hnew => contradiction
  | query hrequest hphase => contradiction
  | @succeed id' outside request' response hrequest' hphase =>
      simp only [refunds, hrequest', Option.ite_none_right_eq_some, Bool.and_eq_true,
        Bool.not_eq_true', Option.some.injEq] at hrefunds
      obtain ⟨⟨hskip, hworks⟩, rfl⟩ := hrefunds
      obtain rfl := Option.some.inj (hrequest'.symm.trans hrequest)
      obtain ⟨row, hrow⟩ := Option.isSome_iff_exists.mp hsome
      simp only [hskip, if_true] at hunder
      have hafter : decrement outside request'.key s.table request'.key =
          some { row with hits := row.hits - 1 } := by
        simp [decrement, hrow, hworks]
      obtain ⟨-, hle⟩ := hunder request'.key _ hafter
      rw [charged_congr (s := s) (counted_of_quiet haccurate rfl (Option.isSome_of_mem hafter))]
        at hle
      · have hhits := haccurate.hits request'.key row hrow
        simp only at hle
        omega
      · intro i hi
        have hne : i ≠ id' := fun heq => hlate (heq ▸ hi)
        rw [withRequest_requests, if_neg hne]
      · intro i hi
        have hne : i ≠ id' := fun heq => hlate (heq ▸ hi)
        simp [windows, refunds, hrequest', hskip, hworks, hne]

end Runs

/-- In a run of requests of any limiters and keys, the stored hits of a key never fall
below zero or below its charged requests exactly if no decrement comes late. -/
theorem never_under_iff {start s : Server Req} {steps : List (Transition (Server Req) (Action Req))}
    (hstart : (limiting Req).Initial start) (hrun : (limiting Req).Run start steps s) :
    (limiting Req).Throughout start steps
        (fun earlier s => NeverUnder ((windows Req).after earlier) s) ↔
      ∀ earlier t later, steps = earlier ++ t :: later → ¬ Late earlier t := by
  refine TransitionSystem.Throughout.iff_forall_split (Q := fun earlier s =>
    Accurate ((windows Req).after earlier) s) hrun (fun earlier t => ¬ Late earlier t)
    (fun _ _ haccurate => haccurate.neverUnder) (Accurate.start hstart) ?_ ?_
  · intro earlier s a s' _ haccurate hact hintime
    rw [HistoryVariable.after_snoc]
    refine haccurate.step hact fun id request hrefunds hrequest hsome => ?_
    by_contra hlate
    exact hintime ⟨id, request, hrefunds, hrequest, hsome, hlate⟩
  · rintro earlier s a s' _ haccurate hact hunder ⟨id, request, hrefunds, hrequest, hsome, hlate⟩
    rw [HistoryVariable.after_snoc] at hunder
    exact hlate (haccurate.not_late hact hunder hrefunds hrequest hsome)

namespace Sample

def env : Settings := ⟨900000, 600000⟩

def fresh : Server Auth.Request := ⟨fun _ => none, fun _ => none⟩

theorem fresh_fresh : fresh.Fresh := ⟨fun _ => rfl, fun _ => rfl⟩

/-- A request without a session. -/
def visitor (ip : String) : Auth.Request := ⟨none, none, some ip, none⟩

/-- The request arrives at this moment and is counted. -/
def counted {Req : Type} (id : Nat) (limiter : Limiter Req) (req : Req) (now : Nat) :
    List (Action Req) :=
  [.arrive id limiter req, .query id ⟨now, false⟩, .query id ⟨now, false⟩, .query id ⟨now, false⟩]

theorem run_of_replay {Req : Type} {start s : Server Req} {actions : List (Action Req)}
    {steps : List (Transition (Server Req) (Action Req))}
    (h : TransitionSystem.replay Server.act start actions = some (steps, s)) :
    (limiting Req).Run start steps s :=
  TransitionSystem.Run.of_replay (fun _ _ _ hact => hact) h

end Sample

/-- Without decrements none is late. -/
theorem not_late_of_all {steps : List (Transition (Server Req) (Action Req))}
    (h : (steps.all fun t => (refunds t).isNone) = true)
    (earlier : List (Transition (Server Req) (Action Req)))
    (t : Transition (Server Req) (Action Req))
    (later : List (Transition (Server Req) (Action Req)))
    (hsplit : steps = earlier ++ t :: later) : ¬ Late earlier t := by
  rintro ⟨id, request, hrefunds, -⟩
  simpa [hrefunds] using List.all_eq_true.mp h t (by simp [hsplit])

/-- A login that succeeds is taken off while its row is still there. -/
theorem sample_never_under : ∃ steps s, (limiting Auth.Request).Run Sample.fresh steps s ∧
    (steps.countP fun t => (refunds t).isSome) = 1 ∧
    (limiting Auth.Request).Throughout Sample.fresh steps
      (fun earlier s => NeverUnder ((windows Auth.Request).after earlier) s) := by
  have hcounted := @Sample.run_of_replay _ Sample.fresh _ (Sample.counted 1
    (authLimiter Sample.env) (Sample.visitor "203.0.113.7") 0) _ rfl
  have hrun := hcounted.snoc (show Server.act _ (.succeed 1 ⟨900, false⟩) = some _ from rfl)
  refine ⟨_, _, hrun, by decide, (never_under_iff Sample.fresh_fresh hrun).mpr ?_⟩
  refine TransitionSystem.Throughout.forall_split_snoc.mpr ⟨not_late_of_all rfl, ?_⟩
  rintro ⟨id, request, hrefunds, hrequest, -, hlate⟩
  obtain rfl : 1 = id := Option.some.inj hrefunds
  obtain rfl := Option.some.inj hrequest
  exact hlate (by decide)

/-- Two attempts of one address are counted, the second just before their window ends, and
a third just after. When the second then succeeds, the third is no longer counted. -/
theorem late_success : ¬ ∀ (s : Server Auth.Request) steps,
    (limiting Auth.Request).Run Sample.fresh steps s →
      NeverUnder ((windows Auth.Request).after steps) s := by
  intro hclaim
  let attempt (id now : Nat) : List (Action Auth.Request) :=
    Sample.counted id (authLimiter Sample.env) (Sample.visitor "203.0.113.7") now
  have hrun := @Sample.run_of_replay _ Sample.fresh _
    (attempt 1 0 ++ attempt 2 599999 ++ attempt 3 600001 ++ [.succeed 2 ⟨600002, false⟩]) _ rfl
  obtain ⟨-, hle⟩ := hclaim _ _ hrun "auth:203.0.113.7" ⟨0, 1200001⟩ (by decide)
  exact absurd hle (by decide)

end StellarKraal.RateLimit
