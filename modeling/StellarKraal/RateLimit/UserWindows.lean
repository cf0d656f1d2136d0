import StellarKraal.RateLimit.Windows

/-!
# Windows of users

What a limiter with the same queries would keep if it counted by user. As long as every
key serves one user, who comes from nowhere else, its windows are those of the keys.
-/

namespace StellarKraal.RateLimit

open TransitionSystem (Transition HistoryVariable)

variable {Req : Type}

/-- The query the step serves, and for which request; `none` where it throws. -/
def served (t : Transition (Server Req) (Action Req)) : Option (Nat × Query) :=
  match t.action with
  | .query id outside =>
      match t.before.requests id with
      | some ⟨_, _, .counting (.ask query _)⟩ => if outside.fails then none else some (id, query)
      | _ => none
  | _ => none

structure UserWindow where
  resetTime : Nat
  requests : Finset Nat

def UserWindow.add (window : UserWindow) (id : Nat) : UserWindow :=
  { window with requests := insert id window.requests }

/-- The windows of a limiter that answers the same queries by user. -/
def userWindows (Req : Type) (userOf : Nat → String) :
    HistoryVariable (Server Req) (Action Req) (String → Option UserWindow) where
  start := fun _ => none
  update h t :=
    match served t with
    | some (_, .deleteExpired now) => fun user =>
        (h user).filter fun window => !decide (window.resetTime < now)
    | some (id, .upsert _ resetTime) =>
        Function.update h (userOf id)
          (some (((h (userOf id)).getD ⟨resetTime, ∅⟩).add id))
    | _ => h

/-- The user's requests in the present window, under any key. -/
def ofUser (userOf : Nat → String) (earlier : List (Transition (Server Req) (Action Req)))
    (user : String) : Finset Nat :=
  (((userWindows Req userOf).after earlier user).map (·.requests)).getD ∅

/-- What the window of a user is made from: clean-ups, whoever's, and the user's requests. -/
inductive Seen
  | cleaned (now : Nat)
  | counted (id resetTime : Nat)

def seenBy (userOf : Nat → String) (user : String) (t : Transition (Server Req) (Action Req)) :
    Option Seen :=
  match served t with
  | some (_, .deleteExpired now) => some (.cleaned now)
  | some (id, .upsert _ resetTime) =>
      if userOf id = user then some (.counted id resetTime) else none
  | _ => none

def Seen.apply (window : Option UserWindow) : Seen → Option UserWindow
  | .cleaned now => window.filter fun window => !decide (window.resetTime < now)
  | .counted id resetTime => some ((window.getD ⟨resetTime, ∅⟩).add id)

theorem userWindows_update (userOf : Nat → String) (user : String)
    (g : String → Option UserWindow) (t : Transition (Server Req) (Action Req)) :
    (userWindows Req userOf).update g t user =
      ((seenBy userOf user t).toList).foldl Seen.apply (g user) := by
  simp only [userWindows, seenBy]
  generalize served t = query
  rcases query with _ | ⟨id, _ | now | ⟨key, resetTime⟩⟩
  · rfl
  · rfl
  · rfl
  · by_cases huser : userOf id = user
    · subst huser
      simp [Seen.apply]
    · simp [Function.update_of_ne (Ne.symm huser), huser]

theorem userWindows_after (userOf : Nat → String)
    (earlier : List (Transition (Server Req) (Action Req))) (user : String) :
    (userWindows Req userOf).after earlier user =
      (earlier.filterMap (seenBy userOf user)).foldl Seen.apply none := by
  induction earlier using List.reverseRecOn with
  | nil => rfl
  | append_singleton earlier t ih =>
      rw [HistoryVariable.after_snoc, userWindows_update, ih, List.filterMap_append,
        List.foldl_append]
      cases hseen : seenBy userOf user t <;> simp [hseen]

/-- Nothing else of a run has an influence on the user's requests. -/
theorem ofUser_eq (userOf : Nat → String) (earlier : List (Transition (Server Req) (Action Req)))
    (user : String) : ofUser userOf earlier user =
      (((earlier.filterMap (seenBy userOf user)).foldl Seen.apply none).map
        (·.requests)).getD ∅ := by
  rw [ofUser, userWindows_after]

theorem served_of_seenBy {userOf : Nat → String} {user : String}
    {t : Transition (Server Req) (Action Req)} {id resetTime : Nat}
    (h : seenBy userOf user t = some (.counted id resetTime)) :
    userOf id = user ∧ ∃ query, served t = some (id, query) := by
  unfold seenBy at h
  split at h
  next => simp at h
  next id' key resetTime' hserved =>
    obtain ⟨huser, hsame⟩ := Option.ite_none_right_eq_some.mp h
    obtain ⟨rfl, -⟩ := Seen.counted.inj (Option.some.inj hsame)
    exact ⟨huser, _, hserved⟩
  next => contradiction

/-- A window is of requests that were seen to be counted. -/
theorem counted_of_window {seen : List Seen} : ∀ window, seen.foldl Seen.apply none = some window →
    ∀ i ∈ window.requests, ∃ resetTime, .counted i resetTime ∈ seen := by
  induction seen using List.reverseRecOn with
  | nil => simp
  | append_singleton seen event ih =>
      intro window hwindow i hi
      rw [List.foldl_append, List.foldl_cons, List.foldl_nil] at hwindow
      have hbefore : ∀ old, seen.foldl Seen.apply none = some old → i ∈ old.requests →
          ∃ resetTime, .counted i resetTime ∈ seen ++ [event] := by
        intro old hold hmem
        obtain ⟨resetTime, hcounted⟩ := ih old hold i hmem
        exact ⟨resetTime, List.mem_append_left _ hcounted⟩
      cases event with
      | cleaned now => exact hbefore window (Option.filter_eq_some_iff.mp hwindow).1 hi
      | counted id resetTime =>
          obtain rfl := Option.some.inj hwindow
          rcases Finset.mem_insert.mp hi with rfl | hi
          · exact ⟨resetTime, List.mem_append_right _ List.mem_cons_self⟩
          · cases hold : seen.foldl Seen.apply none with
            | none => simp [hold] at hi
            | some old => exact hbefore old hold (by simpa [hold] using hi)

/-- A user's window is of the user's requests. -/
theorem served_of_mem_ofUser {userOf : Nat → String}
    {earlier : List (Transition (Server Req) (Action Req))} {user : String} {i : Nat}
    (h : i ∈ ofUser userOf earlier user) :
    userOf i = user ∧ ∃ t ∈ earlier, ∃ query, served t = some (i, query) := by
  rw [ofUser_eq] at h
  cases hwindow : (earlier.filterMap (seenBy userOf user)).foldl Seen.apply none with
  | none => simp [hwindow] at h
  | some window =>
      have hmem : i ∈ window.requests := by simpa [hwindow] using h
      obtain ⟨resetTime, hcounted⟩ := counted_of_window window hwindow i hmem
      obtain ⟨t, ht, hseen⟩ := List.mem_filterMap.mp hcounted
      obtain ⟨huser, query, hserved⟩ := served_of_seenBy hseen
      exact ⟨huser, t, ht, query, hserved⟩

/-! ## What a step does -/

/-- A step leaves the rows, cleans up, or counts a request. -/
inductive Tells (s : Server Req) (a : Action Req) (s' : Server Req) : Prop
  | quiet (htable : s'.table = s.table) (hcounts : counts ⟨s, a, s'⟩ = none)
      (hserved : ∀ userOf g, (userWindows Req userOf).update g ⟨s, a, s'⟩ = g)
  | cleaned {id now : Nat} (htable : s'.table = s.table.deleteExpired now)
      (hcounts : counts ⟨s, a, s'⟩ = none)
      (hserved : served ⟨s, a, s'⟩ = some (id, .deleteExpired now))
  | counted {id resetTime : Nat} {request : Request Req}
      {script : Script Query.Reply (Option IncrementResponse)} {response : IncrementResponse}
      (hrequest : s.requests id = some request) (hphase : request.phase = .counting script)
      (hafter : s' = { s with
          table := Function.update s.table request.key (some (s.table.hit request.key resetTime))
        }.withRequest id { request with phase := .counted response })
      (hcounts : counts ⟨s, a, s'⟩ = some id)
      (hserved : served ⟨s, a, s'⟩ = some (id, .upsert request.key resetTime))

section Steps

variable {h : Windows} {g : String → Option UserWindow} {s s' : Server Req} {a : Action Req}
  {userOf : Nat → String}

theorem Tells.of_query {id : Nat} {outside : Outside} {request : Request Req}
    {script : Script Query.Reply (Option IncrementResponse)}
    (hrequest : s.requests id = some request) (hphase : request.phase = .counting script)
    (hstage : Counting request.limiter.windowMs request.key script) :
    Tells s (.query id outside)
      ({ s with table := (script.step (serve outside) s.table).2 }.withRequest id
        { request with phase := .ofScript (script.step (serve outside) s.table).1 }) := by
  have hrequest' : s.requests id = some ⟨request.limiter, request.req, .counting script⟩ := by
    rw [hrequest, ← hphase]
  generalize request.limiter.windowMs = windowMs at hstage
  generalize hkey : request.key = key at hstage
  cases hstage with
  | starting =>
      refine .quiet rfl ?_ fun userOf g => ?_
      · simp [counts, withRequest_requests, Script.step, increment, ask, Phase.ofScript, bind,
          Script.bind]
      · simp only [userWindows, served, hrequest', increment, ask, bind, Script.bind]
        cases outside.fails <;> rfl
  | cleaning now =>
      cases hfails : outside.fails with
      | true =>
          refine .quiet ?_ ?_ fun userOf g => ?_
          · simp [Script.step, serve, hfails, ask, bind, Script.bind]
          · simp [counts, withRequest_requests, Script.step, serve, hfails, ask, bind,
              Script.bind, Phase.ofScript, pure]
          · simp [userWindows, served, hrequest', hfails, ask, bind, Script.bind]
      | false =>
          refine @Tells.cleaned _ _ _ _ id now ?_ ?_ ?_
          · simp [Script.step, serve, hfails, ask, bind, Script.bind]
          · simp [counts, withRequest_requests, Script.step, serve, hfails, ask, bind,
              Script.bind, upsert, Phase.ofScript]
          · simp [served, hrequest', hfails, ask, bind, Script.bind]
  | upserting resetTime =>
      cases hfails : outside.fails with
      | true =>
          refine .quiet ?_ ?_ fun userOf g => ?_
          · simp [Script.step, serve, hfails, upsert, ask, bind, Script.bind]
          · simp [counts, withRequest_requests, Script.step, serve, hfails, upsert, ask, bind,
              Script.bind, Phase.ofScript, pure]
          · simp [userWindows, served, hrequest', hfails, upsert, ask, bind, Script.bind]
      | false =>
          subst hkey
          refine @Tells.counted _ _ _ _ id resetTime request _
            ⟨(s.table.hit request.key resetTime).hits,
              (s.table.hit request.key resetTime).resetTime⟩ hrequest hphase ?_ ?_ ?_
          · simp [Script.step, serve, hfails, upsert, ask, bind, Script.bind, Phase.ofScript, pure]
          · simp [counts, withRequest_requests, Script.step, serve, hfails, upsert, ask, bind,
              Script.bind, Phase.ofScript, pure]
          · simp [served, hrequest', hfails, upsert, ask, bind, Script.bind]

theorem Tells.of_act (haccurate : Accurate h s) (hact : s.act a = some s')
    (hrefunds : refunds ⟨s, a, s'⟩ = none) : Tells s a s' := by
  cases Effect.of_act hact with
  | arrive hnew => exact .quiet rfl rfl fun _ _ => rfl
  | query hrequest hphase =>
      exact .of_query hrequest hphase (haccurate.stage _ _ _ hrequest hphase)
  | @succeed id outside request response hrequest hphase =>
      refine .quiet ?_ rfl fun _ _ => rfl
      have hfree : request.limiter.skipSuccessfulRequests = true → outside.fails = true := by
        simpa [refunds, hrequest] using hrefunds
      rw [withRequest_table]
      split
      next hskip =>
        cases hrow : s.table request.key <;> simp [decrement, hrow, hfree hskip]
      next => rfl

theorem key_of_act {i : Nat} {request : Request Req} (hact : s.act a = some s')
    (hrequest : s.requests i = some request) :
    (s'.requests i).map Request.key = some request.key := by
  cases Effect.of_act hact with
  | @arrive id limiter req hnew =>
      have hne : i ≠ id := by
        rintro rfl
        simp [hnew] at hrequest
      simp [withRequest_requests, hne, hrequest]
  | @query id outside old script hold hphase =>
      rw [withRequest_requests]
      split
      next heq =>
        subst heq
        obtain rfl := Option.some.inj (hold.symm.trans hrequest)
        rfl
      next => exact congrArg (Option.map Request.key) hrequest
  | @succeed id outside old response hold hphase =>
      rw [withRequest_requests]
      split
      next heq =>
        subst heq
        obtain rfl := Option.some.inj (hold.symm.trans hrequest)
        rfl
      next => exact congrArg (Option.map Request.key) hrequest

theorem request_of_served {t : Transition (Server Req) (Action Req)} {id : Nat} {query : Query}
    (h : served t = some (id, query)) : ∃ request, t.before.requests id = some request := by
  unfold served at h
  split at h
  next id' outside _ =>
    split at h
    next request hrequest =>
      obtain ⟨rfl, -⟩ := Prod.mk.inj (Option.some.inj (Option.ite_none_left_eq_some.mp h).2)
      exact ⟨_, hrequest⟩
    next => contradiction
  next => contradiction

/-- A request of which a query was served stays there. -/
theorem exists_request_of_served {start : Server Req}
    {steps : List (Transition (Server Req) (Action Req))}
    (hrun : (limiting Req).Run start steps s) :
    ∀ t ∈ steps, ∀ id query, served t = some (id, query) →
      ∃ request, s.requests id = some request := by
  induction hrun with
  | nil => simp
  | @snoc earlier s s' a prior step ih =>
      intro t ht id query hserved
      have hbefore : ∃ request, s.requests id = some request := by
        rcases List.mem_append.mp ht with ht | ht
        · exact ih t ht id query hserved
        · obtain rfl := List.mem_singleton.mp ht
          exact request_of_served hserved
      obtain ⟨request, hrequest⟩ := hbefore
      obtain ⟨request', hrequest', -⟩ := Option.map_eq_some_iff.mp (key_of_act step hrequest)
      exact ⟨request', hrequest'⟩

/-! ## Rows and users in step -/

/-- The key's row and the user's window are of the same requests, and end together. -/
def Paired (h : Windows) (s : Server Req) (g : String → Option UserWindow) (user key : String) :
    Prop :=
  ∃ window row, g user = some window ∧ s.table key = some row ∧
    row.resetTime = window.resetTime ∧ h.charged s key = window.requests

/-- Every row is that of one user, and every user's window that of one key. -/
structure InStep (userOf : Nat → String) (h : Windows) (s : Server Req)
    (g : String → Option UserWindow) : Prop where
  rows : ∀ key, (s.table key).isSome = true → ∃ user, Paired h s g user key
  users : ∀ user, (g user).isSome = true → ∃ key, Paired h s g user key
  someone : ∀ user window, g user = some window → window.requests.Nonempty
  own : ∀ user window, g user = some window → ∀ i ∈ window.requests, userOf i = user

/-- The step counts a request where only its user has been, and its user nowhere else. -/
def Own (userOf : Nat → String) (h : Windows) (s : Server Req)
    (g : String → Option UserWindow) (request : Request Req) (id : Nat) : Prop :=
  (∀ i ∈ h.charged s request.key, userOf i = userOf id) ∧
    ∀ window, g (userOf id) = some window →
      ∀ i ∈ window.requests, (s.requests i).map Request.key = some request.key

theorem InStep.start {userOf : Nat → String} (hfresh : s.Fresh) :
    InStep userOf (windows Req).start s (userWindows Req userOf).start where
  rows key hsome := by simp [hfresh.1 key] at hsome
  users user hsome := by simp [userWindows] at hsome
  someone user window hwindow := by simp [userWindows] at hwindow
  own user window hwindow := by simp [userWindows] at hwindow

/-- What the next row says of the requests is what it said, where nothing is counted. -/
theorem charged_of_quiet (haccurate : Accurate h s) (hact : s.act a = some s')
    (hrefunds : refunds ⟨s, a, s'⟩ = none) (hcounts : counts ⟨s, a, s'⟩ = none) {key : String}
    (hsome : (s'.table key).isSome = true) :
    ((windows Req).update h ⟨s, a, s'⟩).charged s' key = h.charged s key := by
  refine charged_congr (counted_of_quiet haccurate hcounts hsome) (fun i hi => ?_) fun i _ => ?_
  · obtain ⟨request, hrequest, -⟩ := haccurate.past key i hi
    rw [hrequest, key_of_act hact hrequest, Option.map_some]
  · rw [refunded_of_quiet hrefunds]

theorem charged_of_count (haccurate : Accurate h s) {id : Nat} {request : Request Req}
    {script : Script Query.Reply (Option IncrementResponse)} {response : IncrementResponse}
    {table : Table} (hrequest : s.requests id = some request)
    (hphase : request.phase = .counting script)
    (hafter : s' = { s with table }.withRequest id { request with phase := .counted response })
    (hrefunds : refunds ⟨s, a, s'⟩ = none) (hcounts : counts ⟨s, a, s'⟩ = some id) {key : String}
    (hsome : (s'.table key).isSome = true) :
    ((windows Req).update h ⟨s, a, s'⟩).charged s' key =
      if key = request.key then insert id (h.charged s key) else h.charged s key := by
  have hcounted : ((windows Req).update h ⟨s, a, s'⟩).counted key = insert id (h.counted key) := by
    simp only [windows, hsome, if_true, hcounts]
    split
    next => simp [Finset.union_comm]
    next hnone =>
      have hclosed : h.counted key = ∅ := haccurate.closed key (by simpa using hnone)
      simp [hclosed]
  have hrefunded := refunded_of_quiet (h := h) hrefunds
  generalize (windows Req).update h ⟨s, a, s'⟩ = h' at hcounted hrefunded ⊢
  subst hafter
  exact haccurate.charged_count hrequest hphase hcounted hrefunded

variable {h' : Windows} {g' : String → Option UserWindow} {user key : String}

/-- The requests of a pair are all of its user. -/
theorem InStep.user_eq (hin : InStep userOf h s g) (hpair : Paired h s g user key) {user' : String}
    (hown : ∀ i ∈ h.charged s key, userOf i = user') : user = user' := by
  obtain ⟨window, row, hwindow, -, -, hcharged⟩ := hpair
  obtain ⟨i, hi⟩ := hin.someone user window hwindow
  rw [← hin.own user window hwindow i hi]
  exact hown i (hcharged ▸ hi)

/-- They all have its key. -/
theorem InStep.key_eq (hin : InStep userOf h s g) (hpair : Paired h s g user key) {key' : String}
    (hown : ∀ window, g user = some window →
      ∀ i ∈ window.requests, (s.requests i).map Request.key = some key') : key = key' := by
  obtain ⟨window, row, hwindow, -, -, hcharged⟩ := hpair
  obtain ⟨i, hi⟩ := hin.someone user window hwindow
  have hkey : (s.requests i).map Request.key = some key := (mem_charged.mp (hcharged ▸ hi)).2.1
  exact Option.some.inj (hkey.symm.trans (hown window hwindow i hi))

/-- Rows and windows that have ended go, those of a pair together. -/
theorem InStep.filter (hin : InStep userOf h s g) (keep : Nat → Bool)
    (htable : ∀ key, s'.table key = (s.table key).filter fun row => keep row.resetTime)
    (hwindows : ∀ user, g' user = (g user).filter fun window => keep window.resetTime)
    (hcharged : ∀ key, (s'.table key).isSome = true → h'.charged s' key = h.charged s key) :
    InStep userOf h' s' g' := by
  have hpaired : ∀ user key, Paired h s g user key →
      ((s'.table key).isSome = true ∨ (g' user).isSome = true) → Paired h' s' g' user key := by
    rintro user key ⟨window, row, hwindow, hrow, hreset, hsame⟩ hleft
    have hkeep : keep row.resetTime = true := by
      simpa [htable, hwindows, hrow, hwindow, hreset] using hleft
    have hrow' : s'.table key = some row := by
      rw [htable, hrow, Option.filter_some, if_pos hkeep]
    have hwindow' : g' user = some window := by
      rw [hwindows, hwindow, Option.filter_some, if_pos (hreset ▸ hkeep)]
    exact ⟨window, row, hwindow', hrow', hreset, by rw [hcharged key (by simp [hrow']), hsame]⟩
  have hbefore : ∀ user window, g' user = some window → g user = some window := by
    intro user window hwindow
    rw [hwindows] at hwindow
    exact (Option.filter_eq_some_iff.mp hwindow).1
  refine ⟨fun key hsome => ?_, fun user hsome => ?_, fun user window hwindow => ?_,
    fun user window hwindow => ?_⟩
  · have hrow : (s.table key).isSome = true := by
      rw [htable] at hsome
      exact Option.isSome_of_isSome_filter _ _ hsome
    obtain ⟨user, hpair⟩ := hin.rows key hrow
    exact ⟨user, hpaired user key hpair (.inl hsome)⟩
  · have hwindow : (g user).isSome = true := by
      rw [hwindows] at hsome
      exact Option.isSome_of_isSome_filter _ _ hsome
    obtain ⟨key, hpair⟩ := hin.users user hwindow
    exact ⟨key, hpaired user key hpair (.inr hsome)⟩
  · exact hin.someone user window (hbefore user window hwindow)
  · exact hin.own user window (hbefore user window hwindow)

/-- The row that counts the request and the window of its user stay a pair, or become one. -/
theorem InStep.paired_count (hin : InStep userOf h s g) (haccurate : Accurate h s) {id : Nat}
    {request : Request Req} (hown : Own userOf h s g request id) (resetTime : Nat)
    (hrow' : s'.table request.key = some (s.table.hit request.key resetTime))
    (hwindow' : g' (userOf id) = some (((g (userOf id)).getD ⟨resetTime, ∅⟩).add id))
    (hcharged : h'.charged s' request.key = insert id (h.charged s request.key)) :
    Paired h' s' g' (userOf id) request.key := by
  refine ⟨_, _, hwindow', hrow', ?_⟩
  rw [hcharged]
  cases hrow : s.table request.key with
  | some old =>
      obtain ⟨user, hpair⟩ := hin.rows request.key (by simp [hrow])
      obtain rfl := hin.user_eq hpair hown.1
      obtain ⟨window, row, hwindow, hsame, hreset, hrequests⟩ := hpair
      obtain rfl := Option.some.inj (hrow.symm.trans hsame)
      simp [Table.hit, UserWindow.add, hrow, hwindow, hreset, hrequests]
  | none =>
      -- A window of the user would be that of another key.
      have hnone : g (userOf id) = none := by
        by_contra hopen
        obtain ⟨key, hpair⟩ := hin.users (userOf id) (Option.isSome_iff_ne_none.mpr hopen)
        obtain rfl := hin.key_eq hpair hown.2
        obtain ⟨-, row, -, hsome, -⟩ := hpair
        simp [hrow] at hsome
      have hempty : h.charged s request.key = ∅ := by
        simp [Windows.charged, haccurate.closed request.key hrow]
      simp [Table.hit, UserWindow.add, hrow, hnone, hempty]

/-- Counting an own request keeps the rest as it is. -/
theorem InStep.count (hin : InStep userOf h s g) (haccurate : Accurate h s) {id : Nat}
    {request : Request Req} (hown : Own userOf h s g request id) (resetTime : Nat)
    (htable : s'.table =
      Function.update s.table request.key (some (s.table.hit request.key resetTime)))
    (hwindows : g' = Function.update g (userOf id)
      (some (((g (userOf id)).getD ⟨resetTime, ∅⟩).add id)))
    (hcharged : ∀ key, (s'.table key).isSome = true → h'.charged s' key =
      if key = request.key then insert id (h.charged s key) else h.charged s key) :
    InStep userOf h' s' g' := by
  have hnow : Paired h' s' g' (userOf id) request.key := by
    refine hin.paired_count haccurate hown resetTime (by simp [htable]) (by simp [hwindows]) ?_
    rw [hcharged request.key (by simp [htable]), if_pos rfl]
  have hother : ∀ user key, Paired h s g user key → user ≠ userOf id → key ≠ request.key →
      Paired h' s' g' user key := by
    rintro user key ⟨window, row, hwindow, hrow, hreset, hsame⟩ huser hkey
    have hrow' : s'.table key = some row := by rw [htable, Function.update_of_ne hkey, hrow]
    refine ⟨window, row, ?_, hrow', hreset, ?_⟩
    · rw [hwindows, Function.update_of_ne huser, hwindow]
    · rw [hcharged key (by simp [hrow']), if_neg hkey, hsame]
  have hwindow_of : ∀ user window, g' user = some window →
      user = userOf id ∧ window = ((g (userOf id)).getD ⟨resetTime, ∅⟩).add id ∨
        g user = some window := by
    intro user window hwindow
    rw [hwindows, Function.update_apply] at hwindow
    split at hwindow
    next heq => exact .inl ⟨heq, (Option.some.inj hwindow).symm⟩
    next => exact .inr hwindow
  refine ⟨fun key hsome => ?_, fun user hsome => ?_, fun user window hwindow => ?_,
    fun user window hwindow i hi => ?_⟩
  · by_cases hkey : key = request.key
    · exact ⟨userOf id, hkey ▸ hnow⟩
    · rw [htable, Function.update_of_ne hkey] at hsome
      obtain ⟨user, hpair⟩ := hin.rows key hsome
      have huser : user ≠ userOf id := by
        rintro rfl
        exact hkey (hin.key_eq hpair hown.2)
      exact ⟨user, hother user key hpair huser hkey⟩
  · by_cases huser : user = userOf id
    · exact ⟨request.key, huser ▸ hnow⟩
    · rw [hwindows, Function.update_of_ne huser] at hsome
      obtain ⟨key, hpair⟩ := hin.users user hsome
      have hkey : key ≠ request.key := by
        rintro rfl
        exact huser (hin.user_eq hpair hown.1)
      exact ⟨key, hother user key hpair huser hkey⟩
  · rcases hwindow_of user window hwindow with ⟨-, rfl⟩ | hold
    · exact Finset.insert_nonempty _ _
    · exact hin.someone user window hold
  · rcases hwindow_of user window hwindow with ⟨rfl, rfl⟩ | hold
    · rcases Finset.mem_insert.mp hi with rfl | hi
      · rfl
      · cases hg : g (userOf id) with
        | none => simp [hg] at hi
        | some old => exact hin.own _ old hg i (by simpa [hg] using hi)
    · exact hin.own user window hold i hi

/-- The step lemma: rows and users stay in step while the requests counted are own ones. -/
theorem InStep.step (hin : InStep userOf h s g) (haccurate : Accurate h s)
    (hact : s.act a = some s') (hrefunds : refunds ⟨s, a, s'⟩ = none)
    (hown : ∀ id request, counts ⟨s, a, s'⟩ = some id → s.requests id = some request →
      Own userOf h s g request id) :
    InStep userOf ((windows Req).update h ⟨s, a, s'⟩) s'
      ((userWindows Req userOf).update g ⟨s, a, s'⟩) := by
  cases Tells.of_act haccurate hact hrefunds with
  | quiet htable hcounts hserved =>
      rw [hserved]
      refine hin.filter (fun _ => true) ?_ ?_ fun key hsome => ?_
      · intro key
        rw [htable]
        cases s.table key <;> rfl
      · intro user
        cases g user <;> rfl
      · exact charged_of_quiet haccurate hact hrefunds hcounts hsome
  | @cleaned id now htable hcounts hserved =>
      refine hin.filter (fun resetTime => !decide (resetTime < now)) ?_ ?_ fun key hsome => ?_
      · exact fun key => congrFun htable key
      · simp [userWindows, hserved]
      · exact charged_of_quiet haccurate hact hrefunds hcounts hsome
  | @counted id resetTime request script response hrequest hphase hafter hcounts hserved =>
      refine hin.count haccurate (hown id request hcounts hrequest) resetTime (by rw [hafter]; rfl)
        (by simp [userWindows, hserved]) fun key hsome => ?_
      exact charged_of_count haccurate hrequest hphase hafter hrefunds hcounts hsome

end Steps

end StellarKraal.RateLimit
