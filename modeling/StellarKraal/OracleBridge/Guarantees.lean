import StellarKraal.OracleBridge.Instance

/-!
# What an instance guarantees

Other processes may reach the files between any two accesses of a callback. What a
callback writes, and the mode it ends in, follows from the role its reads find.
-/

namespace StellarKraal.OracleBridge

open Operation (ask)

/-! ## What operations guarantee -/

namespace Operation

variable {α β : Type} {rely : (query : Query) → query.Reply → Prop} {asks : Query → Prop}

/-- The guarantee of the script, with a say about the result only where there is one. -/
def Guarantees (rely : (query : Query) → query.Reply → Prop) (asks : Query → Prop)
    (ends : α → Prop) (operation : Operation α) : Prop :=
  Script.Guarantees rely asks (fun result => ∀ a, result = .ok a → ends a) operation.run

variable {ends : α → Prop}

theorem guarantees_pure {a : α} (h : ends a) :
    Operation.Guarantees rely asks ends (pure a : Operation α) := by
  intro a' ha'
  obtain rfl := Except.ok.inj ha'
  exact h

theorem guarantees_throw (e : BridgeError) :
    Operation.Guarantees rely asks ends (throw e : Operation α) := by
  intro a ha
  contradiction

theorem guarantees_ask {query : Query} (hasks : asks query) :
    Operation.Guarantees rely asks (rely query) (ask query) := by
  refine ⟨hasks, fun reply hreply a ha => ?_⟩
  obtain rfl := Except.ok.inj ha
  exact hreply

theorem guarantees_bind {middle : α → Prop} {ends : β → Prop} {operation : Operation α}
    {f : α → Operation β} (h : Operation.Guarantees rely asks middle operation)
    (hf : ∀ a, middle a → Operation.Guarantees rely asks ends (f a)) :
    Operation.Guarantees rely asks ends (operation >>= f) := by
  have hbind : Script.Guarantees rely asks (fun result => ∀ b, result = .ok b → ends b)
      (operation.run >>= ExceptT.bindCont f) := by
    apply Script.Guarantees.bind h
    intro result hresult
    cases result with
    | error e => exact guarantees_throw e
    | ok a => exact hf a (hresult a rfl)
  exact hbind

end Operation

/-- The value of a file that parses. -/
def File.loaded : File → Option Json
  | .missing | .malformed | .holds .null => none
  | .holds value => some value

section

variable {rely : (query : Query) → query.Reply → Prop} {asks : Query → Prop}

theorem loadState_guarantees (hasks : asks .readState) :
    Operation.Guarantees rely asks
      (fun onDisk => ∃ file, rely .readState file ∧ file ≠ .malformed ∧ onDisk = file.loaded)
      loadState := by
  refine ⟨hasks, fun file hfile => ?_⟩
  cases file with
  | missing => exact Operation.guarantees_pure ⟨.missing, hfile, nofun, rfl⟩
  | malformed => exact Operation.guarantees_throw _
  | holds value =>
      have hloaded : ∃ file, rely .readState file ∧ file ≠ .malformed ∧
          (File.holds value).loaded = file.loaded := ⟨_, hfile, nofun, rfl⟩
      cases value with
      | null => exact Operation.guarantees_pure hloaded
      | _ => exact Operation.guarantees_pure hloaded

theorem isPrimary_set_of_ne (state : BridgeState) {key : String} (value : Option Json)
    (h : key ≠ "role") : BridgeState.isPrimary (state.set key value) = state.isPrimary := by
  rw [BridgeState.isPrimary, JsonObject.get_set_of_ne _ _ h.symm, BridgeState.isPrimary]

theorem isPrimary_set_role (state : BridgeState) (value : Option Json) :
    BridgeState.isPrimary (state.set "role" value) = saysPrimary value := by
  rw [BridgeState.isPrimary, JsonObject.get_set_self]

/-- A save writes the role of the state it is given, and nothing before. -/
theorem saveState_guarantees (state : BridgeState) (hnow : asks .now)
    (hwrite : ∀ saved : BridgeState, saved.isPrimary = state.isPrimary → asks (.writeState saved)) :
    Operation.Guarantees rely asks (fun saved => saved.isPrimary = state.isPrimary)
      (saveState state) := by
  apply Operation.guarantees_bind (Operation.guarantees_ask hnow)
  intro now _
  have hrole := isPrimary_set_of_ne state (some (.string now)) (show "updatedAt" ≠ "role" by decide)
  apply Operation.guarantees_bind (Operation.guarantees_ask (hwrite _ hrole))
  intro _ _
  exact Operation.guarantees_pure hrole

/-- Whether a state read from the file, or made up in its place, is primary. -/
def File.startsPrimary (config : BridgeConfig) (file : File) : Bool :=
  match file.loaded with
  | some value => BridgeState.isPrimary value.fields
  | none => decide (config.role = .primary)

theorem loadOrInitState_guarantees (config : BridgeConfig) (hread : asks .readState)
    (hnow : asks .now) :
    Operation.Guarantees rely asks
      (fun state => ∃ file, rely .readState file ∧ state.isPrimary = file.startsPrimary config)
      (loadOrInitState config) := by
  apply Operation.guarantees_bind (loadState_guarantees hread)
  rintro onDisk ⟨file, hfile, -, rfl⟩
  cases hloaded : file.loaded with
  | some value =>
      refine Operation.guarantees_pure ⟨file, hfile, ?_⟩
      simp only [File.startsPrimary, hloaded]
  | none =>
      apply Operation.guarantees_bind (Operation.guarantees_ask hnow)
      intro now _
      refine Operation.guarantees_pure ⟨file, hfile, ?_⟩
      simp only [File.startsPrimary, hloaded]
      cases config with
      | mk role => cases role <;> rfl

theorem createBackup_guarantees (hread : asks .readState) (hnow : asks .now)
    (hlatest : ∀ manifest, asks (.writeLatest manifest)) :
    Operation.Guarantees rely asks (fun _ => True) createBackup := by
  apply Operation.guarantees_bind (loadState_guarantees hread)
  intro onDisk _
  cases onDisk with
  | none => exact Operation.guarantees_throw _
  | some state =>
      cases htruthy : state.truthy with
      | false =>
          simp only [htruthy]
          exact Operation.guarantees_throw _
      | true =>
          simp only [htruthy, if_true]
          apply Operation.guarantees_bind (Operation.guarantees_ask hnow)
          intro now _
          apply Operation.guarantees_bind (Operation.guarantees_ask (hlatest _))
          exact fun _ _ => Operation.guarantees_pure trivial

/-- A restore writes the role it is told, or else the backup's. -/
theorem restoreFromBackup_guarantees (asRole : Option BridgeRole) (hread : asks .readLatest)
    (hnow : asks .now) (hwrite : ∀ saved : BridgeState,
      (∀ role, asRole = some role → saved.isPrimary = decide (role = .primary)) →
        asks (.writeState saved)) :
    Operation.Guarantees rely asks
      (fun saved => ∀ role, asRole = some role → saved.isPrimary = decide (role = .primary))
      (restoreFromBackup asRole) := by
  have hread' : Operation.Guarantees rely asks (fun _ => True) readLatestBackup := by
    refine ⟨hread, fun file _ => ?_⟩
    cases file with
    | malformed => exact Operation.guarantees_throw _
    | _ => exact Operation.guarantees_pure trivial
  apply Operation.guarantees_bind hread'
  intro manifest _
  cases manifest with
  | none => exact Operation.guarantees_throw _
  | some manifest =>
      cases htruthy : manifest.truthy with
      | false =>
          simp only [htruthy]
          exact Operation.guarantees_throw _
      | true =>
          simp only [htruthy, if_true]
          cases hchecked : checkedState manifest with
          | error e => exact Operation.guarantees_throw e
          | ok state =>
              have hrole : ∀ saved : BridgeState,
                  saved.isPrimary = BridgeState.isPrimary (state.set "role"
                    ((asRole.map BridgeRole.toJson) <|> state.get "role")) →
                  ∀ role, asRole = some role → saved.isPrimary = decide (role = .primary) := by
                rintro saved hsaved role rfl
                rw [hsaved, isPrimary_set_role]
                cases role <;> rfl
              apply Script.Guarantees.mono_ends (saveState_guarantees _ hnow
                fun saved hsaved => hwrite saved (hrole saved hsaved))
              exact fun result hresult saved hsaved => hrole saved (hresult saved hsaved)

end

/-! ## What callbacks guarantee -/

/-- Reads of the state file give one of which `fact` holds. -/
def Query.Reads (fact : File → Prop) : (query : Query) → query.Reply → Prop
  | .readState, file => fact file
  | _, _ => True

/-- Writes to the state file say primary or do not, as told. -/
def Query.WritesRole (primary : Bool) : Query → Prop
  | .writeState state => state.isPrimary = primary
  | _ => True

/-- The process goes on as a primary, in memory too. -/
def Outcome.Primary (outcome : Outcome) : Prop :=
  ∃ state : BridgeState, state.isPrimary = true ∧ outcome = some (.primary, state)

/-- The process has exited or is in a mode other than primary. -/
def Outcome.Subordinate (outcome : Outcome) : Prop :=
  ∀ mode state, outcome = some (mode, state) → mode ≠ .primary

theorem File.startsPrimary_of_isPrimary (config : BridgeConfig) {file : File}
    (h : file.isPrimary = true) : file.startsPrimary config = true := by
  cases file with
  | missing => contradiction
  | malformed => contradiction
  | holds value =>
      cases value with
      | null => contradiction
      | _ => exact h

theorem startPrimaryLoops_guarantees {fact : File → Prop} (primary : Bool) :
    startPrimaryLoops.Guarantees (Query.Reads fact) (Query.WritesRole primary) fun _ => True := by
  apply Script.Guarantees.bind (createBackup_guarantees trivial trivial fun _ => trivial)
  exact fun _ _ => trivial

theorem switchToPrimary_guarantees (config : BridgeConfig) (state : BridgeState) :
    (switchToPrimary config state).Guarantees (Query.Reads (·.isPrimary = true))
      (Query.WritesRole true) Outcome.Primary := by
  -- A file that says primary parses, so the load is not the throwing one.
  refine ⟨trivial, fun file (hfile : file.isPrimary = true) => ?_⟩
  have hswitched : ∀ loaded : BridgeState, loaded.isPrimary = true →
      (do startPrimaryLoops; return some (Mode.primary, loaded) :
        Script Query.Reply Outcome).Guarantees (Query.Reads (·.isPrimary = true))
          (Query.WritesRole true) Outcome.Primary := by
    intro loaded hloaded
    apply Script.Guarantees.bind (startPrimaryLoops_guarantees true)
    exact fun _ _ => ⟨loaded, hloaded, rfl⟩
  cases file with
  | missing => contradiction
  | malformed => contradiction
  | holds value =>
      cases value with
      | null => contradiction
      | _ => exact hswitched _ hfile

theorem warmSync_guarantees (config : BridgeConfig) (state : BridgeState) :
    (warmSync config state).Guarantees (Query.Reads fun _ => True) (Query.WritesRole false)
      Outcome.Subordinate := by
  have hsync : Operation.Guarantees (Query.Reads fun _ => True) (Query.WritesRole false)
      (fun _ => True) (syncFromBackup config) := by
    apply Operation.guarantees_bind
    · exact restoreFromBackup_guarantees (some .standby) trivial trivial
        fun saved hsaved => hsaved .standby rfl
    · intro _ _
      have hload : Operation.Guarantees (Query.Reads fun _ => True) (Query.WritesRole false) _
          (loadOrInitState config) := loadOrInitState_guarantees config trivial trivial
      exact hload.mono_ends fun _ _ _ _ => trivial
  apply Script.Guarantees.bind hsync
  intro result _
  cases result with
  | error e => rintro mode' state' ⟨⟩; decide
  | ok synced => rintro mode' state' ⟨⟩; decide

/-- A tick looks at the role in the file, and what it does next depends on that. -/
theorem tick_next (config : BridgeConfig) (state : BridgeState) :
    ∃ next : File → Script Query.Reply Outcome, tick config state = .ask .readState next ∧
      (∀ file, file.isPrimary = true → next file = switchToPrimary config state) ∧
      ∀ file, file.isPrimary = false → (next file).Guarantees (Query.Reads fun _ => True)
        (Query.WritesRole false) Outcome.Subordinate := by
  have hsync := warmSync_guarantees config state
  refine ⟨_, rfl, fun file hfile => ?_, fun file hfile => ?_⟩
  · cases file with
    | missing => contradiction
    | malformed => contradiction
    | holds value =>
        cases value with
        | null => contradiction
        | _ => exact if_pos hfile
  · have hskip : ∀ onDisk : BridgeState, onDisk.isPrimary = false →
        (if onDisk.isPrimary then switchToPrimary config state
          else warmSync config state).Guarantees (Query.Reads fun _ => True)
            (Query.WritesRole false) Outcome.Subordinate := by
      intro onDisk honDisk
      rwa [if_neg (by simp [honDisk])]
    cases file with
    | missing => exact hsync
    | malformed => rintro mode' state' ⟨⟩; decide
    | holds value =>
        cases value with
        | null => exact hsync
        | _ => exact hskip _ hfile

/-- A tick that finds a primary makes the process one. -/
theorem tick_switches (config : BridgeConfig) (state : BridgeState) :
    (tick config state).Guarantees (Query.Reads (·.isPrimary = true)) (Query.WritesRole true)
      Outcome.Primary := by
  obtain ⟨next, htick, hswitch, -⟩ := tick_next config state
  rw [htick]
  refine ⟨trivial, fun file hfile => ?_⟩
  rw [hswitch file hfile]
  exact switchToPrimary_guarantees config state

theorem tick_stands_by (config : BridgeConfig) (state : BridgeState) :
    (tick config state).Guarantees (Query.Reads (·.startsPrimary config = false))
      (Query.WritesRole false) Outcome.Subordinate := by
  obtain ⟨next, htick, -, hsync⟩ := tick_next config state
  rw [htick]
  refine ⟨trivial, fun (file : File) (hfile : file.startsPrimary config = false) => ?_⟩
  have hstandby : file.isPrimary = false := by
    by_contra hprimary
    rw [File.startsPrimary_of_isPrimary config (by simpa using hprimary)] at hfile
    contradiction
  refine (hsync file hstandby).mono ?_ (fun _ h => h) (fun _ h => h)
  intro query reply _
  cases query <;> trivial

theorem startup_stands_by (config : BridgeConfig) :
    (startup config).Guarantees (Query.Reads (·.startsPrimary config = false))
      (Query.WritesRole false) Outcome.Subordinate := by
  have hload : Operation.Guarantees (Query.Reads (·.startsPrimary config = false))
      (Query.WritesRole false) _ (loadOrInitState config) :=
    loadOrInitState_guarantees config trivial trivial
  apply Script.Guarantees.bind hload
  intro result hresult
  cases result with
  | error e => exact fun mode' state' h => nomatch h
  | ok state =>
      obtain ⟨file, hfile, hrole⟩ := hresult state rfl
      have hstandby : state.isPrimary = false := hrole.trans hfile
      apply Script.Guarantees.bind
        (saveState_guarantees state trivial fun saved hsaved => hsaved.trans hstandby)
      intro _ _
      rw [if_neg (by simp [hstandby])]
      rintro mode' state' ⟨⟩
      decide

/-- The callbacks of a primary leave it one, and the file too. -/
theorem Callback.script_guarantees (config : BridgeConfig) {state : BridgeState}
    (hstate : state.isPrimary = true) {callback : Callback} (hmode : callback.mode = .primary) :
    (callback.script config state).Guarantees (Query.Reads (·.isPrimary = true))
      (Query.WritesRole true) Outcome.Primary := by
  cases callback with
  | tick => contradiction
  | backup =>
      apply Script.Guarantees.bind (createBackup_guarantees trivial trivial fun _ => trivial)
      exact fun _ _ => ⟨state, hstate, rfl⟩
  | submitted price submittedAt =>
      have hsubmitted : (state.submitted price submittedAt).isPrimary = true := by
        rw [BridgeState.submitted, isPrimary_set_of_ne _ _ (by decide),
          isPrimary_set_of_ne _ _ (by decide), isPrimary_set_of_ne _ _ (by decide)]
        exact hstate
      apply Script.Guarantees.bind
        (saveState_guarantees _ trivial fun saved hsaved => hsaved.trans hsubmitted)
      exact fun _ _ => ⟨_, hsubmitted, rfl⟩

/-! ## Steps of a process -/

section

variable {outside : Outside} {files : Files} {fact : File → Prop} {primary : Bool}

theorem serve_reads (h : fact files.state) (query : Query) :
    query.Reads fact (serve outside query files).1 := by
  cases query with
  | readState => exact h
  | _ => trivial

/-- What holds of every state a script may write stays true of the file. -/
theorem serve_writes (fact : File → Prop)
    (hwrite : ∀ state : BridgeState, state.isPrimary = primary → fact (.holds (.object state)))
    (hfile : fact files.state) {query : Query} (h : query.WritesRole primary) :
    fact (serve outside query files).2.state := by
  cases query with
  | writeState state => exact hwrite state h
  | _ => exact hfile

variable {process process' : Process} {script : Script Query.Reply Outcome}

theorem Process.rest_of_running (h : process.running = some script) : process.rest = script := by
  rw [Process.rest, h, Option.getD_some]

theorem Process.rest_of_idle (h : process.running = none) :
    process.rest = .done (some (process.mode, process.state)) := by
  rw [Process.rest, h, Option.getD_none]

/-- The process rule: a callback that finds in the file what it relies on and keeps
it there has the same guarantee after each access. -/
theorem Process.advance_guarantees {asks : Query → Prop} {ends : Outcome → Prop}
    (h : process.rest.Guarantees (Query.Reads fact) asks ends) (hfile : fact files.state)
    (hrunning : process.running = some script)
    (hprocess : process.continued (script.step (serve outside) files).1 = some process') :
    process'.rest.Guarantees (Query.Reads fact) asks ends := by
  rw [Process.rest_of_running hrunning] at h
  rw [Process.continued_rest hprocess]
  exact h.step rfl (serve_reads hfile)

theorem Process.advance_file (fact : File → Prop) {ends : Outcome → Prop}
    {rely : (query : Query) → query.Reply → Prop}
    (h : process.rest.Guarantees rely (Query.WritesRole primary) ends)
    (hwrite : ∀ state : BridgeState, state.isPrimary = primary → fact (.holds (.object state)))
    (hfile : fact files.state) (hrunning : process.running = some script) :
    fact (script.step (serve outside) files).2.state := by
  rw [Process.rest_of_running hrunning] at h
  apply h.step_store rfl (fun files : Files => fact files.state) hfile
  exact fun query hquery => serve_writes fact hwrite hfile hquery

end

end StellarKraal.OracleBridge
