import StellarKraal.OracleBridge.State

/-!
# Promotion

`promote` restores the latest backup, proves the signing key reachable and only
then declares the instance primary. The restore has by then written the role that
is in the backup.
-/

namespace StellarKraal.OracleBridge

open Operation (ask)

def promote : Operation BridgeState := do
  -- No `asRole`: the state on disk has the backup's own role from here on.
  let restored ← restoreFromBackup none
  match ← ask (.resolveSecret (restored.get "signingKeySecretRef")) with
  | none => throw (.unresolvedSecret (restored.get "signingKeySecretRef"))
  | some _ => saveState (restored.withRole .primary)

/-! ## Running an operation alone -/

/-- The state file of an instance and the shared `latest.json`. -/
structure Files where
  state : File
  latest : File

/-- The clock and the secrets provider. -/
structure Outside where
  now : String
  resolveSecret : Option Json → Option String

def serve (outside : Outside) : Script.Service Query.Reply Files
  | .readState, files => (files.state, files)
  | .writeState state, files => ((), { files with state := .holds (.object state) })
  | .readLatest, files => (files.latest, files)
  | .writeLatest manifest, files => ((), { files with latest := .holds manifest })
  | .now, files => (outside.now, files)
  | .resolveSecret ref, files => (outside.resolveSecret ref, files)

namespace Operation

variable {α β : Type} {outside : Outside}

def exec (outside : Outside) (operation : Operation α) (files : Files) :
    Except BridgeError α × Files :=
  Script.run (OracleBridge.serve outside) operation.run files

@[simp] theorem exec_pure (a : α) (files : Files) : exec outside (pure a) files = (.ok a, files) :=
  rfl

@[simp] theorem exec_throw (e : BridgeError) (files : Files) :
    exec outside (throw e : Operation α) files = (.error e, files) := rfl

@[simp] theorem exec_ask (query : Query) (files : Files) : exec outside (ask query) files =
    (.ok (OracleBridge.serve outside query files).1, (OracleBridge.serve outside query files).2) :=
  rfl

theorem exec_bind (operation : Operation α) (f : α → Operation β) (files : Files) :
    exec outside (operation >>= f) files =
      match exec outside operation files with
      | (.ok a, files') => exec outside (f a) files'
      | (.error e, files') => (.error e, files') := by
  change Script.run (OracleBridge.serve outside) (operation.run >>= ExceptT.bindCont f) files = _
  rw [Script.run_bind]
  unfold exec
  rcases Script.run (OracleBridge.serve outside) operation.run files with ⟨_ | a, files'⟩
  · rfl
  · rfl

end Operation

/-- The role a state file records. -/
def File.role : File → Option Json
  | .holds value => value.fields.get "role"
  | _ => none

/-- The state a restore takes from `latest.json`, or why it takes none. -/
def File.backedUp : File → Except BridgeError BridgeState
  | .missing => .error .noBackup
  | .malformed => .error .malformedFile
  | .holds manifest => if manifest.truthy then checkedState manifest else .error .noBackup

/-- What a restore at `now` makes of a backed-up state. -/
def restoredState (now : String) (asRole : Option BridgeRole) (state : BridgeState) :
    BridgeState :=
  JsonObject.set (state.set "role" ((asRole.map BridgeRole.toJson) <|> state.get "role"))
    "updatedAt" (some (.string now))

theorem restoredState_role (now : String) (asRole : Option BridgeRole) (state : BridgeState) :
    (restoredState now asRole state).get "role" =
      ((asRole.map BridgeRole.toJson) <|> state.get "role") := by
  rw [restoredState, JsonObject.get_set_of_ne _ _ (by decide), JsonObject.get_set_self]

theorem restoredState_get_of_ne (now : String) (asRole : Option BridgeRole) (state : BridgeState)
    {key : String} (hrole : key ≠ "role") (hupdated : key ≠ "updatedAt") :
    (restoredState now asRole state).get key = state.get key := by
  rw [restoredState, JsonObject.get_set_of_ne _ _ hupdated, JsonObject.get_set_of_ne _ _ hrole]

/-- A restore that fails writes nothing. -/
theorem restoreFromBackup_exec (outside : Outside) (asRole : Option BridgeRole) (files : Files) :
    (restoreFromBackup asRole).exec outside files =
      match files.latest.backedUp with
      | .error e => (.error e, files)
      | .ok state => (.ok (restoredState outside.now asRole state),
          { files with state := .holds (.object (restoredState outside.now asRole state)) }) := by
  obtain ⟨state, latest⟩ := files
  cases latest with
  | missing => rfl
  | malformed => rfl
  | holds manifest =>
      have hread : readLatestBackup.exec outside ⟨state, .holds manifest⟩ =
          (.ok (some manifest), ⟨state, .holds manifest⟩) := rfl
      rw [restoreFromBackup, Operation.exec_bind, hread]
      cases htruthy : manifest.truthy with
      | false => simp [File.backedUp, htruthy]
      | true =>
          simp only [File.backedUp, htruthy, if_true, Operation.exec_bind]
          cases hchecked : checkedState manifest with
          | error e => rfl
          | ok restored => rfl

/-- What a promotion leaves on disk: nothing new after a bad backup, the restored
state under the backup's role if the key cannot be resolved, else a primary. -/
theorem promote_exec (outside : Outside) (files : Files) :
    promote.exec outside files =
      match files.latest.backedUp with
      | .error e => (.error e, files)
      | .ok state =>
          let restored := restoredState outside.now none state
          match outside.resolveSecret (state.get "signingKeySecretRef") with
          | none => (.error (.unresolvedSecret (state.get "signingKeySecretRef")),
              { files with state := .holds (.object restored) })
          | some _ =>
              let promoted := (BridgeState.withRole restored .primary).set "updatedAt"
                (some (.string outside.now))
              (.ok promoted, { files with state := .holds (.object promoted) }) := by
  rw [promote, Operation.exec_bind, restoreFromBackup_exec]
  cases files.latest.backedUp with
  | error e => rfl
  | ok state =>
      simp only [Operation.exec_bind, Operation.exec_ask, serve,
        restoredState_get_of_ne _ _ _ (show "signingKeySecretRef" ≠ "role" by decide)
          (show "signingKeySecretRef" ≠ "updatedAt" by decide)]
      cases outside.resolveSecret (state.get "signingKeySecretRef") with
      | none => rfl
      | some secret => rfl

/-! ## Failed promotions -/

/-- A promotion of a standby that throws leaves it a standby, exactly unless the
backup is sound, says another role than standby and names a key that cannot be
resolved. -/
theorem failed_promotion_keeps_standby_iff (outside : Outside) (files : Files)
    (hstandby : files.state.role = some BridgeRole.standby.toJson) :
    (∀ e files', promote.exec outside files = (.error e, files') →
        files'.state.role = some BridgeRole.standby.toJson) ↔
      ¬ ∃ state, files.latest.backedUp = .ok state ∧
        state.get "role" ≠ some BridgeRole.standby.toJson ∧
        outside.resolveSecret (state.get "signingKeySecretRef") = none := by
  rw [promote_exec]
  cases hbackup : files.latest.backedUp with
  | error e =>
      simp only [Prod.mk.injEq]
      refine iff_of_true ?_ (by simp)
      rintro _ _ ⟨-, rfl⟩
      exact hstandby
  | ok state =>
      cases hresolve : outside.resolveSecret (state.get "signingKeySecretRef") with
      | none =>
          have hrole : File.role (.holds (.object (restoredState outside.now none state))) =
              state.get "role" := restoredState_role outside.now none state
          simp only [hresolve]
          constructor
          · rintro hkeeps ⟨state', hstate', hother, -⟩
            obtain rfl := Except.ok.inj hstate'
            exact hother (hrole.symm.trans (hkeeps _ _ rfl))
          · rintro hsound e files' hthrown
            obtain ⟨-, rfl⟩ := Prod.mk.inj hthrown
            by_contra hother
            exact hsound ⟨state, rfl, fun h => hother (hrole.trans h), hresolve⟩
      | some secret => simp [hresolve]

/-! A backup taken by a primary, and providers that know its key or do not. -/

namespace Sample

def config : BridgeConfig where
  role := .primary
  network := "testnet"
  rpcUrl := "https://soroban-testnet.stellar.org"
  contractId := "CTESTCONTRACT"
  signingKeySecretRef := "arn:aws:secretsmanager:oracle"

def stateOf (role : BridgeRole) : BridgeState :=
  let made := (defaultState { config with role }).exec ⟨"", fun _ => none⟩ ⟨.missing, .missing⟩
  made.1.toOption.getD []

/-- A standby next to the backup of a primary. -/
def files : Files where
  state := .holds (.object (stateOf .standby))
  latest := .holds (.object [("formatVersion", .number 1), ("createdAt", .string ""),
    ("state", .object (stateOf .primary))])

/-- A provider that refuses every reference. -/
def refusing : Outside := ⟨"", fun _ => none⟩

end Sample

/-- The sample promotion without its backup throws and leaves a standby. -/
theorem sample_promotion_safe :
    ∃ e files', promote.exec Sample.refusing { Sample.files with latest := .missing } =
      (.error e, files') ∧ files'.state.role = some BridgeRole.standby.toJson := by
  refine ⟨_, _, rfl, ?_⟩
  refine (failed_promotion_keeps_standby_iff Sample.refusing
    { Sample.files with latest := .missing } rfl).mpr ?_ _ _ rfl
  rintro ⟨state, hbackup, -⟩
  contradiction

/-- With a provider that refuses, the promotion throws and the file says primary. -/
theorem failed_promotion_leaves_primary :
    ¬ ∀ (outside : Outside) (files : Files), files.state.role = some BridgeRole.standby.toJson →
      ∀ e files', promote.exec outside files = (.error e, files') →
        files'.state.role = some BridgeRole.standby.toJson := by
  intro hall
  have hrole : some BridgeRole.primary.toJson = some BridgeRole.standby.toJson :=
    hall Sample.refusing Sample.files rfl _ _ rfl
  simp [BridgeRole.toJson] at hrole

end StellarKraal.OracleBridge
