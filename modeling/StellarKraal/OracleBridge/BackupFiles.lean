import StellarKraal.Foundation.Outcome
import StellarKraal.OracleBridge.JsonText
import StellarKraal.OracleBridge.State

/-!
# Backups on disk

The functions on states and backups with the texts of the files they read and write,
in any directories. Where several instances share the files, the coarser accesses of
the bridge's model are what these functions do.
-/

namespace StellarKraal.OracleBridge.Disk

open Except (okOr refuseIf map_eq_ok mapError_eq_ok)
open JsonText (WellFormed FieldsWellFormed)

structure Path (Directory : Type) where
  directory : Directory
  name : String
  deriving DecidableEq

/-- The text of each file; `none` where there is no file. -/
abbrev Files (Directory : Type) := Path Directory → Option String

/-- What a throw carries. -/
inductive RestoreError (Directory : Type)
  | backupFileNotFound (file : Path Directory)
  | other (error : BridgeError)

variable {Directory : Type}

def Files.write [DecidableEq Directory] (files : Files Directory) (path : Path Directory)
    (text : String) : Files Directory :=
  Function.update files path (some text)

def statePath (stateDir : Directory) : Path Directory := ⟨stateDir, "state.json"⟩

def latestPath (backupDir : Directory) : Path Directory := ⟨backupDir, "latest.json"⟩

/-- What the file parses to; `none` where there is no file. -/
def readJson (files : Files Directory) (path : Path Directory) :
    Except BridgeError (Option Json) :=
  match files path with
  | none => .ok none
  | some text => (okOr (Json.parse text) .malformedFile).map some

def loadState (stateDir : Directory) (files : Files Directory) :
    Except BridgeError (Option Json) :=
  (readJson files (statePath stateDir)).map fun
    | none | some .null => none
    | some value => some value

def saveState [DecidableEq Directory] (stateDir : Directory) (state : BridgeState) (now : String)
    (files : Files Directory) : BridgeState × Files Directory :=
  let next := state.set "updatedAt" (some (.string now))
  (next, files.write (statePath stateDir) ((Json.object next).stringify 2))

/-- The time without its colons and points. -/
def timestampSlug (date : String) : String :=
  date.map fun c => if c = ':' ∨ c = '.' then '-' else c

/-- The manifest and the path of the snapshot. -/
def createBackup [DecidableEq Directory] (stateDir backupDir : Directory) (createdAt date : String)
    (files : Files Directory) :
    Except BridgeError (Json × Path Directory) × Files Directory :=
  match loadState stateDir files with
  | .error err => (.error err, files)
  | .ok none => (.error .noState, files)
  | .ok (some state) =>
      if state.truthy then
        let manifest := .object [("formatVersion", .number 1), ("createdAt", .string createdAt),
          ("state", state)]
        let file := ⟨backupDir, "backup-" ++ timestampSlug date ++ ".json"⟩
        let json := manifest.stringify 2
        (.ok (manifest, file), (files.write file json).write (latestPath backupDir) json)
      else (.error .noState, files)

def readLatestBackup (backupDir : Directory) (files : Files Directory) :
    Except BridgeError (Option Json) :=
  readJson files (latestPath backupDir)

def readBackupFile (file : Path Directory) (files : Files Directory) :
    Except (RestoreError Directory) Json := do
  let manifest ← (readJson files file).mapError .other
  okOr manifest (.backupFileNotFound file)

structure RestoreOptions (Directory : Type) where
  fromFile : Option (Path Directory)
  backupDir : Directory
  targetStateDir : Directory
  asRole : Option BridgeRole

/-- The state that a restore is going to save. -/
def restoredState (opts : RestoreOptions Directory) (files : Files Directory) :
    Except (RestoreError Directory) BridgeState := do
  let manifest ←
    match opts.fromFile with
    | some file => (readBackupFile file files).map some
    | none => (readLatestBackup opts.backupDir files).mapError .other
  let manifest ← okOr manifest (.other .noBackup)
  refuseIf (manifest.truthy = false) (.other .noBackup)
  let state ← (checkedState manifest).mapError .other
  return state.set "role" ((opts.asRole.map BridgeRole.toJson) <|> state.get "role")

def restoreFromBackup [DecidableEq Directory] (opts : RestoreOptions Directory) (now : String)
    (files : Files Directory) :
    Except (RestoreError Directory) BridgeState × Files Directory :=
  match restoredState opts files with
  | .error err => (.error err, files)
  | .ok state =>
      let (saved, files) := saveState opts.targetStateDir state now files
      (.ok saved, files)

/-! ## Well-formed objects -/

theorem fieldsWellFormed_iff {fields : List (String × Json)} :
    FieldsWellFormed fields ↔ ∀ field ∈ fields, WellFormed field.2 := by
  induction fields with
  | nil => simp [FieldsWellFormed]
  | cons field fields ih => simp [FieldsWellFormed, ih]

theorem wellFormed_get {object : JsonObject} (h : WellFormed (.object object)) {key : String}
    {value : Json} (hget : object.get key = some value) : WellFormed value := by
  obtain ⟨before, after, rfl, -⟩ := List.lookup_eq_some_iff.mp hget
  exact fieldsWellFormed_iff.mp h.2 (key, value) (by simp)

theorem wellFormed_set {object : JsonObject} (h : WellFormed (.object object)) (key : String)
    {value : Option Json} (hvalue : ∀ v ∈ value, WellFormed v) :
    WellFormed (.object (object.set key value)) := by
  have hothers : WellFormed (.object (object.filter (·.1 ≠ key))) := by
    refine ⟨h.1.sublist (List.filter_sublist.map _), fieldsWellFormed_iff.mpr ?_⟩
    exact fun field hfield => fieldsWellFormed_iff.mp h.2 field (List.mem_of_mem_filter hfield)
  cases value with
  | none => exact hothers
  | some value =>
      refine ⟨List.nodup_cons.mpr ⟨?_, hothers.1⟩, hvalue value rfl, hothers.2⟩
      simp

/-! ## Files -/

variable {files : Files Directory}

@[simp] theorem write_self [DecidableEq Directory] (path : Path Directory) (text : String) :
    files.write path text path = some text := Function.update_self ..

/-- A value that has been written to a file is what the file parses to. -/
theorem readJson_of_text {path : Path Directory} {value : Json} (hvalue : WellFormed value)
    (hfile : files path = some (value.stringify 2)) : readJson files path = .ok (some value) := by
  simp [readJson, hfile, Json.parse_stringify hvalue, Except.map]

theorem loadState_saveState [DecidableEq Directory] {stateDir : Directory} {state : BridgeState}
    (hstate : WellFormed (.object state)) (now : String) :
    loadState stateDir (saveState stateDir state now files).2 =
      .ok (some (.object (saveState stateDir state now files).1)) := by
  have hnext : WellFormed (.object (state.set "updatedAt" (some (.string now)))) :=
    wellFormed_set hstate _ (by simp [WellFormed])
  simp only [loadState, saveState, readJson_of_text hnext (write_self _ _)]
  rfl

/-! ## Restores -/

/-- The file that the restore reads. -/
def RestoreOptions.source (opts : RestoreOptions Directory) : Path Directory :=
  opts.fromFile.getD (latestPath opts.backupDir)

/-- The text is that of a manifest of the supported version with this state in it, which
has all required fields. -/
def Restorable (text : Option String) (state : BridgeState) : Prop :=
  ∃ content manifest, text = some content ∧ Json.parse content = some manifest ∧
    manifest.fields.get "formatVersion" = some (.number 1) ∧
    (∃ value, manifest.fields.get "state" = some value ∧ value.fields = state) ∧
    ∀ field ∈ requiredFields, (state.get field).any Json.truthy = true

theorem readJson_eq_some {path : Path Directory} {value : Json} :
    readJson files path = .ok (some value) ↔
      ∃ content, files path = some content ∧ Json.parse content = some value := by
  unfold readJson
  cases files path with
  | none => simp
  | some content => cases hparse : Json.parse content <;> simp [okOr, Except.map, hparse]

theorem readBackupFile_eq_ok {file : Path Directory} {manifest : Json} :
    readBackupFile file files = .ok manifest ↔ readJson files file = .ok (some manifest) := by
  simp [readBackupFile, Except.bind_succeeds, mapError_eq_ok]

theorem checkedState_eq_ok {manifest : Json} {state : BridgeState} :
    checkedState manifest = .ok state ↔
      manifest.fields.get "formatVersion" = some (.number 1) ∧
        (∃ value, manifest.fields.get "state" = some value ∧ value.fields = state) ∧
        ∀ field ∈ requiredFields, (state.get field).any Json.truthy = true := by
  have hnone : (requiredFields.find? fun field => !(state.get field).any Json.truthy) = none ↔
      ∀ field ∈ requiredFields, (state.get field).any Json.truthy = true := by
    simp
  unfold checkedState
  generalize manifest.fields.get "formatVersion" = formatVersion
  generalize manifest.fields.get "state" = saved
  dsimp only
  split
  next =>
    split
    next => exact iff_of_false nofun fun h => nomatch h.2.1.choose_spec.1
    next =>
      refine iff_of_false nofun ?_
      rintro ⟨-, ⟨value, hvalue, rfl⟩, hfields⟩
      obtain rfl := Option.some.inj hvalue
      exact absurd (hfields "contractId" (by decide)) (by decide)
    next value _ =>
      constructor
      · intro h
        split at h
        next => contradiction
        next hfound =>
          obtain rfl := Except.ok.inj h
          exact ⟨rfl, ⟨value, rfl, rfl⟩, hnone.mp hfound⟩
      · rintro ⟨-, ⟨found, hfound, rfl⟩, hfields⟩
        obtain rfl := Option.some.inj hfound
        rw [hnone.mpr hfields]
        rfl
  next hversion => exact iff_of_false nofun fun h => hversion h.1

theorem truthy_of_get {value : Json} {key : String} {found : Json}
    (h : value.fields.get key = some found) : value.truthy = true := by
  cases value with
  | object => rfl
  | _ => contradiction

/-- Wherever it comes from, the manifest is what the source parses to. -/
theorem restoredState_eq_ok {opts : RestoreOptions Directory} {state : BridgeState} :
    restoredState opts files = .ok state ↔ ∃ saved, Restorable (files opts.source) saved ∧
      state = saved.set "role" ((opts.asRole.map BridgeRole.toJson) <|> saved.get "role") := by
  have hmanifest : restoredState opts files = .ok state ↔
      ∃ manifest, readJson files opts.source = .ok (some manifest) ∧ manifest.truthy = true ∧
        ∃ saved, checkedState manifest = .ok saved ∧
          saved.set "role" ((opts.asRole.map BridgeRole.toJson) <|> saved.get "role") = state := by
    unfold restoredState RestoreOptions.source
    cases opts.fromFile <;>
      simp [-bind_pure_comp, -Option.orElse_eq_orElse, Except.bind_succeeds, mapError_eq_ok,
        map_eq_ok, Except.pure_succeeds, readLatestBackup, readBackupFile_eq_ok]
  rw [hmanifest]
  constructor
  · rintro ⟨manifest, hread, -, saved, hchecked, rfl⟩
    obtain ⟨content, hfile, hparse⟩ := readJson_eq_some.mp hread
    exact ⟨saved, ⟨content, manifest, hfile, hparse, checkedState_eq_ok.mp hchecked⟩, rfl⟩
  · rintro ⟨saved, ⟨content, manifest, hfile, hparse, hchecked⟩, rfl⟩
    exact ⟨manifest, readJson_eq_some.mpr ⟨content, hfile, hparse⟩, truthy_of_get hchecked.1,
      saved, checkedState_eq_ok.mpr hchecked, rfl⟩

theorem restoreFromBackup_of_error [DecidableEq Directory] {opts : RestoreOptions Directory}
    {now : String} {err : RestoreError Directory}
    (h : (restoreFromBackup opts now files).1 = .error err) :
    (restoreFromBackup opts now files).2 = files := by
  unfold restoreFromBackup at h ⊢
  split
  · rfl
  next state hstate => simp [hstate] at h

/-- A restore throws exactly if its source is not restorable. -/
theorem restoreFromBackup_isOk [DecidableEq Directory] {opts : RestoreOptions Directory}
    {now : String} : (∃ restored, (restoreFromBackup opts now files).1 = .ok restored) ↔
      ∃ state, Restorable (files opts.source) state := by
  have hok : (∃ restored, (restoreFromBackup opts now files).1 = .ok restored) ↔
      ∃ state, restoredState opts files = .ok state := by
    unfold restoreFromBackup
    cases restoredState opts files <;> simp
  rw [hok]
  constructor
  · rintro ⟨state, hstate⟩
    obtain ⟨saved, hsaved, -⟩ := restoredState_eq_ok.mp hstate
    exact ⟨saved, hsaved⟩
  · rintro ⟨saved, hsaved⟩
    exact ⟨_, restoredState_eq_ok.mpr ⟨saved, hsaved, rfl⟩⟩

section Restores

variable [DecidableEq Directory] {stateDir backupDir : Directory} {state : BridgeState}

/-- The manifest of a saved state. -/
def manifestOf (state : BridgeState) (savedAt createdAt : String) : Json :=
  .object [("formatVersion", .number 1), ("createdAt", .string createdAt),
    ("state", .object (state.set "updatedAt" (some (.string savedAt))))]

theorem wellFormed_manifestOf (hstate : WellFormed (.object state)) (savedAt createdAt : String) :
    WellFormed (manifestOf state savedAt createdAt) := by
  have hnext : WellFormed (.object (state.set "updatedAt" (some (.string savedAt)))) :=
    wellFormed_set hstate _ (by simp [WellFormed])
  exact ⟨by simp, ⟨0, by simp⟩, trivial, hnext, trivial⟩

/-- A saved state is backed up as it was saved. -/
theorem createBackup_saveState (hstate : WellFormed (.object state)) {savedAt : String}
    (createdAt date : String) :
    ∃ file files',
      createBackup stateDir backupDir createdAt date (saveState stateDir state savedAt files).2 =
        (.ok (manifestOf state savedAt createdAt, file), files') ∧
      files' file = some ((manifestOf state savedAt createdAt).stringify 2) ∧
      files' (latestPath backupDir) = some ((manifestOf state savedAt createdAt).stringify 2) := by
  unfold createBackup
  rw [loadState_saveState hstate]
  refine ⟨_, _, rfl, ?_, write_self _ _⟩
  unfold Files.write
  rw [Function.update_apply, Function.update_self]
  split <;> rfl

/-- The manifest of a saved state with the required fields is restorable. -/
theorem restorable_manifestOf (hstate : WellFormed (.object state))
    (hfields : ∀ field ∈ requiredFields, (state.get field).any Json.truthy = true)
    (savedAt createdAt : String) :
    Restorable (some ((manifestOf state savedAt createdAt).stringify 2))
      (state.set "updatedAt" (some (.string savedAt))) := by
  refine ⟨_, _, rfl, Json.parse_stringify (wellFormed_manifestOf hstate savedAt createdAt) 2, rfl,
    ⟨_, rfl, rfl⟩, fun field hfield => ?_⟩
  have hne : field ≠ "updatedAt" := by
    rintro rfl
    exact absurd hfield (by decide)
  rw [JsonObject.get_set_of_ne _ _ hne]
  exact hfields field hfield

/-- What is saved by a restore of a saved state, but for the time. -/
def restoredOf (state : BridgeState) (savedAt : String) (asRole : Option BridgeRole) :
    BridgeState :=
  let saved := state.set "updatedAt" (some (.string savedAt))
  saved.set "role" ((asRole.map BridgeRole.toJson) <|> saved.get "role")

theorem restoreFromBackup_saved (hstate : WellFormed (.object state))
    (hfields : ∀ field ∈ requiredFields, (state.get field).any Json.truthy = true)
    (savedAt createdAt now : String) {opts : RestoreOptions Directory}
    (htext : files opts.source = some ((manifestOf state savedAt createdAt).stringify 2)) :
    restoreFromBackup opts now files =
      (.ok (saveState opts.targetStateDir (restoredOf state savedAt opts.asRole) now files).1,
        (saveState opts.targetStateDir (restoredOf state savedAt opts.asRole) now files).2) := by
  have hrestored : restoredState opts files = .ok (restoredOf state savedAt opts.asRole) :=
    restoredState_eq_ok.mpr
      ⟨_, htext ▸ restorable_manifestOf hstate hfields savedAt createdAt, rfl⟩
  rw [restoreFromBackup, hrestored]

theorem wellFormed_restored (hstate : WellFormed (.object state)) (savedAt : String)
    (asRole : Option BridgeRole) : WellFormed (.object (restoredOf state savedAt asRole)) := by
  have hsaved : WellFormed (.object (state.set "updatedAt" (some (.string savedAt)))) :=
    wellFormed_set hstate _ (by simp [WellFormed])
  refine wellFormed_set hsaved _ fun value hvalue => ?_
  cases asRole with
  | none => exact @wellFormed_get _ hsaved "role" value hvalue
  | some role =>
      obtain rfl := Option.some.inj hvalue
      cases role <;> trivial

theorem get_restored (state : BridgeState) (savedAt now : String) (asRole : Option BridgeRole)
    {key : String} (htime : key ≠ "updatedAt") (hrole : key = "role" → asRole = none) :
    ((restoredOf state savedAt asRole).set "updatedAt" (some (.string now))).get key =
      state.get key := by
  rw [JsonObject.get_set_of_ne _ _ htime, restoredOf]
  by_cases hkey : key = "role"
  · rw [hkey, JsonObject.get_set_self, hrole hkey]
    exact JsonObject.get_set_of_ne _ _ (by decide)
  · rw [JsonObject.get_set_of_ne _ _ hkey, JsonObject.get_set_of_ne _ _ htime]

/-- A well-formed state that is saved and backed up is restored, from the snapshot or the
latest backup, to any directory, and is what that directory then holds. A restore that
throws writes nothing, and one throws exactly if its source is not restorable. -/
theorem backup_and_restore (files : Files Directory) (stateDir backupDir : Directory)
    (hstate : WellFormed (.object state))
    (hfields : ∀ field ∈ requiredFields, (state.get field).any Json.truthy = true)
    (savedAt createdAt date : String) :
    (∃ manifest file files',
      createBackup stateDir backupDir createdAt date (saveState stateDir state savedAt files).2 =
        (.ok (manifest, file), files') ∧
      ∀ (opts : RestoreOptions Directory) (now : String) (later : Files Directory),
        opts.fromFile = none ∧ opts.backupDir = backupDir ∨ opts.fromFile = some file →
        later opts.source = files' opts.source →
        ∃ restored written, restoreFromBackup opts now later = (.ok restored, written) ∧
          (∀ key, key ≠ "updatedAt" → (key = "role" → opts.asRole = none) →
            restored.get key = state.get key) ∧
          (∀ role ∈ opts.asRole, restored.get "role" = some role.toJson) ∧
          loadState opts.targetStateDir written = .ok (some (.object restored))) ∧
    (∀ (opts : RestoreOptions Directory) (now : String) (files : Files Directory) err,
      (restoreFromBackup opts now files).1 = .error err →
        (restoreFromBackup opts now files).2 = files) ∧
    ∀ (opts : RestoreOptions Directory) (now : String) (files : Files Directory),
      (∃ restored, (restoreFromBackup opts now files).1 = .ok restored) ↔
        ∃ state, Restorable (files opts.source) state := by
  refine ⟨?_, fun opts now files err => restoreFromBackup_of_error,
    fun opts now files => restoreFromBackup_isOk⟩
  obtain ⟨file, files', hcreated, hfile, hlatest⟩ :=
    @createBackup_saveState _ files _ stateDir backupDir _ hstate savedAt createdAt date
  refine ⟨_, file, files', hcreated, fun opts now later hsource hlater => ?_⟩
  have htext : files' opts.source = some ((manifestOf state savedAt createdAt).stringify 2) := by
    rcases hsource with ⟨hnone, rfl⟩ | hfrom
    · rwa [RestoreOptions.source, hnone]
    · rwa [RestoreOptions.source, hfrom]
  have hok := restoreFromBackup_saved hstate hfields savedAt createdAt now (hlater.trans htext)
  refine ⟨_, _, hok, fun key => get_restored state savedAt now opts.asRole, fun role hrole => ?_,
    loadState_saveState (wellFormed_restored hstate savedAt opts.asRole) now⟩
  rw [saveState, JsonObject.get_set_of_ne _ _ (by decide), restoredOf, JsonObject.get_set_self,
    hrole]
  rfl

end Restores

namespace Sample

def state : BridgeState :=
  [("role", .string "primary"), ("contractId", .string "CTESTCONTRACT"),
    ("network", .string "testnet"), ("rpcUrl", .string "https://soroban-testnet.stellar.org"),
    ("signingKeySecretRef", .string "mock://oracle-bridge/signing-key"),
    ("lastSubmittedPrice", .number (51234 / 100)), ("lastSubmittedAt", .null),
    ("lastProcessedLedger", .number 42), ("updatedAt", .string "2026-01-01T00:00:00.000Z")]

theorem wellFormed_state : WellFormed (.object state) := by
  refine ⟨by decide, fieldsWellFormed_iff.mpr fun field hfield => ?_⟩
  have hprice : DecimalText.IsDecimal (51234 / 100) := ⟨2, by norm_num⟩
  have hledger : DecimalText.IsDecimal 42 := ⟨0, by norm_num⟩
  simp only [state, List.mem_cons, List.not_mem_nil, or_false] at hfield
  rcases hfield with rfl | rfl | rfl | rfl | rfl | rfl | rfl | rfl | rfl
  all_goals trivial

end Sample

/-- A standby takes over a price and a ledger. -/
theorem sample_backup_and_restore : ∃ (files : Files String) (opts : RestoreOptions String)
    (restored : BridgeState), loadState opts.targetStateDir files = .ok (some (.object restored)) ∧
      restored.get "lastSubmittedPrice" = some (.number (51234 / 100)) ∧
      restored.get "lastProcessedLedger" = some (.number 42) ∧
      restored.get "role" = some (.string "standby") := by
  obtain ⟨⟨manifest, file, files, -, hrestore⟩, -⟩ := backup_and_restore (fun _ => none)
    "primary" "backups" Sample.wellFormed_state (by decide) "2026-01-01T00:00:10.000Z"
    "2026-01-01T00:00:20.000Z" "2026-01-01T00:00:20.001Z"
  let opts : RestoreOptions String := ⟨none, "backups", "standby", some .standby⟩
  obtain ⟨restored, written, -, hsame, hrole, hload⟩ :=
    hrestore opts "2026-01-01T00:01:00.000Z" files (.inl ⟨rfl, rfl⟩) rfl
  exact ⟨written, opts, restored, hload, hsame "lastSubmittedPrice" (by decide) nofun,
    hsame "lastProcessedLedger" (by decide) nofun, hrole .standby rfl⟩

/-! ## The shared model

What the bridge's model takes for one access is one file here. -/

section Shared

variable [DecidableEq Directory] {stateDir backupDir : Directory} {files : Files Directory}

def fileAt (files : Files Directory) (path : Path Directory) : File :=
  match files path with
  | none => .missing
  | some text =>
      match Json.parse text with
      | none => .malformed
      | some value => .holds value

/-- The accesses of an instance with these directories. -/
def serve (stateDir backupDir : Directory) (now : String) :
    Script.Service Query.Reply (Files Directory)
  | .readState, files => (fileAt files (statePath stateDir), files)
  | .writeState state, files =>
      ((), files.write (statePath stateDir) ((Json.object state).stringify 2))
  | .readLatest, files => (fileAt files (latestPath backupDir), files)
  | .writeLatest manifest, files =>
      ((), files.write (latestPath backupDir) (manifest.stringify 2))
  | .now, files => (now, files)
  | .resolveSecret _, files => (none, files)

theorem restoreFromBackup_run (asRole : Option BridgeRole) (now : String) :
    Script.run (serve stateDir backupDir now) (OracleBridge.restoreFromBackup asRole).run files =
      let (result, written) := restoreFromBackup ⟨none, backupDir, stateDir, asRole⟩ now files
      (result.mapError fun
        | .backupFileNotFound _ => .noBackup
        | .other err => err, written) := by
  change Script.run _ (Script.bind
    (ExceptT.run (parseFile (fileAt files (latestPath backupDir)))) _) files = _
  unfold fileAt restoreFromBackup restoredState Disk.readLatestBackup readJson
  cases hfile : files (latestPath backupDir) with
  | none => rfl
  | some text =>
      cases hparse : Json.parse text with
      | none => simp only [hparse]; rfl
      | some manifest =>
          simp only [hparse]
          change Script.run _ (ExceptT.run (if manifest.truthy = true then
            ExceptT.mk (.done (checkedState manifest)) >>= _ else _)) files = _
          cases htruthy : manifest.truthy with
          | false =>
              simp only [okOr, Option.elim_some, Except.map, Except.mapError, bind, Except.bind,
                htruthy, refuseIf, if_true]
              rfl
          | true =>
              simp only [okOr, Option.elim_some, Except.map, Except.mapError, bind, Except.bind,
                htruthy, refuseIf, if_true, Bool.true_eq_false, if_false]
              cases checkedState manifest <;> rfl

/-- The bridge's model restores what was backed up, and the state file then holds it. -/
theorem shared_restore {state : BridgeState} (hstate : WellFormed (.object state))
    (hfields : ∀ field ∈ requiredFields, (state.get field).any Json.truthy = true)
    {savedAt createdAt : String} (hbackup : files (latestPath backupDir) =
      some ((manifestOf state savedAt createdAt).stringify 2))
    (asRole : Option BridgeRole) (now : String) :
    ∃ restored written,
      Script.run (serve stateDir backupDir now) (OracleBridge.restoreFromBackup asRole).run files =
        (.ok restored, written) ∧
      loadState stateDir written = .ok (some (.object restored)) ∧
      ∀ key, key ≠ "updatedAt" → (key = "role" → asRole = none) →
        restored.get key = state.get key := by
  let opts : RestoreOptions Directory := ⟨none, backupDir, stateDir, asRole⟩
  have hok := @restoreFromBackup_saved _ files _ _ hstate hfields savedAt createdAt now opts hbackup
  have hload := @loadState_saveState _ files _ stateDir _
    (wellFormed_restored hstate savedAt asRole) now
  refine ⟨_, _, ?_, hload, fun key => get_restored state savedAt now asRole⟩
  rw [restoreFromBackup_run, hok]
  rfl

end Shared

end StellarKraal.OracleBridge.Disk
