import StellarKraal.OracleBridge.Guarantees
import StellarKraal.Foundation.TransitionSystem

/-!
# A promotion next to a running standby

One `promote` runs on the directory of a standby process whose timers keep firing,
while other instances replace the latest backup as they please. Neither side locks
the state file: a tick that has looked at the role before the promotion's last
write may still write its own role after it.
-/

namespace StellarKraal.OracleBridge

open TransitionSystem (Transition)

/-! ## The system -/

structure Standby where
  site : Site
  latest : File

namespace Standby

inductive Action
  | site (action : Site.Action)
  | replaceLatest (file : File)

/-- The process keeps running, and there is only one promotion. -/
def allows (s : Standby) : Site.Action → Bool
  | .start _ | .stop => false
  | .promote => s.site.promotions.isEmpty
  | .fire _ | .advance _ | .advancePromotion _ _ => true

def act (s : Standby) : Action → Option Standby
  | .site action =>
      if s.allows action then (s.site.act s.latest action).map fun (site, latest) => ⟨site, latest⟩
      else none
  | .replaceLatest file => some { s with latest := file }

/-- What an action that is possible does. -/
inductive Effect (s : Standby) : Action → Standby → Prop
  | replaceLatest (file : File) : Effect s (.replaceLatest file) { s with latest := file }
  | fire {process : Process} (callback : Callback) (hprocess : s.site.process = some process)
      (hidle : process.running = none) (hmode : callback.mode = process.mode) :
      Effect s (.site (.fire callback)) { s with site := { s.site with
        process := some { process with
          running := some (callback.script process.config process.state) } } }
  | advance {process : Process} {script : Script Query.Reply Outcome} (outside : Outside)
      (hprocess : s.site.process = some process) (hrunning : process.running = some script) :
      Effect s (.site (.advance outside))
        ⟨{ s.site with
            file := (script.step (serve outside) ⟨s.site.file, s.latest⟩).2.state
            process := process.continued
              (script.step (serve outside) ⟨s.site.file, s.latest⟩).1 },
          (script.step (serve outside) ⟨s.site.file, s.latest⟩).2.latest⟩
  | promote (hnone : s.site.promotions = []) : Effect s (.site .promote)
      { s with site := { s.site with promotions := [OracleBridge.promote.run] } }
  | advancePromotion {k : Nat} {script : Script Query.Reply (Except BridgeError BridgeState)}
      (outside : Outside) (hk : s.site.promotions[k]? = some script) :
      Effect s (.site (.advancePromotion k outside))
        ⟨{ s.site with
            file := (script.step (serve outside) ⟨s.site.file, s.latest⟩).2.state
            promotions := s.site.promotions.set k
              (script.step (serve outside) ⟨s.site.file, s.latest⟩).1 },
          (script.step (serve outside) ⟨s.site.file, s.latest⟩).2.latest⟩

theorem Effect.of_act {s s' : Standby} {a : Action} (h : s.act a = some s') : s.Effect a s' := by
  cases a with
  | replaceLatest file =>
      obtain rfl := Option.some.inj h
      exact .replaceLatest file
  | site action =>
      simp only [act] at h
      split at h
      next hallowed =>
        obtain ⟨⟨site, latest⟩, hact, rfl⟩ := Option.map_eq_some_iff.mp h
        cases Site.Effect.of_act hact with
        | start config hprocess => contradiction
        | stop hprocess => contradiction
        | fire callback hprocess hidle hmode => exact .fire callback hprocess hidle hmode
        | advance outside hprocess hrunning => exact .advance outside hprocess hrunning
        | promote =>
            have hnone : s.site.promotions = [] := List.isEmpty_iff.mp hallowed
            rw [hnone]
            exact .promote hnone
        | advancePromotion outside hk => exact .advancePromotion outside hk
      next => contradiction

/-- An idle standby on a directory whose role is not primary. -/
def Initial (s : Standby) : Prop :=
  (∃ process, s.site.process = some process ∧ process.running = none ∧ process.mode = .standby) ∧
    s.site.promotions = [] ∧ s.site.file.isPrimary = false

def system : TransitionSystem Standby Action where
  Initial := Initial
  Step s a s' := s.act a = some s'

/-- The promotion has returned success. -/
def promoted (s : Standby) : Bool :=
  match s.site.promotions with
  | [.done (.ok _)] => true
  | _ => false

/-- The mode of a process between callbacks. -/
def restingMode (s : Standby) : Option Mode := do
  let process ← s.site.process
  if process.running.isNone then return process.mode else none

end Standby

/-! ## What is left of a promotion -/

def Query.isWriteState : Query → Bool
  | .writeState _ => true
  | _ => false

theorem serve_of_not_write {query : Query} (h : query.isWriteState = false) (outside : Outside)
    (files : Files) : (serve outside query files).2.state = files.state := by
  cases query with
  | writeState state => contradiction
  | _ => rfl

/-- From its first write on a promotion writes a primary only, and when it succeeds
it has just written one. -/
def Promotes : Script Query.Reply (Except BridgeError BridgeState) → Prop
  | .done result => ∃ e, result = .error e
  | .ask query next => query.WritesRole true ∧ ∀ reply, Promotes (next reply) ∨
      query.isWriteState ∧ ∃ saved, next reply = .done (.ok saved)

/-- Up to its first write it may only fail. -/
def Restores : Script Query.Reply (Except BridgeError BridgeState) → Prop
  | .done result => ∃ e, result = .error e
  | .ask query next =>
      (query.isWriteState = true → ∀ reply, Promotes (next reply)) ∧
        (query.isWriteState = false → ∀ reply, Restores (next reply))

theorem isPrimary_promoted (restored : BridgeState) (now : String) :
    BridgeState.isPrimary (JsonObject.set (restored.withRole .primary) "updatedAt"
      (some (.string now))) = true := by
  rw [isPrimary_set_of_ne _ _ (by decide), BridgeState.withRole, isPrimary_set_role]
  rfl

theorem restores_promote : Restores promote.run := by
  refine ⟨nofun, fun _ (file : File) => ?_⟩
  cases file with
  | missing => exact ⟨_, rfl⟩
  | malformed => exact ⟨_, rfl⟩
  | holds manifest =>
      change Restores (Script.bind (ExceptT.run (if manifest.truthy then _ else _)) _)
      cases htruthy : manifest.truthy with
      | false => exact ⟨_, rfl⟩
      | true =>
          simp only [if_true]
          change Restores
            (Script.bind (ExceptT.run (ExceptT.mk (.done (checkedState manifest)) >>= _)) _)
          cases checkedState manifest with
          | error e => exact ⟨_, rfl⟩
          | ok state =>
              -- The restored state is written; what follows is up to the secrets provider.
              refine ⟨nofun, fun _ now => ⟨fun _ _ => ⟨trivial, fun secret => .inl ?_⟩, nofun⟩⟩
              cases secret with
              | none => exact ⟨_, rfl⟩
              | some secret =>
                  refine ⟨trivial, fun now' => .inl ⟨isPrimary_promoted _ now', ?_⟩⟩
                  exact fun _ => .inr ⟨rfl, _, rfl⟩

section

variable {script rest : Script Query.Reply (Except BridgeError BridgeState)} {outside : Outside}
  {files files' : Files}

theorem Restores.step (h : Restores script)
    (hstep : script.step (serve outside) files = (rest, files'))
    (hfile : files.state.isPrimary = false) :
    (Restores rest ∧ files'.state.isPrimary = false) ∨ Promotes rest := by
  cases script with
  | done result =>
      obtain ⟨rfl, rfl⟩ := Prod.mk.inj hstep
      exact .inl ⟨h, hfile⟩
  | ask query next =>
      obtain ⟨rfl, rfl⟩ := Prod.mk.inj hstep
      cases hwrite : query.isWriteState with
      | true => exact .inr (h.1 hwrite _)
      | false => exact .inl ⟨h.2 hwrite _, by rwa [serve_of_not_write hwrite]⟩

theorem Promotes.step (h : Promotes script)
    (hstep : script.step (serve outside) files = (rest, files')) :
    (Promotes rest ∧ (files.state.isPrimary = true → files'.state.isPrimary = true)) ∨
      (∃ saved, rest = .done (.ok saved)) ∧ files'.state.isPrimary = true := by
  cases script with
  | done result =>
      obtain ⟨rfl, rfl⟩ := Prod.mk.inj hstep
      exact .inl ⟨h, id⟩
  | ask query next =>
      obtain ⟨rfl, rfl⟩ := Prod.mk.inj hstep
      rcases h.2 (serve outside query files).1 with hrest | ⟨hwrite, hdone⟩
      · refine .inl ⟨hrest, fun hfile => ?_⟩
        exact serve_writes (·.isPrimary = true) (fun _ hstate => hstate) hfile h.1
      · cases query with
        | writeState state => exact .inr ⟨hdone, h.1⟩
        | _ => contradiction

end

/-! ## What is left of a callback -/

/-- In primary mode the state in memory is a primary's as well. -/
def Outcome.Consistent (outcome : Outcome) : Prop :=
  ∀ state, outcome = some (.primary, state) → BridgeState.isPrimary state = true

theorem Outcome.Primary.consistent {outcome : Outcome} (h : outcome.Primary) :
    outcome.Consistent := by
  obtain ⟨state, hstate, rfl⟩ := h
  intro state' hstate'
  obtain ⟨-, rfl⟩ := Prod.mk.inj (Option.some.inj hstate')
  exact hstate

/-- Whatever role of primary the process finds in the file from here on it leaves
there: no tick is between its look at another role and its write. -/
def Process.Heeds (process : Process) : Prop :=
  process.rest.Guarantees (Query.Reads (·.isPrimary = true)) (Query.WritesRole true)
    Outcome.Consistent

/-- The same of the process there is, and of how it ends its callback. -/
def Standby.Keeps (ends : Outcome → Prop) (s : Standby) : Prop :=
  ∀ process, s.site.process = some process →
    process.rest.Guarantees (Query.Reads (·.isPrimary = true)) (Query.WritesRole true) ends

abbrev Standby.Heeds (s : Standby) : Prop := s.Keeps Outcome.Consistent

/-- Where the process may stand before the promotion has succeeded. -/
inductive Process.Stance (file : File) (process : Process) : Prop
  | standingBy (h : process.rest.Guarantees (Query.Reads fun _ => True) (Query.WritesRole false)
      Outcome.Subordinate)
  | looking (h : process.rest = tick process.config process.state)
  | switched (hfile : file.isPrimary = true) (h : process.Heeds)

/-- Where the promotion may stand before it has succeeded. -/
inductive Stage (file : File)
    (promotions : List (Script Query.Reply (Except BridgeError BridgeState))) : Prop
  | before (h : promotions = []) (hfile : file.isPrimary = false)
  | restoring {script : Script Query.Reply (Except BridgeError BridgeState)}
      (h : promotions = [script]) (hscript : Restores script) (hfile : file.isPrimary = false)
  | promoting {script : Script Query.Reply (Except BridgeError BridgeState)}
      (h : promotions = [script]) (hscript : Promotes script)

theorem Stage.mono {file file' : File}
    {promotions : List (Script Query.Reply (Except BridgeError BridgeState))}
    (h : Stage file promotions) (hfile : file.isPrimary = false → file'.isPrimary = false) :
    Stage file' promotions := by
  cases h with
  | before hnone hother => exact .before hnone (hfile hother)
  | restoring hone hscript hother => exact .restoring hone hscript (hfile hother)
  | promoting hone hscript => exact .promoting hone hscript

theorem Process.Stance.mono {file file' : File} {process : Process} (h : process.Stance file)
    (hfile : file.isPrimary = true → file'.isPrimary = true) : process.Stance file' := by
  cases h with
  | standingBy h => exact .standingBy h
  | looking h => exact .looking h
  | switched hprimary h => exact .switched (hfile hprimary) h

namespace Standby

/-- The invariant until the promotion succeeds. -/
structure Pending (s : Standby) : Prop where
  stage : Stage s.site.file s.site.promotions
  stance : ∀ process, s.site.process = some process → process.Stance s.site.file

/-- The invariant from then on. -/
structure Settled (s : Standby) : Prop where
  promoted : ∃ saved, s.site.promotions = [.done (.ok saved)]
  file : s.site.file.isPrimary = true
  heeds : s.Heeds

end Standby

/-! ## One step -/

section

variable {process process' : Process} {file latest : File} {outside : Outside}
  {script : Script Query.Reply Outcome}

/-- Timers that fire in a process that heeds the file lead on to primary mode. -/
theorem Process.Heeds.fire (h : process.Heeds) (hidle : process.running = none)
    {callback : Callback} (hmode : callback.mode = process.mode) :
    (callback.script process.config process.state).Guarantees (Query.Reads (·.isPrimary = true))
      (Query.WritesRole true) Outcome.Primary := by
  cases callback with
  | tick => exact tick_switches process.config process.state
  | _ =>
      apply Callback.script_guarantees
      · rw [Process.Heeds, Process.rest_of_idle hidle] at h
        exact h process.state (by rw [← hmode]; rfl)
      · rfl

theorem Process.Stance.fire (h : process.Stance file) (hidle : process.running = none)
    {callback : Callback} (hmode : callback.mode = process.mode)
    (hprocess : process' = { process with
      running := some (callback.script process.config process.state) }) :
    process'.Stance file := by
  subst hprocess
  cases h with
  | standingBy h =>
      rw [Process.rest_of_idle hidle] at h
      have hstandby : process.mode ≠ .primary := h process.mode process.state rfl
      cases callback with
      | tick => exact .looking rfl
      | _ => exact absurd hmode.symm hstandby
  | looking h =>
      obtain ⟨next, htick, -⟩ := tick_next process.config process.state
      rw [Process.rest_of_idle hidle, htick] at h
      contradiction
  | switched hfile h =>
      have hprimary := h.fire hidle hmode
      exact .switched hfile (hprimary.mono_ends fun _ houtcome => houtcome.consistent)

/-- An access of the callback in progress. Until the file says primary the process
writes another role, and from then on no other. -/
theorem Process.Stance.advance (h : process.Stance file) (hrunning : process.running = some script)
    (hprocess : process.continued (script.step (serve outside) ⟨file, latest⟩).1 =
      some process') : process'.Stance (script.step (serve outside) ⟨file, latest⟩).2.state := by
  cases h with
  | standingBy h => exact .standingBy (Process.advance_guarantees h trivial hrunning hprocess)
  | looking h =>
      obtain ⟨next, htick, hswitch, hsync⟩ := tick_next process.config process.state
      rw [Process.rest_of_running hrunning, htick] at h
      subst h
      have hrest := Process.continued_rest hprocess
      cases hfile : file.isPrimary with
      | true =>
          have hswitched : process'.rest = switchToPrimary process.config process.state :=
            hrest.trans (hswitch file hfile)
          refine .switched hfile ?_
          rw [Process.Heeds, hswitched]
          exact (switchToPrimary_guarantees _ _).mono_ends fun _ houtcome => houtcome.consistent
      | false => exact .standingBy (hrest ▸ hsync file hfile)
  | switched hfile h =>
      refine .switched ?_ (Process.advance_guarantees h hfile hrunning hprocess)
      exact Process.advance_file (·.isPrimary = true) h (fun _ hstate => hstate) hfile hrunning

/-- Before the file says primary no callback makes it say so. -/
theorem Process.Stance.advance_other (h : process.Stance file)
    (hrunning : process.running = some script) (hfile : file.isPrimary = false) :
    (script.step (serve outside) ⟨file, latest⟩).2.state.isPrimary = false := by
  cases h with
  | standingBy h =>
      exact Process.advance_file (·.isPrimary = false) h (fun _ hstate => hstate) hfile hrunning
  | looking h =>
      obtain ⟨next, htick, -⟩ := tick_next process.config process.state
      rw [Process.rest_of_running hrunning, htick] at h
      subst h
      exact hfile
  | switched hprimary => simp [hfile] at hprimary

end

namespace Standby

theorem promoted_iff {s : Standby} :
    s.promoted = true ↔ ∃ saved, s.site.promotions = [.done (.ok saved)] := by
  rw [promoted]
  split
  next saved hdone => exact iff_of_true rfl ⟨saved, hdone⟩
  next hother => exact iff_of_false (by simp) fun ⟨saved, hdone⟩ => hother saved hdone

theorem Pending.not_promoted {s : Standby} (h : s.Pending) : s.promoted = false := by
  by_contra hpromoted
  obtain ⟨saved, hdone⟩ := promoted_iff.mp (by simpa using hpromoted)
  cases h.stage with
  | before hnone => simp [hdone] at hnone
  | restoring hone hscript =>
      obtain rfl := List.singleton_inj.mp (hdone.symm.trans hone)
      simp [Restores] at hscript
  | promoting hone hscript =>
      obtain rfl := List.singleton_inj.mp (hdone.symm.trans hone)
      simp [Promotes] at hscript

/-- The promotion's own accesses. At the last one the process has to heed the file. -/
theorem Pending.advancePromotion {s : Standby} {k : Nat} {outside : Outside}
    {script rest : Script Query.Reply (Except BridgeError BridgeState)} {files : Files}
    (h : s.Pending) (hk : s.site.promotions[k]? = some script)
    (hstep : script.step (serve outside) ⟨s.site.file, s.latest⟩ = (rest, files))
    (hheeds : (∃ saved, s.site.promotions.set k rest = [.done (.ok saved)]) → s.Heeds) :
    Pending ⟨{ s.site with file := files.state, promotions := s.site.promotions.set k rest },
        files.latest⟩ ∨
      Settled ⟨{ s.site with file := files.state, promotions := s.site.promotions.set k rest },
        files.latest⟩ := by
  have honly {only} (hone : s.site.promotions = [only]) :
      only = script ∧ s.site.promotions.set k rest = [rest] := by
    rw [hone] at hk ⊢
    cases k with
    | zero => exact ⟨Option.some.inj hk, rfl⟩
    | succ k => simp at hk
  cases h.stage with
  | before hnone => simp [hnone] at hk
  | restoring hone hscript hfile =>
      obtain ⟨rfl, hrest⟩ := honly hone
      have hstance (file : File) : ∀ process, s.site.process = some process →
          process.Stance file := by
        intro process hprocess
        exact (h.stance process hprocess).mono fun hprimary => by simp [hfile] at hprimary
      left
      rcases hscript.step hstep hfile with ⟨hrestores, hfile'⟩ | hpromotes
      · exact ⟨.restoring hrest hrestores hfile', hstance _⟩
      · exact ⟨.promoting hrest hpromotes, hstance _⟩
  | promoting hone hscript =>
      obtain ⟨rfl, hrest⟩ := honly hone
      rcases hscript.step hstep with ⟨hpromotes, hfile⟩ | ⟨⟨saved, hdone⟩, hfile⟩
      · left
        exact ⟨.promoting hrest hpromotes, fun process hprocess =>
          (h.stance process hprocess).mono hfile⟩
      · right
        subst hdone
        exact ⟨⟨saved, hrest⟩, hfile, hheeds ⟨saved, hrest⟩⟩

theorem Pending.step {s s' : Standby} {a : Action} (h : s.Pending) (hstep : s.act a = some s')
    (hheeds : s'.promoted = true → s.Heeds) : s'.Pending ∨ s'.Settled := by
  cases Effect.of_act hstep with
  | replaceLatest file => exact .inl ⟨h.stage, h.stance⟩
  | fire callback hprocess hidle hmode =>
      refine .inl ⟨h.stage, fun process' hprocess' => ?_⟩
      exact (h.stance _ hprocess).fire hidle hmode (Option.some.inj hprocess').symm
  | @advance process script outside hprocess hrunning =>
      have hstance := h.stance process hprocess
      refine .inl ⟨h.stage.mono (hstance.advance_other hrunning), fun process' hprocess' => ?_⟩
      exact hstance.advance hrunning hprocess'
  | promote hnone =>
      cases h.stage with
      | before _ hfile => exact .inl ⟨.restoring rfl restores_promote hfile, h.stance⟩
      | restoring hother => simp [hnone] at hother
      | promoting hother => simp [hnone] at hother
  | advancePromotion outside hk =>
      exact h.advancePromotion hk rfl fun hdone => hheeds (promoted_iff.mpr hdone)

/-- How a process that heeds the file is bound to end stays the same after the
promotion, where a switch to primary mode is one of the ways. -/
theorem Settled.step_keeps {s s' : Standby} {a : Action} {ends : Outcome → Prop} (h : s.Settled)
    (hstep : s.act a = some s') (hends : ∀ outcome : Outcome, outcome.Primary → ends outcome)
    (hkeeps : s.Keeps ends) : s'.Keeps ends := by
  cases Effect.of_act hstep with
  | @fire process callback hprocess hidle hmode =>
      intro process' hprocess'
      obtain rfl := Option.some.inj hprocess'
      exact (Process.Heeds.fire (h.heeds process hprocess) hidle hmode).mono_ends hends
  | advance outside hprocess hrunning =>
      intro process' hprocess'
      exact Process.advance_guarantees (hkeeps _ hprocess) h.file hrunning hprocess'
  | replaceLatest file => exact hkeeps
  | promote hnone => exact hkeeps
  | advancePromotion outside hk => exact hkeeps

theorem Settled.step {s s' : Standby} {a : Action} (h : s.Settled) (hstep : s.act a = some s') :
    s'.Settled := by
  have hheeds : s'.Heeds := h.step_keeps hstep (fun _ houtcome => houtcome.consistent) h.heeds
  obtain ⟨saved, hdone⟩ := h.promoted
  cases Effect.of_act hstep with
  | replaceLatest file => exact ⟨h.promoted, h.file, hheeds⟩
  | fire callback hprocess => exact ⟨h.promoted, h.file, hheeds⟩
  | advance outside hprocess hrunning =>
      refine ⟨h.promoted, ?_, hheeds⟩
      exact Process.advance_file (·.isPrimary = true) (h.heeds _ hprocess)
        (fun _ hstate => hstate) h.file hrunning
  | promote hnone => simp [hdone] at hnone
  | @advancePromotion k script outside hk =>
      -- The promotion is over; there is nothing left of it to serve.
      rw [hdone] at hk
      cases k with
      | succ k => simp at hk
      | zero =>
          obtain rfl := Option.some.inj hk
          exact ⟨⟨saved, by simp [hdone, Script.step]⟩, h.file, hheeds⟩

/-- No callback is in progress. -/
def Idle (s : Standby) : Prop :=
  ∀ process, s.site.process = some process → process.running = none

def Action.fires : Action → Prop
  | .site (.fire _) => True
  | _ => False

/-- A timer that fires in an idle process after the promotion takes it to primary mode. -/
theorem Settled.step_idle {s s' : Standby} {a : Action} (h : s.Settled) (hidle : s.Idle)
    (hstep : s.act a = some s') : (s'.Idle ∧ ¬ a.fires) ∨ s'.Keeps Outcome.Primary := by
  cases Effect.of_act hstep with
  | @fire process callback hprocess _ hmode =>
      right
      intro process' hprocess'
      obtain rfl := Option.some.inj hprocess'
      exact Process.Heeds.fire (h.heeds process hprocess) (hidle process hprocess) hmode
  | advance outside hprocess hrunning => simp [hidle _ hprocess] at hrunning
  | replaceLatest file => exact .inl ⟨hidle, nofun⟩
  | promote hnone => exact .inl ⟨hidle, nofun⟩
  | advancePromotion outside hk => exact .inl ⟨hidle, nofun⟩

/-! ## Runs -/

theorem Initial.pending {s : Standby} (h : Initial s) : s.Pending := by
  obtain ⟨⟨process, hprocess, hidle, hmode⟩, hnone, hfile⟩ := h
  refine ⟨.before hnone hfile, fun process' hprocess' => ?_⟩
  obtain rfl := Option.some.inj (hprocess.symm.trans hprocess')
  refine .standingBy ?_
  rw [Process.rest_of_idle hidle, hmode]
  rintro mode state ⟨⟩
  decide

/-- A run from an idle process after the promotion: either no timer has fired yet,
or the process is bound for primary mode. -/
theorem Settled.run {s s' : Standby} {more : List (Transition Standby Action)} (h : s.Settled)
    (hidle : s.Idle) (hrun : system.Run s more s') : s'.Settled ∧
      (s'.Idle ∧ (∀ t ∈ more, ¬ t.action.fires) ∨ s'.Keeps Outcome.Primary) := by
  induction hrun with
  | nil => exact ⟨h, .inl ⟨hidle, by simp⟩⟩
  | @snoc more before after a prior step ih =>
      obtain ⟨hsettled, hquiet | hbound⟩ := ih
      · refine ⟨hsettled.step step, ?_⟩
        rcases hsettled.step_idle hquiet.1 step with ⟨hidle', hother⟩ | hbound
        · left
          refine ⟨hidle', fun t ht => ?_⟩
          rcases List.mem_append.mp ht with ht | ht
          · exact hquiet.2 t ht
          · obtain rfl := List.mem_singleton.mp ht
            exact hother
        · exact .inr hbound
      · exact ⟨hsettled.step step, .inr (hsettled.step_keeps step (fun _ h => h) hbound)⟩

theorem Keeps.restingMode {s : Standby} (h : s.Keeps Outcome.Primary) {mode : Mode}
    (hmode : s.restingMode = some mode) : mode = .primary := by
  obtain ⟨process, hprocess, hresting⟩ := Option.bind_eq_some_iff.mp hmode
  split at hresting
  next hidle =>
    have hrest := h process hprocess
    rw [Process.rest_of_idle (by simpa using hidle)] at hrest
    obtain ⟨state, -, hstate⟩ := hrest
    obtain ⟨hprimary, -⟩ := Prod.mk.inj (Option.some.inj hstate)
    exact (Option.some.inj hresting).symm.trans hprimary
  next => contradiction

end Standby

open Standby

/-- A promotion that has succeeded stays in the file, and the next tick switches the
process to primary mode, if no tick stood between its look at the role and its
write when the promotion made its last write. -/
theorem promotion_kept {start s : Standby} {steps : List (Transition Standby Standby.Action)}
    (hstart : start.Initial) (hrun : system.Run start steps s)
    (hheeds : ∀ t ∈ steps, t.before.promoted = false → t.after.promoted = true → t.before.Heeds)
    (hpromoted : s.promoted = true) :
    s.site.file.isPrimary = true ∧
      ∀ (more : List (Transition Standby Standby.Action)) (s' : Standby), system.Run s more s' →
        s.restingMode.isSome = true → (∃ t ∈ more, t.action.fires) →
        s'.restingMode.isSome = true → s'.restingMode = some .primary := by
  have hinvariant : s.Pending ∨ s.Settled := by
    apply hrun.invariant_of_steps
      (fun t => t.before.promoted = false → t.after.promoted = true → t.before.Heeds)
      ?_ hheeds (.inl hstart.pending)
    intro s a s' hbefore hstep hgood
    rcases hbefore with hpending | hsettled
    · exact hpending.step hstep (hgood hpending.not_promoted)
    · exact .inr (hsettled.step hstep)
  have hsettled : s.Settled := by
    rcases hinvariant with hpending | hsettled
    · simp [hpending.not_promoted] at hpromoted
    · exact hsettled
  refine ⟨hsettled.file, ?_⟩
  rintro more s' hmore hresting ⟨t, ht, hfires⟩ hresting'
  have hidle : s.Idle := by
    intro process hprocess
    by_contra hrunning
    simp [restingMode, hprocess, hrunning] at hresting
  obtain ⟨-, hquiet | hbound⟩ := hsettled.run hidle hmore
  · exact absurd hfires (hquiet.2 t ht)
  · obtain ⟨mode, hmode⟩ := Option.isSome_iff_exists.mp hresting'
    rw [hmode, hbound.restingMode hmode]

/-! The sample standby next to its primary's backup, with a provider that knows the
key. -/

namespace Sample

def knowing : Outside := ⟨"", fun _ => some "SKEY"⟩

def standby : Standby where
  site := {
    file := files.state
    process := some ⟨{ config with role := .standby }, .standby, stateOf .standby, none⟩
    promotions := []
    formerPrimary := false }
  latest := files.latest

def tick : Standby.Action := .site (.fire .tick)

def accesses (n : Nat) : List Standby.Action := List.replicate n (.site (.advance knowing))

def promotion : List Standby.Action :=
  .site .promote :: List.replicate 6 (.site (.advancePromotion 0 knowing))

theorem standby_initial : standby.Initial :=
  ⟨⟨_, rfl, rfl, rfl⟩, rfl, rfl⟩

end Sample

/-- A resting standby process heeds the file. -/
theorem heeds_of_resting {s : Standby} (h : s.restingMode = some .standby) : s.Heeds := by
  obtain ⟨process, hprocess, hresting⟩ := Option.bind_eq_some_iff.mp h
  intro process' hprocess'
  obtain rfl := Option.some.inj (hprocess.symm.trans hprocess')
  split at hresting
  next hidle =>
    rw [Process.rest_of_idle (by simpa using hidle)]
    intro state hprimary
    obtain ⟨hmode, -⟩ := Prod.mk.inj (Option.some.inj hprimary)
    exact absurd (hmode.symm.trans (Option.some.inj hresting)) (by decide)
  next => contradiction

theorem heeds_of_all {steps : List (Transition Standby Standby.Action)}
    (h : steps.all (fun t => t.before.promoted || !t.after.promoted ||
      decide (t.before.restingMode = some .standby)) = true) :
    ∀ t ∈ steps, t.before.promoted = false → t.after.promoted = true → t.before.Heeds := by
  intro t ht hbefore hafter
  have hresting := List.all_eq_true.mp h t ht
  exact heeds_of_resting (by simpa [hbefore, hafter] using hresting)

/-- The sample standby after one tick and then the promotion. -/
def Sample.promoted : Standby :=
  ((TransitionSystem.replay act standby (tick :: accesses 5 ++ promotion)).map Prod.snd).getD
    standby

/-- Its promotion is kept, and the next tick finds it. -/
theorem sample_promotion_kept :
    ∃ steps more s', system.Run Sample.standby steps Sample.promoted ∧
      system.Run Sample.promoted more s' ∧ Sample.promoted.site.file.isPrimary = true ∧
      s'.restingMode = some .primary := by
  have hrun : system.Run Sample.standby _ Sample.promoted :=
    TransitionSystem.Run.of_replay (fun _ _ _ h => h)
      (show TransitionSystem.replay act _ (Sample.tick :: Sample.accesses 5 ++ Sample.promotion) =
        some (_, Sample.promoted) from rfl)
  have hmore : system.Run Sample.promoted _ _ :=
    TransitionSystem.Run.of_replay (fun _ _ _ h => h)
      (show TransitionSystem.replay act _ (Sample.tick :: Sample.accesses 5) = some (_, _) from rfl)
  obtain ⟨hfile, hfound⟩ :=
    promotion_kept Sample.standby_initial hrun (heeds_of_all rfl) rfl
  have hnext := hfound _ _ hmore rfl ⟨_, List.mem_cons_self, trivial⟩ rfl
  exact ⟨_, _, _, hrun, hmore, hfile, hnext⟩

/-- A tick that looked before the promotion writes after it. -/
theorem promotion_lost :
    ¬ ∀ (start s : Standby) (steps : List (Transition Standby Standby.Action)), start.Initial →
      system.Run start steps s → s.promoted = true → s.site.file.isPrimary = true := by
  intro hall
  have hrun : system.Run Sample.standby _ _ := TransitionSystem.Run.of_replay (fun _ _ _ h => h)
    (show TransitionSystem.replay act Sample.standby
      (Sample.tick :: Sample.accesses 1 ++ Sample.promotion ++ Sample.accesses 3) = some (_, _)
      from rfl)
  exact Bool.false_ne_true (hall _ _ _ Sample.standby_initial hrun rfl)

end StellarKraal.OracleBridge
